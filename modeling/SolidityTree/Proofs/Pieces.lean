import SolidityTree.Text.Pieces

/-!
# Pieces of a text and how to find them again

A text taken apart at a separator gives pieces that hold none of it.  Here is the other direction:
pieces without a separator, put together with one between each two or behind each, are the pieces of
the text that comes out (`split_join`, `split_flatMap`).  So `split` can be described by `join`
alone (`split_eq_iff`), and whoever writes a text line by line or part by part can read it again.
-/

namespace SolidityTree.Pieces

variable {α : Type} [DecidableEq α] {separator : α}

/-- A byte that is no separator goes to the first piece. -/
theorem split_cons {a : α} (h : a ≠ separator) (rest : List α) :
    ∃ piece more, split separator rest = piece :: more ∧
      split separator (a :: rest) = (a :: piece) :: more := by
  cases hs : split separator rest with
  | nil => exact absurd hs (split_ne_nil separator rest)
  | cons piece more => exact ⟨piece, more, rfl, by simp [split, h, hs]⟩

/-- A piece with the separator behind it is split off. -/
theorem split_append {piece : List α} (h : separator ∉ piece) (rest : List α) :
    split separator (piece ++ separator :: rest) = piece :: split separator rest := by
  induction piece with
  | nil => simp [split]
  | cons a piece ih =>
    have ha : a ≠ separator := fun heq => h (heq ▸ List.mem_cons_self)
    have hrest := ih fun hmem => h (List.mem_cons_of_mem a hmem)
    simp [split, ha, hrest]

/-- The pieces of a text, each with a separator behind it. -/
theorem flatMap_split (text : List α) :
    (split separator text).flatMap (· ++ [separator]) = text ++ [separator] := by
  induction text with
  | nil => simp [split]
  | cons a text ih =>
    by_cases ha : a = separator
    · subst ha
      simp [split, ih]
    · obtain ⟨piece, more, hrest, hall⟩ := split_cons ha text
      rw [hrest, List.flatMap_cons] at ih
      rw [hall, List.flatMap_cons, List.cons_append, List.cons_append, ih, List.cons_append]

theorem split_of_not_mem {text : List α} (h : separator ∉ text) :
    split separator text = [text] := by
  induction text with
  | nil => rfl
  | cons a text ih =>
    have ha : a ≠ separator := fun heq => h (heq ▸ List.mem_cons_self)
    have hrest := ih fun hmem => h (List.mem_cons_of_mem a hmem)
    simp [split, ha, hrest]

/-- Pieces with a separator behind each of them, and a last one without. -/
theorem split_flatMap {pieces : List (List α)} {last : List α}
    (h : ∀ piece ∈ pieces, separator ∉ piece) (hlast : separator ∉ last) :
    split separator (pieces.flatMap (· ++ [separator]) ++ last) = pieces ++ [last] := by
  induction pieces with
  | nil => exact split_of_not_mem hlast
  | cons piece pieces ih =>
    rw [List.flatMap_cons, List.append_assoc, List.append_assoc, List.singleton_append,
      split_append (h piece List.mem_cons_self),
      ih fun p hp => h p (List.mem_cons_of_mem piece hp)]
    rfl

/-- A piece stands at the head of the text or behind a separator, and has none in it. -/
theorem exists_of_mem_split {text piece : List α} (h : piece ∈ split separator text) :
    separator ∉ piece ∧ ∃ after, text = piece ++ after ∨
      ∃ before, text = before ++ separator :: (piece ++ after) := by
  by_cases hsep : separator ∈ text
  · obtain ⟨first, rest, heq, hfirst⟩ := List.eq_append_cons_of_mem hsep
    have shorter : rest.length < text.length := by
      rw [heq, List.length_append, List.length_cons]
      omega
    rw [heq, split_append hfirst] at h
    rcases List.mem_cons.mp h with rfl | h
    · exact ⟨hfirst, separator :: rest, Or.inl heq⟩
    · obtain ⟨hpiece, after, hrest | ⟨before, hrest⟩⟩ := exists_of_mem_split h
      · exact ⟨hpiece, after, Or.inr ⟨first, by rw [heq, hrest]⟩⟩
      · exact ⟨hpiece, after, Or.inr ⟨first ++ separator :: before, by rw [heq, hrest]; simp⟩⟩
  · rw [split_of_not_mem hsep] at h
    obtain rfl : piece = text := by simpa using h
    exact ⟨hsep, [], Or.inl (List.append_nil piece).symm⟩
termination_by text.length

/-- Pieces with a separator between each two are found again. -/
theorem split_join {pieces : List (List α)} (hne : pieces ≠ [])
    (h : ∀ piece ∈ pieces, separator ∉ piece) :
    split separator (join separator pieces) = pieces := by
  induction pieces with
  | nil => exact absurd rfl hne
  | cons piece more ih =>
    have hpiece := h piece List.mem_cons_self
    cases more with
    | nil => exact split_of_not_mem hpiece
    | cons next more =>
      show split separator (piece ++ separator :: join separator (next :: more)) = _
      rw [split_append hpiece, ih (List.cons_ne_nil next more)
        fun p hp => h p (List.mem_cons_of_mem piece hp)]

/-- **What the pieces of a text are**: one or more, without a separator, that make the text. -/
theorem split_eq_iff {text : List α} {pieces : List (List α)} : split separator text = pieces ↔
    text = join separator pieces ∧ pieces ≠ [] ∧ ∀ piece ∈ pieces, separator ∉ piece := by
  constructor
  · rintro rfl
    exact ⟨(join_split separator text).symm, split_ne_nil separator text,
      fun piece hpiece => (exists_of_mem_split hpiece).1⟩
  · rintro ⟨rfl, hne, h⟩
    exact split_join hne h

end SolidityTree.Pieces
