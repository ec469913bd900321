/-!
# Texts taken apart at a separator

`split` gives the pieces between the separators of a text, one more than there are separators, and
`join` puts pieces together again.  Lines, the numbers of a location and the names of a file path are
such pieces.
-/

namespace SolidityTree.Pieces

variable {α : Type} [DecidableEq α]

/-- The pieces between separators; a text without a separator is one piece. -/
def split (separator : α) : List α → List (List α)
  | [] => [[]]
  | a :: rest =>
    if a = separator then [] :: split separator rest
    else
      match split separator rest with
      | [] => [[a]]
      | piece :: more => (a :: piece) :: more

/-- Pieces with a separator between each two. -/
def join (separator : α) : List (List α) → List α
  | [] => []
  | [piece] => piece
  | piece :: more => piece ++ separator :: join separator more

theorem split_ne_nil (separator : α) (text : List α) : split separator text ≠ [] := by
  cases text with
  | nil => simp [split]
  | cons a rest =>
    simp only [split]
    split
    · simp
    · split <;> simp

/-- Nothing is lost: the pieces of a text make the text. -/
theorem join_split (separator : α) (text : List α) : join separator (split separator text) = text := by
  induction text with
  | nil => rfl
  | cons a rest ih =>
    simp only [split]
    split
    case isTrue h =>
      cases hs : split separator rest with
      | nil => exact absurd hs (split_ne_nil separator rest)
      | cons piece more => simp [join, ← hs, ih, h]
    case isFalse h =>
      cases hs : split separator rest with
      | nil => exact absurd hs (split_ne_nil separator rest)
      | cons piece more =>
        rw [hs] at ih
        cases more <;> simp_all [join]

end SolidityTree.Pieces
