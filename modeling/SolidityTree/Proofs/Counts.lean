import Mathlib.Data.List.Induction
import Mathlib.Data.List.Nodup
import SolidityTree.Proofs.UnknownTags

/-!
# Counts and filters agree

Three things are read off the walk that goes everywhere: the nodes of one kind, how many nodes of each
kind there are, and how many of each unregistered tag.  The filter keeps nodes, and the other two keep
tallies; here they are compared.

* `proper_tally` and `total_tally`: a tally has one entry for a key, and none that counts nothing, and
  altogether it counts as much as there were keys.  Both go by `tally_concat`, one key at a time.
* `flatMap_filter_perm_of_mem`: to sort the visited nodes by kind neither loses a node nor repeats one.
* `unknownTag?_eq_some_iff`: the nodes without a kind are those that were kept as unknown, so whoever
  asks such a node for its tag gets one.

Contents
* §1  tallies as maps
* §2  sorting by kind
* §3  unregistered tags
* §4  the walk
-/

namespace SolidityTree

namespace Walk

/-! ## 1. Tallies as maps -/

section Tally

variable {α : Type} [DecidableEq α] {counts : List (α × Nat)}

/-- What a tally counts altogether. -/
def total : List (α × Nat) → Nat
  | [] => 0
  | (_, n) :: rest => n + total rest

/-- No key has two entries, and no entry counts nothing. -/
structure Proper (counts : List (α × Nat)) : Prop where
  distinct : (counts.map Prod.fst).Nodup
  positive : ∀ entry ∈ counts, 0 < entry.2

/-- A key that was counted before keeps its place, and a new one comes last. -/
theorem keys_increment (key : α) (counts : List (α × Nat)) :
    (increment key counts).map Prod.fst =
      if key ∈ counts.map Prod.fst then counts.map Prod.fst else counts.map Prod.fst ++ [key] := by
  induction counts with
  | nil => rfl
  | cons entry rest ih =>
    obtain ⟨k, n⟩ := entry
    rw [increment]
    by_cases hk : k = key
    · subst hk
      simp
    · rw [if_neg hk, List.map_cons, ih]
      by_cases hm : key ∈ rest.map Prod.fst
      · simp [hm]
      · simp [hm, Ne.symm hk]

/-- An entry is as it was, or it has been counted up. -/
theorem mem_increment {key : α} {entry : α × Nat} (h : entry ∈ increment key counts) :
    entry ∈ counts ∨ 0 < entry.2 := by
  induction counts with
  | nil =>
    rw [increment, List.mem_singleton] at h
    exact .inr (h ▸ Nat.one_pos)
  | cons first rest ih =>
    obtain ⟨k, n⟩ := first
    rw [increment] at h
    split at h
    · rcases List.mem_cons.mp h with rfl | h
      · exact .inr n.succ_pos
      · exact .inl (List.mem_cons_of_mem _ h)
    · rcases List.mem_cons.mp h with rfl | h
      · exact .inl List.mem_cons_self
      · exact (ih h).imp_left (List.mem_cons_of_mem _)

theorem Proper.increment (h : Proper counts) (key : α) : Proper (increment key counts) where
  distinct := by
    rw [keys_increment]
    split
    · exact h.distinct
    · exact h.distinct.append (List.nodup_singleton key) (List.disjoint_singleton.mpr ‹_›)
  positive entry he := (mem_increment he).elim (h.positive entry) id

theorem total_increment (key : α) (counts : List (α × Nat)) :
    total (increment key counts) = total counts + 1 := by
  induction counts with
  | nil => rfl
  | cons entry rest ih =>
    obtain ⟨k, n⟩ := entry
    rw [increment]
    split
    · exact Nat.add_right_comm n 1 (total rest)
    · rw [total, ih, total, Nat.add_assoc]

theorem tally_concat (keys : List α) (key : α) :
    tally (keys ++ [key]) = increment key (tally keys) := by
  rw [tally, List.foldl_append]
  rfl

/-- **A tally is a map** whose entries all count something. -/
theorem proper_tally (keys : List α) : Proper (tally keys) := by
  induction keys using List.reverseRecOn with
  | nil => exact ⟨List.nodup_nil, nofun⟩
  | append_singleton keys key ih => exact tally_concat keys key ▸ ih.increment key

/-- **A tally counts every key once.** -/
theorem total_tally (keys : List α) : total (tally keys) = keys.length := by
  induction keys using List.reverseRecOn with
  | nil => rfl
  | append_singleton keys key ih =>
    rw [tally_concat, total_increment, ih, List.length_append]
    rfl

/-- The tally of a property counts the things that have it. -/
theorem countOf_tally_map {β : Type} (f : β → α) (xs : List β) (key : α) :
    countOf (tally (xs.map f)) key = xs.countP fun x => f x = key := by
  rw [countOf_tally, List.count_eq_countP, List.countP_map]
  rfl

end Tally

/-! ## 2. Sorting by kind -/

/-- What has one of some keys, sorted by key.  The keys are to be distinct, or some things would
come twice. -/
theorem flatMap_filter_perm {α β : Type} [DecidableEq β] (key : α → β) (xs : List α)
    {keys : List β} (h : keys.Nodup) :
    (keys.flatMap fun k => xs.filter fun x => key x = k).Perm
      (xs.filter fun x => key x ∈ keys) := by
  induction keys with
  | nil => simp
  | cons k rest ih =>
    obtain ⟨hk, hrest⟩ := List.nodup_cons.mp h
    -- The first key's are those among all of them, and the others are the rest.
    have first : ∀ x, (decide (key x = k) && decide (key x ∈ k :: rest)) = decide (key x = k) := by
      intro x
      by_cases hx : key x = k <;> simp [hx]
    have others : ∀ x, (!decide (key x = k) && decide (key x ∈ k :: rest)) =
        decide (key x ∈ rest) := by
      intro x
      by_cases hx : key x = k <;> simp [hx, hk]
    have parted := List.filter_append_perm (fun x => decide (key x = k))
      (xs.filter fun x => key x ∈ k :: rest)
    simp only [List.filter_filter, first, others] at parted
    rw [List.flatMap_cons]
    exact ((ih hrest).append_left _).trans parted

/-- Nothing is lost if every key is among them. -/
theorem flatMap_filter_perm_of_mem {α β : Type} [DecidableEq β] {key : α → β} (xs : List α)
    {keys : List β} (h : keys.Nodup) (hkey : ∀ x, key x ∈ keys) :
    (keys.flatMap fun k => xs.filter fun x => key x = k).Perm xs := by
  refine (flatMap_filter_perm key xs h).trans (.of_eq ?_)
  exact List.filter_eq_self.mpr fun x _ => decide_eq_true (hkey x)

/-- All kinds, and `none` for unregistered tags. -/
def kinds : List (Option Kind) := none :: Kind.all.map some

theorem nodup_kinds : kinds.Nodup := by decide +kernel

theorem mem_kinds (kind : Option Kind) : kind ∈ kinds := by
  cases kind with
  | none => exact List.mem_cons_self
  | some k => exact List.mem_cons_of_mem _ (List.mem_map_of_mem (Kind.mem_all k))

/-- The nodes that a walk visits, in order. -/
def visited (root : Option Node) : List Node := (everywhere root).map Visit.node

/-- **The nodes of each kind, one kind after the other, are the visited nodes.** -/
theorem filter_kinds_perm (root : Option Node) :
    (kinds.flatMap (filter root)).Perm (visited root) :=
  flatMap_filter_perm_of_mem (visited root) nodup_kinds fun s => mem_kinds s.kind

end Walk

/-! ## 3. Unregistered tags -/

/-- The tag of a node that is kept as unknown; any other node has none of its own. -/
def Node.unknownTag? : Node → Option String
  | unknown tag _ _ _ => some tag
  | _ => none

/-- **The nodes without a kind** are those that were kept as unknown, with the tag that they have. -/
theorem Node.unknownTag?_eq_some_iff {t : Node} {tag : String} :
    t.unknownTag? = some tag ↔ t.kind = none ∧ t.tag = tag := by
  cases t with
  | unknown => simp [unknownTag?, kind, Node.tag]
  | _ => exact iff_of_false (by rintro ⟨⟩) (by rintro ⟨⟨⟩, -⟩)

/-! ## 4. The walk -/

namespace Walk

theorem countOf_countByKind (root : Option Node) (kind : Option Kind) :
    countOf (countByKind root) kind = (filter root kind).length := by
  rw [countByKind, countOf_tally_map, filter, ← List.countP_eq_length_filter, List.countP_map]
  rfl

theorem sublist_filter (root : Option Node) (kind : Option Kind) :
    (filter root kind).Sublist (visited root) :=
  List.filter_sublist

theorem mem_filter_iff {root : Option Node} {kind : Option Kind} {s : Node} :
    s ∈ filter root kind ↔ s ∈ visited root ∧ s.kind = kind := by
  simp [filter, visited]

/-- **The count of a tag** is the number of visited nodes that were kept as unknown with this tag. -/
theorem countOf_unknownTags_eq (root : Option Node) (tag : String) :
    countOf (unknownTags root) tag =
      (visited root).countP fun s => s.unknownTag? = some tag := by
  rw [unknownTags, countOf_tally_map, filter, List.countP_filter]
  refine List.countP_congr fun s _ => ?_
  rw [Bool.and_eq_true, decide_eq_true_eq, decide_eq_true_eq, decide_eq_true_eq,
    Node.unknownTag?_eq_some_iff, and_comm]

/-- **Counts, filters and tags agree.**  The count of a kind is the number of its nodes, and a tally has
no other entries than those of kinds and tags that occur; all counts add up to the number of
visits.  The nodes of a kind are a part of the visited nodes, in the same order, and all kinds together
make up the visited nodes, none lost and none repeated.  A node without a kind has been kept as
unknown, so it has a tag; a tag is counted as often as such a node has it, and the counts of all
tags add up to the count of nodes without a kind. -/
theorem counts_agree (root : Option Node) :
    (∀ kind, countOf (countByKind root) kind = (filter root kind).length) ∧
    Proper (countByKind root) ∧ total (countByKind root) = (everywhere root).length ∧
    (∀ kind, (filter root kind).Sublist (visited root) ∧
      ∀ s, s ∈ filter root kind ↔ s ∈ visited root ∧ s.kind = kind) ∧
    kinds.Nodup ∧ (∀ kind, kind ∈ kinds) ∧ (kinds.flatMap (filter root)).Perm (visited root) ∧
    (∀ s ∈ filter root none, s.unknownTag? = some s.tag) ∧
    (∀ tag, countOf (unknownTags root) tag =
      (visited root).countP fun s => s.unknownTag? = some tag) ∧
    Proper (unknownTags root) ∧
    total (unknownTags root) = countOf (countByKind root) none := by
  refine ⟨countOf_countByKind root, proper_tally _, ?_,
    fun kind => ⟨sublist_filter root kind, fun _ => mem_filter_iff⟩,
    nodup_kinds, mem_kinds, filter_kinds_perm root,
    fun s hs => Node.unknownTag?_eq_some_iff.mpr ⟨(mem_filter_iff.mp hs).2, rfl⟩,
    countOf_unknownTags_eq root, proper_tally _, ?_⟩
  · rw [countByKind, total_tally, List.length_map]
  · rw [unknownTags, total_tally, List.length_map, countOf_countByKind]

end Walk

end SolidityTree
