import SolidityTree.Proofs.Owner

/-!
# Which function a look-up finds

A function is looked up by an owner and a name, in the listing of all functions of a tree.  Neither
is unique there: functions are overloaded, several contracts may share a name, and constructors have
no name at all.  So this module says which of all candidates is found, by its PLACE in the listing.

* `find?_eq_some_iff`: the first function with this owner and name; the empty owner asks first for a
  function without an owner, and then for the first one of the name, whoever owns it.
* `refs_of_passedOn`: what is listed below a node depends on its ancestors only by the owner that
  they pass on.  So nodes at the end of the root's list leave the listing below the root as it was,
  and only add to its end (`exists_belowRoot_extend`).

The root itself is never found by an owner, since nothing is above it.  Without an owner it may be,
if it is a function; then it is not the same function once it has more nodes, which is why what is
said about more nodes is said of owners that are not empty.

Contents
* §1  the first of a list
* §2  the two passes
* §3  more nodes at the root
* §4  look-up
-/

namespace SolidityTree

open Node

/-! ## 1. The first of a list -/

/-- The first of a list that has a property: it has it, and nothing before it does. -/
def IsFirst {α : Type} (p : α → Prop) (xs : List α) (x : α) : Prop :=
  ∃ before after, xs = before ++ x :: after ∧ p x ∧ ∀ y ∈ before, ¬ p y

section First

variable {α : Type} {p : α → Prop} {xs : List α} {x : α}

theorem find?_eq_some_iff_isFirst [DecidablePred p] :
    xs.find? (fun x => p x) = some x ↔ IsFirst p xs x := by
  rw [List.find?_eq_some_iff_append]
  constructor
  · rintro ⟨hx, before, after, heq, hbefore⟩
    exact ⟨before, after, heq, of_decide_eq_true hx, fun y hy => by simpa using hbefore y hy⟩
  · rintro ⟨before, after, heq, hx, hbefore⟩
    exact ⟨decide_eq_true hx, before, after, heq, fun y hy => by simpa using hbefore y hy⟩

end First

/-! ## 2. The two passes -/

/-- Whether a function has an owner and a name. -/
def FunctionRef.Answers (contract name : String) (r : FunctionRef) : Prop :=
  r.contract = contract ∧ r.head.name = name

instance (contract name : String) : DecidablePred (FunctionRef.Answers contract name) :=
  fun _ => inferInstanceAs (Decidable (_ ∧ _))

/-- Whether a function has a name. -/
def FunctionRef.Named (name : String) (r : FunctionRef) : Prop := r.head.name = name

instance (name : String) : DecidablePred (FunctionRef.Named name) :=
  fun _ => inferInstanceAs (Decidable (_ = _))

namespace Functions

open FunctionRef

variable {root : Option Node} {contract name : String} {r : FunctionRef}

/-- A look-up goes once through the listing by owner and name, and if there was no owner to look
for, once more by name. -/
theorem find?_eq_or (root : Option Node) (contract name : String) :
    find? root contract name =
      ((all root).find? fun r => Answers contract name r).or
        (if contract = "" then (all root).find? fun r => Named name r else none) := by
  have answers : (fun r : FunctionRef => decide (r.contract = contract ∧ r.head.name = name)) =
      fun r => decide (Answers contract name r) := rfl
  simp only [find?, answers]
  cases (all root).find? fun r => decide (Answers contract name r) <;> rfl

/-- By an owner there is only the first pass. -/
theorem find?_of_ne (h : contract ≠ "") :
    find? root contract name = (all root).find? fun r => Answers contract name r := by
  rw [find?_eq_or, if_neg h, Option.or_none]

/-- **What is found.** -/
theorem find?_eq_some_iff : find? root contract name = some r ↔
    IsFirst (Answers contract name) (all root) r ∨
      contract = "" ∧ (∀ s ∈ all root, ¬ Answers "" name s) ∧
        IsFirst (Named name) (all root) r := by
  rw [find?_eq_or, Option.or_eq_some_iff, find?_eq_some_iff_isFirst, List.find?_eq_none]
  refine or_congr_right ?_
  by_cases hc : contract = ""
  · subst hc
    simp only [if_true, find?_eq_some_iff_isFirst, decide_eq_true_eq, true_and]
  · simp [hc]

/-- **When something is found.** -/
theorem isSome_find?_iff : (find? root contract name).isSome ↔
    ∃ r ∈ all root, r.head.name = name ∧ (contract ≠ "" → r.contract = contract) := by
  rw [find?_eq_or, Option.isSome_or, Bool.or_eq_true, List.find?_isSome]
  by_cases hc : contract = ""
  · subst hc
    rw [if_pos rfl, List.find?_isSome]
    constructor
    · rintro (⟨r, hr, h⟩ | ⟨r, hr, h⟩)
      · exact ⟨r, hr, (of_decide_eq_true h).2, absurd rfl⟩
      · exact ⟨r, hr, of_decide_eq_true h, absurd rfl⟩
    · rintro ⟨r, hr, h, -⟩
      exact .inr ⟨r, hr, decide_eq_true h⟩
  · rw [if_neg hc]
    constructor
    · rintro (⟨r, hr, h⟩ | h)
      · exact ⟨r, hr, (of_decide_eq_true h).2, fun _ => (of_decide_eq_true h).1⟩
      · cases h
    · rintro ⟨r, hr, h, howner⟩
      exact .inl ⟨r, hr, decide_eq_true ⟨howner hc, h⟩⟩

/-- **By its own owner and name** a function that is listed is found, or one before it with both. -/
theorem exists_find?_self (h : r ∈ all root) :
    ∃ s, find? root r.contract r.head.name = some s ∧
      IsFirst (Answers r.contract r.head.name) (all root) s := by
  have found : ((all root).find? fun s => Answers r.contract r.head.name s).isSome :=
    List.find?_isSome.mpr ⟨r, h, decide_eq_true ⟨rfl, rfl⟩⟩
  obtain ⟨s, hs⟩ := Option.isSome_iff_exists.mp found
  have first := find?_eq_some_iff_isFirst.mp hs
  exact ⟨s, find?_eq_some_iff.mpr (.inl first), first⟩

end Functions

/-! ## 3. More nodes at the root -/

/-- A node with some more nodes at the end of its list of nodes, if it has such a list. -/
def Node.extend (more : List Node) : Node → Node
  | sourceUnit head nodes => .sourceUnit head (nodes ++ more)
  | contractDefinition head nodes => .contractDefinition head (nodes ++ more)
  | functionDefinition head body nodes => .functionDefinition head body (nodes ++ more)
  | variableDeclaration head nodes => .variableDeclaration head (nodes ++ more)
  | unknown tag id field nodes => .unknown tag id field (nodes ++ more)
  | node => node

/-- The children that a node lists get the same nodes at their end. -/
theorem Node.children_extend (more : List Node) (t : Node) :
    (t.extend more).children = t.children.map (· ++ more) := by
  cases t <;> rfl

/-- What a node passes on to its children does not depend on them. -/
theorem passedOn_extend (more : List Node) (t : Node) (ancestors : List Node) :
    passedOn (t.extend more :: ancestors) = passedOn (t :: ancestors) := by
  cases t <;> rfl

theorem Lineage.owner_eq (l : Lineage) :
    l.owner = if l.node.isFree then "" else passedOn l.ancestors := by
  rw [owner, passedOn_eq]

namespace Functions

open FunctionRef

/-- **What is listed at and below a node** depends on its ancestors only by the owner that they pass
on. -/
theorem refs_of_passedOn {ancestors ancestors' : List Node}
    (h : passedOn ancestors = passedOn ancestors') (t : Node) :
    (t.lineages ancestors).filterMap Lineage.ref? =
      (t.lineages ancestors').filterMap Lineage.ref? := by
  -- by induction on the tree for all pairs of ancestors at once: below `t` they both grow by `t`
  induction t using induction_on_children generalizing ancestors ancestors' with
  | step t ih =>
    have own : (⟨t, ancestors⟩ : Lineage).ref? = (⟨t, ancestors'⟩ : Lineage).ref? := by
      simp only [Lineage.ref?, Lineage.owner_eq, h]
    have passed : passedOn (t :: ancestors) = passedOn (t :: ancestors') := by
      rw [passedOn, passedOn, h]
    rw [lineages_eq, lineages_eq, List.filterMap_cons, List.filterMap_cons, own,
      List.filterMap_flatMap, List.filterMap_flatMap, List.flatMap_congr fun c hc => ih c hc passed]

/-- The functions below the root. -/
def belowRoot (t : Node) : List FunctionRef :=
  (t.children.getD []).flatMap fun c => (c.lineages [t]).filterMap Lineage.ref?

/-- The root, if it is a function, and the functions below it. -/
theorem all_some (t : Node) :
    all (some t) = (⟨t, []⟩ : Lineage).ref?.toList ++ belowRoot t := by
  rw [all_eq, Lineage.all, lineages_eq, List.filterMap_cons, List.filterMap_flatMap]
  cases (⟨t, []⟩ : Lineage).ref? <;> rfl

/-- **More nodes at the root** are listed after all that was listed below it. -/
theorem exists_belowRoot_extend (more : List Node) (t : Node) :
    ∃ later, belowRoot (t.extend more) = belowRoot t ++ later := by
  have same : ∀ c : Node, (c.lineages [t.extend more]).filterMap Lineage.ref? =
      (c.lineages [t]).filterMap Lineage.ref? :=
    refs_of_passedOn (passedOn_extend more t [])
  simp only [belowRoot, same, children_extend]
  cases t.children with
  | none => exact ⟨[], rfl⟩
  | some nodes => exact ⟨_, List.flatMap_append⟩

/-- The root has no owner. -/
theorem find?_root {contract name : String} (h : contract ≠ "") (t : Node) :
    ((⟨t, []⟩ : Lineage).ref?.toList.find? fun r => Answers contract name r) = none := by
  rw [List.find?_eq_none]
  intro r hr hanswers
  have owner : r.contract = "" := by
    have hr := Option.mem_toList.mp hr
    unfold Lineage.ref? at hr
    split at hr
    · cases hr
      rw [Lineage.owner_eq]
      exact ite_self _
    · cases hr
  exact h ((of_decide_eq_true hanswers).1.symm.trans owner)

/-- **What is found by an owner stays found** when the root gets more nodes at its end. -/
theorem find?_extend {t : Node} {contract name : String} {r : FunctionRef} (hc : contract ≠ "")
    (h : find? (some t) contract name = some r) (more : List Node) :
    find? (some (t.extend more)) contract name = some r := by
  -- the root itself is another one with more nodes, so it is split off on both sides
  rw [find?_of_ne hc, all_some, List.find?_append, find?_root hc, Option.none_or] at h ⊢
  obtain ⟨later, heq⟩ := exists_belowRoot_extend more t
  rw [heq, List.find?_append, h, Option.some_or]

/-! ## 4. Look-up -/

/-- **Looking up a function.**  Something is found exactly if a function of the name is listed that
has the owner, if there is one to look for.  It is the first one with exactly this owner and name;
and only if there is no owner to look for, and no function of the name without one, it is the first
one of the name.  So every function that is listed is found by its own owner and name, or one before
it with both; what is found by an owner is a hit without one too; and what is found by an owner does
not change when the root gets more nodes at the end of its list. -/
theorem find?_first_listed (root : Option Node) (contract name : String) :
    ((find? root contract name).isSome ↔
      ∃ r ∈ all root, r.head.name = name ∧ (contract ≠ "" → r.contract = contract)) ∧
    (∀ r, find? root contract name = some r ↔
      IsFirst (Answers contract name) (all root) r ∨
        contract = "" ∧ (∀ s ∈ all root, ¬ Answers "" name s) ∧
          IsFirst (Named name) (all root) r) ∧
    (∀ r ∈ all root, ∃ s, find? root r.contract r.head.name = some s ∧
      IsFirst (Answers r.contract r.head.name) (all root) s) ∧
    ((find? root contract name).isSome → (find? root "" name).isSome) ∧
    ∀ t more r, root = some t → contract ≠ "" → find? root contract name = some r →
      find? (some (t.extend more)) contract name = some r := by
  refine ⟨isSome_find?_iff, fun r => find?_eq_some_iff, fun r => exists_find?_self, ?_, ?_⟩
  · intro h
    obtain ⟨r, hr, hname, -⟩ := isSome_find?_iff.mp h
    exact isSome_find?_iff.mpr ⟨r, hr, hname, absurd rfl⟩
  · rintro t more r rfl hc h
    exact find?_extend hc h more

end Functions

end SolidityTree
