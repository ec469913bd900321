import SolidityTree.Functions
import SolidityTree.Proofs.UnknownTags

/-!
# Whose function is it

A function is listed with its owner.  The listing never looks at ancestors: it keeps one owner per
depth while it walks.  This module says what the stack amounts to, in terms of the LINEAGE of each
visit: the node together with its ancestors in the walk, the nearest first.

* `map_visit_lineages`: the lineages of a tree are the visits of the walk, in the same order, and a
  node is as deep as it has ancestors; `mem_lineages_iff` says what ancestors are.
* `foldl_add`: at every visit the stack holds what each ancestor passes on, and what a visit leaves on
  it beyond its own depth is cut off by the next one.
* `all_eq`: so a function belongs to the contract that its nearest ancestor passes on.

A contract passes on its own name and any other node what it was passed, EXCEPT a free function: it
has no owner, and what is below it has none either, although a contract may enclose both.  `Lineage.owner`
is the owner that the nearest contract among all ancestors would give, and
`owner_eq_contract_iff` says exactly where the two differ.

Contents
* §1  lineages
* §2  owners
* §3  the stack
* §4  the listing
-/

namespace SolidityTree

open Node

/-! ## 1. Lineages -/

/-- A node of a tree and its ancestors, the nearest first. -/
structure Lineage where
  node : Node
  ancestors : List Node

namespace Node

mutual

/-- The lineages at and below a node with some ancestors, a node before what is below it. -/
def lineages (ancestors : List Node) : Node → List Lineage
  | .sourceUnit head nodes =>
    let node := .sourceUnit head nodes
    ⟨node, ancestors⟩ :: lineagesOf (node :: ancestors) nodes
  | .contractDefinition head nodes =>
    let node := .contractDefinition head nodes
    ⟨node, ancestors⟩ :: lineagesOf (node :: ancestors) nodes
  | .functionDefinition head body nodes =>
    let node := .functionDefinition head body nodes
    ⟨node, ancestors⟩ :: lineagesOf (node :: ancestors) nodes
  | .unknown tag id field nodes =>
    let node := .unknown tag id field nodes
    ⟨node, ancestors⟩ :: lineagesOf (node :: ancestors) nodes
  | node => [⟨node, ancestors⟩]

/-- The lineages at and below some nodes with the same ancestors. -/
def lineagesOf (ancestors : List Node) : List Node → List Lineage
  | [] => []
  | node :: rest => lineages ancestors node ++ lineagesOf ancestors rest

end

theorem lineagesOf_eq (ancestors : List Node) (nodes : List Node) :
    lineagesOf ancestors nodes = nodes.flatMap (lineages ancestors) := by
  induction nodes with
  | nil => rfl
  | cons t rest ih => rw [lineagesOf, ih, List.flatMap_cons]

/-- **What the lineages are.**  The children of a node have it as their nearest ancestor. -/
theorem lineages_eq (ancestors : List Node) (t : Node) :
    t.lineages ancestors =
      ⟨t, ancestors⟩ :: (t.children.getD []).flatMap (lineages (t :: ancestors)) := by
  cases t <;> simp [lineages, lineagesOf_eq, children]

/-- `Above t ancestors s`: one comes from `t` down to `s` through the ancestors, each of which is
a child of the next. -/
inductive Above (t : Node) : List Node → Node → Prop
  | top : Above t [] t
  | child {ancestors : List Node} {s c : Node} :
      Above t ancestors s → c ∈ s.children.getD [] → Above t (s :: ancestors) c

theorem Above.under {t c s : Node} {ancestors : List Node} (hc : c ∈ t.children.getD [])
    (h : Above c ancestors s) : Above t (ancestors ++ [t]) s := by
  induction h with
  | top => exact .child .top hc
  | child _ hs ih => exact .child ih hs

/-- A way down that is not empty begins at a child. -/
theorem Above.first {t s : Node} {ancestors : List Node} (h : Above t ancestors s) :
    (s = t ∧ ancestors = []) ∨
      ∃ c ∈ t.children.getD [], ∃ inner, ancestors = inner ++ [t] ∧ Above c inner s := by
  induction h with
  | top => exact .inl ⟨rfl, rfl⟩
  | @child ancestors s c hs hc ih =>
    right
    rcases ih with ⟨rfl, rfl⟩ | ⟨d, hd, inner, rfl, hi⟩
    · exact ⟨c, hc, [], rfl, .top⟩
    · exact ⟨d, hd, s :: inner, rfl, .child hi hc⟩

/-- **The lineages are the ways down.** -/
theorem mem_lineages_iff {t s : Node} {outer ancestors : List Node} :
    (⟨s, ancestors⟩ : Lineage) ∈ t.lineages outer ↔
      ∃ inner, ancestors = inner ++ outer ∧ Above t inner s := by
  induction t using induction_on_children generalizing outer with
  | step t ih =>
    rw [lineages_eq, List.mem_cons, List.mem_flatMap]
    constructor
    · rintro (h | ⟨c, hc, h⟩)
      · cases h
        exact ⟨[], rfl, .top⟩
      · obtain ⟨inner, rfl, hi⟩ := (ih c hc).mp h
        exact ⟨inner ++ [t], by simp, hi.under hc⟩
    · rintro ⟨inner, rfl, hi⟩
      rcases hi.first with ⟨rfl, rfl⟩ | ⟨c, hc, front, rfl, hf⟩
      · exact .inl rfl
      · exact .inr ⟨c, hc, (ih c hc).mpr ⟨front, by simp, hf⟩⟩

end Node

/-- The lineages of a tree, if there is one. -/
def Lineage.all (root : Option Node) : List Lineage :=
  match root with
  | none => []
  | some t => t.lineages []

/-- The visit of a node, which is as deep as it has ancestors. -/
def Lineage.visit (l : Lineage) : Visit := ⟨l.node, l.ancestors.length⟩

theorem Node.map_visit_lineages (ancestors : List Node) (t : Node) :
    (t.lineages ancestors).map Lineage.visit =
      Walk.visitsBelow ancestors.length t := by
  induction t using induction_on_children generalizing ancestors with
  | step t ih =>
    rw [lineages_eq, Walk.visitsBelow_eq, List.map_cons, List.map_flatMap]
    exact congrArg _ (List.flatMap_congr fun c hc => ih c hc (t :: ancestors))

/-- **The lineages of a tree are the visits of the walk through it**, in the same order. -/
theorem Lineage.map_visit_all (root : Option Node) :
    (Lineage.all root).map Lineage.visit = Walk.everywhere root := by
  cases root with
  | none => rfl
  | some t => exact t.map_visit_lineages []

/-! ## 2. Owners -/

namespace Node

/-- The name of a contract. -/
def contractName? : Node → Option String
  | contractDefinition head _ => some head.name
  | _ => none

/-- Whether a node is a free function. -/
def isFree : Node → Bool
  | functionDefinition head _ _ => head.kind = .freeFunction
  | _ => false

end Node

/-- The name of the nearest contract among ancestors; empty if there is none. -/
def nearestContract (ancestors : List Node) : String := (ancestors.findSome? contractName?).getD ""

/-- The ancestors that are below every free function among them. -/
def belowFree (ancestors : List Node) : List Node := ancestors.takeWhile fun a => !a.isFree

/-- What the nearest of some ancestors passes on to what is below it. -/
def passedOn : List Node → String
  | [] => ""
  | a :: rest => if a.isFree then "" else a.contractName?.getD (passedOn rest)

/-- **The owner that is passed on** is the nearest contract, up to the nearest free function. -/
theorem passedOn_eq (ancestors : List Node) :
    passedOn ancestors = nearestContract (belowFree ancestors) := by
  induction ancestors with
  | nil => rfl
  | cons a rest ih =>
    rw [passedOn, belowFree, List.takeWhile_cons]
    cases hf : a.isFree with
    | true => rfl
    | false =>
      rw [if_neg (by simp), ih]
      simp only [Bool.not_false, if_true, nearestContract, List.findSome?_cons, belowFree]
      cases a.contractName? <;> rfl

namespace Lineage

/-- The owner of a function by the nearest contract among ALL its ancestors; a free function has
none. -/
def contract (l : Lineage) : String := if l.node.isFree then "" else nearestContract l.ancestors

/-- The owner of a function by the nearest contract that no free function separates from it. -/
def owner (l : Lineage) : String :=
  if l.node.isFree then "" else nearestContract (belowFree l.ancestors)

/-- The function of a lineage with its owner, if the node is one. -/
def ref? (l : Lineage) : Option FunctionRef :=
  match l.node with
  | .functionDefinition head body nodes => some ⟨l.owner, head, body, nodes⟩
  | _ => none

/-- Whether a free function stands between a function and the contract that encloses both. -/
def CutOff (l : Lineage) : Prop :=
  l.node.isFree = false ∧ ∃ inner free outer, l.ancestors = inner ++ free :: outer ∧
    free.isFree = true ∧ (∀ a ∈ inner, a.contractName? = none) ∧ nearestContract outer ≠ ""

end Lineage

theorem nearestContract_append {inner : List Node} (h : ∀ a ∈ inner, a.contractName? = none)
    (outer : List Node) : nearestContract (inner ++ outer) = nearestContract outer := by
  have none : inner.findSome? contractName? = none := List.findSome?_eq_none_iff.mpr h
  rw [nearestContract, nearestContract, List.findSome?_append, none]
  rfl

theorem nearestContract_of_none {ancestors : List Node}
    (h : ∀ a ∈ ancestors, a.contractName? = none) : nearestContract ancestors = "" := by
  have := nearestContract_append h []
  rwa [List.append_nil] at this

/-- A free function is no contract. -/
theorem nearestContract_free {free : Node} (h : free.isFree = true) (outer : List Node) :
    nearestContract (free :: outer) = nearestContract outer := by
  cases free with
  | functionDefinition head body nodes => rfl
  | _ => cases h

/-- Ancestors up to the nearest free function, and the rest. -/
theorem belowFree_append (ancestors : List Node) :
    ∃ rest, ancestors = belowFree ancestors ++ rest ∧ ∀ free ∈ rest.head?, free.isFree = true := by
  refine ⟨ancestors.dropWhile fun a => !a.isFree, List.takeWhile_append_dropWhile.symm, ?_⟩
  intro free h
  have := List.head?_dropWhile_not (fun a : Node => !a.isFree) ancestors
  rw [Option.mem_def.mp h] at this
  simpa using this

/-- No contract is found below a free function if there is none up to some free function. -/
theorem nearestContract_belowFree {inner outer : List Node} {free : Node}
    (hfree : free.isFree = true) (h : ∀ a ∈ inner, a.contractName? = none) :
    nearestContract (belowFree (inner ++ free :: outer)) = "" := by
  refine nearestContract_of_none fun a ha => ?_
  induction inner with
  | nil =>
    rw [List.nil_append, belowFree, List.takeWhile_cons, hfree] at ha
    cases ha
  | cons b inner ih =>
    rw [List.cons_append, belowFree, List.takeWhile_cons] at ha
    split at ha
    · rcases List.mem_cons.mp ha with rfl | ha
      · exact h a List.mem_cons_self
      · exact ih (fun b hb => h b (List.mem_cons_of_mem _ hb)) ha
    · cases ha

/-- **Where the owner is not the enclosing contract**: exactly where a free function is in
between. -/
theorem Lineage.owner_eq_contract_iff (l : Lineage) : l.owner = l.contract ↔ ¬ l.CutOff := by
  obtain ⟨node, ancestors⟩ := l
  rw [owner, contract]
  dsimp only
  cases hn : node.isFree with
  | true => exact iff_of_true rfl fun h => absurd (h.1.symm.trans hn) (by decide)
  | false =>
    simp only [Bool.false_eq_true, if_false]
    constructor
    · rintro heq ⟨-, inner, free, outer, rfl, hfree, hinner, houter⟩
      rw [nearestContract_belowFree hfree hinner, nearestContract_append hinner,
        nearestContract_free hfree] at heq
      exact houter heq.symm
    · intro hcut
      obtain ⟨rest, heq, hrest⟩ := belowFree_append ancestors
      cases hc : (belowFree ancestors).findSome? contractName? with
      | some name =>
        conv_rhs => rw [heq]
        rw [nearestContract, nearestContract, List.findSome?_append, hc]
        rfl
      | none =>
        have hinner := List.findSome?_eq_none_iff.mp hc
        conv_rhs => rw [heq]
        rw [nearestContract_append hinner, nearestContract_of_none hinner]
        cases rest with
        | nil => rfl
        | cons free outer =>
          have hfree := hrest free rfl
          rw [nearestContract_free hfree]
          by_contra houter
          exact hcut ⟨hn, _, free, outer, heq, hfree, hinner, Ne.symm houter⟩

/-! ## 3. The stack -/

namespace Functions

/-- The owners that some ancestors pass on, the farthest one first. -/
def stack : List Node → List String
  | [] => []
  | a :: rest => stack rest ++ [passedOn (a :: rest)]

theorem length_stack (ancestors : List Node) : (stack ancestors).length = ancestors.length := by
  induction ancestors with
  | nil => rfl
  | cons a rest ih => rw [stack, List.length_append, ih]; rfl

/-- The owner above a node is what its nearest ancestor passes on. -/
theorem ownerAbove_stack (ancestors : List Node) :
    ownerAbove (stack ancestors) ancestors.length = passedOn ancestors := by
  cases ancestors with
  | nil => rfl
  | cons a rest =>
    rw [ownerAbove, if_neg (by simp), stack, List.length_cons, Nat.add_sub_cancel,
      ← length_stack rest, List.getElem?_concat_length]
    rfl

/-- The stack is right for the ancestors of a node. -/
def Ready (ancestors : List Node) (g : Gathered) : Prop :=
  g.owners.take ancestors.length = stack ancestors

/-- What is right for the children of a node is right for the node. -/
theorem Ready.parent {a : Node} {ancestors : List Node} {g : Gathered}
    (h : Ready (a :: ancestors) g) : Ready ancestors g := by
  have hle : ancestors.length ≤ (a :: ancestors).length := Nat.le_succ _
  calc g.owners.take ancestors.length
      = (g.owners.take (a :: ancestors).length).take ancestors.length := by
        rw [List.take_take, Nat.min_eq_left hle]
    _ = (stack ancestors ++ [passedOn (a :: ancestors)]).take ancestors.length := by rw [h, stack]
    _ = stack ancestors := List.take_left' (length_stack ancestors)

/-- **One visit.**  If the stack is right for a node, it is right for the children after the visit,
and the function that the node may be has been found with its owner. -/
theorem add_visit (l : Lineage) (g : Gathered) (h : Ready l.ancestors g) :
    g.add l.visit = ⟨stack (l.node :: l.ancestors), l.ref?.toList ++ g.found⟩ := by
  obtain ⟨node, ancestors⟩ := l
  have hg : g.owners.take ancestors.length = stack ancestors := h
  unfold Gathered.add Lineage.visit
  simp only [hg, ownerAbove_stack, stack]
  cases node with
  | functionDefinition head body nodes =>
    by_cases hk : head.kind = .freeFunction
    · simp [hk, passedOn, isFree, Lineage.ref?, Lineage.owner]
    · simp [hk, passedOn, isFree, contractName?, Lineage.ref?, Lineage.owner, passedOn_eq]
  | _ => rfl

/-- What a visit leaves is right for the children of the node. -/
theorem Ready.add {l : Lineage} {g : Gathered} (h : Ready l.ancestors g) :
    Ready (l.node :: l.ancestors) (g.add l.visit) := by
  rw [add_visit l g h, Ready, ← length_stack (l.node :: l.ancestors), List.take_length]

/-- From every stack that is right for some ancestors, visits lead to one that is right for them
again and find some functions, in this order. -/
def Finds (ancestors : List Node) (visits : List Visit) (refs : List FunctionRef) : Prop :=
  ∀ g, Ready ancestors g → Ready ancestors (visits.foldl Gathered.add g) ∧
    (visits.foldl Gathered.add g).found = refs.reverse ++ g.found

theorem Finds.append {ancestors : List Node} {visits visits' : List Visit}
    {refs refs' : List FunctionRef} (h : Finds ancestors visits refs)
    (h' : Finds ancestors visits' refs') : Finds ancestors (visits ++ visits') (refs ++ refs') := by
  intro g hg
  obtain ⟨ready, found⟩ := h g hg
  obtain ⟨ready', found'⟩ := h' _ ready
  rw [List.foldl_append]
  exact ⟨ready', by rw [found', found, List.reverse_append, List.append_assoc]⟩

/-- Nodes with the same ancestors, one after the other. -/
theorem Finds.flatMap {ancestors : List Node} {visits : Node → List Visit}
    {refs : Node → List FunctionRef} {nodes : List Node}
    (h : ∀ c ∈ nodes, Finds ancestors (visits c) (refs c)) :
    Finds ancestors (nodes.flatMap visits) (nodes.flatMap refs) := by
  induction nodes with
  | nil => exact fun g hg => ⟨hg, rfl⟩
  | cons c rest ih =>
    rw [List.flatMap_cons, List.flatMap_cons]
    exact (h c List.mem_cons_self).append (ih fun d hd => h d (List.mem_cons_of_mem _ hd))

/-- A node and what is below it: the next visit that is no deeper finds the stack restored. -/
theorem Finds.cons {l : Lineage} {visits : List Visit} {refs : List FunctionRef}
    (h : Finds (l.node :: l.ancestors) visits refs) :
    Finds l.ancestors (l.visit :: visits) (l.ref?.toList ++ refs) := by
  intro g hg
  obtain ⟨ready, found⟩ := h _ hg.add
  rw [List.foldl_cons]
  refine ⟨ready.parent, ?_⟩
  rw [found, add_visit l g hg, List.reverse_append, List.append_assoc]
  cases l.ref? <;> rfl

/-- **A whole tree**: its functions are found with their owners, and the stack is restored. -/
theorem finds_lineages (ancestors : List Node) (t : Node) :
    Finds ancestors (Walk.visitsBelow ancestors.length t)
      ((t.lineages ancestors).filterMap Lineage.ref?) := by
  induction t using induction_on_children generalizing ancestors with
  | step t ih =>
    have below : Finds (t :: ancestors)
        ((t.children.getD []).flatMap (Walk.visitsBelow (ancestors.length + 1)))
        (((t.children.getD []).flatMap (lineages (t :: ancestors))).filterMap Lineage.ref?) := by
      rw [List.filterMap_flatMap]
      exact Finds.flatMap fun c hc => ih c hc (t :: ancestors)
    rw [Walk.visitsBelow_eq, lineages_eq, List.filterMap_cons]
    have whole := Finds.cons (l := ⟨t, ancestors⟩) below
    cases href : (⟨t, ancestors⟩ : Lineage).ref? <;> rw [href] at whole <;> exact whole

/-! ## 4. The listing -/

/-- **The functions of a tree** are those of its lineages, each with its owner. -/
theorem all_eq (root : Option Node) : all root = (Lineage.all root).filterMap Lineage.ref? := by
  cases root with
  | none => rfl
  | some t =>
    obtain ⟨-, found⟩ := finds_lineages [] t ⟨[], []⟩ rfl
    show ((Walk.visitsBelow 0 t).foldl Gathered.add ⟨[], []⟩).found.reverse = _
    rw [List.append_nil] at found
    exact (congrArg List.reverse found).trans (List.reverse_reverse _)

/-- **The functions of a tree and their owners.**  A tree's lineages are the visits of the walk
through it, so they come in the order of the document, and their ancestors are those by way of
children.  The functions among them are listed in this order, a free function without an owner and any
other with the nearest contract that no free function separates from it; and this is the
nearest contract of all, unless the function is cut off from it. -/
theorem all_with_owners (root : Option Node) :
    (Lineage.all root).map Lineage.visit = Walk.everywhere root ∧
    (∀ l, l ∈ Lineage.all root ↔ ∃ t, root = some t ∧ Above t l.ancestors l.node) ∧
    all root = (Lineage.all root).filterMap Lineage.ref? ∧
    ∀ l ∈ Lineage.all root, l.owner = l.contract ↔ ¬ l.CutOff := by
  refine ⟨Lineage.map_visit_all root, ?_, all_eq root, fun l _ => l.owner_eq_contract_iff⟩
  intro l
  cases root with
  | none => exact iff_of_false (by rintro ⟨⟩) (by rintro ⟨t, ⟨⟩, -⟩)
  | some t =>
    show (⟨l.node, l.ancestors⟩ : Lineage) ∈ t.lineages [] ↔ _
    rw [mem_lineages_iff]
    constructor
    · rintro ⟨inner, heq, h⟩
      rw [List.append_nil] at heq
      exact ⟨t, rfl, heq ▸ h⟩
    · rintro ⟨t', ht, h⟩
      cases ht
      exact ⟨l.ancestors, (List.append_nil _).symm, h⟩

/-- A function without body and with nothing below it but some nodes. -/
def declared (id : Int64) (name : String) (kind : FunctionKind) (nodes : List Node) : Node :=
  .functionDefinition ⟨id, "", name, kind, .internal, .pure, false, none⟩ none nodes

/-- A contract, in it a free function, and in that one an ordinary function. -/
def enclosed : Node :=
  .contractDefinition ⟨1, "", "A", "contract", false⟩
    [declared 2 "f" .freeFunction [declared 3 "g" .function []]]

theorem wellFormed_enclosed : enclosed.WellFormed := by
  have function : ∀ id name kind nodes, (∀ p ∈ listed .nodes 0 nodes, p.2.WellFormed) →
      (declared id name kind nodes).WellFormed := fun id name kind nodes h =>
    wellFormed_iff.mpr ⟨⟨FunctionKind.word_mem_words _, Visibility.word_mem_words _,
      Mutability.word_mem_words _, nofun, nofun⟩, h⟩
  refine wellFormed_iff.mpr ⟨trivial, ?_⟩
  intro p hp
  rw [List.mem_singleton.mp hp]
  refine function _ _ _ _ fun q hq => ?_
  rw [List.mem_singleton.mp hq]
  exact function _ _ _ _ nofun

/-- The inner function is enclosed by the contract, and is listed without an owner. -/
theorem owner_ne_contract :
    let document := utf8 ("\x7b\"nodeType\":\"ContractDefinition\",\"id\":1,\"src\":\"\"," ++
      "\"name\":\"A\",\"contractKind\":\"contract\",\"abstract\":false,\"nodes\":[" ++
      "\x7b\"nodeType\":\"FunctionDefinition\",\"id\":2,\"src\":\"\",\"name\":\"f\"," ++
      "\"kind\":\"freeFunction\",\"visibility\":\"internal\",\"stateMutability\":\"pure\"," ++
      "\"implemented\":false,\"nodes\":[" ++
      "\x7b\"nodeType\":\"FunctionDefinition\",\"id\":3,\"src\":\"\",\"name\":\"g\"," ++
      "\"kind\":\"function\",\"visibility\":\"internal\",\"stateMutability\":\"pure\"," ++
      "\"implemented\":false,\"nodes\":[]\x7d]\x7d]\x7d")
    let functions := (Lineage.all (some enclosed)).filter fun l =>
      l.node.kind = some .functionDefinition
    (decode ⟨0, false⟩ document).result = .ok enclosed ∧
      (all (some enclosed)).map FunctionRef.contract = ["", ""] ∧
      functions.map Lineage.contract = ["", "A"] := by
  intro document functions
  have written : document = enclosed.render.write := by
    simp only [document, utf8_append]
    decide +kernel
  exact ⟨written ▸ decode_write wellFormed_enclosed (by decide) (by decide) false,
    by decide, by decide⟩

end Functions

end SolidityTree
