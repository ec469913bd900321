import SolidityTree.Proofs.Owner

/-!
# The stack of owners at every visit

The listing of functions cuts its stack to the depth of each visit and reads the last owner that is left.
Neither step asks whether the stack is long enough.  This module says that it always is, since the
stack comes to EVERY visit with the owners that the ancestors of the node pass on, and perhaps some
more that an earlier branch has left behind.

* `Served`: along a list of visits the stack is right for the ancestors of each node when its turn
  comes.  `served_append` cuts a run in two, and `served_lineages` says it of a whole tree: a subtree
  of any depth leaves the stack right for the next one.
* `Ready.depth_le`, `Ready.getElem?_take` and `Ready.length_add`: what a single visit makes of a stack
  that is right.
* `map_node_all`: the functions themselves are what a filter of the walk finds.
-/

namespace SolidityTree

open Node

namespace Functions

/-! ## 1. One visit -/

section Visit

variable {ancestors : List Node} {g : Gathered}

/-- The stack reaches down to the depth of the node. -/
theorem Ready.depth_le (h : Ready ancestors g) : ancestors.length ≤ g.owners.length := by
  calc ancestors.length
      = (g.owners.take ancestors.length).length := by rw [h, length_stack]
    _ ≤ g.owners.length := List.length_take_le' ..

/-- Above a node that is not the root an owner is read, and it is the last one of the stack that
was cut. -/
theorem Ready.getElem?_take (h : Ready ancestors g) (pos : 0 < ancestors.length) :
    let owners := g.owners.take ancestors.length
    owners[ancestors.length - 1]? = some (ownerAbove owners ancestors.length) := by
  intro owners
  have cut : owners = stack ancestors := h
  have inside : ancestors.length - 1 < owners.length := by
    rw [cut, length_stack]
    exact Nat.sub_one_lt_of_lt pos
  rw [ownerAbove, if_neg (Nat.ne_of_gt pos), List.getElem?_eq_getElem inside]
  rfl

end Visit

/-- A visit leaves one owner per node on the way, its own included. -/
theorem Ready.length_add {l : Lineage} {g : Gathered} (h : Ready l.ancestors g) :
    (g.add l.visit).owners.length = l.ancestors.length + 1 := by
  rw [add_visit l g h, length_stack]
  rfl

/-! ## 2. A run of visits -/

/-- What visits of some lineages make of what has been gathered. -/
def run (g : Gathered) (lineages : List Lineage) : Gathered :=
  (lineages.map Lineage.visit).foldl Gathered.add g

/-- When its turn comes, each of some lineages finds the stack right for its ancestors. -/
def Served (g : Gathered) : List Lineage → Prop
  | [] => True
  | l :: rest => Ready l.ancestors g ∧ Served (g.add l.visit) rest

theorem served_append {g : Gathered} {first second : List Lineage} :
    Served g (first ++ second) ↔ Served g first ∧ Served (run g first) second := by
  induction first generalizing g with
  | nil => exact (and_iff_right trivial).symm
  | cons l rest ih =>
    rw [List.cons_append, Served, Served, ih, and_assoc]
    rfl

/-- The lineage at any place of a run finds the stack right for its ancestors. -/
theorem Served.ready {g : Gathered} {before after : List Lineage} {l : Lineage}
    (h : Served g (before ++ l :: after)) : Ready l.ancestors (run g before) :=
  (served_append.mp h).2.1

/-- Siblings, one after the other: each subtree leaves the stack right for the next one. -/
theorem served_siblings {ancestors : List Node} {nodes : List Node}
    (h : ∀ c ∈ nodes, ∀ g, Ready ancestors g → Served g (c.lineages ancestors)) :
    ∀ g, Ready ancestors g → Served g (nodes.flatMap (lineages ancestors)) := by
  induction nodes with
  | nil => exact fun _ _ => trivial
  | cons c rest ih =>
    intro g hg
    have restored : Ready ancestors (run g (c.lineages ancestors)) := by
      rw [run, map_visit_lineages]
      exact (finds_lineages ancestors c g hg).1
    rw [List.flatMap_cons, served_append]
    exact ⟨h c List.mem_cons_self g hg,
      ih (fun d hd => h d (List.mem_cons_of_mem _ hd)) _ restored⟩

/-- **A whole tree**: every visit in it finds the stack right for its ancestors. -/
theorem served_lineages (t : Node) (ancestors : List Node) :
    ∀ g, Ready ancestors g → Served g (t.lineages ancestors) := by
  induction t using induction_on_children generalizing ancestors with
  | step t ih =>
    intro g hg
    rw [lineages_eq]
    exact ⟨hg, served_siblings (fun c hc => ih c hc (t :: ancestors)) _
      (Ready.add (l := ⟨t, ancestors⟩) hg)⟩

theorem served_all (root : Option Node) : Served ⟨[], []⟩ (Lineage.all root) := by
  cases root with
  | none => trivial
  | some t => exact served_lineages t [] _ rfl

/-! ## 3. The functions themselves -/

/-- Without its owner, the function of a lineage is the node, if that is one. -/
theorem map_node_ref? (l : Lineage) :
    l.ref?.map FunctionRef.node =
      Option.guard (fun t => t.kind = some .functionDefinition) l.node := by
  obtain ⟨node, ancestors⟩ := l
  cases node <;> rfl

/-- **Without their owners**, the functions of a tree are its nodes of that kind, in order. -/
theorem map_node_all (root : Option Node) :
    (all root).map FunctionRef.node = Walk.filter root (some .functionDefinition) := by
  have nodes : (Walk.everywhere root).map Visit.node = (Lineage.all root).map Lineage.node := by
    rw [← Lineage.map_visit_all, List.map_map]
    rfl
  rw [all_eq, List.map_filterMap, funext map_node_ref?, Walk.filter, nodes,
    ← List.filterMap_eq_filter, List.filterMap_map]
  rfl

/-! ## 4. The listing -/

/-- **The stack is never too short.**  Whatever visit of the walk is next, the stack has at least as many
owners as the node is deep; cut to that depth, it ends with the owner above the node, unless the
node is the root; and afterwards it has one owner more than the node is deep.  The functions
listed, without their owners, are the nodes of that kind that the walk finds, in the same order. -/
theorem owners_in_range (root : Option Node) :
    (∀ before visit after, Walk.everywhere root = before ++ visit :: after →
      let g := before.foldl Gathered.add ⟨[], []⟩
      let owners := g.owners.take visit.depth
      visit.depth ≤ g.owners.length ∧
      (0 < visit.depth →
        owners[visit.depth - 1]? = some (ownerAbove owners visit.depth)) ∧
      (g.add visit).owners.length = visit.depth + 1) ∧
    (all root).map FunctionRef.node = Walk.filter root (some .functionDefinition) := by
  refine ⟨?_, map_node_all root⟩
  intro before visit after split g owners
  rw [← Lineage.map_visit_all] at split
  obtain ⟨front, back, heq, rfl, hback⟩ := List.map_eq_append_iff.mp split
  obtain ⟨l, rest, rfl, rfl, -⟩ := List.map_eq_cons_iff.mp hback
  have ready : Ready l.ancestors g := (heq ▸ served_all root).ready
  exact ⟨ready.depth_le, ready.getElem?_take, ready.length_add⟩

end Functions

end SolidityTree
