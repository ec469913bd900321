import Mathlib.Data.List.Basic
import Mathlib.Order.Lattice
import SolidityTree.Failure
import SolidityTree.Node

/-!
# Going down a tree

`Node.children` is what walks go by, and it leaves most of a tree out.  This module is about
EVERYTHING below a node: `parts` lists the nodes directly below it, each with the step that leads
to it, in the order in which decoding comes to them (a function's body before its `nodes`, the
called expression before the arguments).  Whatever is said of whole trees is said through `parts`:

* `fold` is the one recursion over trees, and `fold_eq` opens it; `induction_on_parts` is the one
  induction;
* `Descends t path s`: the steps of `path` lead from `t` to `s`;
* `height` is the length of the longest such path (`le_height_of_descends`,
  `exists_descends_height`);
* `positions` lists all such paths, a node before what is below it (`mem_positions_iff`).

Contents
* §1  parts
* §2  recursion and induction over parts
* §3  paths from node to node
* §4  height
* §5  positions, all and of one depth
-/

namespace SolidityTree

/-- The step to an item of the list that an unknown node keeps. -/
def ChildField.step : ChildField → Nat → Descent
  | .nodes => .nodes
  | .statements => .statements

namespace Node

variable {α : Type}

/-! ## 1. Parts -/

/-- The nodes of a list with the steps that lead to them, the first one having number `index`. -/
def listed (step : Nat → Descent) : (index : Nat) → List Node → List (Descent × Node)
  | _, [] => []
  | index, t :: rest => (step index, t) :: listed step (index + 1) rest

/-- The nodes directly below a node, in decoding order. -/
def parts : Node → List (Descent × Node)
  | sourceUnit _ nodes => listed .nodes 0 nodes
  | contractDefinition _ nodes => listed .nodes 0 nodes
  | functionDefinition _ none nodes => listed .nodes 0 nodes
  | functionDefinition _ (some body) nodes => (.body, body) :: listed .nodes 0 nodes
  | variableDeclaration _ nodes => listed .nodes 0 nodes
  | block _ _ statements => listed .statements 0 statements
  | expressionStatement _ _ expression => [(.expression, expression)]
  | functionCall _ _ expression none => [(.expression, expression)]
  | functionCall _ _ expression (some arguments) =>
    (.expression, expression) :: listed .arguments 0 arguments
  | identifier _ => []
  | plain _ => []
  | unknown _ _ field nodes => listed field.step 0 nodes

/-- The steps of a list are numbered from `index` on. -/
theorem mem_listed_iff {step : Nat → Descent} {d : Descent} {s : Node} :
    ∀ {index : Nat} {nodes : List Node},
    (d, s) ∈ listed step index nodes ↔ ∃ i, d = step (index + i) ∧ nodes[i]? = some s
  | _, [] => by simp [listed]
  | index, t :: rest => by
    rw [listed, List.mem_cons, mem_listed_iff, Prod.mk.injEq]
    constructor
    · rintro (⟨rfl, rfl⟩ | ⟨i, hd, hi⟩)
      · exact ⟨0, rfl, rfl⟩
      · exact ⟨i + 1, by rw [hd, Nat.add_right_comm, Nat.add_assoc], hi⟩
    · rintro ⟨i, hd, hi⟩
      cases i with
      | zero =>
        rw [List.getElem?_cons_zero, Option.some.injEq] at hi
        exact Or.inl ⟨hd, hi.symm⟩
      | succ i => exact Or.inr ⟨i, by rw [hd, Nat.add_right_comm, Nat.add_assoc], hi⟩

theorem snd_mem_of_mem_listed {step : Nat → Descent} {p : Descent × Node} {index : Nat}
    {nodes : List Node} (h : p ∈ listed step index nodes) : p.2 ∈ nodes := by
  obtain ⟨i, -, hi⟩ := mem_listed_iff.mp h
  exact List.mem_of_getElem? hi

/-- Every node of a list is reached by some step. -/
theorem exists_mem_listed {step : Nat → Descent} {s : Node} (index : Nat) {nodes : List Node}
    (h : s ∈ nodes) : ∃ d, (d, s) ∈ listed step index nodes := by
  obtain ⟨i, hi⟩ := List.mem_iff_getElem?.mp h
  exact ⟨step (index + i), mem_listed_iff.mpr ⟨i, rfl, hi⟩⟩

/-- A node is larger than each of its parts. -/
theorem sizeOf_part_lt {t : Node} {p : Descent × Node} (h : p ∈ t.parts) :
    sizeOf p.2 < sizeOf t := by
  have below : ∀ {step : Nat → Descent} {nodes : List Node}, p ∈ listed step 0 nodes →
      sizeOf p.2 < sizeOf nodes :=
    fun h => List.sizeOf_lt_of_mem (snd_mem_of_mem_listed h)
  rcases t with _ | _ | ⟨_, _ | body, _⟩ | _ | _ | _ | ⟨_, _, _, _ | _⟩ | _ | _ | _
  case functionDefinition.some =>
    rcases List.mem_cons.mp h with rfl | h
    · simp only [functionDefinition.sizeOf_spec, Option.some.sizeOf_spec]
      omega
    · have := below h
      simp only [functionDefinition.sizeOf_spec]
      omega
  case expressionStatement =>
    rw [List.mem_singleton.mp h]
    simp only [expressionStatement.sizeOf_spec]
    omega
  case functionCall.none =>
    rw [List.mem_singleton.mp h]
    simp only [functionCall.sizeOf_spec]
    omega
  case functionCall.some =>
    rcases List.mem_cons.mp h with rfl | h
    · simp only [functionCall.sizeOf_spec]
      omega
    · have := below h
      simp only [functionCall.sizeOf_spec, Option.some.sizeOf_spec]
      omega
  case identifier => exact absurd h (by simp [parts])
  case plain => exact absurd h (by simp [parts])
  all_goals
    have := below h
    simp +arith only [sourceUnit.sizeOf_spec, contractDefinition.sizeOf_spec,
      functionDefinition.sizeOf_spec, variableDeclaration.sizeOf_spec, block.sizeOf_spec,
      unknown.sizeOf_spec]
    omega

/-! ## 2. Recursion and induction -/

mutual

/-- **The recursion over trees.**  `f` makes the value of a node from the node and the values of
its parts. -/
def fold (f : Node → List (Descent × α) → α) : Node → α
  | sourceUnit head nodes => f (sourceUnit head nodes) (foldListed f .nodes 0 nodes)
  | contractDefinition head nodes =>
    f (contractDefinition head nodes) (foldListed f .nodes 0 nodes)
  | functionDefinition head none nodes =>
    f (functionDefinition head none nodes) (foldListed f .nodes 0 nodes)
  | functionDefinition head (some body) nodes =>
    f (functionDefinition head (some body) nodes)
      ((.body, fold f body) :: foldListed f .nodes 0 nodes)
  | variableDeclaration head nodes =>
    f (variableDeclaration head nodes) (foldListed f .nodes 0 nodes)
  | block id src statements => f (block id src statements) (foldListed f .statements 0 statements)
  | expressionStatement id src expression =>
    f (expressionStatement id src expression) [(.expression, fold f expression)]
  | functionCall id src expression none =>
    f (functionCall id src expression none) [(.expression, fold f expression)]
  | functionCall id src expression (some arguments) =>
    f (functionCall id src expression (some arguments))
      ((.expression, fold f expression) :: foldListed f .arguments 0 arguments)
  | identifier head => f (identifier head) []
  | plain p => f (plain p) []
  | unknown tag id field nodes =>
    f (unknown tag id field nodes) (foldListed f field.step 0 nodes)

/-- The values of the nodes of a list, with the steps that lead to them. -/
def foldListed (f : Node → List (Descent × α) → α) (step : Nat → Descent) :
    (index : Nat) → List Node → List (Descent × α)
  | _, [] => []
  | index, t :: rest => (step index, fold f t) :: foldListed f step (index + 1) rest

end

theorem foldListed_eq (f : Node → List (Descent × α) → α) (step : Nat → Descent) :
    ∀ (index : Nat) (nodes : List Node),
      foldListed f step index nodes = (listed step index nodes).map fun p => (p.1, fold f p.2)
  | _, [] => by simp [foldListed, listed]
  | index, t :: rest => by simp [foldListed, listed, foldListed_eq f step (index + 1) rest]

/-- **What `fold` computes.**  No other statement opens it. -/
theorem fold_eq (f : Node → List (Descent × α) → α) (t : Node) :
    fold f t = f t (t.parts.map fun p => (p.1, fold f p.2)) := by
  rcases t with _ | _ | ⟨_, _ | _, _⟩ | _ | _ | _ | ⟨_, _, _, _ | _⟩ | _ | _ | _ <;>
    simp [fold, parts, foldListed_eq]

/-- **The induction over trees**: what holds of a node if it holds of its parts holds of all
nodes. -/
theorem induction_on_parts {P : Node → Prop} (step : ∀ t, (∀ p ∈ t.parts, P p.2) → P t)
    (t : Node) : P t := by
  induction h : sizeOf t using Nat.strong_induction_on generalizing t with
  | _ n ih =>
    subst h
    exact step t fun p hp => ih _ (sizeOf_part_lt hp) p.2 rfl

/-! ## 3. Paths -/

/-- `Descends t path s`: from `t`, the steps of `path` lead to `s`. -/
inductive Descends : Node → Path → Node → Prop
  | here (t : Node) : Descends t [] t
  | down {t c s : Node} {d : Descent} {path : Path} :
      (d, c) ∈ t.parts → Descends c path s → Descends t (d :: path) s

/-- A property that passes from a node to its parts passes to everything below the node. -/
theorem Descends.invariant {P : Node → Prop} (step : ∀ t, P t → ∀ p ∈ t.parts, P p.2)
    {t s : Node} {path : Path} (h : Descends t path s) (ht : P t) : P s := by
  induction h with
  | here => exact ht
  | down hp _ ih => exact ih (step _ ht _ hp)

/-- Two paths, one after the other. -/
theorem Descends.trans {t s u : Node} {p q : Path} (h : Descends t p s) (h' : Descends s q u) :
    Descends t (p ++ q) u := by
  induction h with
  | here => exact h'
  | down hp _ ih => exact .down hp (ih h')

/-! ## 4. Height -/

/-- The greatest number of steps that one can go down from a node. -/
def height : Node → Nat := fold fun _ below => below.foldr (fun p n => max (p.2 + 1) n) 0

theorem foldr_height_le_iff {n : Nat} : ∀ {ps : List (Descent × Nat)},
    ps.foldr (fun p m => max (p.2 + 1) m) 0 ≤ n ↔ ∀ p ∈ ps, p.2 + 1 ≤ n
  | [] => by simp
  | p :: ps => by
    have ih := @foldr_height_le_iff n ps
    simp only [List.foldr_cons, Nat.max_le, List.mem_cons, forall_eq_or_imp, ih]

/-- A bound on the height is a bound, lower by one, on the height of every part. -/
theorem height_le_iff {t : Node} {n : Nat} : t.height ≤ n ↔ ∀ p ∈ t.parts, p.2.height + 1 ≤ n := by
  rw [height, fold_eq, foldr_height_le_iff]
  simp only [List.mem_map, forall_exists_index, and_imp, forall_apply_eq_imp_iff₂]

/-- No path is longer than the height. -/
theorem le_height_of_descends {t s : Node} {path : Path} (h : Descends t path s) :
    path.length ≤ t.height := by
  induction h with
  | here => exact Nat.zero_le _
  | @down t c s d path hp _ ih =>
    have hc : c.height + 1 ≤ t.height := height_le_iff.mp (Nat.le_refl t.height) _ hp
    rw [List.length_cons]
    omega

/-- Some path is as long as the height. -/
theorem exists_descends_height (t : Node) :
    ∃ path s, Descends t path s ∧ path.length = t.height := by
  induction t using induction_on_parts with
  | step t ih =>
    rcases Nat.eq_zero_or_pos t.height with h0 | hpos
    · exact ⟨[], t, .here t, h0.symm⟩
    · -- one part must be high enough: otherwise the height would be smaller
      have hnot : ¬ ∀ p ∈ t.parts, p.2.height + 1 ≤ t.height - 1 := by
        rw [← height_le_iff]
        omega
      push Not at hnot
      obtain ⟨p, hp, hlt⟩ := hnot
      have hle : p.2.height + 1 ≤ t.height := height_le_iff.mp (Nat.le_refl _) p hp
      obtain ⟨path, s, hd, hlen⟩ := ih p hp
      refine ⟨p.1 :: path, s, .down hp hd, ?_⟩
      rw [List.length_cons, hlen]
      omega

/-! ## 5. Positions -/

/-- The paths to all nodes at and below a node, in decoding order. -/
def positions : Node → List Path :=
  fold fun _ below => [] :: below.flatMap fun p => p.2.map (p.1 :: ·)

theorem positions_eq (t : Node) :
    t.positions = [] :: t.parts.flatMap fun p => p.2.positions.map (p.1 :: ·) := by
  rw [positions, fold_eq, List.flatMap_map]

/-- The positions are the paths that lead somewhere. -/
theorem mem_positions_iff {path : Path} {t : Node} :
    path ∈ t.positions ↔ ∃ s, Descends t path s := by
  constructor
  · intro h
    induction t using induction_on_parts generalizing path with
    | step t ih =>
      rw [positions_eq, List.mem_cons, List.mem_flatMap] at h
      rcases h with rfl | ⟨p, hp, h⟩
      · exact ⟨t, .here t⟩
      · obtain ⟨q, hq, rfl⟩ := List.mem_map.mp h
        obtain ⟨s, hs⟩ := ih p hp hq
        exact ⟨s, .down hp hs⟩
  · rintro ⟨s, h⟩
    induction h with
    | here t => rw [positions_eq]; exact List.mem_cons_self
    | @down t c s d path hp _ ih =>
      rw [positions_eq]
      exact List.mem_cons_of_mem _ (List.mem_flatMap.mpr ⟨(d, c), hp, List.mem_map_of_mem ih⟩)

/-- The positions that lie `depth` steps down. -/
def positionsAt (depth : Nat) (t : Node) : List Path :=
  t.positions.filter fun path => path.length = depth

@[simp] theorem positionsAt_zero (t : Node) : t.positionsAt 0 = [[]] := by
  rw [positionsAt, positions_eq, List.filter_cons_of_pos (by simp)]
  simp [List.filter_flatMap, List.filter_map, Function.comp_def]

/-- The positions one step further down are those of the parts, in order. -/
theorem positionsAt_succ (depth : Nat) (t : Node) :
    t.positionsAt (depth + 1) =
      t.parts.flatMap fun p => (p.2.positionsAt depth).map (p.1 :: ·) := by
  rw [positionsAt, positions_eq, List.filter_cons_of_neg (by simp), List.filter_flatMap]
  simp [positionsAt, List.filter_map, Function.comp_def]

/-- A tree has positions at a depth unless it is too low. -/
theorem positionsAt_eq_nil_iff {depth : Nat} {t : Node} :
    t.positionsAt (depth + 1) = [] ↔ t.height ≤ depth := by
  induction depth generalizing t with
  | zero =>
    rw [positionsAt_succ, List.flatMap_eq_nil_iff, height_le_iff]
    simp
  | succ depth ih =>
    rw [positionsAt_succ, List.flatMap_eq_nil_iff, height_le_iff]
    simp only [List.map_eq_nil_iff, ih, Nat.add_le_add_iff_right]

end Node

end SolidityTree
