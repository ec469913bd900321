import SolidityTree.Node

/-!
# Walks

A walk visits a node before its children and the children in order, and goes only where `children`
leads.  The caller decides at each node whether to go below it.  It knows the depth of the node, and
which of several equal nodes it is: nodes are told apart by their addresses, which say which child is
taken at each step from the root.  A walk of no node visits nothing.

`filter`, `countByKind` and `unknownTags` are read off the walk that goes everywhere.
-/

namespace SolidityTree

/-! ## 1. Visits -/

/-- A node and its depth below the root of the walk. -/
structure Visit where
  node : Node
  depth : Nat

namespace Walk

mutual

/-- The visits at and below the node at an address. -/
def visit (enter : List Nat → Node → Bool) (address : List Nat) : Node → List Visit
  | .sourceUnit head nodes =>
    let node := .sourceUnit head nodes
    ⟨node, address.length⟩ :: if enter address node then visitAll enter address 0 nodes else []
  | .contractDefinition head nodes =>
    let node := .contractDefinition head nodes
    ⟨node, address.length⟩ :: if enter address node then visitAll enter address 0 nodes else []
  | .functionDefinition head body nodes =>
    let node := .functionDefinition head body nodes
    ⟨node, address.length⟩ :: if enter address node then visitAll enter address 0 nodes else []
  | .unknown tag id field nodes =>
    let node := .unknown tag id field nodes
    ⟨node, address.length⟩ :: if enter address node then visitAll enter address 0 nodes else []
  | node => [⟨node, address.length⟩]

/-- The visits at and below some children of the node at an address, the first of which has a number. -/
def visitAll (enter : List Nat → Node → Bool) (address : List Nat) (index : Nat) :
    List Node → List Visit
  | [] => []
  | node :: rest =>
    visit enter (address ++ [index]) node ++ visitAll enter address (index + 1) rest

end

/-- **What a visit is.**  A node comes first, and below it come its children if it is entered. -/
theorem visit_eq (enter : List Nat → Node → Bool) (address : List Nat) (node : Node) :
    visit enter address node =
      ⟨node, address.length⟩ ::
        if enter address node then visitAll enter address 0 (node.children.getD []) else [] := by
  cases node <;> simp [visit, visitAll, Node.children]

/-- The visits of a walk, in order. -/
def visitsAt (root : Option Node) (enter : List Nat → Node → Bool) : List Visit :=
  match root with
  | none => []
  | some node => visit enter [] node

/-- The visits of a walk whose caller looks at nodes and their depths only. -/
def visits (root : Option Node) (enter : Node → Nat → Bool) : List Visit :=
  visitsAt root fun address node => enter node address.length

/-- The visits of the walk that goes everywhere. -/
def everywhere (root : Option Node) : List Visit := visits root fun _ _ => true

/-! ## 2. What a walk finds -/

/-- The nodes of one kind, in order; `none` asks for unregistered tags. -/
def filter (root : Option Node) (kind : Option Kind) : List Node :=
  ((everywhere root).map Visit.node).filter fun node => node.kind = kind

/-- Adds one to the count of a key, which comes last if it is new. -/
def increment {α : Type} [DecidableEq α] (key : α) : List (α × Nat) → List (α × Nat)
  | [] => [(key, 1)]
  | (k, n) :: rest => if k = key then (k, n + 1) :: rest else (k, n) :: increment key rest

/-- How often each key occurs, in the order of first occurrence. -/
def tally {α : Type} [DecidableEq α] (keys : List α) : List (α × Nat) :=
  keys.foldl (fun counts key => increment key counts) []

/-- How many nodes of each kind there are. -/
def countByKind (root : Option Node) : List (Option Kind × Nat) :=
  tally ((everywhere root).map fun visit => visit.node.kind)

/-- How many nodes of each unregistered tag there are. -/
def unknownTags (root : Option Node) : List (String × Nat) :=
  tally ((filter root none).map Node.tag)

end Walk

end SolidityTree
