import SolidityTree.Walk

/-!
# Functions of a tree

Every function that a walk visits is listed with its owner, the contract it belongs to.  The walk keeps
a stack with one owner per depth: a contract puts its own name at its depth, any other node the
owner above it, so the owner above a node of depth `d` stands at place `d - 1`.  Free functions have
no owner wherever they stand.
-/

namespace SolidityTree

/-! ## 1. References -/

/-- A function and the contract it belongs to. -/
structure FunctionRef where
  /-- The name of the contract; empty if there is none. -/
  contract : String
  head : FunctionHead
  body : Option Node
  nodes : List Node

namespace FunctionRef

/-- The function itself. -/
def node (r : FunctionRef) : Node := .functionDefinition r.head r.body r.nodes

/-- The written form: the name, after the contract's if there is one. -/
def text (r : FunctionRef) : String :=
  if r.contract = "" then r.head.name else r.contract ++ "." ++ r.head.name

end FunctionRef

/-- Whether a function is implemented and can be set off from outside. -/
def FunctionHead.isEntryPoint (f : FunctionHead) : Bool :=
  f.implemented &&
    (f.kind.isSpecial ||
      (f.kind ≠ .freeFunction && (f.visibility = .pub || f.visibility = .external)))

namespace Functions

/-! ## 2. Owners -/

/-- What the walk has gathered: the owner at each depth of the current branch, and the functions
found, the last one first. -/
structure Gathered where
  owners : List String
  found : List FunctionRef

/-- The owner above a node of a depth. -/
def ownerAbove (owners : List String) (depth : Nat) : String :=
  if depth = 0 then "" else (owners[depth - 1]?).getD ""

/-- What one visit adds. -/
def Gathered.add (g : Gathered) (visit : Visit) : Gathered :=
  let owners := g.owners.take visit.depth
  let above := ownerAbove owners visit.depth
  match visit.node with
  | .contractDefinition head _ => ⟨owners ++ [head.name], g.found⟩
  | .functionDefinition head body nodes =>
    let owner := if head.kind = .freeFunction then "" else above
    ⟨owners ++ [owner], ⟨owner, head, body, nodes⟩ :: g.found⟩
  | _ => ⟨owners ++ [above], g.found⟩

/-! ## 3. Lists and look-up -/

/-- All functions, in the order of the walk. -/
def all (root : Option Node) : List FunctionRef :=
  ((Walk.everywhere root).foldl Gathered.add ⟨[], []⟩).found.reverse

/-- The functions that can be set off from outside. -/
def entryPoints (root : Option Node) : List FunctionRef :=
  (all root).filter fun r => r.head.isEntryPoint

/-- The first function with an owner and a name.  Without an owner, a function that has none is
preferred, and otherwise the first one with the name is taken. -/
def find? (root : Option Node) (contract name : String) : Option FunctionRef :=
  let refs := all root
  match refs.find? fun r => r.contract = contract ∧ r.head.name = name with
  | some r => some r
  | none => if contract = "" then refs.find? fun r => r.head.name = name else none

end Functions

end SolidityTree
