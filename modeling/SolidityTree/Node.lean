import SolidityTree.Kind
import SolidityTree.Modifiers
import SolidityTree.Selector

/-!
# Nodes

The syntax tree of a source file.  Eight kinds of node keep their fields; of a `plain` node only its
kind is kept.  A node whose tag is not in the register is `unknown`: it keeps its tag, its id and its
children, and remembers which member of the document held them.

`children` is the view that walks over a tree go by: only source units, contracts, functions and
unknown nodes list children.  The body of a function, the statements of a block and the
expressions below them are reached through their own fields and by no walk.
-/

namespace SolidityTree

/-! ## 1. The fields that hold no nodes -/

/-- The fields of a source file. -/
structure SourceUnitHead where
  id : Int64
  src : String
  absolutePath : String
  deriving DecidableEq

/-- The fields of a contract, interface or library. -/
structure ContractHead where
  id : Int64
  src : String
  name : String
  contractKind : String
  isAbstract : Bool
  deriving DecidableEq

/-- The fields of a function. -/
structure FunctionHead where
  id : Int64
  src : String
  name : String
  kind : FunctionKind
  visibility : Visibility
  mutability : Mutability
  implemented : Bool
  selector : Option Selector
  deriving DecidableEq

/-- The fields of a state variable, local variable or parameter. -/
structure VariableHead where
  id : Int64
  src : String
  name : String
  visibility : Visibility
  stateVariable : Bool
  constant : Bool
  deriving DecidableEq

/-- The fields of a name in an expression. -/
structure IdentifierHead where
  id : Int64
  src : String
  name : String
  referencedDeclaration : Int64
  deriving DecidableEq

/-- The member that an unknown node took its children from. -/
inductive ChildField where
  | nodes
  | statements
  deriving DecidableEq, Repr

/-- The name of the member. -/
def ChildField.name : ChildField → String
  | .nodes => "nodes"
  | .statements => "statements"

/-! ## 2. Trees -/

/-- A node of a syntax tree. -/
inductive Node where
  | sourceUnit (head : SourceUnitHead) (nodes : List Node)
  | contractDefinition (head : ContractHead) (nodes : List Node)
  | functionDefinition (head : FunctionHead) (body : Option Node) (nodes : List Node)
  | variableDeclaration (head : VariableHead) (nodes : List Node)
  | block (id : Int64) (src : String) (statements : List Node)
  | expressionStatement (id : Int64) (src : String) (expression : Node)
  /-- A call; `none` for arguments that the document leaves out. -/
  | functionCall (id : Int64) (src : String) (expression : Node) (arguments : Option (List Node))
  | identifier (head : IdentifierHead)
  | plain (kind : Plain)
  | unknown (tag : String) (id : Int64) (field : ChildField) (nodes : List Node)

namespace Node

/-- The kind of a node; `none` for a tag that is not registered. -/
def kind : Node → Option Kind
  | sourceUnit _ _ => some .sourceUnit
  | contractDefinition _ _ => some .contractDefinition
  | functionDefinition _ _ _ => some .functionDefinition
  | variableDeclaration _ _ => some .variableDeclaration
  | block _ _ _ => some .block
  | expressionStatement _ _ _ => some .expressionStatement
  | functionCall _ _ _ _ => some .functionCall
  | identifier _ => some .identifier
  | plain p => some (.plain p)
  | unknown _ _ _ _ => none

/-- The tag that a node has in a document. -/
def tag : Node → String
  | unknown tag _ _ _ => tag
  | node => Kind.label node.kind

theorem tag_of_kind {t : Node} {k : Kind} (h : t.kind = some k) : t.tag = k.tag := by
  cases t <;> cases h <;> rfl

/-- The children that a node lists; `none` if its kind lists none. -/
def children : Node → Option (List Node)
  | sourceUnit _ nodes => some nodes
  | contractDefinition _ nodes => some nodes
  | functionDefinition _ _ nodes => some nodes
  | unknown _ _ _ nodes => some nodes
  | _ => none

end Node

end SolidityTree
