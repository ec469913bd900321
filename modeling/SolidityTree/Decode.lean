import SolidityTree.Decode.Field
import SolidityTree.Json.Reader

/-!
# Decoding documents

A document is a JSON text; its root, and every value that a node keeps as a child, must be an object
with a tag.  Members are read in a fixed order for each kind, and the first trouble ends the decoding
of the whole document.  Children are decoded in the order of the text, a function's body before its
`nodes`, and a child's outcome is the outcome of its own value moved one step down: decoding never
looks at what is above or beside a node.  (`SolidityTree.Decode.Threaded` hands the path down instead.)

A node of an unregistered tag is kept if it has a readable id and a list of children, and is
reported after everything below it.

Contents
* §1  options
* §2  lists of children
* §3  the fields of each kind
* §4  nodes, documents and source files
-/

namespace SolidityTree

/-! ## 1. Options -/

/-- How to decode. -/
structure Options where
  /-- The greatest depth of a node, the root having depth 0; no limit unless positive. -/
  maxDepth : Int64 := 0
  /-- Whether nodes of unregistered tags are reported. -/
  reportUnknown : Bool := false
  deriving DecidableEq

/-- Whether a depth is beyond the limit. -/
def Options.tooDeep (opts : Options) (depth : Nat) : Bool :=
  0 < opts.maxDepth && opts.maxDepth.toInt < depth

theorem Options.tooDeep_of_le {opts : Options} (h : opts.maxDepth ≤ 0) (depth : Nat) :
    opts.tooDeep depth = false := by
  simp [tooDeep, Int64.not_lt.mpr h]

namespace Decode

/-! ## 2. Children -/

/-- How a part is decoded: in a position that admits only some kinds, or in any. -/
abbrev Child (o : Object) := Option Role → Part o → Outcome Failure Node

/-- Decodes the items of a list from number `index` on. -/
def items {o : Object} (child : Child o) (role : Option Role) (step : Nat → Descent) :
    (index : Nat) → List (Part o) → Outcome Failure (List Node)
  | _, [] => .ok []
  | index, v :: rest => do
    let node ← (child role v).under (step index)
    (node :: ·) <$> items child role step (index + 1) rest

/-- The children of any kind below `field`. -/
def children (o : Object) (child : Child o) (field : ChildField) :
    Outcome Failure (List Node) := do
  let parts ← o.list field.name
  match field with
  | .nodes => items child none .nodes 0 parts
  | .statements => items child none .statements 0 parts

/-- The children of any kind below `nodes`, none if it is left out. -/
def optionalNodes (o : Object) (child : Child o) :
    Outcome Failure (List Node) := do
  items child none .nodes 0 ((← o.list? "nodes").getD [])

/-- The statements of a block. -/
def statements (o : Object) (child : Child o) :
    Outcome Failure (List Node) := do
  items child (some .statement) .statements 0 (← o.list "statements")

/-- The expression of a statement or call. -/
def expression (o : Object) (child : Child o) : Outcome Failure Node :=
  match o.part? "expression" with
  | none => o.failAt "expression" .missingField
  | some v => (child (some .expression) v).under .expression

/-- The arguments of a call; `none` if they are left out. -/
def arguments (o : Object) (child : Child o) :
    Outcome Failure (Option (List Node)) := do
  match ← o.list? "arguments" with
  | none => return none
  | some parts => return some (← items child (some .expression) .arguments 0 parts)

/-- The body of a function.  It is decoded like any node and must then be a block; if it is not, the
function is to blame. -/
def body (o : Object) (child : Child o) :
    Outcome Failure (Option Node) :=
  match o.part? "body" with
  | none => .ok none
  | some v => do
    let node ← (child none v).under .body
    if node.kind = some .block then return some node
    else o.failAt "body" (.bodyNotBlock node.tag)

/-! ## 3. Kinds -/

/-- A source unit. -/
def sourceUnit (o : Object) (child : Child o) : Outcome Failure Node := do
  let id ← o.required "id" Json.toInt
  let src ← o.optionalD "src" Json.toText ""
  let absolutePath ← o.optionalD "absolutePath" Json.toText ""
  let nodes ← children o child .nodes
  return .sourceUnit ⟨id, src, absolutePath⟩ nodes

/-- A contract. -/
def contractDefinition (o : Object) (child : Child o) :
    Outcome Failure Node := do
  let id ← o.required "id" Json.toInt
  let name ← o.required "name" Json.toText
  let src ← o.optionalD "src" Json.toText ""
  let contractKind ← o.optionalD "contractKind" Json.toText ""
  let isAbstract ← o.optionalD "abstract" Json.toBool false
  let nodes ← children o child .nodes
  return .contractDefinition ⟨id, src, name, contractKind, isAbstract⟩ nodes

/-- A function.  Where the document does not say whether it is implemented, it is if it has a body;
where the document says so, it must have one. -/
def functionDefinition (o : Object) (child : Child o) :
    Outcome Failure Node := do
  let id ← o.required "id" Json.toInt
  let name ← o.required "name" Json.toText
  let kind ← o.required "kind" Json.toFunctionKind
  let visibility ← o.required "visibility" Json.toVisibility
  let mutability ← o.required "stateMutability" Json.toMutability
  let src ← o.optionalD "src" Json.toText ""
  let selector ← o.optional "functionSelector" Json.toSelector
  let said ← o.optional "implemented" Json.toBool
  let body ← body o child
  let implemented := said.getD body.isSome
  if implemented ∧ body.isNone then o.failAt "body" .missingBody
  else do
    let nodes ← optionalNodes o child
    return .functionDefinition ⟨id, src, name, kind, visibility, mutability, implemented, selector⟩
      body nodes

/-- A variable. -/
def variableDeclaration (o : Object) (child : Child o) :
    Outcome Failure Node := do
  let id ← o.required "id" Json.toInt
  let name ← o.required "name" Json.toText
  let visibility ← o.required "visibility" Json.toVisibility
  let src ← o.optionalD "src" Json.toText ""
  let stateVariable ← o.optionalD "stateVariable" Json.toBool false
  let constant ← o.optionalD "constant" Json.toBool false
  let nodes ← optionalNodes o child
  return .variableDeclaration ⟨id, src, name, visibility, stateVariable, constant⟩ nodes

/-- A block. -/
def block (o : Object) (child : Child o) : Outcome Failure Node := do
  let id ← o.required "id" Json.toInt
  let src ← o.required "src" Json.toText
  let statements ← statements o child
  return .block id src statements

/-- A statement that is an expression. -/
def expressionStatement (o : Object) (child : Child o) :
    Outcome Failure Node := do
  let id ← o.required "id" Json.toInt
  let src ← o.required "src" Json.toText
  let expression ← expression o child
  return .expressionStatement id src expression

/-- A call. -/
def functionCall (o : Object) (child : Child o) :
    Outcome Failure Node := do
  let id ← o.required "id" Json.toInt
  let src ← o.required "src" Json.toText
  let expression ← expression o child
  let arguments ← arguments o child
  return .functionCall id src expression arguments

/-- A name. -/
def identifier (o : Object) : Outcome Failure Node := do
  let id ← o.required "id" Json.toInt
  let src ← o.required "src" Json.toText
  let name ← o.required "name" Json.toText
  let referencedDeclaration ← o.optionalD "referencedDeclaration" Json.toInt 0
  return .identifier ⟨id, src, name, referencedDeclaration⟩

/-- A node of a registered kind. -/
def known (o : Object) (child : Child o) : Kind → Outcome Failure Node
  | .sourceUnit => sourceUnit o child
  | .contractDefinition => contractDefinition o child
  | .functionDefinition => functionDefinition o child
  | .variableDeclaration => variableDeclaration o child
  | .block => block o child
  | .expressionStatement => expressionStatement o child
  | .functionCall => functionCall o child
  | .identifier => identifier o
  | .plain p => .ok (.plain p)

/-- The member that holds the children of a node of an unregistered tag. -/
def childField? (o : Object) : Option ChildField :=
  [.nodes, .statements].find? fun field => (o.part? field.name).isSome

/-- A node of an unregistered tag. -/
def unknown (opts : Options) (o : Object) (child : Child o) :
    Outcome Failure Node :=
  match o.id with
  | none => o.failAt "id" (.noUsableId o.tag)
  | some id =>
    match childField? o with
    | none => o.failAt "nodes" (.noChildList o.tag)
    | some field => do
      let nodes ← children o child field
      if opts.reportUnknown then .report ⟨o.tag, id, []⟩
      return .unknown o.tag id field nodes

/-! ## 4. Nodes and documents -/

/-- The tag of a node. -/
def tagOf (members : List (String × Json)) : Except Cause String :=
  match Json.present? "nodeType" members with
  | none => .error .missingTag
  | some (.str _ tag) => .ok tag
  | some _ => .error .tagNotString

/-- A node whose tag has been read: the position is checked first. -/
def object (opts : Options) (role : Option Role) (o : Object)
    (child : Child o) : Outcome Failure Node :=
  match role, Kind.ofTag? o.tag with
  | none, none => unknown opts o child
  | none, some kind => known o child kind
  | some role, none => .fail (o.failure (.misplaced role o.tag))
  | some role, some kind =>
    if kind.allows role then known o child kind else .fail (o.failure (.misplaced role o.tag))

/-- Decodes a value at a depth, in a position. -/
def node (opts : Options) (depth : Nat) (role : Option Role) : Json → Outcome Failure Node
  | .obj _ members =>
    if opts.tooDeep depth then .fail { cause := .tooDeep opts.maxDepth }
    else
      match tagOf members with
      | .error cause => Object.failAt ⟨"", readableId members, members⟩ "nodeType" cause
      | .ok tag =>
        object opts role ⟨tag, readableId members, members⟩ fun role v =>
          node opts (depth + 1) role v.val
  | v =>
    if opts.tooDeep depth then .fail { cause := .tooDeep opts.maxDepth }
    else .fail { cause := .notObject v.excerpt }
termination_by v => v.size
decreasing_by
  have : v.val.size ≤ Json.sizeMembers members := v.property
  simp only [Json.size]
  omega

/-! What `node` does with a value that lies too deep, with an object, and with any other value. -/

theorem node_of_tooDeep {opts : Options} {depth : Nat} (h : opts.tooDeep depth = true)
    (role : Option Role) (v : Json) :
    node opts depth role v = .fail { cause := .tooDeep opts.maxDepth } := by
  cases v <;> simp [node, h]

theorem node_obj {opts : Options} {depth : Nat} (h : opts.tooDeep depth = false)
    (role : Option Role) (source : Thunk Bytes) (members : List (String × Json)) :
    node opts depth role (.obj source members) =
      match tagOf members with
      | .error cause => Object.failAt ⟨"", readableId members, members⟩ "nodeType" cause
      | .ok tag =>
        object opts role ⟨tag, readableId members, members⟩ fun role v =>
          node opts (depth + 1) role v.val := by
  rw [node, h]
  rfl

theorem node_of_not_obj {opts : Options} {depth : Nat} (h : opts.tooDeep depth = false)
    (role : Option Role) {v : Json} (hv : ∀ source members, v ≠ .obj source members) :
    node opts depth role v = .fail { cause := .notObject v.excerpt } := by
  cases v with
  | obj source members => exact absurd rfl (hv source members)
  | _ => simp [node, h]

end Decode

/-- The tree of a JSON value. -/
def decodeValue (opts : Options) (v : Json) : Outcome Failure Node := Decode.node opts 0 none v

/-- The tree of a document; the root may be of any kind. -/
def decode (opts : Options) (document : Bytes) : Outcome Failure Node :=
  match Json.parse? document with
  | none => .fail { cause := .malformed }
  | some v => decodeValue opts v

/-- Refuses a root that is no source unit. -/
def asSourceUnit (root : Node) : Outcome Failure Node :=
  if root.kind = some .sourceUnit then .ok root
  else .fail { tag := root.tag, cause := .rootNotSourceUnit root.tag }

/-- The tree of a JSON value whose root must be a source unit. -/
def decodeSourceUnitValue (opts : Options) (v : Json) : Outcome Failure Node :=
  (decodeValue opts v).bind asSourceUnit

/-- The tree of a document whose root must be a source unit. -/
def decodeSourceUnit (opts : Options) (document : Bytes) : Outcome Failure Node :=
  (decode opts document).bind asSourceUnit

end SolidityTree
