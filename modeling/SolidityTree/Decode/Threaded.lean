import SolidityTree.Decode

/-!
# Decoding with the path at hand

`Decode.node` knows nothing of what is above a value: the paths in its outcome begin at the value
itself, and whoever decodes a child puts the step to it in front of them.

Here the path is handed DOWN.  A value is decoded together with the path to it, each child gets this
path with one more step, and a failure or a report is made with the whole path at once, so nothing that
was made is touched again.  An object that knows its path is a `Placed` one: `Placed.child` adds a step
to the path, and `Placed.failAt`, `Placed.misplace` and `Placed.report` put it where it will be read.

What each kind reads, in what order and with what defaults, is as in `SolidityTree.Decode`; the two
decoders are compared in `SolidityTree.Proofs.Threaded`.

Contents
* §1  objects that know their path
* §2  children
* §3  kinds
* §4  nodes
-/

namespace SolidityTree.Decode

/-! ## 1. Objects that know their path -/

/-- An object of a document, and the path to it. -/
structure Placed where
  object : Object
  path : Path

namespace Placed

variable {α : Type}

/-- Stops at a member. -/
def failAt (o : Placed) (field : String) (cause : Cause) : Outcome Failure α :=
  .fail { tag := o.object.tag, id := o.object.id, path := o.path, field := some field, cause := cause }

/-- Stops at an object that may not stand in a position. -/
def misplace (o : Placed) (role : Role) : Outcome Failure α :=
  .fail { tag := o.object.tag, id := o.object.id, path := o.path,
          cause := .misplaced role o.object.tag }

/-- Reports an object of an unregistered tag. -/
def report (o : Placed) (id : Int64) : Outcome Failure Unit := .report ⟨o.object.tag, id, o.path⟩

/-- Reads a member that is there. -/
def readAt (o : Placed) (field : String) (read : Json → Except Cause α) (v : Json) :
    Outcome Failure α :=
  match read v with
  | .ok a => .ok a
  | .error cause => o.failAt field cause

/-- A scalar that must be there. -/
def required (o : Placed) (field : String) (read : Json → Except Cause α) : Outcome Failure α :=
  match o.object.part? field with
  | none => o.failAt field .missingField
  | some v => o.readAt field read v

/-- A scalar that may be left out. -/
def optional (o : Placed) (field : String) (read : Json → Except Cause α) :
    Outcome Failure (Option α) :=
  match o.object.part? field with
  | none => .ok none
  | some v => do return some (← o.readAt field read v)

/-- A scalar that may be left out and then has a value of its own. -/
def optionalD (o : Placed) (field : String) (read : Json → Except Cause α) (default : α) :
    Outcome Failure α := do
  return (← o.optional field read).getD default

/-- A list that may be left out. -/
def list? (o : Placed) (field : String) : Outcome Failure (Option (List (Part o.object))) :=
  match o.object.part? field with
  | none => .ok none
  | some v =>
    match v.items? with
    | some items => .ok (some items)
    | none => o.failAt field (.notArray v.val.excerpt)

/-- A list that must be there. -/
def list (o : Placed) (field : String) : Outcome Failure (List (Part o.object)) := do
  match ← o.list? field with
  | some items => .ok items
  | none => o.failAt field .missingField

/-! ## 2. Children -/

/-- How a part is decoded, given the path to it. -/
abbrev Child (o : Placed) := Path → Option Role → Part o.object → Outcome Failure Node

/-- The path to a child. -/
def child (o : Placed) (step : Descent) : Path := o.path ++ [step]

/-- Decodes the items of a list from number `index` on. -/
def items (o : Placed) (decode : o.Child) (role : Option Role) (step : Nat → Descent) :
    (index : Nat) → List (Part o.object) → Outcome Failure (List Node)
  | _, [] => .ok []
  | index, v :: rest => do
    let node ← decode (o.child (step index)) role v
    (node :: ·) <$> o.items decode role step (index + 1) rest

/-- The children of any kind below `field`. -/
def children (o : Placed) (decode : o.Child) (field : ChildField) : Outcome Failure (List Node) := do
  let parts ← o.list field.name
  match field with
  | .nodes => o.items decode none .nodes 0 parts
  | .statements => o.items decode none .statements 0 parts

/-- The children of any kind below `nodes`, none if it is left out. -/
def optionalNodes (o : Placed) (decode : o.Child) : Outcome Failure (List Node) := do
  o.items decode none .nodes 0 ((← o.list? "nodes").getD [])

/-- The statements of a block. -/
def statements (o : Placed) (decode : o.Child) : Outcome Failure (List Node) := do
  o.items decode (some .statement) .statements 0 (← o.list "statements")

/-- The expression of a statement or call. -/
def expression (o : Placed) (decode : o.Child) : Outcome Failure Node :=
  match o.object.part? "expression" with
  | none => o.failAt "expression" .missingField
  | some v => decode (o.child .expression) (some .expression) v

/-- The arguments of a call; `none` if they are left out. -/
def arguments (o : Placed) (decode : o.Child) : Outcome Failure (Option (List Node)) := do
  match ← o.list? "arguments" with
  | none => return none
  | some parts => return some (← o.items decode (some .expression) .arguments 0 parts)

/-- The body of a function. -/
def body (o : Placed) (decode : o.Child) : Outcome Failure (Option Node) :=
  match o.object.part? "body" with
  | none => .ok none
  | some v => do
    let node ← decode (o.child .body) none v
    if node.kind = some .block then return some node
    else o.failAt "body" (.bodyNotBlock node.tag)

/-! ## 3. Kinds -/

/-- A source unit. -/
def sourceUnit (o : Placed) (decode : o.Child) : Outcome Failure Node := do
  let id ← o.required "id" Json.toInt
  let src ← o.optionalD "src" Json.toText ""
  let absolutePath ← o.optionalD "absolutePath" Json.toText ""
  let nodes ← o.children decode .nodes
  return .sourceUnit ⟨id, src, absolutePath⟩ nodes

/-- A contract. -/
def contractDefinition (o : Placed) (decode : o.Child) : Outcome Failure Node := do
  let id ← o.required "id" Json.toInt
  let name ← o.required "name" Json.toText
  let src ← o.optionalD "src" Json.toText ""
  let contractKind ← o.optionalD "contractKind" Json.toText ""
  let isAbstract ← o.optionalD "abstract" Json.toBool false
  let nodes ← o.children decode .nodes
  return .contractDefinition ⟨id, src, name, contractKind, isAbstract⟩ nodes

/-- A function. -/
def functionDefinition (o : Placed) (decode : o.Child) : Outcome Failure Node := do
  let id ← o.required "id" Json.toInt
  let name ← o.required "name" Json.toText
  let kind ← o.required "kind" Json.toFunctionKind
  let visibility ← o.required "visibility" Json.toVisibility
  let mutability ← o.required "stateMutability" Json.toMutability
  let src ← o.optionalD "src" Json.toText ""
  let selector ← o.optional "functionSelector" Json.toSelector
  let said ← o.optional "implemented" Json.toBool
  let body ← o.body decode
  let implemented := said.getD body.isSome
  if implemented ∧ body.isNone then o.failAt "body" .missingBody
  else do
    let nodes ← o.optionalNodes decode
    return .functionDefinition ⟨id, src, name, kind, visibility, mutability, implemented, selector⟩
      body nodes

/-- A variable. -/
def variableDeclaration (o : Placed) (decode : o.Child) : Outcome Failure Node := do
  let id ← o.required "id" Json.toInt
  let name ← o.required "name" Json.toText
  let visibility ← o.required "visibility" Json.toVisibility
  let src ← o.optionalD "src" Json.toText ""
  let stateVariable ← o.optionalD "stateVariable" Json.toBool false
  let constant ← o.optionalD "constant" Json.toBool false
  let nodes ← o.optionalNodes decode
  return .variableDeclaration ⟨id, src, name, visibility, stateVariable, constant⟩ nodes

/-- A block. -/
def block (o : Placed) (decode : o.Child) : Outcome Failure Node := do
  let id ← o.required "id" Json.toInt
  let src ← o.required "src" Json.toText
  let statements ← o.statements decode
  return .block id src statements

/-- A statement that is an expression. -/
def expressionStatement (o : Placed) (decode : o.Child) : Outcome Failure Node := do
  let id ← o.required "id" Json.toInt
  let src ← o.required "src" Json.toText
  let expression ← o.expression decode
  return .expressionStatement id src expression

/-- A call. -/
def functionCall (o : Placed) (decode : o.Child) : Outcome Failure Node := do
  let id ← o.required "id" Json.toInt
  let src ← o.required "src" Json.toText
  let expression ← o.expression decode
  let arguments ← o.arguments decode
  return .functionCall id src expression arguments

/-- A name. -/
def identifier (o : Placed) : Outcome Failure Node := do
  let id ← o.required "id" Json.toInt
  let src ← o.required "src" Json.toText
  let name ← o.required "name" Json.toText
  let referencedDeclaration ← o.optionalD "referencedDeclaration" Json.toInt 0
  return .identifier ⟨id, src, name, referencedDeclaration⟩

/-- A node of a registered kind. -/
def known (o : Placed) (decode : o.Child) : Kind → Outcome Failure Node
  | .sourceUnit => o.sourceUnit decode
  | .contractDefinition => o.contractDefinition decode
  | .functionDefinition => o.functionDefinition decode
  | .variableDeclaration => o.variableDeclaration decode
  | .block => o.block decode
  | .expressionStatement => o.expressionStatement decode
  | .functionCall => o.functionCall decode
  | .identifier => o.identifier
  | .plain p => .ok (.plain p)

/-- A node of an unregistered tag; it is reported after everything below it. -/
def unknown (opts : Options) (o : Placed) (decode : o.Child) : Outcome Failure Node :=
  match o.object.id with
  | none => o.failAt "id" (.noUsableId o.object.tag)
  | some id =>
    match childField? o.object with
    | none => o.failAt "nodes" (.noChildList o.object.tag)
    | some field => do
      let nodes ← o.children decode field
      if opts.reportUnknown then o.report id
      return .unknown o.object.tag id field nodes

/-- A node whose tag has been read: the position is checked first. -/
def node (opts : Options) (role : Option Role) (o : Placed) (decode : o.Child) :
    Outcome Failure Node :=
  match role, Kind.ofTag? o.object.tag with
  | none, none => o.unknown opts decode
  | none, some kind => o.known decode kind
  | some role, none => o.misplace role
  | some role, some kind => if kind.allows role then o.known decode kind else o.misplace role

end Placed

/-! ## 4. Nodes -/

/-- Decodes the value at a path, at a depth and in a position. -/
def nodeAt (opts : Options) (path : Path) (depth : Nat) (role : Option Role) :
    Json → Outcome Failure Node
  | .obj _ members =>
    if opts.tooDeep depth then .fail { path := path, cause := .tooDeep opts.maxDepth }
    else
      match tagOf members with
      | .error cause => Placed.failAt ⟨⟨"", readableId members, members⟩, path⟩ "nodeType" cause
      | .ok tag =>
        Placed.node opts role ⟨⟨tag, readableId members, members⟩, path⟩ fun path role v =>
          nodeAt opts path (depth + 1) role v.val
  | v =>
    if opts.tooDeep depth then .fail { path := path, cause := .tooDeep opts.maxDepth }
    else .fail { path := path, cause := .notObject v.excerpt }
termination_by v => v.size
decreasing_by
  have : v.val.size ≤ Json.sizeMembers members := v.property
  simp only [Json.size]
  omega

end SolidityTree.Decode
