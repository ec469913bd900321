/-!
# Kinds of nodes

Every node of a compact syntax tree has a tag, the name of its kind.  The register below lists the 67
tags of the Solidity compiler in a fixed order, numbered from 1; number 0 is kept for tags that are
not in it.  Eight kinds have fields of their own; of the others, the `Plain` ones, only the name
is kept.

A kind may be allowed in statement position or in expression position, never in both.
-/

namespace SolidityTree

/-! ## 1. Kinds -/

/-- A kind of which only the name is kept. -/
inductive Plain where
  | arrayTypeName
  | assignment
  | binaryOperation
  | breakStatement
  | conditional
  | continueStatement
  | doWhileStatement
  | elementaryTypeName
  | elementaryTypeNameExpression
  | emitStatement
  | enumDefinition
  | enumValue
  | errorDefinition
  | eventDefinition
  | forStatement
  | functionCallOptions
  | functionTypeName
  | identifierPath
  | ifStatement
  | importDirective
  | indexAccess
  | indexRangeAccess
  | inheritanceSpecifier
  | inlineAssembly
  | literal
  | mapping
  | memberAccess
  | modifierDefinition
  | modifierInvocation
  | newExpression
  | overrideSpecifier
  | parameterList
  | placeholderStatement
  | pragmaDirective
  | returnStatement
  | revertStatement
  | structDefinition
  | structuredDocumentation
  | throwStatement
  | tryCatchClause
  | tryStatement
  | tupleExpression
  | unaryOperation
  | uncheckedBlock
  | userDefinedTypeName
  | userDefinedValueTypeDefinition
  | usingForDirective
  | variableDeclarationStatement
  | whileStatement
  | yulAssignment
  | yulBlock
  | yulCase
  | yulExpressionStatement
  | yulFunctionCall
  | yulIdentifier
  | yulLiteral
  | yulSwitch
  | yulTypedName
  | yulVariableDeclaration
  deriving DecidableEq, Repr

/-- A registered kind of node. -/
inductive Kind where
  | block
  | contractDefinition
  | expressionStatement
  | functionCall
  | functionDefinition
  | identifier
  | sourceUnit
  | variableDeclaration
  | plain (p : Plain)
  deriving DecidableEq, Repr

/-- A position that admits only some kinds. -/
inductive Role where
  | statement
  | expression
  deriving DecidableEq, Repr

/-! ## 2. Tags and positions -/

/-- The tag of a plain kind. -/
def Plain.tag : Plain → String
  | .arrayTypeName => "ArrayTypeName"
  | .assignment => "Assignment"
  | .binaryOperation => "BinaryOperation"
  | .breakStatement => "Break"
  | .conditional => "Conditional"
  | .continueStatement => "Continue"
  | .doWhileStatement => "DoWhileStatement"
  | .elementaryTypeName => "ElementaryTypeName"
  | .elementaryTypeNameExpression => "ElementaryTypeNameExpression"
  | .emitStatement => "EmitStatement"
  | .enumDefinition => "EnumDefinition"
  | .enumValue => "EnumValue"
  | .errorDefinition => "ErrorDefinition"
  | .eventDefinition => "EventDefinition"
  | .forStatement => "ForStatement"
  | .functionCallOptions => "FunctionCallOptions"
  | .functionTypeName => "FunctionTypeName"
  | .identifierPath => "IdentifierPath"
  | .ifStatement => "IfStatement"
  | .importDirective => "ImportDirective"
  | .indexAccess => "IndexAccess"
  | .indexRangeAccess => "IndexRangeAccess"
  | .inheritanceSpecifier => "InheritanceSpecifier"
  | .inlineAssembly => "InlineAssembly"
  | .literal => "Literal"
  | .mapping => "Mapping"
  | .memberAccess => "MemberAccess"
  | .modifierDefinition => "ModifierDefinition"
  | .modifierInvocation => "ModifierInvocation"
  | .newExpression => "NewExpression"
  | .overrideSpecifier => "OverrideSpecifier"
  | .parameterList => "ParameterList"
  | .placeholderStatement => "PlaceholderStatement"
  | .pragmaDirective => "PragmaDirective"
  | .returnStatement => "Return"
  | .revertStatement => "RevertStatement"
  | .structDefinition => "StructDefinition"
  | .structuredDocumentation => "StructuredDocumentation"
  | .throwStatement => "Throw"
  | .tryCatchClause => "TryCatchClause"
  | .tryStatement => "TryStatement"
  | .tupleExpression => "TupleExpression"
  | .unaryOperation => "UnaryOperation"
  | .uncheckedBlock => "UncheckedBlock"
  | .userDefinedTypeName => "UserDefinedTypeName"
  | .userDefinedValueTypeDefinition => "UserDefinedValueTypeDefinition"
  | .usingForDirective => "UsingForDirective"
  | .variableDeclarationStatement => "VariableDeclarationStatement"
  | .whileStatement => "WhileStatement"
  | .yulAssignment => "YulAssignment"
  | .yulBlock => "YulBlock"
  | .yulCase => "YulCase"
  | .yulExpressionStatement => "YulExpressionStatement"
  | .yulFunctionCall => "YulFunctionCall"
  | .yulIdentifier => "YulIdentifier"
  | .yulLiteral => "YulLiteral"
  | .yulSwitch => "YulSwitch"
  | .yulTypedName => "YulTypedName"
  | .yulVariableDeclaration => "YulVariableDeclaration"

/-- The position that a plain kind may stand in, if any. -/
def Plain.role? : Plain → Option Role
  | .breakStatement | .continueStatement | .doWhileStatement | .emitStatement | .forStatement
  | .ifStatement | .inlineAssembly | .placeholderStatement | .returnStatement | .revertStatement
  | .tryStatement | .uncheckedBlock | .variableDeclarationStatement | .whileStatement => some .statement
  | .assignment | .binaryOperation | .conditional | .elementaryTypeNameExpression
  | .functionCallOptions | .indexAccess | .indexRangeAccess | .literal | .memberAccess
  | .newExpression | .tupleExpression | .unaryOperation => some .expression
  | _ => none

namespace Kind

/-- The tag that names a kind in a document. -/
def tag : Kind → String
  | .block => "Block"
  | .contractDefinition => "ContractDefinition"
  | .expressionStatement => "ExpressionStatement"
  | .functionCall => "FunctionCall"
  | .functionDefinition => "FunctionDefinition"
  | .identifier => "Identifier"
  | .sourceUnit => "SourceUnit"
  | .variableDeclaration => "VariableDeclaration"
  | .plain p => p.tag

/-- The position that a kind may stand in, if any. -/
def role? : Kind → Option Role
  | .block => some .statement
  | .expressionStatement => some .statement
  | .functionCall => some .expression
  | .identifier => some .expression
  | .plain p => p.role?
  | _ => none

/-- Whether a kind may stand in a position. -/
def allows (role : Role) (k : Kind) : Bool := k.role? = some role

/-! ## 3. The register -/

/-- All kinds in the order of the register. -/
def all : List Kind := [
  .plain .arrayTypeName, .plain .assignment, .plain .binaryOperation, .block,
  .plain .breakStatement, .plain .conditional, .plain .continueStatement, .contractDefinition,
  .plain .doWhileStatement, .plain .elementaryTypeName, .plain .elementaryTypeNameExpression,
  .plain .emitStatement, .plain .enumDefinition, .plain .enumValue, .plain .errorDefinition,
  .plain .eventDefinition, .expressionStatement, .plain .forStatement, .functionCall,
  .plain .functionCallOptions, .functionDefinition, .plain .functionTypeName, .identifier,
  .plain .identifierPath, .plain .ifStatement, .plain .importDirective, .plain .indexAccess,
  .plain .indexRangeAccess, .plain .inheritanceSpecifier, .plain .inlineAssembly,
  .plain .literal, .plain .mapping, .plain .memberAccess, .plain .modifierDefinition,
  .plain .modifierInvocation, .plain .newExpression, .plain .overrideSpecifier,
  .plain .parameterList, .plain .placeholderStatement, .plain .pragmaDirective,
  .plain .returnStatement, .plain .revertStatement, .sourceUnit, .plain .structDefinition,
  .plain .structuredDocumentation, .plain .throwStatement, .plain .tryCatchClause,
  .plain .tryStatement, .plain .tupleExpression, .plain .unaryOperation, .plain .uncheckedBlock,
  .plain .userDefinedTypeName, .plain .userDefinedValueTypeDefinition, .plain .usingForDirective,
  .variableDeclaration, .plain .variableDeclarationStatement, .plain .whileStatement,
  .plain .yulAssignment, .plain .yulBlock, .plain .yulCase, .plain .yulExpressionStatement,
  .plain .yulFunctionCall, .plain .yulIdentifier, .plain .yulLiteral, .plain .yulSwitch,
  .plain .yulTypedName, .plain .yulVariableDeclaration]

/-- The kind that a tag names; tags are case-sensitive. -/
def ofTag? (tag : String) : Option Kind := all.find? fun k => k.tag = tag

/-- Every kind is registered. -/
theorem mem_all (k : Kind) : k ∈ all := by
  cases k with
  | plain p => cases p <;> decide +kernel
  | _ => decide +kernel

@[simp] theorem ofTag?_tag (k : Kind) : ofTag? k.tag = some k := by
  have registered : ∀ k ∈ all, ofTag? k.tag = some k := by decide +kernel
  exact registered k (mem_all k)

/-- A tag names a kind exactly if it is the kind's tag: all kinds are registered, and no two of them
share a tag. -/
theorem ofTag?_eq_some_iff {tag : String} {k : Kind} : ofTag? tag = some k ↔ k.tag = tag := by
  constructor
  · intro h
    have := List.find?_some h
    simpa using this
  · rintro rfl
    exact ofTag?_tag k

theorem ofTag?_eq_none_iff {tag : String} : ofTag? tag = none ↔ ∀ k : Kind, k.tag ≠ tag := by
  constructor
  · rintro h k rfl
    rw [ofTag?_tag] at h
    cases h
  · intro h
    cases hk : ofTag? tag with
    | none => rfl
    | some k => exact absurd (ofTag?_eq_some_iff.mp hk) (h k)

/-- The number of a kind in the register, from 1. -/
def number (k : Kind) : Nat := all.idxOf k + 1

/-- The kind with a number of the register. -/
def ofNumber? (n : Int) : Option Kind :=
  if 1 ≤ n then all[n.toNat - 1]? else none

/-- The name of a number of the register: 0 stands for unregistered tags. -/
def nameOf (n : Int) : String :=
  if n = 0 then "Unknown"
  else
    match ofNumber? n with
    | some k => k.tag
    | none => "NodeType(invalid)"

/-- The name under which nodes of a kind are listed; `none` is the kind of an unregistered tag. -/
def label : Option Kind → String
  | some k => k.tag
  | none => "Unknown"

end Kind

end SolidityTree
