import SolidityTree.Json
import SolidityTree.Kind
import SolidityTree.Selector
import SolidityTree.Text.Decimal
import SolidityTree.Text.Quoted

/-!
# Where and why decoding fails

A failure names the node it arose at by the PATH from the root of the document, the member of that
node if one is to blame, the node's tag and id as far as they were read, and the cause.  Causes fall
into eight categories; a category is what a caller tells failures apart by, and every cause's
message begins with the words of its category.

Contents
* §1  descents and paths
* §2  causes and categories
* §3  failures and messages
-/

namespace SolidityTree

/-! ## 1. Paths -/

/-- One step from a node of a document to a node below it. -/
inductive Descent where
  | nodes (index : Nat)
  | statements (index : Nat)
  | arguments (index : Nat)
  | expression
  | body
  deriving DecidableEq, Repr

/-- The steps from the root of a document to a node. -/
abbrev Path := List Descent

/-- The written form of an item of a list. -/
def Descent.item (field : String) (index : Nat) : String :=
  "." ++ field ++ "[" ++ Decimal.writeNat index ++ "]"

/-- The written form of a step. -/
def Descent.text : Descent → String
  | nodes index => item "nodes" index
  | statements index => item "statements" index
  | arguments index => item "arguments" index
  | expression => ".expression"
  | body => ".body"

/-- The written form of a path: `$` is the root. -/
def Path.text (path : Path) : String := "$" ++ String.join (path.map Descent.text)

/-! ## 2. Causes -/

/-- What a scalar member must hold. -/
inductive Scalar where
  | int
  | string
  | bool
  deriving DecidableEq, Repr

/-- What a member holds instead. -/
inductive Found where
  | string
  | bool
  | array
  | object
  | number
  /-- A number that is no 64-bit integer, as it is written. -/
  | literal (text : Bytes)
  deriving DecidableEq, Repr

/-- The members whose words come from a closed vocabulary. -/
inductive Vocabulary where
  | visibility
  | stateMutability
  | kind
  deriving DecidableEq, Repr

/-- Why decoding stopped. -/
inductive Cause where
  /-- The document is no JSON text. -/
  | malformed
  /-- The node has no tag. -/
  | missingTag
  /-- The tag is no string. -/
  | tagNotString
  /-- A required member is absent or null. -/
  | missingField
  /-- A function is said to be implemented and has no body. -/
  | missingBody
  /-- A scalar member holds something else. -/
  | mismatch (found : Found) (want : Scalar)
  /-- A node is no object. -/
  | notObject (excerpt : Bytes)
  /-- A list of nodes is no array. -/
  | notArray (excerpt : Bytes)
  /-- A word of a vocabulary is no string. -/
  | wordNotString (vocabulary : Vocabulary) (excerpt : Bytes)
  /-- A word is not in its vocabulary. -/
  | unknownWord (vocabulary : Vocabulary) (word : String)
  /-- A selector is no string. -/
  | selectorNotString
  /-- A selector is not eight hexadecimal digits. -/
  | badSelector (text : String) (trouble : Selector.Trouble)
  /-- A node of an unregistered tag has no readable id. -/
  | noUsableId (tag : String)
  /-- A node of an unregistered tag has no list of children. -/
  | noChildList (tag : String)
  /-- The kind may not stand in this position. -/
  | misplaced (role : Role) (tag : String)
  /-- The body of a function is no block. -/
  | bodyNotBlock (tag : String)
  /-- The root of a source file is no source unit. -/
  | rootNotSourceUnit (tag : String)
  /-- The node lies deeper than the limit. -/
  | tooDeep (limit : Int64)
  deriving DecidableEq

/-- What callers tell failures apart by. -/
inductive Category where
  | malformed
  | missingTag
  | missingField
  | fieldShape
  | invalidWord
  | missingFallback
  | position
  | tooDeep
  deriving DecidableEq, Repr

/-- The category of a cause. -/
def Cause.category : Cause → Category
  | malformed => .malformed
  | missingTag => .missingTag
  | missingField | missingBody => .missingField
  | tagNotString | mismatch _ _ | notObject _ | notArray _ | selectorNotString
  | badSelector _ _ => .fieldShape
  | wordNotString _ _ | unknownWord _ _ => .invalidWord
  | noUsableId _ | noChildList _ => .missingFallback
  | misplaced _ _ | bodyNotBlock _ | rootNotSourceUnit _ => .position
  | tooDeep _ => .tooDeep

/-! ## 3. Messages -/

/-- The words of a category. -/
def Category.words : Category → String
  | malformed => "malformed JSON"
  | missingTag => "missing nodeType"
  | missingField => "missing required field"
  | fieldShape => "unexpected field shape"
  | invalidWord => "invalid enum value"
  | missingFallback => "unrecognized nodeType without id and child list"
  | position => "node kind not allowed here"
  | tooDeep => "maximum nesting depth exceeded"

/-- The name of a scalar type. -/
def Scalar.name : Scalar → String
  | int => "int"
  | string => "string"
  | bool => "bool"

/-- The name of what was found. -/
def Found.name : Found → Bytes
  | string => utf8 "string"
  | bool => utf8 "bool"
  | array => utf8 "array"
  | object => utf8 "object"
  | number => utf8 "number"
  | literal text => utf8 "number " ++ text

/-- The name of the member that takes words of a vocabulary. -/
def Vocabulary.name : Vocabulary → String
  | visibility => "visibility"
  | stateMutability => "stateMutability"
  | kind => "kind"

/-- A position with its article. -/
def Role.phrase : Role → String
  | .statement => "a statement"
  | .expression => "an expression"

/-- What is wrong with a selector. -/
def Selector.Trouble.detail (text : String) : Selector.Trouble → String
  | .notHex => "functionSelector " ++ Quoted.quote text ++ ": invalid hex string"
  | .oddLength => "functionSelector " ++ Quoted.quote text ++ ": hex string of odd length"
  | .wrongSize count =>
    "functionSelector " ++ Quoted.quote text ++ " has " ++ Decimal.writeNat count ++ " bytes, want 4"

namespace Cause

/-- What a message adds to the words of the category. -/
def detail? : Cause → Option Bytes
  | malformed | missingTag | missingField => none
  | tagNotString => some (utf8 "nodeType must be a string")
  | missingBody => some (utf8 "implemented function has no body")
  | mismatch found want =>
    some (utf8 "json: cannot unmarshal " ++ found.name ++ utf8 " into Go value of type "
      ++ utf8 want.name)
  | notObject excerpt => some (utf8 "expected object, got " ++ excerpt)
  | notArray excerpt => some (utf8 "expected array, got " ++ excerpt)
  | wordNotString vocabulary excerpt =>
    some (utf8 vocabulary.name ++ utf8 " must be a string, got " ++ excerpt)
  | unknownWord vocabulary word => some (utf8 (vocabulary.name ++ " " ++ Quoted.quote word))
  | selectorNotString => some (utf8 "functionSelector must be a string")
  | badSelector text trouble => some (utf8 (trouble.detail text))
  | noUsableId tag => some (utf8 (Quoted.quote tag ++ " has no usable id"))
  | noChildList tag => some (utf8 (Quoted.quote tag ++ " has no nodes or statements"))
  | misplaced role tag => some (utf8 (tag ++ " is not " ++ role.phrase))
  | bodyNotBlock tag => some (utf8 (tag ++ " is not a Block"))
  | rootNotSourceUnit tag => some (utf8 ("root is " ++ tag ++ ", want SourceUnit"))
  | tooDeep limit => some (utf8 ("limit " ++ Decimal.write limit))

/-- The message of a cause: the words of its category and the detail. -/
def message (cause : Cause) : Bytes :=
  match cause.detail? with
  | none => utf8 cause.category.words
  | some detail => utf8 cause.category.words ++ utf8 ": " ++ detail

end Cause

/-- A failure to decode a document. -/
structure Failure where
  /-- The node at which decoding stopped. -/
  path : Path := []
  /-- The member of that node that is to blame. -/
  field : Option String := none
  /-- The tag of the node; empty if it was not read. -/
  tag : String := ""
  /-- The id of the node, if it was readable. -/
  id : Option Int64 := none
  cause : Cause
  deriving DecidableEq

namespace Failure

/-- The written place of a failure. -/
def place (f : Failure) : String :=
  match f.field with
  | none => f.path.text
  | some field => f.path.text ++ "." ++ field

/-- What is known of the node, in brackets. -/
def context (f : Failure) : String :=
  match f.id with
  | none => if f.tag = "" then "" else " (" ++ f.tag ++ ")"
  | some id =>
    if f.tag = "" then " (id=" ++ Decimal.write id ++ ")"
    else " (" ++ f.tag ++ " id=" ++ Decimal.write id ++ ")"

/-- The message of a failure. -/
def message (f : Failure) : Bytes :=
  utf8 ("decode " ++ f.place ++ f.context ++ ": ") ++ f.cause.message

/-- The same failure seen from one step further up. -/
def under (step : Descent) (f : Failure) : Failure := { f with path := step :: f.path }

end Failure

end SolidityTree
