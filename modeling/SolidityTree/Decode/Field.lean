import SolidityTree.Node
import SolidityTree.Outcome

/-!
# Reading the members of an object

An `Object` is a node of a document on its way to become a node of a tree: its members, and the tag and
id that failures name it by.  A member that is absent or null does not count.  Scalars are read by the
functions of §1, which say what a value must be; `required` and `optional` apply them to a member and
place their cause at it.

The values that decoding goes on with are `Part`s: values below the object, so that recursion over
them ends.
-/

namespace SolidityTree

/-! ## 1. Scalars -/

namespace Json

/-- What a value is, as a message names it. -/
def found : Json → Found
  | null => .object
  | bool _ => .bool
  | num _ => .number
  | str _ _ => .string
  | arr _ _ => .array
  | obj _ _ => .object

/-- A 64-bit integer; null reads as 0. -/
def toInt : Json → Except Cause Int64
  | null => .ok 0
  | num literal =>
    match Decimal.read literal with
    | .ok i => .ok i
    | .error _ => .error (.mismatch (.literal literal) .int)
  | v => .error (.mismatch v.found .int)

/-- A text; null reads as the empty one. -/
def toText : Json → Except Cause String
  | null => .ok ""
  | str _ value => .ok value
  | v => .error (.mismatch v.found .string)

/-- A truth value; null reads as false. -/
def toBool : Json → Except Cause Bool
  | null => .ok false
  | bool b => .ok b
  | v => .error (.mismatch v.found .bool)

/-- A word of a vocabulary. -/
def toWord {α : Type} (vocabulary : Vocabulary) (ofWord? : String → Option α) (v : Json) :
    Except Cause α :=
  match v.toText with
  | .error _ => .error (.wordNotString vocabulary v.excerpt)
  | .ok word =>
    match ofWord? word with
    | some a => .ok a
    | none => .error (.unknownWord vocabulary word)

/-- A visibility. -/
def toVisibility : Json → Except Cause Visibility := toWord .visibility Visibility.ofWord?

/-- A mutability. -/
def toMutability : Json → Except Cause Mutability := toWord .stateMutability Mutability.ofWord?

/-- A function kind. -/
def toFunctionKind : Json → Except Cause FunctionKind := toWord .kind FunctionKind.ofWord?

/-- A selector. -/
def toSelector (v : Json) : Except Cause Selector :=
  match v.toText with
  | .error _ => .error .selectorNotString
  | .ok text => (Selector.ofText text).mapError (.badSelector text)

/-- Reads a selector into a place that holds one already.  The place is written last, when nothing
can go wrong any more. -/
def storeSelector (v : Json) : EStateM Cause Selector Unit :=
  match v.toSelector with
  | .ok s => set s
  | .error cause => throw cause

end Json

/-! ## 2. Objects and their parts -/

/-- The id that failures name an object by: its last `id` member, if that reads as an integer. -/
def readableId (members : List (String × Json)) : Option Int64 :=
  match Json.last? "id" members with
  | none => none
  | some v =>
    match v.toInt with
    | .ok id => some id
    | .error _ => none

/-- A node of a document that is being decoded. -/
structure Object where
  tag : String
  id : Option Int64
  members : List (String × Json)

/-- A value that is no larger than all members of an object together; decoding goes down from an
object to its parts only, so it ends. -/
abbrev Part (o : Object) := { v : Json // v.size ≤ Json.sizeMembers o.members }

/-- The items of an array, each of them a part again. -/
def Part.items? {o : Object} : Part o → Option (List (Part o))
  | ⟨.arr _ items, h⟩ =>
    some (items.pmap (fun v hv => ⟨v, hv⟩) fun _ hv => by
      have := Json.size_le_sizeItems hv
      simp only [Json.size] at h
      omega)
  | _ => none

namespace Object

variable {α : Type}

/-- The failure of the object itself. -/
def failure (o : Object) (cause : Cause) : Failure :=
  { tag := o.tag, id := o.id, cause := cause }

/-- The failure of a member. -/
def failureAt (o : Object) (field : String) (cause : Cause) : Failure :=
  { o.failure cause with field := some field }

/-- Stops at a member. -/
def failAt (o : Object) (field : String) (cause : Cause) : Outcome Failure α :=
  .fail (o.failureAt field cause)

/-- A member that is neither absent nor null. -/
def part? (o : Object) (field : String) : Option (Part o) :=
  match h : Json.present? field o.members with
  | none => none
  | some v => some ⟨v, Json.size_le_of_last? (Json.last?_of_present? h)⟩

/-- Reads a member that is there. -/
def readAt (o : Object) (field : String) (read : Json → Except Cause α) (v : Json) :
    Outcome Failure α :=
  match read v with
  | .ok a => .ok a
  | .error cause => o.failAt field cause

/-- A scalar that must be there. -/
def required (o : Object) (field : String) (read : Json → Except Cause α) :
    Outcome Failure α :=
  match o.part? field with
  | none => o.failAt field .missingField
  | some v => o.readAt field read v

/-- A scalar that may be left out. -/
def optional (o : Object) (field : String) (read : Json → Except Cause α) :
    Outcome Failure (Option α) :=
  match o.part? field with
  | none => .ok none
  | some v => do return some (← o.readAt field read v)

/-- A scalar that may be left out and then has a value of its own. -/
def optionalD (o : Object) (field : String) (read : Json → Except Cause α) (default : α) :
    Outcome Failure α := do
  return (← o.optional field read).getD default

/-- A list that may be left out. -/
def list? (o : Object) (field : String) : Outcome Failure (Option (List (Part o))) :=
  match o.part? field with
  | none => .ok none
  | some v =>
    match v.items? with
    | some items => .ok (some items)
    | none => o.failAt field (.notArray v.val.excerpt)

/-- A list that must be there. -/
def list (o : Object) (field : String) : Outcome Failure (List (Part o)) := do
  match ← o.list? field with
  | some items => .ok items
  | none => o.failAt field .missingField

end Object

end SolidityTree
