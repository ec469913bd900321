import SolidityTree.Json.Scalar

/-!
# Reading a JSON text

The reader goes over the text once, byte by byte.  Its state is the stack of arrays and objects that
are open and what it is in the middle of: a word, a string, or a place BETWEEN two tokens.  White
space is skipped between tokens and nowhere else, and a line break inside a string is refused at
once, so the byte after a line break is always read between two tokens.

At most `nestingLimit` arrays and objects may be open at a time.  The whole text must be one value.
-/

namespace SolidityTree.Json

/-! ## 1. States -/

/-- An array or object that is open, from its opening bracket to the end of the text, with what has
been read of it so far in reverse order. -/
inductive Frame where
  | arr (start : Bytes) (items : List Json)
  | obj (start : Bytes) (members : List (String × Json)) (name : String)

/-- A place between two tokens, named by what may come next. -/
inductive Place where
  /-- A value must come. -/
  | value
  /-- A value or the end of an array that is still empty. -/
  | firstItem
  /-- A member name or the end of an object that is still empty. -/
  | firstName
  /-- A member name must come. -/
  | name
  /-- The colon after a member name must come. -/
  | colon
  /-- A comma or a closing bracket must come. -/
  | next
  /-- The value of the whole text is complete. -/
  | done (v : Json)

/-- What the reader is in the middle of. -/
inductive Mode where
  | between (place : Place)
  /-- A word; its bytes in reverse order. -/
  | word (read : Bytes)
  /-- A string; its bytes in reverse order, and whether the last one is a backslash that escapes
  the next. -/
  | string (isName : Bool) (read : Bytes) (escaped : Bool)

/-- The state between two bytes. -/
structure State where
  mode : Mode
  stack : List Frame

/-- The largest number of arrays and objects that may be open at a time. -/
def nestingLimit : Nat := 10000

/-- The white space that may stand between tokens. -/
def isGap (b : UInt8) : Bool :=
  b = Ascii.space || b = Ascii.tab || b = Ascii.cr || b = Ascii.lf

/-- The piece of the text from `start` up to `rest`. -/
def cut (start rest : Bytes) : Thunk Bytes := ⟨fun _ => start.take (start.length - rest.length)⟩

/-! ## 2. Steps -/

/-- The state after a complete value. -/
def put (v : Json) : List Frame → State
  | [] => ⟨.between (.done v), []⟩
  | .arr start items :: stack => ⟨.between .next, .arr start (v :: items) :: stack⟩
  | .obj start members name :: stack =>
    ⟨.between .next, .obj start ((name, v) :: members) name :: stack⟩

/-- Opens an array or object if the limit allows one more. -/
def push (frame : Frame) (place : Place) (stack : List Frame) : Option State :=
  if stack.length < nestingLimit then some ⟨.between place, frame :: stack⟩ else none

/-- Closes the innermost array, which ends before `rest`. -/
def closeArray (rest : Bytes) : List Frame → Option State
  | .arr start items :: stack => some (put (.arr (cut start rest) items.reverse) stack)
  | _ => none

/-- Closes the innermost object, which ends before `rest`. -/
def closeObject (rest : Bytes) : List Frame → Option State
  | .obj start members _ :: stack => some (put (.obj (cut start rest) members.reverse) stack)
  | _ => none

/-- The first byte of a value. -/
def beginValue (stack : List Frame) (b : UInt8) (rest : Bytes) : Option State :=
  if b = Ascii.openBracket then push (.arr (b :: rest) []) .firstItem stack
  else if b = Ascii.openBrace then push (.obj (b :: rest) [] "") .firstName stack
  else if b = Ascii.quote then some ⟨.string false [] false, stack⟩
  else if isWordByte b then some ⟨.word [b], stack⟩
  else none

/-- The byte after a complete value inside an array or object. -/
def afterValue (stack : List Frame) (b : UInt8) (rest : Bytes) : Option State :=
  if b = Ascii.comma then
    match stack with
    | .arr _ _ :: _ => some ⟨.between .value, stack⟩
    | .obj _ _ _ :: _ => some ⟨.between .name, stack⟩
    | [] => none
  else if b = Ascii.closeBracket then closeArray rest stack
  else if b = Ascii.closeBrace then closeObject rest stack
  else none

/-- One byte between two tokens. -/
def stepBetween (place : Place) (stack : List Frame) (b : UInt8) (rest : Bytes) : Option State :=
  if isGap b then some ⟨.between place, stack⟩
  else
    match place with
    | .value => beginValue stack b rest
    | .firstItem =>
      if b = Ascii.closeBracket then closeArray rest stack else beginValue stack b rest
    | .firstName =>
      if b = Ascii.closeBrace then closeObject rest stack
      else if b = Ascii.quote then some ⟨.string true [] false, stack⟩
      else none
    | .name => if b = Ascii.quote then some ⟨.string true [] false, stack⟩ else none
    | .colon => if b = Ascii.colon then some ⟨.between .value, stack⟩ else none
    | .next => afterValue stack b rest
    | .done _ => none

/-- The state after the closing quote of a string. -/
def endString (isName : Bool) (body : Bytes) (stack : List Frame) : Option State :=
  match ofBody? body with
  | none => none
  | some value =>
    if isName then
      match stack with
      | .obj start members _ :: stack => some ⟨.between .colon, .obj start members value :: stack⟩
      | _ => none
    else
      some (put (.str ⟨fun _ => Ascii.quote :: body ++ [Ascii.quote]⟩ value) stack)

/-- One byte of the text, with the text after it. -/
def State.step (st : State) (b : UInt8) (rest : Bytes) : Option State :=
  match st.mode with
  | .between place => stepBetween place st.stack b rest
  | .word read =>
    if isWordByte b then some ⟨.word (b :: read), st.stack⟩
    else
      match ofWord? read.reverse with
      | none => none
      | some v =>
        match put v st.stack with
        | ⟨.between place, stack⟩ => stepBetween place stack b rest
        | _ => none
  | .string isName read escaped =>
    if b < 0x20 then none
    else if escaped then some ⟨.string isName (b :: read) false, st.stack⟩
    else if b = Ascii.quote then endString isName read.reverse st.stack
    else some ⟨.string isName (b :: read) (b = Ascii.backslash), st.stack⟩

/-- The value of a text that ends here. -/
def State.finish (st : State) : Option Json :=
  match st.mode, st.stack with
  | .between (.done v), [] => some v
  | .word read, [] => ofWord? read.reverse
  | _, _ => none

/-! ## 3. Texts -/

/-- Reads on from a state to the end of the text. -/
def run : State → Bytes → Option Json
  | st, [] => st.finish
  | st, b :: rest =>
    match st.step b rest with
    | none => none
    | some st => run st rest

/-- The state in front of a text. -/
def start : State := ⟨.between .value, []⟩

/-- The value of a JSON text; `none` if the text is malformed. -/
def parse? (bs : Bytes) : Option Json := run start bs

end SolidityTree.Json
