import SolidityTree.Text.Decimal
import SolidityTree.Text.Pieces
import SolidityTree.Text.Quoted

/-!
# Message templates

A log message is a template with values.  In the template a percent sign begins a directive: flags, a
least width and a verb, which says how the next value is written.

* `d` writes an integer in decimal, `x` an integer or the bytes of a text in hexadecimal, `s` a text,
  `q` a text or a code point between quotes, `t` a truth value, and `v` any value in its plain form.
* `-` puts the filling to the right, `0` fills with zeros, and a space leaves room for the sign of a
  number or sets the bytes of a text apart.

A template never fails: a verb that does not go with its value, a verb without a value, a directive
without a verb and values without a directive all leave a mark in the message that says so.

Contents
* §1  values and layouts
* §2  directives of a template
* §3  writing a value
* §4  filling in
-/

namespace SolidityTree

/-! ## 1. Values and layouts -/

namespace Template

/-- A value that a message shows. -/
inductive Value where
  | text (s : String)
  | int (i : Int64)
  | bool (b : Bool)
  deriving DecidableEq

/-- How a value is laid out. -/
structure Layout where
  /-- The filling goes to the right. -/
  left : Bool := false
  /-- The filling is zeros. -/
  zero : Bool := false
  /-- Room is left for a sign, or between bytes. -/
  space : Bool := false
  /-- The least number of characters. -/
  width : Nat := 0
  deriving DecidableEq

/-! ## 2. Directives -/

/-- A part of a template. -/
inductive Part where
  | literal (c : Char)
  | directive (layout : Layout) (verb : Char)
  /-- The template ends inside a directive. -/
  | unfinished
  deriving DecidableEq

/-- How far the reading of a template has come. -/
inductive Stage where
  /-- Outside of directives. -/
  | outside
  /-- After the flags read so far. -/
  | flags (layout : Layout)
  /-- After the digits of a width read so far. -/
  | width (layout : Layout)

/-- The width beyond which no further digit is read. -/
def widthLimit : Nat := 1000000

/-- The layout with one more digit of the width. -/
def Layout.digit (layout : Layout) (c : Char) : Layout :=
  { layout with width := layout.width * 10 + (c.toNat - 0x30) }

/-- The parts of a template.  Zero and minus do not go together: a zero after a minus has no effect,
and a minus takes back a zero.  A width beyond the limit makes the rest of the template unreadable. -/
def parts : Stage → List Char → List Part
  | .outside, [] => []
  | .outside, c :: rest =>
    if c = '%' then parts (.flags {}) rest else .literal c :: parts .outside rest
  | .flags _, [] => [.unfinished]
  | .flags layout, c :: rest =>
    if c = '-' then parts (.flags { layout with left := true, zero := false }) rest
    else if c = '0' then parts (.flags { layout with zero := !layout.left }) rest
    else if c = ' ' then parts (.flags { layout with space := true }) rest
    else if c.isDigit then parts (.width (layout.digit c)) rest
    else .directive layout c :: parts .outside rest
  | .width _, [] => [.unfinished]
  | .width layout, c :: rest =>
    if !c.isDigit then .directive layout c :: parts .outside rest
    else if widthLimit < layout.width then [.unfinished]
    else parts (.width (layout.digit c)) rest

/-! ## 3. Values -/

/-- A text with its filling. -/
def fill (layout : Layout) (text : List Char) : List Char :=
  let filling := List.replicate (layout.width - text.length) (if layout.zero then '0' else ' ')
  if layout.left then text ++ filling else filling ++ text

/-- What stands in front of the digits of a number. -/
def sign (layout : Layout) (negative : Bool) : List Char :=
  if negative then ['-'] else if layout.space then [' '] else []

/-- A number with its filling; zeros go between the sign and the digits. -/
def fillNumber (layout : Layout) (negative : Bool) (digits : List Char) : List Char :=
  let sign := sign layout negative
  let zeros := if layout.zero then layout.width - sign.length - digits.length else 0
  fill { layout with zero := false } (sign ++ (List.replicate zeros '0' ++ digits))

/-- An integer to a base. -/
def writeInt (layout : Layout) (base : Nat) (i : Int64) : List Char :=
  fillNumber layout (i < 0) (Nat.toDigits base i.toInt.natAbs)

/-- The bytes of a text in hexadecimal. -/
def writeBytes (layout : Layout) (s : String) : List Char :=
  let bytes := (utf8 s).map hexByte
  fill layout (if layout.space then Pieces.join ' ' bytes else bytes.flatten)

/-- The character of a code point; what is no code point gives the replacement character. -/
def character (i : Int64) : Char :=
  if i < 0 ∨ ¬ i.toInt.toNat.isValidChar then Char.ofNat 0xfffd else Char.ofNat i.toInt.toNat

/-- The plain form of a value. -/
def Value.plain (layout : Layout) : Value → List Char
  | text s => fill layout s.toList
  | int i => writeInt layout 10 i
  | bool b => fill layout (if b then "true" else "false").toList

/-- The form of a value that a verb asks for, if they go together. -/
def Value.write? (layout : Layout) (verb : Char) (value : Value) : Option (List Char) :=
  match verb, value with
  | 'v', value => some (value.plain layout)
  | 's', .text s => some (fill layout s.toList)
  | 'x', .text s => some (writeBytes layout s)
  | 'q', .text s => some (fill layout (Quoted.quote s).toList)
  | 'd', .int i => some (writeInt layout 10 i)
  | 'x', .int i => some (writeInt layout 16 i)
  | 'q', .int i => some (fill layout (Quoted.quoteChar (character i)).toList)
  | 't', value@(.bool _) => some (value.plain layout)
  | _, _ => none

/-- The name of a value's type. -/
def Value.typeName : Value → String
  | text _ => "string"
  | int _ => "int"
  | bool _ => "bool"

/-- A value with its type. -/
def Value.typed (layout : Layout) (value : Value) : List Char :=
  value.typeName.toList ++ '=' :: value.plain layout

/-- The form of a value that a verb asks for, or a mark that they do not go together. -/
def Value.write (layout : Layout) (verb : Char) (value : Value) : List Char :=
  match value.write? layout verb with
  | some form => form
  | none => '%' :: '!' :: verb :: '(' :: value.typed layout ++ [')']

/-! ## 4. Filling in -/

/-- The mark for values that no directive has asked for. -/
def extra (values : List Value) : List Char :=
  if values.isEmpty then []
  else "%!(EXTRA ".toList ++ (", ".toList).intercalate (values.map (Value.typed {})) ++ [')']

/-- The parts of a template with the values filled in. -/
def fillIn : List Part → List Value → List Char
  | [], values => extra values
  | .literal c :: rest, values => c :: fillIn rest values
  | .unfinished :: rest, values => "%!(NOVERB)".toList ++ fillIn rest values
  | .directive layout verb :: rest, values =>
    if verb = '%' then '%' :: fillIn rest values
    else
      match values with
      | [] => '%' :: '!' :: verb :: "(MISSING)".toList ++ fillIn rest []
      | value :: values => value.write layout verb ++ fillIn rest values

/-- The message of a template and its values. -/
def render (template : String) (values : List Value) : String :=
  String.ofList (fillIn (parts .outside template.toList) values)

end Template

end SolidityTree
