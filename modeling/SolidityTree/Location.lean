import SolidityTree.Text.Decimal
import SolidityTree.Text.Pieces
import SolidityTree.Text.Quoted

/-!
# Source locations

A location says which piece of a source file a node was built from: `offset:length:file`, counted in
bytes.  The file index may be left out and is then -1.  `read` takes exactly these texts and names
the first part that is no 64-bit integer; `slice` cuts the piece out of a source text and is empty
whenever the piece does not lie inside it.
-/

namespace SolidityTree

/-- A piece of a source file, in bytes. -/
structure Location where
  offset : Int64
  length : Int64
  fileIndex : Int64
  deriving DecidableEq

namespace Location

/-! ## 1. Reading -/

/-- The three numbers of a location. -/
inductive Part where
  | offset
  | length
  | fileIndex
  deriving DecidableEq, Repr

/-- Why a text is no location. -/
inductive Trouble where
  /-- There are not two or three parts. -/
  | partCount (source : String)
  /-- A part, the first such one, is no 64-bit integer. -/
  | unreadable (source : String) (part : Part) (text : String) (trouble : Decimal.Trouble)
  deriving DecidableEq, Repr

/-- One part of the location written by `source`. -/
def readPart (source : String) (part : Part) (piece : List Char) : Except Trouble Int64 :=
  let text := String.ofList piece
  match Decimal.read (utf8 text) with
  | .ok i => .ok i
  | .error trouble => .error (.unreadable source part text trouble)

/-- The location that a text writes. -/
def read (source : String) : Except Trouble Location :=
  match Pieces.split ':' source.toList with
  | [offset, length] => do
    let offset ← readPart source .offset offset
    let length ← readPart source .length length
    return ⟨offset, length, -1⟩
  | [offset, length, fileIndex] => do
    let offset ← readPart source .offset offset
    let length ← readPart source .length length
    let fileIndex ← readPart source .fileIndex fileIndex
    return ⟨offset, length, fileIndex⟩
  | _ => .error (.partCount source)

/-! ## 2. Messages -/

/-- The name of a part. -/
def Part.name : Part → String
  | .offset => "offset"
  | .length => "length"
  | .fileIndex => "file index"

/-- What is wrong with an integer. -/
def reason : Decimal.Trouble → String
  | .malformed => "invalid syntax"
  | .outOfRange => "value out of range"

/-- What is wrong with a text. -/
def Trouble.message : Trouble → String
  | .partCount source => "invalid src " ++ Quoted.quote source ++ ": want offset:length[:file]"
  | .unreadable source part text trouble =>
    "invalid src " ++ part.name ++ " " ++ Quoted.quote source ++ ": strconv.Atoi: parsing "
      ++ Quoted.quote text ++ ": " ++ reason trouble

/-! ## 3. Writing and cutting -/

/-- The written form, always with the file index. -/
def text (l : Location) : String :=
  Decimal.write l.offset ++ ":" ++ Decimal.write l.length ++ ":" ++ Decimal.write l.fileIndex

/-- Where the piece at a location begins and ends in a text of some size; `none` if it does not lie
inside.  The length is compared with what is left after the offset, since the end is a sum of 64
bits, and might wrap around. -/
def bounds? (l : Location) (size : Int64) : Option (Int64 × Int64) :=
  if l.offset < 0 ∨ l.length < 0 ∨ size ≤ l.offset ∨ size - l.offset < l.length then none
  else some (l.offset, l.offset + l.length)

/-- The piece of a source text at a location. -/
def slice (l : Location) (source : Bytes) : Bytes :=
  match l.bounds? (Int64.ofNat source.length) with
  | none => []
  | some (first, last) => (source.take last.toNatClampNeg).drop first.toNatClampNeg

end Location

end SolidityTree
