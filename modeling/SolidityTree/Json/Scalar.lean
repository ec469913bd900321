import SolidityTree.Json
import SolidityTree.Text.Utf8

/-!
# Strings and words of JSON

What stands between two quotes is turned into text in two steps: every escape is replaced by UTF-8
bytes, and the result is read leniently, each unreadable byte becoming U+FFFD.  Two escapes
that form a surrogate pair are one character; a surrogate alone is U+FFFD.

A word is a run of letters, digits, signs and points.  It is `null`, `true`, `false` or a number,
and otherwise no value at all.
-/

namespace SolidityTree.Json

/-! ## 1. Escapes -/

/-- The byte that a one-letter escape stands for. -/
def simpleEscape? (e : UInt8) : Option UInt8 :=
  if e = Ascii.quote ∨ e = Ascii.backslash ∨ e = 0x2f then some e
  else if e = 0x62 then some 0x08
  else if e = 0x66 then some 0x0c
  else if e = 0x6e then some 0x0a
  else if e = 0x72 then some 0x0d
  else if e = 0x74 then some 0x09
  else none

/-- The number that four hexadecimal digits write. -/
def codeUnit? (a b c d : UInt8) : Option Nat := do
  return (((← hexValue? a) * 16 + (← hexValue? b)) * 16 + (← hexValue? c)) * 16 + (← hexValue? d)

/-- The first or second half of a surrogate pair. -/
def isSurrogate (u : Nat) : Bool := 0xd800 ≤ u && u < 0xe000

/-- The character of a surrogate pair, if the two halves come in the right order. -/
def ofPair? (high low : Nat) : Option Char :=
  if 0xd800 ≤ high ∧ high < 0xdc00 ∧ 0xdc00 ≤ low ∧ low < 0xe000 then
    some (Char.ofNat (0x10000 + (high - 0xd800) * 0x400 + (low - 0xdc00)))
  else none

/-- One byte of a string, or the number that a `\u` escape writes. -/
inductive Piece where
  | byte (b : UInt8)
  | unit (u : Nat)

/-- The bytes between the quotes of a string with every escape read; `none` for an escape that
JSON does not have. -/
def pieces? : Bytes → Option (List Piece)
  | [] => some []
  | b :: rest =>
    if b ≠ Ascii.backslash then (pieces? rest).map (.byte b :: ·)
    else
      match rest with
      | [] => none
      | e :: rest =>
        match simpleEscape? e with
        | some c => (pieces? rest).map (.byte c :: ·)
        | none =>
          if e ≠ 0x75 then none
          else
            match rest with
            | h₁ :: h₂ :: h₃ :: h₄ :: rest =>
              match codeUnit? h₁ h₂ h₃ h₄ with
              | some u => (pieces? rest).map (.unit u :: ·)
              | none => none
            | _ => none

/-- The UTF-8 form of a number that is no surrogate, and of U+FFFD for one that is. -/
def encodeUnit (u : Nat) : Bytes :=
  String.utf8EncodeChar (if isSurrogate u then Utf8.replacement else Char.ofNat u)

/-- The bytes that the pieces of a string denote. -/
def join : List Piece → Bytes
  | [] => []
  | .byte b :: rest => b :: join rest
  | .unit u :: .unit l :: rest =>
    match ofPair? u l with
    | some c => String.utf8EncodeChar c ++ join rest
    | none => encodeUnit u ++ join (.unit l :: rest)
  | .unit u :: rest => encodeUnit u ++ join rest

/-- The string whose written form has `body` between its quotes. -/
def ofBody? (body : Bytes) : Option String :=
  (pieces? body).map fun pieces => Utf8.decodeLossy (join pieces)

/-! ## 2. Words -/

/-- A byte that a number or a literal name may hold. -/
def isWordByte (b : UInt8) : Bool :=
  Ascii.isDigit b || Ascii.isLetter b || b = Ascii.minus || b = Ascii.plus || b = Ascii.point

/-- One or more digits up to the end. -/
def isDigits (bs : Bytes) : Bool := !bs.isEmpty && bs.all Ascii.isDigit

/-- The end of a number from its exponent on. -/
def isExponent : Bytes → Bool
  | [] => true
  | e :: rest =>
    (e = 0x65 || e = 0x45) &&
      match rest with
      | sign :: digits =>
        if sign = Ascii.plus || sign = Ascii.minus then isDigits digits else isDigits rest
      | [] => false

/-- The end of a number from its point on. -/
def isFraction : Bytes → Bool
  | [] => true
  | p :: rest =>
    if p = Ascii.point then
      match rest with
      | d :: rest => Ascii.isDigit d && isExponent (rest.dropWhile Ascii.isDigit)
      | [] => false
    else isExponent (p :: rest)

/-- A number without its sign: no digit may follow a leading zero. -/
def isMagnitude : Bytes → Bool
  | [] => false
  | d :: rest =>
    if d = 0x30 then isFraction rest
    else Ascii.isDigit d && isFraction (rest.dropWhile Ascii.isDigit)

/-- Whether a word is a number. -/
def isNumber : Bytes → Bool
  | [] => false
  | b :: rest => if b = Ascii.minus then isMagnitude rest else isMagnitude (b :: rest)

/-- The value that a word writes. -/
def ofWord? (word : Bytes) : Option Json :=
  if word = utf8 "null" then some .null
  else if word = utf8 "true" then some (.bool true)
  else if word = utf8 "false" then some (.bool false)
  else if isNumber word then some (.num word)
  else none

end SolidityTree.Json
