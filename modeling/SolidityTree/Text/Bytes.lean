/-!
# Raw text

Compiler output, documents and the messages that quote them are byte lists: a quotation may cut a
character in half, so none of them can be a `String`.  Text that is known to be Unicode is a
`String`, and `utf8` writes it as bytes.

Contents
* §1  `Bytes` and `utf8`
* §2  the ASCII bytes that the formats give a meaning
* §3  hexadecimal digits
-/

namespace SolidityTree

/-! ## 1. Byte lists -/

/-- Text as it stands in a file: bytes that need not be valid UTF-8. -/
abbrev Bytes := List UInt8

/-- The UTF-8 form of a text. -/
def utf8 (s : String) : Bytes := s.toList.flatMap String.utf8EncodeChar

@[simp] theorem utf8_empty : utf8 "" = [] := rfl

@[simp] theorem utf8_append (s t : String) : utf8 (s ++ t) = utf8 s ++ utf8 t := by
  simp [utf8, String.toList_append]

theorem utf8_ofList (cs : List Char) : utf8 (String.ofList cs) = cs.flatMap String.utf8EncodeChar := by
  simp [utf8]

theorem utf8_ofList_cons (c : Char) (cs : List Char) :
    utf8 (.ofList (c :: cs)) = String.utf8EncodeChar c ++ utf8 (.ofList cs) := by
  rw [utf8_ofList, utf8_ofList, List.flatMap_cons]

/-- A number that is a code point is the code point of its character. -/
theorem toNat_charOfNat {n : Nat} (h : n.isValidChar) : (Char.ofNat n).toNat = n := by
  rw [Char.ofNat, dif_pos h]
  rfl

/-- An ASCII character is one byte. -/
theorem utf8EncodeChar_of_ascii {c : Char} (h : c.toNat < 0x80) :
    String.utf8EncodeChar c = [UInt8.ofNat c.toNat] := by
  have h' : c.val.toNat ≤ 0x7f := by
    rw [Char.toNat] at h
    omega
  rw [String.utf8EncodeChar, if_pos h', Char.toNat]

/-! ## 2. Bytes with a meaning -/

namespace Ascii

/-- `{` -/
abbrev openBrace : UInt8 := 0x7b
/-- `}` -/
abbrev closeBrace : UInt8 := 0x7d
/-- `[` -/
abbrev openBracket : UInt8 := 0x5b
/-- `]` -/
abbrev closeBracket : UInt8 := 0x5d
/-- `,` -/
abbrev comma : UInt8 := 0x2c
/-- `:` -/
abbrev colon : UInt8 := 0x3a
/-- `"` -/
abbrev quote : UInt8 := 0x22
/-- The backslash. -/
abbrev backslash : UInt8 := 0x5c
/-- `-` -/
abbrev minus : UInt8 := 0x2d
/-- `+` -/
abbrev plus : UInt8 := 0x2b
/-- `.` -/
abbrev point : UInt8 := 0x2e
/-- Horizontal tab. -/
abbrev tab : UInt8 := 0x09
/-- Line feed. -/
abbrev lf : UInt8 := 0x0a
/-- Carriage return. -/
abbrev cr : UInt8 := 0x0d
/-- The space. -/
abbrev space : UInt8 := 0x20

/-- A decimal digit. -/
def isDigit (b : UInt8) : Bool := 0x30 ≤ b && b ≤ 0x39

/-- A letter of either case. -/
def isLetter (b : UInt8) : Bool := (0x41 ≤ b && b ≤ 0x5a) || (0x61 ≤ b && b ≤ 0x7a)

end Ascii

/-! ## 3. Hexadecimal -/

/-- The value of a hexadecimal digit of either case. -/
def hexValue? (b : UInt8) : Option Nat :=
  if Ascii.isDigit b then some (b.toNat - 0x30)
  else if 0x61 ≤ b && b ≤ 0x66 then some (b.toNat - 0x61 + 10)
  else if 0x41 ≤ b && b ≤ 0x46 then some (b.toNat - 0x41 + 10)
  else none

/-- The lower-case digit of a number below sixteen. -/
def hexDigit (n : Nat) : Char := "0123456789abcdef".toList.getD n '0'

/-- A byte as two lower-case digits. -/
def hexByte (b : UInt8) : List Char := [hexDigit (b.toNat / 16), hexDigit (b.toNat % 16)]

end SolidityTree
