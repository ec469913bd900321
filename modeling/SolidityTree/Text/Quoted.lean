import SolidityTree.Text.Bytes
import SolidityTree.Text.Printable

/-!
# Quoted text

Messages quote a text between double quotes and a lone character between single ones.  A printable
character stands as itself; the quotation mark in use and the backslash get a backslash in front;
the seven control characters with a letter of their own are written with it; any other character is
written by its code point, with two digits below the ASCII limit, four in the first plane and eight
beyond it.

No quoted text holds a line break, so a quoted text can never end the line it stands on.
-/

namespace SolidityTree.Quoted

/-- The `width` lowest hexadecimal digits of a number. -/
def hexDigits : (width : Nat) → Nat → List Char
  | 0, _ => []
  | width + 1, n => hexDigits width (n / 16) ++ [hexDigit (n % 16)]

/-- The letter that stands for a control character after a backslash. -/
def controlLetter? (c : Char) : Option Char :=
  match c.toNat with
  | 0x07 => some 'a'
  | 0x08 => some 'b'
  | 0x0c => some 'f'
  | 0x0a => some 'n'
  | 0x0d => some 'r'
  | 0x09 => some 't'
  | 0x0b => some 'v'
  | _ => none

/-- The written form of one character between quotation marks of a kind. -/
def encodeChar (mark c : Char) : List Char :=
  if c = mark ∨ c = '\\' then ['\\', c]
  else if isPrintable c then [c]
  else
    match controlLetter? c with
    | some letter => ['\\', letter]
    | none =>
      if c.toNat < 0x80 then '\\' :: 'x' :: hexDigits 2 c.toNat
      else if c.toNat < 0x10000 then '\\' :: 'u' :: hexDigits 4 c.toNat
      else '\\' :: 'U' :: hexDigits 8 c.toNat

/-- A text between quotes, on one line and in printable characters only. -/
def quote (s : String) : String :=
  String.ofList ('"' :: s.toList.flatMap (encodeChar '"') ++ ['"'])

/-- A character between single quotes. -/
def quoteChar (c : Char) : String := String.ofList ('\x27' :: encodeChar '\x27' c ++ ['\x27'])

end SolidityTree.Quoted
