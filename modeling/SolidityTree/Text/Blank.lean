import SolidityTree.Text.Bytes

/-!
# White space in raw text

The white space that is trimmed from lines, paths and sections is Unicode's: tab, line feed,
vertical tab, form feed, carriage return, space, U+0085, U+00A0, U+1680, U+2000 to U+200A, U+2028,
U+2029, U+202F, U+205F and U+3000.  In raw text these are byte sequences of length one, two or
three; a stray byte of such a sequence is no white space.

`trim` removes them at both ends.  The same removal runs forward on the text and, with the sequences
read backwards, on the reversed text.
-/

namespace SolidityTree.Blank

/-! ## 1. The sequences -/

/-- White space of one byte. -/
def isOne (b : UInt8) : Bool := (0x09 ≤ b && b ≤ 0x0d) || b = 0x20

/-- White space of two bytes: U+0085 and U+00A0. -/
def isTwo (b c : UInt8) : Bool := b = 0xc2 && (c = 0x85 || c = 0xa0)

/-- White space of three bytes. -/
def isThree (b c d : UInt8) : Bool :=
  (b = 0xe1 && c = 0x9a && d = 0x80) ||
  (b = 0xe2 && c = 0x80 && ((0x80 ≤ d && d ≤ 0x8a) || d = 0xa8 || d = 0xa9 || d = 0xaf)) ||
  (b = 0xe2 && c = 0x81 && d = 0x9f) ||
  (b = 0xe3 && c = 0x80 && d = 0x80)

/-! ## 2. Trimming -/

/-- Drops from the head every sequence that one of the three tests accepts. -/
def dropWith (two : UInt8 → UInt8 → Bool) (three : UInt8 → UInt8 → UInt8 → Bool) : Bytes → Bytes
  | [] => []
  | b :: rest =>
    if isOne b then dropWith two three rest
    else
      match rest with
      | [] => [b]
      | c :: rest' =>
        if two b c then dropWith two three rest'
        else
          match rest' with
          | [] => [b, c]
          | d :: rest'' =>
            if three b c d then dropWith two three rest'' else b :: c :: d :: rest''

/-- Without the white space at the head. -/
def trimStart (bs : Bytes) : Bytes := dropWith isTwo isThree bs

/-- Without the white space at the end. -/
def trimEnd (bs : Bytes) : Bytes :=
  (dropWith (fun c b => isTwo b c) (fun d c b => isThree b c d) bs.reverse).reverse

/-- Without the white space at both ends. -/
def trim (bs : Bytes) : Bytes := trimEnd (trimStart bs)

end SolidityTree.Blank
