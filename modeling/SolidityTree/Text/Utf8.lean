import SolidityTree.Text.Bytes

/-!
# Reading UTF-8 that may be broken

`decodeHead?` reads one well-formed character: the shortest form only, no surrogates, nothing above
U+10FFFF.  `decodeLossy` reads a whole byte list and puts U+FFFD in place of EACH byte that does not
start a well-formed character, so a character cut after two bytes becomes two replacements.
`decode?` refuses such a byte list.
-/

namespace SolidityTree.Utf8

/-- The character that stands for an unreadable byte. -/
def replacement : Char := '\ufffd'

/-- A byte that continues a character. -/
def isContinuation (b : UInt8) : Bool := 0x80 ≤ b && b ≤ 0xbf

/-- The six low bits of a continuation byte. -/
def low (b : UInt8) : Nat := b.toNat % 0x40

/-- The second byte that a three- or four-byte lead admits: this is where overlong forms,
surrogates and values beyond the last plane are refused. -/
def admitsSecond (lead second : UInt8) : Bool :=
  if lead = 0xe0 then 0xa0 ≤ second && second ≤ 0xbf
  else if lead = 0xed then 0x80 ≤ second && second ≤ 0x9f
  else if lead = 0xf0 then 0x90 ≤ second && second ≤ 0xbf
  else if lead = 0xf4 then 0x80 ≤ second && second ≤ 0x8f
  else isContinuation second

/-- The character at the head of a byte list and the number of bytes AFTER the first that it takes. -/
def decodeHead? : Bytes → Option (Char × Nat)
  | [] => none
  | b :: rest =>
    if b < 0x80 then some (Char.ofNat b.toNat, 0)
    else if 0xc2 ≤ b && b ≤ 0xdf then
      match rest with
      | c :: _ =>
        if isContinuation c then some (Char.ofNat ((b.toNat % 0x20) * 0x40 + low c), 1) else none
      | [] => none
    else if 0xe0 ≤ b && b ≤ 0xef then
      match rest with
      | c :: d :: _ =>
        if admitsSecond b c && isContinuation d then
          some (Char.ofNat ((b.toNat % 0x10) * 0x1000 + low c * 0x40 + low d), 2)
        else none
      | _ => none
    else if 0xf0 ≤ b && b ≤ 0xf4 then
      match rest with
      | c :: d :: e :: _ =>
        if admitsSecond b c && isContinuation d && isContinuation e then
          some (Char.ofNat ((b.toNat % 0x8) * 0x40000 + low c * 0x1000 + low d * 0x40 + low e), 3)
        else none
      | _ => none
    else none

/-- Reads on after `skip` bytes that belong to a character already read. -/
def decodeFrom : (skip : Nat) → Bytes → List Char
  | _, [] => []
  | skip + 1, _ :: rest => decodeFrom skip rest
  | 0, b :: rest =>
    match decodeHead? (b :: rest) with
    | some (c, n) => c :: decodeFrom n rest
    | none => replacement :: decodeFrom 0 rest

/-- The text of a byte list, every unreadable byte replaced. -/
def decodeLossy (bs : Bytes) : String := String.ofList (decodeFrom 0 bs)

/-- Reads on strictly after `skip` bytes that belong to a character already read. -/
def decodeStrictFrom : (skip : Nat) → Bytes → Option (List Char)
  | _, [] => some []
  | skip + 1, _ :: rest => decodeStrictFrom skip rest
  | 0, b :: rest =>
    match decodeHead? (b :: rest) with
    | some (c, n) => (decodeStrictFrom n rest).map (c :: ·)
    | none => none

/-- The characters of a byte list; `none` if some byte is unreadable. -/
def decode? (bs : Bytes) : Option (List Char) := decodeStrictFrom 0 bs

end SolidityTree.Utf8
