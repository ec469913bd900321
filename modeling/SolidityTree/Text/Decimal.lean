import SolidityTree.Text.Bytes

/-!
# Decimal integers of 64 bits

Identifiers, offsets, limits and intervals are signed 64-bit integers in decimal.  `read` takes an
optional sign and one or more ASCII digits and goes from left to right: the FIRST trouble decides,
so a byte that is no digit makes the text malformed unless the digits before it already exceed
64 bits.  `write` gives the sign of a negative number and the fewest digits.
-/

namespace SolidityTree.Decimal

/-! ## 1. Reading -/

/-- Why a text is no 64-bit integer. -/
inductive Trouble where
  /-- A sign without digits, no text at all, or a byte that is no digit. -/
  | malformed
  /-- Digits for a number that does not fit. -/
  | outOfRange
  deriving DecidableEq, Repr

/-- The number written by a run of digits, after the value `n` of the digits already read. -/
def readDigits : (n : Nat) → Bytes → Except Trouble Nat
  | n, [] => .ok n
  | n, b :: rest =>
    if !Ascii.isDigit b then .error .malformed
    else
      let m := n * 10 + (b.toNat - 0x30)
      if m < 0x10000000000000000 then readDigits m rest else .error .outOfRange

/-- The number of a non-empty run of digits. -/
def readMagnitude : Bytes → Except Trouble Nat
  | [] => .error .malformed
  | digits => readDigits 0 digits

/-- Narrows a number to 64 bits with sign. -/
def narrow (i : Int) : Except Trouble Int64 :=
  if -0x8000000000000000 ≤ i ∧ i < 0x8000000000000000 then .ok (Int64.ofInt i) else .error .outOfRange

/-- A signed integer: an optional `+` or `-`, then digits. -/
def read (bs : Bytes) : Except Trouble Int64 :=
  match bs with
  | [] => .error .malformed
  | b :: rest =>
    if b = Ascii.minus then do narrow (-(← readMagnitude rest))
    else if b = Ascii.plus then do narrow (← readMagnitude rest)
    else do narrow (← readMagnitude bs)

/-! ## 2. Writing -/

/-- The decimal form of an integer. -/
def digitsOf : Int → List Char
  | .ofNat n => Nat.toDigits 10 n
  | .negSucc n => '-' :: Nat.toDigits 10 (n + 1)

/-- The decimal form of a 64-bit integer. -/
def write (i : Int64) : String := String.ofList (digitsOf i.toInt)

/-- The decimal form of a natural number. -/
def writeNat (n : Nat) : String := String.ofList (Nat.toDigits 10 n)

end SolidityTree.Decimal
