import SolidityTree.Text.Decimal
import SolidityTree.Yaml

/-!
# What a plain text stands for

A plain text may write null, a truth value, an integer (decimal, or with the marks `0x`, `0o`, `0b` or
a leading zero, with underscores between digits) or a decimal fraction; otherwise it is just text.

Where an integer is wanted a fraction is cut off towards zero, after it has been rounded to the
nearest binary fraction with 53 significant bits, a tie going to the even neighbour.  `truncate` does
this in exact arithmetic.
-/

namespace SolidityTree.Yaml

/-! ## 1. Integers -/

/-- The value of a digit in bases up to 16. -/
def digit? (base : Nat) (c : Char) : Option Nat :=
  if c.toNat < 0x80 then
    match hexValue? c.toNat.toUInt8 with
    | some d => if d < base then some d else none
    | none => none
  else none

/-- The number that digits write after the value `n` of those already read. -/
def digits? (base : Nat) : (n : Nat) → List Char → Option Nat
  | n, [] => some n
  | n, c :: rest =>
    match digit? base c with
    | some d => digits? base (n * base + d) rest
    | none => none

/-- The number that one or more digits write. -/
def magnitudeIn? (base : Nat) : List Char → Option Nat
  | [] => none
  | cs => digits? base 0 cs

/-- The number that a text without sign writes, the base being shown by how it begins. -/
def magnitude? : List Char → Option Nat
  | '0' :: c :: rest =>
    if c = 'x' ∨ c = 'X' then magnitudeIn? 16 rest
    else if c = 'o' ∨ c = 'O' then magnitudeIn? 8 rest
    else if c = 'b' ∨ c = 'B' then magnitudeIn? 2 rest
    else digits? 8 0 (c :: rest)
  | cs => magnitudeIn? 10 cs

/-- The number with a sign whose digits are read by `magnitude?`: it must fit 64 bits. -/
def signed? (magnitude? : List Char → Option Nat) : List Char → Option Int
  | '-' :: rest => do
    let n ← magnitude? rest
    if n ≤ 0x8000000000000000 then some (-n) else none
  | '+' :: rest => do
    let n ← magnitude? rest
    if n < 0x8000000000000000 then some n else none
  | _ => none

/-- A number of at most 64 bits: with a sign it must fit 64 bits with sign, and without one it may
use all of them.  The sign may also stand behind the mark of a binary or octal number. -/
def integer? (cs : List Char) : Option Int :=
  match cs with
  | '-' :: _ | '+' :: _ => signed? magnitude? cs
  | '0' :: 'b' :: '-' :: _ | '0' :: 'b' :: '+' :: _ => signed? (magnitudeIn? 2) (cs.drop 2)
  | '0' :: 'o' :: '-' :: _ | '0' :: 'o' :: '+' :: _ => signed? (magnitudeIn? 8) (cs.drop 2)
  | _ => do
    let n ← magnitude? cs
    if n < 0x10000000000000000 then some n else none

/-! ## 2. Fractions -/

/-- The integer nearest to a quotient; a tie goes to the even one. -/
def roundDiv (p q : Nat) : Nat :=
  let n := p / q
  let r := p % q
  if 2 * r < q then n
  else if q < 2 * r then n + 1
  else if n % 2 = 0 then n else n + 1

/-- The integer part of `p / q` rounded to 53 significant bits. -/
def truncate (p q : Nat) : Nat :=
  let whole := p / q
  if whole = 0 then roundDiv (p * 0x20000000000000) q / 0x20000000000000
  else
    let bits := whole.log2
    if bits < 53 then roundDiv (p * Nat.pow 2 (52 - bits)) q / Nat.pow 2 (52 - bits)
    else roundDiv p (q * Nat.pow 2 (bits - 52)) * Nat.pow 2 (bits - 52)

/-- A decimal fraction: its digits without the point, and the power of ten they are to be multiplied
with. -/
structure Scientific where
  digits : List Char
  exponent : Int

/-- The exponent at the end of a fraction; nothing is 0. -/
def exponent? : List Char → Option Int
  | [] => some 0
  | e :: rest =>
    if e = 'e' ∨ e = 'E' then
      match rest with
      | '-' :: ds => (magnitudeIn? 10 ds).map fun n => -n
      | '+' :: ds => (magnitudeIn? 10 ds).map fun n => n
      | ds => (magnitudeIn? 10 ds).map fun n => n
    else none

/-- The fraction that a text without sign writes: digits, a point and digits, of which one side may be
empty, and an exponent. -/
def scientific? (cs : List Char) : Option Scientific :=
  let whole := cs.takeWhile Char.isDigit
  let rest := cs.dropWhile Char.isDigit
  match rest with
  | '.' :: after => do
    let part := after.takeWhile Char.isDigit
    let e ← exponent? (after.dropWhile Char.isDigit)
    if whole.isEmpty && part.isEmpty then none
    else some ⟨whole ++ part, e - part.length⟩
  | _ => do
    let e ← exponent? rest
    if whole.isEmpty then none else some ⟨whole, e⟩

/-- The integer part of a fraction; `none` if it is beyond all numbers of 53 bits and an exponent of
eleven. -/
def Scientific.integerPart? (x : Scientific) : Option Nat := do
  let n ← digits? 10 0 x.digits
  let size : Int := x.digits.length + x.exponent
  if n = 0 ∨ size < -30 then some 0
  else if 400 < size ∧ 400 < (Nat.toDigits 10 n).length + x.exponent then none
  else
    let part :=
      if 0 ≤ x.exponent then truncate (n * Nat.pow 10 x.exponent.toNat) 1
      else truncate n (Nat.pow 10 (-x.exponent).toNat)
    if part < Nat.pow 2 1024 then some part else none

/-! ## 3. Scalars -/

/-- What a text stands for. -/
inductive Resolved where
  | null
  | bool (b : Bool)
  | int (i : Int)
  /-- A fraction by its integer part. -/
  | fraction (integerPart : Int)
  | infinity
  | negativeInfinity
  | notANumber
  | text (s : String)
  deriving DecidableEq

/-- The fraction that a text with or without sign writes. -/
def fraction? (cs : List Char) : Option Int :=
  match cs with
  | '-' :: rest => do return -(← (← scientific? rest).integerPart?)
  | '+' :: rest => do return (← (← scientific? rest).integerPart?)
  | _ => do return (← (← scientific? cs).integerPart?)

/-- The number that a text beginning with a digit, a sign or a point writes. -/
def number? (s : String) : Option Resolved :=
  match s.toList with
  | [] => none
  | c :: rest =>
    if c = '.' then (fraction? (c :: rest)).map .fraction
    else if c.isDigit || c = '+' || c = '-' then
      let plain := (c :: rest).filter (· ≠ '_')
      match integer? plain with
      | some i => some (.int i)
      | none => (fraction? plain).map .fraction
    else none

/-- What a plain text stands for. -/
def resolve (s : String) : Resolved :=
  if ["", "~", "null", "Null", "NULL"].contains s then .null
  else if ["true", "True", "TRUE"].contains s then .bool true
  else if ["false", "False", "FALSE"].contains s then .bool false
  else if [".inf", ".Inf", ".INF", "+.inf", "+.Inf", "+.INF"].contains s then .infinity
  else if ["-.inf", "-.Inf", "-.INF"].contains s then .negativeInfinity
  else if [".nan", ".NaN", ".NAN"].contains s then .notANumber
  else (number? s).getD (.text s)

end SolidityTree.Yaml
