import SolidityTree.Keccak

/-!
# Function selectors

A selector is four bytes: the first four of the hash of a function's signature.  In a document it is
written as eight hexadecimal digits of either case.
-/

namespace SolidityTree

/-- The four bytes by which a function is called. -/
structure Selector where
  bytes : Bytes
  four : bytes.length = 4
  deriving DecidableEq

namespace Selector

/-! ## 1. Reading and writing -/

/-- Why a text is no selector. -/
inductive Trouble where
  /-- Some character is no hexadecimal digit. -/
  | notHex
  /-- The digits do not pair up. -/
  | oddLength
  /-- The digits write `count` bytes instead of four. -/
  | wrongSize (count : Nat)
  deriving DecidableEq, Repr

/-- The bytes that pairs of digits write, checked from left to right; a digit left over is checked
last. -/
def readHex : Bytes → Except Trouble Bytes
  | [] => .ok []
  | [b] => .error (if (hexValue? b).isSome then .oddLength else .notHex)
  | a :: b :: rest =>
    match hexValue? a, hexValue? b with
    | some high, some low => (readHex rest).map ((high * 16 + low).toUInt8 :: ·)
    | _, _ => .error .notHex

/-- The selector that a text writes. -/
def ofText (s : String) : Except Trouble Selector :=
  match readHex (utf8 s) with
  | .error trouble => .error trouble
  | .ok bytes => if h : bytes.length = 4 then .ok ⟨bytes, h⟩ else .error (.wrongSize bytes.length)

/-- The written form: `0x` and eight lower-case digits. -/
def text (s : Selector) : String := String.ofList ('0' :: 'x' :: s.bytes.flatMap hexByte)

/-! ## 2. Signatures -/

/-- The number of bytes of a hash. -/
theorem length_hash (message : Bytes) : (Keccak.hash message).length = 32 := by
  simp [Keccak.hash, Keccak.bytesOf, List.range_succ]

/-- The selector of a function signature such as `transfer(address,uint256)`. -/
def ofSignature (signature : String) : Selector :=
  ⟨(Keccak.hash (utf8 signature)).take 4, by simp [length_hash]⟩

/-- Whether a selector belongs to a signature. -/
def isOf (s : Selector) (signature : String) : Bool := s = ofSignature signature

end Selector

end SolidityTree
