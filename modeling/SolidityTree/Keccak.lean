import SolidityTree.Text.Bytes

/-!
# Keccak-256

The hash that names functions: the sponge over the permutation of 25 words of 64 bits, with a rate of
136 bytes, the padding `01 … 80` of the first Keccak submission, and 32 bytes of output.

Lane `x + 5 * y` of a state is the word in column `x` of plane `y`.  Each step of a round builds a new
state from the lanes of the last.
-/

namespace SolidityTree.Keccak

/-! ## 1. The permutation -/

/-- The 25 lanes of the sponge. -/
abbrev State := Array UInt64

/-- A lane of a state. -/
def lane (a : State) (i : Nat) : UInt64 := a.getD i 0

/-- Rotation to the left by fewer than 64 places. -/
def rotate (w : UInt64) (n : Nat) : UInt64 :=
  if n = 0 then w else (w <<< n.toUInt64) ||| (w >>> (64 - n).toUInt64)

/-- How far lane `i` is rotated. -/
def offsets : Array Nat :=
  #[0, 1, 62, 28, 27, 36, 44, 6, 55, 20, 3, 10, 43, 25, 39, 41, 45, 15, 21, 8, 18, 2, 61, 56, 14]

/-- The constant that each round adds to lane 0. -/
def constants : List UInt64 := [
  0x0000000000000001, 0x0000000000008082, 0x800000000000808a, 0x8000000080008000,
  0x000000000000808b, 0x0000000080000001, 0x8000000080008081, 0x8000000000008009,
  0x000000000000008a, 0x0000000000000088, 0x0000000080008009, 0x000000008000000a,
  0x000000008000808b, 0x800000000000008b, 0x8000000000008089, 0x8000000000008003,
  0x8000000000008002, 0x8000000000000080, 0x000000000000800a, 0x800000008000000a,
  0x8000000080008081, 0x8000000000008080, 0x0000000080000001, 0x8000000080008008]

/-- A state given lane by lane. -/
def tabulate (f : Nat → UInt64) : State := (Array.range 25).map f

/-- Adds to each lane the parities of two neighbouring columns. -/
def theta (a : State) : State :=
  let column := (Array.range 5).map fun x =>
    lane a x ^^^ lane a (x + 5) ^^^ lane a (x + 10) ^^^ lane a (x + 15) ^^^ lane a (x + 20)
  tabulate fun i =>
    lane a i ^^^ lane column ((i + 4) % 5) ^^^ rotate (lane column ((i + 1) % 5)) 1

/-- Rotates each lane and moves it: column `x` of plane `y` comes from column `x + 3 * y` of
plane `x`. -/
def rhoPi (a : State) : State :=
  tabulate fun i =>
    let x := i % 5
    let y := i / 5
    let j := (x + 3 * y) % 5 + 5 * x
    rotate (lane a j) (offsets.getD j 0)

/-- Combines each lane with the next two of its plane. -/
def chi (a : State) : State :=
  tabulate fun i =>
    let x := i % 5
    let plane := i - x
    lane a i ^^^ ((lane a (plane + (x + 1) % 5) ^^^ 0xffffffffffffffff)
      &&& lane a (plane + (x + 2) % 5))

/-- One round. -/
def round (a : State) (constant : UInt64) : State :=
  let b := chi (rhoPi (theta a))
  b.modify 0 (· ^^^ constant)

/-- The permutation of 24 rounds. -/
def permute (a : State) : State := constants.foldl round a

/-! ## 2. The sponge -/

/-- The number of bytes that one block takes. -/
def rate : Nat := 136

/-- A word from at most eight bytes, the least significant first. -/
def wordOf (bs : Bytes) : UInt64 := bs.foldr (fun b w => (w <<< 8) ||| b.toUInt64) 0

/-- Adds a block of `rate` bytes to the state and permutes it. -/
def absorb (a : State) (block : Bytes) : State :=
  permute (tabulate fun i => lane a i ^^^ wordOf ((block.drop (8 * i)).take 8))

/-- Fills a message up to a whole number of blocks. -/
def pad (message : Bytes) : Bytes :=
  let missing := rate - message.length % rate
  if missing = 1 then message ++ [0x81]
  else message ++ 0x01 :: (List.replicate (missing - 2) 0 ++ [0x80])

/-- The first `n` blocks of a padded message, one after the other. -/
def blocks : (n : Nat) → Bytes → List Bytes
  | 0, _ => []
  | n + 1, bs => bs.take rate :: blocks n (bs.drop rate)

/-- The eight bytes of a word, the least significant first. -/
def bytesOf (w : UInt64) : Bytes :=
  (List.range 8).map fun i => (w >>> (8 * i).toUInt64).toUInt8

/-- The hash of a message. -/
def hash (message : Bytes) : Bytes :=
  let padded := pad message
  let final := (blocks (padded.length / rate) padded).foldl absorb (tabulate fun _ => 0)
  (List.range 4).flatMap fun i => bytesOf (lane final i)

end SolidityTree.Keccak
