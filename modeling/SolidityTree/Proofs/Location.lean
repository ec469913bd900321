import Mathlib.Data.List.Basic
import SolidityTree.Location
import SolidityTree.Proofs.Numeral
import SolidityTree.Proofs.Pieces

/-!
# Locations: which texts they have, and which pieces they cut out

A location is read part by part, and the first trouble decides.  Which texts are read, and what is
said of the others, is stated here by the PARTS of a text: by what stands between its colons.

* `Written text l`: two or three numerals with colons between them, with any signs and leading
  zeros.  Exactly these texts are read (`read_eq_ok_iff`), and the form in which a location is
  written is one of them (`written_text`).
* `FirstUnreadable pieces part piece`: a part is no integer of 64 bits, and all before it are.
  `read_cases` says that a text of two or three parts is a written form or has such a part.

A location need not be one of a node: any three integers are one, and the piece that it names may
lie outside of the source.  The test for that is made in 64 bits, so it subtracts where one would
add.  `bounds?_eq` says that it tests what it is meant to, and `bounds?_in_range` that the end of a
piece, which is a sum after all, does not wrap around for any piece that is let through.

Contents
* §1  parts of a text
* §2  reading
* §3  writing
* §4  cutting
-/

namespace SolidityTree.Location

/-! ## 1. Parts of a text -/

/-- The parts of a text: what stands between its colons. -/
structure Parts (source : String) (pieces : List (List Char)) : Prop where
  joined : source.toList = Pieces.join ':' pieces
  nonempty : pieces ≠ []
  whole : ∀ piece ∈ pieces, ':' ∉ piece

theorem split_eq_iff_parts {source : String} {pieces : List (List Char)} :
    Pieces.split ':' source.toList = pieces ↔ Parts source pieces := by
  rw [Pieces.split_eq_iff]
  exact ⟨fun ⟨joined, nonempty, whole⟩ => ⟨joined, nonempty, whole⟩,
    fun h => ⟨h.joined, h.nonempty, h.whole⟩⟩

/-- A part writes an integer: a sign or none, and then one or more digits. -/
def Writes (piece : List Char) (i : Int64) : Prop := Decimal.Numeral (utf8 (.ofList piece)) i.toInt

/-- A part that writes some integer of 64 bits. -/
def Readable (piece : List Char) : Prop := ∃ i, Writes piece i

theorem colon_not_mem {piece : List Char} {i : Int64} (h : Writes piece i) : ':' ∉ piece := by
  intro hmem
  have colon : Ascii.colon ∈ utf8 (.ofList piece) := by
    rw [utf8_ofList]
    exact List.mem_flatMap.mpr ⟨':', hmem, by decide⟩
  rcases h.isDigit_or_sign colon with hdigit | hplus | hminus
  · exact absurd hdigit (by decide)
  · exact absurd hplus (by decide)
  · exact absurd hminus (by decide)

/-! ## 2. Reading -/

section Reading

variable {source : String} {pieces : List (List Char)}

/-- **The written forms of a location.** -/
inductive Written : List Char → Location → Prop
  | short {a b : List Char} {offset length : Int64} : Writes a offset → Writes b length →
      Written (a ++ ':' :: b) ⟨offset, length, -1⟩
  | full {a b c : List Char} {offset length fileIndex : Int64} : Writes a offset →
      Writes b length → Writes c fileIndex →
      Written (a ++ ':' :: (b ++ ':' :: c)) ⟨offset, length, fileIndex⟩

/-- **The first part that cannot be read**: all parts before it can. -/
inductive FirstUnreadable : List (List Char) → Part → List Char → Prop
  | offset {a : List Char} {rest : List (List Char)} : ¬ Readable a →
      FirstUnreadable (a :: rest) .offset a
  | length {a b : List Char} {rest : List (List Char)} : Readable a → ¬ Readable b →
      FirstUnreadable (a :: b :: rest) .length b
  | fileIndex {a b c : List Char} {rest : List (List Char)} : Readable a → Readable b →
      ¬ Readable c → FirstUnreadable (a :: b :: c :: rest) .fileIndex c

theorem readPart_of_writes {piece : List Char} {i : Int64} (h : Writes piece i) (source : String)
    (part : Part) : readPart source part piece = .ok i := by
  have hread : Decimal.read (utf8 (.ofList piece)) = .ok i := Decimal.read_eq_ok_iff.mpr h
  simp only [readPart, hread]

theorem exists_readPart {piece : List Char} (h : ¬ Readable piece) (source : String) (part : Part) :
    ∃ trouble,
      readPart source part piece = .error (.unreadable source part (.ofList piece) trouble) := by
  cases hread : Decimal.read (utf8 (.ofList piece)) with
  | error trouble => exact ⟨trouble, by simp only [readPart, hread]⟩
  | ok i => exact absurd ⟨i, Decimal.read_eq_ok_iff.mp hread⟩ h

/-- A written form is read. -/
theorem read_of_written {l : Location} (h : Written source.toList l) : read source = .ok l := by
  unfold read
  generalize source.toList = text at h
  cases h with
  | short ha hb =>
    rw [Pieces.split_append (colon_not_mem ha), Pieces.split_of_not_mem (colon_not_mem hb)]
    simp only [readPart_of_writes ha, readPart_of_writes hb]
    rfl
  | full ha hb hc =>
    rw [Pieces.split_append (colon_not_mem ha), Pieces.split_append (colon_not_mem hb),
      Pieces.split_of_not_mem (colon_not_mem hc)]
    simp only [readPart_of_writes ha, readPart_of_writes hb, readPart_of_writes hc]
    rfl

/-- Whether there are as many parts as a location has. -/
def TwoOrThree (pieces : List (List Char)) : Prop := pieces.length = 2 ∨ pieces.length = 3

theorem TwoOrThree.exists_eq (h : TwoOrThree pieces) :
    ∃ a b rest, pieces = a :: b :: rest ∧ (rest = [] ∨ ∃ c, rest = [c]) := by
  rcases h with h | h
  · obtain ⟨a, b, rfl⟩ := List.length_eq_two.mp h
    exact ⟨a, b, [], rfl, .inl rfl⟩
  · obtain ⟨a, b, c, rfl⟩ := List.length_eq_three.mp h
    exact ⟨a, b, [c], rfl, .inr ⟨c, rfl⟩⟩

/-- Too few or too many parts are refused. -/
theorem read_of_not_twoOrThree (h : Parts source pieces) (hcount : ¬ TwoOrThree pieces) :
    read source = .error (.partCount source) := by
  unfold read
  rw [split_eq_iff_parts.mpr h]
  split
  · exact absurd (.inl rfl) hcount
  · exact absurd (.inr rfl) hcount
  · rfl

/-- The first part that cannot be read is named. -/
theorem exists_read_of_firstUnreadable (h : Parts source pieces) (hcount : TwoOrThree pieces)
    {part : Part} {piece : List Char} (hfirst : FirstUnreadable pieces part piece) :
    ∃ trouble, read source = .error (.unreadable source part (.ofList piece) trouble) := by
  have unreadable : ¬ Readable piece := by
    cases hfirst <;> assumption
  obtain ⟨trouble, hread⟩ := exists_readPart unreadable source part
  refine ⟨trouble, ?_⟩
  unfold read
  rw [split_eq_iff_parts.mpr h]
  obtain ⟨a, b, rest, rfl, hrest⟩ := hcount.exists_eq
  -- an offset and a length are read first, whether or not a file index follows
  cases hfirst with
  | offset =>
    rcases hrest with rfl | ⟨c, rfl⟩ <;> simp only [hread] <;> rfl
  | length ha =>
    obtain ⟨i, hi⟩ := ha
    rcases hrest with rfl | ⟨c, rfl⟩ <;> simp only [readPart_of_writes hi, hread] <;> rfl
  | fileIndex ha hb =>
    obtain ⟨i, hi⟩ := ha
    obtain ⟨j, hj⟩ := hb
    rcases hrest with hnil | ⟨c, hc⟩
    · cases hnil
    · cases hc
      simp only [readPart_of_writes hi, readPart_of_writes hj, hread]
      rfl

/-- Two or three parts write a location, unless one of them cannot be read. -/
theorem written_or_firstUnreadable (h : Parts source pieces) (hcount : TwoOrThree pieces) :
    (∃ l, Written source.toList l) ∨ ∃ part piece, FirstUnreadable pieces part piece := by
  obtain ⟨a, b, rest, rfl, hrest⟩ := hcount.exists_eq
  by_cases ha : Readable a
  case neg => exact .inr ⟨_, _, .offset ha⟩
  by_cases hb : Readable b
  case neg => exact .inr ⟨_, _, .length ha hb⟩
  obtain ⟨i, hi⟩ := id ha
  obtain ⟨j, hj⟩ := id hb
  rcases hrest with rfl | ⟨c, rfl⟩
  · have short : Written source.toList ⟨i, j, -1⟩ := by
      rw [h.joined]
      exact .short hi hj
    exact .inl ⟨_, short⟩
  by_cases hc : Readable c
  case neg => exact .inr ⟨_, _, .fileIndex ha hb hc⟩
  obtain ⟨k, hk⟩ := hc
  have full : Written source.toList ⟨i, j, k⟩ := by
    rw [h.joined]
    exact .full hi hj hk
  exact .inl ⟨_, full⟩

/-- **What is made of a text**, by its parts. -/
theorem read_cases (h : Parts source pieces) :
    (∃ l, Written source.toList l ∧ read source = .ok l) ∨
    (¬ TwoOrThree pieces ∧ read source = .error (.partCount source)) ∨
    (TwoOrThree pieces ∧ ∃ part piece trouble, FirstUnreadable pieces part piece ∧
      read source = .error (.unreadable source part (.ofList piece) trouble)) := by
  by_cases hcount : TwoOrThree pieces
  · rcases written_or_firstUnreadable h hcount with ⟨l, hl⟩ | ⟨part, piece, hfirst⟩
    · exact .inl ⟨l, hl, read_of_written hl⟩
    · obtain ⟨trouble, hread⟩ := exists_read_of_firstUnreadable h hcount hfirst
      exact .inr (.inr ⟨hcount, part, piece, trouble, hfirst, hread⟩)
  · exact .inr (.inl ⟨hcount, read_of_not_twoOrThree h hcount⟩)

/-- **Exactly the written forms are read**, each as its location. -/
theorem read_eq_ok_iff {l : Location} : read source = .ok l ↔ Written source.toList l := by
  refine ⟨fun hread => ?_, read_of_written⟩
  rcases read_cases (split_eq_iff_parts.mp rfl) with
    ⟨l', hl', h⟩ | ⟨-, h⟩ | ⟨-, part, piece, trouble, -, h⟩
  · rw [h] at hread
    exact Except.ok.inj hread ▸ hl'
  · rw [h] at hread
    cases hread
  · rw [h] at hread
    cases hread

theorem read_eq_partCount_iff (h : Parts source pieces) :
    read source = .error (.partCount source) ↔ ¬ TwoOrThree pieces := by
  refine ⟨fun hread => ?_, read_of_not_twoOrThree h⟩
  rcases read_cases h with ⟨l, -, h⟩ | ⟨hcount, -⟩ | ⟨-, part, piece, trouble, -, h⟩
  · rw [h] at hread
    cases hread
  · exact hcount
  · rw [h] at hread
    cases hread

theorem read_eq_unreadable_iff (h : Parts source pieces) {part : Part} {text : String} :
    (∃ trouble, read source = .error (.unreadable source part text trouble)) ↔
      TwoOrThree pieces ∧ FirstUnreadable pieces part text.toList := by
  constructor
  · rintro ⟨trouble, hread⟩
    rcases read_cases h with ⟨l, -, h⟩ | ⟨-, h⟩ | ⟨hcount, part, piece, trouble', hfirst, h⟩
    · rw [h] at hread
      cases hread
    · rw [h] at hread
      cases hread
    · rw [h] at hread
      cases hread
      exact ⟨hcount, by rwa [String.toList_ofList]⟩
  · rintro ⟨hcount, hfirst⟩
    have := exists_read_of_firstUnreadable h hcount hfirst
    rwa [String.ofList_toList] at this

end Reading

/-! ## 3. Writing -/

theorem writes_write (i : Int64) : Writes (Decimal.write i).toList i := by
  rw [Writes, String.ofList_toList]
  exact Decimal.numeral_write i

/-- The written form of a location is one. -/
theorem written_text (l : Location) : Written l.text.toList l := by
  have colon : ":".toList = [':'] := rfl
  have h := Written.full (writes_write l.offset) (writes_write l.length) (writes_write l.fileIndex)
  simpa [text, String.toList_append, colon] using h

/-- **What was written is read again.** -/
theorem read_text (l : Location) : read l.text = .ok l := read_of_written (written_text l)

theorem text_injective : Function.Injective text := by
  intro l l' h
  have := read_text l
  rw [h, read_text l'] at this
  exact (Except.ok.inj this).symm

/-- **Reading and writing.**  A text is read exactly if it is a written form, as the location that
it writes.  Any other text is refused: for the number of its parts exactly if there are not two or
three of them, and otherwise for the first part that cannot be read.  A location that was written is
read again, so it is known by its written form, and what was read from a text is not changed by
writing and reading it. -/
theorem read_exactly_written (source : String) :
    (∀ l, read source = .ok l ↔ Written source.toList l) ∧
    (∃ pieces, (∀ other, Parts source other ↔ other = pieces) ∧
      (read source = .error (.partCount source) ↔ ¬ TwoOrThree pieces) ∧
      ∀ part text, (∃ trouble, read source = .error (.unreadable source part text trouble)) ↔
        TwoOrThree pieces ∧ FirstUnreadable pieces part text.toList) ∧
    (∀ e, read source = .error e →
      e = .partCount source ∨ ∃ part text trouble, e = .unreadable source part text trouble) ∧
    (∀ l : Location, read l.text = .ok l) ∧ Function.Injective text ∧
    ∀ l, read source = .ok l → read l.text = .ok l := by
  have parts : Parts source (Pieces.split ':' source.toList) := split_eq_iff_parts.mp rfl
  refine ⟨fun l => read_eq_ok_iff, ⟨_, fun other => ?_, read_eq_partCount_iff parts,
    fun part text => read_eq_unreadable_iff parts⟩, ?_, read_text, text_injective,
    fun l _ => read_text l⟩
  · rw [← split_eq_iff_parts, eq_comm]
  · intro e he
    rcases read_cases parts with ⟨l, -, h⟩ | ⟨-, h⟩ | ⟨-, part, piece, trouble, -, h⟩
    · rw [h] at he
      cases he
    · exact .inl (Except.error.inj (he.symm.trans h))
    · exact .inr ⟨part, _, trouble, Except.error.inj (he.symm.trans h)⟩

/-! ## 4. Cutting -/

/-- A piece lies inside a text of some size, by its end in unbounded integers. -/
def Inside (l : Location) (size : Nat) : Prop :=
  0 ≤ l.offset.toInt ∧ 0 ≤ l.length.toInt ∧ l.offset.toInt + l.length.toInt ≤ size

instance (l : Location) (size : Nat) : Decidable (l.Inside size) :=
  inferInstanceAs (Decidable (_ ∧ _))

section Cutting

variable {l : Location} {size : Nat}

/-- A sum that does not exceed the size of a text is exact. -/
theorem toInt_add_of_le (hsize : size < 0x8000000000000000) {i j : Int64} (hi : 0 ≤ i.toInt)
    (hj : 0 ≤ j.toInt) (hsum : i.toInt + j.toInt ≤ size) : (i + j).toInt = i.toInt + j.toInt := by
  rw [Int64.toInt_add]
  exact Int.bmod_eq_of_le (by omega) (by omega)

/-- What is left of a text after an offset in it is exact. -/
theorem toInt_sub_of_lt (hsize : size < 0x8000000000000000) {i : Int64} (hi : 0 ≤ i.toInt)
    (hlt : i.toInt < size) : (Int64.ofNat size - i).toInt = size - i.toInt := by
  rw [Int64.toInt_sub, Int64.toInt_ofNat_of_lt hsize]
  exact Int.bmod_eq_of_le (by omega) (by omega)

/-- **The test in 64 bits is right**: it lets a piece through exactly if it lies inside and does not
begin at the very end, where it would be empty. -/
theorem bounds?_eq (hsize : size < 0x8000000000000000) (l : Location) :
    l.bounds? (Int64.ofNat size) =
      if l.Inside size ∧ l.offset.toInt < size then some (l.offset, l.offset + l.length)
      else none := by
  have test : (l.offset < 0 ∨ l.length < 0 ∨ Int64.ofNat size ≤ l.offset ∨
      Int64.ofNat size - l.offset < l.length) ↔ ¬ (l.Inside size ∧ l.offset.toInt < size) := by
    have hzero : (0 : Int64).toInt = 0 := rfl
    simp only [Int64.lt_iff_toInt_lt, Int64.le_iff_toInt_le, Int64.toInt_ofNat_of_lt hsize, hzero,
      Inside]
    -- the difference may wrap around only where one of the tests before it has already failed
    by_cases hin : 0 ≤ l.offset.toInt ∧ l.offset.toInt < size
    · rw [toInt_sub_of_lt hsize hin.1 hin.2]
      omega
    · omega
  rw [bounds?]
  by_cases h : l.Inside size ∧ l.offset.toInt < size
  · rw [if_pos h, if_neg fun ht => test.mp ht h]
  · rw [if_neg h, if_pos (test.mpr h)]

/-- **The bounds are in range**, and they are what they would be without wrapping around. -/
theorem bounds?_in_range (hsize : size < 0x8000000000000000) {first last : Int64}
    (h : l.bounds? (Int64.ofNat size) = some (first, last)) :
    0 ≤ first.toInt ∧ first.toInt ≤ last.toInt ∧ last.toInt ≤ size ∧
      first.toInt = l.offset.toInt ∧ last.toInt = l.offset.toInt + l.length.toInt := by
  rw [bounds?_eq hsize, Option.ite_none_right_eq_some] at h
  obtain ⟨⟨⟨hoffset, hlength, hsum⟩, -⟩, heq⟩ := h
  cases heq
  have := toInt_add_of_le hsize hoffset hlength hsum
  omega

end Cutting

section Slice

variable {source : Bytes} {l : Location}

/-- What lies inside is cut out. -/
theorem slice_of_inside (hsize : source.length < 0x8000000000000000)
    (h : l.Inside source.length) :
    l.slice source = (source.drop l.offset.toInt.toNat).take l.length.toInt.toNat := by
  have hsum := toInt_add_of_le hsize h.1 h.2.1 h.2.2
  obtain ⟨hoffset, hlength, hle⟩ := h
  rw [slice, bounds?_eq hsize]
  by_cases hlt : l.offset.toInt < source.length
  · rw [if_pos ⟨⟨hoffset, hlength, hle⟩, hlt⟩]
    have hend : (l.offset + l.length).toInt.toNat - l.offset.toInt.toNat =
        l.length.toInt.toNat := by omega
    simp only [Int64.toNatClampNeg, List.drop_take, hend]
  · -- an offset at the very end leaves room for nothing, and nothing is what the test gives
    have hzero : l.length.toInt.toNat = 0 := by omega
    rw [if_neg fun hin => hlt hin.2, hzero, List.take_zero]

/-- What does not lie inside is empty. -/
theorem slice_of_not_inside (hsize : source.length < 0x8000000000000000)
    (h : ¬ l.Inside source.length) : l.slice source = [] := by
  rw [slice, bounds?_eq hsize, if_neg fun hin => h hin.1]

/-- **The piece that is cut out**: as many bytes as the location says, after as many as it says. -/
theorem exists_around_slice (hsize : source.length < 0x8000000000000000)
    (h : l.Inside source.length) :
    ∃ before after, source = before ++ (l.slice source ++ after) ∧
      before.length = l.offset.toInt ∧ (l.slice source).length = l.length.toInt := by
  obtain ⟨hoffset, hlength, hle⟩ := id h
  refine ⟨source.take l.offset.toInt.toNat,
    (source.drop l.offset.toInt.toNat).drop l.length.toInt.toNat, ?_, ?_, ?_⟩
  · rw [slice_of_inside hsize h, List.take_append_drop, List.take_append_drop]
  · rw [List.length_take]
    omega
  · rw [slice_of_inside hsize h, List.length_take, List.length_drop]
    omega

/-- **Pieces that lie side by side** make the piece that covers both. -/
theorem slice_append_slice (hsize : source.length < 0x8000000000000000) {offset a b : Int64}
    (hoffset : 0 ≤ offset.toInt) (ha : 0 ≤ a.toInt) (hb : 0 ≤ b.toInt)
    (hsum : offset.toInt + a.toInt + b.toInt ≤ source.length) (file file' file'' : Int64) :
    (⟨offset, a, file⟩ : Location).slice source ++
        (⟨offset + a, b, file'⟩ : Location).slice source =
      (⟨offset, a + b, file''⟩ : Location).slice source := by
  have hstart := toInt_add_of_le hsize hoffset ha (by omega)
  have hboth := toInt_add_of_le hsize ha hb (by omega)
  have first : (⟨offset, a, file⟩ : Location).Inside source.length :=
    ⟨hoffset, ha, by simp only; omega⟩
  have second : (⟨offset + a, b, file'⟩ : Location).Inside source.length :=
    ⟨by simp only; omega, hb, by simp only; omega⟩
  have both : (⟨offset, a + b, file''⟩ : Location).Inside source.length :=
    ⟨hoffset, by simp only; omega, by simp only; omega⟩
  rw [slice_of_inside hsize first, slice_of_inside hsize second, slice_of_inside hsize both]
  simp only [hstart, hboth, Int.toNat_add hoffset ha, Int.toNat_add ha hb, List.take_add,
    List.drop_drop]

/-- **The piece of a source at a location.**  The bounds that are cut at are never out of range, and
they are what they would be in unbounded integers, although they are computed in 64 bits.  If the
piece lies inside the source, it is as long as the location says and begins where the location says;
otherwise it is empty.  Pieces that lie side by side make the piece that covers both.  All this is
said of sources whose bytes can be counted in 64 bits, and there are no others. -/
theorem slice_exactly_inside (source : Bytes) (hsize : source.length < 0x8000000000000000) :
    (∀ (l : Location) (first last : Int64),
      l.bounds? (Int64.ofNat source.length) = some (first, last) →
        0 ≤ first.toInt ∧ first.toInt ≤ last.toInt ∧ last.toInt ≤ source.length ∧
        first.toInt = l.offset.toInt ∧ last.toInt = l.offset.toInt + l.length.toInt) ∧
    (∀ l : Location, l.Inside source.length →
      ∃ before after, source = before ++ (l.slice source ++ after) ∧
        before.length = l.offset.toInt ∧ (l.slice source).length = l.length.toInt) ∧
    (∀ l : Location, ¬ l.Inside source.length → l.slice source = []) ∧
    ∀ offset a b file file' file'' : Int64, 0 ≤ offset.toInt → 0 ≤ a.toInt → 0 ≤ b.toInt →
      offset.toInt + a.toInt + b.toInt ≤ source.length →
      (⟨offset, a, file⟩ : Location).slice source ++
          (⟨offset + a, b, file'⟩ : Location).slice source =
        (⟨offset, a + b, file''⟩ : Location).slice source := by
  refine ⟨fun l first last => bounds?_in_range hsize, fun l => exists_around_slice hsize,
    fun l => slice_of_not_inside hsize, ?_⟩
  intro offset a b file file' file'' hoffset ha hb hsum
  exact slice_append_slice hsize hoffset ha hb hsum file file' file''

end Slice

/-- A length that overflows with any offset, the very end of a source, and two pieces that make up
all of it. -/
theorem slice_exactly_inside_edges :
    let source := utf8 "contract C"
    source.length < 0x8000000000000000 ∧
      (⟨1, 9223372036854775807, 0⟩ : Location).slice source = [] ∧
      ((⟨10, 0, 0⟩ : Location).slice source).length = (0 : Int) ∧
      (⟨0, 8, 0⟩ : Location).slice source ++ (⟨8, 2, 0⟩ : Location).slice source =
        (⟨0, 10, 0⟩ : Location).slice source := by
  intro source
  have hsize : source.length < 0x8000000000000000 := by decide
  obtain ⟨-, inside, outside, sides⟩ := slice_exactly_inside source hsize
  obtain ⟨-, -, -, -, hlength⟩ := inside ⟨10, 0, 0⟩ (by decide)
  exact ⟨hsize, outside _ (by decide), hlength,
    sides 0 8 2 0 0 0 (by decide) (by decide) (by decide) (by decide)⟩

end SolidityTree.Location
