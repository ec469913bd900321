import SolidityTree.Text.Decimal

/-!
# What a numeral is, and that exactly the numerals are read

`Decimal.read` goes over a text from left to right and stops at the first trouble, so which texts
it accepts, and as which number, is not plain from its definition.  `Numeral bs n` says it without
reading: `bs` is a sign or none and then one or more digits, and `n` is the number that they
write, of WHATEVER SIZE.

* `read_eq_ok_iff`: a 64-bit integer is read from a text exactly if the text is a numeral of it;
* `numeral_write`: the written form of an integer is a numeral of it.
-/

namespace SolidityTree.Decimal

/-! ## 1. Numerals -/

/-- One or more decimal digits. -/
def IsDigits (cs : List Char) : Prop := cs ≠ [] ∧ ∀ c ∈ cs, c.isDigit = true

/-- `Numeral bs n`: the text `bs` is a decimal form of the number `n`. -/
inductive Numeral : Bytes → Int → Prop
  | unsigned {cs : List Char} :
      IsDigits cs → Numeral (utf8 (.ofList cs)) (Nat.ofDigitChars 10 cs 0)
  | plus {cs : List Char} :
      IsDigits cs → Numeral (Ascii.plus :: utf8 (.ofList cs)) (Nat.ofDigitChars 10 cs 0)
  | minus {cs : List Char} :
      IsDigits cs → Numeral (Ascii.minus :: utf8 (.ofList cs)) (-(Nat.ofDigitChars 10 cs 0))

/-! ## 2. Digits as characters and as bytes -/

/-- A digit is one byte, which is a digit again and has the same value. -/
theorem utf8EncodeChar_of_isDigit {c : Char} (h : c.isDigit = true) :
    ∃ b, String.utf8EncodeChar c = [b] ∧ Ascii.isDigit b = true ∧
      b.toNat - 0x30 = c.toNat - '0'.toNat := by
  have hr : 48 ≤ c.toNat ∧ c.toNat ≤ 57 := Char.isDigit_iff_toNat.mp h
  have hb : (UInt8.ofNat c.toNat).toNat = c.toNat := by
    rw [UInt8.toNat_ofNat']
    omega
  refine ⟨UInt8.ofNat c.toNat, utf8EncodeChar_of_ascii (by omega), ?_, ?_⟩
  · simp only [Ascii.isDigit, Bool.and_eq_true, decide_eq_true_eq, UInt8.le_iff_toNat_le, hb]
    exact hr
  · rw [hb]
    rfl

/-- A byte that is a digit is the form of a digit. -/
theorem exists_isDigit {b : UInt8} (h : Ascii.isDigit b = true) :
    ∃ c : Char, c.isDigit = true ∧ String.utf8EncodeChar c = [b] := by
  have hr : 48 ≤ b.toNat ∧ b.toNat ≤ 57 := by
    simpa [Ascii.isDigit, UInt8.le_iff_toNat_le] using h
  have hv : (Char.ofNat b.toNat).toNat = b.toNat := toNat_charOfNat (Or.inl (by omega))
  refine ⟨Char.ofNat b.toNat, ?_, ?_⟩
  · rw [Char.isDigit_iff_toNat, hv]
    exact hr
  · rw [utf8EncodeChar_of_ascii (by omega), hv, UInt8.ofNat_toNat]

/-- The bytes of digits. -/
theorem isDigit_of_mem_utf8 {cs : List Char} (h : ∀ c ∈ cs, c.isDigit = true) {b : UInt8}
    (hb : b ∈ utf8 (.ofList cs)) : Ascii.isDigit b = true := by
  rw [utf8_ofList, List.mem_flatMap] at hb
  obtain ⟨c, hc, hb⟩ := hb
  obtain ⟨b', he, hd, -⟩ := utf8EncodeChar_of_isDigit (h c hc)
  rw [he, List.mem_singleton] at hb
  rw [hb]
  exact hd

/-- A numeral has no other bytes than a sign and digits. -/
theorem Numeral.isDigit_or_sign {bs : Bytes} {n : Int} (h : Numeral bs n) {b : UInt8}
    (hb : b ∈ bs) : Ascii.isDigit b = true ∨ b = Ascii.plus ∨ b = Ascii.minus := by
  cases h with
  | unsigned hcs => exact .inl (isDigit_of_mem_utf8 hcs.2 hb)
  | plus hcs =>
    rcases List.mem_cons.mp hb with rfl | hb
    · exact .inr (.inl rfl)
    · exact .inl (isDigit_of_mem_utf8 hcs.2 hb)
  | minus hcs =>
    rcases List.mem_cons.mp hb with rfl | hb
    · exact .inr (.inr rfl)
    · exact .inl (isDigit_of_mem_utf8 hcs.2 hb)

/-! ## 3. Reading digits -/

/-- Only digits are read. -/
theorem exists_digits_of_readDigits {m : Nat} : ∀ {n : Nat} {bs : Bytes},
    readDigits n bs = .ok m →
    ∃ cs : List Char, (∀ c ∈ cs, c.isDigit = true) ∧ bs = utf8 (.ofList cs)
  | _, [], _ => ⟨[], by simp, by simp [utf8]⟩
  | n, b :: rest, h => by
    simp only [readDigits] at h
    split at h
    · cases h
    · next hb =>
      split at h
      · obtain ⟨cs, hcs, rfl⟩ := exists_digits_of_readDigits h
        obtain ⟨c, hc, he⟩ := exists_isDigit (by simpa using hb)
        refine ⟨c :: cs, ?_, ?_⟩
        · rintro d hd
          rcases List.mem_cons.mp hd with rfl | hd
          · exact hc
          · exact hcs d hd
        · rw [utf8_ofList_cons, he]
          rfl
      · cases h

/-- Digits only add to what has been read. -/
theorem le_ofDigitChars (n : Nat) (cs : List Char) : n ≤ Nat.ofDigitChars 10 cs n := by
  rw [Nat.ofDigitChars_eq_ofDigitChars_zero]
  have : 1 * n ≤ 10 ^ cs.length * n := Nat.mul_le_mul_right n (Nat.one_le_pow _ _ (by omega))
  omega

/-- **Digits are read as the number they write**, as long as it has 64 bits. -/
theorem readDigits_eq_ok_iff {m : Nat} : ∀ {n : Nat} {cs : List Char}, n < 0x10000000000000000 →
    (∀ c ∈ cs, c.isDigit = true) →
    (readDigits n (utf8 (.ofList cs)) = .ok m ↔
      m = Nat.ofDigitChars 10 cs n ∧ m < 0x10000000000000000)
  | n, [], hn, _ => by
    simp only [String.ofList_nil, utf8_empty, readDigits, Except.ok.injEq, Nat.ofDigitChars_nil]
    constructor
    · rintro rfl
      exact ⟨rfl, hn⟩
    · rintro ⟨rfl, -⟩
      rfl
  | n, c :: cs, hn, hd => by
    obtain ⟨b, he, hb, hv⟩ := utf8EncodeChar_of_isDigit (hd c List.mem_cons_self)
    have hcons : utf8 (.ofList (c :: cs)) = b :: utf8 (.ofList cs) := by
      rw [utf8_ofList_cons, he]
      rfl
    have hstep : n * 10 + (b.toNat - 0x30) = 10 * n + (c.toNat - '0'.toNat) := by
      rw [hv, Nat.mul_comm]
    rw [hcons, readDigits, hb, Nat.ofDigitChars_cons, ← hstep]
    simp only [Bool.not_true, Bool.false_eq_true, if_false]
    split
    · next hlt => exact readDigits_eq_ok_iff hlt fun d hm => hd d (List.mem_cons_of_mem _ hm)
    · next hge =>
      -- beyond 64 bits nothing is read, and the number only grows
      have hle := le_ofDigitChars (n * 10 + (b.toNat - 0x30)) cs
      constructor
      · intro h
        cases h
      · rintro ⟨rfl, hlt⟩
        omega

theorem readMagnitude_eq_ok_iff {bs : Bytes} {m : Nat} :
    readMagnitude bs = .ok m ↔
      ∃ cs, IsDigits cs ∧ bs = utf8 (.ofList cs) ∧ m = Nat.ofDigitChars 10 cs 0 ∧
        m < 0x10000000000000000 := by
  constructor
  · intro h
    cases bs with
    | nil => cases h
    | cons b rest =>
      simp only [readMagnitude] at h
      obtain ⟨cs, hcs, he⟩ := exists_digits_of_readDigits h
      refine ⟨cs, ⟨?_, hcs⟩, he, ?_⟩
      · rintro rfl
        exact absurd he (by simp [utf8])
      · rw [he] at h
        exact (readDigits_eq_ok_iff (by omega) hcs).mp h
  · rintro ⟨cs, ⟨hne, hcs⟩, rfl, h⟩
    have hr := (readDigits_eq_ok_iff (by omega) hcs).mpr h
    cases hu : utf8 (.ofList cs) with
    | nil =>
      obtain ⟨c, rest, rfl⟩ := List.exists_cons_of_ne_nil hne
      obtain ⟨b, he, -, -⟩ := utf8EncodeChar_of_isDigit (hcs c List.mem_cons_self)
      rw [utf8_ofList_cons, he] at hu
      cases hu
    | cons b rest =>
      rw [hu] at hr
      exact hr

/-! ## 4. Reading numerals -/

/-- Exactly the numbers of 64 bits are narrowed, each to itself. -/
theorem narrow_eq_ok_iff {n : Int} {i : Int64} : narrow n = .ok i ↔ n = i.toInt := by
  unfold narrow
  split
  · next h =>
    simp only [Except.ok.injEq]
    constructor
    · rintro rfl
      exact (Int64.toInt_ofInt_of_le h.1 h.2).symm
    · rintro rfl
      exact Int64.ofInt_toInt i
  · next h =>
    constructor
    · intro h'
      cases h'
    · rintro rfl
      exact absurd ⟨Int64.le_toInt i, Int64.toInt_lt i⟩ h

/-- A magnitude and then a sign, narrowed: the number that is read is the number written. -/
theorem narrow_readMagnitude_eq_ok_iff {bs : Bytes} {i : Int64} (sign : Int → Int)
    (hsign : ∀ n, (sign n).natAbs = n.natAbs) :
    (do narrow (sign (← readMagnitude bs))) = .ok i ↔
      ∃ cs, IsDigits cs ∧ bs = utf8 (.ofList cs) ∧ i.toInt = sign (Nat.ofDigitChars 10 cs 0) := by
  constructor
  · intro h
    cases hm : readMagnitude bs with
    | error e =>
      rw [hm] at h
      cases h
    | ok m =>
      rw [hm] at h
      obtain ⟨cs, hcs, he, rfl, -⟩ := readMagnitude_eq_ok_iff.mp hm
      exact ⟨cs, hcs, he, (narrow_eq_ok_iff.mp h).symm⟩
  · rintro ⟨cs, hcs, he, hi⟩
    -- what has 64 bits with its sign has 64 bits without
    have hlt : Nat.ofDigitChars 10 cs 0 < 0x10000000000000000 := by
      have h1 := hsign (Nat.ofDigitChars 10 cs 0)
      have h2 := Int64.le_toInt i
      have h3 := Int64.toInt_lt i
      omega
    rw [readMagnitude_eq_ok_iff.mpr ⟨cs, hcs, he, rfl, hlt⟩]
    exact narrow_eq_ok_iff.mpr hi.symm

/-- Digits do not start with a sign. -/
theorem head_utf8_digits {cs : List Char} (h : IsDigits cs) :
    ∃ b rest, utf8 (.ofList cs) = b :: rest ∧ b ≠ Ascii.minus ∧ b ≠ Ascii.plus := by
  obtain ⟨c, cs, rfl⟩ := List.exists_cons_of_ne_nil h.1
  obtain ⟨b, he, hb, -⟩ := utf8EncodeChar_of_isDigit (h.2 c List.mem_cons_self)
  refine ⟨b, utf8 (.ofList cs), by rw [utf8_ofList_cons, he]; rfl, ?_, ?_⟩
  · rintro rfl
    exact absurd hb (by decide)
  · rintro rfl
    exact absurd hb (by decide)

/-- **Exactly the numerals of 64-bit integers are read, each as its number.** -/
theorem read_eq_ok_iff {bs : Bytes} {i : Int64} : read bs = .ok i ↔ Numeral bs i.toInt := by
  constructor
  · intro h
    cases bs with
    | nil => cases h
    | cons b rest =>
      simp only [read] at h
      split at h
      · next hb =>
        obtain ⟨cs, hcs, rfl, hi⟩ :=
          (narrow_readMagnitude_eq_ok_iff (fun n => -n) Int.natAbs_neg).mp h
        rw [hb, hi]
        exact .minus hcs
      · split at h
        · next hb =>
          obtain ⟨cs, hcs, rfl, hi⟩ := (narrow_readMagnitude_eq_ok_iff id fun _ => rfl).mp h
          rw [hb, hi]
          exact .plus hcs
        · obtain ⟨cs, hcs, he, hi⟩ := (narrow_readMagnitude_eq_ok_iff id fun _ => rfl).mp h
          rw [he, hi]
          exact .unsigned hcs
  · intro h
    generalize hn : i.toInt = n at h
    cases h with
    | @unsigned cs hcs =>
      obtain ⟨b, rest, he, h1, h2⟩ := head_utf8_digits hcs
      have hr := (narrow_readMagnitude_eq_ok_iff id fun _ => rfl).mpr ⟨cs, hcs, he.symm, hn⟩
      simp only [he, read, if_neg h1, if_neg h2]
      exact hr
    | @plus cs hcs =>
      exact (narrow_readMagnitude_eq_ok_iff id fun _ => rfl).mpr ⟨cs, hcs, rfl, hn⟩
    | @minus cs hcs =>
      exact (narrow_readMagnitude_eq_ok_iff (fun n => -n) Int.natAbs_neg).mpr ⟨cs, hcs, rfl, hn⟩

/-! ## 5. Writing numerals -/

theorem isDigits_toDigits (n : Nat) : IsDigits (Nat.toDigits 10 n) :=
  ⟨Nat.toDigits_ne_nil, fun _ hc => Nat.isDigit_of_mem_toDigits (by omega) (by omega) hc⟩

/-- **The written form of an integer is a numeral of it.** -/
theorem numeral_write (i : Int64) : Numeral (utf8 (write i)) i.toInt := by
  unfold write
  cases i.toInt with
  | ofNat n =>
    have h := Numeral.unsigned (isDigits_toDigits n)
    rw [Nat.ofDigitChars_ten_toDigits] at h
    exact h
  | negSucc n =>
    have h := Numeral.minus (isDigits_toDigits (n + 1))
    rw [Nat.ofDigitChars_ten_toDigits] at h
    have he : utf8 (.ofList (digitsOf (.negSucc n)))
        = Ascii.minus :: utf8 (.ofList (Nat.toDigits 10 (n + 1))) := by
      rw [digitsOf, utf8_ofList_cons]
      rfl
    rw [he]
    exact h

/-- **What was written is read again.** -/
theorem read_write (i : Int64) : read (utf8 (write i)) = .ok i :=
  read_eq_ok_iff.mpr (numeral_write i)

end SolidityTree.Decimal
