import SolidityTree.Text.Utf8

/-!
# Reading back what was written

The lenient reader of `Text.Utf8` loses nothing of a text that is well-formed: the bytes of a
character are read as that character whatever follows them (`decodeHead?_utf8EncodeChar`), so the
bytes of a text are read as the text (`decodeLossy_utf8`).

A character of more than one byte is its code point cut into digits to the base 64.
`utf8EncodeChar_cases` names the digits, and there is one reading lemma for each number of bytes,
stated of the digits alone.

Contents
* §1  the bytes of a character
* §2  reading one character
* §3  reading a text
-/

namespace SolidityTree.Utf8

/-! ## 1. The bytes of a character -/

/-- The forms that the bytes of a character have. -/
theorem utf8EncodeChar_cases (c : Char) :
    (c.toNat < 0x80 ∧ String.utf8EncodeChar c = [UInt8.ofNat c.toNat]) ∨
    (∃ x y, 2 ≤ x ∧ x < 32 ∧ y < 64 ∧ c.toNat = x * 64 + y ∧
      String.utf8EncodeChar c = [UInt8.ofNat (x + 0xc0), UInt8.ofNat (y + 0x80)]) ∨
    (∃ x y z, x < 16 ∧ y < 64 ∧ z < 64 ∧ (x = 0 → 32 ≤ y) ∧ (x = 13 → y < 32) ∧
      c.toNat = x * 4096 + y * 64 + z ∧
      String.utf8EncodeChar c =
        [UInt8.ofNat (x + 0xe0), UInt8.ofNat (y + 0x80), UInt8.ofNat (z + 0x80)]) ∨
    (∃ w x y z, w ≤ 4 ∧ x < 64 ∧ y < 64 ∧ z < 64 ∧ (w = 0 → 16 ≤ x) ∧ (w = 4 → x < 16) ∧
      c.toNat = w * 262144 + x * 4096 + y * 64 + z ∧
      String.utf8EncodeChar c =
        [UInt8.ofNat (w + 0xf0), UInt8.ofNat (x + 0x80), UInt8.ofNat (y + 0x80),
          UInt8.ofNat (z + 0x80)]) := by
  have valid : c.toNat < 0xd800 ∨ 0xdfff < c.toNat ∧ c.toNat < 0x110000 := c.valid
  have forms : String.utf8EncodeChar c =
      if c.toNat ≤ 0x7f then [UInt8.ofNat c.toNat]
      else if c.toNat ≤ 0x7ff then
        [UInt8.ofNat (c.toNat / 64 % 32 + 0xc0), UInt8.ofNat (c.toNat % 64 + 0x80)]
      else if c.toNat ≤ 0xffff then
        [UInt8.ofNat (c.toNat / 4096 % 16 + 0xe0), UInt8.ofNat (c.toNat / 64 % 64 + 0x80),
          UInt8.ofNat (c.toNat % 64 + 0x80)]
      else
        [UInt8.ofNat (c.toNat / 262144 % 8 + 0xf0), UInt8.ofNat (c.toNat / 4096 % 64 + 0x80),
          UInt8.ofNat (c.toNat / 64 % 64 + 0x80), UInt8.ofNat (c.toNat % 64 + 0x80)] := rfl
  rw [forms]
  generalize c.toNat = n at valid
  by_cases h1 : n ≤ 0x7f
  · exact Or.inl ⟨by omega, if_pos h1⟩
  rw [if_neg h1]
  by_cases h2 : n ≤ 0x7ff
  · refine Or.inr (Or.inl ⟨n / 64 % 32, n % 64, ?_, ?_, ?_, ?_, if_pos h2⟩)
    all_goals omega
  rw [if_neg h2]
  by_cases h3 : n ≤ 0xffff
  · refine Or.inr (Or.inr (Or.inl ⟨n / 4096 % 16, n / 64 % 64, n % 64, ?_, ?_, ?_, ?_, ?_, ?_,
      if_pos h3⟩))
    all_goals omega
  · refine Or.inr (Or.inr (Or.inr ⟨n / 262144 % 8, n / 4096 % 64, n / 64 % 64, n % 64, ?_, ?_, ?_,
      ?_, ?_, ?_, ?_, if_neg h3⟩))
    all_goals omega

/-! ## 2. One character -/

theorem toNat_ofNat_add {n k : Nat} (h : n + k < 256) : (UInt8.ofNat (n + k)).toNat = n + k :=
  UInt8.toNat_ofNat_of_lt' h

theorem isContinuation_ofNat {n : Nat} (h : n < 64) :
    isContinuation (UInt8.ofNat (n + 0x80)) = true := by
  have hn := toNat_ofNat_add (n := n) (k := 0x80) (by omega)
  simp only [isContinuation, UInt8.le_iff_toNat_le, hn, Bool.and_eq_true, decide_eq_true_eq,
    UInt8.reduceToNat]
  omega

theorem low_ofNat {n : Nat} (h : n < 64) : low (UInt8.ofNat (n + 0x80)) = n := by
  rw [low, toNat_ofNat_add (by omega)]
  omega

theorem decodeHead?_two {x y : Nat} (hx : 2 ≤ x) (hx' : x < 32) (hy : y < 64) (rest : Bytes) :
    decodeHead? (UInt8.ofNat (x + 0xc0) :: UInt8.ofNat (y + 0x80) :: rest) =
      some (Char.ofNat (x * 64 + y), 1) := by
  have hb := toNat_ofNat_add (n := x) (k := 0xc0) (by omega)
  have h1 : ¬ UInt8.ofNat (x + 0xc0) < 0x80 := by
    simp only [UInt8.lt_iff_toNat_lt, hb, UInt8.reduceToNat]
    omega
  have h2 : (0xc2 ≤ UInt8.ofNat (x + 0xc0) && UInt8.ofNat (x + 0xc0) ≤ 0xdf) = true := by
    simp only [UInt8.le_iff_toNat_le, hb, UInt8.reduceToNat, Bool.and_eq_true, decide_eq_true_eq]
    omega
  simp only [decodeHead?, h1, h2, isContinuation_ofNat hy, low_ofNat hy, hb, if_true, if_false]
  have hx32 : (x + 0xc0) % 0x20 = x := by omega
  rw [hx32]

/-- The second byte of a longer form is admitted if the form is the shortest one, no surrogate and
not beyond the last plane. -/
theorem admitsSecond_ofNat {lead : UInt8} {y : Nat} (hy : y < 64)
    (he0 : lead = 0xe0 → 32 ≤ y) (hed : lead = 0xed → y < 32) (hf0 : lead = 0xf0 → 16 ≤ y)
    (hf4 : lead = 0xf4 → y < 16) : admitsSecond lead (UInt8.ofNat (y + 0x80)) = true := by
  have hb := toNat_ofNat_add (n := y) (k := 0x80) (by omega)
  unfold admitsSecond
  split
  · next h1 =>
    have := he0 h1
    simp only [UInt8.le_iff_toNat_le, hb, UInt8.reduceToNat, Bool.and_eq_true, decide_eq_true_eq]
    omega
  split
  · next h2 =>
    have := hed h2
    simp only [UInt8.le_iff_toNat_le, hb, UInt8.reduceToNat, Bool.and_eq_true, decide_eq_true_eq]
    omega
  split
  · next h3 =>
    have := hf0 h3
    simp only [UInt8.le_iff_toNat_le, hb, UInt8.reduceToNat, Bool.and_eq_true, decide_eq_true_eq]
    omega
  split
  · next h4 =>
    have := hf4 h4
    simp only [UInt8.le_iff_toNat_le, hb, UInt8.reduceToNat, Bool.and_eq_true, decide_eq_true_eq]
    omega
  · exact isContinuation_ofNat hy

theorem decodeHead?_three {x y z : Nat} (hx : x < 16) (hy : y < 64) (hz : z < 64)
    (shortest : x = 0 → 32 ≤ y) (noSurrogate : x = 13 → y < 32) (rest : Bytes) :
    decodeHead? (UInt8.ofNat (x + 0xe0) :: UInt8.ofNat (y + 0x80) :: UInt8.ofNat (z + 0x80) ::
      rest) =
      some (Char.ofNat (x * 4096 + y * 64 + z), 2) := by
  have hb := toNat_ofNat_add (n := x) (k := 0xe0) (by omega)
  have hlead : ∀ {b : UInt8}, UInt8.ofNat (x + 0xe0) = b → x + 0xe0 = b.toNat := by
    rintro b rfl
    exact hb.symm
  have h1 : ¬ UInt8.ofNat (x + 0xe0) < 0x80 := by
    simp only [UInt8.lt_iff_toNat_lt, hb, UInt8.reduceToNat]
    omega
  have h2 : ¬ (0xc2 ≤ UInt8.ofNat (x + 0xe0) && UInt8.ofNat (x + 0xe0) ≤ 0xdf) = true := by
    simp only [UInt8.le_iff_toNat_le, hb, UInt8.reduceToNat, Bool.and_eq_true, decide_eq_true_eq]
    omega
  have h3 : (0xe0 ≤ UInt8.ofNat (x + 0xe0) && UInt8.ofNat (x + 0xe0) ≤ 0xef) = true := by
    simp only [UInt8.le_iff_toNat_le, hb, UInt8.reduceToNat, Bool.and_eq_true, decide_eq_true_eq]
    omega
  have h4 : admitsSecond (UInt8.ofNat (x + 0xe0)) (UInt8.ofNat (y + 0x80)) = true := by
    refine admitsSecond_ofNat hy ?_ ?_ ?_ ?_
    all_goals
      intro h
      have := hlead h
      simp only [UInt8.reduceToNat] at this
      omega
  simp only [decodeHead?, h1, h2, h3, h4, isContinuation_ofNat hz, low_ofNat hy, low_ofNat hz, hb,
    Bool.and_true, Bool.false_eq_true, if_true, if_false]
  have hx16 : (x + 0xe0) % 0x10 = x := by omega
  rw [hx16]

theorem decodeHead?_four {w x y z : Nat} (hw : w ≤ 4) (hx : x < 64) (hy : y < 64) (hz : z < 64)
    (shortest : w = 0 → 16 ≤ x) (inRange : w = 4 → x < 16) (rest : Bytes) :
    decodeHead? (UInt8.ofNat (w + 0xf0) :: UInt8.ofNat (x + 0x80) :: UInt8.ofNat (y + 0x80) ::
      UInt8.ofNat (z + 0x80) :: rest) =
      some (Char.ofNat (w * 262144 + x * 4096 + y * 64 + z), 3) := by
  have hb := toNat_ofNat_add (n := w) (k := 0xf0) (by omega)
  have hlead : ∀ {b : UInt8}, UInt8.ofNat (w + 0xf0) = b → w + 0xf0 = b.toNat := by
    rintro b rfl
    exact hb.symm
  have h1 : ¬ UInt8.ofNat (w + 0xf0) < 0x80 := by
    simp only [UInt8.lt_iff_toNat_lt, hb, UInt8.reduceToNat]
    omega
  have h2 : ¬ (0xc2 ≤ UInt8.ofNat (w + 0xf0) && UInt8.ofNat (w + 0xf0) ≤ 0xdf) = true := by
    simp only [UInt8.le_iff_toNat_le, hb, UInt8.reduceToNat, Bool.and_eq_true, decide_eq_true_eq]
    omega
  have h3 : ¬ (0xe0 ≤ UInt8.ofNat (w + 0xf0) && UInt8.ofNat (w + 0xf0) ≤ 0xef) = true := by
    simp only [UInt8.le_iff_toNat_le, hb, UInt8.reduceToNat, Bool.and_eq_true, decide_eq_true_eq]
    omega
  have h4 : (0xf0 ≤ UInt8.ofNat (w + 0xf0) && UInt8.ofNat (w + 0xf0) ≤ 0xf4) = true := by
    simp only [UInt8.le_iff_toNat_le, hb, UInt8.reduceToNat, Bool.and_eq_true, decide_eq_true_eq]
    omega
  have h5 : admitsSecond (UInt8.ofNat (w + 0xf0)) (UInt8.ofNat (x + 0x80)) = true := by
    refine admitsSecond_ofNat hx ?_ ?_ ?_ ?_
    all_goals
      intro h
      have := hlead h
      simp only [UInt8.reduceToNat] at this
      omega
  simp only [decodeHead?, h1, h2, h3, h4, h5, isContinuation_ofNat hy, isContinuation_ofNat hz,
    low_ofNat hx, low_ofNat hy, low_ofNat hz, hb, Bool.and_true, Bool.false_eq_true, if_true,
    if_false]
  have hw8 : (w + 0xf0) % 0x8 = w := by omega
  rw [hw8]

/-- **The bytes of a character are read as the character**, whatever follows them. -/
theorem decodeHead?_utf8EncodeChar (c : Char) (rest : Bytes) :
    decodeHead? (String.utf8EncodeChar c ++ rest) =
      some (c, (String.utf8EncodeChar c).length - 1) := by
  have back : ∀ {n}, c.toNat = n → Char.ofNat n = c := by
    rintro n rfl
    exact Char.ofNat_toNat c
  rcases utf8EncodeChar_cases c with ⟨hc, he⟩ | ⟨x, y, hx, hx', hy, hn, he⟩ |
    ⟨x, y, z, hx, hy, hz, h0, h13, hn, he⟩ | ⟨w, x, y, z, hw, hx, hy, hz, h0, h4, hn, he⟩
  · have hb : (UInt8.ofNat c.toNat).toNat = c.toNat :=
      UInt8.toNat_ofNat_of_lt' (by show c.toNat < 256; omega)
    have h1 : UInt8.ofNat c.toNat < 0x80 := by
      simp only [UInt8.lt_iff_toNat_lt, hb, UInt8.reduceToNat]
      omega
    rw [he]
    simp only [List.cons_append, decodeHead?, h1, if_true, hb, back rfl]
    rfl
  · rw [he, ← back hn]
    exact decodeHead?_two hx hx' hy rest
  · rw [he, ← back hn]
    exact decodeHead?_three hx hy hz h0 h13 rest
  · rw [he, ← back hn]
    exact decodeHead?_four hw hx hy hz h0 h4 rest

/-! ## 3. Texts -/

/-- The bytes that are skipped may as well be left out. -/
theorem decodeFrom_append (bs rest : Bytes) :
    decodeFrom bs.length (bs ++ rest) = decodeFrom 0 rest := by
  induction bs with
  | nil => rfl
  | cons b bs ih =>
    rw [List.length_cons, List.cons_append, decodeFrom, ih]

theorem decodeFrom_utf8EncodeChar (c : Char) (rest : Bytes) :
    decodeFrom 0 (String.utf8EncodeChar c ++ rest) = c :: decodeFrom 0 rest := by
  have hhead := decodeHead?_utf8EncodeChar c rest
  cases he : String.utf8EncodeChar c with
  | nil => exact absurd he String.utf8EncodeChar_ne_nil
  | cons b bs =>
    rw [he, List.cons_append] at hhead
    rw [List.cons_append, decodeFrom, hhead]
    exact congrArg (c :: ·) (decodeFrom_append bs rest)

/-- **The bytes of a text are read as the text.** -/
theorem decodeLossy_utf8 (s : String) : decodeLossy (utf8 s) = s := by
  have chars : ∀ cs : List Char, decodeFrom 0 (cs.flatMap String.utf8EncodeChar) = cs := by
    intro cs
    induction cs with
    | nil => rfl
    | cons c cs ih => rw [List.flatMap_cons, decodeFrom_utf8EncodeChar, ih]
  rw [decodeLossy, utf8, chars, String.ofList_toList]

end SolidityTree.Utf8
