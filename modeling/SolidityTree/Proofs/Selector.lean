import SolidityTree.Selector

/-!
# Which texts are selectors

Reading a selector goes over the bytes of a text in pairs.  Seen from its result it is simpler: a
text is read as the selector whose written form, `0x` apart, is the text in LOWER CASE
(`WrittenBy`), and no other text is read at all (`ofText_eq_ok_iff`).

A character is a digit or it is not (`digit_or_not`), and everything here is said through these
two cases; a character of several bytes is no digit, and already its first byte tells.
-/

namespace SolidityTree.Selector

/-- `WrittenBy s text`: the selector `s` is written by the eight digits of `text`, in either case. -/
def WrittenBy (s : Selector) (text : String) : Prop := s.text = "0x" ++ text.toLower

theorem writtenBy_iff {s : Selector} {text : String} :
    s.WrittenBy text ↔ text.toList.map Char.toLower = s.bytes.flatMap hexByte := by
  have lower : text.toLower = text.map Char.toLower := rfl
  rw [WrittenBy, ← String.toList_inj, lower]
  simp only [Selector.text, String.toList_ofList, String.toList_append, String.toList_map]
  exact ⟨fun h => (List.cons.inj (List.cons.inj h).2).2.symm, fun h => by rw [h]; rfl⟩

/-! ## 1. Digits -/

theorem hexDigit_injective {k l : Nat} (hk : k < 16) (hl : l < 16) (h : hexDigit k = hexDigit l) :
    k = l := by
  have all : ∀ k l : Fin 16, hexDigit k = hexDigit l → k = l := by decide +kernel
  exact Fin.mk.inj_iff.mp (all ⟨k, hk⟩ ⟨l, hl⟩ h)

theorem hexValue?_lt {b : UInt8} {k : Nat} (h : hexValue? b = some k) : k < 16 := by
  have all : ∀ n : Fin 256, ∀ k ∈ hexValue? (UInt8.ofNat n), k < 16 := by decide +kernel
  have := all ⟨b.toNat, b.toNat_lt⟩ k
  rw [UInt8.ofNat_toNat] at this
  exact this h

/-- No byte of a character beyond ASCII is a digit; here the first one. -/
theorem hexValue?_head_of_not_ascii {c : Char} (h : 0x80 ≤ c.toNat) :
    ∃ b rest, String.utf8EncodeChar c = b :: rest ∧ hexValue? b = none := by
  have high : ∀ n : Fin 256, 0x80 ≤ n.val → hexValue? (UInt8.ofNat n) = none := by decide +kernel
  rw [Char.toNat] at h
  unfold String.utf8EncodeChar
  simp only []
  split
  · omega
  · split
    · exact ⟨_, _, rfl, high ⟨c.val.toNat / 64 % 0x20 + 0xc0, by omega⟩ (by simp)⟩
    · split
      · exact ⟨_, _, rfl, high ⟨c.val.toNat / 4096 % 0x10 + 0xe0, by omega⟩ (by simp)⟩
      · exact ⟨_, _, rfl, high ⟨c.val.toNat / 262144 % 0x08 + 0xf0, by omega⟩ (by simp)⟩

theorem toLower_ne_hexDigit_of_not_ascii {c : Char} (h : 0x80 ≤ c.toNat) {k : Nat} (hk : k < 16) :
    c.toLower ≠ hexDigit k := by
  have ascii : ∀ k : Fin 16, (hexDigit k).toNat < 0x80 := by decide +kernel
  have hl : c.toLower = c := by
    unfold Char.toLower
    rw [dif_neg]
    rintro ⟨-, hle⟩
    rw [UInt32.le_iff_toNat_le] at hle
    have : c.toNat ≤ 90 := hle
    omega
  intro he
  have := ascii ⟨k, hk⟩
  rw [← he, hl] at this
  omega

/-- **A character is a digit or it is not.**  If it is, its one byte has the value of the digit
that it is in lower case; if it is not, already its first byte has none. -/
theorem digit_or_not (c : Char) :
    (∃ b k, k < 16 ∧ c.toLower = hexDigit k ∧ String.utf8EncodeChar c = [b] ∧
      hexValue? b = some k) ∨
    (∀ k < 16, c.toLower ≠ hexDigit k) ∧
      ∃ b rest, String.utf8EncodeChar c = b :: rest ∧ hexValue? b = none := by
  have table : ∀ n : Fin 128, ∀ k : Fin 16,
      hexValue? (UInt8.ofNat n) = some k.val ↔ (Char.ofNat n).toLower = hexDigit k := by
    decide +kernel
  rcases Nat.lt_or_ge c.toNat 0x80 with h | h
  · have he := utf8EncodeChar_of_ascii h
    have at_c : ∀ {k : Nat}, k < 16 →
        (hexValue? (UInt8.ofNat c.toNat) = some k ↔ c.toLower = hexDigit k) := by
      intro k hk
      have := table ⟨c.toNat, h⟩ ⟨k, hk⟩
      rwa [Char.ofNat_toNat] at this
    cases hv : hexValue? (UInt8.ofNat c.toNat) with
    | some k =>
      have hk := hexValue?_lt hv
      exact Or.inl ⟨_, k, hk, (at_c hk).mp hv, he, hv⟩
    | none =>
      refine Or.inr ⟨fun k hk hl => ?_, _, [], he, hv⟩
      rw [← at_c hk, hv] at hl
      cases hl
  · exact Or.inr ⟨fun k hk => toLower_ne_hexDigit_of_not_ascii h hk, hexValue?_head_of_not_ascii h⟩

/-! ## 2. Pairs -/

/-- The two digits of a byte are its quotient and remainder. -/
theorem hexByte_eq_iff {o : UInt8} {c d : Char} :
    hexByte o = [c, d] ↔ hexDigit (o.toNat / 16) = c ∧ hexDigit (o.toNat % 16) = d := by
  simp [hexByte]

theorem hexByte_pair {k l : Nat} (hk : k < 16) (hl : l < 16) :
    hexByte (k * 16 + l).toUInt8 = [hexDigit k, hexDigit l] := by
  have h : (k * 16 + l).toUInt8.toNat = k * 16 + l := by
    rw [Nat.toUInt8_eq, UInt8.toNat_ofNat']
    omega
  rw [hexByte_eq_iff, h]
  exact ⟨by congr 1; omega, by congr 1; omega⟩

/-- A byte is told by its two digits. -/
theorem eq_of_hexByte {o : UInt8} {k l : Nat} (hk : k < 16) (hl : l < 16)
    (h : hexByte o = [hexDigit k, hexDigit l]) : o = (k * 16 + l).toUInt8 := by
  obtain ⟨h1, h2⟩ := hexByte_eq_iff.mp h
  have ho := o.toNat_lt
  have hk' := hexDigit_injective (by omega) hk h1
  have hl' := hexDigit_injective (by omega) hl h2
  rw [← hk', ← hl', Nat.div_add_mod', Nat.toUInt8_eq, UInt8.ofNat_toNat]

/-- **The bytes that a text writes** are those whose digits are the text in lower case. -/
theorem readHex_eq_ok_iff : ∀ {cs : List Char} {out : Bytes},
    readHex (utf8 (.ofList cs)) = .ok out ↔ cs.map Char.toLower = out.flatMap hexByte
  | [], out => by
    cases out with
    | nil => simp [readHex]
    | cons o rest => simp [readHex, hexByte]
  | [c], out => by
    -- a digit left over is refused, and what bytes write has an even number of digits
    have hlen : [c.toLower] ≠ out.flatMap hexByte := by
      cases out <;> simp [hexByte]
    refine ⟨fun h => ?_, fun h => absurd h hlen⟩
    rw [utf8_ofList_cons] at h
    rcases digit_or_not c with ⟨b, k, -, -, he, -⟩ | ⟨-, b, rest, he, hb⟩
    · rw [he] at h
      cases h
    · rw [he] at h
      rcases rest with _ | ⟨b', rest⟩
      · cases h
      · simp [utf8, readHex, hb] at h
  | c :: d :: cs, out => by
    rw [utf8_ofList_cons, utf8_ofList_cons]
    rcases digit_or_not c with ⟨b, k, hk, hc, hec, hb⟩ | ⟨hc, b, rest, hec, hb⟩
    · rcases digit_or_not d with ⟨b', l, hl, hd, hed, hb'⟩ | ⟨hd, b', rest, hed, hb'⟩
      · rw [hec, hed]
        simp only [List.cons_append, List.nil_append, readHex, hb, hb', List.map_cons, hc, hd]
        constructor
        · intro h
          cases hr : readHex (utf8 (.ofList cs)) with
          | error e =>
            rw [hr] at h
            cases h
          | ok rest =>
            rw [hr] at h
            cases h
            rw [List.flatMap_cons, hexByte_pair hk hl, readHex_eq_ok_iff.mp hr]
            rfl
        · intro h
          cases out with
          | nil => cases h
          | cons o out =>
            rw [List.flatMap_cons] at h
            obtain ⟨h1, h2⟩ := List.cons.inj h
            obtain ⟨h3, h4⟩ := List.cons.inj h2
            have ho := eq_of_hexByte hk hl (hexByte_eq_iff.mpr ⟨h1.symm, h3.symm⟩)
            rw [readHex_eq_ok_iff.mpr h4, ho]
            rfl
      · rw [hec, hed]
        simp only [List.cons_append, List.nil_append, readHex, hb, hb']
        refine ⟨by rintro ⟨⟩, fun h => ?_⟩
        cases out with
        | nil => cases h
        | cons o out =>
          obtain ⟨-, h2⟩ := List.cons.inj h
          exact absurd (List.cons.inj h2).1 (hd _ (Nat.mod_lt _ (by omega)))
    · rw [hec]
      have hbad : readHex (b :: rest ++ (String.utf8EncodeChar d ++ utf8 (.ofList cs)))
          = .error .notHex := by
        have hne : rest ++ (String.utf8EncodeChar d ++ utf8 (.ofList cs)) ≠ [] := by
          intro h
          have hd := (List.append_eq_nil_iff.mp (List.append_eq_nil_iff.mp h).2).1
          have := congrArg List.length hd
          rw [String.length_utf8EncodeChar] at this
          exact absurd this (Nat.pos_iff_ne_zero.mp d.utf8Size_pos)
        obtain ⟨b', tail, ht⟩ := List.exists_cons_of_ne_nil hne
        rw [List.cons_append, ht]
        simp [readHex, hb]
      rw [hbad]
      refine ⟨by rintro ⟨⟩, fun h => ?_⟩
      cases out with
      | nil => cases h
      | cons o out =>
        have ho := o.toNat_lt
        exact absurd (List.cons.inj h).1 (hc _ (by omega))

/-! ## 3. Selectors -/

/-- **Exactly the written forms are read.**  A text is read as a selector if and only if it is the
eight digits of the selector, in either case. -/
theorem ofText_eq_ok_iff {text : String} {s : Selector} :
    ofText text = .ok s ↔ s.WrittenBy text := by
  have hu : utf8 text = utf8 (.ofList text.toList) := by rw [String.ofList_toList]
  rw [writtenBy_iff, ofText]
  constructor
  · intro h
    split at h
    · cases h
    · next out hr =>
      rw [hu] at hr
      split at h
      · cases h
        exact readHex_eq_ok_iff.mp hr
      · cases h
  · intro h
    rw [hu, readHex_eq_ok_iff.mpr h]
    simp [s.four]

/-- The digits of a selector are a written form of it. -/
theorem writtenBy_digits (s : Selector) : s.WrittenBy (.ofList (s.bytes.flatMap hexByte)) := by
  have lower : ∀ n : Fin 256,
      (hexByte (UInt8.ofNat n)).map Char.toLower = hexByte (UInt8.ofNat n) := by
    decide +kernel
  have hb : (fun b => (hexByte b).map Char.toLower) = hexByte := by
    funext b
    have := lower ⟨b.toNat, b.toNat_lt⟩
    rwa [UInt8.ofNat_toNat] at this
  rw [writtenBy_iff, String.toList_ofList, List.map_flatMap, hb]

end SolidityTree.Selector
