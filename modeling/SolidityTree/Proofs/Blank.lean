import Mathlib.Data.List.Basic
import SolidityTree.Text.Blank
import SolidityTree.Text.Bytes

/-!
# What trimming removes

White space is a matter of characters, trimming one of bytes.  `characters` lists the characters,
`White w` says that a text consists of them, and `Trimmed t` that a text neither begins nor ends
with one.  Nothing in these three mentions trimming.

* `exists_white`: trimming takes white space off both ends;
* `trimmed_trim`: it leaves none there, whatever the text is;
* `trim_of_trimmed`: it leaves a text alone that has none there;
* `trim_around`: it takes ALL of the white space off around a text whose first and last bytes are
  `Solid`.  These are the bytes that can be no part of white space, and every mark that JSON and
  headers begin or end with is one of them.

Trimming at the end is trimming at the head of the reversed text, with the sequences read
backwards; so what is said of `dropWith` is said for any two tests.

Contents
* §1  characters and sequences
* §2  dropping at the head
* §3  trimming
-/

namespace SolidityTree.Blank

/-! ## 1. Characters and sequences -/

/-- The white-space characters. -/
def characters : List Char :=
  [0x09, 0x0a, 0x0b, 0x0c, 0x0d, 0x20, 0x85, 0xa0, 0x1680, 0x2000, 0x2001, 0x2002, 0x2003, 0x2004,
    0x2005, 0x2006, 0x2007, 0x2008, 0x2009, 0x200a, 0x2028, 0x2029, 0x202f, 0x205f, 0x3000].map
    Char.ofNat

/-- A text of white space. -/
def White (w : Bytes) : Prop :=
  ∃ cs : List Char, (∀ c ∈ cs, c ∈ characters) ∧ w = cs.flatMap String.utf8EncodeChar

/-- **No white space at either end.** -/
structure Trimmed (t : Bytes) : Prop where
  first : ∀ c ∈ characters, ¬ String.utf8EncodeChar c <+: t
  last : ∀ c ∈ characters, ¬ String.utf8EncodeChar c <:+ t

theorem trimmed_iff {t : Bytes} : Trimmed t ↔
    ∀ s ∈ characters.map String.utf8EncodeChar, ¬ s <+: t ∧ ¬ s <:+ t := by
  rw [List.forall_mem_map]
  exact ⟨fun h c hc => ⟨h.first c hc, h.last c hc⟩,
    fun h => ⟨fun c hc => (h c hc).1, fun c hc => (h c hc).2⟩⟩

instance (t : Bytes) : Decidable (Trimmed t) := decidable_of_iff _ trimmed_iff.symm

/-- What holds of every number below 256 holds of every byte. -/
theorem forall_byte {P : UInt8 → Prop} (h : ∀ n : Fin 256, P (UInt8.ofNat n)) (b : UInt8) : P b := by
  have hb := h ⟨b.toNat, b.toNat_lt⟩
  rwa [UInt8.ofNat_toNat] at hb

theorem exists_of_isOne {b : UInt8} (h : isOne b = true) :
    ∃ c ∈ characters, String.utf8EncodeChar c = [b] := by
  rw [← List.mem_map]
  revert h
  refine forall_byte (P := fun b => isOne b = true →
    [b] ∈ characters.map String.utf8EncodeChar) ?_ b
  decide +kernel

theorem exists_of_isTwo {b c : UInt8} (h : isTwo b c = true) :
    ∃ x ∈ characters, String.utf8EncodeChar x = [b, c] := by
  simp only [isTwo, Bool.and_eq_true, Bool.or_eq_true, decide_eq_true_eq] at h
  obtain ⟨rfl, rfl | rfl⟩ := h
  · exact ⟨Char.ofNat 0x85, by decide +kernel, by decide⟩
  · exact ⟨Char.ofNat 0xa0, by decide +kernel, by decide⟩

theorem exists_of_isThree {b c d : UInt8} (h : isThree b c d = true) :
    ∃ x ∈ characters, String.utf8EncodeChar x = [b, c, d] := by
  -- the third bytes that may follow U+2000's first two
  have spaces : ∀ d : UInt8, ((0x80 ≤ d && d ≤ 0x8a) || d = 0xa8 || d = 0xa9 || d = 0xaf) = true →
      [0xe2, 0x80, d] ∈ characters.map String.utf8EncodeChar :=
    forall_byte (by decide +kernel)
  simp only [isThree, Bool.or_eq_true, Bool.and_eq_true, decide_eq_true_eq] at h
  rcases h with ((⟨⟨rfl, rfl⟩, rfl⟩ | ⟨⟨rfl, rfl⟩, hd⟩) | ⟨⟨rfl, rfl⟩, rfl⟩) | ⟨⟨rfl, rfl⟩, rfl⟩
  · exact ⟨Char.ofNat 0x1680, by decide +kernel, by decide⟩
  · exact List.mem_map.mp (spaces d (by simpa using hd))
  · exact ⟨Char.ofNat 0x205f, by decide +kernel, by decide⟩
  · exact ⟨Char.ofNat 0x3000, by decide +kernel, by decide⟩

/-! ## 2. Dropping at the head -/

section DropWith

variable {two : UInt8 → UInt8 → Bool} {three : UInt8 → UInt8 → UInt8 → Bool}

/-- The texts that dropping removes as a whole. -/
inductive Dropped (two : UInt8 → UInt8 → Bool) (three : UInt8 → UInt8 → UInt8 → Bool) :
    Bytes → Prop
  | nil : Dropped two three []
  | one {b : UInt8} {w : Bytes} : isOne b = true → Dropped two three w → Dropped two three (b :: w)
  | two {b c : UInt8} {w : Bytes} :
      two b c = true → Dropped two three w → Dropped two three (b :: c :: w)
  | three {b c d : UInt8} {w : Bytes} :
      three b c d = true → Dropped two three w → Dropped two three (b :: c :: d :: w)

theorem exists_dropped (two : UInt8 → UInt8 → Bool) (three : UInt8 → UInt8 → UInt8 → Bool)
    (bs : Bytes) : ∃ w, Dropped two three w ∧ bs = w ++ dropWith two three bs := by
  fun_induction dropWith two three bs with
  | case1 => exact ⟨[], .nil, rfl⟩
  | case2 b rest hb ih =>
    obtain ⟨w, hw, heq⟩ := ih
    exact ⟨b :: w, .one hb hw, congrArg (b :: ·) heq⟩
  | case3 b _ => exact ⟨[], .nil, rfl⟩
  | case4 b _ c rest h ih =>
    obtain ⟨w, hw, heq⟩ := ih
    exact ⟨b :: c :: w, .two h hw, congrArg (b :: c :: ·) heq⟩
  | case5 b _ c _ => exact ⟨[], .nil, rfl⟩
  | case6 b _ c _ d rest h ih =>
    obtain ⟨w, hw, heq⟩ := ih
    exact ⟨b :: c :: d :: w, .three h hw, congrArg (b :: c :: d :: ·) heq⟩
  | case7 => exact ⟨[], .nil, rfl⟩

/-- A text that begins with no white space is left alone. -/
theorem dropWith_eq_self {bs : Bytes} (h1 : ∀ b rest, bs = b :: rest → isOne b = false)
    (h2 : ∀ b c rest, bs = b :: c :: rest → two b c = false)
    (h3 : ∀ b c d rest, bs = b :: c :: d :: rest → three b c d = false) :
    dropWith two three bs = bs := by
  match bs with
  | [] => rfl
  | [b] => simp [dropWith, h1 b [] rfl]
  | [b, c] => simp [dropWith, h1 b _ rfl, h2 b c [] rfl]
  | b :: c :: d :: rest => simp [dropWith, h1 b _ rfl, h2 b c _ rfl, h3 b c d rest rfl]

/-- Whether some bytes are dropped together, and no fewer of them. -/
def isSequence (two : UInt8 → UInt8 → Bool) (three : UInt8 → UInt8 → UInt8 → Bool) : Bytes → Bool
  | [b] => isOne b
  | [b, c] => !isOne b && two b c
  | [b, c, d] => !isOne b && !two b c && three b c d
  | _ => false

theorem dropWith_sequence {s : Bytes} (h : isSequence two three s = true) (rest : Bytes) :
    dropWith two three (s ++ rest) = dropWith two three rest := by
  match s, h with
  | [b], h =>
    rw [List.singleton_append, dropWith.eq_def]
    simp [show isOne b = true from h]
  | [b, c], h =>
    simp only [isSequence, Bool.and_eq_true, Bool.not_eq_true'] at h
    rw [List.cons_append, List.singleton_append, dropWith.eq_def]
    simp [h.1, h.2]
  | [b, c, d], h =>
    simp only [isSequence, Bool.and_eq_true, Bool.not_eq_true'] at h
    rw [List.cons_append, List.cons_append, List.singleton_append, dropWith.eq_def]
    simp [h.1.1, h.1.2, h.2]

/-- What was dropped once is not dropped again. -/
theorem dropWith_dropWith (bs : Bytes) :
    dropWith two three (dropWith two three bs) = dropWith two three bs := by
  fun_induction dropWith two three bs with
  | case1 => rfl
  | case2 _ _ _ ih | case4 _ _ _ _ _ ih | case6 _ _ _ _ _ _ _ ih => exact ih
  | case3 b hb => simp [dropWith, hb]
  | case5 b hb c hc => simp [dropWith, hb, hc]
  | case7 b hb c hc d rest hd => simp [dropWith, hb, hc, hd]

/-- What is left begins with no sequence: dropping it would leave less. -/
theorem not_prefix_dropWith {s : Bytes} (h : isSequence two three s = true) (bs : Bytes) :
    ¬ s <+: dropWith two three bs := by
  rintro ⟨rest, hrest⟩
  have hsame : dropWith two three rest = s ++ rest := by
    rw [← dropWith_sequence h rest, hrest, dropWith_dropWith]
  obtain ⟨w, -, heq⟩ := exists_dropped two three rest
  rw [hsame] at heq
  have hlength := congrArg List.length heq
  have hne : s ≠ [] := by
    rintro rfl
    cases h
  have hpos : 0 < s.length := List.length_pos_iff.mpr hne
  simp only [List.length_append] at hlength
  omega

end DropWith

/-! ## 3. Trimming -/

theorem White.nil : White [] := ⟨[], by simp, rfl⟩

theorem White.append {w w' : Bytes} (h : White w) (h' : White w') : White (w ++ w') := by
  obtain ⟨cs, hcs, rfl⟩ := h
  obtain ⟨cs', hcs', rfl⟩ := h'
  refine ⟨cs ++ cs', ?_, by rw [List.flatMap_append]⟩
  intro c hc
  rcases List.mem_append.mp hc with hc | hc
  · exact hcs c hc
  · exact hcs' c hc

theorem white_of_mem {c : Char} (h : c ∈ characters) : White (String.utf8EncodeChar c) :=
  ⟨[c], by simpa using h, by simp⟩

/-- The byte of one white-space character. -/
theorem white_of_isOne {b : UInt8} (h : isOne b = true) : White [b] := by
  obtain ⟨c, hc, he⟩ := exists_of_isOne h
  rw [← he]
  exact white_of_mem hc

theorem white_of_dropped {w : Bytes} (h : Dropped isTwo isThree w) : White w := by
  induction h with
  | nil => exact .nil
  | one hb _ ih => exact (white_of_isOne hb).append ih
  | two hb _ ih =>
    obtain ⟨c, hc, he⟩ := exists_of_isTwo hb
    exact (he ▸ white_of_mem hc).append ih
  | three hb _ ih =>
    obtain ⟨c, hc, he⟩ := exists_of_isThree hb
    exact (he ▸ white_of_mem hc).append ih

/-- The sequences read backwards. -/
theorem white_of_dropped_reverse {w : Bytes}
    (h : Dropped (fun c b => isTwo b c) (fun d c b => isThree b c d) w) : White w.reverse := by
  induction h with
  | nil => exact .nil
  | one hb _ ih =>
    rw [List.reverse_cons]
    exact ih.append (white_of_isOne hb)
  | two hb _ ih =>
    obtain ⟨c, hc, he⟩ := exists_of_isTwo hb
    rw [List.reverse_cons, List.reverse_cons, List.append_assoc, List.singleton_append, ← he]
    exact ih.append (white_of_mem hc)
  | three hb _ ih =>
    obtain ⟨c, hc, he⟩ := exists_of_isThree hb
    rw [List.reverse_cons, List.reverse_cons, List.reverse_cons, List.append_assoc,
      List.append_assoc, List.singleton_append, List.singleton_append, ← he]
    exact ih.append (white_of_mem hc)

/-- **Trimming takes white space off both ends.** -/
theorem exists_white (bs : Bytes) : ∃ w w', White w ∧ White w' ∧ bs = w ++ (trim bs ++ w') := by
  obtain ⟨w, hw, hstart⟩ := exists_dropped isTwo isThree bs
  obtain ⟨w', hw', hend⟩ := exists_dropped (fun c b => isTwo b c)
    (fun d c b => isThree b c d) (trimStart bs).reverse
  have hback := congrArg List.reverse hend
  rw [List.reverse_reverse, List.reverse_append] at hback
  refine ⟨w, w'.reverse, white_of_dropped hw, white_of_dropped_reverse hw', ?_⟩
  exact hstart.trans (congrArg (w ++ ·) hback)

/-- **A text without white space at its ends is left alone.** -/
theorem trim_of_trimmed {t : Bytes} (h : Trimmed t) : trim t = t := by
  have hstart : trimStart t = t := by
    refine dropWith_eq_self ?_ ?_ ?_
    · rintro b rest rfl
      by_contra hb
      obtain ⟨c, hc, he⟩ := exists_of_isOne (b := b) (by simpa using hb)
      exact h.first c hc ⟨rest, by rw [he]; rfl⟩
    · rintro b c rest rfl
      by_contra hb
      obtain ⟨x, hx, he⟩ := exists_of_isTwo (b := b) (c := c) (by simpa using hb)
      exact h.first x hx ⟨rest, by rw [he]; rfl⟩
    · rintro b c d rest rfl
      by_contra hb
      obtain ⟨x, hx, he⟩ := exists_of_isThree (b := b) (c := c) (d := d) (by simpa using hb)
      exact h.first x hx ⟨rest, by rw [he]; rfl⟩
  have hend : trimEnd t = t := by
    have back : ∀ {rest : Bytes} {s : Bytes}, t.reverse = s.reverse ++ rest → t = rest.reverse ++ s := by
      intro rest s heq
      have := congrArg List.reverse heq
      simpa using this
    unfold trimEnd
    rw [dropWith_eq_self, List.reverse_reverse]
    · intro b rest heq
      by_contra hb
      obtain ⟨c, hc, he⟩ := exists_of_isOne (b := b) (by simpa using hb)
      exact h.last c hc ⟨rest.reverse, by rw [he]; exact (back (s := [b]) heq).symm⟩
    · intro c b rest heq
      by_contra hb
      obtain ⟨x, hx, he⟩ := exists_of_isTwo (b := b) (c := c) (by simpa using hb)
      exact h.last x hx ⟨rest.reverse, by rw [he]; exact (back (s := [b, c]) heq).symm⟩
    · intro d c b rest heq
      by_contra hb
      obtain ⟨x, hx, he⟩ := exists_of_isThree (b := b) (c := c) (d := d) (by simpa using hb)
      exact h.last x hx ⟨rest.reverse, by rw [he]; exact (back (s := [b, c, d]) heq).symm⟩
  rw [trim, hstart, hend]

theorem isSequence_encode : ∀ c ∈ characters,
    isSequence isTwo isThree (String.utf8EncodeChar c) = true :=
  List.all_eq_true.mp (by decide +kernel)

theorem isSequence_encode_reverse : ∀ c ∈ characters,
    isSequence (fun c b => isTwo b c) (fun d c b => isThree b c d)
      (String.utf8EncodeChar c).reverse = true :=
  List.all_eq_true.mp (by decide +kernel)

/-- White space at the head is dropped as a whole. -/
theorem dropWith_white {w : Bytes} (h : White w) (rest : Bytes) :
    dropWith isTwo isThree (w ++ rest) = dropWith isTwo isThree rest := by
  obtain ⟨cs, hcs, rfl⟩ := h
  induction cs with
  | nil => rfl
  | cons c cs ih =>
    rw [List.flatMap_cons, List.append_assoc,
      dropWith_sequence (isSequence_encode c (hcs c List.mem_cons_self)),
      ih fun c' hc' => hcs c' (List.mem_cons_of_mem c hc')]

/-- White space at the end is dropped as a whole from the reversed text. -/
theorem dropWith_white_reverse {w : Bytes} (h : White w) (rest : Bytes) :
    dropWith (fun c b => isTwo b c) (fun d c b => isThree b c d) (w.reverse ++ rest) =
      dropWith (fun c b => isTwo b c) (fun d c b => isThree b c d) rest := by
  obtain ⟨cs, hcs, rfl⟩ := h
  induction cs generalizing rest with
  | nil => rfl
  | cons c cs ih =>
    rw [List.flatMap_cons, List.reverse_append, List.append_assoc,
      ih _ fun c' hc' => hcs c' (List.mem_cons_of_mem c hc'),
      dropWith_sequence (isSequence_encode_reverse c (hcs c List.mem_cons_self))]

/-- **Nothing of the white space is left at the ends.** -/
theorem trimmed_trim (bs : Bytes) : Trimmed (trim bs) := by
  obtain ⟨w, -, hend⟩ := exists_dropped (fun c b => isTwo b c) (fun d c b => isThree b c d)
    (trimStart bs).reverse
  have hfront : trimStart bs = trim bs ++ w.reverse := by
    have := congrArg List.reverse hend
    rwa [List.reverse_reverse, List.reverse_append] at this
  constructor
  · intro c hc hpre
    -- what is left at the end is still the head of what was left at the head
    refine not_prefix_dropWith (isSequence_encode c hc) bs ?_
    exact hpre.trans ⟨w.reverse, hfront.symm⟩
  · intro c hc hsuf
    refine not_prefix_dropWith (isSequence_encode_reverse c hc) (trimStart bs).reverse ?_
    have := List.reverse_prefix.mpr hsuf
    rwa [trim, trimEnd, List.reverse_reverse] at this

/-- Trimming leaves nothing of white space, and only of that. -/
theorem trim_eq_nil_iff {bs : Bytes} : trim bs = [] ↔ White bs := by
  constructor
  · intro h
    obtain ⟨w, w', hw, hw', heq⟩ := exists_white bs
    rw [heq, h, List.nil_append]
    exact hw.append hw'
  · intro h
    have hstart : trimStart bs = [] := by
      have := dropWith_white h []
      rwa [List.append_nil] at this
    rw [trim, hstart]
    rfl

theorem lt_of_isOne {b : UInt8} (h : isOne b = true) : b < 0x80 :=
  forall_byte (P := fun b => isOne b = true → b < 0x80) (by decide +kernel) b h

/-- The sequences of two and three bytes have no byte below 0x80. -/
theorem isTwo_of_low {b : UInt8} (h : b < 0x80) (c : UInt8) :
    isTwo b c = false ∧ isTwo c b = false := by
  have high : ∀ b : UInt8, b < 0x80 → b ≠ 0xc2 ∧ b ≠ 0x85 ∧ b ≠ 0xa0 :=
    forall_byte (by decide +kernel)
  obtain ⟨h1, h2, h3⟩ := high b h
  simp [isTwo, h1, h2, h3]

theorem isThree_of_low {b : UInt8} (h : b < 0x80) (c d : UInt8) :
    isThree b c d = false ∧ isThree d c b = false := by
  have high : ∀ b : UInt8, b < 0x80 → b ≠ 0xe1 ∧ b ≠ 0xe2 ∧ b ≠ 0xe3 ∧ b ≠ 0x80 ∧ b ≠ 0x9f ∧
      ((0x80 ≤ b && b ≤ 0x8a) || b = 0xa8 || b = 0xa9 || b = 0xaf) = false :=
    forall_byte (by decide +kernel)
  obtain ⟨h1, h2, h3, h4, h5, h6⟩ := high b h
  constructor
  · simp [isThree, h1, h2, h3]
  · simp [isThree, h4, h5, h6]

/-- A white-space byte at the end is dropped at the head only if all of the text is. -/
theorem trimStart_append_one {b : UInt8} (hb : isOne b = true) (bs : Bytes) :
    trimStart (bs ++ [b]) = if trimStart bs = [] then [] else trimStart bs ++ [b] := by
  have low := lt_of_isOne hb
  have two : ∀ c, isTwo c b = false := fun c => (isTwo_of_low low c).2
  have three : ∀ c d, isThree c d b = false := fun c d => (isThree_of_low low d c).2
  unfold trimStart
  fun_induction dropWith isTwo isThree bs with
  | case1 => simp [dropWith, hb]
  | case2 c rest hc ih =>
    rw [List.cons_append, dropWith.eq_def]
    simpa [hc] using ih
  | case3 c hc => simp [dropWith, hc, two]
  | case4 c hc d rest hd ih =>
    rw [List.cons_append, List.cons_append, dropWith.eq_def]
    simpa [hc, hd] using ih
  | case5 c hc d hd => simp [dropWith, hc, hd, three]
  | case6 c hc d hd e rest he ih => simpa [dropWith, hc, hd, he] using ih
  | case7 c hc d hd e rest he => simp [dropWith, hc, hd, he]

/-- A white-space byte behind a text makes no difference. -/
theorem trim_append_one {b : UInt8} (hb : isOne b = true) (bs : Bytes) :
    trim (bs ++ [b]) = trim bs := by
  rw [trim, trim, trimStart_append_one hb]
  split
  · next h => rw [h]
  · rw [trimEnd, trimEnd, List.reverse_append, dropWith_white_reverse (white_of_isOne hb)]

/-- A byte that is no part of white space. -/
def Solid (b : UInt8) : Prop := b < 0x80 ∧ isOne b = false

instance (b : UInt8) : Decidable (Solid b) := inferInstanceAs (Decidable (_ ∧ _))

theorem Solid.not_isTwo {b : UInt8} (h : Solid b) (c : UInt8) :
    isTwo b c = false ∧ isTwo c b = false := isTwo_of_low h.1 c

theorem Solid.not_isThree {b : UInt8} (h : Solid b) (c d : UInt8) :
    isThree b c d = false ∧ isThree d c b = false := isThree_of_low h.1 c d

/-- At the head of a text that begins with a solid byte nothing is dropped. -/
theorem trimStart_white {w rest : Bytes} {b : UInt8} (hw : White w) (hb : Solid b) :
    trimStart (w ++ b :: rest) = b :: rest := by
  rw [trimStart, dropWith_white hw, dropWith_eq_self]
  · rintro b' rest' ⟨⟩
    exact hb.2
  · rintro b' c rest' ⟨⟩
    exact (hb.not_isTwo c).1
  · rintro b' c d rest' ⟨⟩
    exact (hb.not_isThree c d).1

theorem trimEnd_white {w front : Bytes} {b : UInt8} (hw : White w) (hb : Solid b) :
    trimEnd (front ++ [b] ++ w) = front ++ [b] := by
  rw [trimEnd, List.reverse_append, dropWith_white_reverse hw, dropWith_eq_self,
    List.reverse_reverse]
  all_goals rw [List.reverse_append, List.reverse_singleton, List.singleton_append]
  · intro b' rest' heq
    obtain ⟨rfl, -⟩ := List.cons.inj heq
    exact hb.2
  · intro b' c rest' heq
    obtain ⟨rfl, -⟩ := List.cons.inj heq
    exact (hb.not_isTwo c).2
  · intro b' c d rest' heq
    obtain ⟨rfl, -⟩ := List.cons.inj heq
    exact (hb.not_isThree c d).2

/-- A text whose first and last bytes are solid. -/
structure SolidEnds (t : Bytes) : Prop where
  first : ∃ b rest, t = b :: rest ∧ Solid b
  last : ∃ front b, t = front ++ [b] ∧ Solid b

/-- **All of the white space around a text is taken off.** -/
theorem trim_around {w w' t : Bytes} (hw : White w) (hw' : White w') (ht : SolidEnds t) :
    trim (w ++ (t ++ w')) = t := by
  obtain ⟨b, rest, hfirst, hb⟩ := ht.first
  obtain ⟨front, b', hlast, hb'⟩ := ht.last
  have hstart : trimStart (w ++ (t ++ w')) = t ++ w' := by
    rw [hfirst, List.cons_append]
    exact trimStart_white hw hb
  rw [trim, hstart, hlast]
  exact trimEnd_white hw' hb'

/-- Such a text has no white space at its ends. -/
theorem SolidEnds.trimmed {t : Bytes} (h : SolidEnds t) : Trimmed t := by
  have first : ∀ c ∈ characters, (String.utf8EncodeChar c).head?.any (¬ Solid ·) = true :=
    List.all_eq_true.mp (by decide +kernel)
  have last : ∀ c ∈ characters, (String.utf8EncodeChar c).getLast?.any (¬ Solid ·) = true :=
    List.all_eq_true.mp (by decide +kernel)
  obtain ⟨b, rest, hfirst, hb⟩ := h.first
  obtain ⟨front, b', hlast, hb'⟩ := h.last
  constructor
  · rintro c hc ⟨s, hs⟩
    have h1 := first c hc
    cases he : String.utf8EncodeChar c with
    | nil => simp [he] at h1
    | cons x xs =>
      rw [he, hfirst] at hs
      obtain ⟨rfl, -⟩ := List.cons.inj hs
      simp [he, hb] at h1
  · rintro c hc ⟨s, hs⟩
    have h1 := last c hc
    rcases List.eq_nil_or_concat' (String.utf8EncodeChar c) with he | ⟨xs, x, he⟩
    · simp [he] at h1
    · rw [he, hlast, ← List.append_assoc] at hs
      obtain ⟨-, heq⟩ := List.append_inj' hs rfl
      obtain ⟨rfl, -⟩ := List.cons.inj heq
      simp [he, hb'] at h1

end SolidityTree.Blank
