import Mathlib.Data.List.Forall2
import Mathlib.Data.List.TakeWhile
import SolidityTree.Json.Reader
import SolidityTree.Proofs.Member
import SolidityTree.Proofs.Utf8

/-!
# Values and their texts

A `Value` is what a JSON text says once the accidents of writing are taken away: truth values,
integers, texts, lists and objects.  `Denotes v w` says that the JSON value `v` says `w`; members
may stand in any order, and of several with one name the last counts.

Every value that is not nested too deeply has a text (`exists_parse?_write`).  The text is the one
that `Value.write` gives, and the proof follows the reader over it: where a value is expected, the
reader comes out behind the text of the value with a value that says the same (`run_write`).
Words are the one case that needs to know what follows, since a word ends only where a byte comes
that cannot belong to it.

Contents
* §1  values
* §2  strings
* §3  the reader over strings
* §4  the reader over words
* §5  arrays and objects
-/

namespace SolidityTree

/-! ## 1. Values -/

/-- What a JSON text says. -/
inductive Value where
  | bool (b : Bool)
  | int (i : Int64)
  | text (s : String)
  | list (items : List Value)
  | object (members : List (String × Value))

/-- **`Denotes v w`: the JSON value `v` says `w`.**  Objects have the same names, and under each
name what counts says the same. -/
inductive Denotes : Json → Value → Prop
  | bool {b : Bool} : Denotes (.bool b) (.bool b)
  | int {literal : Bytes} {i : Int64} :
      Decimal.Numeral literal i.toInt → Denotes (.num literal) (.int i)
  | text {source : Thunk Bytes} {s : String} : Denotes (.str source s) (.text s)
  | list {source : Thunk Bytes} {items : List Json} {values : List Value} :
      List.Forall₂ Denotes items values → Denotes (.arr source items) (.list values)
  | object {source : Thunk Bytes} {members : List (String × Json)}
      {values : List (String × Value)} :
      (∀ name, (∃ v, Has members name v) ↔ ∃ w, Has values name w) →
      (∀ name v w, Has members name v → Has values name w → Denotes v w) →
      Denotes (.obj source members) (.object values)

/-- Nothing is said by null. -/
theorem Denotes.ne_null {v : Json} {w : Value} (h : Denotes v w) : v ≠ .null := by
  rintro rfl
  cases h

namespace Value

mutual

/-- The greatest number of lists and objects that lie within one another. -/
def nesting : Value → Nat
  | bool _ => 0
  | int _ => 0
  | text _ => 0
  | list items => nestingItems items + 1
  | object members => nestingMembers members + 1

/-- The greatest nesting of an item. -/
def nestingItems : List Value → Nat
  | [] => 0
  | v :: rest => max v.nesting (nestingItems rest)

/-- The greatest nesting of a member. -/
def nestingMembers : List (String × Value) → Nat
  | [] => 0
  | (_, v) :: rest => max v.nesting (nestingMembers rest)

end

end Value

/-- The first member counts unless a later one has its name. -/
theorem has_cons_iff {α : Type} {m : String × α} {rest : List (String × α)} {name : String}
    {v : α} :
    Has (m :: rest) name v ↔ Has rest name v ∨ m = (name, v) ∧ ∀ m' ∈ rest, m'.1 ≠ name := by
  constructor
  · rintro ⟨before, after, heq, ha⟩
    cases before with
    | nil =>
      cases heq
      exact Or.inr ⟨rfl, ha⟩
    | cons b before =>
      cases heq
      exact Or.inl ⟨before, after, rfl, ha⟩
  · rintro (⟨before, after, rfl, ha⟩ | ⟨rfl, ha⟩)
    · exact ⟨m :: before, after, rfl, ha⟩
    · exact ⟨[], rest, rfl, ha⟩

theorem Has.mem {α : Type} {members : List (String × α)} {name : String} {v : α}
    (h : Has members name v) : (name, v) ∈ members := by
  obtain ⟨before, after, rfl, -⟩ := h
  simp

/-- Some member of a name counts if there is one. -/
theorem exists_has_of_mem {α : Type} {m : String × α} :
    ∀ {members : List (String × α)}, m ∈ members → ∃ v, Has members m.1 v
  | m' :: rest, h => by
    by_cases later : ∃ v, Has rest m.1 v
    · obtain ⟨v, hv⟩ := later
      exact ⟨v, has_cons_iff.mpr (Or.inl hv)⟩
    · -- nothing after the first member has the name, so it is the first one
      have none : ∀ n ∈ rest, n.1 ≠ m.1 := by
        intro n hn hname
        obtain ⟨v, hv⟩ := exists_has_of_mem hn
        exact later ⟨v, hname ▸ hv⟩
      rcases List.mem_cons.mp h with rfl | h
      · exact ⟨m.2, has_cons_iff.mpr (Or.inr ⟨rfl, none⟩)⟩
      · exact absurd rfl (none m h)

/-- `SayAlike members values`: the members have the same names and say the same, one by one. -/
def SayAlike : List (String × Json) → List (String × Value) → Prop :=
  List.Forall₂ fun m w => m.1 = w.1 ∧ Denotes m.2 w.2

namespace SayAlike

variable {members : List (String × Json)} {values : List (String × Value)}

theorem names (h : SayAlike members values) : members.map Prod.fst = values.map Prod.fst := by
  induction h with
  | nil => rfl
  | cons hm _ ih => rw [List.map_cons, List.map_cons, hm.1, ih]

/-- Where one list has a member of a name, the other one has. -/
theorem exists_mem_iff (h : SayAlike members values) (name : String) :
    (∃ v, (name, v) ∈ members) ↔ ∃ w, (name, w) ∈ values := by
  have hl : (∃ v, (name, v) ∈ members) ↔ name ∈ members.map Prod.fst := by simp
  have hr : (∃ w, (name, w) ∈ values) ↔ name ∈ values.map Prod.fst := by simp
  rw [hl, hr, h.names]

/-- What counts on one side says what counts on the other. -/
theorem denotes (h : SayAlike members values) {name : String} {v : Json} {w : Value}
    (hv : Has members name v) (hw : Has values name w) : Denotes v w := by
  induction h with
  | nil => exact absurd hv.mem (by simp)
  | @cons m m' members values hm hrest ih =>
    have alike : SayAlike members values := hrest
    rcases has_cons_iff.mp hv with hv | ⟨rfl, last⟩
    · rcases has_cons_iff.mp hw with hw | ⟨rfl, last⟩
      · exact ih hv hw
      · obtain ⟨w', hw'⟩ := (alike.exists_mem_iff name).mp ⟨v, hv.mem⟩
        exact absurd rfl (last _ hw')
    · rcases has_cons_iff.mp hw with hw | ⟨rfl, -⟩
      · obtain ⟨v', hv'⟩ := (alike.exists_mem_iff name).mpr ⟨w, hw.mem⟩
        exact absurd rfl (last _ hv')
      · exact hm.2

/-- **Members that say the same one by one say the same together.** -/
theorem object (h : SayAlike members values) (source : Thunk Bytes) :
    Denotes (.obj source members) (.object values) := by
  refine .object ?_ fun name v w => h.denotes
  intro name
  constructor
  · rintro ⟨v, hv⟩
    obtain ⟨w, hw⟩ := (h.exists_mem_iff name).mp ⟨v, hv.mem⟩
    exact exists_has_of_mem hw
  · rintro ⟨w, hw⟩
    obtain ⟨v, hv⟩ := (h.exists_mem_iff name).mpr ⟨w, hw.mem⟩
    exact exists_has_of_mem hv

end SayAlike

namespace Json

/-! ## 2. Strings -/

/-- A character that may not stand for itself between quotes. -/
def mustEscape (c : Char) : Prop := c = '"' ∨ c = '\\' ∨ c.toNat < 0x20

instance (c : Char) : Decidable (mustEscape c) := inferInstanceAs (Decidable (_ ∨ _ ∨ _))

theorem toNat_lt_of_mustEscape {c : Char} (h : mustEscape c) : c.toNat < 0x80 := by
  rcases h with rfl | rfl | h
  · decide
  · decide
  · omega

/-- The byte of a hexadecimal digit. -/
def hexDigitByte (n : Nat) : UInt8 := UInt8.ofNat (hexDigit n).toNat

/-- A character between quotes: its UTF-8 form, or four hexadecimal digits after `\u`. -/
def quoteChar (c : Char) : Bytes :=
  if mustEscape c then
    [Ascii.backslash, 0x75, 0x30, 0x30, hexDigitByte (c.toNat / 16), hexDigitByte (c.toNat % 16)]
  else String.utf8EncodeChar c

/-- What stands between the quotes of a text. -/
def bodyOf (s : String) : Bytes := s.toList.flatMap quoteChar

/-- The pieces that a character between quotes is read as. -/
def charPieces (c : Char) : List Piece :=
  if mustEscape c then [.unit c.toNat] else (String.utf8EncodeChar c).map .byte

/-- A byte that stands for itself between quotes. -/
def IsOrdinary (b : UInt8) : Prop := ¬ b < 0x20 ∧ b ≠ Ascii.quote ∧ b ≠ Ascii.backslash

theorem hexValue?_hexDigitByte {n : Nat} (h : n < 16) : hexValue? (hexDigitByte n) = some n := by
  have all : ∀ k : Fin 16, hexValue? (hexDigitByte k) = some k.val := by decide
  exact all ⟨n, h⟩

theorem isOrdinary_hexDigitByte {n : Nat} (h : n < 16) : IsOrdinary (hexDigitByte n) := by
  have all : ∀ k : Fin 16, ¬ hexDigitByte k < 0x20 ∧ hexDigitByte k ≠ Ascii.quote ∧
      hexDigitByte k ≠ Ascii.backslash := by decide
  exact all ⟨n, h⟩

/-- The bytes of a character that need not be escaped stand for themselves. -/
theorem isOrdinary_of_mem {c : Char} (hc : ¬ mustEscape c) {b : UInt8}
    (hb : b ∈ String.utf8EncodeChar c) : IsOrdinary b := by
  have ofNat : ∀ {n : Nat}, n < 256 → 0x20 ≤ n → n ≠ 0x22 → n ≠ 0x5c →
      IsOrdinary (UInt8.ofNat n) := by
    intro n hn h1 h2 h3
    have htoNat : (UInt8.ofNat n).toNat = n := UInt8.toNat_ofNat_of_lt' hn
    refine ⟨?_, ?_, ?_⟩
    · simp only [UInt8.lt_iff_toNat_lt, htoNat, UInt8.reduceToNat]
      omega
    · rintro h
      rw [h] at htoNat
      exact h2 htoNat.symm
    · rintro h
      rw [h] at htoNat
      exact h3 htoNat.symm
  rcases Utf8.utf8EncodeChar_cases c with ⟨hn, he⟩ | ⟨x, y, hx, hx', hy, -, he⟩ |
    ⟨x, y, z, hx, hy, hz, -, -, -, he⟩ | ⟨w, x, y, z, hw, hx, hy, hz, -, -, -, he⟩
  · rw [he, List.mem_singleton] at hb
    subst hb
    refine ofNat (by omega) ?_ ?_ ?_
    · by_contra h
      exact hc (Or.inr (Or.inr (by omega)))
    · intro h
      exact hc (Or.inl (Char.toNat_inj.mp h))
    · intro h
      exact hc (Or.inr (Or.inl (Char.toNat_inj.mp h)))
  all_goals
    rw [he] at hb
    simp only [List.mem_cons, List.not_mem_nil, or_false] at hb
  · rcases hb with rfl | rfl <;> exact ofNat (by omega) (by omega) (by omega) (by omega)
  · rcases hb with rfl | rfl | rfl <;> exact ofNat (by omega) (by omega) (by omega) (by omega)
  · rcases hb with rfl | rfl | rfl | rfl <;>
      exact ofNat (by omega) (by omega) (by omega) (by omega)

/-- Ordinary bytes are pieces of their own. -/
theorem pieces?_ordinary (rest : Bytes) : ∀ {bs : Bytes}, (∀ b ∈ bs, IsOrdinary b) →
    pieces? (bs ++ rest) = (pieces? rest).map (bs.map .byte ++ ·)
  | [], _ => by simp
  | b :: bs, h => by
    have hb := (h b List.mem_cons_self).2.2
    have ih := pieces?_ordinary rest fun b' hb' => h b' (List.mem_cons_of_mem b hb')
    rw [List.cons_append, pieces?.eq_def]
    simp only [ne_eq, hb, not_false_eq_true, if_true]
    rw [ih, Option.map_map]
    rfl

/-- A character between quotes is read as its pieces. -/
theorem pieces?_quoteChar (c : Char) (rest : Bytes) :
    pieces? (quoteChar c ++ rest) = (pieces? rest).map (charPieces c ++ ·) := by
  unfold quoteChar charPieces
  split
  · next hc =>
    have hn : c.toNat < 0x80 := toNat_lt_of_mustEscape hc
    have h0 : hexValue? 0x30 = some 0 := by decide
    have hunit : codeUnit? 0x30 0x30 (hexDigitByte (c.toNat / 16)) (hexDigitByte (c.toNat % 16)) =
        some c.toNat := by
      simp only [codeUnit?, h0, hexValue?_hexDigitByte (show c.toNat / 16 < 16 by omega),
        hexValue?_hexDigitByte (show c.toNat % 16 < 16 by omega), Option.pure_def,
        Option.bind_eq_bind, Option.bind_some, Option.some.injEq]
      omega
    have hu : simpleEscape? 0x75 = none := by decide
    simp [pieces?, hu, hunit]
  · next hc => exact pieces?_ordinary rest fun b hb => isOrdinary_of_mem hc hb

/-- An escape that is no surrogate does not join with what follows it. -/
theorem join_unit {u : Nat} (hu : u < 0xd800) (rest : List Piece) :
    join (.unit u :: rest) = encodeUnit u ++ join rest := by
  cases rest with
  | nil => rfl
  | cons p rest =>
    cases p with
    | byte b => rfl
    | unit l =>
      have none : ofPair? u l = none := if_neg (by omega)
      rw [join, none]

theorem join_bytes (bs : Bytes) (rest : List Piece) :
    join (bs.map .byte ++ rest) = bs ++ join rest := by
  induction bs with
  | nil => rfl
  | cons b bs ih => rw [List.map_cons, List.cons_append, join, ih, List.cons_append]

/-- The pieces of a character denote its UTF-8 form. -/
theorem join_charPieces (c : Char) (rest : List Piece) :
    join (charPieces c ++ rest) = String.utf8EncodeChar c ++ join rest := by
  unfold charPieces
  split
  · next hc =>
    have hn : c.toNat < 0x80 := toNat_lt_of_mustEscape hc
    have hs : isSurrogate c.toNat = false := by
      simp only [isSurrogate, Bool.and_eq_false_iff, decide_eq_false_iff_not]
      omega
    rw [List.singleton_append, join_unit (by omega), encodeUnit, hs]
    simp
  · exact join_bytes _ rest

/-- **What stands between the quotes of a text is read as the text.** -/
theorem ofBody?_bodyOf (s : String) : ofBody? (bodyOf s) = some s := by
  have chars : ∀ cs : List Char, pieces? (cs.flatMap quoteChar) = some (cs.flatMap charPieces) := by
    intro cs
    induction cs with
    | nil => rfl
    | cons c cs ih =>
      rw [List.flatMap_cons, pieces?_quoteChar, ih, Option.map_some, List.flatMap_cons]
  have bytes : ∀ cs : List Char,
      join (cs.flatMap charPieces) = cs.flatMap String.utf8EncodeChar := by
    intro cs
    induction cs with
    | nil => rfl
    | cons c cs ih => rw [List.flatMap_cons, join_charPieces, ih, List.flatMap_cons]
  rw [ofBody?, bodyOf, chars, Option.map_some, bytes]
  exact congrArg some (Utf8.decodeLossy_utf8 s)

/-! ## 3. The reader over strings -/

variable {stack : List Frame} {rest : Bytes}

theorem run_of_step {st st' : State} {b : UInt8} (h : st.step b rest = some st') :
    run st (b :: rest) = run st' rest := by
  rw [run, h]

/-- One ordinary byte of a string. -/
theorem step_ordinary {isName : Bool} {read : Bytes} {b : UInt8} (hb : IsOrdinary b) :
    State.step ⟨.string isName read false, stack⟩ b rest =
      some ⟨.string isName (b :: read) false, stack⟩ := by
  obtain ⟨h1, h2, h3⟩ := hb
  simp [State.step, h1, h2, h3]

theorem run_ordinary {isName : Bool} : ∀ {bs read : Bytes}, (∀ b ∈ bs, IsOrdinary b) →
    run ⟨.string isName read false, stack⟩ (bs ++ rest) =
      run ⟨.string isName (bs.reverse ++ read) false, stack⟩ rest
  | [], read, _ => rfl
  | b :: bs, read, h => by
    rw [List.cons_append, run_of_step (step_ordinary (h b List.mem_cons_self)),
      run_ordinary fun b' hb' => h b' (List.mem_cons_of_mem b hb')]
    simp

/-- One character of a string. -/
theorem run_quoteChar {isName : Bool} {read : Bytes} (c : Char) :
    run ⟨.string isName read false, stack⟩ (quoteChar c ++ rest) =
      run ⟨.string isName ((quoteChar c).reverse ++ read) false, stack⟩ rest := by
  unfold quoteChar
  split
  · next hc =>
    have hn := toNat_lt_of_mustEscape hc
    -- the backslash takes the next byte with it; the digits are ordinary
    have digits : ∀ b ∈ [0x30, 0x30, hexDigitByte (c.toNat / 16), hexDigitByte (c.toNat % 16)],
        IsOrdinary b := by
      intro b hb
      simp only [List.mem_cons, List.not_mem_nil, or_false] at hb
      rcases hb with rfl | rfl | rfl | rfl
      · exact ⟨by decide, by decide, by decide⟩
      · exact ⟨by decide, by decide, by decide⟩
      · exact isOrdinary_hexDigitByte (by omega)
      · exact isOrdinary_hexDigitByte (by omega)
    have h1 : ∀ rest, State.step ⟨.string isName read false, stack⟩ Ascii.backslash rest =
        some ⟨.string isName (Ascii.backslash :: read) true, stack⟩ := fun _ => rfl
    have h2 : ∀ rest, State.step ⟨.string isName (Ascii.backslash :: read) true, stack⟩ 0x75 rest =
        some ⟨.string isName (0x75 :: Ascii.backslash :: read) false, stack⟩ := fun _ => rfl
    rw [List.cons_append, run_of_step (h1 _), List.cons_append, run_of_step (h2 _),
      run_ordinary digits]
    rfl
  · next hc => exact run_ordinary fun b hb => isOrdinary_of_mem hc hb

theorem run_bodyOf {isName : Bool} (s : String) :
    run ⟨.string isName [] false, stack⟩ (bodyOf s ++ rest) =
      run ⟨.string isName (bodyOf s).reverse false, stack⟩ rest := by
  have chars : ∀ (cs : List Char) (read : Bytes),
      run ⟨.string isName read false, stack⟩ (cs.flatMap quoteChar ++ rest) =
        run ⟨.string isName ((cs.flatMap quoteChar).reverse ++ read) false, stack⟩ rest := by
    intro cs
    induction cs with
    | nil => intro read; rfl
    | cons c cs ih =>
      intro read
      rw [List.flatMap_cons, List.append_assoc, run_quoteChar, ih, List.reverse_append,
        List.append_assoc]
  have h := chars s.toList []
  rwa [List.append_nil] at h

/-- A string up to its closing quote. -/
theorem run_string {isName : Bool} {s : String} {st : State}
    (h : endString isName (bodyOf s) stack = some st) :
    run ⟨.string isName [] false, stack⟩ (bodyOf s ++ Ascii.quote :: rest) = run st rest := by
  have hclose : State.step ⟨.string isName (bodyOf s).reverse false, stack⟩ Ascii.quote rest =
      endString isName (bodyOf s).reverse.reverse stack := rfl
  rw [List.reverse_reverse, h] at hclose
  rw [run_bodyOf, run_of_step hclose]

/-- The text of a string. -/
def quoted (s : String) : Bytes := Ascii.quote :: (bodyOf s ++ [Ascii.quote])

theorem quoted_append (s : String) (rest : Bytes) :
    quoted s ++ rest = Ascii.quote :: (bodyOf s ++ Ascii.quote :: rest) := by
  simp [quoted]

/-- A place where a value may begin. -/
def Place.AdmitsValue (place : Place) : Prop := place = .value ∨ place = .firstItem

/-- A place where the name of a member may begin. -/
def Place.AdmitsName (place : Place) : Prop := place = .name ∨ place = .firstName

/-- **A string where a value is expected.** -/
theorem run_quoted {place : Place} (hp : place.AdmitsValue) (s : String) :
    ∃ source, run ⟨.between place, stack⟩ (quoted s ++ rest) =
      run (put (.str source s) stack) rest := by
  have hopen : ∀ rest, State.step ⟨.between place, stack⟩ Ascii.quote rest =
      some ⟨.string false [] false, stack⟩ := by
    rcases hp with rfl | rfl
    · exact fun _ => rfl
    · exact fun _ => rfl
  have hend : ∃ source, endString false (bodyOf s) stack = some (put (.str source s) stack) := by
    rw [endString, ofBody?_bodyOf]
    exact ⟨_, rfl⟩
  obtain ⟨source, hend⟩ := hend
  refine ⟨source, ?_⟩
  rw [quoted_append, run_of_step (hopen _), run_string hend]

/-- **The name of a member.** -/
theorem run_quoted_name {place : Place} (hp : place.AdmitsName) {start : Bytes}
    {members : List (String × Json)} {before : String} (name : String) :
    run ⟨.between place, .obj start members before :: stack⟩ (quoted name ++ rest) =
      run ⟨.between .colon, .obj start members name :: stack⟩ rest := by
  have hopen : ∀ rest,
      State.step ⟨.between place, .obj start members before :: stack⟩ Ascii.quote rest =
      some ⟨.string true [] false, .obj start members before :: stack⟩ := by
    rcases hp with rfl | rfl
    · exact fun _ => rfl
    · exact fun _ => rfl
  have hend : endString true (bodyOf name) (.obj start members before :: stack) =
      some ⟨.between .colon, .obj start members name :: stack⟩ := by
    rw [endString, ofBody?_bodyOf]
    rfl
  rw [quoted_append, run_of_step (hopen _), run_string hend]

/-! ## 4. The reader over words -/

/-- What follows a word: nothing, or a byte that cannot belong to it. -/
def EndsWord (rest : Bytes) : Prop := ∀ b bs, rest = b :: bs → isWordByte b = false

theorem endsWord_cons {b : UInt8} (h : isWordByte b = false) (bs : Bytes) : EndsWord (b :: bs) := by
  rintro b' bs' heq
  cases heq
  exact h

/-- The bytes of a word. -/
theorem run_wordBytes : ∀ {bs read : Bytes}, (∀ b ∈ bs, isWordByte b = true) →
    run ⟨.word read, stack⟩ (bs ++ rest) = run ⟨.word (bs.reverse ++ read), stack⟩ rest
  | [], read, _ => rfl
  | b :: bs, read, h => by
    have hb : State.step ⟨.word read, stack⟩ b (bs ++ rest) = some ⟨.word (b :: read), stack⟩ := by
      simp [State.step, h b List.mem_cons_self]
    rw [List.cons_append, run_of_step hb,
      run_wordBytes fun b' hb' => h b' (List.mem_cons_of_mem b hb')]
    simp

/-- The end of a word: the reader has the value of the word, and goes on as if it had it before. -/
theorem run_word_end {read : Bytes} {v : Json} (hv : ofWord? read.reverse = some v)
    (hr : EndsWord rest) : run ⟨.word read, stack⟩ rest = run (put v stack) rest := by
  cases rest with
  | nil =>
    cases stack with
    | nil => exact hv
    | cons frame stack => cases frame <;> rfl
  | cons b bs =>
    have hb := hr b bs rfl
    have hstep : State.step ⟨.word read, stack⟩ b bs = (put v stack).step b bs := by
      simp only [State.step, hb, hv]
      cases stack with
      | nil => rfl
      | cons frame stack => cases frame <;> rfl
    rw [run, run, hstep]

/-- A byte of a word is no white space, no bracket and no quote. -/
theorem beginValue_word (stack : List Frame) (rest : Bytes) {b : UInt8} (hb : isWordByte b = true) :
    isGap b = false ∧ b ≠ Ascii.closeBracket ∧
      beginValue stack b rest = some ⟨.word [b], stack⟩ := by
  have all : ∀ n : Fin 256, isWordByte (UInt8.ofNat n) = true →
      isGap (UInt8.ofNat n) = false ∧ UInt8.ofNat n ≠ Ascii.closeBracket ∧
        UInt8.ofNat n ≠ Ascii.openBracket ∧ UInt8.ofNat n ≠ Ascii.openBrace ∧
        UInt8.ofNat n ≠ Ascii.quote := by
    decide +kernel
  have h := all ⟨b.toNat, b.toNat_lt⟩
  rw [UInt8.ofNat_toNat] at h
  obtain ⟨h1, h2, h3, h4, h5⟩ := h hb
  refine ⟨h1, h2, ?_⟩
  rw [beginValue, if_neg h3, if_neg h4, if_neg h5, if_pos hb]

/-- **A word where a value is expected.** -/
theorem run_word {place : Place} (hp : place.AdmitsValue) {word : Bytes} {v : Json}
    (hne : word ≠ []) (hw : ∀ b ∈ word, isWordByte b = true) (hv : ofWord? word = some v)
    (hr : EndsWord rest) :
    run ⟨.between place, stack⟩ (word ++ rest) = run (put v stack) rest := by
  cases word with
  | nil => exact absurd rfl hne
  | cons b bs =>
    obtain ⟨h1, h2, h3⟩ := beginValue_word stack (bs ++ rest) (hw b List.mem_cons_self)
    have hb : State.step ⟨.between place, stack⟩ b (bs ++ rest) = some ⟨.word [b], stack⟩ := by
      rcases hp with rfl | rfl
      · simp [State.step, stepBetween, h1, h3]
      · simp [State.step, stepBetween, h1, h2, h3]
    rw [List.cons_append, run_of_step hb,
      run_wordBytes fun b' hb' => hw b' (List.mem_cons_of_mem b hb')]
    refine run_word_end ?_ hr
    simpa using hv

/-- The digits of a positive number do not start with a zero. -/
theorem toDigits_head_ne_zero {n : Nat} (hn : 0 < n) :
    ∃ c cs, Nat.toDigits 10 n = c :: cs ∧ c ≠ '0' := by
  induction n using Nat.strongRecOn with
  | ind n ih =>
    rcases Nat.lt_or_ge n 10 with hlt | hge
    · have all : ∀ k : Fin 10, 0 < k.val → k.val.digitChar ≠ '0' := by decide
      exact ⟨n.digitChar, [], Nat.toDigits_of_lt_base hlt, all ⟨n, hlt⟩ hn⟩
    · obtain ⟨c, cs, he, hc⟩ := ih (n / 10) (by omega) (by omega)
      refine ⟨c, cs ++ [(n % 10).digitChar], ?_, hc⟩
      rw [Nat.toDigits_of_base_le (by omega) hge, he]
      rfl

/-- The digits of a number are a JSON number. -/
theorem isMagnitude_toDigits (n : Nat) :
    isMagnitude (utf8 (.ofList (Nat.toDigits 10 n))) = true := by
  rcases Nat.eq_zero_or_pos n with rfl | hn
  · rw [Nat.toDigits_zero]
    decide
  · obtain ⟨c, cs, he, hc⟩ := toDigits_head_ne_zero hn
    have digits := (Decimal.isDigits_toDigits n).2
    rw [he] at digits ⊢
    obtain ⟨b, hb, hd, hv⟩ := Decimal.utf8EncodeChar_of_isDigit (digits c List.mem_cons_self)
    have hb0 : b ≠ 0x30 := by
      rintro rfl
      have h48 := (Char.isDigit_iff_toNat.mp (digits c List.mem_cons_self)).1
      refine hc (Char.toNat_inj.mp ?_)
      have : '0'.toNat = 48 := rfl
      have : (0x30 : UInt8).toNat - 0x30 = 0 := rfl
      omega
    have hrest : (utf8 (.ofList cs)).dropWhile Ascii.isDigit = [] := by
      rw [List.dropWhile_eq_nil_iff]
      intro b' hb'
      exact Decimal.isDigit_of_mem_utf8 (fun d hm => digits d (List.mem_cons_of_mem c hm)) hb'
    rw [utf8_ofList_cons, hb, List.singleton_append, isMagnitude, if_neg hb0, hd, hrest]
    rfl

/-- **The written form of an integer is a JSON number**, and a word of its own. -/
theorem write_word (i : Int64) : utf8 (Decimal.write i) ≠ [] ∧
    (∀ b ∈ utf8 (Decimal.write i), isWordByte b = true) ∧
    ofWord? (utf8 (Decimal.write i)) = some (.num (utf8 (Decimal.write i))) := by
  have word : ∀ {b}, Ascii.isDigit b = true → isWordByte b = true := by
    intro b hb
    simp [isWordByte, hb]
  -- a word that starts with a digit or a minus sign is none of the three names
  have number : ∀ {b : UInt8} {bs : Bytes}, (Ascii.isDigit b = true ∨ b = Ascii.minus) →
      isNumber (b :: bs) = true → ofWord? (b :: bs) = some (.num (b :: bs)) := by
    intro b bs hb hnum
    have other : ∀ {x : UInt8} {xs : Bytes}, ¬ Ascii.isDigit x = true → x ≠ Ascii.minus →
        b :: bs ≠ x :: xs := by
      rintro x xs hx hx' heq
      cases heq
      rcases hb with hb | hb
      · exact hx hb
      · exact hx' hb
    have h1 : b :: bs ≠ utf8 "null" := other (by decide) (by decide)
    have h2 : b :: bs ≠ utf8 "true" := other (by decide) (by decide)
    have h3 : b :: bs ≠ utf8 "false" := other (by decide) (by decide)
    rw [ofWord?, if_neg h1, if_neg h2, if_neg h3, if_pos hnum]
  unfold Decimal.write
  cases i.toInt with
  | ofNat n =>
    have digits := Decimal.isDigits_toDigits n
    have hmag := isMagnitude_toDigits n
    have hall : ∀ b ∈ utf8 (.ofList (Nat.toDigits 10 n)), Ascii.isDigit b = true :=
      fun b hb => Decimal.isDigit_of_mem_utf8 digits.2 hb
    obtain ⟨b, bs, he, hb, -⟩ := Decimal.head_utf8_digits digits
    rw [he] at hmag hall
    rw [Decimal.digitsOf, he]
    refine ⟨by simp, fun b' hb' => word (hall b' hb'),
      number (Or.inl (hall b List.mem_cons_self)) ?_⟩
    rw [isNumber, if_neg hb]
    exact hmag
  | negSucc n =>
    have he : utf8 (.ofList (Decimal.digitsOf (.negSucc n))) =
        Ascii.minus :: utf8 (.ofList (Nat.toDigits 10 (n + 1))) := by
      rw [Decimal.digitsOf, utf8_ofList_cons]
      rfl
    rw [he]
    refine ⟨by simp, ?_, number (Or.inr rfl) (isMagnitude_toDigits (n + 1))⟩
    intro b hb
    rcases List.mem_cons.mp hb with rfl | hb
    · decide
    · exact word (Decimal.isDigit_of_mem_utf8 (Decimal.isDigits_toDigits (n + 1)).2 hb)

end Json

/-! ## 5. Arrays and objects -/

namespace Value

mutual

/-- A text of a value. -/
def write : Value → Bytes
  | bool true => utf8 "true"
  | bool false => utf8 "false"
  | int i => utf8 (Decimal.write i)
  | text s => Json.quoted s
  | list [] => [Ascii.openBracket, Ascii.closeBracket]
  | list (v :: rest) => Ascii.openBracket :: (v.write ++ writeItems rest)
  | object [] => [Ascii.openBrace, Ascii.closeBrace]
  | object ((name, v) :: rest) =>
    Ascii.openBrace :: (Json.quoted name ++ Ascii.colon :: (v.write ++ writeMembers rest))

/-- The text of a list from behind an item on. -/
def writeItems : List Value → Bytes
  | [] => [Ascii.closeBracket]
  | v :: rest => Ascii.comma :: (v.write ++ writeItems rest)

/-- The text of an object from behind a member on. -/
def writeMembers : List (String × Value) → Bytes
  | [] => [Ascii.closeBrace]
  | (name, v) :: rest =>
    Ascii.comma :: (Json.quoted name ++ Ascii.colon :: (v.write ++ writeMembers rest))

end

/-- Behind an item no word goes on. -/
theorem endsWord_writeItems (items : List Value) (rest : Bytes) :
    Json.EndsWord (writeItems items ++ rest) := by
  cases items with
  | nil =>
    rw [writeItems]
    exact Json.endsWord_cons (by decide) rest
  | cons v items =>
    rw [writeItems]
    exact Json.endsWord_cons (by decide) _

/-- Behind a member no word goes on. -/
theorem endsWord_writeMembers (members : List (String × Value)) (rest : Bytes) :
    Json.EndsWord (writeMembers members ++ rest) := by
  cases members with
  | nil =>
    rw [writeMembers]
    exact Json.endsWord_cons (by decide) rest
  | cons m members =>
    rw [writeMembers]
    exact Json.endsWord_cons (by decide) _

end Value

namespace Json

open Value

variable {stack : List Frame} {place : Place}

theorem step_openBracket (hp : place.AdmitsValue) (rest : Bytes)
    (fits : stack.length < nestingLimit) :
    State.step ⟨.between place, stack⟩ Ascii.openBracket rest =
      some ⟨.between .firstItem, .arr (Ascii.openBracket :: rest) [] :: stack⟩ := by
  have hpush : push (.arr (Ascii.openBracket :: rest) []) .firstItem stack =
      some ⟨.between .firstItem, .arr (Ascii.openBracket :: rest) [] :: stack⟩ := if_pos fits
  rcases hp with rfl | rfl
  · exact hpush
  · exact hpush

theorem step_openBrace (hp : place.AdmitsValue) (rest : Bytes)
    (fits : stack.length < nestingLimit) :
    State.step ⟨.between place, stack⟩ Ascii.openBrace rest =
      some ⟨.between .firstName, .obj (Ascii.openBrace :: rest) [] "" :: stack⟩ := by
  have hpush : push (.obj (Ascii.openBrace :: rest) [] "") .firstName stack =
      some ⟨.between .firstName, .obj (Ascii.openBrace :: rest) [] "" :: stack⟩ := if_pos fits
  rcases hp with rfl | rfl
  · exact hpush
  · exact hpush

theorem run_closeArray {start : Bytes} {items : List Json} {rest : Bytes}
    (hp : place = .firstItem ∨ place = .next) :
    run ⟨.between place, .arr start items :: stack⟩ (Ascii.closeBracket :: rest) =
      run (put (.arr (cut start rest) items.reverse) stack) rest := by
  rcases hp with rfl | rfl
  · exact run_of_step rfl
  · exact run_of_step rfl

theorem run_closeObject {start : Bytes} {members : List (String × Json)} {name : String}
    {rest : Bytes} (hp : place = .firstName ∨ place = .next) :
    run ⟨.between place, .obj start members name :: stack⟩ (Ascii.closeBrace :: rest) =
      run (put (.obj (cut start rest) members.reverse) stack) rest := by
  rcases hp with rfl | rfl
  · exact run_of_step rfl
  · exact run_of_step rfl

/-- Over a member, if the reader comes over its value. -/
theorem run_member {start : Bytes} {members : List (String × Json)} {before name : String}
    {w : Value} {v : Json} {rest : Bytes} (hp : place.AdmitsName)
    (hv : run ⟨.between .value, .obj start members name :: stack⟩ (w.write ++ rest) =
      run (put v (.obj start members name :: stack)) rest) :
    run ⟨.between place, .obj start members before :: stack⟩
        (quoted name ++ Ascii.colon :: (w.write ++ rest)) =
      run ⟨.between .next, .obj start ((name, v) :: members) name :: stack⟩ rest := by
  have hcolon : State.step ⟨.between .colon, .obj start members name :: stack⟩ Ascii.colon
      (w.write ++ rest) = some ⟨.between .value, .obj start members name :: stack⟩ := rfl
  rw [run_quoted_name hp, run_of_step hcolon, hv]
  rfl

mutual

/-- **Over the text of a value.**  Where a value is expected, the reader comes out behind the text
with a value that says the same. -/
theorem run_write : ∀ (w : Value) (place : Place) (stack : List Frame) (rest : Bytes),
    place.AdmitsValue → stack.length + w.nesting ≤ nestingLimit → EndsWord rest →
    ∃ v, Denotes v w ∧ run ⟨.between place, stack⟩ (w.write ++ rest) = run (put v stack) rest
  | .bool true, place, stack, rest, hp, _, hr => by
    refine ⟨.bool true, .bool, ?_⟩
    exact run_word hp (by decide) (by decide +kernel) (by rfl) hr
  | .bool false, place, stack, rest, hp, _, hr => by
    refine ⟨.bool false, .bool, ?_⟩
    exact run_word hp (by decide) (by decide +kernel) (by rfl) hr
  | .int i, place, stack, rest, hp, _, hr => by
    obtain ⟨h1, h2, h3⟩ := write_word i
    refine ⟨_, .int (Decimal.numeral_write i), ?_⟩
    exact run_word hp h1 h2 h3 hr
  | .text s, place, stack, rest, hp, _, _ => by
    obtain ⟨source, h⟩ := run_quoted hp s
    exact ⟨.str source s, .text, h⟩
  | .list [], place, stack, rest, hp, fits, _ => by
    simp only [nesting, nestingItems] at fits
    rw [write, List.cons_append, run_of_step (step_openBracket hp _ (by omega))]
    exact ⟨_, .list .nil, run_closeArray (Or.inl rfl)⟩
  | .list (w :: ws), place, stack, rest, hp, fits, _ => by
    simp only [nesting, nestingItems] at fits
    rw [write, List.cons_append, List.append_assoc, run_of_step (step_openBracket hp _ (by omega))]
    generalize Ascii.openBracket :: (w.write ++ (writeItems ws ++ rest)) = start
    obtain ⟨v, hv, h⟩ := run_write w .firstItem (.arr start [] :: stack) (writeItems ws ++ rest)
      (Or.inr rfl) (by rw [List.length_cons]; omega) (endsWord_writeItems ws rest)
    obtain ⟨source, vs, hvs, h'⟩ := run_writeItems ws start [v] stack rest (by omega)
    exact ⟨.arr source (v :: vs), .list (.cons hv hvs), h.trans h'⟩
  | .object [], place, stack, rest, hp, fits, _ => by
    simp only [nesting, nestingMembers] at fits
    rw [write, List.cons_append, run_of_step (step_openBrace hp _ (by omega))]
    exact ⟨_, SayAlike.object .nil _, run_closeObject (Or.inl rfl)⟩
  | .object ((name, w) :: ws), place, stack, rest, hp, fits, _ => by
    simp only [nesting, nestingMembers] at fits
    rw [write, List.cons_append, List.append_assoc, List.cons_append, List.append_assoc,
      run_of_step (step_openBrace hp _ (by omega))]
    generalize Ascii.openBrace :: (quoted name ++ Ascii.colon ::
      (w.write ++ (writeMembers ws ++ rest))) = start
    obtain ⟨v, hv, h⟩ := run_write w .value (.obj start [] name :: stack) (writeMembers ws ++ rest)
      (Or.inl rfl) (by rw [List.length_cons]; omega) (endsWord_writeMembers ws rest)
    obtain ⟨source, vs, hvs, h'⟩ := run_writeMembers ws start [(name, v)] name stack rest (by omega)
    have alike : SayAlike ((name, v) :: vs) ((name, w) :: ws) := .cons ⟨rfl, hv⟩ hvs
    exact ⟨_, alike.object source, (run_member (Or.inr rfl) h).trans h'⟩

/-- Over the rest of a list. -/
theorem run_writeItems : ∀ (ws : List Value) (start : Bytes) (items : List Json)
    (stack : List Frame) (rest : Bytes), stack.length + 1 + nestingItems ws ≤ nestingLimit →
    ∃ source vs, List.Forall₂ Denotes vs ws ∧
      run ⟨.between .next, .arr start items :: stack⟩ (writeItems ws ++ rest) =
        run (put (.arr source (items.reverse ++ vs)) stack) rest
  | [], start, items, stack, rest, _ => by
    refine ⟨cut start rest, [], .nil, ?_⟩
    rw [writeItems, List.append_nil]
    exact run_closeArray (Or.inr rfl)
  | w :: ws, start, items, stack, rest, fits => by
    simp only [nestingItems] at fits
    obtain ⟨v, hv, h⟩ := run_write w .value (.arr start items :: stack) (writeItems ws ++ rest)
      (Or.inl rfl) (by rw [List.length_cons]; omega) (endsWord_writeItems ws rest)
    obtain ⟨source, vs, hvs, h'⟩ := run_writeItems ws start (v :: items) stack rest (by omega)
    refine ⟨source, v :: vs, .cons hv hvs, ?_⟩
    have hcomma : State.step ⟨.between .next, .arr start items :: stack⟩ Ascii.comma
        (w.write ++ (writeItems ws ++ rest)) =
        some ⟨.between .value, .arr start items :: stack⟩ := rfl
    rw [List.reverse_cons, List.append_assoc, List.singleton_append] at h'
    rw [writeItems, List.cons_append, List.append_assoc, run_of_step hcomma]
    exact h.trans h'

/-- Over the rest of an object. -/
theorem run_writeMembers : ∀ (ws : List (String × Value)) (start : Bytes)
    (members : List (String × Json)) (before : String) (stack : List Frame) (rest : Bytes),
    stack.length + 1 + nestingMembers ws ≤ nestingLimit →
    ∃ source vs, SayAlike vs ws ∧
      run ⟨.between .next, .obj start members before :: stack⟩ (writeMembers ws ++ rest) =
        run (put (.obj source (members.reverse ++ vs)) stack) rest
  | [], start, members, before, stack, rest, _ => by
    refine ⟨cut start rest, [], .nil, ?_⟩
    rw [writeMembers, List.append_nil]
    exact run_closeObject (Or.inr rfl)
  | (name, w) :: ws, start, members, before, stack, rest, fits => by
    simp only [nestingMembers] at fits
    obtain ⟨v, hv, h⟩ := run_write w .value (.obj start members name :: stack)
      (writeMembers ws ++ rest) (Or.inl rfl) (by rw [List.length_cons]; omega)
      (endsWord_writeMembers ws rest)
    obtain ⟨source, vs, hvs, h'⟩ := run_writeMembers ws start ((name, v) :: members) name stack rest
      (by omega)
    refine ⟨source, (name, v) :: vs, .cons ⟨rfl, hv⟩ hvs, ?_⟩
    have hcomma : State.step ⟨.between .next, .obj start members before :: stack⟩ Ascii.comma
        (quoted name ++ Ascii.colon :: (w.write ++ (writeMembers ws ++ rest))) =
        some ⟨.between .name, .obj start members before :: stack⟩ := rfl
    rw [List.reverse_cons, List.append_assoc, List.singleton_append] at h'
    rw [writeMembers, List.cons_append, List.append_assoc, List.cons_append, List.append_assoc,
      run_of_step hcomma]
    exact (run_member (Or.inl rfl) h).trans h'

end

/-- **Every value has a text**, unless it is nested too deeply for any. -/
theorem exists_parse?_write (w : Value) (fits : w.nesting ≤ nestingLimit) :
    ∃ v, parse? w.write = some v ∧ Denotes v w := by
  obtain ⟨v, hv, h⟩ := run_write w .value [] [] (Or.inl rfl) (by simpa using fits)
    (by rintro b bs ⟨⟩)
  refine ⟨v, ?_, hv⟩
  rw [List.append_nil] at h
  exact h

end Json

end SolidityTree
