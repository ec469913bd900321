import SolidityTree.Settings.Reader

/-!
# What a value says for a setting

A value of YAML is read for a setting in one of four ways: it is passed over, it gives a value, it is
of the wrong type, or it cannot be followed at all.  Here the first two are said without a reader:

* `IsNull v`: the value is null, or a reference to null, and is passed over;
* `SaysInt`, `SaysBool`, `SaysText` and `SaysTexts`: what any other value stands for.

`Fits fit Says` joins the two sides, and there is one such lemma for each type of setting.  A list is
the exception: null is not passed over there but is the empty list (`fitTexts_eq_value_iff`).

A fraction beyond the range of 64 bits is not always refused: below the range, and at its upper end,
it is taken for the smallest number (`WritesLeast`).  Every other number is taken for what is written.

Contents
* §1  the vocabulary
* §2  references and texts
* §3  numbers
* §4  truth values
* §5  lists
-/

namespace SolidityTree

namespace Settings

/-! ## 1. The vocabulary -/

/-- The value is null, or a reference to null. -/
def IsNull (v : Yaml) : Prop := ∃ text, follow v = .scalar true text ∧ Yaml.resolve text = .null

/-- The text of a scalar that is not null. -/
def text? (v : Yaml) : Option String :=
  match follow v with
  | .scalar plain text => if plain = true ∧ Yaml.resolve text = .null then none else some text
  | _ => none

/-- **What a value says as a text**: any scalar but null, as it is written. -/
def SaysText (v : Yaml) (text : String) : Prop := text? v = some text

/-- The number that a value writes; a fraction is cut off. -/
def WritesNumber (v : Yaml) (n : Int) : Prop :=
  ∃ text, follow v = .scalar true text ∧
    (Yaml.resolve text = .int n ∨ Yaml.resolve text = .fraction n)

/-- A fraction beyond the range of 64 bits that is taken nevertheless, for the smallest number. -/
def WritesLeast (v : Yaml) : Prop :=
  ∃ text, follow v = .scalar true text ∧ (Yaml.resolve text = .negativeInfinity ∨
    ∃ n, Yaml.resolve text = .fraction n ∧
      (n < -0x8000000000000000 ∨ n = 0x8000000000000000))

/-- **What a value says as an integer.** -/
def SaysInt (v : Yaml) (i : Int64) : Prop := WritesNumber v i.toInt ∨ WritesLeast v ∧ i = least

/-- The words for a truth value besides `true` and `false`. -/
def truthWords : Bool → List String
  | true => ["y", "Y", "yes", "Yes", "YES", "on", "On", "ON"]
  | false => ["n", "N", "no", "No", "NO", "off", "Off", "OFF"]

/-- **What a value says as a truth value.**  The words count between quotes, too. -/
def SaysBool (v : Yaml) (b : Bool) : Prop :=
  ∃ plain text, follow v = .scalar plain text ∧
    (plain = true ∧ Yaml.resolve text = .bool b ∨ text ∈ truthWords b)

/-- **What a value says as a list of texts**: its items are scalars, and the null ones are dropped. -/
def SaysTexts (v : Yaml) (texts : List String) : Prop :=
  ∃ items, follow v = .seq items ∧ (∀ item ∈ items, IsNull item ∨ (text? item).isSome) ∧
    items.filterMap text? = texts

/-- `Fits fit Says`: `fit` passes over null, and takes any other value for what it says. -/
structure Fits {α : Type} (fit : Yaml → Fit α) (Says : Yaml → α → Prop) : Prop where
  absent : ∀ v, fit v = .absent ↔ IsNull v
  value : ∀ v a, fit v = .value a ↔ Says v a

section Fits

variable {α : Type} {fit : Yaml → Fit α} {Says : Yaml → α → Prop} {v : Yaml} {a b : α}

/-- Both sides at once, for a case distinction on the value. -/
theorem fits_of (h : ∀ v, (fit v = .absent ↔ IsNull v) ∧ ∀ a, fit v = .value a ↔ Says v a) :
    Fits fit Says :=
  ⟨fun v => (h v).1, fun v => (h v).2⟩

theorem Fits.unique (fits : Fits fit Says) (ha : Says v a) (hb : Says v b) : a = b :=
  Fit.value.inj (((fits.value v a).mpr ha).symm.trans ((fits.value v b).mpr hb))

theorem Fits.not_isNull (fits : Fits fit Says) (h : Says v a) : ¬ IsNull v := fun hnull => by
  have habsent := (fits.absent v).mpr hnull
  rw [(fits.value v a).mpr h] at habsent
  cases habsent

end Fits

/-! ## 2. References and texts -/

/-- What a reference leads to is no reference. -/
theorem follow_ne_alias (v : Yaml) (name : String) (target : Yaml) :
    follow v ≠ .alias name target := by
  fun_induction follow v with
  | case1 _ _ ih => exact ih
  | case2 v hv => exact hv name target

section Scalar

variable {v : Yaml} {plain : Bool} {text : String}

theorem isNull_iff (h : follow v = .scalar plain text) :
    IsNull v ↔ plain = true ∧ Yaml.resolve text = .null := by
  constructor
  · rintro ⟨text', h', hnull⟩
    rw [h] at h'
    cases h'
    exact ⟨rfl, hnull⟩
  · rintro ⟨rfl, hnull⟩
    exact ⟨text, h, hnull⟩

/-- Only scalars are null. -/
theorem not_isNull (h : ∀ plain text, follow v ≠ .scalar plain text) : ¬ IsNull v :=
  fun ⟨text, h', _⟩ => h true text h'

theorem text?_eq (h : follow v = .scalar plain text) :
    text? v = if plain = true ∧ Yaml.resolve text = .null then none else some text := by
  rw [text?, h]

theorem text?_eq_none (h : ∀ plain text, follow v ≠ .scalar plain text) : text? v = none := by
  rw [text?]
  split
  · next plain text h' => exact absurd h' (h plain text)
  · rfl

theorem text?_of_isNull (h : IsNull v) : text? v = none := by
  obtain ⟨text, h, hnull⟩ := h
  rw [text?_eq h, if_pos ⟨rfl, hnull⟩]

end Scalar

theorem fits_fitText : Fits fitText SaysText := by
  refine fits_of fun v => ?_
  unfold SaysText fitText
  split
  · next plain text h =>
    rw [isNull_iff h, text?_eq h]
    by_cases hnull : plain = true ∧ Yaml.resolve text = .null
    · simp [hnull]
    · simp [hnull]
  · next name h =>
    have other : ∀ plain text, follow v ≠ .scalar plain text := by simp [h]
    simp [not_isNull other, text?_eq_none other]
  · next h _ =>
    simp [not_isNull h, text?_eq_none h]

/-! ## 3. Numbers -/

end Settings

namespace Yaml

theorem least_le_of_signed? {magnitude? : List Char → Option Nat} {cs : List Char} {i : Int}
    (h : signed? magnitude? cs = some i) : -0x8000000000000000 ≤ i := by
  unfold signed? at h
  split at h
  · obtain ⟨n, -, h⟩ := Option.bind_eq_some_iff.mp h
    split at h
    · cases h
      omega
    · cases h
  · obtain ⟨n, -, h⟩ := Option.bind_eq_some_iff.mp h
    split at h
    · cases h
      omega
    · cases h
  · cases h

theorem least_le_of_integer? {cs : List Char} {i : Int} (h : integer? cs = some i) :
    -0x8000000000000000 ≤ i := by
  unfold integer? at h
  split at h
  case h_7 =>
    obtain ⟨n, -, h⟩ := Option.bind_eq_some_iff.mp h
    split at h
    · cases h
      omega
    · cases h
  all_goals exact least_le_of_signed? h

/-- A number is an integer, which is never too small, or a fraction. -/
theorem number?_cases {text : String} {r : Resolved} (h : number? text = some r) :
    (∃ i : Int, r = .int i ∧ -0x8000000000000000 ≤ i) ∨ ∃ n, r = .fraction n := by
  have fraction {cs : List Char} (h : (fraction? cs).map Resolved.fraction = some r) :
      ∃ n, r = .fraction n := by
    obtain ⟨n, -, h⟩ := Option.map_eq_some_iff.mp h
    exact ⟨n, h.symm⟩
  unfold number? at h
  split at h
  · cases h
  split at h
  · exact .inr (fraction h)
  split at h
  · dsimp only at h
    split at h
    · next i hi =>
      cases h
      exact .inl ⟨i, rfl, least_le_of_integer? hi⟩
    · exact .inr (fraction h)
  · cases h

/-- A text that is none of the words is a number or nothing but a text. -/
theorem resolve_cases (text : String) :
    resolve text ∈ [.null, .bool true, .bool false, .infinity, .negativeInfinity, .notANumber] ∨
      number? text = some (resolve text) ∨ resolve text = .text text := by
  unfold resolve
  iterate 6
    split
    · exact .inl (by decide)
  refine .inr ?_
  cases number? text with
  | none => exact .inr rfl
  | some r => exact .inl rfl

theorem least_le_of_resolve {text : String} {i : Int} (h : resolve text = .int i) :
    -0x8000000000000000 ≤ i := by
  rcases resolve_cases text with hword | hnumber | htext
  · rw [h] at hword
    simp at hword
  · rcases number?_cases hnumber with ⟨i', hi, hle⟩ | ⟨n, hn⟩
    · rw [h] at hi
      cases hi
      exact hle
    · rw [h] at hn
      cases hn
  · rw [h] at htext
    cases htext

theorem eq_of_resolve_text {text s : String} (h : resolve text = .text s) : s = text := by
  rcases resolve_cases text with hword | hnumber | htext
  · rw [h] at hword
    simp at hword
  · rw [h] at hnumber
    rcases number?_cases hnumber with ⟨i, hi, -⟩ | ⟨n, hn⟩
    · cases hi
    · cases hn
  · rw [h] at htext
    cases htext
    rfl

end Yaml

namespace Settings

/-- An integer of 64 bits is the one with its value. -/
theorem ofInt_eq_iff {n : Int} (low : -0x8000000000000000 ≤ n) (high : n < 0x8000000000000000)
    {i : Int64} : Int64.ofInt n = i ↔ n = i.toInt := by
  have hvalue : (Int64.ofInt n).toInt = n := Int64.toInt_ofInt_of_le low high
  rw [← Int64.toInt_inj, hvalue]

/-- A fraction in range is cut off; of those out of range some are refused and some are taken for the
smallest number. -/
theorem fraction_eq_value_iff {n : Int} {i : Int64} :
    (if 0x8000000000000000 < n then Fit.misfit
      else if -0x8000000000000000 ≤ n ∧ n < 0x8000000000000000 then .value (Int64.ofInt n)
      else .value least) = .value i ↔
      n = i.toInt ∨ (n < -0x8000000000000000 ∨ n = 0x8000000000000000) ∧ i = least := by
  have hlow := i.le_toInt
  have hhigh := i.toInt_lt
  split
  · next h => exact iff_of_false nofun (by omega)
  split
  · next h range =>
    rw [Fit.value.injEq, ofInt_eq_iff range.1 range.2]
    exact ⟨.inl, fun h => h.resolve_right (by omega)⟩
  · next h range =>
    have hout : n < -0x8000000000000000 ∨ n = 0x8000000000000000 := by omega
    have hne : n ≠ i.toInt := by omega
    rw [Fit.value.injEq, or_iff_right hne, and_iff_right hout, eq_comm]

theorem int_eq_value_iff {n : Int} (low : -0x8000000000000000 ≤ n) {i : Int64} :
    (if n < 0x8000000000000000 then Fit.value (Int64.ofInt n) else .misfit) = .value i ↔
      n = i.toInt := by
  have hhigh := i.toInt_lt
  split
  · next h => rw [Fit.value.injEq, ofInt_eq_iff low h]
  · next h => exact iff_of_false nofun (by omega)

/-- Only a plain scalar is read as an integer or passed over. -/
theorem fitInt_of_not_plain {v : Yaml} (h : ∀ text, follow v ≠ .scalar true text) :
    fitInt v = .misfit ∨ fitInt v = .broken := by
  unfold fitInt isLoop resolved?
  generalize follow v = w at h
  cases w with
  | scalar plain text =>
    cases plain with
    | true => exact absurd rfl (h text)
    | false => exact .inl rfl
  | loop name => exact .inr rfl
  | _ => exact .inl rfl

theorem fits_fitInt : Fits fitInt SaysInt := by
  refine fits_of fun v => ?_
  by_cases hplain : ∃ text, follow v = .scalar true text
  · obtain ⟨text, h⟩ := hplain
    simp only [IsNull, SaysInt, WritesNumber, WritesLeast, fitInt, isLoop, resolved?, h,
      Yaml.scalar.injEq, true_and, exists_eq_left', Bool.false_eq_true, if_false]
    cases hr : Yaml.resolve text with
    | int n =>
      have low := Yaml.least_le_of_resolve hr
      refine ⟨iff_of_false ?_ nofun, fun i => (int_eq_value_iff low).trans ?_⟩
      · dsimp only
        split <;> nofun
      · simp
    | fraction n =>
      refine ⟨iff_of_false ?_ nofun, fun i => fraction_eq_value_iff.trans ?_⟩
      · dsimp only
        split
        · nofun
        · split <;> nofun
      · simp
    | _ => simp [eq_comm]
  · have hno (text : String) : follow v ≠ .scalar true text := fun h => hplain ⟨text, h⟩
    have refused : fitInt v ≠ .absent ∧ ∀ i, fitInt v ≠ .value i := by
      rcases fitInt_of_not_plain hno with h | h <;> simp [h]
    simp [IsNull, SaysInt, WritesNumber, WritesLeast, hno, refused]

/-! ## 4. Truth values -/

/-- The words are texts when they stand without quotes. -/
theorem resolve_of_mem_truthWords {b : Bool} {text : String} (h : text ∈ truthWords b) :
    Yaml.resolve text = .text text := by
  have all : ∀ b, ∀ text ∈ truthWords b, Yaml.resolve text = .text text := by decide +kernel
  exact all b text h

theorem wordBool_eq_value_iff {text : String} {b : Bool} :
    (if ["y", "Y", "yes", "Yes", "YES", "on", "On", "ON"].contains text then Fit.value true
      else if ["n", "N", "no", "No", "NO", "off", "Off", "OFF"].contains text then .value false
      else .misfit) = .value b ↔ text ∈ truthWords b := by
  have apart : ∀ text ∈ truthWords true, text ∉ truthWords false := by decide
  simp only [List.contains_iff_mem]
  split
  · next h =>
    cases b with
    | true => exact iff_of_true rfl h
    | false => exact iff_of_false nofun (apart text h)
  · next h =>
    split
    · next h' =>
      cases b with
      | true => exact iff_of_false nofun h
      | false => exact iff_of_true rfl h'
    · next h' => cases b <;> exact iff_of_false nofun (by assumption)

theorem wordBool_ne_absent (text : String) :
    (if ["y", "Y", "yes", "Yes", "YES", "on", "On", "ON"].contains text then Fit.value true
      else if ["n", "N", "no", "No", "NO", "off", "Off", "OFF"].contains text then .value false
      else .misfit) ≠ .absent := by
  split
  · nofun
  · split <;> nofun

theorem fits_fitBool : Fits fitBool SaysBool := by
  refine fits_of fun v => ?_
  unfold IsNull SaysBool fitBool isLoop resolved?
  generalize follow v = w
  cases w with
  | scalar plain text =>
    cases plain with
    | false =>
      refine ⟨iff_of_false (wordBool_ne_absent text) (by simp), fun b => ?_⟩
      exact wordBool_eq_value_iff.trans (by simp)
    | true =>
      cases hr : Yaml.resolve text with
      | text s =>
        have hs := Yaml.eq_of_resolve_text hr
        subst hs
        simp only [hr, Bool.false_eq_true, if_false]
        refine ⟨iff_of_false (wordBool_ne_absent s) (by simp [hr]), fun b => ?_⟩
        exact wordBool_eq_value_iff.trans (by simp [hr])
      | _ =>
        have hword (b : Bool) : text ∉ truthWords b := fun h => by
          simp [resolve_of_mem_truthWords h] at hr
        simp [hr, hword]
  | _ => simp

/-! ## 5. Lists -/

section Items

variable {v : Yaml} {rest : List Yaml} {texts : List String}

/-- The list of an item and those after it. -/
theorem fitItems_cons_eq_value_iff : fitItems (v :: rest) = .value texts ↔
    fitText v = .absent ∧ fitItems rest = .value texts ∨
      ∃ text texts', fitText v = .value text ∧ fitItems rest = .value texts' ∧
        text :: texts' = texts := by
  rw [fitItems]
  cases fitText v <;> cases fitItems rest <;> simp

theorem fitItems_ne_absent : ∀ items, fitItems items ≠ .absent
  | [] => nofun
  | v :: rest => by
    have ih := fitItems_ne_absent rest
    rw [fitItems]
    cases fitText v <;> cases h : fitItems rest <;> simp_all

theorem fitItems_eq_value_iff : ∀ {items : List Yaml} {texts : List String},
    fitItems items = .value texts ↔
      (∀ item ∈ items, IsNull item ∨ (text? item).isSome) ∧ items.filterMap text? = texts
  | [], texts => by simp [fitItems]
  | v :: rest, texts => by
    rw [fitItems_cons_eq_value_iff, List.forall_mem_cons, fits_fitText.absent]
    simp only [fitItems_eq_value_iff, fits_fitText.value, SaysText]
    cases ht : text? v with
    | none =>
      rw [List.filterMap_cons_none ht, and_assoc]
      simp
    | some text =>
      have hnull : ¬ IsNull v := fun h => by simp [text?_of_isNull h] at ht
      have hgives : IsNull v ∨ (some text).isSome := .inr rfl
      rw [List.filterMap_cons_some ht, or_iff_right fun h => hnull h.1, and_iff_right hgives]
      constructor
      · rintro ⟨_, _, ⟨⟩, ⟨hitems, rfl⟩, heq⟩
        exact ⟨hitems, heq⟩
      · rintro ⟨hitems, heq⟩
        exact ⟨text, _, rfl, ⟨hitems, rfl⟩, heq⟩

end Items

theorem fitTexts_eq_value_iff {v : Yaml} {texts : List String} :
    fitTexts v = .value texts ↔ IsNull v ∧ texts = [] ∨ SaysTexts v texts := by
  unfold SaysTexts fitTexts
  cases h : follow v with
  | scalar plain text =>
    rw [isNull_iff h]
    by_cases hnull : plain = true ∧ Yaml.resolve text = .null
    · simp [hnull]
    · simp [hnull]
  | seq items =>
    have other : ¬ IsNull v := not_isNull (by simp [h])
    simp [other, fitItems_eq_value_iff]
  | map entries => simp [not_isNull (v := v) (by simp [h])]
  | loop name => simp [not_isNull (v := v) (by simp [h])]
  | _ => exact absurd h (follow_ne_alias v _ _)

theorem fitTexts_ne_absent (v : Yaml) : fitTexts v ≠ .absent := by
  unfold fitTexts
  split
  · exact fitItems_ne_absent _
  · split <;> nofun
  all_goals nofun

end Settings

end SolidityTree
