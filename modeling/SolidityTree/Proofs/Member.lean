import Mathlib.Data.List.Basic
import SolidityTree.Decode.Field
import SolidityTree.Proofs.Numeral
import SolidityTree.Proofs.Selector

/-!
# What a member of an object must be

The vocabulary in which the grammar of documents is stated, and the proof that the readers of
`Object` read exactly what it describes.  Nothing in §1 and §2 mentions a reader.

* `Has members name v`: some member is called `name`, and the LAST one of them has the value `v`;
* `Missing members name`: no member is called `name`, or the last one is null;
* `Required`, `Maybe` and `Defaulted` say that a member is there and has a shape, that it has the
  shape if it is there, and that it has the shape or leaves a value of its own.

A shape is a relation between a JSON value and what it stands for.  `Reads read shape` joins the
two sides for one kind of scalar, and §4 lifts it to members.

Contents
* §1  members
* §2  shapes
* §3  the readers of scalars
* §4  the readers of members
-/

namespace SolidityTree

variable {α : Type}

/-! ## 1. Members -/

/-- **The member that counts**: of all members called `name` the last one has the value `v`. -/
def Has (members : List (String × α)) (name : String) (v : α) : Prop :=
  ∃ before after, members = before ++ (name, v) :: after ∧ ∀ m ∈ after, m.1 ≠ name

/-- No member is called `name`, or the one that counts is null. -/
def Missing (members : List (String × Json)) (name : String) : Prop :=
  (∀ m ∈ members, m.1 ≠ name) ∨ Has members name .null

/-- The member is there and stands for `a`. -/
def Required (members : List (String × Json)) (name : String) (shape : Json → α → Prop) (a : α) :
    Prop :=
  ∃ v, Has members name v ∧ v ≠ .null ∧ shape v a

/-- The member is missing, or it is there and stands for the value. -/
def Maybe (members : List (String × Json)) (name : String) (shape : Json → α → Prop) :
    Option α → Prop
  | none => Missing members name
  | some a => Required members name shape a

/-- The member is missing and `a` is the default, or the member stands for `a`. -/
def Defaulted (members : List (String × Json)) (name : String) (shape : Json → α → Prop)
    (default a : α) : Prop :=
  ∃ x, Maybe members name shape x ∧ x.getD default = a

namespace Json

theorem last?_eq_none_iff {name : String} {members : List (String × Json)} :
    last? name members = none ↔ ∀ m ∈ members, m.1 ≠ name := by
  induction members with
  | nil => simp [last?]
  | cons m rest ih =>
    obtain ⟨key, v⟩ := m
    simp only [last?, List.mem_cons, forall_eq_or_imp]
    cases h : last? name rest with
    | some w =>
      rw [h] at ih
      refine iff_of_false (by rintro ⟨⟩) fun h' => ?_
      cases ih.mpr h'.2
    | none =>
      have hrest := ih.mp h
      by_cases hk : key = name
      · simp [hk]
      · simpa [hk] using hrest

theorem last?_eq_some_iff {name : String} {v : Json} {members : List (String × Json)} :
    last? name members = some v ↔ Has members name v := by
  constructor
  · intro h
    induction members with
    | nil => cases h
    | cons m rest ih =>
      obtain ⟨key, w⟩ := m
      simp only [last?] at h
      split at h
      · next later hl =>
        cases h
        obtain ⟨before, after, rfl, ha⟩ := ih hl
        exact ⟨(key, w) :: before, after, rfl, ha⟩
      · next hl =>
        split at h
        · next hk =>
          cases h
          exact ⟨[], rest, by rw [hk]; rfl, last?_eq_none_iff.mp hl⟩
        · cases h
  · rintro ⟨before, after, rfl, ha⟩
    induction before with
    | nil =>
      rw [List.nil_append, last?, last?_eq_none_iff.mpr ha]
      simp
    | cons m before ih => rw [List.cons_append, last?, ih]

/-- A name has at most one member that counts. -/
theorem has_unique {name : String} {v w : Json} {members : List (String × Json)}
    (hv : Has members name v) (hw : Has members name w) : v = w :=
  Option.some.inj ((last?_eq_some_iff.mpr hv).symm.trans (last?_eq_some_iff.mpr hw))

theorem present?_eq_some_iff {name : String} {v : Json} {members : List (String × Json)} :
    present? name members = some v ↔ Has members name v ∧ v ≠ .null := by
  rw [← last?_eq_some_iff]
  unfold present?
  split
  · next h =>
    refine ⟨by rintro ⟨⟩, ?_⟩
    rintro ⟨h', hne⟩
    rw [h] at h'
    exact absurd (Option.some.inj h').symm hne
  · next hne =>
    refine ⟨fun h' => ⟨h', ?_⟩, fun h' => h'.1⟩
    rintro rfl
    exact hne h'

theorem present?_eq_none_iff {name : String} {members : List (String × Json)} :
    present? name members = none ↔ Missing members name := by
  rw [Missing, ← last?_eq_none_iff, ← last?_eq_some_iff]
  unfold present?
  split
  · next h => simp [h]
  · next hne => exact ⟨Or.inl, fun h => h.elim id fun h' => absurd h' hne⟩

/-! ## 2. Shapes -/

/-- A number written as a numeral of the integer. -/
def IsInt (v : Json) (i : Int64) : Prop :=
  ∃ literal, v = .num literal ∧ Decimal.Numeral literal i.toInt

/-- A string that denotes the text. -/
def IsText (v : Json) (s : String) : Prop := ∃ source, v = .str source s

/-- A truth value. -/
def IsBool (v : Json) (b : Bool) : Prop := v = .bool b

/-- A string that is the word of a thing. -/
def IsWord (word : α → String) (v : Json) (a : α) : Prop := IsText v (word a)

/-- A string of eight hexadecimal digits that write the selector. -/
def IsSelector (v : Json) (s : Selector) : Prop := ∃ text, IsText v text ∧ s.WrittenBy text

/-- An array with the items. -/
def IsList (v : Json) (items : List Json) : Prop := ∃ source, v = .arr source items

/-! ## 3. Scalars -/

/-- `Reads read shape`: of the values that are not null, `read` accepts those that have the shape,
and takes each for what it stands for. -/
def Reads (read : Json → Except Cause α) (shape : Json → α → Prop) : Prop :=
  ∀ v a, v ≠ .null → (read v = .ok a ↔ shape v a)

theorem reads_toInt : Reads toInt IsInt := by
  intro v i hv
  cases v with
  | null => exact absurd rfl hv
  | num literal =>
    have : toInt (.num literal) = .ok i ↔ Decimal.read literal = .ok i := by
      cases h : Decimal.read literal <;> simp [toInt, h]
    simp [this, IsInt, Decimal.read_eq_ok_iff]
  | bool b => simp [toInt, IsInt]
  | str source value => simp [toInt, IsInt]
  | arr source items => simp [toInt, IsInt]
  | obj source members => simp [toInt, IsInt]

theorem reads_toText : Reads toText IsText := by
  intro v s hv
  cases v with
  | null => exact absurd rfl hv
  | str source value =>
    refine ⟨fun h => ?_, ?_⟩
    · cases h
      exact ⟨source, rfl⟩
    · rintro ⟨source', h⟩
      cases h
      rfl
  | bool b => simp [toText, IsText]
  | num literal => simp [toText, IsText]
  | arr source items => simp [toText, IsText]
  | obj source members => simp [toText, IsText]

theorem reads_toBool : Reads toBool IsBool := by
  intro v b hv
  cases v with
  | null => exact absurd rfl hv
  | bool b' => simp [toBool, IsBool]
  | num literal => simp [toBool, IsBool]
  | str source value => simp [toBool, IsBool]
  | arr source items => simp [toBool, IsBool]
  | obj source members => simp [toBool, IsBool]

/-- The words of a vocabulary are read if its table is right. -/
theorem reads_toWord {vocabulary : Vocabulary} {ofWord? : String → Option α} {word : α → String}
    (table : ∀ {s a}, ofWord? s = some a ↔ word a = s) :
    Reads (toWord vocabulary ofWord?) (IsWord word) := by
  intro v a hv
  have hr : ∀ s, v.toText = .ok s ↔ IsText v s := fun s => reads_toText v s hv
  unfold toWord IsWord
  split
  · next e h =>
    refine ⟨by rintro ⟨⟩, fun h' => ?_⟩
    rw [(hr _).mpr h'] at h
    cases h
  · next s h =>
    split
    · next b hb =>
      rw [Except.ok.injEq, ← hr, h, Except.ok.injEq, eq_comm (a := s), ← table, hb,
        Option.some.injEq]
    · next hb =>
      refine ⟨by rintro ⟨⟩, fun h' => ?_⟩
      rw [← hr, h, Except.ok.injEq, eq_comm, ← table, hb] at h'
      cases h'

theorem reads_toVisibility : Reads toVisibility (IsWord Visibility.word) :=
  reads_toWord Visibility.ofWord?_eq_some_iff

theorem reads_toMutability : Reads toMutability (IsWord Mutability.word) :=
  reads_toWord Mutability.ofWord?_eq_some_iff

theorem reads_toFunctionKind : Reads toFunctionKind (IsWord FunctionKind.word) :=
  reads_toWord FunctionKind.ofWord?_eq_some_iff

theorem reads_toSelector : Reads toSelector IsSelector := by
  intro v sel hv
  have hr : ∀ s, v.toText = .ok s ↔ IsText v s := fun s => reads_toText v s hv
  unfold toSelector IsSelector
  simp only [← hr]
  cases v.toText with
  | error e => simp
  | ok s =>
    simp only [Except.ok.injEq, exists_eq_left', ← Selector.ofText_eq_ok_iff]
    cases Selector.ofText s with
    | error e => exact iff_of_false (by rintro ⟨⟩) (by rintro ⟨⟩)
    | ok t =>
      constructor
      · rintro ⟨⟩
        rfl
      · rintro ⟨⟩
        rfl

end Json

/-! ## 4. Members of an object -/

namespace Object

variable {o : Object} {field : String}

theorem part?_map_val (o : Object) (field : String) :
    (o.part? field).map Subtype.val = Json.present? field o.members := by
  unfold part?
  split
  · next h => exact h.symm
  · next h => exact h.symm

theorem part?_eq_none_iff : o.part? field = none ↔ Missing o.members field := by
  rw [← Json.present?_eq_none_iff, ← part?_map_val, Option.map_eq_none_iff]

theorem part?_eq_some_iff {v : Part o} :
    o.part? field = some v ↔ Has o.members field v.val ∧ v.val ≠ .null := by
  rw [← Json.present?_eq_some_iff, ← part?_map_val, Option.map_eq_some_iff]
  constructor
  · intro h
    exact ⟨v, h, rfl⟩
  · rintro ⟨w, h, hw⟩
    rw [h, Subtype.ext hw]

/-- The value of a member that is there is the part under its name. -/
theorem required_of_part? {shape : Json → α → Prop} {v : Part o} {a : α}
    (h : o.part? field = some v) : Required o.members field shape a ↔ shape v.val a := by
  obtain ⟨h1, h2⟩ := part?_eq_some_iff.mp h
  constructor
  · rintro ⟨w, hw, -, hs⟩
    rw [Json.has_unique h1 hw]
    exact hs
  · intro hs
    exact ⟨v.val, h1, h2, hs⟩

/-- Without a part under its name a member is not there. -/
theorem not_required_of_part? {shape : Json → α → Prop} {a : α} (h : o.part? field = none) :
    ¬ Required o.members field shape a := by
  rintro ⟨w, h1, h2, -⟩
  rw [part?_eq_none_iff, ← Json.present?_eq_none_iff, Json.present?_eq_some_iff.mpr ⟨h1, h2⟩] at h
  cases h

theorem maybe_of_part?_eq_none {shape : Json → α → Prop} {x : Option α} (h : o.part? field = none) :
    Maybe o.members field shape x ↔ x = none := by
  cases x with
  | none => exact iff_of_true (part?_eq_none_iff.mp h) rfl
  | some a => exact iff_of_false (not_required_of_part? h) (Option.some_ne_none a)

theorem maybe_of_part?_eq_some {shape : Json → α → Prop} {x : Option α} {v : Part o}
    (h : o.part? field = some v) :
    Maybe o.members field shape x ↔ ∃ a, x = some a ∧ shape v.val a := by
  cases x with
  | none =>
    refine iff_of_false (fun hm => ?_) (by simp)
    rw [part?_eq_none_iff.mpr hm] at h
    cases h
  | some a =>
    rw [Maybe, required_of_part? h]
    simp

theorem result_readAt {read : Json → Except Cause α} {v : Json} {a : α} :
    (o.readAt field read v).result = .ok a ↔ read v = .ok a := by
  cases h : read v <;> simp [readAt, h, failAt]

variable {read : Json → Except Cause α} {shape : Json → α → Prop}

/-- **A required scalar** is read exactly if it is there and has its shape. -/
theorem result_required (h : Json.Reads read shape) {a : α} :
    (o.required field read).result = .ok a ↔ Required o.members field shape a := by
  unfold required
  split
  · next hn =>
    refine iff_of_false ?_ (not_required_of_part? hn)
    simp [failAt]
  · next v hv =>
    obtain ⟨-, hne⟩ := part?_eq_some_iff.mp hv
    rw [result_readAt, required_of_part? hv, h v.val a hne]

/-- **An optional scalar** may also be missing. -/
theorem result_optional (h : Json.Reads read shape) {x : Option α} :
    (o.optional field read).result = .ok x ↔ Maybe o.members field shape x := by
  unfold optional
  split
  · next hn =>
    rw [maybe_of_part?_eq_none hn, Outcome.result_ok, Except.ok.injEq, eq_comm]
  · next v hv =>
    obtain ⟨-, hne⟩ := part?_eq_some_iff.mp hv
    rw [maybe_of_part?_eq_some hv, Outcome.result_bind_eq_ok]
    refine exists_congr fun a => ?_
    rw [result_readAt, h v.val a hne, Outcome.result_pure, Except.ok.injEq, and_comm, eq_comm]

/-- An optional scalar with a value of its own. -/
theorem result_optionalD (h : Json.Reads read shape) {default a : α} :
    (o.optionalD field read default).result = .ok a ↔
      Defaulted o.members field shape default a := by
  unfold optionalD Defaulted
  simp only [Outcome.result_bind_eq_ok, result_optional h, Outcome.result_pure, Except.ok.injEq]

theorem items?_eq_some_iff {v : Part o} {parts : List (Part o)} :
    v.items? = some parts ↔ Json.IsList v.val (parts.map Subtype.val) := by
  obtain ⟨v, hv⟩ := v
  cases v with
  | arr source items =>
    have hmap : ∀ h, (items.pmap (fun v hv => (⟨v, hv⟩ : Part o)) h).map Subtype.val = items := by
      intro h
      simp [List.map_pmap]
    simp only [Part.items?, Option.some.injEq]
    constructor
    · rintro rfl
      exact ⟨source, by rw [hmap]⟩
    · rintro ⟨source', h⟩
      cases h
      exact List.map_injective_iff.mpr Subtype.val_injective (hmap _)
  | null => simp [Part.items?, Json.IsList]
  | bool b => simp [Part.items?, Json.IsList]
  | num literal => simp [Part.items?, Json.IsList]
  | str source value => simp [Part.items?, Json.IsList]
  | obj source members => simp [Part.items?, Json.IsList]

/-- **A list that may be left out.** -/
theorem result_list? {x : Option (List (Part o))} :
    (o.list? field).result = .ok x ↔
      Maybe o.members field Json.IsList (x.map (List.map Subtype.val)) := by
  unfold list?
  split
  · next hn =>
    rw [maybe_of_part?_eq_none hn, Outcome.result_ok, Except.ok.injEq, Option.map_eq_none_iff,
      eq_comm]
  · next v hv =>
    rw [maybe_of_part?_eq_some hv]
    cases x with
    | none =>
      refine iff_of_false (fun h => ?_) (by simp)
      split at h <;> cases h
    | some parts =>
      simp only [Option.map_some, Option.some.injEq, exists_eq_left', ← items?_eq_some_iff]
      cases v.items? <;> simp [failAt]

/-- **A list that must be there.** -/
theorem result_list {parts : List (Part o)} :
    (o.list field).result = .ok parts ↔
      Required o.members field Json.IsList (parts.map Subtype.val) := by
  have h : (o.list field).result = .ok parts ↔ (o.list? field).result = .ok (some parts) := by
    unfold list
    rw [Outcome.result_bind_eq_ok]
    constructor
    · rintro ⟨x, hx, h⟩
      cases x with
      | none => cases h
      | some items =>
        rw [Outcome.result_ok, Except.ok.injEq] at h
        rw [hx, h]
    · intro h
      exact ⟨some parts, h, rfl⟩
  rw [h, result_list?]
  rfl

end Object

end SolidityTree
