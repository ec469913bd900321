import SolidityTree.Proofs.Blame

/-!
# Two runs that agree

When do two documents decode alike?  `Outcome.Agree` compares two runs: the same reports, and the
same tree or two failures with the same place and names.  Two failures may differ in one thing: a
cause that QUOTES a value quotes the value of its own document (`Cause.Agree`).  So the comparison
keeps track of which value of which document a failure addresses.

What decoding finds out about an object is a matter of its READ SET (`IsRead`): the members that
its kind reads.  If the members of the read sets of two objects are alike, each in the way in
which it is read (`Agree`), then the objects are interchangeable as nodes (`interchangeable_obj`).
This is the one statement about all kinds; the rest of the comparison of documents rests on it.

The flag `named` says how the ids that failures name are compared (`compared`).  Without it, no id
is as good as the id 0; an id must then still be the same where it is needed for more than a name.

Contents
* §1  outcomes that agree
* §2  scalars
* §3  members
* §4  read sets and slots
* §5  children
* §6  kinds and nodes
-/

namespace SolidityTree

open Json

/-! ## 1. Outcomes -/

/-- The text that a cause quotes. -/
def Cause.quotation? : Cause → Option Bytes
  | notObject excerpt | notArray excerpt | wordNotString _ excerpt => some excerpt
  | _ => none

/-- A cause without what it quotes. -/
def Cause.unquoted : Cause → Cause
  | notObject _ => notObject []
  | notArray _ => notArray []
  | wordNotString vocabulary _ => wordNotString vocabulary []
  | cause => cause

/-- **Two causes that agree**: they are the same up to quotations, and each quotes the value that it
is about. -/
structure Cause.Agree (w w' : Option Json) (c c' : Cause) : Prop where
  unquoted : c'.unquoted = c.unquoted
  quotes : ∀ q, c.quotation? = some q → ∃ u, w = some u ∧ q = u.excerpt
  quotes' : ∀ q, c'.quotation? = some q → ∃ u, w' = some u ∧ q = u.excerpt

/-- An id as it is compared: whether there is one counts only if `named`. -/
def compared : (named : Bool) → Option Int64 → Option Int64
  | true, id => id
  | false, id => some (id.getD 0)

/-- **Two failures that agree**, one of decoding `v` and one of decoding `v'`. -/
structure Failure.Agree (named : Bool) (v v' : Json) (e e' : Failure) : Prop where
  path : e'.path = e.path
  field : e'.field = e.field
  tag : e'.tag = e.tag
  id : compared named e'.id = compared named e.id
  cause : Cause.Agree (e.offender? v) (e'.offender? v') e.cause e'.cause

/-- **Two outcomes that agree.** -/
structure Outcome.Agree {α : Type} (named : Bool) (v v' : Json) (x y : Outcome Failure α) :
    Prop where
  reports : y.reports = x.reports
  ok : ∀ a, x.result = .ok a → y.result = .ok a
  error : ∀ e, x.result = .error e → ∃ e', y.result = .error e' ∧ Failure.Agree named v v' e e'

theorem Cause.agree_same {cause : Cause} (h : cause.quotation? = none) (w w' : Option Json) :
    Cause.Agree w w' cause cause := by
  refine ⟨rfl, ?_, ?_⟩ <;> simp [h]

/-- What is the same up to quotations, and quotes the same, is the same. -/
theorem Cause.eq_of_unquoted {c c' : Cause} (h : c'.unquoted = c.unquoted)
    (hq : c'.quotation? = c.quotation?) : c' = c := by
  cases c <;> cases c' <;> simp_all [Cause.unquoted, Cause.quotation?]

namespace Failure.Agree

variable {named : Bool} {v v' v'' : Json} {e e' e'' : Failure}

theorem symm (h : Failure.Agree named v v' e e') : Failure.Agree named v' v e' e :=
  ⟨h.path.symm, h.field.symm, h.tag.symm, h.id.symm, h.cause.unquoted.symm,
    h.cause.quotes', h.cause.quotes⟩

theorem trans (h : Failure.Agree named v v' e e') (h' : Failure.Agree named v' v'' e' e'') :
    Failure.Agree named v v'' e e'' :=
  ⟨h'.path.trans h.path, h'.field.trans h.field, h'.tag.trans h.tag,
    h'.id.trans h.id, h'.cause.unquoted.trans h.cause.unquoted,
    h.cause.quotes, h'.cause.quotes'⟩

/-- Two failures that agree are the same if what they quote, if anything, is written the same. -/
theorem eq (h : Failure.Agree true v v' e e')
    (hq : e.cause.quotation? ≠ none →
      (e.offender? v).map Json.text = (e.offender? v').map Json.text) : e' = e := by
  have hoffender : e'.offender? v' = e.offender? v' := by
    rw [Failure.offender?, Failure.offender?, h.path, h.field]
  -- each quotes the value at its own place, and the places are the same
  have hquoted : e'.cause.quotation? = e.cause.quotation? := by
    have same : (e'.cause.quotation?).isSome = (e.cause.quotation?).isSome := by
      have hu := h.cause.unquoted
      revert hu
      cases e.cause <;> cases e'.cause <;> simp [Cause.unquoted, Cause.quotation?]
    cases hc : e.cause.quotation? with
    | none => simpa [hc] using same
    | some q =>
      obtain ⟨q', hc'⟩ : ∃ q', e'.cause.quotation? = some q' :=
        Option.isSome_iff_exists.mp (by rw [same, hc]; rfl)
      obtain ⟨u, hu, rfl⟩ := h.cause.quotes q hc
      obtain ⟨u', hu', rfl⟩ := h.cause.quotes' q' hc'
      have htext := hq (by simp [hc])
      rw [hu, ← hoffender, hu'] at htext
      have htext : u.text = u'.text := Option.some.inj htext
      rw [hc', excerpt, excerpt, htext]
  obtain ⟨path, field, tag, id, cause⟩ := e
  obtain ⟨path', field', tag', id', cause'⟩ := e'
  obtain rfl := h.path
  obtain rfl := h.field
  obtain rfl := h.tag
  obtain rfl : id' = id := h.id
  obtain rfl : cause' = cause := Cause.eq_of_unquoted h.cause.unquoted hquoted
  rfl

end Failure.Agree

namespace Outcome.Agree

variable {α β : Type} {named : Bool} {v v' v'' w w' : Json} {x y z : Outcome Failure α}
  {f g : α → Outcome Failure β}

theorem symm (h : Outcome.Agree named v v' x y) : Outcome.Agree named v' v y x := by
  refine ⟨h.reports.symm, ?_, ?_⟩
  · intro a ha
    cases hx : x.result with
    | ok b => rw [← h.ok b hx, ha]
    | error e =>
      obtain ⟨e', he', -⟩ := h.error e hx
      rw [ha] at he'
      cases he'
  · intro e he
    cases hx : x.result with
    | ok b =>
      rw [h.ok b hx] at he
      cases he
    | error e' =>
      obtain ⟨e'', he'', hagree⟩ := h.error e' hx
      rw [he] at he''
      cases he''
      exact ⟨e', rfl, hagree.symm⟩

theorem trans (h : Outcome.Agree named v v' x y) (h' : Outcome.Agree named v' v'' y z) :
    Outcome.Agree named v v'' x z := by
  refine ⟨h'.reports.trans h.reports, fun a ha => h'.ok a (h.ok a ha), ?_⟩
  intro e he
  obtain ⟨e', he', hagree⟩ := h.error e he
  obtain ⟨e'', he'', hagree'⟩ := h'.error e' he'
  exact ⟨e'', he'', hagree.trans hagree'⟩

theorem pure (a : α) : Outcome.Agree named v v' (pure a : Outcome Failure α) (Pure.pure a) := by
  refine ⟨rfl, fun _ => id, ?_⟩
  rintro e ⟨⟩

theorem fail {e e' : Failure} (h : Failure.Agree named v v' e e') :
    Outcome.Agree named v v' (.fail e : Outcome Failure α) (.fail e') := by
  refine ⟨rfl, by rintro a ⟨⟩, ?_⟩
  rintro _ ⟨⟩
  exact ⟨e', rfl, h⟩

/-- **One computation after another.** -/
theorem bind (hx : Outcome.Agree named v v' x y) (hf : ∀ a, Outcome.Agree named v v' (f a) (g a)) :
    Outcome.Agree named v v' (x >>= f) (y >>= g) := by
  show Outcome.Agree named v v' (x.bind f) (y.bind g)
  cases h : x.result with
  | error e =>
    obtain ⟨e', he', hagree⟩ := hx.error e h
    rw [Outcome.bind_of_error h, Outcome.bind_of_error he']
    refine ⟨hx.reports, ?_, ?_⟩
    · rintro a ⟨⟩
    · rintro _ ⟨⟩
      exact ⟨e', rfl, hagree⟩
  | ok a =>
    have hy := hx.ok a h
    have hbind : ∀ {x : Outcome Failure α} {f : α → Outcome Failure β}, x.result = .ok a →
        x.bind f = ⟨x.reports ++ (f a).reports, (f a).result⟩ := by
      intro x f h
      simp only [Outcome.bind, h]
    rw [hbind h, hbind hy]
    refine ⟨?_, (hf a).ok, (hf a).error⟩
    show y.reports ++ _ = x.reports ++ _
    rw [hx.reports, (hf a).reports]

theorem map (hx : Outcome.Agree named v v' x y) (f : α → β) :
    Outcome.Agree named v v' (f <$> x) (f <$> y) := by
  rw [map_eq_pure_bind, map_eq_pure_bind]
  exact hx.bind fun a => pure (f a)

/-- **One step further up**, on both sides: the step leads to the values that were decoded. -/
theorem under {d : Descent} (hx : Outcome.Agree named w w' x y) (hs : v.step? d = some w)
    (hs' : v'.step? d = some w') : Outcome.Agree named v v' (x.under d) (y.under d) := by
  have hoffender : ∀ {v w : Json}, v.step? d = some w → ∀ e : Failure,
      (e.under d).offender? v = e.offender? w := by
    intro v w h e
    rw [Failure.offender?, Failure.offender?, Failure.under, at?_cons h]
  refine ⟨?_, ?_, ?_⟩
  · show y.reports.map _ = x.reports.map _
    rw [hx.reports]
  · intro a ha
    exact Outcome.result_under_eq_ok.mpr (hx.ok a (Outcome.result_under_eq_ok.mp ha))
  · intro e he
    cases h : x.result with
    | ok a =>
      rw [Outcome.under, h] at he
      cases he
    | error e₁ =>
      rw [Outcome.under, h] at he
      cases he
      obtain ⟨e₂, he₂, hagree⟩ := hx.error e₁ h
      refine ⟨e₂.under d, by rw [Outcome.under, he₂]; rfl, ?_⟩
      refine ⟨congrArg (d :: ·) hagree.path, hagree.field, hagree.tag, hagree.id, ?_⟩
      rw [hoffender hs, hoffender hs']
      exact hagree.cause

end Outcome.Agree

/-! ## 2. Scalars -/

/-- **Two values that look alike from outside**: they are of one kind, and are the same number,
truth value or text. -/
inductive Json.Resembles : Json → Json → Prop
  | null : Resembles .null .null
  | bool (b : Bool) : Resembles (.bool b) (.bool b)
  | num (literal : Bytes) : Resembles (.num literal) (.num literal)
  | str (source source' : Thunk Bytes) (value : String) :
      Resembles (.str source value) (.str source' value)
  | arr (source source' : Thunk Bytes) (items items' : List Json) :
      Resembles (.arr source items) (.arr source' items')
  | obj (source source' : Thunk Bytes) (members members' : List (String × Json)) :
      Resembles (.obj source members) (.obj source' members')

namespace Json.Resembles

variable {u v w : Json}

theorem refl (v : Json) : v.Resembles v := by
  cases v <;> constructor

theorem symm (h : v.Resembles w) : w.Resembles v := by
  cases h <;> constructor

theorem trans (h : u.Resembles v) (h' : v.Resembles w) : u.Resembles w := by
  cases h <;> cases h' <;> constructor

end Json.Resembles

/-- Two readings that agree. -/
inductive ReadAgree {α : Type} (v v' : Json) : Except Cause α → Except Cause α → Prop
  | ok (a : α) : ReadAgree v v' (.ok a) (.ok a)
  | error {c c' : Cause} : Cause.Agree (some v) (some v') c c' →
      ReadAgree v v' (.error c) (.error c')

/-- `Regards read`: reading sees only what a value looks like from outside. -/
def Json.Regards {α : Type} (read : Json → Except Cause α) : Prop :=
  ∀ v v', v.Resembles v' → ReadAgree v v' (read v) (read v')

theorem regards_toInt : Regards toInt := by
  intro v v' h
  cases h with
  | null => exact .ok 0
  | num literal =>
    cases hr : Decimal.read literal with
    | ok i => simp only [toInt, hr]; exact .ok i
    | error t => simp only [toInt, hr]; exact .error (Cause.agree_same rfl _ _)
  | _ => exact .error (Cause.agree_same rfl _ _)

theorem regards_toText : Regards toText := by
  intro v v' h
  cases h with
  | null => exact .ok ""
  | str source source' value => exact .ok value
  | _ => exact .error (Cause.agree_same rfl _ _)

theorem regards_toBool : Regards toBool := by
  intro v v' h
  cases h with
  | null => exact .ok false
  | bool b => exact .ok b
  | _ => exact .error (Cause.agree_same rfl _ _)

theorem regards_toWord {α : Type} (vocabulary : Vocabulary) (ofWord? : String → Option α) :
    Regards (toWord vocabulary ofWord?) := by
  intro v v' h
  have htext := regards_toText v v' h
  unfold toWord
  generalize v.toText = r at htext ⊢
  generalize v'.toText = r' at htext ⊢
  cases htext with
  | ok word =>
    dsimp only
    cases ofWord? word with
    | none => exact .error (Cause.agree_same rfl _ _)
    | some a => exact .ok a
  | error _ =>
    refine .error ⟨rfl, ?_, ?_⟩
    · rintro q ⟨⟩
      exact ⟨v, rfl, rfl⟩
    · rintro q ⟨⟩
      exact ⟨v', rfl, rfl⟩

theorem regards_toSelector : Regards toSelector := by
  intro v v' h
  have htext := regards_toText v v' h
  unfold toSelector
  generalize v.toText = r at htext ⊢
  generalize v'.toText = r' at htext ⊢
  cases htext with
  | ok text =>
    cases hs : Selector.ofText text with
    | ok s => simp only [hs]; exact .ok s
    | error t => simp only [hs]; exact .error (Cause.agree_same rfl _ _)
  | error _ => exact .error (Cause.agree_same rfl _ _)

/-! ## 3. Members -/

/-- Two objects that failures call by the same tag and id. -/
structure Object.Twins (named : Bool) (o o' : Object) : Prop where
  tag : o'.tag = o.tag
  id : compared named o'.id = compared named o.id

namespace Object.Twins

variable {α β : Type} {named : Bool} {o o' : Object} {source source' : Thunk Bytes}
  {field : String} {R : Json → Json → Prop} {read : Json → Except Cause α}

/-- Two failures at one member. -/
theorem failAt (h : Twins named o o') {cause cause' : Cause}
    (hc : Cause.Agree (last? field o.members) (last? field o'.members) cause cause') :
    Outcome.Agree named (.obj source o.members) (.obj source' o'.members)
      (o.failAt field cause : Outcome Failure α) (o'.failAt field cause') :=
  .fail ⟨rfl, rfl, h.tag, h.id, hc⟩

/-- Parts that are there on both sides, or on neither. -/
theorem part?_cases (h : Option.Rel R (present? field o.members) (present? field o'.members)) :
    (o.part? field = none ∧ o'.part? field = none) ∨
      ∃ p p', o.part? field = some p ∧ o'.part? field = some p' ∧ R p.val p'.val ∧
        last? field o.members = some p.val ∧ last? field o'.members = some p'.val := by
  have there : ∀ {o : Object} {p : Part o}, o.part? field = some p →
      last? field o.members = some p.val := fun hp =>
    last?_eq_some_iff.mpr (part?_eq_some_iff.mp hp).1
  rw [← part?_map_val, ← part?_map_val] at h
  cases hp : o.part? field with
  | none =>
    cases hp' : o'.part? field with
    | none => exact Or.inl ⟨rfl, rfl⟩
    | some p' =>
      rw [hp, hp'] at h
      cases h
  | some p =>
    cases hp' : o'.part? field with
    | none =>
      rw [hp, hp'] at h
      cases h
    | some p' =>
      rw [hp, hp'] at h
      cases h with
      | some hr => exact Or.inr ⟨p, p', rfl, rfl, hr, there hp, there hp'⟩

theorem readAt (h : Twins named o o') (hr : Regards read) {w w' : Json} (hw : w.Resembles w')
    (hl : last? field o.members = some w) (hl' : last? field o'.members = some w') :
    Outcome.Agree named (.obj source o.members) (.obj source' o'.members)
      (o.readAt field read w) (o'.readAt field read w') := by
  have hread := hr w w' hw
  unfold Object.readAt
  generalize read w = r at hread ⊢
  generalize read w' = r' at hread ⊢
  cases hread with
  | ok a => exact .pure a
  | error hc => exact h.failAt (by rw [hl, hl']; exact hc)

/-- **A scalar that must be there.** -/
theorem required (h : Twins named o o') (hr : Regards read)
    (hm : Option.Rel Resembles (present? field o.members) (present? field o'.members)) :
    Outcome.Agree named (.obj source o.members) (.obj source' o'.members)
      (o.required field read) (o'.required field read) := by
  rcases part?_cases hm with ⟨hp, hp'⟩ | ⟨p, p', hp, hp', hw, hl, hl'⟩
  · simp only [Object.required, hp, hp']
    exact h.failAt (Cause.agree_same rfl _ _)
  · simp only [Object.required, hp, hp']
    exact h.readAt hr hw hl hl'

/-- **A scalar that may be left out.** -/
theorem optional (h : Twins named o o') (hr : Regards read)
    (hm : Option.Rel Resembles (present? field o.members) (present? field o'.members)) :
    Outcome.Agree named (.obj source o.members) (.obj source' o'.members)
      (o.optional field read) (o'.optional field read) := by
  rcases part?_cases hm with ⟨hp, hp'⟩ | ⟨p, p', hp, hp', hw, hl, hl'⟩
  · simp only [Object.optional, hp, hp']
    exact .pure none
  · simp only [Object.optional, hp, hp']
    exact (h.readAt hr hw hl hl').bind fun a => .pure (some a)

theorem optionalD (h : Twins named o o') (hr : Regards read) (default : α)
    (hm : Option.Rel Resembles (present? field o.members) (present? field o'.members)) :
    Outcome.Agree named (.obj source o.members) (.obj source' o'.members)
      (o.optionalD field read default) (o'.optionalD field read default) :=
  (h.optional hr hm).bind fun a => .pure (a.getD default)

/-- **A list that may be left out**, and what is done with it. -/
theorem list?_bind (h : Twins named o o')
    (hm : Option.Rel Resembles (present? field o.members) (present? field o'.members))
    {f : Option (List (Part o)) → Outcome Failure α}
    {g : Option (List (Part o')) → Outcome Failure α}
    (none : Outcome.Agree named (.obj source o.members) (.obj source' o'.members) (f none) (g none))
    (some : ∀ parts parts', Required o.members field IsList (parts.map Subtype.val) →
      Required o'.members field IsList (parts'.map Subtype.val) →
      Outcome.Agree named (.obj source o.members) (.obj source' o'.members)
        (f (some parts)) (g (some parts'))) :
    Outcome.Agree named (.obj source o.members) (.obj source' o'.members)
      (o.list? field >>= f) (o'.list? field >>= g) := by
  rcases part?_cases hm with ⟨hp, hp'⟩ | ⟨p, p', hp, hp', hw, hl, hl'⟩
  · simp only [Object.list?, hp, hp']
    exact none
  · have hitems : (p.items?).isSome = (p'.items?).isSome := by
      obtain ⟨w, hsize⟩ := p
      obtain ⟨w', hsize'⟩ := p'
      cases hw <;> rfl
    have required : ∀ {o : Object} {p : Part o} {parts : List (Part o)}, o.part? field = .some p →
        p.items? = .some parts → Required o.members field IsList (parts.map Subtype.val) := by
      intro o p parts hp hparts
      exact (required_of_part? hp).mpr (items?_eq_some_iff.mp hparts)
    cases hi : p.items? with
    | none =>
      have hi' : p'.items? = .none := by
        rw [← Option.isNone_iff_eq_none, ← Option.not_isSome, ← hitems, hi]
        rfl
      simp only [Object.list?, hp, hp', hi, hi']
      show Outcome.Agree named _ _ (o.failAt field _) (o'.failAt field _)
      refine h.failAt ⟨rfl, ?_, ?_⟩
      · rintro q ⟨⟩
        exact ⟨p.val, hl, rfl⟩
      · rintro q ⟨⟩
        exact ⟨p'.val, hl', rfl⟩
    | some parts =>
      obtain ⟨parts', hi'⟩ : ∃ parts', p'.items? = .some parts' :=
        Option.isSome_iff_exists.mp (by rw [← hitems, hi]; rfl)
      simp only [Object.list?, hp, hp', hi, hi']
      exact some parts parts' (required hp hi) (required hp' hi')

end Object.Twins

/-! ## 4. Read sets -/

/-- The members that a kind declares. -/
def Kind.fields : Kind → List String
  | .sourceUnit => ["id", "src", "absolutePath", "nodes"]
  | .contractDefinition => ["id", "name", "src", "contractKind", "abstract", "nodes"]
  | .functionDefinition => ["id", "name", "kind", "visibility", "stateMutability", "src",
      "functionSelector", "implemented", "body", "nodes"]
  | .variableDeclaration => ["id", "name", "visibility", "src", "stateVariable", "constant",
      "nodes"]
  | .block => ["id", "src", "statements"]
  | .expressionStatement => ["id", "src", "expression"]
  | .functionCall => ["id", "src", "expression", "arguments"]
  | .identifier => ["id", "src", "name", "referencedDeclaration"]
  | .plain _ => []

/-- What the tag of an object asks for: the members that its kind declares; and for a tag that no
kind has, `nodes`, and `statements` if `nodes` is missing. -/
def IsAskedFor (members : List (String × Json)) (name : String) : Prop :=
  ∃ tag, Tagged members tag ∧
    ((∃ k : Kind, k.tag = tag ∧ name ∈ k.fields) ∨
      (∀ k : Kind, k.tag ≠ tag) ∧
        (name = "nodes" ∨ name = "statements" ∧ Missing members "nodes"))

/-- **The read set of an object**: its tag, its id, and what the tag asks for. -/
def IsRead (members : List (String × Json)) (name : String) : Prop :=
  name = "nodeType" ∨ name = "id" ∨ IsAskedFor members name

/-- What a member is read as. -/
inductive Slot where
  /-- A node. -/
  | node
  /-- A list of nodes. -/
  | nodes
  /-- Neither: a scalar, or something that is not looked into. -/
  | scalar
  deriving DecidableEq

/-- What the member of a name is read as, if it is read. -/
def slotOf (name : String) : Slot :=
  if name ∈ ["nodes", "statements", "arguments"] then .nodes
  else if name ∈ ["expression", "body"] then .node
  else .scalar

/-- **Two values that are interchangeable as nodes**: wherever they are decoded, the outcomes
agree. -/
def Interchangeable (opts : Options) (named : Bool) (v v' : Json) : Prop :=
  ∀ depth role, Outcome.Agree named v v' (Decode.node opts depth role v)
    (Decode.node opts depth role v')

/-- **Two values that are interchangeable in a slot.** -/
structure Agree (opts : Options) (named : Bool) (slot : Slot) (v v' : Json) : Prop where
  resembles : v.Resembles v'
  node : slot = .node → Interchangeable opts named v v'
  nodes : slot = .nodes → ∀ items items', IsList v items → IsList v' items' →
    List.Forall₂ (Interchangeable opts named) items items'

/-! ## 5. Children -/

namespace Decode

variable {opts : Options} {named : Bool} {o o' : Object} {source source' : Thunk Bytes}
  {depth : Nat}

/-- The children of an object, as `node` decodes them. -/
def below (opts : Options) (depth : Nat) (o : Object) : Child o :=
  fun role v => node opts (depth + 1) role v.val

/-- **Two lists of children**, decoded item by item. -/
theorem agree_items {v v' : Json} (role : Option Role) (step : Nat → Descent) :
    ∀ (index : Nat) (parts : List (Part o)) (parts' : List (Part o')),
    List.Forall₂ (Interchangeable opts named) (parts.map Subtype.val) (parts'.map Subtype.val) →
    (∀ i p, parts[i]? = some p → v.step? (step (index + i)) = some p.val) →
    (∀ i p, parts'[i]? = some p → v'.step? (step (index + i)) = some p.val) →
    Outcome.Agree named v v' (items (below opts depth o) role step index parts)
      (items (below opts depth o') role step index parts')
  | _, [], [], _, _, _ => .pure []
  | _, [], _ :: _, h, _, _ => nomatch h
  | _, _ :: _, [], h, _, _ => nomatch h
  | index, p :: rest, p' :: rest', h, leads, leads' => by
    have later : ∀ {o : Object} {v : Json} {p : Part o} {rest : List (Part o)},
        (∀ i q, (p :: rest)[i]? = some q → v.step? (step (index + i)) = some q.val) →
        ∀ i q, rest[i]? = some q → v.step? (step (index + 1 + i)) = some q.val := by
      intro o v p rest leads i q hq
      have := leads (i + 1) q hq
      rwa [Nat.add_comm i, ← Nat.add_assoc] at this
    cases h with
    | cons hp hrest =>
      unfold items
      refine Outcome.Agree.bind ((hp (depth + 1) role).under (leads 0 p rfl) (leads' 0 p' rfl)) ?_
      intro t
      exact (agree_items role step (index + 1) rest rest' hrest (later leads) (later leads')).map _

/-- The items of two lists that are there. -/
theorem agree_itemsOf {field : String} (role : Option Role) {step : Nat → Descent}
    (follow : ∀ v i, Json.step? v (step i) = (v.member? field).bind (item? i))
    (hm : Option.Rel (Agree opts named .nodes) (present? field o.members)
      (present? field o'.members))
    {parts : List (Part o)} {parts' : List (Part o')}
    (list : Required o.members field IsList (parts.map Subtype.val))
    (list' : Required o'.members field IsList (parts'.map Subtype.val)) :
    Outcome.Agree named (.obj source o.members) (.obj source' o'.members)
      (items (below opts depth o) role step 0 parts)
      (items (below opts depth o') role step 0 parts') := by
  have leads : ∀ {o : Object} {source : Thunk Bytes} {parts : List (Part o)},
      Required o.members field IsList (parts.map Subtype.val) → ∀ i p, parts[i]? = some p →
      (Json.obj source o.members).step? (step (0 + i)) = some p.val := by
    intro o source parts list i p hp
    rw [Nat.zero_add, follow, item?_of_required list, List.getElem?_map, hp]
    rfl
  refine agree_items role step 0 parts parts' ?_ (leads list) (leads list')
  obtain ⟨w, hw, hne, hlist⟩ := list
  obtain ⟨w', hw', hne', hlist'⟩ := list'
  rw [present?_eq_some_iff.mpr ⟨hw, hne⟩, present?_eq_some_iff.mpr ⟨hw', hne'⟩] at hm
  cases hm with
  | some hagree => exact hagree.nodes rfl _ _ hlist hlist'

theorem resembles_of_agree {slot : Slot} {x y : Option Json}
    (h : Option.Rel (Agree opts named slot) x y) : Option.Rel Resembles x y := by
  cases h with
  | none => exact .none
  | some h => exact .some h.resembles

theorem agree_list (h : o.Twins named o') {field : String} (role : Option Role)
    {step : Nat → Descent}
    (follow : ∀ v i, Json.step? v (step i) = (v.member? field).bind (item? i))
    (hm : Option.Rel (Agree opts named .nodes) (present? field o.members)
      (present? field o'.members)) :
    Outcome.Agree named (.obj source o.members) (.obj source' o'.members)
      (o.list field >>= items (below opts depth o) role step 0)
      (o'.list field >>= items (below opts depth o') role step 0) := by
  unfold Object.list
  rw [bind_assoc, bind_assoc]
  refine h.list?_bind (resembles_of_agree hm) ?_ ?_
  · exact h.failAt (Cause.agree_same rfl _ _)
  · intro parts parts' list list'
    exact agree_itemsOf role follow hm list list'

theorem agree_children (h : o.Twins named o') (field : ChildField)
    (hm : Option.Rel (Agree opts named .nodes) (present? field.name o.members)
      (present? field.name o'.members)) :
    Outcome.Agree named (.obj source o.members) (.obj source' o'.members)
      (children o (below opts depth o) field) (children o' (below opts depth o') field) := by
  rw [children_eq, children_eq]
  refine agree_list h none ?_ hm
  intro v i
  cases field <;> rfl

theorem agree_optionalNodes (h : o.Twins named o')
    (hm : Option.Rel (Agree opts named .nodes) (present? "nodes" o.members)
      (present? "nodes" o'.members)) :
    Outcome.Agree named (.obj source o.members) (.obj source' o'.members)
      (optionalNodes o (below opts depth o)) (optionalNodes o' (below opts depth o')) := by
  refine h.list?_bind (resembles_of_agree hm) (.pure []) ?_
  intro parts parts' list list'
  exact agree_itemsOf none (fun _ _ => rfl) hm list list'

theorem agree_arguments (h : o.Twins named o')
    (hm : Option.Rel (Agree opts named .nodes) (present? "arguments" o.members)
      (present? "arguments" o'.members)) :
    Outcome.Agree named (.obj source o.members) (.obj source' o'.members)
      (arguments o (below opts depth o)) (arguments o' (below opts depth o')) := by
  refine h.list?_bind (resembles_of_agree hm) (.pure none) ?_
  intro parts parts' list list'
  exact (agree_itemsOf (some .expression) (fun _ _ => rfl) hm list list').bind fun a =>
    .pure (some a)

theorem agree_expression (h : o.Twins named o')
    (hm : Option.Rel (Agree opts named .node) (present? "expression" o.members)
      (present? "expression" o'.members)) :
    Outcome.Agree named (.obj source o.members) (.obj source' o'.members)
      (expression o (below opts depth o)) (expression o' (below opts depth o')) := by
  rcases Object.Twins.part?_cases hm with ⟨hp, hp'⟩ | ⟨p, p', hp, hp', hw, hl, hl'⟩
  · simp only [expression, hp, hp']
    exact h.failAt (Cause.agree_same rfl _ _)
  · simp only [expression, hp, hp']
    exact (hw.node rfl (depth + 1) _).under hl hl'

theorem agree_body (h : o.Twins named o')
    (hm : Option.Rel (Agree opts named .node) (present? "body" o.members)
      (present? "body" o'.members)) :
    Outcome.Agree named (.obj source o.members) (.obj source' o'.members)
      (body o (below opts depth o)) (body o' (below opts depth o')) := by
  rcases Object.Twins.part?_cases hm with ⟨hp, hp'⟩ | ⟨p, p', hp, hp', hw, hl, hl'⟩
  · simp only [body, hp, hp']
    exact .pure none
  · simp only [body, hp, hp']
    refine Outcome.Agree.bind ((hw.node rfl (depth + 1) none).under hl hl') fun t => ?_
    split
    · exact .pure (some t)
    · exact h.failAt (Cause.agree_same rfl _ _)

/-! ## 6. Kinds and nodes -/

/-- **A registered kind** decodes two objects alike if the members that it declares are. -/
theorem agree_known (h : o.Twins named o') {k : Kind}
    (hm : ∀ name ∈ k.fields, Option.Rel (Agree opts named (slotOf name))
      (present? name o.members) (present? name o'.members)) :
    Outcome.Agree named (.obj source o.members) (.obj source' o'.members)
      (known o (below opts depth o) k) (known o' (below opts depth o') k) := by
  have scalar : ∀ name ∈ k.fields,
      Option.Rel Resembles (present? name o.members) (present? name o'.members) :=
    fun name hname => resembles_of_agree (hm name hname)
  cases k with
  | sourceUnit =>
    refine (h.required regards_toInt (scalar "id" (by decide))).bind fun _ => ?_
    refine (h.optionalD regards_toText _ (scalar "src" (by decide))).bind fun _ => ?_
    refine (h.optionalD regards_toText _ (scalar "absolutePath" (by decide))).bind fun _ => ?_
    exact (agree_children h .nodes (hm "nodes" (by decide))).bind fun _ => .pure _
  | contractDefinition =>
    refine (h.required regards_toInt (scalar "id" (by decide))).bind fun _ => ?_
    refine (h.required regards_toText (scalar "name" (by decide))).bind fun _ => ?_
    refine (h.optionalD regards_toText _ (scalar "src" (by decide))).bind fun _ => ?_
    refine (h.optionalD regards_toText _ (scalar "contractKind" (by decide))).bind fun _ => ?_
    refine (h.optionalD regards_toBool _ (scalar "abstract" (by decide))).bind fun _ => ?_
    exact (agree_children h .nodes (hm "nodes" (by decide))).bind fun _ => .pure _
  | functionDefinition =>
    refine (h.required regards_toInt (scalar "id" (by decide))).bind fun _ => ?_
    refine (h.required regards_toText (scalar "name" (by decide))).bind fun _ => ?_
    refine (h.required (regards_toWord _ _) (scalar "kind" (by decide))).bind fun _ => ?_
    refine (h.required (regards_toWord _ _) (scalar "visibility" (by decide))).bind fun _ => ?_
    refine (h.required (regards_toWord _ _) (scalar "stateMutability" (by decide))).bind fun _ => ?_
    refine (h.optionalD regards_toText _ (scalar "src" (by decide))).bind fun _ => ?_
    refine (h.optional regards_toSelector (scalar "functionSelector" (by decide))).bind fun _ => ?_
    refine (h.optional regards_toBool (scalar "implemented" (by decide))).bind fun _ => ?_
    refine (agree_body h (hm "body" (by decide))).bind fun _ => ?_
    dsimp only
    split
    · exact h.failAt (Cause.agree_same rfl _ _)
    · exact (agree_optionalNodes h (hm "nodes" (by decide))).bind fun _ => .pure _
  | variableDeclaration =>
    refine (h.required regards_toInt (scalar "id" (by decide))).bind fun _ => ?_
    refine (h.required regards_toText (scalar "name" (by decide))).bind fun _ => ?_
    refine (h.required (regards_toWord _ _) (scalar "visibility" (by decide))).bind fun _ => ?_
    refine (h.optionalD regards_toText _ (scalar "src" (by decide))).bind fun _ => ?_
    refine (h.optionalD regards_toBool _ (scalar "stateVariable" (by decide))).bind fun _ => ?_
    refine (h.optionalD regards_toBool _ (scalar "constant" (by decide))).bind fun _ => ?_
    exact (agree_optionalNodes h (hm "nodes" (by decide))).bind fun _ => .pure _
  | block =>
    refine (h.required regards_toInt (scalar "id" (by decide))).bind fun _ => ?_
    refine (h.required regards_toText (scalar "src" (by decide))).bind fun _ => ?_
    exact (agree_list h (some .statement) (fun _ _ => rfl) (hm "statements" (by decide))).bind
      fun _ => .pure _
  | expressionStatement =>
    refine (h.required regards_toInt (scalar "id" (by decide))).bind fun _ => ?_
    refine (h.required regards_toText (scalar "src" (by decide))).bind fun _ => ?_
    exact (agree_expression h (hm "expression" (by decide))).bind fun _ => .pure _
  | functionCall =>
    refine (h.required regards_toInt (scalar "id" (by decide))).bind fun _ => ?_
    refine (h.required regards_toText (scalar "src" (by decide))).bind fun _ => ?_
    refine (agree_expression h (hm "expression" (by decide))).bind fun _ => ?_
    exact (agree_arguments h (hm "arguments" (by decide))).bind fun _ => .pure _
  | identifier =>
    refine (h.required regards_toInt (scalar "id" (by decide))).bind fun _ => ?_
    refine (h.required regards_toText (scalar "src" (by decide))).bind fun _ => ?_
    refine (h.required regards_toText (scalar "name" (by decide))).bind fun _ => ?_
    exact (h.optionalD regards_toInt _ (scalar "referencedDeclaration" (by decide))).bind
      fun _ => .pure _
  | plain p => exact .pure _

theorem isSome_part? (o : Object) (name : String) :
    (o.part? name).isSome = (present? name o.members).isSome := by
  rw [← Object.part?_map_val, Option.isSome_map]

theorem isSome_of_rel {α : Type} {R : α → α → Prop} {x y : Option α} (h : Option.Rel R x y) :
    y.isSome = x.isSome := by
  cases h <;> rfl

/-- The list that holds the children of two objects is the same one. -/
theorem childField?_of_rel
    (hnodes : Option.Rel (Agree opts named .nodes) (present? "nodes" o.members)
      (present? "nodes" o'.members))
    (hstatements : present? "nodes" o.members = none →
      Option.Rel (Agree opts named .nodes) (present? "statements" o.members)
        (present? "statements" o'.members)) : childField? o' = childField? o := by
  have hn : (o'.part? "nodes").isSome = (o.part? "nodes").isSome := by
    rw [isSome_part?, isSome_part?, isSome_of_rel hnodes]
  cases hp : o.part? "nodes" with
  | some p =>
    rw [hp] at hn
    simp [childField?, ChildField.name, hn, hp]
  | none =>
    rw [hp] at hn
    have hnone : present? "nodes" o.members = none := by
      rw [← Object.part?_map_val, hp]
      rfl
    have hs : (o'.part? "statements").isSome = (o.part? "statements").isSome := by
      rw [isSome_part?, isSome_part?, isSome_of_rel (hstatements hnone)]
    simp [childField?, ChildField.name, hn, hp, hs]

/-- **An unregistered tag** needs the id for more than a name, so the ids must be the same. -/
theorem agree_unknown (h : o.Twins named o') (hid : o'.id = o.id)
    (hnodes : Option.Rel (Agree opts named .nodes) (present? "nodes" o.members)
      (present? "nodes" o'.members))
    (hstatements : present? "nodes" o.members = none →
      Option.Rel (Agree opts named .nodes) (present? "statements" o.members)
        (present? "statements" o'.members)) :
    Outcome.Agree named (.obj source o.members) (.obj source' o'.members)
      (unknown opts o (below opts depth o)) (unknown opts o' (below opts depth o')) := by
  have hfield := childField?_of_rel hnodes hstatements
  unfold unknown
  rw [hid, hfield, h.tag]
  cases o.id with
  | none => exact h.failAt (Cause.agree_same rfl _ _)
  | some id =>
    dsimp only
    cases hf : childField? o with
    | none => exact h.failAt (Cause.agree_same rfl _ _)
    | some field =>
      have hlist : Option.Rel (Agree opts named .nodes) (present? field.name o.members)
          (present? field.name o'.members) := by
        cases field with
        | nodes => exact hnodes
        | statements =>
          -- `statements` was chosen, so `nodes` is missing
          refine hstatements ?_
          by_contra hne
          have hsome : (o.part? "nodes").isSome = true := by
            rw [isSome_part?]
            exact Option.isSome_iff_ne_none.mpr hne
          simp [childField?, ChildField.name, hsome] at hf
      refine (agree_children h field hlist).bind fun nodes => ?_
      split
      · exact ⟨rfl, fun _ ht => ht, by rintro e ⟨⟩⟩
      · exact .pure _

/-- **Two objects of one tag** agree if the members of their read sets do. -/
theorem agree_object (h : o.Twins named o') (role : Option Role)
    (hid : (∀ k : Kind, k.tag ≠ o.tag) → o'.id = o.id)
    (hknown : ∀ k : Kind, k.tag = o.tag → ∀ name ∈ k.fields,
      Option.Rel (Agree opts named (slotOf name)) (present? name o.members)
        (present? name o'.members))
    (hunknown : (∀ k : Kind, k.tag ≠ o.tag) →
      Option.Rel (Agree opts named .nodes) (present? "nodes" o.members)
        (present? "nodes" o'.members) ∧
      (present? "nodes" o.members = none →
        Option.Rel (Agree opts named .nodes) (present? "statements" o.members)
          (present? "statements" o'.members))) :
    Outcome.Agree named (.obj source o.members) (.obj source' o'.members)
      (object opts role o (below opts depth o)) (object opts role o' (below opts depth o')) := by
  have misplaced : ∀ role, Outcome.Agree named (.obj source o.members) (.obj source' o'.members)
      (.fail (o.failure (.misplaced role o.tag)) : Outcome Failure Node)
      (.fail (o'.failure (.misplaced role o'.tag))) := by
    intro role
    refine .fail ⟨rfl, rfl, h.tag, h.id, ?_⟩
    show Cause.Agree _ _ (.misplaced role o.tag) (.misplaced role o'.tag)
    rw [h.tag]
    exact Cause.agree_same rfl _ _
  unfold object
  rw [show Kind.ofTag? o'.tag = Kind.ofTag? o.tag by rw [h.tag]]
  cases hk : Kind.ofTag? o.tag with
  | none =>
    have unregistered := Kind.ofTag?_eq_none_iff.mp hk
    cases role with
    | none =>
      obtain ⟨hnodes, hstatements⟩ := hunknown unregistered
      exact agree_unknown h (hid unregistered) hnodes hstatements
    | some role => exact misplaced role
  | some k =>
    have htag : k.tag = o.tag := Kind.ofTag?_eq_some_iff.mp hk
    cases role with
    | none => exact agree_known h (hknown k htag)
    | some role =>
      dsimp only
      split
      · exact agree_known h (hknown k htag)
      · exact misplaced role

theorem tagOf_of_rel {members members' : List (String × Json)}
    (h : Option.Rel Resembles (present? "nodeType" members) (present? "nodeType" members')) :
    tagOf members' = tagOf members := by
  unfold tagOf
  generalize present? "nodeType" members = x at h
  generalize present? "nodeType" members' = y at h
  cases h with
  | none => rfl
  | some h => cases h <;> rfl

end Decode

open Decode

/-- **Two objects are interchangeable if the members of their read sets are alike**, each in the way
in which it is read.  The id is read twice: it is asked for like any member, and it is what failures
call the object by; under a tag that no kind has, it is what the node is called by as well. -/
theorem interchangeable_obj {opts : Options} {named : Bool} {source source' : Thunk Bytes}
    {members members' : List (String × Json)}
    (hnamed : compared named (readableId members') = compared named (readableId members))
    (hid : ∀ tag, Tagged members tag → (∀ k : Kind, k.tag ≠ tag) →
      readableId members' = readableId members)
    (hm : ∀ name, name = "nodeType" ∨ IsAskedFor members name →
      Option.Rel (Agree opts named (slotOf name)) (present? name members)
        (present? name members')) :
    Interchangeable opts named (.obj source members) (.obj source' members') := by
  intro depth role
  have htag := tagOf_of_rel (resembles_of_agree (hm "nodeType" (Or.inl rfl)))
  have twins : ∀ tag, (Object.mk tag (readableId members) members).Twins named
      ⟨tag, readableId members', members'⟩ := fun _ => ⟨rfl, hnamed⟩
  cases deep : opts.tooDeep depth with
  | true =>
    rw [node_of_tooDeep deep, node_of_tooDeep deep]
    exact .fail ⟨rfl, rfl, rfl, rfl, Cause.agree_same rfl _ _⟩
  | false =>
    rw [node_obj deep, node_obj deep, htag]
    cases ht : tagOf members with
    | error cause =>
      have hcause : cause.quotation? = none := by
        unfold tagOf at ht
        split at ht <;> cases ht <;> rfl
      exact (twins "").failAt (Cause.agree_same hcause _ _)
    | ok tag =>
      have tagged : Tagged members tag := tagOf_eq_ok_iff.mp ht
      refine agree_object (twins tag) role (hid tag tagged) ?_ ?_
      · intro k hk name hname
        exact hm name (Or.inr ⟨tag, tagged, Or.inl ⟨k, hk, hname⟩⟩)
      · intro unregistered
        refine ⟨hm "nodes" (Or.inr ⟨tag, tagged, Or.inr ⟨unregistered, Or.inl rfl⟩⟩), ?_⟩
        intro hnone
        exact hm "statements" (Or.inr ⟨tag, tagged,
          Or.inr ⟨unregistered, Or.inr ⟨rfl, present?_eq_none_iff.mp hnone⟩⟩⟩)

/-- Values that are no objects are interchangeable: each failure quotes its own value. -/
theorem interchangeable_of_not_obj {opts : Options} {named : Bool} {v v' : Json}
    (hv : ∀ source members, v ≠ .obj source members)
    (hv' : ∀ source members, v' ≠ .obj source members) : Interchangeable opts named v v' := by
  intro depth role
  cases deep : opts.tooDeep depth with
  | true =>
    rw [node_of_tooDeep deep, node_of_tooDeep deep]
    exact .fail ⟨rfl, rfl, rfl, rfl, Cause.agree_same rfl _ _⟩
  | false =>
    rw [node_of_not_obj deep role hv, node_of_not_obj deep role hv']
    refine .fail ⟨rfl, rfl, rfl, rfl, rfl, ?_, ?_⟩
    · rintro q ⟨⟩
      exact ⟨v, rfl, rfl⟩
    · rintro q ⟨⟩
      exact ⟨v', rfl, rfl⟩

/-- **Every value agrees with itself**: its failures quote what they are about.  The induction is on
the size of the value. -/
theorem interchangeable_refl (opts : Options) (named : Bool) (v : Json) :
    Interchangeable opts named v v := by
  induction hn : v.size using Nat.strong_induction_on generalizing v with
  | _ n ih =>
    cases v with
    | obj source members =>
      refine interchangeable_obj rfl (fun _ _ _ => rfl) fun name _ => ?_
      cases hp : present? name members with
      | none => exact .none
      | some w =>
        have hsize : w.size ≤ sizeMembers members := size_le_of_last? (last?_of_present? hp)
        simp only [Json.size] at hn
        refine .some ⟨.refl w, fun _ => ih w.size (by omega) w rfl, ?_⟩
        rintro - items items' ⟨source', rfl⟩ ⟨source'', heq⟩
        cases heq
        rw [List.forall₂_same]
        intro u hu
        have hu := size_le_sizeItems hu
        simp only [Json.size] at hsize
        exact ih u.size (by omega) u rfl
    | _ => exact interchangeable_of_not_obj (by simp) (by simp)

namespace Agree

variable {opts : Options} {named : Bool} {slot : Slot} {u v w : Json}

theorem refl (v : Json) : Agree opts named slot v v := by
  refine ⟨.refl v, fun _ => interchangeable_refl opts named v, ?_⟩
  rintro - items items' ⟨source, rfl⟩ ⟨source', heq⟩
  cases heq
  exact List.forall₂_same.mpr fun u _ => interchangeable_refl opts named u

theorem symm (h : Agree opts named slot v w) : Agree opts named slot w v := by
  refine ⟨h.resembles.symm, fun hs depth role => (h.node hs depth role).symm, ?_⟩
  intro hs items items' hitems hitems'
  have hback := (h.nodes hs items' items hitems' hitems).flip
  exact hback.imp fun _ _ h depth role => (h depth role).symm

theorem trans (h : Agree opts named slot u v) (h' : Agree opts named slot v w) :
    Agree opts named slot u w := by
  have chain : ∀ {xs ys zs : List Json}, List.Forall₂ (Interchangeable opts named) xs ys →
      List.Forall₂ (Interchangeable opts named) ys zs →
      List.Forall₂ (Interchangeable opts named) xs zs := by
    intro xs ys zs hxy
    induction hxy generalizing zs with
    | nil => exact id
    | cons hx _ ih =>
      rintro (_ | ⟨hy, hrest⟩)
      exact .cons (fun depth role => (hx depth role).trans (hy depth role)) (ih hrest)
  refine ⟨h.resembles.trans h'.resembles,
    fun hs depth role => (h.node hs depth role).trans (h'.node hs depth role), ?_⟩
  rintro hs items items'' ⟨source, rfl⟩ ⟨source'', rfl⟩
  obtain ⟨source', items', rfl⟩ : ∃ source' items', v = .arr source' items' := by
    cases h.resembles
    exact ⟨_, _, rfl⟩
  exact chain (h.nodes hs items items' ⟨_, rfl⟩ ⟨_, rfl⟩)
    (h'.nodes hs items' items'' ⟨_, rfl⟩ ⟨_, rfl⟩)

/-- **Documents whose roots agree.** -/
theorem decode {d d' : Bytes} (h : Agree opts named .node v w) (valid : parse? d = some v)
    (valid' : parse? d' = some w) :
    Outcome.Agree named v w (SolidityTree.decode opts d) (SolidityTree.decode opts d') := by
  have hagree := h.node rfl 0 none
  rw [SolidityTree.decode, SolidityTree.decode, valid, valid']
  exact hagree

end Agree

end SolidityTree
