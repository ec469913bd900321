import SolidityTree.Proofs.Variants

/-!
# Null members

Is a null member the same as none?  Whoever looks a member up asks whether it is null
(`Json.present?`), with ONE exception: the id that an object is called by (`readableId`) is the
member `id` as it is, and a null there reads as 0.

So a null member may be left out of any object of a document, unless it is an id.  A null id may be
left out under a tag that some kind has, but failures then name no id where they named the id 0.
And under a tag that no kind has, a null id is not like a missing one at all: the object is decoded
as if its id were 0, where without the member it is refused (`decode_null_member`).

Outcomes are compared by their OUTLINES: the tree, the reports, and of a failure all but its text,
which may quote an object that the member was left out of.

Contents
* §1  changing one object of a document
* §2  changing one member
* §3  outlines
* §4  documents without a null member
-/

namespace SolidityTree

open Json

/-! ## 1. One object -/

/-- **`Edited members members' v w`**: `w` is `v` with one object changed, from these members to
those.  The object may be anywhere. -/
inductive Edited (members members' : List (String × Json)) : Json → Json → Prop
  | here (source source' : Thunk Bytes) :
      Edited members members' (.obj source members) (.obj source' members')
  | item {source source' : Thunk Bytes} {before after : List Json} {v w : Json} :
      Edited members members' v w →
      Edited members members' (.arr source (before ++ v :: after))
        (.arr source' (before ++ w :: after))
  | member {source source' : Thunk Bytes} {before after : List (String × Json)} {name : String}
      {v w : Json} : Edited members members' v w →
      Edited members members' (.obj source (before ++ (name, v) :: after))
        (.obj source' (before ++ (name, w) :: after))

/-- A change of one object that makes no difference there makes none to the document. -/
theorem Edited.agree {opts : Options} {named : Bool} {members members' : List (String × Json)}
    {v w : Json} (h : Edited members members' v w)
    (same : ∀ source source' : Thunk Bytes,
      Interchangeable opts named (.obj source members) (.obj source' members')) (slot : Slot) :
    Agree opts named slot v w := by
  induction h generalizing slot with
  | here source source' => exact agree_obj fun _ => same source source'
  | item _ ih => exact agree_item (ih slot.item)
  | @member _ _ _ _ name _ _ _ ih => exact agree_member (ih (slot.member name))

/-! ## 2. One member -/

namespace Json

/-- Every member of a name gets a new value, or is left out. -/
def override (name : String) (value? : Option Json) (members : List (String × Json)) :
    List (String × Json) :=
  members.flatMap fun m => if m.1 = name then value?.toList.map (name, ·) else [m]

variable {name : String} {value? : Option Json} {members : List (String × Json)}

theorem last?_override_self :
    last? name (override name value? members) = (last? name members).bind fun _ => value? := by
  induction members with
  | nil => rfl
  | cons m rest ih =>
    obtain ⟨key, v⟩ := m
    rw [override] at ih ⊢
    rw [List.flatMap_cons, last?_append, ih, last?_cons]
    by_cases hkey : key = name
    · simp only [hkey, if_true]
      cases value? <;> cases last? name rest <;> simp [last?]
    · simp [hkey, last?]

theorem last?_override_of_ne {name' : String} (h : name ≠ name') :
    last? name' (override name value? members) = last? name' members := by
  induction members with
  | nil => rfl
  | cons m rest ih =>
    obtain ⟨key, v⟩ := m
    rw [override] at ih ⊢
    rw [List.flatMap_cons, last?_append, ih, last?_cons]
    by_cases hkey : key = name
    · have hkey' : key ≠ name' := hkey ▸ h
      simp only [hkey, if_true]
      cases value? <;> simp [last?, h]
    · simp [hkey, last?]

/-- Leaving out a null member is not seen by those who ask for null. -/
theorem present?_override (null : last? name members = some .null) (name' : String) :
    present? name' (override name none members) = present? name' members := by
  unfold present?
  by_cases h : name = name'
  · subst h
    rw [last?_override_self, null]
    rfl
  · rw [last?_override_of_ne h]

end Json

theorem readableId_override_of_ne {name : String} {value? : Option Json}
    {members : List (String × Json)} (h : name ≠ "id") :
    readableId (override name value? members) = readableId members := by
  unfold readableId
  rw [last?_override_of_ne h]

/-- A null id reads as the id 0. -/
theorem readableId_of_null {members : List (String × Json)}
    (null : last? "id" members = some .null) : readableId members = some 0 := by
  rw [readableId, null]
  rfl

theorem readableId_without {members : List (String × Json)}
    (null : last? "id" members = some .null) : readableId (override "id" none members) = none := by
  rw [readableId, last?_override_self, null]
  rfl

section Objects

variable {opts : Options} {named : Bool} {name : String} {members : List (String × Json)}
  {source source' : Thunk Bytes}

/-- **A null member that is no id** may be left out. -/
theorem interchangeable_without (null : last? name members = some .null) (hname : name ≠ "id") :
    Interchangeable opts named (.obj source members)
      (.obj source' (override name none members)) := by
  have hid : readableId (override name none members) = readableId members :=
    readableId_override_of_ne hname
  refine interchangeable_obj (congrArg _ hid) (fun _ _ _ => hid) fun name' _ => ?_
  rw [present?_override null]
  exact rel_refl _

/-- **A null id** may be left out under a tag that some kind has. -/
theorem interchangeable_without_id (null : last? "id" members = some .null)
    (registered : ∀ tag, Tagged members tag → ∃ k : Kind, k.tag = tag) :
    Interchangeable opts false (.obj source members)
      (.obj source' (override "id" none members)) := by
  refine interchangeable_obj ?_ ?_ fun name' _ => ?_
  · rw [readableId_without null, readableId_of_null null]
    rfl
  · intro tag tagged unregistered
    obtain ⟨k, hk⟩ := registered tag tagged
    exact absurd hk (unregistered k)
  · rw [present?_override null]
    exact rel_refl _

/-- **A null id is the id 0** under a tag that no kind has. -/
theorem interchangeable_zero_id (null : last? "id" members = some .null) {tag : String}
    (tagged : Tagged members tag) (unregistered : ∀ k : Kind, k.tag ≠ tag) :
    Interchangeable opts named (.obj source members)
      (.obj source' (override "id" (some (.num [0x30])) members)) := by
  have hid : readableId (override "id" (some (.num [0x30])) members) = readableId members := by
    rw [readableId_of_null null, readableId, last?_override_self, null]
    rfl
  refine interchangeable_obj (congrArg _ hid) (fun _ _ _ => hid) fun name' hname => ?_
  -- a tag that no kind has does not ask for the id like for a member
  have hne : "id" ≠ name' := by
    rintro rfl
    rcases hname with hname | ⟨tag', tagged', ⟨k, hk, -⟩ | ⟨-, hname | ⟨hname, -⟩⟩⟩
    · exact absurd hname (by decide)
    · cases Decode.tagged_unique tagged tagged'
      exact unregistered k hk
    · exact absurd hname (by decide)
    · exact absurd hname (by decide)
  unfold present?
  rw [last?_override_of_ne hne]
  exact rel_refl _

/-- Without an id at all, an object of such a tag is refused. -/
theorem node_without_id {depth : Nat} (deep : opts.tooDeep depth = false)
    (null : last? "id" members = some .null) {tag : String} (tagged : Tagged members tag)
    (unregistered : ∀ k : Kind, k.tag ≠ tag) :
    Decode.node opts depth none (.obj source (override "id" none members)) =
      .fail { field := some "id", tag := tag, cause := .noUsableId tag } := by
  have htag : Decode.tagOf (override "id" none members) = .ok tag := by
    rw [← Decode.tagOf_eq_ok_iff.mpr tagged, Decode.tagOf, Decode.tagOf, present?_override null]
  rw [Decode.node_obj deep, htag]
  simp only [Decode.object, Kind.ofTag?_eq_none_iff.mpr unregistered, Decode.unknown,
    readableId_without null]
  rfl

end Objects

/-! ## 3. Outlines -/

/-- What a failure says besides its text. -/
structure Outline where
  category : Category
  path : Path
  field : Option String
  tag : String
  id : Option Int64
  deriving DecidableEq

/-- The outline of a failure.  Unless `named`, no id is as good as the id 0. -/
def Failure.outline (named : Bool) (e : Failure) : Outline :=
  ⟨e.cause.category, e.path, e.field, e.tag, compared named e.id⟩

/-- An outcome in outline. -/
def Outcome.outlined {α : Type} (named : Bool) (x : Outcome Failure α) : Outcome Outline α :=
  ⟨x.reports, x.result.mapError (Failure.outline named)⟩

theorem Cause.category_unquoted (cause : Cause) : cause.unquoted.category = cause.category := by
  cases cause <;> rfl

/-- Failures that agree have one outline. -/
theorem Failure.Agree.outline {named : Bool} {v v' : Json} {e e' : Failure}
    (h : Failure.Agree named v v' e e') : e'.outline named = e.outline named := by
  have hcategory : e'.cause.category = e.cause.category := by
    rw [← Cause.category_unquoted, h.cause.unquoted, Cause.category_unquoted]
  rw [Failure.outline, Failure.outline, hcategory, h.path, h.field, h.tag, h.id]

/-- Outcomes that agree have one outline. -/
theorem Outcome.Agree.outlined {α : Type} {named : Bool} {v v' : Json} {x y : Outcome Failure α}
    (h : Outcome.Agree named v v' x y) : y.outlined named = x.outlined named := by
  unfold Outcome.outlined
  cases hx : x.result with
  | ok a => rw [h.reports, h.ok a hx]
  | error e =>
    obtain ⟨e', he', hagree⟩ := h.error e hx
    rw [h.reports, he', Except.mapError, Except.mapError, hagree.outline]

/-! ## 4. Documents -/

/-- Changing one object of a document so that it makes no difference there. -/
theorem Edited.outlined_decode {opts : Options} {named : Bool}
    {members members' : List (String × Json)} {v v' : Json} {d d' : Bytes}
    (h : Edited members members' v v') (valid : parse? d = some v) (valid' : parse? d' = some v')
    (same : ∀ source source' : Thunk Bytes,
      Interchangeable opts named (.obj source members) (.obj source' members')) :
    (decode opts d').outlined named = (decode opts d).outlined named := by
  have hagree := (h.agree same .node).decode valid valid'
  exact hagree.outlined

/-- **Null members.**  Leaving a null member out of one object of a document makes no difference to
the tree, the reports and the outline of a failure if the member is no id.  If it is the id of an
object without a tag or with a tag that some kind has, the only difference is that a failure names
no id instead of the id 0.  And under a tag that no kind has, the null id is like the id 0, and the
object without it is refused. -/
theorem decode_null_member {opts : Options} {d d' : Bytes} {v v' : Json}
    {members : List (String × Json)} {name : String} (valid : parse? d = some v)
    (valid' : parse? d' = some v') (null : Has members name .null)
    (h : Edited members (override name none members) v v') :
    (name ≠ "id" → (decode opts d').outlined true = (decode opts d).outlined true) ∧
    ((∀ tag, Tagged members tag → ∃ k : Kind, k.tag = tag) →
      (decode opts d').outlined false = (decode opts d).outlined false) ∧
    (∀ tag, name = "id" → Tagged members tag → (∀ k : Kind, k.tag ≠ tag) →
      (∀ d₀ v₀, parse? d₀ = some v₀ →
        Edited members (override "id" (some (.num [0x30])) members) v v₀ →
        (decode opts d₀).outlined true = (decode opts d).outlined true) ∧
      ∀ depth source, opts.tooDeep depth = false →
        Decode.node opts depth none (.obj source (override "id" none members)) =
          .fail { field := some "id", tag := tag, cause := .noUsableId tag }) := by
  have hnull : last? name members = some .null := last?_eq_some_iff.mpr null
  refine ⟨?_, ?_, ?_⟩
  · intro hname
    exact h.outlined_decode valid valid' fun _ _ => interchangeable_without hnull hname
  · intro registered
    by_cases hname : name = "id"
    · subst hname
      exact h.outlined_decode valid valid' fun _ _ => interchangeable_without_id hnull registered
    · exact h.outlined_decode valid valid' fun _ _ => interchangeable_without hnull hname
  · rintro tag rfl tagged unregistered
    constructor
    · intro d₀ v₀ valid₀ h₀
      exact h₀.outlined_decode valid valid₀ fun _ _ =>
        interchangeable_zero_id hnull tagged unregistered
    · intro depth source deep
      exact node_without_id deep hnull tagged unregistered

/-- A node of an unregistered tag whose id and `nodes` are null.  It may do without the second, so
its children are the `statements`; the first is the id 0. -/
theorem decode_null_member_nodes :
    let d := utf8 "\x7b\"nodeType\":\"\",\"id\":null,\"nodes\":null,\"statements\":[]\x7d"
    let withoutNodes := utf8 "\x7b\"nodeType\":\"\",\"id\":null,\"statements\":[]\x7d"
    let withoutId := utf8 "\x7b\"nodeType\":\"\",\"nodes\":null,\"statements\":[]\x7d"
    let zero := utf8 "\x7b\"nodeType\":\"\",\"id\":0,\"nodes\":null,\"statements\":[]\x7d"
    (decode ⟨0, true⟩ withoutNodes).outlined true = (decode ⟨0, true⟩ d).outlined true ∧
      (decode ⟨0, true⟩ zero).outlined true = (decode ⟨0, true⟩ d).outlined true ∧
      (decode ⟨0, true⟩ withoutId).result =
        .error ⟨[], some "id", "", none, .noUsableId ""⟩ := by
  intro d withoutNodes withoutId zero
  have hd : d = [
      0x7b, 0x22, 0x6e, 0x6f, 0x64, 0x65, 0x54, 0x79, 0x70, 0x65, 0x22, 0x3a, 0x22, 0x22, 0x2c,
      0x22, 0x69, 0x64, 0x22, 0x3a, 0x6e, 0x75, 0x6c, 0x6c, 0x2c, 0x22, 0x6e, 0x6f, 0x64, 0x65,
      0x73, 0x22, 0x3a, 0x6e, 0x75, 0x6c, 0x6c, 0x2c, 0x22, 0x73, 0x74, 0x61, 0x74, 0x65, 0x6d,
      0x65, 0x6e, 0x74, 0x73, 0x22, 0x3a, 0x5b, 0x5d, 0x7d] := by
    decide +kernel
  have hd₁ : withoutNodes = [
      0x7b, 0x22, 0x6e, 0x6f, 0x64, 0x65, 0x54, 0x79, 0x70, 0x65, 0x22, 0x3a, 0x22, 0x22, 0x2c,
      0x22, 0x69, 0x64, 0x22, 0x3a, 0x6e, 0x75, 0x6c, 0x6c, 0x2c, 0x22, 0x73, 0x74, 0x61, 0x74,
      0x65, 0x6d, 0x65, 0x6e, 0x74, 0x73, 0x22, 0x3a, 0x5b, 0x5d, 0x7d] := by
    decide +kernel
  have hd₂ : withoutId = [
      0x7b, 0x22, 0x6e, 0x6f, 0x64, 0x65, 0x54, 0x79, 0x70, 0x65, 0x22, 0x3a, 0x22, 0x22, 0x2c,
      0x22, 0x6e, 0x6f, 0x64, 0x65, 0x73, 0x22, 0x3a, 0x6e, 0x75, 0x6c, 0x6c, 0x2c, 0x22, 0x73,
      0x74, 0x61, 0x74, 0x65, 0x6d, 0x65, 0x6e, 0x74, 0x73, 0x22, 0x3a, 0x5b, 0x5d, 0x7d] := by
    decide +kernel
  have hd₃ : zero = [
      0x7b, 0x22, 0x6e, 0x6f, 0x64, 0x65, 0x54, 0x79, 0x70, 0x65, 0x22, 0x3a, 0x22, 0x22, 0x2c,
      0x22, 0x69, 0x64, 0x22, 0x3a, 0x30, 0x2c, 0x22, 0x6e, 0x6f, 0x64, 0x65, 0x73, 0x22, 0x3a,
      0x6e, 0x75, 0x6c, 0x6c, 0x2c, 0x22, 0x73, 0x74, 0x61, 0x74, 0x65, 0x6d, 0x65, 0x6e, 0x74,
      0x73, 0x22, 0x3a, 0x5b, 0x5d, 0x7d] := by
    decide +kernel
  let empty : Json := .str ⟨fun _ => [0x22, 0x22]⟩ ""
  let list : Json := .arr ⟨fun _ => [0x5b, 0x5d]⟩ []
  let members := [("nodeType", empty), ("id", .null), ("nodes", .null), ("statements", list)]
  obtain ⟨s, hv⟩ : ∃ s, parse? d = some (.obj s members) := by
    rw [hd]
    exact ⟨_, rfl⟩
  obtain ⟨s₁, hv₁⟩ : ∃ s₁,
      parse? withoutNodes = some (.obj s₁ (override "nodes" none members)) := by
    rw [hd₁]
    exact ⟨_, rfl⟩
  obtain ⟨s₂, hv₂⟩ : ∃ s₂, parse? withoutId = some (.obj s₂ (override "id" none members)) := by
    rw [hd₂]
    exact ⟨_, rfl⟩
  obtain ⟨s₃, hv₃⟩ : ∃ s₃,
      parse? zero = some (.obj s₃ (override "id" (some (.num [0x30])) members)) := by
    rw [hd₃]
    exact ⟨_, rfl⟩
  have hnodes : Has members "nodes" .null := last?_eq_some_iff.mp rfl
  have hid : Has members "id" .null := last?_eq_some_iff.mp rfl
  have tagged : Tagged members "" := Decode.tagOf_eq_ok_iff.mp rfl
  have unregistered : ∀ k : Kind, k.tag ≠ "" := Kind.ofTag?_eq_none_iff.mp (by decide +kernel)
  obtain ⟨like_zero, refused⟩ :=
    (@decode_null_member ⟨0, true⟩ _ _ _ _ _ _ hv hv₂ hid (.here s s₂)).2.2 "" rfl tagged
      unregistered
  refine ⟨?_, like_zero zero _ hv₃ (.here s s₃), ?_⟩
  · exact (decode_null_member hv hv₁ hnodes (.here s s₁)).1 (by decide)
  · rw [decode, hv₂]
    exact congrArg Outcome.result (refused 0 s₂ rfl)

/-- **A null id is not like a missing one.**  Under a tag that no kind has, the object is kept and
reported with the id 0 instead of being refused; and a failure calls a block without an id by the
id 0. -/
theorem decode_null_id_differs :
    let unknown := utf8 "\x7b\"nodeType\":\"Foo\",\"id\":null,\"nodes\":[]\x7d"
    let unknown' := utf8 "\x7b\"nodeType\":\"Foo\",\"nodes\":[]\x7d"
    let block := utf8 "\x7b\"nodeType\":\"Block\",\"id\":null\x7d"
    let block' := utf8 "\x7b\"nodeType\":\"Block\"\x7d"
    (∃ members v v', parse? unknown = some v ∧ parse? unknown' = some v' ∧
      (members.map Prod.fst).Nodup ∧ Has members "id" .null ∧
      Edited members (override "id" none members) v v' ∧
      (decode ⟨0, true⟩ unknown').outlined true ≠ (decode ⟨0, true⟩ unknown).outlined true) ∧
    (∃ members v v', parse? block = some v ∧ parse? block' = some v' ∧
      (members.map Prod.fst).Nodup ∧ Has members "id" .null ∧
      Edited members (override "id" none members) v v' ∧
      (decode ⟨0, true⟩ block').outlined true ≠ (decode ⟨0, true⟩ block).outlined true) := by
  intro unknown unknown' block block'
  constructor
  · have hd : unknown = [
        0x7b, 0x22, 0x6e, 0x6f, 0x64, 0x65, 0x54, 0x79, 0x70, 0x65, 0x22, 0x3a, 0x22, 0x46, 0x6f,
        0x6f, 0x22, 0x2c, 0x22, 0x69, 0x64, 0x22, 0x3a, 0x6e, 0x75, 0x6c, 0x6c, 0x2c, 0x22, 0x6e,
        0x6f, 0x64, 0x65, 0x73, 0x22, 0x3a, 0x5b, 0x5d, 0x7d] := by
      decide +kernel
    have hd' : unknown' = [
        0x7b, 0x22, 0x6e, 0x6f, 0x64, 0x65, 0x54, 0x79, 0x70, 0x65, 0x22, 0x3a, 0x22, 0x46, 0x6f,
        0x6f, 0x22, 0x2c, 0x22, 0x6e, 0x6f, 0x64, 0x65, 0x73, 0x22, 0x3a, 0x5b, 0x5d, 0x7d] := by
      decide +kernel
    let list : Json := .arr ⟨fun _ => [0x5b, 0x5d]⟩ []
    let tag : Json := .str ⟨fun _ => [0x22, 0x46, 0x6f, 0x6f, 0x22]⟩ "Foo"
    let members := [("nodeType", tag), ("id", .null), ("nodes", list)]
    obtain ⟨s, hv⟩ : ∃ s, parse? unknown = some (.obj s members) := by
      rw [hd]
      exact ⟨_, rfl⟩
    obtain ⟨s', hv'⟩ : ∃ s', parse? unknown' = some (.obj s' (override "id" none members)) := by
      rw [hd']
      exact ⟨_, rfl⟩
    have null : Has members "id" .null := last?_eq_some_iff.mp rfl
    refine ⟨members, _, _, hv, hv', by simp [members], null, .here s s', fun same => ?_⟩
    have reports : ((decode ⟨0, true⟩ unknown').outlined true).reports =
        ((decode ⟨0, true⟩ unknown).outlined true).reports := by
      rw [same]
    exact absurd reports (by decide +kernel)
  · have hd : block = [
        0x7b, 0x22, 0x6e, 0x6f, 0x64, 0x65, 0x54, 0x79, 0x70, 0x65, 0x22, 0x3a, 0x22, 0x42, 0x6c,
        0x6f, 0x63, 0x6b, 0x22, 0x2c, 0x22, 0x69, 0x64, 0x22, 0x3a, 0x6e, 0x75, 0x6c, 0x6c,
        0x7d] := by
      decide +kernel
    have hd' : block' = [
        0x7b, 0x22, 0x6e, 0x6f, 0x64, 0x65, 0x54, 0x79, 0x70, 0x65, 0x22, 0x3a, 0x22, 0x42, 0x6c,
        0x6f, 0x63, 0x6b, 0x22, 0x7d] := by
      decide +kernel
    let tag : Json := .str ⟨fun _ => [0x22, 0x42, 0x6c, 0x6f, 0x63, 0x6b, 0x22]⟩ "Block"
    let members := [("nodeType", tag), ("id", .null)]
    obtain ⟨s, hv⟩ : ∃ s, parse? block = some (.obj s members) := by
      rw [hd]
      exact ⟨_, rfl⟩
    obtain ⟨s', hv'⟩ : ∃ s', parse? block' = some (.obj s' (override "id" none members)) := by
      rw [hd']
      exact ⟨_, rfl⟩
    have null : Has members "id" .null := last?_eq_some_iff.mp rfl
    refine ⟨members, _, _, hv, hv', by simp [members], null, .here s s', fun same => ?_⟩
    have failed : (decode ⟨0, true⟩ block).result =
        .error ⟨[], some "id", "Block", some 0, .missingField⟩ :=
      Outcome.failure?_eq_some_iff.mp (by decide +kernel)
    have failed' : (decode ⟨0, true⟩ block').result =
        .error ⟨[], some "id", "Block", none, .missingField⟩ :=
      Outcome.failure?_eq_some_iff.mp (by decide +kernel)
    have outlines : ((decode ⟨0, true⟩ block').outlined true).result =
        ((decode ⟨0, true⟩ block).outlined true).result := by
      rw [same]
    simp only [Outcome.outlined, failed, failed', Except.mapError] at outlines
    exact absurd (Except.error.inj outlines) (by decide)

end SolidityTree
