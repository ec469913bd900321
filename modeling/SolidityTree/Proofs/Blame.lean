import SolidityTree.Decode
import SolidityTree.Proofs.DepthLimit
import SolidityTree.Proofs.Grammar
import SolidityTree.Proofs.Place

/-!
# What failures blame

A failure says where it arose, which member is to blame, and what the node there is called.  Each of
these is taken from the object at hand when decoding stops, and then travels up unchanged except for
its path, so a wrong object or a wrong number on the way would go unnoticed.  `Fault v e` says of a
VALUE alone what must be wrong with it, and how it must be called, for the failure `e` to be right
about it; it mentions no decoding.  `decode_blames` says that every failure is right about the value
that its path leads to.

Failures about positions are the exception to a rule and get a section of their own.  A node that
may not stand where it stands is named itself, but where the body of a function is no block the
FUNCTION is named, and a root that is no source unit is named without its id.

Contents
* §1  faults
* §2  computations that blame rightly
* §3  members
* §4  children
* §5  kinds and nodes
* §6  documents
* §7  positions
-/

namespace SolidityTree

open Json

/-! ## 1. Faults -/

/-- The id that an object is called by: the one that is readable, and 0 for null. -/
def IdOf (members : List (String × Json)) (id : Option Int64) : Prop :=
  ∀ i, id = some i ↔ IdOrNull members i

/-- **What an object is called**: by its tag, or by nothing if it has none, and by its id. -/
structure Names (members : List (String × Json)) (tag : String) (id : Option Int64) : Prop where
  tag : Tagged members tag ∨ (∀ tag', ¬ Tagged members tag') ∧ tag = ""
  id : IdOf members id

/-- The causes that lie in the value of a member. -/
def Cause.InMember : Cause → Prop
  | tagNotString | mismatch _ _ | notArray _ | wordNotString _ _ | unknownWord _ _
  | selectorNotString | badSelector _ _ => True
  | _ => False

/-- **What may be wrong with an object**: the member to blame, if one is, and the cause. -/
inductive Object.Trouble (o : Object) : Option String → Cause → Prop
  | untagged : Missing o.members "nodeType" → o.Trouble (some "nodeType") .missingTag
  | missing {field : String} : Missing o.members field → o.Trouble (some field) .missingField
  | missingBody : Missing o.members "body" → o.Trouble (some "body") .missingBody
  | unreadable {field : String} {v : Json} {cause : Cause} : Has o.members field v →
      cause.InMember → o.Trouble (some field) cause
  | noUsableId : (∀ id, ¬ IdOrNull o.members id) → o.Trouble (some "id") (.noUsableId o.tag)
  | noChildList : Missing o.members "nodes" → Missing o.members "statements" →
      o.Trouble (some "nodes") (.noChildList o.tag)
  /-- The kind of the object, if it has one, may not stand here. -/
  | misplaced {role : Role} : Tagged o.members o.tag →
      (∀ k : Kind, k.tag = o.tag → k.allows role = false) →
      o.Trouble none (.misplaced role o.tag)
  /-- The body of a function is a node, but no block. -/
  | bodyNotBlock {source : Thunk Bytes} {members : List (String × Json)} {tag : String} :
      o.tag = "FunctionDefinition" → Has o.members "body" (.obj source members) →
      Tagged members tag → tag ≠ "Block" → o.Trouble (some "body") (.bodyNotBlock tag)

/-- **The faults of a value**, as a failure at the value itself reports them. -/
inductive Fault : Json → Failure → Prop
  | tooDeep (v : Json) {limit : Int64} : Fault v { cause := .tooDeep limit }
  | notObject {v : Json} : (∀ source members, v ≠ .obj source members) →
      Fault v { cause := .notObject v.excerpt }
  | object {source : Thunk Bytes} {o : Object} {field : Option String} {cause : Cause} :
      Names o.members o.tag o.id → o.Trouble field cause →
      Fault (.obj source o.members) { tag := o.tag, id := o.id, field := field, cause := cause }

/-! ## 2. Computations -/

namespace Outcome

variable {α β : Type} {v w : Json}

/-- `x.Blames v`: a failure of `x` is right about the value that its path leads to from `v`. -/
def Blames (v : Json) (x : Outcome Failure α) : Prop :=
  ∀ e, x.result = .error e → ∃ w, v.at? e.path = some w ∧ Fault w { e with path := [] }

theorem blames_ok (a : α) : (ok a).Blames v := by
  rintro e ⟨⟩

/-- A failure comes from the first computation or, if that succeeds, from the second. -/
theorem result_bind_eq_error {ε : Type} {x : Outcome ε α} {f : α → Outcome ε β} {e : ε} :
    (x >>= f).result = .error e ↔
      x.result = .error e ∨ ∃ a, x.result = .ok a ∧ (f a).result = .error e := by
  show (x.bind f).result = .error e ↔ _
  cases h : x.result <;> simp [Outcome.bind, h]

theorem Blames.bind {x : Outcome Failure α} {f : α → Outcome Failure β} (hx : x.Blames v)
    (hf : ∀ a, x.result = .ok a → (f a).Blames v) : (x >>= f).Blames v := by
  intro e he
  rcases result_bind_eq_error.mp he with he | ⟨a, ha, he⟩
  · exact hx e he
  · exact hf a ha e he

/-- One computation after another, whatever the first one gives. -/
theorem Blames.after {x : Outcome Failure α} {f : α → Outcome Failure β} (hx : x.Blames v)
    (hf : ∀ a, (f a).Blames v) : (x >>= f).Blames v :=
  hx.bind fun a _ => hf a

theorem Blames.map {x : Outcome Failure α} (hx : x.Blames v) (f : α → β) :
    (x >>= fun a => pure (f a)).Blames v :=
  hx.after fun a => blames_ok (f a)

/-- One step further up: the step is the one that leads to the value. -/
theorem Blames.under {x : Outcome Failure α} {d : Descent} (hx : x.Blames w)
    (hs : v.step? d = some w) : (x.under d).Blames v := by
  obtain ⟨reports, result⟩ := x
  intro e he
  cases result with
  | ok a => cases he
  | error e' =>
    cases he
    obtain ⟨u, hu, hf⟩ := hx e' rfl
    exact ⟨u, (at?_cons hs _).trans hu, hf⟩

end Outcome

open Outcome

/-! ## 3. Members -/

/-- `Complains read`: what `read` says of a value that it does not accept lies in the value. -/
def Json.Complains {α : Type} (read : Json → Except Cause α) : Prop :=
  ∀ v cause, read v = .error cause → cause.InMember

namespace Json

theorem complains_toInt : Complains toInt := by
  intro v cause h
  cases v with
  | null => cases h
  | num literal =>
    rw [toInt] at h
    split at h <;> cases h
    trivial
  | _ =>
    cases h
    trivial

theorem complains_toText : Complains toText := by
  intro v cause h
  cases v with
  | null | str => cases h
  | _ =>
    cases h
    trivial

theorem complains_toBool : Complains toBool := by
  intro v cause h
  cases v with
  | null | bool => cases h
  | _ =>
    cases h
    trivial

theorem complains_toWord {α : Type} (vocabulary : Vocabulary) (ofWord? : String → Option α) :
    Complains (toWord vocabulary ofWord?) := by
  intro v cause h
  unfold toWord at h
  split at h
  · cases h
    trivial
  · split at h <;> cases h
    trivial

theorem complains_toSelector : Complains toSelector := by
  intro v cause h
  unfold toSelector at h
  split at h
  · cases h
    trivial
  · next text _ =>
    cases hs : Selector.ofText text with
    | ok s =>
      rw [hs] at h
      cases h
    | error trouble =>
      rw [hs] at h
      cases h
      trivial

end Json

namespace Object

variable {α : Type} {o : Object} {source : Thunk Bytes} {field : String}
  {read : Json → Except Cause α}

theorem blames_failAt (named : Names o.members o.tag o.id) {cause : Cause}
    (h : o.Trouble (some field) cause) :
    (o.failAt field cause : Outcome Failure α).Blames (.obj source o.members) := by
  rintro e ⟨⟩
  exact ⟨_, rfl, .object named h⟩

theorem blames_readAt (named : Names o.members o.tag o.id) (hr : Complains read) {v : Json}
    (hv : Has o.members field v) : (o.readAt field read v).Blames (.obj source o.members) := by
  unfold readAt
  split
  · exact blames_ok _
  · next cause hc => exact blames_failAt named (.unreadable hv (hr v cause hc))

/-- **A required scalar**: it is the member that is missing or unreadable. -/
theorem blames_required (named : Names o.members o.tag o.id) (field : String)
    (hr : Complains read) : (o.required field read).Blames (.obj source o.members) := by
  unfold required
  split
  · next h => exact blames_failAt named (.missing (part?_eq_none_iff.mp h))
  · next h => exact blames_readAt named hr (part?_eq_some_iff.mp h).1

theorem blames_optional (named : Names o.members o.tag o.id) (field : String)
    (hr : Complains read) : (o.optional field read).Blames (.obj source o.members) := by
  unfold optional
  split
  · exact blames_ok _
  · next h => exact (blames_readAt named hr (part?_eq_some_iff.mp h).1).map _

theorem blames_optionalD (named : Names o.members o.tag o.id) (field : String) (hr : Complains read)
    (default : α) : (o.optionalD field read default).Blames (.obj source o.members) :=
  (blames_optional named field hr).map _

theorem blames_list? (named : Names o.members o.tag o.id) (field : String) :
    (o.list? field).Blames (.obj source o.members) := by
  unfold list?
  split
  · exact blames_ok _
  · next h =>
    split
    · exact blames_ok _
    · exact blames_failAt named (.unreadable (part?_eq_some_iff.mp h).1 trivial)

theorem blames_list (named : Names o.members o.tag o.id) (field : String) :
    (o.list field).Blames (.obj source o.members) := by
  unfold list
  refine (blames_list? named field).bind fun parts hparts => ?_
  cases parts with
  | none =>
    have hm : Missing o.members field := result_list?.mp hparts
    exact blames_failAt named (.missing hm)
  | some parts => exact blames_ok _

end Object

open Object

/-! ## 4. Children -/

/-- What has a tree is an object. -/
theorem Mirrors.exists_obj {v : Json} {t : Node} (h : Mirrors v t) :
    ∃ source members, v = .obj source members := by
  cases h <;> exact ⟨_, _, rfl⟩

/-- The tag of a kind is the tag of its nodes only. -/
theorem Mirrors.kind_of_tag {source : Thunk Bytes} {members : List (String × Json)} {t : Node}
    {k : Kind} (h : Mirrors (.obj source members) t) (ht : t.tag = k.tag) : t.kind = some k := by
  rw [Decode.kind_eq_ofTag? h h.tagged, ht]
  exact Kind.ofTag?_eq_some_iff.mpr rfl

namespace Decode

variable {o : Object} {child : Child o} {source : Thunk Bytes}

/-- `Truthful child`: the object is called what it should be, a part of it that cannot be decoded is
blamed rightly, and one that can be decoded is a document of its node. -/
structure Truthful (child : Child o) : Prop where
  tagged : Tagged o.members o.tag
  id : IdOf o.members o.id
  blames : ∀ role p, (child role p).Blames p.val
  mirrors : ∀ role p t, (child role p).result = .ok t → Mirrors p.val t

theorem Truthful.named (hc : Truthful child) : Names o.members o.tag o.id :=
  ⟨Or.inl hc.tagged, hc.id⟩

/-- **A list blames its items under their own numbers.** -/
theorem Truthful.items (hc : Truthful child) {v : Json} (role : Option Role)
    (step : Nat → Descent) : ∀ (index : Nat) (parts : List (Part o)),
    (∀ i p, parts[i]? = some p → v.step? (step (index + i)) = some p.val) →
    (items child role step index parts).Blames v
  | _, [], _ => blames_ok _
  | index, p :: rest, leads => by
    unfold Decode.items
    refine ((hc.blames role p).under (leads 0 p rfl)).after fun t => ?_
    rw [map_eq_pure_bind]
    refine (hc.items role step (index + 1) rest fun i q hq => ?_).map _
    have := leads (i + 1) q hq
    rwa [Nat.add_comm i, ← Nat.add_assoc] at this

/-- The items of a list that is there. -/
theorem Truthful.itemsOf (hc : Truthful child) {field : String} {parts : List (Part o)}
    (role : Option Role) {step : Nat → Descent}
    (follow : ∀ i, (Json.obj source o.members).step? (step i) =
      ((Json.obj source o.members).member? field).bind (item? i))
    (list : Required o.members field IsList (parts.map Subtype.val)) :
    (Decode.items child role step 0 parts).Blames (.obj source o.members) := by
  refine hc.items role step 0 parts fun i p hp => ?_
  rw [Nat.zero_add, follow, item?_of_required list, List.getElem?_map, hp]
  rfl

theorem Truthful.list (hc : Truthful child) {field : String} (role : Option Role)
    {step : Nat → Descent}
    (follow : ∀ i, (Json.obj source o.members).step? (step i) =
      ((Json.obj source o.members).member? field).bind (item? i)) :
    (o.list field >>= Decode.items child role step 0).Blames (.obj source o.members) :=
  (blames_list hc.named field).bind fun _ hparts => hc.itemsOf role follow (result_list.mp hparts)

theorem Truthful.children (hc : Truthful child) (field : ChildField) :
    (children o child field).Blames (.obj source o.members) := by
  cases field with
  | nodes => exact hc.list none fun _ => rfl
  | statements => exact hc.list none fun _ => rfl

theorem Truthful.statements (hc : Truthful child) :
    (statements o child).Blames (.obj source o.members) :=
  hc.list (some .statement) fun _ => rfl

theorem Truthful.optionalNodes (hc : Truthful child) :
    (optionalNodes o child).Blames (.obj source o.members) := by
  refine (blames_list? hc.named "nodes").bind fun parts hparts => ?_
  cases parts with
  | none => exact blames_ok _
  | some parts => exact hc.itemsOf none (fun _ => rfl) (result_list?.mp hparts)

theorem Truthful.arguments (hc : Truthful child) :
    (arguments o child).Blames (.obj source o.members) := by
  refine (blames_list? hc.named "arguments").bind fun parts hparts => ?_
  cases parts with
  | none => exact blames_ok _
  | some parts =>
    exact (hc.itemsOf (some .expression) (fun _ => rfl) (result_list?.mp hparts)).map _

theorem Truthful.expression (hc : Truthful child) :
    (expression o child).Blames (.obj source o.members) := by
  unfold Decode.expression
  split
  · next h => exact blames_failAt hc.named (.missing (part?_eq_none_iff.mp h))
  · next p h =>
    have hs : (Json.obj source o.members).step? .expression = some p.val :=
      last?_eq_some_iff.mpr (part?_eq_some_iff.mp h).1
    exact (hc.blames _ p).under hs

/-- **A body** that is decoded and is no block is named in the cause; the failure itself is the
function's. -/
theorem Truthful.body (hc : Truthful child) (tag : o.tag = "FunctionDefinition") :
    (body o child).Blames (.obj source o.members) := by
  unfold Decode.body
  split
  · exact blames_ok _
  · next p h =>
    obtain ⟨has, -⟩ := part?_eq_some_iff.mp h
    have hs : (Json.obj source o.members).step? .body = some p.val := last?_eq_some_iff.mpr has
    refine ((hc.blames none p).under hs).bind fun t ht => ?_
    have mirrored : Mirrors p.val t := hc.mirrors none p t (Outcome.result_under_eq_ok.mp ht)
    split
    · exact blames_ok _
    · next hk =>
      obtain ⟨source', members, hobj⟩ := mirrored.exists_obj
      rw [hobj] at has mirrored
      exact blames_failAt hc.named
        (.bodyNotBlock tag has mirrored.tagged fun hb => hk (mirrored.kind_of_tag hb))

/-- If no body comes out, none is there: one that is no block is a failure. -/
theorem part?_eq_none_of_body (h : (body o child).result = .ok none) : o.part? "body" = none := by
  cases hp : o.part? "body" with
  | none => rfl
  | some p =>
    unfold Decode.body at h
    simp only [hp] at h
    obtain ⟨t, -, h⟩ := Outcome.result_bind_eq_ok.mp h
    split at h <;> cases h

/-! ## 5. Kinds and nodes -/

theorem Truthful.functionDefinition (hc : Truthful child)
    (tag : o.tag = "FunctionDefinition") :
    (functionDefinition o child).Blames (.obj source o.members) := by
  refine (blames_required hc.named "id" complains_toInt).after fun _ => ?_
  refine (blames_required hc.named "name" complains_toText).after fun _ => ?_
  refine (blames_required hc.named "kind" (complains_toWord _ _)).after fun _ => ?_
  refine (blames_required hc.named "visibility" (complains_toWord _ _)).after fun _ => ?_
  refine (blames_required hc.named "stateMutability" (complains_toWord _ _)).after fun _ => ?_
  refine (blames_optionalD hc.named "src" complains_toText _).after fun _ => ?_
  refine (blames_optional hc.named "functionSelector" complains_toSelector).after fun _ => ?_
  refine (blames_optional hc.named "implemented" complains_toBool).after fun _ => ?_
  refine (hc.body tag).bind fun body hbody => ?_
  dsimp only
  split
  · next h =>
    rw [Option.isNone_iff_eq_none.mp h.2] at hbody
    exact blames_failAt hc.named (.missingBody (part?_eq_none_iff.mp (part?_eq_none_of_body hbody)))
  · exact (hc.optionalNodes).map _

/-- **A registered kind** blames its members and its children. -/
theorem Truthful.known (hc : Truthful child) {k : Kind}
    (tag : k.tag = o.tag) : (known o child k).Blames (.obj source o.members) := by
  cases k with
  | sourceUnit =>
    refine (blames_required hc.named "id" complains_toInt).after fun _ => ?_
    refine (blames_optionalD hc.named "src" complains_toText _).after fun _ => ?_
    refine (blames_optionalD hc.named "absolutePath" complains_toText _).after fun _ => ?_
    exact (hc.children .nodes).map _
  | contractDefinition =>
    refine (blames_required hc.named "id" complains_toInt).after fun _ => ?_
    refine (blames_required hc.named "name" complains_toText).after fun _ => ?_
    refine (blames_optionalD hc.named "src" complains_toText _).after fun _ => ?_
    refine (blames_optionalD hc.named "contractKind" complains_toText _).after fun _ => ?_
    refine (blames_optionalD hc.named "abstract" complains_toBool _).after fun _ => ?_
    exact (hc.children .nodes).map _
  | functionDefinition => exact hc.functionDefinition tag.symm
  | variableDeclaration =>
    refine (blames_required hc.named "id" complains_toInt).after fun _ => ?_
    refine (blames_required hc.named "name" complains_toText).after fun _ => ?_
    refine (blames_required hc.named "visibility" (complains_toWord _ _)).after fun _ => ?_
    refine (blames_optionalD hc.named "src" complains_toText _).after fun _ => ?_
    refine (blames_optionalD hc.named "stateVariable" complains_toBool _).after fun _ => ?_
    refine (blames_optionalD hc.named "constant" complains_toBool _).after fun _ => ?_
    exact (hc.optionalNodes).map _
  | block =>
    refine (blames_required hc.named "id" complains_toInt).after fun _ => ?_
    refine (blames_required hc.named "src" complains_toText).after fun _ => ?_
    exact (hc.statements).map _
  | expressionStatement =>
    refine (blames_required hc.named "id" complains_toInt).after fun _ => ?_
    refine (blames_required hc.named "src" complains_toText).after fun _ => ?_
    exact (hc.expression).map _
  | functionCall =>
    refine (blames_required hc.named "id" complains_toInt).after fun _ => ?_
    refine (blames_required hc.named "src" complains_toText).after fun _ => ?_
    refine (hc.expression).after fun _ => ?_
    exact (hc.arguments).map _
  | identifier =>
    refine (blames_required hc.named "id" complains_toInt).after fun _ => ?_
    refine (blames_required hc.named "src" complains_toText).after fun _ => ?_
    refine (blames_required hc.named "name" complains_toText).after fun _ => ?_
    exact (blames_optionalD hc.named "referencedDeclaration" complains_toInt _).map _
  | plain p => exact blames_ok _

/-- **An unregistered tag** needs an id and a list of children, and is blamed for the lack of
either. -/
theorem Truthful.unknown (hc : Truthful child) (opts : Options) :
    (unknown opts o child).Blames (.obj source o.members) := by
  unfold Decode.unknown
  split
  · next hid =>
    refine blames_failAt hc.named (.noUsableId fun id hi => ?_)
    rw [(hc.id id).mpr hi] at hid
    cases hid
  · split
    · next hf =>
      have absent : ∀ field ∈ [ChildField.nodes, .statements], Missing o.members field.name := by
        intro field hmem
        have hnone := List.find?_eq_none.mp hf field hmem
        rw [Bool.not_eq_true, Option.isSome_eq_false_iff, Option.isNone_iff_eq_none] at hnone
        exact part?_eq_none_iff.mp hnone
      exact blames_failAt hc.named
        (.noChildList (absent .nodes (by simp)) (absent .statements (by simp)))
    · next field _ =>
      refine (hc.children field).after fun nodes => ?_
      cases opts.reportUnknown <;> exact blames_ok _

theorem Truthful.object (hc : Truthful child) (opts : Options) (role : Option Role) :
    (object opts role o child).Blames (.obj source o.members) := by
  have misplaced : ∀ role : Role, (∀ k : Kind, k.tag = o.tag → k.allows role = false) →
      (Outcome.fail (o.failure (.misplaced role o.tag)) : Outcome Failure Node).Blames
        (.obj source o.members) := by
    rintro role h e ⟨⟩
    exact ⟨_, rfl, .object hc.named (.misplaced hc.tagged h)⟩
  unfold Decode.object
  split
  · exact hc.unknown opts
  · next hk => exact hc.known (Kind.ofTag?_eq_some_iff.mp hk)
  · next role hk => exact misplaced role fun k hkt => absurd hkt (Kind.ofTag?_eq_none_iff.mp hk k)
  · next role k hk =>
    split
    · exact hc.known (Kind.ofTag?_eq_some_iff.mp hk)
    · next hallows =>
      refine misplaced role fun k' hk' => ?_
      rw [← Kind.ofTag?_eq_some_iff, hk, Option.some.injEq] at hk'
      rw [← hk']
      exact Bool.eq_false_of_not_eq_true hallows

/-- An object that has no tag is blamed for that, and is called by its id only. -/
theorem blames_untagged {members : List (String × Json)} {cause : Cause}
    (h : tagOf members = .error cause) :
    (Object.failAt ⟨"", readableId members, members⟩ "nodeType" cause :
      Outcome Failure Node).Blames (.obj source members) := by
  have untagged : ∀ tag, ¬ Tagged members tag := by
    intro tag ht
    rw [tagOf_eq_ok_iff.mpr ht] at h
    cases h
  have named : Names members "" (readableId members) :=
    ⟨Or.inr ⟨untagged, rfl⟩, fun _ => readableId_eq_some_iff⟩
  refine Object.blames_failAt (o := ⟨"", readableId members, members⟩) named ?_
  unfold tagOf at h
  split at h
  · next hn =>
    cases h
    exact .untagged (present?_eq_none_iff.mp hn)
  · cases h
  · next hv =>
    cases h
    exact .unreadable (present?_eq_some_iff.mp hv).1 trivial

/-- **A value that cannot be decoded is blamed rightly.**  The induction is on the size of the
value: its parts are truthful, so the value is. -/
theorem node_blames (opts : Options) (depth : Nat) (role : Option Role) (v : Json) :
    (node opts depth role v).Blames v := by
  induction hn : v.size using Nat.strong_induction_on generalizing v depth role with
  | _ n ih =>
    cases deep : opts.tooDeep depth with
    | true =>
      rw [node_of_tooDeep deep]
      rintro e ⟨⟩
      exact ⟨v, rfl, .tooDeep v⟩
    | false =>
      cases v with
      | obj source members =>
        rw [node_obj deep]
        split
        · next cause h => exact blames_untagged h
        · next tag ht =>
          refine Truthful.object (o := ⟨tag, readableId members, members⟩)
            ⟨tagOf_eq_ok_iff.mp ht, fun _ => readableId_eq_some_iff, ?_, ?_⟩ opts role
          · intro role p
            refine ih p.val.size ?_ _ _ _ rfl
            have : p.val.size ≤ Json.sizeMembers members := p.property
            simp only [Json.size] at hn
            omega
          · intro role p t h
            exact (mirrors_of_node h).1
      | _ =>
        rw [node_of_not_obj deep role (by simp)]
        rintro e ⟨⟩
        exact ⟨_, rfl, .notObject (by simp)⟩

end Decode

/-! ## 6. Documents -/

/-- **Failures are right**: the path of a failure leads to a value that has the fault. -/
theorem decode_blames {opts : Options} {document : Bytes} {root : Json}
    (valid : parse? document = some root) : (decode opts document).Blames root := by
  unfold decode decodeValue
  rw [valid]
  exact Decode.node_blames opts 0 none root

/-- The causes that are found before a value is known to be an object. -/
def Cause.Bare : Cause → Prop
  | tooDeep _ | notObject _ => True
  | _ => False

/-- The value that a failure at `v` addresses: the member to blame, or `v` itself if none is. -/
def Json.addressed? (v : Json) : Option String → Option Json
  | none => some v
  | some field => v.member? field

/-- **A failure is true of the value that its path leads to.** -/
structure Failure.TrueOf (e : Failure) (v : Json) : Prop where
  /-- The place is the path of the value, with the name of a member behind it if one is to blame. -/
  place : e.field = none ∧ e.place = e.path.text ∨
    ∃ f, e.field = some f ∧ e.place = e.path.text ++ "." ++ f
  /-- What lies too deep or is no object is given by its path alone. -/
  bare : e.cause.Bare → e.field = none ∧ e.place = e.path.text ∧ e.tag = "" ∧ e.id = none
  /-- All else is an object, and is called what it is called. -/
  named : ¬ e.cause.Bare → ∃ source members, v = .obj source members ∧ Names members e.tag e.id
  /-- What is said to be missing is absent or null. -/
  missing : e.cause.category = .missingField ∨ e.cause.category = .missingTag →
    ∃ source members f, v = .obj source members ∧ e.field = some f ∧ Missing members f
  /-- What is said to have the wrong shape is there. -/
  present : e.cause.category = .fieldShape ∨ e.cause.category = .invalidWord →
    ∃ w, v.addressed? e.field = some w

theorem Cause.InMember.not_bare {cause : Cause} (h : cause.InMember) : ¬ cause.Bare := by
  cases cause <;> simp_all [InMember, Bare]

theorem Cause.InMember.category {cause : Cause} (h : cause.InMember) :
    cause.category = .fieldShape ∨ cause.category = .invalidWord := by
  cases cause <;> simp_all [InMember, Cause.category]

namespace Object.Trouble

variable {o : Object} {field : Option String} {cause : Cause}

theorem not_bare (h : o.Trouble field cause) : ¬ cause.Bare := by
  cases h with
  | unreadable _ h => exact h.not_bare
  | _ => rintro ⟨⟩

theorem missing_of_category (h : o.Trouble field cause)
    (hc : cause.category = .missingField ∨ cause.category = .missingTag) :
    ∃ f, field = some f ∧ Missing o.members f := by
  cases h with
  | untagged h | missing h | missingBody h => exact ⟨_, rfl, h⟩
  | unreadable _ h =>
    rcases h.category with h | h <;> rw [h] at hc <;> simp at hc
  | noUsableId | noChildList | misplaced | bodyNotBlock => simp [Cause.category] at hc

theorem has_of_category (h : o.Trouble field cause)
    (hc : cause.category = .fieldShape ∨ cause.category = .invalidWord) :
    ∃ f w, field = some f ∧ Has o.members f w := by
  cases h with
  | unreadable h _ => exact ⟨_, _, rfl, h⟩
  | _ => simp [Cause.category] at hc

end Object.Trouble

/-- What has the fault makes the failure true. -/
theorem Fault.trueOf {v : Json} {e : Failure} (h : Fault v { e with path := [] }) : e.TrueOf v := by
  obtain ⟨path, field, tag, id, cause⟩ := e
  have place : field = none ∧ Failure.place ⟨path, field, tag, id, cause⟩ = path.text ∨
      ∃ f, field = some f ∧
        Failure.place ⟨path, field, tag, id, cause⟩ = path.text ++ "." ++ f := by
    cases field with
    | none => exact Or.inl ⟨rfl, rfl⟩
    | some f => exact Or.inr ⟨f, rfl, rfl⟩
  cases h with
  | tooDeep =>
    refine ⟨place, fun _ => ⟨rfl, rfl, rfl, rfl⟩, fun h => absurd trivial h, ?_, ?_⟩ <;>
      simp [Cause.category]
  | notObject =>
    refine ⟨place, fun _ => ⟨rfl, rfl, rfl, rfl⟩, fun h => absurd trivial h, ?_, fun _ => ⟨v, rfl⟩⟩
    simp [Cause.category]
  | @object source o _ _ named trouble =>
    refine ⟨place, fun h => absurd h trouble.not_bare, fun _ => ⟨_, _, rfl, named⟩, ?_, ?_⟩
    · intro hc
      obtain ⟨f, hf, hm⟩ := trouble.missing_of_category hc
      exact ⟨_, _, f, rfl, hf, hm⟩
    · intro hc
      obtain ⟨f, w, rfl, hw⟩ := trouble.has_of_category hc
      exact ⟨w, last?_eq_some_iff.mpr hw⟩

/-- **Failures point at the truth.**  If a document is JSON and cannot be decoded, the path of the
failure leads to a value of the document, and what the failure says is true of it. -/
theorem decode_error_trueOf {opts : Options} {document : Bytes} {root : Json} {e : Failure}
    (valid : parse? document = some root) (h : (decode opts document).result = .error e) :
    ∃ v, root.at? e.path = some v ∧ e.TrueOf v := by
  obtain ⟨v, hv, fault⟩ := decode_blames valid e h
  exact ⟨v, hv, fault.trueOf⟩

/-- The failure that a computation ends with, if it fails. -/
def Outcome.failure? {α : Type} (x : Outcome Failure α) : Option Failure :=
  match x.result with
  | .error e => some e
  | .ok _ => none

theorem Outcome.failure?_eq_some_iff {α : Type} {x : Outcome Failure α} {e : Failure} :
    x.failure? = some e ↔ x.result = .error e := by
  unfold failure?
  cases x.result <;> simp

/-- An empty object as a child: its tag is missing, and the failure says where. -/
theorem decode_error_trueOf_child :
    let document := utf8 "\x7b\"nodeType\":\"\",\"id\":1,\"nodes\":[\x7b\x7d]\x7d"
    let e : Failure := { path := [.nodes 0], field := some "nodeType", cause := .missingTag }
    (decode ⟨0, false⟩ document).result = .error e ∧ e.place = "$.nodes[0].nodeType" ∧
      ∃ root v, parse? document = some root ∧ root.at? e.path = some v ∧ e.TrueOf v := by
  intro document e
  have failed : (decode ⟨0, false⟩ document).result = .error e :=
    Outcome.failure?_eq_some_iff.mp (by decide +kernel)
  obtain ⟨root, valid⟩ : ∃ root, parse? document = some root :=
    Option.isSome_iff_exists.mp (by decide +kernel)
  obtain ⟨v, hv, holds⟩ := decode_error_trueOf valid failed
  exact ⟨failed, by decide +kernel, root, v, valid, hv, holds⟩

/-! ## 7. Positions -/

/-- **The ways to stand in a wrong place.**  A node that was decoded for a position is named itself;
a body is named in the cause only, and the failure names the function; and a root is named without
its id. -/
inductive WrongPlace (root : Json) : Failure → Prop
  | node {path : Path} {source : Thunk Bytes} {members : List (String × Json)} {tag : String}
      {id : Option Int64} {role : Role} : root.at? path = some (.obj source members) →
      Tagged members tag → IdOf members id →
      WrongPlace root ⟨path, none, tag, id, .misplaced role tag⟩
  | body {path : Path} {source : Thunk Bytes} {members : List (String × Json)}
      {id : Option Int64} {source' : Thunk Bytes} {body : List (String × Json)} {tag : String} :
      root.at? path = some (.obj source members) → Tagged members "FunctionDefinition" →
      IdOf members id → Has members "body" (.obj source' body) → Tagged body tag → tag ≠ "Block" →
      WrongPlace root ⟨path, some "body", "FunctionDefinition", id, .bodyNotBlock tag⟩
  | root {source : Thunk Bytes} {members : List (String × Json)} {tag : String} :
      root = .obj source members → Tagged members tag → tag ≠ "SourceUnit" →
      WrongPlace root ⟨[], none, tag, none, .rootNotSourceUnit tag⟩

theorem Names.tagged {members : List (String × Json)} {tag : String} {id : Option Int64}
    (h : Names members tag id) (hne : tag ≠ "") : Tagged members tag := by
  rcases h.tag with h | ⟨-, h⟩
  · exact h
  · exact absurd h hne

/-- The faults of position below a root. -/
theorem Fault.wrongPlace {root v : Json} {e : Failure} (hv : root.at? e.path = some v)
    (h : Fault v { e with path := [] }) (position : e.cause.category = .position) :
    WrongPlace root e := by
  obtain ⟨path, field, tag, id, cause⟩ := e
  cases h with
  | tooDeep => cases position
  | notObject => cases position
  | @object _ o _ _ named trouble =>
    obtain ⟨tag, id, members⟩ := o
    cases trouble with
    | misplaced tagged _ => exact .node hv tagged named.id
    | bodyNotBlock htag has tagged hne =>
      obtain rfl : tag = "FunctionDefinition" := htag
      exact .body hv (named.tagged (by simp)) named.id has tagged hne
    | unreadable _ h => rcases h.category with h | h <;> rw [h] at position <;> cases position
    | _ => cases position

/-- **Every failure about a position is one of these.** -/
theorem wrongPlace_of_error {opts : Options} {document : Bytes} {e : Failure}
    (h : (decode opts document).result = .error e ∨
      (decodeSourceUnit opts document).result = .error e)
    (position : e.cause.category = .position) :
    ∃ root, parse? document = some root ∧ WrongPlace root e := by
  cases valid : parse? document with
  | none =>
    have malformed : decode opts document = .fail { cause := .malformed } := by
      rw [decode, valid]
    rw [decodeSourceUnit, malformed] at h
    rcases h with h | h <;> cases h <;> cases position
  | some root =>
    refine ⟨root, rfl, ?_⟩
    have inDecode : (decode opts document).result = .error e → WrongPlace root e := by
      intro h
      obtain ⟨v, hv, fault⟩ := decode_blames valid e h
      exact fault.wrongPlace hv position
    rcases h with h | h
    · exact inDecode h
    rcases Outcome.result_bind_eq_error.mp h with h | ⟨t, ht, failed⟩
    · exact inDecode h
    · obtain ⟨v, hv, mirrored⟩ := mirrors_of_decode ht
      cases valid.symm.trans hv
      obtain ⟨source, members, rfl⟩ := mirrored.exists_obj
      unfold asSourceUnit at failed
      split at failed
      · cases failed
      · next hk =>
        cases failed
        exact .root rfl mirrored.tagged fun hs => hk (mirrored.kind_of_tag hs)

/-- The value that a failure addresses, seen from the root. -/
def Failure.offender? (e : Failure) (root : Json) : Option Json :=
  (root.at? e.path).bind fun v => v.addressed? e.field

/-- A failure identifies an object if it has the tag of the object and its id. -/
def Failure.Identifies (e : Failure) (members : List (String × Json)) : Prop :=
  Tagged members e.tag ∧ IdOf members e.id

/-- **Failures about positions.**  They address an object, and identify it if it was decoded for a
position.  Where the body of a function is no block, the function is identified instead, which is
the same only for a body that is a function of the same id; and a root that is no source unit has
its tag but no id, so it is identified only if it has none to read. -/
theorem position_error_identifies {opts : Options} {document : Bytes} {e : Failure}
    (h : (decode opts document).result = .error e ∨
      (decodeSourceUnit opts document).result = .error e)
    (position : e.cause.category = .position) :
    ∃ root source members, parse? document = some root ∧
      e.offender? root = some (.obj source members) ∧
      (e.Identifies members ↔ (∃ role tag, e.cause = .misplaced role tag) ∨
        (e.cause = .bodyNotBlock "FunctionDefinition" ∧ IdOf members e.id) ∨
        (∃ tag, e.cause = .rootNotSourceUnit tag) ∧ ∀ i, ¬ IdOrNull members i) ∧
      (∀ tag, e.cause = .bodyNotBlock tag → Tagged members tag ∧
        ∃ source' function, root.at? e.path = some (.obj source' function) ∧
          e.tag = "FunctionDefinition" ∧ e.Identifies function) ∧
      (∀ tag, e.cause = .rootNotSourceUnit tag → Tagged members e.tag ∧ e.id = none) := by
  obtain ⟨root, valid, wrong⟩ := wrongPlace_of_error h position
  cases wrong with
  | @node path source members _ _ role hv tagged id =>
    refine ⟨root, source, members, valid, by simp [Failure.offender?, hv, addressed?], ?_, ?_, ?_⟩
    · exact iff_of_true ⟨tagged, id⟩ (Or.inl ⟨role, _, rfl⟩)
    · rintro tag ⟨⟩
    · rintro tag ⟨⟩
  | @body path source function _ source' members tag hv function' id has tagged hne =>
    have addressed : addressed? (.obj source function) "body" = some (.obj source' members) :=
      last?_eq_some_iff.mpr has
    refine ⟨root, source', members, valid, by simp [Failure.offender?, hv, addressed], ?_, ?_, ?_⟩
    · constructor
      · rintro ⟨tagged', id'⟩
        have heq : tag = "FunctionDefinition" := Decode.tagged_unique tagged tagged'
        exact Or.inr (Or.inl ⟨by rw [heq], id'⟩)
      · rintro (⟨role, tag, ⟨⟩⟩ | ⟨⟨⟩, id'⟩ | ⟨⟨tag, ⟨⟩⟩, -⟩)
        exact ⟨tagged, id'⟩
    · rintro _ ⟨⟩
      exact ⟨tagged, source, function, hv, rfl, function', id⟩
    · rintro tag ⟨⟩
  | @root source members tag hroot tagged hne =>
    subst hroot
    refine ⟨_, source, members, valid, rfl, ?_, ?_, ?_⟩
    · constructor
      · rintro ⟨-, id⟩
        refine Or.inr (Or.inr ⟨⟨tag, rfl⟩, fun i hi => ?_⟩)
        cases (id i).mpr hi
      · rintro (⟨role, tag, ⟨⟩⟩ | ⟨⟨⟩, -⟩ | ⟨-, unreadable⟩)
        exact ⟨tagged, fun i => iff_of_false (by rintro ⟨⟩) (unreadable i)⟩
    · rintro tag ⟨⟩
    · rintro _ ⟨⟩
      exact ⟨tagged, rfl⟩

/-- An expression in the place of a statement is identified. -/
theorem position_error_identifies_statement :
    let document := utf8 ("\x7b\"nodeType\":\"Block\",\"id\":1,\"src\":\"\",\"statements\":[" ++
      "\x7b\"nodeType\":\"Literal\",\"id\":2\x7d]\x7d")
    let e : Failure := ⟨[.statements 0], none, "Literal", some 2, .misplaced .statement "Literal"⟩
    (decode ⟨0, false⟩ document).result = .error e ∧ e.cause.category = .position ∧
      ∃ root source members, parse? document = some root ∧
        e.offender? root = some (.obj source members) ∧ e.Identifies members := by
  intro document e
  have failed : (decode ⟨0, false⟩ document).result = .error e :=
    Outcome.failure?_eq_some_iff.mp (by decide +kernel)
  obtain ⟨root, source, members, valid, offender, identified, -, -⟩ :=
    position_error_identifies (Or.inl failed) rfl
  exact ⟨failed, rfl, root, source, members, valid, offender,
    identified.mpr (Or.inl ⟨_, _, rfl⟩)⟩

/-- The id that a value is called by: only objects have one. -/
def Json.id? : Json → Option Int64
  | obj _ members => readableId members
  | _ => none

/-- The body of a function, and a root that should be a source unit: both are a return statement
with the id 12, and neither is identified. -/
theorem position_error_not_identifies :
    let function := utf8 ("\x7b\"nodeType\":\"FunctionDefinition\",\"id\":3,\"name\":\"f\"," ++
      "\"kind\":\"function\",\"visibility\":\"public\",\"stateMutability\":\"view\"," ++
      "\"body\":\x7b\"nodeType\":\"Return\",\"id\":12\x7d\x7d")
    let statement := utf8 "\x7b\"nodeType\":\"Return\",\"id\":12\x7d"
    (∃ e root source members, (decode ⟨0, false⟩ function).result = .error e ∧
      e.cause.category = .position ∧ parse? function = some root ∧
      e.offender? root = some (.obj source members) ∧ ¬ e.Identifies members) ∧
    (∃ e root source members, (decodeSourceUnit ⟨0, false⟩ statement).result = .error e ∧
      e.cause.category = .position ∧ parse? statement = some root ∧
      e.offender? root = some (.obj source members) ∧ ¬ e.Identifies members) := by
  intro function statement
  constructor
  · have failed : (decode ⟨0, false⟩ function).result = .error
        ⟨[], some "body", "FunctionDefinition", some 3, .bodyNotBlock "Return"⟩ := by
      simp only [← Outcome.failure?_eq_some_iff, function, utf8_append]
      decide +kernel
    obtain ⟨root, valid, wrong⟩ := wrongPlace_of_error (Or.inl failed) rfl
    cases wrong with
    | body hv _ _ has tagged _ =>
      cases hv
      refine ⟨_, _, _, _, failed, rfl, valid, last?_eq_some_iff.mpr has, ?_⟩
      rintro ⟨tagged', -⟩
      exact absurd (Decode.tagged_unique tagged tagged') (by decide)
  · have failed : (decodeSourceUnit ⟨0, false⟩ statement).result = .error
        ⟨[], none, "Return", none, .rootNotSourceUnit "Return"⟩ :=
      Outcome.failure?_eq_some_iff.mp (by decide +kernel)
    have id : (parse? statement).bind Json.id? = some 12 := by decide +kernel
    obtain ⟨root, valid, wrong⟩ := wrongPlace_of_error (Or.inr failed) rfl
    cases wrong with
    | root hroot _ _ =>
      subst hroot
      rw [valid] at id
      refine ⟨_, _, _, _, failed, rfl, valid, rfl, ?_⟩
      rintro ⟨-, none⟩
      cases (none 12).mpr (Decode.readableId_eq_some_iff.mp id)

end SolidityTree
