import SolidityTree.Decode
import SolidityTree.Proofs.Descent
import SolidityTree.Proofs.Grammar
import SolidityTree.Proofs.DepthLimit
import SolidityTree.Proofs.WellFormed
import SolidityTree.Proofs.Writing

/-!
# Rendering trees

`Node.render` writes a tree down as a value: every field under the name that documents give it.
What is not there is left out, namely a body, a selector or arguments that a node does not have; a
list that is there is written even if it is empty.

Nothing is lost: a document that says what a well-formed tree renders to is decoded to that tree
(`decode_render`).  The proof does not look at the decoder.  A value that says what a node renders
to mirrors the node if the same is true of its parts, and the grammar is what decoding accepts.

Contents
* §1  the value of a tree
* §2  members of a value that is said
* §3  heads
* §4  trees
* §5  documents
-/

namespace SolidityTree

/-! ## 1. The value of a tree -/

/-- The eight lower-case digits of a selector. -/
def Selector.digits (s : Selector) : String := .ofList (s.bytes.flatMap hexByte)

/-- The members of a source unit that hold no nodes. -/
def SourceUnitHead.members (head : SourceUnitHead) : List (String × Value) := [
  ("nodeType", .text "SourceUnit"), ("id", .int head.id), ("src", .text head.src),
  ("absolutePath", .text head.absolutePath)]

/-- The members of a contract that hold no nodes. -/
def ContractHead.members (head : ContractHead) : List (String × Value) := [
  ("nodeType", .text "ContractDefinition"), ("id", .int head.id), ("src", .text head.src),
  ("name", .text head.name), ("contractKind", .text head.contractKind),
  ("abstract", .bool head.isAbstract)]

/-- The member of a selector, if there is one. -/
def FunctionHead.selectorMember (head : FunctionHead) : List (String × Value) :=
  match head.selector with
  | none => []
  | some selector => [("functionSelector", .text selector.digits)]

/-- The members of a function that hold no nodes. -/
def FunctionHead.members (head : FunctionHead) : List (String × Value) := [
  ("nodeType", .text "FunctionDefinition"), ("id", .int head.id), ("src", .text head.src),
  ("name", .text head.name), ("kind", .text head.kind.word),
  ("visibility", .text head.visibility.word), ("stateMutability", .text head.mutability.word),
  ("implemented", .bool head.implemented)] ++ head.selectorMember

/-- The members of a variable that hold no nodes. -/
def VariableHead.members (head : VariableHead) : List (String × Value) := [
  ("nodeType", .text "VariableDeclaration"), ("id", .int head.id), ("src", .text head.src),
  ("name", .text head.name), ("visibility", .text head.visibility.word),
  ("stateVariable", .bool head.stateVariable), ("constant", .bool head.constant)]

/-- The members of a name. -/
def IdentifierHead.members (head : IdentifierHead) : List (String × Value) := [
  ("nodeType", .text "Identifier"), ("id", .int head.id), ("src", .text head.src),
  ("name", .text head.name), ("referencedDeclaration", .int head.referencedDeclaration)]

/-- The members that a block, a statement and a call have in common. -/
def locatedMembers (tag : String) (id : Int64) (src : String) : List (String × Value) :=
  [("nodeType", .text tag), ("id", .int id), ("src", .text src)]

namespace Node

mutual

/-- **The value of a tree.** -/
def render : Node → Value
  | sourceUnit head nodes => .object (head.members ++ [("nodes", .list (renderAll nodes))])
  | contractDefinition head nodes => .object (head.members ++ [("nodes", .list (renderAll nodes))])
  | functionDefinition head none nodes =>
    .object (head.members ++ [("nodes", .list (renderAll nodes))])
  | functionDefinition head (some body) nodes =>
    .object (head.members ++ [("body", render body), ("nodes", .list (renderAll nodes))])
  | variableDeclaration head nodes => .object (head.members ++ [("nodes", .list (renderAll nodes))])
  | block id src statements =>
    .object (locatedMembers "Block" id src ++ [("statements", .list (renderAll statements))])
  | expressionStatement id src expression =>
    .object (locatedMembers "ExpressionStatement" id src ++ [("expression", render expression)])
  | functionCall id src expression none =>
    .object (locatedMembers "FunctionCall" id src ++ [("expression", render expression)])
  | functionCall id src expression (some arguments) =>
    .object (locatedMembers "FunctionCall" id src ++
      [("expression", render expression), ("arguments", .list (renderAll arguments))])
  | identifier head => .object head.members
  | plain p => .object [("nodeType", .text p.tag)]
  | unknown tag id field nodes =>
    .object [("nodeType", .text tag), ("id", .int id), (field.name, .list (renderAll nodes))]

/-- The values of the trees of a list. -/
def renderAll : List Node → List Value
  | [] => []
  | t :: rest => render t :: renderAll rest

end

theorem renderAll_eq_map (nodes : List Node) : renderAll nodes = nodes.map render := by
  induction nodes with
  | nil => rfl
  | cons t rest ih => rw [renderAll, ih, List.map_cons]

end Node

open Node Json

/-! ## 2. Members -/

/-- Where no name occurs twice every member counts. -/
theorem has_of_mem {α : Type} {members : List (String × α)} {name : String} {v : α}
    (distinct : (members.map Prod.fst).Nodup) (h : (name, v) ∈ members) : Has members name v := by
  obtain ⟨before, after, rfl⟩ := List.append_of_mem h
  refine ⟨before, after, rfl, ?_⟩
  intro m hm hname
  rw [List.map_append, List.map_cons, List.nodup_append] at distinct
  obtain ⟨-, hafter, -⟩ := distinct
  exact (List.nodup_cons.mp hafter).1 (List.mem_map.mpr ⟨m, hm, hname⟩)

/-- `Tells members values`: the members of an object say the values and nothing else. -/
structure Tells (members : List (String × Json)) (values : List (String × Value)) : Prop where
  /-- What is to be said is said. -/
  there : ∀ {name w}, (name, w) ∈ values → ∃ v, Has members name v ∧ Denotes v w
  /-- Nothing else is said. -/
  missing : ∀ {name}, name ∉ values.map Prod.fst → Missing members name

/-- An object that says members of different names. -/
theorem Denotes.tells {v : Json} {values : List (String × Value)} (h : Denotes v (.object values))
    (distinct : (values.map Prod.fst).Nodup) :
    ∃ source members, v = .obj source members ∧ Tells members values := by
  cases h with
  | @object source members _ names denotes =>
    refine ⟨source, members, rfl, ?_, ?_⟩
    · intro name w hw
      have hhas := has_of_mem distinct hw
      obtain ⟨v, hv⟩ := (names name).mpr ⟨w, hhas⟩
      exact ⟨v, hv, denotes name v w hv hhas⟩
    · intro name habsent
      refine Or.inl ?_
      intro m hm hname
      obtain ⟨v, hv⟩ := exists_has_of_mem hm
      obtain ⟨w, hw⟩ := (names m.1).mp ⟨v, hv⟩
      exact habsent (hname ▸ List.mem_map.mpr ⟨_, hw.mem, rfl⟩)

namespace Tells

variable {members : List (String × Json)} {values : List (String × Value)} {name : String}

theorem text (h : Tells members values) {s : String} (hs : (name, .text s) ∈ values) :
    Required members name IsText s := by
  obtain ⟨v, hv, hd⟩ := h.there hs
  refine ⟨v, hv, hd.ne_null, ?_⟩
  cases hd with
  | @text source _ => exact ⟨source, rfl⟩

theorem int (h : Tells members values) {i : Int64} (hi : (name, .int i) ∈ values) :
    Required members name IsInt i := by
  obtain ⟨v, hv, hd⟩ := h.there hi
  refine ⟨v, hv, hd.ne_null, ?_⟩
  cases hd with
  | @int literal _ hn => exact ⟨literal, rfl, hn⟩

theorem bool (h : Tells members values) {b : Bool} (hb : (name, .bool b) ∈ values) :
    Required members name IsBool b := by
  obtain ⟨v, hv, hd⟩ := h.there hb
  refine ⟨v, hv, hd.ne_null, ?_⟩
  cases hd with
  | bool => exact rfl

theorem selector (h : Tells members values) {s : Selector} (hs : (name, .text s.digits) ∈ values) :
    Required members name IsSelector s := by
  obtain ⟨v, hv, hne, ht⟩ := h.text hs
  exact ⟨v, hv, hne, s.digits, ht, s.writtenBy_digits⟩

theorem list (h : Tells members values) {ws : List Value} (hw : (name, .list ws) ∈ values) :
    ∃ items, Required members name IsList items ∧ List.Forall₂ Denotes items ws := by
  obtain ⟨v, hv, hd⟩ := h.there hw
  have hne := hd.ne_null
  cases hd with
  | @list source items _ hitems => exact ⟨items, ⟨_, hv, hne, source, rfl⟩, hitems⟩

end Tells

/-- A member that is there need not fall back on its default. -/
theorem Required.defaulted {α : Type} {members : List (String × Json)} {name : String}
    {shape : Json → α → Prop} {a : α} (h : Required members name shape a) (default : α) :
    Defaulted members name shape default a := ⟨some a, h, rfl⟩

/-! ## 3. Heads -/

section Heads

variable {members : List (String × Json)} {values : List (String × Value)}

theorem SourceUnitHead.matches_of_tells {head : SourceUnitHead}
    (h : Tells members (head.members ++ values)) : head.Matches members where
  id := h.int (by simp [SourceUnitHead.members])
  src := (h.text (by simp [SourceUnitHead.members])).defaulted ""
  absolutePath := (h.text (by simp [SourceUnitHead.members])).defaulted ""

theorem ContractHead.matches_of_tells {head : ContractHead}
    (h : Tells members (head.members ++ values)) : head.Matches members where
  id := h.int (by simp [ContractHead.members])
  name := h.text (by simp [ContractHead.members])
  src := (h.text (by simp [ContractHead.members])).defaulted ""
  contractKind := (h.text (by simp [ContractHead.members])).defaulted ""
  isAbstract := (h.bool (by simp [ContractHead.members])).defaulted false

/-- A function says whether it is implemented, and leaves out a selector that it does not have. -/
theorem FunctionHead.matches_of_tells {head : FunctionHead} {hasBody : Bool}
    (h : Tells members (head.members ++ values)) (other : "functionSelector" ∉ values.map Prod.fst)
    (body : head.implemented = true → hasBody = true) : head.Matches members hasBody where
  id := h.int (by simp [FunctionHead.members])
  name := h.text (by simp [FunctionHead.members])
  kind := h.text (by simp [FunctionHead.members])
  visibility := h.text (by simp [FunctionHead.members])
  mutability := h.text (by simp [FunctionHead.members])
  src := (h.text (by simp [FunctionHead.members])).defaulted ""
  selector := by
    cases hs : head.selector with
    | none =>
      refine h.missing ?_
      rw [List.map_append, List.mem_append, not_or]
      refine ⟨?_, other⟩
      simp [FunctionHead.members, FunctionHead.selectorMember, hs]
    | some selector =>
      refine h.selector ?_
      simp [FunctionHead.members, FunctionHead.selectorMember, hs]
  implemented := (h.bool (by simp [FunctionHead.members])).defaulted hasBody
  hasBody_of_implemented := body

theorem VariableHead.matches_of_tells {head : VariableHead}
    (h : Tells members (head.members ++ values)) : head.Matches members where
  id := h.int (by simp [VariableHead.members])
  name := h.text (by simp [VariableHead.members])
  visibility := h.text (by simp [VariableHead.members])
  src := (h.text (by simp [VariableHead.members])).defaulted ""
  stateVariable := (h.bool (by simp [VariableHead.members])).defaulted false
  constant := (h.bool (by simp [VariableHead.members])).defaulted false

theorem IdentifierHead.matches_of_tells {head : IdentifierHead} (h : Tells members head.members) :
    head.Matches members where
  id := h.int (by simp [IdentifierHead.members])
  src := h.text (by simp [IdentifierHead.members])
  name := h.text (by simp [IdentifierHead.members])
  referencedDeclaration := (h.int (by simp [IdentifierHead.members])).defaulted 0

theorem located_of_tells {tag : String} {id : Int64} {src : String}
    (h : Tells members (locatedMembers tag id src ++ values)) : Located members id src where
  id := h.int (by simp [locatedMembers])
  src := h.text (by simp [locatedMembers])

end Heads

/-! ## 4. Trees -/

/-- `Settled t`: what says the value of `t` mirrors `t`. -/
def Settled (t : Node) : Prop := ∀ v, Denotes v t.render → Mirrors v t

/-- **A list of nodes among the members**, if its nodes are settled. -/
theorem Tells.nodes {members : List (String × Json)} {values : List (String × Value)}
    (told : Tells members values) (name : String) {step : Nat → Descent} {nodes : List Node}
    (settled : ∀ p ∈ listed step 0 nodes, Settled p.2)
    (hn : (name, .list (renderAll nodes)) ∈ values) :
    ∃ items, Required members name IsList items ∧ List.Forall₂ Mirrors items nodes := by
  obtain ⟨items, hitems, hall⟩ := told.list hn
  refine ⟨items, hitems, ?_⟩
  have each : ∀ t ∈ nodes, Settled t := by
    intro t ht
    obtain ⟨d, hd⟩ := exists_mem_listed 0 ht
    exact settled (d, t) hd
  rw [renderAll_eq_map, List.forall₂_map_right_iff] at hall
  clear hitems hn settled
  induction hall with
  | nil => exact .nil
  | @cons v t items nodes hv _ ih =>
    refine .cons (each t List.mem_cons_self v hv) (ih ?_)
    intro t' ht'
    exact each t' (List.mem_cons_of_mem t ht')

/-- One node among the members, if it is settled. -/
theorem Tells.node {members : List (String × Json)} {values : List (String × Value)}
    (told : Tells members values) (name : String) {t : Node} (settled : Settled t)
    (ht : (name, t.render) ∈ values) : ∃ v, Has members name v ∧ v ≠ .null ∧ Mirrors v t := by
  obtain ⟨v, hv, hd⟩ := told.there ht
  exact ⟨v, hv, hd.ne_null, settled v hd⟩

/-- **Well-formed trees are settled.**  Each kind needs its parts settled and says the rest
itself; only where the value leaves something out does well-formedness come in. -/
theorem settled_of_wellFormed {t : Node} (wf : t.WellFormed) : Settled t := by
  induction t using induction_on_parts with
  | step t ih =>
    have settled : ∀ p ∈ t.parts, Settled p.2 := fun p hp => ih p hp (wf.part hp)
    have sound := wf.sound
    intro v h
    cases t with
    | sourceUnit head nodes =>
      rw [render] at h
      obtain ⟨source, members, rfl, told⟩ := h.tells (by simp [SourceUnitHead.members])
      obtain ⟨items, hitems, hnodes⟩ := told.nodes "nodes" settled (by simp)
      exact .sourceUnit (told.text (by simp [SourceUnitHead.members]))
        (SourceUnitHead.matches_of_tells told) hitems hnodes
    | contractDefinition head nodes =>
      rw [render] at h
      obtain ⟨source, members, rfl, told⟩ := h.tells (by simp [ContractHead.members])
      obtain ⟨items, hitems, hnodes⟩ := told.nodes "nodes" settled (by simp)
      exact .contractDefinition (told.text (by simp [ContractHead.members]))
        (ContractHead.matches_of_tells told) hitems hnodes
    | functionDefinition head body nodes =>
      obtain ⟨-, -, -, hblock, hbody⟩ := sound
      cases body with
      | none =>
        rw [render] at h
        obtain ⟨source, members, rfl, told⟩ := h.tells (by
          cases hs : head.selector <;> simp [FunctionHead.members, FunctionHead.selectorMember, hs])
        obtain ⟨items, hitems, hnodes⟩ := told.nodes "nodes" settled (by simp)
        have nobody : Missing members "body" := by
          refine told.missing ?_
          cases hs : head.selector <;> simp [FunctionHead.members, FunctionHead.selectorMember, hs]
        exact .functionDeclaration (told.text (by simp [FunctionHead.members]))
          (FunctionHead.matches_of_tells told (by simp) hbody) nobody (hitems.defaulted []) hnodes
      | some body =>
        rw [render] at h
        obtain ⟨source, members, rfl, told⟩ := h.tells (by
          cases hs : head.selector <;> simp [FunctionHead.members, FunctionHead.selectorMember, hs])
        obtain ⟨b, hb, hne, hm⟩ := told.node "body" (settled (.body, body) List.mem_cons_self)
          (by simp)
        obtain ⟨items, hitems, hnodes⟩ := told.nodes "nodes"
          (fun p hp => settled p (List.mem_cons_of_mem _ hp)) (by simp)
        exact .functionDefinition (told.text (by simp [FunctionHead.members]))
          (FunctionHead.matches_of_tells told (by simp) hbody) hb hne hm (hblock body rfl)
          (hitems.defaulted []) hnodes
    | variableDeclaration head nodes =>
      rw [render] at h
      obtain ⟨source, members, rfl, told⟩ := h.tells (by simp [VariableHead.members])
      obtain ⟨items, hitems, hnodes⟩ := told.nodes "nodes" settled (by simp)
      exact .variableDeclaration (told.text (by simp [VariableHead.members]))
        (VariableHead.matches_of_tells told) (hitems.defaulted []) hnodes
    | block id src statements =>
      rw [render] at h
      obtain ⟨source, members, rfl, told⟩ := h.tells (by simp [locatedMembers])
      obtain ⟨items, hitems, hnodes⟩ := told.nodes "statements" settled (by simp)
      exact .block (told.text (by simp [locatedMembers])) (located_of_tells told) hitems hnodes
        sound
    | expressionStatement id src expression =>
      rw [render] at h
      obtain ⟨source, members, rfl, told⟩ := h.tells (by simp [locatedMembers])
      obtain ⟨e, he, hne, hm⟩ := told.node "expression"
        (settled (.expression, expression) List.mem_cons_self) (by simp)
      exact .expressionStatement (told.text (by simp [locatedMembers])) (located_of_tells told) he
        hne hm sound
    | functionCall id src expression arguments =>
      obtain ⟨hfits, hargs⟩ := sound
      cases arguments with
      | none =>
        rw [render] at h
        obtain ⟨source, members, rfl, told⟩ := h.tells (by simp [locatedMembers])
        obtain ⟨e, he, hne, hm⟩ := told.node "expression"
          (settled (.expression, expression) List.mem_cons_self) (by simp)
        have noArguments : Missing members "arguments" := told.missing (by simp [locatedMembers])
        exact .functionCallBare (told.text (by simp [locatedMembers])) (located_of_tells told) he
          hne hm hfits noArguments
      | some arguments =>
        rw [render] at h
        obtain ⟨source, members, rfl, told⟩ := h.tells (by simp [locatedMembers])
        obtain ⟨e, he, hne, hm⟩ := told.node "expression"
          (settled (.expression, expression) List.mem_cons_self) (by simp)
        obtain ⟨items, hitems, hnodes⟩ := told.nodes "arguments"
          (fun p hp => settled p (List.mem_cons_of_mem _ hp)) (by simp)
        exact .functionCall (told.text (by simp [locatedMembers])) (located_of_tells told) he hne hm
          hfits hitems hnodes (hargs arguments rfl)
    | identifier head =>
      rw [render] at h
      obtain ⟨source, members, rfl, told⟩ := h.tells (by simp [IdentifierHead.members])
      exact .identifier (told.text (by simp [IdentifierHead.members]))
        (IdentifierHead.matches_of_tells told)
    | plain p =>
      rw [render] at h
      obtain ⟨source, members, rfl, told⟩ := h.tells (by simp)
      exact .plain (told.text (by simp))
    | unknown tag id field nodes =>
      rw [render] at h
      obtain ⟨source, members, rfl, told⟩ := h.tells (by cases field <;> simp [ChildField.name])
      obtain ⟨items, hitems, hnodes⟩ := told.nodes field.name settled (by simp)
      have children : ChildList members field items := by
        cases field with
        | nodes => exact hitems
        | statements => exact ⟨told.missing (by simp [ChildField.name]), hitems⟩
      exact .unknown (told.text (by simp)) sound.1 (Or.inl (told.int (by simp))) children hnodes

/-! ## 5. Documents -/

/-- The text of what a well-formed tree renders to is decoded to the tree. -/
theorem decode_write {t : Node} (wf : t.WellFormed) (fits : t.render.nesting ≤ Json.nestingLimit)
    {m : Int64} (hm : m ≤ 0) (report : Bool) :
    (decode ⟨m, report⟩ t.render.write).result = .ok t := by
  obtain ⟨v, hp, hv⟩ := Json.exists_parse?_write t.render fits
  exact (decode_unlimited_ok_iff hm).mpr ⟨v, hp, settled_of_wellFormed wf v hv⟩

/-- **Every well-formed tree is decodable, and decodes to itself.**  Each document that says what
the tree renders to is decoded to the tree, also where a source unit is asked for if the tree is
one; and there are such documents, unless the rendering is nested too deeply for any. -/
theorem decode_render {t : Node} (wf : t.WellFormed) {m : Int64} (hm : m ≤ 0) (report : Bool) :
    (∀ document v, Json.parse? document = some v → Denotes v t.render →
      (decode ⟨m, report⟩ document).result = .ok t ∧
      (t.kind = some .sourceUnit → (decodeSourceUnit ⟨m, report⟩ document).result = .ok t)) ∧
    (t.render.nesting ≤ Json.nestingLimit →
      ∃ document v, Json.parse? document = some v ∧ Denotes v t.render) := by
  constructor
  · intro document v hp hv
    have decoded : (decode ⟨m, report⟩ document).result = .ok t :=
      (decode_unlimited_ok_iff hm).mpr ⟨v, hp, settled_of_wellFormed wf v hv⟩
    refine ⟨decoded, fun hk => ?_⟩
    refine Outcome.result_bind_eq_ok.mpr ⟨t, decoded, ?_⟩
    rw [asSourceUnit, if_pos hk]
    rfl
  · intro fits
    exact ⟨t.render.write, Json.exists_parse?_write t.render fits⟩

/-- A source unit with the extreme ids, a function that is not implemented and yet has a body and
a selector, a call with an empty list of arguments, and unregistered nodes, one of them tagged
"Unknown" and one without a tag. -/
theorem decode_render_extremes :
    let tree : Node := .sourceUnit ⟨-9223372036854775808, "", "a.sol"⟩ [
      .functionDefinition ⟨9223372036854775807, "", "f", .function, .pub, .view, false,
          some ⟨[0xa9, 0x05, 0x9c, 0xbb], rfl⟩⟩
        (some (.block 2 "" [
          .expressionStatement 3 "" (.functionCall 4 "" (.plain .literal) (some []))]))
        [],
      .unknown "Unknown" 0 .statements [.unknown "" 1 .nodes []]]
    tree.WellFormed ∧ tree.render.nesting ≤ Json.nestingLimit ∧ (-1 : Int64) ≤ 0 ∧
      ∃ document, (decode ⟨-1, true⟩ document).result = .ok tree ∧
        (decodeSourceUnit ⟨-1, true⟩ document).result = .ok tree := by
  intro tree
  -- from the leaves to the root, one node at a time
  have literal : (Node.plain .literal).WellFormed := wellFormed_iff.mpr ⟨trivial, by simp [parts]⟩
  have call : (Node.functionCall 4 "" (.plain .literal) (some [])).WellFormed := by
    refine wellFormed_iff.mpr ⟨⟨⟨_, rfl, rfl⟩, ?_⟩, by simpa [parts, listed] using literal⟩
    rintro list ⟨⟩ a ha
    cases ha
  have statement : (Node.expressionStatement 3 ""
      (.functionCall 4 "" (.plain .literal) (some []))).WellFormed :=
    wellFormed_iff.mpr ⟨⟨_, rfl, rfl⟩, by simpa [parts] using call⟩
  have body : (Node.block 2 "" [.expressionStatement 3 ""
      (.functionCall 4 "" (.plain .literal) (some []))]).WellFormed := by
    refine wellFormed_iff.mpr ⟨?_, by simpa [parts, listed] using statement⟩
    intro s hs
    rw [List.mem_singleton.mp hs]
    exact ⟨_, rfl, rfl⟩
  have untagged : (Node.unknown "" 1 .nodes []).WellFormed := by
    refine wellFormed_iff.mpr ⟨⟨?_, Or.inl rfl⟩, by simp [parts, listed]⟩
    exact Kind.ofTag?_eq_none_iff.mp (by decide +kernel)
  have wf : tree.WellFormed := by
    refine wellFormed_iff.mpr ⟨trivial, ?_⟩
    intro p hp
    rcases List.mem_cons.mp hp with rfl | hp
    · refine wellFormed_iff.mpr ⟨⟨by decide, by decide, by decide, ?_, by rintro ⟨⟩⟩, ?_⟩
      · rintro b ⟨⟩
        rfl
      · simpa [parts, listed] using body
    · rw [List.mem_singleton.mp hp]
      refine wellFormed_iff.mpr ⟨⟨?_, Or.inr rfl⟩, by simpa [parts, listed] using untagged⟩
      exact Kind.ofTag?_eq_none_iff.mp (by decide +kernel)
  have fits : tree.render.nesting ≤ Json.nestingLimit := by decide
  obtain ⟨every, written⟩ := decode_render wf (m := -1) (by decide) true
  obtain ⟨document, v, hp, hv⟩ := written fits
  obtain ⟨h1, h2⟩ := every document v hp hv
  exact ⟨wf, fits, by decide, document, h1, h2 rfl⟩

end SolidityTree
