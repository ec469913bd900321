import Mathlib.Data.List.Forall2
import SolidityTree.Decode
import SolidityTree.Proofs.Descent
import SolidityTree.Proofs.Member

/-!
# The grammar of documents

`Mirrors v t` says when the JSON value `v` is a document of the tree `t`.  It is an inductive
relation that knows nothing of decoding: no order in which members are read, no depth, no reports,
no failures.  Only what must be there, and what it stands for.

Decoding without a limit accepts exactly the documents of this grammar (`node_result_ok_iff`).
The proof goes kind by kind.  Each decoder of §3 in `Decode` gets one lemma that says when it
succeeds, given that its children FOLLOW the grammar (`Follows`); putting them together gives the
step from the children of a value to the value itself, and the size of the value carries the
induction.

Contents
* §1  positions
* §2  the relation
* §3  reading tags and ids
* §4  lists of children
* §5  kinds
* §6  nodes
-/

namespace SolidityTree

open Json

variable {members : List (String × Json)}

/-! ## 1. Positions -/

/-- A node of a registered kind that may stand in a position. -/
def Node.Fits (role : Role) (t : Node) : Prop := ∃ k, t.kind = some k ∧ k.allows role = true

/-- A node that a position admits; where no position is given every node is admitted. -/
def Admits : Option Role → Node → Prop
  | none, _ => True
  | some role, t => t.Fits role

/-! ## 2. The relation -/

/-- The object is tagged with a text. -/
def Tagged (members : List (String × Json)) (tag : String) : Prop :=
  Required members "nodeType" IsText tag

/-- The members of a source unit that hold no nodes. -/
structure SourceUnitHead.Matches (members : List (String × Json)) (head : SourceUnitHead) :
    Prop where
  id : Required members "id" IsInt head.id
  src : Defaulted members "src" IsText "" head.src
  absolutePath : Defaulted members "absolutePath" IsText "" head.absolutePath

/-- The members of a contract that hold no nodes. -/
structure ContractHead.Matches (members : List (String × Json)) (head : ContractHead) : Prop where
  id : Required members "id" IsInt head.id
  name : Required members "name" IsText head.name
  src : Defaulted members "src" IsText "" head.src
  contractKind : Defaulted members "contractKind" IsText "" head.contractKind
  isAbstract : Defaulted members "abstract" IsBool false head.isAbstract

/-- The members of a function that hold no nodes.  A function that does not say whether it is
implemented is if it has a body, and one that is implemented has a body. -/
structure FunctionHead.Matches (members : List (String × Json)) (hasBody : Bool)
    (head : FunctionHead) : Prop where
  id : Required members "id" IsInt head.id
  name : Required members "name" IsText head.name
  kind : Required members "kind" (IsWord FunctionKind.word) head.kind
  visibility : Required members "visibility" (IsWord Visibility.word) head.visibility
  mutability : Required members "stateMutability" (IsWord Mutability.word) head.mutability
  src : Defaulted members "src" IsText "" head.src
  selector : Maybe members "functionSelector" IsSelector head.selector
  implemented : Defaulted members "implemented" IsBool hasBody head.implemented
  hasBody_of_implemented : head.implemented = true → hasBody = true

/-- The members of a variable that hold no nodes. -/
structure VariableHead.Matches (members : List (String × Json)) (head : VariableHead) : Prop where
  id : Required members "id" IsInt head.id
  name : Required members "name" IsText head.name
  visibility : Required members "visibility" (IsWord Visibility.word) head.visibility
  src : Defaulted members "src" IsText "" head.src
  stateVariable : Defaulted members "stateVariable" IsBool false head.stateVariable
  constant : Defaulted members "constant" IsBool false head.constant

/-- The members of a name. -/
structure IdentifierHead.Matches (members : List (String × Json)) (head : IdentifierHead) :
    Prop where
  id : Required members "id" IsInt head.id
  src : Required members "src" IsText head.src
  name : Required members "name" IsText head.name
  referencedDeclaration :
    Defaulted members "referencedDeclaration" IsInt 0 head.referencedDeclaration

/-- The id and place that a block, a statement or a call must have. -/
structure Located (members : List (String × Json)) (id : Int64) (src : String) : Prop where
  id : Required members "id" IsInt id
  src : Required members "src" IsText src

/-- The id of a node of an unregistered tag: an integer, or null for 0. -/
def IdOrNull (members : List (String × Json)) (id : Int64) : Prop :=
  Required members "id" IsInt id ∨ Has members "id" .null ∧ id = 0

/-- The list that holds the children of a node of an unregistered tag: `statements` only if
`nodes` is missing. -/
def ChildList (members : List (String × Json)) : ChildField → List Json → Prop
  | .nodes, items => Required members "nodes" IsList items
  | .statements, items => Missing members "nodes" ∧ Required members "statements" IsList items

/-- **The grammar.**  `Mirrors v t`: the value `v` is a document of the tree `t`. -/
inductive Mirrors : Json → Node → Prop
  | plain {source : Thunk Bytes} {members : List (String × Json)} {p : Plain} :
      Tagged members p.tag → Mirrors (.obj source members) (.plain p)
  | sourceUnit {source : Thunk Bytes} {members : List (String × Json)} {head : SourceUnitHead}
      {items : List Json} {nodes : List Node} :
      Tagged members "SourceUnit" → head.Matches members →
      Required members "nodes" IsList items → List.Forall₂ Mirrors items nodes →
      Mirrors (.obj source members) (.sourceUnit head nodes)
  | contractDefinition {source : Thunk Bytes} {members : List (String × Json)} {head : ContractHead}
      {items : List Json} {nodes : List Node} :
      Tagged members "ContractDefinition" → head.Matches members →
      Required members "nodes" IsList items → List.Forall₂ Mirrors items nodes →
      Mirrors (.obj source members) (.contractDefinition head nodes)
  /-- A function without a body. -/
  | functionDeclaration {source : Thunk Bytes} {members : List (String × Json)}
      {head : FunctionHead} {items : List Json} {nodes : List Node} :
      Tagged members "FunctionDefinition" → head.Matches members false → Missing members "body" →
      Defaulted members "nodes" IsList [] items → List.Forall₂ Mirrors items nodes →
      Mirrors (.obj source members) (.functionDefinition head none nodes)
  /-- A function with a body, which must be a block. -/
  | functionDefinition {source : Thunk Bytes} {members : List (String × Json)} {head : FunctionHead}
      {b : Json} {body : Node} {items : List Json} {nodes : List Node} :
      Tagged members "FunctionDefinition" → head.Matches members true →
      Has members "body" b → b ≠ .null → Mirrors b body → body.kind = some .block →
      Defaulted members "nodes" IsList [] items → List.Forall₂ Mirrors items nodes →
      Mirrors (.obj source members) (.functionDefinition head (some body) nodes)
  | variableDeclaration {source : Thunk Bytes} {members : List (String × Json)}
      {head : VariableHead} {items : List Json} {nodes : List Node} :
      Tagged members "VariableDeclaration" → head.Matches members →
      Defaulted members "nodes" IsList [] items → List.Forall₂ Mirrors items nodes →
      Mirrors (.obj source members) (.variableDeclaration head nodes)
  | block {source : Thunk Bytes} {members : List (String × Json)} {id : Int64} {src : String}
      {items : List Json} {statements : List Node} :
      Tagged members "Block" → Located members id src →
      Required members "statements" IsList items → List.Forall₂ Mirrors items statements →
      (∀ s ∈ statements, s.Fits .statement) →
      Mirrors (.obj source members) (.block id src statements)
  | expressionStatement {source : Thunk Bytes} {members : List (String × Json)} {id : Int64}
      {src : String} {e : Json} {expression : Node} :
      Tagged members "ExpressionStatement" → Located members id src →
      Has members "expression" e → e ≠ .null → Mirrors e expression → expression.Fits .expression →
      Mirrors (.obj source members) (.expressionStatement id src expression)
  /-- A call whose arguments are left out. -/
  | functionCallBare {source : Thunk Bytes} {members : List (String × Json)} {id : Int64}
      {src : String} {e : Json} {expression : Node} :
      Tagged members "FunctionCall" → Located members id src →
      Has members "expression" e → e ≠ .null → Mirrors e expression → expression.Fits .expression →
      Missing members "arguments" →
      Mirrors (.obj source members) (.functionCall id src expression none)
  /-- A call with a list of arguments, which may be empty. -/
  | functionCall {source : Thunk Bytes} {members : List (String × Json)} {id : Int64} {src : String}
      {e : Json} {expression : Node} {items : List Json} {arguments : List Node} :
      Tagged members "FunctionCall" → Located members id src →
      Has members "expression" e → e ≠ .null → Mirrors e expression → expression.Fits .expression →
      Required members "arguments" IsList items → List.Forall₂ Mirrors items arguments →
      (∀ a ∈ arguments, a.Fits .expression) →
      Mirrors (.obj source members) (.functionCall id src expression (some arguments))
  | identifier {source : Thunk Bytes} {members : List (String × Json)} {head : IdentifierHead} :
      Tagged members "Identifier" → head.Matches members →
      Mirrors (.obj source members) (.identifier head)
  /-- A node of a tag that no kind has. -/
  | unknown {source : Thunk Bytes} {members : List (String × Json)} {tag : String} {id : Int64}
      {field : ChildField} {items : List Json} {nodes : List Node} :
      Tagged members tag → (∀ k : Kind, k.tag ≠ tag) → IdOrNull members id →
      ChildList members field items → List.Forall₂ Mirrors items nodes →
      Mirrors (.obj source members) (.unknown tag id field nodes)

/-- The node of a value has the tag of the value. -/
theorem Mirrors.tagged {source : Thunk Bytes} {t : Node} (h : Mirrors (.obj source members) t) :
    Tagged members t.tag := by
  cases h <;> assumption

namespace Decode

variable {o : Object} {child : Child o} {t : Node}

/-! ## 3. Tags and ids -/

theorem tagOf_eq_ok_iff {tag : String} : tagOf members = .ok tag ↔ Tagged members tag := by
  unfold tagOf
  split
  · next h =>
    rw [present?_eq_none_iff] at h
    refine iff_of_false (by rintro ⟨⟩) ?_
    rintro ⟨v, h1, h2, -⟩
    rw [← present?_eq_none_iff, present?_eq_some_iff.mpr ⟨h1, h2⟩] at h
    cases h
  · next source s h =>
    obtain ⟨h1, h2⟩ := present?_eq_some_iff.mp h
    constructor
    · intro h'
      cases h'
      exact ⟨_, h1, h2, source, rfl⟩
    · rintro ⟨v, h3, -, source', rfl⟩
      cases has_unique h1 h3
      rfl
  · next v hne h =>
    obtain ⟨h1, -⟩ := present?_eq_some_iff.mp h
    refine iff_of_false (by rintro ⟨⟩) ?_
    rintro ⟨w, h3, -, source, rfl⟩
    exact hne source tag (has_unique h1 h3)

/-- An object has at most one tag. -/
theorem tagged_unique {tag tag' : String} (h : Tagged members tag) (h' : Tagged members tag') :
    tag = tag' := by
  have := (tagOf_eq_ok_iff.mpr h).symm.trans (tagOf_eq_ok_iff.mpr h')
  exact Except.ok.inj this

theorem readableId_eq_some_iff {id : Int64} :
    readableId members = some id ↔ IdOrNull members id := by
  unfold readableId IdOrNull
  split
  · next h =>
    rw [last?_eq_none_iff] at h
    refine iff_of_false (by rintro ⟨⟩) ?_
    have absent : ∀ v, ¬ Has members "id" v := by
      rintro v ⟨before, after, rfl, -⟩
      exact h ("id", v) (by simp) rfl
    rintro (⟨v, hv, -⟩ | ⟨hv, -⟩)
    · exact absent v hv
    · exact absent _ hv
  · next v h =>
    rw [last?_eq_some_iff] at h
    by_cases hv : v = .null
    · subst hv
      simp only [toInt, Option.some.injEq]
      constructor
      · rintro rfl
        exact Or.inr ⟨h, rfl⟩
      · rintro (⟨w, hw, hne, -⟩ | ⟨-, rfl⟩)
        · exact absurd (has_unique hw h) hne
        · rfl
    · have hr : ∀ i, v.toInt = .ok i ↔ Required members "id" IsInt i := by
        intro i
        rw [reads_toInt v i hv]
        constructor
        · intro hi
          exact ⟨v, h, hv, hi⟩
        · rintro ⟨w, hw, -, hi⟩
          rwa [has_unique h hw]
      have hnull : ¬ (Has members "id" .null ∧ id = 0) := fun h' => hv (has_unique h h'.1)
      rw [or_iff_left hnull, ← hr]
      cases v.toInt <;> simp

/-! ## 4. Children -/

/-- `Follows child`: what the parts of an object are decoded to is what the grammar says of them. -/
def Follows (child : Child o) : Prop :=
  ∀ role v t, (child role v).result = .ok t ↔ Mirrors v.val t ∧ Admits role t

/-- A list is decoded item by item. -/
theorem result_items {role : Option Role} {step : Nat → Descent} : ∀ {index : Nat}
    {parts : List (Part o)} {nodes : List Node},
    (items child role step index parts).result = .ok nodes ↔
      List.Forall₂ (fun v t => (child role v).result = .ok t) parts nodes
  | index, [], nodes => by
    simp [items, eq_comm]
  | index, v :: rest, nodes => by
    simp only [items, Outcome.result_bind_eq_ok, Outcome.result_under_eq_ok,
      Outcome.result_map_eq_ok, result_items, List.forall₂_cons_left_iff]
    constructor
    · rintro ⟨t, ht, ts, hts, rfl⟩
      exact ⟨t, ts, ht, hts, rfl⟩
    · rintro ⟨t, ts, ht, hts, rfl⟩
      exact ⟨t, ht, ts, hts, rfl⟩

/-- **The children of a list follow the grammar** if each of them does. -/
theorem Follows.result_items (hc : Follows child) {role : Option Role} {step : Nat → Descent}
    {index : Nat} {parts : List (Part o)} {nodes : List Node} :
    (items child role step index parts).result = .ok nodes ↔
      List.Forall₂ Mirrors (parts.map Subtype.val) nodes ∧ ∀ t ∈ nodes, Admits role t := by
  rw [Decode.result_items, List.forall₂_map_left_iff]
  constructor
  · intro h
    induction h with
    | nil => exact ⟨.nil, by simp⟩
    | @cons v t parts nodes hv _ ih =>
      obtain ⟨h1, h2⟩ := (hc role v t).mp hv
      refine ⟨.cons h1 ih.1, ?_⟩
      rintro s hs
      rcases List.mem_cons.mp hs with rfl | hs
      · exact h2
      · exact ih.2 s hs
  · rintro ⟨h, ha⟩
    induction h with
    | nil => exact .nil
    | @cons v t parts nodes hv _ ih =>
      exact .cons ((hc role v t).mpr ⟨hv, ha t List.mem_cons_self⟩)
        (ih fun s hs => ha s (List.mem_cons_of_mem _ hs))

/-- The items of a list are parts of the object. -/
theorem exists_parts {field : String} {list : List Json}
    (h : Required o.members field IsList list) :
    ∃ parts : List (Part o), parts.map Subtype.val = list := by
  obtain ⟨v, h1, h2, source, rfl⟩ := h
  have hsize := size_le_of_last? (last?_eq_some_iff.mpr h1)
  refine ⟨list.pmap (fun w hw => ⟨w, hw⟩) fun w hw => ?_, by simp [List.map_pmap]⟩
  have := size_le_sizeItems hw
  simp only [Json.size] at hsize
  omega

theorem Follows.result_list (hc : Follows child) {field : String} {role : Option Role}
    {step : Nat → Descent} {nodes : List Node} :
    (o.list field >>= items child role step 0).result = .ok nodes ↔
      ∃ list, Required o.members field IsList list ∧ List.Forall₂ Mirrors list nodes ∧
        ∀ t ∈ nodes, Admits role t := by
  simp only [Outcome.result_bind_eq_ok, Object.result_list, hc.result_items]
  constructor
  · rintro ⟨parts, h1, h2⟩
    exact ⟨_, h1, h2⟩
  · rintro ⟨list, h1, h2⟩
    obtain ⟨parts, rfl⟩ := exists_parts h1
    exact ⟨parts, h1, h2⟩

theorem children_eq (o : Object) (child : Child o) (field : ChildField) :
    children o child field = o.list field.name >>= items child none field.step 0 := by
  cases field <;> rfl

theorem Follows.result_children (hc : Follows child) {field : ChildField} {nodes : List Node} :
    (children o child field).result = .ok nodes ↔
      ∃ list, Required o.members field.name IsList list ∧ List.Forall₂ Mirrors list nodes := by
  rw [children_eq, hc.result_list]
  simp [Admits]

theorem Follows.result_statements (hc : Follows child) {nodes : List Node} :
    (statements o child).result = .ok nodes ↔
      ∃ list, Required o.members "statements" IsList list ∧ List.Forall₂ Mirrors list nodes ∧
        ∀ t ∈ nodes, t.Fits .statement :=
  hc.result_list

/-- What holds of the parts of a list that may be left out holds of its items. -/
theorem exists_parts?_iff {field : String} {P : Option (List Json) → Prop} :
    (∃ x : Option (List (Part o)),
      Maybe o.members field IsList (x.map (List.map Subtype.val)) ∧ P (x.map (List.map Subtype.val))) ↔
    ∃ y, Maybe o.members field IsList y ∧ P y := by
  constructor
  · rintro ⟨x, h⟩
    exact ⟨_, h⟩
  · rintro ⟨y, h1, h2⟩
    cases y with
    | none => exact ⟨none, h1, h2⟩
    | some list =>
      obtain ⟨parts, rfl⟩ := exists_parts h1
      exact ⟨some parts, h1, h2⟩

theorem Follows.result_optionalNodes (hc : Follows child) {nodes : List Node} :
    (optionalNodes o child).result = .ok nodes ↔
      ∃ list, Defaulted o.members "nodes" IsList [] list ∧ List.Forall₂ Mirrors list nodes := by
  have hget : ∀ x : Option (List (Part o)),
      (x.getD []).map Subtype.val = (x.map (List.map Subtype.val)).getD [] := by
    intro x
    cases x <;> rfl
  simp only [optionalNodes, Outcome.result_bind_eq_ok, Object.result_list?, hc.result_items, hget,
    Admits, implies_true, and_true]
  rw [exists_parts?_iff (P := fun y => List.Forall₂ Mirrors (y.getD []) nodes)]
  simp [Defaulted]

/-- A part in a position of its own. -/
theorem Follows.result_part (hc : Follows child) {field : String} {role : Option Role} :
    (∃ v, o.part? field = some v ∧ (child role v).result = .ok t) ↔
      ∃ v, Has o.members field v ∧ v ≠ .null ∧ Mirrors v t ∧ Admits role t := by
  constructor
  · rintro ⟨v, hv, ht⟩
    obtain ⟨h1, h2⟩ := Object.part?_eq_some_iff.mp hv
    exact ⟨v.val, h1, h2, (hc role v t).mp ht⟩
  · rintro ⟨v, h1, h2, ht⟩
    let p : Part o := ⟨v, size_le_of_last? (last?_eq_some_iff.mpr h1)⟩
    exact ⟨p, Object.part?_eq_some_iff.mpr ⟨h1, h2⟩, (hc role p t).mpr ht⟩

theorem Follows.result_expression (hc : Follows child) :
    (expression o child).result = .ok t ↔
      ∃ e, Has o.members "expression" e ∧ e ≠ .null ∧ Mirrors e t ∧ t.Fits .expression := by
  have hpart : (∃ v, o.part? "expression" = some v ∧ (child (some .expression) v).result = .ok t) ↔
      ∃ e, Has o.members "expression" e ∧ e ≠ .null ∧ Mirrors e t ∧ t.Fits .expression :=
    hc.result_part
  rw [← hpart]
  unfold expression
  split
  · next h => simp [h, Object.failAt]
  · next v h => simp [h]

theorem Follows.result_arguments (hc : Follows child) {arguments : Option (List Node)} :
    (Decode.arguments o child).result = .ok arguments ↔
      (Missing o.members "arguments" ∧ arguments = none) ∨
      ∃ list nodes, arguments = some nodes ∧ Required o.members "arguments" IsList list ∧
        List.Forall₂ Mirrors list nodes ∧ ∀ t ∈ nodes, t.Fits .expression := by
  simp only [Decode.arguments, Outcome.result_bind_eq_ok, Object.result_list?]
  constructor
  · rintro ⟨x, h1, h2⟩
    cases x with
    | none =>
      cases h2
      exact Or.inl ⟨h1, rfl⟩
    | some parts =>
      simp only [Outcome.result_bind_eq_ok, hc.result_items] at h2
      obtain ⟨nodes, ⟨h3, h4⟩, h5⟩ := h2
      cases h5
      exact Or.inr ⟨_, nodes, rfl, h1, h3, h4⟩
  · rintro (⟨h1, rfl⟩ | ⟨list, nodes, rfl, h1, h2, h3⟩)
    · exact ⟨none, h1, rfl⟩
    · obtain ⟨parts, rfl⟩ := exists_parts h1
      refine ⟨some parts, h1, ?_⟩
      simp only [Outcome.result_bind_eq_ok, hc.result_items]
      exact ⟨nodes, ⟨h2, h3⟩, rfl⟩

theorem Follows.result_body (hc : Follows child) {body : Option Node} :
    (Decode.body o child).result = .ok body ↔
      (Missing o.members "body" ∧ body = none) ∨
      ∃ b t, body = some t ∧ Has o.members "body" b ∧ b ≠ .null ∧ Mirrors b t ∧
        t.kind = some .block := by
  have hpart : ∀ t, (∃ v, o.part? "body" = some v ∧ (child none v).result = .ok t) ↔
      ∃ v, Has o.members "body" v ∧ v ≠ .null ∧ Mirrors v t ∧ Admits none t :=
    fun t => hc.result_part
  unfold Decode.body
  split
  · next h =>
    have hm := Object.part?_eq_none_iff.mp h
    constructor
    · intro h'
      cases h'
      exact Or.inl ⟨hm, rfl⟩
    · rintro (⟨-, rfl⟩ | ⟨b, t, rfl, h1, h2, h3, -⟩)
      · rfl
      · obtain ⟨v, hv, -⟩ := (hpart t).mpr ⟨b, h1, h2, h3, trivial⟩
        rw [h] at hv
        cases hv
  · next v h =>
    simp only [Outcome.result_bind_eq_ok, Outcome.result_under_eq_ok]
    constructor
    · rintro ⟨t, ht, h'⟩
      obtain ⟨b, h1, h2, h3, -⟩ := (hpart t).mp ⟨v, h, ht⟩
      split at h'
      · next hk =>
        cases h'
        exact Or.inr ⟨b, t, rfl, h1, h2, h3, hk⟩
      · cases h'
    · rintro (⟨hm, -⟩ | ⟨b, t, rfl, h1, h2, h3, hk⟩)
      · rw [← Object.part?_eq_none_iff, h] at hm
        cases hm
      · obtain ⟨w, hw, ht⟩ := (hpart t).mpr ⟨b, h1, h2, h3, trivial⟩
        rw [h] at hw
        cases hw
        exact ⟨t, ht, by rw [if_pos hk]; rfl⟩

/-! ## 5. Kinds

Each decoder succeeds on exactly the members that the grammar asks for; the members are the same,
only the order of reading is gone. -/

theorem Follows.result_sourceUnit (hc : Follows child) :
    (sourceUnit o child).result = .ok t ↔
      ∃ head list nodes, t = .sourceUnit head nodes ∧ head.Matches o.members ∧
        Required o.members "nodes" IsList list ∧ List.Forall₂ Mirrors list nodes := by
  simp only [sourceUnit, Outcome.result_bind_eq_ok, Object.result_required reads_toInt,
    Object.result_optionalD reads_toText, hc.result_children, Outcome.result_pure, Except.ok.injEq]
  constructor
  · rintro ⟨id, h1, src, h2, absolutePath, h3, nodes, ⟨list, h4, h5⟩, rfl⟩
    exact ⟨_, list, nodes, rfl, ⟨h1, h2, h3⟩, h4, h5⟩
  · rintro ⟨head, list, nodes, rfl, h, h4, h5⟩
    exact ⟨_, h.id, _, h.src, _, h.absolutePath, nodes, ⟨list, h4, h5⟩, rfl⟩

theorem Follows.result_contractDefinition (hc : Follows child) :
    (contractDefinition o child).result = .ok t ↔
      ∃ head list nodes, t = .contractDefinition head nodes ∧ head.Matches o.members ∧
        Required o.members "nodes" IsList list ∧ List.Forall₂ Mirrors list nodes := by
  simp only [contractDefinition, Outcome.result_bind_eq_ok, Object.result_required reads_toInt,
    Object.result_required reads_toText, Object.result_optionalD reads_toText,
    Object.result_optionalD reads_toBool, hc.result_children, Outcome.result_pure, Except.ok.injEq]
  constructor
  · rintro ⟨id, h1, name, h2, src, h3, contractKind, h4, isAbstract, h5, nodes, ⟨list, h6, h7⟩, rfl⟩
    exact ⟨_, list, nodes, rfl, ⟨h1, h2, h3, h4, h5⟩, h6, h7⟩
  · rintro ⟨head, list, nodes, rfl, h, h6, h7⟩
    exact ⟨_, h.id, _, h.name, _, h.src, _, h.contractKind, _, h.isAbstract, nodes,
      ⟨list, h6, h7⟩, rfl⟩

theorem Follows.result_functionDefinition (hc : Follows child) :
    (functionDefinition o child).result = .ok t ↔
      ∃ head body list nodes, t = .functionDefinition head body nodes ∧
        head.Matches o.members body.isSome ∧ (Decode.body o child).result = .ok body ∧
        Defaulted o.members "nodes" IsList [] list ∧ List.Forall₂ Mirrors list nodes := by
  simp only [functionDefinition, Outcome.result_bind_eq_ok, Object.result_required reads_toInt,
    Object.result_required reads_toText, Object.result_required reads_toFunctionKind,
    Object.result_required reads_toVisibility, Object.result_required reads_toMutability,
    Object.result_optionalD reads_toText, Object.result_optional reads_toSelector,
    Object.result_optional reads_toBool]
  constructor
  · rintro ⟨id, h1, name, h2, kind, h3, visibility, h4, mutability, h5, src, h6, selector, h7,
      said, h8, body, h9, h⟩
    split at h
    · cases h
    · next hbody =>
      simp only [Outcome.result_bind_eq_ok, hc.result_optionalNodes, Outcome.result_pure,
        Except.ok.injEq] at h
      obtain ⟨nodes, ⟨list, h10, h11⟩, rfl⟩ := h
      refine ⟨_, body, list, nodes, rfl, ⟨h1, h2, h3, h4, h5, h6, h7, ⟨said, h8, rfl⟩, ?_⟩, h9,
        h10, h11⟩
      intro himp
      cases body with
      | none => exact absurd ⟨himp, rfl⟩ hbody
      | some b => rfl
  · rintro ⟨head, body, list, nodes, rfl, h, h9, h10, h11⟩
    obtain ⟨said, h8, himp⟩ := h.implemented
    refine ⟨_, h.id, _, h.name, _, h.kind, _, h.visibility, _, h.mutability, _, h.src, _, h.selector,
      said, h8, body, h9, ?_⟩
    have hbody : ¬ (said.getD body.isSome = true ∧ body.isNone = true) := by
      rintro ⟨h12, h13⟩
      rw [himp] at h12
      have := h.hasBody_of_implemented h12
      cases body with
      | none => cases this
      | some b => cases h13
    rw [if_neg hbody, himp]
    simp only [Outcome.result_bind_eq_ok, hc.result_optionalNodes, Outcome.result_pure]
    exact ⟨nodes, ⟨list, h10, h11⟩, rfl⟩

theorem Follows.result_variableDeclaration (hc : Follows child) :
    (variableDeclaration o child).result = .ok t ↔
      ∃ head list nodes, t = .variableDeclaration head nodes ∧ head.Matches o.members ∧
        Defaulted o.members "nodes" IsList [] list ∧ List.Forall₂ Mirrors list nodes := by
  simp only [variableDeclaration, Outcome.result_bind_eq_ok, Object.result_required reads_toInt,
    Object.result_required reads_toText, Object.result_required reads_toVisibility,
    Object.result_optionalD reads_toText, Object.result_optionalD reads_toBool,
    hc.result_optionalNodes, Outcome.result_pure, Except.ok.injEq]
  constructor
  · rintro ⟨id, h1, name, h2, visibility, h3, src, h4, stateVariable, h5, constant, h6, nodes,
      ⟨list, h7, h8⟩, rfl⟩
    exact ⟨_, list, nodes, rfl, ⟨h1, h2, h3, h4, h5, h6⟩, h7, h8⟩
  · rintro ⟨head, list, nodes, rfl, h, h7, h8⟩
    exact ⟨_, h.id, _, h.name, _, h.visibility, _, h.src, _, h.stateVariable, _, h.constant, nodes,
      ⟨list, h7, h8⟩, rfl⟩

theorem Follows.result_block (hc : Follows child) :
    (block o child).result = .ok t ↔
      ∃ id src list nodes, t = .block id src nodes ∧ Located o.members id src ∧
        Required o.members "statements" IsList list ∧ List.Forall₂ Mirrors list nodes ∧
        ∀ s ∈ nodes, s.Fits .statement := by
  simp only [block, Outcome.result_bind_eq_ok, Object.result_required reads_toInt,
    Object.result_required reads_toText, hc.result_statements, Outcome.result_pure, Except.ok.injEq]
  constructor
  · rintro ⟨id, h1, src, h2, nodes, ⟨list, h⟩, rfl⟩
    exact ⟨id, src, list, nodes, rfl, ⟨h1, h2⟩, h⟩
  · rintro ⟨id, src, list, nodes, rfl, h, h'⟩
    exact ⟨id, h.id, src, h.src, nodes, ⟨list, h'⟩, rfl⟩

theorem Follows.result_expressionStatement (hc : Follows child) :
    (expressionStatement o child).result = .ok t ↔
      ∃ id src e expression, t = .expressionStatement id src expression ∧ Located o.members id src ∧
        Has o.members "expression" e ∧ e ≠ .null ∧ Mirrors e expression ∧
        expression.Fits .expression := by
  simp only [expressionStatement, Outcome.result_bind_eq_ok, Object.result_required reads_toInt,
    Object.result_required reads_toText, hc.result_expression, Outcome.result_pure,
    Except.ok.injEq]
  constructor
  · rintro ⟨id, h1, src, h2, expression, ⟨e, h⟩, rfl⟩
    exact ⟨id, src, e, expression, rfl, ⟨h1, h2⟩, h⟩
  · rintro ⟨id, src, e, expression, rfl, h, h'⟩
    exact ⟨id, h.id, src, h.src, expression, ⟨e, h'⟩, rfl⟩

theorem Follows.result_functionCall (hc : Follows child) :
    (functionCall o child).result = .ok t ↔
      ∃ id src e expression arguments, t = .functionCall id src expression arguments ∧
        Located o.members id src ∧
        (Has o.members "expression" e ∧ e ≠ .null ∧ Mirrors e expression ∧
          expression.Fits .expression) ∧
        (Decode.arguments o child).result = .ok arguments := by
  simp only [functionCall, Outcome.result_bind_eq_ok, Object.result_required reads_toInt,
    Object.result_required reads_toText, hc.result_expression, Outcome.result_pure,
    Except.ok.injEq]
  constructor
  · rintro ⟨id, h1, src, h2, expression, ⟨e, h⟩, arguments, h', rfl⟩
    exact ⟨id, src, e, expression, arguments, rfl, ⟨h1, h2⟩, h, h'⟩
  · rintro ⟨id, src, e, expression, arguments, rfl, h, he, h'⟩
    exact ⟨id, h.id, src, h.src, expression, ⟨e, he⟩, arguments, h', rfl⟩

theorem result_identifier :
    (identifier o).result = .ok t ↔ ∃ head, t = .identifier head ∧ head.Matches o.members := by
  simp only [identifier, Outcome.result_bind_eq_ok, Object.result_required reads_toInt,
    Object.result_required reads_toText, Object.result_optionalD reads_toInt, Outcome.result_pure,
    Except.ok.injEq]
  constructor
  · rintro ⟨id, h1, src, h2, name, h3, referencedDeclaration, h4, rfl⟩
    exact ⟨_, rfl, h1, h2, h3, h4⟩
  · rintro ⟨head, rfl, h⟩
    exact ⟨_, h.id, _, h.src, _, h.name, _, h.referencedDeclaration, rfl⟩

/-- **A registered kind.**  An object with the tag of a kind is decoded to a node of the kind if
and only if it mirrors it. -/
theorem Follows.result_known (hc : Follows child) (source : Thunk Bytes) {k : Kind}
    (tag : Tagged o.members k.tag) :
    (known o child k).result = .ok t ↔ t.kind = some k ∧ Mirrors (.obj source o.members) t := by
  cases k with
  | sourceUnit =>
    rw [known, hc.result_sourceUnit]
    constructor
    · rintro ⟨head, list, nodes, rfl, h1, h2, h3⟩
      exact ⟨rfl, .sourceUnit tag h1 h2 h3⟩
    · rintro ⟨hk, h⟩
      cases h with
      | sourceUnit _ h1 h2 h3 => exact ⟨_, _, _, rfl, h1, h2, h3⟩
      | _ => cases hk
  | contractDefinition =>
    rw [known, hc.result_contractDefinition]
    constructor
    · rintro ⟨head, list, nodes, rfl, h1, h2, h3⟩
      exact ⟨rfl, .contractDefinition tag h1 h2 h3⟩
    · rintro ⟨hk, h⟩
      cases h with
      | contractDefinition _ h1 h2 h3 => exact ⟨_, _, _, rfl, h1, h2, h3⟩
      | _ => cases hk
  | functionDefinition =>
    rw [known, hc.result_functionDefinition]
    constructor
    · rintro ⟨head, body, list, nodes, rfl, h1, h2, h3, h4⟩
      rcases hc.result_body.mp h2 with ⟨hm, rfl⟩ | ⟨b, t, rfl, h5, h6, h7, h8⟩
      · exact ⟨rfl, .functionDeclaration tag h1 hm h3 h4⟩
      · exact ⟨rfl, .functionDefinition tag h1 h5 h6 h7 h8 h3 h4⟩
    · rintro ⟨hk, h⟩
      cases h with
      | functionDeclaration _ h1 hm h3 h4 =>
        exact ⟨_, none, _, _, rfl, h1, hc.result_body.mpr (Or.inl ⟨hm, rfl⟩), h3, h4⟩
      | functionDefinition _ h1 h5 h6 h7 h8 h3 h4 =>
        exact ⟨_, some _, _, _, rfl, h1,
          hc.result_body.mpr (Or.inr ⟨_, _, rfl, h5, h6, h7, h8⟩), h3, h4⟩
      | _ => cases hk
  | variableDeclaration =>
    rw [known, hc.result_variableDeclaration]
    constructor
    · rintro ⟨head, list, nodes, rfl, h1, h2, h3⟩
      exact ⟨rfl, .variableDeclaration tag h1 h2 h3⟩
    · rintro ⟨hk, h⟩
      cases h with
      | variableDeclaration _ h1 h2 h3 => exact ⟨_, _, _, rfl, h1, h2, h3⟩
      | _ => cases hk
  | block =>
    rw [known, hc.result_block]
    constructor
    · rintro ⟨id, src, list, nodes, rfl, h1, h2, h3, h4⟩
      exact ⟨rfl, .block tag h1 h2 h3 h4⟩
    · rintro ⟨hk, h⟩
      cases h with
      | block _ h1 h2 h3 h4 => exact ⟨_, _, _, _, rfl, h1, h2, h3, h4⟩
      | _ => cases hk
  | expressionStatement =>
    rw [known, hc.result_expressionStatement]
    constructor
    · rintro ⟨id, src, e, expression, rfl, h1, h2, h3, h4, h5⟩
      exact ⟨rfl, .expressionStatement tag h1 h2 h3 h4 h5⟩
    · rintro ⟨hk, h⟩
      cases h with
      | expressionStatement _ h1 h2 h3 h4 h5 => exact ⟨_, _, _, _, rfl, h1, h2, h3, h4, h5⟩
      | _ => cases hk
  | functionCall =>
    rw [known, hc.result_functionCall]
    constructor
    · rintro ⟨id, src, e, expression, arguments, rfl, h1, ⟨h2, h3, h4, h5⟩, h6⟩
      rcases hc.result_arguments.mp h6 with ⟨hm, rfl⟩ | ⟨list, nodes, rfl, h7, h8, h9⟩
      · exact ⟨rfl, .functionCallBare tag h1 h2 h3 h4 h5 hm⟩
      · exact ⟨rfl, .functionCall tag h1 h2 h3 h4 h5 h7 h8 h9⟩
    · rintro ⟨hk, h⟩
      cases h with
      | functionCallBare _ h1 h2 h3 h4 h5 hm =>
        exact ⟨_, _, _, _, _, rfl, h1, ⟨h2, h3, h4, h5⟩,
          hc.result_arguments.mpr (Or.inl ⟨hm, rfl⟩)⟩
      | functionCall _ h1 h2 h3 h4 h5 h7 h8 h9 =>
        exact ⟨_, _, _, _, _, rfl, h1, ⟨h2, h3, h4, h5⟩,
          hc.result_arguments.mpr (Or.inr ⟨_, _, rfl, h7, h8, h9⟩)⟩
      | _ => cases hk
  | identifier =>
    rw [known, result_identifier]
    constructor
    · rintro ⟨head, rfl, h⟩
      exact ⟨rfl, .identifier tag h⟩
    · rintro ⟨hk, h⟩
      cases h with
      | identifier _ h1 => exact ⟨_, rfl, h1⟩
      | _ => cases hk
  | plain p =>
    rw [known, Outcome.result_ok, Except.ok.injEq]
    constructor
    · rintro rfl
      exact ⟨rfl, .plain tag⟩
    · rintro ⟨hk, h⟩
      cases h with
      | plain _ => cases hk; rfl
      | _ => cases hk

/-- The list that holds the children is the first one that is there. -/
theorem childField?_eq_some {field : ChildField} {list : List Json}
    (h : ChildList o.members field list) : childField? o = some field := by
  have there : ∀ {name : String}, Required o.members name IsList list →
      (o.part? name).isSome = true := by
    intro name hr
    cases hp : o.part? name with
    | none => exact absurd hr (Object.not_required_of_part? hp)
    | some v => rfl
  cases field with
  | nodes =>
    have h1 : (o.part? ChildField.nodes.name).isSome = true := there h
    simp [childField?, h1]
  | statements =>
    obtain ⟨hm, hr⟩ := h
    have h1 : o.part? ChildField.nodes.name = none := Object.part?_eq_none_iff.mpr hm
    have h2 : (o.part? ChildField.statements.name).isSome = true := there hr
    simp [childField?, h1, h2]

theorem childList_of_childField? {field : ChildField} {list : List Json}
    (h : childField? o = some field) (hr : Required o.members field.name IsList list) :
    ChildList o.members field list := by
  cases field with
  | nodes => exact hr
  | statements =>
    refine ⟨?_, hr⟩
    rw [← Object.part?_eq_none_iff]
    cases hp : o.part? "nodes" with
    | none => rfl
    | some v => simp [childField?, ChildField.name, hp] at h

/-- **An unregistered tag.** -/
theorem Follows.result_unknown (hc : Follows child) {opts : Options} (source : Thunk Bytes)
    (hid : o.id = readableId o.members) (tag : Tagged o.members o.tag)
    (unregistered : ∀ k : Kind, k.tag ≠ o.tag) :
    (unknown opts o child).result = .ok t ↔ Mirrors (.obj source o.members) t := by
  have reports : ∀ {field : ChildField} {id : Int64} {nodes : List Node},
      (do
        if opts.reportUnknown then .report ⟨o.tag, id, []⟩
        return Node.unknown o.tag id field nodes : Outcome Failure Node).result =
      .ok (.unknown o.tag id field nodes) := by
    intro field id nodes
    cases opts.reportUnknown <;> rfl
  constructor
  · intro h
    unfold unknown at h
    split at h
    · cases h
    · next id h1 =>
      split at h
      · cases h
      · next field h2 =>
        rw [Outcome.result_bind_eq_ok] at h
        obtain ⟨nodes, h3, h4⟩ := h
        obtain ⟨list, h5, h6⟩ := hc.result_children.mp h3
        rw [reports] at h4
        cases h4
        exact .unknown tag unregistered (readableId_eq_some_iff.mp (hid ▸ h1))
          (childList_of_childField? h2 h5) h6
  · intro h
    have htag := tagged_unique tag h.tagged
    cases h with
    | @unknown _ _ tag' id field list nodes _ _ h1 h2 h3 =>
      have hi : o.id = some id := hid.trans (readableId_eq_some_iff.mpr h1)
      have hr : Required o.members field.name IsList list := by
        cases field with
        | nodes => exact h2
        | statements => exact h2.2
      unfold unknown
      simp only [hi, childField?_eq_some h2, Outcome.result_bind_eq_ok]
      refine ⟨nodes, hc.result_children.mpr ⟨list, hr, h3⟩, ?_⟩
      rw [reports]
      cases htag
      rfl
    | _ => exact absurd ((Node.tag_of_kind rfl).symm.trans htag.symm) (unregistered _)

/-! ## 6. Nodes -/

/-- The kind of a node is the kind that the tag of its value names. -/
theorem kind_eq_ofTag? {source : Thunk Bytes} {tag : String} (h : Mirrors (.obj source members) t)
    (ht : Tagged members tag) : t.kind = Kind.ofTag? tag := by
  have htag := tagged_unique ht h.tagged
  cases hk : t.kind with
  | some k =>
    rw [Node.tag_of_kind hk] at htag
    exact (Kind.ofTag?_eq_some_iff.mpr htag.symm).symm
  | none =>
    cases h with
    | unknown _ unregistered =>
      rw [htag]
      exact (Kind.ofTag?_eq_none_iff.mpr unregistered).symm
    | _ => cases hk

/-- **An object follows the grammar if its parts do.** -/
theorem Follows.result_object (hc : Follows child) {opts : Options} {role : Option Role}
    (source : Thunk Bytes) (hid : o.id = readableId o.members) (tag : Tagged o.members o.tag) :
    (object opts role o child).result = .ok t ↔
      Mirrors (.obj source o.members) t ∧ Admits role t := by
  unfold object
  split
  · next hk =>
    rw [hc.result_unknown source hid tag (Kind.ofTag?_eq_none_iff.mp hk)]
    simp [Admits]
  · next k hk =>
    have hkt : k.tag = o.tag := Kind.ofTag?_eq_some_iff.mp hk
    rw [hc.result_known source (hkt.symm ▸ tag)]
    constructor
    · rintro ⟨-, h⟩
      exact ⟨h, trivial⟩
    · rintro ⟨h, -⟩
      exact ⟨(kind_eq_ofTag? h tag).trans hk, h⟩
  · next r hk =>
    refine iff_of_false (by rintro ⟨⟩) ?_
    rintro ⟨h, k, hk', -⟩
    rw [kind_eq_ofTag? h tag, hk] at hk'
    cases hk'
  · next r k hk =>
    have hkt : k.tag = o.tag := Kind.ofTag?_eq_some_iff.mp hk
    split
    · next ha =>
      rw [hc.result_known source (hkt.symm ▸ tag)]
      constructor
      · rintro ⟨hk', h⟩
        exact ⟨h, k, hk', ha⟩
      · rintro ⟨h, -⟩
        exact ⟨(kind_eq_ofTag? h tag).trans hk, h⟩
    · next ha =>
      refine iff_of_false (by rintro ⟨⟩) ?_
      rintro ⟨h, k', hk', ha'⟩
      rw [kind_eq_ofTag? h tag, hk] at hk'
      cases hk'
      exact ha ha'

/-- **Decoding without a limit follows the grammar.** -/
theorem node_result_ok_iff (opts : Options) (unlimited : opts.maxDepth ≤ 0) {depth : Nat}
    {role : Option Role} {v : Json} :
    (node opts depth role v).result = .ok t ↔ Mirrors v t ∧ Admits role t := by
  induction hn : v.size using Nat.strong_induction_on generalizing v depth role t with
  | _ n ih =>
    have shallow := opts.tooDeep_of_le unlimited depth
    cases v with
    | obj source members =>
      rw [node_obj shallow]
      split
      · next cause hc =>
        refine iff_of_false (by rintro ⟨⟩) ?_
        rintro ⟨h, -⟩
        rw [tagOf_eq_ok_iff.mpr h.tagged] at hc
        cases hc
      · next tag ht =>
        refine Follows.result_object ?_ source rfl (tagOf_eq_ok_iff.mp ht)
        intro role v t
        refine ih v.val.size ?_ rfl
        have : v.val.size ≤ Json.sizeMembers members := v.property
        simp only [Json.size] at hn
        omega
    | _ =>
      rw [node_of_not_obj shallow role (by simp)]
      refine iff_of_false (by rintro ⟨⟩) ?_
      rintro ⟨h, -⟩
      cases h

end Decode

end SolidityTree
