import SolidityTree.Decode
import SolidityTree.Proofs.Descent
import SolidityTree.Proofs.Grammar
import SolidityTree.Proofs.DepthLimit
import SolidityTree.Proofs.Place

/-!
# Well-formed trees

`Node.Sound` says what must hold AT a node: a block holds statements, the expression and the
arguments of a call are expressions, an implemented function has a body, and so on.  A tree is
`WellFormed` if every node in it is sound, wherever it is reached.

Decoding gives only well-formed trees (`decode_wellFormed`).  The document is not decoded again
for that: what a node was decoded from mirrors it, a part of a mirrored node is mirrored, and a
mirrored node is sound, so the property travels down the tree.  Below a block it says more: only
statements and expressions are reached from there, so no definition and no node of an unregistered
tag is.

Three lists have to agree for this: the positions that the register gives to the kinds, the names
of the types that may stand in a position (`Role.carriers`), and the positions that the decoders
ask for.  A node that was decoded for a position can therefore always be converted to it
(`Node.convert?`).

Contents
* §1  soundness of a node
* §2  what is mirrored is sound
* §3  below a block
* §4  positions and the register
* §5  decoded trees
-/

namespace SolidityTree

/-! ## 1. Soundness -/

/-- The words of the vocabulary of visibilities. -/
def Visibility.words : List String := ["private", "internal", "public", "external"]

/-- The words of the vocabulary of mutabilities. -/
def Mutability.words : List String := ["payable", "nonpayable", "pure", "view"]

/-- The words of the vocabulary of function kinds. -/
def FunctionKind.words : List String :=
  ["constructor", "receive", "fallback", "freeFunction", "function"]

namespace Node

/-- **What must hold at a node.** -/
def Sound : Node → Prop
  | sourceUnit _ _ => True
  | contractDefinition _ _ => True
  | functionDefinition head body _ =>
    head.kind.word ∈ FunctionKind.words ∧ head.visibility.word ∈ Visibility.words ∧
      head.mutability.word ∈ Mutability.words ∧
      (∀ b, body = some b → b.kind = some .block) ∧ (head.implemented = true → body.isSome = true)
  | variableDeclaration head _ => head.visibility.word ∈ Visibility.words
  | block _ _ statements => ∀ s ∈ statements, s.Fits .statement
  | expressionStatement _ _ expression => expression.Fits .expression
  | functionCall _ _ expression arguments =>
    expression.Fits .expression ∧ ∀ list, arguments = some list → ∀ a ∈ list, a.Fits .expression
  | identifier _ => True
  | plain _ => True
  | unknown tag _ field _ =>
    (∀ k : Kind, k.tag ≠ tag) ∧ (field.name = "nodes" ∨ field.name = "statements")

/-- **Well-formed trees**: every node that is reached is sound. -/
def WellFormed (t : Node) : Prop := ∀ path s, Descends t path s → s.Sound

theorem WellFormed.sound {t : Node} (h : t.WellFormed) : t.Sound := h [] t (.here t)

/-- The parts of a well-formed tree are well-formed. -/
theorem WellFormed.part {t : Node} (h : t.WellFormed) {p : Descent × Node} (hp : p ∈ t.parts) :
    p.2.WellFormed := by
  intro path s hs
  exact h (p.1 :: path) s (.down hp hs)

/-- A tree is well-formed if its root is sound and its parts are well-formed. -/
theorem wellFormed_iff {t : Node} : t.WellFormed ↔ t.Sound ∧ ∀ p ∈ t.parts, p.2.WellFormed := by
  constructor
  · intro h
    exact ⟨h.sound, fun p hp => h.part hp⟩
  · rintro ⟨sound, parts⟩ path s hs
    cases hs with
    | here => exact sound
    | down hp hs => exact parts _ hp _ s hs

end Node

open Node

/-! ## 2. Mirrored trees -/

theorem Visibility.word_mem_words (v : Visibility) : v.word ∈ words := by
  cases v <;> decide

theorem Mutability.word_mem_words (m : Mutability) : m.word ∈ words := by
  cases m <;> decide

theorem FunctionKind.word_mem_words (k : FunctionKind) : k.word ∈ words := by
  cases k <;> decide

/-- A mirrored node is sound. -/
theorem Mirrors.sound {v : Json} {t : Node} (h : Mirrors v t) : t.Sound := by
  cases h with
  | plain _ => trivial
  | sourceUnit _ _ _ _ => trivial
  | contractDefinition _ _ _ _ => trivial
  | functionDeclaration _ head _ _ _ =>
    refine ⟨FunctionKind.word_mem_words _, Visibility.word_mem_words _, Mutability.word_mem_words _,
      ?_, head.hasBody_of_implemented⟩
    intro b hb
    cases hb
  | functionDefinition _ _ _ _ _ hblock _ _ =>
    refine ⟨FunctionKind.word_mem_words _, Visibility.word_mem_words _, Mutability.word_mem_words _,
      ?_, fun _ => rfl⟩
    intro b hb
    cases hb
    exact hblock
  | variableDeclaration _ _ _ _ => exact Visibility.word_mem_words _
  | block _ _ _ _ hfits => exact hfits
  | expressionStatement _ _ _ _ _ hfits => exact hfits
  | functionCallBare _ _ _ _ _ hfits _ =>
    refine ⟨hfits, ?_⟩
    intro list hlist
    cases hlist
  | functionCall _ _ _ _ _ hfits _ _ hargs =>
    refine ⟨hfits, ?_⟩
    intro list hlist
    cases hlist
    exact hargs
  | identifier _ _ => trivial
  | @unknown _ _ _ _ field _ _ _ unregistered _ _ _ =>
    refine ⟨unregistered, ?_⟩
    cases field with
    | nodes => exact Or.inl rfl
    | statements => exact Or.inr rfl

/-- A mirrored tree is well-formed: being mirrored is the invariant of going down. -/
theorem Mirrors.wellFormed {v : Json} {t : Node} (h : Mirrors v t) : t.WellFormed := by
  intro path s hs
  have mirrored : ∃ w, Mirrors w s := by
    refine hs.invariant (P := fun s => ∃ w, Mirrors w s) ?_ ⟨v, h⟩
    rintro t ⟨w, hw⟩ p hp
    obtain ⟨u, -, hu⟩ := hw.step hp
    exact ⟨u, hu⟩
  obtain ⟨w, hw⟩ := mirrored
  exact hw.sound

/-! ## 3. Below a block -/

/-- The nodes that may be met below a block: those with fields that are statements or expressions,
and the plain ones of a kind that is one or the other. -/
def Node.InBlock : Node → Prop
  | block _ _ _ | expressionStatement _ _ _ | functionCall _ _ _ _ | identifier _ => True
  | plain p => (Kind.plain p).allows .statement = true ∨ (Kind.plain p).allows .expression = true
  | sourceUnit _ _ | contractDefinition _ _ | functionDefinition _ _ _ | variableDeclaration _ _
  | unknown _ _ _ _ => False

/-- A node that fits a position may be met below a block. -/
theorem Node.Fits.inBlock {role : Role} {t : Node} (h : t.Fits role) : t.InBlock := by
  obtain ⟨k, hk, ha⟩ := h
  cases t with
  | block | expressionStatement | functionCall | identifier => trivial
  | plain p =>
    cases hk
    cases role with
    | statement => exact Or.inl ha
    | expression => exact Or.inr ha
  | sourceUnit | contractDefinition | functionDefinition | variableDeclaration =>
    cases hk
    cases role <;> cases ha
  | unknown => cases hk

/-- One step down from a node that may be met below a block. -/
theorem Node.InBlock.part {t : Node} (h : t.InBlock) (sound : t.Sound) {p : Descent × Node}
    (hp : p ∈ t.parts) : p.2.InBlock := by
  cases t with
  | block id src statements => exact (sound _ (snd_mem_of_mem_listed hp)).inBlock
  | expressionStatement id src expression =>
    rw [List.mem_singleton.mp hp]
    exact Fits.inBlock sound
  | functionCall id src expression arguments =>
    cases arguments with
    | none =>
      rw [List.mem_singleton.mp hp]
      exact sound.1.inBlock
    | some list =>
      rcases List.mem_cons.mp hp with rfl | hp
      · exact sound.1.inBlock
      · exact (sound.2 list rfl _ (snd_mem_of_mem_listed hp)).inBlock
  | identifier => cases hp
  | plain => cases hp
  | sourceUnit | contractDefinition | functionDefinition | variableDeclaration | unknown => cases h

/-- What is met below a block is met below everything met there. -/
theorem Node.InBlock.below {t s : Node} {path : Path} (h : t.InBlock) (wf : t.WellFormed)
    (hs : Descends t path s) : s.InBlock := by
  -- well-formedness goes down along: every step needs the soundness of the node it starts from
  refine (hs.invariant (P := fun s => s.WellFormed ∧ s.InBlock) ?_ ⟨wf, h⟩).2
  rintro t ⟨hw, hi⟩ p hp
  exact ⟨hw.part hp, hi.part hw.sound hp⟩

theorem Node.inBlock_of_kind {t : Node} (hb : t.kind = some .block) : t.InBlock := by
  cases t with
  | block => trivial
  | _ => cases hb

/-- **Below a block there are statements and expressions only.** -/
theorem Node.WellFormed.inBlock {t s : Node} {path : Path} (h : t.WellFormed)
    (hb : t.kind = some .block) (hs : Descends t path s) : s.InBlock :=
  (inBlock_of_kind hb).below h hs

/-! ## 4. Positions -/

/-- The names of the types whose values may stand in a position. -/
def Role.carriers : Role → List String
  | .statement => [
    "Block", "ExpressionStatement", "Break", "Continue", "DoWhileStatement", "EmitStatement",
    "ForStatement", "IfStatement", "InlineAssembly", "PlaceholderStatement", "Return",
    "RevertStatement", "TryStatement", "UncheckedBlock", "VariableDeclarationStatement",
    "WhileStatement"]
  | .expression => [
    "FunctionCall", "Identifier", "Assignment", "BinaryOperation", "Conditional",
    "ElementaryTypeNameExpression", "FunctionCallOptions", "IndexAccess", "IndexRangeAccess",
    "Literal", "MemberAccess", "NewExpression", "TupleExpression", "UnaryOperation"]

/-- The node as a value for a position; `none` if its type may not stand there. -/
def Node.convert? (role : Role) (t : Node) : Option Node :=
  match t.kind with
  | none => none
  | some k => if k.tag ∈ role.carriers then some t else none

/-- The register gives a kind a position exactly if its type may stand there. -/
theorem Kind.allows_iff_mem_carriers (role : Role) (k : Kind) :
    k.allows role = true ↔ k.tag ∈ role.carriers := by
  have registered : ∀ k ∈ Kind.all, k.allows role = true ↔ k.tag ∈ role.carriers := by
    cases role <;> decide +kernel
  exact registered k (Kind.mem_all k)

/-- What fits a position can be converted to it. -/
theorem Node.convert?_eq_some_iff {role : Role} {t : Node} :
    t.convert? role = some t ↔ t.Fits role := by
  unfold convert? Fits
  cases t.kind with
  | none => simp
  | some k => simp [Kind.allows_iff_mem_carriers]

/-- The number of a kind is a number of the register, and the kind stands there. -/
theorem Kind.ofNumber?_number (k : Kind) : ofNumber? k.number = some k := by
  have registered : ∀ k ∈ Kind.all, ofNumber? k.number = some k := by decide +kernel
  exact registered k (mem_all k)

/-! ## 5. Decoded trees -/

/-- **Decoded trees are well-formed**, for every document and all options; below a block they hold
statements and expressions only.  Moreover no value, wherever it stands and whether or not the
rest of the document can be decoded, gives a node that cannot be converted to the position it was
decoded for, and every tag that names a kind leads to the entry of the kind in the register. -/
theorem decode_wellFormed (opts : Options) (document : Bytes) :
    (∀ t, (decode opts document).result = .ok t →
      t.WellFormed ∧
      ∀ path b, Descends t path b → b.kind = some .block →
        ∀ path' s, Descends b path' s → s.InBlock) ∧
    (∀ depth role v t, (Decode.node opts depth (some role) v).result = .ok t →
      t.convert? role = some t) ∧
    (∀ tag k, Kind.ofTag? tag = some k → Kind.ofNumber? k.number = some k ∧ k.tag = tag) := by
  refine ⟨?_, ?_, ?_⟩
  · intro t h
    obtain ⟨v, -, hv⟩ := mirrors_of_decode h
    refine ⟨hv.wellFormed, ?_⟩
    intro path b hb hk path' s hs
    have hw : b.WellFormed := fun path'' u hu => hv.wellFormed (path ++ path'') u (hb.trans hu)
    exact hw.inBlock hk hs
  · intro depth role v t h
    obtain ⟨-, fits⟩ := Decode.mirrors_of_node h
    exact Node.convert?_eq_some_iff.mpr fits
  · intro tag k h
    exact ⟨Kind.ofNumber?_number k, Kind.ofTag?_eq_some_iff.mp h⟩

end SolidityTree
