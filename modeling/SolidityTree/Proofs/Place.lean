import Mathlib.Data.List.Forall2
import SolidityTree.Proofs.Descent
import SolidityTree.Proofs.Grammar
import SolidityTree.Proofs.Numeral

/-!
# Places in a document

A path is written down in reports and failures, and this module says what it is good for.  `at?`
follows it from a value, one member or item at a time, by looking the members up and nothing else;
it knows neither kinds nor decoding.

* `Mirrors.at?`: where a path leads in a tree, it leads in every document of the tree too, and the
  value it leads to is a document of the node it leads to;
* `Node.lookup_parts`: a step leads to ONE node;
* `Path.text_injective`: two paths that are written alike are the same.  Every step is written with
  a point in front and no other point in it, so the text can be cut back into its steps.

Contents
* §1  following a path through a value
* §2  documents and their trees
* §3  steps below a node
* §4  written paths
-/

namespace SolidityTree

/-! ## 1. Following a path -/

namespace Json

/-- The member of a name that counts. -/
def member? (name : String) : Json → Option Json
  | obj _ members => last? name members
  | _ => none

/-- An item of an array. -/
def item? (index : Nat) : Json → Option Json
  | arr _ items => items[index]?
  | _ => none

/-- The value one step below a value. -/
def step? (v : Json) : Descent → Option Json
  | .nodes index => (v.member? "nodes").bind (item? index)
  | .statements index => (v.member? "statements").bind (item? index)
  | .arguments index => (v.member? "arguments").bind (item? index)
  | .expression => v.member? "expression"
  | .body => v.member? "body"

/-- **The value that a path leads to**, if it leads anywhere. -/
def at? (v : Json) : Path → Option Json
  | [] => some v
  | d :: path => (v.step? d).bind fun w => w.at? path

theorem at?_cons {v w : Json} {d : Descent} (h : v.step? d = some w) (path : Path) :
    v.at? (d :: path) = w.at? path := by
  rw [at?, h]
  rfl

theorem member?_obj {name : String} {source : Thunk Bytes} {members : List (String × Json)}
    {w : Json} : (obj source members).member? name = some w ↔ Has members name w :=
  last?_eq_some_iff

/-- The items of a list that is there. -/
theorem item?_of_required {field : String} {source : Thunk Bytes}
    {members : List (String × Json)} {items : List Json} (h : Required members field IsList items)
    (index : Nat) : ((obj source members).member? field).bind (item? index) = items[index]? := by
  obtain ⟨v, hv, -, source', rfl⟩ := h
  rw [member?_obj.mpr hv]
  rfl

end Json

open Json Node

/-! ## 2. Documents and their trees -/

/-- The nodes of a mirrored list mirror the items with the same numbers. -/
theorem exists_item_of_forall₂ {items : List Json} {nodes : List Node}
    (h : List.Forall₂ Mirrors items nodes) {i : Nat} {s : Node} (hs : nodes[i]? = some s) :
    ∃ w, items[i]? = some w ∧ Mirrors w s := by
  induction h generalizing i with
  | nil => cases hs
  | @cons v t items nodes hv _ ih =>
    cases i with
    | zero =>
      cases hs
      exact ⟨v, rfl, hv⟩
    | succ i => exact ih hs

/-- One step into a list. -/
theorem Mirrors.step_of_listed {v : Json} {field : String} {step : Nat → Descent}
    {items : List Json} {nodes : List Node} {p : Descent × Node}
    (follow : ∀ i, v.step? (step i) = (v.member? field).bind (item? i))
    (list : ∀ i, (v.member? field).bind (item? i) = items[i]?)
    (mirrored : List.Forall₂ Mirrors items nodes) (hp : p ∈ listed step 0 nodes) :
    ∃ w, v.step? p.1 = some w ∧ Mirrors w p.2 := by
  obtain ⟨i, hd, hi⟩ := mem_listed_iff.mp hp
  obtain ⟨w, hw, hm⟩ := exists_item_of_forall₂ mirrored hi
  refine ⟨w, ?_, hm⟩
  rw [hd, Nat.zero_add, follow, list, hw]

/-- A list that may be left out: where it is, no node comes from it. -/
theorem item?_of_defaulted {field : String} {source : Thunk Bytes}
    {members : List (String × Json)} {items : List Json}
    (h : Defaulted members field IsList [] items) (hne : items ≠ []) (index : Nat) :
    ((obj source members).member? field).bind (item? index) = items[index]? := by
  obtain ⟨x, hx, rfl⟩ := h
  cases x with
  | none => exact absurd rfl hne
  | some list => exact item?_of_required hx index

/-- **One step down a tree is one step down its document.** -/
theorem Mirrors.step {v : Json} {t : Node} (h : Mirrors v t) {p : Descent × Node}
    (hp : p ∈ t.parts) : ∃ w, v.step? p.1 = some w ∧ Mirrors w p.2 := by
  -- an optional list that nodes come from is not empty, so it is there
  have optional : ∀ {source : Thunk Bytes} {members : List (String × Json)} {items : List Json}
      {nodes : List Node}, Defaulted members "nodes" IsList [] items →
      List.Forall₂ Mirrors items nodes → p ∈ listed .nodes 0 nodes →
      ∃ w, (Json.obj source members).step? p.1 = some w ∧ Mirrors w p.2 := by
    intro source members items nodes hd hn hp
    refine step_of_listed (fun _ => rfl) (item?_of_defaulted hd ?_) hn hp
    rintro rfl
    cases hn
    cases hp
  cases h with
  | plain _ => cases hp
  | sourceUnit _ _ hr hn => exact step_of_listed (fun _ => rfl) (item?_of_required hr) hn hp
  | contractDefinition _ _ hr hn => exact step_of_listed (fun _ => rfl) (item?_of_required hr) hn hp
  | functionDeclaration _ _ _ hd hn => exact optional hd hn hp
  | functionDefinition _ _ hb _ hm _ hd hn =>
    rcases List.mem_cons.mp hp with rfl | hp
    · exact ⟨_, last?_eq_some_iff.mpr hb, hm⟩
    · exact optional hd hn hp
  | variableDeclaration _ _ hd hn => exact optional hd hn hp
  | block _ _ hr hn _ => exact step_of_listed (fun _ => rfl) (item?_of_required hr) hn hp
  | expressionStatement _ _ he _ hm _ =>
    rw [List.mem_singleton.mp hp]
    exact ⟨_, last?_eq_some_iff.mpr he, hm⟩
  | functionCallBare _ _ he _ hm _ _ =>
    rw [List.mem_singleton.mp hp]
    exact ⟨_, last?_eq_some_iff.mpr he, hm⟩
  | functionCall _ _ he _ hm _ hr hn _ =>
    rcases List.mem_cons.mp hp with rfl | hp
    · exact ⟨_, last?_eq_some_iff.mpr he, hm⟩
    · exact step_of_listed (fun _ => rfl) (item?_of_required hr) hn hp
  | identifier _ _ => cases hp
  | @unknown _ _ _ _ field _ _ _ _ _ hc hn =>
    cases field with
    | nodes => exact step_of_listed (fun _ => rfl) (item?_of_required hc) hn hp
    | statements => exact step_of_listed (fun _ => rfl) (item?_of_required hc.2) hn hp

/-- **Where a path leads in a tree, it leads in its document**, to a document of the same node. -/
theorem Mirrors.at? {v : Json} {t s : Node} {path : Path} (h : Mirrors v t)
    (hs : Descends t path s) : ∃ w, v.at? path = some w ∧ Mirrors w s := by
  induction hs generalizing v with
  | here t => exact ⟨v, rfl, h⟩
  | down hp _ ih =>
    obtain ⟨w, hw, hm⟩ := h.step hp
    obtain ⟨u, hu, hm'⟩ := ih hm
    exact ⟨u, (at?_cons hw _).trans hu, hm'⟩

/-! ## 3. Steps below a node -/

namespace Node

/-- Where every number has a step of its own, a step leads to one node of a list. -/
theorem lookup_listed {step : Nat → Descent} (hs : Function.Injective step) {d : Descent}
    {s : Node} : ∀ {index : Nat} {nodes : List Node}, (d, s) ∈ listed step index nodes →
    (listed step index nodes).lookup d = some s
  | _, [], h => absurd h (by simp [listed])
  | index, t :: rest, h => by
    rcases List.mem_cons.mp h with heq | h
    · cases heq
      rw [listed, List.lookup_cons_self]
    · obtain ⟨i, hd, -⟩ := mem_listed_iff.mp h
      have hne : (d == step index) = false := by
        rw [beq_eq_false_iff_ne, hd]
        intro heq
        have := hs heq
        omega
      rw [listed, List.lookup_cons, hne]
      exact lookup_listed hs h

/-- **A step leads to one part.** -/
theorem lookup_parts {t s : Node} {d : Descent} (h : (d, s) ∈ t.parts) :
    t.parts.lookup d = some s := by
  have nodes : Function.Injective Descent.nodes := fun _ _ h => Descent.nodes.inj h
  have statements : Function.Injective Descent.statements := fun _ _ h => Descent.statements.inj h
  have arguments : Function.Injective Descent.arguments := fun _ _ h => Descent.arguments.inj h
  rcases t with _ | _ | ⟨_, _ | body, _⟩ | _ | _ | _ | ⟨_, _, _, _ | _⟩ | _ | _ | ⟨_, _, field, _⟩
  case functionDefinition.some =>
    rcases List.mem_cons.mp h with heq | h
    · cases heq
      rfl
    · obtain ⟨i, rfl, -⟩ := mem_listed_iff.mp h
      exact lookup_listed nodes h
  case functionCall.some =>
    rcases List.mem_cons.mp h with heq | h
    · cases heq
      rfl
    · obtain ⟨i, rfl, -⟩ := mem_listed_iff.mp h
      exact lookup_listed arguments h
  case expressionStatement | functionCall.none =>
    cases List.mem_singleton.mp h
    rfl
  case identifier | plain => cases h
  case block => exact lookup_listed statements h
  case unknown =>
    cases field with
    | nodes => exact lookup_listed nodes h
    | statements => exact lookup_listed statements h
  all_goals exact lookup_listed nodes h

end Node

/-! ## 4. Written paths -/

/-- **Cutting a text before a mark.**  If the mark is in neither of the first pieces and both of the
second pieces start with it, or are empty, a text can be cut in one way only. -/
theorem append_inj_of_mark {α : Type} {mark : α} {l l' r r' : List α} (hl : mark ∉ l)
    (hl' : mark ∉ l') (hr : ∀ x ∈ r.head?, x = mark) (hr' : ∀ x ∈ r'.head?, x = mark)
    (h : l ++ r = l' ++ r') : l = l' ∧ r = r' := by
  induction l generalizing l' with
  | nil =>
    cases l' with
    | nil => exact ⟨rfl, h⟩
    | cons x l' =>
      have hx : x = mark := hr x (by rw [← List.nil_append r, h]; rfl)
      exact absurd (hx ▸ List.mem_cons_self) hl'
  | cons x l ih =>
    cases l' with
    | nil =>
      have hx : x = mark := hr' x (by rw [← List.nil_append r', ← h]; rfl)
      exact absurd (hx ▸ List.mem_cons_self) hl
    | cons y l' =>
      simp only [List.cons_append, List.cons.injEq] at h
      obtain ⟨rfl, h⟩ := h
      obtain ⟨h1, h2⟩ := ih (fun hm => hl (List.mem_cons_of_mem _ hm))
        (fun hm => hl' (List.mem_cons_of_mem _ hm)) h
      exact ⟨by rw [h1], h2⟩

namespace Descent

/-- The member that a step goes into. -/
def field : Descent → String
  | nodes _ => "nodes"
  | statements _ => "statements"
  | arguments _ => "arguments"
  | expression => "expression"
  | body => "body"

/-- The number of the item that a step goes to, if the member is a list. -/
def index? : Descent → Option Nat
  | nodes index | statements index | arguments index => some index
  | expression | body => none

/-- The number of an item in brackets. -/
def brackets : Option Nat → List Char
  | none => []
  | some index => '[' :: (Nat.toDigits 10 index ++ [']'])

theorem toList_text (d : Descent) :
    d.text.toList = '.' :: (d.field.toList ++ brackets d.index?) := by
  cases d <;>
    simp only [text, item, Decimal.writeNat, String.toList_append, String.toList_ofList,
      List.append_assoc] <;>
    rfl

theorem brackets_injective : Function.Injective brackets := by
  intro m n h
  cases m with
  | none =>
    cases n with
    | none => rfl
    | some n => cases h
  | some m =>
    cases n with
    | none => cases h
    | some n =>
      have hd : Nat.toDigits 10 m = Nat.toDigits 10 n :=
        List.append_cancel_right (List.cons.inj h).2
      rw [← Nat.ofDigitChars_ten_toDigits (n := m), hd, Nat.ofDigitChars_ten_toDigits]

/-- The names of members are letters. -/
theorem isAlpha_of_mem_field {d : Descent} {c : Char} (h : c ∈ d.field.toList) :
    c.isAlpha = true := by
  have letters : ∀ name ∈ ["nodes", "statements", "arguments", "expression", "body"],
      name.toList.all Char.isAlpha = true := by
    decide +kernel
  refine List.all_eq_true.mp (letters d.field ?_) c h
  cases d <;> simp [field]

theorem point_not_mem (d : Descent) : '.' ∉ d.field.toList ++ brackets d.index? := by
  have digits : ∀ n, '.' ∉ Nat.toDigits 10 n := fun n h =>
    absurd ((Decimal.isDigits_toDigits n).2 _ h) (by decide)
  have numbered : ∀ n, '.' ∉ brackets (some n) := by
    intro n
    simp [brackets, digits]
  intro h
  rcases List.mem_append.mp h with h | h
  · exact absurd (isAlpha_of_mem_field h) (by decide)
  · cases d with
    | nodes n | statements n | arguments n => exact numbered n h
    | expression | body => cases h

/-- A step is known by its member and its number. -/
theorem eq_of_field {d e : Descent} (hf : d.field = e.field) (hi : d.index? = e.index?) :
    d = e := by
  cases d <;> cases e <;> simp_all [field, index?]

theorem text_injective : Function.Injective text := by
  intro d e h
  have hlist : d.text.toList = e.text.toList := by rw [h]
  rw [toList_text, toList_text, List.cons.injEq] at hlist
  have bracket : ∀ c : Descent, '[' ∉ c.field.toList := fun c h =>
    absurd (isAlpha_of_mem_field h) (by decide)
  have head : ∀ n, ∀ x ∈ (brackets n).head?, x = '[' := by
    intro n x hx
    cases n with
    | none => cases hx
    | some n => exact (Option.some.inj hx).symm
  obtain ⟨hf, hi⟩ := append_inj_of_mark (bracket d) (bracket e) (head _) (head _) hlist.2
  exact eq_of_field (String.toList_inj.mp hf) (brackets_injective hi)

end Descent

/-- **A path is known by its text.** -/
theorem Path.text_injective : Function.Injective Path.text := by
  -- what follows a step is empty or starts with the point of the next step
  have head : ∀ path : Path, ∀ x ∈ (path.flatMap fun d => d.text.toList).head?, x = '.' := by
    intro path x hx
    cases path with
    | nil => cases hx
    | cons d path =>
      rw [List.flatMap_cons, Descent.toList_text] at hx
      exact (Option.some.inj hx).symm
  have steps : ∀ p q : Path,
      (p.flatMap fun d => d.text.toList) = (q.flatMap fun d => d.text.toList) → p = q := by
    intro p
    induction p with
    | nil =>
      intro q h
      cases q with
      | nil => rfl
      | cons e q =>
        rw [List.flatMap_cons, Descent.toList_text] at h
        cases h
    | cons d p ih =>
      intro q h
      cases q with
      | nil =>
        rw [List.flatMap_cons, Descent.toList_text] at h
        cases h
      | cons e q =>
        rw [List.flatMap_cons, List.flatMap_cons, Descent.toList_text, Descent.toList_text,
          List.cons_append, List.cons_append, List.cons.injEq] at h
        obtain ⟨hd, hp⟩ :=
          append_inj_of_mark d.point_not_mem e.point_not_mem (head p) (head q) h.2
        have htext : d.text.toList = e.text.toList := by
          rw [Descent.toList_text, Descent.toList_text, hd]
        rw [Descent.text_injective (String.toList_inj.mp htext), ih q hp]
  intro p q h
  have hlist : p.text.toList = q.text.toList := by rw [h]
  simp only [Path.text, String.toList_append, String.toList_join, List.flatMap_map] at hlist
  exact steps p q (List.append_cancel_left hlist)

end SolidityTree
