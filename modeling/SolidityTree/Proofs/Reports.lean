import Mathlib.Data.List.Nodup
import SolidityTree.Decode
import SolidityTree.Proofs.Descent
import SolidityTree.Proofs.Grammar
import SolidityTree.Proofs.DepthLimit
import SolidityTree.Proofs.Place
import SolidityTree.Proofs.WellFormed

/-!
# What is reported

A node of an unregistered tag is reported when it has been decoded, so after everything below it.
`Node.unknowns` lists these nodes of a tree in that order, and it goes by the LISTS that nodes keep
alone: no body, statement or expression is looked into.

Decoding reports exactly this list (`node_lists`).  Two things have to be shown for it.  Reports
come in the order in which children are decoded, which is a matter of composing computations
(`Outcome.Lists`).  And nothing is reported from a place that the list leaves out: what stands in a
position is of a registered kind, so a body that was accepted, and a statement or an expression, is
silent through and through.

The list is then compared with the tree: it holds EVERY node of an unregistered tag, wherever it is
reached (`mem_unknowns_iff`), and each after what is below it and after its earlier siblings
(`pairwise_unknowns`).

Contents
* §1  the nodes of unregistered tags
* §2  where they stand
* §3  in which order
* §4  computations and their reports
* §5  decoding
* §6  decoding without reports
* §7  documents
-/

namespace SolidityTree

/-! ## 1. Nodes of unregistered tags -/

namespace Node

mutual

/-- **The nodes of unregistered tags**, each with its tag, its id and the path to it: what is below
a node comes before the node, and the nodes of a list come in their order. -/
def unknowns : Node → List Report
  | sourceUnit _ nodes => unknownsIn .nodes 0 nodes
  | contractDefinition _ nodes => unknownsIn .nodes 0 nodes
  | functionDefinition _ _ nodes => unknownsIn .nodes 0 nodes
  | variableDeclaration _ nodes => unknownsIn .nodes 0 nodes
  | unknown tag id field nodes => unknownsIn field.step 0 nodes ++ [⟨tag, id, []⟩]
  | block _ _ _ | expressionStatement _ _ _ | functionCall _ _ _ _ | identifier _ | plain _ => []

/-- The same for the nodes of a list, the first one having number `index`. -/
def unknownsIn (step : Nat → Descent) : (index : Nat) → List Node → List Report
  | _, [] => []
  | index, t :: rest =>
    (unknowns t).map (Report.under (step index)) ++ unknownsIn step (index + 1) rest

end

/-- The list that a node keeps, with the steps that lead into it. -/
def branches : Node → List (Descent × Node)
  | sourceUnit _ nodes => listed .nodes 0 nodes
  | contractDefinition _ nodes => listed .nodes 0 nodes
  | functionDefinition _ _ nodes => listed .nodes 0 nodes
  | variableDeclaration _ nodes => listed .nodes 0 nodes
  | unknown _ _ field nodes => listed field.step 0 nodes
  | block _ _ _ | expressionStatement _ _ _ | functionCall _ _ _ _ | identifier _ | plain _ => []

/-- The report of a node itself. -/
def ownReport : Node → List Report
  | unknown tag id _ _ => [⟨tag, id, []⟩]
  | _ => []

theorem unknownsIn_eq (step : Nat → Descent) : ∀ (index : Nat) (nodes : List Node),
    unknownsIn step index nodes =
      (listed step index nodes).flatMap fun p => p.2.unknowns.map (Report.under p.1)
  | _, [] => rfl
  | index, t :: rest => by
    rw [unknownsIn, unknownsIn_eq step (index + 1) rest, listed, List.flatMap_cons]

/-- **What `unknowns` lists**: what the branches hold, and then the node. -/
theorem unknowns_eq (t : Node) :
    t.unknowns =
      (t.branches.flatMap fun p => p.2.unknowns.map (Report.under p.1)) ++ t.ownReport := by
  cases t <;> simp [unknowns, branches, ownReport, unknownsIn_eq]

example : (sourceUnit ⟨1, "", ""⟩
    [unknown "A" 5 .nodes [unknown "B" 6 .statements []], unknown "C" 8 .nodes []]).unknowns =
    [⟨"B", 6, [.nodes 0, .nodes 0]⟩, ⟨"A", 5, [.nodes 0]⟩, ⟨"C", 8, [.nodes 1]⟩] := by
  rfl

theorem mem_parts_of_mem_branches {t : Node} {p : Descent × Node} (h : p ∈ t.branches) :
    p ∈ t.parts := by
  cases t with
  | functionDefinition head body nodes =>
    cases body with
    | none => exact h
    | some b => exact List.mem_cons_of_mem _ h
  | sourceUnit | contractDefinition | variableDeclaration | unknown => exact h
  | block | expressionStatement | functionCall | identifier | plain => cases h

/-- In a sound node a part that is no branch stands in a position. -/
theorem mem_branches_or_inBlock {t : Node} (sound : t.Sound) {p : Descent × Node}
    (hp : p ∈ t.parts) : p ∈ t.branches ∨ p.2.InBlock := by
  cases t with
  | functionDefinition head body nodes =>
    cases body with
    | none => exact Or.inl hp
    | some b =>
      rcases List.mem_cons.mp hp with rfl | hp
      · exact Or.inr (inBlock_of_kind (sound.2.2.2.1 b rfl))
      · exact Or.inl hp
  | sourceUnit | contractDefinition | variableDeclaration | unknown => exact Or.inl hp
  | block => exact Or.inr (InBlock.part (t := .block _ _ _) trivial sound hp)
  | expressionStatement =>
    exact Or.inr (InBlock.part (t := .expressionStatement _ _ _) trivial sound hp)
  | functionCall => exact Or.inr (InBlock.part (t := .functionCall _ _ _ _) trivial sound hp)
  | identifier | plain => cases hp

/-! ## 2. Where they stand -/

/-- What is listed is there. -/
theorem descends_of_mem_unknowns {t : Node} {r : Report} (h : r ∈ t.unknowns) :
    ∃ field nodes, Descends t r.path (.unknown r.tag r.id field nodes) := by
  induction t using induction_on_parts generalizing r with
  | step t ih =>
    rw [unknowns_eq, List.mem_append, List.mem_flatMap] at h
    rcases h with ⟨p, hp, hr⟩ | hr
    · obtain ⟨q, hq, rfl⟩ := List.mem_map.mp hr
      have hp' := mem_parts_of_mem_branches hp
      obtain ⟨field, nodes, hd⟩ := ih p hp' hq
      exact ⟨field, nodes, .down hp' hd⟩
    · cases t with
      | unknown tag id field nodes =>
        rw [List.mem_singleton.mp hr]
        exact ⟨field, nodes, .here _⟩
      | _ => cases hr

/-- What is there is listed.  Only well-formed trees have nothing to hide: a node of an unregistered
tag could otherwise lie below a block. -/
theorem mem_unknowns_of_descends {t : Node} {path : Path} {tag : String} {id : Int64}
    {field : ChildField} {nodes : List Node} (wf : t.WellFormed)
    (h : Descends t path (.unknown tag id field nodes)) : ⟨tag, id, path⟩ ∈ t.unknowns := by
  generalize hs : Node.unknown tag id field nodes = s at h
  induction h with
  | here t =>
    subst hs
    rw [unknowns_eq]
    exact List.mem_append_right _ List.mem_cons_self
  | @down t c s d path hp hd ih =>
    rcases mem_branches_or_inBlock wf.sound hp with hb | hi
    · rw [unknowns_eq, List.mem_append, List.mem_flatMap]
      exact Or.inl ⟨(d, c), hb, List.mem_map.mpr ⟨_, ih (wf.part hp) hs, rfl⟩⟩
    · have hin : s.InBlock := hi.below (wf.part hp) hd
      subst hs
      cases hin

/-- **The list is complete.** -/
theorem mem_unknowns_iff {t : Node} (wf : t.WellFormed) {tag : String} {id : Int64} {path : Path} :
    ⟨tag, id, path⟩ ∈ t.unknowns ↔
      ∃ field nodes, Descends t path (.unknown tag id field nodes) := by
  constructor
  · intro h
    exact descends_of_mem_unknowns h
  · rintro ⟨field, nodes, h⟩
    exact mem_unknowns_of_descends wf h

end Node

/-! ## 3. Order -/

/-- Of two steps into one list, the one to the item that comes first. -/
inductive Descent.Earlier : Descent → Descent → Prop
  | nodes {i j : Nat} : i < j → Earlier (.nodes i) (.nodes j)
  | statements {i j : Nat} : i < j → Earlier (.statements i) (.statements j)

/-- **The order of reports**: what is below a node comes before it, and so does everything at and
below its earlier siblings. -/
inductive Path.Precedes : Path → Path → Prop
  | inside (d : Descent) (path : Path) : Precedes (d :: path) []
  | aside {d e : Descent} (p q : Path) : d.Earlier e → Precedes (d :: p) (e :: q)
  | down (d : Descent) {p q : Path} : Precedes p q → Precedes (d :: p) (d :: q)

theorem Path.Precedes.ne {p q : Path} (h : Path.Precedes p q) : p ≠ q := by
  induction h with
  | inside d path => exact List.cons_ne_nil d path
  | aside p q hde =>
    intro heq
    cases hde with
    | nodes hij =>
      cases heq
      omega
    | statements hij =>
      cases heq
      omega
  | down d _ ih =>
    intro heq
    exact ih (List.cons.inj heq).2

namespace Node

theorem pairwise_listed {step : Nat → Descent}
    (hs : ∀ i j, i < j → (step i).Earlier (step j)) : ∀ (index : Nat) (nodes : List Node),
    (listed step index nodes).Pairwise fun p q => p.1.Earlier q.1
  | _, [] => .nil
  | index, t :: rest => by
    refine .cons ?_ (pairwise_listed hs (index + 1) rest)
    rintro ⟨d, s⟩ hp
    obtain ⟨i, rfl, -⟩ := mem_listed_iff.mp hp
    exact hs index (index + 1 + i) (by omega)

theorem pairwise_branches (t : Node) : t.branches.Pairwise fun p q => p.1.Earlier q.1 := by
  have nodes : ∀ list, (listed .nodes 0 list).Pairwise fun p q => p.1.Earlier q.1 :=
    pairwise_listed (fun _ _ h => .nodes h) 0
  cases t with
  | sourceUnit | contractDefinition | functionDefinition | variableDeclaration => exact nodes _
  | unknown tag id field list =>
    cases field with
    | nodes => exact nodes list
    | statements => exact pairwise_listed (fun _ _ h => .statements h) 0 list
  | block | expressionStatement | functionCall | identifier | plain => exact .nil

/-- **The list is in order**, and so no path stands in it twice. -/
theorem pairwise_unknowns (t : Node) : (t.unknowns.map Report.path).Pairwise Path.Precedes := by
  induction t using induction_on_parts with
  | step t ih =>
    rw [unknowns_eq, List.pairwise_map, List.pairwise_append, List.pairwise_flatMap]
    refine ⟨⟨?_, ?_⟩, ?_, ?_⟩
    · intro p hp
      have hbelow := List.pairwise_map.mp (ih p (mem_parts_of_mem_branches hp))
      exact List.pairwise_map.mpr (hbelow.imp fun h => .down p.1 h)
    · refine t.pairwise_branches.imp ?_
      intro p q hpq r hr s hs
      obtain ⟨r, -, rfl⟩ := List.mem_map.mp hr
      obtain ⟨s, -, rfl⟩ := List.mem_map.mp hs
      exact .aside _ _ hpq
    · cases t with
      | unknown => exact List.pairwise_singleton _ _
      | _ => exact .nil
    · intro r hr s hs
      obtain ⟨p, -, hr⟩ := List.mem_flatMap.mp hr
      obtain ⟨r, -, rfl⟩ := List.mem_map.mp hr
      cases t with
      | unknown =>
        rw [List.mem_singleton.mp hs]
        exact .inside _ _
      | _ => cases hs

end Node

/-! ## 4. Computations -/

namespace Outcome

variable {α β : Type} {list : α → List Report} {list' : β → List Report} {x : Outcome Failure α}
  {f : α → Outcome Failure β}

/-- `x.Lists list`: if `x` gives a value, it has reported what `list` says of the value. -/
def Lists (list : α → List Report) (x : Outcome Failure α) : Prop :=
  ∀ a, x.result = .ok a → x.reports = list a

/-- **Two computations in a row** report one after the other. -/
theorem Lists.bind (hx : x.Lists list)
    (hf : ∀ a b, x.result = .ok a → (f a).result = .ok b → list a ++ (f a).reports = list' b) :
    (x >>= f).Lists list' := by
  intro b hb
  obtain ⟨a, ha, hb⟩ := result_bind_eq_ok.mp hb
  have happend : (x >>= f).reports = x.reports ++ (f a).reports := reports_bind_of_ok ha f
  rw [happend, hx a ha, hf a b ha hb]

/-- A computation that is silent when it gives a value, in front of another one. -/
theorem lists_after (hx : x.Lists fun _ => []) (hf : ∀ a, (f a).Lists list') :
    (x >>= f).Lists list' :=
  hx.bind fun a b _ hb => (List.nil_append _).trans (hf a b hb)

/-- A computation that is silent in any case, in front of another one. -/
theorem lists_after_silent (hx : x.reports = []) (hf : ∀ a, (f a).Lists list') :
    (x >>= f).Lists list' :=
  lists_after (fun _ _ => hx) hf

/-- Working on the value without changing what was reported of it. -/
theorem Lists.map {g : α → β} (hx : x.Lists list) (h : ∀ a, list' (g a) = list a) :
    (x >>= fun a => pure (g a)).Lists list' := by
  refine hx.bind fun a b _ hb => ?_
  cases hb
  exact (List.append_nil _).trans (h a).symm

/-- One step further up. -/
theorem Lists.under (hx : x.Lists list) (step : Descent) :
    (x.under step).Lists fun a => (list a).map (Report.under step) := by
  intro a ha
  rw [Outcome.under, hx a (result_under_eq_ok.mp ha)]

theorem reports_bind_of_silent (hx : x.reports = []) (hf : ∀ a, (f a).reports = []) :
    (x >>= f).reports = [] := by
  cases h : x.result with
  | error e => exact (congrArg Outcome.reports (bind_of_error h f)).trans hx
  | ok a =>
    have happend : (x >>= f).reports = x.reports ++ (f a).reports := reports_bind_of_ok h f
    rw [happend, hx, hf a, List.append_nil]

end Outcome

open Outcome

/-! Scalars are read without a report, and so are the lists that children are taken from. -/

namespace Object

variable {α : Type} (o : Object) (field : String) (read : Json → Except Cause α)

theorem reports_readAt (v : Json) : (o.readAt field read v).reports = [] := by
  unfold readAt
  split <;> rfl

theorem reports_required : (o.required field read).reports = [] := by
  unfold required
  split
  · rfl
  · exact o.reports_readAt field read _

theorem reports_optional : (o.optional field read).reports = [] := by
  unfold optional
  split
  · rfl
  · exact reports_bind_of_silent (o.reports_readAt field read _) fun _ => rfl

theorem reports_optionalD (default : α) : (o.optionalD field read default).reports = [] :=
  reports_bind_of_silent (o.reports_optional field read) fun _ => rfl

theorem reports_list? : (o.list? field).reports = [] := by
  unfold list?
  split
  · rfl
  · split <;> rfl

theorem reports_list : (o.list field).reports = [] := by
  refine reports_bind_of_silent (o.reports_list? field) fun parts => ?_
  cases parts <;> rfl

end Object

/-! ## 5. Decoding -/

namespace Decode

open Node

variable {o : Object} {child : Child o}

/-- `ListsBelow child`: a part that is decoded to a node reports the list of the node, and the node
may stand where it was asked for. -/
def ListsBelow (child : Child o) : Prop :=
  ∀ role v, (child role v).Lists unknowns ∧ ∀ t, (child role v).result = .ok t → Admits role t

theorem unknowns_of_inBlock {t : Node} (h : t.InBlock) : t.unknowns = [] := by
  cases t with
  | block | expressionStatement | functionCall | identifier | plain => rfl
  | sourceUnit | contractDefinition | functionDefinition | variableDeclaration | unknown => cases h

theorem ListsBelow.items (hc : ListsBelow child) (role : Option Role) (step : Nat → Descent) :
    ∀ (index : Nat) (parts : List (Part o)),
    (items child role step index parts).Lists (unknownsIn step index)
  | _, [] => by
    intro nodes hn
    cases hn
    rfl
  | index, v :: rest => by
    unfold Decode.items
    refine ((hc role v).1.under (step index)).bind fun t nodes _ hn => ?_
    obtain ⟨ts, hts, rfl⟩ := Outcome.result_map_eq_ok.mp hn
    exact congrArg _ (hc.items role step (index + 1) rest ts hts)

/-- **A part in a position is silent**: whatever may stand there is met below a block. -/
theorem ListsBelow.guarded (hc : ListsBelow child) (role : Role) (v : Part o) :
    (child (some role) v).Lists fun _ => [] := by
  intro t ht
  obtain ⟨lists, admits⟩ := hc (some role) v
  have fits : t.Fits role := admits t ht
  rw [lists t ht, unknowns_of_inBlock fits.inBlock]

/-- A list of parts in a position is silent. -/
theorem ListsBelow.guardedItems (hc : ListsBelow child) (role : Role) (step : Nat → Descent) :
    ∀ (index : Nat) (parts : List (Part o)),
    (Decode.items child (some role) step index parts).Lists fun _ => []
  | _, [] => fun _ _ => rfl
  | index, v :: rest => by
    unfold Decode.items
    refine lists_after ((hc.guarded role v).under (step index)) fun t => ?_
    rw [map_eq_pure_bind]
    exact (hc.guardedItems role step (index + 1) rest).map fun _ => rfl

theorem ListsBelow.children (hc : ListsBelow child) (field : ChildField) :
    (children o child field).Lists (unknownsIn field.step 0) := by
  rw [children_eq]
  exact lists_after_silent (o.reports_list field.name) fun parts => hc.items none field.step 0 parts

theorem ListsBelow.optionalNodes (hc : ListsBelow child) :
    (optionalNodes o child).Lists (unknownsIn .nodes 0) :=
  lists_after_silent (o.reports_list? "nodes") fun parts => hc.items none .nodes 0 (parts.getD [])

theorem ListsBelow.statements (hc : ListsBelow child) :
    (statements o child).Lists fun _ => [] :=
  lists_after_silent (o.reports_list "statements") fun parts =>
    hc.guardedItems .statement .statements 0 parts

theorem ListsBelow.expression (hc : ListsBelow child) :
    (expression o child).Lists fun _ => [] := by
  unfold Decode.expression
  split
  · exact fun _ _ => rfl
  · next v _ => exact (hc.guarded .expression v).under .expression

theorem ListsBelow.arguments (hc : ListsBelow child) : (arguments o child).Lists fun _ => [] := by
  refine lists_after_silent (o.reports_list? "arguments") fun parts => ?_
  cases parts with
  | none => exact fun _ _ => rfl
  | some parts => exact (hc.guardedItems .expression .arguments 0 parts).map fun _ => rfl

/-- A body is decoded like any node, and is silent because it has turned out to be a block. -/
theorem ListsBelow.body (hc : ListsBelow child) : (body o child).Lists fun _ => [] := by
  unfold Decode.body
  split
  · exact fun _ _ => rfl
  · next v _ =>
    refine ((hc none v).1.under .body).bind fun t b _ hb => ?_
    split at hb
    · next hk =>
      rw [if_pos hk, unknowns_of_inBlock (inBlock_of_kind hk)]
      rfl
    · cases hb

theorem ListsBelow.functionDefinition (hc : ListsBelow child) :
    (functionDefinition o child).Lists unknowns := by
  unfold Decode.functionDefinition
  iterate 5 refine lists_after_silent (o.reports_required _ _) fun _ => ?_
  refine lists_after_silent (o.reports_optionalD _ _ _) fun _ => ?_
  iterate 2 refine lists_after_silent (o.reports_optional _ _) fun _ => ?_
  refine lists_after hc.body fun body => ?_
  dsimp only
  split
  · rintro t ⟨⟩
  · exact hc.optionalNodes.map fun _ => rfl

/-- **A registered kind** reports what the list it keeps reports. -/
theorem ListsBelow.known (hc : ListsBelow child) (k : Kind) : (known o child k).Lists unknowns := by
  cases k with
  | sourceUnit =>
    refine lists_after_silent (o.reports_required _ _) fun _ => ?_
    iterate 2 refine lists_after_silent (o.reports_optionalD _ _ _) fun _ => ?_
    exact (hc.children .nodes).map fun _ => rfl
  | contractDefinition =>
    iterate 2 refine lists_after_silent (o.reports_required _ _) fun _ => ?_
    iterate 3 refine lists_after_silent (o.reports_optionalD _ _ _) fun _ => ?_
    exact (hc.children .nodes).map fun _ => rfl
  | functionDefinition => exact hc.functionDefinition
  | variableDeclaration =>
    iterate 3 refine lists_after_silent (o.reports_required _ _) fun _ => ?_
    iterate 3 refine lists_after_silent (o.reports_optionalD _ _ _) fun _ => ?_
    exact hc.optionalNodes.map fun _ => rfl
  | block =>
    iterate 2 refine lists_after_silent (o.reports_required _ _) fun _ => ?_
    exact hc.statements.map fun _ => rfl
  | expressionStatement =>
    iterate 2 refine lists_after_silent (o.reports_required _ _) fun _ => ?_
    exact hc.expression.map fun _ => rfl
  | functionCall =>
    iterate 2 refine lists_after_silent (o.reports_required _ _) fun _ => ?_
    refine lists_after hc.expression fun _ => ?_
    exact hc.arguments.map fun _ => rfl
  | identifier =>
    iterate 3 refine lists_after_silent (o.reports_required _ _) fun _ => ?_
    refine lists_after_silent (o.reports_optionalD _ _ _) fun _ => ?_
    rintro t ⟨⟩
    rfl
  | plain p =>
    rintro t ⟨⟩
    rfl

/-- **An unregistered tag** is reported after what its list reports. -/
theorem ListsBelow.unknown (hc : ListsBelow child) {opts : Options}
    (reporting : opts.reportUnknown = true) : (unknown opts o child).Lists unknowns := by
  unfold Decode.unknown
  split
  · rintro t ⟨⟩
  · split
    · rintro t ⟨⟩
    · next field _ =>
      refine (hc.children field).bind fun nodes t _ ht => ?_
      rw [reporting] at ht ⊢
      cases ht
      rfl

theorem ListsBelow.object (hc : ListsBelow child) {opts : Options}
    (reporting : opts.reportUnknown = true) (role : Option Role) :
    (object opts role o child).Lists unknowns := by
  unfold Decode.object
  split
  · exact hc.unknown reporting
  · next k _ => exact hc.known k
  · rintro t ⟨⟩
  · next k _ =>
    split
    · exact hc.known k
    · rintro t ⟨⟩

/-- **A value that is decoded to a node reports the list of the node.**  The induction is on the
size of the value. -/
theorem node_lists {opts : Options} (reporting : opts.reportUnknown = true) (depth : Nat)
    (role : Option Role) (v : Json) : (node opts depth role v).Lists unknowns := by
  induction hn : v.size using Nat.strong_induction_on generalizing v depth role with
  | _ n ih =>
    intro t ht
    have shallow : opts.tooDeep depth = false := by
      by_contra deep
      rw [node_of_tooDeep (Bool.eq_true_of_not_eq_false deep)] at ht
      cases ht
    cases v with
    | obj source members =>
      rw [node_obj shallow] at ht ⊢
      split at ht
      · cases ht
      · next tag htag =>
        refine ListsBelow.object ?_ reporting role t ht
        intro role v
        refine ⟨ih v.val.size ?_ _ _ _ rfl, fun t h => (mirrors_of_node h).2⟩
        have : v.val.size ≤ Json.sizeMembers members := v.property
        simp only [Json.size] at hn
        omega
    | _ =>
      rw [node_of_not_obj shallow role (by simp)] at ht
      cases ht

end Decode

/-! ## 6. Decoding without reports -/

namespace Outcome

variable {ε α β : Type}

/-- The same computation without its reports. -/
def quiet (x : Outcome ε α) : Outcome ε α := ⟨[], x.result⟩

theorem quiet_of_silent {x : Outcome ε α} (h : x.reports = []) : x.quiet = x := by
  obtain ⟨reports, result⟩ := x
  cases h
  rfl

@[simp] theorem quiet_ok (a : α) : (ok a : Outcome ε α).quiet = ok a := rfl

@[simp] theorem quiet_pure (a : α) : (pure a : Outcome ε α).quiet = pure a := rfl

@[simp] theorem quiet_fail (e : ε) : (fail e : Outcome ε α).quiet = fail e := rfl

@[simp] theorem quiet_bind (x : Outcome ε α) (f : α → Outcome ε β) :
    (x >>= f).quiet = x.quiet >>= fun a => (f a).quiet := by
  show (x.bind f).quiet = x.quiet.bind fun a => (f a).quiet
  unfold Outcome.bind quiet
  cases x.result <;> rfl

@[simp] theorem quiet_map (g : α → β) (x : Outcome ε α) : (g <$> x).quiet = g <$> x.quiet := rfl

@[simp] theorem quiet_under (x : Outcome Failure α) (step : Descent) :
    (x.under step).quiet = x.quiet.under step := rfl

end Outcome

namespace Object

variable {α : Type} (o : Object) (field : String) (read : Json → Except Cause α)

@[simp] theorem quiet_failAt (cause : Cause) :
    (o.failAt field cause : Outcome Failure α).quiet = o.failAt field cause := rfl

@[simp] theorem quiet_required : (o.required field read).quiet = o.required field read :=
  quiet_of_silent (o.reports_required field read)

@[simp] theorem quiet_optional : (o.optional field read).quiet = o.optional field read :=
  quiet_of_silent (o.reports_optional field read)

@[simp] theorem quiet_optionalD (default : α) :
    (o.optionalD field read default).quiet = o.optionalD field read default :=
  quiet_of_silent (o.reports_optionalD field read default)

@[simp] theorem quiet_list? : (o.list? field).quiet = o.list? field :=
  quiet_of_silent (o.reports_list? field)

@[simp] theorem quiet_list : (o.list field).quiet = o.list field :=
  quiet_of_silent (o.reports_list field)

end Object

namespace Decode

variable {o : Object}

/-- The same decoding of parts without reports. -/
def Child.quiet (child : Child o) : Child o := fun role v => (child role v).quiet

variable (child : Child o)

@[simp] theorem quiet_items (role : Option Role) (step : Nat → Descent) :
    ∀ (index : Nat) (parts : List (Part o)),
    (items child role step index parts).quiet = items (Child.quiet child) role step index parts
  | _, [] => rfl
  | index, v :: rest => by
    rw [items, items, quiet_bind, quiet_under]
    simp only [quiet_map, quiet_items role step (index + 1) rest]
    rfl

@[simp] theorem quiet_children (field : ChildField) :
    (children o child field).quiet = children o (Child.quiet child) field := by
  rw [children_eq, children_eq]
  simp

@[simp] theorem quiet_optionalNodes :
    (optionalNodes o child).quiet = optionalNodes o (Child.quiet child) := by
  simp [optionalNodes]

@[simp] theorem quiet_statements :
    (statements o child).quiet = statements o (Child.quiet child) := by
  simp [statements]

@[simp] theorem quiet_expression :
    (expression o child).quiet = expression o (Child.quiet child) := by
  unfold expression
  split <;> rfl

@[simp] theorem quiet_arguments :
    (arguments o child).quiet = arguments o (Child.quiet child) := by
  unfold arguments
  rw [quiet_bind, Object.quiet_list?]
  congr 1
  funext parts
  cases parts <;> simp

@[simp] theorem quiet_body : (body o child).quiet = body o (Child.quiet child) := by
  unfold body
  split
  · rfl
  · rw [quiet_bind]
    congr 1
    funext t
    split <;> rfl

/-- Each kind is decoded to the same, with or without reports below it. -/
theorem quiet_known (k : Kind) : (known o child k).quiet = known o (Child.quiet child) k := by
  cases k <;>
    simp [known, sourceUnit, contractDefinition, functionDefinition, variableDeclaration, block,
      expressionStatement, functionCall, identifier, apply_ite Outcome.quiet]

theorem quiet_unknown (opts : Options) :
    (unknown opts o child).quiet =
      unknown { opts with reportUnknown := false } o (Child.quiet child) := by
  unfold unknown
  split
  · rfl
  · split
    · rfl
    · rw [quiet_bind, quiet_children]
      congr 1
      funext nodes
      cases opts.reportUnknown <;> rfl

theorem quiet_object (opts : Options) (role : Option Role) :
    (object opts role o child).quiet =
      object { opts with reportUnknown := false } role o (Child.quiet child) := by
  unfold object
  split
  · exact quiet_unknown child opts
  · exact quiet_known child _
  · rfl
  · split
    · exact quiet_known child _
    · rfl

/-- **Reports are all that reporting adds**: the result is the same, a failure included. -/
theorem node_quiet (opts : Options) (depth : Nat) (role : Option Role) (v : Json) :
    (node opts depth role v).quiet =
      node { opts with reportUnknown := false } depth role v := by
  induction hn : v.size using Nat.strong_induction_on generalizing v depth role with
  | _ n ih =>
    cases deep : opts.tooDeep depth with
    | true =>
      have deep' : Options.tooDeep { opts with reportUnknown := false } depth = true := deep
      rw [node_of_tooDeep deep, node_of_tooDeep deep']
      rfl
    | false =>
      have shallow : Options.tooDeep { opts with reportUnknown := false } depth = false := deep
      cases v with
      | obj source members =>
        rw [node_obj deep, node_obj shallow]
        split
        · rfl
        · rw [quiet_object]
          congr 1
          funext role v
          refine ih v.val.size ?_ _ _ _ rfl
          have : v.val.size ≤ Json.sizeMembers members := v.property
          simp only [Json.size] at hn
          omega
      | _ =>
        rw [node_of_not_obj deep role (by simp), node_of_not_obj shallow role (by simp)]
        rfl

end Decode

/-! ## 7. Documents -/

theorem decode_quiet (opts : Options) (document : Bytes) :
    decode { opts with reportUnknown := false } document = (decode opts document).quiet := by
  unfold decode decodeValue
  split
  · rfl
  · exact (Decode.node_quiet opts 0 none _).symm

theorem decodeSourceUnit_quiet (opts : Options) (document : Bytes) :
    decodeSourceUnit { opts with reportUnknown := false } document =
      (decodeSourceUnit opts document).quiet := by
  have root : ∀ t, (asSourceUnit t).quiet = asSourceUnit t := by
    intro t
    unfold asSourceUnit
    split <;> rfl
  show decode _ document >>= asSourceUnit = (decode opts document >>= asSourceUnit).quiet
  rw [quiet_bind, decode_quiet]
  simp only [root]

/-- A document that gives a tree reports the list of the tree. -/
theorem decode_lists {limit : Int64} (document : Bytes) :
    (decode ⟨limit, true⟩ document).Lists Node.unknowns := by
  unfold decode decodeValue
  split
  · rintro t ⟨⟩
  · exact Decode.node_lists rfl 0 none _

/-- A source unit that is asked for reports nothing more. -/
theorem decodeSourceUnit_lists {limit : Int64} (document : Bytes) :
    (decodeSourceUnit ⟨limit, true⟩ document).Lists Node.unknowns := by
  refine (decode_lists document).bind fun t s _ hs => ?_
  unfold asSourceUnit at hs ⊢
  split at hs
  · next hk =>
    cases hs
    rw [if_pos hk]
    exact List.append_nil _
  · cases hs

/-- **What the reports of a tree say**, if the tree was decoded from `v`. -/
structure Reported (v : Json) (t : Node) (reports : List Report) : Prop where
  /-- They are the nodes of unregistered tags in the lists of the tree, a node after what is below
  it. -/
  postorder : reports = t.unknowns
  /-- No such node is left out, wherever it is, and nothing else is reported. -/
  complete : ∀ tag id path, ⟨tag, id, path⟩ ∈ reports ↔
    ∃ field nodes, Node.Descends t path (.unknown tag id field nodes)
  /-- Each comes after all that are below it and all that are at or below its earlier siblings. -/
  ordered : (reports.map Report.path).Pairwise Path.Precedes
  /-- No two written paths are the same. -/
  distinct : (reports.map fun r => r.path.text).Nodup
  /-- Every path leads to the object that the node was decoded from. -/
  resolves : ∀ r ∈ reports, ∃ source members field nodes,
    v.at? r.path = some (.obj source members) ∧
    Mirrors (.obj source members) (.unknown r.tag r.id field nodes) ∧
    Node.Descends t r.path (.unknown r.tag r.id field nodes)

theorem reported_of_mirrors {v : Json} {t : Node} (h : Mirrors v t) : Reported v t t.unknowns where
  postorder := rfl
  complete _ _ _ := Node.mem_unknowns_iff h.wellFormed
  ordered := t.pairwise_unknowns
  distinct := by
    have paths : (t.unknowns.map Report.path).Nodup := t.pairwise_unknowns.imp fun h => h.ne
    have texts : ((t.unknowns.map Report.path).map Path.text).Nodup :=
      List.Nodup.map Path.text_injective paths
    rwa [List.map_map] at texts
  resolves r hr := by
    obtain ⟨field, nodes, hd⟩ := Node.descends_of_mem_unknowns hr
    obtain ⟨w, hw, hm⟩ := h.at? hd
    cases hm with
    | unknown h1 h2 h3 h4 h5 => exact ⟨_, _, field, nodes, hw, .unknown h1 h2 h3 h4 h5, hd⟩

/-- **The law of reports.**  A document that is decoded to a tree reports the nodes of unregistered
tags of the tree, each once, in order, and with a path that leads to what it was decoded from; so
does one that is decoded to a source unit.  Whether reports are asked for changes nothing else:
without them the result is the same, also where it is a failure. -/
theorem decode_reports (limit : Int64) (document : Bytes) :
    (∀ t, (decode ⟨limit, true⟩ document).result = .ok t →
      ∃ v, Json.parse? document = some v ∧
        Reported v t (decode ⟨limit, true⟩ document).reports) ∧
    (∀ t, (decodeSourceUnit ⟨limit, true⟩ document).result = .ok t →
      ∃ v, Json.parse? document = some v ∧
        Reported v t (decodeSourceUnit ⟨limit, true⟩ document).reports) ∧
    decode ⟨limit, false⟩ document = ⟨[], (decode ⟨limit, true⟩ document).result⟩ ∧
    decodeSourceUnit ⟨limit, false⟩ document =
      ⟨[], (decodeSourceUnit ⟨limit, true⟩ document).result⟩ := by
  refine ⟨?_, ?_, decode_quiet ⟨limit, true⟩ document,
    decodeSourceUnit_quiet ⟨limit, true⟩ document⟩
  · intro t h
    obtain ⟨v, hv, hm⟩ := mirrors_of_decode h
    refine ⟨v, hv, ?_⟩
    rw [decode_lists document t h]
    exact reported_of_mirrors hm
  · intro t h
    obtain ⟨s, hs, hroot⟩ := Outcome.result_bind_eq_ok.mp h
    have heq : s = t := by
      unfold asSourceUnit at hroot
      split at hroot <;> cases hroot
      rfl
    obtain ⟨v, hv, hm⟩ := mirrors_of_decode (heq ▸ hs)
    refine ⟨v, hv, ?_⟩
    rw [decodeSourceUnit_lists document t h]
    exact reported_of_mirrors hm

end SolidityTree
