import Mathlib.Data.List.Perm.Basic
import SolidityTree.Walk
import SolidityTree.Proofs.Place
import SolidityTree.Proofs.Rendering
import SolidityTree.Proofs.Reports

/-!
# What a walk finds of the nodes that were reported

Decoding reports every node of an unregistered tag.  A walk goes by `Node.children`, which lists
nothing below a variable, although a variable keeps a list too; so a walk finds such a node UNLESS
a variable is on the way to it.  `Node.hides` says when that is so, and it is the only difference:
the nodes that a walk finds are the reported ones that are not hidden, each as often (`met_perm`),
only in another order: a walk comes to a node before what is below it, and reports come after.

Contents
* §1  tallies
* §2  the nodes that a walk finds
* §3  hidden paths
* §4  walks and reports
* §5  documents
-/

namespace SolidityTree

open Node

/-! ## 1. Tallies -/

namespace Walk

section Tally

variable {α : Type} [DecidableEq α]

/-- The count of a key in a tally; a key without an entry counts 0. -/
def countOf (counts : List (α × Nat)) (key : α) : Nat := (counts.lookup key).getD 0

theorem countOf_cons (key k : α) (n : Nat) (counts : List (α × Nat)) :
    countOf ((k, n) :: counts) key = if key = k then n else countOf counts key := by
  unfold countOf
  rw [List.lookup_cons]
  by_cases h : key = k
  · simp [h]
  · rw [beq_eq_false_iff_ne.mpr h, if_neg h]

theorem countOf_increment (key k : α) (counts : List (α × Nat)) :
    countOf (increment k counts) key = countOf counts key + if k = key then 1 else 0 := by
  induction counts with
  | nil =>
    rw [increment, countOf_cons]
    by_cases h : k = key
    · simp [h, countOf]
    · simp [h, Ne.symm h, countOf]
  | cons entry rest ih =>
    obtain ⟨k', n⟩ := entry
    rw [increment]
    by_cases hk : k' = k
    · subst hk
      rw [if_pos rfl, countOf_cons, countOf_cons]
      by_cases h : key = k'
      · simp [h]
      · simp [h, Ne.symm h]
    · rw [if_neg hk, countOf_cons, countOf_cons, ih]
      by_cases h : key = k'
      · simp [h, Ne.symm hk]
      · simp [h]

/-- **A tally counts how often each key occurs.** -/
theorem countOf_tally (keys : List α) (key : α) : countOf (tally keys) key = keys.count key := by
  have run : ∀ (keys : List α) (counts : List (α × Nat)),
      countOf (keys.foldl (fun counts key => increment key counts) counts) key =
        countOf counts key + keys.count key := by
    intro keys
    induction keys with
    | nil => intro counts; rfl
    | cons k keys ih =>
      intro counts
      rw [List.foldl_cons, ih, countOf_increment, List.count_cons]
      simp only [beq_iff_eq]
      omega
  exact (run keys []).trans (Nat.zero_add _)

end Tally

end Walk

/-! ## 2. What a walk finds -/

namespace Node

theorem children_subset_parts {t c : Node} (h : c ∈ t.children.getD []) : ∃ d, (d, c) ∈ t.parts := by
  rcases t with _ | _ | ⟨_, _ | body, _⟩ | _ | _ | _ | _ | _ | _ | _
  case functionDefinition.some =>
    obtain ⟨d, hd⟩ : ∃ d, (d, c) ∈ listed .nodes 0 _ := exists_mem_listed 0 h
    exact ⟨d, List.mem_cons_of_mem _ hd⟩
  case variableDeclaration | block | expressionStatement | functionCall | identifier | plain => cases h
  all_goals exact exists_mem_listed 0 h

/-- **The induction over the nodes that walks go to.** -/
theorem induction_on_children {P : Node → Prop}
    (step : ∀ t, (∀ c ∈ t.children.getD [], P c) → P t) (t : Node) : P t := by
  induction t using induction_on_parts with
  | step t ih =>
    refine step t fun c hc => ?_
    obtain ⟨d, hd⟩ := children_subset_parts hc
    exact ih (d, c) hd

end Node

namespace Walk

theorem visitAll_eq (enter : List Nat → Node → Bool) (address : List Nat) (index : Nat)
    (nodes : List Node) : visitAll enter address index nodes =
      (nodes.zipIdx index).flatMap fun p => visit enter (address ++ [p.2]) p.1 := by
  induction nodes generalizing index with
  | nil => rfl
  | cons t rest ih => rw [visitAll, ih, List.zipIdx_cons, List.flatMap_cons]

/-- What the walk that goes everywhere visits at and below a node of some depth. -/
def visitsBelow (depth : Nat) (t : Node) : List Visit :=
  visit (fun _ _ => true) (List.replicate depth 0) t

/-- Addresses of one length make no difference to it. -/
theorem visit_everywhere {address address' : List Nat} (h : address.length = address'.length)
    (t : Node) : visit (fun _ _ => true) address t = visit (fun _ _ => true) address' t := by
  induction t using induction_on_children generalizing address address' with
  | step t ih =>
    rw [visit_eq, visit_eq, if_pos rfl, if_pos rfl, visitAll_eq, visitAll_eq, h]
    refine congrArg _ (List.flatMap_congr fun p hp => ?_)
    refine ih p.1 (List.mem_of_getElem? (List.mem_zipIdx_iff_getElem?.mp hp)) ?_
    rw [List.length_append, List.length_append, h]

/-- The node comes first, and then what is below it. -/
theorem visitsBelow_eq (depth : Nat) (t : Node) :
    visitsBelow depth t = ⟨t, depth⟩ :: (t.children.getD []).flatMap (visitsBelow (depth + 1)) := by
  have below (p : Node × Nat) : visit (fun _ _ => true) (List.replicate depth 0 ++ [p.2]) p.1 =
      visitsBelow (depth + 1) p.1 :=
    visit_everywhere (by simp) p.1
  rw [visitsBelow, visit_eq, if_pos rfl, visitAll_eq, List.length_replicate]
  simp only [below, ← List.flatMap_map (f := Prod.fst), List.zipIdx_map_fst]

/-- The nodes of unregistered tags that the walk through all of a tree meets. -/
def met (depth : Nat) (t : Node) : List Node :=
  ((visitsBelow depth t).map Visit.node).filter fun s => s.kind = none

/-- The node itself, if its tag is not registered. -/
def metHere (t : Node) : List Node := [t].filter fun s => s.kind = none

/-- It meets the node and then what it meets in the children. -/
theorem met_eq (depth : Nat) (t : Node) :
    met depth t = metHere t ++ (t.children.getD []).flatMap (met (depth + 1)) := by
  unfold met metHere
  rw [visitsBelow_eq, List.map_cons, List.map_flatMap, ← List.singleton_append, List.filter_append,
    List.filter_flatMap]

end Walk

/-! ## 3. Hidden paths -/

namespace Node

/-- The node that a path leads to, if it leads anywhere. -/
def at? (t : Node) : Path → Option Node
  | [] => some t
  | d :: path => (t.parts.lookup d).bind fun c => c.at? path

theorem at?_of_descends {t s : Node} {path : Path} (h : Descends t path s) :
    t.at? path = some s := by
  induction h with
  | here => rfl
  | down hp _ ih =>
    rw [at?, lookup_parts hp]
    exact ih

/-- **Whether a path goes below a variable.** -/
def hides (t : Node) : Path → Bool
  | [] => false
  | d :: path =>
    t.kind = some .variableDeclaration || (t.parts.lookup d).any fun c => c.hides path

/-- A path is hidden exactly if some node on the way, and not its end, is a variable. -/
theorem hides_iff {t s : Node} {path : Path} (h : Descends t path s) :
    t.hides path = true ↔ ∃ before d after head nodes, path = before ++ d :: after ∧
      Descends t before (.variableDeclaration head nodes) := by
  induction h with
  | here t =>
    refine iff_of_false (by simp [hides]) ?_
    rintro ⟨before, d, after, -, -, heq, -⟩
    simp at heq
  | @down t c s d path hp hd ih =>
    rw [hides, lookup_parts hp, Bool.or_eq_true, decide_eq_true_eq, Option.any_some, ih]
    constructor
    · rintro (hk | ⟨before, e, after, head, nodes, rfl, hb⟩)
      · cases t with
        | variableDeclaration head nodes => exact ⟨[], d, path, head, nodes, rfl, .here _⟩
        | _ => cases hk
      · exact ⟨d :: before, e, after, head, nodes, rfl, .down hp hb⟩
    · rintro ⟨before, e, after, head, nodes, heq, hb⟩
      cases before with
      | nil =>
        cases hb
        exact Or.inl rfl
      | cons d' before =>
        cases heq
        cases hb with
        | down hp' hb =>
          cases (lookup_parts hp).symm.trans (lookup_parts hp')
          exact Or.inr ⟨before, e, after, head, nodes, rfl, hb⟩

end Node

/-! ## 4. Walks and reports -/

namespace Walk

/-- The reports whose paths are not hidden. -/
def shown (t : Node) (reports : List Report) : List Report :=
  reports.filter fun r => !t.hides r.path

/-- The nodes that reports lead to, the hidden ones left out. -/
def shownNodes (t : Node) : List Node :=
  (shown t t.unknowns).filterMap fun r => t.at? r.path

/-- A walk goes into the list that a node keeps, except for a variable's. -/
theorem children_getD (t : Node) (h : t.kind ≠ some .variableDeclaration) :
    t.children.getD [] = t.branches.map Prod.snd := by
  have snd_listed : ∀ (step : Nat → Descent) (index : Nat) (nodes : List Node),
      (listed step index nodes).map Prod.snd = nodes := by
    intro step index nodes
    induction nodes generalizing index with
    | nil => rfl
    | cons t rest ih => rw [listed, List.map_cons, ih]
  cases t with
  | sourceUnit | contractDefinition | functionDefinition | unknown => exact (snd_listed _ _ _).symm
  | variableDeclaration => exact absurd rfl h
  | block | expressionStatement | functionCall | identifier | plain => rfl

/-- What a node that is no variable shows: what its branches show, and the node itself. -/
theorem shownNodes_eq (t : Node) (h : t.kind ≠ some .variableDeclaration) :
    shownNodes t = t.branches.flatMap (fun p => shownNodes p.2) ++ metHere t := by
  unfold shownNodes shown
  rw [unknowns_eq, List.filter_append, List.filterMap_append, List.filter_flatMap,
    List.filterMap_flatMap]
  congr 1
  · refine List.flatMap_congr fun p hp => ?_
    have hlookup : t.parts.lookup p.1 = some p.2 := lookup_parts (mem_parts_of_mem_branches hp)
    rw [List.filter_map, List.filterMap_map]
    congr 1
    · funext r
      show t.at? (p.1 :: r.path) = p.2.at? r.path
      rw [Node.at?, hlookup]
      rfl
    · congr 1
      funext r
      show (!t.hides (p.1 :: r.path)) = !p.2.hides r.path
      rw [Node.hides, hlookup, decide_eq_false h]
      rfl
  · cases t <;> rfl

/-- A variable shows nothing: everything that is reported below it is hidden. -/
theorem shownNodes_of_variable {t : Node} (h : t.kind = some .variableDeclaration) :
    shownNodes t = [] := by
  cases t with
  | variableDeclaration head nodes =>
    unfold shownNodes shown
    rw [List.filter_eq_nil_iff.mpr ?_]
    · rfl
    · intro r hr
      obtain ⟨field, list, hd⟩ := descends_of_mem_unknowns hr
      cases hpath : r.path with
      | nil =>
        rw [hpath] at hd
        cases hd
      | cons d path => simp [hides, kind]
  | _ => cases h

/-- **A walk finds exactly the nodes that are shown**, each as often. -/
theorem met_perm (depth : Nat) (t : Node) : (met depth t).Perm (shownNodes t) := by
  induction t using induction_on_parts generalizing depth with
  | step t ih =>
    rw [met_eq]
    by_cases h : t.kind = some .variableDeclaration
    · rw [shownNodes_of_variable h]
      cases t with
      | variableDeclaration head nodes => exact .refl _
      | _ => cases h
    · rw [shownNodes_eq t h, children_getD t h, List.flatMap_map]
      refine List.perm_append_comm.trans (List.Perm.append_right _ ?_)
      exact List.Perm.flatMap_left _ fun p hp => ih p (mem_parts_of_mem_branches hp) (depth + 1)

/-- The tags of the nodes that are shown are the tags of their reports. -/
theorem map_tag_shownNodes (t : Node) :
    (shownNodes t).map Node.tag = (shown t t.unknowns).map Report.tag := by
  have node : ∀ r ∈ shown t t.unknowns, (t.at? r.path).map Node.tag = some r.tag := by
    intro r hr
    obtain ⟨field, nodes, hd⟩ := descends_of_mem_unknowns (List.mem_of_mem_filter hr)
    rw [at?_of_descends hd]
    rfl
  rw [shownNodes, List.map_filterMap, List.filterMap_congr node, ← List.filterMap_eq_map]
  rfl

/-- **The count of a tag** is the number of its reports that are not hidden. -/
theorem countOf_unknownTags (t : Node) (tag : String) :
    countOf (unknownTags (some t)) tag = (shown t t.unknowns).countP fun r => r.tag = tag := by
  have perm : ((filter (some t) none).map Node.tag).Perm ((shown t t.unknowns).map Report.tag) :=
    map_tag_shownNodes t ▸ (met_perm 0 t).map Node.tag
  rw [unknownTags, countOf_tally, perm.count_eq, List.count_eq_countP, List.countP_map]
  rfl

/-! ## 5. Documents -/

/-- **A walk finds what was reported, except below variables.**  The count of a tag is the number of
its reports that are not hidden, so the reports outnumber it by the hidden ones; the nodes found are
those that the other reports lead to, each as often; and a report is hidden exactly if its path
leads through a variable to something below. -/
theorem unknownTags_of_decode {limit : Int64} {document : Bytes} {root : Node}
    (h : (decode ⟨limit, true⟩ document).result = .ok root) :
    let reports := (decode ⟨limit, true⟩ document).reports
    (∀ tag, countOf (unknownTags (some root)) tag =
      reports.countP fun r => r.tag = tag && !root.hides r.path) ∧
    (∀ tag, reports.countP (fun r => r.tag = tag) = countOf (unknownTags (some root)) tag +
      reports.countP fun r => r.tag = tag && root.hides r.path) ∧
    (filter (some root) none).Perm ((shown root reports).filterMap fun r => root.at? r.path) ∧
    ∀ r ∈ reports, ∃ field nodes, Descends root r.path (.unknown r.tag r.id field nodes) ∧
      (root.hides r.path = true ↔ ∃ before d after head kept, r.path = before ++ d :: after ∧
        Descends root before (.variableDeclaration head kept)) := by
  intro reports
  have all : reports = root.unknowns := decode_lists document root h
  have count : ∀ tag, countOf (unknownTags (some root)) tag =
      reports.countP fun r => r.tag = tag && !root.hides r.path := by
    intro tag
    rw [countOf_unknownTags, all, shown, List.countP_filter]
  refine ⟨count, ?_, ?_, ?_⟩
  · intro tag
    rw [count, List.countP_eq_countP_filter_add reports _ fun r => !root.hides r.path,
      List.countP_filter, List.countP_filter]
    simp only [Bool.not_not]
  · rw [all]
    exact met_perm 0 root
  · intro r hr
    rw [all] at hr
    obtain ⟨field, nodes, hd⟩ := descends_of_mem_unknowns hr
    exact ⟨field, nodes, hd, hides_iff hd⟩

/-- A variable that keeps a node of an unregistered tag. -/
def keepsUnknown : Node :=
  .variableDeclaration ⟨1, "", "x", .pub, false, false⟩ [.unknown "Mystery" 2 .nodes []]

theorem wellFormed_keepsUnknown : keepsUnknown.WellFormed := by
  refine wellFormed_iff.mpr ⟨Visibility.word_mem_words _, ?_⟩
  intro p hp
  rw [List.mem_singleton.mp hp]
  refine wellFormed_iff.mpr ⟨⟨?_, Or.inl rfl⟩, by simp [parts, listed]⟩
  exact Kind.ofTag?_eq_none_iff.mp (by decide +kernel)

/-- Two nodes of one tag, one of them below a variable: both are reported, and one is found. -/
theorem unknownTags_of_decode_two :
    let document := utf8 ("\x7b\"nodeType\":\"Mystery\",\"id\":3,\"nodes\":[" ++
      "\x7b\"nodeType\":\"VariableDeclaration\",\"id\":1,\"src\":\"\",\"name\":\"x\"," ++
      "\"visibility\":\"public\",\"stateVariable\":false,\"constant\":false,\"nodes\":[" ++
      "\x7b\"nodeType\":\"Mystery\",\"id\":2,\"nodes\":[]\x7d]\x7d]\x7d")
    let root : Node := .unknown "Mystery" 3 .nodes [keepsUnknown]
    (decode ⟨0, true⟩ document).result = .ok root ∧
      (decode ⟨0, true⟩ document).reports.countP (fun r => r.tag = "Mystery") = 2 ∧
      countOf (unknownTags (some root)) "Mystery" = 1 := by
  intro document root
  have wf : root.WellFormed := by
    refine wellFormed_iff.mpr ⟨⟨?_, Or.inl rfl⟩, ?_⟩
    · exact Kind.ofTag?_eq_none_iff.mp (by decide +kernel)
    · intro p hp
      rw [List.mem_singleton.mp hp]
      exact wellFormed_keepsUnknown
  have written : document = root.render.write := by
    simp only [document, utf8_append]
    decide +kernel
  have decoded : (decode ⟨0, true⟩ document).result = .ok root :=
    written ▸ decode_write wf (by decide) (by decide) true
  obtain ⟨count, total, -, -⟩ := unknownTags_of_decode decoded
  rw [total, count, decode_lists document root decoded]
  exact ⟨decoded, by decide, by decide⟩

/-- The node in the variable is reported, and the walk does not find it. -/
theorem unknownTags_ne_countP_reports :
    let document := utf8 ("\x7b\"nodeType\":\"VariableDeclaration\",\"id\":1,\"src\":\"\"," ++
      "\"name\":\"x\",\"visibility\":\"public\",\"stateVariable\":false,\"constant\":false," ++
      "\"nodes\":[\x7b\"nodeType\":\"Mystery\",\"id\":2,\"nodes\":[]\x7d]\x7d")
    (decode ⟨0, true⟩ document).result = .ok keepsUnknown ∧
      (decode ⟨0, true⟩ document).reports = [⟨"Mystery", 2, [.nodes 0]⟩] ∧
      (decode ⟨0, true⟩ document).reports.countP (fun r => r.tag = "Mystery") ≠
        countOf (unknownTags (some keepsUnknown)) "Mystery" := by
  intro document
  have written : document = keepsUnknown.render.write := by
    simp only [document, utf8_append]
    decide +kernel
  have decoded : (decode ⟨0, true⟩ document).result = .ok keepsUnknown :=
    written ▸ decode_write wellFormed_keepsUnknown (by decide) (by decide) true
  rw [decode_lists document _ decoded]
  exact ⟨decoded, rfl, by decide⟩

end Walk

end SolidityTree
