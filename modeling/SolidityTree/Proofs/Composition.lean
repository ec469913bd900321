import SolidityTree.Proofs.Blame
import SolidityTree.Proofs.OwnText
import SolidityTree.Proofs.Reports
import SolidityTree.Proofs.Threaded

/-!
# Decoding is compositional

Without a limit on the depth, what a value is decoded to is a matter of the value alone.  Wherever
it stands in a document, decoding it gives what decoding its OWN TEXT as a document gives, moved to
the place where it stands: the dollar sign in front of every path gives way to the path of the
value, and nothing else changes (`Outcome.Relocated`).  It makes no difference whether the path is
put in front of what the value has come to or is at hand while the value is decoded (`nodeAt`).  The
position that it is asked for matters only if its tag may not stand there (`Meets`).

For the lists of children this says more.  `Opens` is the grammar of documents with a hole where a
list is: everything that a kind reads before the list is in order.  The list is then decoded item
by item (`node_of_opens`), so it ends with the first item that fails, and what comes after that item
cannot matter.

Every list is the last thing that its kind reads, so the list decides on the node as well.

Contents
* §1  moving outcomes
* §2  values on their own
* §3  objects up to their list
* §4  lists
-/

namespace SolidityTree

open Json

/-! ## 1. Moving outcomes -/

/-- The written form of a path behind the dollar sign. -/
def Path.tail (path : Path) : String := String.join (path.map Descent.text)

theorem Path.text_append (p q : Path) : (p ++ q).text = p.text ++ q.tail := by
  rw [Path.text, Path.text, Path.tail, List.map_append, String.join_append, String.append_assoc]

/-- `r.Relocated path r'`: `r'` is the report `r` with its dollar sign replaced by `path`. -/
structure Report.Relocated (path : Path) (r r' : Report) : Prop where
  path : ∃ tail, r.path.text = "$" ++ tail ∧ r'.path.text = path.text ++ tail
  tag : r'.tag = r.tag
  id : r'.id = r.id

/-- `e.Relocated path e'`: the same for the failures `e` and `e'`, their places and their messages. -/
structure Failure.Relocated (path : Path) (e e' : Failure) : Prop where
  place : ∃ tail, e.place = "$" ++ tail ∧ e'.place = path.text ++ tail
  message : ∃ tail, e.message = utf8 "decode $" ++ tail ∧
    e'.message = utf8 ("decode " ++ path.text) ++ tail
  tag : e'.tag = e.tag
  id : e'.id = e.id
  cause : e'.cause = e.cause

/-- **`x.Relocated path y`**: the outcomes end alike, with the same value or the same failure, and
report the same nodes, the dollar sign of every path in `x` being `path` in `y`. -/
structure Outcome.Relocated {α : Type} (path : Path) (x y : Outcome Failure α) : Prop where
  reports : List.Forall₂ (Report.Relocated path) x.reports y.reports
  ok : ∀ a, x.result = .ok a ↔ y.result = .ok a
  error : ∀ e, x.result = .error e → ∃ e', y.result = .error e' ∧ e.Relocated path e'

theorem Report.relocated_below (path : Path) (r : Report) : r.Relocated path (r.below path) :=
  ⟨⟨r.path.tail, rfl, Path.text_append path r.path⟩, rfl, rfl⟩

theorem Failure.relocated_below (path : Path) (e : Failure) : e.Relocated path (e.below path) := by
  obtain ⟨tail, hown, hmoved⟩ : ∃ tail, e.place = "$" ++ tail ∧
      (e.below path).place = path.text ++ tail := by
    unfold Failure.place
    cases hf : e.field with
    | none =>
      refine ⟨e.path.tail, rfl, ?_⟩
      simp only [Failure.below, hf]
      exact Path.text_append path e.path
    | some field =>
      refine ⟨e.path.tail ++ "." ++ field, ?_, ?_⟩
      · simp only [Path.text, Path.tail, String.append_assoc]
      · simp only [Failure.below, hf, Path.text_append, String.append_assoc]
  refine ⟨⟨tail, hown, hmoved⟩, ?_, rfl, rfl, rfl⟩
  refine ⟨utf8 (tail ++ e.context ++ ": ") ++ e.cause.message, ?_, ?_⟩
  · rw [Failure.message, hown, ← List.append_assoc, ← utf8_append]
    simp only [String.append_assoc]
    rfl
  · have hcontext : (e.below path).context = e.context := rfl
    rw [Failure.message, hmoved, hcontext, ← List.append_assoc, ← utf8_append]
    simp only [String.append_assoc]
    rfl

theorem Outcome.relocated_below {α : Type} (path : Path) (x : Outcome Failure α) :
    x.Relocated path (x.below path) := by
  rw [below_eq]
  refine ⟨?_, ?_, ?_⟩
  · rw [List.forall₂_map_right_iff, List.forall₂_same]
    exact fun r _ => r.relocated_below path
  · intro a
    cases x.result <;> simp [Except.mapError]
  · intro e he
    exact ⟨e.below path, by rw [he]; rfl, e.relocated_below path⟩

/-! ## 2. Values on their own -/

/-- **`Meets role v`**: the tag of `v`, if it has one, may stand in the position that is asked for. -/
def Meets (role : Option Role) (v : Json) : Prop :=
  ∀ r source members tag, role = some r → v = .obj source members → Tagged members tag →
    ∃ k : Kind, k.tag = tag ∧ k.allows r = true

namespace Decode

/-- A position that the tag meets makes no difference. -/
theorem object_of_allows {opts : Options} {role : Option Role} {o : Object} (child : Child o)
    (h : ∀ r, role = some r → ∃ k : Kind, k.tag = o.tag ∧ k.allows r = true) :
    object opts role o child = object opts none o child := by
  cases role with
  | none => rfl
  | some r =>
    obtain ⟨k, hk, hallows⟩ := h r rfl
    have hkind : Kind.ofTag? o.tag = some k := Kind.ofTag?_eq_some_iff.mpr hk
    simp only [object, hkind, hallows, if_true]

theorem node_of_meets {opts : Options} {depth : Nat} (shallow : opts.tooDeep depth = false)
    {role : Option Role} {v : Json} (h : Meets role v) :
    node opts depth role v = node opts depth none v := by
  cases v with
  | obj source members =>
    rw [node_obj shallow, node_obj shallow]
    cases htag : tagOf members with
    | error cause => rfl
    | ok tag =>
      refine object_of_allows _ ?_
      intro r hr
      exact h r source members tag hr rfl (tagOf_eq_ok_iff.mp htag)
  | _ => rw [node_of_not_obj shallow role (by simp), node_of_not_obj shallow none (by simp)]

/-- **A value inside a document is decoded like its own text.** -/
theorem node_eq_decode_text {opts : Options} (unlimited : opts.maxDepth ≤ 0) {document : Bytes}
    {root v : Json} (valid : parse? document = some root) (hv : Within root v) {role : Option Role}
    (h : Meets role v) (depth : Nat) : node opts depth role v = decode opts v.text := by
  have shallow := opts.tooDeep_of_le unlimited depth
  rw [node_of_meets shallow h, node_unlimited opts opts unlimited unlimited rfl depth 0 none v]
  rw [decode, parse?_text valid hv]
  rfl

end Decode

/-! ## 3. Objects up to their list -/

/-- **`Opens members field step place build`**: an object with these members reads the list under
`field`, and everything that it reads before is in order.  The item of number `i` stands at
`step i` and in the position `place`, and the node of the object is `build` of the items' nodes. -/
inductive Opens (members : List (String × Json)) :
    String → (Nat → Descent) → Option Role → (List Node → Node) → Prop
  | sourceUnit {head : SourceUnitHead} : Tagged members "SourceUnit" → head.Matches members →
      Opens members "nodes" .nodes none (.sourceUnit head)
  | contractDefinition {head : ContractHead} : Tagged members "ContractDefinition" →
      head.Matches members → Opens members "nodes" .nodes none (.contractDefinition head)
  /-- A function without a body. -/
  | functionDeclaration {head : FunctionHead} : Tagged members "FunctionDefinition" →
      head.Matches members false → Missing members "body" →
      Opens members "nodes" .nodes none (.functionDefinition head none)
  /-- A function whose body is a block. -/
  | functionDefinition {head : FunctionHead} {b : Json} {body : Node} :
      Tagged members "FunctionDefinition" → head.Matches members true → Has members "body" b →
      b ≠ .null → Mirrors b body → body.kind = some .block →
      Opens members "nodes" .nodes none (.functionDefinition head (some body))
  | variableDeclaration {head : VariableHead} : Tagged members "VariableDeclaration" →
      head.Matches members → Opens members "nodes" .nodes none (.variableDeclaration head)
  | block {id : Int64} {src : String} : Tagged members "Block" → Located members id src →
      Opens members "statements" .statements (some .statement) (.block id src)
  | functionCall {id : Int64} {src : String} {e : Json} {expression : Node} :
      Tagged members "FunctionCall" → Located members id src → Has members "expression" e →
      e ≠ .null → Mirrors e expression → expression.Fits .expression →
      Opens members "arguments" .arguments (some .expression)
        fun arguments => .functionCall id src expression (some arguments)
  /-- A tag that no kind has; `statements` are read only if `nodes` are missing. -/
  | unknown {tag : String} {id : Int64} {field : ChildField} : Tagged members tag →
      (∀ k : Kind, k.tag ≠ tag) → IdOrNull members id →
      (field = .statements → Missing members "nodes") →
      Opens members field.name field.step none (.unknown tag id field)

/-- What is reported of a node itself. -/
def Node.ownReports (opts : Options) : Node → List Report
  | .unknown tag id _ _ => if opts.reportUnknown then [⟨tag, id, []⟩] else []
  | _ => []

namespace Outcome

variable {ε α : Type}

/-- A value without reports. -/
theorem eq_pure_of_silent {x : Outcome ε α} {a : α} (h : x.result = .ok a) (silent : x.reports = []) :
    x = pure a := by
  obtain ⟨reports, result⟩ := x
  cases h
  cases silent
  rfl

end Outcome

namespace Object

variable {α : Type} {o : Object} {field : String} {read : Json → Except Cause α}
  {shape : Json → α → Prop}

theorem required_eq_pure (hr : Reads read shape) {a : α} (h : Required o.members field shape a) :
    o.required field read = pure a :=
  Outcome.eq_pure_of_silent ((result_required hr).mpr h) (o.reports_required field read)

theorem optional_eq_pure (hr : Reads read shape) {x : Option α} (h : Maybe o.members field shape x) :
    o.optional field read = pure x :=
  Outcome.eq_pure_of_silent ((result_optional hr).mpr h) (o.reports_optional field read)

theorem optionalD_eq_pure (hr : Reads read shape) {default a : α}
    (h : Defaulted o.members field shape default a) : o.optionalD field read default = pure a :=
  Outcome.eq_pure_of_silent ((result_optionalD hr).mpr h) (o.reports_optionalD field read default)

theorem list_eq_pure {parts : List (Part o)}
    (h : Required o.members field IsList (parts.map Subtype.val)) : o.list field = pure parts :=
  Outcome.eq_pure_of_silent (result_list.mpr h) (o.reports_list field)

theorem list?_eq_pure {parts : List (Part o)}
    (h : Required o.members field IsList (parts.map Subtype.val)) :
    o.list? field = pure (some parts) :=
  Outcome.eq_pure_of_silent (result_list?.mpr h) (o.reports_list? field)

end Object

namespace Decode

variable {opts : Options} {o : Object} {child : Child o} {members : List (String × Json)}

/-- **A node that stands in a position, or is a block, is decoded silently.** -/
theorem node_eq_pure (unlimited : opts.maxDepth ≤ 0) {depth : Nat} {role : Option Role} {v : Json}
    {t : Node} (h : Mirrors v t) (admits : Admits role t) (inBlock : t.InBlock) :
    node opts depth role v = pure t := by
  have hresult : (node opts depth role v).result = .ok t :=
    (node_result_ok_iff opts unlimited).mpr ⟨h, admits⟩
  refine Outcome.eq_pure_of_silent hresult ?_
  cases hreport : opts.reportUnknown with
  | true => rw [node_lists hreport depth role v t hresult, unknowns_of_inBlock inBlock]
  | false =>
    have hquiet := node_quiet opts depth role v
    have hsame : { opts with reportUnknown := false } = opts := by
      obtain ⟨maxDepth, reportUnknown⟩ := opts
      cases hreport
      rfl
    rw [hsame] at hquiet
    rw [← hquiet]
    rfl

theorem body_eq_pure {b : Json} {t : Node} (hb : Has o.members "body" b) (hne : b ≠ .null)
    (hchild : ∀ v : Part o, v.val = b → child none v = pure t) (hk : t.kind = some .block) :
    body o child = pure (some t) := by
  let p : Part o := ⟨b, size_le_of_last? (last?_eq_some_iff.mpr hb)⟩
  have hpart : o.part? "body" = some p := Object.part?_eq_some_iff.mpr ⟨hb, hne⟩
  simp only [body, hpart, hchild p rfl]
  have hunder : (pure t : Outcome Failure Node).under .body = pure t := rfl
  rw [hunder, pure_bind, if_pos hk]

theorem expression_eq_pure {e : Json} {t : Node} (he : Has o.members "expression" e)
    (hne : e ≠ .null) (hchild : ∀ v : Part o, v.val = e → child (some .expression) v = pure t) :
    expression o child = pure t := by
  let p : Part o := ⟨e, size_le_of_last? (last?_eq_some_iff.mpr he)⟩
  have hpart : o.part? "expression" = some p := Object.part?_eq_some_iff.mpr ⟨he, hne⟩
  simp only [expression, hpart, hchild p rfl]
  rfl

section List

variable {field : ChildField} {parts : List (Part o)}

/-! A list that is there is decoded item by item. -/

theorem children_eq_items (h : Required o.members field.name IsList (parts.map Subtype.val)) :
    children o child field = items child none field.step 0 parts := by
  rw [children_eq, Object.list_eq_pure h, pure_bind]

theorem optionalNodes_eq_items (h : Required o.members "nodes" IsList (parts.map Subtype.val)) :
    optionalNodes o child = items child none .nodes 0 parts := by
  rw [optionalNodes, Object.list?_eq_pure h, pure_bind]
  rfl

theorem statements_eq_items (h : Required o.members "statements" IsList (parts.map Subtype.val)) :
    statements o child = items child (some .statement) .statements 0 parts := by
  rw [statements, Object.list_eq_pure h, pure_bind]

theorem arguments_eq_items (h : Required o.members "arguments" IsList (parts.map Subtype.val)) :
    arguments o child = some <$> items child (some .expression) .arguments 0 parts := by
  rw [arguments, Object.list?_eq_pure h, pure_bind, map_eq_pure_bind]

end List

/-- The end of decoding an object, when its list has been decoded. -/
def conclude (opts : Options) (t : Node) : Outcome Failure Node := ⟨t.ownReports opts, .ok t⟩

/-- A function whose members are in order up to its list. -/
theorem functionDefinition_eq_items {head : FunctionHead} {b : Option Node}
    {parts : List (Part o)} (hm : head.Matches o.members b.isSome) (hbody : body o child = pure b)
    (list : Required o.members "nodes" IsList (parts.map Subtype.val)) :
    functionDefinition o child =
      items child none .nodes 0 parts >>= fun nodes => pure (.functionDefinition head b nodes) := by
  obtain ⟨said, hsaid, himplemented⟩ := hm.implemented
  have hguard : ¬ (head.implemented = true ∧ b.isNone = true) := by
    rintro ⟨himp, hnone⟩
    have hsome := hm.hasBody_of_implemented himp
    cases b with
    | none => cases hsome
    | some t => cases hnone
  simp only [functionDefinition, Object.required_eq_pure reads_toInt hm.id,
    Object.required_eq_pure reads_toText hm.name,
    Object.required_eq_pure reads_toFunctionKind hm.kind,
    Object.required_eq_pure reads_toVisibility hm.visibility,
    Object.required_eq_pure reads_toMutability hm.mutability,
    Object.optionalD_eq_pure reads_toText hm.src,
    Object.optional_eq_pure reads_toSelector hm.selector,
    Object.optional_eq_pure reads_toBool hsaid, hbody, pure_bind, himplemented,
    optionalNodes_eq_items list]
  rw [if_neg hguard]

/-- **An object up to its list.**  What stands before the list is read without a report, and what
comes after is only the node itself. -/
theorem object_of_opens {field : String} {step : Nat → Descent} {place : Option Role}
    {build : List Node → Node} (h : Opens o.members field step place build)
    (hid : o.id = readableId o.members) (tag : Tagged o.members o.tag)
    (hchild : ∀ role v t, Mirrors v.val t → Admits role t → t.InBlock → child role v = pure t)
    {parts : List (Part o)} (list : Required o.members field IsList (parts.map Subtype.val)) :
    object opts none o child =
      items child place step 0 parts >>= fun nodes => conclude opts (build nodes) := by
  have hkind : ∀ {k : Kind}, Tagged o.members k.tag →
      object opts none o child = known o child k := by
    intro k hk
    have hof : Kind.ofTag? o.tag = some k := Kind.ofTag?_eq_some_iff.mpr (tagged_unique hk tag)
    simp only [object, hof]
  cases h with
  | sourceUnit htag hm =>
    rw [hkind (k := .sourceUnit) htag]
    simp only [known, sourceUnit, Object.required_eq_pure reads_toInt hm.id,
      Object.optionalD_eq_pure reads_toText hm.src,
      Object.optionalD_eq_pure reads_toText hm.absolutePath, pure_bind]
    rw [children_eq_items list]
    rfl
  | contractDefinition htag hm =>
    rw [hkind (k := .contractDefinition) htag]
    simp only [known, contractDefinition, Object.required_eq_pure reads_toInt hm.id,
      Object.required_eq_pure reads_toText hm.name, Object.optionalD_eq_pure reads_toText hm.src,
      Object.optionalD_eq_pure reads_toText hm.contractKind,
      Object.optionalD_eq_pure reads_toBool hm.isAbstract, pure_bind]
    rw [children_eq_items list]
    rfl
  | functionDeclaration htag hm hmissing =>
    have hbody : body o child = pure none := by
      have hpart : o.part? "body" = none := Object.part?_eq_none_iff.mpr hmissing
      simp only [body, hpart]
      rfl
    rw [hkind (k := .functionDefinition) htag]
    exact functionDefinition_eq_items hm hbody list
  | functionDefinition htag hm hb hne hmirrors hk =>
    have hbody := body_eq_pure hb hne
      (fun v hv => hchild none v _ (hv.symm ▸ hmirrors) trivial (Node.inBlock_of_kind hk)) hk
    rw [hkind (k := .functionDefinition) htag]
    exact functionDefinition_eq_items hm hbody list
  | variableDeclaration htag hm =>
    rw [hkind (k := .variableDeclaration) htag]
    simp only [known, variableDeclaration, Object.required_eq_pure reads_toInt hm.id,
      Object.required_eq_pure reads_toText hm.name,
      Object.required_eq_pure reads_toVisibility hm.visibility,
      Object.optionalD_eq_pure reads_toText hm.src,
      Object.optionalD_eq_pure reads_toBool hm.stateVariable,
      Object.optionalD_eq_pure reads_toBool hm.constant, pure_bind, optionalNodes_eq_items list]
    rfl
  | block htag hm =>
    rw [hkind (k := .block) htag]
    simp only [known, block, Object.required_eq_pure reads_toInt hm.id,
      Object.required_eq_pure reads_toText hm.src, pure_bind, statements_eq_items list]
    rfl
  | functionCall htag hm he hne hmirrors hfits =>
    have hexpression := expression_eq_pure he hne
      (fun v hv => hchild (some .expression) v _ (hv.symm ▸ hmirrors) hfits hfits.inBlock)
    rw [hkind (k := .functionCall) htag]
    simp only [known, functionCall, Object.required_eq_pure reads_toInt hm.id,
      Object.required_eq_pure reads_toText hm.src, hexpression, pure_bind, arguments_eq_items list,
      map_eq_pure_bind, bind_assoc]
    rfl
  | @unknown tag' id field htag unregistered hidOrNull hstatements =>
    have htags : o.tag = tag' := tagged_unique tag htag
    have hnone : Kind.ofTag? o.tag = none := by
      rw [htags]
      exact Kind.ofTag?_eq_none_iff.mpr unregistered
    have hsome : o.id = some id := hid.trans (readableId_eq_some_iff.mpr hidOrNull)
    have hlist : ChildList o.members field (parts.map Subtype.val) := by
      cases field with
      | nodes => exact list
      | statements => exact ⟨hstatements rfl, list⟩
    simp only [object, hnone, unknown, hsome, childField?_eq_some hlist]
    rw [children_eq_items list, htags]
    congr 1
    funext nodes
    simp only [conclude, Node.ownReports]
    cases opts.reportUnknown <;> rfl

/-- **A node up to its list.** -/
theorem node_of_opens (unlimited : opts.maxDepth ≤ 0) {source : Thunk Bytes} {field : String}
    {step : Nat → Descent} {place : Option Role} {build : List Node → Node}
    (h : Opens members field step place build) {role : Option Role}
    (meets : Meets role (.obj source members)) {xs : List Json}
    (list : Required members field IsList xs) (depth : Nat) :
    ∃ (o : Object) (parts : List (Part o)), parts.map Subtype.val = xs ∧
      node opts depth role (.obj source members) =
        items (fun role v => node opts 0 role v.val) place step 0 parts >>= fun nodes =>
          conclude opts (build nodes) := by
  have htagged : ∃ tag, Tagged members tag := by
    cases h with
    | sourceUnit htag | contractDefinition htag | functionDeclaration htag
    | functionDefinition htag | variableDeclaration htag | block htag | functionCall htag
    | unknown htag => exact ⟨_, htag⟩
  obtain ⟨tag, htag⟩ := htagged
  have shallow := opts.tooDeep_of_le unlimited depth
  obtain ⟨parts, hparts⟩ : ∃ parts : List (Part ⟨tag, readableId members, members⟩),
      parts.map Subtype.val = xs := exists_parts list
  refine ⟨⟨tag, readableId members, members⟩, parts, hparts, ?_⟩
  rw [node_of_meets shallow meets, node_obj shallow]
  simp only [tagOf_eq_ok_iff.mpr htag]
  have hdepth : ∀ (role : Option Role) (v : Part ⟨tag, readableId members, members⟩),
      node opts (depth + 1) role v.val = node opts 0 role v.val := fun role v =>
    node_unlimited opts opts unlimited unlimited rfl _ _ role v.val
  simp only [hdepth]
  refine object_of_opens h rfl htag ?_ (hparts.symm ▸ list)
  intro role v t hmirrors hadmits hinBlock
  exact node_eq_pure unlimited hmirrors hadmits hinBlock

/-! ## 4. Lists -/

/-- **The reports of a list**: of each item, decoded on its own in a position, and seen from the
object; the first one having number `index`. -/
def reportsIn (opts : Options) (place : Option Role) (step : Nat → Descent) :
    (index : Nat) → List Json → List Report
  | _, [] => []
  | index, x :: rest =>
    (node opts 0 place x).reports.map (Report.under (step index)) ++
      reportsIn opts place step (index + 1) rest

variable {place : Option Role} {step : Nat → Descent}

theorem items_cons_of_ok {index : Nat} {v : Part o} {rest : List (Part o)} {t : Node}
    (h : (child place v).result = .ok t) :
    items child place step index (v :: rest) =
      ⟨(child place v).reports.map (Report.under (step index)) ++
          (items child place step (index + 1) rest).reports,
        (items child place step (index + 1) rest).result.map (t :: ·)⟩ := by
  rw [items]
  show Outcome.bind _ _ = _
  rw [Outcome.bind, Outcome.result_under_eq_ok.mpr h]
  rfl

theorem items_cons_of_error {index : Nat} {v : Part o} {rest : List (Part o)} {e : Failure}
    (h : (child place v).result = .error e) :
    items child place step index (v :: rest) =
      ⟨(child place v).reports.map (Report.under (step index)),
        .error (e.under (step index))⟩ := by
  have hunder : ((child place v).under (step index)).result = .error (e.under (step index)) := by
    rw [Outcome.under, h]
    rfl
  rw [items]
  exact Outcome.bind_of_error hunder _

/-- **All items succeed.** -/
theorem items_of_ok : ∀ {index : Nat} {parts : List (Part o)} {nodes : List Node},
    List.Forall₂ (fun x t => (node opts 0 place x).result = .ok t) (parts.map Subtype.val) nodes →
    items (fun role v => node opts 0 role v.val) place step index parts =
      ⟨reportsIn opts place step index (parts.map Subtype.val), .ok nodes⟩
  | index, [], nodes, h => by
    cases h
    rfl
  | index, v :: rest, nodes, h => by
    cases h with
    | cons hv hrest =>
      rw [items_cons_of_ok hv, items_of_ok hrest]
      rfl

/-- **The first item that fails ends the list.** -/
theorem items_of_error {x : Json} {e : Failure} {later : List Json}
    (hx : (node opts 0 place x).result = .error e) :
    ∀ {index : Nat} {earlier : List Json} {parts : List (Part o)},
    (∀ y ∈ earlier, ∃ t, (node opts 0 place y).result = .ok t) →
    parts.map Subtype.val = earlier ++ x :: later →
    items (fun role v => node opts 0 role v.val) place step index parts =
      ⟨reportsIn opts place step index (earlier ++ [x]),
        .error (e.under (step (index + earlier.length)))⟩
  | index, [], v :: rest, _, hparts => by
    obtain ⟨rfl, -⟩ := List.cons.inj hparts
    rw [items_cons_of_error hx, List.nil_append, reportsIn, reportsIn, List.append_nil]
    rfl
  | index, y :: earlier, v :: rest, hearlier, hparts => by
    obtain ⟨rfl, hrest⟩ := List.cons.inj hparts
    obtain ⟨t, ht⟩ := hearlier v.val List.mem_cons_self
    have ih : items (fun role v => node opts 0 role v.val) place step (index + 1) rest =
        ⟨reportsIn opts place step (index + 1) (earlier ++ [x]),
          .error (e.under (step (index + 1 + earlier.length)))⟩ :=
      items_of_error hx (fun z hz => hearlier z (List.mem_cons_of_mem _ hz)) hrest
    have hindex : index + 1 + earlier.length = index + (earlier.length + 1) := by omega
    rw [items_cons_of_ok ht, ih, List.cons_append, reportsIn, List.length_cons, hindex]
    rfl

/-- Either all items succeed, or there is a first one that fails. -/
theorem all_or_first (opts : Options) (place : Option Role) (xs : List Json) :
    (∃ nodes, List.Forall₂ (fun x t => (node opts 0 place x).result = .ok t) xs nodes) ∨
      ∃ earlier x later e, xs = earlier ++ x :: later ∧
        (∀ y ∈ earlier, ∃ t, (node opts 0 place y).result = .ok t) ∧
        (node opts 0 place x).result = .error e := by
  induction xs with
  | nil => exact Or.inl ⟨[], .nil⟩
  | cons x xs ih =>
    cases hx : (node opts 0 place x).result with
    | error e => exact Or.inr ⟨[], x, xs, e, rfl, by simp, hx⟩
    | ok t =>
      rcases ih with ⟨nodes, h⟩ | ⟨earlier, y, later, e, rfl, hearlier, hy⟩
      · exact Or.inl ⟨t :: nodes, .cons hx h⟩
      · refine Or.inr ⟨x :: earlier, y, later, e, rfl, ?_, hy⟩
        intro z hz
        rcases List.mem_cons.mp hz with rfl | hz
        · exact ⟨t, hx⟩
        · exact hearlier z hz

section Node

variable {source : Thunk Bytes} {field : String} {build : List Node → Node} {role : Option Role}
  {xs : List Json}

/-- A node whose list succeeds. -/
theorem node_of_items_ok (unlimited : opts.maxDepth ≤ 0) (h : Opens members field step place build)
    (meets : Meets role (.obj source members)) (list : Required members field IsList xs)
    (depth : Nat) {nodes : List Node}
    (hnodes : List.Forall₂ (fun x t => (node opts 0 place x).result = .ok t) xs nodes) :
    node opts depth role (.obj source members) =
      ⟨reportsIn opts place step 0 xs ++ (build nodes).ownReports opts, .ok (build nodes)⟩ := by
  obtain ⟨o, parts, rfl, hnode⟩ := node_of_opens unlimited h meets list depth
  rw [hnode, items_of_ok hnodes]
  rfl

/-- A node whose list fails. -/
theorem node_of_items_error (unlimited : opts.maxDepth ≤ 0)
    (h : Opens members field step place build) (meets : Meets role (.obj source members))
    (depth : Nat) {earlier later : List Json} {x : Json} {e : Failure}
    (list : Required members field IsList (earlier ++ x :: later))
    (hearlier : ∀ y ∈ earlier, ∃ t, (node opts 0 place y).result = .ok t)
    (hx : (node opts 0 place x).result = .error e) :
    node opts depth role (.obj source members) =
      ⟨reportsIn opts place step 0 (earlier ++ [x]),
        .error (e.under (step earlier.length))⟩ := by
  obtain ⟨o, parts, hparts, hnode⟩ := node_of_opens unlimited h meets list depth
  rw [hnode, items_of_error hx hearlier hparts, Nat.zero_add]
  rfl

end Node

end Decode

open Decode

/-- **Decoding is compositional and stops at the first failure.**

A value inside a document, decoded at any path and for any position that its tag meets, gives what
its own text gives as a document, moved to the path.  To hand the path down is to put it in front
afterwards.

Where an object has read everything before a list of children without trouble, it is decoded to a
node if and only if every item is, and the node is built from the items' nodes in order.  The first
item that fails ends it with that item's own failure, moved under the item's step; what has been
reported is what the items up to it report.  Another object that opens the same list and has the
same items up to that one ends in the same way, whatever its other members and later items are. -/
theorem decode_composes {opts : Options} (unlimited : opts.maxDepth ≤ 0) {document : Bytes}
    {root : Json} (valid : parse? document = some root) :
    (∀ v role path depth, nodeAt opts path depth role v = (node opts depth role v).below path) ∧
    (∀ v role path depth, Within root v → Meets role v →
      (decode opts v.text).Relocated path (nodeAt opts path depth role v)) ∧
    ∀ source members role field step place build xs depth,
      Opens members field step place build → Meets role (.obj source members) →
      Required members field IsList xs →
      (∀ t, (node opts depth role (.obj source members)).result = .ok t ↔
        ∃ ts, t = build ts ∧ List.Forall₂ (fun x t => (node opts 0 place x).result = .ok t) xs ts) ∧
      (∀ t, (node opts depth role (.obj source members)).result = .ok t →
        (node opts depth role (.obj source members)).reports =
          reportsIn opts place step 0 xs ++ t.ownReports opts) ∧
      ∀ earlier x later e, xs = earlier ++ x :: later →
        (∀ y ∈ earlier, ∃ t, (node opts 0 place y).result = .ok t) →
        (node opts 0 place x).result = .error e →
        node opts depth role (.obj source members) =
          ⟨reportsIn opts place step 0 (earlier ++ [x]), .error (e.under (step earlier.length))⟩ ∧
        ∀ source' members' role' build' later' depth', Opens members' field step place build' →
          Meets role' (.obj source' members') →
          Required members' field IsList (earlier ++ x :: later') →
          node opts depth' role' (.obj source' members') =
            node opts depth role (.obj source members) := by
  refine ⟨fun v role path depth => nodeAt_eq opts path depth role v, ?_, ?_⟩
  · intro v role path depth hv meets
    rw [nodeAt_eq, node_eq_decode_text unlimited valid hv meets depth]
    exact Outcome.relocated_below path _
  · intro source members role field step place build xs depth hopens meets list
    have success : ∀ t, (node opts depth role (.obj source members)).result = .ok t →
        ∃ ts, t = build ts ∧
          List.Forall₂ (fun x t => (node opts 0 place x).result = .ok t) xs ts := by
      intro t ht
      rcases all_or_first opts place xs with ⟨ts, hts⟩ | ⟨earlier, x, later, e, rfl, hearlier, hx⟩
      · rw [node_of_items_ok unlimited hopens meets list depth hts] at ht
        exact ⟨ts, (Except.ok.inj ht).symm, hts⟩
      · rw [node_of_items_error unlimited hopens meets depth list hearlier hx] at ht
        cases ht
    refine ⟨?_, ?_, ?_⟩
    · intro t
      refine ⟨success t, ?_⟩
      rintro ⟨ts, rfl, hts⟩
      rw [node_of_items_ok unlimited hopens meets list depth hts]
    · intro t ht
      obtain ⟨ts, rfl, hts⟩ := success t ht
      rw [node_of_items_ok unlimited hopens meets list depth hts]
    · rintro earlier x later e rfl hearlier hx
      have hfails := node_of_items_error unlimited hopens meets depth list hearlier hx
      refine ⟨hfails, ?_⟩
      intro source' members' role' build' later' depth' hopens' meets' list'
      rw [hfails]
      exact node_of_items_error unlimited hopens' meets' depth' list' hearlier hx

/-- Three children, the second an empty object: the document ends as the second child does by
itself, and the third is not looked at. -/
theorem decode_composes_three :
    let document := utf8 ("\x7b\"nodeType\":\"\",\"id\":1,\"nodes\":[" ++
      "\x7b\"nodeType\":\"Break\"\x7d,\x7b\x7d,7]\x7d")
    let own : Failure := { field := some "nodeType", cause := .missingTag }
    decode ⟨0, true⟩ (utf8 "\x7b\x7d") = ⟨[], .error own⟩ ∧
      decode ⟨0, true⟩ document = ⟨[], .error (own.under (.nodes 1))⟩ ∧
      (decode ⟨0, true⟩ (utf8 "\x7b\x7d")).Relocated [.nodes 1] (decode ⟨0, true⟩ document) := by
  intro document own
  have bytes : document = [
      0x7b, 0x22, 0x6e, 0x6f, 0x64, 0x65, 0x54, 0x79, 0x70, 0x65, 0x22, 0x3a, 0x22, 0x22, 0x2c,
      0x22, 0x69, 0x64, 0x22, 0x3a, 0x31, 0x2c, 0x22, 0x6e, 0x6f, 0x64, 0x65, 0x73, 0x22, 0x3a,
      0x5b, 0x7b, 0x22, 0x6e, 0x6f, 0x64, 0x65, 0x54, 0x79, 0x70, 0x65, 0x22, 0x3a, 0x22, 0x42,
      0x72, 0x65, 0x61, 0x6b, 0x22, 0x7d, 0x2c, 0x7b, 0x7d, 0x2c, 0x37, 0x5d, 0x7d] := by
    decide +kernel
  obtain ⟨s₁, s₂, s₃, s₄, s₅, s₆, valid, htext⟩ : ∃ s₁ s₂ s₃ s₄ s₅ s₆,
      parse? document = some (.obj s₁ [("nodeType", .str s₂ ""), ("id", .num [0x31]), ("nodes",
        .arr s₃ [.obj s₄ [("nodeType", .str s₅ "Break")], .obj s₆ [], .num [0x37]])]) ∧
      s₆.get = [0x7b, 0x7d] := by
    rw [bytes]
    exact ⟨_, _, _, _, _, _, rfl, rfl⟩
  have hfailed : (decode ⟨0, true⟩ (utf8 "\x7b\x7d")).result = .error own :=
    Outcome.failure?_eq_some_iff.mp (by decide +kernel)
  have hsilent : (decode ⟨0, true⟩ (utf8 "\x7b\x7d")).reports = [] := by decide +kernel
  have hown : decode ⟨0, true⟩ (utf8 "\x7b\x7d") = ⟨[], .error own⟩ := by
    rw [← hfailed, ← hsilent]
  obtain ⟨same, moved, lists⟩ := @decode_composes ⟨0, true⟩ (by decide) document _ valid
  have hinside : Within (.obj s₁ [("nodeType", .str s₂ ""), ("id", .num [0x31]), ("nodes",
      .arr s₃ [.obj s₄ [("nodeType", .str s₅ "Break")], .obj s₆ [], .num [0x37]])]) (.obj s₆ []) :=
    .member (List.mem_of_getElem? (i := 2) rfl) (.item (List.mem_of_getElem? (i := 1) rfl) (.here _))
  have htext : Json.text (.obj s₆ []) = utf8 "\x7b\x7d" := htext
  have hchild : node ⟨0, true⟩ 0 none (.obj s₆ []) = ⟨[], .error own⟩ := by
    rw [node_eq_decode_text (by decide) valid hinside (by rintro r _ _ _ ⟨⟩) 0, htext, hown]
  have hfirst : (node ⟨0, true⟩ 0 none (.obj s₄ [("nodeType", .str s₅ "Break")])) =
      pure (.plain .breakStatement) :=
    node_eq_pure (by decide) (.plain ⟨_, ⟨[], _, rfl, by simp⟩, by simp, _, rfl⟩) trivial (.inl rfl)
  have hopens : Opens [("nodeType", .str s₂ ""), ("id", .num [0x31]), ("nodes",
      .arr s₃ [.obj s₄ [("nodeType", .str s₅ "Break")], .obj s₆ [], .num [0x37]])]
      ChildField.nodes.name ChildField.nodes.step none (.unknown "" 1 .nodes) := by
    refine .unknown ⟨_, ⟨[], _, rfl, by simp⟩, by simp, _, rfl⟩ ?_ (.inl ?_) (by rintro ⟨⟩)
    · exact Kind.ofTag?_eq_none_iff.mp (by decide +kernel)
    · exact ⟨_, ⟨[_], _, rfl, by simp⟩, by simp, _, rfl, Decimal.read_eq_ok_iff.mp (by decide)⟩
  obtain ⟨-, -, fails⟩ := lists s₁ _ none _ _ none _ _ 0 hopens (by rintro r _ _ _ ⟨⟩)
    ⟨_, ⟨[_, _], _, rfl, by simp⟩, by simp, _, rfl⟩
  obtain ⟨hfails, -⟩ := fails [_] _ _ own rfl (by simp [hfirst]) (by rw [hchild])
  have hdocument : decode ⟨0, true⟩ document = ⟨[], .error (own.under (.nodes 1))⟩ := by
    rw [decode, valid]
    refine hfails.trans ?_
    simp only [List.singleton_append, reportsIn, hfirst, hchild]
    rfl
  refine ⟨hown, hdocument, ?_⟩
  have hmoved := moved (.obj s₆ []) none [.nodes 1] 0 hinside (by rintro r _ _ _ ⟨⟩)
  rw [same, hchild, htext] at hmoved
  rw [hdocument]
  exact hmoved

end SolidityTree
