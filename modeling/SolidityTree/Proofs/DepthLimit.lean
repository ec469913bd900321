import SolidityTree.Decode
import SolidityTree.Proofs.Descent
import SolidityTree.Proofs.Grammar

/-!
# What a limit on the depth changes

Two runs over one document are compared: the FULL one, without a limit, and a LIMITED one.  The
limited run does what the full one does until it comes to a node that lies one step beyond the
limit; there it stops.  `Cut` is this relation between two computations, and it composes as
computations do (`Cut.bind`).  A computation that gives a value is put beside the list of
positions of the value that lie too deep, in decoding order: if the list is empty the two runs are
the same, and otherwise its FIRST entry is where the limited run stops.

The positions in question are those that are `depth` steps below the node at hand.  One step down
makes this number smaller by one, so the whole argument is an induction on it (`node_cut`), and
the decoders of the kinds only have to hand on what they are told of their children.

Two laws come out of this.  `decode_result_ok_iff` says which documents are accepted: those of the
grammar whose trees are low enough.  `decode_under_limit` compares whole outcomes, failures and
reports included.

Contents
* §1  cut computations
* §2  children
* §3  kinds
* §4  nodes
* §5  documents
-/

namespace SolidityTree

variable {α β : Type} {limit : Int64} {depth : Nat}

/-! ## 1. Cut computations -/

/-- The failure of a node that lies beyond a limit. -/
def Failure.beyond (limit : Int64) (path : Path) : Failure :=
  { path := path, cause := .tooDeep limit }

/-- `Cut limit depth deep full limited`: `limited` is `full`, or it stops at a position `depth`
steps down. Where `full` gives a value `a`, it stops if and only if `deep a` is not empty, and at
its first entry. -/
inductive Cut (limit : Int64) (depth : Nat) (deep : α → List Path) :
    Outcome Failure α → Outcome Failure α → Prop
  | same {full : Outcome Failure α} :
      (∀ a, full.result = .ok a → deep a = []) → Cut limit depth deep full full
  | short {full limited : Outcome Failure α} {path : Path} :
      limited.result = .error (.beyond limit path) → path.length = depth →
      limited.reports <+: full.reports →
      (∀ a, full.result = .ok a → (deep a).head? = some path) → Cut limit depth deep full limited

namespace Cut

variable {deep : α → List Path} {deep' : β → List Path} {x x' : Outcome Failure α}
  {f f' : α → Outcome Failure β}

/-- A computation that comes upon nothing deep. -/
theorem refl (x : Outcome Failure α) (h : ∀ a, deep a = []) : Cut limit depth deep x x :=
  .same fun a _ => h a

/-- A computation that fails anyway. -/
theorem of_error {x : Outcome Failure α} {e : Failure} (h : x.result = .error e) :
    Cut limit depth deep x x := by
  refine .same fun a ha => ?_
  rw [h] at ha
  cases ha

/-- **Two cut computations in a row.**  What the first one comes upon precedes what the second one
does, so the positions of the value of the whole start with those of the first value. -/
theorem bind (hx : Cut limit depth deep x x')
    (first : ∀ a b, (f a).result = .ok b → deep a <+: deep' b)
    (hf : ∀ a, deep a = [] → Cut limit depth deep' (f a) (f' a)) :
    Cut limit depth deep' (x >>= f) (x' >>= f') := by
  cases hx with
  | same h =>
    cases hr : x.result with
    | error e =>
      have hfull : ∀ g : α → Outcome Failure β, x >>= g = ⟨x.reports, .error e⟩ :=
        fun g => Outcome.bind_of_error hr g
      rw [hfull f, hfull f']
      exact .of_error rfl
    | ok a =>
      have hbind : ∀ g : α → Outcome Failure β,
          x >>= g = ⟨x.reports ++ (g a).reports, (g a).result⟩ := by
        intro g
        show x.bind g = _
        simp [Outcome.bind, hr]
      rw [hbind f, hbind f']
      have ha := hf a (h a hr)
      generalize f a = y, f' a = y' at ha
      cases ha with
      | same h' => exact .same h'
      | short h1 h2 h3 h4 => exact .short h1 h2 ((List.prefix_append_right_inj _).mpr h3) h4
  | short h1 h2 h3 h4 =>
    have hlim : x' >>= f' = ⟨x'.reports, .error (.beyond limit _)⟩ := Outcome.bind_of_error h1 f'
    rw [hlim]
    refine .short rfl h2 (h3.trans ?_) ?_
    · show x.reports <+: (x.bind f).reports
      unfold Outcome.bind
      split
      · exact List.prefix_rfl
      · exact List.prefix_append _ _
    · intro b hb
      obtain ⟨a, ha, hb⟩ := Outcome.result_bind_eq_ok.mp hb
      obtain ⟨rest, hrest⟩ := first a b hb
      rw [← hrest, List.head?_append, h4 a ha]
      rfl

/-- A computation that comes upon nothing deep, in front of a cut one. -/
theorem after (x : Outcome Failure α) (hf : ∀ a, Cut limit depth deep' (f a) (f' a)) :
    Cut limit depth deep' (x >>= f) (x >>= f') := by
  have hx : Cut limit depth (fun _ => []) x x := refl x fun _ => rfl
  exact hx.bind (fun _ _ _ => List.nil_prefix) fun a _ => hf a

/-- Working on the value without changing what lies deep in it. -/
theorem map {g : α → β} (hx : Cut limit depth deep x x') (h : ∀ a, deep' (g a) = deep a) :
    Cut limit depth deep' (x >>= fun a => pure (g a)) (x' >>= fun a => pure (g a)) := by
  refine bind hx ?_ ?_
  · intro a b hb
    cases hb
    exact ⟨[], by rw [List.append_nil, h]⟩
  · intro a ha
    refine .same fun b hb => ?_
    cases hb
    rw [h, ha]

/-- One step further up. -/
theorem under (hx : Cut limit depth deep x x') (step : Descent) :
    Cut limit (depth + 1) (fun a => (deep a).map (step :: ·)) (x.under step) (x'.under step) := by
  cases hx with
  | same h =>
    refine .same fun a ha => ?_
    rw [h a (Outcome.result_under_eq_ok.mp ha)]
    rfl
  | @short _ path h1 h2 h3 h4 =>
    have hr : (x'.under step).result = .error (.beyond limit (step :: path)) := by
      rw [Outcome.under, h1]
      rfl
    refine .short hr (by rw [List.length_cons, h2]) (h3.map _) ?_
    · intro a ha
      rw [List.head?_map, h4 a (Outcome.result_under_eq_ok.mp ha)]
      rfl

end Cut

namespace Decode

open Node

variable {o : Object} {child child' : Child o}

/-! ## 2. Children -/

/-- What lies too deep in the nodes of a list, the nodes themselves being one step down. -/
def deepListed (depth : Nat) (step : Nat → Descent) (index : Nat) (nodes : List Node) : List Path :=
  (listed step index nodes).flatMap fun p => (p.2.positionsAt depth).map (p.1 :: ·)

/-- `CutBelow limit depth child child'`: the same part is decoded by the two runs, and the limited
one stops `depth` steps below the part. -/
def CutBelow (limit : Int64) (depth : Nat) (child child' : Child o) : Prop :=
  ∀ role v, Cut limit depth (positionsAt depth) (child role v) (child' role v)

theorem CutBelow.items (hc : CutBelow limit depth child child') (role : Option Role)
    (step : Nat → Descent) : ∀ (index : Nat) (parts : List (Part o)),
    Cut limit (depth + 1) (deepListed depth step index)
      (items child role step index parts) (items child' role step index parts)
  | _, [] => .same fun a ha => by
    cases ha
    rfl
  | index, v :: rest => by
    unfold Decode.items
    refine Cut.bind ((hc role v).under (step index)) ?_ ?_
    · intro t nodes h
      obtain ⟨ts, -, rfl⟩ := Outcome.result_map_eq_ok.mp h
      exact List.prefix_append _ _
    · intro t ht
      have ih := hc.items role step (index + 1) rest
      rw [map_eq_pure_bind, map_eq_pure_bind]
      refine ih.map fun ts => ?_
      show deepListed depth step index (t :: ts) = deepListed depth step (index + 1) ts
      simp only [deepListed, listed, List.flatMap_cons]
      rw [ht, List.nil_append]

theorem CutBelow.list (hc : CutBelow limit depth child child') (field : String)
    (role : Option Role) (step : Nat → Descent) :
    Cut limit (depth + 1) (deepListed depth step 0)
      (o.list field >>= Decode.items child role step 0)
      (o.list field >>= Decode.items child' role step 0) :=
  Cut.after _ fun parts => hc.items role step 0 parts

theorem CutBelow.optionalNodes (hc : CutBelow limit depth child child') :
    Cut limit (depth + 1) (deepListed depth .nodes 0)
      (optionalNodes o child) (optionalNodes o child') :=
  Cut.after _ fun parts => hc.items none .nodes 0 (parts.getD [])

theorem CutBelow.children (hc : CutBelow limit depth child child') (field : ChildField) :
    Cut limit (depth + 1) (deepListed depth field.step 0)
      (children o child field) (children o child' field) := by
  cases field with
  | nodes => exact hc.list "nodes" none .nodes
  | statements => exact hc.list "statements" none .statements

theorem CutBelow.expression (hc : CutBelow limit depth child child') :
    Cut limit (depth + 1) (fun e => (e.positionsAt depth).map (.expression :: ·))
      (expression o child) (expression o child') := by
  unfold Decode.expression
  split
  · exact .of_error rfl
  · next v _ => exact (hc (some .expression) v).under .expression

/-- What lies too deep in the arguments of a call. -/
def deepArguments (depth : Nat) : Option (List Node) → List Path
  | none => []
  | some arguments => deepListed depth .arguments 0 arguments

theorem CutBelow.arguments (hc : CutBelow limit depth child child') :
    Cut limit (depth + 1) (deepArguments depth) (arguments o child) (arguments o child') := by
  refine Cut.after _ fun parts => ?_
  cases parts with
  | none => exact .same fun a ha => by cases ha; rfl
  | some parts => exact (hc.items (some .expression) .arguments 0 parts).map fun _ => rfl

/-- What lies too deep in the body of a function. -/
def deepBody (depth : Nat) : Option Node → List Path
  | none => []
  | some body => (body.positionsAt depth).map (.body :: ·)

theorem CutBelow.body (hc : CutBelow limit depth child child') :
    Cut limit (depth + 1) (deepBody depth) (body o child) (body o child') := by
  unfold Decode.body
  split
  · exact .same fun a ha => by cases ha; rfl
  · next v _ =>
    -- whether the body is a block is asked of its node, so both runs answer alike
    refine ((hc none v).under .body).bind ?_ ?_
    · intro t b hb
      split at hb
      · cases hb
        exact List.prefix_rfl
      · cases hb
    · intro t ht
      refine .same fun b hb => ?_
      split at hb
      · cases hb
        exact ht
      · cases hb

/-! ## 3. Kinds -/

theorem CutBelow.functionDefinition (hc : CutBelow limit depth child child') :
    Cut limit (depth + 1) (positionsAt (depth + 1))
      (functionDefinition o child) (functionDefinition o child') := by
  have deep : ∀ head body nodes, (Node.functionDefinition head body nodes).positionsAt (depth + 1) =
      deepBody depth body ++ deepListed depth .nodes 0 nodes := by
    intro head body nodes
    rw [positionsAt_succ]
    cases body <;> rfl
  unfold Decode.functionDefinition
  iterate 8 refine Cut.after _ fun _ => ?_
  refine hc.body.bind ?_ ?_
  · intro body t ht
    dsimp only at ht
    split at ht
    · cases ht
    · obtain ⟨nodes, -, ht⟩ := Outcome.result_bind_eq_ok.mp ht
      cases ht
      rw [deep]
      exact List.prefix_append _ _
  · intro body hbody
    dsimp only
    split
    · exact .of_error rfl
    · refine hc.optionalNodes.map fun nodes => ?_
      rw [deep, hbody, List.nil_append]

theorem CutBelow.functionCall (hc : CutBelow limit depth child child') :
    Cut limit (depth + 1) (positionsAt (depth + 1))
      (functionCall o child) (functionCall o child') := by
  have deep : ∀ id src e arguments,
      (Node.functionCall id src e arguments).positionsAt (depth + 1) =
        (e.positionsAt depth).map (.expression :: ·) ++ deepArguments depth arguments := by
    intro id src e arguments
    rw [positionsAt_succ]
    cases arguments <;> rfl
  unfold Decode.functionCall
  iterate 2 refine Cut.after _ fun _ => ?_
  refine hc.expression.bind ?_ ?_
  · intro e t ht
    obtain ⟨arguments, -, ht⟩ := Outcome.result_bind_eq_ok.mp ht
    cases ht
    rw [deep]
    exact List.prefix_append _ _
  · intro e he
    refine hc.arguments.map fun arguments => ?_
    rw [deep, he, List.nil_append]

/-- **A registered kind.**  All other kinds have at most one place for children, and what lies
deep in the node is what lies deep in them. -/
theorem CutBelow.known (hc : CutBelow limit depth child child') (k : Kind) :
    Cut limit (depth + 1) (positionsAt (depth + 1)) (known o child k) (known o child' k) := by
  cases k with
  | sourceUnit =>
    show Cut _ _ _ (sourceUnit o child) (sourceUnit o child')
    unfold Decode.sourceUnit
    iterate 3 refine Cut.after _ fun _ => ?_
    exact (hc.children .nodes).map fun nodes => positionsAt_succ depth _
  | contractDefinition =>
    show Cut _ _ _ (contractDefinition o child) (contractDefinition o child')
    unfold Decode.contractDefinition
    iterate 5 refine Cut.after _ fun _ => ?_
    exact (hc.children .nodes).map fun nodes => positionsAt_succ depth _
  | functionDefinition => exact hc.functionDefinition
  | variableDeclaration =>
    show Cut _ _ _ (variableDeclaration o child) (variableDeclaration o child')
    unfold Decode.variableDeclaration
    iterate 6 refine Cut.after _ fun _ => ?_
    exact hc.optionalNodes.map fun nodes => positionsAt_succ depth _
  | block =>
    show Cut _ _ _ (block o child) (block o child')
    unfold Decode.block
    iterate 2 refine Cut.after _ fun _ => ?_
    exact (hc.list "statements" (some .statement) .statements).map fun nodes =>
      positionsAt_succ depth _
  | expressionStatement =>
    show Cut _ _ _ (expressionStatement o child) (expressionStatement o child')
    unfold Decode.expressionStatement
    iterate 2 refine Cut.after _ fun _ => ?_
    refine hc.expression.map fun e => ?_
    rw [positionsAt_succ]
    exact List.append_nil _
  | functionCall => exact hc.functionCall
  | identifier =>
    refine .same fun t ht => ?_
    simp only [Decode.known, identifier, Outcome.result_bind_eq_ok] at ht
    obtain ⟨_, -, _, -, _, -, _, -, ht⟩ := ht
    cases ht
    exact positionsAt_succ depth _
  | plain p =>
    refine .same fun t ht => ?_
    cases ht
    exact positionsAt_succ depth _

/-- **An unregistered tag.**  The report comes after the children, so a run that stops below the
node does not make it. -/
theorem CutBelow.unknown (hc : CutBelow limit depth child child') {opts opts' : Options}
    (same : opts.reportUnknown = opts'.reportUnknown) :
    Cut limit (depth + 1) (positionsAt (depth + 1))
      (unknown opts o child) (unknown opts' o child') := by
  unfold Decode.unknown
  split
  · exact .of_error rfl
  · next id _ =>
    split
    · exact .of_error rfl
    · next field _ =>
      rw [← same]
      have deep : ∀ nodes t,
          (do
            if opts.reportUnknown then .report ⟨o.tag, id, []⟩
            return Node.unknown o.tag id field nodes : Outcome Failure Node).result = .ok t →
          t.positionsAt (depth + 1) = deepListed depth field.step 0 nodes := by
        intro nodes t ht
        have : t = .unknown o.tag id field nodes := by
          cases hr : opts.reportUnknown <;> rw [hr] at ht <;> cases ht <;> rfl
        rw [this]
        exact positionsAt_succ depth _
      refine (hc.children field).bind ?_ ?_
      · intro nodes t ht
        exact ⟨[], by rw [List.append_nil, deep nodes t ht]⟩
      · intro nodes hn
        exact .same fun t ht => (deep nodes t ht).trans hn

theorem CutBelow.object (hc : CutBelow limit depth child child') {opts opts' : Options}
    (same : opts.reportUnknown = opts'.reportUnknown) (role : Option Role) :
    Cut limit (depth + 1) (positionsAt (depth + 1))
      (object opts role o child) (object opts' role o child') := by
  unfold Decode.object
  split
  · exact hc.unknown same
  · next k _ => exact hc.known k
  · exact .of_error rfl
  · next k _ =>
    split
    · exact hc.known k
    · exact .of_error rfl

/-! ## 4. Nodes -/

/-- **A node under a limit.**  The induction is on the number of steps that are left until the
limit is passed: with none left the limited run stops at the node itself, and a part has one less
left. -/
theorem node_cut (opts lim : Options) (unlimited : opts.maxDepth ≤ 0)
    (limited : 0 < lim.maxDepth) (same : opts.reportUnknown = lim.reportUnknown) :
    ∀ (left depth depth' : Nat) (role : Option Role) (v : Json),
    (depth + left : Int) = lim.maxDepth.toInt + 1 →
    Cut lim.maxDepth left (positionsAt left) (node opts depth' role v) (node lim depth role v)
  | 0, depth, depth', role, v, hd => by
    have deep : lim.tooDeep depth = true := by
      simp only [Options.tooDeep, limited, decide_true, Bool.true_and, decide_eq_true_eq]
      omega
    rw [node_of_tooDeep deep]
    refine .short rfl rfl List.nil_prefix fun t _ => ?_
    rw [positionsAt_zero]
    rfl
  | left + 1, depth, depth', role, v, hd => by
    have shallow : lim.tooDeep depth = false := by
      simp only [Options.tooDeep, limited, decide_true, Bool.true_and, decide_eq_false_iff_not]
      omega
    have shallow' : opts.tooDeep depth' = false := opts.tooDeep_of_le unlimited depth'
    cases v with
    | obj source members =>
      rw [node_obj shallow, node_obj shallow']
      split
      · exact .of_error rfl
      · refine CutBelow.object ?_ same role
        intro role v
        exact node_cut opts lim unlimited limited same left (depth + 1) (depth' + 1) role v.val
          (by omega)
    | _ =>
      rw [node_of_not_obj shallow role (by simp), node_of_not_obj shallow' role (by simp)]
      exact .of_error rfl

/-- **What a node was decoded from follows the grammar**, whatever the limit and the depth. -/
theorem mirrors_of_node {opts : Options} {depth : Nat} {role : Option Role} {v : Json} {t : Node}
    (h : (node opts depth role v).result = .ok t) : Mirrors v t ∧ Admits role t := by
  rcases Int64.lt_or_le 0 opts.maxDepth with hpos | hle
  · have shallow : ¬ opts.tooDeep depth = true := by
      intro deep
      rw [node_of_tooDeep deep] at h
      cases h
    simp only [Options.tooDeep, hpos, decide_true, Bool.true_and, decide_eq_true_eq] at shallow
    let full : Options := ⟨0, opts.reportUnknown⟩
    obtain ⟨left, hleft⟩ : ∃ left : Nat, (depth + left : Int) = opts.maxDepth.toInt + 1 :=
      ⟨(opts.maxDepth.toInt + 1 - depth).toNat, by omega⟩
    have hcut := node_cut full opts (Int64.le_refl 0) hpos rfl left depth depth role v hleft
    have hfull : (node full depth role v).result = .ok t := by
      generalize node full depth role v = x, node opts depth role v = y at h hcut ⊢
      cases hcut with
      | same _ => exact h
      | short h1 _ _ _ =>
        rw [h1] at h
        cases h
    exact (node_result_ok_iff full (Int64.le_refl 0)).mp hfull
  · exact (node_result_ok_iff opts hle).mp h

/-- Without a limit neither the depth nor the number that says so matters. -/
theorem node_unlimited (opts opts' : Options) (h : opts.maxDepth ≤ 0) (h' : opts'.maxDepth ≤ 0)
    (same : opts.reportUnknown = opts'.reportUnknown) (depth depth' : Nat) (role : Option Role)
    (v : Json) : node opts depth role v = node opts' depth' role v := by
  induction hn : v.size using Nat.strong_induction_on generalizing v depth depth' role with
  | _ n ih =>
    have shallow := opts.tooDeep_of_le h depth
    have shallow' := opts'.tooDeep_of_le h' depth'
    cases v with
    | obj source members =>
      rw [node_obj shallow, node_obj shallow']
      split
      · rfl
      · next tag _ =>
        have hchild : ∀ (role : Option Role) (v : Part ⟨tag, readableId members, members⟩),
            node opts (depth + 1) role v.val = node opts' (depth' + 1) role v.val := by
          intro role v
          refine ih v.val.size ?_ _ _ _ _ rfl
          have : v.val.size ≤ Json.sizeMembers members := v.property
          simp only [Json.size] at hn
          omega
        have hopts : ∀ (o : Object) (child : Child o),
            Decode.object opts role o child = Decode.object opts' role o child := by
          intro o child
          unfold Decode.object Decode.unknown
          rw [same]
        simp only [hchild, hopts]
    | _ => rw [node_of_not_obj shallow role (by simp), node_of_not_obj shallow' role (by simp)]

end Decode

/-! ## 5. Documents -/

/-- All numbers that are not positive mean the same: no limit. -/
theorem decode_unlimited (document : Bytes) (report : Bool) {m : Int64} (h : m ≤ 0) :
    decode ⟨m, report⟩ document = decode ⟨0, report⟩ document := by
  unfold decode decodeValue
  split
  · rfl
  · exact Decode.node_unlimited ⟨m, report⟩ ⟨0, report⟩ h (Int64.le_refl 0) rfl 0 0 none _

/-- A run without a limit accepts the documents of the grammar. -/
theorem decode_unlimited_ok_iff {document : Bytes} {report : Bool} {m : Int64} (h : m ≤ 0)
    {t : Node} : (decode ⟨m, report⟩ document).result = .ok t ↔
      ∃ v, Json.parse? document = some v ∧ Mirrors v t := by
  unfold decode decodeValue
  cases hp : Json.parse? document with
  | none => simp
  | some v =>
    have hnode : (Decode.node ⟨m, report⟩ 0 none v).result = .ok t ↔ Mirrors v t ∧ True :=
      Decode.node_result_ok_iff ⟨m, report⟩ h
    simp [hnode]

/-- The full run over a document beside the limited one. -/
theorem decode_cut (document : Bytes) (report : Bool) {n m : Int64} (hn : 0 < n) (hm : m ≤ 0) :
    Cut n (n.toInt.toNat + 1) (Node.positionsAt (n.toInt.toNat + 1))
      (decode ⟨m, report⟩ document) (decode ⟨n, report⟩ document) := by
  have hpos : 0 < n.toInt := Int64.lt_iff_toInt_lt.mp hn
  unfold decode decodeValue
  split
  · exact .of_error rfl
  · refine Decode.node_cut ⟨m, report⟩ ⟨n, report⟩ hm hn rfl (n.toInt.toNat + 1) 0 0 none _ ?_
    show ((0 : Nat) + (n.toInt.toNat + 1 : Nat) : Int) = n.toInt + 1
    omega

/-- `StopsShort limit full limited path`: the limited run fails at `path`, which has one step more
than the limit allows, after a first piece of the reports of the full one. -/
structure StopsShort (limit : Int64) (full limited : Outcome Failure Node) (path : Path) :
    Prop where
  result : limited.result = .error (.beyond limit path)
  length : (path.length : Int) = limit.toInt + 1
  reports : limited.reports <+: full.reports

/-- **The two ways a limited run can go**, and which of them it goes if the full one gives a
tree. -/
theorem decode_same_or_short (document : Bytes) (report : Bool) {n m : Int64} (hn : 0 < n)
    (hm : m ≤ 0) :
    (decode ⟨n, report⟩ document = decode ⟨m, report⟩ document ∧
      ∀ t, (decode ⟨m, report⟩ document).result = .ok t → (t.height : Int) ≤ n.toInt) ∨
    ∃ path, StopsShort n (decode ⟨m, report⟩ document) (decode ⟨n, report⟩ document) path ∧
      ∀ t, (decode ⟨m, report⟩ document).result = .ok t → n.toInt < t.height ∧
        t.positions.find? (fun p => (p.length : Int) = n.toInt + 1) = some path := by
  have hpos : 0 < n.toInt := Int64.lt_iff_toInt_lt.mp hn
  have hcut := decode_cut document report hn hm
  generalize decode ⟨m, report⟩ document = full, decode ⟨n, report⟩ document = limited at hcut ⊢
  cases hcut with
  | same low =>
    refine Or.inl ⟨rfl, fun t ht => ?_⟩
    have hle := Node.positionsAt_eq_nil_iff.mp (low t ht)
    omega
  | @short _ path h1 h2 h3 first =>
    refine Or.inr ⟨path, ⟨h1, by omega, h3⟩, fun t ht => ?_⟩
    have hhead := first t ht
    constructor
    · have high : ¬ t.height ≤ n.toInt.toNat := by
        intro hle
        rw [Node.positionsAt_eq_nil_iff.mpr hle] at hhead
        cases hhead
      omega
    · rw [← hhead, Node.positionsAt, List.head?_filter]
      congr 1
      funext p
      exact decide_eq_decide.mpr (by omega)

/-- The limited run over a document whose tree is low enough. -/
theorem decode_eq_of_height_le {document : Bytes} {report : Bool} {n m : Int64} {t : Node}
    (hn : 0 < n) (hm : m ≤ 0) (h : (decode ⟨m, report⟩ document).result = .ok t)
    (hle : (t.height : Int) ≤ n.toInt) :
    decode ⟨n, report⟩ document = decode ⟨m, report⟩ document := by
  rcases decode_same_or_short document report hn hm with ⟨heq, -⟩ | ⟨path, -, high⟩
  · exact heq
  · have := (high t h).1
    omega

/-- **What a limited run accepts.**  It gives the tree that the full run gives, and the tree is
low enough. -/
theorem decode_limited_ok {document : Bytes} {report : Bool} {n m : Int64} {t : Node} (hn : 0 < n)
    (hm : m ≤ 0) (h : (decode ⟨n, report⟩ document).result = .ok t) :
    decode ⟨n, report⟩ document = decode ⟨m, report⟩ document ∧ (t.height : Int) ≤ n.toInt := by
  rcases decode_same_or_short document report hn hm with ⟨heq, low⟩ | ⟨path, stops, -⟩
  · exact ⟨heq, low t (heq ▸ h)⟩
  · rw [stops.result] at h
    cases h

/-- The value of a document that gives a tree follows the grammar for it. -/
theorem mirrors_of_decode {opts : Options} {document : Bytes} {t : Node}
    (h : (decode opts document).result = .ok t) :
    ∃ v, Json.parse? document = some v ∧ Mirrors v t := by
  unfold decode decodeValue at h
  split at h
  · cases h
  · next v hv => exact ⟨v, hv, (Decode.mirrors_of_node h).1⟩

/-- **What decoding accepts.**  A document gives a tree if and only if it is a JSON text, its
value follows the grammar for that tree, and the tree is not higher than the limit, if there is
one. -/
theorem decode_result_ok_iff (opts : Options) (document : Bytes) (t : Node) :
    (decode opts document).result = .ok t ↔
      (∃ v, Json.parse? document = some v ∧ Mirrors v t) ∧
        (0 < opts.maxDepth → (t.height : Int) ≤ opts.maxDepth.toInt) := by
  obtain ⟨n, report⟩ := opts
  rcases Int64.lt_or_le 0 n with hn | hn
  · constructor
    · intro h
      obtain ⟨-, hle⟩ := decode_limited_ok hn (Int64.le_refl 0) h
      exact ⟨mirrors_of_decode h, fun _ => hle⟩
    · rintro ⟨hv, hle⟩
      have h : (decode ⟨0, report⟩ document).result = .ok t :=
        (decode_unlimited_ok_iff (Int64.le_refl 0)).mpr hv
      rwa [decode_eq_of_height_le hn (Int64.le_refl 0) h (hle hn)]
  · have none : ¬ 0 < n := Int64.not_lt.mpr hn
    rw [decode_unlimited_ok_iff hn]
    constructor
    · intro hv
      exact ⟨hv, fun h => absurd h none⟩
    · rintro ⟨hv, -⟩
      exact hv

/-- **The law of the limit.**  Let the full run be one without a limit; all of them are the same.
If it gives a tree, a limited run gives the same if the tree is low enough, and otherwise stops
short at the FIRST position that lies beyond the limit.  If it fails, a limited run fails in the
same way or stops short.  So what a limited run accepts, every more generous one accepts with the
same outcome. -/
theorem decode_under_limit (document : Bytes) (report : Bool) {n m : Int64} (hn : 0 < n)
    (hm : m ≤ 0) :
    decode ⟨m, report⟩ document = decode ⟨0, report⟩ document ∧
    (∀ t, (decode ⟨m, report⟩ document).result = .ok t →
      ((t.height : Int) ≤ n.toInt → decode ⟨n, report⟩ document = decode ⟨m, report⟩ document) ∧
      (n.toInt < t.height → ∃ path,
        StopsShort n (decode ⟨m, report⟩ document) (decode ⟨n, report⟩ document) path ∧
        t.positions.find? (fun p => (p.length : Int) = n.toInt + 1) = some path)) ∧
    (∀ e, (decode ⟨m, report⟩ document).result = .error e →
      decode ⟨n, report⟩ document = decode ⟨m, report⟩ document ∨
      ∃ path, StopsShort n (decode ⟨m, report⟩ document) (decode ⟨n, report⟩ document) path) ∧
    (∀ n' t, n ≤ n' → (decode ⟨n, report⟩ document).result = .ok t →
      decode ⟨n', report⟩ document = decode ⟨n, report⟩ document) := by
  refine ⟨decode_unlimited document report hm, ?_, ?_, ?_⟩
  · intro t ht
    refine ⟨decode_eq_of_height_le hn hm ht, fun hlt => ?_⟩
    rcases decode_same_or_short document report hn hm with ⟨-, low⟩ | ⟨path, stops, high⟩
    · have := low t ht
      omega
    · exact ⟨path, stops, (high t ht).2⟩
  · intro e _
    rcases decode_same_or_short document report hn hm with ⟨heq, -⟩ | ⟨path, stops, -⟩
    · exact Or.inl heq
    · exact Or.inr ⟨path, stops⟩
  · intro n' t hle ht
    obtain ⟨heq, hheight⟩ := decode_limited_ok hn hm ht
    have hle' : n.toInt ≤ n'.toInt := Int64.le_iff_toInt_le.mp hle
    have hn' : 0 < n' := Int64.lt_of_lt_of_le hn hle
    rw [heq] at ht ⊢
    exact decode_eq_of_height_le hn' hm ht (by omega)

/-- Three nodes, one below the other, and a limit of one: the run without a limit gives the tree,
and the limited one stops at the innermost node. -/
theorem decode_under_limit_one :
    let document := utf8 ("\x7b\"nodeType\":\"\",\"id\":7,\"nodes\":[" ++
      "\x7b\"nodeType\":\"\",\"id\":8,\"nodes\":[\x7b\"nodeType\":\"Break\"\x7d]\x7d]\x7d")
    (0 : Int64) < 1 ∧ (-1 : Int64) ≤ 0 ∧
      StopsShort 1 (decode ⟨-1, true⟩ document) (decode ⟨1, true⟩ document)
        [.nodes 0, .nodes 0] := by
  intro document
  let tree : Node := .unknown "" 7 .nodes [.unknown "" 8 .nodes [.plain .breakStatement]]
  have bytes : document = [
      0x7b, 0x22, 0x6e, 0x6f, 0x64, 0x65, 0x54, 0x79, 0x70, 0x65, 0x22, 0x3a, 0x22, 0x22, 0x2c,
      0x22, 0x69, 0x64, 0x22, 0x3a, 0x37, 0x2c, 0x22, 0x6e, 0x6f, 0x64, 0x65, 0x73, 0x22, 0x3a,
      0x5b, 0x7b, 0x22, 0x6e, 0x6f, 0x64, 0x65, 0x54, 0x79, 0x70, 0x65, 0x22, 0x3a, 0x22, 0x22,
      0x2c, 0x22, 0x69, 0x64, 0x22, 0x3a, 0x38, 0x2c, 0x22, 0x6e, 0x6f, 0x64, 0x65, 0x73, 0x22,
      0x3a, 0x5b, 0x7b, 0x22, 0x6e, 0x6f, 0x64, 0x65, 0x54, 0x79, 0x70, 0x65, 0x22, 0x3a, 0x22,
      0x42, 0x72, 0x65, 0x61, 0x6b, 0x22, 0x7d, 0x5d, 0x7d, 0x5d, 0x7d] := by
    decide +kernel
  have around : ∀ {s₁ s₂ s₃ literal id v t}, Decimal.read literal = .ok id → Mirrors v t →
      Mirrors (.obj s₁ [("nodeType", .str s₂ ""), ("id", .num literal), ("nodes", .arr s₃ [v])])
        (.unknown "" id .nodes [t]) := by
    intro s₁ s₂ s₃ literal id v t hid hv
    refine .unknown ⟨_, ⟨[], _, rfl, by simp⟩, by simp, _, rfl⟩ ?_ (.inl ?_) ?_ (.cons hv .nil)
    · exact Kind.ofTag?_eq_none_iff.mp (by decide +kernel)
    · exact ⟨_, ⟨[_], _, rfl, by simp⟩, by simp, _, rfl, Decimal.read_eq_ok_iff.mp hid⟩
    · exact ⟨_, ⟨[_, _], _, rfl, by simp⟩, by simp, _, rfl⟩
  have full : (decode ⟨-1, true⟩ document).result = .ok tree := by
    rw [decode_unlimited_ok_iff (by decide), bytes]
    refine ⟨.obj _ [("nodeType", .str _ ""), ("id", .num _), ("nodes", .arr _ [.obj _
      [("nodeType", .str _ ""), ("id", .num _), ("nodes", .arr _ [.obj _
        [("nodeType", .str _ "Break")]])]])], by rfl, ?_⟩
    refine around (by decide) (around (by decide) (.plain ?_))
    exact ⟨_, ⟨[], _, rfl, by simp⟩, by simp, _, rfl⟩
  obtain ⟨-, law, -, -⟩ :=
    decode_under_limit document true (n := 1) (m := -1) (by decide) (by decide)
  obtain ⟨path, stops, first⟩ := (law tree full).2 (by decide)
  have hpath : path = [.nodes 0, .nodes 0] := Option.some.inj (first.symm.trans rfl)
  exact ⟨by decide, by decide, hpath ▸ stops⟩

end SolidityTree
