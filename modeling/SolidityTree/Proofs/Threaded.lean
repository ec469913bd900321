import SolidityTree.Decode.Threaded
import SolidityTree.Proofs.Grammar

/-!
# Handing the path down and putting it in front

There are two ways to come by the paths of failures and reports.  `nodeAt` hands the path of a value
down and makes every failure and report with it; `node` does not know the path, and each object puts
the step to a child in front of what the child has come to.  This module shows that it is the same.

`Outcome.below path` is what the second way makes of an outcome all the way up `path`.  It goes through
every composition of computations (`below_bind`), it gives a failure of an object the path of the
object (`Placed.failAt_eq`), and below a child it is the path with one more step (`below_under`).
These are the only places where the two decoders differ, so the rest follows kind by kind, and
`nodeAt_eq` by induction on the size of a value.  A document begins with the empty path
(`decodeValue_eq_nodeAt`).

Contents
* §1  outcomes below a path
* §2  members
* §3  children
* §4  kinds
* §5  nodes
-/

namespace SolidityTree

/-! ## 1. Outcomes below a path -/

/-- The report of a node below a node at `path`. -/
def Report.below (path : Path) (r : Report) : Report := { r with path := path ++ r.path }

/-- The failure of a node below a node at `path`. -/
def Failure.below (path : Path) (e : Failure) : Failure := { e with path := path ++ e.path }

/-- **The outcome of a value at `path`**: one step further up for each step of the path. -/
def Outcome.below {α : Type} (path : Path) (x : Outcome Failure α) : Outcome Failure α :=
  path.foldr Outcome.under x

namespace Outcome

variable {α β : Type} (path : Path)

theorem below_eq (x : Outcome Failure α) :
    x.below path = ⟨x.reports.map (Report.below path), x.result.mapError (Failure.below path)⟩ := by
  obtain ⟨reports, result⟩ := x
  induction path with
  | nil =>
    have same : reports.map (Report.below []) = reports := List.map_id reports
    cases result <;> simp [below, same, Except.mapError, Failure.below]
  | cons step path ih =>
    have hstep : (Outcome.mk reports result).below (step :: path) =
        ((Outcome.mk reports result).below path).under step := rfl
    rw [hstep, ih]
    cases result <;> simp [under, Except.mapError, Report.below, Failure.below, Report.under,
      Failure.under, Function.comp_def]

@[simp] theorem below_ok (a : α) : (ok a : Outcome Failure α).below path = ok a := below_eq path _

@[simp] theorem below_pure (a : α) : (pure a : Outcome Failure α).below path = pure a :=
  below_ok path a

theorem below_fail (e : Failure) : (fail e : Outcome Failure α).below path = fail (e.below path) :=
  below_eq path _

theorem below_report (r : Report) : (report r).below path = report (r.below path) := below_eq path _

@[simp] theorem below_bind (x : Outcome Failure α) (f : α → Outcome Failure β) :
    (x >>= f).below path = x.below path >>= fun a => (f a).below path := by
  show (x.bind f).below path = (x.below path).bind fun a => (f a).below path
  simp only [below_eq]
  obtain ⟨reports, result⟩ := x
  cases result with
  | error e => rfl
  | ok a => simp [bind, Except.mapError]

@[simp] theorem below_map (g : α → β) (x : Outcome Failure α) :
    (g <$> x).below path = g <$> x.below path := by
  rw [map_eq_pure_bind, map_eq_pure_bind, below_bind]
  simp only [below_pure]

/-- **One step further down** is a path with one more step. -/
theorem below_under (x : Outcome Failure α) (step : Descent) :
    (x.under step).below path = x.below (path ++ [step]) := by
  rw [below, below, List.foldr_append]
  rfl

end Outcome

open Outcome

namespace Decode.Placed

variable {α : Type} {o : Object} {path : Path}

/-! ## 2. Members -/

section Member

variable (field : String) (read : Json → Except Cause α)

theorem failAt_eq (cause : Cause) :
    (failAt ⟨o, path⟩ field cause : Outcome Failure α) = (o.failAt field cause).below path := by
  rw [Object.failAt, below_fail]
  simp [failAt, Object.failureAt, Object.failure, Failure.below]

theorem misplace_eq (role : Role) :
    (misplace ⟨o, path⟩ role : Outcome Failure α) =
      (Outcome.fail (o.failure (.misplaced role o.tag))).below path := by
  rw [below_fail]
  simp [misplace, Object.failure, Failure.below]

theorem report_eq (id : Int64) :
    report ⟨o, path⟩ id = (Outcome.report ⟨o.tag, id, []⟩).below path := by
  rw [below_report]
  simp [report, Report.below]

theorem readAt_eq (v : Json) :
    readAt ⟨o, path⟩ field read v = (o.readAt field read v).below path := by
  rw [readAt, Object.readAt]
  cases read v with
  | ok a => exact (below_ok path a).symm
  | error cause => exact failAt_eq field cause

theorem required_eq :
    required ⟨o, path⟩ field read = (o.required field read).below path := by
  rw [required, Object.required]
  cases o.part? field with
  | none => exact failAt_eq field .missingField
  | some v => exact readAt_eq field read v

theorem optional_eq :
    optional ⟨o, path⟩ field read = (o.optional field read).below path := by
  rw [optional, Object.optional]
  cases o.part? field with
  | none => exact (below_ok path _).symm
  | some v => simp only [readAt_eq, below_bind, below_pure]

theorem optionalD_eq (default : α) :
    optionalD ⟨o, path⟩ field read default = (o.optionalD field read default).below path := by
  simp only [optionalD, Object.optionalD, optional_eq, below_bind, below_pure]

theorem list?_eq : list? ⟨o, path⟩ field = (o.list? field).below path := by
  rw [list?, Object.list?]
  cases o.part? field with
  | none => exact (below_ok path _).symm
  | some v =>
    dsimp only
    cases v.items? with
    | some parts => exact (below_ok path _).symm
    | none => exact failAt_eq field _

theorem list_eq : list ⟨o, path⟩ field = (o.list field).below path := by
  rw [list, Object.list, list?_eq, below_bind]
  congr 1
  funext parts
  cases parts with
  | some parts => exact (below_ok path parts).symm
  | none => exact failAt_eq field .missingField

end Member

/-! ## 3. Children -/

/-- `Hands decode child`: a part that is decoded with the path to it comes to what it comes to by
itself, below the path. -/
def Hands {path : Path} (decode : Child ⟨o, path⟩) (child : Decode.Child o) : Prop :=
  ∀ step role v, decode (path ++ [step]) role v = (child role v).below (path ++ [step])

variable {decode : Child ⟨o, path⟩} {child : Decode.Child o}

theorem Hands.step (h : Hands decode child) (step : Descent) (role : Option Role) (v : Part o) :
    decode (Placed.child ⟨o, path⟩ step) role v = ((child role v).under step).below path := by
  rw [below_under]
  exact h step role v

theorem Hands.items (h : Hands decode child) (role : Option Role) (step : Nat → Descent) :
    ∀ (index : Nat) (parts : List (Part o)),
    items ⟨o, path⟩ decode role step index parts =
      (Decode.items child role step index parts).below path
  | index, [] => by rw [Placed.items, Decode.items, below_ok]
  | index, v :: rest => by
    rw [Placed.items, Decode.items, below_bind, h.step]
    simp only [below_map, h.items role step (index + 1) rest]

theorem Hands.children (h : Hands decode child) (field : ChildField) :
    children ⟨o, path⟩ decode field = (Decode.children o child field).below path := by
  rw [Placed.children, Decode.children, below_bind, list_eq]
  cases field <;> simp only [h.items]

theorem Hands.optionalNodes (h : Hands decode child) :
    optionalNodes ⟨o, path⟩ decode = (Decode.optionalNodes o child).below path := by
  rw [Placed.optionalNodes, Decode.optionalNodes, below_bind, list?_eq]
  simp only [h.items]

theorem Hands.statements (h : Hands decode child) :
    statements ⟨o, path⟩ decode = (Decode.statements o child).below path := by
  rw [Placed.statements, Decode.statements, below_bind, list_eq]
  simp only [h.items]

theorem Hands.expression (h : Hands decode child) :
    expression ⟨o, path⟩ decode = (Decode.expression o child).below path := by
  rw [Placed.expression, Decode.expression]
  cases o.part? "expression" with
  | none => exact failAt_eq "expression" .missingField
  | some v => exact h.step .expression (some .expression) v

theorem Hands.arguments (h : Hands decode child) :
    arguments ⟨o, path⟩ decode = (Decode.arguments o child).below path := by
  rw [Placed.arguments, Decode.arguments, below_bind, list?_eq]
  congr 1
  funext parts
  cases parts with
  | none => exact (below_pure path _).symm
  | some parts => simp only [h.items, below_bind, below_pure]

theorem Hands.body (h : Hands decode child) :
    body ⟨o, path⟩ decode = (Decode.body o child).below path := by
  rw [Placed.body, Decode.body]
  cases o.part? "body" with
  | none => exact (below_ok path _).symm
  | some v =>
    simp only [h.step, below_bind]
    congr 1
    funext t
    split
    · exact (below_pure path _).symm
    · exact failAt_eq "body" _

/-! ## 4. Kinds -/

/-- A function may fail once more between its body and its list. -/
theorem Hands.functionDefinition (h : Hands decode child) :
    functionDefinition ⟨o, path⟩ decode = (Decode.functionDefinition o child).below path := by
  simp only [Placed.functionDefinition, Decode.functionDefinition, required_eq, optionalD_eq,
    optional_eq, h.body, h.optionalNodes, failAt_eq, below_bind, below_pure,
    apply_ite (Outcome.below path)]

/-- **Each kind is decoded alike.** -/
theorem Hands.known (h : Hands decode child) (k : Kind) :
    known ⟨o, path⟩ decode k = (Decode.known o child k).below path := by
  cases k with
  | functionDefinition => exact h.functionDefinition
  | plain p => exact (below_ok path _).symm
  | sourceUnit =>
    simp only [Placed.known, Decode.known, sourceUnit, Decode.sourceUnit, required_eq, optionalD_eq,
      h.children, below_bind, below_pure]
  | contractDefinition =>
    simp only [Placed.known, Decode.known, contractDefinition, Decode.contractDefinition, required_eq,
      optionalD_eq, h.children, below_bind, below_pure]
  | variableDeclaration =>
    simp only [Placed.known, Decode.known, variableDeclaration, Decode.variableDeclaration,
      required_eq, optionalD_eq, h.optionalNodes, below_bind, below_pure]
  | block =>
    simp only [Placed.known, Decode.known, block, Decode.block, required_eq, h.statements, below_bind,
      below_pure]
  | expressionStatement =>
    simp only [Placed.known, Decode.known, expressionStatement, Decode.expressionStatement,
      required_eq, h.expression, below_bind, below_pure]
  | functionCall =>
    simp only [Placed.known, Decode.known, functionCall, Decode.functionCall, required_eq,
      h.expression, h.arguments, below_bind, below_pure]
  | identifier =>
    simp only [Placed.known, Decode.known, identifier, Decode.identifier, required_eq, optionalD_eq,
      below_bind, below_pure]

/-- A node of an unregistered tag reports itself with its path. -/
theorem Hands.unknown (h : Hands decode child) (opts : Options) :
    unknown opts ⟨o, path⟩ decode = (Decode.unknown opts o child).below path := by
  rw [Placed.unknown, Decode.unknown]
  cases o.id with
  | none => exact failAt_eq "id" _
  | some id =>
    cases childField? o with
    | none => exact failAt_eq "nodes" _
    | some field =>
      simp only [h.children, below_bind]
      congr 1
      funext nodes
      cases opts.reportUnknown with
      | false => simp
      | true => simp [report_eq]

theorem Hands.node (h : Hands decode child) (opts : Options) (role : Option Role) :
    node opts role ⟨o, path⟩ decode = (Decode.object opts role o child).below path := by
  unfold Placed.node Decode.object
  cases role with
  | none =>
    cases Kind.ofTag? o.tag with
    | none => exact h.unknown opts
    | some k => exact h.known k
  | some role =>
    cases Kind.ofTag? o.tag with
    | none => exact misplace_eq role
    | some k => simp only [apply_ite (Outcome.below path), h.known, misplace_eq]

end Decode.Placed

namespace Decode

/-! ## 5. Nodes -/

/-- **To hand the path down is to put it in front afterwards.**  The induction is on the size of the
value: its parts are decoded with the path to them. -/
theorem nodeAt_eq (opts : Options) (path : Path) (depth : Nat) (role : Option Role) (v : Json) :
    nodeAt opts path depth role v = (node opts depth role v).below path := by
  induction hn : v.size using Nat.strong_induction_on generalizing v path depth role with
  | _ n ih =>
    have place : ∀ cause, (Outcome.fail { path := path, cause := cause } : Outcome Failure Node) =
        (Outcome.fail { cause := cause }).below path := by
      intro cause
      rw [below_fail, Failure.below, List.append_nil]
    cases deep : opts.tooDeep depth with
    | true =>
      rw [node_of_tooDeep deep, ← place]
      cases v <;> simp [nodeAt, deep]
    | false =>
      cases v with
      | obj source members =>
        rw [node_obj deep, nodeAt, if_neg (by simp [deep])]
        cases tagOf members with
        | error cause => exact Placed.failAt_eq "nodeType" cause
        | ok tag =>
          refine Placed.Hands.node ?_ opts role
          intro step role v
          refine ih v.val.size ?_ _ _ _ _ rfl
          have : v.val.size ≤ Json.sizeMembers members := v.property
          simp only [Json.size] at hn
          omega
      | _ =>
        rw [node_of_not_obj deep role (by simp), ← place]
        simp [nodeAt, deep]

end Decode

/-- A document is decoded with the empty path at hand. -/
theorem decodeValue_eq_nodeAt (opts : Options) (v : Json) :
    decodeValue opts v = Decode.nodeAt opts [] 0 none v :=
  (Decode.nodeAt_eq opts [] 0 none v).symm

end SolidityTree
