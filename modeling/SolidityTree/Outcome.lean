import SolidityTree.Failure

/-!
# Outcomes

Decoding gives a result or a failure, and on the way it reports the nodes whose tags are not
registered.  An `Outcome` holds both: a failure does not take back the reports made before it, and
nothing after a failure reports.  Outcomes compose by `bind`, and `under` moves an outcome one step
down the document by putting the step in front of every path in it.
-/

namespace SolidityTree

/-- A node of an unregistered tag that decoding came across. -/
structure Report where
  tag : String
  id : Int64
  path : Path
  deriving DecidableEq

/-- The same report seen from one step further up. -/
def Report.under (step : Descent) (r : Report) : Report := { r with path := step :: r.path }

/-- The reports of a computation, in order, and how it ended. -/
structure Outcome (ε α : Type) where
  reports : List Report
  result : Except ε α

namespace Outcome

variable {ε α β : Type}

/-- Success without a report. -/
def ok (a : α) : Outcome ε α := ⟨[], .ok a⟩

/-- Failure without a report. -/
def fail (e : ε) : Outcome ε α := ⟨[], .error e⟩

/-- One report. -/
def report (r : Report) : Outcome ε Unit := ⟨[r], .ok ()⟩

/-- The first computation, then, if it succeeded, the second. -/
def bind (o : Outcome ε α) (f : α → Outcome ε β) : Outcome ε β :=
  match o.result with
  | .error e => ⟨o.reports, .error e⟩
  | .ok a => ⟨o.reports ++ (f a).reports, (f a).result⟩

/-- The same computation with its result worked on. -/
def map (f : α → β) (o : Outcome ε α) : Outcome ε β := ⟨o.reports, o.result.map f⟩

instance : Monad (Outcome ε) where
  map := map
  pure := ok
  bind := bind

@[simp] theorem ok_bind (a : α) (f : α → Outcome ε β) : (ok a).bind f = f a := rfl

@[simp] theorem fail_bind (e : ε) (f : α → Outcome ε β) : (fail e : Outcome ε α).bind f = fail e := rfl

/-- The reports of two computations come one after the other. -/
theorem reports_bind_of_ok {o : Outcome ε α} {a : α} (h : o.result = .ok a) (f : α → Outcome ε β) :
    (o.bind f).reports = o.reports ++ (f a).reports := by
  simp [bind, h]

/-- After a failure nothing is reported. -/
theorem bind_of_error {o : Outcome ε α} {e : ε} (h : o.result = .error e) (f : α → Outcome ε β) :
    o.bind f = ⟨o.reports, .error e⟩ := by
  simp [bind, h]

instance : LawfulMonad (Outcome ε) :=
  LawfulMonad.mk' (Outcome ε)
    (by
      rintro α ⟨reports, result⟩
      cases result <;> rfl)
    (fun _ _ => rfl)
    (by
      rintro α β γ ⟨reports, result⟩ f g
      cases result with
      | error e => rfl
      | ok a =>
        show bind (bind _ f) g = bind _ fun a => bind (f a) g
        cases h : (f a).result <;> simp [bind, h])
    (by intros; rfl)
    (by intros; rfl)
    (by intros; rfl)
    (by
      rintro α β f ⟨reports, result⟩
      cases result <;> simp [Functor.map, map, Bind.bind, bind, Pure.pure, ok, Except.map])

/-- A success comes from a success of every step. -/
theorem result_bind_eq_ok {o : Outcome ε α} {f : α → Outcome ε β} {b : β} :
    (o >>= f).result = .ok b ↔ ∃ a, o.result = .ok a ∧ (f a).result = .ok b := by
  show (o.bind f).result = .ok b ↔ _
  cases h : o.result <;> simp [bind, h]

theorem result_map_eq_ok {o : Outcome ε α} {f : α → β} {b : β} :
    (f <$> o).result = .ok b ↔ ∃ a, o.result = .ok a ∧ f a = b := by
  show (o.map f).result = .ok b ↔ _
  cases h : o.result <;> simp [map, h, Except.map]

@[simp] theorem result_ok (a : α) : (ok a : Outcome ε α).result = .ok a := rfl

@[simp] theorem result_pure (a : α) : (pure a : Outcome ε α).result = .ok a := rfl

@[simp] theorem result_fail (e : ε) : (fail e : Outcome ε α).result = .error e := rfl

/-- The same computation with another form of failure. -/
def mapError {ε' : Type} (f : ε → ε') (o : Outcome ε α) : Outcome ε' α :=
  ⟨o.reports, o.result.mapError f⟩

/-- The outcome of a node seen from one step further up. -/
def under (step : Descent) (o : Outcome Failure α) : Outcome Failure α :=
  ⟨o.reports.map (Report.under step), o.result.mapError (Failure.under step)⟩

/-- Moving an outcome does not touch the value it ends with. -/
@[simp] theorem result_under_eq_ok {step : Descent} {o : Outcome Failure α} {a : α} :
    (o.under step).result = .ok a ↔ o.result = .ok a := by
  obtain ⟨reports, result⟩ := o
  cases result with
  | error e => exact iff_of_false (by rintro ⟨⟩) (by rintro ⟨⟩)
  | ok b => exact Iff.rfl

end Outcome

end SolidityTree
