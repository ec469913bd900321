import SolidityTree.Proofs.Group

/-!
# Ways in which things may go in a group

Of the many ways in which the tasks of a group may make their steps, this module looks at some.

* `run?_turns`: one task after the other is one of them, and gives what the tasks come to in turn.
* `run?_alone`: where there is but one place, or one task, things cannot go in any other way.
* `run?_calledOff`: if a caller calls the group off at once, no task is done.
* `exists_run?`: however things have gone so far, they can come to an end.  A group that has not ended
  has a step to make (`exists_next?`), and there are only so many of them (`length_add_steps_le`), so if
  no step is put off for good it does come to its end.

Contents
* §1  one task after the other
* §2  a single place
* §3  called off at once
* §4  coming to an end
-/

namespace SolidityTree

namespace Group

variable {ε ε' α : Type} {limit : Nat} {off : ε} {g g' : Group ε α}

/-! ## 1. One task after the other -/

section Turns

theorem after?_append (schedule schedule' : List Event) (g : Group ε α) :
    g.after? limit off (schedule ++ schedule') =
      (g.after? limit off schedule).bind fun g' => g'.after? limit off schedule' := by
  induction schedule generalizing g with
  | nil => rfl
  | cons event rest ih =>
    rw [List.cons_append, after?, after?]
    cases g.next? limit off event with
    | none => rfl
    | some g' => exact ih g'

variable {phases : List (Phase ε α)} {waiting : List (Outcome ε α)} {calledOff : Bool}
  {trouble : Option ε} {reports : List Report}

/-- Where all tasks have given up their places, there is one for the next. -/
theorem held_lt (hlimit : 0 < limit) (hgone : ∀ p ∈ phases, p.isGone = true) :
    phases.countP (fun phase => !phase.isGone) < limit := by
  rw [List.countP_eq_zero.mpr fun p hp => by simp [hgone p hp]]
  exact hlimit

end Turns

/-! ## 2. A single place -/

/-- One task at most holds a place, now and later: there is one place, or one task. -/
structure Alone (limit : Nat) (g : Group ε α) : Prop where
  held : g.held ≤ 1
  next : limit ≤ 1 ∨ g.phases.length + g.waiting.length ≤ 1

/-- Such a group stays one. -/
theorem Alone.step {event : Event} (h : Alone limit g) (hnext : g.next? limit off event = some g') :
    Alone limit g' := by
  -- A task that goes on holds at most the place that it held.
  have replaced {before after : List (Phase ε α)} {p q : Phase ε α} {waiting : List (Outcome ε α)}
      (hphases : g.phases = before ++ p :: after) (hp : p.isGone = false)
      (hwaiting : g.waiting = waiting) {calledOff : Bool} {trouble : Option ε} {reports : List Report} :
      Alone limit ⟨waiting, before ++ q :: after, calledOff, trouble, reports⟩ := by
    obtain ⟨hheld, hnext⟩ := h
    rw [Group.held, hphases, List.countP_append, List.countP_cons_of_pos (by simp [hp])] at hheld
    rw [hphases, hwaiting] at hnext
    refine ⟨?_, by simpa using hnext⟩
    have hq := List.countP_cons (p := fun phase : Phase ε α => !phase.isGone) (a := q) (l := after)
    rw [Group.held, List.countP_append, hq]
    split <;> omega
  cases step_of_next? hnext with
  | @start task rest hwaiting =>
    simp only [next?, hwaiting] at hnext
    split at hnext
    · next hlimit =>
      obtain ⟨hheld, hsingle⟩ := h
      rw [hwaiting, List.length_cons] at hsingle
      have hle : g.held ≤ g.phases.length := List.countP_le_length
      have hstarted : ({ g with waiting := rest, phases := g.phases ++ [.started task] } :
          Group ε α).held = g.held + 1 := by
        simp [Group.held, Phase.isGone]
      refine ⟨?_, ?_⟩
      · rw [hstarted]
        omega
      · show limit ≤ 1 ∨ (g.phases ++ [Phase.started task]).length + rest.length ≤ 1
        rw [List.length_append, List.length_singleton]
        omega
    · cases hnext
  | «begin» hphases hoff => exact replaced hphases rfl rfl
  | drop hphases hoff => exact replaced hphases rfl rfl
  | report hphases => exact replaced hphases rfl rfl
  | finish hphases => exact replaced hphases rfl rfl
  | leave hphases => exact replaced hphases rfl rfl
  | callOff => exact ⟨h.held, h.next⟩

/-- The phase of a task that was or will be dropped. -/
def Phase.Dropped (off : ε) : Phase ε α → Prop
  | .started _ => True
  | .working left result => left = [] ∧ result = .error off
  | .ended result => result = .error off
  | .gone result => result = .error off

/-- A group that was called off before a task of it has begun. -/
structure Barred (off : ε) (g : Group ε α) : Prop where
  calledOff : g.calledOff = true
  reports : g.reports = []
  phases : ∀ p ∈ g.phases, p.Dropped off
  trouble : g.trouble = some off ∨ g.trouble = none ∧
    ∀ result, .ended result ∉ g.phases ∧ .gone result ∉ g.phases
  nonempty : g.waiting ≠ [] ∨ g.phases ≠ []

/-- Such a group stays one. -/
theorem Barred.step {event : Event} (h : Barred off g) (hstep : Step off g event g') :
    Barred off g' := by
  have dropped {before after : List (Phase ε α)} {p : Phase ε α}
      (hphases : g.phases = before ++ p :: after) : p.Dropped off :=
    h.phases p (by simp [hphases])
  have replaced {before after : List (Phase ε α)} {p q : Phase ε α}
      (hphases : g.phases = before ++ p :: after) (hq : q.Dropped off) :
      ∀ r ∈ before ++ q :: after, r.Dropped off := by
    intro r hr
    rw [List.mem_append, List.mem_cons] at hr
    rcases hr with hr | rfl | hr
    · exact h.phases r (by simp [hphases, hr])
    · exact hq
    · exact h.phases r (by simp [hphases, hr])
  cases hstep with
  | @start task rest hwaiting =>
    refine ⟨h.calledOff, h.reports, ?_, h.trouble.imp id fun hnone => ⟨hnone.1, ?_⟩, .inr (by simp)⟩
    · exact List.forall_mem_append.mpr ⟨h.phases, List.forall_mem_singleton.mpr trivial⟩
    · simpa using hnone.2
  | «begin» hphases hoff => cases h.calledOff.symm.trans hoff
  | drop hphases hoff =>
    refine ⟨h.calledOff, h.reports, replaced hphases ⟨rfl, rfl⟩, ?_, .inr (by simp)⟩
    exact h.trouble.imp id fun hnone => ⟨hnone.1, by simpa [hphases] using hnone.2⟩
  | report hphases => cases (dropped hphases).1
  | finish hphases =>
    obtain ⟨-, rfl⟩ := dropped hphases
    refine ⟨h.calledOff, h.reports, replaced hphases rfl, .inl ?_, .inr (by simp)⟩
    rcases h.trouble with htrouble | ⟨htrouble, -⟩ <;> simp [htrouble, error?]
  | @leave before after result hphases =>
    obtain rfl := dropped hphases
    refine ⟨by simp [h.calledOff], h.reports, replaced hphases rfl, .inl ?_, .inr (by simp)⟩
    rcases h.trouble with htrouble | ⟨-, hnone⟩
    · exact htrouble
    · exact absurd (by simp [hphases]) (hnone (.error off)).1
  | callOff => exact ⟨rfl, h.reports, h.phases, h.trouble, h.nonempty⟩

theorem Barred.after {schedule : List Event} (h : Barred off g)
    (hafter : g.after? limit off schedule = some g') : Barred off g' := by
  induction schedule generalizing g with
  | nil => exact Option.some.inj hafter ▸ h
  | cons event rest ih =>
    obtain ⟨g₁, hnext, hafter⟩ := Option.bind_eq_some_iff.mp hafter
    exact ih (h.step (step_of_next? hnext)) hafter

/-- **Called off at once**, no task is done, and nothing is reported. -/
theorem run?_calledOff {schedule : List Event} {tasks : List (Outcome ε α)} {x : Outcome ε (List α)}
    (hne : tasks ≠ []) (hx : run? limit off (.callOff :: schedule) tasks = some x) :
    x = .fail off := by
  obtain ⟨g, hafter, hend⟩ := Option.bind_eq_some_iff.mp hx
  have hbarred : Barred off ({ waiting := tasks, calledOff := true } : Group ε α) :=
    ⟨rfl, rfl, nofun, .inr ⟨rfl, by simp⟩, .inl hne⟩
  obtain ⟨-, hreports, -, htrouble, hnonempty⟩ := hbarred.after hafter
  obtain ⟨hwaiting, hgone, rfl⟩ := outcome?_eq_some hend
  rcases htrouble with htrouble | ⟨-, hnone⟩
  · rw [htrouble, hreports]
    rfl
  · obtain ⟨p, hp⟩ := List.exists_mem_of_ne_nil _ (hnonempty.resolve_left (· hwaiting))
    cases p with
    | gone result => exact absurd hp (hnone result).2
    | _ => cases hgone _ hp

/-! ## 4. Coming to an end -/

/-- How many steps a task has still to make that was started. -/
def Phase.steps : Phase ε α → Nat
  | .started task => task.reports.length + 3
  | .working left _ => left.length + 2
  | .ended _ => 1
  | .gone _ => 0

/-- How many steps some tasks have still to make that were started. -/
def stepsOf : List (Phase ε α) → Nat
  | [] => 0
  | p :: rest => p.steps + stepsOf rest

/-- How many steps a group has still to make, each start being one; a task that is dropped makes
fewer. -/
def steps (g : Group ε α) : Nat :=
  stepsOf (g.phases ++ g.waiting.map .started) + g.waiting.length

theorem stepsOf_append (ps qs : List (Phase ε α)) :
    stepsOf (ps ++ qs) = stepsOf ps + stepsOf qs := by
  induction ps with
  | nil => rw [List.nil_append, stepsOf, Nat.zero_add]
  | cons p rest ih => rw [List.cons_append, stepsOf, stepsOf, ih, Nat.add_assoc]

/-- **Every step brings the group nearer to its end**, but for that of its caller. -/
theorem steps_lt {event : Event} (h : Step off g event g') (hoff : event ≠ .callOff) :
    g'.steps < g.steps := by
  -- A task that goes on has fewer steps to make, and all others have as many as before.
  have replaced {before after : List (Phase ε α)} {p q : Phase ε α}
      (hphases : g.phases = before ++ p :: after) (hlt : q.steps < p.steps) {calledOff : Bool}
      {trouble : Option ε} {reports : List Report} :
      (⟨g.waiting, before ++ q :: after, calledOff, trouble, reports⟩ : Group ε α).steps < g.steps := by
    rw [steps, steps, hphases]
    simp only [stepsOf_append, stepsOf]
    omega
  cases h with
  | start hwaiting =>
    -- It is counted among those that were started, and its start is behind it.
    rw [steps, steps, hwaiting, List.map_cons, List.append_assoc, List.length_cons]
    exact Nat.lt_succ_self _
  | «begin» hphases hrunning => exact replaced hphases (Nat.lt_succ_self _)
  | @drop before after task hphases hdropped =>
    refine replaced hphases ?_
    show 2 < task.reports.length + 3
    omega
  | report hphases => exact replaced hphases (Nat.lt_succ_self _)
  | finish hphases => exact replaced hphases (Nat.lt_succ_self _)
  | leave hphases => exact replaced hphases (Nat.lt_succ_self _)
  | callOff => exact absurd rfl hoff

/-- No run is longer than the number of steps that there are to make. -/
theorem length_add_steps_le {schedule : List Event} (hoff : .callOff ∉ schedule)
    (hafter : g.after? limit off schedule = some g') : schedule.length + g'.steps ≤ g.steps := by
  induction schedule generalizing g with
  | nil =>
    cases hafter
    simp
  | cons event rest ih =>
    obtain ⟨g₁, hnext, hafter⟩ := Option.bind_eq_some_iff.mp hafter
    have hlt := steps_lt (step_of_next? hnext) (Ne.symm (List.ne_of_not_mem_cons hoff))
    have hle := ih (List.not_mem_of_not_mem_cons hoff) hafter
    rw [List.length_cons]
    omega

/-- A task that holds a place has a step to make. -/
theorem exists_move? (off : ε) (g : Group ε α) (index : Nat) {p : Phase ε α} (h : p.isGone = false) :
    ∃ move g', g.move? off index p move = some g' := by
  cases p with
  | started task => exact ⟨.look, _, rfl⟩
  | working left result =>
    cases left with
    | nil => exact ⟨.finish, _, rfl⟩
    | cons r left => exact ⟨.report, _, rfl⟩
  | ended result => exact ⟨.leave, _, rfl⟩
  | gone result => cases h

/-- **A group that has not ended can go on**: a task that holds a place can, and if there is none, the
next task can be started. -/
theorem exists_next? (off : ε) (hlimit : 0 < limit) (hopen : g.outcome? = none) :
    ∃ event g', event ≠ .callOff ∧ g.next? limit off event = some g' := by
  by_cases hgone : ∀ p ∈ g.phases, p.isGone = true
  · cases hwaiting : g.waiting with
    | nil =>
      rw [outcome?, hwaiting, List.isEmpty_nil, Bool.true_and,
        if_pos (List.all_eq_true.mpr hgone)] at hopen
      cases hopen
    | cons task rest =>
      have hstart : g.next? limit off .start =
          some { g with waiting := rest, phases := g.phases ++ [.started task] } := by
        rw [next?, hwaiting]
        exact if_pos (held_lt hlimit hgone)
      exact ⟨.start, _, by rintro ⟨⟩, hstart⟩
  · simp only [not_forall, Bool.not_eq_true] at hgone
    obtain ⟨p, hp, hholds⟩ := hgone
    obtain ⟨index, hindex⟩ := List.getElem?_of_mem hp
    obtain ⟨move, g', hmove⟩ := exists_move? off g index hholds
    refine ⟨.task index move, g', by rintro ⟨⟩, ?_⟩
    rw [next?, hindex]
    exact hmove

/-- **Every group comes to an end** if its tasks make the steps they have to make. -/
theorem exists_outcome? (off : ε) (hlimit : 0 < limit) (g : Group ε α) :
    ∃ more x, .callOff ∉ more ∧ (g.after? limit off more).bind outcome? = some x := by
  induction hn : g.steps using Nat.strongRecOn generalizing g with
  | ind n ih =>
    cases hend : g.outcome? with
    | some x => exact ⟨[], x, List.not_mem_nil, hend⟩
    | none =>
      obtain ⟨event, g', hoff, hnext⟩ := exists_next? off hlimit hend
      have hlt := steps_lt (step_of_next? hnext) hoff
      obtain ⟨more, x, hmore, hx⟩ := ih g'.steps (hn ▸ hlt) g' rfl
      refine ⟨event :: more, x, ?_, ?_⟩
      · rw [List.mem_cons, not_or]
        exact ⟨hoff.symm, hmore⟩
      · rw [after?, hnext]
        exact hx

/-- **However things have gone so far, they can come to an end.** -/
theorem exists_run? (hlimit : 0 < limit) {schedule : List Event} {tasks : List (Outcome ε α)}
    (hafter : Group.after? limit off { waiting := tasks } schedule = some g) :
    ∃ more x, .callOff ∉ more ∧ run? limit off (schedule ++ more) tasks = some x := by
  obtain ⟨more, x, hmore, hx⟩ := exists_outcome? off hlimit g
  refine ⟨more, x, hmore, ?_⟩
  rw [run?, after?_append, hafter]
  exact hx

end Group

end SolidityTree
