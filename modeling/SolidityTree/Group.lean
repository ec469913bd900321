import SolidityTree.Outcome

/-!
# Groups of tasks

Some tasks are done side by side.  They are started in order, a limited number of them at once, and each
of them makes its reports and ends with a value or an error.  The first error of all calls the group
off: a task that finds this when it begins is not done but fails, too.  A caller may call the group
off at any time.  When every task has given up its place, the group has ended: with the first error in
TIME, or else with the values in the order of the tasks.

Nothing is said about which task makes the next step.  `Group.next?` is one step of a task that may make
one, so that a list of events is one of the ways in which things may go, and the outcome of a
group depends on it: which error is the first, and in what order the reports of two tasks come.

Contents
* §1  tasks and groups
* §2  single steps
* §3  ends
* §4  one task after the other
-/

namespace SolidityTree

namespace Group

/-! ## 1. Groups -/

/-- What a task that was started has come to. -/
inductive Phase (ε α : Type) where
  /-- It has not yet looked whether the group was called off. -/
  | started (task : Outcome ε α)
  /-- It has some reports to make before it ends. -/
  | working (left : List Report) (result : Except ε α)
  /-- It has ended and holds its place. -/
  | ended (result : Except ε α)
  /-- It has given up its place. -/
  | gone (result : Except ε α)

namespace Phase

variable {ε α : Type}

/-- Whether a task has given up its place. -/
def isGone : Phase ε α → Bool
  | gone _ => true
  | _ => false

/-- The value that a task has left behind. -/
def value? : Phase ε α → Option α
  | gone (.ok a) => some a
  | _ => none

end Phase

end Group

/-- Tasks that are done side by side. -/
structure Group (ε α : Type) where
  /-- The tasks that were not started. -/
  waiting : List (Outcome ε α)
  /-- The tasks that were started, in order. -/
  phases : List (Group.Phase ε α) := []
  calledOff : Bool := false
  /-- The first error. -/
  trouble : Option ε := none
  /-- All reports that were made. -/
  reports : List Report := []

namespace Group

variable {ε α : Type}

/-! ## 2. Single steps -/

/-- A step of a task that was started. -/
inductive Move where
  /-- It looks whether the group was called off. -/
  | look
  /-- It makes its next report. -/
  | report
  /-- It ends. -/
  | finish
  /-- It gives up its place. -/
  | leave
  deriving DecidableEq

/-- What can happen to a group. -/
inductive Event where
  /-- The next task is started. -/
  | start
  /-- The task with an index makes a step. -/
  | task (index : Nat) (move : Move)
  /-- The caller calls the group off. -/
  | callOff
  deriving DecidableEq

/-- How many tasks hold a place. -/
def held (g : Group ε α) : Nat := g.phases.countP fun phase => !phase.isGone

/-- The error of a result. -/
def error? : Except ε α → Option ε
  | .error e => some e
  | .ok _ => none

/-- Puts a task into another phase. -/
def enter (g : Group ε α) (index : Nat) (phase : Phase ε α) : Group ε α :=
  { g with phases := g.phases.set index phase }

/-- A step of a task.  If the group was called off before it begins, it fails with `off`. -/
def move? (off : ε) (g : Group ε α) (index : Nat) : Phase ε α → Move → Option (Group ε α)
  | .started task, .look =>
    some (g.enter index
      (if g.calledOff then .working [] (.error off) else .working task.reports task.result))
  | .working (r :: left) result, .report =>
    some ({ g with reports := g.reports ++ [r] }.enter index (.working left result))
  | .working [] result, .finish =>
    some ({ g with trouble := g.trouble.or (error? result) }.enter index (.ended result))
  | .ended result, .leave =>
    some ({ g with calledOff := g.calledOff || (error? result).isSome }.enter index (.gone result))
  | _, _ => none

/-- The group after an event; `none` if it cannot happen.  At most `limit` tasks hold a place. -/
def next? (limit : Nat) (off : ε) (g : Group ε α) : Event → Option (Group ε α)
  | .start =>
    match g.waiting with
    | [] => none
    | task :: rest =>
      if g.held < limit then some { g with waiting := rest, phases := g.phases ++ [.started task] }
      else none
  | .task index move => g.phases[index]?.bind fun phase => g.move? off index phase move
  | .callOff => some { g with calledOff := true }

/-- The group after some events; `none` if one of them cannot happen. -/
def after? (limit : Nat) (off : ε) (g : Group ε α) : List Event → Option (Group ε α)
  | [] => some g
  | event :: rest => (g.next? limit off event).bind fun g' => g'.after? limit off rest

/-! ## 3. Ends -/

/-- What a group comes to; `none` as long as it has not ended. -/
def outcome? (g : Group ε α) : Option (Outcome ε (List α)) :=
  if g.waiting.isEmpty && g.phases.all Phase.isGone then
    some ⟨g.reports,
      match g.trouble with
      | some e => .error e
      | none => .ok (g.phases.filterMap Phase.value?)⟩
  else none

/-- What some tasks come to if things go in a certain way; `none` if they cannot go in this way, or do
not come to an end. -/
def run? (limit : Nat) (off : ε) (schedule : List Event) (tasks : List (Outcome ε α)) :
    Option (Outcome ε (List α)) :=
  (Group.after? limit off { waiting := tasks } schedule).bind outcome?

/-! ## 4. One task after the other -/

/-- A task from its start until it gives up its place, with a number of reports. -/
def turn (index reports : Nat) : List Event :=
  .start :: .task index .look ::
    (List.replicate reports (.task index .report) ++ [.task index .finish, .task index .leave])

end Group

end SolidityTree
