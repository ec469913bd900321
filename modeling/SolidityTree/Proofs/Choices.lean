import Mathlib.Data.List.Induction
import SolidityTree.Proofs.Interval
import SolidityTree.Proofs.SpinnerRun

/-!
# What choices make of a spinner

A spinner comes from a list of choices, and any of them may be nonsense: no frames at all, a time
that is not positive, or milliseconds whose nanoseconds wrap around to zero or below it.  A loop
cannot go by such values: its clock must be set to a positive time, and to draw a frame it takes the
remainder of a number by the number of frames.

Each choice either supplies a value that a loop can go by or leaves the spinner as it is
(`frames_choose`, `interval_choose`).  So whatever the choices are, the value that counts is the one
supplied LAST, and the built-in one if none is supplied (`lastSupplied_make`).

A loop that is to draw a frame has counted those that were drawn (`Reached.index_eq`), by a natural
number.  A counter of 64 bits picks the same frame for the first 2^63 of them, and nothing is claimed
about it later: after that many, a billion a second for 292 years, it wraps around.

Contents
* §1  what a choice supplies
* §2  one choice
* §3  all choices
-/

namespace SolidityTree.Spinner

/-! ## 1. What a choice supplies -/

/-- A choice supplies a list of frames that is not empty. -/
inductive Choice.SuppliesFrames : Choice → List String → Prop
  | frames {frames : List String} : frames ≠ [] → SuppliesFrames (.frames frames) frames
  | settings {milliseconds : Int64} {frames : List String} : frames ≠ [] →
      SuppliesFrames (.settings milliseconds frames) frames

/-- A choice supplies a positive time in nanoseconds; that of the settings is what is left of the
product in 64 bits. -/
inductive Choice.SuppliesInterval : Choice → Int64 → Prop
  | interval {nanoseconds : Int64} : 0 < nanoseconds →
      SuppliesInterval (.interval nanoseconds) nanoseconds
  | settings {milliseconds : Int64} {frames : List String} :
      0 < Settings.nanoseconds milliseconds →
      SuppliesInterval (.settings milliseconds frames) (Settings.nanoseconds milliseconds)

/-- **The value that counts** is the one that the last of all supplying choices supplies, and the
built-in one if no choice supplies any. -/
def LastSupplied {α : Type} (Supplies : Choice → α → Prop) (choices : List Choice)
    (builtIn a : α) : Prop :=
  (∃ before choice after, choices = before ++ choice :: after ∧ Supplies choice a ∧
    ∀ later ∈ after, ∀ b, ¬ Supplies later b) ∨
  (∀ choice ∈ choices, ∀ b, ¬ Supplies choice b) ∧ a = builtIn

/-! ## 2. One choice -/

theorem frames_withFrames (s : Spinner) (frames : List String) :
    (s.withFrames frames).frames = if frames = [] then s.frames else frames := by
  unfold withFrames
  cases frames <;> rfl

/-- **A choice supplies frames or leaves them as they are.** -/
theorem frames_choose (s : Spinner) (choice : Choice) :
    choice.SuppliesFrames (s.choose choice).frames ∨
      (∀ frames, ¬ choice.SuppliesFrames frames) ∧ (s.choose choice).frames = s.frames := by
  cases choice with
  | frames frames =>
    rw [choose, frames_withFrames]
    by_cases h : frames = []
    · rw [if_pos h]
      refine .inr ⟨fun _ supplies => ?_, rfl⟩
      cases supplies with
      | frames hne => exact hne h
    · rw [if_neg h]
      exact .inl (.frames h)
  | settings milliseconds frames =>
    rw [choose, frames_withInterval, frames_withFrames]
    by_cases h : frames = []
    · rw [if_pos h]
      refine .inr ⟨fun _ supplies => ?_, rfl⟩
      cases supplies with
      | settings hne => exact hne h
    · rw [if_neg h]
      exact .inl (.settings h)
  | interval nanoseconds => exact .inr ⟨by rintro _ ⟨⟩, frames_withInterval s nanoseconds⟩
  | color on => exact .inr ⟨by rintro _ ⟨⟩, rfl⟩

/-- **A choice supplies a time or leaves it as it is.** -/
theorem interval_choose (s : Spinner) (choice : Choice) :
    choice.SuppliesInterval (s.choose choice).interval ∨
      (∀ time, ¬ choice.SuppliesInterval time) ∧ (s.choose choice).interval = s.interval := by
  cases choice with
  | frames frames => exact .inr ⟨by rintro _ ⟨⟩, interval_withFrames s frames⟩
  | interval nanoseconds =>
    rw [choose, interval_withInterval]
    by_cases h : 0 < nanoseconds
    · rw [if_pos h]
      exact .inl (.interval h)
    · rw [if_neg h]
      refine .inr ⟨fun _ supplies => ?_, rfl⟩
      cases supplies with
      | interval pos => exact h pos
  | settings milliseconds frames =>
    rw [choose, interval_withInterval, interval_withFrames]
    by_cases h : 0 < Settings.nanoseconds milliseconds
    · rw [if_pos h]
      exact .inl (.settings h)
    · rw [if_neg h]
      refine .inr ⟨fun _ supplies => ?_, rfl⟩
      cases supplies with
      | settings pos => exact h pos
  | color on => exact .inr ⟨by rintro _ ⟨⟩, rfl⟩

/-! ## 3. All choices -/

/-- **The last choice that supplies a value decides.**  `part` is the part of a spinner that is
supplied. -/
theorem lastSupplied_make {α : Type} {Supplies : Choice → α → Prop} {part : Spinner → α}
    (step : ∀ s choice, Supplies choice (part (s.choose choice)) ∨
      (∀ a, ¬ Supplies choice a) ∧ part (s.choose choice) = part s)
    (message : String) (choices : List Choice) :
    LastSupplied Supplies choices (part { message := message }) (part (make message choices)) := by
  -- on the last choice: it supplies the value, or all stays as it was before it
  induction choices using List.reverseRecOn with
  | nil => exact .inr ⟨nofun, rfl⟩
  | append_singleton before choice ih =>
    rw [make_concat]
    rcases step (make message before) choice with supplies | ⟨silent, same⟩
    · exact .inl ⟨before, choice, [], rfl, supplies, nofun⟩
    rw [same]
    rcases ih with ⟨first, last, after, rfl, supplies, silentAfter⟩ | ⟨silentBefore, builtIn⟩
    · refine .inl ⟨first, last, after ++ [choice], by simp, supplies, ?_⟩
      intro later hlater
      rcases List.mem_append.mp hlater with h | h
      · exact silentAfter later h
      · rw [List.mem_singleton.mp h]
        exact silent
    · refine .inr ⟨fun later hlater => ?_, builtIn⟩
      rcases List.mem_append.mp hlater with h | h
      · exact silentBefore later h
      · rw [List.mem_singleton.mp h]
        exact silent

theorem lastSupplied_frames (message : String) (choices : List Choice) :
    LastSupplied Choice.SuppliesFrames choices ["⠋", "⠙", "⠹", "⠸", "⠼", "⠴", "⠦", "⠧", "⠇", "⠏"]
      (make message choices).frames :=
  lastSupplied_make frames_choose message choices

theorem lastSupplied_interval (message : String) (choices : List Choice) :
    LastSupplied Choice.SuppliesInterval choices 100000000 (make message choices).interval :=
  lastSupplied_make interval_choose message choices

/-- The time that counts is positive, since only positive times are supplied. -/
theorem interval_make_pos (message : String) (choices : List Choice) :
    0 < (make message choices).interval := by
  rcases lastSupplied_interval message choices with ⟨_, choice, _, _, supplies, _⟩ | ⟨-, builtIn⟩
  · generalize (make message choices).interval = time at supplies
    cases supplies <;> assumption
  · rw [builtIn]
    decide

/-- A run does not change the spinner. -/
theorem Reached.spinner_eq {s : Spinner} {calls : List Call} {sent drawn : Nat} {st : State}
    (h : Reached s calls sent drawn st) : st.spinner = s := by
  cases h <;> rfl

/-- **The index of the frame to draw** is the number of those that were drawn. -/
theorem Reached.index_eq {s : Spinner} {calls : List Call} {sent drawn index : Nat} {st : State}
    (h : Reached s calls sent drawn st) {loop : Loop} (hloop : loop ∈ st.loops)
    (hphase : loop.phase = .drawing index) : index = drawn := by
  cases h with
  | fresh | unused => cases hloop
  | running hgo | stopping hgo | signalled hgo =>
    obtain rfl := List.mem_singleton.mp hloop
    rcases hgo with hdraws | ⟨hwaits, -⟩
    · rw [hphase] at hdraws
      cases hdraws
      rfl
    · rw [hphase] at hwaits
      cases hwaits
  | leaving | ended | finished =>
    obtain rfl := List.mem_singleton.mp hloop
    cases hphase

/-- **No choices make a loop fail.**  Whatever the choices are, the time between two ticks is
positive, so that a clock can be set to it, and there are frames.  In every state that any run of the
spinner leads to, the loop that is to draw a frame finds it, however many it has drawn; a counter of
64 bits finds the same one if fewer than 2^63 were drawn.  The frames and the time are those that were
supplied last, or the built-in ones: ten frames, every 100 milliseconds. -/
theorem make_never_fails (message : String) (choices : List Choice) :
    let s := make message choices
    0 < s.interval ∧ s.frames ≠ [] ∧
    (∀ events st, { spinner := s : State }.after? events = some st →
      0 < st.spinner.interval ∧
      ∀ loop ∈ st.loops, ∀ index, loop.phase = .drawing index →
        (∃ picture, st.spinner.frames[index % st.spinner.frames.length]? = some picture ∧
          st.spinner.frame index = picture) ∧
        index = events.countP Event.isDraw ∧
        (index < 0x8000000000000000 → st.spinner.frames.length < 0x8000000000000000 →
          st.spinner.place (Int64.ofNat index) =
            (index % st.spinner.frames.length : Nat))) ∧
    LastSupplied Choice.SuppliesFrames choices
      ["⠋", "⠙", "⠹", "⠸", "⠼", "⠴", "⠦", "⠧", "⠇", "⠏"] s.frames ∧
    LastSupplied Choice.SuppliesInterval choices 100000000 s.interval := by
  intro s
  have positive : 0 < s.interval := interval_make_pos message choices
  have nonempty : s.frames ≠ [] := frames_make_ne_nil message choices
  refine ⟨positive, nonempty, fun events st hrun => ?_, lastSupplied_frames message choices,
    lastSupplied_interval message choices⟩
  have hreached := Reached.fresh.after hrun
  rw [Nat.zero_add, Nat.zero_add] at hreached
  rw [hreached.spinner_eq]
  refine ⟨positive, fun loop hloop index hphase => ⟨?_, hreached.index_eq hloop hphase, place_ofNat⟩⟩
  exact ⟨s.frame index, getElem?_frame nonempty index, rfl⟩

/-- Times that are not positive in every way, and no frames: the second choice supplies the frames,
nothing supplies a time, and the loop that has drawn three of two frames finds the next. -/
theorem make_never_fails_wrapping :
    let s := make "wait" [.interval 0, .settings 9223372036855 ["a", "b"], .interval (-5),
      .settings 288230376151711744 [], .frames []]
    let events : List Event := .call .start :: .loop 0 .draw ::
      (frameEvents 2 ++ [.loop 0 .tick, .loop 0 .wake])
    s.interval = 100000000 ∧ s.frames = ["a", "b"] ∧
    ∃ st, { spinner := s : State }.after? events = some st ∧ ⟨.drawing 3, false⟩ ∈ st.loops ∧
      (∃ picture, st.spinner.frames[3 % st.spinner.frames.length]? = some picture ∧
        st.spinner.frame 3 = picture) ∧
      st.spinner.place (Int64.ofNat 3) = 1 := by
  intro s events
  obtain ⟨st, hst, hloop⟩ : ∃ st, { spinner := s : State }.after? events = some st ∧
      ⟨.drawing 3, false⟩ ∈ st.loops := ⟨_, rfl, List.mem_singleton_self _⟩
  obtain ⟨-, -, runs, -, -⟩ := make_never_fails "wait" [.interval 0,
    .settings 9223372036855 ["a", "b"], .interval (-5), .settings 288230376151711744 [], .frames []]
  obtain ⟨found, -, counted⟩ := (runs events st hst).2 _ hloop 3 rfl
  have two : st.spinner.frames.length = 2 := by
    rw [(Reached.fresh.after hst).spinner_eq]
    rfl
  rw [two] at counted
  exact ⟨by decide, by decide, st, hst, hloop, found, counted (by decide) (by decide)⟩

end SolidityTree.Spinner
