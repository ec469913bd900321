import Mathlib.Data.List.Basic
import SolidityTree.Spinner

/-!
# What a spinner writes

A caller and the loops it has started take their steps in any order, and clocks tick at any moment.
This module says what is on the terminal after ANY such run, in terms of the calls alone.

`Reached s calls sent drawn st` lists the states that can be met, by how far the spinner has come: it
says after which calls each of them is met, how often the signal to stop was sent by then, and how many
frames were drawn.  Every event leads from one of these states to another (`Reached.step`), hence so
does every run, and the rest is read off the list:

* there is never more than one loop, since a start that begins one leaves the spinner started;
* a stop that sends finds the place for the signal free, since no stop got that far before;
* the loop draws its frames in turn, at least the first of them, and what it writes last is what the
  first stop has asked for;
* a spinner that was stopped without having been started writes that one text and nothing else.

A loop counts its frames by a natural number here.  Where the counter is an integer of 64 bits, it picks
the same frames as long as it does not wrap around (`place_ofNat`), that is, for the first 2^63
frames; the index of the last frame is one less than the number of frames that were drawn, which
every statement about them gives.

When a stop has come back, the spinner is `Settled`: no event adds to what was written.

That a stop does come back is a matter of the loop taking the signal at last, which it may put off as
long as its clock ticks.  What is shown here is that nothing can keep it from doing so
(`Reached.canReturn`): no run ends in a state where the caller waits for good.

Contents
* §1  frames
* §2  how far a spinner has come
* §3  one step
* §4  runs
* §5  coming back
* §6  what is written
-/

namespace SolidityTree.Spinner

/-! ## 1. Frames -/

/-- The drawings of the first frames, one after the other. -/
def drawings (s : Spinner) : Nat → String
  | 0 => ""
  | count + 1 => s.drawings count ++ s.drawing count

/-- All that is written by a spinner that is started and stopped: some frames, and then the line is
cleared for the last text. -/
def shown (s : Spinner) (count : Nat) (final : String) : String :=
  s.drawings count ++ (clearLine ++ lastLine final)

/-- What holds of a spinner without choices and is kept by every choice. -/
theorem make_invariant {P : Spinner → Prop} {message : String} (first : P { message := message })
    (step : ∀ s c, P s → P (s.choose c)) (choices : List Choice) : P (make message choices) :=
  List.foldlRecOn choices choose first fun s hs c _ => step s c hs

theorem message_make (message : String) (choices : List Choice) :
    (make message choices).message = message := by
  refine make_invariant (P := fun s => s.message = message) rfl ?_ choices
  intro s c hs
  cases c <;> simpa [choose] using hs

/-- No choice leaves a spinner without frames. -/
theorem frames_make_ne_nil (message : String) (choices : List Choice) :
    (make message choices).frames ≠ [] := by
  have keeps : ∀ (s : Spinner) frames, s.frames ≠ [] → (s.withFrames frames).frames ≠ [] := by
    intro s frames hs
    unfold withFrames
    split
    · exact hs
    · next h => simpa using h
  refine make_invariant (P := fun s => s.frames ≠ []) (by simp) ?_ choices
  intro s c hs
  cases c with
  | frames frames => exact keeps s frames hs
  | interval time => simpa [choose] using hs
  | color on => exact hs
  | settings time frames => simpa [choose] using keeps s frames hs

/-- There is a frame for every index. -/
theorem getElem?_frame {s : Spinner} (h : s.frames ≠ []) (index : Nat) :
    s.frames[index % s.frames.length]? = some (s.frame index) := by
  have hlt : index % s.frames.length < s.frames.length :=
    Nat.mod_lt index (List.length_pos_iff.mpr h)
  simp [frame, List.getElem?_eq_getElem hlt]

/-- The place among the frames that a counter of 64 bits picks: a remainder with the sign of the
counter, so that it is no place at all once the counter has wrapped around. -/
def place (s : Spinner) (counter : Int64) : Int := (counter % Int64.ofNat s.frames.length).toInt

/-- **A counter of 64 bits picks the frame with its index** as long as it does not wrap around. -/
theorem place_ofNat {s : Spinner} {index : Nat} (hindex : index < 0x8000000000000000)
    (hlength : s.frames.length < 0x8000000000000000) :
    s.place (Int64.ofNat index) = (index % s.frames.length : Nat) := by
  rw [place, Int64.toInt_mod, Int64.toInt_ofNat_of_lt hindex, Int64.toInt_ofNat_of_lt hlength]
  exact (Int.ofNat_tmod index s.frames.length).symm

example : ({ message := "wait" } : Spinner).place (Int64.ofNat 0x8000000000000000) = -8 := by decide

/-- The last texts of work that went well and of work that failed are told apart. -/
theorem verdict_eq_success_iff {s : Spinner} {failed : Option String} :
    s.verdict failed = s.paint green ("✓ " ++ s.message) ↔ failed = none := by
  cases failed with
  | none => simp [verdict]
  | some error =>
    refine iff_of_false (fun heq => ?_) nofun
    have hlist := congrArg String.toList heq
    cases hc : s.color <;> simp [verdict, paint, hc, red, green] at hlist

theorem lastLine_verdict (s : Spinner) (failed : Option String) :
    lastLine (s.verdict failed) = s.verdict failed ++ "\n" := by
  refine if_neg fun heq => ?_
  have hlist := congrArg String.toList heq
  cases failed <;> cases hc : s.color <;> simp [verdict, paint, hc, red, green] at hlist

/-! ## 2. How far a spinner has come -/

/-- The loop goes on and has drawn some frames; it waits only after it has drawn one. -/
def Loop.Goes (loop : Loop) (count : Nat) : Prop :=
  loop.phase = .drawing count ∨ loop.phase = .choosing count ∧ 0 < count

/-- Whether an event draws a frame. -/
def Event.isDraw : Event → Bool
  | .loop _ .draw => true
  | _ => false

/-- **The states of a run**, with the calls that were made, the number of signals that were sent and the
number of frames that were drawn. -/
inductive Reached (s : Spinner) : List Call → Nat → Nat → State → Prop
  | fresh : Reached s [] 0 0 { spinner := s }
  /-- It was stopped before it was started. -/
  | unused (final : String) (later : List Call) :
      Reached s (.stop final :: later) 0 0
        { spinner := s, stopped := true, output := lastLine final }
  | running {n count : Nat} {loop : Loop} : loop.Goes count →
      Reached s (List.replicate (n + 1) .start) 0 count
        { spinner := s, started := true, loops := [loop], output := s.drawings count }
  /-- The first stop is about to send the signal. -/
  | stopping {n count : Nat} {loop : Loop} {final : String} : loop.Goes count →
      Reached s (List.replicate (n + 1) .start ++ [.stop final]) 0 count
        { spinner := s, caller := .sending final, started := true, stopped := true,
          loops := [loop], output := s.drawings count }
  /-- The signal was sent and the loop has not taken it. -/
  | signalled {n count : Nat} {loop : Loop} {final : String} : loop.Goes count →
      Reached s (List.replicate (n + 1) .start ++ [.stop final]) 1 count
        { spinner := s, caller := .waiting, started := true, stopped := true,
          signal := some final, loops := [loop], output := s.drawings count }
  /-- The loop has taken the signal; what it has left to write is missing from the output. -/
  | leaving {n count : Nat} {texts : List String} {ticked : Bool} {output final : String} :
      0 < count → output ++ texts.foldr (· ++ ·) "" = s.shown count final →
      Reached s (List.replicate (n + 1) .start ++ [.stop final]) 1 count
        { spinner := s, caller := .waiting, started := true, stopped := true,
          loops := [⟨.leaving texts, ticked⟩], output := output }
  | ended {n count : Nat} {ticked : Bool} {final : String} : 0 < count →
      Reached s (List.replicate (n + 1) .start ++ [.stop final]) 1 count
        { spinner := s, caller := .waiting, started := true, stopped := true,
          loops := [⟨.ended, ticked⟩], done := true, output := s.shown count final }
  /-- The first stop has come back. -/
  | finished {n count : Nat} {ticked : Bool} {final : String} (later : List Call) : 0 < count →
      Reached s (List.replicate (n + 1) .start ++ .stop final :: later) 1 count
        { spinner := s, started := true, stopped := true,
          loops := [⟨.ended, ticked⟩], done := true, output := s.shown count final }

variable {s : Spinner} {calls : List Call} {sent drawn : Nat} {st st' : State}

/-! ## 3. One step -/

/-- **What a loop that goes on can do**: it draws frame after frame, and it may take the signal when
it has drawn one. -/
theorem Loop.Goes.move {loop : Loop} {count index : Nat} {m : Move} (h : loop.Goes count)
    (hloops : st.loops = [loop]) (houtput : st.output = st.spinner.drawings count)
    (hn : st.next? (.loop index m) = some st') :
    (∃ loop', loop'.Goes (count + [Event.loop index m].countP Event.isDraw) ∧
      st' = { st with
        loops := [loop']
        output := st.spinner.drawings (count + [Event.loop index m].countP Event.isDraw) }) ∨
    ∃ final, m = .receive ∧ st.signal = some final ∧ 0 < count ∧ st' = { st with
      signal := none, loops := [⟨.leaving [clearLine, lastLine final], loop.ticked⟩] } := by
  obtain ⟨phase, ticked⟩ := loop
  cases index with
  | succ index => simp [State.next?, hloops] at hn
  | zero =>
    replace hn : st.move? 0 ⟨phase, ticked⟩ m = some st' := by simpa [State.next?, hloops] using hn
    rcases h with rfl | ⟨rfl, hpos⟩
    · cases m with
      | tick =>
        cases hn
        exact .inl ⟨⟨.drawing count, true⟩, .inl rfl, by simp [hloops, ← houtput, Event.isDraw]⟩
      | draw =>
        cases hn
        refine .inl ⟨⟨.choosing (count + 1), ticked⟩, .inr ⟨rfl, count.succ_pos⟩, ?_⟩
        simp [State.enter, State.write, hloops, houtput, drawings, Event.isDraw]
      | wake | receive | leave => cases hn
    · cases m with
      | tick =>
        cases hn
        exact .inl ⟨⟨.choosing count, true⟩, .inr ⟨rfl, hpos⟩,
          by simp [hloops, ← houtput, Event.isDraw]⟩
      | wake =>
        cases ticked with
        | false => cases hn
        | true =>
          cases hn
          exact .inl ⟨⟨.drawing count, false⟩, .inl rfl,
            by simp [State.enter, hloops, ← houtput, Event.isDraw]⟩
      | receive =>
        cases hs : st.signal with
        | none => simp [State.move?, hs] at hn
        | some final =>
          refine .inr ⟨final, rfl, rfl, hpos, ?_⟩
          simpa [State.move?, hs, State.enter, hloops] using hn.symm
      | draw | leave => cases hn

theorem Reached.call (h : Reached s calls sent drawn st) (hfree : st.caller = .free) (c : Call) :
    Reached s (calls ++ [c]) sent drawn (st.call c) := by
  cases h with
  | fresh =>
    cases c with
    | start =>
      have hgo : Loop.Goes {} 0 := .inl rfl
      exact .running (n := 0) hgo
    | stop final => simpa [State.call, State.write] using Reached.unused final []
  | unused final later =>
    cases c with
    | start => exact .unused final (later ++ [.start])
    | stop final' => exact .unused final (later ++ [.stop final'])
  | running hgo =>
    cases c with
    | start =>
      rw [← List.replicate_succ']
      exact .running hgo
    | stop final => exact .stopping hgo
  | finished later hpos =>
    rw [List.append_assoc, List.cons_append]
    cases c with
    | start => exact .finished (later ++ [.start]) hpos
    | stop final' => exact .finished (later ++ [.stop final']) hpos
  | stopping | signalled | leaving | ended => cases hfree

theorem Reached.send (h : Reached s calls sent drawn st) (hn : st.next? .send = some st') :
    Reached s calls (sent + 1) drawn st' := by
  cases h with
  | stopping hgo =>
    cases hn
    exact .signalled hgo
  | _ => cases hn

theorem Reached.back (h : Reached s calls sent drawn st) (hn : st.next? .back = some st') :
    Reached s calls sent drawn st' := by
  cases h with
  | ended hpos =>
    cases hn
    exact .finished [] hpos
  | _ => simp [State.next?] at hn

theorem Reached.move (h : Reached s calls sent drawn st) {index : Nat} {m : Move}
    (hn : st.next? (.loop index m) = some st') :
    Reached s calls sent (drawn + [Event.loop index m].countP Event.isDraw) st' := by
  cases h with
  | fresh | unused => simp [State.next?] at hn
  | running hgo =>
    rcases hgo.move rfl rfl hn with ⟨loop', hgo', rfl⟩ | ⟨final, -, hs, -⟩
    · exact .running hgo'
    · cases hs
  | stopping hgo =>
    rcases hgo.move rfl rfl hn with ⟨loop', hgo', rfl⟩ | ⟨final, -, hs, -⟩
    · exact .stopping hgo'
    · cases hs
  | signalled hgo =>
    rcases hgo.move rfl rfl hn with ⟨loop', hgo', rfl⟩ | ⟨final, rfl, hs, hpos, rfl⟩
    · exact .signalled hgo'
    · cases hs
      exact .leaving hpos (by simp [shown, Event.isDraw])
  | @leaving n count texts ticked output final hpos hrest =>
    cases index with
    | succ index => simp [State.next?] at hn
    | zero =>
      cases m with
      | tick =>
        cases hn
        exact .leaving hpos hrest
      | leave =>
        cases texts with
        | nil =>
          cases hn
          simp only [List.foldr_nil, String.append_empty] at hrest
          subst hrest
          exact .ended hpos
        | cons text texts =>
          cases hn
          refine .leaving hpos ?_
          simpa [State.write, String.append_assoc, Event.isDraw] using hrest
      | draw | wake | receive => cases hn
  | ended hpos =>
    cases index with
    | succ index => simp [State.next?] at hn
    | zero =>
      cases m with
      | tick =>
        cases hn
        exact .ended hpos
      | draw | wake | receive | leave => cases hn
  | finished later hpos =>
    cases index with
    | succ index => simp [State.next?] at hn
    | zero =>
      cases m with
      | tick =>
        cases hn
        exact .finished later hpos
      | draw | wake | receive | leave => cases hn

/-- **Every step leads from one of the states to another.** -/
theorem Reached.step (h : Reached s calls sent drawn st) {e : Event} (hn : st.next? e = some st') :
    Reached s (calls ++ e.call?.toList) (sent + [e].count .send)
      (drawn + [e].countP Event.isDraw) st' := by
  cases e with
  | call c =>
    by_cases hfree : st.caller = .free
    · obtain rfl : st.call c = st' := by simpa [State.next?, hfree] using hn
      simpa [Event.call?, Event.isDraw] using h.call hfree c
    · simp [State.next?, hfree] at hn
  | send => simpa [Event.call?, Event.isDraw] using h.send hn
  | back => simpa [Event.call?, Event.isDraw] using h.back hn
  | loop index m => simpa [Event.call?] using h.move hn

/-! ## 4. Runs -/

theorem State.after?_cons {e : Event} {events : List Event} :
    st.after? (e :: events) = some st' ↔
      ∃ mid, st.next? e = some mid ∧ mid.after? events = some st' := by
  simp [State.after?, Option.bind_eq_some_iff]

/-- **Every run leads from one of the states to another.** -/
theorem Reached.after (h : Reached s calls sent drawn st) {events : List Event}
    (hn : st.after? events = some st') :
    Reached s (calls ++ events.filterMap Event.call?) (sent + events.count .send)
      (drawn + events.countP Event.isDraw) st' := by
  induction events generalizing calls sent drawn st with
  | nil =>
    cases hn
    simpa using h
  | cons e events ih =>
    obtain ⟨mid, hmid, hn⟩ := State.after?_cons.mp hn
    have := ih (h.step hmid) hn
    have hcalls : (e :: events).filterMap Event.call? =
        e.call?.toList ++ events.filterMap Event.call? := by
      cases hc : e.call? <;> simp [hc]
    have hsent : (e :: events).count .send = [e].count .send + events.count .send := by
      rw [← List.count_append, List.singleton_append]
    have hdrawn : (e :: events).countP Event.isDraw =
        [e].countP Event.isDraw + events.countP Event.isDraw := by
      rw [← List.countP_append, List.singleton_append]
    rwa [List.append_assoc, Nat.add_assoc, Nat.add_assoc, ← hcalls, ← hsent, ← hdrawn] at this

/-- The spinner was stopped, the caller is free and no loop goes on. -/
structure State.Settled (st : State) : Prop where
  free : st.caller = .free
  stopped : st.stopped = true
  ended : ∀ loop ∈ st.loops, loop.phase = .ended

/-- Only a clock can still tick. -/
theorem State.Settled.step (h : st.Settled) {e : Event} (hn : st.next? e = some st') :
    st'.Settled ∧ st'.output = st.output := by
  cases e with
  | call c =>
    have same : st.call c = st := by cases c <;> simp [State.call, h.stopped]
    obtain rfl : st = st' := by simpa [State.next?, h.free, same] using hn
    exact ⟨h, rfl⟩
  | send => simp [State.next?, h.free] at hn
  | back => simp [State.next?, h.free] at hn
  | loop index m =>
    obtain ⟨loop, hloop, hm⟩ := Option.bind_eq_some_iff.mp hn
    have hended := h.ended loop (List.mem_of_getElem? hloop)
    cases m with
    | tick =>
      cases hm
      refine ⟨⟨h.free, h.stopped, ?_⟩, rfl⟩
      intro l hl
      rcases List.mem_or_eq_of_mem_set hl with hl | rfl
      · exact h.ended l hl
      · exact hended
    | draw | wake | receive | leave => simp [State.move?, hended] at hm

/-- **A settled spinner writes nothing more.** -/
theorem State.Settled.output_after (h : st.Settled) {events : List Event}
    (hn : st.after? events = some st') : st'.output = st.output := by
  induction events generalizing st with
  | nil =>
    cases hn
    rfl
  | cons e events ih =>
    obtain ⟨mid, hmid, hn⟩ := State.after?_cons.mp hn
    obtain ⟨hsettled, hsame⟩ := h.step hmid
    exact (ih hsettled hn).trans hsame

/-! ## 5. Coming back -/

/-- The caller can become free without another call. -/
def State.CanReturn (st : State) : Prop :=
  ∃ events st', (∀ e ∈ events, e.call? = none) ∧ st.after? events = some st' ∧ st'.caller = .free

theorem State.CanReturn.of_free (h : st.caller = .free) : st.CanReturn := ⟨[], st, by simp, rfl, h⟩

theorem State.CanReturn.of_next {e : Event} (he : e.call? = none) (hn : st.next? e = some st')
    (h : st'.CanReturn) : st.CanReturn := by
  obtain ⟨events, last, hcalls, hlast, hfree⟩ := h
  refine ⟨e :: events, last, ?_, State.after?_cons.mpr ⟨st', hn, hlast⟩, hfree⟩
  intro e' he'
  rcases List.mem_cons.mp he' with rfl | he'
  · exact he
  · exact hcalls e' he'

/-- A loop that is leaving writes what is left, says that it has ended, and the caller comes back. -/
theorem canReturn_leaving (texts : List String) (ticked : Bool) (hwaits : st.caller = .waiting)
    (hloops : st.loops = [⟨.leaving texts, ticked⟩]) : st.CanReturn := by
  induction texts generalizing st with
  | nil =>
    refine .of_next (e := .loop 0 .leave) rfl (by simp [State.next?, hloops, State.move?]; rfl) ?_
    refine .of_next (e := .back) rfl (by simp [State.next?, State.enter, hwaits]; rfl) ?_
    exact .of_free rfl
  | cons text texts ih =>
    refine .of_next (e := .loop 0 .leave) rfl (by simp [State.next?, hloops, State.move?]; rfl) ?_
    exact ih hwaits (by simp [State.enter, State.write, hloops])

/-- A loop that goes on draws the frame that it is about to draw, and takes the signal. -/
theorem canReturn_signalled {loop : Loop} {count : Nat} {final : String} (h : loop.Goes count)
    (hwaits : st.caller = .waiting) (hsignal : st.signal = some final)
    (hloops : st.loops = [loop]) : st.CanReturn := by
  have waits : ∀ {st : State} (loop : Loop) {k : Nat}, loop.phase = .choosing k →
      st.caller = .waiting → st.signal = some final → st.loops = [loop] → st.CanReturn := by
    intro st loop k hphase hwaits hsignal hloops
    refine .of_next (e := .loop 0 .receive) rfl
      (by simp [State.next?, hloops, State.move?, hphase, hsignal]; rfl) ?_
    exact canReturn_leaving [clearLine, lastLine final] loop.ticked hwaits (by simp [State.enter])
  rcases h with hphase | ⟨hphase, -⟩
  · refine .of_next (e := .loop 0 .draw) rfl
      (by simp [State.next?, hloops, State.move?, hphase]; rfl) ?_
    exact waits { loop with phase := .choosing (count + 1) } rfl hwaits hsignal
      (by simp [State.enter, State.write, hloops])
  · exact waits loop hphase hwaits hsignal hloops

/-- **Nothing keeps a stop from coming back.** -/
theorem Reached.canReturn (h : Reached s calls sent drawn st) : st.CanReturn := by
  cases h with
  | fresh | unused | running | finished => exact .of_free rfl
  | stopping hgo => exact .of_next (e := .send) rfl rfl (canReturn_signalled hgo rfl rfl rfl)
  | signalled hgo => exact canReturn_signalled hgo rfl rfl rfl
  | leaving => exact canReturn_leaving _ _ rfl rfl
  | ended => exact .of_next (e := .back) rfl rfl (.of_free rfl)

/-! ## 6. What is written -/

theorem Reached.length_loops_le (h : Reached s calls sent drawn st) : st.loops.length ≤ 1 := by
  cases h <;> simp

theorem Reached.sent_le (h : Reached s calls sent drawn st) : sent ≤ 1 := by
  cases h <;> simp

/-- The caller sends and waits only if there is a loop, and finds the place for the signal free. -/
theorem Reached.of_not_free (h : Reached s calls sent drawn st) (hbusy : st.caller ≠ .free) :
    st.loops.length = 1 ∧ ∀ final, st.caller = .sending final → st.signal = none := by
  cases h with
  | fresh | unused | running | finished => exact absurd rfl hbusy
  | stopping => exact ⟨rfl, fun _ _ => rfl⟩
  | signalled | leaving | ended => exact ⟨rfl, nofun⟩

/-- Calls have one first stop. -/
theorem first_stop_unique {n m : Nat} {final final' : String} {later later' : List Call}
    (h : List.replicate n Call.start ++ .stop final :: later =
      List.replicate m .start ++ .stop final' :: later') :
    n = m ∧ final = final' ∧ later = later' := by
  induction n generalizing m with
  | zero => cases m <;> simp_all [List.replicate_succ]
  | succ n ih =>
    cases m with
    | zero => simp [List.replicate_succ] at h
    | succ m =>
      simp only [List.replicate_succ, List.cons_append, List.cons.injEq, true_and] at h
      obtain ⟨rfl, hrest⟩ := ih h
      exact ⟨rfl, hrest⟩

theorem stop_not_in_starts {n m : Nat} {final : String} {later : List Call} :
    List.replicate n Call.start ≠ List.replicate m .start ++ .stop final :: later := by
  intro h
  have hmem : Call.stop final ∈ List.replicate n Call.start := by simp [h]
  cases (List.mem_replicate.mp hmem).2

/-- **What is written by when the first stop has come back**, if it found the spinner started, and at
once if it did not. -/
theorem Reached.written {n : Nat} {final : String} {later : List Call}
    (h : Reached s (List.replicate n .start ++ .stop final :: later) sent drawn st) :
    (n = 0 → st.output = lastLine final) ∧
    (0 < n → st.caller = .free ∨ later ≠ [] →
      st.Settled ∧ 0 < drawn ∧ st.output = s.shown drawn final) := by
  generalize hcalls : List.replicate n Call.start ++ .stop final :: later = calls at h
  cases h with
  | fresh => simp at hcalls
  | unused final' later' =>
    obtain ⟨rfl, rfl, -⟩ := first_stop_unique (m := 0) hcalls
    exact ⟨fun _ => rfl, fun hn => absurd hn (Nat.lt_irrefl 0)⟩
  | running => exact absurd hcalls.symm stop_not_in_starts
  | stopping | signalled | leaving | ended =>
    obtain ⟨rfl, -, rfl⟩ := first_stop_unique hcalls
    exact ⟨nofun, by rintro - (hfree | hlater) <;> contradiction⟩
  | finished later' hpos =>
    obtain ⟨rfl, rfl, -⟩ := first_stop_unique hcalls
    refine ⟨nofun, fun _ _ => ⟨⟨rfl, rfl, ?_⟩, hpos, rfl⟩⟩
    simp

/-- Without a stop the caller is free. -/
theorem Reached.free_of_starts {n : Nat} (h : Reached s (List.replicate n .start) sent drawn st) :
    st.caller = .free := by
  generalize hcalls : List.replicate n Call.start = calls at h
  cases h with
  | stopping | signalled | leaving | ended => exact absurd hcalls stop_not_in_starts
  | fresh | unused | running | finished => rfl

/-- Events among which there is one call, the first. -/
theorem calls_of_quiet {c : Call} {events : List Event} (h : ∀ e ∈ events, e.call? = none) :
    (Event.call c :: events).filterMap Event.call? = [c] := by
  rw [List.filterMap_cons_some (show (Event.call c).call? = some c from rfl),
    List.filterMap_eq_nil_iff.mpr h]

/-- **Around some work** a spinner is started and stopped, each once. -/
theorem reached_around {during late : List Event} {failed result : Option String} {output : String}
    (h : s.around during failed late = some (output, result)) :
    result = failed ∧ ∃ sent st, Reached s [.start, .stop (s.verdict failed)] sent
        ((during ++ late).countP Event.isDraw) st ∧
      st.caller = .free ∧ st.output = output := by
  simp only [around, Option.bind_eq_bind, Option.bind_eq_some_iff] at h
  obtain ⟨atWork, hwork, st, hst, hend⟩ := h
  split at hend
  · next hquiet =>
    obtain ⟨hfree, hcalls⟩ := hquiet
    cases hend
    have hreached := (Reached.fresh.after hwork).after hst
    rw [calls_of_quiet fun e he => hcalls e (List.mem_append_left _ he),
      calls_of_quiet fun e he => hcalls e (List.mem_append_right _ he)] at hreached
    have hdrawn : 0 + (Event.call .start :: during).countP Event.isDraw +
        (Event.call (.stop (s.verdict failed)) :: late).countP Event.isDraw =
          (during ++ late).countP Event.isDraw := by
      rw [List.countP_append, List.countP_cons, List.countP_cons]
      simp [Event.isDraw]
    exact ⟨rfl, _, st, hdrawn ▸ hreached, hfree, rfl⟩
  · cases hend

/-- Whatever happens during the work, the stop can come back. -/
theorem exists_around {during : List Event} (hquiet : ∀ e ∈ during, e.call? = none)
    {atWork : State} (hwork : { spinner := s : State }.after? (.call .start :: during) = some atWork)
    (failed : Option String) : ∃ late output, s.around during failed late = some (output, failed) := by
  have hreached := Reached.fresh.after hwork
  rw [calls_of_quiet hquiet] at hreached
  have hfree : atWork.caller = .free := hreached.free_of_starts (n := 1)
  have hstop : atWork.next? (.call (.stop (s.verdict failed))) =
      some (atWork.call (.stop (s.verdict failed))) := if_pos hfree
  obtain ⟨late, st, hlate, hst, hback⟩ := (hreached.step hstop).canReturn
  refine ⟨late, st.output, ?_⟩
  have hall : ∀ e ∈ during ++ late, e.call? = none := by
    intro e he
    rcases List.mem_append.mp he with he | he
    · exact hquiet e he
    · exact hlate e he
  simp only [around, Option.bind_eq_bind, Option.bind_eq_some_iff]
  exact ⟨atWork, hwork, st, State.after?_cons.mpr ⟨_, hstop, hst⟩, if_pos ⟨hback, hall⟩⟩

/-- **What a spinner writes**, whatever its choices are and in whatever order its caller, its loop and
the clock take their steps.

There is a frame for every index, and a counter of 64 bits picks it as long as it does not wrap around.
There is at most one loop, the signal is sent at most once and finds its place free, and the
caller waits only for a loop that was started and can always come back.  A spinner that is stopped
before it is started writes the last text of that first stop and nothing else.  One that is
started and then stopped has written, when this first stop has come back, the frames that were drawn,
one or more in turn, and after them it has cleared the line for the last text; nothing is added
later.

Around some work the last text is the verdict on it, and the error of the work is handed on. -/
theorem run_writes (message : String) (choices : List Choice) :
    let s := make message choices
    (∀ index, (∃ picture, s.frames[index % s.frames.length]? = some picture ∧
        s.drawing index = clearLine ++ s.paint cyan (picture ++ " " ++ message)) ∧
      (index < 0x8000000000000000 → s.frames.length < 0x8000000000000000 →
        s.place (Int64.ofNat index) = (index % s.frames.length : Nat))) ∧
    (∀ events st, { spinner := s : State }.after? events = some st →
      st.loops.length ≤ 1 ∧ events.count .send ≤ 1 ∧ st.CanReturn ∧
      (st.caller ≠ .free →
        st.loops.length = 1 ∧ ∀ final, st.caller = .sending final → st.signal = none) ∧
      ∀ n final later,
        events.filterMap Event.call? = List.replicate n .start ++ .stop final :: later →
        (n = 0 → st.output = lastLine final) ∧
        (0 < n → st.caller = .free ∨ later ≠ [] →
          (∃ count, 0 < count ∧ count = events.countP Event.isDraw ∧
            st.output = s.drawings count ++ (clearLine ++ lastLine final)) ∧
          ∀ more st', st.after? more = some st' → st'.output = st.output)) ∧
    ∀ during failed,
      (∀ late output result, s.around during failed late = some (output, result) →
        result = failed ∧ ∃ count, 0 < count ∧ count = (during ++ late).countP Event.isDraw ∧
          output = s.drawings count ++ (clearLine ++ (s.verdict failed ++ "\n"))) ∧
      (s.verdict failed = s.paint green ("✓ " ++ message) ↔ failed = none) ∧
      (∀ error, failed = some error →
        s.verdict failed = s.paint red ("✗ " ++ message ++ ": " ++ error)) ∧
      ∀ atWork, (∀ e ∈ during, e.call? = none) →
        { spinner := s : State }.after? (.call .start :: during) = some atWork →
        ∃ late output, s.around during failed late = some (output, failed) := by
  intro s
  have hmessage : s.message = message := message_make message choices
  refine ⟨?_, ?_, ?_⟩
  · intro index
    refine ⟨⟨s.frame index, getElem?_frame (frames_make_ne_nil message choices) index, ?_⟩,
      place_ofNat⟩
    rw [drawing, hmessage]
  · intro events st hrun
    have hreached := Reached.fresh.after hrun
    rw [List.nil_append, Nat.zero_add, Nat.zero_add] at hreached
    refine ⟨hreached.length_loops_le, hreached.sent_le, hreached.canReturn,
      hreached.of_not_free, ?_⟩
    intro n final later hcalls
    rw [hcalls] at hreached
    refine ⟨hreached.written.1, fun hn hback => ?_⟩
    obtain ⟨hsettled, hpos, hshown⟩ := hreached.written.2 hn hback
    exact ⟨⟨_, hpos, rfl, hshown⟩, fun more st' hmore => hsettled.output_after hmore⟩
  · intro during failed
    refine ⟨?_, ?_, ?_, ?_⟩
    · intro late output result h
      obtain ⟨rfl, sent, st, hreached, hfree, rfl⟩ := reached_around h
      obtain ⟨-, hpos, hshown⟩ := (hreached.written (n := 1)).2 Nat.one_pos (.inl hfree)
      exact ⟨rfl, _, hpos, rfl, by rw [hshown, shown, lastLine_verdict]⟩
    · rw [← hmessage]
      exact verdict_eq_success_iff
    · rintro error rfl
      rw [verdict, hmessage]
    · intro atWork hquiet hwork
      exact exists_around hquiet hwork failed

/-- The clock ticks between the signal and its reception, so a second frame is drawn although the
signal is there; a start and a stop after that add nothing. -/
theorem run_writes_late_tick :
    let s := make "wait" [.frames ["a", "b"], .color false]
    let events : List Event :=
      [.call .start, .loop 0 .draw, .call (.stop "done"), .send, .loop 0 .tick, .loop 0 .wake,
        .loop 0 .draw, .loop 0 .receive, .loop 0 .leave, .loop 0 .leave, .loop 0 .leave, .back,
        .call .start, .call (.stop "again")]
    ∃ st, { spinner := s : State }.after? events = some st ∧
      st.output = "\r\x1b[Ka wait\r\x1b[Kb wait\r\x1b[Kdone\n" ∧
      (∃ count, 0 < count ∧ count = events.countP Event.isDraw ∧
        st.output = s.drawings count ++ (clearLine ++ lastLine "done")) ∧
      ∀ more st', st.after? more = some st' → st'.output = st.output := by
  intro s events
  obtain ⟨st, hst, houtput⟩ : ∃ st, { spinner := s : State }.after? events = some st ∧
      st.output = "\r\x1b[Ka wait\r\x1b[Kb wait\r\x1b[Kdone\n" := by
    refine ⟨_, rfl, ?_⟩
    decide +kernel
  obtain ⟨-, hruns, -⟩ := run_writes "wait" [.frames ["a", "b"], .color false]
  obtain ⟨-, -, -, -, hwritten⟩ := hruns events st hst
  have hdone := (hwritten 1 "done" [.start, .stop "again"] rfl).2 Nat.one_pos (.inr (by simp))
  exact ⟨st, hst, houtput, hdone⟩

end SolidityTree.Spinner
