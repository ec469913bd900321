import SolidityTree.Settings

/-!
# Spinners

While some work goes on, a spinner draws frames over one another on a terminal, and when the work is
done it clears the line and may leave a last text on it.

A spinner is drawn by a loop that runs beside its caller.  The loop draws a frame and then waits: for
a tick of its clock, after which it draws the next frame, or for the signal to stop, which it may take
late even if it is there.  The caller makes one call after the other.  A stop sends the signal, for
which there is a single place, and comes back when the loop says that it has ended.

The two take their steps in any order.  `State.next?` is one step of either of them or of a clock,
and `none` if the step is not possible: a caller cannot send to a place that is taken, and a loop
cannot take a signal that is not there.  Nothing in it limits the number of loops.

Contents
* §1  what a spinner looks like
* §2  choices
* §3  frames
* §4  the caller and its loops
* §5  single steps
* §6  a spinner around some work
* §7  steps without delay
-/

namespace SolidityTree

/-! ## 1. Spinners -/

/-- A spinner: what it shows and how fast. -/
structure Spinner where
  message : String
  frames : List String := ["⠋", "⠙", "⠹", "⠸", "⠼", "⠴", "⠦", "⠧", "⠇", "⠏"]
  /-- The time between two ticks, in nanoseconds. -/
  interval : Int64 := Settings.nanoseconds 100
  color : Bool := true
  deriving DecidableEq

namespace Spinner

/-! ## 2. Choices -/

/-- A choice about a spinner. -/
inductive Choice where
  | frames (frames : List String)
  /-- The time between two ticks, in nanoseconds. -/
  | interval (nanoseconds : Int64)
  | color (on : Bool)
  /-- What the settings say, the time being in milliseconds. -/
  | settings (milliseconds : Int64) (frames : List String)
  deriving DecidableEq

/-- Other frames; no frames at all are no choice. -/
def withFrames (s : Spinner) (frames : List String) : Spinner :=
  if frames.isEmpty then s else { s with frames := frames }

/-- Another time between two ticks; a time that is not positive is no choice. -/
def withInterval (s : Spinner) (nanoseconds : Int64) : Spinner :=
  if 0 < nanoseconds then { s with interval := nanoseconds } else s

@[simp] theorem message_withFrames (s : Spinner) (frames : List String) :
    (s.withFrames frames).message = s.message := by
  unfold withFrames
  split <;> rfl

@[simp] theorem message_withInterval (s : Spinner) (nanoseconds : Int64) :
    (s.withInterval nanoseconds).message = s.message := by
  unfold withInterval
  split <;> rfl

@[simp] theorem frames_withInterval (s : Spinner) (nanoseconds : Int64) :
    (s.withInterval nanoseconds).frames = s.frames := by
  unfold withInterval
  split <;> rfl

/-- Follows a choice. -/
def choose (s : Spinner) : Choice → Spinner
  | .frames frames => s.withFrames frames
  | .interval nanoseconds => s.withInterval nanoseconds
  | .color on => { s with color := on }
  | .settings milliseconds frames =>
    (s.withFrames frames).withInterval (Settings.nanoseconds milliseconds)

/-- The spinner for a message, with choices made one after the other. -/
def make (message : String) (choices : List Choice) : Spinner :=
  choices.foldl choose { message := message }

/-! ## 3. Frames -/

/-- Clears the line of the terminal. -/
def clearLine : String := "\r\x1b[K"

/-- Ends a color. -/
def endColor : String := "\x1b[0m"

/-- The color of frames. -/
def cyan : String := "\x1b[36m"

/-- The color of failure. -/
def red : String := "\x1b[31m"

/-- The color of success. -/
def green : String := "\x1b[32m"

/-- A text in a color, if the spinner has colors. -/
def paint (s : Spinner) (color text : String) : String :=
  if s.color then color ++ text ++ endColor else text

/-- The frame with an index; the frames come in turn. -/
def frame (s : Spinner) (index : Nat) : String := (s.frames[index % s.frames.length]?).getD ""

/-- The drawing of the frame with an index: it replaces what is on the line. -/
def drawing (s : Spinner) (index : Nat) : String :=
  clearLine ++ s.paint cyan (s.frame index ++ " " ++ s.message)

/-- A last text on a line of its own; none if it is empty. -/
def lastLine (final : String) : String := if final = "" then "" else final ++ "\n"

/-! ## 4. The caller and its loops -/

/-- What a loop does next. -/
inductive Phase where
  /-- It draws the frame with an index. -/
  | drawing (index : Nat)
  /-- It waits, for a tick or for the signal to stop; the index is that of the next frame. -/
  | choosing (index : Nat)
  /-- It has taken the signal and has some texts left to write. -/
  | leaving (texts : List String)
  /-- It has ended. -/
  | ended
  deriving DecidableEq

/-- A loop that was started. -/
structure Loop where
  phase : Phase := .drawing 0
  /-- Its clock has ticked since it last took notice, once or more often. -/
  ticked : Bool := false
  deriving DecidableEq

/-- What a caller may ask for. -/
inductive Call where
  | start
  | stop (final : String)
  deriving DecidableEq

/-- Where the caller stands. -/
inductive Caller where
  /-- Between two calls. -/
  | free
  /-- In a stop, about to send the signal with the last text. -/
  | sending (final : String)
  /-- In a stop, until a loop has ended. -/
  | waiting
  deriving DecidableEq

/-- A spinner at work. -/
structure State where
  spinner : Spinner
  caller : Caller := .free
  started : Bool := false
  stopped : Bool := false
  /-- The place for the signal to stop, with the last text. -/
  signal : Option String := none
  /-- All loops that were started. -/
  loops : List Loop := []
  /-- A loop has said that it has ended. -/
  done : Bool := false
  /-- All that was written to the terminal. -/
  output : String := ""
  deriving DecidableEq

/-! ## 5. Single steps -/

/-- A step of a loop or of its clock. -/
inductive Move where
  /-- The clock ticks. -/
  | tick
  /-- The loop draws its frame. -/
  | draw
  /-- The loop takes notice of a tick. -/
  | wake
  /-- The loop takes the signal to stop. -/
  | receive
  /-- The loop writes a text that is left, or ends. -/
  | leave
  deriving DecidableEq

/-- What can happen to a spinner. -/
inductive Event where
  | call (call : Call)
  /-- The caller sends the signal. -/
  | send
  /-- The caller comes back from a stop. -/
  | back
  /-- The loop with an index, or its clock, makes a step. -/
  | loop (index : Nat) (move : Move)
  deriving DecidableEq

/-- The call that an event is. -/
def Event.call? : Event → Option Call
  | .call c => some c
  | _ => none

namespace State

/-- Writes a text to the terminal. -/
def write (st : State) (text : String) : State := { st with output := st.output ++ text }

/-- Puts a loop into another phase. -/
def enter (st : State) (index : Nat) (loop : Loop) (phase : Phase) : State :=
  { st with loops := st.loops.set index { loop with phase := phase } }

/-- The caller makes a call.  A start begins a loop, unless the spinner was started or stopped.  A
stop goes on to send the signal if the spinner was started, and writes the last text itself
if not; once the spinner was stopped, it does nothing. -/
def call (st : State) : Call → State
  | .start =>
    if st.started || st.stopped then st
    else { st with started := true, loops := st.loops ++ [{}] }
  | .stop final =>
    if st.stopped then st
    else if st.started then { st with stopped := true, caller := .sending final }
    else { st with stopped := true }.write (lastLine final)

/-- A step of a loop. -/
def move? (st : State) (index : Nat) (loop : Loop) : Move → Option State
  | .tick => some { st with loops := st.loops.set index { loop with ticked := true } }
  | .draw =>
    match loop.phase with
    | .drawing frame =>
      some ((st.write (st.spinner.drawing frame)).enter index loop (.choosing (frame + 1)))
    | _ => none
  | .wake =>
    match loop.phase, loop.ticked with
    | .choosing frame, true => some (st.enter index { loop with ticked := false } (.drawing frame))
    | _, _ => none
  | .receive =>
    match loop.phase, st.signal with
    | .choosing _, some final =>
      some ({ st with signal := none }.enter index loop (.leaving [clearLine, lastLine final]))
    | _, _ => none
  | .leave =>
    match loop.phase with
    | .leaving (text :: texts) => some ((st.write text).enter index loop (.leaving texts))
    | .leaving [] => some ({ st with done := true }.enter index loop .ended)
    | _ => none

/-- The state after an event; `none` if it cannot happen. -/
def next? (st : State) : Event → Option State
  | .call c => if st.caller = .free then some (st.call c) else none
  | .send =>
    match st.caller, st.signal with
    | .sending final, none => some { st with caller := .waiting, signal := some final }
    | _, _ => none
  | .back => if st.caller = .waiting ∧ st.done then some { st with caller := .free } else none
  | .loop index move => st.loops[index]?.bind fun loop => st.move? index loop move

/-- The state after some events; `none` if one of them cannot happen. -/
def after? (st : State) : List Event → Option State
  | [] => some st
  | event :: rest => (st.next? event).bind fun st' => st'.after? rest

end State

/-! ## 6. A spinner around some work -/

/-- The last text after work that went well or failed with an error. -/
def verdict (s : Spinner) : Option String → String
  | none => s.paint green ("✓ " ++ s.message)
  | some error => s.paint red ("✗ " ++ s.message ++ ": " ++ error)

/-- A spinner around some work: it is started, the work goes well or fails with an error, and it is
stopped.  Given is what happens during the work and from its end until the stop comes back.  The
result is all that was written, together with the error; `none` if this cannot happen. -/
def around (s : Spinner) (during : List Event) (failed : Option String) (late : List Event) :
    Option (String × Option String) := do
  let atWork ← { spinner := s : State }.after? (.call .start :: during)
  let st ← atWork.after? (.call (.stop (s.verdict failed)) :: late)
  if st.caller = .free ∧ ∀ event ∈ during ++ late, event.call? = none then
    some (st.output, failed)
  else none

/-! ## 7. Steps without delay -/

/-- The first loop draws some more frames. -/
def frameEvents (count : Nat) : List Event :=
  (List.replicate count [.loop 0 .tick, .loop 0 .wake, .loop 0 .draw]).flatten

/-- The first loop takes the signal to stop, and the caller comes back. -/
def stopEvents : List Event :=
  [.send, .loop 0 .receive, .loop 0 .leave, .loop 0 .leave, .loop 0 .leave, .back]

namespace State

/-- The state after those of some events that can happen, the others being passed over. -/
def play (st : State) (events : List Event) : State :=
  events.foldl (fun st event => (st.next? event).getD st) st

/-- The caller starts the spinner, and the loop draws its first frame. -/
def start (st : State) : State := st.play [.call .start, .loop 0 .draw]

/-- How many frames a loop that goes on has drawn. -/
def drawn? (st : State) : Option Nat :=
  match st.loops.head?.map Loop.phase with
  | some (.drawing frame) | some (.choosing frame) => some frame
  | _ => none

/-- The loop draws frames up to a number. -/
def drawTo (st : State) (count : Nat) : State :=
  match st.drawn? with
  | some drawn => st.play (frameEvents (count - drawn))
  | none => st

/-- The caller stops the spinner, and the loop ends. -/
def stop (st : State) (final : String) : State := st.play (.call (.stop final) :: stopEvents)

end State

end Spinner

end SolidityTree
