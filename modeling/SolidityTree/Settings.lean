import SolidityTree.Text.Decimal

/-!
# Settings

Five settings in three sections, written in YAML.  A library reads a text OVER settings: what the text
says nothing of stays as it is.  So a text is read over the defaults, and as an empty list of frames
counts as none, the frames are put right afterwards.  Last it is seen whether the settings are in range;
if they are not, the text is refused with the first value that is out of it.

The library is not a part of this program and is an argument here (`Unmarshal`).
`SolidityTree.Settings.Reader` has one.

Contents
* §1  settings and their defaults
* §2  ranges
* §3  texts
-/

namespace SolidityTree

/-! ## 1. Settings -/

/-- The settings. -/
structure Settings where
  /-- The greatest depth of a node; 0 is no limit. -/
  maxDepth : Int64 := 0
  /-- Whether nodes of unregistered tags are logged. -/
  logUnknown : Bool := true
  /-- The time between two frames of a spinner, in milliseconds. -/
  intervalMs : Int64 := 100
  /-- The frames of a spinner. -/
  frames : List String := ["-", "\\", "|", "/"]
  /-- The directory of the log files. -/
  logDir : String := "logs"
  deriving DecidableEq

namespace Settings

/-- The settings of a text that says nothing. -/
def default : Settings := {}

/-- A time in nanoseconds, in 64 bits that wrap around. -/
def nanoseconds (milliseconds : Int64) : Int64 := milliseconds * 1000000

/-- The time between two frames in nanoseconds. -/
def interval (s : Settings) : Int64 := nanoseconds s.intervalMs

/-! ## 2. Ranges -/

/-- Why settings are out of range. -/
inductive RangeTrouble where
  | depth (value : Int64)
  | interval (value : Int64)
  | emptyFrame (index : Nat)
  deriving DecidableEq

/-- The first value that is out of range: the depth, then the interval, then a frame. -/
def outOfRange? (s : Settings) : Option RangeTrouble :=
  if s.maxDepth < 0 then some (.depth s.maxDepth)
  else if s.intervalMs ≤ 0 then some (.interval s.intervalMs)
  else
    match s.frames.findIdx? (· = "") with
    | some index => some (.emptyFrame index)
    | none => none

/-- What is out of range. -/
def RangeTrouble.message : RangeTrouble → String
  | depth value => "ast.max_depth must be >= 0, got " ++ Decimal.write value
  | interval value => "spinner.interval_ms must be > 0, got " ++ Decimal.write value
  | emptyFrame index => "spinner.frames[" ++ Decimal.writeNat index ++ "] is empty"

/-! ## 3. Texts -/

/-- Why no settings can be read from a text. -/
inductive ReadTrouble where
  /-- Some value does not fit its key. -/
  | misfit
  /-- The text is no YAML, or a value cannot be followed. -/
  | broken
  deriving DecidableEq

/-- How a text is read over settings. -/
abbrev Unmarshal := Bytes → Settings → Except ReadTrouble Settings

/-- The same settings; no frames at all are the default ones. -/
def withFrames (s : Settings) : Settings :=
  if s.frames.isEmpty then { s with frames := default.frames } else s

/-- Why a text gives no settings. -/
inductive Trouble where
  /-- The text is no YAML. -/
  | malformed
  /-- Some value does not fit its key. -/
  | misfit
  | outOfRange (trouble : RangeTrouble)
  deriving DecidableEq

/-- Settings that are in range. -/
def check (s : Settings) : Except Trouble Settings :=
  match s.outOfRange? with
  | some trouble => .error (.outOfRange trouble)
  | none => .ok s

/-- The settings that a text gives. -/
def parseBy (unmarshal : Unmarshal) (text : Bytes) : Except Trouble Settings :=
  match unmarshal text default with
  | .error .broken => .error .malformed
  | .error .misfit => .error .misfit
  | .ok s => s.withFrames.check

end Settings

end SolidityTree
