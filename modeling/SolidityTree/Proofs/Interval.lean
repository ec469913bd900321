import SolidityTree.Settings.Reader
import SolidityTree.Spinner

/-!
# How long the interval of accepted settings is

The settings give the time between two frames in milliseconds, and a clock takes it in nanoseconds.
Both are 64-bit integers, and the product wraps around.  The settings of a text are checked for an
interval that is not positive, but NOT for one that is too long.  So a text is accepted with an
interval whose nanoseconds are negative, or positive and far too few, and this module says exactly
from where on.

* `toInt_nanoseconds_eq_iff`: the nanoseconds of a positive time are right exactly up to `longest`,
  which is more than 292 years.
* `interval_make_concat`: a spinner takes up the interval of the settings if its nanoseconds are
  positive, and otherwise keeps the one that it had, without a word.

So up to `longest` a spinner ticks as the settings say, and beyond it NEVER does: it goes by the
wrapped product or by what it had before.

Contents
* §1  settings that are accepted
* §2  nanoseconds
* §3  the interval of a spinner
-/

namespace SolidityTree

/-! ## 1. Settings that are accepted -/

namespace Settings

/-- **What is in range.** -/
theorem outOfRange?_eq_none_iff {s : Settings} : s.outOfRange? = none ↔
    0 ≤ s.maxDepth ∧ 0 < s.intervalMs ∧ ∀ frame ∈ s.frames, frame ≠ "" := by
  have frames : s.frames.findIdx? (· = "") = none ↔ ∀ frame ∈ s.frames, frame ≠ "" := by
    simp [List.findIdx?_eq_none_iff]
  unfold outOfRange?
  split
  · next h => exact iff_of_false nofun fun hrange => Int64.not_lt.mpr hrange.1 h
  next hdepth =>
  split
  · next h => exact iff_of_false nofun fun hrange => Int64.not_le.mpr hrange.2.1 h
  next hinterval =>
  rw [and_iff_right (Int64.not_lt.mp hdepth), and_iff_right (Int64.not_le.mp hinterval), ← frames]
  cases s.frames.findIdx? (· = "") with
  | none => exact iff_of_true rfl rfl
  | some index => exact iff_of_false nofun nofun

/-- **When a text is accepted**: settings are read from it, and with the frames put right they are in
range. -/
theorem parseBy_eq_ok_iff {unmarshal : Unmarshal} {text : Bytes} {s : Settings} :
    parseBy unmarshal text = .ok s ↔
      ∃ read, unmarshal text default = .ok read ∧ read.withFrames = s ∧ s.outOfRange? = none := by
  have check_eq_ok_iff (read : Settings) :
      read.check = .ok s ↔ read = s ∧ s.outOfRange? = none := by
    unfold check
    cases hrange : read.outOfRange? with
    | some trouble =>
      refine iff_of_false nofun ?_
      rintro ⟨rfl, hnone⟩
      cases hrange.symm.trans hnone
    | none =>
      constructor
      · rintro ⟨⟩
        exact ⟨rfl, hrange⟩
      · rintro ⟨rfl, -⟩
        rfl
  unfold parseBy
  cases unmarshal text default with
  | error trouble => cases trouble <;> exact iff_of_false nofun (by rintro ⟨_, ⟨⟩, _⟩)
  | ok read => simp [check_eq_ok_iff]

/-! ## 2. Nanoseconds -/

/-- The longest time in milliseconds whose nanoseconds have 64 bits. -/
def longest : Int64 := 9223372036854

theorem toInt_nanoseconds (milliseconds : Int64) :
    (nanoseconds milliseconds).toInt = (milliseconds.toInt * 1000000).bmod Int64.size :=
  Int64.toInt_mul milliseconds 1000000

section Positive

variable {milliseconds : Int64}

/-- Beyond `longest` NO time of 64 bits has as many nanoseconds. -/
theorem toInt_lt_of_longest_lt (h : longest < milliseconds) (time : Int64) :
    time.toInt < milliseconds.toInt * 1000000 := by
  have hlong : longest.toInt = 9223372036854 := rfl
  have hlt := Int64.lt_iff_toInt_lt.mp h
  have hfits := Int64.toInt_lt time
  omega

/-- **Up to `longest` the product is right**, and beyond it wrong. -/
theorem toInt_nanoseconds_eq_iff (pos : 0 < milliseconds) :
    (nanoseconds milliseconds).toInt = milliseconds.toInt * 1000000 ↔ milliseconds ≤ longest := by
  constructor
  · intro heq
    refine Int64.not_lt.mp fun hlong => ?_
    exact absurd heq (Int.ne_of_lt (toInt_lt_of_longest_lt hlong _))
  · intro hle
    have hlong : longest.toInt = 9223372036854 := rfl
    have hle := Int64.le_iff_toInt_le.mp hle
    have hpos : 0 < milliseconds.toInt := Int64.lt_iff_toInt_lt.mp pos
    have hsize : Int64.size = 18446744073709551616 := rfl
    rw [toInt_nanoseconds]
    exact Int.bmod_eq_of_le (by omega) (by omega)

theorem nanoseconds_pos (pos : 0 < milliseconds) (h : milliseconds ≤ longest) :
    0 < nanoseconds milliseconds := by
  have hpos : 0 < milliseconds.toInt := Int64.lt_iff_toInt_lt.mp pos
  refine Int64.lt_iff_toInt_lt.mpr ?_
  rw [(toInt_nanoseconds_eq_iff pos).mpr h]
  exact Int.mul_pos hpos (by decide)

end Positive

end Settings

/-! ## 3. The interval of a spinner -/

namespace Spinner

/-- The last choice is followed after all others. -/
theorem make_concat (message : String) (before : List Choice) (choice : Choice) :
    make message (before ++ [choice]) = (make message before).choose choice := by
  rw [make, List.foldl_append]
  rfl

theorem interval_withFrames (s : Spinner) (frames : List String) :
    (s.withFrames frames).interval = s.interval := by
  unfold withFrames
  split <;> rfl

theorem interval_withInterval (s : Spinner) (nanoseconds : Int64) :
    (s.withInterval nanoseconds).interval =
      if 0 < nanoseconds then nanoseconds else s.interval := by
  unfold withInterval
  split <;> rfl

/-- A spinner takes up the interval of the settings if it is positive, and else keeps its own. -/
theorem interval_make_concat (message : String) (before : List Choice) (milliseconds : Int64)
    (frames : List String) :
    (make message (before ++ [.settings milliseconds frames])).interval =
      if 0 < Settings.nanoseconds milliseconds then Settings.nanoseconds milliseconds
      else (make message before).interval := by
  rw [make_concat, choose, interval_withInterval, interval_withFrames]

end Spinner

namespace Settings

/-- **The interval of settings that a text gives.**  It is positive in milliseconds.  In nanoseconds
it is what it should be exactly up to `longest`, and then it is positive; and exactly up to there a
spinner that goes by these settings, whatever was chosen for it before, ticks at that interval.
Beyond `longest` the nanoseconds are what is left of the product in 64 bits, and the spinner ticks
at that interval if it happens to be positive, and otherwise at the one that it had. -/
theorem interval_of_parse {text : Bytes} {s : Settings} (h : parse text = .ok s)
    (message : String) (before : List Spinner.Choice) :
    let exactly := s.intervalMs.toInt * 1000000
    let spinner := Spinner.make message (before ++ [.settings s.intervalMs s.frames])
    0 < s.intervalMs ∧
    (s.interval.toInt = exactly ↔ s.intervalMs ≤ longest) ∧
    (s.intervalMs ≤ longest → 0 < s.interval) ∧
    (spinner.interval.toInt = exactly ↔ s.intervalMs ≤ longest) ∧
    (longest < s.intervalMs → s.interval.toInt = exactly.bmod Int64.size ∧
      spinner.interval =
        if 0 < s.interval then s.interval else (Spinner.make message before).interval) := by
  intro exactly spinner
  obtain ⟨-, -, -, hrange⟩ := parseBy_eq_ok_iff.mp h
  have pos : 0 < s.intervalMs := (outOfRange?_eq_none_iff.mp hrange).2.1
  have ticks : spinner.interval =
      if 0 < s.interval then s.interval else (Spinner.make message before).interval :=
    Spinner.interval_make_concat message before s.intervalMs s.frames
  refine ⟨pos, toInt_nanoseconds_eq_iff pos, nanoseconds_pos pos, ⟨?_, ?_⟩,
    fun _ => ⟨toInt_nanoseconds s.intervalMs, ticks⟩⟩
  · -- not even an interval chosen before can be as long, so it does not matter which one it is
    intro heq
    refine Int64.not_lt.mp fun hlong => ?_
    exact absurd heq (Int.ne_of_lt (toInt_lt_of_longest_lt hlong _))
  · intro hle
    have positive : 0 < s.interval := nanoseconds_pos pos hle
    rw [ticks, if_pos positive]
    exact (toInt_nanoseconds_eq_iff pos).mpr hle

/-- A text that gives settings is accepted with them. -/
theorem parse_of_toOption {text : Bytes} {s : Settings} (h : (parse text).toOption = some s) :
    parse text = .ok s := by
  cases hp : parse text with
  | error trouble => simp [hp, Except.toOption] at h
  | ok s' => simpa [hp, Except.toOption] using h

/-- The longest interval that a spinner ticks at, in place of another one that was chosen before. -/
theorem interval_of_parse_longest :
    let s : Settings := { intervalMs := 9223372036854 }
    let spinner := Spinner.make "" [.interval 5, .settings s.intervalMs s.frames]
    parse (utf8 "spinner:\n  interval_ms: 9223372036854\n") = .ok s ∧
      0 < s.interval ∧ s.interval.toInt = 9223372036854000000 ∧
      spinner.interval.toInt = 9223372036854000000 := by
  intro s spinner
  have accepted : parse (utf8 "spinner:\n  interval_ms: 9223372036854\n") = .ok s :=
    parse_of_toOption (by decide +kernel)
  obtain ⟨-, exact_iff, positive, ticks_iff, -⟩ :=
    interval_of_parse accepted "" [.interval 5]
  have hle : s.intervalMs ≤ longest := by decide
  have product : s.intervalMs.toInt * 1000000 = 9223372036854000000 := by decide
  exact ⟨accepted, positive hle, (exact_iff.mpr hle).trans product,
    (ticks_iff.mpr hle).trans product⟩

/-- One millisecond more, and the interval is negative and passed over: the spinner ticks ten times
a second.  Twice as long, and it is positive again and less than half a millisecond. -/
theorem interval_wraps_of_parse :
    let s : Settings := { intervalMs := 9223372036855 }
    let s' : Settings := { intervalMs := 18446744073710 }
    parse (utf8 "spinner:\n  interval_ms: 9223372036855\n") = .ok s ∧
      s.interval.toInt ≠ s.intervalMs.toInt * 1000000 ∧ s.interval < 0 ∧
      (Spinner.make "" [.settings s.intervalMs s.frames]).interval = nanoseconds 100 ∧
    parse (utf8 "spinner:\n  interval_ms: 18446744073710\n") = .ok s' ∧
      s'.interval.toInt ≠ s'.intervalMs.toInt * 1000000 ∧
      (Spinner.make "" [.settings s'.intervalMs s'.frames]).interval = 448384 := by
  intro s s'
  have accepted : (parse (utf8 "spinner:\n  interval_ms: 9223372036855\n")).toOption = some s ∧
      (parse (utf8 "spinner:\n  interval_ms: 18446744073710\n")).toOption = some s' := by
    decide +kernel
  exact ⟨parse_of_toOption accepted.1, by decide, by decide, by decide,
    parse_of_toOption accepted.2, by decide, by decide⟩

end Settings

end SolidityTree
