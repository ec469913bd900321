import SolidityTree.Settings

/-!
# What a YAML library promises

Settings are read by a library that is not a part of this program.  A `Library` is what can be said of one
from outside: which value a text has, what a value is to each type of setting, and what comes of reading
a text over settings.  `Library.Documented` joins the last to the others by what such a library says of
itself.

* A text that is malformed, or that has a value of a wrong type where a setting is read, is refused, and
  every other text is read (`malformed`, `misfit`, `fits`).
* A key that is left out leaves its setting as it was, and so does null, which is no value of any
  type; only a list becomes empty by it (`absent`, `null`, `nullFrames`).
* Any other value is taken (`value`).

Nothing is said of defaults, of empty lists or of ranges, which are this program's own.

Contents
* §1  the five settings
* §2  a library
* §3  what it promises
-/

namespace SolidityTree

/-! ## 1. The five settings -/

/-- The five settings. -/
inductive Setting where
  | maxDepth
  | logUnknown
  | intervalMs
  | frames
  | logDir
  deriving DecidableEq

namespace Setting

/-- What a setting has for a value. -/
def Value : Setting → Type
  | maxDepth | intervalMs => Int64
  | logUnknown => Bool
  | frames => List String
  | logDir => String

/-- Where a setting stands: under a key of a section. -/
def place : Setting → String × String
  | maxDepth => ("ast", "max_depth")
  | logUnknown => ("ast", "log_unknown")
  | intervalMs => ("spinner", "interval_ms")
  | frames => ("spinner", "frames")
  | logDir => ("log", "dir")

end Setting

namespace Settings

/-- The value of a setting. -/
def get (s : Settings) : (x : Setting) → x.Value
  | .maxDepth => s.maxDepth
  | .logUnknown => s.logUnknown
  | .intervalMs => s.intervalMs
  | .frames => s.frames
  | .logDir => s.logDir

theorem ext_get {s s' : Settings} (h : ∀ x, s.get x = s'.get x) : s = s' := by
  obtain ⟨maxDepth, logUnknown, intervalMs, frames, logDir⟩ := s
  obtain ⟨maxDepth', logUnknown', intervalMs', frames', logDir'⟩ := s'
  cases h .maxDepth
  cases h .logUnknown
  cases h .intervalMs
  cases h .frames
  cases h .logDir
  rfl

/-! ## 2. A library -/

/-- The value under a name: the first entry counts. -/
def valueOf? {α : Type} (entries : List (String × α)) (name : String) : Option α :=
  (entries.find? fun (n, _) => n = name).map Prod.snd

/-- A YAML library. -/
structure Library where
  /-- What a text or a part of it has for a value. -/
  Value : Type
  /-- The value of a text; `none` if the text is malformed. -/
  document? : Bytes → Option Value
  IsNull : Value → Prop
  /-- The entries of a mapping by name, with its references followed and other mappings merged into it. -/
  table? : Value → Option (List (String × Value))
  /-- The items of a sequence. -/
  items? : Value → Option (List Value)
  /-- The integer of 64 bits that a value writes. -/
  int? : Value → Option Int64
  bool? : Value → Option Bool
  /-- The text of a scalar. -/
  text? : Value → Option String
  /-- Reads a text over settings. -/
  unmarshal : Unmarshal

namespace Library

variable (lib : Library)

/-- A mapping, or null for an empty one. -/
def IsTable (v : lib.Value) : Prop := lib.IsNull v ∨ (lib.table? v).isSome

/-- The entries of a mapping; none for what is no mapping. -/
def entries (v : lib.Value) : List (String × lib.Value) := (lib.table? v).getD []

/-- The entries of a section, none if it is left out. -/
def sectionAt (v : lib.Value) (name : String) : List (String × lib.Value) :=
  ((valueOf? (lib.entries v) name).map lib.entries).getD []

/-- The value under a key of a section. -/
def lookUp? (v : lib.Value) (place : String × String) : Option lib.Value :=
  valueOf? (lib.sectionAt v place.1) place.2

/-- **What a value says as a list of texts**: its items are texts, and the null ones are dropped. -/
def SaysTexts (v : lib.Value) (texts : List String) : Prop :=
  ∃ items, lib.items? v = some items ∧
    (∀ item ∈ items, lib.IsNull item ∨ (lib.text? item).isSome) ∧ items.filterMap lib.text? = texts

/-- **What a value says for a setting.** -/
def Says : (x : Setting) → lib.Value → x.Value → Prop
  | .maxDepth, v, i | .intervalMs, v, i => lib.int? v = some i
  | .logUnknown, v, b => lib.bool? v = some b
  | .frames, v, texts => lib.SaysTexts v texts
  | .logDir, v, text => lib.text? v = some text

/-- **A value that fits the settings**: sections are mappings, and their keys have values of the right
type, unless they are null. -/
structure FitsFields (v : lib.Value) : Prop where
  document : lib.IsTable v
  sections : ∀ (x : Setting) table, valueOf? (lib.entries v) x.place.1 = some table →
    lib.IsTable table
  keys : ∀ (x : Setting) w, lib.lookUp? v x.place = some w → lib.IsNull w ∨ ∃ a, lib.Says x w a

/-! ## 3. What it promises -/

/-- **What a library says of itself**, of a text that is read over some settings. -/
structure Documented : Prop where
  /-- Null is no value of any type. -/
  null_apart : ∀ {v}, lib.IsNull v → lib.table? v = none ∧ lib.items? v = none ∧
    lib.int? v = none ∧ lib.bool? v = none ∧ lib.text? v = none
  /-- A malformed text is refused. -/
  malformed : ∀ {text}, lib.document? text = none →
    ∀ s, ∃ trouble, lib.unmarshal text s = .error trouble
  /-- So is a text with a value of a wrong type. -/
  misfit : ∀ {text v}, lib.document? text = some v → ¬ lib.FitsFields v →
    ∀ s, ∃ trouble, lib.unmarshal text s = .error trouble
  /-- Every other text is read. -/
  fits : ∀ {text v}, lib.document? text = some v → lib.FitsFields v →
    ∀ s, ∃ s', lib.unmarshal text s = .ok s'
  /-- What is left out stays as it was. -/
  absent : ∀ {text v s s'}, lib.document? text = some v → lib.unmarshal text s = .ok s' →
    ∀ {x : Setting}, lib.lookUp? v x.place = none → s'.get x = s.get x
  /-- Null leaves things as they were. -/
  null : ∀ {text v s s'}, lib.document? text = some v → lib.unmarshal text s = .ok s' →
    ∀ {x : Setting} {w}, x ≠ .frames → lib.lookUp? v x.place = some w → lib.IsNull w →
      s'.get x = s.get x
  /-- A list becomes empty by null. -/
  nullFrames : ∀ {text v s s'}, lib.document? text = some v → lib.unmarshal text s = .ok s' →
    ∀ {w}, lib.lookUp? v Setting.frames.place = some w → lib.IsNull w → s'.frames = []
  /-- Any other value is taken. -/
  value : ∀ {text v s s'}, lib.document? text = some v → lib.unmarshal text s = .ok s' →
    ∀ {x : Setting} {w a}, lib.lookUp? v x.place = some w → lib.Says x w a → s'.get x = a

end Library

section Says

variable {lib : Library} {x : Setting} {v : lib.Value}

/-- A value says one thing at most. -/
theorem Library.Says.unique {a b : x.Value} (ha : lib.Says x v a) (hb : lib.Says x v b) : a = b := by
  cases x with
  | frames =>
    obtain ⟨items, hitems, -, rfl⟩ := ha
    obtain ⟨items', hitems', -, rfl⟩ := hb
    cases hitems.symm.trans hitems'
    rfl
  | _ => exact Option.some.inj (ha.symm.trans hb)

/-- What is of no type says nothing. -/
theorem Library.not_says {a : x.Value} (h : lib.items? v = none ∧ lib.int? v = none ∧
    lib.bool? v = none ∧ lib.text? v = none) : ¬ lib.Says x v a := by
  obtain ⟨hitems, hint, hbool, htext⟩ := h
  intro hgives
  cases x with
  | maxDepth | intervalMs => cases hint.symm.trans hgives
  | logUnknown => cases hbool.symm.trans hgives
  | frames =>
    obtain ⟨items, hsome, -⟩ := hgives
    cases hitems.symm.trans hsome
  | logDir => cases htext.symm.trans hgives

end Says

end Settings

end SolidityTree
