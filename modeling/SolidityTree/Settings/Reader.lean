import SolidityTree.Settings
import SolidityTree.Yaml.Resolve

/-!
# Reading settings

A reader of settings texts.  A key that is absent or null leaves its setting as it was, null is the empty
list where a list is read, and unknown keys are passed over.  A text is refused if it is no YAML or if
some value does not fit its key.

A mapping may ask for the entries of other mappings, which may do so, too.  Its own entries go first,
then those of the others in order, each followed by what IT asks for, and the first entry with a name is
the one that counts (`entriesOf`).

Not covered, besides what `SolidityTree.Yaml` leaves out: a name that is given twice in one mapping, once
by a reference, is refused even if it is none of a setting.

Contents
* §1  how a value fits a key
* §2  mappings
* §3  reading over settings
-/

namespace SolidityTree

namespace Settings

/-! ## 1. Values -/

/-- How a value fits a key. -/
inductive Fit (α : Type) where
  /-- The value is null and leaves things as they are. -/
  | absent
  | value (a : α)
  /-- The value is of the wrong type. -/
  | misfit
  /-- The value refers to itself or asks for an impossible merge. -/
  | broken

/-- A value with its references followed. -/
def follow : Yaml → Yaml
  | .alias _ target => follow target
  | v => v

/-- What a value stands for, if it is a text. -/
def resolved? (v : Yaml) : Option Yaml.Resolved :=
  match follow v with
  | .scalar true text => some (Yaml.resolve text)
  | .scalar false text => some (.text text)
  | _ => none

/-- Whether a value refers to itself. -/
def isLoop (v : Yaml) : Bool :=
  match follow v with
  | .loop _ => true
  | _ => false

/-- The smallest number, which stands for every fraction below the range. -/
def least : Int64 := Int64.minValue

/-- An integer. -/
def fitInt (v : Yaml) : Fit Int64 :=
  if isLoop v then .broken
  else
    match resolved? v with
    | some .null => .absent
    | some (.int i) => if i < 0x8000000000000000 then .value (Int64.ofInt i) else .misfit
    | some (.fraction i) =>
      if 0x8000000000000000 < i then .misfit
      else if -0x8000000000000000 ≤ i ∧ i < 0x8000000000000000 then .value (Int64.ofInt i)
      else .value least
    | some .negativeInfinity => .value least
    | _ => .misfit

/-- A truth value; besides `true` and `false` some words of everyday language, also between quotes. -/
def fitBool (v : Yaml) : Fit Bool :=
  if isLoop v then .broken
  else
    match resolved? v with
    | some .null => .absent
    | some (.bool b) => .value b
    | some (.text s) =>
      if ["y", "Y", "yes", "Yes", "YES", "on", "On", "ON"].contains s then .value true
      else if ["n", "N", "no", "No", "NO", "off", "Off", "OFF"].contains s then .value false
      else .misfit
    | _ => .misfit

/-- A text: any scalar as it is written. -/
def fitText (v : Yaml) : Fit String :=
  match follow v with
  | .scalar plain text => if plain && Yaml.resolve text = .null then .absent else .value text
  | .loop _ => .broken
  | _ => .misfit

/-- The texts of a list; null items are dropped. -/
def fitItems : List Yaml → Fit (List String)
  | [] => .value []
  | v :: rest =>
    match fitText v, fitItems rest with
    | .broken, _ | _, .broken => .broken
    | .misfit, _ | _, .misfit => .misfit
    | .absent, texts => texts
    | .value _, .absent => .absent
    | .value text, .value texts => .value (text :: texts)

/-- A list of texts; null is the empty list. -/
def fitTexts (v : Yaml) : Fit (List String) :=
  match follow v with
  | .seq items => fitItems items
  | .scalar plain text => if plain && Yaml.resolve text = .null then .value [] else .misfit
  | .loop _ => .broken
  | .map _ => .misfit
  | .alias _ _ => .broken

/-! ## 2. Mappings -/

/-- By what two keys of a mapping are told apart. -/
inductive KeyForm where
  | scalar (text : String)
  | alias (name : String)
  | seq
  | map
  deriving DecidableEq

/-- The form of a key. -/
def keyForm : Yaml → KeyForm
  | .scalar _ text => .scalar text
  | .alias name _ => .alias name
  | .loop name => .alias name
  | .seq _ => .seq
  | .map _ => .map

/-- Whether some key occurs twice. -/
def hasRepeat : List KeyForm → Bool
  | [] => false
  | k :: rest => rest.contains k || hasRepeat rest

/-- Whether a key asks for the entries of other mappings. -/
def isMerge : Yaml → Bool
  | .scalar true "<<" => true
  | _ => false

/-- The entries of a mapping by name, without merging; null keys are passed over. -/
def named : List (Yaml × Yaml) → Fit (List (String × Yaml))
  | [] => .value []
  | (k, v) :: rest =>
    if isMerge k then named rest
    else
      match fitText k, named rest with
      | .broken, _ | _, .broken => .broken
      | .misfit, _ | _, .misfit => .misfit
      | .absent, entries => entries
      | .value _, .absent => .absent
      | .value name, .value entries => .value ((name, v) :: entries)

/-- The entries of two mappings, one after the other. -/
def Fit.append {α : Type} : Fit (List α) → Fit (List α) → Fit (List α)
  | .broken, _ | _, .broken => .broken
  | .misfit, _ | _, .misfit => .misfit
  | .absent, entries => entries
  | entries, .absent => entries
  | .value entries, .value entries' => .value (entries ++ entries')

mutual

/-- The entries that a value brings to a merge.  It is a mapping or refers to one; if it is the value of
the key that asks for the merge, it may be a sequence of such values. -/
def brought (top : Bool) : Yaml → Fit (List (String × Yaml))
  | .map entries =>
    if hasRepeat (entries.map fun (k, _) => keyForm k) then .misfit
    else (named entries).append (broughtBy entries)
  | .alias _ target =>
    match target with
    | .map _ => brought top target
    | _ => .broken
  | .seq items => if top then broughtByAll items else .broken
  | .scalar _ _ => .broken
  | .loop _ => .broken

/-- The entries that a mapping asks for. -/
def broughtBy : List (Yaml × Yaml) → Fit (List (String × Yaml))
  | [] => .value []
  | (k, v) :: rest => if isMerge k then brought true v else broughtBy rest

/-- The entries that several values bring. -/
def broughtByAll : List Yaml → Fit (List (String × Yaml))
  | [] => .value []
  | v :: rest => (brought false v).append (broughtByAll rest)

end

/-- The entries of a mapping by name: its own, whose names differ, and those of the mappings merged
into it. -/
def entriesOf (entries : List (Yaml × Yaml)) : Fit (List (String × Yaml)) :=
  if hasRepeat (entries.map fun (k, _) => keyForm k) then .misfit
  else
    match named entries with
    | .value own =>
      if hasRepeat (own.map fun (name, _) => .scalar name) then Fit.misfit.append (broughtBy entries)
      else (Fit.value own).append (broughtBy entries)
    | other => other.append (broughtBy entries)

/-- The entries of a section by name. -/
def sectionOf (v : Yaml) : Fit (List (String × Yaml)) :=
  match follow v with
  | .map entries => entriesOf entries
  | .scalar plain text => if plain && Yaml.resolve text = .null then .absent else .misfit
  | .loop _ => .broken
  | .seq _ => .misfit
  | .alias _ _ => .broken

/-! ## 3. Reading -/

/-- The worse of two troubles: a value that cannot be followed before one that does not fit. -/
def ReadTrouble.worse : ReadTrouble → ReadTrouble → ReadTrouble
  | .misfit, .misfit => .misfit
  | _, _ => .broken

/-- Both results, or the worse of two troubles. -/
def both {α β : Type} (a : Except ReadTrouble α) (b : Except ReadTrouble β) :
    Except ReadTrouble (α × β) :=
  match a, b with
  | .ok a, .ok b => .ok (a, b)
  | .ok _, .error t => .error t
  | .error t, .ok _ => .error t
  | .error t, .error u => .error (t.worse u)

/-- The value of a key, or what was there before. -/
def field {α : Type} (entries : List (String × Yaml)) (name : String) (fit : Yaml → Fit α)
    (before : α) : Except ReadTrouble α :=
  match entries.find? fun (n, _) => n = name with
  | none => .ok before
  | some (_, v) =>
    match fit v with
    | .absent => .ok before
    | .value a => .ok a
    | .misfit => .error .misfit
    | .broken => .error .broken

/-- The entries of a section, none if it is left out. -/
def sectionIn (entries : List (String × Yaml)) (name : String) :
    Except ReadTrouble (List (String × Yaml)) :=
  field entries name sectionOf []

/-- Reads a value over settings. -/
def readOver (s : Settings) (v : Yaml) : Except ReadTrouble Settings := do
  let top ← field [("", v)] "" sectionOf []
  let tree := do
    let entries ← sectionIn top "ast"
    both (field entries "max_depth" fitInt s.maxDepth)
      (field entries "log_unknown" fitBool s.logUnknown)
  let spinner := do
    let entries ← sectionIn top "spinner"
    both (field entries "interval_ms" fitInt s.intervalMs) (field entries "frames" fitTexts s.frames)
  let log := do
    let entries ← sectionIn top "log"
    field entries "dir" fitText s.logDir
  let (((maxDepth, logUnknown), (intervalMs, frames)), logDir) ← both (both tree spinner) log
  return ⟨maxDepth, logUnknown, intervalMs, frames, logDir⟩

/-- Reads a text over settings. -/
def unmarshal : Unmarshal := fun text s =>
  match Yaml.parse? text with
  | none => .error .broken
  | some v => readOver s v

/-- The settings that a text gives, read by this reader. -/
def parse (text : Bytes) : Except Trouble Settings := parseBy unmarshal text

end Settings

end SolidityTree
