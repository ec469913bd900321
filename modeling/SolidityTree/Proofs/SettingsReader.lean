import SolidityTree.Proofs.SettingsLibrary
import SolidityTree.Proofs.SettingsValue

/-!
# A reader that keeps the promises of a library

`yaml` is the reader of `SolidityTree.Settings.Reader` as a library: its values, what they are to each
type of setting, and what is read over settings.  `documented_yaml` says that it keeps what is
promised of a library, by way of `readOver_eq_ok_iff`, which says what is read from a value without a
reader.

For this reader it can be said, too, what a NUMBER is that a setting takes: an integer, or a fraction
that is cut off (`writesNumber_of_int?`).  Of the numbers beyond 64 bits some are taken for the
smallest one (see `WritesLeast`), which is out of range for both settings that are numbers.

Contents
* §1  the reader as a library
* §2  mappings
* §3  values
* §4  reading over settings
* §5  the promises
* §6  numbers
-/

namespace SolidityTree

namespace Settings

/-! ## 1. The reader as a library -/

/-- The value that a fit gives. -/
def Fit.value? {α : Type} : Fit α → Option α
  | .value a => some a
  | _ => none

theorem Fit.value?_eq_some_iff {α : Type} {fit : Fit α} {a : α} :
    fit.value? = some a ↔ fit = .value a := by
  cases fit <;> simp [value?]

/-- The items of a sequence. -/
def itemsOf? (v : Yaml) : Option (List Yaml) :=
  match follow v with
  | .seq items => some items
  | _ => none

theorem itemsOf?_eq_some_iff {v : Yaml} {items : List Yaml} :
    itemsOf? v = some items ↔ follow v = .seq items := by
  unfold itemsOf?
  cases follow v <;> simp

/-- The reader. -/
abbrev yaml : Library where
  Value := Yaml
  document? := Yaml.parse?
  IsNull := IsNull
  table? v := (sectionOf v).value?
  items? := itemsOf?
  int? v := (fitInt v).value?
  bool? v := (fitBool v).value?
  text? := text?
  unmarshal := unmarshal

/-! ## 2. Mappings -/

theorem named_ne_absent : ∀ entries, named entries ≠ .absent
  | [] => nofun
  | (k, v) :: rest => by
    have ih := named_ne_absent rest
    rw [named]
    split
    · exact ih
    · cases fitText k <;> cases h : named rest <;> simp_all

theorem Fit.append_ne_absent {α : Type} {fit : Fit (List α)} (h : fit ≠ .absent)
    (fit' : Fit (List α)) : fit.append fit' ≠ .absent := by
  cases fit with
  | absent => exact absurd rfl h
  | _ => cases fit' <;> nofun

theorem entriesOf_ne_absent (entries : List (Yaml × Yaml)) : entriesOf entries ≠ .absent := by
  unfold entriesOf
  split
  · nofun
  · split
    · split
      · exact Fit.append_ne_absent (by nofun) _
      · exact Fit.append_ne_absent (by nofun) _
    · exact Fit.append_ne_absent (named_ne_absent entries) _

/-- Only null is passed over as a mapping. -/
theorem sectionOf_eq_absent_iff {v : Yaml} : sectionOf v = .absent ↔ IsNull v := by
  unfold sectionOf
  split
  · next entries h => exact iff_of_false (entriesOf_ne_absent entries) (not_isNull (by simp [h]))
  · next plain text h =>
    rw [isNull_iff h]
    by_cases hnull : plain = true ∧ Yaml.resolve text = .null <;> simp [hnull]
  · next name h => exact iff_of_false nofun (not_isNull (by simp [h]))
  · next items h => exact iff_of_false nofun (not_isNull (by simp [h]))
  · next name target h => exact iff_of_false nofun (not_isNull (by simp [h]))

/-- What is no mapping has no entries. -/
theorem isTable_iff {v : Yaml} :
    yaml.IsTable v ↔ sectionOf v = .absent ∨ sectionOf v = .value (yaml.entries v) := by
  show IsNull v ∨ (sectionOf v).value?.isSome ↔ _ ∨ sectionOf v = .value ((sectionOf v).value?.getD [])
  rw [sectionOf_eq_absent_iff]
  cases h : sectionOf v <;> simp [Fit.value?]

/-! ## 3. Values -/

/-- A list of texts, null being the empty one. -/
theorem fitTexts_eq_value_iff_says {v : Yaml} {texts : List String} :
    fitTexts v = .value texts ↔ IsNull v ∧ texts = [] ∨ yaml.Says .frames v texts := by
  rw [fitTexts_eq_value_iff]
  exact or_congr_right (exists_congr fun _ => and_congr_left' itemsOf?_eq_some_iff.symm)

/-- A value other than a list is passed over if it is null, and taken for what it says if not. -/
theorem fits_says :
    Fits fitInt (yaml.Says .maxDepth) ∧ Fits fitBool (yaml.Says .logUnknown) ∧
      Fits fitText (yaml.Says .logDir) :=
  ⟨⟨fits_fitInt.absent, fun _ _ => Fit.value?_eq_some_iff.symm⟩,
    ⟨fits_fitBool.absent, fun _ _ => Fit.value?_eq_some_iff.symm⟩,
    ⟨fits_fitText.absent, fits_fitText.value⟩⟩

/-! ## 4. Reading over settings -/

section Field

variable {α : Type} {entries : List (String × Yaml)} {name : String} {fit : Yaml → Fit α}
  {before a : α}

/-- What is read under a name: what was there if nothing is, or if it is passed over. -/
theorem field_eq_ok_iff : field entries name fit before = .ok a ↔
    (valueOf? entries name).elim (a = before) fun v =>
      fit v = .absent ∧ a = before ∨ fit v = .value a := by
  unfold field valueOf?
  split
  · next h => simp [h, @eq_comm _ a]
  · next n v h =>
    rw [h, Option.map_some, Option.elim_some]
    cases fit v <;> simp [@eq_comm _ a]

end Field

/-- **A table** is read as its entries. -/
theorem field_sectionOf_eq_ok_iff {entries table : List (String × Yaml)} {name : String} :
    field entries name sectionOf [] = .ok table ↔
      (∀ v, valueOf? entries name = some v → yaml.IsTable v) ∧
        ((valueOf? entries name).map yaml.entries).getD [] = table := by
  rw [field_eq_ok_iff]
  cases valueOf? entries name with
  | none => simp [eq_comm]
  | some v =>
    simp only [Option.some.injEq, forall_eq', Option.map_some, Option.getD_some, Option.elim_some,
      isTable_iff]
    cases h : sectionOf v with
    | absent =>
      have hnone : yaml.entries v = [] := by
        show (sectionOf v).value?.getD [] = []
        rw [h]
        rfl
      simp [hnone, eq_comm]
    | value entries' =>
      have hsome : yaml.entries v = entries' := by
        show (sectionOf v).value?.getD [] = entries'
        rw [h]
        rfl
      simp [hsome]
    | misfit => simp
    | broken => simp

/-- **The value of a setting after reading**, given what stands under its key: what was there, or what is
said there.  Null makes the frames empty. -/
def Given (s : Settings) (x : Setting) : Option Yaml → x.Value → Prop
  | none, a => a = s.get x
  | some w, a => IsNull w ∧ a = ({ s with frames := [] } : Settings).get x ∨ yaml.Says x w a

/-- A setting other than the frames is read as it is given. -/
theorem field_eq_ok_iff_given {s : Settings} {x : Setting} {fit : Yaml → Fit x.Value}
    (fits : Fits fit (yaml.Says x)) (hx : x ≠ .frames) {v : Yaml} {a : x.Value} :
    field (yaml.sectionAt v x.place.1) x.place.2 fit (s.get x) = .ok a ↔
      Given s x (yaml.lookUp? v x.place) a := by
  have hget : ({ s with frames := [] } : Settings).get x = s.get x := by
    cases x with
    | frames => exact absurd rfl hx
    | _ => rfl
  rw [field_eq_ok_iff, Library.lookUp?]
  cases valueOf? (yaml.sectionAt v x.place.1) x.place.2 with
  | none => exact Iff.rfl
  | some w => simp only [Given, hget, fits.absent, fits.value, Option.elim_some]

/-- The frames are read as they are given. -/
theorem field_frames_iff_given {s : Settings} {v : Yaml} {texts : List String} :
    field (yaml.sectionAt v "spinner") "frames" fitTexts s.frames = .ok texts ↔
      Given s .frames (yaml.lookUp? v Setting.frames.place) texts := by
  rw [field_eq_ok_iff]
  show _ ↔ Given s .frames (valueOf? (yaml.sectionAt v "spinner") "frames") texts
  cases valueOf? (yaml.sectionAt v "spinner") "frames" with
  | none => exact Iff.rfl
  | some w =>
    simp only [fitTexts_ne_absent, false_and, false_or]
    exact fitTexts_eq_value_iff_says

theorem bind_eq_ok_iff {α β ε : Type} {x : Except ε α} {f : α → Except ε β} {b : β} :
    (x >>= f) = .ok b ↔ ∃ a, x = .ok a ∧ f a = .ok b := by
  cases x <;> simp [bind, Except.bind]

theorem both_eq_ok_iff {α β : Type} {x : Except ReadTrouble α} {y : Except ReadTrouble β} {a : α}
    {b : β} : both x y = .ok (a, b) ↔ x = .ok a ∧ y = .ok b := by
  cases x <;> cases y <;> simp [both]

/-- **What is read from a value over settings.** -/
theorem readOver_eq_ok_iff {s s' : Settings} {v : Yaml} : readOver s v = .ok s' ↔
    yaml.IsTable v ∧
    (∀ (x : Setting) table, valueOf? (yaml.entries v) x.place.1 = some table →
      yaml.IsTable table) ∧
    ∀ x, Given s x (yaml.lookUp? v x.place) (s'.get x) := by
  unfold readOver sectionIn
  simp only [bind_eq_ok_iff, field_sectionOf_eq_ok_iff, Prod.exists, both_eq_ok_iff]
  constructor
  · rintro ⟨_, ⟨document, rfl⟩, depth, unknown, time, texts, dir, ⟨⟨⟨_, ⟨hast, rfl⟩, hdepth, hunknown⟩,
      _, ⟨hspinner, rfl⟩, htime, htexts⟩, _, ⟨hlog, rfl⟩, hdir⟩, hs⟩
    cases hs
    refine ⟨document v rfl, fun x table htable => ?_, fun x => ?_⟩
    · cases x with
      | maxDepth | logUnknown => exact hast table htable
      | intervalMs | frames => exact hspinner table htable
      | logDir => exact hlog table htable
    · cases x with
      | maxDepth => exact (field_eq_ok_iff_given (x := .maxDepth) fits_says.1 nofun).mp hdepth
      | logUnknown =>
        exact (field_eq_ok_iff_given (x := .logUnknown) fits_says.2.1 nofun).mp hunknown
      | intervalMs => exact (field_eq_ok_iff_given (x := .intervalMs) fits_says.1 nofun).mp htime
      | frames => exact field_frames_iff_given.mp htexts
      | logDir => exact (field_eq_ok_iff_given (x := .logDir) fits_says.2.2 nofun).mp hdir
  · rintro ⟨document, sections, given⟩
    refine ⟨yaml.entries v, ⟨?_, rfl⟩, s'.maxDepth, s'.logUnknown, s'.intervalMs, s'.frames, s'.logDir,
      ⟨⟨⟨yaml.sectionAt v "ast", ⟨sections .maxDepth, rfl⟩, ?_, ?_⟩,
        yaml.sectionAt v "spinner", ⟨sections .frames, rfl⟩, ?_, ?_⟩,
        yaml.sectionAt v "log", ⟨sections .logDir, rfl⟩, ?_⟩, rfl⟩
    · rintro _ ⟨⟩
      exact document
    · exact (field_eq_ok_iff_given (x := .maxDepth) fits_says.1 nofun).mpr (given .maxDepth)
    · exact (field_eq_ok_iff_given (x := .logUnknown) fits_says.2.1 nofun).mpr (given .logUnknown)
    · exact (field_eq_ok_iff_given (x := .intervalMs) fits_says.1 nofun).mpr (given .intervalMs)
    · exact field_frames_iff_given.mpr (given .frames)
    · exact (field_eq_ok_iff_given (x := .logDir) fits_says.2.2 nofun).mpr (given .logDir)

/-! ## 5. The promises -/

/-- Settings may be given value by value. -/
theorem exists_get {P : (x : Setting) → x.Value → Prop} (h : ∀ x, ∃ a, P x a) :
    ∃ s : Settings, ∀ x, P x (s.get x) := by
  obtain ⟨maxDepth, hdepth⟩ := h .maxDepth
  obtain ⟨logUnknown, hunknown⟩ := h .logUnknown
  obtain ⟨intervalMs, hinterval⟩ := h .intervalMs
  obtain ⟨frames, hframes⟩ := h .frames
  obtain ⟨logDir, hdir⟩ := h .logDir
  refine ⟨⟨maxDepth, logUnknown, intervalMs, frames, logDir⟩, fun x => ?_⟩
  cases x <;> assumption

theorem unmarshal_of_some {text : Bytes} {v : Yaml} (hv : Yaml.parse? text = some v) (s : Settings) :
    unmarshal text s = readOver s v := by
  rw [unmarshal, hv]

theorem null_apart {v : Yaml} (h : IsNull v) :
    yaml.table? v = none ∧ yaml.items? v = none ∧ yaml.int? v = none ∧ yaml.bool? v = none ∧
      yaml.text? v = none := by
  have hitems : itemsOf? v = none := by
    obtain ⟨text, htext, -⟩ := h
    rw [itemsOf?, htext]
  refine ⟨?_, hitems, ?_, ?_, text?_of_isNull h⟩
  · exact congrArg Fit.value? (sectionOf_eq_absent_iff.mpr h)
  · exact congrArg Fit.value? ((fits_fitInt.absent v).mpr h)
  · exact congrArg Fit.value? ((fits_fitBool.absent v).mpr h)

/-- **The reader keeps its promises.** -/
theorem documented_yaml : yaml.Documented := by
  have given {text : Bytes} {v : Yaml} {s s' : Settings} (hv : Yaml.parse? text = some v)
      (hread : unmarshal text s = .ok s') (x : Setting) :
      Given s x (yaml.lookUp? v x.place) (s'.get x) :=
    (readOver_eq_ok_iff.mp ((unmarshal_of_some hv s).symm.trans hread)).2.2 x
  have apart {x : Setting} {v : Yaml} {a : x.Value} (hnull : IsNull v) : ¬ yaml.Says x v a :=
    Library.not_says (null_apart hnull).2
  constructor
  case null_apart => exact null_apart
  case malformed =>
    intro text hnone s
    have hnone : Yaml.parse? text = none := hnone
    refine ⟨.broken, ?_⟩
    show unmarshal text s = _
    rw [unmarshal, hnone]
  case misfit =>
    intro text v hv hmisfit s
    cases hread : unmarshal text s with
    | error trouble => exact ⟨trouble, hread⟩
    | ok s' =>
      obtain ⟨document, sections, -⟩ :=
        readOver_eq_ok_iff.mp ((unmarshal_of_some hv s).symm.trans hread)
      refine absurd ⟨document, sections, fun x w hw => ?_⟩ hmisfit
      have hgiven := given hv hread x
      rw [hw] at hgiven
      exact hgiven.imp And.left fun hgives => ⟨_, hgives⟩
  case fits =>
    intro text v hv fits s
    have hsettings : ∃ s' : Settings, ∀ x, Given s x (yaml.lookUp? v x.place) (s'.get x) := by
      refine exists_get fun x => ?_
      cases hw : yaml.lookUp? v x.place with
      | none => exact ⟨_, rfl⟩
      | some w =>
        rcases fits.keys x w hw with hnull | ⟨a, ha⟩
        · exact ⟨_, .inl ⟨hnull, rfl⟩⟩
        · exact ⟨a, .inr ha⟩
    obtain ⟨s', hs'⟩ := hsettings
    refine ⟨s', (unmarshal_of_some hv s).trans ?_⟩
    exact readOver_eq_ok_iff.mpr ⟨fits.document, fits.sections, hs'⟩
  case absent =>
    intro text v s s' hv hread x hnone
    have hgiven := given hv hread x
    rw [hnone] at hgiven
    exact hgiven
  case null =>
    intro text v s s' hv hread x w hx hw hnull
    have hgiven := given hv hread x
    rw [hw] at hgiven
    have hkept := (hgiven.resolve_right (apart hnull)).2
    cases x with
    | frames => exact absurd rfl hx
    | _ => exact hkept
  case nullFrames =>
    intro text v s s' hv hread w hw hnull
    have hgiven := given hv hread .frames
    rw [hw] at hgiven
    exact (hgiven.resolve_right (apart hnull)).2
  case value =>
    intro text v s s' hv hread x w a hw hgives
    have hgiven := given hv hread x
    rw [hw] at hgiven
    exact (hgiven.resolve_left fun hnull => apart hnull.1 hgives).unique hgives

/-! ## 6. Numbers -/

/-- **In range a number is taken for what is written.** -/
theorem writesNumber_of_int? {v : Yaml} {i : Int64} (h : yaml.int? v = some i) (hi : 0 ≤ i) :
    WritesNumber v i.toInt := by
  rcases (fits_fitInt.value v i).mp (Fit.value?_eq_some_iff.mp h) with hwrites | ⟨-, rfl⟩
  · exact hwrites
  · exact absurd hi (by decide)

end Settings

end SolidityTree
