import Mathlib
import SolidityTree.Proofs.Interval
import SolidityTree.Proofs.SettingsReader

/-!
# Which settings a text gives

Settings start from the defaults, and a library reads the keys of a text over them.  What comes out of
this is said here key by key, by the RESOLVED mapping of a text: with its references followed, and with
other mappings merged into it.

* `Unset v x`: the key of a setting is left out, or says nothing.
* `Filled v s`: every unset setting of `s` has its default, and every other one has what its key says.
  There is one such `s` if the values fit (`exists_filled`), and so each setting depends on its own
  key alone (`Filled.get_eq`).
* `FirstOutOfRange s trouble words`: the first of the settings that is out of range, and what is said
  of it.

All of this is so for every library that keeps its promises (`Library.Documented`).

Contents
* §1  settings that are left unset
* §2  filling in the defaults
* §3  ranges
* §4  texts
-/

namespace SolidityTree

namespace Settings

namespace Library

variable {lib : Library}

/-! ## 1. Settings that are left unset -/

/-- **A value that says nothing**: null, and for the frames also a list without any but null items. -/
def Silent (lib : Library) (x : Setting) (v : lib.Value) : Prop :=
  lib.IsNull v ∨ x = .frames ∧ lib.SaysTexts v []

/-- **A setting is left unset**: its section or its key is left out or null, or its key says
nothing. -/
inductive Unset (lib : Library) (v : lib.Value) (x : Setting) : Prop
  | noSection : valueOf? (lib.entries v) x.place.1 = none → Unset lib v x
  | nullSection {table : lib.Value} :
      valueOf? (lib.entries v) x.place.1 = some table → lib.IsNull table → Unset lib v x
  | noKey {table : lib.Value} : valueOf? (lib.entries v) x.place.1 = some table →
      valueOf? (lib.entries table) x.place.2 = none → Unset lib v x
  | silent {w : lib.Value} : lib.lookUp? v x.place = some w → lib.Silent x w → Unset lib v x

section Unset

variable {v v' : lib.Value} {x : Setting}

theorem lookUp?_of_section {table : lib.Value}
    (h : valueOf? (lib.entries v) x.place.1 = some table) :
    lib.lookUp? v x.place = valueOf? (lib.entries table) x.place.2 := by
  rw [lookUp?, sectionAt, h]
  rfl

theorem lookUp?_of_no_section (h : valueOf? (lib.entries v) x.place.1 = none) :
    lib.lookUp? v x.place = none := by
  rw [lookUp?, sectionAt, h]
  rfl

/-- What is unset has no key, or one that says nothing. -/
theorem unset_iff (documented : lib.Documented) :
    lib.Unset v x ↔ ∀ w, lib.lookUp? v x.place = some w → lib.Silent x w := by
  constructor
  · rintro (hnone | ⟨htable, hnull⟩ | ⟨htable, hnone⟩ | ⟨hw, hsilent⟩) w' hw'
    · cases (lookUp?_of_no_section hnone).symm.trans hw'
    · rw [lookUp?_of_section htable, entries, (documented.null_apart hnull).1] at hw'
      cases hw'
    · cases ((lookUp?_of_section htable).trans hnone).symm.trans hw'
    · cases hw.symm.trans hw'
      exact hsilent
  · intro h
    cases htable : valueOf? (lib.entries v) x.place.1 with
    | none => exact .noSection htable
    | some table =>
      cases hkey : valueOf? (lib.entries table) x.place.2 with
      | none => exact .noKey htable hkey
      | some w =>
        have hw : lib.lookUp? v x.place = some w := (lookUp?_of_section htable).trans hkey
        exact .silent hw (h w hw)

/-- A key that is not silent is not that of an unset setting. -/
theorem exists_of_not_unset (documented : lib.Documented) (h : ¬ lib.Unset v x) :
    ∃ w, lib.lookUp? v x.place = some w ∧ ¬ lib.Silent x w := by
  obtain ⟨w, hw⟩ := Classical.not_forall.mp (mt (unset_iff documented).mpr h)
  exact ⟨w, Classical.not_imp.mp hw⟩

end Unset

/-! ## 2. Filling in the defaults -/

/-- **The settings that a value gives**: the defaults where it leaves a setting unset, and what its keys
say where it does not. -/
structure Filled (lib : Library) (v : lib.Value) (s : Settings) : Prop where
  unset : ∀ x, lib.Unset v x → s.get x = default.get x
  set : ∀ x, ¬ lib.Unset v x → ∃ w, lib.lookUp? v x.place = some w ∧
    ∀ a, lib.Says x w a ↔ a = s.get x

section Filled

variable {v v' : lib.Value} {s s' : Settings} {x : Setting}

/-- **A setting depends on its own key alone.** -/
theorem Filled.get_eq (documented : lib.Documented) (h : lib.Filled v s) (h' : lib.Filled v' s')
    (same : lib.lookUp? v x.place = lib.lookUp? v' x.place) : s.get x = s'.get x := by
  have hunset : lib.Unset v x ↔ lib.Unset v' x := by
    rw [unset_iff documented, unset_iff documented, same]
  by_cases h₀ : lib.Unset v x
  · rw [h.unset x h₀, h'.unset x (hunset.mp h₀)]
  · obtain ⟨w, hw, hgives⟩ := h.set x h₀
    obtain ⟨w', hw', hgives'⟩ := h'.set x (mt hunset.mpr h₀)
    cases hw.symm.trans (same.trans hw')
    exact (hgives' _).mp ((hgives _).mpr rfl)

/-- A value gives one lot of settings at most. -/
theorem Filled.unique (documented : lib.Documented) (h : lib.Filled v s) (h' : lib.Filled v s') :
    s = s' :=
  ext_get fun _ => h.get_eq documented h' rfl

/-- Two mappings agree but for one name, whose entry may be changed, added or removed. -/
def SameBut {α : Type} (name : String) (entries entries' : List (String × α)) : Prop :=
  ∀ other, other ≠ name → valueOf? entries other = valueOf? entries' other

/-- A section that is changed changes no setting of another one. -/
theorem Filled.get_eq_of_section (documented : lib.Documented) (h : lib.Filled v s)
    (h' : lib.Filled v' s') {name : String} (same : SameBut name (lib.entries v) (lib.entries v'))
    (hx : x.place.1 ≠ name) : s.get x = s'.get x := by
  refine h.get_eq documented h' ?_
  rw [lookUp?, lookUp?, sectionAt, sectionAt, same x.place.1 hx]

/-- **A key that is changed changes no other setting.** -/
theorem Filled.get_eq_of_key (documented : lib.Documented) (h : lib.Filled v s)
    (h' : lib.Filled v' s') {name key : String}
    (same : SameBut name (lib.entries v) (lib.entries v'))
    (sameKeys : SameBut key (lib.sectionAt v name) (lib.sectionAt v' name))
    (hx : x.place ≠ (name, key)) : s.get x = s'.get x := by
  by_cases hname : x.place.1 = name
  · subst hname
    have hkey : x.place.2 ≠ key := fun hkey => hx (Prod.ext rfl hkey)
    exact h.get_eq documented h' (sameKeys x.place.2 hkey)
  · exact h.get_eq_of_section documented h' same hname

end Filled

/-- The frames are put right, and nothing else. -/
theorem get_withFrames {s : Settings} {x : Setting} (h : x ≠ .frames ∨ s.frames ≠ []) :
    s.withFrames.get x = s.get x := by
  rw [withFrames]
  split
  · next hempty =>
    cases x with
    | frames => exact absurd (List.isEmpty_iff.mp hempty) (h.resolve_left (absurd rfl))
    | _ => rfl
  · rfl

theorem frames_withFrames {s : Settings} (h : s.frames = []) :
    s.withFrames.frames = default.frames := by
  rw [withFrames, if_pos (List.isEmpty_iff.mpr h)]

/-- What is read has values that fit. -/
theorem fitsFields_of_unmarshal (documented : lib.Documented) {text : Bytes} {v : lib.Value}
    {s read : Settings} (hv : lib.document? text = some v)
    (hread : lib.unmarshal text s = .ok read) : lib.FitsFields v := by
  refine Classical.not_not.mp fun hmisfit => ?_
  obtain ⟨trouble, htrouble⟩ := documented.misfit hv hmisfit s
  cases hread.symm.trans htrouble

/-- **What is read over the defaults**, with its frames put right, are the settings of the text. -/
theorem filled_of_unmarshal (documented : lib.Documented) {text : Bytes} {v : lib.Value}
    {read : Settings} (hv : lib.document? text = some v)
    (hread : lib.unmarshal text default = .ok read) : lib.Filled v read.withFrames := by
  have fits := fitsFields_of_unmarshal documented hv hread
  refine ⟨fun x hunset => ?_, fun x hset => ?_⟩
  · have hsilent := (unset_iff documented).mp hunset
    cases hw : lib.lookUp? v x.place with
    | none =>
      have hget := documented.absent hv hread hw
      refine (get_withFrames ?_).trans hget
      cases x with
      | frames =>
        have hframes : read.frames = default.frames := hget
        exact .inr (by rw [hframes]; decide)
      | _ => exact .inl nofun
    | some w =>
      by_cases hx : x = .frames
      · subst hx
        refine frames_withFrames ?_
        rcases hsilent w hw with hnull | ⟨-, hempty⟩
        · exact documented.nullFrames hv hread hw hnull
        · exact documented.value hv hread (x := .frames) hw hempty
      · rcases hsilent w hw with hnull | ⟨hframes, -⟩
        · exact (get_withFrames (.inl hx)).trans (documented.null hv hread hx hw hnull)
        · exact absurd hframes hx
  · obtain ⟨w, hw, hloud⟩ := exists_of_not_unset documented hset
    obtain ⟨a, ha⟩ := (fits.keys x w hw).resolve_left fun hnull => hloud (.inl hnull)
    have hget : read.get x = a := documented.value hv hread hw ha
    have hkept : read.withFrames.get x = a := by
      refine (get_withFrames ?_).trans hget
      by_cases hx : x = .frames
      · subst hx
        refine .inr fun hempty => hloud (.inr ⟨rfl, ?_⟩)
        have hnil : a = [] := hget.symm.trans hempty
        exact hnil ▸ ha
      · exact .inl hx
    refine ⟨w, hw, fun b => ⟨fun hb => (hb.unique ha).trans hkept.symm, ?_⟩⟩
    rintro rfl
    exact hkept ▸ ha

/-- **If the values fit**, there are settings that they give. -/
theorem exists_filled (documented : lib.Documented) {text : Bytes} {v : lib.Value}
    (hv : lib.document? text = some v) (fits : lib.FitsFields v) :
    ∃ read, lib.unmarshal text default = .ok read ∧ lib.Filled v read.withFrames := by
  obtain ⟨read, hread⟩ := documented.fits hv fits default
  exact ⟨read, hread, filled_of_unmarshal documented hv hread⟩

theorem Filled.frames_ne_nil {v : lib.Value} {s : Settings} (h : lib.Filled v s) :
    s.frames ≠ [] := by
  by_cases hunset : lib.Unset v .frames
  · have hdefault : s.frames = default.frames := h.unset .frames hunset
    rw [hdefault]
    decide
  · obtain ⟨w, hw, hgives⟩ := h.set .frames hunset
    intro hempty
    exact hunset (.silent hw (.inr ⟨rfl, (hgives []).mpr hempty.symm⟩))

end Library

/-! ## 3. Ranges -/

section Range

variable {s : Settings}

/-- **The first setting that is out of range**, and what is said of it. -/
inductive FirstOutOfRange (s : Settings) : RangeTrouble → String → Prop
  | depth : s.maxDepth < 0 → FirstOutOfRange s (.depth s.maxDepth)
      ("ast.max_depth must be >= 0, got " ++ Decimal.write s.maxDepth)
  | interval : 0 ≤ s.maxDepth → s.intervalMs ≤ 0 → FirstOutOfRange s (.interval s.intervalMs)
      ("spinner.interval_ms must be > 0, got " ++ Decimal.write s.intervalMs)
  | emptyFrame {before after : List String} : 0 ≤ s.maxDepth → 0 < s.intervalMs →
      s.frames = before ++ "" :: after → "" ∉ before → FirstOutOfRange s (.emptyFrame before.length)
      ("spinner.frames[" ++ Decimal.writeNat before.length ++ "] is empty")

/-- The first empty frame cuts the frames in two. -/
theorem exists_eq_append_of_findIdx? {frames : List String} {index : Nat}
    (h : frames.findIdx? (· = "") = some index) :
    ∃ before after, frames = before ++ "" :: after ∧ "" ∉ before ∧ before.length = index := by
  obtain ⟨hlt, hempty, hbefore⟩ := List.findIdx?_eq_some_iff_getElem.mp h
  refine ⟨frames.take index, frames.drop (index + 1), ?_, fun hmem => ?_, ?_⟩
  · have hget : frames[index] = "" := of_decide_eq_true hempty
    rw [← hget, List.getElem_cons_drop, List.take_append_drop]
  · obtain ⟨i, hi, hget⟩ := List.mem_take_iff_getElem.mp hmem
    exact hbefore i (by omega) (decide_eq_true hget)
  · exact List.length_take_of_le (Nat.le_of_lt hlt)

/-- **The check** finds what is out of range first, and says so. -/
theorem firstOutOfRange_of_outOfRange? {trouble : RangeTrouble}
    (h : s.outOfRange? = some trouble) : FirstOutOfRange s trouble trouble.message := by
  unfold outOfRange? at h
  split at h
  · next hdepth =>
    cases h
    exact .depth hdepth
  next hdepth =>
  split at h
  · next hinterval =>
    cases h
    exact .interval (Int64.not_lt.mp hdepth) hinterval
  next hinterval =>
  split at h
  · next index hindex =>
    cases h
    obtain ⟨before, after, hframes, hbefore, rfl⟩ := exists_eq_append_of_findIdx? hindex
    exact .emptyFrame (Int64.not_lt.mp hdepth) (Int64.not_le.mp hinterval) hframes hbefore
  · cases h

end Range

/-! ## 4. Texts -/

namespace Library

variable {lib : Library} {text : Bytes} {v : lib.Value} {s : Settings}

/-- **A text is accepted** with the settings that it gives, if they are in range. -/
theorem filled_of_parseBy (documented : lib.Documented)
    (accepted : parseBy lib.unmarshal text = .ok s) :
    ∃ v, lib.document? text = some v ∧ lib.Filled v s := by
  obtain ⟨read, hread, rfl, -⟩ := parseBy_eq_ok_iff.mp accepted
  cases hv : lib.document? text with
  | none =>
    obtain ⟨trouble, htrouble⟩ := documented.malformed hv default
    cases hread.symm.trans htrouble
  | some v => exact ⟨v, rfl, filled_of_unmarshal documented hv hread⟩

/-- A text that is read is refused exactly if some setting is out of range, and with the first of
them. -/
theorem parseBy_error_cases {read : Settings} (hread : lib.unmarshal text default = .ok read) :
    ((∃ trouble, parseBy lib.unmarshal text = .error trouble) ↔
      read.withFrames.maxDepth < 0 ∨ read.withFrames.intervalMs ≤ 0 ∨
        "" ∈ read.withFrames.frames) ∧
    ∀ trouble, parseBy lib.unmarshal text = .error trouble →
      ∃ range, trouble = .outOfRange range ∧
        FirstOutOfRange read.withFrames range range.message := by
  have hparse : parseBy lib.unmarshal text = read.withFrames.check := by rw [parseBy, hread]
  generalize read.withFrames = s at hparse
  have inRange : s.outOfRange? = none ↔ ¬ (s.maxDepth < 0 ∨ s.intervalMs ≤ 0 ∨ "" ∈ s.frames) := by
    rw [outOfRange?_eq_none_iff]
    grind
  rw [hparse, check]
  cases hrange : s.outOfRange? with
  | some range =>
    refine ⟨iff_of_true ⟨_, rfl⟩ (Classical.not_not.mp fun hnot => ?_), ?_⟩
    · rw [inRange.mpr hnot] at hrange
      cases hrange
    · rintro trouble ⟨⟩
      exact ⟨range, rfl, firstOutOfRange_of_outOfRange? hrange⟩
  | none => exact ⟨iff_of_false nofun (inRange.mp hrange), nofun⟩

end Library

/-- **What the settings of a text are**, for every library that keeps its promises.

If a text is accepted, its settings are in range.  A setting that is left unset has its default, and
any other one has what its key says.

Let another text be accepted whose resolved mapping is the same but for one section.  Then the
settings of all other sections are the same, and if that section is the same but for one key, all
other settings are.

If the values of a text fit, there are settings that it gives, and no others.  The text is then refused
if and only if the depth is negative, the interval is not positive or some frame is empty, and the
first of these is said, with its value or its index. -/
theorem parse_fills_in_defaults {lib : Library} (documented : lib.Documented) (text : Bytes) :
    (∀ s, parseBy lib.unmarshal text = .ok s →
      0 ≤ s.maxDepth ∧ 0 < s.intervalMs ∧ s.frames ≠ [] ∧ "" ∉ s.frames ∧
      ∃ v, lib.document? text = some v ∧ lib.Filled v s) ∧
    (∀ s, parseBy lib.unmarshal text = .ok s → ∀ v, lib.document? text = some v →
      ∀ text' s', parseBy lib.unmarshal text' = .ok s' → ∀ v', lib.document? text' = some v' →
        ∀ name, Library.SameBut name (lib.entries v) (lib.entries v') →
          (∀ x : Setting, x.place.1 ≠ name → s.get x = s'.get x) ∧
          ∀ key, Library.SameBut key (lib.sectionAt v name) (lib.sectionAt v' name) →
            ∀ x : Setting, x.place ≠ (name, key) → s.get x = s'.get x) ∧
    ∀ v, lib.document? text = some v → lib.FitsFields v →
      ∃ s, lib.Filled v s ∧ (∀ s', lib.Filled v s' → s' = s) ∧
        ((∃ trouble, parseBy lib.unmarshal text = .error trouble) ↔
          s.maxDepth < 0 ∨ s.intervalMs ≤ 0 ∨ "" ∈ s.frames) ∧
        ∀ trouble, parseBy lib.unmarshal text = .error trouble →
          ∃ range, trouble = .outOfRange range ∧ FirstOutOfRange s range range.message := by
  -- An accepted text has the settings of the value that it has.
  have filled {text : Bytes} {s : Settings} {v : lib.Value}
      (accepted : parseBy lib.unmarshal text = .ok s) (hv : lib.document? text = some v) :
      lib.Filled v s := by
    obtain ⟨v', hv', h⟩ := Library.filled_of_parseBy documented accepted
    cases hv.symm.trans hv'
    exact h
  refine ⟨?_, ?_, ?_⟩
  · intro s accepted
    obtain ⟨-, -, -, hrange⟩ := parseBy_eq_ok_iff.mp accepted
    obtain ⟨depth, interval, frames⟩ := outOfRange?_eq_none_iff.mp hrange
    obtain ⟨v, hv, h⟩ := Library.filled_of_parseBy documented accepted
    exact ⟨depth, interval, h.frames_ne_nil, fun hempty => frames "" hempty rfl, v, hv, h⟩
  · intro s accepted v hv text' s' accepted' v' hv' name same
    have h := filled accepted hv
    have h' := filled accepted' hv'
    exact ⟨fun x hx => h.get_eq_of_section documented h' same hx,
      fun key sameKeys x hx => h.get_eq_of_key documented h' same sameKeys hx⟩
  · intro v hv fits
    obtain ⟨read, hread, h⟩ := Library.exists_filled documented hv fits
    obtain ⟨refused_iff, first⟩ := Library.parseBy_error_cases hread
    exact ⟨read.withFrames, h, fun s' h' => h'.unique documented h, refused_iff, first⟩

/-- Two texts that differ in the frames only, of which one gives none but null, and a third text whose
second frame is empty; a null item is not counted. -/
theorem parse_fills_in_defaults_frames :
    let text := utf8 "spinner:
  interval_ms: 5
  frames: [a]
"
    let text' := utf8 "spinner:
  interval_ms: 5
  frames: [~]
"
    let refused := utf8 "spinner:
  frames: [a, ~, '']
"
    let s : Settings := { intervalMs := 5, frames := ["a"] }
    let s' : Settings := { intervalMs := 5 }
    let s'' : Settings := { frames := ["a", ""] }
    yaml.Documented ∧
    (parse text = .ok s ∧ "" ∉ s.frames) ∧
    (parse text' = .ok s' ∧ s'.frames = default.frames ∧
      ∀ x : Setting, x ≠ .frames → s.get x = s'.get x) ∧
    ∃ range, parse refused = .error (.outOfRange range) ∧
      FirstOutOfRange s'' range range.message := by
  have hv : Yaml.parse? (utf8 "spinner:
  interval_ms: 5
  frames: [a]
") =
      some (.map [(.scalar true "spinner", .map [(.scalar true "interval_ms", .scalar true "5"),
        (.scalar true "frames", .seq [.scalar true "a"])])]) := by
    cbv
  have hv' : Yaml.parse? (utf8 "spinner:
  interval_ms: 5
  frames: [~]
") =
      some (.map [(.scalar true "spinner", .map [(.scalar true "interval_ms", .scalar true "5"),
        (.scalar true "frames", .seq [.scalar true "~"])])]) := by
    cbv
  have hv'' : Yaml.parse? (utf8 "spinner:
  frames: [a, ~, '']
") =
      some (.map [(.scalar true "spinner", .map [(.scalar true "frames",
        .seq [.scalar true "a", .scalar true "~", .scalar false ""])])]) := by
    cbv
  -- Nothing below is to look into the texts again.
  generalize utf8 "spinner:\n  interval_ms: 5\n  frames: [a]\n" = text at hv ⊢
  generalize utf8 "spinner:\n  interval_ms: 5\n  frames: [~]\n" = text' at hv' ⊢
  generalize utf8 "spinner:\n  frames: [a, ~, '']\n" = refused at hv'' ⊢
  intro _ _ _ s s' s''
  have read : unmarshal text default = .ok s := (unmarshal_of_some hv default).trans rfl
  have read' : unmarshal text' default = .ok { s' with frames := [] } :=
    (unmarshal_of_some hv' default).trans rfl
  have read'' : unmarshal refused default = .ok s'' := (unmarshal_of_some hv'' default).trans rfl
  have accepted : parse text = .ok s := parseBy_eq_ok_iff.mpr ⟨_, read, rfl, by decide⟩
  have accepted' : parse text' = .ok s' := parseBy_eq_ok_iff.mpr ⟨_, read', rfl, by decide⟩
  obtain ⟨valid, keys, -⟩ := parse_fills_in_defaults documented_yaml text
  obtain ⟨valid', -, -⟩ := parse_fills_in_defaults documented_yaml text'
  obtain ⟨-, -, refuses⟩ := parse_fills_in_defaults documented_yaml refused
  refine ⟨documented_yaml, ⟨accepted, (valid s accepted).2.2.2.1⟩, ⟨accepted', ?_, fun x hx => ?_⟩, ?_⟩
  · obtain ⟨-, -, -, -, v, hsome, filled⟩ := valid' s' accepted'
    cases hsome.symm.trans hv'
    refine filled.unset .frames (.silent rfl (.inr ⟨rfl, _, rfl, ?_, rfl⟩))
    exact List.forall_mem_singleton.mpr (.inl ⟨"~", rfl, rfl⟩)
  · refine (keys s accepted _ hv text' s' accepted' _ hv' "spinner" ?_).2 "frames" ?_ x ?_
    · intro other hother
      show valueOf? [("spinner", _)] other = valueOf? [("spinner", _)] other
      simp [valueOf?, hother.symm]
    · intro other hother
      show valueOf? [("interval_ms", _), ("frames", _)] other =
        valueOf? [("interval_ms", _), ("frames", _)] other
      simp [valueOf?, hother.symm, List.find?_cons]
    · cases x with
      | frames => exact absurd rfl hx
      | _ => decide
  · have fits : yaml.FitsFields _ :=
      Library.fitsFields_of_unmarshal documented_yaml hv'' read''
    have filled : yaml.Filled _ s'' :=
      Library.filled_of_unmarshal documented_yaml hv'' read''
    obtain ⟨s₀, -, unique, refused_iff, first⟩ := refuses _ hv'' fits
    obtain rfl : s'' = s₀ := unique s'' filled
    obtain ⟨trouble, htrouble⟩ := refused_iff.mpr (by decide)
    obtain ⟨range, rfl, hfirst⟩ := first trouble htrouble
    exact ⟨range, htrouble, hfirst⟩

end Settings

end SolidityTree
