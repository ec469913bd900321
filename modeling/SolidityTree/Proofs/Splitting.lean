import Mathlib.Data.List.Forall2
import SolidityTree.Proofs.Sections

/-!
# Taking an output apart

An output need not be what a compiler prints: it may be any bytes.  This module says what its sections
are for ALL of them, without the walk over the lines that finds them.

* `IsLines output ls` cuts the output at its line feeds, and `Parted ls before found` parts the lines
  at the headers.  Every output can be cut and parted (`exists_isLines`, `exists_parted`), in one way
  only as far as its sections are concerned.
* `sections_parted`: the sections are the headers, each with exactly the lines up to the next, or
  the first empty one of them is refused; without a header there is one document or none.

A section has a path, and the empty path is meant for the one document of an output without
headers.  But a header is told by the length of what stands between its marks BEFORE this is trimmed, so
there are headers that name nothing (`Nameless`): all that stands between their marks is white space.
`empty_path_iff` says that no other header has an empty path.

Contents
* §1  lines
* §2  headers
* §3  parting the lines
* §4  the sections of any output
* §5  empty paths
-/

namespace SolidityTree

/-! ## 1. Lines -/

namespace Pieces

/-- Pieces that are each ended by a separator, but for the last separator. -/
theorem flatMap_eq_join {α : Type} {separator : α} {pieces : List (List α)} (h : pieces ≠ []) :
    pieces.flatMap (· ++ [separator]) = join separator pieces ++ [separator] := by
  induction pieces with
  | nil => exact absurd rfl h
  | cons piece pieces ih =>
    cases pieces with
    | nil => simp [join]
    | cons next pieces =>
      rw [List.flatMap_cons, ih (List.cons_ne_nil next pieces)]
      simp [join]

end Pieces

namespace CompilerOutput

/-- **The lines of an output**: the pieces that end with a line feed and what stands behind the last
one, if that is not empty; each without one carriage return at its end. -/
def IsLines (output : Bytes) (ls : List Bytes) : Prop :=
  ∃ ended last, output = ended.flatMap (· ++ [Ascii.lf]) ++ last ∧
    (∀ line ∈ ended, Ascii.lf ∉ line) ∧ Ascii.lf ∉ last ∧
    ls = (ended ++ if last = [] then [] else [last]).map dropReturn

theorem IsLines.eq_lines {output : Bytes} {ls : List Bytes} (h : IsLines output ls) :
    ls = lines output := by
  obtain ⟨ended, last, rfl, hended, hlast, rfl⟩ := h
  rw [lines, rawLines, Pieces.split_flatMap hended hlast]
  by_cases hempty : last = []
  · simp [hempty]
  · simp [hempty]

/-- Every output has lines. -/
theorem exists_isLines (output : Bytes) : ∃ ls, IsLines output ls := by
  obtain hnil | ⟨ended, last, hsplit⟩ := List.eq_nil_or_concat' (Pieces.split Ascii.lf output)
  · exact absurd hnil (Pieces.split_ne_nil Ascii.lf output)
  have hpiece : ∀ piece ∈ ended ++ [last], Ascii.lf ∉ piece := fun piece hp =>
    (Pieces.exists_of_mem_split (hsplit ▸ hp)).1
  refine ⟨_, ended, last, ?_, fun line hl => hpiece line (List.mem_append_left _ hl),
    hpiece last (by simp), rfl⟩
  have hall : (Pieces.split Ascii.lf output).flatMap (· ++ [Ascii.lf]) = output ++ [Ascii.lf] :=
    Pieces.flatMap_split output
  rw [hsplit, List.flatMap_append, List.flatMap_singleton, ← List.append_assoc] at hall
  exact (List.append_cancel_right hall).symm

theorem isLines_lines (output : Bytes) : IsLines output (lines output) := by
  obtain ⟨ls, hls⟩ := exists_isLines output
  exact hls.eq_lines ▸ hls

/-! ## 2. Headers -/

/-- **A header line, by its trimmed text**: it begins with the one mark, ends with the other and is
longer than the two. -/
def Heads (line : Bytes) : Prop :=
  opening <+: Blank.trim line ∧ closing <:+ Blank.trim line ∧ 16 < (Blank.trim line).length

instance (line : Bytes) : Decidable (Heads line) := inferInstanceAs (Decidable (_ ∧ _ ∧ _))

theorem header?_isSome_iff {line : Bytes} : (header? line).isSome = true ↔ Heads line := by
  have hmarks : opening.length + closing.length = 16 := by decide +kernel
  simp only [header?, Heads, hmarks, List.isPrefixOf_iff_prefix, List.isSuffixOf_iff_suffix]
  split <;> simp_all

theorem header?_eq_none_iff_not_heads {line : Bytes} : header? line = none ↔ ¬ Heads line := by
  rw [← header?_isSome_iff]
  simp

/-- **What a header names**: the text strictly between its marks, trimmed. -/
theorem header?_eq_some_iff {line path : Bytes} : header? line = some path ↔
    ∃ between, between ≠ [] ∧ Blank.trim line = headerLine between ∧ path = Blank.trim between := by
  constructor
  · intro h
    obtain ⟨w, between, w', hw, hw', hne, hline⟩ := isHeader_of_header? h
    have hshape : line = w ++ (headerLine between ++ w') := by
      rw [hline, headerLine]
      simp only [List.append_assoc]
    have hpath := header?_around hw hw' hne
    rw [← hshape, h] at hpath
    refine ⟨between, hne, ?_, Option.some.inj hpath⟩
    rw [hshape]
    exact Blank.trim_around hw hw' (solidEnds_headerLine between)
  · rintro ⟨between, hne, htrim, rfl⟩
    obtain ⟨w, w', hw, hw', hline⟩ := Blank.exists_white line
    rw [htrim] at hline
    rw [hline]
    exact header?_around hw hw' hne

theorem headerLine_injective {between between' : Bytes}
    (h : headerLine between = headerLine between') : between = between' :=
  List.append_cancel_right (List.append_cancel_left h)

/-! ## 3. Parting the lines -/

/-- **Lines parted at the headers**: some that stand before all headers, and each header with those
below it. -/
structure Parted (ls before : List Bytes) (found : List (Bytes × List Bytes)) : Prop where
  all : ls = before ++ found.flatMap fun s => s.1 :: s.2
  before_plain : ∀ line ∈ before, ¬ Heads line
  heads : ∀ s ∈ found, Heads s.1
  below_plain : ∀ s ∈ found, ∀ line ∈ s.2, ¬ Heads line

theorem exists_parted (ls : List Bytes) : ∃ before found, Parted ls before found := by
  induction ls with
  | nil => exact ⟨[], [], by simp, by simp, by simp, by simp⟩
  | cons line ls ih =>
    obtain ⟨before, found, h⟩ := ih
    by_cases hline : Heads line
    · refine ⟨[], (line, before) :: found, by simp [h.all], by simp, ?_, ?_⟩
      · simpa using ⟨hline, fun a b hs => h.heads (a, b) hs⟩
      · simpa using ⟨h.before_plain, fun a b hs => h.below_plain (a, b) hs⟩
    · refine ⟨line :: before, found, by simp [h.all], ?_, h.heads, h.below_plain⟩
      simpa using ⟨hline, h.before_plain⟩

section Parted

variable {ls before : List Bytes} {found : List (Bytes × List Bytes)}

/-- The headers that are found are the header lines, in order. -/
theorem Parted.filter_heads (h : Parted ls before found) :
    ls.filter (fun line => decide (Heads line)) = found.map Prod.fst := by
  have plain : ∀ {ls : List Bytes}, (∀ line ∈ ls, ¬ Heads line) →
      ls.filter (fun line => decide (Heads line)) = [] := by
    intro ls hls
    simpa [List.filter_eq_nil_iff] using hls
  have one : ∀ s ∈ found, (s.1 :: s.2).filter (fun line => decide (Heads line)) = [s.1] := by
    intro s hs
    rw [List.filter_cons_of_pos (by simpa using h.heads s hs), plain (h.below_plain s hs)]
  rw [h.all, List.filter_append, plain h.before_plain, List.nil_append, List.filter_flatMap,
    List.flatMap_congr one, ← List.map_eq_flatMap]

/-- The walk over the lines finds the parts. -/
theorem Parted.gather_eq (h : Parted ls before found) :
    gather ls = (before, found.map fun s => ((header? s.1).getD [], s.2)) := by
  have hfound : gather (found.flatMap fun s => s.1 :: s.2) =
      ([], found.map fun s => ((header? s.1).getD [], s.2)) := by
    refine gather_flatMap ?_ ?_
    · intro s hs
      obtain ⟨path, hpath⟩ := Option.isSome_iff_exists.mp (header?_isSome_iff.mpr (h.heads s hs))
      rw [hpath]
      rfl
    · intro s hs line hline
      exact header?_eq_none_iff_not_heads.mpr (h.below_plain s hs line hline)
  have hbefore : ∀ line ∈ before, header? line = none := fun line hline =>
    header?_eq_none_iff_not_heads.mpr (h.before_plain line hline)
  rw [h.all, gather_append hbefore, hfound, List.append_nil]

/-! ## 4. The sections of any output -/

/-- **The section that a header and the lines below it make**: its path is the trimmed text
strictly between the marks, and its document the trimmed lines with line feeds between them. -/
structure MakesSection (s : Bytes × List Bytes) (e : Section) : Prop where
  path : ∃ between, between ≠ [] ∧ Blank.trim s.1 = opening ++ (between ++ closing) ∧
    e.path = Blank.trim between
  document : e.document = Blank.trim (Pieces.join Ascii.lf s.2)

/-- The section of a header and some lines. -/
def sectionOf (s : Bytes × List Bytes) : Section := ⟨(header? s.1).getD [], documentOf s.2⟩

/-- The line feed behind the last line is white space. -/
theorem documentOf_eq (ls : List Bytes) : documentOf ls = Blank.trim (Pieces.join Ascii.lf ls) := by
  by_cases hls : ls = []
  · rw [hls]
    rfl
  · rw [documentOf, Pieces.flatMap_eq_join hls, Blank.trim_append_one (by decide)]

theorem makesSection_sectionOf {s : Bytes × List Bytes} (h : Heads s.1) :
    MakesSection s (sectionOf s) := by
  obtain ⟨path, hpath⟩ := Option.isSome_iff_exists.mp (header?_isSome_iff.mpr h)
  obtain ⟨between, hne, htrim, rfl⟩ := header?_eq_some_iff.mp hpath
  exact ⟨⟨between, hne, htrim, by simp [sectionOf, hpath]⟩, documentOf_eq s.2⟩

theorem Parted.forall₂_sectionOf (h : Parted ls before found) :
    List.Forall₂ MakesSection found (found.map sectionOf) := by
  rw [List.forall₂_map_right_iff, List.forall₂_same]
  exact fun s hs => makesSection_sectionOf (h.heads s hs)

/-- With a header, the first empty section is what counts. -/
theorem sections_of_parted {output : Bytes} (h : Parted (lines output) before found)
    (hne : found ≠ []) : sections output =
      ((found.map sectionOf).find? fun e => e.document.isEmpty).elim (.ok (found.map sectionOf))
        fun e => .error (.emptySection e.path) := by
  have hmap : (found.map fun s => ((header? s.1).getD [], s.2)).map
      (fun s => (⟨s.1, documentOf s.2⟩ : Section)) = found.map sectionOf := by
    rw [List.map_map]
    rfl
  have hgather : (found.map fun s => ((header? s.1).getD [], s.2)) ≠ [] := by
    simpa using hne
  rw [sections_eq_of_gather hgather (congrArg Prod.snd h.gather_eq), hmap]

/-- Without a header there is one document or none. -/
theorem sections_of_no_header {output : Bytes} (h : Parted (lines output) before []) :
    sections output = bare output := by
  unfold sections
  rw [h.gather_eq]
  rfl

theorem bare_of_brace {front rest : Bytes} (h : Ascii.openBrace ∉ front) :
    bare (front ++ Ascii.openBrace :: rest) =
      .ok [⟨[], Blank.trim (Ascii.openBrace :: rest)⟩] := by
  have hdrop : (front ++ Ascii.openBrace :: rest).dropWhile (· ≠ Ascii.openBrace) =
      Ascii.openBrace :: rest := by
    rw [List.dropWhile_append_of_pos]
    · simp
    · intro b hb
      have hne : b ≠ Ascii.openBrace := fun heq => h (heq ▸ hb)
      simpa using hne
  rw [bare, hdrop]

theorem bare_of_no_brace {output : Bytes} (h : Ascii.openBrace ∉ output) :
    bare output = .error .noDocument := by
  have hdrop : output.dropWhile (· ≠ Ascii.openBrace) = [] := by
    rw [List.dropWhile_eq_nil_iff]
    intro b hb
    have hne : b ≠ Ascii.openBrace := fun heq => h (heq ▸ hb)
    simpa using hne
  rw [bare, hdrop]

end Parted

/-- **The sections of any output.**  It can be cut into lines, and these can be parted at the headers.
If there is a header, the sections are those that each header makes with exactly the lines up to the
next one, in order; and if one of them is empty, the first that is so is named and refused.  If
there is none, the one document begins at the first brace, and it is a failure if there is no brace. -/
theorem sections_parted (output : Bytes) :
    (∃ ls before found, IsLines output ls ∧ Parted ls before found) ∧
    ∀ ls before found, IsLines output ls → Parted ls before found →
      ls.filter (fun line => decide (Heads line)) = found.map Prod.fst ∧
      (found ≠ [] → ∃ entries, List.Forall₂ MakesSection found entries ∧
        ((∀ e ∈ entries, e.document ≠ []) → sections output = .ok entries) ∧
        ∀ earlier e later, entries = earlier ++ e :: later →
          (∀ e' ∈ earlier, e'.document ≠ []) → e.document = [] →
          sections output = .error (.emptySection e.path)) ∧
      (found = [] →
        (∀ front rest, output = front ++ Ascii.openBrace :: rest → Ascii.openBrace ∉ front →
          sections output = .ok [⟨[], Blank.trim (Ascii.openBrace :: rest)⟩]) ∧
        (Ascii.openBrace ∉ output → sections output = .error .noDocument)) := by
  refine ⟨?_, ?_⟩
  · obtain ⟨before, found, h⟩ := exists_parted (lines output)
    exact ⟨lines output, before, found, isLines_lines output, h⟩
  · intro ls before found hlines h
    rw [hlines.eq_lines] at h ⊢
    refine ⟨h.filter_heads, ?_, ?_⟩
    · intro hne
      refine ⟨found.map sectionOf, h.forall₂_sectionOf, ?_, ?_⟩
      · intro hfull
        have hfind : (found.map sectionOf).find? (fun e => e.document.isEmpty) = none := by
          rw [List.find?_eq_none]
          intro e he
          simpa using hfull e he
        rw [sections_of_parted h hne, hfind, Option.elim_none]
      · intro earlier e later hentries hearlier hempty
        have hfind : (found.map sectionOf).find? (fun e => e.document.isEmpty) = some e := by
          rw [List.find?_eq_some_iff_append]
          refine ⟨by simp [hempty], earlier, later, hentries, ?_⟩
          intro e' he'
          simpa using hearlier e' he'
        rw [sections_of_parted h hne, hfind, Option.elim_some]
    · rintro rfl
      rw [sections_of_no_header h]
      refine ⟨?_, bare_of_no_brace⟩
      rintro front rest rfl hfront
      exact bare_of_brace hfront

/-! ## 5. Empty paths -/

/-- **A header that names nothing**: there is something between its marks, and it is white space. -/
def Nameless (line : Bytes) : Prop :=
  ∃ w, w ≠ [] ∧ Blank.White w ∧ Blank.trim line = headerLine w

theorem MakesSection.path_eq_nil_iff {s : Bytes × List Bytes} {e : Section}
    (h : MakesSection s e) : e.path = [] ↔ Nameless s.1 := by
  obtain ⟨between, hne, htrim, hpath⟩ := h.path
  rw [hpath, Blank.trim_eq_nil_iff]
  constructor
  · exact fun hwhite => ⟨between, hne, hwhite, htrim⟩
  · rintro ⟨w, -, hwhite, htrim'⟩
    obtain rfl : between = w := headerLine_injective (htrim.symm.trans htrim')
    exact hwhite

theorem Nameless.heads {line : Bytes} (h : Nameless line) : Heads line := by
  obtain ⟨w, hne, -, htrim⟩ := h
  exact header?_isSome_iff.mp (by rw [header?_eq_some_iff.mpr ⟨w, hne, htrim, rfl⟩]; rfl)

/-- A text that begins with a brace is not white space. -/
theorem trim_brace_ne_nil (rest : Bytes) : Blank.trim (Ascii.openBrace :: rest) ≠ [] := by
  rw [Ne, Blank.trim_eq_nil_iff]
  intro hwhite
  have hkept : Blank.trimStart (Ascii.openBrace :: rest) = Ascii.openBrace :: rest :=
    Blank.trimStart_white .nil (by decide)
  have hgone := Blank.dropWith_white hwhite []
  rw [List.append_nil] at hgone
  cases hkept.symm.trans hgone

section Entries

variable {output : Bytes} {entries : List Section} {before : List Bytes}
  {found : List (Bytes × List Bytes)}

/-- Sections that are handed out below headers are those of the headers, and none is empty. -/
theorem sections_ok_of_parted (h : Parted (lines output) before found) (hne : found ≠ [])
    (hok : sections output = .ok entries) :
    entries = found.map sectionOf ∧ ∀ e ∈ entries, e.document ≠ [] := by
  rw [sections_of_parted h hne] at hok
  cases hfind : (found.map sectionOf).find? (fun e => e.document.isEmpty) with
  | some e =>
    rw [hfind] at hok
    cases hok
  | none =>
    rw [hfind] at hok
    cases hok
    refine ⟨rfl, fun e he => ?_⟩
    simpa using List.find?_eq_none.mp hfind e he

/-- The one section of an output without headers. -/
theorem sections_ok_of_no_header (h : Parted (lines output) before [])
    (hok : sections output = .ok entries) :
    ∃ rest, entries = [⟨[], Blank.trim (Ascii.openBrace :: rest)⟩] := by
  rw [sections_of_no_header h] at hok
  by_cases hbrace : Ascii.openBrace ∈ output
  · obtain ⟨front, rest, rfl, hfront⟩ := List.eq_append_cons_of_mem hbrace
    rw [bare_of_brace hfront] at hok
    cases hok
    exact ⟨rest, rfl⟩
  · rw [bare_of_no_brace hbrace] at hok
    cases hok

/-- The lines of an output hold a header exactly if one is found. -/
theorem Parted.exists_heads_iff (h : Parted (lines output) before found) :
    (∃ line ∈ lines output, Heads line) ↔ found ≠ [] := by
  have hmem : ∀ line, line ∈ found.map Prod.fst ↔ line ∈ lines output ∧ Heads line := by
    intro line
    rw [← h.filter_heads]
    simp
  constructor
  · rintro ⟨line, hline, hheads⟩ rfl
    simpa using (hmem line).mpr ⟨hline, hheads⟩
  · intro hne
    obtain ⟨s, hs⟩ := List.exists_mem_of_ne_nil found hne
    exact ⟨s.1, (hmem s.1).mp (List.mem_map_of_mem hs)⟩

/-- **Below headers, an empty path is that of a header that names nothing.** -/
theorem empty_path_iff (hok : sections output = .ok entries)
    (hheads : ∃ line ∈ lines output, Heads line) :
    (∃ e ∈ entries, e.path = []) ↔ ∃ line ∈ lines output, Nameless line := by
  obtain ⟨before, found, h⟩ := exists_parted (lines output)
  have hne := h.exists_heads_iff.mp hheads
  obtain ⟨rfl, -⟩ := sections_ok_of_parted h hne hok
  have hpath : ∀ s ∈ found, (sectionOf s).path = [] ↔ Nameless s.1 := fun s hs =>
    (makesSection_sectionOf (h.heads s hs)).path_eq_nil_iff
  constructor
  · rintro ⟨e, he, hempty⟩
    obtain ⟨s, hs, rfl⟩ := List.mem_map.mp he
    refine ⟨s.1, ?_, (hpath s hs).mp hempty⟩
    rw [h.all]
    exact List.mem_append_right _ (List.mem_flatMap.mpr ⟨s, hs, List.mem_cons_self⟩)
  · rintro ⟨line, hline, hnameless⟩
    have hfilter : line ∈ (lines output).filter fun line => decide (Heads line) := by
      simpa using ⟨hline, hnameless.heads⟩
    rw [h.filter_heads] at hfilter
    obtain ⟨s, hs, rfl⟩ := List.mem_map.mp hfilter
    exact ⟨sectionOf s, List.mem_map_of_mem hs, (hpath s hs).mpr hnameless⟩

/-- A failure to decode is that of one of the sections. -/
theorem exists_of_decodeEach_error {opts : Options} {sections : List Section} {trouble : Trouble}
    (h : (decodeEach opts sections).result = .error trouble) :
    ∃ s ∈ sections, ∃ failure, trouble = .document s.path failure ∧
      (decodeSourceUnit opts s.document).result = .error failure := by
  induction sections with
  | nil => cases h
  | cons s rest ih =>
    cases hs : (decodeSourceUnit opts s.document).result with
    | error failure =>
      rw [decodeEach_cons_of_error hs] at h
      cases h
      exact ⟨s, List.mem_cons_self, failure, rfl, hs⟩
    | ok unit =>
      rw [decodeEach_cons_of_ok hs] at h
      cases hrest : (decodeEach opts rest).result with
      | ok units => simp [hrest, Except.map] at h
      | error trouble' =>
        obtain rfl : trouble' = trouble := by simpa [hrest, Except.map] using h
        obtain ⟨s', hs', hfound⟩ := ih hrest
        exact ⟨s', List.mem_cons_of_mem s hs', hfound⟩

/-- **What an empty path means.**  If an output can be taken apart, there is a section, and every
document has something in it and no white space at its ends.  Without a header there is one section
and its path is empty.  With one, a path is empty exactly if a header names nothing; so if
every header names something, every failure to decode a section is named by a path that is not empty. -/
theorem empty_path_of_sections (hok : sections output = .ok entries) :
    entries ≠ [] ∧ (∀ e ∈ entries, e.document ≠ [] ∧ Blank.Trimmed e.document) ∧
    ((∀ line ∈ lines output, ¬ Heads line) → ∃ e, entries = [e] ∧ e.path = []) ∧
    ((∃ line ∈ lines output, Heads line) →
      ((∃ e ∈ entries, e.path = []) ↔ ∃ line ∈ lines output, Nameless line)) ∧
    ∀ opts cancelled path failure,
      (decodeSections opts cancelled output).result = .error (.document path failure) →
      (∃ e ∈ entries, e.path = path ∧
        (decodeSourceUnit opts e.document).result = .error failure) ∧
      ((∃ line ∈ lines output, Heads line) → (∀ line ∈ lines output, ¬ Nameless line) →
        path ≠ [] ∧
          (Trouble.document path failure).message = path ++ utf8 ": " ++ failure.message) := by
  have hentries : entries ≠ [] ∧ (∀ e ∈ entries, e.document ≠ [] ∧ Blank.Trimmed e.document) ∧
      ((∀ line ∈ lines output, ¬ Heads line) → ∃ e, entries = [e] ∧ e.path = []) := by
    obtain ⟨before, found, h⟩ := exists_parted (lines output)
    by_cases hne : found = []
    · subst hne
      obtain ⟨rest, rfl⟩ := sections_ok_of_no_header h hok
      refine ⟨by simp, ?_, fun _ => ⟨_, rfl, rfl⟩⟩
      simpa using ⟨trim_brace_ne_nil rest, Blank.trimmed_trim _⟩
    · obtain ⟨rfl, hfull⟩ := sections_ok_of_parted h hne hok
      refine ⟨by simpa using hne, fun e he => ⟨hfull e he, ?_⟩, fun hnone => ?_⟩
      · obtain ⟨s, -, rfl⟩ := List.mem_map.mp he
        exact Blank.trimmed_trim _
      · obtain ⟨line, hline, hheads⟩ := h.exists_heads_iff.mpr hne
        exact absurd hheads (hnone line hline)
  refine ⟨hentries.1, hentries.2.1, hentries.2.2, empty_path_iff hok, ?_⟩
  intro opts cancelled path failure hfailed
  obtain ⟨e, he, rfl, hdecoded⟩ : ∃ e ∈ entries, e.path = path ∧
      (decodeSourceUnit opts e.document).result = .error failure := by
    rw [decodeSections, hok] at hfailed
    cases cancelled with
    | true => cases hfailed
    | false =>
      obtain ⟨e, he, failure', heq, hdecoded⟩ := exists_of_decodeEach_error hfailed
      cases heq
      exact ⟨e, he, rfl, hdecoded⟩
  refine ⟨⟨e, he, rfl, hdecoded⟩, fun hheads hnamed => ?_⟩
  have hpath : e.path ≠ [] := by
    intro hempty
    obtain ⟨line, hline, hnameless⟩ := (empty_path_iff hok hheads).mp ⟨e, he, hempty⟩
    exact hnamed line hline hnameless
  exact ⟨hpath, by rw [Trouble.message, if_neg hpath]⟩

end Entries

/-- A header that names something: the failure below it is named by its path. -/
theorem empty_path_of_sections_named :
    let output := utf8 "======= a =======\n" ++ utf8 "[]\n"
    let failure : Failure := { cause := .notObject (utf8 "[]") }
    sections output = .ok [⟨utf8 "a", utf8 "[]"⟩] ∧
      (decodeSections ⟨0, false⟩ false output).result = .error (.document (utf8 "a") failure) ∧
      (Trouble.document (utf8 "a") failure).message = utf8 "a" ++ utf8 ": " ++ failure.message := by
  intro output failure
  have hok : sections output = .ok [⟨utf8 "a", utf8 "[]"⟩] := by decide +kernel
  have hdecoded : (decodeSourceUnit ⟨0, false⟩ (utf8 "[]")).result = .error failure :=
    Outcome.failure?_eq_some_iff.mp (by decide +kernel)
  have hfailed : (decodeSections ⟨0, false⟩ false output).result =
      .error (.document (utf8 "a") failure) := by
    rw [decodeSections, hok]
    exact congrArg Outcome.result (decodeEach_cons_of_error hdecoded)
  obtain ⟨-, -, -, hempty, hfailures⟩ := empty_path_of_sections hok
  have hheads : ∃ line ∈ lines output, Heads line := by decide +kernel
  have hnamed : ∀ line ∈ lines output, ¬ Nameless line := by
    intro line hline hnameless
    obtain ⟨e, he, hpath⟩ := (hempty hheads).mpr ⟨line, hline, hnameless⟩
    rw [List.mem_singleton.mp he] at hpath
    exact absurd hpath (by decide +kernel)
  exact ⟨hok, hfailed, ((hfailures _ _ _ _ hfailed).2 hheads hnamed).2⟩

/-- Two headers, the first of which names nothing: its section has an empty path, although it stands
below a header and is not the only one. -/
theorem empty_path_below_header :
    let output := utf8 "=======   =======\n" ++ utf8 "\x7b\x7d\n" ++
      utf8 "======= b =======\n" ++ utf8 "\x7b\x7d\n"
    sections output = .ok [⟨[], utf8 "\x7b\x7d"⟩, ⟨utf8 "b", utf8 "\x7b\x7d"⟩] ∧
      Heads (utf8 "=======   =======") ∧
      ¬ ∀ entries, sections output = .ok entries → ∀ e ∈ entries, e.path = [] →
        entries = [e] ∧ ∀ line ∈ lines output, ¬ Heads line := by
  intro output
  have hok : sections output = .ok [⟨[], utf8 "\x7b\x7d"⟩, ⟨utf8 "b", utf8 "\x7b\x7d"⟩] := by
    decide +kernel
  refine ⟨hok, by decide +kernel, fun hclaim => ?_⟩
  obtain ⟨hsingle, -⟩ := hclaim _ hok ⟨[], utf8 "\x7b\x7d"⟩ (by simp) rfl
  simp at hsingle

end CompilerOutput

end SolidityTree
