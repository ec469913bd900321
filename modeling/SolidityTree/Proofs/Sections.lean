import SolidityTree.CompilerOutput
import SolidityTree.Proofs.Blame
import SolidityTree.Proofs.Blank
import SolidityTree.Proofs.OwnText
import SolidityTree.Proofs.Pieces

/-!
# Printing sections and reading them back

`printed before files` is what a compiler prints: some lines of its own, and then for each file a
header line and a document.  Taken apart again it gives every path and every document without the
white space around it, and decoding it decodes the documents one by one (`sections_printed`).

A path may hold anything but a line feed, also the marks of a header.  A document may be ANY text
that is valid JSON, and this is where the argument lies: none of its lines is a header.  White space
is the only thing that a line of JSON may have in front of its first token, since a string holds no
line feed; and no token begins with an equals sign (`not_isHeader_of_mem_split`).

A carriage return at the end of a line is dropped with the line feed, so a document is asked to hold
none: inside a document it would be white space, but the text would not come back as it was.

Contents
* §1  lines
* §2  headers
* §3  the lines of a JSON text
* §4  gathering the sections
* §5  decoding them in order
-/

namespace SolidityTree

/-! ## 1. Lines -/

namespace CompilerOutput

/-- Lines that hold no line feed are the lines of their text. -/
theorem rawLines_flatMap {ls : List Bytes} (h : ∀ l ∈ ls, Ascii.lf ∉ l) :
    rawLines (ls.flatMap (· ++ [Ascii.lf])) = ls := by
  rw [rawLines, ← List.append_nil (ls.flatMap _), Pieces.split_flatMap h List.not_mem_nil]
  simp

theorem dropReturn_eq_self {line : Bytes} (h : line.getLast? ≠ some Ascii.cr) :
    dropReturn line = line := if_neg h

/-- What is dropped is white space. -/
theorem exists_dropReturn (line : Bytes) : ∃ w, Blank.White w ∧ line = dropReturn line ++ w := by
  unfold dropReturn
  split
  · next h =>
    refine ⟨[Ascii.cr], Blank.white_of_isOne (by decide), ?_⟩
    exact (List.dropLast_append_getLast? _ h).symm
  · exact ⟨[], .nil, (List.append_nil line).symm⟩

/-! ## 2. Headers -/

/-- **A header line**: something between the two marks, and white space around it. -/
def IsHeader (line : Bytes) : Prop :=
  ∃ w path w', Blank.White w ∧ Blank.White w' ∧ path ≠ [] ∧
    line = w ++ (opening ++ (path ++ (closing ++ w')))

/-- The line that names a file. -/
def headerLine (path : Bytes) : Bytes := opening ++ (path ++ closing)

theorem opening_eq : opening = 0x3d :: utf8 "====== " := by decide +kernel

theorem closing_eq : closing = utf8 " ======" ++ [0x3d] := by decide +kernel

theorem solidEnds_headerLine (path : Bytes) : Blank.SolidEnds (headerLine path) := by
  constructor
  · exact ⟨0x3d, _, by rw [headerLine, opening_eq]; rfl, by decide⟩
  · exact ⟨opening ++ (path ++ utf8 " ======"), 0x3d,
      by rw [headerLine, closing_eq]; simp only [List.append_assoc], by decide⟩

/-- The path is found between the marks, whatever it holds. -/
theorem header?_around {w w' path : Bytes} (hw : Blank.White w) (hw' : Blank.White w')
    (hne : path ≠ []) :
    header? (w ++ (headerLine path ++ w')) = some (Blank.trim path) := by
  have htrim : Blank.trim (w ++ (headerLine path ++ w')) = headerLine path :=
    Blank.trim_around hw hw' (solidEnds_headerLine path)
  have hopens : opening.isPrefixOf (headerLine path) = true :=
    List.isPrefixOf_iff_prefix.mpr ⟨path ++ closing, rfl⟩
  have hcloses : closing.isSuffixOf (headerLine path) = true :=
    List.isSuffixOf_iff_suffix.mpr ⟨opening ++ path, by rw [headerLine, List.append_assoc]⟩
  have hlength : (headerLine path).length = opening.length + (path.length + closing.length) := by
    rw [headerLine, List.length_append, List.length_append]
  have hpos : 0 < path.length := List.length_pos_iff.mpr hne
  have hroom : opening.length + closing.length < (headerLine path).length := by omega
  have hdrop : (headerLine path).drop opening.length = path ++ closing := List.drop_left
  have htake : (path ++ closing).take ((headerLine path).length - opening.length - closing.length)
      = path := by
    rw [show (headerLine path).length - opening.length - closing.length = path.length by omega]
    exact List.take_left
  simp only [header?, htrim, hdrop, htake]
  rw [if_pos ⟨hopens, hcloses, hroom⟩]

theorem isHeader_of_header? {line path : Bytes} (h : header? line = some path) :
    IsHeader line := by
  obtain ⟨w, w', hw, hw', heq⟩ := Blank.exists_white line
  simp only [header?] at h
  split at h
  · next hmarks =>
    obtain ⟨hopens, hcloses, hroom⟩ := hmarks
    obtain ⟨after, hafter⟩ := List.isPrefixOf_iff_prefix.mp hopens
    obtain ⟨before, hbefore⟩ := List.isSuffixOf_iff_suffix.mp hcloses
    -- the marks do not overlap, so the closing one ends what stands behind the opening one
    have hle : opening.length ≤ before.length := by
      rw [← hbefore, List.length_append] at hroom
      omega
    obtain ⟨between, rfl⟩ : opening <+: before :=
      List.prefix_of_prefix_length_le ⟨after, hafter⟩ ⟨closing, hbefore⟩ hle
    refine ⟨w, between, w', hw, hw', ?_, ?_⟩
    · rintro rfl
      rw [← hbefore] at hroom
      simp at hroom
    · rw [heq, ← hbefore]
      simp only [List.append_assoc]
  · cases h

/-- The test for headers finds exactly the header lines. -/
theorem header?_eq_none_iff {line : Bytes} : header? line = none ↔ ¬ IsHeader line := by
  constructor
  · rintro h ⟨w, path, w', hw, hw', hne, rfl⟩
    have := header?_around hw hw' hne
    simp only [headerLine, List.append_assoc] at this
    rw [this] at h
    cases h
  · intro h
    cases hh : header? line with
    | none => rfl
    | some path => exact absurd (isHeader_of_header? hh) h

/-- A carriage return at its end makes no difference. -/
theorem header?_dropReturn {line : Bytes} (h : ¬ IsHeader line) :
    header? (dropReturn line) = none := by
  rw [header?_eq_none_iff]
  rintro ⟨w, path, w', hw, hw', hne, heq⟩
  obtain ⟨r, hr, hline⟩ := exists_dropReturn line
  refine h ⟨w, path, w' ++ r, hw, hw'.append hr, hne, ?_⟩
  rw [hline, heq]
  simp only [List.append_assoc]

end CompilerOutput

/-! ## 3. The lines of a JSON text -/

namespace Json

/-- **Behind a line feed the reader is between two tokens**: a string refuses the line feed and a
word ends at it. -/
theorem between_of_run_lf {text : Bytes} {root : Json} : ∀ {before : Bytes} {st : State},
    run st (before ++ Ascii.lf :: text) = some root →
    ∃ place stack, run ⟨.between place, stack⟩ text = some root
  | [], ⟨mode, stack⟩, h => by
    rw [List.nil_append] at h
    cases mode with
    | between place => exact ⟨place, stack, h⟩
    | word read =>
      have hlf : isWordByte Ascii.lf = false := by decide
      cases hv : ofWord? read.reverse with
      | none => simp [run, State.step, hlf, hv] at h
      | some v =>
        obtain ⟨place, stack', hput⟩ := put_between v stack
        rw [run_word_end hv (endsWord_cons hlf text), hput] at h
        exact ⟨place, stack', h⟩
    | string isName read escaped => cases h
  | b :: before, st, h => by
    rw [List.cons_append, run] at h
    split at h
    · cases h
    · next st' _ => exact between_of_run_lf h

/-- A byte that a token begins with. -/
def isMark (b : UInt8) : Bool := isEdge b || b = Ascii.comma || b = Ascii.colon

theorem isMark_of_beginValue {stack : List Frame} {b : UInt8} {rest : Bytes} {st : State}
    (h : beginValue stack b rest = some st) : isMark b = true := by
  by_contra hb
  simp only [isMark, isEdge, Bool.or_eq_true, decide_eq_true_eq, not_or] at hb
  simp [beginValue, hb] at h

/-- Between two tokens only white space is skipped. -/
theorem isMark_of_stepBetween {place : Place} {stack : List Frame} {b : UInt8} {rest : Bytes}
    {st : State} (hb : isGap b = false) (h : stepBetween place stack b rest = some st) :
    isMark b = true := by
  by_contra hmark
  have hvalue : beginValue stack b rest = none := by
    by_contra hne
    obtain ⟨st', hst'⟩ := Option.ne_none_iff_exists'.mp hne
    exact hmark (isMark_of_beginValue hst')
  simp only [isMark, isEdge, Bool.or_eq_true, decide_eq_true_eq, not_or] at hmark
  cases place <;> simp [stepBetween, hb, hvalue, afterValue, hmark] at h

theorem solid_of_isMark {b : UInt8} (h : isMark b = true) : Blank.Solid b ∧ b ≠ 0x3d := by
  revert h
  refine Blank.forall_byte (P := fun b => isMark b = true → Blank.Solid b ∧ b ≠ 0x3d) ?_ b
  decide +kernel

theorem white_of_gap {g : Bytes} (h : Gap g) : Blank.White g := by
  induction g with
  | nil => exact .nil
  | cons b g ih =>
    have one : ∀ b : UInt8, isGap b = true → Blank.isOne b = true :=
      Blank.forall_byte (by decide +kernel)
    have hb := Blank.white_of_isOne (one b (h b List.mem_cons_self))
    exact hb.append (ih fun b' hb' => h b' (List.mem_cons_of_mem b hb'))

/-- Between two tokens no header begins. -/
theorem not_isHeader_of_run {place : Place} {stack : List Frame} {line after : Bytes} {root : Json}
    (h : run ⟨.between place, stack⟩ (line ++ after) = some root) :
    ¬ CompilerOutput.IsHeader line := by
  rintro ⟨w, path, w', hw, hw', hne, hline⟩
  rw [CompilerOutput.opening_eq, List.cons_append] at hline
  rcases gap_or_byte line with hg | ⟨g, b, rest, heq, hg, hb⟩
  · have hequals : isGap 0x3d = true := by
      refine hg _ ?_
      rw [hline]
      exact List.mem_append_right w List.mem_cons_self
    exact absurd hequals (by decide)
  · rw [heq, List.append_assoc, run_gap hg, List.cons_append, run] at h
    split at h
    · cases h
    · next st hst =>
      obtain ⟨hsolid, hequals⟩ := solid_of_isMark (isMark_of_stepBetween hb hst)
      -- trimming finds the first token of the line, and it finds the equals sign
      have htoken : Blank.trimStart (g ++ b :: rest) = b :: rest :=
        Blank.trimStart_white (white_of_gap hg) hsolid
      rw [← heq, hline, Blank.trimStart_white hw (by decide)] at htoken
      exact hequals (List.cons.inj htoken).1.symm

/-- **No line of a JSON text is a header.** -/
theorem not_isHeader_of_mem_split {document line : Bytes} {v : Json}
    (valid : parse? document = some v) (h : line ∈ Pieces.split Ascii.lf document) :
    ¬ CompilerOutput.IsHeader line := by
  obtain ⟨-, after, heq | ⟨before, heq⟩⟩ := Pieces.exists_of_mem_split h
  · have hrun : run ⟨.between .value, []⟩ (line ++ after) = some v := by
      rw [← heq]
      exact valid
    exact not_isHeader_of_run hrun
  · have hrun : run start (before ++ Ascii.lf :: (line ++ after)) = some v := by
      rw [← heq]
      exact valid
    obtain ⟨place, stack, hline⟩ := between_of_run_lf hrun
    exact not_isHeader_of_run hline

/-- The text of a value begins and ends with a token. -/
theorem solidEnds_text {document : Bytes} {v : Json} (valid : parse? document = some v) :
    Blank.SolidEnds v.text := by
  obtain ⟨-, -, -, -, -, own⟩ := exists_gaps valid
  have solid : ∀ {b : UInt8}, isEdge b = true → Blank.Solid b := by
    intro b hb
    exact (solid_of_isMark (by rw [isMark, hb]; rfl)).1
  obtain ⟨b, rest, hfirst, hb⟩ := own.first
  obtain ⟨front, b', hlast, hb'⟩ := own.last
  exact ⟨⟨b, rest, hfirst, solid hb⟩, ⟨front, b', hlast, solid hb'⟩⟩

/-- Trimming a document leaves the text of its value, also with more white space behind it. -/
theorem trim_document {document w : Bytes} {v : Json} (valid : parse? document = some v)
    (hw : Blank.White w) : Blank.trim (document ++ w) = v.text := by
  obtain ⟨g, g', heq, hg, hg', -⟩ := exists_gaps valid
  have hend : Blank.White (g' ++ w) := (white_of_gap hg').append hw
  rw [heq, List.append_assoc, List.append_assoc]
  exact Blank.trim_around (white_of_gap hg) hend (solidEnds_text valid)

theorem trim_eq_text {document : Bytes} {v : Json} (valid : parse? document = some v) :
    Blank.trim document = v.text := by
  have htrim := trim_document valid .nil
  rwa [List.append_nil] at htrim

end Json

/-! ## 4. Gathering the sections -/

/-- **What may be printed**: a path that can stand in a header line, and a JSON text without
carriage returns. -/
structure Section.Printable (file : Section) : Prop where
  path_ne_nil : file.path ≠ []
  path_line : Ascii.lf ∉ file.path
  path_trimmed : Blank.Trimmed file.path
  document_valid : ∃ v, Json.parse? file.document = some v
  document_return : Ascii.cr ∉ file.document

namespace CompilerOutput

/-- Some lines, and then for each file a header line and its document. -/
def printed (before : List Bytes) (files : List Section) : Bytes :=
  before.flatMap (· ++ [Ascii.lf]) ++
    files.flatMap fun file => headerLine file.path ++ Ascii.lf :: (file.document ++ [Ascii.lf])

/-- The lines that are printed for a file. -/
def linesOf (file : Section) : List Bytes :=
  headerLine file.path :: Pieces.split Ascii.lf file.document

theorem printed_eq (before : List Bytes) (files : List Section) :
    printed before files = (before ++ files.flatMap linesOf).flatMap (· ++ [Ascii.lf]) := by
  rw [List.flatMap_append, List.flatMap_assoc, printed]
  congr 2
  funext file
  rw [linesOf, List.flatMap_cons, Pieces.flatMap_split, List.append_assoc, List.singleton_append]

theorem lf_not_mem_headerLine {path : Bytes} (h : Ascii.lf ∉ path) :
    Ascii.lf ∉ headerLine path := by
  have marks : Ascii.lf ∉ opening ∧ Ascii.lf ∉ closing := by decide +kernel
  simp only [headerLine, List.mem_append, not_or]
  exact ⟨marks.1, h, marks.2⟩

theorem dropReturn_headerLine (path : Bytes) : dropReturn (headerLine path) = headerLine path := by
  refine dropReturn_eq_self ?_
  rw [headerLine, closing_eq, ← List.append_assoc, ← List.append_assoc, List.getLast?_concat]
  decide

/-- The lines of a document hold no carriage return that could be dropped. -/
theorem map_dropReturn_split {document : Bytes} (h : Ascii.cr ∉ document) :
    (Pieces.split Ascii.lf document).map dropReturn = Pieces.split Ascii.lf document := by
  have same : ∀ line ∈ Pieces.split Ascii.lf document, dropReturn line = line := by
    intro line hline
    refine dropReturn_eq_self fun hlast => h ?_
    have hcr : Ascii.cr ∈ line := List.mem_of_getLast? hlast
    obtain ⟨-, after, rfl | ⟨before, rfl⟩⟩ := Pieces.exists_of_mem_split hline
    · exact List.mem_append_left after hcr
    · exact List.mem_append_right before (List.mem_cons_of_mem _ (List.mem_append_left after hcr))
  exact (List.map_congr_left same).trans (List.map_id _)

theorem lines_printed {before : List Bytes} {files : List Section}
    (hbefore : ∀ line ∈ before, Ascii.lf ∉ line) (hfiles : ∀ file ∈ files, file.Printable) :
    lines (printed before files) = before.map dropReturn ++ files.flatMap linesOf := by
  have hlines : ∀ line ∈ before ++ files.flatMap linesOf, Ascii.lf ∉ line := by
    intro line hline
    rcases List.mem_append.mp hline with hline | hline
    · exact hbefore line hline
    · obtain ⟨file, hfile, hline⟩ := List.mem_flatMap.mp hline
      rcases List.mem_cons.mp hline with rfl | hline
      · exact lf_not_mem_headerLine (hfiles file hfile).path_line
      · exact (Pieces.exists_of_mem_split hline).1
  have kept : ∀ file ∈ files, (linesOf file).map dropReturn = linesOf file := by
    intro file hfile
    rw [linesOf, List.map_cons, dropReturn_headerLine,
      map_dropReturn_split (hfiles file hfile).document_return]
  rw [lines, printed_eq, rawLines_flatMap hlines, List.map_append, List.map_flatMap]
  rw [List.flatMap_congr kept]

/-- Lines that are no headers belong to what stands before them. -/
theorem gather_append {ls : List Bytes} (h : ∀ line ∈ ls, header? line = none) (rest : List Bytes) :
    gather (ls ++ rest) = (ls ++ (gather rest).1, (gather rest).2) := by
  induction ls with
  | nil => rfl
  | cons line ls ih =>
    have hrest := ih fun l hl => h l (List.mem_cons_of_mem line hl)
    rw [List.cons_append, gather, hrest, h line List.mem_cons_self]
    rfl

/-- **Headers with plain lines below them** are found again, each with its path and its lines. -/
theorem gather_flatMap {α : Type} {items : List α} {head path : α → Bytes} {body : α → List Bytes}
    (hhead : ∀ a ∈ items, header? (head a) = some (path a))
    (hbody : ∀ a ∈ items, ∀ line ∈ body a, header? line = none) :
    gather (items.flatMap fun a => head a :: body a) = ([], items.map fun a => (path a, body a)) := by
  induction items with
  | nil => rfl
  | cons a items ih =>
    have hrest := ih (fun b hb => hhead b (List.mem_cons_of_mem a hb))
      fun b hb => hbody b (List.mem_cons_of_mem a hb)
    rw [List.flatMap_cons, List.cons_append, gather, gather_append (hbody a List.mem_cons_self),
      hhead a List.mem_cons_self, hrest, List.append_nil, List.map_cons]

/-- **Every file is found again** with the lines of its document. -/
theorem gather_linesOf {files : List Section} (h : ∀ file ∈ files, file.Printable) :
    gather (files.flatMap linesOf) =
      ([], files.map fun file => (file.path, Pieces.split Ascii.lf file.document)) := by
  refine gather_flatMap ?_ ?_
  · intro file hfile
    have := header?_around .nil .nil (h file hfile).path_ne_nil
    rwa [List.nil_append, List.append_nil, Blank.trim_of_trimmed (h file hfile).path_trimmed] at this
  · intro file hfile line hline
    obtain ⟨v, hv⟩ := (h file hfile).document_valid
    exact header?_eq_none_iff.mpr (Json.not_isHeader_of_mem_split hv hline)

/-- Sections are handed out as they were gathered, unless one is empty; then it is the first such that
is named. -/
theorem sections_eq_of_gather {output : Bytes} {found : List (Bytes × List Bytes)} (hne : found ≠ [])
    (h : (gather (lines output)).2 = found) : sections output =
      ((found.map fun s => (⟨s.1, documentOf s.2⟩ : Section)).find? fun s => s.document.isEmpty).elim
        (.ok (found.map fun s => ⟨s.1, documentOf s.2⟩)) fun s => .error (.emptySection s.path) := by
  unfold sections
  rw [h]
  cases found with
  | nil => exact absurd rfl hne
  | cons s found =>
    cases hfind : ((s :: found).map fun s => (⟨s.1, documentOf s.2⟩ : Section)).find?
        (fun s => s.document.isEmpty) with
    | none => simp only [hfind, Option.elim_none]
    | some e => simp only [hfind, Option.elim_some]

/-- Sections that are not empty are handed out as they were gathered. -/
theorem sections_of_gather {output : Bytes} {found : List (Bytes × List Bytes)} (hne : found ≠ [])
    (h : (gather (lines output)).2 = found) (hfull : ∀ s ∈ found, documentOf s.2 ≠ []) :
    sections output = .ok (found.map fun s => ⟨s.1, documentOf s.2⟩) := by
  have hfind : (found.map fun s => (⟨s.1, documentOf s.2⟩ : Section)).find?
      (fun s => s.document.isEmpty) = none := by
    rw [List.find?_eq_none]
    intro s hs
    obtain ⟨t, ht, rfl⟩ := List.mem_map.mp hs
    simpa using hfull t ht
  rw [sections_eq_of_gather hne h, hfind, Option.elim_none]

/-- The lines of a document put together again, and trimmed. -/
theorem documentOf_split {document : Bytes} {v : Json} (valid : Json.parse? document = some v) :
    documentOf (Pieces.split Ascii.lf document) = v.text := by
  have hlf : Blank.White [Ascii.lf] := Blank.white_of_isOne (by decide)
  rw [documentOf, Pieces.flatMap_split, Json.trim_document valid hlf]

theorem sections_of_printable {before : List Bytes} {files : List Section} (hne : files ≠ [])
    (hbefore : ∀ line ∈ before, Ascii.lf ∉ line ∧ ¬ IsHeader line)
    (hfiles : ∀ file ∈ files, file.Printable) :
    sections (printed before files) =
      .ok (files.map fun file => ⟨file.path, Blank.trim file.document⟩) := by
  have hheaders : ∀ line ∈ before.map dropReturn, header? line = none := by
    intro line hline
    obtain ⟨l, hl, rfl⟩ := List.mem_map.mp hline
    exact header?_dropReturn (hbefore l hl).2
  have hgather : (gather (lines (printed before files))).2 =
      files.map fun file => (file.path, Pieces.split Ascii.lf file.document) := by
    rw [lines_printed (fun line hline => (hbefore line hline).1) hfiles, gather_append hheaders,
      gather_linesOf hfiles]
  have hfull : ∀ s ∈ files.map fun file => (file.path, Pieces.split Ascii.lf file.document),
      documentOf s.2 ≠ [] := by
    intro s hs
    obtain ⟨file, hfile, rfl⟩ := List.mem_map.mp hs
    obtain ⟨v, hv⟩ := (hfiles file hfile).document_valid
    obtain ⟨b, rest, heq, -⟩ := (Json.solidEnds_text hv).first
    rw [documentOf_split hv, heq]
    exact List.cons_ne_nil b rest
  rw [sections_of_gather (by simpa using hne) hgather hfull, List.map_map]
  refine congrArg Except.ok (List.map_congr_left ?_)
  intro file hfile
  obtain ⟨v, hv⟩ := (hfiles file hfile).document_valid
  simp only [Function.comp_apply, documentOf_split hv, Json.trim_eq_text hv]

/-! ## 5. Decoding in order -/

/-- White space around a document makes no difference to its tree. -/
theorem decodeSourceUnit_trim {document : Bytes} {v : Json} (valid : Json.parse? document = some v)
    (opts : Options) :
    decodeSourceUnit opts (Blank.trim document) = decodeSourceUnit opts document := by
  have hown := Json.parse?_text valid (.here v)
  rw [decodeSourceUnit, decodeSourceUnit, decode, decode, Json.trim_eq_text valid, hown, valid]

theorem decodeEach_congr {opts : Options} {f : Section → Section} {files : List Section}
    (h : ∀ file ∈ files, (f file).path = file.path ∧
      decodeSourceUnit opts (f file).document = decodeSourceUnit opts file.document) :
    decodeEach opts (files.map f) = decodeEach opts files := by
  induction files with
  | nil => rfl
  | cons file files ih =>
    obtain ⟨hpath, hdocument⟩ := h file List.mem_cons_self
    rw [List.map_cons, decodeEach, decodeEach, hpath, hdocument,
      ih fun g hg => h g (List.mem_cons_of_mem file hg)]

variable {opts : Options}

/-- A section that decodes: its reports come first, its unit comes first. -/
theorem decodeEach_cons_of_ok {s : Section} {rest : List Section} {unit : Node}
    (h : (decodeSourceUnit opts s.document).result = .ok unit) :
    decodeEach opts (s :: rest) =
      ⟨(decodeSourceUnit opts s.document).reports ++ (decodeEach opts rest).reports,
        (decodeEach opts rest).result.map (unit :: ·)⟩ := by
  have hfirst : ((decodeSourceUnit opts s.document).mapError (Trouble.document s.path)).result =
      .ok unit := by
    rw [Outcome.mapError, h]
    rfl
  rw [decodeEach]
  show Outcome.bind _ _ = _
  rw [Outcome.bind, hfirst]
  show Outcome.mk _ _ = _
  cases hrest : (decodeEach opts rest).result with
  | error e => simp [Bind.bind, Outcome.bind, hrest, Outcome.mapError, Except.map]
  | ok units =>
    simp [Bind.bind, Outcome.bind, hrest, Outcome.mapError, Except.map, Pure.pure, Outcome.ok]

/-- A section that fails: nothing behind it is decoded. -/
theorem decodeEach_cons_of_error {s : Section} {rest : List Section} {e : Failure}
    (h : (decodeSourceUnit opts s.document).result = .error e) :
    decodeEach opts (s :: rest) =
      ⟨(decodeSourceUnit opts s.document).reports, .error (.document s.path e)⟩ := by
  have hfirst : ((decodeSourceUnit opts s.document).mapError (Trouble.document s.path)).result =
      .error (.document s.path e) := by
    rw [Outcome.mapError, h]
    rfl
  rw [decodeEach]
  exact Outcome.bind_of_error hfirst _

/-- **All sections decode.** -/
theorem decodeEach_of_ok {files : List Section} {units : List Node}
    (h : files.map (fun file => (decodeSourceUnit opts file.document).result) = units.map .ok) :
    decodeEach opts files =
      ⟨files.flatMap fun file => (decodeSourceUnit opts file.document).reports, .ok units⟩ := by
  induction files generalizing units with
  | nil =>
    cases units with
    | nil => rfl
    | cons unit units => cases h
  | cons file files ih =>
    cases units with
    | nil => cases h
    | cons unit units =>
      rw [List.map_cons, List.map_cons] at h
      obtain ⟨hfirst, hrest⟩ := List.cons.inj h
      rw [decodeEach_cons_of_ok hfirst, ih hrest, List.flatMap_cons]
      rfl

/-- **The first section that fails ends it.** -/
theorem decodeEach_of_error {earlier later : List Section} {file : Section} {e : Failure}
    (hearlier : ∀ f ∈ earlier, ∃ unit, (decodeSourceUnit opts f.document).result = .ok unit)
    (h : (decodeSourceUnit opts file.document).result = .error e) :
    decodeEach opts (earlier ++ file :: later) =
      ⟨(earlier ++ [file]).flatMap fun f => (decodeSourceUnit opts f.document).reports,
        .error (.document file.path e)⟩ := by
  induction earlier with
  | nil =>
    rw [List.nil_append, decodeEach_cons_of_error h, List.nil_append, List.flatMap_singleton]
  | cons f earlier ih =>
    obtain ⟨unit, hunit⟩ := hearlier f List.mem_cons_self
    have hrest := ih fun g hg => hearlier g (List.mem_cons_of_mem f hg)
    rw [List.cons_append, decodeEach_cons_of_ok hunit, hrest, List.cons_append, List.flatMap_cons]
    rfl

/-- **Printing and reading back.**  The sections of what is printed are the files, each document
without the white space around it.  Decoding gives their units in order if all of them decode; the
first one that does not ends it, and its failure is named by its path and follows the reports up to
it. -/
theorem sections_printed (before : List Bytes) (files : List Section) (opts : Options)
    (hne : files ≠ []) (hbefore : ∀ line ∈ before, Ascii.lf ∉ line ∧ ¬ IsHeader line)
    (hfiles : ∀ file ∈ files, file.Printable) :
    sections (printed before files) =
        .ok (files.map fun file => ⟨file.path, Blank.trim file.document⟩) ∧
      (∀ file ∈ files, Blank.Trimmed (Blank.trim file.document) ∧ ∃ w w',
        Blank.White w ∧ Blank.White w' ∧ file.document = w ++ (Blank.trim file.document ++ w')) ∧
      (∀ units,
        files.map (fun file => (decodeSourceUnit opts file.document).result) = units.map .ok →
        decodeSections opts false (printed before files) =
          ⟨files.flatMap fun file => (decodeSourceUnit opts file.document).reports, .ok units⟩) ∧
      ∀ earlier file later e, files = earlier ++ file :: later →
        (∀ f ∈ earlier, ∃ unit, (decodeSourceUnit opts f.document).result = .ok unit) →
        (decodeSourceUnit opts file.document).result = .error e →
        decodeSections opts false (printed before files) =
          ⟨(earlier ++ [file]).flatMap fun f => (decodeSourceUnit opts f.document).reports,
            .error (.document file.path e)⟩ ∧
        (Trouble.document file.path e).message = file.path ++ utf8 ": " ++ e.message := by
  have hsections := sections_of_printable hne hbefore hfiles
  have heach : decodeSections opts false (printed before files) = decodeEach opts files := by
    rw [decodeSections, hsections]
    refine decodeEach_congr fun file hfile => ⟨rfl, ?_⟩
    obtain ⟨v, hv⟩ := (hfiles file hfile).document_valid
    exact decodeSourceUnit_trim hv opts
  refine ⟨hsections, ?_, ?_, ?_⟩
  · intro file hfile
    obtain ⟨v, hv⟩ := (hfiles file hfile).document_valid
    refine ⟨?_, Blank.exists_white file.document⟩
    rw [Json.trim_eq_text hv]
    exact (Json.solidEnds_text hv).trimmed
  · intro units hunits
    rw [heach]
    exact decodeEach_of_ok hunits
  · rintro earlier file later e rfl hearlier hfile
    refine ⟨heach.trans (decodeEach_of_error hearlier hfile), ?_⟩
    have hpath := (hfiles file (by simp)).path_ne_nil
    rw [Trouble.message, if_neg hpath]

/-- Two files, one with the marks of a header in its path: the second is no object, and its failure
is named by that path. -/
theorem sections_printed_two :
    let unit : Section := ⟨utf8 "a.sol",
      utf8 "\n\x7b\"nodeType\":\"SourceUnit\",\n\"id\":1,\"nodes\":[]\x7d "⟩
    let list : Section := ⟨utf8 "======= b =======", utf8 " [ ]"⟩
    let output := printed [utf8 "JSON AST (compact format):\r", []] [unit, list]
    sections output =
        .ok [⟨unit.path, utf8 "\x7b\"nodeType\":\"SourceUnit\",\n\"id\":1,\"nodes\":[]\x7d"⟩,
          ⟨list.path, utf8 "[ ]"⟩] ∧
      decodeSections ⟨0, true⟩ false output =
        ⟨[], .error (.document list.path { cause := .notObject (utf8 "[ ]") })⟩ := by
  intro unit list output
  have hbefore : ∀ line ∈ [utf8 "JSON AST (compact format):\r", []],
      Ascii.lf ∉ line ∧ ¬ IsHeader line := by
    intro line hline
    rw [← header?_eq_none_iff]
    revert line
    decide +kernel
  have hfiles : ∀ file ∈ [unit, list], file.Printable := by
    intro file hfile
    rcases List.mem_pair.mp hfile with rfl | rfl
    · exact ⟨by decide +kernel, by decide +kernel, by decide +kernel,
        Option.isSome_iff_exists.mp (by decide +kernel), by decide +kernel⟩
    · exact ⟨by decide +kernel, by decide +kernel, by decide +kernel,
        Option.isSome_iff_exists.mp (by decide +kernel), by decide +kernel⟩
  obtain ⟨hsections, -, -, hfailed⟩ :=
    sections_printed [utf8 "JSON AST (compact format):\r", []] [unit, list] ⟨0, true⟩ (by simp)
      hbefore hfiles
  have hunit : ∃ t, (decodeSourceUnit ⟨0, true⟩ unit.document).result = .ok t := by
    have hisOk : (decodeSourceUnit ⟨0, true⟩ unit.document).result.toOption.isSome = true := by
      decide +kernel
    cases hr : (decodeSourceUnit ⟨0, true⟩ unit.document).result with
    | error e => simp [hr, Except.toOption] at hisOk
    | ok t => exact ⟨t, rfl⟩
  have hlist : (decodeSourceUnit ⟨0, true⟩ list.document).result =
      .error { cause := .notObject (utf8 "[ ]") } :=
    Outcome.failure?_eq_some_iff.mp (by decide +kernel)
  obtain ⟨hdecoded, -⟩ := hfailed [unit] list [] _ rfl (by simpa using hunit) hlist
  refine ⟨hsections.trans ?_, hdecoded.trans ?_⟩
  · decide +kernel
  · have hreports : ([unit] ++ [list]).flatMap
        (fun file => (decodeSourceUnit ⟨0, true⟩ file.document).reports) = [] := by
      decide +kernel
    rw [hreports]

end CompilerOutput

end SolidityTree
