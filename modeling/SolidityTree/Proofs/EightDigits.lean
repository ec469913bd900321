import SolidityTree.Proofs.Composition

/-!
# What is said of a text that is no selector

The digits of a selector are read in pairs from left to right, and the first trouble ends the reading.
What is said of a text that is refused does NOT depend on this order: a text with any byte that is no
digit is said to be no hexadecimal text, wherever that byte stands, and only of the others is the
length looked at (`scanned_readHex`).  So a text is read exactly if it has `EightDigits`, and
`Refused text trouble` gives the trouble of every other text by the text as a whole
(`ofText_eq_error_iff`).

A function that is in order up to its selector then fails at the selector, with the same words
(`node_of_refused`).

Contents
* §1  scanning in pairs
* §2  texts that are refused
* §3  functions
* §4  selectors that are stored
-/

namespace SolidityTree

namespace Selector

/-! ## 1. Scanning in pairs -/

/-- A hexadecimal digit of either case. -/
def IsHexDigit (b : UInt8) : Prop := b ∈ utf8 "0123456789abcdefABCDEF"

theorem isSome_hexValue?_iff {b : UInt8} : (hexValue? b).isSome ↔ IsHexDigit b := by
  have all : ∀ n : Fin 256, (hexValue? (UInt8.ofNat n)).isSome ↔
      UInt8.ofNat n ∈ utf8 "0123456789abcdefABCDEF" := by decide +kernel
  have at_b := all ⟨b.toNat, b.toNat_lt⟩
  rwa [UInt8.ofNat_toNat] at at_b

theorem isHexDigit_of_some {b : UInt8} {k : Nat} (h : hexValue? b = some k) : IsHexDigit b :=
  isSome_hexValue?_iff.mp (Option.isSome_of_eq_some h)

theorem not_isHexDigit_of_none {b : UInt8} (h : hexValue? b = none) : ¬ IsHexDigit b := by
  rw [← isSome_hexValue?_iff, h]
  exact Bool.false_ne_true

/-- **What scanning some bytes gives**, said without an order. -/
inductive Scanned (bs : Bytes) : Except Trouble Bytes → Prop
  | notHex : (∃ b ∈ bs, ¬ IsHexDigit b) → Scanned bs (.error .notHex)
  | oddLength : (∀ b ∈ bs, IsHexDigit b) → bs.length % 2 = 1 → Scanned bs (.error .oddLength)
  | bytes {out : Bytes} : (∀ b ∈ bs, IsHexDigit b) → bs.length = 2 * out.length →
      Scanned bs (.ok out)

/-- Two digits in front of some bytes leave the trouble with them as it is. -/
theorem Scanned.pair {a b : UInt8} {rest : Bytes} {r : Except Trouble Bytes} (ha : IsHexDigit a)
    (hb : IsHexDigit b) (o : UInt8) (h : Scanned rest r) :
    Scanned (a :: b :: rest) (r.map (o :: ·)) := by
  have all (h : ∀ c ∈ rest, IsHexDigit c) : ∀ c ∈ a :: b :: rest, IsHexDigit c :=
    List.forall_mem_cons.mpr ⟨ha, List.forall_mem_cons.mpr ⟨hb, h⟩⟩
  cases h with
  | notHex h =>
    obtain ⟨c, hc, hno⟩ := h
    exact .notHex ⟨c, by simp [hc], hno⟩
  | oddLength hall hodd =>
    refine .oddLength (all hall) ?_
    simp only [List.length_cons]
    omega
  | bytes hall hlength =>
    refine .bytes (all hall) ?_
    simp only [List.length_cons]
    omega

/-- **Scanning in pairs** classifies the bytes as a whole. -/
theorem scanned_readHex : ∀ bs : Bytes, Scanned bs (readHex bs)
  | [] => .bytes nofun rfl
  | [b] => by
    rw [readHex]
    cases hb : hexValue? b with
    | some k => exact .oddLength (List.forall_mem_singleton.mpr (isHexDigit_of_some hb)) rfl
    | none => exact .notHex ⟨b, List.mem_singleton_self b, not_isHexDigit_of_none hb⟩
  | a :: b :: rest => by
    rw [readHex]
    cases ha : hexValue? a with
    | none => exact .notHex ⟨a, by simp, not_isHexDigit_of_none ha⟩
    | some high =>
      cases hb : hexValue? b with
      | none => exact .notHex ⟨b, by simp, not_isHexDigit_of_none hb⟩
      | some low =>
        exact (scanned_readHex rest).pair (isHexDigit_of_some ha) (isHexDigit_of_some hb) _

/-! ## 2. Texts that are refused -/

/-- A text of eight hexadecimal digits and nothing else. -/
def EightDigits (text : String) : Prop :=
  (utf8 text).length = 8 ∧ ∀ b ∈ utf8 text, IsHexDigit b

/-- **Why a text is refused.** -/
inductive Refused (text : String) : Trouble → Prop
  /-- Some byte is no digit. -/
  | notHex : (∃ b ∈ utf8 text, ¬ IsHexDigit b) → Refused text .notHex
  /-- All bytes are digits, but their number is odd. -/
  | oddLength : (∀ b ∈ utf8 text, IsHexDigit b) → (utf8 text).length % 2 = 1 →
      Refused text .oddLength
  /-- All bytes are digits, and they write another number of bytes than four. -/
  | wrongSize {count : Nat} : (∀ b ∈ utf8 text, IsHexDigit b) →
      (utf8 text).length = 2 * count → count ≠ 4 → Refused text (.wrongSize count)

/-- What a message says after the text. -/
def Trouble.reason : Trouble → String
  | .notHex => ": invalid hex string"
  | .oddLength => ": hex string of odd length"
  | .wrongSize count => " has " ++ Decimal.writeNat count ++ " bytes, want 4"

variable {text : String}

/-- **A text has eight digits or is refused.** -/
theorem ofText_cases (text : String) :
    (∃ s, ofText text = .ok s) ∧ EightDigits text ∨
      ∃ trouble, ofText text = .error trouble ∧ Refused text trouble := by
  have scanned := scanned_readHex (utf8 text)
  rw [ofText]
  generalize readHex (utf8 text) = r at scanned
  cases scanned with
  | notHex h => exact .inr ⟨.notHex, rfl, .notHex h⟩
  | oddLength hall hodd => exact .inr ⟨.oddLength, rfl, .oddLength hall hodd⟩
  | @bytes out hall hlength =>
    by_cases h : out.length = 4
    · exact .inl ⟨⟨⟨out, h⟩, dif_pos h⟩, by rw [hlength, h], hall⟩
    · exact .inr ⟨.wrongSize out.length, dif_neg h, .wrongSize hall hlength h⟩

theorem Refused.not_eightDigits {trouble : Trouble} (h : Refused text trouble) :
    ¬ EightDigits text := by
  rintro ⟨hlength, hall⟩
  cases h with
  | notHex h =>
    obtain ⟨b, hb, hno⟩ := h
    exact hno (hall b hb)
  | oddLength _ hodd => omega
  | wrongSize _ hcount hne => omega

/-- A text is refused for one reason only. -/
theorem Refused.unique {trouble trouble' : Trouble} (h : Refused text trouble)
    (h' : Refused text trouble') : trouble = trouble' := by
  have clash : (∃ b ∈ utf8 text, ¬ IsHexDigit b) → ¬ ∀ b ∈ utf8 text, IsHexDigit b :=
    fun ⟨b, hb, hno⟩ hall => hno (hall b hb)
  cases h with
  | notHex hno =>
    cases h' with
    | notHex => rfl
    | oddLength hall _ | wrongSize hall _ _ => exact absurd hall (clash hno)
  | oddLength hall hodd =>
    cases h' with
    | notHex hno => exact absurd hall (clash hno)
    | oddLength => rfl
    | wrongSize _ hcount _ => omega
  | wrongSize hall hcount _ =>
    cases h' with
    | notHex hno => exact absurd hall (clash hno)
    | oddLength _ hodd => omega
    | wrongSize _ hcount' _ =>
      congr 1
      omega

theorem exists_refused_of_not_eightDigits (h : ¬ EightDigits text) :
    ∃ trouble, Refused text trouble := by
  rcases ofText_cases text with ⟨-, height⟩ | ⟨trouble, -, hrefused⟩
  · exact absurd height h
  · exact ⟨trouble, hrefused⟩

theorem Refused.eq_iff {trouble trouble' : Trouble} (h : Refused text trouble) :
    trouble = trouble' ↔ Refused text trouble' :=
  ⟨fun he => he ▸ h, fun h' => h.unique h'⟩

theorem refused_notHex_iff : Refused text .notHex ↔ ∃ b ∈ utf8 text, ¬ IsHexDigit b :=
  ⟨fun | .notHex h => h, .notHex⟩

theorem refused_oddLength_iff : Refused text .oddLength ↔
    (∀ b ∈ utf8 text, IsHexDigit b) ∧ (utf8 text).length % 2 = 1 :=
  ⟨fun | .oddLength hall hodd => ⟨hall, hodd⟩, fun ⟨hall, hodd⟩ => .oddLength hall hodd⟩

theorem refused_wrongSize_iff (hnot : ¬ EightDigits text) {count : Nat} :
    Refused text (.wrongSize count) ↔
      (∀ b ∈ utf8 text, IsHexDigit b) ∧ (utf8 text).length = 2 * count := by
  constructor
  · rintro (_ | _ | ⟨hall, hcount, -⟩)
    exact ⟨hall, hcount⟩
  · rintro ⟨hall, hcount⟩
    refine .wrongSize hall hcount ?_
    rintro rfl
    exact hnot ⟨hcount, hall⟩

theorem exists_ofText_iff : (∃ s, ofText text = .ok s) ↔ EightDigits text := by
  rcases ofText_cases text with ⟨hok, height⟩ | ⟨trouble, herror, hrefused⟩
  · exact iff_of_true hok height
  · refine iff_of_false ?_ hrefused.not_eightDigits
    rintro ⟨s, hs⟩
    rw [hs] at herror
    cases herror

/-- **The trouble with a text** is given by the text as a whole. -/
theorem ofText_eq_error_iff {trouble : Trouble} :
    ofText text = .error trouble ↔ Refused text trouble := by
  rcases ofText_cases text with ⟨⟨s, hs⟩, height⟩ | ⟨trouble', herror, hrefused⟩
  · rw [hs]
    exact iff_of_false nofun fun h => h.not_eightDigits height
  · rw [herror, Except.error.injEq]
    exact ⟨fun h => h ▸ hrefused, fun h => hrefused.unique h⟩

/-- The digits of a selector are in lower case. -/
theorem toLower_of_text_eq {s : Selector} {digits : String} (h : s.text = "0x" ++ digits) :
    digits.toLower = digits := by
  have hdigits : s.text = "0x" ++ digits.toLower := by
    have hsame : digits = .ofList (s.bytes.flatMap hexByte) := by
      rw [← String.toList_inj, String.toList_ofList]
      have hlist := congrArg String.toList h
      rw [text, String.toList_ofList, String.toList_append] at hlist
      exact (List.cons.inj (List.cons.inj hlist).2).2.symm
    rw [hsame]
    exact s.writtenBy_digits
  have hlist := congrArg String.toList (hdigits.symm.trans h)
  rw [String.toList_append, String.toList_append] at hlist
  exact String.toList_inj.mp (List.append_cancel_left hlist)

end Selector

/-! ## 3. Functions -/

open Json

/-- **A function that is in order up to its selector**: its tag, its required members and its place
are. -/
structure FunctionOpens (members : List (String × Json)) (id : Int64) : Prop where
  tag : Tagged members "FunctionDefinition"
  id : Required members "id" IsInt id
  name : ∃ name, Required members "name" IsText name
  kind : ∃ kind, Required members "kind" (IsWord FunctionKind.word) kind
  visibility : ∃ visibility, Required members "visibility" (IsWord Visibility.word) visibility
  mutability : ∃ mutability, Required members "stateMutability" (IsWord Mutability.word) mutability
  src : ∃ src, Defaulted members "src" IsText "" src

/-- An optional scalar that is there and cannot be read. -/
theorem Object.optional_eq_failAt {α : Type} {o : Object} {field : String} {v : Json}
    {read : Json → Except Cause α} {cause : Cause} (has : Has o.members field v) (hne : v ≠ .null)
    (unreadable : read v = .error cause) : o.optional field read = o.failAt field cause := by
  let p : Part o := ⟨v, size_le_of_last? (last?_eq_some_iff.mpr has)⟩
  have hpart : o.part? field = some p := part?_eq_some_iff.mpr ⟨has, hne⟩
  simp only [optional, hpart, readAt, p, unreadable]
  rfl

/-- The failure of a function at its selector, the function standing at `path`. -/
def Failure.atSelector (path : Path) (id : Int64) (cause : Cause) : Failure :=
  ⟨path, some "functionSelector", "FunctionDefinition", some id, cause⟩

/-- **A function fails at a selector that is refused**, with the cause of the selector. -/
theorem Decode.node_of_refused {opts : Options} {depth : Nat} (shallow : opts.tooDeep depth = false)
    {source : Thunk Bytes} {members : List (String × Json)} {id : Int64}
    (opens : FunctionOpens members id) {v : Json} (has : Has members "functionSelector" v)
    (hne : v ≠ .null) {cause : Cause} (refused : v.toSelector = .error cause) :
    node opts depth none (.obj source members) =
      .fail (.atSelector [] id cause) := by
  obtain ⟨tag, hid, ⟨name, hname⟩, ⟨kind, hkind⟩, ⟨visibility, hvisibility⟩,
    ⟨mutability, hmutability⟩, ⟨src, hsrc⟩⟩ := opens
  have hreadable : readableId members = some id := readableId_eq_some_iff.mpr (.inl hid)
  have hof : Kind.ofTag? "FunctionDefinition" = some .functionDefinition := rfl
  rw [node_obj shallow, tagOf_eq_ok_iff.mpr tag]
  simp only [object, hof, known, functionDefinition, hreadable]
  rw [Object.required_eq_pure reads_toInt hid, pure_bind,
    Object.required_eq_pure reads_toText hname, pure_bind,
    Object.required_eq_pure reads_toFunctionKind hkind, pure_bind,
    Object.required_eq_pure reads_toVisibility hvisibility, pure_bind,
    Object.required_eq_pure reads_toMutability hmutability, pure_bind,
    Object.optionalD_eq_pure reads_toText hsrc, pure_bind,
    Object.optional_eq_failAt has hne refused]
  rfl

theorem Failure.place_atSelector (path : Path) (id : Int64) (cause : Cause) :
    (atSelector path id cause).place = path.text ++ ".functionSelector" := by
  have field : ".functionSelector" = "." ++ "functionSelector" := by decide
  rw [field, ← String.append_assoc]
  rfl

theorem Failure.message_atSelector (path : Path) (id : Int64) (cause : Cause) :
    (atSelector path id cause).message =
      utf8 ("decode " ++ path.text ++ ".functionSelector (FunctionDefinition id="
        ++ Decimal.write id ++ "): ") ++ cause.message := by
  have context : (atSelector path id cause).context =
      " (FunctionDefinition id=" ++ Decimal.write id ++ ")" := by
    have named : " (FunctionDefinition id=" = " (" ++ "FunctionDefinition" ++ " id=" := by decide
    rw [named]
    rfl
  have between : ".functionSelector (FunctionDefinition id=" =
      ".functionSelector" ++ " (FunctionDefinition id=" := by decide
  have colon : "): " = ")" ++ ": " := by decide
  rw [Failure.message, place_atSelector, context, between, colon]
  simp only [String.append_assoc]
  rfl

/-! ## 4. Selectors that are stored -/

namespace Selector

section Stored

variable {text : String} {source : Thunk Bytes} {held : Selector}

theorem storeSelector_eq_ok_iff {s : Selector} :
    (Json.str source text).storeSelector held = .ok () s ↔ ofText text = .ok s := by
  have read : (Json.str source text).toSelector = (ofText text).mapError (.badSelector text) := rfl
  rw [storeSelector, read]
  cases ofText text with
  | ok s' =>
    constructor
    · rintro ⟨⟩
      rfl
    · rintro ⟨⟩
      rfl
  | error trouble => exact iff_of_false nofun nofun

theorem toSelector_of_refused {trouble : Trouble} (h : Refused text trouble) :
    (Json.str source text).toSelector = .error (.badSelector text trouble) := by
  simp only [toSelector, toText, ofText_eq_error_iff.mpr h]
  rfl

/-- What cannot be read leaves the place as it is. -/
theorem storeSelector_of_refused {trouble : Trouble} (h : Refused text trouble) :
    (Json.str source text).storeSelector held = .error (.badSelector text trouble) held := by
  rw [storeSelector, toSelector_of_refused h]
  rfl

theorem Trouble.detail_eq (text : String) (trouble : Trouble) :
    trouble.detail text = "functionSelector " ++ Quoted.quote text ++ trouble.reason := by
  cases trouble with
  | notHex => rfl
  | oddLength => rfl
  | wrongSize count =>
    unfold Trouble.detail Trouble.reason
    simp only [String.append_assoc]

theorem message_badSelector (text : String) (trouble : Trouble) :
    (Cause.badSelector text trouble).message =
      utf8 ("unexpected field shape: functionSelector " ++ Quoted.quote text ++ trouble.reason) := by
  have words : "unexpected field shape: functionSelector " =
      "unexpected field shape" ++ (": " ++ "functionSelector ") := by decide
  show utf8 "unexpected field shape" ++ utf8 ": " ++ utf8 (trouble.detail text) = _
  rw [trouble.detail_eq, words, ← utf8_append, ← utf8_append]
  simp only [String.append_assoc]

end Stored

/-- **A selector is read exactly from eight digits.**  Given are a string of a document that denotes
`text`, and a place that holds a selector.

The string is read if and only if the text has eight hexadecimal digits of either case, and then what
is read is written as the text in lower case.  So the digits of a selector, in either case, are read
as that selector.

Any other text is refused as the wrong shape for a member, the place is left as it is, and what is
said is decided by the text as a whole: that it is no hexadecimal text if any of its bytes is no
digit, otherwise that its length is odd if it is, and otherwise how many bytes it writes.

A function that is in order up to a selector that is refused fails there, at any path that is not too
deep, and with the same words. -/
theorem stored_exactly_eight_digits (text : String) (source : Thunk Bytes) (held : Selector) :
    let v := Json.str source text
    ((∃ s, v.storeSelector held = .ok () s) ↔ EightDigits text) ∧
    (∀ s, v.storeSelector held = .ok () s → s.text = "0x" ++ text.toLower) ∧
    (∀ (s : Selector) digits, s.text = "0x" ++ digits → text.toLower = digits.toLower →
      v.storeSelector held = .ok () s) ∧
    (¬ EightDigits text → ∃ trouble, let cause := Cause.badSelector text trouble
      v.storeSelector held = .error cause held ∧ cause.category = .fieldShape ∧
      cause.message =
        utf8 ("unexpected field shape: functionSelector " ++ Quoted.quote text ++ trouble.reason) ∧
      (trouble = .notHex ↔ ∃ b ∈ utf8 text, ¬ IsHexDigit b) ∧
      (trouble = .oddLength ↔
        (∀ b ∈ utf8 text, IsHexDigit b) ∧ (utf8 text).length % 2 = 1) ∧
      (∀ count, trouble = .wrongSize count ↔
        (∀ b ∈ utf8 text, IsHexDigit b) ∧ (utf8 text).length = 2 * count) ∧
      ∀ members id, FunctionOpens members id → Has members "functionSelector" v →
        ∀ (opts : Options) (path : Path) (whole : Thunk Bytes), opts.tooDeep path.length = false →
          ∃ e, (Decode.node opts path.length none (.obj whole members)).below path = .fail e ∧
            e.place = path.text ++ ".functionSelector" ∧ e.cause = cause ∧
            e.message = utf8 ("decode " ++ path.text ++ ".functionSelector (FunctionDefinition id="
              ++ Decimal.write id ++ "): ") ++ cause.message) := by
  intro v
  have stored_ok : ∀ {s}, v.storeSelector held = .ok () s ↔ ofText text = .ok s :=
    storeSelector_eq_ok_iff
  refine ⟨?_, ?_, ?_, ?_⟩
  · rw [← exists_ofText_iff]
    exact exists_congr fun s => stored_ok
  · intro s hs
    exact ofText_eq_ok_iff.mp (stored_ok.mp hs)
  · intro s digits hdigits hlower
    refine stored_ok.mpr (ofText_eq_ok_iff.mpr ?_)
    rw [WrittenBy, hlower, toLower_of_text_eq hdigits, hdigits]
  · intro hnot
    obtain ⟨trouble, refused⟩ := exists_refused_of_not_eightDigits hnot
    refine ⟨trouble, storeSelector_of_refused refused, rfl, message_badSelector text trouble,
      refused.eq_iff.trans refused_notHex_iff, refused.eq_iff.trans refused_oddLength_iff,
      fun count => refused.eq_iff.trans (refused_wrongSize_iff hnot), ?_⟩
    intro members id opens has opts path whole shallow
    have hne : Json.str source text ≠ .null := by simp
    have failed : (Decode.node opts path.length none (.obj whole members)).below path =
        .fail (.atSelector path id (.badSelector text trouble)) := by
      rw [Decode.node_of_refused shallow opens has hne (toSelector_of_refused refused),
        Outcome.below_eq]
      simp only [Outcome.fail, List.map_nil, Except.mapError, Failure.below, Failure.atSelector,
        List.append_nil]
    exact ⟨_, failed, Failure.place_atSelector path id _, rfl, Failure.message_atSelector path id _⟩

/-- Eight digits of both cases are read, but not with a prefix, which has a letter that is no digit.
With such a selector a function, the second node of a unit, fails. -/
theorem stored_exactly_eight_digits_prefixed :
    let source : Thunk Bytes := Thunk.pure []
    let held : Selector := ⟨[1, 2, 3, 4], rfl⟩
    let transfer : Selector := ⟨[0xa9, 0x05, 0x9c, 0xbb], rfl⟩
    let prefixed := Json.str source "0xa9059cbb"
    let function := [("nodeType", Json.str source "FunctionDefinition"), ("id", .num [0x37]),
      ("name", .str source "f"), ("kind", .str source "function"),
      ("visibility", .str source "public"), ("stateMutability", .str source "pure"),
      ("functionSelector", prefixed)]
    (Json.str source "A9059cbB").storeSelector held = .ok () transfer ∧
    prefixed.storeSelector held = .error (.badSelector "0xa9059cbb" .notHex) held ∧
    ∃ e, (Decode.node ⟨0, true⟩ 1 none (.obj source function)).below [.nodes 1] = .fail e ∧
      e.place = "$.nodes[1].functionSelector" ∧ e.cause = .badSelector "0xa9059cbb" .notHex := by
  intro source held transfer prefixed function
  have opens : FunctionOpens function 7 := {
    tag := ⟨_, last?_eq_some_iff.mp rfl, nofun, source, rfl⟩
    id := ⟨_, last?_eq_some_iff.mp rfl, nofun, _, rfl, Decimal.read_eq_ok_iff.mp (by decide)⟩
    name := ⟨_, _, last?_eq_some_iff.mp rfl, nofun, source, rfl⟩
    kind := ⟨.function, _, last?_eq_some_iff.mp rfl, nofun, source, rfl⟩
    visibility := ⟨.pub, _, last?_eq_some_iff.mp rfl, nofun, source, rfl⟩
    mutability := ⟨.pure, _, last?_eq_some_iff.mp rfl, nofun, source, rfl⟩
    src := ⟨"", none, .inl (by decide), rfl⟩ }
  obtain ⟨-, -, reads, -⟩ := stored_exactly_eight_digits "A9059cbB" source held
  obtain ⟨-, -, -, refuses⟩ := stored_exactly_eight_digits "0xa9059cbb" source held
  obtain ⟨trouble, kept, -, -, notHex, -, -, fails⟩ := refuses (by
    rintro ⟨hlength, -⟩
    exact absurd hlength (by decide))
  obtain rfl := notHex.mpr ⟨0x78, by decide, by unfold IsHexDigit; decide⟩
  obtain ⟨e, failed, place, cause, -⟩ := fails function 7 opens (last?_eq_some_iff.mp rfl)
    ⟨0, true⟩ [.nodes 1] source rfl
  have lower : "A9059cbB".toLower = "a9059cbb".toLower := by
    have toLower_eq (text : String) : text.toLower = text.map Char.toLower := rfl
    rw [toLower_eq, toLower_eq, ← String.toList_inj, String.toList_map, String.toList_map]
    decide
  refine ⟨reads transfer "a9059cbb" (by decide) lower, kept, e, failed, ?_, cause⟩
  rw [place]
  decide

end Selector

end SolidityTree
