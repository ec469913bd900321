import SolidityTree.Yaml.Glyph

/-!
# Scalars

Three ways of writing a text: plain, between quotes, and as a block of lines.  Plain and quoted texts
may run over several lines; a single line end between two words is read as a space, and of several the
first is dropped.  In a literal block line ends stay, and in a folded block they are read like those
of a plain text between lines that are not indented further.

Each reader returns the text and what comes after it, and `none` for a text that is not well formed.
-/

namespace SolidityTree.Yaml

/-! ## 1. Gaps inside a text -/

/-- What stands between two words of a text. -/
inductive Joint where
  | none
  | blanks (cs : List Char)
  /-- A line end and the further line ends after it. -/
  | breaks (first : Char) (more : List Char)
  /-- A line end that is escaped and the further line ends after it. -/
  | escaped (more : List Char)

namespace Joint

/-- What a gap reads as. -/
def text : Joint → List Char
  | none => []
  | blanks cs => cs
  | breaks first more =>
    if first = '\n' then (if more.isEmpty then [' '] else more) else first :: more
  | escaped more => more

/-- Whether a gap goes over the end of a line. -/
def isMultiline : Joint → Bool
  | breaks _ _ | escaped _ => true
  | _ => false

/-- A gap with one blank more; blanks at the start of a line do not count. -/
def addBlank (c : Char) : Joint → Joint
  | none => blanks [c]
  | blanks cs => blanks (cs ++ [c])
  | j => j

/-- A gap with one line end more. -/
def addBreak (c : Char) : Joint → Joint
  | breaks first more => breaks first (more ++ [c])
  | escaped more => escaped (more ++ [c])
  | _ => breaks c []

end Joint

/-- Reads a gap to its end. -/
def readGap (joint : Joint) : List Glyph → Joint × List Glyph
  | [] => (joint, [])
  | g :: rest =>
    if isBlank g.char then readGap (joint.addBlank g.char) rest
    else if isBreak g.char then readGap (joint.addBreak g.char) rest
    else (joint, g :: rest)

/-- Whether a gap has a tab where the next line should be indented by spaces. -/
def tabInIndent (indent : Int) (multiline : Bool) : List Glyph → Bool
  | [] => false
  | g :: rest =>
    if isBlank g.char then
      (multiline && g.char = '\t' && (g.column : Int) < indent) || tabInIndent indent multiline rest
    else if isBreak g.char then tabInIndent indent true rest
    else false

/-! ## 2. Plain texts -/

/-- A character that ends a plain text between brackets. -/
def isFlowMark (c : Char) : Bool :=
  c = ',' || c = '?' || c = '[' || c = ']' || c = '\x7b' || c = '\x7d'

/-- One word of a plain text. -/
def plainWord (inFlow : Bool) : List Glyph → List Char × List Glyph
  | [] => ([], [])
  | g :: rest =>
    if isBlank g.char || isBreak g.char || (g.char = ':' && atGap rest) ||
        (inFlow && isFlowMark g.char) then
      ([], g :: rest)
    else
      let (word, rest) := plainWord inFlow rest
      (g.char :: word, rest)

/-- A plain text from a word on, at most `n` words.  It goes on over line ends as long as the lines
are indented to `indent`.  The result says whether it ended with a line. -/
def plainFrom (inFlow : Bool) (indent : Int) :
    (n : Nat) → List Char → Joint → List Glyph → Option (List Char × Bool × List Glyph)
  | 0, text, joint, gs => some (text, joint.isMultiline, gs)
  | n + 1, text, joint, gs =>
    if atDocumentMarker gs || startsWith '#' gs then some (text, joint.isMultiline, gs)
    else
      let (word, rest) := plainWord inFlow gs
      let (text, joint) :=
        if word.isEmpty then (text, joint) else (text ++ joint.text ++ word, Joint.none)
      match rest with
      | [] => some (text, joint.isMultiline, [])
      | g :: _ =>
        if !(isBlank g.char || isBreak g.char) then some (text, joint.isMultiline, rest)
        else if tabInIndent indent joint.isMultiline rest then none
        else
          let (joint, rest) := readGap joint rest
          match rest with
          | [] => some (text, joint.isMultiline, [])
          | g :: _ =>
            if !inFlow && (g.column : Int) < indent then some (text, joint.isMultiline, rest)
            else plainFrom inFlow indent n text joint rest

/-- A plain text, whether it ended with a line, and what comes after it. -/
def readPlain (inFlow : Bool) (indent : Int) (gs : List Glyph) :
    Option (String × Bool × List Glyph) := do
  let (text, multiline, rest) ← plainFrom inFlow indent (gs.length + 1) [] .none gs
  return (String.ofList text, multiline, rest)

/-! ## 3. Quoted texts -/

/-- The character that a letter stands for after a backslash. -/
def escapeLetter? (c : Char) : Option Char :=
  match c with
  | '0' => some '\x00'
  | 'a' => some '\x07'
  | 'b' => some '\x08'
  | 't' => some '\x09'
  | '\t' => some '\x09'
  | 'n' => some '\x0a'
  | 'v' => some '\x0b'
  | 'f' => some '\x0c'
  | 'r' => some '\x0d'
  | 'e' => some '\x1b'
  | ' ' => some ' '
  | '"' => some '"'
  | '\'' => some '\''
  | '\\' => some '\\'
  | '/' => some '/'
  | 'N' => some '\u0085'
  | '_' => some '\u00a0'
  | 'L' => some '\u2028'
  | 'P' => some '\u2029'
  | _ => none

/-- How many hexadecimal digits follow a letter after a backslash. -/
def escapeWidth? (c : Char) : Option Nat :=
  match c with
  | 'x' => some 2
  | 'u' => some 4
  | 'U' => some 8
  | _ => none

/-- The value of `width` hexadecimal digits. -/
def hexNumber? : (width : Nat) → Nat → List Glyph → Option Nat
  | 0, n, _ => some n
  | _ + 1, _, [] => none
  | width + 1, n, g :: rest =>
    if g.char.toNat < 0x80 then
      match hexValue? g.char.toNat.toUInt8 with
      | some d => hexNumber? width (n * 16 + d) rest
      | none => none
    else none

/-- The character of an escape after its backslash. -/
def readEscape : List Glyph → Option (Char × List Glyph)
  | [] => none
  | g :: rest =>
    match escapeLetter? g.char with
    | some c => some (c, rest)
    | none => do
      let width ← escapeWidth? g.char
      let n ← hexNumber? width 0 rest
      if (0xd800 ≤ n ∧ n ≤ 0xdfff) ∨ 0x10ffff < n then none
      else some (Char.ofNat n, rest.drop width)

/-- How a word of a quoted text ends. -/
inductive WordEnd where
  | gap
  | quote
  | escapedBreak

/-- One word of a text between single quotes, in which a quote is written twice. -/
def singleWord : List Glyph → List Char × WordEnd × List Glyph
  | [] => ([], .gap, [])
  | g :: rest =>
    if isBlank g.char || isBreak g.char then ([], .gap, g :: rest)
    else if g.char = '\'' then
      match rest with
      | g' :: rest' =>
        if g'.char = '\'' then
          let (word, ending, rest) := singleWord rest'
          ('\'' :: word, ending, rest)
        else ([], .quote, rest)
      | [] => ([], .quote, [])
    else
      let (word, ending, rest) := singleWord rest
      (g.char :: word, ending, rest)

/-- One word of a text between double quotes, at most `n` characters of it. -/
def doubleWord : (n : Nat) → List Glyph → Option (List Char × WordEnd × List Glyph)
  | 0, _ => none
  | _ + 1, [] => some ([], .gap, [])
  | n + 1, g :: rest =>
    if isBlank g.char || isBreak g.char then some ([], .gap, g :: rest)
    else if g.char = '"' then some ([], .quote, rest)
    else if g.char = '\\' then
      match rest with
      | [] => none
      | b :: rest' =>
        if isBreak b.char then some ([], .escapedBreak, rest')
        else do
          let (c, rest) ← readEscape rest
          let (word, ending, rest) ← doubleWord n rest
          return (c :: word, ending, rest)
    else do
      let (word, ending, rest) ← doubleWord n rest
      return (g.char :: word, ending, rest)

/-- A quoted text from a word on, at most `n` words, to its closing quote. -/
def quotedFrom (single : Bool) : (n : Nat) → List Char → List Glyph → Option (List Char × List Glyph)
  | 0, _, _ => none
  | _ + 1, _, [] => none
  | n + 1, text, gs =>
    if atDocumentMarker gs then none
    else do
      let (word, ending, rest) ←
        if single then some (singleWord gs) else doubleWord (gs.length + 1) gs
      let text := text ++ word
      match ending with
      | .quote => return (text, rest)
      | .gap =>
        let (joint, rest) := readGap .none rest
        quotedFrom single n (text ++ joint.text) rest
      | .escapedBreak =>
        let (joint, rest) := readGap (.escaped []) rest
        quotedFrom single n (text ++ joint.text) rest

/-- A quoted text after its opening quote. -/
def readQuoted (single : Bool) (gs : List Glyph) : Option (String × List Glyph) := do
  let (text, rest) ← quotedFrom single (gs.length + 1) [] gs
  return (String.ofList text, rest)

/-! ## 4. Blocks of lines -/

/-- What a block does with the line ends at its end. -/
inductive Chomping where
  | strip
  | clip
  | keep
  deriving DecidableEq

/-- A sign of chomping. -/
def chomping? : List Glyph → Option (Chomping × List Glyph)
  | [] => none
  | g :: rest =>
    if g.char = '+' then some (.keep, rest)
    else if g.char = '-' then some (.strip, rest)
    else none

/-- A digit of indentation, which may not be 0; no digit is read as 0. -/
def increment : List Glyph → Option (Nat × List Glyph)
  | [] => some (0, [])
  | g :: rest =>
    if g.char = '0' then none
    else if g.char.isDigit then some (g.char.toNat - '0'.toNat, rest)
    else some (0, g :: rest)

/-- The signs after the mark of a block: chomping and indentation in either order. -/
def blockSigns (gs : List Glyph) : Option (Chomping × Nat × List Glyph) :=
  match chomping? gs with
  | some (chomping, rest) => do
    let (n, rest) ← increment rest
    return (chomping, n, rest)
  | none => do
    let (n, rest) ← increment gs
    if n = 0 then return (.clip, 0, rest)
    else
      match chomping? rest with
      | some (chomping, rest) => return (chomping, n, rest)
      | none => return (.clip, n, rest)

/-- The rest of the line that a block begins on: blanks and a comment. -/
def blockLineEnd (gs : List Glyph) : Option (List Glyph) :=
  let rest := gs.dropWhile fun g => isBlank g.char
  let rest := if startsWith '#' rest then rest.dropWhile (fun g => !isBreak g.char) else rest
  match rest with
  | [] => some []
  | g :: rest => if isBreak g.char then some rest else none

/-- The indentation and empty lines in front of a line of a block: the widest indentation seen, the line
ends, and what comes after them.  An indentation of 0 is not known yet. -/
def blockBreaks (indent : Nat) (widest : Nat) (breaks : List Char) :
    List Glyph → Option (Nat × List Char × List Glyph)
  | [] => some (widest, breaks, [])
  | g :: rest =>
    let inIndent := indent = 0 || g.column < indent
    if inIndent && g.char = ' ' then blockBreaks indent widest breaks rest
    else if inIndent && g.char = '\t' then none
    else if isBreak g.char then
      blockBreaks indent (max widest g.column) (breaks ++ [g.char]) rest
    else some (max widest g.column, breaks, g :: rest)

/-- The text of a block so far. -/
structure BlockText where
  text : List Char
  /-- The end of the last line. -/
  lineEnd : List Char
  /-- The ends of the empty lines after it. -/
  breaks : List Char
  /-- Whether the last line begins with a blank. -/
  indented : Bool

/-- The lines of a block, at most `n`. -/
def blockLines (literal : Bool) (indent : Nat) :
    (n : Nat) → BlockText → List Glyph → Option (BlockText × List Glyph)
  | 0, b, gs => some (b, gs)
  | _ + 1, b, [] => some (b, [])
  | n + 1, b, g :: rest =>
    if g.column ≠ indent then some (b, g :: rest)
    else
      let indented := isBlank g.char
      let folds := !literal && !b.indented && !indented && b.lineEnd.head? = some '\n'
      let joint :=
        if folds then (if b.breaks.isEmpty then [' '] else b.breaks) else b.lineEnd ++ b.breaks
      let line := (g :: rest).takeWhile fun g => !isBreak g.char
      let after := (g :: rest).dropWhile fun g => !isBreak g.char
      let text := b.text ++ joint ++ line.map Glyph.char
      match after with
      | [] => some (⟨text, [], [], indented⟩, [])
      | e :: after => do
        let (_, breaks, after) ← blockBreaks indent 0 [] after
        blockLines literal indent n ⟨text, [e.char], breaks, indented⟩ after

/-- A block of lines after its mark; `parent` is the indentation of what the block stands in. -/
def readBlock (literal : Bool) (parent : Int) (gs : List Glyph) : Option (String × List Glyph) := do
  let (chomping, step, rest) ← blockSigns gs
  let rest ← blockLineEnd rest
  let given := if step = 0 then 0 else (max parent 0).toNat + step
  let (widest, breaks, rest) ← blockBreaks given 0 [] rest
  let indent := if given = 0 then max (max widest (parent + 1).toNat) 1 else given
  let (b, rest) ← blockLines literal indent (rest.length + 1) ⟨[], [], breaks, false⟩ rest
  let tail :=
    match chomping with
    | .strip => []
    | .clip => b.lineEnd
    | .keep => b.lineEnd ++ b.breaks
  return (String.ofList (b.text ++ tail), rest)

end SolidityTree.Yaml
