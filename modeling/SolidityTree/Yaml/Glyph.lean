import SolidityTree.Text.Utf8

/-!
# Characters with their places

Indentation decides how a YAML text is read, so every character is read together with its line and
column.  The three line ends CR LF, CR and U+0085 are read as one line feed; U+2028 and U+2029 end
a line too and stay themselves.  Control characters other than the tab and the line ends are refused.
-/

namespace SolidityTree.Yaml

/-! ## 1. Character classes -/

/-- A space or tab. -/
def isBlank (c : Char) : Bool := c = ' ' || c = '\t'

/-- A character that ends a line. -/
def isBreak (c : Char) : Bool := c = '\n' || c = '\u2028' || c = '\u2029'

/-- A character that a YAML text may hold. -/
def isAllowed (c : Char) : Bool :=
  let n := c.toNat
  n = 0x09 || n = 0x0a || n = 0x0d || (0x20 ≤ n && n ≤ 0x7e) || n = 0x85 ||
    (0xa0 ≤ n && n ≤ 0xd7ff) || (0xe000 ≤ n && n ≤ 0xfffd) || 0x10000 ≤ n

/-- The byte order mark. -/
def byteOrderMark : Char := '\ufeff'

/-! ## 2. Places -/

/-- A character, its line, its column and its number in the text, all from 0. -/
structure Glyph where
  char : Char
  line : Nat
  column : Nat
  index : Nat
  deriving DecidableEq

/-- Puts each character in its place. -/
def locate (line column index : Nat) : List Char → List Glyph
  | [] => []
  | '\r' :: '\n' :: rest => ⟨'\n', line, column, index⟩ :: locate (line + 1) 0 (index + 2) rest
  | c :: rest =>
    let c := if c = '\r' ∨ c = '\u0085' then '\n' else c
    if isBreak c then ⟨c, line, column, index⟩ :: locate (line + 1) 0 (index + 1) rest
    else ⟨c, line, column, index⟩ :: locate line (column + 1) (index + 1) rest

/-- The characters of a text in their places, without a byte order mark at the head; `none` if the
text is not UTF-8 or holds a character that it may not. -/
def glyphs? (text : Bytes) : Option (List Glyph) := do
  let chars ← Utf8.decode? text
  let chars :=
    match chars with
    | c :: rest => if c = byteOrderMark then rest else chars
    | [] => chars
  if chars.all isAllowed then some (locate 0 0 0 chars) else none

/-! ## 3. Looking ahead -/

/-- Whether a text is at its end, at a blank or at a line end. -/
def atGap : List Glyph → Bool
  | [] => true
  | g :: _ => isBlank g.char || isBreak g.char

/-- Whether a character comes next. -/
def startsWith (c : Char) : List Glyph → Bool
  | [] => false
  | g :: _ => g.char = c

/-- Whether three equal characters at the start of a line, with a gap after them, come next. -/
def atMarker (c : Char) : List Glyph → Bool
  | g₁ :: g₂ :: g₃ :: rest =>
    g₁.column = 0 && g₁.char = c && g₂.char = c && g₃.char = c && atGap rest
  | _ => false

/-- Whether a marker of the start or end of a document comes next. -/
def atDocumentMarker (gs : List Glyph) : Bool := atMarker '-' gs || atMarker '.' gs

end SolidityTree.Yaml
