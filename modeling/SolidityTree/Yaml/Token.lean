import SolidityTree.Yaml.Scalar

/-!
# Tokens

The indentation of a YAML text is turned into tokens that open and close its blocks.  A key of a
mapping shows only by the colon after it: wherever a key may stand, the place is remembered as a
`PossibleKey`, and when the colon comes, the tokens that open the mapping and the key are put in
front of it.  A possible key must be on one line and within 1024 characters; one that stands where only a
key can stand is required.

`scan` gives the tokens up to the end of the text or to the first trouble, and says which.
-/

namespace SolidityTree.Yaml

/-! ## 1. Tokens -/

/-- A token of a YAML text. -/
inductive Token where
  | documentStart
  | documentEnd
  | streamEnd
  | blockSequence
  | blockMapping
  | blockEnd
  | flowSequence
  | flowSequenceEnd
  | flowMapping
  | flowMappingEnd
  /-- The dash in front of an item. -/
  | dash
  | comma
  | key
  | value
  | alias (name : String)
  | anchor (name : String)
  | scalar (plain : Bool) (text : String)
  deriving DecidableEq

/-- A place where a key may begin. -/
structure PossibleKey where
  required : Bool
  /-- The number of the token that it begins with. -/
  token : Nat
  line : Nat
  column : Nat
  index : Nat

/-- What the scanner knows between two tokens. -/
structure Scanner where
  rest : List Glyph
  tokens : List Token := []
  /-- The column of the innermost block; -1 outside all blocks. -/
  indent : Int := -1
  /-- The columns of the blocks around it. -/
  indents : List Int := []
  /-- Whether a key may begin here. -/
  keyAllowed : Bool := true
  /-- The possible key at the current level of brackets. -/
  possible : Option PossibleKey := none
  /-- The possible keys at the levels around it. -/
  outer : List (Option PossibleKey) := []
  finished : Bool := false

namespace Scanner

/-- Whether the scanner is between brackets. -/
def inFlow (s : Scanner) : Bool := !s.outer.isEmpty

/-- One token more. -/
def push (s : Scanner) (t : Token) : Scanner := { s with tokens := s.tokens ++ [t] }

/-- A token put in front of the one with number `at`. -/
def insert (s : Scanner) (number : Nat) (t : Token) : Scanner :=
  { s with tokens := s.tokens.take number ++ t :: s.tokens.drop number }

/-- The text goes on after a token. -/
def goOn (s : Scanner) (rest : List Glyph) : Scanner := { s with rest := rest }

/-- Sets whether a key may begin. -/
def allowKey (s : Scanner) (allowed : Bool) : Scanner := { s with keyAllowed := allowed }

/-! ## 2. Indentation -/

/-- Opens a block at a column, unless one is open there or further right; the token goes in front of
the one with number `at`. -/
def roll (s : Scanner) (column : Nat) (number : Nat) (t : Token) : Scanner :=
  if !s.inFlow && s.indent < column then
    { s.insert number t with indent := column, indents := s.indent :: s.indents }
  else s

/-- The blocks that end at a column: how many, and what is left. -/
def unrolled (column : Int) : (indent : Int) → List Int → Nat × Int × List Int
  | indent, [] => (0, indent, [])
  | indent, outer :: indents =>
    if column < indent then
      let (count, left) := unrolled column outer indents
      (count + 1, left)
    else (0, indent, outer :: indents)

/-- Closes the blocks further right than a column. -/
def unroll (s : Scanner) (column : Int) : Scanner :=
  if s.inFlow then s
  else
    let (count, indent, indents) := unrolled column s.indent s.indents
    { s with
      tokens := s.tokens ++ List.replicate count .blockEnd, indent := indent, indents := indents }

/-! ## 3. Possible keys -/

/-- Gives up the possible key of this level; `none` if it was required. -/
def dropKey (s : Scanner) : Option Scanner :=
  match s.possible with
  | some k => if k.required then none else some { s with possible := none }
  | none => some s

/-- Remembers that a key may begin at the next token. -/
def saveKey (s : Scanner) (g : Glyph) : Option Scanner :=
  if s.keyAllowed then do
    let s ← s.dropKey
    return { s with
      possible := some {
        required := !s.inFlow && s.indent = g.column
        token := s.tokens.length
        line := g.line
        column := g.column
        index := g.index } }
  else some s

/-- The possible key that a colon at `g` belongs to; no longer one if it is too far away, which it may
not be if it was required. -/
def keyAt (s : Scanner) (g : Glyph) : Option (Option PossibleKey) :=
  match s.possible with
  | none => some none
  | some k =>
    if k.line < g.line ∨ k.index + 1024 < g.index then
      if k.required then none else some none
    else some (some k)

/-! ## 4. Gaps between tokens -/

/-- Whether only gaps come before the next comment. -/
def commentFollows (gs : List Glyph) : Bool :=
  startsWith '#' (gs.dropWhile fun g => isBlank g.char || isBreak g.char)

/-- What a gap between tokens is made of. -/
inductive Gap where
  | blank
  | comment
  /-- Between a comment and a comment after it. -/
  | toComment

/-- Skips blanks, comments and line ends.  Outside brackets a tab may not stand where a key may begin,
and after a line end a key may begin. -/
def skipGap (inFlow : Bool) : (allowed : Bool) → Gap → List Glyph → Bool × List Glyph
  | allowed, _, [] => (allowed, [])
  | allowed, .comment, g :: rest =>
    if !isBreak g.char then skipGap inFlow allowed .comment rest
    else if commentFollows rest then skipGap inFlow (allowed || !inFlow) .toComment rest
    else skipGap inFlow (allowed || !inFlow) .blank rest
  | allowed, .toComment, g :: rest =>
    skipGap inFlow allowed (if g.char = '#' then .comment else .toComment) rest
  | allowed, .blank, g :: rest =>
    if g.column = 0 && g.char = byteOrderMark then skipGap inFlow allowed .blank rest
    else if g.char = ' ' || ((inFlow || !allowed) && g.char = '\t') then
      skipGap inFlow allowed .blank rest
    else if g.char = '#' then skipGap inFlow allowed .comment rest
    else if isBreak g.char then skipGap inFlow (allowed || !inFlow) .blank rest
    else (allowed, g :: rest)

/-! ## 5. Fetching a token -/

/-- The end of the text, which ends all blocks. -/
def fetchEnd (s : Scanner) : Option Scanner := do
  let s ← (s.unroll (-1)).dropKey
  return { (s.allowKey false).push .streamEnd with finished := true }

/-- A marker of a document. -/
def fetchMarker (s : Scanner) (t : Token) : Option Scanner := do
  let s ← (s.unroll (-1)).dropKey
  return ((s.allowKey false).push t).goOn (s.rest.drop 3)

/-- An opening bracket, which may begin a key. -/
def fetchOpen (s : Scanner) (g : Glyph) (rest : List Glyph) (t : Token) : Option Scanner := do
  let s ← s.saveKey g
  let s := { s with outer := s.possible :: s.outer, possible := none }
  return ((s.allowKey true).push t).goOn rest

/-- A closing bracket. -/
def fetchClose (s : Scanner) (rest : List Glyph) (t : Token) : Option Scanner := do
  let s ← s.dropKey
  let s :=
    match s.outer with
    | [] => s
    | k :: outer => { s with possible := k, outer := outer }
  return ((s.allowKey false).push t).goOn rest

/-- A comma. -/
def fetchComma (s : Scanner) (rest : List Glyph) : Option Scanner := do
  let s ← s.dropKey
  return ((s.allowKey true).push .comma).goOn rest

/-- The dash in front of an item. -/
def fetchDash (s : Scanner) (g : Glyph) (rest : List Glyph) : Option Scanner := do
  if !s.inFlow && !s.keyAllowed then none
  else
    let s ← (s.roll g.column s.tokens.length .blockSequence).dropKey
    return ((s.allowKey true).push .dash).goOn rest

/-- The mark in front of a key. -/
def fetchKey (s : Scanner) (g : Glyph) (rest : List Glyph) : Option Scanner := do
  if !s.inFlow && !s.keyAllowed then none
  else
    let s ← (s.roll g.column s.tokens.length .blockMapping).dropKey
    return ((s.allowKey !s.inFlow).push .key).goOn rest

/-- The colon in front of a value. -/
def fetchValue (s : Scanner) (g : Glyph) (rest : List Glyph) : Option Scanner := do
  match ← s.keyAt g with
  | some k =>
    let s := (s.insert k.token .key).roll k.column k.token .blockMapping
    return (({ s with possible := none }.allowKey false).push .value).goOn rest
  | none =>
    if !s.inFlow && !s.keyAllowed then none
    else
      let s := { s with possible := none }.roll g.column s.tokens.length .blockMapping
      return ((s.allowKey !s.inFlow).push .value).goOn rest

/-- A character of a name. -/
def isNameChar (c : Char) : Bool := c.isAlphanum || c = '_' || c = '-'

/-- What may come after a name. -/
def endsName : List Glyph → Bool
  | [] => true
  | g :: rest => atGap (g :: rest) || "?:,]\x7d%@`".toList.contains g.char

/-- The name of a node or a reference to one. -/
def fetchName (s : Scanner) (g : Glyph) (rest : List Glyph) (t : String → Token) :
    Option Scanner := do
  let s ← s.saveKey g
  let name := (rest.takeWhile fun g => isNameChar g.char).map Glyph.char
  let rest := rest.dropWhile fun g => isNameChar g.char
  if name.isEmpty || !endsName rest then none
  else return ((s.allowKey false).push (t (String.ofList name))).goOn rest

/-- A block of lines. -/
def fetchBlock (s : Scanner) (rest : List Glyph) (literal : Bool) : Option Scanner := do
  let s ← s.dropKey
  let (text, rest) ← readBlock literal s.indent rest
  return ((s.allowKey true).push (.scalar false text)).goOn rest

/-- A quoted text. -/
def fetchQuoted (s : Scanner) (g : Glyph) (rest : List Glyph) (single : Bool) :
    Option Scanner := do
  let s ← s.saveKey g
  let (text, rest) ← readQuoted single rest
  return ((s.allowKey false).push (.scalar false text)).goOn rest

/-- A plain text. -/
def fetchPlain (s : Scanner) (g : Glyph) (rest : List Glyph) : Option Scanner := do
  let s ← s.saveKey g
  let (text, multiline, rest) ← readPlain s.inFlow (s.indent + 1) (g :: rest)
  return ((s.allowKey multiline).push (.scalar true text)).goOn rest

/-- Whether a plain text may begin with a character. -/
def startsPlain (s : Scanner) (g : Glyph) (rest : List Glyph) : Bool :=
  !"-?:,[]\x7b\x7d#&*!|>'\"%@`".toList.contains g.char && !isBlank g.char && !isBreak g.char
    || (g.char = '-' && !(rest.head?.any fun g => isBlank g.char))
    || (!s.inFlow && (g.char = '?' || g.char = ':') && !atGap rest)

/-- The token that begins with `g`. -/
def fetchAt (s : Scanner) (g : Glyph) (rest : List Glyph) : Option Scanner :=
  if g.column = 0 && g.char = '%' then none
  else if atMarker '-' (g :: rest) then s.fetchMarker .documentStart
  else if atMarker '.' (g :: rest) then s.fetchMarker .documentEnd
  else if g.char = '[' then s.fetchOpen g rest .flowSequence
  else if g.char = '\x7b' then s.fetchOpen g rest .flowMapping
  else if g.char = ']' then s.fetchClose rest .flowSequenceEnd
  else if g.char = '\x7d' then s.fetchClose rest .flowMappingEnd
  else if g.char = ',' then s.fetchComma rest
  else if g.char = '-' && atGap rest then s.fetchDash g rest
  else if g.char = '?' && (s.inFlow || atGap rest) then s.fetchKey g rest
  else if g.char = ':' && (s.inFlow || atGap rest) then s.fetchValue g rest
  else if g.char = '*' then s.fetchName g rest .alias
  else if g.char = '&' then s.fetchName g rest .anchor
  else if g.char = '|' && !s.inFlow then s.fetchBlock rest true
  else if g.char = '>' && !s.inFlow then s.fetchBlock rest false
  else if g.char = '\'' then s.fetchQuoted g rest true
  else if g.char = '"' then s.fetchQuoted g rest false
  else if s.startsPlain g rest then s.fetchPlain g rest
  else none

/-- The next token. -/
def fetch (s : Scanner) : Option Scanner :=
  let (allowed, rest) := skipGap s.inFlow s.keyAllowed .blank s.rest
  let s := { s with rest := rest, keyAllowed := allowed }
  match rest with
  | [] => s.fetchEnd
  | g :: rest => (s.unroll g.column).fetchAt g rest

/-! ## 6. Texts -/

/-- Fetches at most `n` tokens. -/
def scanFrom : (n : Nat) → Scanner → List Token × Bool
  | 0, s => (s.tokens, s.finished)
  | n + 1, s =>
    if s.finished then (s.tokens, true)
    else
      match s.fetch with
      | some s => scanFrom n s
      | none => (s.tokens, false)

end Scanner

/-- The tokens of a text, and whether they are all. -/
def scan (gs : List Glyph) : List Token × Bool := Scanner.scanFrom (gs.length + 1) { rest := gs }

end SolidityTree.Yaml
