import SolidityTree.Yaml.Token

/-!
# YAML values

The part of YAML that settings are written in: block and flow mappings and sequences, plain, quoted and
block texts, names and references to them.  Of several documents in a text only the first is read, and
what comes two tokens after its end is not looked at.

A plain text is not interpreted here; what it stands for depends on where it is used.  A reference is
kept together with what it refers to.

Not covered are tags and directives, which are taken for malformed, and texts in UTF-16; and there is no
limit to how much a text may refer to.

Contents
* §1  values
* §2  values of tokens
* §3  texts
-/

namespace SolidityTree

/-! ## 1. Values -/

/-- A YAML value. -/
inductive Yaml where
  /-- A text; `plain` if neither quoted nor a block. -/
  | scalar (plain : Bool) (text : String)
  | seq (items : List Yaml)
  | map (entries : List (Yaml × Yaml))
  | alias (name : String) (target : Yaml)
  /-- A reference to a value from inside it. -/
  | loop (name : String)

namespace Yaml

/-- The value of nothing at all. -/
def empty : Yaml := scalar true ""

/-! ## 2. Values of tokens -/

/-- The tokens to come, and the values named so far, the last one first; a value that is still being
read has no value yet. -/
structure Source where
  tokens : List Token
  names : List (String × Option Yaml) := []

namespace Source

/-- The next token. -/
def peek? (s : Source) : Option Token := s.tokens.head?

/-- After the next token. -/
def skip (s : Source) : Source := { s with tokens := s.tokens.tail }

/-- Whether the next token is one of several. -/
def isAt (s : Source) (ts : List Token) : Bool :=
  match s.peek? with
  | some t => ts.contains t
  | none => false

/-- A name whose value begins. -/
def declare (s : Source) (name : Option String) : Source :=
  match name with
  | some name => { s with names := (name, none) :: s.names }
  | none => s

/-- Gives the innermost open name its value. -/
def fill (name : String) (v : Yaml) : List (String × Option Yaml) → List (String × Option Yaml)
  | [] => []
  | (n, none) :: rest => if n = name then (n, some v) :: rest else (n, none) :: fill name v rest
  | entry :: rest => entry :: fill name v rest

/-- A name whose value is complete. -/
def define (s : Source) (name : Option String) (v : Yaml) : Source :=
  match name with
  | some name => { s with names := fill name v s.names }
  | none => s

/-- What a reference stands for. -/
def refer? (s : Source) (name : String) : Option Yaml :=
  match s.names.find? fun (n, _) => n = name with
  | some (_, some v) => some (.alias name v)
  | some (_, none) => some (.loop name)
  | none => none

end Source

/-- The name in front of a value, if there is one. -/
def readName (s : Source) : Option String × Source :=
  match s.peek? with
  | some (.anchor name) => (some name, s.skip)
  | _ => (none, s)

mutual

/-- A value.  `block` admits block mappings and sequences, and `indentless` a sequence whose dashes are
not indented.  A name alone names the empty value. -/
def readNode : (n : Nat) → (block indentless : Bool) → Source → Option (Yaml × Source)
  | 0, _, _, _ => none
  | n + 1, block, indentless, s =>
    match s.peek? with
    | some (.alias name) => do return (← s.refer? name, s.skip)
    | _ =>
      let (name, s) := readName s
      let s := s.declare name
      let done (r : Option (Yaml × Source)) : Option (Yaml × Source) :=
        r.map fun (v, s) => (v, s.define name v)
      match s.peek? with
      | some (.scalar plain text) => done (some (.scalar plain text, s.skip))
      | some .flowSequence => done (readFlowItems n true [] s.skip)
      | some .flowMapping => done (readFlowEntries n true [] s.skip)
      | some .dash =>
        if indentless then done (readDashes n [] s)
        else if name.isSome then done (some (empty, s)) else none
      | some .blockSequence =>
        if block then done (readItems n [] s.skip)
        else if name.isSome then done (some (empty, s)) else none
      | some .blockMapping =>
        if block then done (readEntries n [] s.skip)
        else if name.isSome then done (some (empty, s)) else none
      | _ => if name.isSome then done (some (empty, s)) else none

/-- A value, or the empty one if one of some tokens comes. -/
def readNodeUnless : (n : Nat) → (ends : List Token) → (block indentless : Bool) → Source →
    Option (Yaml × Source)
  | 0, _, _, _, _ => none
  | n + 1, ends, block, indentless, s =>
    if s.isAt ends then some (empty, s) else readNode n block indentless s

/-- The items of a block sequence after those read. -/
def readItems : (n : Nat) → List Yaml → Source → Option (Yaml × Source)
  | 0, _, _ => none
  | n + 1, items, s =>
    match s.peek? with
    | some .dash => do
      let (v, s) ← readNodeUnless n [.dash, .blockEnd] true false s.skip
      readItems n (v :: items) s
    | some .blockEnd => some (.seq items.reverse, s.skip)
    | _ => none

/-- The items of a sequence whose dashes are not indented. -/
def readDashes : (n : Nat) → List Yaml → Source → Option (Yaml × Source)
  | 0, _, _ => none
  | n + 1, items, s =>
    match s.peek? with
    | some .dash => do
      let (v, s) ← readNodeUnless n [.dash, .key, .value, .blockEnd] true false s.skip
      readDashes n (v :: items) s
    | _ => some (.seq items.reverse, s)

/-- The entries of a block mapping after those read. -/
def readEntries : (n : Nat) → List (Yaml × Yaml) → Source → Option (Yaml × Source)
  | 0, _, _ => none
  | n + 1, entries, s =>
    match s.peek? with
    | some .key => do
      let (k, s) ← readNodeUnless n [.key, .value, .blockEnd] true true s.skip
      let (v, s) ←
        if s.isAt [.value] then readNodeUnless n [.key, .value, .blockEnd] true true s.skip
        else some (empty, s)
      readEntries n ((k, v) :: entries) s
    | some .blockEnd => some (.map entries.reverse, s.skip)
    | _ => none

/-- The items of a flow sequence after those read.  An item may be a mapping of one entry without
braces. -/
def readFlowItems : (n : Nat) → (first : Bool) → List Yaml → Source → Option (Yaml × Source)
  | 0, _, _, _ => none
  | n + 1, first, items, s =>
    if s.isAt [.flowSequenceEnd] then some (.seq items.reverse, s.skip)
    else do
      let s ← if first then some s else if s.isAt [.comma] then some s.skip else none
      if s.isAt [.flowSequenceEnd] then return (.seq items.reverse, s.skip)
      else if s.isAt [.key] then
        let s := s.skip
        let (k, s) ←
          if s.isAt [.value, .comma, .flowSequenceEnd] then some (empty, s.skip)
          else readNode n false false s
        let (v, s) ←
          if s.isAt [.value] then readNodeUnless n [.comma, .flowSequenceEnd] false false s.skip
          else some (empty, s)
        readFlowItems n false (.map [(k, v)] :: items) s
      else
        let (v, s) ← readNode n false false s
        readFlowItems n false (v :: items) s

/-- The entries of a flow mapping after those read. -/
def readFlowEntries : (n : Nat) → (first : Bool) → List (Yaml × Yaml) → Source →
    Option (Yaml × Source)
  | 0, _, _, _ => none
  | n + 1, first, entries, s =>
    if s.isAt [.flowMappingEnd] then some (.map entries.reverse, s.skip)
    else do
      let s ← if first then some s else if s.isAt [.comma] then some s.skip else none
      if s.isAt [.flowMappingEnd] then return (.map entries.reverse, s.skip)
      else if s.isAt [.key] then
        let (k, s) ← readNodeUnless n [.value, .comma, .flowMappingEnd] false false s.skip
        let (v, s) ←
          if s.isAt [.value] then readNodeUnless n [.comma, .flowMappingEnd] false false s.skip
          else some (empty, s)
        readFlowEntries n false ((k, v) :: entries) s
      else
        let (k, s) ← readNode n false false s
        readFlowEntries n false ((k, empty) :: entries) s

end

/-! ## 3. Texts -/

/-- The value of the first document, and the tokens after it; the empty value if there is none. -/
def readDocument (n : Nat) (s : Source) : Option (Yaml × Source) :=
  match s.peek? with
  | some .streamEnd => some (empty, s)
  | some .documentStart =>
    readNodeUnless n [.documentStart, .documentEnd, .streamEnd] true false s.skip
  | _ => readNode n true false s

/-- The value of a YAML text; `none` if the text is malformed. -/
def parse? (text : Bytes) : Option Yaml := do
  let (tokens, complete) := scan (← glyphs? text)
  let (v, s) ← readDocument (4 * tokens.length + 8) { tokens := tokens }
  if complete || 2 < s.tokens.length then some v else none

end Yaml

end SolidityTree
