import SolidityTree.Decode
import SolidityTree.Group
import SolidityTree.Text.Blank
import SolidityTree.Text.Pieces

/-!
# Compiler output

Asked for compact trees, the Solidity compiler prints one document per source file, each below a header
line `======= path =======`.  `sections` takes the output apart: what stands before the first header is
dropped, and a section is the text from its header to the next.  Output without a header is a single
document that begins at the first brace and has no path.

The sections are decoded side by side, as a group of tasks.  `decodeAlong` is what comes of it if
things go in a certain way; a failure is named by the path of its section, and which failure it is if
there are several is nobody's choice.  `decodeSections` decodes one section after the other, which is
one of the ways in which things may go, and the only one where there is a single place.

Contents
* §1  lines and headers
* §2  sections
* §3  decoding the sections
-/

namespace SolidityTree

/-- One document of the compiler's output. -/
structure Section where
  /-- The source file; empty if the output has no header. -/
  path : Bytes
  document : Bytes
  deriving DecidableEq

namespace CompilerOutput

/-! ## 1. Lines and headers -/

/-- The pieces between line feeds, without the last one if it is empty. -/
def rawLines (output : Bytes) : List Bytes :=
  let all := Pieces.split Ascii.lf output
  if all.getLast? = some [] then all.dropLast else all

/-- Without one carriage return at the end. -/
def dropReturn (line : Bytes) : Bytes :=
  if line.getLast? = some Ascii.cr then line.dropLast else line

/-- The lines of an output. -/
def lines (output : Bytes) : List Bytes := (rawLines output).map dropReturn

/-- What a header begins with. -/
def opening : Bytes := utf8 "======= "

/-- What a header ends with. -/
def closing : Bytes := utf8 " ======="

/-- The path in a header line; `none` if the line is no header.  The two marks may not overlap and
something must stand between them, which may be white space only. -/
def header? (line : Bytes) : Option Bytes :=
  let trimmed := Blank.trim line
  if opening.isPrefixOf trimmed ∧ closing.isSuffixOf trimmed
      ∧ opening.length + closing.length < trimmed.length then
    some (Blank.trim ((trimmed.drop opening.length).take
      (trimmed.length - opening.length - closing.length)))
  else none

/-! ## 2. Sections -/

/-- Why an output cannot be taken apart. -/
inductive SplitTrouble where
  /-- There is neither a header nor a brace. -/
  | noDocument
  /-- There is nothing below a header. -/
  | emptySection (path : Bytes)
  deriving DecidableEq

/-- The lines before the first header, and each header's path with the lines up to the next. -/
def gather : List Bytes → List Bytes × List (Bytes × List Bytes)
  | [] => ([], [])
  | line :: rest =>
    let (before, found) := gather rest
    match header? line with
    | some path => ([], (path, before) :: found)
    | none => (line :: before, found)

/-- The document that stands in some lines. -/
def documentOf (lines : List Bytes) : Bytes :=
  Blank.trim (lines.flatMap fun line => line ++ [Ascii.lf])

/-- The single document of an output without headers. -/
def bare (output : Bytes) : Except SplitTrouble (List Section) :=
  match output.dropWhile (· ≠ Ascii.openBrace) with
  | [] => .error .noDocument
  | document => .ok [⟨[], Blank.trim document⟩]

/-- The sections of an output, none of them empty. -/
def sections (output : Bytes) : Except SplitTrouble (List Section) :=
  match (gather (lines output)).2 with
  | [] => bare output
  | found =>
    let all := found.map fun (path, lines) => (⟨path, documentOf lines⟩ : Section)
    match all.find? fun s => s.document.isEmpty with
    | some s => .error (.emptySection s.path)
    | none => .ok all

/-! ## 3. Decoding -/

/-- Why the sections of an output cannot be decoded. -/
inductive Trouble where
  | split (trouble : SplitTrouble)
  /-- Decoding was called off before it began. -/
  | cancelled
  /-- A section cannot be decoded. -/
  | document (path : Bytes) (failure : Failure)
  deriving DecidableEq

/-- To decode a section. -/
def task (opts : Options) (s : Section) : Outcome Trouble Node :=
  (decodeSourceUnit opts s.document).mapError (.document s.path)

/-- The source units of an output, in order, whose sections are decoded side by side, at most `limit` at
once, if things go in a certain way; `none` if they cannot go in this way. -/
def decodeAlong (opts : Options) (limit : Nat) (schedule : List Group.Event) (output : Bytes) :
    Option (Outcome Trouble (List Node)) :=
  match sections output with
  | .error trouble => some (.fail (.split trouble))
  | .ok found => Group.run? limit .cancelled schedule (found.map (task opts))

/-- Decodes one section after the other. -/
def decodeEach (opts : Options) : List Section → Outcome Trouble (List Node)
  | [] => .ok []
  | s :: rest => do
    let unit ← (decodeSourceUnit opts s.document).mapError (.document s.path)
    let units ← decodeEach opts rest
    return unit :: units

/-- The source units of an output whose sections are decoded one after the other. -/
def decodeSections (opts : Options) (cancelled : Bool) (output : Bytes) :
    Outcome Trouble (List Node) :=
  match sections output with
  | .error trouble => .fail (.split trouble)
  | .ok found => if cancelled then .fail .cancelled else decodeEach opts found

/-- What is wrong with the form of an output. -/
def SplitTrouble.message : SplitTrouble → Bytes
  | noDocument => utf8 "no JSON found in solc output"
  | emptySection path => utf8 "empty AST for " ++ path

/-- What is wrong with an output. -/
def Trouble.message : Trouble → Bytes
  | split trouble => trouble.message
  | cancelled => utf8 "context canceled"
  | document path failure =>
    if path = [] then failure.message else path ++ utf8 ": " ++ failure.message

end CompilerOutput

end SolidityTree
