import SolidityTree.Text.Bytes
import SolidityTree.Text.Pieces

/-!
# Files

The part of the file system that settings and log files live in: a tree of directories and files, and
a working directory from which relative paths are followed.  A file is told from its name: the name
leads to a file number, and whoever holds the number keeps writing to the same file, also after the
name is gone.

Contents
* §1  the tree
* §2  paths
* §3  failures
* §4  looking up and reading
* §5  making, writing and removing
-/

namespace SolidityTree

/-! ## 1. The tree -/

/-- What a name of the tree stands for. -/
inductive Entry where
  | directory
  /-- The file of a number. -/
  | file (number : Nat)
  deriving DecidableEq

/-- A place in the tree: the names from the root down. -/
abbrev Place := List (List Char)

/-- Directories, files and the working directory. -/
structure Files where
  /-- The places that are taken, the root apart. -/
  entries : List (Place × Entry) := []
  /-- The text of each file, by its number. -/
  texts : List Bytes := []
  /-- The working directory. -/
  current : Place := []
  /-- Every name of a file leads to a file that has a text. -/
  numbered : ∀ entry ∈ entries, ∀ number, entry.2 = .file number → number < texts.length := by
    simp
  deriving DecidableEq

namespace Files

/-- A tree with nothing in it but a working directory below the root. -/
def empty : Files := { entries := [(["work".toList], .directory)], current := ["work".toList] }

/-- What is at a place. -/
def entry? (fs : Files) (place : Place) : Option Entry :=
  if place = [] then some .directory else (fs.entries.find? fun (p, _) => p = place).map (·.2)

/-- The text of a file. -/
def text (fs : Files) (number : Nat) : Bytes := (fs.texts[number]?).getD []

/-- Puts a text at the end of a file. -/
def append (fs : Files) (number : Nat) (text : Bytes) : Files :=
  { fs with
    texts := fs.texts.modify number (· ++ text)
    numbered := by simpa using fs.numbered }

/-- A file ends with what was put at its end. -/
theorem text_append_self (fs : Files) {number : Nat} (h : number < fs.texts.length) (text : Bytes) :
    (fs.append number text).text number = fs.text number ++ text := by
  simp [append, Files.text, h]

/-- Every other file stays as it is. -/
theorem text_append_of_ne (fs : Files) {number other : Nat} (h : other ≠ number) (text : Bytes) :
    (fs.append number text).text other = fs.text other := by
  simp [append, Files.text, Ne.symm h]

/-! ## 2. Paths -/

/-- The names of a path; empty ones have no meaning. -/
def names (path : List Char) : List (List Char) := (Pieces.split '/' path).filter (· ≠ [])

/-- The name of the directory itself. -/
def here : List Char := ['.']

/-- The name of the directory above. -/
def above : List Char := ['.', '.']

/-- Takes a name onto a path that is already short; the last name comes first in it. -/
def shorten (rooted : Bool) (path : List (List Char)) (name : List Char) : List (List Char) :=
  if name = here then path
  else if name = above then
    match path with
    | last :: rest => if last = above then above :: path else rest
    | [] => if rooted then [] else [above]
  else name :: path

/-- The shortest path that reads the same: no empty names, none for the directory itself, and none
for the directory above but at the start. -/
def clean (path : List Char) : List Char :=
  let rooted := path.head? = some '/'
  let short := Pieces.join '/' ((names path).foldl (shorten rooted) []).reverse
  if rooted then '/' :: short else if short = [] then here else short

/-- The path of a name in a directory. -/
def inside (directory name : List Char) : List Char := clean (directory ++ '/' :: name)

/-- The path with the last name taken off, if another name is left. -/
def parent? (path : List Char) : Option (List Char) :=
  let last := path.reverse.dropWhile (· = '/')
  match last.dropWhile (· ≠ '/') with
  | [] | [_] => none
  | _ :: rest => some rest.reverse

/-- A path and those of the directories it goes through, the nearest first; there are fewer of them
than characters. -/
def chain : (fuel : Nat) → List Char → List (List Char)
  | 0, path => [path]
  | fuel + 1, path =>
    match parent? path with
    | some parent => path :: chain fuel parent
    | none => [path]

/-! ## 3. Failures -/

/-- Why a path cannot be used. -/
inductive Trouble where
  /-- Nothing is there. -/
  | missing
  /-- A file stands where a directory is needed. -/
  | notDirectory
  /-- A directory stands where a file is needed. -/
  | isDirectory
  /-- Something is there already. -/
  | taken
  deriving DecidableEq

/-- What was tried with a path. -/
inductive Action where
  | openFile
  | readFile
  | makeDirectory
  deriving DecidableEq

/-- An action that failed. -/
structure Failure where
  action : Action
  path : List Char
  trouble : Trouble
  deriving DecidableEq

/-- The words for a trouble. -/
def Trouble.text : Trouble → String
  | missing => "no such file or directory"
  | notDirectory => "not a directory"
  | isDirectory => "is a directory"
  | taken => "file exists"

/-- The word for an action. -/
def Action.word : Action → String
  | openFile => "open"
  | readFile => "read"
  | makeDirectory => "mkdir"

/-- What was tried, with which path, and why it failed. -/
def Failure.message (f : Failure) : String :=
  f.action.word ++ " " ++ String.ofList f.path ++ ": " ++ f.trouble.text

/-! ## 4. Looking up and reading -/

/-- Requires a directory at a place. -/
def needDirectory (fs : Files) (place : Place) : Except Trouble Unit :=
  match fs.entry? place with
  | some .directory => .ok ()
  | some (.file _) => .error .notDirectory
  | none => .error .missing

/-- Follows names from a place.  Every name is looked up in a directory that is there, so only the
place that the last name leads to may be free. -/
def follow (fs : Files) : Place → List (List Char) → Except Trouble Place
  | place, [] => .ok place
  | place, name :: rest => do
    needDirectory fs place
    follow fs (if name = here then place else if name = above then place.dropLast else place ++ [name])
      rest

/-- Where a path leads. -/
def locate (fs : Files) (path : List Char) : Except Trouble Place :=
  if path = [] then .error .missing
  else follow fs (if path.head? = some '/' then [] else fs.current) (names path)

/-- What a path leads to; a path that ends in a slash leads to a directory only. -/
def look (fs : Files) (path : List Char) : Except Trouble Entry := do
  let place ← locate fs path
  match fs.entry? place with
  | none => .error .missing
  | some .directory => .ok .directory
  | some (.file number) =>
    if path.getLast? = some '/' then .error .notDirectory else .ok (.file number)

/-- Whether a path leads anywhere. -/
def isThere (fs : Files) (path : List Char) : Bool := (fs.look path).toBool

/-- The text of the file at a path. -/
def read (fs : Files) (path : List Char) : Except Failure Bytes :=
  match fs.look path with
  | .ok (.file number) => .ok (fs.text number)
  | .ok .directory => .error ⟨.readFile, path, .isDirectory⟩
  | .error trouble => .error ⟨.openFile, path, trouble⟩

/-! ## 5. Making, writing and removing -/

/-- Takes a place for a directory. -/
def putDirectory (fs : Files) (place : Place) : Files :=
  { fs with
    entries := fs.entries ++ [(place, .directory)]
    numbered := by
      intro entry h number heq
      rcases List.mem_append.mp h with h | h
      · exact fs.numbered entry h number heq
      · rw [List.mem_singleton.mp h] at heq
        cases heq }

/-- Takes a place for a file without text, which gets the next number. -/
def putFile (fs : Files) (place : Place) : Files :=
  { fs with
    entries := fs.entries ++ [(place, .file fs.texts.length)]
    texts := fs.texts ++ [[]]
    numbered := by
      intro entry h number heq
      rw [List.length_append, List.length_singleton]
      rcases List.mem_append.mp h with h | h
      · exact Nat.lt_succ_of_lt (fs.numbered entry h number heq)
      · rw [List.mem_singleton.mp h] at heq
        cases heq
        exact Nat.lt_succ_self _ }

/-- Makes one directory in a directory that is there. -/
def makeDirectory (fs : Files) (path : List Char) : Except Trouble Files := do
  let place ← locate fs path
  match fs.entry? place with
  | some _ => .error .taken
  | none => .ok (fs.putDirectory place)

/-- Makes the directories of a chain that are not there.  If one cannot be made, those that were made
before it stay. -/
def makeChain (fs : Files) : List (List Char) → Except Failure Unit × Files
  | [] => (.ok (), fs)
  | path :: outer =>
    match fs.look path with
    | .ok .directory => (.ok (), fs)
    | .ok (.file _) => (.error ⟨.makeDirectory, path, .notDirectory⟩, fs)
    | .error _ =>
      match makeChain fs outer with
      | (.error failure, fs) => (.error failure, fs)
      | (.ok (), fs) =>
        match fs.makeDirectory path with
        | .ok fs => (.ok (), fs)
        | .error trouble =>
          if fs.look path matches .ok .directory then (.ok (), fs)
          else (.error ⟨.makeDirectory, path, trouble⟩, fs)

/-- Makes a directory and those it stands in, as far as they are not there. -/
def makeDirectories (fs : Files) (path : List Char) : Except Failure Unit × Files :=
  makeChain fs (chain path.length path)

/-- The number of the file at a path; a file that is not there is made, without text. -/
def openFile (fs : Files) (path : List Char) : Except Failure (Nat × Files) :=
  match fs.look path with
  | .ok (.file number) => .ok (number, fs)
  | .ok .directory => .error ⟨.openFile, path, .isDirectory⟩
  | .error _ =>
    match fs.locate path with
    | .error trouble => .error ⟨.openFile, path, trouble⟩
    | .ok place =>
      if path.getLast? = some '/' then .error ⟨.openFile, path, .isDirectory⟩
      else .ok (fs.texts.length, fs.putFile place)

/-- The directory that a path's last name stands in. -/
def directoryOf (path : List Char) : List Char :=
  clean (path.reverse.dropWhile (· ≠ '/')).reverse

/-- Gives a file another text. -/
def setText (fs : Files) (number : Nat) (text : Bytes) : Files :=
  { fs with
    texts := fs.texts.set number text
    numbered := by simpa using fs.numbered }

/-- Gives the file at a path a text; the directories on the way are made. -/
def write (fs : Files) (path : List Char) (text : Bytes) : Except Failure Unit × Files :=
  match fs.makeDirectories (directoryOf path) with
  | (.error failure, fs) => (.error failure, fs)
  | (.ok (), fs) =>
    match fs.openFile path with
    | .error failure => (.error failure, fs)
    | .ok (number, fs) => (.ok (), fs.setText number text)

/-- Frees the place that a path leads to and all places below. -/
def remove (fs : Files) (path : List Char) : Files :=
  match fs.locate path with
  | .error _ => fs
  | .ok place =>
    { fs with
      entries := fs.entries.filter fun (p, _) => !(place.isPrefixOf p)
      numbered := fun entry h => fs.numbered entry (List.mem_filter.mp h).1 }

/-- Changes the working directory. -/
def enter (fs : Files) (path : List Char) : Except Trouble Files := do
  let place ← fs.locate path
  fs.needDirectory place
  return { fs with current := place }

end Files

end SolidityTree
