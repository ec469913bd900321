import SolidityTree.Decode
import SolidityTree.Log
import SolidityTree.Settings.File

/-!
# Sessions

A session is one run of a program that decodes documents: its files and consoles, its log, and its
settings.  Settings are loaded once; whatever came of the first loading, settings or trouble, is what
every later one gives.  Setting up loads them, opens the log file if nodes of unregistered tags are to
be logged, and gives the options to decode with.

Contents
* §1  the state
* §2  settings
* §3  the log
* §4  setting up
* §5  decoding
-/

namespace SolidityTree

/-! ## 1. The state -/

/-- A run of a program. -/
structure Session where
  host : Host := {}
  log : Log := {}
  /-- What came of loading the settings, once that was tried. -/
  loaded : Option (Except Settings.LoadTrouble Settings) := none

namespace Session

/-- The session with other files. -/
def withFiles (s : Session) (files : Files) : Session := { s with host := { s.host with files := files } }

/-! ## 2. Settings -/

/-- The settings of the session, loaded if that was not done yet. -/
def settings (s : Session) : Except Settings.LoadTrouble Settings × Session :=
  match s.loaded with
  | some outcome => (outcome, s)
  | none =>
    let outcome := Settings.load s.host.files
    (outcome, { s with loaded := some outcome })

/-! ## 3. The log -/

/-- Logs a message. -/
def say (s : Session) (level : Level) (message : String) : Session :=
  { s with host := s.log.say level message s.host }

/-- Opens the log file of a time in a directory. -/
def openLog (s : Session) (directory time : String) : Except Log.Trouble Unit × Session :=
  let (outcome, log, host) := s.log.openIn directory time s.host
  (outcome, { s with log := log, host := host })

/-- Closes the log file. -/
def closeLog (s : Session) : Session :=
  let (log, host) := s.log.close s.host
  { s with log := log, host := host }

/-- The text of the log file of a time in a directory, if there is one. -/
def readLog? (s : Session) (directory time : String) : Option Bytes :=
  (s.host.files.read (Log.pathIn directory time)).toOption

/-! ## 4. Setting up -/

/-- The options to decode with that settings ask for. -/
def optionsOf (settings : Settings) : Options := ⟨settings.maxDepth, settings.logUnknown⟩

/-- Why a session could not be set up. -/
inductive SetupTrouble where
  | settings (trouble : Settings.LoadTrouble)
  | log (trouble : Log.Trouble)
  deriving DecidableEq

/-- What went wrong, where it is more than that the text is no settings text. -/
def SetupTrouble.message? : SetupTrouble → Option String
  | settings trouble => trouble.message?.map ("load settings: " ++ ·)
  | log trouble => some trouble.message

/-- Loads the settings, opens the log file if they ask for it, and gives the options. -/
def setUp (s : Session) (time : String) : Except SetupTrouble Options × Session :=
  match s.settings with
  | (.error trouble, s) => (.error (.settings trouble), s)
  | (.ok settings, s) =>
    if settings.logUnknown then
      match s.openLog settings.logDir time with
      | (.error trouble, s) => (.error (.log trouble), s)
      | (.ok (), s) => (.ok (optionsOf settings), s)
    else (.ok (optionsOf settings), s)

/-! ## 5. Decoding -/

/-- The message for a node of an unregistered tag.  The tag is quoted, so the message is one line. -/
def reportMessage (r : Report) : String :=
  "unmodeled nodeType " ++ Quoted.quote r.tag ++ " (id=" ++ Decimal.write r.id ++ ") at " ++ r.path.text

/-- Logs a node of an unregistered tag. -/
def sayReport (s : Session) (r : Report) : Session := s.say .debug (reportMessage r)

/-- Decodes a document and logs what is reported on the way, also if decoding fails. -/
def decode (s : Session) (opts : Options) (document : Bytes) : Except Failure Node × Session :=
  let outcome := SolidityTree.decode opts document
  (outcome.result, outcome.reports.foldl sayReport s)

end Session

end SolidityTree
