import SolidityTree.Files

/-!
# The log

Every message has a level and becomes one record, a text that ends in a line feed.  A record goes to
the log file if the log is initialized, and to the console unless it is for debugging.  The console is
whatever writer is in use at that moment.  The time and the place of the call, which a log file has in
front of each record, are left out.

A file that is opened for writing gets a new handle, even if it is a file that is open already, and
records are written through the handle.  The log keeps the handle in two places, once to write through
it and once to close it, and notes apart from them whether it is initialized.

Contents
* §1  levels and records
* §2  consoles and handles
* §3  where records go
* §4  opening and closing
-/

namespace SolidityTree

/-! ## 1. Levels and records -/

/-- How much a message matters. -/
inductive Level where
  | info
  | warn
  | error
  | debug
  deriving DecidableEq, Repr

namespace Level

/-- The word that a record begins with. -/
def word : Level → String
  | info => "INFO"
  | warn => "WARN"
  | error => "ERROR"
  | debug => "DEBUG"

/-- Whether messages of the level are shown on the console. -/
def isShown : Level → Bool
  | debug => false
  | _ => true

end Level

namespace Log

/-- The message with a line feed at its end, which is added only if it is not there. -/
def endLine (message : String) : String :=
  if message.toList.getLast? = some '\n' then message else message ++ "\n"

/-- Every message ends in a line feed. -/
theorem getLast?_endLine (message : String) : (endLine message).toList.getLast? = some '\n' := by
  unfold endLine
  split
  · assumption
  · simp

/-- The record of a message. -/
def record (level : Level) (message : String) : String :=
  "[" ++ level.word ++ "] " ++ endLine message

end Log

/-! ## 2. Consoles and handles -/

/-- A record on a console. -/
structure Shown where
  /-- The writer that was in use. -/
  writer : Nat
  record : String
  deriving DecidableEq

/-- A file that was opened for writing. -/
structure Handle where
  /-- The number of the file. -/
  file : Nat
  isOpen : Bool := true
  deriving DecidableEq

/-- The surroundings: the files, the handles given out, known by their places in the list, and all
that the consoles have been given, in order. -/
structure Host where
  files : Files := .empty
  handles : List Handle := []
  console : List Shown := []
  deriving DecidableEq

namespace Host

/-- Opens the file at a path, which gets a new handle. -/
def openFile (host : Host) (path : List Char) : Except Files.Failure (Nat × Host) := do
  let (number, files) ← host.files.openFile path
  return (host.handles.length,
    { host with files := files, handles := host.handles ++ [⟨number, true⟩] })

/-- Closes a handle. -/
def closeFile (host : Host) (handle : Nat) : Host :=
  { host with handles := host.handles.modify handle fun h => { h with isOpen := false } }

/-- Writes a text through a handle.  What is written through a closed handle is lost. -/
def write (host : Host) (handle : Nat) (text : Bytes) : Host :=
  match host.handles[handle]? with
  | some ⟨number, true⟩ => { host with files := host.files.append number text }
  | _ => host

/-- Puts a record on the console of a writer. -/
def put (host : Host) (writer : Nat) (record : String) : Host :=
  { host with console := host.console ++ [⟨writer, record⟩] }

end Host

/-! ## 3. Where records go -/

/-- The state of the log. -/
structure Log where
  /-- The console writer in use. -/
  writer : Nat := 0
  /-- Whether records go to a log file. -/
  initialized : Bool := false
  /-- The handle that records are written through. -/
  sink : Option Nat := none
  /-- The handle of the log file, which is closed when another one is opened. -/
  handle : Option Nat := none
  deriving DecidableEq

namespace Log

/-- Writes a record to the log file.  An initialized log is never without a sink. -/
def toFile (log : Log) (record : String) (host : Host) : Host :=
  match log.sink with
  | some handle => host.write handle (utf8 record)
  | none => host

/-- Logs a message. -/
def say (log : Log) (level : Level) (message : String) (host : Host) : Host :=
  let record := record level message
  let host := if log.initialized then log.toFile record host else host
  if level.isShown then host.put log.writer record else host

/-! ## 4. Opening and closing -/

/-- Why no log file could be opened. -/
inductive Trouble where
  | directory (failure : Files.Failure)
  | file (failure : Files.Failure)
  deriving DecidableEq

/-- What went wrong. -/
def Trouble.message : Trouble → String
  | directory failure => "failed to create logs directory: " ++ failure.message
  | file failure => "failed to open log file: " ++ failure.message

/-- The directory of log files if none is given. -/
def defaultDirectory : String := "logs"

/-- The path of the log file of a time in a directory. -/
def pathIn (directory time : String) : List Char :=
  Files.inside directory.toList ("decode_" ++ time ++ ".log").toList

/-- The directory that is meant by one that may be left out. -/
def directoryOr (directory : String) : String :=
  if directory = "" then defaultDirectory else directory

/-- The message about a log file that was opened. -/
def openedMessage (path : List Char) : String := "Log file created: " ++ String.ofList path

/-- Closes the handle of the log file, if there is one. -/
def release (log : Log) (host : Host) : Host :=
  match log.handle with
  | some handle => host.closeFile handle
  | none => host

/-- The log with a handle for its records. -/
def attach (log : Log) (handle : Nat) : Log :=
  { log with initialized := true, sink := some handle, handle := some handle }

/-- Opens the log file of a time in a directory, which is made if need be, and says so in the log.  A
log file that was open is closed.  If the new one cannot be opened, the log stays as it was. -/
def openIn (log : Log) (directory time : String) (host : Host) : Except Trouble Unit × Log × Host :=
  let directory := directoryOr directory
  match host.files.makeDirectories directory.toList with
  | (.error failure, files) => (.error (.directory failure), log, { host with files := files })
  | (.ok (), files) =>
    let host := { host with files := files }
    let path := pathIn directory time
    match host.openFile path with
    | .error failure => (.error (.file failure), log, host)
    | .ok (handle, host) =>
      let host := log.release host
      let log := log.attach handle
      (.ok (), log, log.say .info (openedMessage path) host)

/-- Closes the log file. -/
def close (log : Log) (host : Host) : Log × Host :=
  ({ log with initialized := false, sink := none, handle := none }, log.release host)

/-- Sends what is shown from now on to another writer, and gives the one before. -/
def redirect (log : Log) (writer : Nat) : Nat × Log := (log.writer, { log with writer := writer })

end Log

end SolidityTree
