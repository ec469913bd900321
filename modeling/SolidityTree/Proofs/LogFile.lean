import SolidityTree.Log

/-!
# What one call of the log does

Each operation of the log is described once here, by what it leaves as it was and what it adds, and
nothing after this module looks into it.

* `say_of_writesTo`, `say_of_not_initialized`: where one record goes.  `WritesTo` is the state of a
  log whose records reach a file: it is initialized, it has a sink, the sink is an open handle, and the
  file of the handle has a text.
* `isOpen_release_iff`: closing the handle of a log closes no other.
* `openIn_cases`: opening a log file fails and changes nothing but directories, or gives a new handle.

Contents
* §1  files
* §2  one record
* §3  opening and closing
-/

namespace SolidityTree

/-! ## 1. Files -/

namespace Files

@[simp] theorem length_texts_append (fs : Files) (number : Nat) (text : Bytes) :
    (fs.append number text).texts.length = fs.texts.length := by
  simp [append]

/-- A file gets what is put at its end, and no other file does. -/
theorem text_append (fs : Files) {number : Nat} (h : number < fs.texts.length) (text : Bytes)
    (other : Nat) :
    (fs.append number text).text other = fs.text other ++ if other = number then text else [] := by
  by_cases heq : other = number
  · subst heq
    rw [text_append_self fs h, if_pos rfl]
  · rw [text_append_of_ne fs heq, if_neg heq, List.append_nil]

theorem lt_of_entry? {fs : Files} {place : Place} {number : Nat}
    (h : fs.entry? place = some (.file number)) : number < fs.texts.length := by
  unfold entry? at h
  split at h
  · cases h
  · obtain ⟨entry, hfind, hentry⟩ := Option.map_eq_some_iff.mp h
    exact fs.numbered entry (List.mem_of_find?_eq_some hfind) number hentry

/-- A file that a path leads to has a text. -/
theorem lt_of_look {fs : Files} {path : List Char} {number : Nat}
    (h : fs.look path = .ok (.file number)) : number < fs.texts.length := by
  unfold look at h
  cases hl : fs.locate path with
  | error trouble =>
    rw [hl] at h
    cases h
  | ok place =>
    simp only [hl, bind, Except.bind] at h
    split at h
    · cases h
    · cases h
    · rename_i n he
      split at h
      · cases h
      · cases h
        exact lt_of_entry? he

/-- Making directories touches no file. -/
theorem texts_makeDirectories (fs : Files) (path : List Char) :
    (fs.makeDirectories path).2.texts = fs.texts := by
  have one : ∀ {fs fs' : Files} {path : List Char}, fs.makeDirectory path = .ok fs' →
      fs'.texts = fs.texts := by
    intro fs fs' path h
    unfold makeDirectory at h
    cases hl : fs.locate path with
    | error trouble =>
      rw [hl] at h
      cases h
    | ok place =>
      simp only [hl, bind, Except.bind] at h
      split at h
      · cases h
      · cases h
        rfl
  have all : ∀ chain : List (List Char), (fs.makeChain chain).2.texts = fs.texts := by
    intro chain
    induction chain with
    | nil => rfl
    | cons path outer ih =>
      rw [makeChain]
      split
      · rfl
      · rfl
      · split
        · rename_i heq
          rw [← ih, heq]
        · rename_i made heq
          rw [heq] at ih
          split
          · rename_i h
            exact (one h).trans ih
          · split <;> exact ih
  exact all _

/-- Opening a file gives the number of a file that has a text, and changes no text. -/
theorem openFile_ok {fs fs' : Files} {path : List Char} {number : Nat}
    (h : fs.openFile path = .ok (number, fs')) :
    number < fs'.texts.length ∧ fs.texts.length ≤ fs'.texts.length ∧
      ∀ other, fs'.text other = fs.text other := by
  unfold openFile at h
  split at h
  · rename_i n hl
    cases h
    exact ⟨lt_of_look hl, Nat.le_refl _, fun _ => rfl⟩
  · cases h
  · split at h
    · cases h
    · split at h
      · cases h
      · cases h
        refine ⟨by simp [putFile], by simp [putFile], fun other => ?_⟩
        rw [text, text, putFile, List.getElem?_append]
        split
        · rfl
        · rename_i hge
          rw [List.getElem?_eq_none (Nat.le_of_not_lt hge)]
          cases other - fs.texts.length <;> rfl

end Files

/-! ## 2. One record -/

namespace Host

/-- The file that a handle was opened for. -/
def file? (host : Host) (handle : Nat) : Option Nat := host.handles[handle]?.map Handle.file

/-- A handle that can be written through. -/
def IsOpen (host : Host) (handle : Nat) : Prop := ∃ file, host.handles[handle]? = some ⟨file, true⟩

theorem IsOpen.lt {host : Host} {handle : Nat} (h : host.IsOpen handle) :
    handle < host.handles.length := by
  obtain ⟨file, h⟩ := h
  exact (List.getElem?_eq_some_iff.mp h).1

end Host

namespace Log

/-- Records of the log go through an open handle to a file. -/
structure WritesTo (log : Log) (host : Host) (handle file : Nat) : Prop where
  initialized : log.initialized = true
  sink : log.sink = some handle
  isOpen : host.handles[handle]? = some ⟨file, true⟩
  text : file < host.files.texts.length

/-- A record is its level, its message, and a line feed if the message does not end in one. -/
theorem record_eq (level : Level) (message : String) : ∃ ending,
    Log.record level message = "[" ++ level.word ++ "] " ++ message ++ ending ∧
      (ending = "" ∧ message.toList.getLast? = some '\n' ∨
        ending = "\n" ∧ message.toList.getLast? ≠ some '\n') := by
  unfold Log.record endLine
  split
  · exact ⟨"", by rw [String.append_empty], .inl ⟨rfl, ‹_›⟩⟩
  · exact ⟨"\n", by rw [← String.append_assoc], .inr ⟨rfl, ‹_›⟩⟩

theorem getLast?_record (level : Level) (message : String) :
    (Log.record level message).toList.getLast? = some '\n' := by
  rw [Log.record, String.toList_append, List.getLast?_append, getLast?_endLine]
  rfl

/-- What a message puts on the consoles. -/
def shown (log : Log) (level : Level) (message : String) : List Shown :=
  if level = .debug then [] else [⟨log.writer, record level message⟩]

theorem put_of_level (log : Log) (level : Level) (message : String) (host : Host) :
    (if level.isShown then host.put log.writer (record level message) else host) =
      { host with console := host.console ++ log.shown level message } := by
  cases level <;> simp [Level.isShown, Host.put, shown]

/-- **A record of a log that writes to a file** goes to that file, and to the console of the
writer unless it is for debugging. -/
theorem say_of_writesTo {log : Log} {host : Host} {handle file : Nat}
    (h : log.WritesTo host handle file) (level : Level) (message : String) :
    log.say level message host =
      { host with
        files := host.files.append file (utf8 (record level message))
        console := host.console ++ log.shown level message } := by
  have hfile : log.toFile (record level message) host =
      { host with files := host.files.append file (utf8 (record level message)) } := by
    simp only [toFile, h.sink, Host.write, h.isOpen]
  unfold say
  simp only [h.initialized, if_true, hfile, put_of_level]

/-- **A record of a log that is not initialized** goes to no file. -/
theorem say_of_not_initialized {log : Log} (h : log.initialized = false) (level : Level)
    (message : String) (host : Host) :
    log.say level message host =
      { host with console := host.console ++ log.shown level message } := by
  unfold say
  simp only [h, Bool.false_eq_true, if_false, put_of_level]

/-- A message gives out no handle and closes none, and it makes no file. -/
theorem handles_say (log : Log) (level : Level) (message : String) (host : Host) :
    (log.say level message host).handles = host.handles ∧
      (log.say level message host).files.texts.length = host.files.texts.length := by
  have write : ∀ handle text, (host.write handle text).handles = host.handles ∧
      (host.write handle text).files.texts.length = host.files.texts.length := by
    intro handle text
    unfold Host.write
    split
    · exact ⟨rfl, Files.length_texts_append _ _ _⟩
    · exact ⟨rfl, rfl⟩
  have toFile : ∀ record, (log.toFile record host).handles = host.handles ∧
      (log.toFile record host).files.texts.length = host.files.texts.length := by
    intro record
    unfold Log.toFile
    split
    · exact write _ _
    · exact ⟨rfl, rfl⟩
  unfold say
  rw [put_of_level]
  dsimp only
  split
  · exact toFile _
  · exact ⟨rfl, rfl⟩

/-- After a record the log still writes to the file. -/
theorem WritesTo.say {log : Log} {host : Host} {handle file : Nat}
    (h : log.WritesTo host handle file) (level : Level) (message : String) :
    log.WritesTo (log.say level message host) handle file := by
  rw [say_of_writesTo h]
  exact ⟨h.initialized, h.sink, h.isOpen, by simpa using h.text⟩

/-! ## 3. Opening and closing -/

theorem files_release (log : Log) (host : Host) : (log.release host).files = host.files := by
  unfold release
  split <;> rfl

theorem console_release (log : Log) (host : Host) : (log.release host).console = host.console := by
  unfold release
  split <;> rfl

theorem file?_release (log : Log) (host : Host) (handle : Nat) :
    (log.release host).file? handle = host.file? handle := by
  unfold release
  split
  · rename_i old _
    simp only [Host.file?, Host.closeFile, List.getElem?_modify]
    cases host.handles[handle]? with
    | none => rfl
    | some h =>
      by_cases heq : old = handle <;> simp [heq]
  · rfl

theorem length_handles_release (log : Log) (host : Host) :
    (log.release host).handles.length = host.handles.length := by
  unfold release
  split
  · exact List.length_modify ..
  · rfl

/-- The handle of the log is closed, and no other. -/
theorem isOpen_release_iff {log : Log} {host : Host} {handle : Nat} :
    (log.release host).IsOpen handle ↔ host.IsOpen handle ∧ log.handle ≠ some handle := by
  unfold release Host.IsOpen
  split
  · rename_i old hold
    rw [hold, Host.closeFile, List.getElem?_modify]
    by_cases heq : old = handle
    · simp [heq]
    · simp [heq]
  · rename_i hnone
    simp [hnone]

/-- The surroundings after another log file was opened: there is a new handle, and the one that the
log had is closed. -/
def reopened (log : Log) (host : Host) (files : Files) (file : Nat) : Host :=
  log.release { host with files := files, handles := host.handles ++ [⟨file, true⟩] }

theorem file?_reopened (log : Log) (host : Host) (files : Files) (file handle : Nat) :
    (log.reopened host files file).file? handle =
      if handle = host.handles.length then some file else host.file? handle := by
  rw [reopened, file?_release, Host.file?, Host.file?]
  rcases Nat.lt_trichotomy handle host.handles.length with hlt | rfl | hgt
  · rw [List.getElem?_append_left hlt, if_neg (Nat.ne_of_lt hlt)]
  · rw [List.getElem?_concat_length, if_pos rfl]
    rfl
  · have hge : (host.handles ++ [(⟨file, true⟩ : Handle)]).length ≤ handle := by
      rw [List.length_append]
      exact hgt
    rw [List.getElem?_eq_none hge, if_neg (Nat.ne_of_gt hgt),
      List.getElem?_eq_none (Nat.le_of_lt hgt)]

/-- The new handle is open; of the others, those that are not the log's stay as they were. -/
theorem isOpen_reopened_iff {log : Log} {host : Host} {files : Files} {file handle : Nat} :
    (log.reopened host files file).IsOpen handle ↔
      (handle = host.handles.length ∨ host.IsOpen handle) ∧ log.handle ≠ some handle := by
  rw [reopened, isOpen_release_iff]
  refine and_congr_left fun _ => ?_
  constructor
  · intro h
    have hlt := h.lt
    rw [List.length_append, List.length_singleton] at hlt
    rcases Nat.lt_succ_iff_lt_or_eq.mp hlt with hlt | heq
    · rw [Host.IsOpen, List.getElem?_append_left hlt] at h
      exact .inr h
    · exact .inl heq
  · rintro (rfl | h)
    · exact ⟨file, List.getElem?_concat_length⟩
    · rw [Host.IsOpen, List.getElem?_append_left h.lt]
      exact h

/-- **What opening a log file can do.**  Either it fails, and then the log, the handles, the consoles
and all texts stay as they were; or there is a new handle, open for a file that has a text, the old
handle is closed, and the log says through the new one that it was opened. -/
theorem openIn_cases (log : Log) (directory time : String) (host : Host) :
    (∃ trouble files, files.texts = host.files.texts ∧
      log.openIn directory time host = (.error trouble, log, { host with files := files })) ∨
    ∃ file files, file < files.texts.length ∧ host.files.texts.length ≤ files.texts.length ∧
      (∀ n, files.text n = host.files.text n) ∧
      log.openIn directory time host =
        (.ok (), log.attach host.handles.length,
          (log.attach host.handles.length).say .info
            (openedMessage (pathIn (directoryOr directory) time))
            (log.reopened host files file)) := by
  have texts := host.files.texts_makeDirectories (directoryOr directory).toList
  cases hmake : host.files.makeDirectories (directoryOr directory).toList with
  | mk outcome made =>
    rw [hmake] at texts
    dsimp only at texts
    cases outcome with
    | error failure =>
      refine .inl ⟨.directory failure, made, texts, ?_⟩
      simp only [openIn, hmake]
    | ok _ =>
      cases hopen : made.openFile (pathIn (directoryOr directory) time) with
      | error failure =>
        refine .inl ⟨.file failure, made, texts, ?_⟩
        simp only [openIn, hmake, Host.openFile, hopen]
        rfl
      | ok opened =>
        obtain ⟨file, files⟩ := opened
        obtain ⟨hlt, hle, htext⟩ := Files.openFile_ok hopen
        refine .inr ⟨file, files, hlt, texts ▸ hle, fun n => ?_, ?_⟩
        · rw [htext, Files.text, Files.text, texts]
        · simp only [openIn, hmake, Host.openFile, hopen]
          rfl

end Log

end SolidityTree
