import Mathlib.Data.List.TakeWhile
import SolidityTree.Session
import SolidityTree.Proofs.Routing

/-!
# Settings hold for a whole session

A session goes on in STEPS: somebody changes the files or the working directory, or a call is made.
This module follows two parts of its state through every run of steps.

* The log.  Whatever else happens, the log is in a state that some history of its own calls leads to
  (`tracked_after`), so an initialized log writes to a file (`writesTo_after`).
* The settings.  They are loaded from the files of ONE moment, that of the first step that needs them
  (`loads_once`): what is done to the files later has no effect, and trouble stays trouble.  A file
  that is loaded by its path is another matter, it is read when it is asked for; what was written to
  it is what is read (`Files.read_write`).

Setting up a session goes by the settings: `setUp_cases` says when it fails, what it gives, and that it
opens a log file or leaves the log alone.

Contents
* §1  what is written is read
* §2  steps
* §3  setting up
* §4  the log of a session
* §5  the settings of a session
-/

namespace SolidityTree

/-! ## 1. What is written is read -/

namespace Files

/-- Paths lead where the entries say; the texts have no part in it. -/
theorem look_setText (fs : Files) (number : Nat) (text : Bytes) (path : List Char) :
    (fs.setText number text).look path = fs.look path := by
  have follow : ∀ (names : List (List Char)) (place : Place),
      (fs.setText number text).follow place names = fs.follow place names := by
    intro names
    induction names with
    | nil => intro place; rfl
    | cons name rest ih =>
      intro place
      rw [Files.follow, Files.follow, ih]
      rfl
  have locate : (fs.setText number text).locate path = fs.locate path := by
    unfold Files.locate
    rw [follow]
    rfl
  unfold look
  rw [locate]
  rfl

/-- What is at a place stays there when another place is taken. -/
theorem entry?_putFile {fs : Files} {place other : Place} {entry : Entry}
    (h : fs.entry? other = some entry) : Files.entry? (fs.putFile place) other = some entry := by
  unfold entry? at h ⊢
  split at h
  · rename_i root
    rw [if_pos root]
    exact h
  · rename_i root
    obtain ⟨found, hfound, rfl⟩ := Option.map_eq_some_iff.mp h
    rw [if_neg root, putFile, List.find?_append, hfound]
    rfl

/-- A path leads to the same place when some place is taken for a file. -/
theorem locate_putFile {fs : Files} {place target : Place} {path : List Char}
    (h : fs.locate path = .ok target) : (fs.putFile place).locate path = .ok target := by
  have need : ∀ p, fs.needDirectory p = .ok () → (fs.putFile place).needDirectory p = .ok () := by
    intro p hp
    unfold needDirectory at hp ⊢
    split at hp
    · rename_i hentry
      rw [entry?_putFile hentry]
    · cases hp
    · cases hp
  have follow : ∀ (names : List (List Char)) (p : Place), fs.follow p names = .ok target →
      (fs.putFile place).follow p names = .ok target := by
    intro names
    induction names with
    | nil => intro p hp; exact hp
    | cons name rest ih =>
      intro p hp
      rw [Files.follow] at hp ⊢
      cases hneed : fs.needDirectory p with
      | error trouble =>
        rw [hneed] at hp
        cases hp
      | ok _ =>
        rw [hneed] at hp
        rw [need p hneed]
        exact ih _ hp
  unfold locate at h ⊢
  split at h
  · cases h
  · rename_i hpath
    rw [if_neg hpath]
    exact follow _ _ h

/-- **A file that was opened is at its path.** -/
theorem look_of_openFile {fs fs' : Files} {path : List Char} {number : Nat}
    (h : fs.openFile path = .ok (number, fs')) : fs'.look path = .ok (.file number) := by
  unfold openFile at h
  split at h
  · rename_i hlook
    cases h
    exact hlook
  · cases h
  · rename_i trouble hlook
    split at h
    · cases h
    · rename_i place hplace
      split at h
      · cases h
      · rename_i hslash
        cases h
        -- nothing is at the place, since the path would lead to it
        have free : fs.entry? place = none := by
          cases hentry : fs.entry? place with
          | none => rfl
          | some entry =>
            rw [look, hplace] at hlook
            cases entry with
            | directory =>
              simp only [bind, Except.bind, hentry] at hlook
              cases hlook
            | file n =>
              simp only [bind, Except.bind, hentry, if_neg hslash] at hlook
              cases hlook
        have root : place ≠ [] := by
          rintro rfl
          cases free
        have taken : Files.entry? (fs.putFile place) place = some (.file fs.texts.length) := by
          unfold Files.entry? at free ⊢
          rw [if_neg root] at free ⊢
          rw [putFile, List.find?_append, Option.map_eq_none_iff.mp free]
          simp
        rw [look, locate_putFile hplace]
        simp only [bind, Except.bind, taken, if_neg hslash]

/-- **What is written is read.** -/
theorem read_write {fs : Files} {path : List Char} {text : Bytes}
    (h : (fs.write path text).1 = .ok ()) : (fs.write path text).2.read path = .ok text := by
  unfold write at h ⊢
  split at h
  · cases h
  · rename_i made hmade
    split at h
    · cases h
    · rename_i number opened hopen
      obtain ⟨hlt, -, -⟩ := openFile_ok hopen
      rw [read, look_setText, look_of_openFile hopen]
      simp [Files.text, setText, hlt]

theorem texts_enter {fs fs' : Files} {path : List Char} (h : fs.enter path = .ok fs') :
    fs'.texts = fs.texts := by
  unfold enter at h
  cases hplace : fs.locate path with
  | error trouble =>
    rw [hplace] at h
    cases h
  | ok place =>
    simp only [hplace, bind, Except.bind] at h
    split at h
    · cases h
    · cases h
      rfl

/-- Writing a file takes none away. -/
theorem length_texts_le_write (fs : Files) (path : List Char) (text : Bytes) :
    fs.texts.length ≤ (fs.write path text).2.texts.length := by
  have same := fs.texts_makeDirectories (directoryOf path)
  unfold write
  split
  · rename_i hmade
    rw [hmade] at same
    exact Nat.le_of_eq (congrArg List.length same.symm)
  · rename_i made hmade
    rw [hmade] at same
    have le : fs.texts.length ≤ made.texts.length := Nat.le_of_eq (congrArg List.length same.symm)
    split
    · exact le
    · rename_i number opened hopen
      obtain ⟨-, hle, -⟩ := openFile_ok hopen
      simpa [setText] using Nat.le_trans le hle

end Files

/-! ## 2. Steps -/

namespace Session

/-- What may happen in a session: somebody changes the files or the working directory, or a call is
made. -/
inductive Step where
  | write (path : List Char) (text : Bytes)
  | makeDirectories (path : List Char)
  | remove (path : List Char)
  | enter (path : List Char)
  | load
  | loadFile (path : String)
  | setUp (time : String)
  | log (call : Log.Call)
  | decode (opts : Options) (document : Bytes)

namespace Step

/-- The session after a step. -/
def run (s : Session) : Step → Session
  | write path text => s.withFiles (s.host.files.write path text).2
  | makeDirectories path => s.withFiles (s.host.files.makeDirectories path).2
  | remove path => s.withFiles (s.host.files.remove path)
  | enter path => s.withFiles ((s.host.files.enter path).toOption.getD s.host.files)
  | load => s.settings.2
  | loadFile _ => s
  | setUp time => (s.setUp time).2
  | log call =>
    let called := (call.run s.log s.host).2
    { s with log := called.1, host := called.2 }
  | decode opts document => (s.decode opts document).2

/-- Whether a step needs the settings of the session. -/
def loads : Step → Bool
  | load => true
  | setUp _ => true
  | _ => false

end Step

/-- The session after steps from a start with some files. -/
def after (files : Files) (steps : List Step) : Session :=
  steps.foldl Step.run { host := { files := files } }

/-! ## 3. Setting up -/

theorem settings_snd (s : Session) : s.settings.2 = { s with loaded := some s.settings.1 } := by
  unfold settings
  split
  · rename_i outcome h
    rw [← h]
  · rfl

/-- Without settings a session is not set up. -/
theorem setUp_of_error {s : Session} {trouble : Settings.LoadTrouble}
    (h : s.settings.1 = .error trouble) (time : String) :
    s.setUp time = (.error (.settings trouble), s.settings.2) := by
  have pair : s.settings = (.error trouble, s.settings.2) := Prod.ext h rfl
  rw [setUp, pair]

/-- Settings that ask for no log give the options at once. -/
theorem setUp_quiet {s : Session} {settings : Settings} (h : s.settings.1 = .ok settings)
    (quiet : settings.logUnknown = false) (time : String) :
    s.setUp time = (.ok (optionsOf settings), s.settings.2) := by
  have pair : s.settings = (.ok settings, s.settings.2) := Prod.ext h rfl
  rw [setUp, pair]
  simp only [quiet, Bool.false_eq_true, if_false]

/-- Settings that ask for a log give the options if the log file can be opened. -/
theorem setUp_logging {s : Session} {settings : Settings} (h : s.settings.1 = .ok settings)
    (logs : settings.logUnknown = true) (time : String) :
    s.setUp time =
      (((s.settings.2.openLog settings.logDir time).1.mapError .log).map fun _ => optionsOf settings,
        (s.settings.2.openLog settings.logDir time).2) := by
  have pair : s.settings = (.ok settings, s.settings.2) := Prod.ext h rfl
  rw [setUp, pair]
  simp only [logs, if_true]
  split <;> rename_i heq <;> rw [heq] <;> rfl

theorem openLog_eq (s : Session) (directory time : String) :
    s.openLog directory time =
      ((s.log.openIn directory time s.host).1,
        { s with
          log := (s.log.openIn directory time s.host).2.1
          host := (s.log.openIn directory time s.host).2.2 }) := by
  rcases h : s.log.openIn directory time s.host with ⟨outcome, log, host⟩
  rw [openLog, h]

/-! ## 4. The log of a session -/

/-- Some history of calls leads to the state that the log is in. -/
def Tracked (s : Session) : Prop := ∃ history, Log.Tracks history s.log s.host

theorem Tracked.settings {s : Session} (h : s.Tracked) : s.settings.2.Tracked := by
  rw [settings_snd]
  exact h

/-- Only the number of files matters to the log. -/
theorem Tracked.withFiles {s : Session} (h : s.Tracked) {files : Files}
    (texts : s.host.files.texts.length ≤ files.texts.length) : (s.withFiles files).Tracked := by
  obtain ⟨history, h⟩ := h
  exact ⟨history, h.congr rfl texts⟩

theorem Tracked.call {s : Session} (h : s.Tracked) (call : Log.Call) :
    ((Step.log call).run s).Tracked := by
  obtain ⟨history, h⟩ := h
  exact ⟨_, (h.step call).2.1⟩

theorem Tracked.openLog {s : Session} (h : s.Tracked) (directory time : String) :
    (s.openLog directory time).2.Tracked := by
  have same : ((Log.Call.openIn directory time).run s.log s.host).2 =
      (s.log.openIn directory time s.host).2 := by
    rw [Log.Call.run]
    split <;> rename_i heq <;> rw [heq]
  have called := h.call (.openIn directory time)
  rw [Step.run, same] at called
  rw [openLog_eq]
  exact called

/-- **One step** leaves a log that has a history. -/
theorem Tracked.step {s : Session} (h : s.Tracked) (step : Step) : (step.run s).Tracked := by
  cases step with
  | write path text => exact h.withFiles (Files.length_texts_le_write _ _ _)
  | makeDirectories path =>
    have same := s.host.files.texts_makeDirectories path
    exact h.withFiles (Nat.le_of_eq (congrArg List.length same.symm))
  | remove path =>
    refine h.withFiles (Nat.le_of_eq ?_)
    rw [Files.remove]
    split <;> rfl
  | enter path =>
    refine h.withFiles (Nat.le_of_eq ?_)
    cases henter : s.host.files.enter path with
    | error trouble => rfl
    | ok files => exact congrArg List.length (Files.texts_enter henter).symm
  | load => exact h.settings
  | loadFile path => exact h
  | setUp time =>
    rw [Step.run]
    cases hs : s.settings.1 with
    | error trouble =>
      rw [setUp_of_error hs]
      exact h.settings
    | ok loaded =>
      cases hlog : loaded.logUnknown with
      | false =>
        rw [setUp_quiet hs hlog]
        exact h.settings
      | true =>
        rw [setUp_logging hs hlog]
        exact h.settings.openLog loaded.logDir time
  | log call => exact h.call call
  | decode opts document =>
    exact List.foldlRecOn _ _ h fun s h r _ => h.call (.say .debug (reportMessage r))

/-- **Whole runs**: the log of a session has a history. -/
theorem tracked_after (files : Files) (steps : List Step) : (after files steps).Tracked :=
  List.foldlRecOn steps Step.run ⟨[], Log.Tracks.start files⟩ fun _ h step _ => h.step step

/-- The log stays as it is, with its handles, what it has shown, and all texts. -/
structure LogKept (s s' : Session) : Prop where
  log : s'.log = s.log
  handles : s'.host.handles = s.host.handles
  console : s'.host.console = s.host.console
  texts : s'.host.files.texts = s.host.files.texts

/-- A log file was opened: there is one more handle, and the log writes to its file. -/
structure LogOpened (s s' : Session) : Prop where
  handles : s'.host.handles.length = s.host.handles.length + 1
  log : s'.log = s.log.attach s.host.handles.length
  writes : ∃ file, s'.log.WritesTo s'.host s.host.handles.length file

theorem LogKept.withLoaded {s s' : Session} (h : LogKept s s')
    (loaded : Option (Except Settings.LoadTrouble Settings)) :
    LogKept s { s' with loaded := loaded } :=
  ⟨h.log, h.handles, h.console, h.texts⟩

theorem LogOpened.withLoaded {s s' : Session} (h : LogOpened s s')
    (loaded : Option (Except Settings.LoadTrouble Settings)) :
    LogOpened s { s' with loaded := loaded } :=
  ⟨h.handles, h.log, h.writes⟩

theorem LogKept.settings (s : Session) : LogKept s s.settings.2 := by
  rw [settings_snd]
  exact ⟨rfl, rfl, rfl, rfl⟩

/-- **Opening a log file** succeeds with a new handle, or leaves the log as it is. -/
theorem openLog_cases {s : Session} (h : s.Tracked) (directory time : String) :
    (∃ trouble, (s.openLog directory time).1 = .error trouble ∧
      LogKept s (s.openLog directory time).2) ∨
    (s.openLog directory time).1 = .ok () ∧ LogOpened s (s.openLog directory time).2 := by
  rcases s.log.openIn_cases directory time s.host with
    ⟨trouble, files, texts, heq⟩ | ⟨file, files, hfile, hle, -, heq⟩
  · have failed : s.openLog directory time =
        (.error trouble, { s with host := { s.host with files := files } }) := by
      rw [openLog, heq]
    rw [failed]
    exact .inl ⟨trouble, rfl, ⟨rfl, rfl, rfl, texts⟩⟩
  · obtain ⟨history, h⟩ := h
    obtain ⟨file', writes⟩ :=
      (h.opened hfile hle (Log.pathIn (Log.directoryOr directory) time)).writesTo
        (Log.handleIn_snoc _ _)
    have said := writes.say .info (Log.openedMessage (Log.pathIn (Log.directoryOr directory) time))
    refine .inr ?_
    rw [openLog, heq]
    refine ⟨rfl, ⟨?_, rfl, file', said⟩⟩
    rw [(Log.handles_say _ _ _ _).1, Log.reopened, Log.length_handles_release]
    exact List.length_append

/-- **Setting up goes by the settings**: without them it fails; otherwise it gives their options, and
opens a log file if they ask for it.  When it fails the log stays as it is. -/
theorem setUp_cases {s : Session} (h : s.Tracked) (time : String) :
    (∀ trouble, s.settings.1 = .error trouble →
      (s.setUp time).1 = .error (.settings trouble) ∧ LogKept s (s.setUp time).2) ∧
    ∀ settings, s.settings.1 = .ok settings →
      (settings.logUnknown = false →
        (s.setUp time).1 = .ok (optionsOf settings) ∧ LogKept s (s.setUp time).2) ∧
      (settings.logUnknown = true →
        ((s.openLog settings.logDir time).1 = .ok () ∧
          (s.setUp time).1 = .ok (optionsOf settings) ∧ LogOpened s (s.setUp time).2) ∨
        ∃ trouble, (s.openLog settings.logDir time).1 = .error trouble ∧
          (s.setUp time).1 = .error (.log trouble) ∧ LogKept s (s.setUp time).2) := by
  refine ⟨fun trouble ho => ?_, fun settings ho => ⟨fun hlog => ?_, fun hlog => ?_⟩⟩
  · rw [setUp_of_error ho]
    exact ⟨rfl, .settings s⟩
  · rw [setUp_quiet ho hlog]
    exact ⟨rfl, .settings s⟩
  · -- loading the settings leaves the log and the files as they are
    have opened : s.settings.2.openLog settings.logDir time =
        ((s.openLog settings.logDir time).1,
          { (s.openLog settings.logDir time).2 with loaded := some s.settings.1 }) := by
      rw [settings_snd, openLog_eq, openLog_eq]
    rw [setUp_logging ho hlog, opened]
    rcases openLog_cases h settings.logDir time with ⟨trouble, failed, kept⟩ | ⟨done, new⟩
    · rw [failed]
      exact .inr ⟨trouble, rfl, rfl, kept.withLoaded _⟩
    · rw [done]
      exact .inl ⟨rfl, rfl, new.withLoaded _⟩

/-! ## 5. The settings of a session -/

/-- Reports have nothing to do with the settings. -/
theorem loaded_sayReports (s : Session) (reports : List Report) :
    (reports.foldl sayReport s).loaded = s.loaded := by
  induction reports generalizing s with
  | nil => rfl
  | cons r reports ih => exact ih (s.sayReport r)

/-- **One step** loads the settings if it needs them, and does nothing to them otherwise. -/
theorem loaded_step (s : Session) (step : Step) :
    (step.run s).loaded = if step.loads then some s.settings.1 else s.loaded := by
  cases step with
  | load => exact congrArg loaded s.settings_snd
  | setUp time =>
    have loaded : s.settings.2.loaded = some s.settings.1 := congrArg loaded s.settings_snd
    rw [Step.run]
    cases hs : s.settings.1 with
    | error trouble => rw [setUp_of_error hs, loaded, hs]; rfl
    | ok settings =>
      cases hlog : settings.logUnknown with
      | false => rw [setUp_quiet hs hlog, loaded, hs]; rfl
      | true =>
        rw [setUp_logging hs hlog, openLog_eq, ← hs]
        exact loaded
  | decode opts document => exact loaded_sayReports s _
  | write | makeDirectories | remove | enter | loadFile | log => rfl

/-- Settings that are loaded stay what they are. -/
theorem loaded_run {s : Session} {outcome : Except Settings.LoadTrouble Settings}
    (h : s.loaded = some outcome) (steps : List Step) :
    (steps.foldl Step.run s).loaded = some outcome := by
  induction steps generalizing s with
  | nil => exact h
  | cons step steps ih =>
    refine ih ?_
    have now : s.settings.1 = outcome := by rw [settings, h]
    rw [loaded_step, now, h, ite_self]

/-- **Whole runs**: the settings are those of the files at the first step that needs them, or of the
files at the end if there is none. -/
theorem settings_run {s : Session} (h : s.loaded = none) (steps : List Step) :
    (steps.foldl Step.run s).settings.1 =
      Settings.load ((steps.takeWhile fun step => !step.loads).foldl Step.run s).host.files := by
  have now : ∀ {s : Session}, s.loaded = none → s.settings.1 = Settings.load s.host.files := by
    intro s h
    rw [settings, h]
  induction steps generalizing s with
  | nil => exact now h
  | cons step steps ih =>
    have loaded := loaded_step s step
    cases hstep : step.loads with
    | true =>
      rw [hstep, if_pos rfl, now h] at loaded
      rw [List.takeWhile_cons_of_neg (by simp [hstep]), List.foldl_cons, settings,
        loaded_run loaded]
      rfl
    | false =>
      rw [hstep, h] at loaded
      rw [List.takeWhile_cons_of_pos (by simp [hstep]), List.foldl_cons, List.foldl_cons]
      exact ih loaded

/-- The settings file is the first of the search paths that is there. -/
theorem load_cases (files : Files) :
    ((∀ path ∈ Settings.searchPaths, files.isThere path.toList = false) ∧
      Settings.load files = .ok Settings.default) ∨
    ∃ (earlier : List String) (path : String) (later : List String),
      Settings.searchPaths = earlier ++ path :: later ∧
      (∀ other ∈ earlier, files.isThere other.toList = false) ∧ files.isThere path.toList = true ∧
      Settings.load files = Settings.loadFile files path := by
  cases h : Settings.search files with
  | none =>
    refine .inl ⟨fun path hpath => ?_, by rw [Settings.load, h]⟩
    simpa using List.find?_eq_none.mp h path hpath
  | some path =>
    obtain ⟨there, earlier, later, hsplit, hearlier⟩ := List.find?_eq_some_iff_append.mp h
    refine .inr ⟨earlier, path, later, hsplit, fun other hother => ?_, there, by rw [Settings.load, h]⟩
    simpa using hearlier other hother

/-- A loaded file is what its text says, at the time of loading. -/
theorem loadFile_eq (files : Files) (path : String) :
    Settings.loadFile files path =
      ((files.read path.toList).mapError .unreadable).bind fun text =>
        (Settings.parse text).mapError .refused := by
  unfold Settings.loadFile
  cases files.read path.toList <;> rfl

/-- **Settings are loaded once, and setting up goes by them.** Let `first` be the session at the
first step that needs the settings (now, if no step has).  (1) What loading gives is what it gave
then, and gives after any further steps too once some step has needed it.  (2) That is the defaults
if none of the search paths was there, and the file at the first that was there otherwise.  (3) A
file that is loaded by its path gives what is read at that moment, which is what was written if it
was just written, and loading it changes nothing.  (4) Setting up fails with the trouble of the
settings; or it gives their options and opens a log file exactly if they ask for one; or it fails
because this cannot be opened.  When it fails the log stays as it is. -/
theorem loads_once (files : Files) (steps : List Step) :
    let s := after files steps
    let first := after files (steps.takeWhile fun step => !step.loads)
    let outcome := Settings.load first.host.files
    (s.settings.1 = outcome ∧
      ((∃ step ∈ steps, step.loads = true) →
        ∀ more, (after files (steps ++ more)).settings.1 = outcome)) ∧
    (((∀ path ∈ Settings.searchPaths, first.host.files.isThere path.toList = false) ∧
        outcome = .ok Settings.default) ∨
      ∃ (earlier : List String) (path : String) (later : List String),
        Settings.searchPaths = earlier ++ path :: later ∧
        (∀ other ∈ earlier, first.host.files.isThere other.toList = false) ∧
        first.host.files.isThere path.toList = true ∧
        outcome = Settings.loadFile first.host.files path) ∧
    (∀ path, Settings.loadFile s.host.files path =
        ((s.host.files.read path.toList).mapError .unreadable).bind fun text =>
          (Settings.parse text).mapError .refused) ∧
    (∀ path text, (s.host.files.write path.toList text).1 = .ok () →
      Settings.loadFile (after files (steps ++ [.write path.toList text])).host.files path =
        (Settings.parse text).mapError .refused) ∧
    (∀ path more, after files (steps ++ .loadFile path :: more) = after files (steps ++ more)) ∧
    ∀ time,
      (∀ trouble, outcome = .error trouble →
        (s.setUp time).1 = .error (.settings trouble) ∧ LogKept s (s.setUp time).2) ∧
      ∀ settings, outcome = .ok settings →
        (settings.logUnknown = false →
          (s.setUp time).1 = .ok (optionsOf settings) ∧ LogKept s (s.setUp time).2) ∧
        (settings.logUnknown = true →
          ((s.openLog settings.logDir time).1 = .ok () ∧
            (s.setUp time).1 = .ok (optionsOf settings) ∧ LogOpened s (s.setUp time).2) ∨
          ∃ trouble, (s.openLog settings.logDir time).1 = .error trouble ∧
            (s.setUp time).1 = .error (.log trouble) ∧ LogKept s (s.setUp time).2) := by
  intro s first outcome
  have loaded : s.settings.1 = outcome := settings_run rfl steps
  refine ⟨⟨loaded, ?_⟩, load_cases first.host.files, fun path => loadFile_eq _ path, ?_, ?_, ?_⟩
  · rintro ⟨step, hmem, hstep⟩ more
    have same : (steps ++ more).takeWhile (fun step => !step.loads) =
        steps.takeWhile fun step => !step.loads := by
      rw [List.takeWhile_append, if_neg]
      intro hlength
      have all := List.takeWhile_eq_self_iff.mp
        ((List.takeWhile_prefix fun step : Step => !step.loads).eq_of_length hlength)
      simpa [hstep] using all step hmem
    have later := settings_run (s := { host := { files := files } }) rfl (steps ++ more)
    rw [same] at later
    exact later
  · intro path text written
    have step : after files (steps ++ [.write path.toList text]) =
        s.withFiles (s.host.files.write path.toList text).2 := List.foldl_concat ..
    rw [step, loadFile_eq, withFiles, Files.read_write written]
    rfl
  · intro path more
    rw [after, after, List.foldl_append, List.foldl_append]
    rfl
  · intro time
    rw [← loaded]
    exact setUp_cases (tracked_after files steps) time

end Session

end SolidityTree
