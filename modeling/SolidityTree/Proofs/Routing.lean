import Mathlib.Data.List.Forall2
import Mathlib.Data.List.Induction
import SolidityTree.Proofs.LogFile

/-!
# Where the records of a run go

The log keeps a writer, two copies of a handle and a mark that it is initialized, and its calls change
them in all sorts of orders.  This module says where records go without looking at any of them, from
the HISTORY of a run alone: what each call did, in order.

* `handleIn` is the handle of the last log file that was opened, unless the log was closed after
  that; `writerIn` is the writer that was asked for last.
* `deliveries` lists the records of a history, each with the handle and the writer of its moment.
* `Tracks`: after every call the state of the log is what the history says (`Tracks.step` for one
  call, `Tracks.run` for a run).  In particular an initialized log has a sink, and it is open.
* `Delivered`: the consoles and the files have got exactly the deliveries, in this order.

A call that cannot open a log file delivers nothing, and what is delivered after it goes where it would
have gone without the call: at most some directories have been made.

Contents
* §1  histories
* §2  deliveries
* §3  one call
* §4  whole runs
-/

namespace SolidityTree

namespace Log

/-! ## 1. Histories -/

/-- A call of the log. -/
inductive Call where
  | openIn (directory time : String)
  | close
  | redirect (writer : Nat)
  | say (level : Level) (message : String)

/-- What a call did. -/
inductive Event where
  /-- A log file was opened, with a new handle. -/
  | opened (handle : Nat) (path : List Char)
  /-- No log file could be opened. -/
  | refused (trouble : Trouble)
  | closed
  | redirected (writer : Nat)
  | said (level : Level) (message : String)

/-- One call. -/
def Call.run (log : Log) (host : Host) : Call → Event × Log × Host
  | openIn directory time =>
    match log.openIn directory time host with
    | (.ok (), after) => (.opened host.handles.length (pathIn (directoryOr directory) time), after)
    | (.error trouble, after) => (.refused trouble, after)
  | close => (.closed, log.close host)
  | redirect writer => (.redirected writer, (log.redirect writer).2, host)
  | say level message => (.said level message, log, log.say level message host)

/-- Calls, one after the other, and the history that they make. -/
def run (log : Log) (host : Host) : List Call → List Event × Log × Host
  | [] => ([], log, host)
  | call :: calls =>
    let (event, log, host) := call.run log host
    let (history, log, host) := run log host calls
    (event :: history, log, host)

/-- The events that a call may have. -/
inductive Call.Yields : Call → Event → Prop
  | opened (directory time : String) (handle : Nat) :
      Yields (openIn directory time) (.opened handle (pathIn (directoryOr directory) time))
  | refused (directory time : String) (trouble : Trouble) :
      Yields (openIn directory time) (.refused trouble)
  | closed : Yields close .closed
  | redirected (writer : Nat) : Yields (redirect writer) (.redirected writer)
  | said (level : Level) (message : String) : Yields (say level message) (.said level message)

namespace Event

/-- The handle that an event gives out. -/
def handle? : Event → Option Nat
  | opened handle _ => some handle
  | _ => none

/-- The handle in use after an event, if the event decides that. -/
def turn? : Event → Option (Option Nat)
  | opened handle _ => some (some handle)
  | closed => some none
  | _ => none

/-- The writer in use after an event, if the event decides that. -/
def writer? : Event → Option Nat
  | redirected writer => some writer
  | _ => none

end Event

/-- **The handle in use after a history**: that of the last log file that was opened, unless the log
was closed after that. -/
def handleIn (history : List Event) : Option Nat :=
  (history.reverse.findSome? Event.turn?).getD none

/-- **The writer in use after a history**: the one that was asked for last. -/
def writerIn (history : List Event) : Nat := (history.reverse.findSome? Event.writer?).getD 0

theorem handleIn_snoc (history : List Event) (e : Event) :
    handleIn (history ++ [e]) = e.turn?.getD (handleIn history) := by
  rw [handleIn, List.reverse_concat, List.findSome?_cons]
  cases e.turn? <;> rfl

theorem writerIn_snoc (history : List Event) (e : Event) :
    writerIn (history ++ [e]) = e.writer?.getD (writerIn history) := by
  rw [writerIn, List.reverse_concat, List.findSome?_cons]
  cases e.writer? <;> rfl

/-- The handle in use after a log file was opened is that of the file, or one given out later. -/
theorem handleIn_after {before after : List Event} {handle k : Nat} {path : List Char}
    (h : handleIn (before ++ [.opened handle path] ++ after) = some k) :
    k = handle ∨ k ∈ after.filterMap Event.handle? := by
  induction after using List.reverseRecOn with
  | nil =>
    rw [List.append_nil, handleIn_snoc] at h
    exact .inl (Option.some.inj h).symm
  | append_singleton after e ih =>
    rw [← List.append_assoc, handleIn_snoc] at h
    rw [List.filterMap_append, List.mem_append]
    cases e with
    | opened handle' path' =>
      cases h
      exact .inr (.inr (List.mem_singleton.mpr rfl))
    | closed => cases h
    | refused | redirected | said => exact (ih h).imp id .inl

/-! ## 2. Deliveries -/

/-- A record and where it goes. -/
structure Delivery where
  record : String
  /-- The handle that it is written through, if it goes to a file. -/
  handle : Option Nat
  /-- The writer that it is shown by, if it goes to a console. -/
  writer : Option Nat

/-- The record that an event after a history brings, and where it goes at that moment. -/
def Event.delivery? (history : List Event) : Event → Option Delivery
  | opened handle path =>
    some ⟨Log.record .info (openedMessage path), some handle, some (writerIn history)⟩
  | said level message =>
    some ⟨Log.record level message, handleIn history,
      if level = .debug then none else some (writerIn history)⟩
  | _ => none

/-- The records of events after a history, in order. -/
def deliveries (history : List Event) : List Event → List Delivery
  | [] => []
  | e :: rest => (e.delivery? history).toList ++ deliveries (history ++ [e]) rest

/-- Every delivery is that of an event, at the moment of the event. -/
theorem mem_deliveries_iff {d : Delivery} {history events : List Event} :
    d ∈ deliveries history events ↔
      ∃ before e after, events = before ++ e :: after ∧
        e.delivery? (history ++ before) = some d := by
  induction events generalizing history with
  | nil => exact iff_of_false (by rintro ⟨⟩) (by rintro ⟨before, e, after, h, -⟩; simp at h)
  | cons e rest ih =>
    rw [deliveries, List.mem_append, Option.mem_toList, ih]
    constructor
    · rintro (h | ⟨before, e', after, rfl, h⟩)
      · exact ⟨[], e, rest, rfl, by rwa [List.append_nil]⟩
      · exact ⟨e :: before, e', after, rfl, by rwa [List.append_assoc] at h⟩
    · rintro ⟨before, e', after, heq, h⟩
      cases before with
      | nil =>
        cases heq
        rw [List.append_nil] at h
        exact .inl h
      | cons e'' before =>
        cases heq
        exact .inr ⟨before, e', after, rfl, by rwa [List.append_assoc]⟩

/-- After a log file was opened, records go through its handle or through one given out later. -/
theorem handle_of_delivery {before after : List Event} {handle k : Nat} {path : List Char}
    {d : Delivery} (hd : d ∈ deliveries (before ++ [.opened handle path]) after)
    (hk : d.handle = some k) : k = handle ∨ k ∈ after.filterMap Event.handle? := by
  obtain ⟨mid, e, rest, rfl, he⟩ := mem_deliveries_iff.mp hd
  rw [List.filterMap_append, List.mem_append]
  cases e with
  | opened handle' path' =>
    cases he
    cases hk
    exact .inr (.inr List.mem_cons_self)
  | said level message =>
    cases he
    exact (handleIn_after hk).imp id .inl
  | closed | refused | redirected => cases he

namespace Delivery

/-- What a delivery puts on the consoles. -/
def shown? (d : Delivery) : Option Shown := d.writer.map fun writer => ⟨writer, d.record⟩

/-- What a delivery puts into a file. -/
def textFor (host : Host) (file : Nat) (d : Delivery) : Bytes :=
  if d.handle.bind host.file? = some file then utf8 d.record else []

end Delivery

/-- From one moment to another, the consoles and the files have got some deliveries and nothing
else, and no handle has come to lead to another file. -/
structure Delivered (ds : List Delivery) (host host' : Host) : Prop where
  console : host'.console = host.console ++ ds.filterMap Delivery.shown?
  text : ∀ file, host'.files.text file = host.files.text file ++ ds.flatMap (Delivery.textFor host' file)
  file : ∀ handle file, host.file? handle = some file → host'.file? handle = some file
  known : ∀ d ∈ ds, ∀ handle, d.handle = some handle → ∃ file, host'.file? handle = some file

/-- Deliveries, one after the other. -/
theorem Delivered.trans {ds ds' : List Delivery} {host host' host'' : Host}
    (h : Delivered ds host host') (h' : Delivered ds' host' host'') :
    Delivered (ds ++ ds') host host'' := by
  -- the handles of the first deliveries lead to the same files at the end
  have same : ∀ file, ds.flatMap (Delivery.textFor host'' file) =
      ds.flatMap (Delivery.textFor host' file) := by
    intro file
    refine List.flatMap_congr fun d hd => ?_
    unfold Delivery.textFor
    cases hh : d.handle with
    | none => rfl
    | some handle =>
      obtain ⟨n, hn⟩ := h.known d hd handle hh
      rw [Option.bind_some, Option.bind_some, hn, h'.file handle n hn]
  refine ⟨?_, fun file => ?_, fun handle file hf => h'.file _ _ (h.file _ _ hf), ?_⟩
  · rw [h'.console, h.console, List.filterMap_append, List.append_assoc]
  · rw [h'.text, h.text, List.flatMap_append, same, List.append_assoc]
  · intro d hd handle hh
    rcases List.mem_append.mp hd with hd | hd
    · obtain ⟨n, hn⟩ := h.known d hd handle hh
      exact ⟨n, h'.file handle n hn⟩
    · exact h'.known d hd handle hh

/-- Nothing is delivered. -/
theorem Delivered.nothing {host host' : Host} (console : host'.console = host.console)
    (text : ∀ file, host'.files.text file = host.files.text file)
    (file : ∀ handle file, host.file? handle = some file → host'.file? handle = some file) :
    Delivered [] host host' :=
  ⟨by rw [console, List.filterMap_nil, List.append_nil],
    fun n => by rw [text, List.flatMap_nil, List.append_nil], file, nofun⟩

/-- Opening another log file delivers nothing. -/
theorem delivered_reopened (log : Log) (host : Host) {files : Files}
    (htext : ∀ n, files.text n = host.files.text n) (file : Nat) :
    Delivered [] host (log.reopened host files file) := by
  refine .nothing (console_release _ _) (fun n => ?_) fun handle n hf => ?_
  · rw [reopened, files_release]
    exact htext n
  · have hlt : handle < host.handles.length := by
      by_contra hge
      rw [Host.file?, List.getElem?_eq_none (Nat.le_of_not_lt hge)] at hf
      cases hf
    rw [file?_reopened, if_neg (Nat.ne_of_lt hlt)]
    exact hf

/-- The delivery of a message. -/
def delivery (log : Log) (handle : Option Nat) (level : Level) (message : String) : Delivery :=
  ⟨Log.record level message, handle, if level = .debug then none else some log.writer⟩

theorem shown_eq (log : Log) (handle : Option Nat) (level : Level) (message : String) :
    log.shown level message = [log.delivery handle level message].filterMap Delivery.shown? := by
  cases level <;> rfl

/-- A record of a log that writes to a file is delivered there. -/
theorem WritesTo.delivered {log : Log} {host : Host} {handle file : Nat}
    (h : log.WritesTo host handle file) (level : Level) (message : String) :
    Delivered [log.delivery (some handle) level message] host (log.say level message host) := by
  have hfile : (log.say level message host).file? handle = some file := by
    rw [say_of_writesTo h, Host.file?, h.isOpen]
    rfl
  refine ⟨?_, fun n => ?_, fun k n hk => ?_, ?_⟩
  · rw [say_of_writesTo h, shown_eq]
  · have bind : (log.delivery (some handle) level message).handle.bind
        (log.say level message host).file? = some file := hfile
    rw [List.flatMap_singleton, Delivery.textFor, bind, say_of_writesTo h, Files.text_append _ h.text]
    simp only [Option.some.injEq, eq_comm (a := n)]
    rfl
  · rw [say_of_writesTo h]
    exact hk
  · intro d hd k hk
    rw [List.mem_singleton.mp hd] at hk
    cases hk
    exact ⟨file, hfile⟩

/-- A record of a log that is not initialized is delivered to no file. -/
theorem delivered_of_not_initialized {log : Log} (h : log.initialized = false) (level : Level)
    (message : String) (host : Host) :
    Delivered [log.delivery none level message] host (log.say level message host) := by
  rw [say_of_not_initialized h]
  refine ⟨by rw [shown_eq], fun n => (List.append_nil _).symm, fun k n hk => hk, ?_⟩
  intro d hd k hk
  rw [List.mem_singleton.mp hd] at hk
  cases hk

/-! ## 3. One call -/

/-- **The state is what the history says.** -/
structure Tracks (history : List Event) (log : Log) (host : Host) : Prop where
  writer : log.writer = writerIn history
  initialized : log.initialized = (handleIn history).isSome
  sink : log.sink = handleIn history
  handle : log.handle = handleIn history
  /-- The handle in use is open, and no other. -/
  isOpen : ∀ handle, host.IsOpen handle ↔ handleIn history = some handle
  /-- Handles lead to files that have a text. -/
  text : ∀ handle file, host.file? handle = some file → file < host.files.texts.length
  /-- Handles are given out in order, none twice. -/
  numbered : history.filterMap Event.handle? = List.range host.handles.length

namespace Tracks

variable {history : List Event} {log : Log} {host : Host}

/-- Before anything has happened. -/
theorem start (files : Files) : Tracks [] {} { files := files } where
  writer := rfl
  initialized := rfl
  sink := rfl
  handle := rfl
  isOpen handle := iff_of_false (by rintro ⟨file, h⟩; simp at h) nofun
  text handle file h := by simp [Host.file?] at h
  numbered := rfl

/-- A log with a handle in use writes to the file of the handle. -/
theorem writesTo (h : Tracks history log host) {handle : Nat}
    (hh : handleIn history = some handle) : ∃ file, log.WritesTo host handle file := by
  obtain ⟨file, hf⟩ := (h.isOpen handle).mpr hh
  refine ⟨file, ?_, h.sink.trans hh, hf, h.text handle file ?_⟩
  · rw [h.initialized, hh]
    rfl
  · rw [Host.file?, hf]
    rfl

/-- A message is delivered where the history says. -/
theorem delivered_say (h : Tracks history log host) (level : Level) (message : String) :
    Delivered [log.delivery (handleIn history) level message] host
      (log.say level message host) := by
  cases hh : handleIn history with
  | none =>
    have hnot : log.initialized = false := by
      rw [h.initialized, hh]
      rfl
    exact delivered_of_not_initialized hnot level message host
  | some handle =>
    obtain ⟨file, hw⟩ := h.writesTo hh
    exact hw.delivered level message

/-- Of the surroundings only the handles matter, and that no file goes. -/
theorem congr (h : Tracks history log host) {host' : Host} (handles : host'.handles = host.handles)
    (texts : host.files.texts.length ≤ host'.files.texts.length) : Tracks history log host' where
  writer := h.writer
  initialized := h.initialized
  sink := h.sink
  handle := h.handle
  isOpen handle := by
    rw [Host.IsOpen, handles]
    exact h.isOpen handle
  text handle file hf := by
    rw [Host.file?, handles] at hf
    exact Nat.lt_of_lt_of_le (h.text handle file hf) texts
  numbered := by rw [h.numbered, handles]

/-- An event that decides nothing about handles changes the writer at most. -/
theorem pass (h : Tracks history log host) {e : Event} (turn : e.turn? = none) :
    Tracks (history ++ [e]) { log with writer := e.writer?.getD log.writer } host := by
  have same : handleIn (history ++ [e]) = handleIn history := by
    rw [handleIn_snoc, turn]
    rfl
  have none : e.handle? = none := by cases e <;> first | rfl | cases turn
  refine ⟨?_, ?_, ?_, ?_, fun handle => ?_, h.text, ?_⟩
  · rw [writerIn_snoc, ← h.writer]
  · rw [same]
    exact h.initialized
  · rw [same]
    exact h.sink
  · rw [same]
    exact h.handle
  · rw [same]
    exact h.isOpen handle
  · rw [List.filterMap_append, h.numbered, List.filterMap_cons, none]
    exact List.append_nil _

/-- After the log was closed no handle is open. -/
theorem close (h : Tracks history log host) :
    Tracks (history ++ [.closed]) (log.close host).1 (log.close host).2 := by
  have none : handleIn (history ++ [.closed]) = none := handleIn_snoc history .closed
  refine ⟨?_, ?_, none.symm, none.symm, fun handle => ?_, fun handle file hf => ?_, ?_⟩
  · rw [writerIn_snoc]
    exact h.writer
  · rw [none]
    rfl
  · rw [none]
    refine iff_of_false (fun hopen => ?_) nofun
    obtain ⟨hopen, hne⟩ := isOpen_release_iff.mp hopen
    exact hne (h.handle.trans ((h.isOpen handle).mp hopen))
  · rw [Log.close, file?_release] at hf
    rw [Log.close, files_release]
    exact h.text handle file hf
  · rw [List.filterMap_append, h.numbered, Log.close, length_handles_release]
    exact List.append_nil _

/-- After a log file was opened its handle is the one that is open. -/
theorem opened (h : Tracks history log host) {file : Nat} {files : Files}
    (hfile : file < files.texts.length) (hle : host.files.texts.length ≤ files.texts.length)
    (path : List Char) :
    Tracks (history ++ [.opened host.handles.length path]) (log.attach host.handles.length)
      (log.reopened host files file) := by
  have new : handleIn (history ++ [.opened host.handles.length path]) =
      some host.handles.length := handleIn_snoc _ _
  have fresh : ¬ host.IsOpen host.handles.length := fun hopen => Nat.lt_irrefl _ hopen.lt
  refine ⟨?_, ?_, new.symm, new.symm, fun handle => ?_, fun handle n hf => ?_, ?_⟩
  · rw [writerIn_snoc]
    exact h.writer
  · rw [new]
    rfl
  · rw [new, isOpen_reopened_iff, h.handle, Option.some.injEq]
    constructor
    · rintro ⟨heq | hopen, hne⟩
      · exact heq.symm
      · exact absurd ((h.isOpen handle).mp hopen) hne
    · rintro rfl
      exact ⟨.inl rfl, fun hold => fresh ((h.isOpen _).mpr hold)⟩
  · rw [file?_reopened] at hf
    rw [reopened, files_release]
    split at hf
    · cases hf
      exact hfile
    · exact Nat.lt_of_lt_of_le (h.text handle n hf) hle
  · rw [List.filterMap_append, h.numbered, reopened, length_handles_release, List.length_append,
      List.length_singleton, List.range_succ]
    rfl

/-- Opening a log file, with success or without. -/
theorem openIn (h : Tracks history log host) (directory time : String) :
    (Call.openIn directory time).Yields ((Call.openIn directory time).run log host).1 ∧
      Tracks (history ++ [((Call.openIn directory time).run log host).1])
        ((Call.openIn directory time).run log host).2.1
        ((Call.openIn directory time).run log host).2.2 ∧
      Delivered (((Call.openIn directory time).run log host).1.delivery? history).toList host
        ((Call.openIn directory time).run log host).2.2 := by
  rcases openIn_cases log directory time host with
    ⟨trouble, files, texts, heq⟩ | ⟨file, files, hfile, hle, htext, heq⟩
  · simp only [Call.run, heq]
    refine ⟨.refused _ _ _, (h.pass rfl).congr rfl (Nat.le_of_eq (by rw [texts])), ?_⟩
    exact .nothing rfl (fun n => by rw [Files.text, Files.text, texts]) fun _ _ hf => hf
  · simp only [Call.run, heq]
    have tracks := h.opened hfile hle (pathIn (directoryOr directory) time)
    obtain ⟨handles, texts⟩ := handles_say (log.attach host.handles.length) .info
      (openedMessage (pathIn (directoryOr directory) time)) (log.reopened host files file)
    refine ⟨.opened _ _ _, tracks.congr handles (Nat.le_of_eq texts.symm), ?_⟩
    have said := tracks.delivered_say .info (openedMessage (pathIn (directoryOr directory) time))
    have writer : (log.attach host.handles.length).writer = writerIn history := h.writer
    rw [handleIn_snoc, Log.delivery, writer] at said
    exact (delivered_reopened log host htext file).trans said

/-- **One call.**  The state is what the history says afterwards too, and what the event brings has
been delivered. -/
theorem step (h : Tracks history log host) (call : Call) :
    call.Yields (call.run log host).1 ∧
      Tracks (history ++ [(call.run log host).1]) (call.run log host).2.1 (call.run log host).2.2 ∧
      Delivered ((call.run log host).1.delivery? history).toList host (call.run log host).2.2 := by
  cases call with
  | openIn directory time => exact h.openIn directory time
  | close =>
    refine ⟨.closed, h.close, .nothing (console_release _ _) (fun n => ?_) fun handle n hf => ?_⟩
    · exact congrArg (fun files => Files.text files n) (files_release log host)
    · exact (file?_release log host handle).trans hf
  | redirect writer =>
    exact ⟨.redirected _, h.pass rfl, .nothing rfl (fun _ => rfl) fun _ _ hf => hf⟩
  | say level message =>
    obtain ⟨handles, texts⟩ := handles_say log level message host
    refine ⟨.said _ _, (h.pass rfl).congr handles (Nat.le_of_eq texts.symm), ?_⟩
    have said := h.delivered_say level message
    rw [Log.delivery, h.writer] at said
    exact said

/-! ## 4. Whole runs -/

/-- Handles given out before one are smaller, and those given out after it are larger. -/
theorem ordered (h : Tracks history log host) {before after : List Event} {handle : Nat}
    {path : List Char} (heq : history = before ++ .opened handle path :: after) :
    (∀ old ∈ before.filterMap Event.handle?, old < handle) ∧
      ∀ new ∈ after.filterMap Event.handle?, handle < new := by
  have increasing : (history.filterMap Event.handle?).Pairwise (· < ·) := by
    rw [h.numbered]
    exact List.pairwise_lt_range
  rw [heq, List.filterMap_append] at increasing
  obtain ⟨-, hafter, hbefore⟩ := List.pairwise_append.mp increasing
  exact ⟨fun old hold => hbefore old hold handle List.mem_cons_self,
    (List.pairwise_cons.mp hafter).1⟩

/-- **Whole runs.** -/
theorem run (h : Tracks history log host) (calls : List Call) :
    List.Forall₂ Call.Yields calls (Log.run log host calls).1 ∧
      Tracks (history ++ (Log.run log host calls).1) (Log.run log host calls).2.1
        (Log.run log host calls).2.2 ∧
      Delivered (deliveries history (Log.run log host calls).1) host
        (Log.run log host calls).2.2 := by
  induction calls generalizing history log host with
  | nil =>
    refine ⟨.nil, ?_, .nothing rfl (fun _ => rfl) fun _ _ hf => hf⟩
    rw [Log.run, List.append_nil]
    exact h
  | cons call calls ih =>
    obtain ⟨yields, tracks, delivered⟩ := h.step call
    obtain ⟨yields', tracks', delivered'⟩ := ih tracks
    rw [List.append_assoc] at tracks'
    exact ⟨.cons yields yields', tracks', delivered.trans delivered'⟩

end Tracks

/-- **Where the records of a run go.**  (1) Every call has an event of its kind.  (2) The log is
initialized exactly if it has a sink and a handle to close, these are the handle of the history, which
is open while every other one is closed, and the writer is that of the history.  (3) The consoles and
every file have got the deliveries of the history, in order, and nothing else; the handle of a delivery
leads to a file, and keeps leading to it whatever is called afterwards.  (4) Once a log file was opened,
no record goes through a handle that was given out before.  (5) If no log file can be opened, the log,
the handles, the consoles and all texts stay as they are.  (6) A record is the level, the message and,
unless the message has one at its end, a line feed; so it ends in a line feed. -/
theorem run_routes (files : Files) (calls : List Call) :
    let history := (Log.run {} { files := files } calls).1
    let log := (Log.run {} { files := files } calls).2.1
    let host := (Log.run {} { files := files } calls).2.2
    List.Forall₂ Call.Yields calls history ∧
    ((log.initialized = true ↔ log.sink.isSome = true ∧ log.handle.isSome = true) ∧
      log.sink = handleIn history ∧ log.handle = handleIn history ∧
      (∀ handle, host.IsOpen handle ↔ handleIn history = some handle) ∧
      log.writer = writerIn history) ∧
    (host.console = (deliveries [] history).filterMap Delivery.shown? ∧
      (∀ file, host.files.text file =
        files.text file ++ (deliveries [] history).flatMap (Delivery.textFor host file)) ∧
      (∀ d ∈ deliveries [] history, ∀ handle, d.handle = some handle →
        ∃ file, host.file? handle = some file) ∧
      ∀ more handle file, host.file? handle = some file →
        (Log.run log host more).2.2.file? handle = some file) ∧
    (∀ before handle path after, history = before ++ .opened handle path :: after →
      (∀ old oldPath, .opened old oldPath ∈ before → old < handle) ∧
      ∀ d ∈ deliveries (before ++ [.opened handle path]) after, ∀ k, d.handle = some k →
        handle ≤ k) ∧
    (∀ directory time trouble log' host',
      log.openIn directory time host = (.error trouble, log', host') →
      log' = log ∧ host'.handles = host.handles ∧ host'.console = host.console ∧
        host'.files.texts = host.files.texts) ∧
    ∀ level message, ∃ ending,
      Log.record level message = "[" ++ level.word ++ "] " ++ message ++ ending ∧
      (ending = "" ∧ message.toList.getLast? = some '\n' ∨
        ending = "\n" ∧ message.toList.getLast? ≠ some '\n') ∧
      (Log.record level message).toList.getLast? = some '\n' := by
  intro history log host
  obtain ⟨yields, tracks, delivered⟩ := (Tracks.start files).run calls
  rw [List.nil_append] at tracks
  refine ⟨yields, ⟨?_, tracks.sink, tracks.handle, tracks.isOpen, tracks.writer⟩,
    ⟨?_, delivered.text, delivered.known, fun more => (tracks.run more).2.2.file⟩, ?_, ?_, ?_⟩
  · rw [tracks.initialized, tracks.sink, tracks.handle, and_self]
  · rw [delivered.console]
    rfl
  · intro before handle path after heq
    obtain ⟨older, later⟩ := tracks.ordered heq
    refine ⟨fun old oldPath hold => ?_, fun d hd k hk => ?_⟩
    · exact older old (List.mem_filterMap.mpr ⟨_, hold, rfl⟩)
    · rcases handle_of_delivery hd hk with rfl | hk
      · exact Nat.le_refl _
      · exact Nat.le_of_lt (later k hk)
  · intro directory time trouble log' host' hopen
    rcases openIn_cases log directory time host with
      ⟨trouble', files', texts, heq⟩ | ⟨file, files', -, -, -, heq⟩
    · rw [heq] at hopen
      cases hopen
      exact ⟨rfl, rfl, rfl, texts⟩
    · rw [heq] at hopen
      cases hopen
  · intro level message
    obtain ⟨ending, heq, hending⟩ := record_eq level message
    exact ⟨ending, heq, hending, getLast?_record level message⟩

end Log

end SolidityTree
