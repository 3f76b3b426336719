import VlcWhisper.Lib.Mealy
import VlcWhisper.Lib.Slots
import VlcWhisper.Worker.CueText
import Mathlib.Data.List.InsertIdx
import Mathlib.Data.List.Nodup

/-!
# Diagnostic events and their sinks (`vw_log.c`, `vw_plugin_log_scope_override.h`)

The instances of the plugin in one process share a table of sixteen sinks. An instance registers its VLC object when it
is opened, and takes it out when it is closed or its opening has failed. In between any thread may log an event, and a
thread looks whether logging is enabled before it takes the lock.

Main results:

* `shown_to_open`: as long as no more than sixteen are open, each event reaches those that are open when the lock is
  taken, in the order in which they were opened, and `stderr` if there are none.
* `shown_once`: in every run, an event is shown at most once by each instance, and only by one that is open.
-/

namespace VlcWhisper.System

open VlcWhisper.Lib VlcWhisper.Worker

/-! ## The table -/

/-- `VW_LOG_MAX_SINKS`. -/
def logMaxSinks : Nat := 16

/-- `vw_log_sink_entry_t`; `none` is `NULL`. -/
structure SinkEntry (Fn Obj : Type) where
  sink : Option Fn
  userData : Option Obj
deriving DecidableEq

def SinkEntry.blank {Fn Obj : Type} : SinkEntry Fn Obj := ⟨none, none⟩

/-- `g_log_sinks` and `g_log_sink_count`. -/
abbrev SinkTable (Fn Obj : Type) := Slots (SinkEntry Fn Obj) logMaxSinks

section Table

variable {Fn Obj : Type} [DecidableEq Fn] [DecidableEq Obj]

/-- `vw_log_set_sink`. -/
def logSetSink (t : SinkTable Fn Obj) (sink : Option Fn) (userData : Option Obj) : SinkTable Fn Obj :=
  if sink.isSome then
    match t.find fun e => (userData.isSome && e.userData = userData) ||
        (userData.isNone && e.sink = sink && e.userData.isNone) with
    | some i => t.put i ⟨sink, userData⟩
    | none =>
      if h : t.count < logMaxSinks then t.push ⟨sink, userData⟩ h
      else t.put (logMaxSinks - 1) ⟨sink, userData⟩
  else if userData.isSome then
    match t.find fun e => e.userData = userData with
    | some i => t.removeAt i .blank
    | none => t
  else if 0 < t.count then t.pop .blank
  else t

/-- `vw_plugin_log_set_sink_scoped`, as far as the sinks are concerned. -/
def logSetSinkScoped (t : SinkTable Fn Obj) (sink : Option Fn) (userData : Option Obj) (obj : Obj) :
    SinkTable Fn Obj :=
  if sink.isNone && userData.isNone then logSetSink t none (some obj) else logSetSink t sink userData

end Table

/-! ## Events -/

/-- `vw_log_level_t`; `other` is any value that has no name. -/
inductive LogLevel where
  | debug
  | info
  | warn
  | error
  | other
deriving DecidableEq

/-- `vw_log_level_to_string`. -/
def LogLevel.toBytes : LogLevel → Bytes
  | debug => ascii "DEBUG"
  | info => ascii "INFO"
  | warn => ascii "WARN"
  | error => ascii "ERROR"
  | other => ascii "UNKNOWN"

/-- The arguments of `vw_log_event`; `text` is the format with its arguments put in. -/
structure LogEvent where
  level : LogLevel
  eventId : Option Bytes
  text : Option Bytes
deriving DecidableEq

/-- The arguments of `vw_log_write`. -/
structure LogRecord where
  level : LogLevel
  eventId : Bytes
  message : Bytes
deriving DecidableEq

/-- The defaults of `vw_log_event`, and what goes into `message_buf`. -/
def LogEvent.toRecord (e : LogEvent) : LogRecord where
  level := e.level
  eventId := e.eventId.getD (ascii "UNKNOWN_EVENT")
  message := (e.text.getD []).take 1023

/-- The format of a line. -/
def LogRecord.line (r : LogRecord) : Bytes :=
  ascii "[" ++ r.level.toBytes ++ ascii "] [" ++ r.eventId ++ ascii "] " ++ r.message ++ ascii "\n"

/-- `msg_Err`, `msg_Warn` and `msg_Dbg`. -/
inductive VlcSeverity where
  | err
  | warn
  | dbg
deriving DecidableEq

/-- What can be seen of an event. -/
inductive Shown (Obj File : Type) where
  | vlc (obj : Obj) (severity : VlcSeverity) (text : Bytes)
  | stderr (line : Bytes)
  | file (f : File) (line : Bytes)
deriving DecidableEq

/-- The sinks there are: `vw_plugin_log_sink`. -/
inductive PluginSink where
  | pluginLogSink
deriving DecidableEq

section Showing

variable {Obj File : Type}

/-- The severity and the text of `vw_plugin_log_sink`. -/
def LogRecord.toVlc (r : LogRecord) (obj : Obj) : Shown Obj File :=
  .vlc obj (match r.level with
    | .error => .err
    | .warn => .warn
    | _ => .dbg) (ascii "[vw_log:" ++ r.eventId ++ ascii "] " ++ r.message)

/-- `sink(level, event_id, message_buf, user_data)`. -/
def callSink (r : LogRecord) (e : SinkEntry PluginSink Obj) : Option (Shown Obj File) :=
  match e.sink, e.userData with
  | some .pluginLogSink, some obj => some (r.toVlc obj)
  | _, _ => none

/-- `vw_log_write`. -/
def logWrite (sinks : SinkTable PluginSink Obj) (file : Option File) (r : LogRecord) : List (Shown Obj File) :=
  (if 0 < sinks.count then sinks.toList.filterMap (callSink r) else [.stderr r.line]) ++
    (file.map fun f => .file f r.line).toList

end Showing

/-! ## Steps -/

/-- What the threads of the process do. A call of `vw_log_event` is two steps. -/
inductive LogStep (Thread Obj File : Type) where
  /-- `vw_plugin_open` registers the instance. -/
  | opened (obj : Obj)
  /-- `vw_plugin_close`, or `vw_plugin_open` when it fails. -/
  | closed (obj : Obj)
  | setEnabled (enabled : Bool)
  | setFile (file : Option File)
  /-- The thread looks whether logging is enabled, and forms its message. -/
  | event (thread : Thread) (e : LogEvent)
  /-- The thread has the lock. -/
  | write (thread : Thread)

/-- The globals of `vw_log.c`, and the threads that are to write what they have formed. -/
structure LogState (Thread Obj File : Type) where
  enabled : Bool
  sinks : SinkTable PluginSink Obj
  file : Option File
  formed : Thread → Option LogRecord

section Steps

variable {Thread Obj File : Type} [DecidableEq Thread] [DecidableEq Obj]

def setFormed (formed : Thread → Option LogRecord) (thread : Thread) (r : Option LogRecord) :
    Thread → Option LogRecord :=
  fun other => if other = thread then r else formed other

/-- How `vw_log_event` begins; a thread is in one call at a time. -/
def beginEvent (enabled : Bool) (formed : Thread → Option LogRecord) (thread : Thread) (e : LogEvent) :
    Thread → Option LogRecord :=
  if enabled && (formed thread).isNone then setFormed formed thread (some e.toRecord) else formed

namespace LogState

def start : LogState Thread Obj File where
  enabled := false
  sinks := .empty logMaxSinks .blank
  file := none
  formed := fun _ => none

def step (s : LogState Thread Obj File) : LogStep Thread Obj File → LogState Thread Obj File
  | .opened obj => { s with sinks := logSetSinkScoped s.sinks (some .pluginLogSink) (some obj) obj }
  | .closed obj => { s with sinks := logSetSinkScoped s.sinks none none obj }
  | .setEnabled enabled => { s with enabled }
  | .setFile file => { s with file }
  | .event thread e => { s with formed := beginEvent s.enabled s.formed thread e }
  | .write thread => { s with formed := setFormed s.formed thread none }

/-- What a step shows. -/
def shown (s : LogState Thread Obj File) : LogStep Thread Obj File → List (Shown Obj File)
  | .write thread => ((s.formed thread).map (logWrite s.sinks s.file)).getD []
  | _ => []

end LogState

/-! ## The purpose -/

/-- The instances that are open, in the order in which they were opened, and the rest of the state. -/
structure LogSpec (Thread Obj File : Type) where
  enabled : Bool
  instances : List Obj
  file : Option File
  formed : Thread → Option LogRecord

namespace LogSpec

def start : LogSpec Thread Obj File where
  enabled := false
  instances := []
  file := none
  formed := fun _ => none

def step (s : LogSpec Thread Obj File) : LogStep Thread Obj File → LogSpec Thread Obj File
  | .opened obj => { s with instances := if obj ∈ s.instances then s.instances else s.instances ++ [obj] }
  | .closed obj => { s with instances := s.instances.erase obj }
  | .setEnabled enabled => { s with enabled }
  | .setFile file => { s with file }
  | .event thread e => { s with formed := beginEvent s.enabled s.formed thread e }
  | .write thread => { s with formed := setFormed s.formed thread none }

/-- A record is shown by each open instance, or else on `stderr`, and goes to the file besides. -/
def toAll (instances : List Obj) (file : Option File) (r : LogRecord) : List (Shown Obj File) :=
  (if instances = [] then [.stderr r.line] else instances.map r.toVlc) ++ (file.map fun f => .file f r.line).toList

def shown (s : LogSpec Thread Obj File) : LogStep Thread Obj File → List (Shown Obj File)
  | .write thread => ((s.formed thread).map (toAll s.instances s.file)).getD []
  | _ => []

end LogSpec

end Steps

/-! ## The table holds instances -/

section Entries

variable {Obj File : Type} [DecidableEq Obj] {t : SinkTable PluginSink Obj} {instances : List Obj} {obj : Obj}

def instanceEntry (obj : Obj) : SinkEntry PluginSink Obj := ⟨some .pluginLogSink, some obj⟩

/-- In a full table the last instance loses its slot. -/
def enroll (instances : List Obj) (obj : Obj) : List Obj :=
  if obj ∈ instances then instances
  else if instances.length < logMaxSinks then instances ++ [obj]
  else instances.dropLast ++ [obj]

omit [DecidableEq Obj] in
theorem length_of_entries (h : t.toList = instances.map instanceEntry) : t.count = instances.length := by
  have hlen := congrArg List.length h
  simpa using hlen

theorem find_instance (h : t.toList = instances.map instanceEntry) (obj : Obj) (p : SinkEntry PluginSink Obj → Bool)
    (hp : ∀ other, p (instanceEntry other) = (other == obj)) : t.find p = instances.idxOf? obj := by
  have hcomp : p ∘ instanceEntry = (· == obj) := funext hp
  rw [Slots.find_eq, h, List.findIdx?_map, hcomp]
  rfl

theorem set_last {α : Type} {l : List α} {k : Nat} (h : l.length = k + 1) (x : α) : l.set k x = l.dropLast ++ [x] := by
  rcases List.eq_nil_or_concat l with rfl | ⟨rest, last, rfl⟩
  · simp at h
  · have hrest : rest.length = k := by simpa using h
    subst hrest
    simp

theorem toList_opened (h : t.toList = instances.map instanceEntry) :
    (logSetSinkScoped t (some .pluginLogSink) (some obj) obj).toList = (enroll instances obj).map instanceEntry := by
  have hcount := length_of_entries h
  have hfind := find_instance h obj (fun e => decide (e.userData = some obj))
    fun other => by simp [instanceEntry, beq_eq_decide]
  simp only [logSetSinkScoped, Option.isNone_some, Bool.and_self, Bool.false_eq_true, if_false, logSetSink,
    Option.isSome_some, if_true, Bool.true_and, Bool.false_and, Bool.or_false]
  rw [hfind, enroll]
  cases hidx : instances.idxOf? obj with
  | some i =>
    obtain ⟨hi, hget, -⟩ := List.idxOf?_eq_some_iff.mp hidx
    have hmem : obj ∈ instances := hget ▸ List.getElem_mem hi
    rw [if_pos hmem]
    simp only [Slots.toList_put, h]
    -- The entry that is replaced is the same.
    have hset : (instances.map instanceEntry).set i (instanceEntry obj) = instances.map instanceEntry := by
      rw [← List.map_set, ← hget, List.set_getElem_self]
    exact hset
  | none =>
    have hmem : obj ∉ instances := List.idxOf?_eq_none_iff.mp hidx
    simp only [hmem, if_false]
    split
    · rename_i hroom
      rw [if_pos (by omega)]
      simp [h, instanceEntry]
    · rename_i hfull
      have hle := t.count_le
      rw [if_neg (by omega), Slots.toList_put, h, set_last (by simp [logMaxSinks] at *; omega)]
      simp [instanceEntry]

theorem toList_closed (h : t.toList = instances.map instanceEntry) :
    (logSetSinkScoped t none none obj).toList = (instances.erase obj).map instanceEntry := by
  have hfind := find_instance h obj (fun e => decide (e.userData = some obj))
    fun other => by simp [instanceEntry, beq_eq_decide]
  simp only [logSetSinkScoped, Option.isNone_none, Bool.and_self, if_true, logSetSink, Option.isSome_none,
    Bool.false_eq_true, if_false, Option.isSome_some]
  rw [hfind, List.erase_eq_eraseIdx]
  cases hidx : instances.idxOf? obj with
  | none => simpa using h
  | some i =>
    obtain ⟨hi, -⟩ := List.idxOf?_eq_some_iff.mp hidx
    simp only
    rw [Slots.toList_removeAt _ (by rw [length_of_entries h]; exact hi), h, List.eraseIdx_map]

omit [DecidableEq Obj] in
theorem logWrite_eq (h : t.toList = instances.map instanceEntry) (file : Option File) (r : LogRecord) :
    logWrite t file r = LogSpec.toAll instances file r := by
  have hcall : (callSink r ∘ instanceEntry : Obj → Option (Shown Obj File)) = fun obj => some (r.toVlc obj) := rfl
  rw [logWrite, LogSpec.toAll, length_of_entries h, h, List.filterMap_map, hcall, List.filterMap_eq_map']
  cases instances <;> simp

end Entries

/-! ## What is shown -/

section Runs

variable {Thread Obj File : Type} [DecidableEq Thread] [DecidableEq Obj]

/-- The table holds these instances; the rest of the state is the same. -/
structure Registers (instances : List Obj) (s : LogState Thread Obj File) (a : LogSpec Thread Obj File) : Prop where
  entries : s.sinks.toList = instances.map instanceEntry
  enabled : s.enabled = a.enabled
  file : s.file = a.file
  formed : s.formed = a.formed

/-- The instances that the table holds after a step. -/
def enrolled (instances : List Obj) : LogStep Thread Obj File → List Obj
  | .opened obj => enroll instances obj
  | .closed obj => instances.erase obj
  | _ => instances

omit [DecidableEq Thread] [DecidableEq Obj] in
theorem registers_start : Registers [] (LogState.start : LogState Thread Obj File) LogSpec.start where
  entries := by simp [LogState.start]
  enabled := rfl
  file := rfl
  formed := rfl

theorem Registers.step {instances : List Obj} {s : LogState Thread Obj File} {a : LogSpec Thread Obj File}
    (h : Registers instances s a) (i : LogStep Thread Obj File) :
    Registers (enrolled instances i) (s.step i) (a.step i) := by
  obtain ⟨hentries, henabled, hfile, hformed⟩ := h
  cases i with
  | opened obj => exact ⟨toList_opened hentries, henabled, hfile, hformed⟩
  | closed obj => exact ⟨toList_closed hentries, henabled, hfile, hformed⟩
  | setEnabled enabled => exact ⟨hentries, rfl, hfile, hformed⟩
  | setFile file => exact ⟨hentries, henabled, rfl, hformed⟩
  | event thread e => exact ⟨hentries, henabled, hfile, by simp [LogState.step, LogSpec.step, henabled, hformed]⟩
  | write thread => exact ⟨hentries, henabled, hfile, by simp [LogState.step, LogSpec.step, hformed]⟩

omit [DecidableEq Thread] [DecidableEq Obj] in
theorem Registers.shown {instances : List Obj} {s : LogState Thread Obj File} {a : LogSpec Thread Obj File}
    (h : Registers instances s a) (i : LogStep Thread Obj File) :
    s.shown i = LogSpec.shown { a with instances } i := by
  cases i with
  | write thread =>
    simp only [LogState.shown, LogSpec.shown, h.formed, h.file]
    congr 2
    funext r
    exact logWrite_eq h.entries a.file r
  | _ => rfl

theorem enrolled_eq {a : LogSpec Thread Obj File} {i : LogStep Thread Obj File}
    (h : (a.step i).instances.length ≤ logMaxSinks) : enrolled a.instances i = (a.step i).instances := by
  cases i with
  | opened obj =>
    simp only [LogSpec.step] at h
    simp only [enrolled, enroll, LogSpec.step]
    split
    · rfl
    · rename_i hmem
      simp only [hmem, if_false, List.length_append, List.length_singleton] at h
      rw [if_pos (by omega)]
  | _ => rfl

/-- **Each event reaches those that are open**, as long as there are never more than sixteen. -/
theorem shown_to_open (steps : List (LogStep Thread Obj File))
    (hfew : Along LogSpec.step (fun a i => (a.step i).instances.length ≤ logMaxSinks) LogSpec.start steps) :
    outputs LogState.step LogState.shown LogState.start steps =
      outputs LogSpec.step LogSpec.shown LogSpec.start steps := by
  have hsimulates : Simulates LogState.step LogState.shown LogSpec.step LogSpec.shown
      (fun (a : LogSpec Thread Obj File) i => (a.step i).instances.length ≤ logMaxSinks)
      fun s a => Registers a.instances s a :=
    { step := fun hR hp => enrolled_eq hp ▸ hR.step _
      out := fun hR _ => hR.shown _ }
  exact outputs_eq_of_simulates hsimulates registers_start hfew

/-- The first of two instances is closed while an event is being formed. -/
def closedMeanwhile : List (LogStep Nat Nat Nat) :=
  [.opened 1, .opened 2, .setEnabled true, .event 0 ⟨.warn, some (ascii "A"), some (ascii "b")⟩, .closed 1, .write 0]

theorem shown_to_open_closedMeanwhile :
    Along LogSpec.step (fun a i => (a.step i).instances.length ≤ logMaxSinks) LogSpec.start closedMeanwhile ∧
      outputs LogState.step LogState.shown LogState.start closedMeanwhile =
        [[], [], [], [], [], [.vlc 2 .warn (ascii "[vw_log:A] b")]] := by
  have hfew : Along LogSpec.step (fun a i => (a.step i).instances.length ≤ logMaxSinks) LogSpec.start
      closedMeanwhile := by
    decide
  exact ⟨hfew, (shown_to_open closedMeanwhile hfew).trans (by decide)⟩

/-- Without the instance, the call that is to remove the first of two removes the second. -/
example : (logSetSink (logSetSink (logSetSink (.empty logMaxSinks .blank) (some PluginSink.pluginLogSink) (some 1))
    (some .pluginLogSink) (some 2)) none none).toList = [instanceEntry 1] := by
  decide

/-- The instance that shows it. -/
def Shown.instance : Shown Obj File → Option Obj
  | .vlc obj _ _ => some obj
  | _ => none

omit [DecidableEq Obj] in
theorem instances_toAll (instances : List Obj) (file : Option File) (r : LogRecord) :
    (LogSpec.toAll instances file r).filterMap Shown.instance = instances := by
  have hshown : (Shown.instance ∘ (r.toVlc : Obj → Shown Obj File)) = some := rfl
  cases instances with
  | nil => cases file <;> simp [LogSpec.toAll, Shown.instance]
  | cons obj rest => cases file <;> simp [LogSpec.toAll, List.filterMap_map, hshown, Shown.instance, LogRecord.toVlc]

omit [DecidableEq Thread] in
theorem nodup_enrolled {instances : List Obj} (h : instances.Nodup) (i : LogStep Thread Obj File) :
    (enrolled instances i).Nodup := by
  cases i with
  | opened obj =>
    simp only [enrolled, enroll]
    split
    · exact h
    · rename_i hmem
      have hother : ∀ l : List Obj, l.Sublist instances → (l ++ [obj]).Nodup := by
        intro l hl
        simpa using (h.sublist hl).concat fun hx => hmem (hl.subset hx)
      split
      · exact hother _ (List.Sublist.refl _)
      · exact hother _ (List.dropLast_sublist _)
  | closed obj => exact h.erase obj
  | _ => exact h

theorem enrolled_subset {instances : List Obj} {a : LogSpec Thread Obj File} (hnodup : instances.Nodup)
    (hopen : a.instances.Nodup) (h : instances ⊆ a.instances) (i : LogStep Thread Obj File) :
    enrolled instances i ⊆ (a.step i).instances := by
  cases i with
  | opened obj =>
    intro x hx
    simp only [enrolled, enroll] at hx
    have hx' : x ∈ instances ∨ x = obj := by
      split at hx
      · exact .inl hx
      · split at hx
        · simpa using hx
        · rcases List.mem_append.mp hx with hx | hx
          · exact .inl (List.mem_of_mem_dropLast hx)
          · exact .inr (by simpa using hx)
    simp only [LogSpec.step]
    split
    · rename_i hmem
      rcases hx' with hx | rfl
      · exact h hx
      · exact hmem
    · rcases hx' with hx | rfl
      · simp [h hx]
      · simp
  | closed obj =>
    intro x hx
    obtain ⟨hne, hx⟩ := (List.Nodup.mem_erase_iff hnodup).mp hx
    exact (List.Nodup.mem_erase_iff hopen).mpr ⟨hne, h hx⟩
  | _ => exact h

theorem nodup_open {a : LogSpec Thread Obj File} (h : a.instances.Nodup) (i : LogStep Thread Obj File) :
    (a.step i).instances.Nodup := by
  cases i with
  | opened obj =>
    simp only [LogSpec.step]
    split
    · exact h
    · rename_i hmem
      simpa using h.concat hmem
  | closed obj => exact h.erase obj
  | _ => exact h

theorem registers_run (steps : List (LogStep Thread Obj File)) {instances : List Obj} {s : LogState Thread Obj File}
    {a : LogSpec Thread Obj File} (h : Registers instances s a) (hnodup : instances.Nodup)
    (hopen : a.instances.Nodup) (hsubset : instances ⊆ a.instances) :
    ∃ instances', Registers instances' (run LogState.step s steps) (run LogSpec.step a steps) ∧ instances'.Nodup ∧
      (run LogSpec.step a steps).instances.Nodup ∧ instances' ⊆ (run LogSpec.step a steps).instances := by
  induction steps generalizing instances s a with
  | nil => exact ⟨instances, h, hnodup, hopen, hsubset⟩
  | cons i steps ih =>
    exact ih (h.step i) (nodup_enrolled hnodup i) (nodup_open hopen i) (enrolled_subset hnodup hopen hsubset i)

/-- **No instance that is closed shows an event**, however many there are, and none shows it twice. -/
theorem shown_once (steps : List (LogStep Thread Obj File)) (i : LogStep Thread Obj File) :
    let shownBy := ((run LogState.step LogState.start steps).shown i).filterMap Shown.instance
    shownBy.Nodup ∧ shownBy ⊆ (run LogSpec.step LogSpec.start steps).instances := by
  obtain ⟨instances, hregisters, hnodup, -, hsubset⟩ :=
    registers_run steps registers_start List.nodup_nil List.nodup_nil (List.Subset.refl _)
  have hshown : ((run LogState.step LogState.start steps).shown i).filterMap Shown.instance = instances ∨
      ((run LogState.step LogState.start steps).shown i).filterMap Shown.instance = [] := by
    rw [hregisters.shown]
    cases i with
    | write thread =>
      simp only [LogSpec.shown]
      cases (run LogSpec.step LogSpec.start steps).formed thread with
      | none => simp
      | some r => exact .inl (instances_toAll instances _ r)
    | _ => simp [LogSpec.shown]
  intro shownBy
  change shownBy = instances ∨ shownBy = [] at hshown
  rcases hshown with h | h
  · rw [h]
    exact ⟨hnodup, hsubset⟩
  · simp [h]

end Runs

end VlcWhisper.System
