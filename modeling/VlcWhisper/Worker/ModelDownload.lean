import VlcWhisper.Lib.Machine
import VlcWhisper.Worker.Sha256
import VlcWhisper.Worker.WorkerState

/-!
# A model download (`vw_model_download.c`)

The thread of a download, the calls that other threads make to it, and the two files it works on. A step is what
happens while the lock is held, or one load, system call or file operation outside of it; whatever the step does not
decide itself is in its answer. Both ways to transfer are modelled, the child that runs curl and WinHTTP; while the
child runs, it may leave anything in the partial file.

Main result: `publication`. The final file is only replaced by one whose hash was compared in the same attempt, and
once an abort was accepted it is not replaced any more.
-/

namespace VlcWhisper.Worker

open VlcWhisper.Lib VlcWhisper.Protocol

/-! ## State -/

/-- `vw_model_catalog_entry_t`, what a download reads of it. -/
structure CatalogEntry where
  id : Bytes
  sha256Hex : Bytes
  bytes : UInt64

/-- Where `vw_download_thread` is, in which attempt. -/
inductive ThreadPoint where
  | enter
  | attempt (n : Nat)
  /-- `vw_download_via_curl`: before the fork, at the head of its loop, and where it waits for the child, looks at the
  size of the file, reports the last time, and looks for an abort the last time. -/
  | fork (n : Nat)
  | watch (n : Nat)
  | wait (n : Nat)
  | measure (n : Nat)
  | exited (n : Nat) (ok : Bool)
  | recheck (n : Nat) (ok : Bool)
  /-- `vw_download_via_winhttp`: before and after the session is opened, before the answer, and where it reads, writes
  and closes. -/
  | connect (n : Nat)
  | connected (n : Nat)
  | request (n : Nat)
  | receive (n total : Nat)
  | store (n total : Nat) (chunk : Bytes)
  | close (n : Nat) (ok : Bool)
  /-- The transfer is over. -/
  | transferred (n : Nat) (ok : Bool)
  | sized (n : Nat)
  | verify (n : Nat)
  | hash (n : Nat)
  | publish (n : Nat)
  /-- What was transferred is thrown away, and there may be another attempt. -/
  | discard (n : Nat)
  | reset (n : Nat)
  /-- What was transferred is too much. -/
  | oversize
  | fail (pct : Option UInt8)
  /-- The rename failed. -/
  | cleanup
  | abortMark
  | abortUnlink
  | abortIdle
  /-- After the loop. -/
  | conclude
  | stopped
  deriving DecidableEq

/-- The thread waits for its child here. -/
def ThreadPoint.watches : ThreadPoint → Bool
  | .watch _ | .wait _ | .measure _ => true
  | _ => false

/-- What is told of a download: the hash of a content was the right one, and a content was renamed. -/
inductive DownloadEvent where
  | verified (attempt : Nat) (content : Bytes)
  | published (attempt : Nat) (content : Bytes)

/-- `vw_model_download_t`, its thread and its files; `windows` says which transfer is compiled in, `child` that curl
runs. -/
structure ModelDownload where
  entry : CatalogEntry
  windows : Bool
  progress : DownloadProgress
  abortRequested : Bool
  point : ThreadPoint
  child : Bool
  partFile : Option Bytes
  finalFile : Option Bytes
  trace : List DownloadEvent

/-- `waitpid` without waiting. -/
inductive WaitStatus where
  | exited (ok : Bool)
  | interrupted
  | failed
  | running

/-- What the system answers to a step. -/
structure ThreadAnswer where
  ok : Bool
  wait : WaitStatus
  received : Bytes
  written : Nat
  sizes : List Nat

/-! ## Steps -/

/-- `vw_model_download_pct`. -/
def downloadPct (bytesDone bytesTotal : UInt64) : UInt8 :=
  if bytesTotal = 0 then 0
  else
    let pct := bytesDone * 100 / bytesTotal
    if 100 < pct then 100 else pct.toUInt8

namespace ModelDownload

def goto (d : ModelDownload) (p : ThreadPoint) : ModelDownload := { d with point := p }

def setStage (d : ModelDownload) (stage : UInt8) : ModelDownload := { d with progress := { d.progress with stage } }

/-- `vw_file_size` of the partial file. -/
def partSize (d : ModelDownload) : Nat := (d.partFile.getD []).length

/-- Report how much there is. -/
def report (d : ModelDownload) (size : Nat) : ModelDownload :=
  { d with progress := { d.progress with bytesDone := .ofNat size, pct := downloadPct (.ofNat size) d.entry.bytes } }

/-- Forget how much there was. -/
def zero (d : ModelDownload) : ModelDownload := { d with progress := { d.progress with bytesDone := 0, pct := 0 } }

/-- Remove the partial file, if that works. -/
def unlink (d : ModelDownload) (ok : Bool) : ModelDownload := if ok then { d with partFile := none } else d

/-- The child is reaped. -/
def reap (d : ModelDownload) : ModelDownload := { d with child := false }

/-- A chunk is written, or some of it. -/
def write (d : ModelDownload) (bytes : Bytes) : ModelDownload := { d with partFile := some (d.partFile.getD [] ++ bytes) }

/-- The hash is the one of the catalog. -/
def Matches (entry : CatalogEntry) (content : Bytes) : Prop := hexEqualCi (sha256ToHex (sha256 content)) entry.sha256Hex = true

/-- The lock is held: an abort wins, or the file is renamed, or that fails. -/
def publishStep (d : ModelDownload) (n : Nat) (renames : Bool) : ModelDownload :=
  if d.abortRequested then (d.setStage modelStageAborting).goto .abortUnlink
  else match (if renames then d.partFile else none) with
    | some content =>
      { d with finalFile := some content, partFile := none, point := .stopped
               progress := { d.progress with stage := modelStageDone, pct := 100, bytesDone := d.entry.bytes }
               trace := d.trace ++ [.published n content] }
    | none => (d.setStage modelStageFailed).goto .cleanup

/-- `vw_sha256_file` and the comparison. -/
def hashStep (d : ModelDownload) (n : Nat) (a : ThreadAnswer) : ModelDownload :=
  match (if a.ok then d.partFile else none) with
  | some content =>
    if hexEqualCi (sha256ToHex (sha256File a.sizes content)) d.entry.sha256Hex then
      { d with point := .publish n, trace := d.trace ++ [.verified n content] }
    else d.goto (.discard n)
  | none => d.goto (.discard n)

/-- A chunk was received. -/
def storeStep (d : ModelDownload) (n total : Nat) (chunk : Bytes) (written : Nat) : ModelDownload :=
  if d.abortRequested then d.goto (.close n false)
  else
    let d := d.write (chunk.take written)
    if written < chunk.length || d.entry.bytes.toNat < total + chunk.length then d.goto (.close n false)
    else (d.report (total + chunk.length)).goto (.receive n (total + chunk.length))

/-- A step of `vw_download_thread`. -/
def threadStep (d : ModelDownload) (a : ThreadAnswer) : ModelDownload :=
  match d.point with
  | .enter =>
    if d.abortRequested then (d.setStage modelStageIdle).goto .stopped
    else (d.setStage modelStageDownloading).goto (.attempt 0)
  | .attempt n =>
    if n < 2 && !d.abortRequested then d.goto (if d.windows then .connect n else .fork n) else d.goto .conclude
  | .fork n => if a.ok then { d with child := true, point := .watch n } else d.goto (.transferred n false)
  | .watch n => if d.abortRequested then d.reap.goto (.transferred n false) else d.goto (.wait n)
  | .wait n =>
    match a.wait with
    | .exited ok => d.reap.goto (.exited n ok)
    | .interrupted => d.goto (.watch n)
    -- there is no such child any more
    | .failed => d.reap.goto (.exited n false)
    | .running => d.goto (.measure n)
  | .measure n =>
    if d.entry.bytes.toNat < d.partSize then d.reap.goto (.transferred n false)
    else (d.report d.partSize).goto (.watch n)
  | .exited n ok => (d.report d.partSize).goto (.recheck n ok)
  | .recheck n ok => d.goto (.transferred n (ok && !d.abortRequested))
  | .connect n => d.goto (if a.ok then .connected n else .transferred n false)
  | .connected n => d.goto (if d.abortRequested then .transferred n false else .request n)
  | .request n =>
    if a.ok then { d with partFile := some [], point := .receive n 0 } else d.goto (.transferred n false)
  | .receive n total => d.goto (if a.received = [] then .close n (0 < total) else .store n total a.received)
  | .store n total chunk => d.storeStep n total chunk a.written
  -- what was not flushed may be lost
  | .close n ok => { d with partFile := d.partFile.map fun c => if a.ok then c else c.take a.written
                            point := .transferred n ok }
  | .transferred n ok =>
    d.goto (if d.abortRequested then .abortMark else if ok then .sized n else .discard n)
  | .sized n => d.goto (if d.entry.bytes.toNat < d.partSize then .oversize else .verify n)
  | .verify n => (d.setStage modelStageVerifying).goto (.hash n)
  | .hash n => d.hashStep n a
  | .publish n => d.publishStep n a.ok
  | .discard n => (d.unlink a.ok).goto (if n = 0 then .reset n else .fail (some 0))
  -- `vw_model_download_reset_for_retry`
  | .reset n => (d.setStage modelStageDownloading).zero.goto (.attempt (n + 1))
  | .oversize => (d.unlink a.ok).goto (.fail none)
  | .fail pct =>
    { d with progress := { d.progress with stage := modelStageFailed, pct := pct.getD d.progress.pct }, point := .stopped }
  | .cleanup => (d.unlink a.ok).goto .stopped
  | .abortMark => (d.setStage modelStageAborting).goto .abortUnlink
  -- `vw_model_download_finish_abort`
  | .abortUnlink => (d.unlink a.ok).goto .abortIdle
  | .abortIdle => (d.setStage modelStageIdle).zero.goto .stopped
  | .conclude =>
    if d.abortRequested then (d.setStage modelStageIdle).zero.goto .stopped
    else if d.progress.stage ≠ modelStageDone && d.progress.stage ≠ modelStageIdle &&
        d.progress.stage ≠ modelStageAborting then (d.setStage modelStageFailed).goto .stopped
    else d.goto .stopped
  | .stopped => d

/-- `vw_model_download_abort`. -/
def abort (d : ModelDownload) : ModelDownload :=
  if d.progress.stage = modelStageDone || d.progress.stage = modelStageFailed then d
  else
    let d := { d with abortRequested := true }
    if d.progress.stage ≠ modelStageIdle then d.setStage modelStageAborting else d

/-- What happens to a download. -/
inductive DownloadMove where
  | thread (a : ThreadAnswer)
  /-- The child leaves this in the partial file. -/
  | child (content : Option Bytes)
  | abort
  /-- `vw_model_download_poll`. -/
  | poll

def step (d : ModelDownload) : DownloadMove → ModelDownload
  | .thread a => d.threadStep a
  | .child content => if d.child then { d with partFile := content } else d
  | .abort => d.abort
  | .poll => d

/-- `vw_model_download_start`, where it succeeds. -/
def start (entry : CatalogEntry) (windows : Bool) (partFile finalFile : Option Bytes) : ModelDownload where
  entry := entry
  windows := windows
  progress := ⟨modelStageIdle, 0, 0, entry.bytes, entry.id.take 31⟩
  abortRequested := false
  point := .enter
  child := false
  partFile := partFile
  finalFile := finalFile
  trace := []

/-- What was renamed, in which attempts. -/
def renames (trace : List DownloadEvent) : List (Nat × Bytes) :=
  trace.filterMap fun
    | .published n content => some (n, content)
    | .verified _ _ => none

/-! ## What a step can do -/

/-- Nothing is verified or renamed; and the child, if it runs, is watched. -/
structure Silent (d d' : ModelDownload) : Prop where
  entry : d'.entry = d.entry
  trace : d'.trace = d.trace
  finalFile : d'.finalFile = d.finalFile
  abortRequested : d'.abortRequested = d.abortRequested
  stage : d'.progress.stage = modelStageDone → d.progress.stage = modelStageDone
  child : d'.child = true → d'.point.watches = true
  point : ∀ n, d'.point ≠ .publish n

/-- What a step of the thread can do. -/
inductive ThreadCase (d d' : ModelDownload) : Prop where
  | silent (h : Silent d d')
  | verified (n : Nat) (content : Bytes) (hidle : d.child = false) (hpart : d.partFile = some content)
      (hmatch : Matches d.entry content)
      (h : d' = { d with point := .publish n, trace := d.trace ++ [.verified n content] })
  | published (n : Nat) (content : Bytes) (hidle : d.child = false) (hpoint : d.point = .publish n)
      (habort : d.abortRequested = false) (hpart : d.partFile = some content)
      (h : d' = { d with
        finalFile := some content, partFile := none, point := .stopped
        progress := { d.progress with stage := modelStageDone, pct := 100, bytesDone := d.entry.bytes }
        trace := d.trace ++ [.published n content] })

theorem case_of_part {d d' : ModelDownload} {p : ThreadPoint} (h : d' = d.goto p)
    (hchild : d.child = true → p.watches = true) (hp : ∀ n, p ≠ .publish n) : ThreadCase d d' := by
  subst h
  exact .silent ⟨rfl, rfl, rfl, rfl, id, hchild, hp⟩

theorem case_of_idle {d d' : ModelDownload} (hidle : d.child = false) (hchild : d'.child = d.child)
    (hentry : d'.entry = d.entry) (htrace : d'.trace = d.trace) (hfile : d'.finalFile = d.finalFile)
    (habort : d'.abortRequested = d.abortRequested)
    (hstage : d'.progress.stage = modelStageDone → d.progress.stage = modelStageDone)
    (hpoint : ∀ n, d'.point ≠ .publish n) : ThreadCase d d' := by
  refine .silent ⟨hentry, htrace, hfile, habort, hstage, fun h => ?_, hpoint⟩
  rw [hchild, hidle] at h
  cases h

theorem hashStep_case {d : ModelDownload} (hchild : d.child = false) (n : Nat) (a : ThreadAnswer) :
    ThreadCase d (d.hashStep n a) := by
  have hnever {p : ThreadPoint} (h : d.child = true) : p.watches = true := by
    rw [hchild] at h
    cases h
  unfold hashStep
  split
  · rename_i content hpart
    rw [sha256File_eq]
    split
    · rename_i hmatch
      refine .verified n content hchild ?_ hmatch rfl
      cases hok : a.ok <;> rw [hok] at hpart
      · cases hpart
      · exact hpart
    · exact case_of_part rfl hnever nofun
  · exact case_of_part rfl hnever nofun

theorem publishStep_case {d : ModelDownload} (hchild : d.child = false) {n : Nat} (hpoint : d.point = .publish n)
    (renames : Bool) : ThreadCase d (d.publishStep n renames) := by
  have hnever {p : ThreadPoint} (h : d.child = true) : p.watches = true := by
    rw [hchild] at h
    cases h
  unfold publishStep
  split
  · exact .silent ⟨rfl, rfl, rfl, rfl, nofun, hnever, nofun⟩
  · rename_i habort
    split
    · rename_i content hpart
      refine .published n content hchild hpoint (Bool.eq_false_of_not_eq_true habort) ?_ rfl
      cases renames
      · cases hpart
      · exact hpart
    · exact .silent ⟨rfl, rfl, rfl, rfl, nofun, hnever, nofun⟩

/-- **Steps of the thread.** -/
theorem threadStep_case {d : ModelDownload} (hchild : d.child = true → d.point.watches = true) (a : ThreadAnswer) :
    ThreadCase d (d.threadStep a) := by
  have hidle (hwatches : d.point.watches = false) : d.child = false := by
    by_contra h
    rw [hchild (Bool.eq_true_of_not_eq_false h)] at hwatches
    cases hwatches
  unfold threadStep
  cases hpoint : d.point with
  | hash n => exact hashStep_case (hidle (by rw [hpoint]; rfl)) n a
  | publish n => exact publishStep_case (hidle (by rw [hpoint]; rfl)) hpoint a.ok
  | watch n =>
    dsimp only
    split
    · exact .silent ⟨rfl, rfl, rfl, rfl, id, nofun, nofun⟩
    · exact case_of_part rfl (fun _ => rfl) nofun
  | wait n =>
    dsimp only
    split
    · exact .silent ⟨rfl, rfl, rfl, rfl, id, nofun, nofun⟩
    · exact case_of_part rfl (fun _ => rfl) nofun
    · exact .silent ⟨rfl, rfl, rfl, rfl, id, nofun, nofun⟩
    · exact case_of_part rfl (fun _ => rfl) nofun
  | measure n =>
    dsimp only
    split
    · exact .silent ⟨rfl, rfl, rfl, rfl, id, nofun, nofun⟩
    · exact .silent ⟨rfl, rfl, rfl, rfl, id, fun _ => rfl, nofun⟩
  | fork n =>
    have hno := hidle (by rw [hpoint]; rfl)
    dsimp only
    split
    · exact .silent ⟨rfl, rfl, rfl, rfl, id, fun _ => rfl, nofun⟩
    · exact case_of_idle hno rfl rfl rfl rfl rfl id nofun
  | store n total chunk =>
    have hno := hidle (by rw [hpoint]; rfl)
    unfold storeStep
    dsimp only
    split
    · exact case_of_idle hno rfl rfl rfl rfl rfl id nofun
    · split
      · exact case_of_idle hno rfl rfl rfl rfl rfl id nofun
      · exact case_of_idle hno rfl rfl rfl rfl rfl id nofun
  | stopped =>
    refine case_of_idle (hidle (by rw [hpoint]; rfl)) rfl rfl rfl rfl rfl id fun n h => ?_
    rw [hpoint] at h
    cases h
  | exited | recheck | close =>
    exact case_of_idle (hidle (by rw [hpoint]; rfl)) rfl rfl rfl rfl rfl id nofun
  | verify | reset | fail | abortMark | abortIdle =>
    exact case_of_idle (hidle (by rw [hpoint]; rfl)) rfl rfl rfl rfl rfl nofun nofun
  | enter =>
    have hno := hidle (by rw [hpoint]; rfl)
    dsimp only
    split
    · exact case_of_idle hno rfl rfl rfl rfl rfl nofun nofun
    · exact case_of_idle hno rfl rfl rfl rfl rfl nofun nofun
  | _ =>
    have hno := hidle (by rw [hpoint]; rfl)
    dsimp only [goto, setStage, zero, unlink]
    split_ifs <;> exact case_of_idle hno rfl rfl rfl rfl rfl (by first | exact id | exact nofun) nofun

theorem abort_keeps (d : ModelDownload) : d.abort.entry = d.entry ∧ d.abort.trace = d.trace ∧
    d.abort.finalFile = d.finalFile ∧ d.abort.point = d.point ∧ d.abort.child = d.child ∧ d.abort.partFile = d.partFile := by
  unfold abort
  split
  · exact ⟨rfl, rfl, rfl, rfl, rfl, rfl⟩
  · dsimp only
    split <;> exact ⟨rfl, rfl, rfl, rfl, rfl, rfl⟩

/-! ## Publication -/

/-- A content is renamed right after its hash was compared, in the same attempt. -/
def Justified (entry : CatalogEntry) (past : List DownloadEvent) (e : DownloadEvent) : Prop :=
  ∀ n content, e = .published n content → Matches entry content ∧ ∃ earlier, past = earlier ++ [.verified n content]

/-- What was renamed was compared, and the final file is what was renamed last. -/
structure Published (entry : CatalogEntry) (finalFile : Option Bytes) (d : ModelDownload) : Prop where
  justified : Explained (Justified entry) d.trace
  file : d.finalFile = ((renames d.trace).getLast?.map Prod.snd).or finalFile

/-- What holds while the thread runs: its child is only there while it is watched, and what is about to be renamed is
what was compared. -/
structure Sound (entry : CatalogEntry) (finalFile : Option Bytes) (d : ModelDownload) : Prop extends
    Published entry finalFile d where
  entry_eq : d.entry = entry
  child : d.child = true → d.point.watches = true
  checked : ∀ n, d.point = .publish n → ∃ earlier content, d.trace = earlier ++ [.verified n content] ∧
    d.partFile = some content ∧ Matches entry content

theorem explained_snoc {entry : CatalogEntry} {trace : List DownloadEvent} {e : DownloadEvent}
    (h : Explained (Justified entry) trace) (he : Justified entry trace e) : Explained (Justified entry) (trace ++ [e]) :=
  explained_append.mpr ⟨h, he, trivial⟩

variable {entry : CatalogEntry} {finalFile : Option Bytes}

theorem Sound.of_kept {d d' : ModelDownload} (hd : Sound entry finalFile d) (hentry : d'.entry = d.entry)
    (htrace : d'.trace = d.trace) (hfile : d'.finalFile = d.finalFile) (hchild : d'.child = true → d'.point.watches = true)
    (hchecked : ∀ n, d'.point = .publish n → d.point = .publish n ∧ d'.partFile = d.partFile) : Sound entry finalFile d' where
  justified := htrace ▸ hd.justified
  file := by rw [hfile, htrace, hd.file]
  entry_eq := hentry.trans hd.entry_eq
  child := hchild
  checked := fun n hn => by
    obtain ⟨hpoint, hpart⟩ := hchecked n hn
    rw [htrace, hpart]
    exact hd.checked n hpoint

theorem sound_threadStep {d : ModelDownload} (hd : Sound entry finalFile d) (a : ThreadAnswer) :
    Sound entry finalFile (d.threadStep a) := by
  cases threadStep_case hd.child a with
  | silent h =>
    exact hd.of_kept h.entry h.trace h.finalFile h.child fun n hn => (h.point n hn).elim
  | verified n content hidle hpart hmatch h =>
    rw [hd.entry_eq] at hmatch
    rw [h]
    refine ⟨⟨explained_snoc hd.justified nofun, ?_⟩, hd.entry_eq, fun hrun => ?_, fun m hm => ?_⟩
    · have hsame : renames (d.trace ++ [.verified n content]) = renames d.trace := by simp [renames]
      rw [hsame]
      exact hd.file
    · have hrun : d.child = true := hrun
      rw [hidle] at hrun
      cases hrun
    · obtain rfl := ThreadPoint.publish.inj hm
      exact ⟨d.trace, content, rfl, hpart, hmatch⟩
  | published n content hidle hpoint habort hpart h =>
    obtain ⟨earlier, compared, htrace, hcompared, hmatch⟩ := hd.checked n hpoint
    obtain rfl : compared = content := Option.some.inj (hcompared.symm.trans hpart)
    rw [h]
    refine ⟨⟨explained_snoc hd.justified fun m c he => ?_, ?_⟩, hd.entry_eq, fun hrun => ?_, nofun⟩
    · obtain ⟨rfl, rfl⟩ := DownloadEvent.published.inj he
      exact ⟨hmatch, earlier, htrace⟩
    · have hlast : renames (d.trace ++ [.published n compared]) = renames d.trace ++ [(n, compared)] := by simp [renames]
      rw [hlast, List.getLast?_concat]
      rfl
    · have hrun : d.child = true := hrun
      rw [hidle] at hrun
      cases hrun

theorem sound_step (d : ModelDownload) (m : DownloadMove) (hd : Sound entry finalFile d) :
    Sound entry finalFile (d.step m) := by
  cases m with
  | thread a => exact sound_threadStep hd a
  | child content =>
    show Sound entry finalFile (if d.child then { d with partFile := content } else d)
    split
    · rename_i hrun
      refine hd.of_kept rfl rfl rfl hd.child fun n hn => ?_
      have hwatches := hd.child hrun
      have hn : d.point = .publish n := hn
      rw [hn] at hwatches
      cases hwatches
    · exact hd
  | abort =>
    obtain ⟨hentry, htrace, hfile, hpoint, hchild, hpart⟩ := d.abort_keeps
    refine hd.of_kept hentry htrace hfile (fun hrun => ?_) fun n hn => ⟨hpoint.symm.trans hn, hpart⟩
    show d.abort.point.watches = true
    rw [hpoint]
    exact hd.child (hchild.symm.trans hrun)
  | poll => exact hd

theorem sound_run (entry : CatalogEntry) (windows : Bool) (partFile finalFile : Option Bytes) (moves : List DownloadMove) :
    Sound entry finalFile (run step (start entry windows partFile finalFile) moves) :=
  run_invariant' sound_step moves ⟨⟨trivial, rfl⟩, rfl, nofun, nofun⟩

/-- A cancelled download has not renamed anything since, and is not done. -/
structure Cancelled (trace : List DownloadEvent) (finalFile : Option Bytes) (d : ModelDownload) : Prop where
  child : d.child = true → d.point.watches = true
  abortRequested : d.abortRequested = true
  stage : d.progress.stage ≠ modelStageDone
  renames : renames d.trace = renames trace
  file : d.finalFile = finalFile

variable {trace : List DownloadEvent}

theorem cancelled_step (d : ModelDownload) (m : DownloadMove) (hd : Cancelled trace finalFile d) :
    Cancelled trace finalFile (d.step m) := by
  cases m with
  | thread a =>
    show Cancelled trace finalFile (d.threadStep a)
    cases threadStep_case hd.child a with
    | silent h =>
      refine ⟨h.child, h.abortRequested.trans hd.abortRequested, fun hdone => hd.stage (h.stage hdone), ?_, ?_⟩
      · rw [h.trace, hd.renames]
      · exact h.finalFile.trans hd.file
    | verified n content hidle hpart hmatch h =>
      rw [h]
      refine ⟨fun hrun => ?_, hd.abortRequested, hd.stage, ?_, hd.file⟩
      · have hrun : d.child = true := hrun
        rw [hidle] at hrun
        cases hrun
      · rw [← hd.renames]
        simp [ModelDownload.renames]
    | published n content hidle hpoint habort hpart h =>
      rw [hd.abortRequested] at habort
      cases habort
  | child content =>
    show Cancelled trace finalFile (if d.child then { d with partFile := content } else d)
    split
    · exact ⟨hd.child, hd.abortRequested, hd.stage, hd.renames, hd.file⟩
    · exact hd
  | abort =>
    obtain ⟨hentry, htrace, hfile, hpoint, hchild, hpart⟩ := d.abort_keeps
    refine ⟨fun hrun => ?_, ?_, ?_, ?_, hfile.trans hd.file⟩
    · show d.abort.point.watches = true
      rw [hpoint]
      exact hd.child (hchild.symm.trans hrun)
    · show d.abort.abortRequested = true
      unfold abort
      split
      · exact hd.abortRequested
      · dsimp only
        split <;> rfl
    · show d.abort.progress.stage ≠ modelStageDone
      unfold abort
      split
      · exact hd.stage
      · dsimp only
        split
        · exact nofun
        · exact hd.stage
    · show ModelDownload.renames d.abort.trace = _
      rw [htrace, hd.renames]
  | poll => exact hd

/-- **Only what was verified is published, and an accepted abort is not followed by a publication.** -/
theorem publication {entry : CatalogEntry} {windows : Bool} {partFile finalFile : Option Bytes} {moves : List DownloadMove}
    {d : ModelDownload} (hrun : d = run step (start entry windows partFile finalFile) moves) :
    Published entry finalFile d ∧
      (d.progress.stage ≠ modelStageDone → d.progress.stage ≠ modelStageFailed → ∀ later : List DownloadMove,
        renames (run step d.abort later).trace = renames d.trace ∧ (run step d.abort later).finalFile = d.finalFile ∧
          (run step d.abort later).progress.stage ≠ modelStageDone) := by
  have hsound := sound_run entry windows partFile finalFile moves
  rw [← hrun] at hsound
  refine ⟨hsound.toPublished, fun hdone hfailed later => ?_⟩
  obtain ⟨-, htrace, hfile, hpoint, hchild, -⟩ := d.abort_keeps
  have hcancelled : Cancelled d.trace d.finalFile d.abort := by
    refine ⟨fun hrun => ?_, ?_, ?_, by rw [htrace], hfile⟩
    · rw [hpoint]
      exact hsound.child (hchild.symm.trans hrun)
    · unfold abort
      rw [if_neg (by simp [hdone, hfailed])]
      dsimp only
      split <;> rfl
    · unfold abort
      rw [if_neg (by simp [hdone, hfailed])]
      dsimp only
      split
      · exact nofun
      · exact hdone
  have hlater := run_invariant' cancelled_step later hcancelled
  exact ⟨hlater.renames, hlater.file, hlater.stage⟩

def abcEntry : CatalogEntry :=
  ⟨ascii "tiny.en", ascii "ba7816bf8f01cfea414140de5dae2223b00361a396177a9cb410ff61f20015ad", 3⟩

/-- Everything works. -/
def goodAnswer : ThreadAnswer := ⟨true, .exited true, [], 0, []⟩

/-- The child leaves three bytes, and their hash is the right one. -/
def abcMoves : List DownloadMove :=
  List.replicate 3 (.thread goodAnswer) ++ [.child (some (ascii "abc"))] ++ List.replicate 8 (.thread goodAnswer)

def abcVerified : ModelDownload := run step (start abcEntry false none none) abcMoves

example : (abcVerified.threadStep goodAnswer).finalFile = some (ascii "abc") := by decide +kernel

/-- The abort comes between the comparison and the rename. -/
theorem publication_aborted : Published abcEntry none abcVerified ∧
    (run step abcVerified.abort (List.replicate 3 (.thread goodAnswer))).finalFile = abcVerified.finalFile := by
  have hrun : abcVerified = run step (start abcEntry false none none) abcMoves := rfl
  obtain ⟨hpublished, haborted⟩ := publication hrun
  have hstage : abcVerified.progress.stage = modelStageVerifying := by decide +kernel
  have hdone : abcVerified.progress.stage ≠ modelStageDone := by
    rw [hstage]
    decide
  have hfailed : abcVerified.progress.stage ≠ modelStageFailed := by
    rw [hstage]
    decide
  exact ⟨hpublished, (haborted hdone hfailed _).2.1⟩

end ModelDownload

end VlcWhisper.Worker
