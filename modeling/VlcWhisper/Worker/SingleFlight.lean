import VlcWhisper.Worker.ModelDownload
import VlcWhisper.Worker.WriteFinality

/-!
# One download at a time (`vw_worker.c`, `vw_model_download.c`)

The main loop, the thread of its download, and what becomes of the downloads that were begun. MODEL_CTRL and the poll
are the loop's own programs; what they find out about the download is where its thread is. A run is any order of these
and of the thread's steps.

Main result: `single_flight`. As long as every DOWNLOAD finds the download that the worker holds in a stage of its
transfer, it is turned away, and each download that is not aborted is reported to have ended exactly once. A download
whose thread did not run yet, or which ended and was not polled yet, is replaced instead.
-/

namespace VlcWhisper.Worker

open VlcWhisper.Lib VlcWhisper.Protocol

/-! ## Catalog -/

/-- `kVWModelCatalogEntries`. -/
def modelCatalogEntries : List CatalogEntry :=
  [⟨ascii "tiny.en", ascii "921e4cf8686fdd993dcd081a5da5b6c365bfde1162e72b08d75ac75289920b1f", 77704715⟩,
   ⟨ascii "tiny", ascii "be07e048e1e599ad46341c8d2a135645097a538221678b7acdd1b1919c6e1b21", 77691713⟩,
   ⟨ascii "base.en", ascii "a03779c86df3323075f5e796cb2ce5029f00ec8869eee3fdfb897afe36c6d002", 147964211⟩,
   ⟨ascii "base", ascii "60ed5bc3dd14eea856493d334349b405782ddcaf0028d4b5df4088345fba2efe", 147951465⟩,
   ⟨ascii "small", ascii "1be3a9b2063867b937e64e2ec7483364a79917e157fa98c5d94b5c1fffea987b", 487601967⟩,
   ⟨ascii "medium", ascii "6c14d5adee5f86394037b4e4e8b59f1673b6cee10e3cf0b11bbdbee79c156208", 1533763059⟩,
   ⟨ascii "large", ascii "64d182b440b98d5203c4f9bd541544d84c605196c4f7b845dfa11fb23594d1e2", 3095033483⟩]

/-- `vw_model_catalog_find`. -/
def catalogFind (id : Bytes) : Option CatalogEntry := modelCatalogEntries.find? fun entry => entry.id = id

theorem catalogFind_isSome (id : Bytes) : (catalogFind id).isSome = modelCatalog.contains id := by
  have hids : modelCatalog = modelCatalogEntries.map (·.id) := rfl
  rw [hids, catalogFind, Bool.eq_iff_iff, List.find?_isSome, List.contains_iff_mem, List.mem_map]
  simp only [decide_eq_true_eq]

/-! ## The worker and its download -/

/-- The worker, the download it holds, and what became of the ones it began: `accepted` is how many there were, the one
it holds is the last of them. `reports` are the stages the client was told, `aborted` the downloads that took notice of
an ABORT. -/
structure Downloads where
  worker : WorkerState
  current : Option ModelDownload
  accepted : Nat
  aborted : List Nat
  reports : List (Nat × UInt8)

/-- What happens: MODEL_CTRL, with the files a download would find, a poll of the loop, a step of the thread or its child,
or anything else that the loop does. -/
inductive DownloadsMove where
  | control (env : Env) (p : ModelCtrl) (windows : Bool) (partFile finalFile : Option Bytes)
  | poll (env : Env)
  | thread (a : ThreadAnswer)
  | child (content : Option Bytes)
  | other (w : WorkerState)

/-- The stages that a history tells. -/
def toldStages (events : List Event) : List UInt8 :=
  events.filterMap fun
    | .frame _ (.modelProgress p) => some p.stage
    | _ => none

namespace Downloads

/-- Before the first frame. -/
def start (engine translator : Bool) : Downloads := ⟨WorkerState.start engine translator, none, 0, [], []⟩

/-- `vw_model_download_poll` answers with what the thread last wrote. -/
def sees (s : Downloads) (env : Env) : Env := { env with pollDownload := fun _ => s.current.map (·.progress) }

/-- A DOWNLOAD that is taken replaces what the worker holds; an ABORT is passed on. -/
def control (config : Config) (s : Downloads) (env : Env) (p : ModelCtrl) (windows : Bool)
    (partFile finalFile : Option Bytes) : Downloads :=
  let w := ((handleModelCtrl (s.sees env) config p).run s.worker).2
  -- `vw_model_download_start` was called
  if s.worker.calls.length < w.calls.length then
    if w.modelDl then
      { s with worker := w, accepted := s.accepted + 1
               current := (catalogFind p.modelId.str).map fun entry =>
                 ModelDownload.start entry windows partFile finalFile }
    else { s with worker := w, current := none }
  else if p.action = modelActionAbort then
    let current := s.current.map ModelDownload.abort
    { s with worker := w, current
             aborted := if current.any (·.abortRequested) then s.aborted ++ [s.accepted] else s.aborted }
  else { s with worker := w }

/-- What the loop reports is of the download it holds. -/
def poll (s : Downloads) (env : Env) : Downloads :=
  let w := ((pollModelDownload (s.sees env)).run s.worker).2
  { s with worker := w
           current := if w.modelDl then s.current else none
           reports := s.reports ++ (toldStages (w.trace.drop s.worker.trace.length)).map fun stage => (s.accepted, stage) }

/-- The rest of the loop leaves the download alone, and a fatal error stays one. -/
def Leaves (w v : WorkerState) : Prop :=
  v.modelDl = w.modelDl ∧ v.lastStage = w.lastStage ∧ (w.fatalExit = true → v.fatalExit = true)

instance (w v : WorkerState) : Decidable (Leaves w v) := by
  unfold Leaves
  infer_instance

def step (config : Config) (s : Downloads) : DownloadsMove → Downloads
  | .control env p windows partFile finalFile => s.control config env p windows partFile finalFile
  | .poll env => s.poll env
  | .thread a => { s with current := s.current.map (·.step (.thread a)) }
  | .child content => { s with current := s.current.map (·.step (.child content)) }
  | .other w => if Leaves s.worker w then { s with worker := w } else s

/-! ## The law -/

def isEnded (stage : UInt8) : Bool := stage = modelStageDone || stage = modelStageFailed

/-- How often the client was told that a download ended. -/
def ends (s : Downloads) (k : Nat) : Nat := s.reports.countP fun r => r.1 = k && isEnded r.2

/-- A frame with the progress was sent, or that failed and the worker ends. -/
def Told (p : DownloadProgress) (w v : WorkerState) : Prop :=
  (v.fatalExit = w.fatalExit ∧ ∃ n sessionId, v.trace = w.trace ++
      [.frame n (.modelProgress ⟨sessionId, p.stage, p.pct, p.bytesDone, p.bytesTotal, .ofStr 32 p.modelId⟩)]) ∨
    (v.fatalExit = true ∧ v.trace = w.trace)

/-- A DOWNLOAD was turned away: what the worker holds goes on, and the client is told. -/
structure Rejected (p : ModelCtrl) (s t : Downloads) : Prop where
  current : t.current = s.current
  accepted : t.accepted = s.accepted
  aborted : t.aborted = s.aborted
  told : Told ⟨modelStageFailed, 0, 0, 0, p.modelId.str⟩ s.worker t.worker

/-- A download that ended was reported, unless that failed, and is no longer held. -/
structure Reported (stage : UInt8) (s t : Downloads) : Prop where
  current : t.current = none
  reports : t.reports = s.reports ++ [(s.accepted, stage)] ∨ t.worker.fatalExit = true

/-- What a step has to do. -/
def Obeys (config : Config) (s : Downloads) : DownloadsMove → Prop
  | .control env p windows partFile finalFile => p.action = modelActionDownload → s.current.isSome = true →
      Rejected p s (s.control config env p windows partFile finalFile)
  | .poll env => ∀ d, s.current = some d → isEnded d.progress.stage = true →
      Reported d.progress.stage s (s.poll env)
  | _ => True

/-- A download that was not aborted is reported to have ended once it is no longer held, and not before. -/
def Counted (s : Downloads) : Prop :=
  s.worker.fatalExit = false → ∀ k, 0 < k → k ≤ s.accepted → k ∉ s.aborted →
    s.ends k = if k = s.accepted ∧ s.current.isSome = true then 0 else 1

/-- A DOWNLOAD of a model that could be fetched only comes while the download that the worker holds, if any, is in a stage
of its transfer. -/
def Flies (config : Config) (s : Downloads) : DownloadsMove → Prop
  | .control _ p _ _ _ => p.action = modelActionDownload → modelCatalog.contains p.modelId.str = true →
      config.dlDirReady = true → ∀ d, s.current = some d → isTransferStage d.progress.stage = true
  | _ => True

/-! ## MODEL_CTRL -/

variable {env : Env} {config : Config}

theorem fatalExit_sendPayload (bufferSize : Nat) (p : Payload) : Keeps WorkerState.fatalExit (sendPayload env bufferSize p) := by
  have hipc : Keeps WorkerState.fatalExit (guardedIpcSend env) := by
    refine .get_bind fun w => Steps.ite (.pure _) ?_ w
    exact .bind (fun _ => .of_eq rfl) fun sent => .bind (.modify_of_eq fun _ => by rfl) fun _ => .pure _
  unfold sendPayload sendFrame
  split
  · exact .bind (.modify_of_eq fun _ => by rfl) fun _ => .pure _
  · refine .bind (.modify_of_eq fun _ => by rfl) fun _ => hipc.bind fun header => .ite (hipc.bind fun payload => ?_) (.pure _)
    refine .get_bind fun w => Steps.bind (.onlyIf ?_) (fun _ => .pure _) w
    exact .modify_of_eq fun _ => by rfl

theorem sendPayload_recorded (bufferSize : Nat) (p : Payload) (w : WorkerState) :
    Ends (sendPayload env bufferSize p) w fun sent v => v.fatalExit = w.fatalExit ∧
      if sent then ∃ n, v.trace = w.trace ++ [.frame n p] else v.trace = w.trace := by
  have hcore : Ends (sendPayload env bufferSize p) w fun sent v =>
      if sent then ∃ n, v.core = w.core.record [.frame n p] else v.core = w.core := sendFrame_ends _ _ _ w
  have htrace : Ends (sendPayload env bufferSize p) w fun sent v =>
      if sent then ∃ n, v.trace = w.trace ++ [.frame n p] else v.trace = w.trace := by
    refine hcore.mono fun sent v hv => ?_
    cases sent with
    | true =>
      obtain ⟨n, hv⟩ := hv
      exact ⟨n, congrArg Core.trace hv⟩
    | false => exact congrArg Core.trace hv
  exact ⟨(fatalExit_sendPayload bufferSize p).eq w, htrace⟩

theorem told_progress (sessionId : SessionId) (p : DownloadProgress) (w : WorkerState) :
    Ends (orFatal (sendModelProgress env sessionId p)) w fun _ v => v.unsent = w.unsent ∧ Told p w v := by
  have hspares : Spares WorkerState.unsent (sendModelProgress env sessionId p) := spares_sendModelProgress _ _
  have htold : Ends (orFatal (sendModelProgress env sessionId p)) w fun _ v => Told p w v := by
    refine (sendPayload_recorded 66 _ w).bind fun sent v ⟨hfatal, htrace⟩ => ?_
    cases sent with
    | true =>
      obtain ⟨n, htrace⟩ := htrace
      exact .inl ⟨hfatal, n, sessionId, htrace⟩
    | false => exact .inr ⟨Bool.or_true _, htrace⟩
  exact ⟨(spares_orFatal hspares).eq w, htold⟩

theorem Told.fatal {p : DownloadProgress} {w v : WorkerState} (h : Told p w v) (hw : w.fatalExit = true) :
    v.fatalExit = true := by
  rcases h with ⟨hsame, -⟩ | ⟨hfatal, -⟩
  · exact hsame.trans hw
  · exact hfatal

/-- A DOWNLOAD is taken. -/
def takesDownload (env : Env) (config : Config) (p : ModelCtrl) (w : WorkerState) : Bool :=
  modelCatalog.contains p.modelId.str && config.dlDirReady &&
    !(w.modelDl && (env.pollDownload w.tick).any fun progress => isTransferStage progress.stage)

/-- What MODEL_CTRL can do: turn a DOWNLOAD away, begin one, fail to begin it, or something else, which does not touch
what the worker knows of its download. -/
inductive Controlled (env : Env) (config : Config) (p : ModelCtrl) (w v : WorkerState) : Prop
  | refused (haction : p.action = modelActionDownload) (htakes : takesDownload env config p w = false)
      (hunsent : v.unsent = w.unsent) (htold : Told ⟨modelStageFailed, 0, 0, 0, p.modelId.str⟩ w v)
  | begun (haction : p.action = modelActionDownload) (htakes : takesDownload env config p w = true)
      (hcalls : w.calls.length < v.calls.length) (hmodel : v.modelDl = true)
      (hlast : v.lastStage = if w.modelDl then none else w.lastStage) (hfatal : v.fatalExit = w.fatalExit)
  | failed (haction : p.action = modelActionDownload) (htakes : takesDownload env config p w = true)
      (hcalls : w.calls.length < v.calls.length) (hmodel : v.modelDl = false)
      (hlast : v.lastStage = if w.modelDl then none else w.lastStage) (hfatal : w.fatalExit = true → v.fatalExit = true)
  | other (haction : p.action ≠ modelActionDownload) (hunsent : v.unsent = w.unsent)
      (hfatal : w.fatalExit = true → v.fatalExit = true)

theorem isDownloading_ends (w : WorkerState) : Ends (isDownloading env) w fun active v =>
    active = (w.modelDl && (env.pollDownload w.tick).any fun progress => isTransferStage progress.stage) ∧
      ∃ tick, v = { w with tick } := by
  refine Ends.get_bind (Ends.ite (fun hmodel => ?_) fun hnone => ?_)
  · refine ⟨?_, w.tick + 1, rfl⟩
    rw [hmodel]
    rfl
  · refine ⟨?_, w.tick, rfl⟩
    rw [Bool.eq_false_of_not_eq_true hnone]
    rfl

theorem controlled_start {p : ModelCtrl} {w t : WorkerState} (sessionId : SessionId)
    (haction : p.action = modelActionDownload) (htakes : takesDownload env config p w = true)
    (ht : ∃ tick, t = { w with tick }) :
    Ends (do
      onlyIf w.modelDl (modify fun w => { w with modelDl := false, lastStage := none })
      let started ← call .download env.startDownload
      modify fun w => { w with modelDl := started }
      onlyIf (!started) (refuseDownload env sessionId p.modelId.str)) t
      fun _ v => Controlled env config p w v := by
  obtain ⟨tick, rfl⟩ := ht
  let freed : WorkerState := { w with tick, modelDl := false, lastStage := if w.modelDl then none else w.lastStage }
  have hfree : Ends (onlyIf w.modelDl (modify fun w => { w with modelDl := false, lastStage := none }))
      { w with tick } fun _ v => v = freed := by
    refine Ends.onlyIf (fun hmodel => ?_) fun hmodel => ?_
    · show ({ w with tick, modelDl := false, lastStage := none } : WorkerState) = freed
      simp only [freed, hmodel, if_true]
    · simp only [freed, hmodel, Bool.false_eq_true, if_false]
  refine hfree.bind fun _ v hv => ?_
  subst hv
  have hcalls : w.calls.length < (freed.calls ++ [freed.serviceCall .download]).length := by
    rw [List.length_append, List.length_singleton]
    exact Nat.lt_succ_self _
  cases hstarted : env.startDownload tick with
  | true =>
    have hends : Ends (call .download env.startDownload) freed fun started u => started = true ∧
        u = { freed with tick := tick + 1, calls := freed.calls ++ [freed.serviceCall .download] } := ⟨hstarted, rfl⟩
    refine hends.bind fun started u ⟨hs, hu⟩ => Ends.modify_bind ?_
    subst hs hu
    exact .begun haction htakes hcalls rfl rfl rfl
  | false =>
    have hends : Ends (call .download env.startDownload) freed fun started u => started = false ∧
        u = { freed with tick := tick + 1, calls := freed.calls ++ [freed.serviceCall .download] } := ⟨hstarted, rfl⟩
    refine hends.bind fun started u ⟨hs, hu⟩ => Ends.modify_bind ?_
    subst hs hu
    refine (told_progress sessionId _ _).mono fun _ x ⟨hunsent, htold⟩ => ?_
    refine .failed haction htakes ?_ ?_ ?_ htold.fatal
    · rw [field_of_unsent hunsent (·.calls) fun _ => by rfl]
      exact hcalls
    · exact field_of_unsent hunsent (·.modelDl) fun _ => by rfl
    · exact field_of_unsent hunsent (·.lastStage) fun _ => by rfl

/-- **MODEL_CTRL.** -/
theorem controlled_handleModelCtrl (p : ModelCtrl) (w : WorkerState) :
    Ends (handleModelCtrl env config p) w fun _ v => Controlled env config p w v := by
  refine Ends.get_bind (Ends.ite (fun haction => Ends.ite (fun hno => ?_) fun hyes => ?_) fun haction => ?_)
  · refine (told_progress _ _ w).mono fun _ v ⟨hunsent, htold⟩ => .refused haction ?_ hunsent htold
    unfold takesDownload
    rw [Bool.or_eq_true, Bool.not_eq_true', Bool.not_eq_true'] at hno
    rcases hno with hno | hno
    · rw [hno, Bool.false_and, Bool.false_and]
    · rw [hno, Bool.and_false, Bool.false_and]
  · have hready : (modelCatalog.contains p.modelId.str && config.dlDirReady) = true := by
      rw [Bool.or_eq_true, Bool.not_eq_true', Bool.not_eq_true', not_or] at hyes
      rw [Bool.and_eq_true]
      exact ⟨Bool.eq_true_of_not_eq_false hyes.1, Bool.eq_true_of_not_eq_false hyes.2⟩
    refine (isDownloading_ends w).bind fun active t ⟨hactive, ht⟩ => Ends.ite (fun hact => ?_) fun hidle => ?_
    · obtain ⟨tick, rfl⟩ := ht
      refine (told_progress _ _ _).mono fun _ v ⟨hunsent, htold⟩ => .refused haction ?_ hunsent htold
      rw [takesDownload, ← hactive, hact, hready]
      rfl
    · refine controlled_start _ haction ?_ ht
      rw [takesDownload, ← hactive, hready, Bool.eq_false_of_not_eq_true hidle]
      rfl
  · refine Ends.onlyIf (fun _ => ?_) fun _ => .other haction rfl id
    exact (told_progress _ _ w).mono fun _ v ⟨hunsent, htold⟩ => .other haction hunsent htold.fatal

/-! ## The poll -/

/-- What a poll does: it tells a stage that is new, and drops a download that is over. -/
structure Polled (p : DownloadProgress) (w v : WorkerState) : Prop where
  modelDl : v.modelDl = !downloadEnded w.lastStage p.stage
  lastStage : v.lastStage = if downloadEnded w.lastStage p.stage then none else some p.stage
  told : Told p w v ∨ (w.lastStage = some p.stage ∧ v.fatalExit = w.fatalExit ∧ v.trace = w.trace)

theorem polled_pollModelDownload {p : DownloadProgress} {w : WorkerState} (hmodel : w.modelDl = true)
    (hsees : env.pollDownload w.tick = some p) : Ends (pollModelDownload env) w fun _ v => Polled p w v := by
  refine Ends.get_bind (Ends.onlyIf (fun _ => ?_) fun hnone => ?_)
  · have hask : Ends (ask env.pollDownload) w fun a t => a = some p ∧ t = { w with tick := w.tick + 1 } := ⟨hsees, rfl⟩
    refine hask.bind fun a t ⟨ha, ht⟩ => ?_
    subst ha ht
    have htime : Ends (ask env.monotonicTimeUs) { w with tick := w.tick + 1 } fun _ u =>
        u = { w with tick := w.tick + 1 + 1 } := rfl
    refine htime.bind fun nowUs u hu => ?_
    subst hu
    have hreport : Ends (onlyIf (shouldReport w p nowUs) do
        orFatal (sendModelProgress env (if w.sessionActive then w.sessionId else .zero _) p)
        modify fun w => { w with lastStage := some p.stage, lastProgressSendUs := nowUs })
        { w with tick := w.tick + 1 + 1 } fun _ v => v.modelDl = true ∧ v.lastStage = some p.stage ∧
          (Told p w v ∨ (w.lastStage = some p.stage ∧ v.fatalExit = w.fatalExit ∧ v.trace = w.trace)) := by
      refine Ends.onlyIf (fun _ => ?_) fun hquiet => ?_
      · refine (told_progress _ p _).bind fun _ v ⟨hunsent, htold⟩ => ⟨?_, rfl, .inl htold⟩
        exact (field_of_unsent hunsent (·.modelDl) fun _ => by rfl).trans hmodel
      · have hsame : w.lastStage = some p.stage := by
          unfold shouldReport at hquiet
          simpa using (Bool.or_eq_false_iff.mp hquiet).1
        exact ⟨hmodel, hsame, .inr ⟨hsame, rfl, rfl⟩⟩
    refine hreport.bind fun _ v ⟨hkept, hlast, htold⟩ => Ends.onlyIf (fun hended => ?_) fun hgoes => ?_
    · refine ⟨?_, ?_, htold⟩
      · rw [hended]
        rfl
      · rw [hended]
        rfl
    · refine ⟨?_, ?_, htold⟩
      · rw [hgoes]
        exact hkept
      · rw [hgoes]
        exact hlast
  · rw [hmodel] at hnone
    cases hnone

theorem pollModelDownload_idle {w : WorkerState} (hmodel : w.modelDl = false) :
    Ends (pollModelDownload env) w fun _ v => v = w := by
  refine Ends.get_bind (Ends.onlyIf (fun htrue => ?_) fun _ => rfl)
  rw [hmodel] at htrue
  cases htrue

theorem Told.stages {p : DownloadProgress} {w v : WorkerState} (h : Told p w v) :
    toldStages (v.trace.drop w.trace.length) = [p.stage] ∨ (v.fatalExit = true ∧ v.trace = w.trace) := by
  rcases h with ⟨-, n, sessionId, htrace⟩ | hfatal
  · rw [htrace, List.drop_left]
    exact .inl rfl
  · exact .inr hfatal

theorem toldStages_same {w v : WorkerState} (h : v.trace = w.trace) : toldStages (v.trace.drop w.trace.length) = [] := by
  rw [h, List.drop_length]
  rfl

/-! ## The thread -/

/-- The thread is about to give up for an abort. -/
def atAbort : ThreadPoint → Bool
  | .abortMark | .abortUnlink | .abortIdle => true
  | _ => false

/-- The download was not aborted: its thread has not begun, or it is in a stage. -/
structure Unaborted (d : ModelDownload) : Prop where
  flag : d.abortRequested = false
  idle : d.progress.stage = modelStageIdle → d.point = .enter
  point : atAbort d.point = false

/-- The thread leaves the first stage for good. -/
theorem unaborted_threadStep {d : ModelDownload} (hd : Unaborted d) (a : ThreadAnswer) :
    (d.threadStep a).abortRequested = false ∧ (d.threadStep a).progress.stage ≠ modelStageIdle ∧
      atAbort (d.threadStep a).point = false := by
  have hflag := hd.flag
  have hbegun (h : d.point ≠ .enter) : d.progress.stage ≠ modelStageIdle := fun hidle => h (hd.idle hidle)
  have hpoint := hd.point
  unfold ModelDownload.threadStep
  cases hat : d.point with
  | enter =>
    dsimp only
    rw [if_neg (by rw [hflag]; nofun)]
    exact ⟨hflag, nofun, rfl⟩
  | abortMark | abortUnlink | abortIdle =>
    rw [hat] at hpoint
    cases hpoint
  | store n total chunk =>
    have hstage := hbegun (by rw [hat]; nofun)
    dsimp only
    unfold ModelDownload.storeStep
    rw [if_neg (by rw [hflag]; nofun)]
    dsimp only
    split
    · exact ⟨hflag, hstage, rfl⟩
    · exact ⟨hflag, hstage, rfl⟩
  | hash n =>
    have hstage := hbegun (by rw [hat]; nofun)
    dsimp only
    unfold ModelDownload.hashStep
    split
    · split
      · exact ⟨hflag, hstage, rfl⟩
      · exact ⟨hflag, hstage, rfl⟩
    · exact ⟨hflag, hstage, rfl⟩
  | publish n =>
    dsimp only
    unfold ModelDownload.publishStep
    rw [if_neg (by rw [hflag]; nofun)]
    split
    · exact ⟨hflag, nofun, rfl⟩
    · exact ⟨hflag, nofun, rfl⟩
  | wait n =>
    have hstage := hbegun (by rw [hat]; nofun)
    dsimp only
    split
    · exact ⟨hflag, hstage, rfl⟩
    · exact ⟨hflag, hstage, rfl⟩
    · exact ⟨hflag, hstage, rfl⟩
    · exact ⟨hflag, hstage, rfl⟩
  | transferred n ok =>
    have hstage := hbegun (by rw [hat]; nofun)
    dsimp only
    rw [if_neg (by rw [hflag]; nofun)]
    refine ⟨hflag, hstage, ?_⟩
    show atAbort (if ok then .sized n else .discard n) = false
    split
    · rfl
    · rfl
  | conclude =>
    have hstage := hbegun (by rw [hat]; nofun)
    dsimp only
    rw [if_neg (by rw [hflag]; nofun)]
    split
    · exact ⟨hflag, nofun, rfl⟩
    · exact ⟨hflag, hstage, rfl⟩
  | verify | reset | fail =>
    exact ⟨hflag, nofun, rfl⟩
  | exited | recheck | close =>
    exact ⟨hflag, hbegun (by rw [hat]; nofun), rfl⟩
  | stopped =>
    have hstage := hbegun (by rw [hat]; nofun)
    exact ⟨hflag, hstage, hpoint⟩
  | _ =>
    have hstage := hbegun (by rw [hat]; nofun)
    dsimp only [ModelDownload.goto, ModelDownload.unlink, ModelDownload.reap, ModelDownload.report]
    split_ifs <;> exact ⟨hflag, hstage, rfl⟩

/-! ## The invariant -/

/-- The worker knows whether it holds a download; what it last saw of one is not its end, and of one that has not begun
no other stage. -/
structure Tidy (s : Downloads) : Prop where
  held : s.worker.modelDl = s.current.isSome
  unseen : s.current = none → s.worker.lastStage = none
  seen : ∀ stage, s.worker.lastStage = some stage → isEnded stage = false
  fresh : ∀ d, s.current = some d → s.accepted ∉ s.aborted → Unaborted d ∧
    (d.progress.stage = modelStageIdle → ∀ stage, s.worker.lastStage = some stage → stage = modelStageIdle)
  aborted : ∀ k ∈ s.aborted, k ≤ s.accepted
  reports : ∀ r ∈ s.reports, r.1 ≤ s.accepted
  counted : s.Counted

theorem tidy_start (engine translator : Bool) : Tidy (start engine translator) where
  held := rfl
  unseen := fun _ => rfl
  seen := nofun
  fresh := nofun
  aborted := nofun
  reports := nofun
  counted := fun _ k hpos hle => by
    have hle : k ≤ 0 := hle
    omega

theorem Tidy.of_leaves {s : Downloads} (hs : Tidy s) {v : WorkerState} (h : Leaves s.worker v) :
    Tidy { s with worker := v } where
  held := h.1.trans hs.held
  unseen := fun hnone => h.2.1.trans (hs.unseen hnone)
  seen := fun stage hstage => hs.seen stage (h.2.1.symm.trans hstage)
  fresh := fun d hd hnot => by
    obtain ⟨hun, hidle⟩ := hs.fresh d hd hnot
    exact ⟨hun, fun hstage stage hlast => hidle hstage stage (h.2.1.symm.trans hlast)⟩
  aborted := hs.aborted
  reports := hs.reports
  counted := fun hfatal => by
    refine hs.counted ?_
    by_contra hbad
    have hbad' := h.2.2 (Bool.eq_true_of_not_eq_false hbad)
    have hfatal : v.fatalExit = false := hfatal
    rw [hfatal] at hbad'
    cases hbad'

theorem Tidy.of_current {s : Downloads} (hs : Tidy s) {f : ModelDownload → ModelDownload}
    (hf : ∀ d, Unaborted d → Unaborted (f d) ∧ ((f d).progress.stage = modelStageIdle → d.progress.stage = modelStageIdle)) :
    Tidy { s with current := s.current.map f } where
  held := by
    rw [hs.held]
    exact Option.isSome_map.symm
  unseen := fun hnone => hs.unseen (Option.map_eq_none_iff.mp hnone)
  seen := hs.seen
  fresh := fun d hd hnot => by
    obtain ⟨d, hcurrent, rfl⟩ := Option.map_eq_some_iff.mp hd
    obtain ⟨hun, hidle⟩ := hs.fresh d hcurrent hnot
    obtain ⟨hun', hback⟩ := hf d hun
    exact ⟨hun', fun hstage => hidle (hback hstage)⟩
  aborted := hs.aborted
  reports := hs.reports
  counted := fun hfatal k hpos hle hnot => by
    have hsome : (s.current.map f).isSome = s.current.isSome := Option.isSome_map
    show s.ends k = if k = s.accepted ∧ (s.current.map f).isSome = true then 0 else 1
    rw [hsome]
    exact hs.counted hfatal k hpos hle hnot

/-! ## The steps -/

theorem leaves_of_unsent {w v : WorkerState} (hunsent : v.unsent = w.unsent)
    (hfatal : w.fatalExit = true → v.fatalExit = true) : Leaves w v :=
  ⟨field_of_unsent hunsent (·.modelDl) fun _ => by rfl, field_of_unsent hunsent (·.lastStage) fun _ => by rfl, hfatal⟩

theorem calls_of_unsent {w v : WorkerState} (hunsent : v.unsent = w.unsent) : ¬ w.calls.length < v.calls.length := by
  rw [field_of_unsent hunsent (·.calls) fun _ => by rfl]
  exact Nat.lt_irrefl _

/-- The worker knows whether it holds a download. -/
def Held (s : Downloads) : Prop := s.worker.modelDl = s.current.isSome

theorem takesDownload_eq {s : Downloads} (hs : s.Held) (p : ModelCtrl) :
    takesDownload (s.sees env) config p s.worker = (modelCatalog.contains p.modelId.str && config.dlDirReady &&
      !s.current.any fun d => isTransferStage d.progress.stage) := by
  unfold takesDownload sees
  rw [show s.worker.modelDl = s.current.isSome from hs]
  cases s.current with
  | none => rfl
  | some d => rfl

/-- What MODEL_CTRL comes to: a DOWNLOAD is turned away, one is begun, none is held any more, or the download goes on. -/
inductive ControlCase (env : Env) (config : Config) (p : ModelCtrl) (windows : Bool) (partFile finalFile : Option Bytes)
    (s t : Downloads) : Prop
  | refused (haction : p.action = modelActionDownload)
      (hbusy : modelCatalog.contains p.modelId.str = true → config.dlDirReady = true →
        ∃ d, s.current = some d ∧ isTransferStage d.progress.stage = true)
      (hleaves : Leaves s.worker t.worker) (htold : Told ⟨modelStageFailed, 0, 0, 0, p.modelId.str⟩ s.worker t.worker)
      (h : t = { s with worker := t.worker })
  | begun (haction : p.action = modelActionDownload) (hcontains : modelCatalog.contains p.modelId.str = true)
      (hready : config.dlDirReady = true) (hfree : ∀ d, s.current = some d → isTransferStage d.progress.stage = false)
      (entry : CatalogEntry) (hmodel : t.worker.modelDl = true)
      (hlast : t.worker.lastStage = if s.worker.modelDl then none else s.worker.lastStage)
      (hfatal : s.worker.fatalExit = true → t.worker.fatalExit = true)
      (h : t = { s with worker := t.worker, accepted := s.accepted + 1
                        current := some (ModelDownload.start entry windows partFile finalFile) })
  | failed (haction : p.action = modelActionDownload) (hcontains : modelCatalog.contains p.modelId.str = true)
      (hready : config.dlDirReady = true) (hfree : ∀ d, s.current = some d → isTransferStage d.progress.stage = false)
      (hmodel : t.worker.modelDl = false)
      (hlast : t.worker.lastStage = if s.worker.modelDl then none else s.worker.lastStage)
      (hfatal : s.worker.fatalExit = true → t.worker.fatalExit = true)
      (h : t = { s with worker := t.worker, current := none })
  | abort (haction : p.action ≠ modelActionDownload) (hleaves : Leaves s.worker t.worker)
      (h : t = { s with worker := t.worker, current := s.current.map ModelDownload.abort
                        aborted := if (s.current.map ModelDownload.abort).any (·.abortRequested) then
                          s.aborted ++ [s.accepted] else s.aborted })
  | other (haction : p.action ≠ modelActionDownload) (hleaves : Leaves s.worker t.worker)
      (h : t = { s with worker := t.worker })

theorem controlCase_control {s : Downloads} (hs : s.Held) (p : ModelCtrl) (windows : Bool)
    (partFile finalFile : Option Bytes) : ControlCase env config p windows partFile finalFile s
      (s.control config env p windows partFile finalFile) := by
  have hcase := @controlled_handleModelCtrl (s.sees env) config p s.worker
  rw [Ends] at hcase
  unfold control
  generalize ((handleModelCtrl (s.sees env) config p).run s.worker).2 = w at hcase
  have htaken (htakes : takesDownload (s.sees env) config p s.worker = true) :
      modelCatalog.contains p.modelId.str = true ∧ config.dlDirReady = true ∧
        ∀ d, s.current = some d → isTransferStage d.progress.stage = false := by
    rw [takesDownload_eq hs, Bool.and_eq_true, Bool.and_eq_true, Bool.not_eq_true'] at htakes
    refine ⟨htakes.1.1, htakes.1.2, fun d hd => ?_⟩
    have hany := htakes.2
    rw [hd] at hany
    exact hany
  cases hcase with
  | refused haction htakes hunsent htold =>
    have hnot : ¬ p.action = modelActionAbort := by
      rw [haction]
      decide
    dsimp only
    rw [if_neg (calls_of_unsent hunsent), if_neg hnot]
    refine .refused haction (fun hcontains hready => ?_) (leaves_of_unsent hunsent htold.fatal) htold rfl
    rw [takesDownload_eq hs, hcontains, hready, Bool.true_and, Bool.true_and, Bool.not_eq_false'] at htakes
    cases hcurrent : s.current with
    | none =>
      rw [hcurrent] at htakes
      cases htakes
    | some d =>
      rw [hcurrent] at htakes
      exact ⟨d, rfl, htakes⟩
  | begun haction htakes hcalls hmodel hlast hfatal =>
    obtain ⟨hcontains, hready, hfree⟩ := htaken htakes
    have hentry : (catalogFind p.modelId.str).isSome = true := (catalogFind_isSome _).trans hcontains
    obtain ⟨entry, hentry⟩ := Option.isSome_iff_exists.mp hentry
    dsimp only
    rw [if_pos hcalls, if_pos hmodel, hentry]
    exact .begun haction hcontains hready hfree entry hmodel hlast hfatal.trans rfl
  | failed haction htakes hcalls hmodel hlast hfatal =>
    obtain ⟨hcontains, hready, hfree⟩ := htaken htakes
    dsimp only
    rw [if_pos hcalls, if_neg (by rw [hmodel]; decide)]
    exact .failed haction hcontains hready hfree hmodel hlast hfatal rfl
  | other haction hunsent hfatal =>
    dsimp only
    rw [if_neg (calls_of_unsent hunsent)]
    split
    · exact .abort haction (leaves_of_unsent hunsent hfatal) rfl
    · exact .other haction (leaves_of_unsent hunsent hfatal) rfl

theorem abort_unaborted {d : ModelDownload} (h : d.abort.abortRequested = false) : d.abort = d := by
  unfold ModelDownload.abort at h ⊢
  split
  · rfl
  · rename_i hgoes
    rw [if_neg hgoes] at h
    dsimp only at h
    split at h <;> cases h

theorem Tidy.ends_none {s : Downloads} (hs : Tidy s) (hnone : s.current = none) (hfatal : s.worker.fatalExit = false)
    {k : Nat} (hpos : 0 < k) (hle : k ≤ s.accepted) (hnot : k ∉ s.aborted) : s.ends k = 1 := by
  rw [hs.counted hfatal k hpos hle hnot, hnone, if_neg (fun h => by cases h.2)]

theorem Tidy.ends_next {s : Downloads} (hs : Tidy s) : s.ends (s.accepted + 1) = 0 := by
  refine List.countP_eq_zero.mpr fun r hr => ?_
  have hle := hs.reports r hr
  have hne : r.1 ≠ s.accepted + 1 := by omega
  simp [hne]

theorem fatalExit_false {w v : WorkerState} (h : w.fatalExit = true → v.fatalExit = true) (hv : v.fatalExit = false) :
    w.fatalExit = false := by
  by_contra hw
  rw [h (Bool.eq_true_of_not_eq_false hw)] at hv
  cases hv

theorem current_none {s : Downloads} {p : ModelCtrl} (haction : p.action = modelActionDownload)
    (hcontains : modelCatalog.contains p.modelId.str = true) (hready : config.dlDirReady = true)
    (hfree : ∀ d, s.current = some d → isTransferStage d.progress.stage = false) {windows : Bool}
    {partFile finalFile : Option Bytes} (hflies : Flies config s (.control env p windows partFile finalFile)) :
    s.current = none := by
  cases hcurrent : s.current with
  | none => rfl
  | some d =>
    have hbusy := hflies haction hcontains hready d hcurrent
    rw [hfree d hcurrent] at hbusy
    cases hbusy

theorem tidy_control {s : Downloads} (hs : Tidy s) {p : ModelCtrl} {windows : Bool} {partFile finalFile : Option Bytes}
    (hflies : Flies config s (.control env p windows partFile finalFile)) :
    Tidy (s.control config env p windows partFile finalFile) := by
  have hcase := @controlCase_control env config s hs.held p windows partFile finalFile
  generalize s.control config env p windows partFile finalFile = t at hcase
  cases hcase with
  | refused haction hbusy hleaves htold h =>
    rw [h]
    exact hs.of_leaves hleaves
  | begun haction hcontains hready hfree entry hmodel hlast hfatal h =>
    have hnone := current_none haction hcontains hready hfree hflies
    have hunseen : t.worker.lastStage = none := by
      rw [hlast, hs.unseen hnone]
      exact ite_self _
    rw [h]
    refine ⟨hmodel, nofun, fun stage hstage => ?_, fun d hd _ => ?_, fun k hk => ?_, fun r hr => ?_, ?_⟩
    · have hstage : t.worker.lastStage = some stage := hstage
      rw [hunseen] at hstage
      cases hstage
    · obtain rfl := Option.some.inj hd
      refine ⟨⟨rfl, fun _ => rfl, rfl⟩, fun _ stage hstage => ?_⟩
      have hstage : t.worker.lastStage = some stage := hstage
      rw [hunseen] at hstage
      cases hstage
    · exact Nat.le_succ_of_le (hs.aborted k hk)
    · exact Nat.le_succ_of_le (hs.reports r hr)
    · intro hv k hpos hle hnot
      have hle : k ≤ s.accepted + 1 := hle
      by_cases hk : k = s.accepted + 1
      · rw [if_pos ⟨hk, rfl⟩, hk]
        exact hs.ends_next
      · rw [if_neg fun hboth => hk hboth.1]
        exact hs.ends_none hnone (fatalExit_false hfatal hv) hpos (by omega) hnot
  | failed haction hcontains hready hfree hmodel hlast hfatal h =>
    have hnone := current_none haction hcontains hready hfree hflies
    have hkept : t.worker.lastStage = s.worker.lastStage := by
      rw [hlast, hs.unseen hnone]
      exact ite_self _
    have hleaves : Leaves s.worker t.worker := by
      refine ⟨hmodel.trans ?_, hkept, hfatal⟩
      rw [hs.held, hnone]
      rfl
    have hsame : t = { s with worker := t.worker } := by rw [h, hnone]
    rw [hsame]
    exact hs.of_leaves hleaves
  | abort haction hleaves h =>
    have ht := hs.of_leaves hleaves
    rw [h]
    refine ⟨?_, fun hnone => ?_, ht.seen, fun d hd hnot => ?_, fun k hk => ?_, ht.reports, fun hv k hpos hle hnot => ?_⟩
    · show t.worker.modelDl = (s.current.map ModelDownload.abort).isSome
      rw [Option.isSome_map]
      exact ht.held
    · exact ht.unseen (Option.map_eq_none_iff.mp hnone)
    · obtain ⟨d, hcurrent, rfl⟩ := Option.map_eq_some_iff.mp hd
      rw [hcurrent] at hnot
      have hflag : d.abort.abortRequested = false := by
        by_contra hflag
        refine hnot ?_
        show s.accepted ∈ if d.abort.abortRequested = true then _ else _
        rw [if_pos (Bool.eq_true_of_not_eq_false hflag)]
        exact List.mem_append_right _ (List.mem_singleton_self _)
      have hnot : s.accepted ∉ s.aborted := by
        have hnot : s.accepted ∉ if d.abort.abortRequested = true then s.aborted ++ [s.accepted] else s.aborted := hnot
        rwa [if_neg (by rw [hflag]; nofun)] at hnot
      rw [abort_unaborted hflag]
      exact ht.fresh d hcurrent hnot
    · have hk : k ∈ if (s.current.map ModelDownload.abort).any (·.abortRequested) = true then
          s.aborted ++ [s.accepted] else s.aborted := hk
      split at hk
      · rcases List.mem_append.mp hk with hk | hk
        · exact hs.aborted k hk
        · rw [List.mem_singleton.mp hk]
      · exact hs.aborted k hk
    · have hsome : (s.current.map ModelDownload.abort).isSome = s.current.isSome := Option.isSome_map
      have hnot : k ∉ s.aborted := fun hk => by
        refine hnot ?_
        show k ∈ if _ then _ else _
        split
        · exact List.mem_append_left _ hk
        · exact hk
      show s.ends k = if k = s.accepted ∧ (s.current.map ModelDownload.abort).isSome = true then 0 else 1
      rw [hsome]
      exact ht.counted hv k hpos hle hnot
  | other haction hleaves h =>
    rw [h]
    exact hs.of_leaves hleaves

/-- A DOWNLOAD is turned away as it should exactly if it may come now. -/
theorem obeys_control {s : Downloads} (hs : Tidy s) (p : ModelCtrl) (windows : Bool) (partFile finalFile : Option Bytes) :
    Obeys config s (.control env p windows partFile finalFile) ↔
      Flies config s (.control env p windows partFile finalFile) := by
  have hcase := @controlCase_control env config s hs.held p windows partFile finalFile
  unfold Obeys Flies
  dsimp only
  generalize s.control config env p windows partFile finalFile = t at hcase
  constructor
  · intro hobeys haction hcontains hready d hd
    have hrejected := hobeys haction (by rw [hd]; rfl)
    cases hcase with
    | refused _ hbusy hleaves htold h =>
      obtain ⟨d', hd', hstage⟩ := hbusy hcontains hready
      obtain rfl := Option.some.inj (hd.symm.trans hd')
      exact hstage
    | begun _ _ _ hfree entry hmodel hlast hfatal h =>
      have haccepted := hrejected.accepted
      rw [h] at haccepted
      have haccepted : s.accepted + 1 = s.accepted := haccepted
      omega
    | failed _ _ _ hfree hmodel hlast hfatal h =>
      have hcurrent := hrejected.current
      rw [h, hd] at hcurrent
      cases hcurrent
    | abort hother => exact (hother haction).elim
    | other hother => exact (hother haction).elim
  · intro hflies haction hsome
    cases hcase with
    | refused _ hbusy hleaves htold h =>
      rw [h]
      exact ⟨rfl, rfl, rfl, htold⟩
    | begun _ hcontains hready hfree entry hmodel hlast hfatal h =>
      obtain ⟨d, hd⟩ := Option.isSome_iff_exists.mp hsome
      have hbusy := hflies haction hcontains hready d hd
      rw [hfree d hd] at hbusy
      cases hbusy
    | failed _ hcontains hready hfree hmodel hlast hfatal h =>
      obtain ⟨d, hd⟩ := Option.isSome_iff_exists.mp hsome
      have hbusy := hflies haction hcontains hready d hd
      rw [hfree d hd] at hbusy
      cases hbusy
    | abort hother => exact (hother haction).elim
    | other hother => exact (hother haction).elim

theorem poll_polled {s : Downloads} (hs : s.Held) {d : ModelDownload} (hd : s.current = some d) :
    Polled d.progress s.worker (s.poll env).worker := by
  have hmodel : s.worker.modelDl = true := by
    rw [show s.worker.modelDl = s.current.isSome from hs, hd]
    rfl
  have hsees : (s.sees env).pollDownload s.worker.tick = some d.progress := by
    show s.current.map (·.progress) = some d.progress
    rw [hd]
    rfl
  exact polled_pollModelDownload hmodel hsees

theorem poll_none {s : Downloads} (hs : s.Held) (hnone : s.current = none) : s.poll env = s := by
  have hmodel : s.worker.modelDl = false := by
    rw [show s.worker.modelDl = s.current.isSome from hs, hnone]
    rfl
  have hidle : ((pollModelDownload (s.sees env)).run s.worker).2 = s.worker := pollModelDownload_idle hmodel
  have hstages : toldStages (s.worker.trace.drop s.worker.trace.length) = [] := toldStages_same rfl
  unfold poll
  rw [hidle]
  dsimp only
  rw [hstages, hmodel, List.map_nil, List.append_nil, if_neg nofun, ← hnone]

theorem poll_current (s : Downloads) :
    (s.poll env).current = if (s.poll env).worker.modelDl then s.current else none :=
  rfl

theorem poll_reports (s : Downloads) : (s.poll env).reports = s.reports ++
    (toldStages ((s.poll env).worker.trace.drop s.worker.trace.length)).map fun stage => (s.accepted, stage) :=
  rfl

theorem downloadEnded_of_isEnded {stage : UInt8} (h : isEnded stage = true) (previous : Option UInt8) :
    downloadEnded previous stage = true := by
  unfold isEnded at h
  unfold downloadEnded
  rw [h, Bool.true_or]

theorem obeys_poll {s : Downloads} (hs : Tidy s) {d : ModelDownload} (hd : s.current = some d)
    (hended : isEnded d.progress.stage = true) : Reported d.progress.stage s (s.poll env) := by
  have hpolled := @poll_polled env s hs.held d hd
  have hdropped := hpolled.modelDl
  rw [downloadEnded_of_isEnded hended, Bool.not_true] at hdropped
  refine ⟨?_, ?_⟩
  · rw [poll_current, hdropped]
    rfl
  · rcases hpolled.told with htold | ⟨hseen, -⟩
    · rcases htold.stages with hstages | ⟨hfatal, -⟩
      · rw [poll_reports, hstages]
        exact .inl rfl
      · exact .inr hfatal
    · rw [hs.seen _ hseen] at hended
      cases hended

theorem Polled.fatal {p : DownloadProgress} {w v : WorkerState} (h : Polled p w v) (hw : w.fatalExit = true) :
    v.fatalExit = true := by
  rcases h.told with htold | ⟨-, hsame, -⟩
  · exact htold.fatal hw
  · exact hsame.trans hw

theorem poll_ends (s : Downloads) (k : Nat) : (s.poll env).ends k = s.ends k +
    (toldStages ((s.poll env).worker.trace.drop s.worker.trace.length)).countP fun stage =>
      s.accepted = k && isEnded stage := by
  rw [ends, poll_reports, List.countP_append, List.countP_map]
  rfl

theorem reports_poll {s : Downloads} (hs : Tidy s) : ∀ r ∈ (s.poll env).reports, r.1 ≤ (s.poll env).accepted := by
  intro r hr
  rw [poll_reports] at hr
  rcases List.mem_append.mp hr with hr | hr
  · exact hs.reports r hr
  · obtain ⟨stage, -, rfl⟩ := List.mem_map.mp hr
    exact Nat.le_refl _

/-- A download whose thread has not begun was not seen in any other stage, so it is not taken to be over. -/
theorem downloadEnded_of_fresh {stage : UInt8} {previous : Option UInt8} (hended : isEnded stage = false)
    (hidle : stage = modelStageIdle → ∀ seen, previous = some seen → seen = modelStageIdle) :
    downloadEnded previous stage = false := by
  unfold isEnded at hended
  unfold downloadEnded
  rw [hended, Bool.false_or]
  by_cases hstage : stage = modelStageIdle
  · cases previous with
    | none => simp
    | some seen =>
      obtain rfl := hidle hstage seen rfl
      rw [hstage]
      rfl
  · simp [hstage]

theorem counted_poll {s : Downloads} (hs : Tidy s) {d : ModelDownload} (hd : s.current = some d) :
    (s.poll env).Counted := by
  have hpolled := @poll_polled env s hs.held d hd
  intro hfatal k hpos hle hnot
  have hbefore := hs.counted (fatalExit_false hpolled.fatal hfatal) k hpos hle hnot
  have hstages : toldStages ((s.poll env).worker.trace.drop s.worker.trace.length) = [d.progress.stage] ∨
      s.worker.lastStage = some d.progress.stage ∧
        toldStages ((s.poll env).worker.trace.drop s.worker.trace.length) = [] := by
    rcases hpolled.told with htold | ⟨hseen, -, htrace⟩
    · rcases htold.stages with hstages | ⟨hbad, -⟩
      · exact .inl hstages
      · rw [hfatal] at hbad
        cases hbad
    · exact .inr ⟨hseen, toldStages_same htrace⟩
  have hheld : (s.poll env).current.isSome = !downloadEnded s.worker.lastStage d.progress.stage := by
    rw [poll_current, ← hpolled.modelDl, hd]
    cases (s.poll env).worker.modelDl <;> rfl
  show (s.poll env).ends k = if k = s.accepted ∧ (s.poll env).current.isSome = true then 0 else 1
  rw [hheld, poll_ends, hbefore, hd]
  by_cases hk : k = s.accepted
  · subst hk
    obtain ⟨hun, hidle⟩ := hs.fresh d hd hnot
    rw [if_pos ⟨rfl, rfl⟩, Nat.zero_add]
    cases hended : isEnded d.progress.stage with
    | true =>
      rw [downloadEnded_of_isEnded hended, if_neg (by simp)]
      rcases hstages with hstages | ⟨hseen, -⟩
      · rw [hstages]
        simp [hended]
      · rw [hs.seen _ hseen] at hended
        cases hended
    | false =>
      rw [downloadEnded_of_fresh hended hidle, if_pos ⟨rfl, rfl⟩]
      rcases hstages with hstages | ⟨-, hstages⟩
      · rw [hstages]
        simp [hended]
      · rw [hstages]
        rfl
  · have hother : (toldStages ((s.poll env).worker.trace.drop s.worker.trace.length)).countP
        (fun stage => s.accepted = k && isEnded stage) = 0 := by
      refine List.countP_eq_zero.mpr fun stage _ => ?_
      simp [Ne.symm hk]
    rw [if_neg fun h => hk h.1, if_neg fun h => hk h.1, hother]

theorem tidy_poll {s : Downloads} (hs : Tidy s) : Tidy (s.poll env) := by
  cases hd : s.current with
  | none =>
    rw [poll_none hs.held hd]
    exact hs
  | some d =>
    have hpolled := @poll_polled env s hs.held d hd
    have hmodel := hpolled.modelDl
    have hlast := hpolled.lastStage
    cases hended : downloadEnded s.worker.lastStage d.progress.stage with
    | true =>
      rw [hended] at hmodel hlast
      have hmodel : (s.poll env).worker.modelDl = false := hmodel
      have hlast : (s.poll env).worker.lastStage = none := hlast
      have hnone : (s.poll env).current = none := by
        rw [poll_current, hmodel]
        rfl
      refine ⟨?_, fun _ => hlast, fun stage hstage => ?_, fun d' hd' => ?_, hs.aborted, reports_poll hs, counted_poll hs hd⟩
      · rw [hmodel, hnone]
        rfl
      · rw [hlast] at hstage
        cases hstage
      · rw [hnone] at hd'
        cases hd'
    | false =>
      rw [hended] at hmodel hlast
      have hmodel : (s.poll env).worker.modelDl = true := hmodel
      have hlast : (s.poll env).worker.lastStage = some d.progress.stage := hlast
      have hsome : (s.poll env).current = some d := by
        rw [poll_current, hmodel, hd]
        rfl
      refine ⟨?_, fun hnone => ?_, fun stage hstage => ?_, fun d' hd' hnot => ?_, hs.aborted, reports_poll hs,
        counted_poll hs hd⟩
      · rw [hmodel, hsome]
        rfl
      · rw [hsome] at hnone
        cases hnone
      · rw [hlast] at hstage
        obtain rfl := Option.some.inj hstage
        by_contra hstage
        rw [downloadEnded_of_isEnded (Bool.eq_true_of_not_eq_false hstage)] at hended
        cases hended
      · obtain rfl := Option.some.inj (hsome.symm.trans hd')
        refine ⟨(hs.fresh d hd hnot).1, fun hidle stage hstage => ?_⟩
        rw [hlast] at hstage
        exact (Option.some.inj hstage).symm.trans hidle

/-! ## Runs -/

theorem tidy_step (config : Config) (s : Downloads) (m : DownloadsMove) (hs : Tidy s) (hflies : Flies config s m) :
    Tidy (s.step config m) := by
  cases m with
  | control env p windows partFile finalFile => exact tidy_control hs hflies
  | poll env => exact tidy_poll hs
  | thread a =>
    refine hs.of_current fun d hd => ?_
    obtain ⟨hflag, hstage, hpoint⟩ := unaborted_threadStep hd a
    exact ⟨⟨hflag, fun hidle => (hstage hidle).elim, hpoint⟩, fun hidle => (hstage hidle).elim⟩
  | child content =>
    refine hs.of_current fun d hd => ?_
    show Unaborted (if d.child then { d with partFile := content } else d) ∧
      ((if d.child then { d with partFile := content } else d).progress.stage = modelStageIdle → _)
    split
    · exact ⟨⟨hd.flag, hd.idle, hd.point⟩, id⟩
    · exact ⟨hd, id⟩
  | other w =>
    show Tidy (if Leaves s.worker w then { s with worker := w } else s)
    split
    · rename_i hleaves
      exact hs.of_leaves hleaves
    · exact hs

theorem obeys_iff (config : Config) {s : Downloads} (hs : Tidy s) (m : DownloadsMove) :
    Obeys config s m ↔ Flies config s m := by
  cases m with
  | control env p windows partFile finalFile => exact obeys_control hs p windows partFile finalFile
  | poll env => exact ⟨fun _ => trivial, fun _ d hd hended => obeys_poll hs hd hended⟩
  | _ => exact Iff.rfl

/-- **Downloads fly alone exactly as long as none of them is in its first or last stage when the next one is asked for.** -/
theorem single_flight (config : Config) (engine translator : Bool) (moves : List DownloadsMove) :
    (Along (step config) (Obeys config) (start engine translator) moves ∧
        ∀ pre, pre <+: moves → (run (step config) (start engine translator) pre).Counted) ↔
      Along (step config) (Flies config) (start engine translator) moves := by
  constructor
  · rintro ⟨hobeys, -⟩
    refine Along.of_invariant (fun s m hs hm => ?_) (fun s m hs hm => ?_) (tidy_start engine translator) hobeys
    · exact tidy_step config s m hs ((obeys_iff config hs m).mp hm)
    · exact (obeys_iff config hs m).mp hm
  · intro hflies
    refine ⟨?_, ?_⟩
    · refine Along.of_invariant (fun s m hs hm => tidy_step config s m hs hm) (fun s m hs hm => ?_)
        (tidy_start engine translator) hflies
      exact (obeys_iff config hs m).mpr hm
    · rintro pre ⟨post, rfl⟩
      have hpre := (along_append.mp hflies).1
      exact (run_invariant (tidy_step config) (tidy_start engine translator) hpre).counted

/-- A model is asked for. -/
def askTiny : DownloadsMove := .control .quiet ⟨.zero _, modelActionDownload, .ofStr 32 (ascii "tiny.en")⟩ false none none

example : ((run (step downloader) (start true true) [askTiny]).current.map (·.entry.id)) = some (ascii "tiny.en") := by
  decide +kernel

/-- The second request comes before the thread of the first one ran. -/
theorem not_single_flight : ¬ ∀ (config : Config) (engine translator : Bool) (moves : List DownloadsMove),
    Along (step config) (Obeys config) (start engine translator) moves ∧
      ∀ pre, pre <+: moves → (run (step config) (start engine translator) pre).Counted := by
  intro h
  obtain ⟨hobeys, -⟩ := h downloader true true [askTiny, askTiny]
  have hrejected := hobeys.2.1 rfl (by decide +kernel)
  have haccepted : (run (step downloader) (start true true) [askTiny, askTiny]).accepted =
      (run (step downloader) (start true true) [askTiny]).accepted := hrejected.accepted
  have hnot : (run (step downloader) (start true true) [askTiny, askTiny]).accepted ≠
      (run (step downloader) (start true true) [askTiny]).accepted := by decide +kernel
  exact hnot haccepted

end Downloads

end VlcWhisper.Worker
