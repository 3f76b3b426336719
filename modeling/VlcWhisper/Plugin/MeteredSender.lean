import VlcWhisper.Lib.Observer
import VlcWhisper.Plugin.BenchmarkTotals

/-!
# The sender thread with its benchmark (`vw_whisper_module.c`)

`SenderLoop` leaves the benchmark out. Here it goes along as an observer: the functions that call it are those of the
loop with these calls in their places, and the others are unseen.

Main result: `step_fst`. Without the benchmark, the loop is that of `SenderLoop`.
-/

namespace VlcWhisper.Plugin

open VlcWhisper.Lib VlcWhisper.Protocol

/-- A round, with what the benchmark is told of it: the times, what can be written, and whether VLC takes the cue of a
pause. -/
structure MeteredRound extends Round where
  cfgBegin : BeginReading
  recoveryBegin : BeginReading
  retryBegin : BeginReading
  activationBegin : BeginReading
  audioUs : List Int64
  segmentUs : Int64
  sentUs : Int64
  pausedRendered : Bool
  flushWritten : Bool
  flushUs : Int64

abbrev MeteredM := StateM (Sender × BenchmarkTotals)

/-! ## What the benchmark is told of a frame -/

namespace BenchmarkTotals

/-- `vw_plugin_record_translation_error`, of any frame: what the receive wrapper does. -/
def recordTranslationError (p : Payload) (b : BenchmarkTotals) : BenchmarkTotals :=
  match p with
  | .error err =>
    if err.recoverable ≠ 0 && err.errorCode ∈ Conn.translationErrors then b.recordTranslationFailure err.errorCode
    else b
  | _ => b

/-- A cue that is to be presented has come. -/
def recordReceived (segment : CaptionSegment) (nowUs : Int64) (sourceMode : Bool) (b : BenchmarkTotals) :
    BenchmarkTotals :=
  let b := b.recordCaptionReceived segment nowUs sourceMode
  if segment.translationAttempted then
    b.recordTranslation segment.translationTier segment.translationLatencyUs (0 < segment.translatedText.length)
  else b

/-- What the presenter made of a cue. -/
def recordPresented (shown : Bool) (nowUs : Int64) (b : BenchmarkTotals) : BenchmarkTotals :=
  if shown then b.recordCaptionSent nowUs else b.recordCaptionFiltered false false true

end BenchmarkTotals

namespace Metered

/-! ## Respawns -/

/-- A program that gives whether it has replaced the worker: then a benchmark begins, if none is active. -/
def respawning (m : SenderM Bool) (reading : BeginReading) : MeteredM Bool := do
  let respawned ← unseen m
  let s ← unseen get
  tell fun b => if respawned then b.beginIfInactive (catalogIdFromPath s.modelPath) s.cfg.backend reading else b
  pure respawned

/-- `Sender.respawnForConfig`. -/
def respawnForConfig (t : MeteredRound) : MeteredM Unit := do
  let s ← unseen get
  onlyIf (!s.respawnInProgress) do
    unseen <| modify fun s => { s with respawnInProgress := true, cfg := s.cfg.withWorker t.config
                                       modelPath := Sender.newModelPath s.modelPath t.config.modelPath
                                       lastCfgRespawnAttemptUs := t.cfgRespawnAtUs }
    let s ← unseen get
    let _ ← respawning (Sender.respawnWorker t.cfgRespawn s.paused false) t.cfgBegin
    unseen <| modify fun s => { s with respawnInProgress := false }

/-- `Sender.compareSnapshot`. -/
def compareSnapshot (t : MeteredRound) : MeteredM Unit := do
  let s ← unseen get
  let c := t.config
  let differs := s.cfg.differs c
  unseen <| onlyIf (s.cfg.translationDiffers c) do
    modify fun s => { s with cfg := s.cfg.withTranslation c }
    let _ ← Sender.relayTranslation
    pure ()
  let request := orDefault .empty c.modelDownload
  unseen <| onlyIf (request ≠ s.cfg.modelDownload) do
    if request.val ≠ [] then Sender.relayModelRequest request
    else modify fun s => { s with cfg := { s.cfg with modelDownload := request.truncated 40 } }
  onlyIf differs (respawnForConfig t)

/-- `Sender.pollConfig`. -/
def pollConfig (t : MeteredRound) : MeteredM Unit := do
  let s ← unseen get
  if !s.cfg.valid then unseen (Sender.takeSnapshot t.toRound)
  else if 2000000 ≤ t.cfgNowUs - s.lastConfigPollUs then do
    unseen <| modify fun s => { s with lastConfigPollUs := t.cfgNowUs }
    onlyIf (!s.respawnInProgress) (compareSnapshot t)
  else pure ()

/-! ## The input -/

/-- `Sender.swapMedia`. -/
def swapMedia (url : CString) : MeteredM Unit := do
  tell (·.resetLiveClock)
  unseen (Sender.swapMedia url)

/-- `Sender.detectMediaSwap`. -/
def detectMediaSwap (input : Option Input) : MeteredM Unit := do
  let s ← unseen get
  match input.bind (·.uri) with
  | some uri =>
    onlyIf (s.capabilities &&& capabilitySourceMode ≠ 0 && Sender.normalizedUri uri ≠ s.activeSourceUrl)
      (swapMedia (Sender.normalizedUri uri))
  | none => pure ()

/-- `Sender.pollInput`. -/
def pollInput (t : MeteredRound) : MeteredM (Option Sender.Polled) := do
  let s ← unseen get
  if 100000 ≤ t.nowUs - s.lastPausePollUs then do
    unseen <| modify fun s => { s with lastPausePollUs := t.nowUs }
    let nowPaused := t.input.any (·.paused)
    let playbackRate := (t.input.bind (·.rate)).getD .one
    detectMediaSwap t.input
    let positionUs := (t.input.bind (·.positionUs)).getD (-1)
    let s ← unseen get
    let preview := nowPaused && t.showPaused && s.sourceModeActive
    if ← unseen (Sender.follow t.toRound positionUs playbackRate (nowPaused && !preview)) then do
      unseen (Sender.detectPausedSeek nowPaused positionUs)
      unseen (Sender.detectSeek t.toRound nowPaused positionUs)
      pure (some ⟨nowPaused, preview, positionUs⟩)
    else pure none
  else pure (some ⟨s.paused, s.paused && t.showPaused && s.sourceModeActive, -1⟩)

/-- `Sender.followSeek`. -/
def followSeek (t : MeteredRound) : MeteredM Unit := do
  let s ← unseen get
  tell fun b => if s.discontinuityPending || t.discontinuity then b.resetLiveClock else b
  unseen (Sender.followSeek t.toRound)

/-! ## Audio and frames -/

/-- `Sender.sendBurst`; `audioUs` are the times after the calls. -/
def sendBurst (forwards : Bool) : Bool → List AudioChunk → List Int64 → MeteredM Bool
  | sentAny, [], _ => pure sentAny
  | sentAny, chunk :: chunks, audioUs => do
    if forwards then
      if ← unseen (Sender.perform (.sendAudio chunk)) then do
        tell (·.recordAudio chunk.startPtsUs chunk.durationUs (audioUs.headD 0))
        sendBurst forwards true chunks audioUs.tail
      else do
        unseen Sender.die
        pure sentAny
    else sendBurst forwards sentAny chunks audioUs

/-- `Sender.onSegment`: what has come too late counts as filtered only. -/
def onSegment (t : MeteredRound) (isSourceMode : Bool) (segment : CaptionSegment) : MeteredM Unit := do
  let s ← unseen get
  if s.client.map (·.client.sessionId) ≠ some segment.sessionId then tell (·.recordCaptionFiltered false true false)
  else if isSourceMode && 0 ≤ s.lastSourceSeekUs && segment.startPtsUs < s.lastSourceSeekUs then
    tell (·.recordCaptionFiltered false true false)
  else do
    tell (·.recordReceived segment t.segmentUs isSourceMode)
    if !s.paused then do
      unseen (Sender.record (.handed segment))
      unseen (Sender.present (·.showSegment t.minMediaFloorUs segment s.currentPositionUs isSourceMode))
      tell (·.recordPresented segment.text.data.isSome t.sentUs)
    else if isSourceMode && t.showPaused && s.previewPending then do
      unseen <| modify fun s => { s with previewPending := false }
      unseen (Sender.record (.handed segment))
      unseen (Sender.present (·.showPaused segment))
      tell (·.recordPresented (segment.text.data.isSome && t.pausedRendered) t.sentUs)
    else tell (·.recordCaptionFiltered true false false)

/-- `Sender.onModelProgress`. -/
def onModelProgress (t : MeteredRound) (progress : ModelProgress) : MeteredM Unit := do
  unseen <| onlyIf (progress.stage = modelStageFailed) (modify fun s => { s with modelDownloadId := .empty })
  let s ← unseen get
  onlyIf (progress.stage = modelStageDone && s.modelDownloadId = .ofArray progress.modelId) do
    unseen <| modify fun s => { s with modelDownloadId := .empty }
    let _ ← respawning (Sender.activateDownloadedModel t.toRound (.ofArray progress.modelId)) t.activationBegin
    pure ()

/-- `Sender.onPayload`. -/
def onPayload (t : MeteredRound) (isSourceMode : Bool) : Payload → MeteredM Unit
  | .captionSegment segment => onSegment t isSourceMode segment
  | .status status => tell (·.updateStatus status)
  | .modelProgress progress => onModelProgress t progress
  | .error err => unseen (onlyIf (err.recoverable = 0) Sender.die)
  | _ => pure ()

/-- `Sender.takeFrame`: the wrapper of the receive function takes the blames of translations first. -/
def takeFrame (t : MeteredRound) (isSourceMode sentAny : Bool) : MeteredM Bool := do
  match ← unseen (Sender.receiveFrame (if sentAny then 5000 else 20000)) with
  | (.fatal, _) => do
    unseen Sender.die
    unseen <| modify fun s => { s with modelDownloadId := .empty }
    pure false
  | (.ok, some p) => do
    tell (·.recordTranslationError p)
    tell (·.recordFrame)
    onPayload t isSourceMode p
    pure true
  | _ => pure true

/-! ## The loop -/

/-- `Sender.serve`. -/
def serve (t : MeteredRound) : MeteredM Unit := do
  let s ← unseen get
  let isSourceMode := s.sourceModeActive
  let sentAny ← sendBurst (!s.paused && !isSourceMode && s.sessionActive) false t.chunks t.audioUs
  let s ← unseen get
  if s.workerDead then pure ()
  else if ← takeFrame t isSourceMode sentAny then do
    unseen (Sender.flushPending t.toRound isSourceMode)
    tell (·.flushIfDue t.flushWritten t.flushUs)
  else pure ()

/-- `Sender.idle`. -/
def idle (t : MeteredRound) : MeteredM Unit := do
  let s ← unseen get
  onlyIf (10000000 ≤ t.idleNowUs - s.lastCfgRespawnAttemptUs) do
    unseen <| modify fun s => { s with lastCfgRespawnAttemptUs := t.idleNowUs }
    let _ ← respawning (Sender.respawnWorker t.retry s.paused false) t.retryBegin
    pure ()

/-- `Sender.attend`. -/
def attend (t : MeteredRound) : MeteredM Unit := do
  match ← pollInput t with
  | none => pure ()
  | some p => do
    unseen (Sender.followPause p)
    followSeek t
    serve t

/-- `Sender.recover`. -/
def recover (t : MeteredRound) : MeteredM Bool := do
  let recovered ← respawning (Sender.recover t.toRound) t.recoveryBegin
  tell fun b => if recovered then b.resetLiveClock else b
  pure recovered

/-- `Sender.round`. -/
def round (t : MeteredRound) : MeteredM Bool := do
  pollConfig t
  let s ← unseen get
  if s.workerDead then recover t
  else if s.client.isNone then do
    idle t
    pure true
  else do
    attend t
    pure true

/-- The states after a round. -/
def step (s : Sender × BenchmarkTotals) (t : MeteredRound) : Sender × BenchmarkTotals :=
  if s.1.ended then s
  else
    let res := (round t).run s
    ({ res.2.1 with ended := !res.1 }, res.2.2)

/-- `Sender.begin`: with the first session begins the benchmark. -/
def begin (uri : Option CString) (reading : BeginReading) : MeteredM Unit := do
  unseen (Sender.begin uri)
  let s ← unseen get
  tell fun b => if s.sessionActive then b.begin (catalogIdFromPath s.modelPath) s.cfg.backend reading else b

/-- The thread at the head of its loop. -/
def start (launch : Launch) (modelPath : CString) (authToken : CArray authTokenBytes) (reading : BeginReading) :
    Sender × BenchmarkTotals :=
  ((begin launch.uri reading).run (Sender.opened launch modelPath authToken, .zero)).2

/-! ## Without the benchmark -/

theorem respawning_erases (m : SenderM Bool) (reading : BeginReading) : Erases (respawning m reading) m := by
  refine (Erases.unseen m).bind_told fun respawned => ?_
  exact .get_bind fun s => .tell_bind (.pure _)

theorem respawnForConfig_erases (t : MeteredRound) :
    Erases (respawnForConfig t) (Sender.respawnForConfig t.toRound) := by
  refine (Erases.unseen get).bind fun s => .onlyIf ?_
  refine (Erases.unseen _).bind fun _ => (Erases.unseen get).bind fun s => ?_
  exact (respawning_erases _ _).bind fun _ => .unseen _

theorem compareSnapshot_erases (t : MeteredRound) : Erases (compareSnapshot t) (Sender.compareSnapshot t.toRound) := by
  refine (Erases.unseen get).bind fun s => ?_
  refine (Erases.unseen _).bind fun _ => (Erases.unseen _).bind fun _ => ?_
  exact .onlyIf (respawnForConfig_erases t)

theorem pollConfig_erases (t : MeteredRound) : Erases (pollConfig t) (Sender.pollConfig t.toRound) := by
  refine (Erases.unseen get).bind fun s => ?_
  refine .ite (.unseen _) (.ite ?_ (.pure ()))
  exact (Erases.unseen _).bind fun _ => .onlyIf (compareSnapshot_erases t)

theorem detectMediaSwap_erases (input : Option Input) :
    Erases (detectMediaSwap input) (Sender.detectMediaSwap input) := by
  refine (Erases.unseen get).bind fun s => ?_
  cases input.bind (·.uri) with
  | none => exact .pure ()
  | some uri => exact .onlyIf (.tell_bind (.unseen _))

theorem pollInput_erases (t : MeteredRound) : Erases (pollInput t) (Sender.pollInput t.toRound) := by
  refine (Erases.unseen get).bind fun s => .ite ?_ (.pure _)
  refine (Erases.unseen _).bind fun _ => (detectMediaSwap_erases _).bind fun _ => (Erases.unseen get).bind fun s => ?_
  refine (Erases.unseen _).bind fun followed => .ite ?_ (.pure none)
  exact (Erases.unseen _).bind fun _ => (Erases.unseen _).bind fun _ => .pure _

theorem followSeek_erases (t : MeteredRound) : Erases (followSeek t) (Sender.followSeek t.toRound) :=
  .get_bind fun _ => .tell_bind (.unseen _)

theorem sendBurst_erases (forwards sentAny : Bool) (chunks : List AudioChunk) (audioUs : List Int64) :
    Erases (sendBurst forwards sentAny chunks audioUs) (Sender.sendBurst forwards sentAny chunks) := by
  induction chunks generalizing sentAny audioUs with
  | nil => exact .pure sentAny
  | cons chunk chunks ih =>
    refine .ite ?_ (ih sentAny audioUs)
    refine (Erases.unseen _).bind fun sent => .ite ?_ ?_
    · exact .tell_bind (ih true audioUs.tail)
    · exact (Erases.unseen _).bind fun _ => .pure sentAny

theorem onSegment_erases (t : MeteredRound) (isSourceMode : Bool) (segment : CaptionSegment) :
    Erases (onSegment t isSourceMode segment) (Sender.onSegment t.toRound isSourceMode segment) := by
  refine (Erases.unseen get).bind fun s => .ite (.tell _) (.ite (.tell _) (.tell_bind (.ite ?_ (.ite ?_ (.tell _)))))
  · exact (Erases.unseen _).bind fun _ => (Erases.unseen _).bind_told fun _ => .tell _
  · exact (Erases.unseen _).bind fun _ => (Erases.unseen _).bind fun _ => (Erases.unseen _).bind_told fun _ => .tell _

theorem onModelProgress_erases (t : MeteredRound) (progress : ModelProgress) :
    Erases (onModelProgress t progress) (Sender.onModelProgress t.toRound progress) := by
  refine (Erases.unseen _).bind fun _ => (Erases.unseen get).bind fun s => .onlyIf ?_
  exact (Erases.unseen _).bind fun _ => (respawning_erases _ _).bind fun _ => .pure ()

theorem onPayload_erases (t : MeteredRound) (isSourceMode : Bool) (p : Payload) :
    Erases (onPayload t isSourceMode p) (Sender.onPayload t.toRound isSourceMode p) := by
  cases p with
  | captionSegment segment => exact onSegment_erases t isSourceMode segment
  | status status => exact .tell _
  | modelProgress progress => exact onModelProgress_erases t progress
  | error err => exact .unseen _
  | _ => exact .pure ()

theorem takeFrame_erases (t : MeteredRound) (isSourceMode sentAny : Bool) :
    Erases (takeFrame t isSourceMode sentAny) (Sender.takeFrame t.toRound isSourceMode sentAny) := by
  refine (Erases.unseen _).bind fun r => ?_
  obtain ⟨code, p⟩ := r
  cases code with
  | fatal => exact (Erases.unseen _).bind fun _ => (Erases.unseen _).bind fun _ => .pure false
  | timeout => exact .pure true
  | ok =>
    cases p with
    | none => exact .pure true
    | some p => exact .tell_bind (.tell_bind ((onPayload_erases t isSourceMode p).bind fun _ => .pure true))

theorem serve_erases (t : MeteredRound) : Erases (serve t) (Sender.serve t.toRound) := by
  refine (Erases.unseen get).bind fun s => (sendBurst_erases _ _ _ _).bind fun sentAny => ?_
  refine (Erases.unseen get).bind fun s => ?_
  refine .ite (.pure ()) ((takeFrame_erases _ _ _).bind fun taken => .ite ?_ (.pure ()))
  exact (Erases.unseen _).bind_told fun _ => .tell _

theorem idle_erases (t : MeteredRound) : Erases (idle t) (Sender.idle t.toRound) := by
  refine (Erases.unseen get).bind fun s => .onlyIf ?_
  exact (Erases.unseen _).bind fun _ => (respawning_erases _ _).bind fun _ => .pure ()

theorem attend_erases (t : MeteredRound) : Erases (attend t) (Sender.attend t.toRound) := by
  refine (pollInput_erases t).bind fun polled => ?_
  cases polled with
  | none => exact .pure ()
  | some p => exact (Erases.unseen _).bind fun _ => (followSeek_erases t).bind fun _ => serve_erases t

theorem recover_erases (t : MeteredRound) : Erases (recover t) (Sender.recover t.toRound) :=
  (respawning_erases _ _).bind_told fun _ => .tell_bind (.pure _)

theorem round_erases (t : MeteredRound) : Erases (round t) (Sender.round t.toRound) := by
  refine (pollConfig_erases t).bind fun _ => (Erases.unseen get).bind fun s => .ite (recover_erases t) (.ite ?_ ?_)
  · exact (idle_erases t).bind fun _ => .pure true
  · exact (attend_erases t).bind fun _ => .pure true

/-- **Without the benchmark, a round is one of the loop.** -/
theorem step_fst (s : Sender × BenchmarkTotals) (t : MeteredRound) : (step s t).1 = s.1.step t.toRound := by
  unfold step Sender.step
  split
  · rfl
  · rw [round_erases t s]

theorem start_fst (launch : Launch) (modelPath : CString) (authToken : CArray authTokenBytes) (reading : BeginReading) :
    (start launch modelPath authToken reading).1 = Sender.start launch modelPath authToken := by
  have herases : Erases (begin launch.uri reading) (Sender.begin launch.uri) :=
    (Erases.unseen _).bind_told fun _ => .get_bind fun _ => .tell _
  rw [start, Sender.start, herases (Sender.opened launch modelPath authToken, .zero)]

end Metered

end VlcWhisper.Plugin
