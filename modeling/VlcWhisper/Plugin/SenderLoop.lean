import VlcWhisper.Plugin.CaptionPresenter
import VlcWhisper.Plugin.ClientIo
import VlcWhisper.Worker.CueText

/-!
# The sender thread (`vw_whisper_module.c`)

One thread owns the client. Each round of its loop compares the settings with a snapshot, replaces a dead worker, polls
the input, follows pauses and seeks, forwards the captured audio and takes one frame of the worker. `Sender` is the
plugin's state with the loop's variables, `Round` all that VLC and the platform say in one round: the settings, the
clock, the input, the captured audio and what a launch comes to. The float arithmetic on the playback rate is part of
that, and so is what the audio callback flags. The benchmark, the counters and the texts that only the settings page
reads are left out.

The log records the calls on the client, the respawns and what the presenter is given and draws.
-/

namespace VlcWhisper.Plugin

open VlcWhisper.Lib VlcWhisper.Protocol
open VlcWhisper.Worker (ascii)

/-! ## Settings -/

/-- A literal without NUL. -/
def CString.ofString (s : String) (h : (0 : UInt8) ∉ ascii s := by decide) : CString := ⟨ascii s, h⟩

def CString.empty : CString := ⟨[], List.not_mem_nil⟩

/-- `snprintf(dst, n, "%s", s)`. -/
def CString.truncated (n : Nat) (s : CString) : CString :=
  ⟨s.val.take (n - 1), fun h => s.property (List.mem_of_mem_take h)⟩

/-- NULL and the empty string stand for a default. -/
def orDefault (default : CString) (s : Option CString) : CString :=
  match s with
  | some s => if s.val = [] then default else s
  | none => default

/-- `VW_PATH_MAX_BYTES`. -/
def pathMaxBytes : Nat := 4096

/-- What `config_GetPsz` and `config_GetInt` give. -/
structure Config where
  workerPath : Option CString
  modelPath : Option CString
  backend : Option CString
  language : Option CString
  modelDownload : Option CString
  threads : Int64
  logging : Bool
  translateEnabled : Bool
  translateFrom : Option CString
  translateTo : Option CString
  translateMode : Int64

/-- The snapshot of the settings, `cfg_…`. -/
structure Snapshot where
  valid : Bool
  workerPath : CString
  modelPath : CString
  backend : CString
  language : CString
  modelDownload : CString
  threads : Int64
  logging : Bool
  translateEnabled : Bool
  translateFrom : CString
  translateTo : CString
  translateMode : UInt8

def Config.threadsOrDefault (c : Config) : Int64 := if c.threads < 1 || 16 < c.threads then 4 else c.threads

def Config.modeByte (c : Config) : UInt8 := if c.translateMode = 0 then 0 else 1

/-- The first snapshot. -/
def Config.snapshot (c : Config) : Snapshot where
  valid := true
  workerPath := (orDefault .empty c.workerPath).truncated pathMaxBytes
  modelPath := (orDefault .empty c.modelPath).truncated pathMaxBytes
  backend := (orDefault .auto c.backend).truncated 16
  language := (orDefault .en c.language).truncated 16
  modelDownload := (orDefault .empty c.modelDownload).truncated 40
  threads := c.threadsOrDefault
  logging := c.logging
  translateEnabled := c.translateEnabled
  translateFrom := (orDefault .auto c.translateFrom).truncated 16
  translateTo := (orDefault .en c.translateTo).truncated 16
  translateMode := c.modeByte

/-- The translation settings have changed. -/
def Snapshot.translationDiffers (cfg : Snapshot) (c : Config) : Bool :=
  c.translateEnabled ≠ cfg.translateEnabled || orDefault .auto c.translateFrom ≠ cfg.translateFrom ||
    orDefault .en c.translateTo ≠ cfg.translateTo || c.modeByte ≠ cfg.translateMode

def Snapshot.withTranslation (cfg : Snapshot) (c : Config) : Snapshot :=
  { cfg with translateEnabled := c.translateEnabled
             translateFrom := (orDefault .auto c.translateFrom).truncated 16
             translateTo := (orDefault .en c.translateTo).truncated 16
             translateMode := c.modeByte }

/-- The language to compare and to keep: "auto" is none to transcribe in. -/
def Snapshot.languageOf (cfg : Snapshot) (c : Config) : CString :=
  let language := orDefault .en c.language
  if language = .auto then cfg.language else language

/-- A setting has changed that needs another worker. -/
def Snapshot.differs (cfg : Snapshot) (c : Config) : Bool :=
  orDefault .empty c.workerPath ≠ cfg.workerPath || orDefault .empty c.modelPath ≠ cfg.modelPath ||
    orDefault .auto c.backend ≠ cfg.backend || cfg.languageOf c ≠ cfg.language ||
    c.threadsOrDefault ≠ cfg.threads || c.logging ≠ cfg.logging

def Snapshot.withWorker (cfg : Snapshot) (c : Config) : Snapshot :=
  { cfg with workerPath := (orDefault .empty c.workerPath).truncated pathMaxBytes
             modelPath := (orDefault .empty c.modelPath).truncated pathMaxBytes
             backend := (orDefault .auto c.backend).truncated 16
             language := (cfg.languageOf c).truncated 16
             threads := c.threadsOrDefault
             logging := c.logging }

/-! ## Models and sources -/

/-- The catalog's ids with their files, `kMap`. -/
def catalogFiles : List (CString × CString) :=
  [(.ofString "tiny.en", .ofString "ggml-tiny.en.bin"), (.ofString "tiny", .ofString "ggml-tiny.bin"),
   (.ofString "base.en", .ofString "ggml-base.en.bin"), (.ofString "base", .ofString "ggml-base.bin"),
   (.ofString "small", .ofString "ggml-small.bin"), (.ofString "medium", .ofString "ggml-medium.bin"),
   (.ofString "large", .ofString "ggml-large-v3.bin")]

/-- `vw_plugin_catalog_filename`. -/
def catalogFilename (id : CString) : Option CString := (catalogFiles.find? fun entry => entry.1 = id).map (·.2)

/-- What follows the last separator. -/
def baseName (path : Bytes) : Bytes := (path.reverse.takeWhile fun b => b ≠ 0x2F && b ≠ 0x5C).reverse

/-- `vw_plugin_catalog_id_from_path`. -/
def catalogIdFromPath (path : CString) : CString :=
  match catalogFiles.find? fun entry => entry.2.val = baseName path.val with
  | some entry => entry.1
  | none => .ofString "tiny"

/-- Only a `file://` URI or an absolute path is a source the worker may open. -/
def isLocalSource (uri : CString) : Bool :=
  uri.val.take 7 = ascii "file://" || uri.val.head? = some 0x2F ||
    (uri.val[1]? = some 0x3A && (uri.val[2]? = some 0x5C || uri.val[2]? = some 0x2F))

/-! ## What VLC and the platform say -/

/-- The input, where there is one: `positionUs` is none if it does not tell, `rate` if it has none above 0.05. -/
structure Input where
  paused : Bool
  rate : Option Binary32
  uri : Option CString
  positionUs : Option Int64

/-- What a launch meets: the endpoints of the first worker and of the fallback, where the process came up, and the
setting and the media it is launched for. -/
structure Launch where
  first : Option Conn
  fallback : Option Conn
  language : Option CString
  uri : Option CString

structure Round where
  config : Config
  cfgNowUs : Int64
  cfgRespawn : Launch
  cfgRespawnAtUs : Int64
  recovery : Launch
  idleNowUs : Int64
  retry : Launch
  showPaused : Bool
  nowUs : Int64
  input : Option Input
  rateChanged : Bool
  seekThresholdUs : Int64
  discontinuity : Bool
  chunks : List AudioChunk
  modelDir : Option CString
  modelExists : Bool
  activation : Launch
  minMediaFloorUs : Int64

/-! ## State -/

inductive Event where
  | called (call : Call) (client : Conn)
  | received (timeoutUs : UInt32) (client : Conn)
  | respawned (transportRecovery : Bool)
  | handed (segment : CaptionSegment)
  | drawn (render : Render)

/-- `vw_plugin_sys_t` with the variables of the loop. -/
structure Sender where
  client : Option Conn
  presenter : CaptionPresenter
  authToken : CArray authTokenBytes
  workerDead : Bool
  discontinuityPending : Bool
  resumePtsUs : Int64
  sourceModeActive : Bool
  sessionActive : Bool
  previewPending : Bool
  respawnCount : Nat
  modelPath : CString
  activeSourceUrl : CString
  cfg : Snapshot
  modelDownloadId : CString
  respawnInProgress : Bool
  lastConfigPollUs : Int64
  lastCfgRespawnAttemptUs : Int64
  paused : Bool
  lastPausePollUs : Int64
  lastPositionUs : Int64
  pausedPositionUs : Int64
  currentPositionUs : Int64
  lastPlaybackRate : Binary32
  lastSourceSeekUs : Int64
  ended : Bool
  log : List Event

abbrev SenderM := StateM Sender

namespace Sender

/-! ## Calls on the client and the presenter -/

/-- A call of a sending function. -/
def perform (call : Call) : SenderM Bool := fun s =>
  match s.client with
  | none => (false, s)
  | some c =>
    let res := (Conn.perform call).run c
    (res.1, { s with client := some res.2, log := s.log ++ [.called call c] })

/-- `vw_worker_client_receive_frame`. -/
def receiveFrame (timeoutUs : UInt32) : SenderM (RecvCode × Option Payload) := fun s =>
  match s.client with
  | none => ((.fatal, none), s)
  | some c =>
    let res := (Conn.receiveFrame timeoutUs).run c
    (res.1, { s with client := some res.2, log := s.log ++ [.received timeoutUs c] })

def record (e : Event) : SenderM Unit := modify fun s => { s with log := s.log ++ [e] }

def present (f : CaptionPresenter → List Render × CaptionPresenter) : SenderM Unit :=
  modify fun s => { s with presenter := (f s.presenter).2, log := s.log ++ (f s.presenter).1.map .drawn }

def blank : SenderM Unit := modify fun s => { s with presenter := s.presenter.blank }

/-- `atomic_store(&sys->worker_dead, true)`. -/
def die : SenderM Unit := modify fun s => { s with workerDead := true }

/-! ## Sessions -/

/-- `client->worker_capabilities`, without a client none. -/
def capabilities (s : Sender) : UInt32 := (s.client.map (·.client.workerCapabilities)).getD 0

/-- `vw_worker_client_is_source_active`. -/
def workerSourceActive (s : Sender) : Bool := (s.client.map (·.client.workerSourceActive)).getD false

/-- The URI of the input's item, if the worker may open it. -/
def sourceUrl (s : Sender) (uri : Option CString) : Option CString :=
  if s.capabilities &&& capabilitySourceMode ≠ 0 then uri.filter isLocalSource else none

/-- Ask for a session, and note whether there is one. -/
def startSession (sourceUrl : Option CString) : SenderM Bool := do
  let s ← get
  let started ← perform (.startSession 0 (some (catalogIdFromPath s.modelPath)) sourceUrl)
  modify fun s => { s with sessionActive := started, sourceModeActive := started && s.workerSourceActive }
  pure started

/-- TRANSLATE_CTRL with the snapshot. -/
def sendTranslation : SenderM Bool := do
  let s ← get
  perform (.sendTranslateCtrl s.cfg.translateEnabled (some s.cfg.translateFrom) (some s.cfg.translateTo)
    s.cfg.translateMode)

/-! ## Respawns -/

/-- `VW_MAX_WORKER_RESPAWNS`. -/
def maxWorkerRespawns : Nat := 3

/-- `vw_worker_client_launch_and_connect_ex`, once the process is up. -/
def connectTo (authToken : CArray authTokenBytes) (language : Option CString) (fresh : Conn) : Option Conn :=
  let res := (Conn.connect authToken language).run fresh
  if res.1 then some res.2 else none

/-- `vw_plugin_launch_with_auto_retry`. -/
def launchWithAutoRetry (authToken : CArray authTokenBytes) (launch : Launch) : Option Conn :=
  match launch.first.bind (connectTo authToken launch.language) with
  | some c => some c
  | none => launch.fallback.bind (connectTo authToken launch.language)

/-- The body of `vw_plugin_respawn_worker` after the budget was checked. -/
def relaunch (launch : Launch) (paused : Bool) : SenderM Bool := do
  modify fun s => { s with modelDownloadId := if s.client.isSome then .empty else s.modelDownloadId
                           client := none, workerDead := false }
  modify fun s => { s with client := launchWithAutoRetry s.authToken launch }
  let s ← get
  if s.client.isNone then pure false
  else do
    let url := s.sourceUrl launch.uri
    blank
    let started ← startSession url
    modify fun s => { s with activeSourceUrl := (url.getD .empty).truncated pathMaxBytes }
    if !started then pure false
    else do
      let _ ← sendTranslation
      if paused then do
        let _ ← perform .pauseSession
        pure true
      else pure true

/-- `vw_plugin_respawn_worker`: only a recovery from a transport's death counts. -/
def respawnWorker (launch : Launch) (paused transportRecovery : Bool) : SenderM Bool := do
  modify fun s => { s with previewPending := false }
  let s ← get
  if transportRecovery && maxWorkerRespawns ≤ s.respawnCount then pure false
  else do
    modify fun s => { s with respawnCount := if transportRecovery then s.respawnCount + 1 else s.respawnCount }
    record (.respawned transportRecovery)
    relaunch launch paused

/-- `vw_plugin_activate_downloaded_model`. -/
def activateDownloadedModel (t : Round) (modelId : CString) : SenderM Bool := do
  match catalogFilename modelId, t.modelDir with
  | some filename, some dir =>
    let path : CString := ⟨dir.val ++ 0x2F :: filename.val, by
      simp only [List.mem_append, List.mem_cons, not_or]
      exact ⟨dir.property, by decide, filename.property⟩⟩
    if pathMaxBytes ≤ path.val.length || !t.modelExists then pure false
    else do
      modify fun s => { s with modelPath := path, cfg := { s.cfg with modelPath := path } }
      let s ← get
      respawnWorker t.activation s.paused false
  | _, _ => pure false

/-! ## Settings -/

/-- `vw_plugin_send_model_request`. -/
def sendModelRequest (request : CString) : SenderM Bool := do
  let s ← get
  if s.client.isNone || request.val = [] then pure false
  else do
    let abort := request.val = ascii "abort"
    let modelId := if abort then .empty else request
    if ← perform (.sendModelCtrl (if abort then modelActionAbort else modelActionDownload) (some modelId)) then do
      modify fun s => { s with cfg := { s.cfg with modelDownload := .empty }
                               modelDownloadId := modelId.truncated 40 }
      pure true
    else pure false

/-- A request that cannot be relayed counts as the worker's death. -/
def relayModelRequest (request : CString) : SenderM Unit := do
  if ← sendModelRequest request then pure ()
  else die

/-- Tell a session of the translation settings; `false` if that failed. -/
def relayTranslation : SenderM Bool := do
  let s ← get
  if s.client.isSome && s.sessionActive then
    if ← sendTranslation then pure true
    else do
      let s ← get
      onlyIf (s.capabilities &&& capabilityTranslation ≠ 0) die
      pure false
  else pure true

/-- The first snapshot. -/
def takeSnapshot (t : Round) : SenderM Unit := do
  modify fun s => { s with cfg := { t.config.snapshot with valid := false } }
  if ← relayTranslation then pure ()
  else modify fun s => { s with cfg := { s.cfg with translateEnabled := false } }
  modify fun s => { s with lastConfigPollUs := t.cfgNowUs, cfg := { s.cfg with valid := true } }
  let s ← get
  onlyIf (s.cfg.modelDownload.val ≠ []) (relayModelRequest s.cfg.modelDownload)

/-- The model path to launch with: one that does not fit is not taken over. -/
def newModelPath (old : CString) (modelPath : Option CString) : CString :=
  match modelPath with
  | some path => if pathMaxBytes ≤ path.val.length then old else path
  | none => old

/-- Other settings need another worker. -/
def respawnForConfig (t : Round) : SenderM Unit := do
  let s ← get
  onlyIf (!s.respawnInProgress) do
    modify fun s => { s with respawnInProgress := true, cfg := s.cfg.withWorker t.config
                             modelPath := newModelPath s.modelPath t.config.modelPath
                             lastCfgRespawnAttemptUs := t.cfgRespawnAtUs }
    let s ← get
    let _ ← respawnWorker t.cfgRespawn s.paused false
    modify fun s => { s with respawnInProgress := false }

/-- Compare the settings with the snapshot. -/
def compareSnapshot (t : Round) : SenderM Unit := do
  let s ← get
  let c := t.config
  let differs := s.cfg.differs c
  onlyIf (s.cfg.translationDiffers c) do
    modify fun s => { s with cfg := s.cfg.withTranslation c }
    let _ ← relayTranslation
    pure ()
  let request := orDefault .empty c.modelDownload
  onlyIf (request ≠ s.cfg.modelDownload) do
    if request.val ≠ [] then relayModelRequest request
    else modify fun s => { s with cfg := { s.cfg with modelDownload := request.truncated 40 } }
  onlyIf differs (respawnForConfig t)

/-- The settings are read in the first round, then every two seconds. -/
def pollConfig (t : Round) : SenderM Unit := do
  let s ← get
  if !s.cfg.valid then takeSnapshot t
  else if 2000000 ≤ t.cfgNowUs - s.lastConfigPollUs then do
    modify fun s => { s with lastConfigPollUs := t.cfgNowUs }
    onlyIf (!s.respawnInProgress) (compareSnapshot t)
  else pure ()

/-! ## The input -/

/-- `VW_INPUT_JUMP_DISCONTINUITY_US` and `VW_PTS_JUMP_THRESHOLD_US`. -/
def inputJumpDiscontinuityUs : Int64 := 5000000
def ptsJumpThresholdUs : Int64 := 500000

/-- The item's URI in the form that is compared: empty if the worker may not open it. -/
def normalizedUri (uri : CString) : CString :=
  if uri.val.length < maxSourceUrlBytes && isLocalSource uri then uri else .empty

/-- Another item plays: restart the session for it. -/
def swapMedia (url : CString) : SenderM Unit := do
  modify fun s => { s with lastSourceSeekUs := -1, previewPending := false }
  blank
  let _ ← perform (.stopSession ctrlReasonMediaEnd)
  modify fun s => { s with activeSourceUrl := url }
  let started ← startSession (if url.val = [] then none else some url)
  onlyIf started (modify fun s => { s with lastPositionUs := -1, pausedPositionUs := -1 })

/-- Look for another item: only a worker that has source mode is told. -/
def detectMediaSwap (input : Option Input) : SenderM Unit := do
  let s ← get
  match input.bind (·.uri) with
  | some uri =>
    onlyIf (s.capabilities &&& capabilitySourceMode ≠ 0 && normalizedUri uri ≠ s.activeSourceUrl)
      (swapMedia (normalizedUri uri))
  | none => pure ()

def pausedFlags (paused : Bool) : UInt32 := if paused then positionFlagPaused else 0

/-- Tell the worker the position, if there is one; `false` if that failed. -/
def pace (positionUs : Int64) (playbackRate : Binary32) (paused : Bool) : SenderM Bool := do
  let s ← get
  if 0 ≤ positionUs && s.sessionActive then do
    modify fun s => { s with currentPositionUs := positionUs }
    if ← perform (.sendPosition positionUs positionUs playbackRate (pausedFlags paused)) then pure true
    else do
      die
      pure false
  else pure true

/-- The position, anchored anew if the rate has changed; `false` if the worker could not be told. -/
def follow (t : Round) (positionUs : Int64) (playbackRate : Binary32) (paused : Bool) : SenderM Bool := do
  if t.rateChanged then do
    blank
    modify fun s => { s with lastSourceSeekUs := -1 }
    let ok ← pace positionUs playbackRate paused
    modify fun s => { s with lastPlaybackRate := playbackRate }
    pure ok
  else pace positionUs playbackRate paused

/-- A seek to `positionUs` was seen. -/
def signalSeek (positionUs : Int64) : SenderM Unit :=
  modify fun s => { s with discontinuityPending := true, resumePtsUs := positionUs }

/-- The position at the pause against the position now. -/
def detectPausedSeek (nowPaused : Bool) (positionUs : Int64) : SenderM Unit := do
  let s ← get
  if nowPaused ≠ s.paused then
    if nowPaused then modify fun s => { s with pausedPositionUs := if 0 ≤ positionUs then positionUs else -1 }
    else do
      onlyIf (0 ≤ s.pausedPositionUs && 0 ≤ positionUs &&
        (inputJumpDiscontinuityUs ≤ positionUs - s.pausedPositionUs ||
          ptsJumpThresholdUs < s.pausedPositionUs - positionUs)) (signalSeek positionUs)
      modify fun s => { s with pausedPositionUs := -1 }
  else
    onlyIf (nowPaused && 0 ≤ positionUs && s.pausedPositionUs < 0)
      (modify fun s => { s with pausedPositionUs := positionUs })

/-- The position of the last poll against the position now. -/
def detectSeek (t : Round) (nowPaused : Bool) (positionUs : Int64) : SenderM Unit := do
  let s ← get
  let known := 0 ≤ positionUs && 0 ≤ s.lastPositionUs
  let forward := known && t.seekThresholdUs ≤ positionUs - s.lastPositionUs
  let backward := known && ptsJumpThresholdUs < s.lastPositionUs - positionUs
  let pausedSeek := nowPaused && 0 ≤ s.pausedPositionUs && 0 ≤ positionUs &&
    (ptsJumpThresholdUs < positionUs - s.pausedPositionUs || ptsJumpThresholdUs < s.pausedPositionUs - positionUs)
  onlyIf (forward || backward || pausedSeek) do
    signalSeek positionUs
    onlyIf pausedSeek (modify fun s => { s with pausedPositionUs := positionUs })
  onlyIf (0 ≤ positionUs) (modify fun s => { s with lastPositionUs := positionUs })

/-- What a poll of the input found. -/
structure Polled where
  nowPaused : Bool
  sourcePausePreview : Bool
  positionUs : Int64

/-- Every 100 ms; `none` if the worker died. -/
def pollInput (t : Round) : SenderM (Option Polled) := do
  let s ← get
  if 100000 ≤ t.nowUs - s.lastPausePollUs then do
    modify fun s => { s with lastPausePollUs := t.nowUs }
    let nowPaused := t.input.any (·.paused)
    let playbackRate := (t.input.bind (·.rate)).getD .one
    detectMediaSwap t.input
    let positionUs := (t.input.bind (·.positionUs)).getD (-1)
    let s ← get
    let preview := nowPaused && t.showPaused && s.sourceModeActive
    if ← follow t positionUs playbackRate (nowPaused && !preview) then do
      detectPausedSeek nowPaused positionUs
      detectSeek t nowPaused positionUs
      pure (some ⟨nowPaused, preview, positionUs⟩)
    else pure none
  else pure (some ⟨s.paused, s.paused && t.showPaused && s.sourceModeActive, -1⟩)

/-- Playing and paused: a pause in source mode may keep its cue and look ahead. -/
def followPause (p : Polled) : SenderM Unit := do
  let s ← get
  onlyIf (p.nowPaused ≠ s.paused) do
    if p.nowPaused then
      if p.sourcePausePreview then
        onlyIf (0 ≤ p.positionUs) do
          modify fun s => { s with currentPositionUs := p.positionUs }
          signalSeek p.positionUs
      else do
        blank
        let _ ← perform .pauseSession
        pure ()
    else do
      modify fun s => { s with previewPending := false }
      blank
      let _ ← perform .resumeSession
      pure ()
    modify fun s => { s with paused := p.nowPaused }

/-! ## Seeks -/

/-- A live seek: STOP the epoch and START another. -/
def restartLive (seekTargetUs : Int64) : SenderM Unit := do
  let _ ← perform (.stopSession ctrlReasonSeekDiscontinuity)
  modify fun s => { s with lastPositionUs := -1, pausedPositionUs := -1, lastSourceSeekUs := -1
                           currentPositionUs := if 0 ≤ seekTargetUs then seekTargetUs else s.currentPositionUs }
  if ← startSession none then do
    let _ ← sendTranslation
    let s ← get
    onlyIf (0 ≤ seekTargetUs) do
      let _ ← perform (.sendPosition seekTargetUs seekTargetUs s.lastPlaybackRate (pausedFlags s.paused))
      pure ()
  else pure ()

/-- A source seek: the client restarts the session. Without a target there is none. -/
def seekSource (seekTargetUs : Int64) (preview : Bool) : SenderM Unit := do
  onlyIf (0 ≤ seekTargetUs) do
    modify fun s => { s with lastSourceSeekUs := seekTargetUs }
    let s ← get
    if ← perform (.sendPosition seekTargetUs seekTargetUs s.lastPlaybackRate
        (positionFlagSeek ||| pausedFlags (s.paused && !preview))) then pure ()
    else die

/-- A discontinuity that the poll or the audio callback has flagged. -/
def followSeek (t : Round) : SenderM Unit := do
  let s ← get
  onlyIf (s.discontinuityPending || t.discontinuity) do
    let seekTargetUs := if 0 ≤ s.currentPositionUs then s.currentPositionUs else s.resumePtsUs
    let preview := s.paused && s.sourceModeActive && t.showPaused
    modify fun s => { s with discontinuityPending := false }
    if preview then modify fun s => { s with previewPending := true }
    else do
      blank
      modify fun s => { s with previewPending := false }
    if s.sourceModeActive then seekSource seekTargetUs preview else restartLive seekTargetUs

/-! ## Audio and frames -/

/-- Forward the captured audio; without a live session that plays it is dropped. Gives whether any was sent. -/
def sendBurst (forwards : Bool) : Bool → List AudioChunk → SenderM Bool
  | sentAny, [] => pure sentAny
  | sentAny, chunk :: chunks => do
    if forwards then
      if ← perform (.sendAudio chunk) then sendBurst forwards true chunks
      else do
        die
        pure sentAny
    else sendBurst forwards sentAny chunks

/-- A cue has come: one of another session, or from before a source seek, is dropped. -/
def onSegment (t : Round) (isSourceMode : Bool) (segment : CaptionSegment) : SenderM Unit := do
  let s ← get
  if s.client.map (·.client.sessionId) ≠ some segment.sessionId then pure ()
  else if isSourceMode && 0 ≤ s.lastSourceSeekUs && segment.startPtsUs < s.lastSourceSeekUs then pure ()
  else if !s.paused then do
    record (.handed segment)
    present (·.showSegment t.minMediaFloorUs segment s.currentPositionUs isSourceMode)
  else if isSourceMode && t.showPaused && s.previewPending then do
    modify fun s => { s with previewPending := false }
    record (.handed segment)
    present (·.showPaused segment)
  else pure ()

/-- MODEL_PROGRESS: a model that the user asked for is activated once it is there. -/
def onModelProgress (t : Round) (progress : ModelProgress) : SenderM Unit := do
  onlyIf (progress.stage = modelStageFailed) (modify fun s => { s with modelDownloadId := .empty })
  let s ← get
  onlyIf (progress.stage = modelStageDone && s.modelDownloadId = .ofArray progress.modelId) do
    modify fun s => { s with modelDownloadId := .empty }
    let _ ← activateDownloadedModel t (.ofArray progress.modelId)
    pure ()

def onPayload (t : Round) (isSourceMode : Bool) : Payload → SenderM Unit
  | .captionSegment segment => onSegment t isSourceMode segment
  | .modelProgress progress => onModelProgress t progress
  | .error err => onlyIf (err.recoverable = 0) die
  | _ => pure ()

/-- One frame of the worker; `false` if the transport is gone. -/
def takeFrame (t : Round) (isSourceMode sentAny : Bool) : SenderM Bool := do
  match ← receiveFrame (if sentAny then 5000 else 20000) with
  | (.fatal, _) => do
    die
    modify fun s => { s with modelDownloadId := .empty }
    pure false
  | (.ok, some p) => do
    onPayload t isSourceMode p
    pure true
  | _ => pure true

/-- The cue that is held back is due. -/
def flushPending (t : Round) (isSourceMode : Bool) : SenderM Unit := do
  let s ← get
  match s.presenter.pending with
  | some cue =>
    onlyIf (!s.paused && (!isSourceMode || s.currentPositionUs < 0 ||
        cue.segment.startPtsUs ≤ s.currentPositionUs + 100000))
      (present (·.flush t.minMediaFloorUs s.currentPositionUs isSourceMode))
  | none => pure ()

/-! ## The loop -/

/-- Audio out, frames in. -/
def serve (t : Round) : SenderM Unit := do
  let s ← get
  let isSourceMode := s.sourceModeActive
  let sentAny ← sendBurst (!s.paused && !isSourceMode && s.sessionActive) false t.chunks
  let s ← get
  if s.workerDead then pure ()
  else if ← takeFrame t isSourceMode sentAny then flushPending t isSourceMode
  else pure ()

/-- Without a worker the loop idles, and tries to launch one every ten seconds. -/
def idle (t : Round) : SenderM Unit := do
  let s ← get
  onlyIf (10000000 ≤ t.idleNowUs - s.lastCfgRespawnAttemptUs) do
    modify fun s => { s with lastCfgRespawnAttemptUs := t.idleNowUs }
    let _ ← respawnWorker t.retry s.paused false
    pure ()

/-- With a worker. -/
def attend (t : Round) : SenderM Unit := do
  match ← pollInput t with
  | none => pure ()
  | some p => do
    followPause p
    followSeek t
    serve t

/-- The dead worker is replaced, if the budget allows; `false` if not. -/
def recover (t : Round) : SenderM Bool := do
  let s ← get
  if ← respawnWorker t.recovery s.paused true then do
    modify fun s => { s with lastSourceSeekUs := -1 }
    pure true
  else pure false

/-- A round of the loop of `vw_plugin_sender_main`; `false` ends it. -/
def round (t : Round) : SenderM Bool := do
  pollConfig t
  let s ← get
  if s.workerDead then recover t
  else if s.client.isNone then do
    idle t
    pure true
  else do
    attend t
    pure true

/-- The state after a round; nothing happens once the loop has ended. -/
def step (s : Sender) (t : Round) : Sender :=
  if s.ended then s
  else
    let res := (round t).run s
    { res.2 with ended := !res.1 }

/-- The state that `vw_plugin_open` leaves. -/
def opened (launch : Launch) (modelPath : CString) (authToken : CArray authTokenBytes) : Sender where
  client := launchWithAutoRetry authToken launch
  presenter := ⟨none⟩
  authToken := authToken
  workerDead := false
  discontinuityPending := false
  resumePtsUs := -1
  sourceModeActive := false
  sessionActive := false
  previewPending := false
  respawnCount := 0
  modelPath := modelPath
  activeSourceUrl := .empty
  cfg := { valid := false, workerPath := .empty, modelPath := .empty, backend := .empty, language := .empty
           modelDownload := .empty, threads := 4, logging := false, translateEnabled := false
           translateFrom := .empty, translateTo := .empty, translateMode := 0 }
  modelDownloadId := .empty
  respawnInProgress := false
  lastConfigPollUs := 0
  lastCfgRespawnAttemptUs := 0
  paused := false
  lastPausePollUs := 0
  lastPositionUs := -1
  pausedPositionUs := -1
  currentPositionUs := -1
  lastPlaybackRate := .one
  lastSourceSeekUs := -1
  ended := false
  log := []

/-- What comes before the loop: the session of the media that plays. -/
def begin (uri : Option CString) : SenderM Unit := do
  let s ← get
  let url := s.sourceUrl uri
  modify fun s => { s with activeSourceUrl := (url.getD .empty).truncated pathMaxBytes }
  let _ ← startSession url
  pure ()

/-- The thread at the head of its loop. -/
def start (launch : Launch) (modelPath : CString) (authToken : CArray authTokenBytes) : Sender :=
  ((begin launch.uri).run (opened launch modelPath authToken)).2

end Sender

end VlcWhisper.Plugin
