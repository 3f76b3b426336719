import VlcWhisper.Lib.Program
import VlcWhisper.Worker.AudioBuffer
import VlcWhisper.Worker.CaptionWire
import VlcWhisper.Worker.Vad

/-!
# The state of the worker's main loop (`vw_worker.c`)

The locals of `vw_worker_run` and what it calls out to. Whatever the loop does not decide itself is answered by an
environment `Env`: the pipe, the reader thread, the translator's threads, the speech model, the VAD, the source
decoder, the model download, memory and clocks. A call takes the next answer, so the environment can answer every
call as it likes.

A buffered sample is kept as the session whose audio it is. `trace`, `writes` and `calls` are histories the program
never reads.
-/

namespace VlcWhisper.Worker

open VlcWhisper.Lib VlcWhisper.Protocol SegmentBuilder

def lookaheadChunkSamples : Nat := 32000
def lookaheadBufferSamples : Nat := 960000
def liveStartupSamples : Nat := 32000
def windowSamples : Nat := 128000
def liveHopSamples : Nat := 16000
def localFallbackHopSamples : Nat := 32000
def liveEdgeHoldbackUs : Int := 500000
def leadTargetUs : Int := 30000000

/-! ## Environment -/

/-- A step of a translator thread. -/
inductive ThreadStep where
  | take
  | complete (i : Nat) (o : Outcome)

/-- `vw_whisper_segment_t`, its times relative to the window; `silent` says that the probability of no speech is at
least 0.60. -/
structure WhisperSegment where
  t0Us : Int
  t1Us : Int
  silent : Bool
  text : Bytes

/-- `vw_source_decoder_read_status_t` with the number of samples read and their time, -1 if it is not known. -/
inductive SourceRead where
  | ok (samples : Nat) (ptsUs : Int)
  | again
  | eof
  | error

/-- `vw_download_progress_t`. -/
structure DownloadProgress where
  stage : UInt8
  pct : UInt8
  bytesDone : UInt64
  bytesTotal : UInt64
  modelId : Bytes

/-- The answers; each takes the number of the call. -/
structure Env where
  ipcSend : Nat → Bool
  /-- The reader thread lost the pipe by now. -/
  readerFailed : Nat → Bool
  /-- What the threads did since the translator was last locked. -/
  threads : Nat → List ThreadStep
  /-- How often the drain looks at the translator before it is done, if it ever is. -/
  drainPolls : Nat → Nat
  /-- The allocations of each hypothesis of a transcription. -/
  memory : Nat → Nat → Site → Alloc
  knownLanguage : Bytes → Bool
  transcribe : Nat → Option (List WhisperSegment)
  detectSpeech : Nat → Bool
  speech : Nat → Speech
  openSource : Nat → Bool
  seekSource : Nat → Bool
  readSource : Nat → SourceRead
  startDownload : Nat → Bool
  pollDownload : Nat → Option DownloadProgress
  monotonicTimeUs : Nat → Int
  totalInferenceUs : Nat → UInt64
  queuedAudioUs : Nat → UInt64
  droppedAudioUs : Nat → UInt64
  gpuActive : Bool

/-- What the loop reads of `vw_worker_config_t`; `dlDirReady` says that there is a download directory. -/
structure Config where
  authToken : CArray authTokenBytes
  cpuBackend : Bool
  dlDirReady : Bool

/-! ## State -/

/-- What invalidated the translator. New settings drop the cues that wait. -/
inductive Reset where
  | start | pause | resume | seek | stop | readError
  | translateCtrl (waiting : List Cue)
  deriving DecidableEq

/-- What happened, in the order it did. -/
inductive Event where
  /-- A frame was written that is no caption. -/
  | frame (sequence : UInt64) (p : Payload)
  | caption (sequence : UInt64) (c : Caption)
  /-- A caption could not be written. -/
  | lost (c : Caption)
  | started (id : SessionId)
  | ended
  /-- The audio of a window was transcribed into these cues. -/
  | heard (window : List SessionId) (cues : List Cue)
  | popped (cue : Cue)
  /-- A cue was offered to the translator while that had this load. -/
  | offered (load : Nat) (cue : Cue)
  | invalidated (why : Reset)
  /-- A drain found nothing more to wait for. -/
  | drained

/-- How an attempt to write ended: the pipe took the header or payload, or it did not, or the frame does not fit its
buffer. -/
inductive Write where
  | sent
  | failed
  | unencoded
  deriving DecidableEq

/-- What the loop calls to hear something, or to fetch a model. -/
inductive Service where
  | openSource | readSource | vad | whisper | download
  deriving DecidableEq

/-- A call of a service, with what was known of the client and the session when it was made. -/
structure ServiceCall where
  service : Service
  authenticated : Bool
  sessionActive : Bool
  paused : Bool
  deriving DecidableEq

/-- `vw_worker_translation_transport_state_t`: whether the pipe is registered, and whether a diagnostic write to it
failed. -/
structure Transport where
  registered : Bool
  failed : Bool

/-- The locals of `vw_worker_run`. The VAD's state is the windows it was given since its last reset, a source decoder
is the session it was opened for. `finished` says that the loop was left, or that a drain never ends. -/
structure WorkerState where
  running : Bool
  fatalExit : Bool
  finished : Bool
  authenticated : Bool
  engine : Bool
  audioBuf : AudioBuffer SessionId lookaheadBufferSamples
  vad : List (List SessionId)
  builder : SegmentBuilder
  translator : Option TranslateAsync
  transport : Transport
  sessionId : SessionId
  sessionActive : Bool
  paused : Bool
  liveProgressiveMode : Bool
  liveNextInferenceSamples : Nat
  sequence : UInt64
  sourceDecoder : Option SessionId
  sourceMode : Bool
  sourceEof : Bool
  seekFailedPending : Bool
  currentPlaybackPtsUs : Int
  lastPlaybackPtsUs : Int
  decodedPtsUs : Int
  translateEnabled : Bool
  translateSrcLang : Bytes
  translateDstLang : Bytes
  translateMode : UInt8
  modelDl : Bool
  lastStage : Option UInt8
  lastProgressSendUs : Int
  tick : Nat
  trace : List Event
  writes : List Write
  calls : List ServiceCall

/-- Before the first frame; the model may not have loaded, and there may be no translator. -/
def WorkerState.start (engine translator : Bool) : WorkerState where
  running := true
  fatalExit := false
  finished := false
  authenticated := false
  engine := engine
  audioBuf := .create lookaheadBufferSamples (by decide) (.zero _)
  vad := []
  builder := .create
  translator := if translator then some .create else none
  transport := ⟨false, false⟩
  sessionId := .zero _
  sessionActive := false
  paused := false
  liveProgressiveMode := false
  liveNextInferenceSamples := windowSamples
  sequence := 1
  sourceDecoder := none
  sourceMode := false
  sourceEof := false
  seekFailedPending := false
  currentPlaybackPtsUs := 0
  lastPlaybackPtsUs := -1
  decodedPtsUs := 0
  translateEnabled := false
  translateSrcLang := ascii "auto"
  translateDstLang := ascii "en"
  translateMode := 1
  modelDl := false
  lastStage := none
  lastProgressSendUs := 0
  tick := 0
  trace := []
  writes := []
  calls := []

/-! ## Basic actions -/

/-- A statement of the main loop. -/
abbrev Loop : Type → Type := StateM WorkerState

/-- The environment's next answer. -/
def ask {α : Type} (answer : Nat → α) : Loop α := fun w => (answer w.tick, { w with tick := w.tick + 1 })

/-- A call of the given service. -/
def WorkerState.serviceCall (w : WorkerState) (service : Service) : ServiceCall where
  service := service
  authenticated := w.authenticated
  sessionActive := w.sessionActive
  paused := w.paused

/-- The next answer of a service. -/
def call {α : Type} (service : Service) (answer : Nat → α) : Loop α :=
  fun w => (answer w.tick, { w with tick := w.tick + 1, calls := w.calls ++ [w.serviceCall service] })

/-- The VAD's next answer, for a window that it remembers. -/
def detect {α : Type} (window : List SessionId) (answer : Nat → α) : Loop α :=
  fun w => (answer w.tick, { w with tick := w.tick + 1, vad := w.vad ++ [window]
                                    calls := w.calls ++ [w.serviceCall .vad] })

def recordWrite (write : Write) : Loop Unit := modify fun w => { w with writes := w.writes ++ [write] }

def record (events : List Event) : Loop Unit := modify fun w => { w with trace := w.trace ++ events }

/-- `running` is false from now on; the worker exits with an error if `fatal`. -/
def stopRunning (fatal : Bool) : Loop Unit :=
  modify fun w => { w with running := false, fatalExit := w.fatalExit || fatal }

/-- Only `fatal_exit` is set, as before a `break` out of the loop. -/
def setFatalExit : Loop Unit := modify fun w => { w with fatalExit := true }

/-- A failed write ends the worker. -/
def orFatal (send : Loop Bool) : Loop Unit := do
  let sent ← send
  onlyIf (!sent) (stopRunning true)

/-- Load `running`, which the reader thread may have cleared. -/
def loadRunning (env : Env) : Loop Bool := do
  let failed ← ask env.readerFailed
  onlyIf failed (stopRunning true)
  let w ← get
  pure w.running

/-! ## Sending -/

/-- `vw_worker_translation_diag_guarded_ipc_send`. -/
def guardedIpcSend (env : Env) : Loop Bool := do
  let w ← get
  if w.transport.registered && w.transport.failed then pure false
  else do
    let sent ← ask env.ipcSend
    recordWrite (if sent then .sent else .failed)
    pure sent

/-- Encode a payload, number the frame, write header and payload; `event` records the frame. -/
def sendFrame (env : Env) (bufferSize : Nat) (p : Payload) (event : UInt64 → Event) : Loop Bool :=
  match encodePayload p bufferSize with
  | none => do
    recordWrite .unencoded
    pure false
  | some _ => do
    modify fun w => { w with sequence := w.sequence + 1 }
    let header ← guardedIpcSend env
    if header then do
      let payload ← guardedIpcSend env
      let w ← get
      onlyIf payload (record [event w.sequence])
      pure payload
    else pure false

/-- Send a frame that is no caption. -/
def sendPayload (env : Env) (bufferSize : Nat) (p : Payload) : Loop Bool :=
  sendFrame env bufferSize p fun sequence => .frame sequence p

/-- `send_error`. -/
def sendError (env : Env) (sessionId : SessionId) (code : UInt32) (recoverable : UInt8) (message : Bytes) :
    Loop Bool :=
  sendPayload env 512 (.error ⟨sessionId, code, recoverable, .ofStr maxErrorMsgBytes message⟩)

/-- `vw_worker_send_model_progress`. -/
def sendModelProgress (env : Env) (sessionId : SessionId) (p : DownloadProgress) : Loop Bool :=
  sendPayload env 66
    (.modelProgress ⟨sessionId, p.stage, p.pct, p.bytesDone, p.bytesTotal, .ofStr 32 p.modelId⟩)

def sessionStateIdle : UInt32 := 0
def sessionStatePlaying : UInt32 := 1
def sessionStatePaused : UInt32 := 2

/-- `vw_worker_send_status`. -/
def sendStatus (env : Env) (config : Config) (sessionId : SessionId) (sessionActive paused : Bool) : Loop Bool := do
  let queued ← ask env.queuedAudioUs
  let inference ← ask env.totalInferenceUs
  let dropped ← ask env.droppedAudioUs
  let w ← get
  let queuedAudioUs := queued + .ofNat (w.audioBuf.count * 1000000 / sampleRate)
  sendPayload env 64 (.status
    { sessionId
      state := if !sessionActive then sessionStateIdle else if paused then sessionStatePaused else sessionStatePlaying
      queuedAudioUs := queuedAudioUs.toInt64
      inferenceUs := if w.engine then inference.toInt64 else 0
      droppedAudioUs := dropped.toInt64
      resolvedBackend := .ofStr 16 (ascii (if config.cpuBackend || !w.engine || !env.gpuActive then "cpu" else "gpu")) })

/-- Send the current session's status, or end the worker. -/
def reportStatus (env : Env) (config : Config) : Loop Unit := do
  let w ← get
  orFatal (sendStatus env config w.sessionId w.sessionActive w.paused)

/-- `vw_worker_send_caption_segment`. -/
def sendCaptionSegment (env : Env) (c : Caption) : Loop Bool := do
  let sent ← sendFrame env captionBufferBytes (.captionSegment c.payload) fun sequence => .caption sequence c
  onlyIf (!sent) (record [.lost c])
  pure sent

/-! ## The translator -/

def TranslateAsync.threadStep (t : TranslateAsync) : ThreadStep → TranslateAsync
  | .take => t.take
  | .complete i o => t.complete i o

/-- The translator's threads run until its lock is free. -/
def runThreads (env : Env) : Loop Unit := do
  let steps ← ask env.threads
  modify fun w => { w with translator := w.translator.map fun t => steps.foldl TranslateAsync.threadStep t }

/-- `vw_translate_async_invalidate`, if there is a translator. -/
def WorkerState.invalidate (why : Reset) (w : WorkerState) : WorkerState :=
  { w with translator := w.translator.map TranslateAsync.invalidate, trace := w.trace ++ [.invalidated why] }

/-- The cues that wait in the translator, if there is one. -/
def waitingCues (translator : Option TranslateAsync) : List Cue := (translator.map TranslateAsync.waiting).getD []

/-- `vw_translate_async_has_pending`. -/
def WorkerState.hasPending (w : WorkerState) : Bool := w.translator.any TranslateAsync.hasPending

/-- `vw_translate_async_has_result`. -/
def WorkerState.hasResult (w : WorkerState) : Bool := w.translator.any TranslateAsync.hasResult

/-- `vw_worker_translation_diag_mark_transport_failed`. -/
def markTransportFailed : Loop Unit := do
  modify fun w => { w with transport := { w.transport with failed := true } }
  let w ← get
  onlyIf w.transport.registered (stopRunning true)

end VlcWhisper.Worker
