import VlcWhisper.Worker.FrameQueue
import VlcWhisper.Worker.WorkerActions

/-!
# The worker's main loop (`vw_worker.c`)

`vw_worker_run` from its first look at the frame queue on. Each step of the machine (`wake`) is one round of the main
loop: it takes a frame off the queue, or none if something else woke it, and handles it, delivers translations, polls
the model download, decodes ahead, and emits what was recognised.

The frames are any frames at all: which of them the reader thread queues or drops is not modelled here.
-/

namespace VlcWhisper.Worker

open VlcWhisper.Lib VlcWhisper.Protocol SegmentBuilder

/-! ## START_SESSION -/

/-- A START with another id ends the session before anything else of it is checked. -/
def WorkerState.replaceSession (w : WorkerState) : WorkerState :=
  { w with sourceDecoder := none, audioBuf := w.audioBuf.clear, liveProgressiveMode := false
           liveNextInferenceSamples := windowSamples, builder := popAll w.builder.queue.count w.builder
           vad := [], sessionActive := false, trace := w.trace ++ [.ended] }

/-- The new session's state, before its source is opened. -/
def WorkerState.beginSession (p : Start) (w : WorkerState) : WorkerState :=
  let live := p.sourceKind = sourceLiveAudio
  { w with sessionId := p.sessionId, sessionActive := true, paused := false, liveProgressiveMode := live
           liveNextInferenceSamples := if live then liveStartupSamples else windowSamples
           sourceEof := false, seekFailedPending := false
           currentPlaybackPtsUs := p.timelineOriginPtsUs.toInt, lastPlaybackPtsUs := -1
           decodedPtsUs := p.timelineOriginPtsUs.toInt
           audioBuf := w.audioBuf.clear, builder := w.builder.clear, vad := []
           translator := w.translator.map TranslateAsync.invalidate
           sourceDecoder := none, sourceMode := w.sourceMode && w.sourceDecoder.isNone
           trace := w.trace ++ [.invalidated .start, .started p.sessionId] }

/-- Open the session's source, if it has one; `false` if the client cannot be told that this failed. -/
def openSource (env : Env) (p : Start) : Loop Bool := do
  if 0 < p.sourceUrlLen && p.sourceUrl.str != [] then do
    let opened ← call .openSource env.openSource
    if opened then do
      let origin := p.timelineOriginPtsUs.toInt
      modify fun w => { w with sourceDecoder := some p.sessionId, sourceMode := true, sourceEof := false
                               currentPlaybackPtsUs := origin, lastPlaybackPtsUs := origin, decodedPtsUs := origin }
      onlyIf (0 < origin) do
        let seeked ← ask env.seekSource
        onlyIf (!seeked) (modify fun w => { w with sourceDecoder := none, sourceMode := false })
      pure true
    else do
      modify fun w => { w with sourceMode := false, sourceEof := false }
      let sent ← sendError env p.sessionId eSourceOpen 1
        (ascii "Failed to open source MRL; falling back to live PCM stream")
      onlyIf (!sent) (stopRunning true)
      pure sent
  else do
    modify fun w => { w with sourceMode := false, sourceEof := false }
    pure true

/-- `vw_whisper_engine_set_language`. -/
def setLanguage (env : Env) (language : Bytes) : Bool :=
  language != [] && language != autoCode && language.length < 16 && env.knownLanguage language

def handleStart (env : Env) (config : Config) (p : Start) : Loop Unit := do
  let w ← get
  if w.sessionActive && w.sessionId = p.sessionId then
    orFatal (sendError env w.sessionId eInternal 1 (ascii "Session already active"))
  else do
    onlyIf w.sessionActive (modify WorkerState.replaceSession)
    if p.sampleRate ≠ 16000 then
      orFatal (sendError env p.sessionId eAudioFormat 1 (ascii "Unsupported sample rate (expected 16000)"))
    else if !w.engine then
      orFatal (sendError env p.sessionId eModelMissing 0 (ascii "Whisper model file missing or invalid"))
    else if !setLanguage env p.language.str then
      orFatal (sendError env p.sessionId eInternal 1 (ascii "Invalid session transcription language"))
    else do
      modify (WorkerState.beginSession p)
      let goOn ← openSource env p
      onlyIf goOn do
        let w ← get
        let started ← sendPayload env 17
          (.started ⟨p.sessionId, if w.sourceMode then sourceActiveActive else sourceActiveInactive⟩)
        if started then reportStatus env config else stopRunning true

/-! ## POSITION -/

/-- Go on at a time of the source, without what was recognised before. -/
def WorkerState.reanchor (ptsUs : Int) (w : WorkerState) : WorkerState :=
  { w with currentPlaybackPtsUs := ptsUs, decodedPtsUs := ptsUs, sourceEof := false }.clearPipeline

def isPausedFlag (p : Position) : Bool := p.flags &&& positionFlagPaused ≠ 0

def isSeekFlag (p : Position) : Bool := p.flags &&& positionFlagSeek ≠ 0

/-- A session that is paused forgets its audio; one that goes on seeks its source. -/
def changePause (env : Env) (p : Position) : Loop Unit := do
  modify fun w => { w with paused := isPausedFlag p }
  let w ← get
  if isPausedFlag p then modify WorkerState.clearPipeline
  else
    onlyIf (w.sourceMode && w.sourceDecoder.isSome && 0 ≤ p.currentPtsUs.toInt) do
      let seeked ← ask env.seekSource
      let requested := p.currentPtsUs.toInt
      onlyIf seeked (modify fun w => { w with lastPlaybackPtsUs := requested }.reanchor requested)

/-- The position says paused where the session is not, or the other way round; `false` if the client cannot be told. -/
def followPause (env : Env) (config : Config) (p : Position) : Loop Bool := do
  let w ← get
  if isPausedFlag p = w.paused then pure true
  else do
    changePause env p
    let w ← get
    let sent ← sendStatus env config w.sessionId w.sessionActive w.paused
    onlyIf (!sent) (stopRunning true)
    pure sent

/-- The source has to be sought: the flag says so, or the position jumped and that was not yet tried. -/
def requiresSeek (w : WorkerState) (p : Position) : Bool :=
  let requested := p.currentPtsUs.toInt
  let backwardJump := 0 ≤ w.lastPlaybackPtsUs && requested < saturatingSubI64 w.lastPlaybackPtsUs 500000
  let forwardPastDecoded := saturatingAddI64 w.decodedPtsUs 1000000 < requested
  isSeekFlag p ||
    ((backwardJump || forwardPastDecoded) && requested != w.lastPlaybackPtsUs && !w.seekFailedPending)

/-- Seek the source to the position. -/
def seekTo (env : Env) (p : Position) : Loop Unit := do
  let seeked ← ask env.seekSource
  if !seeked then modify fun w => { w with seekFailedPending := !isSeekFlag p }
  else modify fun w => ({ w with seekFailedPending := false }.invalidate .seek).reanchor p.currentPtsUs.toInt

/-- Follow the position in a source. -/
def followSource (env : Env) (p : Position) : Loop Unit := do
  let w ← get
  let seeks := requiresSeek w p
  onlyIf seeks (seekTo env p)
  let w ← get
  let requested := p.currentPtsUs.toInt
  onlyIf (!seeks || w.currentPlaybackPtsUs = requested)
    (modify fun w => { w with currentPlaybackPtsUs := requested, lastPlaybackPtsUs := requested })

def handlePosition (env : Env) (config : Config) (p : Position) : Loop Unit := do
  let w ← get
  onlyIf (w.sessionActive && p.sessionId = w.sessionId) do
    let goOn ← followPause env config p
    onlyIf goOn do
      let w ← get
      if w.sourceMode && w.sourceDecoder.isSome then followSource env p
      else modify fun w => { w with currentPlaybackPtsUs := p.currentPtsUs.toInt }

/-! ## AUDIO_PCM -/

/-- What a window of live audio leads to: nothing if there is no speech in it; `false` if the transcription fails.
The trailing segments of a window that is still growing are held back. -/
def inferWindow (env : Env) (window : List SessionId) (windowPtsUs : Int) (growing : Bool) : Loop Bool := do
  let w ← get
  if window.length = 0 || !w.engine then pure true
  else do
    let speech ← detect window env.detectSpeech
    if speech then do
      let durationUs : Int := (window.length * 1000000 / sampleRate : Nat)
      transcribeWindow env window windowPtsUs (if growing then some (durationUs - liveEdgeHoldbackUs) else none)
    else pure true

/-- A round of the window loop of an AUDIO frame. -/
def inferRound (env : Env) (config : Config) : Loop (Option Unit) := do
  let w ← get
  if w.audioBuf.count < w.liveNextInferenceSamples then pure (some ())
  else do
    let (window, windowPtsUs) := w.audioBuf.getSamples (min w.audioBuf.count windowSamples)
    let growing := w.liveProgressiveMode && window.length < windowSamples
    let inferred ← inferWindow env window windowPtsUs growing
    if !inferred then do
      let _ ← sendError env w.sessionId eInternal 0 (ascii "Whisper inference failed")
      stopRunning true
      pure (some ())
    else if growing then do
      modify fun w => { w with liveNextInferenceSamples := min (window.length + liveHopSamples) windowSamples }
      let running ← loadRunning env
      onlyIf running (reportStatus env config)
      pure (some ())
    else do
      let running ← loadRunning env
      if !running then pure (some ())
      else do
        modify fun w => { w with liveNextInferenceSamples := windowSamples }
        drainAudio (if w.liveProgressiveMode then liveHopSamples else localFallbackHopSamples)
        reportStatus env config
        pure none

/-- Append the samples of an AUDIO frame. -/
def appendPcm (p : Audio) (w : WorkerState) : WorkerState :=
  let samples := List.replicate (p.pcm.length.toNat / 2) p.sessionId
  { w with audioBuf := w.audioBuf.append samples p.startPtsUs.toInt }

def handleAudio (env : Env) (config : Config) (p : Audio) : Loop Unit := do
  let w ← get
  onlyIf (w.sessionActive && !w.paused && !w.sourceMode && p.sessionId = w.sessionId) do
    let ptsUs := p.startPtsUs.toInt
    if ptsUs < 0 || 315360000000000 < ptsUs then modify WorkerState.clearPipeline
    else
      onlyIf (2 ≤ p.pcm.length.toNat) do
        modify (appendPcm p)
        let w ← get
        let _ ← loop (w.audioBuf.count + 1) (inferRound env config)

/-! ## PAUSE, RESUME, STOP_SESSION, TRANSLATE_CTRL -/

def handlePause (env : Env) (config : Config) (p : Control) : Loop Unit := do
  let w ← get
  onlyIf (w.sessionActive && p.sessionId = w.sessionId) do
    modify fun w => { w with paused := true }.clearPipeline.invalidate .pause
    reportStatus env config

def handleResume (env : Env) (config : Config) (p : Control) : Loop Unit := do
  let w ← get
  onlyIf (w.sessionActive && p.sessionId = w.sessionId) do
    modify fun w => { w with paused := false }
    onlyIf (w.sourceMode && w.sourceDecoder.isSome && 0 ≤ w.currentPlaybackPtsUs) do
      let seeked ← ask env.seekSource
      onlyIf seeked (modify fun w =>
        ({ w with lastPlaybackPtsUs := w.currentPlaybackPtsUs }.reanchor w.currentPlaybackPtsUs).invalidate .resume)
    reportStatus env config

/-- The state after a STOP. -/
def WorkerState.endSession (w : WorkerState) : WorkerState :=
  { w with sessionActive := false, seekFailedPending := false, lastPlaybackPtsUs := -1
           sourceDecoder := none, sourceMode := w.sourceMode && w.sourceDecoder.isNone
           audioBuf := w.audioBuf.clear, liveProgressiveMode := false, liveNextInferenceSamples := windowSamples
           builder := w.builder.clear, vad := [], translator := w.translator.map TranslateAsync.invalidate
           trace := w.trace ++ [.ended, .invalidated .stop] }

/-- Recognise and emit what is left of live audio. -/
def finishTail (env : Env) (failure : Bytes) (afterwards : Loop Unit) : Loop Unit := do
  let flushed ← flushAudioTail env
  if !flushed then do
    let w ← get
    let _ ← sendError env w.sessionId eInternal 0 failure
    stopRunning true
  else do
    let sent ← emitTailSegments env
    if !sent then stopRunning true else afterwards

/-- How the main loop goes on after a frame: with the rest of the round, with the next round, not at all, or not before
a drain ends. -/
inductive Flow where
  | proceed | again | leave | hang
  deriving DecidableEq

/-- The drain of a session that ends by itself. -/
def drainIf (env : Env) (c : Bool) : Loop Bool := if c then drainTranslation env else pure true

def handleStop (env : Env) (config : Config) (p : Control) : Loop Flow := do
  let w ← get
  if p.sessionId ≠ w.sessionId then pure .proceed
  else do
    onlyIf (p.reason = ctrlReasonMediaEnd && !w.sourceMode && 0 < w.audioBuf.count)
      (finishTail env (ascii "MEDIA_END tail inference failed") (pure ()))
    let drained ← drainIf env (w.sessionActive && p.reason ≠ ctrlReasonSeekDiscontinuity)
    if !drained then pure .hang
    else do
      modify WorkerState.endSession
      let running ← loadRunning env
      onlyIf running (orFatal (sendStatus env config w.sessionId false false))
      pure .proceed

/-- The state after new translation settings. -/
def WorkerState.configureTranslation (p : TranslateCtrl) (w : WorkerState) : WorkerState :=
  { w with translateEnabled := p.enabled != 0, translateSrcLang := p.sourceLang.str.take 15
           translateDstLang := p.targetLang.str.take 15, translateMode := p.mode
           }.invalidate (.translateCtrl (waitingCues w.translator))

def handleTranslateCtrl (p : TranslateCtrl) : Loop Unit := do
  let w ← get
  onlyIf (p.sessionId = w.sessionId) (modify (WorkerState.configureTranslation p))

/-! ## MODEL_CTRL -/

/-- The ids of `kVWModelCatalogEntries`. -/
def modelCatalog : List Bytes :=
  [ascii "tiny.en", ascii "tiny", ascii "base.en", ascii "base", ascii "small", ascii "medium", ascii "large"]

def isTransferStage (stage : UInt8) : Bool :=
  stage = modelStageDownloading || stage = modelStageVerifying || stage = modelStageAborting

/-- Report a download that does not begin. -/
def refuseDownload (env : Env) (sessionId : SessionId) (modelId : Bytes) : Loop Unit :=
  orFatal (sendModelProgress env sessionId ⟨modelStageFailed, 0, 0, 0, modelId⟩)

/-- Another download is under way. -/
def isDownloading (env : Env) : Loop Bool := do
  let w ← get
  if w.modelDl then do
    let cur ← ask env.pollDownload
    pure (cur.any fun p => isTransferStage p.stage)
  else pure false

def handleModelCtrl (env : Env) (config : Config) (p : ModelCtrl) : Loop Unit := do
  let w ← get
  let progressSession := if w.sessionActive then w.sessionId else p.sessionId
  let modelId := p.modelId.str
  if p.action = modelActionDownload then
    if !modelCatalog.contains modelId || !config.dlDirReady then refuseDownload env progressSession modelId
    else do
      let active ← isDownloading env
      if active then refuseDownload env progressSession modelId
      else do
        onlyIf w.modelDl (modify fun w => { w with modelDl := false, lastStage := none })
        let started ← call .download env.startDownload
        modify fun w => { w with modelDl := started }
        onlyIf (!started) (refuseDownload env progressSession modelId)
  else
    onlyIf (p.action = modelActionAbort && !w.modelDl)
      (orFatal (sendModelProgress env progressSession ⟨modelStageIdle, 0, 0, 0, []⟩))

/-! ## SHUTDOWN, HELLO -/

def handleShutdown (env : Env) (config : Config) : Loop Flow := do
  let w ← get
  onlyIf (w.sessionActive && !w.sourceMode && 0 < w.audioBuf.count)
    (finishTail env (ascii "SHUTDOWN tail inference failed") (reportStatus env config))
  let drained ← drainIf env w.sessionActive
  if !drained then pure .hang
  else do
    modify fun w => { w with sourceDecoder := none, sourceMode := w.sourceMode && w.sourceDecoder.isNone }
    stopRunning false
    pure .proceed

def workerVersion : Slice UInt16 := .ofBytes 5 (ascii "1.6.0") Slice.toNat_five

def helloAck : HelloAck where
  selectedMajor := versionMajor
  selectedMinor := versionMinor
  capabilityFlags := capabilityPcmS16le16kMono ||| capabilitySourceMode ||| capabilityTranslation
  workerVersion := workerVersion

/-- Write HELLO_ACK, the one frame with a fixed sequence number. -/
def sendHelloAck (env : Env) : Loop Bool :=
  match encodePayload (.helloAck helloAck) 256 with
  | none => do
    recordWrite .unencoded
    pure false
  | some _ => do
    let header ← guardedIpcSend env
    if header then do
      let payload ← guardedIpcSend env
      onlyIf payload (record [.frame 1 (.helloAck helloAck)])
      pure payload
    else pure false

/-- `verify_token_constant_time`: every byte is compared, whatever the others were. -/
def verifyTokenConstantTime (tokenA tokenB : CArray authTokenBytes) : Bool :=
  (List.zip tokenA.bytes tokenB.bytes).foldl (fun diff ab => diff ||| (ab.1 ^^^ ab.2)) (0 : UInt8) == 0

theorem foldl_diff_eq_zero_iff {as bs : Bytes} (h : as.length = bs.length) (diff : UInt8) :
    (List.zip as bs).foldl (fun diff ab => diff ||| (ab.1 ^^^ ab.2)) diff = 0 ↔ diff = 0 ∧ as = bs := by
  induction as generalizing bs diff with
  | nil =>
    rw [List.eq_nil_of_length_eq_zero h.symm]
    simp
  | cons a as ih =>
    cases bs with
    | nil => cases h
    | cons b bs =>
      rw [List.zip_cons_cons, List.foldl_cons, ih (Nat.succ.inj h), UInt8.or_eq_zero_iff, UInt8.xor_eq_zero_iff,
        List.cons.injEq, and_assoc]

theorem verifyTokenConstantTime_iff {tokenA tokenB : CArray authTokenBytes} :
    verifyTokenConstantTime tokenA tokenB = true ↔ tokenA = tokenB := by
  unfold verifyTokenConstantTime
  rw [beq_iff_eq, foldl_diff_eq_zero_iff (by rw [tokenA.length_bytes, tokenB.length_bytes])]
  exact ⟨fun h => CArray.ext_bytes h.2, fun h => ⟨rfl, congrArg CArray.bytes h⟩⟩

/-- The first frame must be a HELLO with a fitting version and the right token. -/
def handleHello (env : Env) (config : Config) : Payload → Loop Flow
  | .hello p =>
    if versionMajor < p.minMajor || p.maxMajor < versionMajor then do
      let _ ← sendError env (.zero _) eProtocolVersion 0 (ascii "No compatible protocol major")
      setFatalExit
      pure .leave
    else if !verifyTokenConstantTime config.authToken p.authToken then do
      setFatalExit
      pure .leave
    else do
      modify fun w => { w with authenticated := true }
      let sent ← sendHelloAck env
      if sent then pure .again
      else do
        stopRunning true
        pure .leave
  | _ => do
    setFatalExit
    pure .leave

/-! ## Frames -/

/-- A frame whose payload is valid. -/
def dispatch (env : Env) (config : Config) (p : Payload) : Loop Flow := do
  let w ← get
  if !w.authenticated then handleHello env config p
  else match p with
    | .startSession p => do
      handleStart env config p
      pure .proceed
    | .position p => do
      handlePosition env config p
      pure .proceed
    | .audioPcm p => do
      handleAudio env config p
      pure .proceed
    | .pause p => do
      handlePause env config p
      pure .proceed
    | .resume p => do
      handleResume env config p
      pure .proceed
    | .stopSession p => handleStop env config p
    | .translateCtrl p => do
      handleTranslateCtrl p
      pure .proceed
    | .modelCtrl p => do
      handleModelCtrl env config p
      pure .proceed
    | .shutdown => handleShutdown env config
    | _ => pure .proceed

/-- The START asks for audio the worker does not take. -/
def isInvalidStartAudio : Payload → Bool
  | .startSession p => p.sampleRate ≠ 16000 || p.channels ≠ 1 || p.sampleFormat ≠ sampleFormatS16le
  | _ => false

/-- A frame with a payload that does not decode or validate: only the audio format of a START is forgiven. -/
def rejectFrame (env : Env) (p : Option Payload) : Loop Flow := do
  let w ← get
  match p with
  | some (.startSession s) =>
    if w.authenticated && isInvalidStartAudio (.startSession s) then do
      let sent ← sendError env s.sessionId eAudioFormat 1
        (ascii "Unsupported audio format (expected 16kHz mono S16LE)")
      if sent then pure .again
      else do
        setFatalExit
        pure .leave
    else do
      setFatalExit
      pure .leave
  | _ => do
    setFatalExit
    pure .leave

/-- A frame of the queue. A SHUTDOWN may be empty, as the reader thread queues it. -/
def handleFrame (env : Env) (config : Config) (f : Frame) : Loop Flow :=
  match decodePayload f.type f.payload with
  | some p => if validatePayload p then dispatch env config p else rejectFrame env (some p)
  | none =>
    if f.type = .shutdown ∧ (f.payload.getD []).length = 0 then dispatch env config .shutdown
    else rejectFrame env none

/-! ## The rest of a round -/

/-- Whether a change of the download's progress is reported. -/
def shouldReport (w : WorkerState) (p : DownloadProgress) (nowUs : Int) : Bool :=
  w.lastStage != some p.stage || (isTransferStage p.stage && 1000000 ≤ nowUs - w.lastProgressSendUs)

/-- The download is over. -/
def downloadEnded (previous : Option UInt8) (stage : UInt8) : Bool :=
  stage = modelStageDone || stage = modelStageFailed || (stage = modelStageIdle &&
    (previous = some modelStageAborting || previous = some modelStageDownloading || previous = some modelStageVerifying))

def pollModelDownload (env : Env) : Loop Unit := do
  let w ← get
  onlyIf w.modelDl do
    match ← ask env.pollDownload with
    | none => pure ()
    | some p => do
      let nowUs ← ask env.monotonicTimeUs
      onlyIf (shouldReport w p nowUs) do
        orFatal (sendModelProgress env (if w.sessionActive then w.sessionId else .zero _) p)
        modify fun w => { w with lastStage := some p.stage, lastProgressSendUs := nowUs }
      onlyIf (downloadEnded w.lastStage p.stage) (modify fun w => { w with modelDl := false, lastStage := none })

/-- The source is to be decoded further ahead. -/
def WorkerState.wantsLookahead (w : WorkerState) : Bool :=
  w.sessionActive && w.sourceMode && w.sourceDecoder.isSome && !w.paused && !w.sourceEof &&
    decide (w.decodedPtsUs < saturatingAddI64 w.currentPlaybackPtsUs leadTargetUs)

/-- Transcribe a chunk, which takes a speech model. -/
def transcribeChunk (env : Env) (chunk : List SessionId) (ptsUs : Int) : Loop Bool := do
  let w ← get
  if w.engine then transcribeWindow env chunk ptsUs none else pure false

/-- A round of the chunk loop over decoded audio. -/
def chunkRound (env : Env) (config : Config) : Loop (Option Unit) := do
  let w ← get
  if !(chunkMinSamples ≤ w.audioBuf.count || (w.sourceEof && 0 < w.audioBuf.count)) then pure (some ())
  else do
    let (window, boundaryPtsUs) := w.audioBuf.getSamples chunkMaxSamples
    let speech ← detect window env.speech
    match findChunkBoundary window.length w.sourceEof speech with
    | none => pure (some ())
    | some b =>
      if 0 < b.silenceDrain then do
        drainAudio b.silenceDrain
        pure none
      else if 0 < b.cutSamples then do
        let transcribed ← transcribeChunk env (window.take b.cutSamples) boundaryPtsUs
        if !transcribed then do
          let _ ← sendError env w.sessionId eInternal 0 (ascii "Whisper inference failed")
          stopRunning true
          pure (some ())
        else do
          let running ← loadRunning env
          if !running then pure (some ())
          else do
            drainAudio b.cutSamples
            reportStatus env config
            pure none
      else pure (some ())

/-- Decoded audio goes on where it says, or where the last one ended. -/
def appendDecoded (samples : Nat) (ptsUs : Int) (w : WorkerState) : WorkerState :=
  let actualPts := if 0 ≤ ptsUs then ptsUs else w.decodedPtsUs
  { w with audioBuf := w.audioBuf.append (w.sourceDecoder.toList.flatMap (List.replicate samples)) actualPts
           decodedPtsUs := actualPts + (samples * 1000000 / 16000 : Nat) }

/-- The state after a read that failed. -/
def WorkerState.abandonSource (w : WorkerState) : WorkerState :=
  { w with sessionActive := false, sourceEof := true, sourceDecoder := none, sourceMode := false
           audioBuf := w.audioBuf.clear, builder := w.builder.clear
           translator := w.translator.map TranslateAsync.invalidate
           trace := w.trace ++ [.ended, .invalidated .readError] }

/-- Decode one chunk ahead. -/
def lookahead (env : Env) (config : Config) : Loop Flow := do
  let w ← get
  if !w.wantsLookahead then pure .proceed
  else match ← call .readSource env.readSource with
    | .ok samples ptsUs =>
      if 0 < samples then do
        modify (appendDecoded samples ptsUs)
        let w ← get
        let _ ← loop (w.audioBuf.count + 1) (chunkRound env config)
        pure .proceed
      else pure .proceed
    | .again => pure .proceed
    | .eof => do
      modify fun w => { w with sourceEof := true }
      let flushed ← flushAudioTail env
      if !flushed then do
        let _ ← sendError env w.sessionId eInternal 0 (ascii "Source tail inference failed")
        stopRunning true
        pure .leave
      else do
        reportStatus env config
        pure .proceed
    | .error => do
      orFatal (sendError env w.sessionId eInternal 0 (ascii "Source decoder read failed"))
      modify WorkerState.abandonSource
      pure .proceed

/-- Go on if the flow says so. -/
def andThen (flow : Flow) (next : Loop Flow) : Loop Flow := if flow = .proceed then next else pure flow

def handleNext (env : Env) (config : Config) : Option Frame → Loop Flow
  | some f => handleFrame env config f
  | none => pure .proceed

/-- One round of the main loop, with the frame it took off the queue. -/
def iterate (env : Env) (config : Config) (frame : Option Frame) : Loop Flow := do
  let flow ← handleNext env config frame
  andThen flow do
    deliverResults env
    pollModelDownload env
    let flow ← lookahead env config
    andThen flow do
      emitSegments env
      deliverResults env
      pure .proceed

/-- What ends the wait for a frame: a frame, or something else to do. -/
def awake (env : Env) : Option Frame → Loop Bool
  | some _ => pure true
  | none => do
    runThreads env
    let w ← get
    pure (w.hasResult || w.wantsLookahead || w.modelDl)

/-- How the loop is left after a round. -/
def finish : Flow → Loop Unit
  | .leave => do
    stopRunning false
    modify fun w => { w with finished := true }
  | .hang => modify fun w => { w with finished := true }
  | _ => pure ()

/-- The wait at the top of the main loop and, if it ends while the worker is running, one round. -/
def wake (env : Env) (config : Config) (frame : Option Frame) : Loop Unit := do
  let w ← get
  onlyIf (!w.finished) do
    let woken ← awake env frame
    let running ← loadRunning env
    if !running then modify fun w => { w with finished := true }
    else
      onlyIf woken do
        let flow ← iterate env config frame
        finish flow

/-- The worker takes frames. -/
def WorkerState.step (env : Env) (config : Config) (w : WorkerState) (frame : Option Frame) : WorkerState :=
  ((wake env config frame).run w).2

end VlcWhisper.Worker
