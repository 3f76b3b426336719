import VlcWhisper.Worker.WorkerState

/-!
# Delivering, emitting and transcribing (`vw_worker.c`, `vw_worker_translation_diag_override.h`)

The functions that the main loop and its frame handlers share. The override header wraps the translator's calls: a
failed translation is blamed in an ERROR frame before its caption, and once such a frame could not be written nothing
more is.
-/

namespace VlcWhisper.Worker

open VlcWhisper.Lib VlcWhisper.Protocol SegmentBuilder

/-! ## Translation diagnostics -/

def failureProvider : UInt8 := 1
def failureTransport : UInt8 := 2
def failureParse : UInt8 := 3
def failureDeadline : UInt8 := 4

/-- `vw_worker_translation_cause_name`. -/
def causeName (cause : UInt8) : Bytes :=
  ascii (if cause = failureProvider then "provider" else if cause = failureTransport then "transport"
    else if cause = failureParse then "parse" else if cause = failureDeadline then "deadline"
    else if cause = failureLocal then "local" else "unknown")

/-- `vw_worker_translation_tier_name`. -/
def tierName (tier : UInt8) : Bytes :=
  ascii (if tier = 1 then "rpc" else if tier = 2 then "gtx" else if tier = 3 then "mobile" else "none")

/-- `vw_worker_translation_error_code`. -/
def translationErrorCode (cause : UInt8) : UInt32 :=
  if cause = failureProvider then eTranslationProvider else if cause = failureTransport then eTranslationTransport
  else if cause = failureParse then eTranslationParse else if cause = failureDeadline then eTranslationDeadline
  else eTranslationLocal

/-- Digits in a base, at least `width` of them. -/
def digits (base width n : Nat) : Bytes :=
  let ds := (Nat.toDigits base n).map fun c => UInt8.ofNat c.toNat
  List.replicate (width - ds.length) 0x30 ++ ds

/-- `vw_worker_translation_diag_build`: the error code and the blame line of a failed translation. -/
def diagBuild (r : TranslateResult) : Option (UInt32 × Bytes) :=
  if r.success || !r.attempted || r.failure.cause = failureNone then none
  else
    let latencyUs := r.segment.translationLatencyUs.toNat
    let status := if r.failure.providerStatus = 0 then []
      else ascii " status=" ++ digits 10 1 r.failure.providerStatus.toNat
    let detail := ascii "segment=" ++ digits 10 1 (UInt64.ofNat r.segment.cue.segmentId).toNat ++ ascii " cause=" ++
      causeName r.failure.cause ++ ascii " tier=" ++ tierName r.failure.terminalTier ++ ascii " attempts=0x" ++
      digits 16 2 r.failure.attemptedTiers.toNat ++ status ++ ascii " latency_ms=" ++
      digits 10 1 (latencyUs / 1000) ++ ascii "." ++ digits 10 3 (latencyUs % 1000)
    if detail.length < maxErrorMsgBytes then some (translationErrorCode r.failure.cause, detail) else none

/-- `vw_worker_translation_diag_prepare_local_rejection`. -/
def localRejection (c : Caption) : TranslateResult where
  epoch := 0
  segment := { c with translationAttempted := true, translationTier := tierNone, translationLatencyUs := 0 }
  translatedText := []
  failure := { Failure.zero with cause := failureLocal }
  attempted := true
  success := false

/-- `vw_worker_translation_diag_report_local_rejection`. -/
def reportLocalRejection (env : Env) (c : Caption) : Loop Bool := do
  let w ← get
  match diagBuild (localRejection c) with
  | none => do
    recordWrite .unencoded
    pure false
  | some (code, detail) => sendError env w.sessionId code 1 detail

/-- A refused cue is blamed; `true` if that fails, so that its caption must not be sent either. -/
def blameRefusal (env : Env) (c : Caption) : Loop Bool := do
  let reported ← reportLocalRejection env c
  if reported then pure false
  else do
    markTransportFailed
    record [.lost c]
    pure true

/-- `vw_worker_translate_async_submit_scoped`; a cue that it takes without submitting it is lost. -/
def submitScoped (env : Env) (c : Caption) : Loop Bool := do
  let w ← get
  if w.transport.registered && w.transport.failed then do
    record [.lost c]
    pure true
  else do
    runThreads env
    let w ← get
    match w.translator with
    | none => pure false
    | some t => do
      let r := t.submit c w.translateSrcLang w.translateDstLang
      modify fun w => { w with translator := some r.1, trace := w.trace ++ [.offered t.load c.cue] }
      if r.2 then pure true else blameRefusal env c

/-- `vw_worker_deliver_translation`. -/
def deliverTranslation (env : Env) (r : TranslateResult) : Loop Unit := do
  let w ← get
  onlyIf (w.sessionActive && r.segment.sessionId = w.sessionId) (orFatal (sendCaptionSegment env r.segment))

/-- `vw_worker_translation_diag_deliver`: the blame line goes before the caption it is about. -/
def diagDeliver (env : Env) (r : TranslateResult) : Loop Unit := do
  let w ← get
  match diagBuild r with
  | some (code, detail) =>
    if w.sessionActive && r.segment.sessionId = w.sessionId then do
      let sent ← sendError env w.sessionId code 1 detail
      if sent then deliverTranslation env r
      else do
        markTransportFailed
        stopRunning true
        record [.lost r.segment]
    else deliverTranslation env r
  | none => deliverTranslation env r

/-- `vw_worker_translate_async_try_deliver_scoped`. -/
def tryDeliverScoped (env : Env) : Loop Bool := do
  modify fun w => { w with transport := ⟨true, w.transport.registered && w.transport.failed⟩ }
  let w ← get
  if w.transport.failed then do
    stopRunning true
    pure false
  else do
    runThreads env
    let w ← get
    match w.translator with
    | none => pure false
    | some t => do
      let r := t.tryDeliver
      modify fun w => { w with translator := some r.1 }
      match r.2 with
      | none => pure false
      | some result => do
        diagDeliver env result
        pure true

/-- Deliver whatever is next, until nothing is. -/
def deliverResults (env : Env) : Loop Unit := do
  let w ← get
  match w.translator with
  | none => pure ()
  | some t => do
    let _ ← loop (t.load + 1) do
      let delivered ← tryDeliverScoped env
      pure (if delivered then none else some ())

/-- `vw_worker_drain_translation`; `false` if it does not end. -/
def drainTranslation (env : Env) : Loop Bool := do
  let polls ← ask env.drainPolls
  let ended ← loop polls do
    let running ← loadRunning env
    if !running then pure (some ())
    else do
      runThreads env
      let w ← get
      if w.hasPending then do
        let _ ← tryDeliverScoped env
        pure none
      else do
        record [.drained]
        pure (some ())
  pure ended.isSome

/-! ## Emission -/

/-- Send a popped cue to the translator, or to the client if translation is off or the translator refuses it;
`attempted` is the flag of a caption that is not offered to the translator. -/
def emitSegment (env : Env) (cue : Cue) (attempted : Bool) : Loop Bool := do
  let w ← get
  let segment := popped w.sessionId cue
  if w.translateEnabled && w.translator.isSome && cue.text != [] then do
    let submitted ← submitScoped env segment
    if submitted then pure true
    else sendCaptionSegment env { segment with translationAttempted := true }
  else sendCaptionSegment env { segment with translationAttempted := attempted }

/-- `vw_segment_builder_pop` as the main loop calls it. -/
def popSegment : Loop (Option Cue) := do
  let w ← get
  match w.builder.pop with
  | none => pure none
  | some (cue, builder) => do
    modify fun w => { w with builder, trace := w.trace ++ [.popped cue] }
    pure (some cue)

/-- A round of the main loop's emission. -/
def emitRound (env : Env) : Loop (Option Unit) := do
  match ← popSegment with
  | none => pure (some ())
  | some cue => do
    orFatal (emitSegment env cue false)
    pure none

/-- The emission loop of the main loop. -/
def emitSegments (env : Env) : Loop Unit := do
  let w ← get
  let _ ← loop (w.builder.queue.count + 1) (emitRound env)

/-- A round of the tail's emission. -/
def tailRound (env : Env) (attempted : Bool) : Loop (Option Bool) := do
  match ← popSegment with
  | none => pure (some true)
  | some cue => do
    let sent ← emitSegment env cue attempted
    pure (if sent then none else some false)

/-- `vw_worker_emit_tail_segments`. -/
def emitTailSegments (env : Env) : Loop Bool := do
  let w ← get
  let sent ← loop (w.builder.queue.count + 1) (tailRound env w.translateEnabled)
  pure (sent.getD false)

/-! ## Transcription -/

/-- The times of a segment in the media. -/
def WhisperSegment.span (s : WhisperSegment) (windowPtsUs : Int) : Int × Int :=
  (saturatingAddI64 windowPtsUs s.t0Us, saturatingAddI64 windowPtsUs s.t1Us)

/-- Push the segments of a transcription, but the silent ones and those that end after `limitUs`. -/
def pushSegments (memory : Nat → Site → Alloc) (windowPtsUs : Int) (limitUs : Option Int) :
    Nat → SegmentBuilder → List WhisperSegment → SegmentBuilder
  | _, b, [] => b
  | i, b, s :: segs =>
    if s.silent || limitUs.any (· < s.t1Us) then pushSegments memory windowPtsUs limitUs (i + 1) b segs
    else
      let span := s.span windowPtsUs
      pushSegments memory windowPtsUs limitUs (i + 1) (pushHypothesis (memory i) b s.text span.1 span.2).1 segs

/-- `vw_whisper_engine_transcribe_pcm`, then the pushes of what it recognised; `false` if it fails. -/
def transcribeWindow (env : Env) (window : List SessionId) (windowPtsUs : Int) (limitUs : Option Int) :
    Loop Bool := do
  match ← call .whisper env.transcribe with
  | none => pure false
  | some segs => do
    let memory ← ask env.memory
    modify fun w =>
      let builder := pushSegments memory windowPtsUs limitUs 0 w.builder segs
      { w with builder, trace := w.trace ++
          [.heard window (builder.queue.toList.drop w.builder.queue.toList.length)] }
    pure true

def drainAudio (samples : Nat) : Loop Unit := modify fun w => { w with audioBuf := w.audioBuf.drain samples }

/-- A round of the tail flush. -/
def flushRound (env : Env) : Loop (Option Bool) := do
  let w ← get
  if w.audioBuf.count = 0 then pure (some true)
  else do
    let (window, windowPtsUs) := w.audioBuf.getSamples chunkMaxSamples
    let speech ← detect window env.speech
    match findChunkBoundary window.length true speech with
    | none => pure (some false)
    | some b =>
      if b.cutSamples = 0 && b.silenceDrain = 0 then pure (some false)
      else if 0 < b.silenceDrain then do
        drainAudio b.silenceDrain
        pure none
      else do
        let transcribed ← transcribeWindow env (window.take b.cutSamples) windowPtsUs none
        if transcribed then do
          drainAudio b.cutSamples
          pure none
        else pure (some false)

/-- `vw_worker_flush_audio_tail`. -/
def flushAudioTail (env : Env) : Loop Bool := do
  let w ← get
  if !w.engine then pure false
  else do
    let flushed ← loop (w.audioBuf.count + 1) (flushRound env)
    pure (flushed.getD false)

/-! ## Clearing -/

/-- How many samples the next inference waits for after a reset. -/
def WorkerState.firstWindow (w : WorkerState) : Nat :=
  if w.liveProgressiveMode then liveStartupSamples else windowSamples

/-- Clear the audio buffer, the builder and the VAD. -/
def WorkerState.clearPipeline (w : WorkerState) : WorkerState :=
  { w with audioBuf := w.audioBuf.clear, liveNextInferenceSamples := w.firstWindow, builder := w.builder.clear, vad := [] }

/-- Pop segments until there are none. -/
def popAll : Nat → SegmentBuilder → SegmentBuilder
  | 0, b => b
  | fuel + 1, b =>
    match b.pop with
    | none => b
    | some (_, b) => popAll fuel b

end VlcWhisper.Worker
