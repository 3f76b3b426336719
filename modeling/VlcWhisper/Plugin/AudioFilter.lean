import VlcWhisper.Plugin.SpscQueue

/-!
# The audio callback beside the sender (`vw_plugin_filter`, `vw_whisper_module.c`)

VLC calls the filter with each block of audio, on its own thread. The filter and the sender share a queue of chunks and
a few atomics: the filter flags jumps of the stream and the end of a stretch without valid times, the sender
acknowledges a flag and empties the queue. Every load and store of an atomic, every push and every pop is a step of its
own, and a list of moves interleaves the two threads in any way. A push or a pop is one step because the queue itself
takes effect at one moment.

Of the sender's round only what touches the queue or the flags is kept; the rest of it is the world's choice.
-/

namespace VlcWhisper.Plugin

open VlcWhisper.Lib

/-! ## Blocks -/

/-- `i_format`, as far as the filter tells formats apart. -/
inductive AudioCodec where
  | fl32 | s16n | s32n | other
deriving DecidableEq

/-- `block_t`, with the format of the input; the buffer is given as each format reads it. -/
structure AudioBlock where
  iFormat : AudioCodec
  asFl32 : Nat → Binary32
  asS16 : Nat → Int
  asS32 : Nat → Int
  nbSamples : Nat
  pts : Int
  rate : Nat
  channels : Nat
  /-- `BLOCK_FLAG_DISCONTINUITY`. -/
  discontinuity : Bool

namespace AudioBlock

/-- The samples of the buffer, unless the codec is not supported. -/
def samples (b : AudioBlock) : Option (Nat → PcmSample) :=
  match b.iFormat with
  | .fl32 => some fun i => .fl32 (b.asFl32 i)
  | .s16n => some fun i => .s16 (b.asS16 i)
  | .s32n => some fun i => .s32 (b.asS32 i)
  | .other => none

/-- The `vw_audio_input_t` made of the block. -/
def input (b : AudioBlock) : Option AudioInput :=
  b.samples.map fun sample =>
    { sample, frameCount := b.nbSamples, ptsUs := b.pts, sampleRate := b.rate, channels := b.channels }

/-- `pts_valid`. -/
def ptsValid (b : AudioBlock) : Bool := decide (1 ≤ b.pts ∧ 0 ≤ b.pts ∧ b.pts ≤ 315360000000000)

/-- The block is not where the stream left off: five seconds ahead or half a second back, or, where there is nothing to
compare with, VLC says so. -/
def jumps (b : AudioBlock) (lastPtsUs : Int) : Bool :=
  if 0 < lastPtsUs then decide (b.pts - lastPtsUs < -500000 ∨ 5000000 ≤ b.pts - lastPtsUs) else b.discontinuity

end AudioBlock

/-! ## State -/

/-- What the filter has flagged so far: jumps, and returns to valid times. -/
structure AudioEpoch where
  jumps : Nat
  resumes : Nat
deriving DecidableEq

/-- Where the filter is in its code. The input is the block that it works on. -/
inductive FilterPoint where
  | idle
  /-- Before it stores `invalid_pts_pending`. -/
  | resume
  /-- Before it stores `discontinuity_pending`. -/
  | jump (input : AudioInput)
  /-- Before it loads `playback_rate`. -/
  | rate (input : AudioInput)
  /-- Before it loads `source_mode_active`. -/
  | mode (input : AudioInput)
  /-- Before it loads `capture_reset_pending`. -/
  | enter (input : AudioInput)
  /-- Before it clears `capture_reset_pending`. -/
  | reset (input : AudioInput)
  /-- Before it loads `playback_rate` once more and resamples. -/
  | resample (input : AudioInput) (wasReset : Bool)
  /-- With chunks left to push. -/
  | push (chunks : List CapturedChunk)

/-- The filter's own variables. -/
structure FilterThread where
  capture : AudioCapture
  lastPtsWasInvalid : Bool
  point : FilterPoint

/-- Where the sender is in its round. -/
inductive SenderPoint where
  /-- Anywhere before its look at `discontinuity_pending`. -/
  | round
  /-- Before it clears `discontinuity_pending`. -/
  | acknowledge
  /-- Before it loads `source_mode_active`. -/
  | modeOf
  /-- In its loop over the stale chunks. -/
  | discard (isSourceMode : Bool)
  /-- Before it stores `capture_reset_pending`. -/
  | askReset (isSourceMode : Bool)
  /-- Before the new session. -/
  | restart
  /-- Before it loads `invalid_pts_pending`. -/
  | checkInvalid
  /-- In its loop over the chunks of before the invalid stretch. -/
  | drain
  /-- Before it clears `invalid_pts_pending`. -/
  | lower
  /-- Before it loads `source_mode_active` for the burst. -/
  | look
  /-- In its loop over the chunks to send. -/
  | burst (isSourceMode : Bool)
deriving DecidableEq

/-- The sender's own variables; `session_active` is an atomic that only it uses. -/
structure SenderThread where
  paused : Bool
  sessionActive : Bool
  point : SenderPoint

/-- A chunk given to `vw_worker_client_send_audio`, and how things stood then. -/
structure SentChunk where
  chunk : CapturedChunk
  /-- What the filter had flagged when it pushed the chunk. -/
  epoch : AudioEpoch
  /-- What the filter had flagged when the chunk was sent. -/
  flagged : AudioEpoch
  /-- What the sender had taken note of. -/
  noted : AudioEpoch
  discontinuityPending : Bool
  invalidPtsPending : Bool

/-- The past, kept to speak about runs; no step depends on it. -/
structure AudioHistory where
  /-- How often the filter has stored each flag. -/
  flagged : AudioEpoch
  /-- `flagged` when the sender last cleared `discontinuity_pending`, and when it last found the queue empty for
  `invalid_pts_pending`. -/
  noted : AudioEpoch
  /-- The queued chunks, with what was flagged when they were pushed. -/
  queued : List (CapturedChunk × AudioEpoch)
  sent : List SentChunk

/-- Both threads and what they share. -/
structure AudioPath (capacityChunks : Nat) where
  queue : SpscQueue capacityChunks
  discontinuityPending : Bool
  invalidPtsPending : Bool
  captureResetPending : Bool
  sourceModeActive : Bool
  playbackRate : Binary32
  filter : FilterThread
  sender : SenderThread
  history : AudioHistory

namespace AudioPath

variable {capacityChunks : Nat}

/-- As `vw_plugin_open` leaves it. -/
def start (capacityChunks : Nat) : AudioPath capacityChunks where
  queue := .create capacityChunks
  discontinuityPending := false
  invalidPtsPending := false
  captureResetPending := false
  sourceModeActive := false
  playbackRate := .one
  filter := { capture := .create audioTargetRate, lastPtsWasInvalid := false, point := .idle }
  sender := { paused := false, sessionActive := false, point := .round }
  history := { flagged := ⟨0, 0⟩, noted := ⟨0, 0⟩, queued := [], sent := [] }

/-! ## Steps of the filter -/

def filterAt (s : AudioPath capacityChunks) (point : FilterPoint) : AudioPath capacityChunks :=
  { s with filter := { s.filter with point } }

/-- Up to its first use of an atomic, the filter works on its own variables. -/
def beginFilter (s : AudioPath capacityChunks) (b : AudioBlock) : AudioPath capacityChunks :=
  match b.input with
  | none => s
  | some input =>
    let capture := s.filter.capture
    if !b.ptsValid then { s with filter := { s.filter with lastPtsWasInvalid := true } }
    else if s.filter.lastPtsWasInvalid then
      { s with filter := { capture := { capture with resampleAcc := 0, sampleRemainder := 0, resampleSourceRate := 0 }
                           lastPtsWasInvalid := false
                           point := .resume } }
    else
      -- `last_pts_us` is stored after the flag, and only read by the filter
      { s with filter := { s.filter with capture := { capture with lastPtsUs := b.pts }
                                         point := if b.jumps capture.lastPtsUs then .jump input else .rate input } }

/-- `atomic_store(&sys->invalid_pts_pending, true)`. -/
def flagResume (s : AudioPath capacityChunks) : AudioPath capacityChunks :=
  { s with invalidPtsPending := true
           history := { s.history with
             flagged := { s.history.flagged with resumes := s.history.flagged.resumes + 1 } } }

/-- `atomic_store(&sys->discontinuity_pending, true)`, in the filter. -/
def flagJump (s : AudioPath capacityChunks) : AudioPath capacityChunks :=
  { s with discontinuityPending := true
           history := { s.history with
             flagged := { s.history.flagged with jumps := s.history.flagged.jumps + 1 } } }

/-- `vw_spsc_queue_push(cap->queue, &chunk)`. -/
def pushChunk (s : AudioPath capacityChunks) (chunk : CapturedChunk) : AudioPath capacityChunks :=
  let pushed := s.queue.push chunk
  { s with queue := pushed.1
           history := { s.history with
             queued := if pushed.2 then s.history.queued ++ [(chunk, s.history.flagged)] else s.history.queued } }

/-- The next step of the filter. -/
def filterStep (s : AudioPath capacityChunks) : AudioPath capacityChunks :=
  match s.filter.point with
  | .idle => s
  | .resume => (s.flagResume).filterAt .idle
  | .jump input => (s.flagJump).filterAt (.rate input)
  | .rate input => s.filterAt (if Binary32.lt AudioCapture.maxPlaybackRate s.playbackRate then .idle else .mode input)
  | .mode input => s.filterAt (if s.sourceModeActive then .idle else .enter input)
  | .enter input =>
    if input.frameCount = 0 ∨ input.sampleRate = 0 ∨ input.channels = 0 then s.filterAt .idle
    else s.filterAt (if s.captureResetPending then .reset input else .resample input false)
  | .reset input => { s with captureResetPending := false }.filterAt (.resample input true)
  | .resample input wasReset =>
    match s.filter.capture.processBlock { input, resetPending := wasReset, playbackRate := s.playbackRate } with
    | none => s.filterAt .idle
    | some (capture, chunks) => { s with filter := { s.filter with capture, point := .push chunks } }
  | .push [] => s.filterAt .idle
  | .push (chunk :: chunks) => (s.pushChunk chunk).filterAt (.push chunks)

/-! ## Steps of the sender -/

def senderAt (s : AudioPath capacityChunks) (point : SenderPoint) : AudioPath capacityChunks :=
  { s with sender := { s.sender with point } }

/-- The queue without its oldest chunk, which is returned. -/
def popChunk (s : AudioPath capacityChunks) : Option (CapturedChunk × AudioPath capacityChunks) :=
  match s.queue.pop with
  | none => none
  | some (chunk, queue) => some (chunk, { s with queue, history := { s.history with queued := s.history.queued.tail } })

/-- `atomic_store(&sys->discontinuity_pending, false)`. -/
def clearJump (s : AudioPath capacityChunks) : AudioPath capacityChunks :=
  { s with discontinuityPending := false
           history := { s.history with noted := { s.history.noted with jumps := s.history.flagged.jumps } } }

/-- The loop before `invalid_pts_pending` is cleared has found the queue empty. -/
def noteResume (s : AudioPath capacityChunks) : AudioPath capacityChunks :=
  { s with history := { s.history with noted := { s.history.noted with resumes := s.history.flagged.resumes } } }

/-- `vw_worker_client_send_audio(sys->client, &chunk)`: `s` is the path before the chunk was taken from the queue. -/
def logSent (s : AudioPath capacityChunks) (chunk : CapturedChunk) (t : AudioPath capacityChunks) :
    AudioPath capacityChunks :=
  { t with history := { t.history with
      sent := t.history.sent ++
        [{ chunk
           epoch := (s.history.queued.headD (chunk, ⟨0, 0⟩)).2
           flagged := s.history.flagged
           noted := s.history.noted
           discontinuityPending := s.discontinuityPending
           invalidPtsPending := s.invalidPtsPending }] } }

/-- What else the sender does in a round. -/
inductive RoundWork where
  /-- The polled playback rate. -/
  | setRate (playbackRate : Binary32)
  /-- A session that started or failed to, in this mode. -/
  | setSession (active source : Bool)
  | setPaused (paused : Bool)
  /-- A seek that the sender saw itself: it raises `discontinuity_pending`. -/
  | seek
  /-- One turn of the loop that empties the queue when the medium changes. -/
  | discardOne
  /-- The look at `discontinuity_pending`. -/
  | proceed

def roundStep (s : AudioPath capacityChunks) : RoundWork → AudioPath capacityChunks
  | .setRate playbackRate => { s with playbackRate }
  | .setSession active source =>
    { s with sourceModeActive := active && source, sender := { s.sender with sessionActive := active } }
  | .setPaused paused => { s with sender := { s.sender with paused } }
  | .seek => { s with discontinuityPending := true }
  | .discardOne =>
    match s.popChunk with
    | none => s
    | some (_, t) => t
  | .proceed => s.senderAt (if s.discontinuityPending then .acknowledge else .checkInvalid)

/-- The next step of the sender. In `round` the work is what it does, at `restart` whether a session starts and in which
mode, in `burst` whether the chunk is sent. -/
def senderStep (s : AudioPath capacityChunks) (work : RoundWork) (ok source : Bool) : AudioPath capacityChunks :=
  match s.sender.point with
  | .round => s.roundStep work
  | .acknowledge => (s.clearJump).senderAt .modeOf
  | .modeOf => s.senderAt (.discard s.sourceModeActive)
  | .discard isSourceMode =>
    match s.popChunk with
    | none => s.senderAt (.askReset isSourceMode)
    | some (_, t) => t
  | .askReset isSourceMode =>
    { s with captureResetPending := true }.senderAt (if isSourceMode then .checkInvalid else .restart)
  | .restart => (s.roundStep (.setSession ok source)).senderAt .checkInvalid
  | .checkInvalid => s.senderAt (if s.invalidPtsPending then .drain else .look)
  | .drain =>
    match s.popChunk with
    | none => s.noteResume.senderAt .lower
    | some (_, t) => t
  | .lower => { s with invalidPtsPending := false }.senderAt .look
  | .look => s.senderAt (.burst s.sourceModeActive)
  | .burst isSourceMode =>
    match s.popChunk with
    | none => s.senderAt .round
    | some (chunk, t) =>
      if s.sender.paused || isSourceMode || !s.sender.sessionActive then t
      else if ok then s.logSent chunk t else (s.logSent chunk t).senderAt .round

/-! ## Interleavings -/

/-- A move of one of the threads. -/
inductive Move where
  /-- VLC calls the filter. -/
  | block (b : AudioBlock)
  | filter
  | sender (work : RoundWork) (ok source : Bool)

/-- A call of the filter has to wait for the one before. -/
def step (s : AudioPath capacityChunks) : Move → AudioPath capacityChunks
  | .block b =>
    match s.filter.point with
    | .idle => s.beginFilter b
    | _ => s
  | .filter => s.filterStep
  | .sender work ok source => s.senderStep work ok source

end AudioPath

end VlcWhisper.Plugin
