import VlcWhisper.Protocol.RoundTrip

/-!
# The plugin's side of the connection (`vw_worker_client.c`)

Each function that sends is a function of the client's state and of an environment `Env`, which decides the
random session id, the outcome of each write and the answer to START. It returns the new state, the frames it
wrote and whether it succeeded.

Strings are arguments (`CString`) or fields of fixed size, and `snprintf` cuts the former to fit the latter.
-/

namespace VlcWhisper.Plugin

open VlcWhisper.Lib VlcWhisper.Protocol

/-- A `const char*` argument: bytes before the terminator. -/
abbrev CString := { s : Bytes // (0 : UInt8) ∉ s }

def CString.auto : CString := ⟨autoCode, by decide⟩
def CString.en : CString := ⟨[0x65, 0x6E], by decide⟩

/-- The string an array holds, as an argument. -/
def CString.ofArray {n : Nat} (a : CArray n) : CString := ⟨a.str, zero_notMem_cstr _⟩

/-- `snprintf(dst, n, "%s", s)`, then read back. -/
def CString.copied (n : Nat) (s : CString) : CString := .ofArray (CArray.ofStr n s.val)

/-! ## State, environment, frames -/

/-- `vw_worker_client_t`; `connected` says that `pipe_handle` is not NULL. -/
structure Client where
  connected : Bool
  sessionId : SessionId
  sequence : UInt64
  sessionActive : Bool
  workerSourceActive : Bool
  workerCapabilities : UInt32
  activeModelId : CArray maxModelIdBytes
  activeSourceUrl : CArray maxSourceUrlBytes
  language : CArray 16
  translationConfigured : Bool
  translateEnabled : Bool
  translateSourceLang : CArray 16
  translateTargetLang : CArray 16
  translateMode : UInt8

/-- How waiting for the answer to START ends: a STARTED, a refusal that keeps the transport, or its loss. -/
inductive Handshake where
  | started (sourceActive : Bool)
  | refused
  | lost

structure Env where
  randomBytes : Option SessionId
  /-- Whether header and payload of the frame with this sequence number are both written. -/
  sent : UInt64 → Bool
  handshake : Handshake

structure Frame where
  type : MessageType
  sequence : UInt64
  payload : Bytes

structure Outcome where
  client : Client
  frames : List Frame
  ok : Bool

/-- Nothing written. -/
def Outcome.quiet (c : Client) (ok : Bool) : Outcome := ⟨c, [], ok⟩

/-- Go on only after a success. -/
def Outcome.andThen (o : Outcome) (f : Client → Outcome) : Outcome :=
  if o.ok then { f o.client with frames := o.frames ++ (f o.client).frames } else o

/-- `vw_worker_client_drop_transport`. -/
def dropTransport (c : Client) : Client :=
  if c.connected then { c with connected := false, sessionActive := false } else c

/-- Encode a payload, number the frame and write it; a failed write drops the transport. -/
def sendFrame (env : Env) (c : Client) (p : Payload) (bufferSize : Nat) : Outcome :=
  match encodePayload p bufferSize with
  | none => .quiet c false
  | some payload =>
    let c := { c with sequence := c.sequence + 1 }
    if env.sent c.sequence then ⟨c, [⟨p.type, c.sequence, payload⟩], true⟩
    else .quiet (dropTransport c) false

/-! ## The sending functions -/

/-- The language START asks for. -/
def startLanguage (c : Client) : CString :=
  if c.language.str = [] then .en else .ofArray c.language

def startMessage (c : Client) (timelineOriginPtsUs : Int64) (modelId sourceUrl : Option CString) : Start where
  sessionId := c.sessionId
  timelineOriginPtsUs := timelineOriginPtsUs
  sampleRate := 16000
  channels := 1
  sampleFormat := sampleFormatS16le
  modelId := match modelId with
    | some m => .ofStr maxModelIdBytes m.val
    | none => .zero maxModelIdBytes
  language := .ofStr 16 (startLanguage c).val
  sourceKind := if sourceUrl.isSome then sourceLocalFile else sourceLiveAudio
  sourceUrlLen := match sourceUrl with
    | some url => UInt16.ofNat url.val.length
    | none => 0
  sourceUrl := match sourceUrl with
    | some url => .ofStr maxSourceUrlBytes url.val
    | none => .zero maxSourceUrlBytes

/-- The string does not fit an array of `n` bytes with its terminator. -/
def tooLong (n : Nat) (s : Option CString) : Bool := s.any fun s => decide (n ≤ s.val.length)

/-- `vw_worker_client_start_session`. -/
def startSession (env : Env) (c : Client) (timelineOriginPtsUs : Int64) (modelId sourceUrl : Option CString) :
    Outcome :=
  if !c.connected then .quiet c false
  else if tooLong maxModelIdBytes modelId then .quiet c false
  else
    let c := { c with sessionActive := false, workerSourceActive := false }
    match env.randomBytes with
    | none => .quiet c false
    | some id =>
      let c := { c with sessionId := id }
      if tooLong maxSourceUrlBytes sourceUrl then .quiet c false
      else
        let start := startMessage c timelineOriginPtsUs modelId sourceUrl
        (sendFrame env c (.startSession start) 2048).andThen fun c =>
          match env.handshake with
          | .refused => .quiet c false
          | .lost => .quiet (dropTransport c) false
          | .started sourceActive =>
            .quiet { c with workerSourceActive := sourceActive, sessionActive := true,
                            activeModelId := .ofStr maxModelIdBytes start.modelId.str,
                            activeSourceUrl := .ofStr maxSourceUrlBytes start.sourceUrl.str } true

/-- `send_control_frame`, with the payload of the type asked for. -/
def sendControlFrame (env : Env) (c : Client) (type : Control → Payload) (reason : UInt16) : Outcome :=
  if !c.connected then .quiet c false
  else sendFrame env c (type { sessionId := c.sessionId, reason }) 64

/-- 0.05 as a `float`. -/
def minRate : Binary32 := ⟨0x3D4CCCCD⟩

/-- The playback rate that is sent. -/
def effRate (playbackRate : Binary32) : Binary32 :=
  let rate := if Binary32.zero.lt playbackRate then playbackRate else .one
  if rate.lt minRate then minRate else if Binary32.sixteen.lt rate then .sixteen else rate

/-- `vw_worker_client_send_position_frame`. -/
def sendPositionFrame (env : Env) (c : Client) (currentPtsUs inputTimeUs : Int64) (playbackRate : Binary32)
    (flags : UInt32) : Outcome :=
  sendFrame env c (.position { sessionId := c.sessionId, currentPtsUs, inputTimeUs,
                               playbackRate := effRate playbackRate, flags }) 64

/-- `vw_worker_client_send_translate_ctrl`. -/
def sendTranslateCtrl (env : Env) (c : Client) (enabled : Bool) (sourceLang targetLang : Option CString)
    (mode : UInt8) : Outcome :=
  let source : CArray 16 := .ofStr 16 (sourceLang.getD .auto).val
  let target : CArray 16 := .ofStr 16 (targetLang.getD .en).val
  let configured (c : Client) : Client :=
    { c with translationConfigured := true, translateEnabled := enabled, translateSourceLang := source,
             translateTargetLang := target, translateMode := mode }
  if !c.connected then .quiet c false
  else if c.workerCapabilities &&& capabilityTranslation = 0 then
    -- an older worker never sees the message
    .quiet (if enabled then c else configured c) !enabled
  else
    (sendFrame env c (.translateCtrl { sessionId := c.sessionId, enabled := if enabled then 1 else 0,
                                       sourceLang := source, targetLang := target, mode }) 50).andThen fun c =>
      .quiet (configured c) true

/-- A seek in source mode replaces the session. -/
def seekRestarts (c : Client) (flags : UInt32) : Bool :=
  flags &&& positionFlagSeek ≠ 0 && c.workerSourceActive && c.activeSourceUrl.str ≠ []

/-- The model a restart asks for again; none if there is none. -/
def restartModelId (c : Client) : Option CString :=
  let modelId := CString.copied maxModelIdBytes (.ofArray c.activeModelId)
  if modelId.val = [] then none else some modelId

def restartSourceUrl (c : Client) : CString := CString.copied maxSourceUrlBytes (.ofArray c.activeSourceUrl)

/-- STOP the epoch, then START the next one at the new position. -/
def restartSession (env : Env) (c : Client) (currentPtsUs : Int64) : Outcome :=
  (sendControlFrame env c .stopSession ctrlReasonSeekDiscontinuity).andThen fun stopped =>
    startSession env { stopped with sessionActive := false, workerSourceActive := false } currentPtsUs
      (restartModelId c) (some (restartSourceUrl c))

/-- Send the settings that `c` had before the restart again. -/
def resendTranslateCtrl (env : Env) (c started : Client) : Outcome :=
  if c.translationConfigured && started.workerCapabilities &&& capabilityTranslation ≠ 0 then
    sendTranslateCtrl env started c.translateEnabled (some (.copied 16 (.ofArray c.translateSourceLang)))
      (some (.copied 16 (.ofArray c.translateTargetLang))) c.translateMode
  else .quiet started true

/-- `vw_worker_client_send_position`. -/
def sendPosition (env : Env) (c : Client) (currentPtsUs inputTimeUs : Int64) (playbackRate : Binary32)
    (flags : UInt32) : Outcome :=
  if !c.connected || !c.sessionActive then .quiet c false
  else if seekRestarts c flags then
    (restartSession env c currentPtsUs).andThen fun started =>
      if !started.workerSourceActive then .quiet (dropTransport started) false
      else
        (resendTranslateCtrl env c started).andThen fun resent =>
          sendPositionFrame env resent currentPtsUs inputTimeUs playbackRate (flags &&& ~~~positionFlagSeek)
  else sendPositionFrame env c currentPtsUs inputTimeUs playbackRate flags

def audioChunkMaxPcmBytes : Nat := 16384

/-- `vw_audio_chunk_t`, whose byte count is within its array. -/
structure AudioChunk where
  startPtsUs : Int64
  durationUs : Int64
  bytes : UInt32
  pcmData : CArray audioChunkMaxPcmBytes
  fits : bytes.toNat ≤ audioChunkMaxPcmBytes

def AudioChunk.pcm (chunk : AudioChunk) : Slice UInt32 where
  length := chunk.bytes
  data := some chunk.pcmData.bytes
  readable := by
    intro bs hbs
    obtain rfl := Option.some.inj hbs
    rw [chunk.pcmData.length_bytes]
    exact chunk.fits

/-- `vw_worker_client_send_audio`. -/
def sendAudio (env : Env) (c : Client) (chunk : AudioChunk) : Outcome :=
  if !c.connected || !c.sessionActive then .quiet c false
  else
    sendFrame env c (.audioPcm { sessionId := c.sessionId, startPtsUs := chunk.startPtsUs,
                                 durationUs := chunk.durationUs, pcm := chunk.pcm })
      (2 * audioChunkMaxPcmBytes)

/-- `vw_worker_client_send_model_ctrl`: not tied to a session, so its id is zero. -/
def sendModelCtrl (env : Env) (c : Client) (action : UInt8) (modelId : Option CString) : Outcome :=
  if !c.connected then .quiet c false
  else if tooLong 32 modelId then .quiet c false
  else
    sendFrame env c (.modelCtrl { sessionId := .zero _, action,
                                  modelId := match modelId with
                                    | some m => .ofStr 32 m.val
                                    | none => .zero 32 }) 128

/-- `vw_worker_client_stop_session`. -/
def stopSession (env : Env) (c : Client) (reason : UInt16) : Outcome :=
  if !c.connected || !c.sessionActive then .quiet c false
  else
    (sendControlFrame env c .stopSession (if reason = 0 then ctrlReasonUserStop else reason)).andThen fun c =>
      .quiet { c with sessionActive := false } true

/-- `vw_worker_client_pause_session`. -/
def pauseSession (env : Env) (c : Client) : Outcome :=
  if !c.connected || !c.sessionActive then .quiet c false
  else sendControlFrame env c .pause ctrlReasonUserPause

/-- `vw_worker_client_resume_session`. -/
def resumeSession (env : Env) (c : Client) : Outcome :=
  if !c.connected || !c.sessionActive then .quiet c false
  else sendControlFrame env c .resume ctrlReasonUserResume

/-- A call of one of the sending functions with its arguments. -/
inductive Call where
  | startSession (timelineOriginPtsUs : Int64) (modelId sourceUrl : Option CString)
  | sendPosition (currentPtsUs inputTimeUs : Int64) (playbackRate : Binary32) (flags : UInt32)
  | sendAudio (chunk : AudioChunk)
  | sendTranslateCtrl (enabled : Bool) (sourceLang targetLang : Option CString) (mode : UInt8)
  | sendModelCtrl (action : UInt8) (modelId : Option CString)
  | pauseSession
  | resumeSession
  | stopSession (reason : UInt16)

def Call.run (env : Env) (c : Client) : Call → Outcome
  | .startSession origin modelId sourceUrl => Plugin.startSession env c origin modelId sourceUrl
  | .sendPosition pts time rate flags => Plugin.sendPosition env c pts time rate flags
  | .sendAudio chunk => Plugin.sendAudio env c chunk
  | .sendTranslateCtrl enabled source target mode => Plugin.sendTranslateCtrl env c enabled source target mode
  | .sendModelCtrl action modelId => Plugin.sendModelCtrl env c action modelId
  | .pauseSession => Plugin.pauseSession env c
  | .resumeSession => Plugin.resumeSession env c
  | .stopSession reason => Plugin.stopSession env c reason

end VlcWhisper.Plugin
