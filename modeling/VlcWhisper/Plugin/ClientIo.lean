import VlcWhisper.Lib.Program
import VlcWhisper.Plugin.Link
import VlcWhisper.Plugin.WorkerClient

/-!
# The client's functions, call by call (`vw_worker_client.c`)

`WorkerClient` says which frames the sending functions produce. Here the same functions are programs that make every
call on the transport, with the handshakes and the receive loop, and fail where the environment lets a call fail.
Both take their messages from the same definitions.

A loop that waits reads the clock in every round, so that it ends when the readings do.
-/

namespace VlcWhisper.Plugin

open VlcWhisper.Lib VlcWhisper.Protocol

/-- `vw_worker_client_t` on its link, with the random bytes the platform will give. -/
structure Conn where
  client : Client
  lastWorkerSequence : Option UInt64
  workerProtocolMinor : UInt16
  random : List (Option SessionId)
  link : Link

abbrev ClientM := StateM Conn

namespace Conn

/-! ## Calls on the transport and the platform -/

/-- A call on the link. -/
def onLink {α : Type} (f : Link → α × Link) : ClientM α := fun s => ((f s.link).1, { s with link := (f s.link).2 })

def ipcSend (bs : Bytes) : ClientM Bool := onLink (Link.send bs)

def receiveAll (len : Nat) (deadlineUs : Int) : ClientM (RecvCode × Bytes) :=
  onLink fun l => let res := Plugin.receiveAll len deadlineUs [] l; ((res.1, res.2.1), res.2.2)

def isBefore (deadlineUs : Int) : ClientM Bool := onLink (Link.isBefore deadlineUs)

def makeDeadline (durationUs : Int) : ClientM (Option Int) := onLink (Link.makeDeadline durationUs)

/-- `vw_platform_get_random_bytes`. -/
def getRandomBytes : ClientM (Option SessionId) := fun s => (s.random.headD none, { s with random := s.random.tail })

/-- Run a call for what it does. -/
def discard {α : Type} (m : ClientM α) : ClientM Unit := do
  let _ ← m
  pure ()

def modifyClient (f : Client → Client) : ClientM Unit := modify fun s => { s with client := f s.client }

/-- `vw_worker_client_drop_transport`. -/
def drop : ClientM Unit := modifyClient dropTransport

/-- The framing is lost. -/
def lost {α : Type} (result : α) : ClientM α := do
  drop
  pure result

/-! ## Sending -/

/-- The header of the next frame. -/
def nextHeader (type : MessageType) (payload : Bytes) : ClientM FrameHeader := do
  modifyClient fun c => { c with sequence := c.sequence + 1 }
  let s ← get
  pure { magic := protocolMagic, major := versionMajor, type := type.code, payloadLength := .ofNat payload.length,
         sequence := s.client.sequence }

/-- The payload is only sent after the header; a send that fails drops the transport. -/
def sendParts (header : FrameHeader) (payload : Bytes) : ClientM Bool := do
  if ← ipcSend (encodeHeader header) then
    if ← ipcSend payload then pure true else lost false
  else lost false

/-- Encode a payload and send the frame: the body most sending functions share. -/
def sendFrame (p : Payload) (bufferSize : Nat) : ClientM Bool := do
  match encodePayload p bufferSize with
  | none => pure false
  | some payload =>
    let header ← nextHeader p.type payload
    sendParts header payload

/-- `send_control_frame`: the payload is sent even if the header was not. -/
def sendControlFrame (type : Control → Payload) (reason : UInt16) : ClientM Bool := do
  let s ← get
  if !s.client.connected then pure false
  else
    let p := type { sessionId := s.client.sessionId, reason }
    match encodePayload p 64 with
    | none => pure false
    | some payload =>
      let header ← nextHeader p.type payload
      let ok1 ← ipcSend (encodeHeader header)
      let ok2 ← ipcSend payload
      if ok1 && ok2 then pure true else lost false

/-! ## HELLO -/

/-- `VW_CLIENT_VERSION`. -/
def clientVersion : Bytes := [0x31, 0x2E, 0x36, 0x2E, 0x30]

def helloMessage (authToken : CArray authTokenBytes) : Hello where
  minMajor := versionMajor
  maxMajor := versionMajor
  authToken := authToken
  clientVersion := .ofBytes 5 clientVersion Slice.toNat_five

/-- A new client: the language falls back to English. -/
def newClient (language : Option CString) : Client where
  connected := true
  sessionId := .zero _
  sequence := 1
  sessionActive := false
  workerSourceActive := false
  workerCapabilities := 0
  activeModelId := .zero _
  activeSourceUrl := .zero _
  language := .ofStr 16 (match language with
    | some language => if language.val = [] then CString.en.val else language.val
    | none => CString.en.val)
  translationConfigured := false
  translateEnabled := false
  translateSourceLang := .zero _
  translateTargetLang := .zero _
  translateMode := 0

/-- HELLO_ACK has come. -/
def onHelloAck (payload : Bytes) : ClientM Bool := do
  match decodePayload .helloAck (some payload) with
  | some (.helloAck ack) =>
    if validatePayload (.helloAck ack) && ack.selectedMajor = versionMajor &&
        ack.capabilityFlags &&& capabilityPcmS16le16kMono ≠ 0 then do
      modify fun s => { s with client := { s.client with workerCapabilities := ack.capabilityFlags }
                               workerProtocolMinor := ack.selectedMinor }
      pure true
    else lost false
  | _ => lost false

/-- Wait for HELLO_ACK. -/
def awaitHelloAck : ClientM Bool := do
  match ← makeDeadline 5000000 with
  | none => lost false
  | some deadlineUs =>
    let (code, buffer) ← receiveAll headerBytes deadlineUs
    if code ≠ .ok then lost false
    else
      match decodeHeader buffer with
      | none => lost false
      | some header =>
        let length := header.payloadLength.toNat
        if header.type ≠ MessageType.helloAck.code || length = 0 || 1024 < length then lost false
        else do
          let (code, payload) ← receiveAll length deadlineUs
          if code ≠ .ok then lost false else onHelloAck payload

/-- `vw_worker_client_launch_and_connect_ex`, once the endpoint is connected: a client that fails is disconnected. -/
def connect (authToken : CArray authTokenBytes) (language : Option CString) : ClientM Bool := do
  modify fun s => { s with client := newClient language, lastWorkerSequence := none, workerProtocolMinor := 0 }
  match encodePayload (.hello (helloMessage authToken)) 256 with
  | none => lost false
  | some payload =>
    if ← sendParts { magic := protocolMagic, major := versionMajor, type := MessageType.hello.code,
                     payloadLength := .ofNat payload.length, sequence := 1 } payload then awaitHelloAck
    else pure false

/-! ## START -/

def translationErrors : List UInt32 :=
  [eTranslationProvider, eTranslationTransport, eTranslationParse, eTranslationDeadline, eTranslationLocal]

/-- A blame of a translation of another session. -/
def isStaleTranslation (err : Error) (sessionId : SessionId) : Bool :=
  err.errorCode ∈ translationErrors && err.recoverable ≠ 0 && err.sessionId ≠ sessionId

/-- The session is started. -/
def accept (start : Start) (sourceActive : Bool) : ClientM Bool := do
  modifyClient fun c => { c with workerSourceActive := sourceActive, sessionActive := true,
                                 activeModelId := .ofStr maxModelIdBytes start.modelId.str,
                                 activeSourceUrl := .ofStr maxSourceUrlBytes start.sourceUrl.str }
  pure true

/-- STARTED has come: an older worker sends none or one byte of payload. -/
def onStarted (start : Start) (deadlineUs : Int) (header : FrameHeader) : ClientM Bool := do
  let s ← get
  if isStale s.lastWorkerSequence header.sequence then lost false
  else do
    modify fun s => { s with lastWorkerSequence := some header.sequence }
    let length := header.payloadLength.toNat
    if 6 ≤ s.workerProtocolMinor && length ≠ 17 then lost false
    else if 0 < length then do
      let (code, payload) ← receiveAll length deadlineUs
      if code ≠ .ok then lost false
      else
        match decodePayload .started (some payload) with
        | some (.started msg) =>
          if (length ≠ 17 && length ≠ 1) || (length = 17 && msg.sessionId ≠ s.client.sessionId) then lost false
          else accept start (msg.sourceActive = sourceActiveActive)
        | _ => lost false
    else accept start false

/-- ERROR has come: `none` if the answer is still to be waited for. -/
def onError (deadlineUs : Int) (header : FrameHeader) : ClientM (Option Bool) := do
  let s ← get
  let length := header.payloadLength.toNat
  if 0 < length then do
    let (code, payload) ← receiveAll length deadlineUs
    if code ≠ .ok then lost (some false)
    else
      match decodePayload .error (some payload) with
      | some (.error err) =>
        if !validatePayload (.error err) then lost (some false)
        else if isStaleTranslation err s.client.sessionId then pure none
        else if err.errorCode = eSourceOpen && err.recoverable ≠ 0 then pure none
        else pure (some false)
      | _ => lost (some false)
  else pure (some false)

/-- One frame of the handshake. -/
def handshakeRound (start : Start) (deadlineUs : Int) : ClientM (Option Bool) := do
  if ← isBefore deadlineUs then do
    let (code, buffer) ← receiveAll headerBytes deadlineUs
    if code ≠ .ok then lost (some false)
    else
      match decodeHeader buffer with
      | none => lost (some false)
      | some header =>
        if header.type = MessageType.started.code then some <$> onStarted start deadlineUs header
        else if header.type = MessageType.error.code then onError deadlineUs header
        else if 0 < header.payloadLength.toNat then do
          let (code, _) ← receiveAll header.payloadLength.toNat deadlineUs
          if code ≠ .ok then lost (some false) else pure none
        else pure none
  else lost (some false)

/-- Wait for the answer to START. -/
def handshake (start : Start) : ClientM Bool := do
  match ← makeDeadline 5000000 with
  | none => pure false
  | some deadlineUs =>
    let s ← get
    let answer ← loop (s.link.clock.length + 1) (handshakeRound start deadlineUs)
    pure (answer.getD false)

/-- `vw_worker_client_start_session`. -/
def startSession (timelineOriginPtsUs : Int64) (modelId sourceUrl : Option CString) : ClientM Bool := do
  let s ← get
  if !s.client.connected then pure false
  else if tooLong maxModelIdBytes modelId then pure false
  else do
    modifyClient fun c => { c with sessionActive := false, workerSourceActive := false }
    match ← getRandomBytes with
    | none => pure false
    | some id =>
      modifyClient fun c => { c with sessionId := id }
      if tooLong maxSourceUrlBytes sourceUrl then pure false
      else do
        let s ← get
        let start := startMessage s.client timelineOriginPtsUs modelId sourceUrl
        if ← sendFrame (.startSession start) 2048 then handshake start else pure false

/-! ## The other sending functions -/

/-- `vw_worker_client_send_position_frame`. -/
def sendPositionFrame (currentPtsUs inputTimeUs : Int64) (playbackRate : Binary32) (flags : UInt32) : ClientM Bool := do
  let s ← get
  sendFrame (.position { sessionId := s.client.sessionId, currentPtsUs, inputTimeUs,
                         playbackRate := effRate playbackRate, flags }) 64

/-- `vw_worker_client_send_translate_ctrl`. -/
def sendTranslateCtrl (enabled : Bool) (sourceLang targetLang : Option CString) (mode : UInt8) : ClientM Bool := do
  let source : CArray 16 := .ofStr 16 (sourceLang.getD .auto).val
  let target : CArray 16 := .ofStr 16 (targetLang.getD .en).val
  let configured (c : Client) : Client :=
    { c with translationConfigured := true, translateEnabled := enabled, translateSourceLang := source,
             translateTargetLang := target, translateMode := mode }
  let s ← get
  if !s.client.connected then pure false
  else if s.client.workerCapabilities &&& capabilityTranslation = 0 then do
    onlyIf (!enabled) (modifyClient configured)
    pure !enabled
  else if ← sendFrame (.translateCtrl { sessionId := s.client.sessionId, enabled := if enabled then 1 else 0,
                                        sourceLang := source, targetLang := target, mode }) 50 then do
    modifyClient configured
    pure true
  else pure false

/-- Send the settings that `c` had before the restart again. -/
def resendTranslateCtrl (c : Client) : ClientM Bool := do
  let s ← get
  if c.translationConfigured && s.client.workerCapabilities &&& capabilityTranslation ≠ 0 then
    sendTranslateCtrl c.translateEnabled (some (.copied 16 (.ofArray c.translateSourceLang)))
      (some (.copied 16 (.ofArray c.translateTargetLang))) c.translateMode
  else pure true

/-- `vw_worker_client_send_position`. -/
def sendPosition (currentPtsUs inputTimeUs : Int64) (playbackRate : Binary32) (flags : UInt32) : ClientM Bool := do
  let s ← get
  let c := s.client
  if !c.connected || !c.sessionActive then pure false
  else if seekRestarts c flags then
    if ← sendControlFrame .stopSession ctrlReasonSeekDiscontinuity then do
      modifyClient fun c => { c with sessionActive := false, workerSourceActive := false }
      if ← startSession currentPtsUs (restartModelId c) (some (restartSourceUrl c)) then do
        let started ← get
        if !started.client.workerSourceActive then lost false
        else if ← resendTranslateCtrl c then
          sendPositionFrame currentPtsUs inputTimeUs playbackRate (flags &&& ~~~positionFlagSeek)
        else pure false
      else pure false
    else pure false
  else sendPositionFrame currentPtsUs inputTimeUs playbackRate flags

/-- `vw_worker_client_send_audio`. -/
def sendAudio (chunk : AudioChunk) : ClientM Bool := do
  let s ← get
  if !s.client.connected || !s.client.sessionActive then pure false
  else
    sendFrame (.audioPcm { sessionId := s.client.sessionId, startPtsUs := chunk.startPtsUs,
                           durationUs := chunk.durationUs, pcm := chunk.pcm }) (2 * audioChunkMaxPcmBytes)

/-- `vw_worker_client_send_model_ctrl`. -/
def sendModelCtrl (action : UInt8) (modelId : Option CString) : ClientM Bool := do
  let s ← get
  if !s.client.connected then pure false
  else if tooLong 32 modelId then pure false
  else
    sendFrame (.modelCtrl { sessionId := .zero _, action,
                            modelId := match modelId with
                              | some m => .ofStr 32 m.val
                              | none => .zero 32 }) 128

/-- `vw_worker_client_stop_session`. -/
def stopSession (reason : UInt16) : ClientM Unit := do
  let s ← get
  if !s.client.connected || !s.client.sessionActive then pure ()
  else if ← sendControlFrame .stopSession (if reason = 0 then ctrlReasonUserStop else reason) then
    modifyClient fun c => { c with sessionActive := false }
  else pure ()

/-- `vw_worker_client_pause_session`. -/
def pauseSession : ClientM Unit := do
  let s ← get
  if !s.client.connected || !s.client.sessionActive then pure ()
  else discard (sendControlFrame .pause ctrlReasonUserPause)

/-- `vw_worker_client_resume_session`. -/
def resumeSession : ClientM Unit := do
  let s ← get
  if !s.client.connected || !s.client.sessionActive then pure ()
  else discard (sendControlFrame .resume ctrlReasonUserResume)

/-- `vw_worker_client_shutdown`: nobody looks at how the send ends. -/
def shutdown : ClientM Unit := do
  let s ← get
  if !s.client.connected then pure ()
  else do
    let header ← nextHeader .shutdown []
    discard (ipcSend (encodeHeader header))

/-! ## Receiving -/

/-- The caption with its texts in the caller's storage: an empty translation is none. -/
def ownTexts (p : CaptionSegment) : CaptionSegment :=
  { p with translatedText := if p.translatedText.data.isSome && 0 < p.translatedText.length then p.translatedText else .null 0 }

/-- The frames that are given to the caller: a payload that decodes, is valid and is of one of four types. -/
def delivered (type : MessageType) (payload : Option Bytes) : Option Payload :=
  match type with
  | .captionSegment | .status | .error | .modelProgress =>
    match decodePayload type payload with
    | some p =>
      if validatePayload p then
        some (match p with
          | .captionSegment seg => .captionSegment (ownTexts seg)
          | p => p)
      else none
    | none => none
  | _ => none

/-- The payload of a header: NULL if it has none. -/
def receivePayload (length : Nat) (deadlineUs : Int) : ClientM (RecvCode × Option Bytes) := do
  if 0 < length then do
    let (code, payload) ← receiveAll length deadlineUs
    pure (code, some payload)
  else pure (.ok, none)

/-- A header has come. -/
def onFrame (header : FrameHeader) : ClientM (Option (RecvCode × Option Payload)) := do
  let s ← get
  if isStale s.lastWorkerSequence header.sequence then
    -- drain and discard
    if 0 < header.payloadLength.toNat then do
      match ← makeDeadline 3000000 with
      | none => lost (some (.fatal, none))
      | some deadlineUs =>
        let (code, _) ← receiveAll header.payloadLength.toNat deadlineUs
        if code ≠ .ok then lost (some (.fatal, none)) else pure none
    else pure none
  else do
    modify fun s => { s with lastWorkerSequence := some header.sequence }
    match ← makeDeadline 3000000 with
    | none => lost (some (.fatal, none))
    | some deadlineUs =>
      let (code, payload) ← receivePayload header.payloadLength.toNat deadlineUs
      if code ≠ .ok then lost (some (.fatal, none))
      else
        match (MessageType.ofCode header.type).bind fun type => delivered type payload with
        | some p => pure (some (.ok, some p))
        | none => pure none

/-- One frame of the receive loop. -/
def receiveRound (deadlineUs : Int) : ClientM (Option (RecvCode × Option Payload)) := do
  if ← isBefore deadlineUs then do
    let (code, buffer) ← receiveAll headerBytes deadlineUs
    if code = .timeout then pure (some (.timeout, none))
    else if code ≠ .ok then lost (some (.fatal, none))
    else
      match decodeHeader buffer with
      | none => lost (some (.fatal, none))
      | some header => onFrame header
  else pure (some (.timeout, none))

/-- `vw_worker_client_receive_frame`: the code and what it delivers. -/
def receiveFrame (timeoutUs : UInt32) : ClientM (RecvCode × Option Payload) := do
  let s ← get
  if !s.client.connected then pure (.fatal, none)
  else
    match ← makeDeadline timeoutUs.toNat with
    | none => pure (.fatal, none)
    | some deadlineUs =>
      let s ← get
      let res ← loop (s.link.clock.length + 1) (receiveRound deadlineUs)
      pure (res.getD (.timeout, none))

/-! ## Calls in a row -/

/-- A call of a sending function, with its result where it has one. -/
def perform : Call → ClientM Bool
  | .startSession origin modelId sourceUrl => startSession origin modelId sourceUrl
  | .sendPosition pts time rate flags => sendPosition pts time rate flags
  | .sendAudio chunk => sendAudio chunk
  | .sendTranslateCtrl enabled source target mode => sendTranslateCtrl enabled source target mode
  | .sendModelCtrl action modelId => sendModelCtrl action modelId
  | .pauseSession => do
    pauseSession
    pure true
  | .resumeSession => do
    resumeSession
    pure true
  | .stopSession reason => do
    stopSession reason
    pure true

/-- A call of one of the client's functions. -/
inductive ApiCall where
  | send (call : Call)
  | shutdown
  | receiveFrame (timeoutUs : UInt32)

/-- The call, without its result. -/
def ApiCall.run : ApiCall → ClientM Unit
  | .send (.startSession origin modelId sourceUrl) => discard (Conn.startSession origin modelId sourceUrl)
  | .send (.sendPosition pts time rate flags) => discard (Conn.sendPosition pts time rate flags)
  | .send (.sendAudio chunk) => discard (Conn.sendAudio chunk)
  | .send (.sendTranslateCtrl enabled source target mode) => discard (Conn.sendTranslateCtrl enabled source target mode)
  | .send (.sendModelCtrl action modelId) => discard (Conn.sendModelCtrl action modelId)
  | .send .pauseSession => Conn.pauseSession
  | .send .resumeSession => Conn.resumeSession
  | .send (.stopSession reason) => Conn.stopSession reason
  | .shutdown => Conn.shutdown
  | .receiveFrame timeoutUs => discard (Conn.receiveFrame timeoutUs)

/-- The client after a call. -/
def apply (s : Conn) (call : ApiCall) : Conn := (call.run.run s).2

end Conn

end VlcWhisper.Plugin
