import VlcWhisper.Lib.CData
import VlcWhisper.Lib.Binary32

/-!
# The wire protocol's messages

The structs of `vw_protocol_types.h`. A pointer field travels with its length as one `Slice`; a `char[n]`
is a `CArray n`. The `bool is_final` of a caption is only ever copied, so it is kept as the byte that
represents it.
-/

namespace VlcWhisper.Protocol

open VlcWhisper.Lib

/-! ## Limits -/

def maxPayloadBytes : Nat := 1048576
def maxErrorMsgBytes : Nat := 256
def maxModelIdBytes : Nat := 64
def maxSourceUrlBytes : Nat := 1024
def authTokenBytes : Nat := 32
def sessionIdBytes : Nat := 16
def maxTextBytes : Nat := 1024

def versionMajor : UInt16 := 1
def versionMinor : UInt16 := 6

def capabilityPcmS16le16kMono : UInt32 := 1
def capabilitySourceMode : UInt32 := 8
def capabilityTranslation : UInt32 := 16

/-- `vw_message_type_t`. -/
inductive MessageType where
  | hello | helloAck | startSession | audioPcm | pause | resume | stopSession | captionSegment
  | status | error | shutdown | started | position | modelCtrl | modelProgress | translateCtrl
  deriving DecidableEq, Repr

/-! ## Codes -/

def sourceLiveAudio : UInt16 := 0
def sourceLocalFile : UInt16 := 1
def sampleFormatS16le : UInt16 := 1

def eProtocolVersion : UInt32 := 1
def eModelMissing : UInt32 := 3
def eAudioFormat : UInt32 := 5
def eInternal : UInt32 := 9
def eSourceOpen : UInt32 := 10
def eTranslationProvider : UInt32 := 11
def eTranslationTransport : UInt32 := 12
def eTranslationParse : UInt32 := 13
def eTranslationDeadline : UInt32 := 14
def eTranslationLocal : UInt32 := 15
def errorMax : UInt32 := 15

def sourceActiveInactive : UInt8 := 0
def sourceActiveActive : UInt8 := 1

def positionFlagSeek : UInt32 := 1
def positionFlagPaused : UInt32 := 2

def ctrlReasonUserPause : UInt16 := 1
def ctrlReasonUserResume : UInt16 := 1
def ctrlReasonUserStop : UInt16 := 1
def ctrlReasonSeekDiscontinuity : UInt16 := 2
def ctrlReasonMediaEnd : UInt16 := 3

def modelActionDownload : UInt8 := 1
def modelActionAbort : UInt8 := 2

def modelStageIdle : UInt8 := 0
def modelStageDownloading : UInt8 := 1
def modelStageVerifying : UInt8 := 2
def modelStageDone : UInt8 := 3
def modelStageFailed : UInt8 := 4
def modelStageAborting : UInt8 := 5

/-! ## Payloads -/

abbrev SessionId := CArray sessionIdBytes

structure Hello where
  minMajor : UInt16
  maxMajor : UInt16
  authToken : CArray authTokenBytes
  clientVersion : Slice UInt16

structure HelloAck where
  selectedMajor : UInt16
  selectedMinor : UInt16
  capabilityFlags : UInt32
  workerVersion : Slice UInt16

structure Start where
  sessionId : SessionId
  timelineOriginPtsUs : Int64
  sampleRate : UInt32
  channels : UInt16
  sampleFormat : UInt16
  modelId : CArray maxModelIdBytes
  language : CArray 16
  sourceKind : UInt16
  sourceUrlLen : UInt16
  sourceUrl : CArray maxSourceUrlBytes
  deriving DecidableEq

structure Started where
  sessionId : SessionId
  sourceActive : UInt8

structure Position where
  sessionId : SessionId
  currentPtsUs : Int64
  inputTimeUs : Int64
  playbackRate : Binary32
  flags : UInt32

structure Audio where
  sessionId : SessionId
  startPtsUs : Int64
  durationUs : Int64
  pcm : Slice UInt32

/-- PAUSE, RESUME and STOP share one layout. -/
structure Control where
  sessionId : SessionId
  reason : UInt16

structure Status where
  sessionId : SessionId
  state : UInt32
  queuedAudioUs : Int64
  inferenceUs : Int64
  droppedAudioUs : Int64
  resolvedBackend : CArray 16

structure ModelCtrl where
  sessionId : SessionId
  action : UInt8
  modelId : CArray 32

structure ModelProgress where
  sessionId : SessionId
  stage : UInt8
  pct : UInt8
  bytesDone : UInt64
  bytesTotal : UInt64
  modelId : CArray 32

structure TranslateCtrl where
  sessionId : SessionId
  enabled : UInt8
  sourceLang : CArray 16
  targetLang : CArray 16
  mode : UInt8

structure Error where
  sessionId : SessionId
  errorCode : UInt32
  recoverable : UInt8
  message : CArray maxErrorMsgBytes

structure CaptionSegment where
  sessionId : SessionId
  segmentId : UInt64
  startPtsUs : Int64
  endPtsUs : Int64
  isFinal : UInt8
  text : Slice UInt16
  translatedText : Slice UInt16
  translationAttempted : Bool
  translationLatencyUs : UInt32
  translationTier : UInt8

/-- A payload with the type that selects its struct; SHUTDOWN has none. -/
inductive Payload where
  | hello (p : Hello)
  | helloAck (p : HelloAck)
  | startSession (p : Start)
  | audioPcm (p : Audio)
  | pause (p : Control)
  | resume (p : Control)
  | stopSession (p : Control)
  | captionSegment (p : CaptionSegment)
  | status (p : Status)
  | error (p : Error)
  | shutdown
  | started (p : Started)
  | position (p : Position)
  | modelCtrl (p : ModelCtrl)
  | modelProgress (p : ModelProgress)
  | translateCtrl (p : TranslateCtrl)

def Payload.type : Payload → MessageType
  | .hello _ => .hello
  | .helloAck _ => .helloAck
  | .startSession _ => .startSession
  | .audioPcm _ => .audioPcm
  | .pause _ => .pause
  | .resume _ => .resume
  | .stopSession _ => .stopSession
  | .captionSegment _ => .captionSegment
  | .status _ => .status
  | .error _ => .error
  | .shutdown => .shutdown
  | .started _ => .started
  | .position _ => .position
  | .modelCtrl _ => .modelCtrl
  | .modelProgress _ => .modelProgress
  | .translateCtrl _ => .translateCtrl

end VlcWhisper.Protocol
