import VlcWhisper.Protocol.Validate

/-!
# Payload encoding and decoding (`vw_protocol_codec.c`)

`encodeFields` lists, for each payload, the chunks its `ENC_FIELD`/`ENC_BYTES` lines append;
`encodePayload` writes them into a buffer of a given size. `decodePayload` runs the `DEC_*` lines as a
`Reader` and accepts only if nothing is left. Words are little-endian, as on every supported host.

Each decoder has one lemma, `read_<type>`, that says on which bytes it returns which message. What the
decoder changes while copying (forced terminators, zero padding, absent tails) appears there.
-/

namespace VlcWhisper.Protocol

open VlcWhisper.Lib
open WireWord (bytes)

/-! ## Encoding -/

/-- Bytes of a string field that are sent: its length, capped below the array size. -/
def cappedStrnlen {n : Nat} (a : CArray n) : Nat :=
  let len := strnlen a.bytes n
  if n ≤ len then n - 1 else len

/-- The URL length START sends. -/
def urlLen (p : Start) : Nat :=
  let len := if 0 < p.sourceUrlLen then p.sourceUrlLen.toNat else strnlen p.sourceUrl.bytes maxSourceUrlBytes
  if maxSourceUrlBytes ≤ len then maxSourceUrlBytes - 1 else len

def hasTranslationTail (p : CaptionSegment) : Bool :=
  p.translationAttempted || decide (0 < p.translatedText.length)

/-- The chunks `vw_protocol_encode_payload` appends, in order; `none` where it refuses the payload. -/
def encodeFields : Payload → Option (List Bytes)
  | .hello p =>
    if p.clientVersion.Dangling then none
    else some [bytes p.minMajor, bytes p.maxMajor, p.authToken.bytes, bytes p.clientVersion.length,
      p.clientVersion.bytes]
  | .helloAck p =>
    if p.workerVersion.Dangling then none
    else some [bytes p.selectedMajor, bytes p.selectedMinor, bytes p.capabilityFlags,
      bytes p.workerVersion.length, p.workerVersion.bytes]
  | .startSession p =>
    let modelIdLen := cappedStrnlen p.modelId
    let langLen := cappedStrnlen p.language
    some [p.sessionId.bytes, bytes p.timelineOriginPtsUs, bytes p.sampleRate, bytes p.channels,
      bytes p.sampleFormat, bytes (UInt16.ofNat modelIdLen), p.modelId.bytes.take modelIdLen,
      bytes (UInt16.ofNat langLen), p.language.bytes.take langLen, bytes p.sourceKind,
      bytes (UInt16.ofNat (urlLen p)), p.sourceUrl.bytes.take (urlLen p)]
  | .position p =>
    some [p.sessionId.bytes, bytes p.currentPtsUs, bytes p.inputTimeUs, bytes p.playbackRate, bytes p.flags]
  | .audioPcm p =>
    if p.pcm.Dangling then none
    else some [p.sessionId.bytes, bytes p.startPtsUs, bytes p.durationUs, bytes p.pcm.length, p.pcm.bytes]
  | .pause p | .resume p | .stopSession p => some [p.sessionId.bytes, bytes p.reason]
  | .captionSegment p =>
    if p.text.Dangling then none
    else if p.translatedText.Dangling then none
    else some ([p.sessionId.bytes, bytes p.segmentId, bytes p.startPtsUs, bytes p.endPtsUs, bytes p.isFinal,
        bytes p.text.length, p.text.bytes] ++
      if hasTranslationTail p then
        [bytes p.translatedText.length, p.translatedText.bytes, bytes p.translationLatencyUs,
          bytes p.translationTier]
      else [])
  | .translateCtrl p =>
    some [p.sessionId.bytes, bytes p.enabled, p.sourceLang.bytes, p.targetLang.bytes, bytes p.mode]
  | .status p =>
    some [p.sessionId.bytes, bytes p.state, bytes p.queuedAudioUs, bytes p.inferenceUs,
      bytes p.droppedAudioUs, p.resolvedBackend.bytes]
  | .modelCtrl p => some [p.sessionId.bytes, bytes p.action, p.modelId.bytes]
  | .modelProgress p =>
    some [p.sessionId.bytes, bytes p.stage, bytes p.pct, bytes p.bytesDone, bytes p.bytesTotal,
      p.modelId.bytes]
  | .error p =>
    -- a message without its own terminator is refused
    if maxErrorMsgBytes ≤ strnlen p.message.bytes maxErrorMsgBytes then none
    else some [p.sessionId.bytes, bytes p.errorCode, bytes p.recoverable, p.message.bytes]
  | .started p => some [p.sessionId.bytes, bytes p.sourceActive]
  | .shutdown => some []

/-- `vw_protocol_encode_payload` into a buffer of `bufferSize` bytes. -/
def encodePayload (p : Payload) (bufferSize : Nat) : Option Bytes :=
  match encodeFields p with
  | none => none
  | some fields => writeAll bufferSize [] fields

/-! ## Decoding -/

open Reader

def readHello : Reader Hello := do
  let minMajor ← word UInt16
  let maxMajor ← word UInt16
  let authToken ← array authTokenBytes
  let clientVersionLength ← word UInt16
  let clientVersion ← slice clientVersionLength
  pure { minMajor, maxMajor, authToken, clientVersion }

def readHelloAck : Reader HelloAck := do
  let selectedMajor ← word UInt16
  let selectedMinor ← word UInt16
  let capabilityFlags ← word UInt32
  let workerVersionLength ← word UInt16
  let workerVersion ← slice workerVersionLength
  pure { selectedMajor, selectedMinor, capabilityFlags, workerVersion }

/-- A `u16` length below `n`, then that many bytes into a zeroed array with a terminator after them. -/
def readBoundedString (n : Nat) : Reader (UInt16 × CArray n) := do
  let len ← word UInt16
  if n ≤ len.toNat then failure
  else do
    let bs ← take len.toNat
    pure (len, CArray.pad n bs)

/-- The source URL is optional: older clients end the payload before it. -/
def readSourceUrl : Reader (UInt16 × CArray maxSourceUrlBytes) := do
  let left ← remaining
  if 0 < left then readBoundedString maxSourceUrlBytes
  else pure (0, CArray.zero maxSourceUrlBytes)

def readStart : Reader Start := do
  let sessionId ← array sessionIdBytes
  let timelineOriginPtsUs ← word Int64
  let sampleRate ← word UInt32
  let channels ← word UInt16
  let sampleFormat ← word UInt16
  let (_, modelId) ← readBoundedString maxModelIdBytes
  let (_, language) ← readBoundedString 16
  let sourceKind ← word UInt16
  let (sourceUrlLen, sourceUrl) ← readSourceUrl
  pure { sessionId, timelineOriginPtsUs, sampleRate, channels, sampleFormat, modelId, language, sourceKind,
         sourceUrlLen, sourceUrl }

def readPosition : Reader Position := do
  let sessionId ← array sessionIdBytes
  let currentPtsUs ← word Int64
  let inputTimeUs ← word Int64
  let playbackRate ← word Binary32
  let flags ← word UInt32
  pure { sessionId, currentPtsUs, inputTimeUs, playbackRate, flags }

def readAudio : Reader Audio := do
  let sessionId ← array sessionIdBytes
  let startPtsUs ← word Int64
  let durationUs ← word Int64
  let pcmBytes ← word UInt32
  let pcm ← slice pcmBytes
  pure { sessionId, startPtsUs, durationUs, pcm }

def readControl : Reader Control := do
  let sessionId ← array sessionIdBytes
  let reason ← word UInt16
  pure { sessionId, reason }

/-- The translated text of a caption: NULL when its length is zero. -/
def readTranslatedText (len : UInt16) : Reader (Slice UInt16) :=
  if 0 < len then slice len else pure (.null 0)

structure TranslationTail where
  text : Slice UInt16
  attempted : Bool
  latencyUs : UInt32
  tier : UInt8

/-- The optional tail of a caption. -/
def readTranslationTail : Reader TranslationTail := do
  let left ← remaining
  if 0 < left then do
    if left < 7 then failure
    else do
      let len ← word UInt16
      let text ← readTranslatedText len
      let left ← remaining
      if left ≠ 5 then failure
      else do
        let latencyUs ← word UInt32
        let tier ← word UInt8
        pure { text, attempted := true, latencyUs, tier }
  else pure { text := .null 0, attempted := false, latencyUs := 0, tier := 0 }

def readCaptionSegment : Reader CaptionSegment := do
  let sessionId ← array sessionIdBytes
  let segmentId ← word UInt64
  let startPtsUs ← word Int64
  let endPtsUs ← word Int64
  let isFinal ← word UInt8
  let textBytes ← word UInt16
  let text ← slice textBytes
  let tail ← readTranslationTail
  pure { sessionId, segmentId, startPtsUs, endPtsUs, isFinal, text, translatedText := tail.text,
         translationAttempted := tail.attempted, translationLatencyUs := tail.latencyUs,
         translationTier := tail.tier }

def readTranslateCtrl : Reader TranslateCtrl := do
  let sessionId ← array sessionIdBytes
  let enabled ← word UInt8
  let sourceLang ← array 16
  let targetLang ← array 16
  let mode ← word UInt8
  pure { sessionId, enabled, sourceLang := sourceLang.terminate, targetLang := targetLang.terminate, mode }

/-- The resolved backend is absent from the 44-byte layout of older workers. -/
def readResolvedBackend (bufferSize : Nat) : Reader (CArray 16) :=
  if 60 ≤ bufferSize then do
    let backend ← array 16
    pure backend.terminate
  else pure (CArray.zero 16)

def readStatus (bufferSize : Nat) : Reader Status := do
  if bufferSize < 44 then failure
  else do
    let sessionId ← array sessionIdBytes
    let state ← word UInt32
    let queuedAudioUs ← word Int64
    let inferenceUs ← word Int64
    let droppedAudioUs ← word Int64
    let resolvedBackend ← readResolvedBackend bufferSize
    pure { sessionId, state, queuedAudioUs, inferenceUs, droppedAudioUs, resolvedBackend }

def readModelCtrl : Reader ModelCtrl := do
  let sessionId ← array sessionIdBytes
  let action ← word UInt8
  let modelId ← array 32
  pure { sessionId, action, modelId := modelId.terminate }

def readModelProgress : Reader ModelProgress := do
  let sessionId ← array sessionIdBytes
  let stage ← word UInt8
  let pct ← word UInt8
  let bytesDone ← word UInt64
  let bytesTotal ← word UInt64
  let modelId ← array 32
  pure { sessionId, stage, pct, bytesDone, bytesTotal, modelId := modelId.terminate }

/-- A message that carries a terminator is kept as it is. -/
def terminateMessage (message : CArray maxErrorMsgBytes) : CArray maxErrorMsgBytes :=
  if message.Terminated then message else message.terminate

def readError : Reader Error := do
  let sessionId ← array sessionIdBytes
  let errorCode ← word UInt32
  let recoverable ← word UInt8
  let message ← array maxErrorMsgBytes
  pure { sessionId, errorCode, recoverable, message := terminateMessage message }

/-- Older workers send the source flag alone. -/
def readStarted (bufferSize : Nat) : Reader Started :=
  if bufferSize = 1 then do
    let sourceActive ← word UInt8
    pure { sessionId := CArray.zero sessionIdBytes, sourceActive }
  else do
    let sessionId ← array sessionIdBytes
    let sourceActive ← word UInt8
    pure { sessionId, sourceActive }

/-- The exact size some fixed layouts require up front. -/
def exactSize : MessageType → Option Nat
  | .translateCtrl => some 50
  | .modelCtrl => some 49
  | .modelProgress => some 66
  | _ => none

/-- The `DEC_*` lines of one message type. -/
def readPayload (type : MessageType) (bufferSize : Nat) : Reader Payload :=
  match type with
  | .hello => .hello <$> readHello
  | .helloAck => .helloAck <$> readHelloAck
  | .startSession => .startSession <$> readStart
  | .position => .position <$> readPosition
  | .audioPcm => .audioPcm <$> readAudio
  | .pause => .pause <$> readControl
  | .resume => .resume <$> readControl
  | .stopSession => .stopSession <$> readControl
  | .captionSegment => .captionSegment <$> readCaptionSegment
  | .translateCtrl => .translateCtrl <$> readTranslateCtrl
  | .status => .status <$> readStatus bufferSize
  | .modelCtrl => .modelCtrl <$> readModelCtrl
  | .modelProgress => .modelProgress <$> readModelProgress
  | .error => .error <$> readError
  | .started => .started <$> readStarted bufferSize
  | .shutdown => pure .shutdown

/-- `vw_protocol_decode_payload`; `none` as buffer is NULL. -/
def decodePayload (type : MessageType) : Option Bytes → Option Payload
  | none => none
  | some buffer =>
    if (exactSize type).any (· ≠ buffer.length) then none
    else match (readPayload type buffer.length).run buffer with
      | some (p, []) => some p
      | _ => none

/-! ## What is sent of a string -/

theorem cappedStrnlen_of_terminated {n : Nat} {a : CArray n} (h : a.Terminated) :
    cappedStrnlen a = a.str.length := by
  have hlt : a.str.length < n := a.str_length_lt_iff.mpr h
  have hlen : strnlen a.bytes n = a.str.length := strnlen_of_length a.length_bytes
  simp only [cappedStrnlen, hlen, if_neg (show ¬ n ≤ a.str.length by omega)]

theorem take_str {n : Nat} (a : CArray n) : a.bytes.take a.str.length = a.str := take_cstr_length a.bytes

theorem urlLen_of_terminated {p : Start} (hterm : p.sourceUrl.Terminated)
    (hlen : p.sourceUrlLen.toNat = p.sourceUrl.str.length) : urlLen p = p.sourceUrl.str.length := by
  have hlt : p.sourceUrl.str.length < maxSourceUrlBytes := p.sourceUrl.str_length_lt_iff.mpr hterm
  have hstr : strnlen p.sourceUrl.bytes maxSourceUrlBytes = p.sourceUrl.str.length :=
    strnlen_of_length p.sourceUrl.length_bytes
  simp only [urlLen, hlen, hstr, ite_self, if_neg (show ¬ maxSourceUrlBytes ≤ p.sourceUrl.str.length by omega)]

/-! ## What each decoder accepts -/

theorem run_map_eq_some {α β : Type} {d : Reader α} {f : α → β} {bs rest : Bytes} {b : β} :
    (f <$> d).run bs = some (b, rest) ↔ ∃ a, d.run bs = some (a, rest) ∧ f a = b := by
  rw [StateT.run_map]
  simp

theorem decodePayload_eq_some {type : MessageType} {buffer : Bytes} {p : Payload} :
    decodePayload type (some buffer) = some p ↔
      (∀ n, exactSize type = some n → buffer.length = n) ∧
        (readPayload type buffer.length).run buffer = some (p, []) := by
  simp only [decodePayload]
  split
  · rename_i hany
    constructor
    · intro h; cases h
    · rintro ⟨h, -⟩
      obtain ⟨n, hn, hne⟩ := (Option.any_eq_true _ _).mp hany
      simp [h n hn] at hne
  · rename_i hany
    have hsize : ∀ n, exactSize type = some n → buffer.length = n := by
      intro n hn
      by_contra hne
      apply hany
      simp only [hn, Option.any_some, decide_eq_true_eq]
      exact fun h => hne h.symm
    constructor
    · intro h
      split at h
      · rename_i q hrun
        obtain rfl := Option.some.inj h
        exact ⟨hsize, hrun⟩
      · cases h
    · rintro ⟨-, hrun⟩
      rw [hrun]

theorem type_of_decodePayload {type : MessageType} {buffer : Option Bytes} {p : Payload}
    (h : decodePayload type buffer = some p) : p.type = type := by
  cases buffer with
  | none => cases h
  | some buffer =>
    have hread := (decodePayload_eq_some.mp h).2
    cases type with
    | shutdown => exact (Prod.mk.inj (Option.some.inj hread)).1 ▸ rfl
    | _ =>
      obtain ⟨_, -, rfl⟩ := run_map_eq_some.mp hread
      rfl

theorem read_hello {bs rest : Bytes} {p : Hello} :
    readHello.run bs = some (p, rest) ↔ p.clientVersion.Exact ∧
      bs = bytes p.minMajor ++ (bytes p.maxMajor ++ (p.authToken.bytes ++ (bytes p.clientVersion.length ++
        (p.clientVersion.bytes ++ rest)))) := by
  simp only [readHello, run_bind_eq_some, word_run_eq_some, array_run_eq_some, slice_run_eq_some,
    run_pure_eq_some]
  constructor
  · rintro ⟨minMajor, _, rfl, maxMajor, _, rfl, authToken, _, rfl, len, _, rfl, version, _, ⟨rfl, h, rfl⟩,
      rfl, rfl⟩
    exact ⟨h, rfl⟩
  · rintro ⟨h, rfl⟩
    exact ⟨_, _, rfl, _, _, rfl, _, _, rfl, _, _, rfl, _, _, ⟨rfl, h, rfl⟩, rfl, rfl⟩

theorem read_helloAck {bs rest : Bytes} {p : HelloAck} :
    readHelloAck.run bs = some (p, rest) ↔ p.workerVersion.Exact ∧
      bs = bytes p.selectedMajor ++ (bytes p.selectedMinor ++ (bytes p.capabilityFlags ++
        (bytes p.workerVersion.length ++ (p.workerVersion.bytes ++ rest)))) := by
  simp only [readHelloAck, run_bind_eq_some, word_run_eq_some, slice_run_eq_some, run_pure_eq_some]
  constructor
  · rintro ⟨major, _, rfl, minor, _, rfl, flags, _, rfl, len, _, rfl, version, _, ⟨rfl, h, rfl⟩, rfl, rfl⟩
    exact ⟨h, rfl⟩
  · rintro ⟨h, rfl⟩
    exact ⟨_, _, rfl, _, _, rfl, _, _, rfl, _, _, rfl, _, _, ⟨rfl, h, rfl⟩, rfl, rfl⟩

theorem read_position {bs rest : Bytes} {p : Position} :
    readPosition.run bs = some (p, rest) ↔
      bs = p.sessionId.bytes ++ (bytes p.currentPtsUs ++ (bytes p.inputTimeUs ++ (bytes p.playbackRate ++
        (bytes p.flags ++ rest)))) := by
  simp only [readPosition, run_bind_eq_some, word_run_eq_some, array_run_eq_some, run_pure_eq_some]
  constructor
  · rintro ⟨id, _, rfl, pts, _, rfl, time, _, rfl, rate, _, rfl, flags, _, rfl, rfl, rfl⟩
    rfl
  · rintro rfl
    exact ⟨_, _, rfl, _, _, rfl, _, _, rfl, _, _, rfl, _, _, rfl, rfl, rfl⟩

theorem read_audio {bs rest : Bytes} {p : Audio} :
    readAudio.run bs = some (p, rest) ↔ p.pcm.Exact ∧
      bs = p.sessionId.bytes ++ (bytes p.startPtsUs ++ (bytes p.durationUs ++ (bytes p.pcm.length ++
        (p.pcm.bytes ++ rest)))) := by
  simp only [readAudio, run_bind_eq_some, word_run_eq_some, array_run_eq_some, slice_run_eq_some,
    run_pure_eq_some]
  constructor
  · rintro ⟨id, _, rfl, pts, _, rfl, duration, _, rfl, len, _, rfl, pcm, _, ⟨rfl, h, rfl⟩, rfl, rfl⟩
    exact ⟨h, rfl⟩
  · rintro ⟨h, rfl⟩
    exact ⟨_, _, rfl, _, _, rfl, _, _, rfl, _, _, rfl, _, _, ⟨rfl, h, rfl⟩, rfl, rfl⟩

theorem read_control {bs rest : Bytes} {p : Control} :
    readControl.run bs = some (p, rest) ↔ bs = p.sessionId.bytes ++ (bytes p.reason ++ rest) := by
  simp only [readControl, run_bind_eq_some, word_run_eq_some, array_run_eq_some, run_pure_eq_some]
  constructor
  · rintro ⟨id, _, rfl, reason, _, rfl, rfl, rfl⟩
    rfl
  · rintro rfl
    exact ⟨_, _, rfl, _, _, rfl, rfl, rfl⟩

/-- The bytes `d` of a counted string, and the zeroed array they were copied into. -/
def CountedString {n : Nat} (len : UInt16) (a : CArray n) (d : Bytes) : Prop :=
  d.length = len.toNat ∧ len.toNat < n ∧ a = CArray.pad n d

theorem read_boundedString {n : Nat} {bs rest : Bytes} {len : UInt16} {a : CArray n} :
    (readBoundedString n).run bs = some ((len, a), rest) ↔
      ∃ d, CountedString len a d ∧ bs = bytes len ++ (d ++ rest) := by
  simp only [readBoundedString, run_bind_eq_some, word_run_eq_some]
  constructor
  · rintro ⟨len', mid, rfl, h⟩
    split at h
    · cases h
    · rename_i hlt
      simp only [run_bind_eq_some, take_run_eq_some, run_pure_eq_some, Prod.mk.injEq] at h
      obtain ⟨d, _, ⟨hd, rfl⟩, ⟨rfl, rfl⟩, rfl⟩ := h
      exact ⟨d, ⟨hd, by omega, rfl⟩, rfl⟩
  · rintro ⟨d, ⟨hd, hlt, rfl⟩, rfl⟩
    refine ⟨len, _, rfl, ?_⟩
    rw [if_neg (by omega)]
    simp only [run_bind_eq_some, take_run_eq_some, run_pure_eq_some]
    exact ⟨d, _, ⟨hd, rfl⟩, rfl, rfl⟩

theorem read_sourceUrl {bs rest : Bytes} {len : UInt16} {a : CArray maxSourceUrlBytes} :
    readSourceUrl.run bs = some ((len, a), rest) ↔
      (bs = [] ∧ rest = [] ∧ len = 0 ∧ a = CArray.zero _) ∨
        ∃ d, CountedString len a d ∧ bs = bytes len ++ (d ++ rest) := by
  simp only [readSourceUrl, run_bind_eq_some, remaining_run_eq_some]
  constructor
  · rintro ⟨left, _, ⟨rfl, rfl⟩, h⟩
    split at h
    · exact .inr (read_boundedString.mp h)
    · rename_i hlen
      simp only [run_pure_eq_some, Prod.mk.injEq] at h
      obtain ⟨⟨rfl, rfl⟩, rfl⟩ := h
      obtain rfl : bs = [] := List.length_eq_zero_iff.mp (by omega)
      exact .inl ⟨rfl, rfl, rfl, rfl⟩
  · rintro (⟨rfl, rfl, rfl, rfl⟩ | ⟨d, hd, rfl⟩)
    · exact ⟨_, _, ⟨rfl, rfl⟩, rfl⟩
    · refine ⟨_, _, ⟨rfl, rfl⟩, ?_⟩
      rw [if_pos (by simp)]
      exact read_boundedString.mpr ⟨d, hd, rfl⟩

theorem read_start {bs rest : Bytes} {p : Start} :
    readStart.run bs = some (p, rest) ↔ ∃ modelIdLen modelId langLen language url,
      CountedString modelIdLen p.modelId modelId ∧ CountedString langLen p.language language ∧
      ((url = [] ∧ rest = [] ∧ p.sourceUrlLen = 0 ∧ p.sourceUrl = CArray.zero _) ∨
        ∃ d, CountedString p.sourceUrlLen p.sourceUrl d ∧ url = bytes p.sourceUrlLen ++ (d ++ rest)) ∧
      bs = p.sessionId.bytes ++ (bytes p.timelineOriginPtsUs ++ (bytes p.sampleRate ++ (bytes p.channels ++
        (bytes p.sampleFormat ++ (bytes modelIdLen ++ (modelId ++ (bytes langLen ++ (language ++
          (bytes p.sourceKind ++ url))))))))) := by
  simp only [readStart, run_bind_eq_some, word_run_eq_some, array_run_eq_some, Prod.exists,
    read_boundedString, read_sourceUrl, run_pure_eq_some]
  constructor
  · rintro ⟨id, _, rfl, origin, _, rfl, rate, _, rfl, channels, _, rfl, format, _, rfl, modelIdLen, _, _,
      ⟨modelId, hm, rfl⟩, langLen, _, _, ⟨language, hl, rfl⟩, kind, url, rfl, _, _, _, hurl, rfl, rfl⟩
    exact ⟨modelIdLen, modelId, langLen, language, url, hm, hl, hurl, rfl⟩
  · rintro ⟨modelIdLen, modelId, langLen, language, url, hm, hl, hurl, rfl⟩
    exact ⟨_, _, rfl, _, _, rfl, _, _, rfl, _, _, rfl, _, _, rfl, _, _, _, ⟨modelId, hm, rfl⟩, _, _, _,
      ⟨language, hl, rfl⟩, _, _, rfl, _, _, _, hurl, rfl, rfl⟩

/-- A translated text as decoding leaves it. -/
def TextExact (s : Slice UInt16) : Prop := if 0 < s.length then s.Exact else s = .null 0

theorem TextExact.length_bytes {s : Slice UInt16} (h : TextExact s) : s.bytes.length = s.length.toNat := by
  rw [TextExact] at h
  split at h
  · exact h.2
  · rw [h, Slice.bytes_null]
    rfl

theorem TextExact.not_dangling {s : Slice UInt16} (h : TextExact s) : ¬ s.Dangling := by
  rw [TextExact] at h
  split at h
  · exact h.not_dangling
  · rw [h]
    rintro ⟨hpos, -⟩
    simp [Slice.null, WireWord.toNat] at hpos

theorem read_translatedText {bs rest : Bytes} {len : UInt16} {s : Slice UInt16} :
    (readTranslatedText len).run bs = some (s, rest) ↔
      s.length = len ∧ TextExact s ∧ bs = s.bytes ++ rest := by
  simp only [readTranslatedText, TextExact]
  split
  · rename_i h
    rw [slice_run_eq_some]
    constructor
    · rintro ⟨rfl, hex, rfl⟩
      exact ⟨rfl, by rwa [if_pos h], rfl⟩
    · rintro ⟨rfl, hex, rfl⟩
      rw [if_pos h] at hex
      exact ⟨rfl, hex, rfl⟩
  · rename_i h
    rw [run_pure_eq_some]
    constructor
    · rintro ⟨rfl, rfl⟩
      refine ⟨?_, by simp [Slice.null], by simp⟩
      have h0 : len.toNat = 0 := by
        have : ¬ 0 < len.toNat := h
        omega
      exact (UInt16.toNat_inj.mp h0).symm
    · rintro ⟨rfl, hnull, rfl⟩
      rw [if_neg h] at hnull
      rw [← hnull]
      refine ⟨rfl, ?_⟩
      rw [hnull]
      simp

theorem read_translationTail {bs rest : Bytes} {t : TranslationTail} :
    readTranslationTail.run bs = some (t, rest) ↔
      (bs = [] ∧ rest = [] ∧ t = ⟨.null 0, false, 0, 0⟩) ∨
        (t.attempted = true ∧ TextExact t.text ∧ rest = [] ∧
          bs = bytes t.text.length ++ (t.text.bytes ++ (bytes t.latencyUs ++ bytes t.tier))) := by
  simp only [readTranslationTail, run_bind_eq_some, remaining_run_eq_some]
  constructor
  · rintro ⟨left, _, ⟨rfl, rfl⟩, h⟩
    split at h
    · right
      split at h
      · cases h
      simp only [run_bind_eq_some, word_run_eq_some, read_translatedText, remaining_run_eq_some] at h
      obtain ⟨len, _, rfl, text, _, ⟨rfl, htext, rfl⟩, left, _, ⟨rfl, rfl⟩, h⟩ := h
      split at h
      · cases h
      rename_i hfive
      simp only [run_bind_eq_some, word_run_eq_some, run_pure_eq_some] at h
      obtain ⟨latency, _, rfl, tier, rest, rfl, rfl, rfl⟩ := h
      simp only [List.length_append, WireWord.length_bytes, WireWord.size_uint32, WireWord.size_uint8] at hfive
      obtain rfl : rest = [] := List.length_eq_zero_iff.mp (by omega)
      exact ⟨rfl, htext, rfl, by simp⟩
    · rename_i hlen
      rw [run_pure_eq_some] at h
      obtain ⟨rfl, rfl⟩ := h
      obtain rfl : bs = [] := List.length_eq_zero_iff.mp (by omega)
      exact .inl ⟨rfl, rfl, rfl⟩
  · rintro (⟨rfl, rfl, rfl⟩ | ⟨hatt, htext, rfl, rfl⟩)
    · exact ⟨_, _, ⟨rfl, rfl⟩, rfl⟩
    · refine ⟨_, _, ⟨rfl, rfl⟩, ?_⟩
      rw [if_pos (by simp), if_neg (by simp; omega)]
      simp only [run_bind_eq_some, word_run_eq_some, read_translatedText, remaining_run_eq_some]
      refine ⟨_, _, rfl, _, _, ⟨rfl, htext, rfl⟩, _, _, ⟨rfl, rfl⟩, ?_⟩
      rw [if_neg (by simp)]
      simp only [run_bind_eq_some, word_run_eq_some, run_pure_eq_some]
      refine ⟨_, _, rfl, _, [], (List.append_nil _).symm, ?_, rfl⟩
      rw [← hatt]

/-- A caption without its tail. -/
def captionHead (p : CaptionSegment) : Bytes :=
  p.sessionId.bytes ++ (bytes p.segmentId ++ (bytes p.startPtsUs ++ (bytes p.endPtsUs ++ (bytes p.isFinal ++
    (bytes p.text.length ++ p.text.bytes)))))

theorem read_captionSegment {bs rest : Bytes} {p : CaptionSegment} :
    readCaptionSegment.run bs = some (p, rest) ↔ p.text.Exact ∧ rest = [] ∧
      ((bs = captionHead p ∧ p.translatedText = .null 0 ∧ p.translationAttempted = false ∧
          p.translationLatencyUs = 0 ∧ p.translationTier = 0) ∨
        (p.translationAttempted = true ∧ TextExact p.translatedText ∧
          bs = captionHead p ++ (bytes p.translatedText.length ++ (p.translatedText.bytes ++
            (bytes p.translationLatencyUs ++ bytes p.translationTier))))) := by
  simp only [readCaptionSegment, run_bind_eq_some, word_run_eq_some, array_run_eq_some, slice_run_eq_some,
    read_translationTail, run_pure_eq_some, captionHead]
  constructor
  · rintro ⟨id, _, rfl, segmentId, _, rfl, start, _, rfl, stop, _, rfl, final, _, rfl, len, _, rfl, text, _,
      ⟨rfl, htext, rfl⟩, tail, _, htail, rfl, rfl⟩
    refine ⟨htext, ?_⟩
    rcases htail with ⟨rfl, rfl, rfl⟩ | ⟨hatt, hex, rfl, rfl⟩
    · exact ⟨rfl, .inl ⟨by simp, rfl, rfl, rfl, rfl⟩⟩
    · exact ⟨rfl, .inr ⟨hatt, hex, by simp⟩⟩
  · rintro ⟨htext, rfl, ⟨rfl, hnull, hatt, hlat, htier⟩ | ⟨hatt, hex, rfl⟩⟩
    · refine ⟨_, _, rfl, _, _, rfl, _, _, rfl, _, _, rfl, _, _, rfl, _, _, rfl, p.text, [], ⟨rfl, htext, by simp⟩,
        ⟨.null 0, false, 0, 0⟩, [], .inl ⟨rfl, rfl, rfl⟩, ?_, rfl⟩
      simp only [← hnull, ← hatt, ← hlat, ← htier]
    · simp only [List.append_assoc]
      exact ⟨_, _, rfl, _, _, rfl, _, _, rfl, _, _, rfl, _, _, rfl, _, _, rfl, p.text, _, ⟨rfl, htext, rfl⟩,
        ⟨p.translatedText, p.translationAttempted, p.translationLatencyUs, p.translationTier⟩, [],
        .inr ⟨hatt, hex, rfl, rfl⟩, rfl, rfl⟩

theorem read_translateCtrl {bs rest : Bytes} {p : TranslateCtrl} :
    readTranslateCtrl.run bs = some (p, rest) ↔ ∃ source target : CArray 16,
      p.sourceLang = source.terminate ∧ p.targetLang = target.terminate ∧
      bs = p.sessionId.bytes ++ (bytes p.enabled ++ (source.bytes ++ (target.bytes ++
        (bytes p.mode ++ rest)))) := by
  simp only [readTranslateCtrl, run_bind_eq_some, word_run_eq_some, array_run_eq_some, run_pure_eq_some]
  constructor
  · rintro ⟨id, _, rfl, enabled, _, rfl, source, _, rfl, target, _, rfl, mode, _, rfl, rfl, rfl⟩
    exact ⟨source, target, rfl, rfl, rfl⟩
  · rintro ⟨source, target, hs, ht, rfl⟩
    refine ⟨_, _, rfl, _, _, rfl, source, _, rfl, target, _, rfl, _, _, rfl, ?_, rfl⟩
    rw [← hs, ← ht]

/-- The backend a STATUS of `size` bytes carries, and its bytes there. -/
def BackendBytes (size : Nat) (backend : CArray 16) (d : Bytes) : Prop :=
  (60 ≤ size ∧ ∃ raw : CArray 16, backend = raw.terminate ∧ d = raw.bytes) ∨
    (size < 60 ∧ backend = CArray.zero 16 ∧ d = [])

theorem read_resolvedBackend {size : Nat} {bs rest : Bytes} {backend : CArray 16} :
    (readResolvedBackend size).run bs = some (backend, rest) ↔
      ∃ d, BackendBytes size backend d ∧ bs = d ++ rest := by
  simp only [readResolvedBackend, BackendBytes]
  split
  · rename_i h
    simp only [run_bind_eq_some, array_run_eq_some, run_pure_eq_some]
    constructor
    · rintro ⟨raw, _, rfl, rfl, rfl⟩
      exact ⟨_, .inl ⟨h, raw, rfl, rfl⟩, rfl⟩
    · rintro ⟨d, ⟨-, raw, rfl, rfl⟩ | ⟨hlt, -⟩, rfl⟩
      · exact ⟨raw, _, rfl, rfl, rfl⟩
      · omega
  · rename_i h
    rw [run_pure_eq_some]
    constructor
    · rintro ⟨rfl, rfl⟩
      exact ⟨[], .inr ⟨by omega, rfl, rfl⟩, rfl⟩
    · rintro ⟨d, ⟨hle, -⟩ | ⟨-, rfl, rfl⟩, rfl⟩
      · omega
      · exact ⟨rfl, rfl⟩

theorem read_status {size : Nat} {bs rest : Bytes} {p : Status} :
    (readStatus size).run bs = some (p, rest) ↔ 44 ≤ size ∧ ∃ d, BackendBytes size p.resolvedBackend d ∧
      bs = p.sessionId.bytes ++ (bytes p.state ++ (bytes p.queuedAudioUs ++ (bytes p.inferenceUs ++
        (bytes p.droppedAudioUs ++ (d ++ rest))))) := by
  simp only [readStatus]
  split
  · rename_i h
    constructor
    · intro h'; cases h'
    · rintro ⟨h', -⟩
      omega
  · rename_i h
    simp only [run_bind_eq_some, word_run_eq_some, array_run_eq_some, read_resolvedBackend, run_pure_eq_some]
    constructor
    · rintro ⟨id, _, rfl, state, _, rfl, queued, _, rfl, inference, _, rfl, dropped, _, rfl, backend, _,
        ⟨d, hd, rfl⟩, rfl, rfl⟩
      exact ⟨by omega, d, hd, rfl⟩
    · rintro ⟨-, d, hd, rfl⟩
      exact ⟨_, _, rfl, _, _, rfl, _, _, rfl, _, _, rfl, _, _, rfl, _, _, ⟨d, hd, rfl⟩, rfl, rfl⟩

theorem read_modelCtrl {bs rest : Bytes} {p : ModelCtrl} :
    readModelCtrl.run bs = some (p, rest) ↔ ∃ raw : CArray 32, p.modelId = raw.terminate ∧
      bs = p.sessionId.bytes ++ (bytes p.action ++ (raw.bytes ++ rest)) := by
  simp only [readModelCtrl, run_bind_eq_some, word_run_eq_some, array_run_eq_some, run_pure_eq_some]
  constructor
  · rintro ⟨id, _, rfl, action, _, rfl, raw, _, rfl, rfl, rfl⟩
    exact ⟨raw, rfl, rfl⟩
  · rintro ⟨raw, hraw, rfl⟩
    refine ⟨_, _, rfl, _, _, rfl, raw, _, rfl, ?_, rfl⟩
    rw [← hraw]

theorem read_modelProgress {bs rest : Bytes} {p : ModelProgress} :
    readModelProgress.run bs = some (p, rest) ↔ ∃ raw : CArray 32, p.modelId = raw.terminate ∧
      bs = p.sessionId.bytes ++ (bytes p.stage ++ (bytes p.pct ++ (bytes p.bytesDone ++ (bytes p.bytesTotal ++
        (raw.bytes ++ rest))))) := by
  simp only [readModelProgress, run_bind_eq_some, word_run_eq_some, array_run_eq_some, run_pure_eq_some]
  constructor
  · rintro ⟨id, _, rfl, stage, _, rfl, pct, _, rfl, done, _, rfl, total, _, rfl, raw, _, rfl, rfl, rfl⟩
    exact ⟨raw, rfl, rfl⟩
  · rintro ⟨raw, hraw, rfl⟩
    refine ⟨_, _, rfl, _, _, rfl, _, _, rfl, _, _, rfl, _, _, rfl, raw, _, rfl, ?_, rfl⟩
    rw [← hraw]

theorem read_error {bs rest : Bytes} {p : Error} :
    readError.run bs = some (p, rest) ↔ ∃ raw : CArray maxErrorMsgBytes, p.message = terminateMessage raw ∧
      bs = p.sessionId.bytes ++ (bytes p.errorCode ++ (bytes p.recoverable ++ (raw.bytes ++ rest))) := by
  simp only [readError, run_bind_eq_some, word_run_eq_some, array_run_eq_some, run_pure_eq_some]
  constructor
  · rintro ⟨id, _, rfl, code, _, rfl, recoverable, _, rfl, raw, _, rfl, rfl, rfl⟩
    exact ⟨raw, rfl, rfl⟩
  · rintro ⟨raw, hraw, rfl⟩
    refine ⟨_, _, rfl, _, _, rfl, _, _, rfl, raw, _, rfl, ?_, rfl⟩
    rw [← hraw]

theorem read_started {size : Nat} {bs rest : Bytes} {p : Started} :
    (readStarted size).run bs = some (p, rest) ↔
      (size = 1 ∧ p.sessionId = CArray.zero _ ∧ bs = bytes p.sourceActive ++ rest) ∨
        (size ≠ 1 ∧ bs = p.sessionId.bytes ++ (bytes p.sourceActive ++ rest)) := by
  simp only [readStarted]
  split
  · rename_i h
    simp only [run_bind_eq_some, word_run_eq_some, run_pure_eq_some]
    constructor
    · rintro ⟨active, _, rfl, rfl, rfl⟩
      exact .inl ⟨h, rfl, rfl⟩
    · rintro (⟨-, hid, rfl⟩ | ⟨hne, -⟩)
      · refine ⟨_, _, rfl, ?_, rfl⟩
        rw [← hid]
      · omega
  · rename_i h
    simp only [run_bind_eq_some, word_run_eq_some, array_run_eq_some, run_pure_eq_some]
    constructor
    · rintro ⟨id, _, rfl, active, _, rfl, rfl, rfl⟩
      exact .inr ⟨h, rfl⟩
    · rintro (⟨heq, -⟩ | ⟨-, rfl⟩)
      · omega
      · exact ⟨_, _, rfl, _, _, rfl, rfl, rfl⟩

end VlcWhisper.Protocol
