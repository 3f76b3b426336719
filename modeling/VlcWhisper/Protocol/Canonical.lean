import VlcWhisper.Protocol.Codec

/-!
# What decoding accepts, and when encoding gives it back

Main result: `decode_strict`. A decoded buffer is exactly as long as its own fields declare, and every slice
of the message lies inside it. In the current layout, once the message also passes `validatePayload`, encoding
it gives the same bytes exactly for the buffers whose strings are canonical: the decoder forces terminators
(`TRANSLATE_CTRL`, `STATUS`, `MODEL_CTRL`, `MODEL_PROGRESS`, an `ERROR` message without any) and cuts the
counted strings of START at an embedded NUL, so other buffers come back changed.
-/

namespace VlcWhisper.Protocol

open VlcWhisper.Lib
open WireWord (bytes)

/-! ## Fields of a buffer by their offset -/

def fieldAt (buffer : Bytes) (offset n : Nat) : Bytes := (buffer.drop offset).take n

def uint16At (buffer : Bytes) (offset : Nat) : Nat := (WireWord.ofBytes (fieldAt buffer offset 2) : UInt16).toNat

def uint32At (buffer : Bytes) (offset : Nat) : Nat := (WireWord.ofBytes (fieldAt buffer offset 4) : UInt32).toNat

theorem fieldAt_append {buffer : Bytes} {offset n : Nat} (pre mid : Bytes) (h : pre ++ mid <+: buffer)
    (hpre : pre.length = offset) (hmid : mid.length = n) : fieldAt buffer offset n = mid := by
  obtain ⟨post, rfl⟩ := h
  rw [fieldAt, List.append_assoc, List.drop_left' hpre, List.take_left' hmid]

theorem uint16At_append {buffer : Bytes} {offset : Nat} (pre : Bytes) (len : UInt16)
    (h : pre ++ bytes len <+: buffer) (hpre : pre.length = offset) : uint16At buffer offset = len.toNat := by
  rw [uint16At, fieldAt_append pre (bytes len) h hpre (by simp), WireWord.ofBytes_bytes]

theorem uint32At_append {buffer : Bytes} {offset : Nat} (pre : Bytes) (len : UInt32)
    (h : pre ++ bytes len <+: buffer) (hpre : pre.length = offset) : uint32At buffer offset = len.toNat := by
  rw [uint32At, fieldAt_append pre (bytes len) h hpre (by simp), WireWord.ofBytes_bytes]

theorem getElem?_mid_append {buffer : Bytes} {i n : Nat} (pre mid : Bytes) (h : pre ++ mid <+: buffer)
    (hi : pre.length + n = i) (hmid : n < mid.length) : buffer[i]? = mid[n]? := by
  obtain ⟨post, rfl⟩ := h
  rw [List.append_assoc, List.getElem?_append_right (by omega), ← hi, Nat.add_sub_cancel_left,
    List.getElem?_append_left hmid]

/-! ## Declared lengths -/

def startModelIdLen (buffer : Bytes) : Nat := uint16At buffer 32
def startLangLen (buffer : Bytes) : Nat := uint16At buffer (34 + startModelIdLen buffer)

/-- Where START's source URL begins, if there is one. -/
def startUrlOffset (buffer : Bytes) : Nat := 38 + startModelIdLen buffer + startLangLen buffer

/-- Where a caption's translation begins, if there is one. -/
def captionTailOffset (buffer : Bytes) : Nat := 43 + uint16At buffer 41

/-- The length a buffer's own fields add up to. -/
def declaredLength (type : MessageType) (buffer : Bytes) : Nat :=
  match type with
  | .hello => 38 + uint16At buffer 36
  | .helloAck => 10 + uint16At buffer 8
  | .startSession =>
    startUrlOffset buffer +
      if startUrlOffset buffer < buffer.length then 2 + uint16At buffer (startUrlOffset buffer) else 0
  | .position => 40
  | .audioPcm => 36 + uint32At buffer 32
  | .pause | .resume | .stopSession => 18
  | .captionSegment =>
    captionTailOffset buffer +
      if captionTailOffset buffer < buffer.length then 7 + uint16At buffer (captionTailOffset buffer) else 0
  | .translateCtrl => 50
  | .status => if 60 ≤ buffer.length then 60 else 44
  | .modelCtrl => 49
  | .modelProgress => 66
  | .error => 277
  | .started => if buffer.length = 1 then 1 else 17
  | .shutdown => 0

/-- The slice is the `length` bytes of the buffer from `offset` on. -/
def Slice.InsideAt {α : Type} [WireWord α] (s : Slice α) (buffer : Bytes) (offset : Nat) : Prop :=
  offset + WireWord.toNat s.length ≤ buffer.length ∧
    s.data = some (fieldAt buffer offset (WireWord.toNat s.length))

/-- Every slice a message points to lies in the buffer, at its place. -/
def SlicesInside (buffer : Bytes) : Payload → Prop
  | .hello p => Slice.InsideAt p.clientVersion buffer 38
  | .helloAck p => Slice.InsideAt p.workerVersion buffer 10
  | .audioPcm p => Slice.InsideAt p.pcm buffer 36
  | .captionSegment p => Slice.InsideAt p.text buffer 43 ∧
      (0 < p.translatedText.length → Slice.InsideAt p.translatedText buffer (captionTailOffset buffer + 2))
  | _ => True

theorem insideAt_append {α : Type} [WireWord α] {s : Slice α} {buffer : Bytes} {offset : Nat} (pre : Bytes)
    (hex : s.Exact) (h : pre ++ s.bytes <+: buffer) (hpre : pre.length = offset) :
    Slice.InsideAt s buffer offset := by
  constructor
  · have hle := h.length_le
    rw [List.length_append, hpre, hex.2] at hle
    exact hle
  · rw [fieldAt_append pre s.bytes h hpre hex.2]
    exact hex.1

/-! ## Layouts -/

/-- Not one of the shorter layouts of older clients and workers. -/
def CurrentLayout (buffer : Bytes) : MessageType → Prop
  | .startSession => startUrlOffset buffer < buffer.length
  | .status => buffer.length = 60
  | .started => buffer.length ≠ 1
  | _ => True

/-- No string of the buffer is one the decoder would cut or terminate. -/
def CanonicalStrings (buffer : Bytes) : MessageType → Prop
  | .startSession => 0 ∉ fieldAt buffer 34 (startModelIdLen buffer) ∧
      0 ∉ fieldAt buffer (36 + startModelIdLen buffer) (startLangLen buffer)
  | .translateCtrl => buffer[32]? = some 0 ∧ buffer[48]? = some 0
  | .status => buffer[59]? = some 0
  | .modelCtrl => buffer[48]? = some 0
  | .modelProgress => buffer[65]? = some 0
  | .error => 0 ∈ fieldAt buffer 21 maxErrorMsgBytes
  | _ => True

/-- The bytes `p` was read from: what its fields declare, and when they are what it encodes to. -/
structure Decoded (buffer : Bytes) (p : Payload) : Prop where
  length : buffer.length = declaredLength p.type buffer
  slices : SlicesInside buffer p
  canonical : CurrentLayout buffer p.type → validatePayload p = true →
    ∃ fields, encodeFields p = some fields ∧ fields.flatten.length ≤ buffer.length ∧
      (fields.flatten = buffer ↔ CanonicalStrings buffer p.type)

/-! ## Per message type -/

theorem decoded_hello {buffer : Bytes} {p : Hello} (h : readHello.run buffer = some (p, [])) :
    Decoded buffer (.hello p) := by
  obtain ⟨hex, hbs⟩ := read_hello.mp h
  have hlen : p.clientVersion.bytes.length = p.clientVersion.length.toNat := hex.2
  refine ⟨?_, ?_, fun _ _ => ⟨_, if_neg hex.not_dangling, ?_, ?_⟩⟩
  · have h36 : uint16At buffer 36 = p.clientVersion.length.toNat :=
      uint16At_append (bytes p.minMajor ++ bytes p.maxMajor ++ p.authToken.bytes) _ (by simp [hbs])
        (by simp [authTokenBytes])
    simp only [Payload.type, declaredLength, h36]
    simp [hbs, hlen, authTokenBytes]
    omega
  · exact insideAt_append (bytes p.minMajor ++ bytes p.maxMajor ++ p.authToken.bytes ++
      bytes p.clientVersion.length) hex (by simp [hbs]) (by simp [authTokenBytes])
  · simp [hbs]
  · simp [hbs, CanonicalStrings, Payload.type]

theorem decoded_helloAck {buffer : Bytes} {p : HelloAck} (h : readHelloAck.run buffer = some (p, [])) :
    Decoded buffer (.helloAck p) := by
  obtain ⟨hex, hbs⟩ := read_helloAck.mp h
  have hlen : p.workerVersion.bytes.length = p.workerVersion.length.toNat := hex.2
  refine ⟨?_, ?_, fun _ _ => ⟨_, if_neg hex.not_dangling, ?_, ?_⟩⟩
  · have h8 : uint16At buffer 8 = p.workerVersion.length.toNat :=
      uint16At_append (bytes p.selectedMajor ++ bytes p.selectedMinor ++ bytes p.capabilityFlags) _
        (by simp [hbs]) (by simp)
    simp only [Payload.type, declaredLength, h8]
    simp [hbs, hlen]
    omega
  · exact insideAt_append (bytes p.selectedMajor ++ bytes p.selectedMinor ++ bytes p.capabilityFlags ++
      bytes p.workerVersion.length) hex (by simp [hbs]) (by simp)
  · simp [hbs]
  · simp [hbs, CanonicalStrings, Payload.type]

theorem decoded_audio {buffer : Bytes} {p : Audio} (h : readAudio.run buffer = some (p, [])) :
    Decoded buffer (.audioPcm p) := by
  obtain ⟨hex, hbs⟩ := read_audio.mp h
  have hlen : p.pcm.bytes.length = p.pcm.length.toNat := hex.2
  refine ⟨?_, ?_, fun _ _ => ⟨_, if_neg hex.not_dangling, ?_, ?_⟩⟩
  · have h32 : uint32At buffer 32 = p.pcm.length.toNat :=
      uint32At_append (p.sessionId.bytes ++ bytes p.startPtsUs ++ bytes p.durationUs) _
        (by simp [hbs]) (by simp [sessionIdBytes])
    simp only [Payload.type, declaredLength, h32]
    simp [hbs, hlen, sessionIdBytes]
    omega
  · exact insideAt_append (p.sessionId.bytes ++ bytes p.startPtsUs ++ bytes p.durationUs ++
      bytes p.pcm.length) hex (by simp [hbs]) (by simp [sessionIdBytes])
  · simp [hbs]
  · simp [hbs, CanonicalStrings, Payload.type]

theorem decoded_position {buffer : Bytes} {p : Position} (h : readPosition.run buffer = some (p, [])) :
    Decoded buffer (.position p) := by
  have hbs := read_position.mp h
  refine ⟨?_, trivial, fun _ _ => ⟨_, rfl, ?_, ?_⟩⟩
  · simp [hbs, Payload.type, declaredLength, sessionIdBytes]
  · simp [hbs]
  · simp [hbs, CanonicalStrings, Payload.type]

/-- PAUSE, RESUME and STOP have one layout. -/
theorem decoded_control {buffer : Bytes} {p : Control} (h : readControl.run buffer = some (p, [])) :
    buffer.length = 18 ∧ [p.sessionId.bytes, bytes p.reason].flatten = buffer := by
  have hbs := read_control.mp h
  constructor
  · simp [hbs, sessionIdBytes]
  · simp [hbs]

/-- The string of a counted field is cut at an embedded NUL. -/
theorem CountedString.str_eq {n : Nat} {len : UInt16} {a : CArray n} {d : Bytes} (h : CountedString len a d) :
    a.str = cstr d := by
  obtain ⟨hlen, hlt, rfl⟩ := h
  have hpos : n - d.length = (n - d.length - 1) + 1 := by omega
  rw [CArray.str, CArray.bytes_pad_of_le (by omega), hpos, List.replicate_succ]
  by_cases hz : (0 : UInt8) ∈ d
  · obtain ⟨pre, post, rfl, hpre⟩ := List.eq_append_cons_of_mem hz
    rw [List.append_assoc, List.cons_append, cstr_append_zero hpre, cstr_append_zero hpre]
  · rw [cstr_append_zero hz, cstr_eq_self hz]

theorem CountedString.terminated {n : Nat} {len : UInt16} {a : CArray n} {d : Bytes} (h : CountedString len a d) :
    a.Terminated := by
  obtain ⟨hlen, hlt, rfl⟩ := h
  exact CArray.pad_terminated (by omega)

/-- A counted string without NUL is sent as it was read, any other one shorter. -/
theorem CountedString.sent {n : Nat} {len : UInt16} {a : CArray n} {d : Bytes} (h : CountedString len a d) :
    cappedStrnlen a = (cstr d).length ∧ a.bytes.take (cappedStrnlen a) = cstr d := by
  have hlen : cappedStrnlen a = a.str.length := cappedStrnlen_of_terminated h.terminated
  constructor
  · rw [hlen, h.str_eq]
  · rw [hlen, take_str, h.str_eq]

theorem CountedString.ofNat_length {n : Nat} {len : UInt16} {a : CArray n} {d : Bytes}
    (h : CountedString len a d) (hz : (0 : UInt8) ∉ d) : UInt16.ofNat (cstr d).length = len := by
  rw [cstr_eq_self hz, h.1, UInt16.ofNat_toNat]

/-- START up to its model id. -/
def startHead (p : Start) : Bytes :=
  p.sessionId.bytes ++ bytes p.timelineOriginPtsUs ++ bytes p.sampleRate ++ bytes p.channels ++
    bytes p.sampleFormat

@[simp] theorem length_startHead (p : Start) : (startHead p).length = 32 := by
  simp [startHead, sessionIdBytes]

theorem decoded_start {buffer : Bytes} {p : Start} (h : readStart.run buffer = some (p, [])) :
    Decoded buffer (.startSession p) := by
  obtain ⟨modelIdLen, modelId, langLen, language, url, hm, hl, hurl, hbs⟩ := read_start.mp h
  have hbs : buffer = startHead p ++ bytes modelIdLen ++ modelId ++ bytes langLen ++ language ++
      bytes p.sourceKind ++ url := by
    simp [hbs, startHead]
  have hmlen : modelId.length = modelIdLen.toNat := hm.1
  have hllen : language.length = langLen.toNat := hl.1
  have hmodel : startModelIdLen buffer = modelIdLen.toNat :=
    uint16At_append (startHead p) _ (by simp [hbs]) (by simp)
  have hlang : startLangLen buffer = langLen.toNat := by
    rw [startLangLen, hmodel]
    exact uint16At_append (startHead p ++ bytes modelIdLen ++ modelId) _ (by simp [hbs])
      (by simp [hmlen]; omega)
  have hoff : startUrlOffset buffer = 38 + modelId.length + language.length := by
    rw [startUrlOffset, hmodel, hlang, hmlen, hllen]
  have hblen : buffer.length = 38 + modelId.length + language.length + url.length := by
    simp [hbs]
    omega
  have hmfield : fieldAt buffer 34 (startModelIdLen buffer) = modelId :=
    fieldAt_append (startHead p ++ bytes modelIdLen) _ (by simp [hbs]) (by simp) (by rw [hmodel, hmlen])
  have hlfield : fieldAt buffer (36 + startModelIdLen buffer) (startLangLen buffer) = language := by
    rw [hmodel, hlang]
    exact fieldAt_append (startHead p ++ bytes modelIdLen ++ modelId ++ bytes langLen) _ (by simp [hbs])
      (by simp [hmlen]; omega) hllen
  refine ⟨?_, trivial, fun hlayout hvalid => ⟨_, rfl, ?_⟩⟩
  · simp only [Payload.type, declaredLength, hoff, hblen]
    rcases hurl with ⟨rfl, -⟩ | ⟨d, hd, rfl⟩
    · simp
    · have hurlAt : uint16At buffer (38 + modelId.length + language.length) = p.sourceUrlLen.toNat :=
        uint16At_append (startHead p ++ bytes modelIdLen ++ modelId ++ bytes langLen ++ language ++
          bytes p.sourceKind) _ (by simp [hbs]) (by simp; omega)
      rw [if_pos (by simp), hurlAt, List.append_nil, List.length_append, hd.1]
      simp
  · obtain ⟨d, hd, rfl⟩ : ∃ d, CountedString p.sourceUrlLen p.sourceUrl d ∧ url = bytes p.sourceUrlLen ++ d := by
      rcases hurl with ⟨rfl, -⟩ | ⟨d, hd, rfl⟩
      · simp only [Payload.type, CurrentLayout, hoff, hblen] at hlayout
        simp at hlayout
      · exact ⟨d, hd, by simp⟩
    obtain ⟨-, -, hurlTerm, hurlLen⟩ := validateStart_strings hvalid
    have hdz : (0 : UInt8) ∉ d := by
      rw [hd.str_eq, ← hd.1] at hurlLen
      intro hz
      have := cstr_length_lt_iff.mpr hz
      omega
    have hul : urlLen p = (cstr d).length := by rw [urlLen_of_terminated hurlTerm hurlLen, hd.str_eq]
    have hut : p.sourceUrl.bytes.take (cstr d).length = d := by
      rw [← hd.str_eq, take_str, hd.str_eq, cstr_eq_self hdz]
    have hsent : [p.sessionId.bytes, bytes p.timelineOriginPtsUs, bytes p.sampleRate, bytes p.channels,
        bytes p.sampleFormat, bytes (UInt16.ofNat (cappedStrnlen p.modelId)),
        p.modelId.bytes.take (cappedStrnlen p.modelId), bytes (UInt16.ofNat (cappedStrnlen p.language)),
        p.language.bytes.take (cappedStrnlen p.language), bytes p.sourceKind,
        bytes (UInt16.ofNat (urlLen p)), p.sourceUrl.bytes.take (urlLen p)].flatten =
        startHead p ++ bytes (UInt16.ofNat (cstr modelId).length) ++ cstr modelId ++
          bytes (UInt16.ofNat (cstr language).length) ++ cstr language ++ bytes p.sourceKind ++
          (bytes p.sourceUrlLen ++ d) := by
      rw [hm.sent.2, hl.sent.2, hm.sent.1, hl.sent.1, hul, hut, hd.ofNat_length hdz]
      simp [startHead]
    have hmle := cstr_length_le modelId
    have hlle := cstr_length_le language
    simp only [Payload.type, CanonicalStrings, hmfield, hlfield]
    rw [hsent]
    refine ⟨by simp [hbs]; omega, ?_, ?_⟩
    · -- equal bytes leave no room for a cut string
      intro heq
      have hlen := congrArg List.length heq
      rw [hblen] at hlen
      simp at hlen
      constructor
      · intro hz
        have := cstr_length_lt_iff.mpr hz
        omega
      · intro hz
        have := cstr_length_lt_iff.mpr hz
        omega
    · rintro ⟨hmz, hlz⟩
      rw [hm.ofNat_length hmz, hl.ofNat_length hlz, cstr_eq_self hmz, cstr_eq_self hlz, hbs]

/-- A caption up to its text. -/
def captionPrefix (p : CaptionSegment) : Bytes :=
  p.sessionId.bytes ++ bytes p.segmentId ++ bytes p.startPtsUs ++ bytes p.endPtsUs ++ bytes p.isFinal

@[simp] theorem length_captionPrefix (p : CaptionSegment) : (captionPrefix p).length = 41 := by
  simp [captionPrefix, sessionIdBytes]

theorem captionHead_eq (p : CaptionSegment) :
    captionHead p = captionPrefix p ++ bytes p.text.length ++ p.text.bytes := by
  simp [captionHead, captionPrefix]

theorem decoded_captionSegment {buffer : Bytes} {p : CaptionSegment}
    (h : readCaptionSegment.run buffer = some (p, [])) : Decoded buffer (.captionSegment p) := by
  obtain ⟨hex, -, htail⟩ := read_captionSegment.mp h
  have hlen : p.text.bytes.length = p.text.length.toNat := hex.2
  have hprefix : captionPrefix p ++ bytes p.text.length ++ p.text.bytes <+: buffer := by
    rcases htail with ⟨rfl, -⟩ | ⟨-, -, rfl⟩
    · exact (captionHead_eq p).symm ▸ List.prefix_rfl
    · rw [captionHead_eq]
      exact List.prefix_append _ _
  have hoff : captionTailOffset buffer = 43 + p.text.bytes.length := by
    rw [captionTailOffset, hlen, uint16At_append (captionPrefix p) p.text.length
      ((List.prefix_append _ _).trans hprefix) (by simp)]
  have htext : Slice.InsideAt p.text buffer 43 := insideAt_append _ hex hprefix (by simp)
  rcases htail with ⟨hbs, hnull, hatt, hlat, htier⟩ | ⟨hatt, htrans, hbs⟩
  · have hblen : buffer.length = 43 + p.text.bytes.length := by
      simp [hbs, captionHead_eq]
      omega
    have hno : hasTranslationTail p = false := by simp [hasTranslationTail, hatt, hnull, Slice.null]
    have hdang : ¬ p.translatedText.Dangling := by simp [hnull, Slice.null, Slice.Dangling, WireWord.toNat]
    refine ⟨?_, ⟨htext, ?_⟩, fun _ _ => ⟨_, (if_neg hex.not_dangling).trans (if_neg hdang), ?_, ?_⟩⟩
    · simp [Payload.type, declaredLength, hoff, hblen]
    · intro hpos
      simp [hnull, Slice.null] at hpos
    · simp [hno, hbs, captionHead]
    · simp [hno, hbs, captionHead, Payload.type, CanonicalStrings]
  · have hyes : hasTranslationTail p = true := by simp [hasTranslationTail, hatt]
    have htlen := htrans.length_bytes
    have hblen : buffer.length = 43 + p.text.bytes.length + (7 + p.translatedText.bytes.length) := by
      simp [hbs, captionHead_eq]
      omega
    have hpre : captionHead p ++ bytes p.translatedText.length ++ p.translatedText.bytes <+: buffer := by
      simp [hbs]
    have htailAt : uint16At buffer (43 + p.text.bytes.length) = p.translatedText.length.toNat :=
      uint16At_append (captionHead p) _ ((List.prefix_append _ _).trans hpre)
        (by simp [captionHead_eq]; omega)
    refine ⟨?_, ⟨htext, ?_⟩, fun _ _ =>
      ⟨_, (if_neg hex.not_dangling).trans (if_neg htrans.not_dangling), ?_, ?_⟩⟩
    · simp only [Payload.type, declaredLength, hoff, htailAt, hblen, htlen]
      rw [if_pos (by omega)]
    · intro hpos
      rw [TextExact, if_pos hpos] at htrans
      rw [hoff]
      exact insideAt_append _ htrans hpre (by simp [captionHead_eq]; omega)
    · simp [hyes, hbs, captionHead]
    · simp [hyes, hbs, captionHead, Payload.type, CanonicalStrings]

/-- A forced terminator changes nothing exactly if the last byte is zero already. -/
theorem terminate_bytes_eq_iff {n : Nat} (a : CArray n) (h : 0 < n) :
    a.terminate.bytes = a.bytes ↔ a.bytes[n - 1]? = some 0 :=
  ⟨fun he => (a.terminate_eq_self_iff h).mp (CArray.ext_bytes he),
   fun hz => congrArg CArray.bytes ((a.terminate_eq_self_iff h).mpr hz)⟩

theorem append_bytes_inj {n : Nat} (a b : CArray n) (r s : Bytes) :
    a.bytes ++ r = b.bytes ++ s ↔ a.bytes = b.bytes ∧ r = s :=
  ⟨fun h => List.append_inj h (by simp), fun ⟨h1, h2⟩ => h1 ▸ h2 ▸ rfl⟩

theorem decoded_translateCtrl {buffer : Bytes} {p : TranslateCtrl}
    (h : readTranslateCtrl.run buffer = some (p, [])) : Decoded buffer (.translateCtrl p) := by
  obtain ⟨source, target, hs, ht, hbs⟩ := read_translateCtrl.mp h
  have h32 : buffer[32]? = source.bytes[15]? :=
    getElem?_mid_append (p.sessionId.bytes ++ bytes p.enabled) source.bytes (by simp [hbs])
      (by simp [sessionIdBytes]) (by simp)
  have h48 : buffer[48]? = target.bytes[15]? :=
    getElem?_mid_append (p.sessionId.bytes ++ bytes p.enabled ++ source.bytes) target.bytes
      (by simp [hbs]) (by simp [sessionIdBytes]) (by simp)
  refine ⟨by simp [hbs, Payload.type, declaredLength, sessionIdBytes], trivial,
    fun _ _ => ⟨_, rfl, by simp [hbs], ?_⟩⟩
  simp only [Payload.type, CanonicalStrings, h32, h48]
  rw [← terminate_bytes_eq_iff source (by decide), ← terminate_bytes_eq_iff target (by decide)]
  simp [hbs, hs, ht, append_bytes_inj]

theorem decoded_status {buffer : Bytes} {p : Status}
    (h : (readStatus buffer.length).run buffer = some (p, [])) : Decoded buffer (.status p) := by
  obtain ⟨hmin, d, hd, hbs⟩ := read_status.mp h
  have hblen : buffer.length = 44 + d.length := by
    simp [hbs, sessionIdBytes]
    omega
  rcases hd with ⟨hge, raw, hraw, rfl⟩ | ⟨hlt, hzero, rfl⟩
  · have h59 : buffer[59]? = raw.bytes[15]? :=
      getElem?_mid_append (p.sessionId.bytes ++ bytes p.state ++ bytes p.queuedAudioUs ++ bytes p.inferenceUs ++
        bytes p.droppedAudioUs) raw.bytes (by simp [hbs]) (by simp [sessionIdBytes]) (by simp)
    refine ⟨?_, trivial, fun _ _ => ⟨_, rfl, by simp [hbs], ?_⟩⟩
    · simp [Payload.type, declaredLength, hblen]
    · simp only [Payload.type, CanonicalStrings, h59]
      rw [← terminate_bytes_eq_iff raw (by decide)]
      simp [hbs, hraw]
  · refine ⟨?_, trivial, fun hlayout _ => ?_⟩
    · simp [Payload.type, declaredLength, hblen]
    · simp [Payload.type, CurrentLayout, hblen] at hlayout

theorem decoded_modelCtrl {buffer : Bytes} {p : ModelCtrl} (h : readModelCtrl.run buffer = some (p, [])) :
    Decoded buffer (.modelCtrl p) := by
  obtain ⟨raw, hraw, hbs⟩ := read_modelCtrl.mp h
  have h48 : buffer[48]? = raw.bytes[31]? :=
    getElem?_mid_append (p.sessionId.bytes ++ bytes p.action) raw.bytes (by simp [hbs])
      (by simp [sessionIdBytes]) (by simp)
  refine ⟨by simp [hbs, Payload.type, declaredLength, sessionIdBytes], trivial,
    fun _ _ => ⟨_, rfl, by simp [hbs], ?_⟩⟩
  simp only [Payload.type, CanonicalStrings, h48]
  rw [← terminate_bytes_eq_iff raw (by decide)]
  simp [hbs, hraw]

theorem decoded_modelProgress {buffer : Bytes} {p : ModelProgress}
    (h : readModelProgress.run buffer = some (p, [])) : Decoded buffer (.modelProgress p) := by
  obtain ⟨raw, hraw, hbs⟩ := read_modelProgress.mp h
  have h65 : buffer[65]? = raw.bytes[31]? :=
    getElem?_mid_append (p.sessionId.bytes ++ bytes p.stage ++ bytes p.pct ++ bytes p.bytesDone ++
      bytes p.bytesTotal) raw.bytes (by simp [hbs]) (by simp [sessionIdBytes]) (by simp)
  refine ⟨by simp [hbs, Payload.type, declaredLength, sessionIdBytes], trivial,
    fun _ _ => ⟨_, rfl, by simp [hbs], ?_⟩⟩
  simp only [Payload.type, CanonicalStrings, h65]
  rw [← terminate_bytes_eq_iff raw (by decide)]
  simp [hbs, hraw]

theorem terminateMessage_terminated (a : CArray maxErrorMsgBytes) : (terminateMessage a).Terminated := by
  rw [terminateMessage]
  split
  · assumption
  · exact a.terminate_terminated (by decide)

theorem terminateMessage_bytes_eq_iff (a : CArray maxErrorMsgBytes) :
    (terminateMessage a).bytes = a.bytes ↔ a.Terminated := by
  constructor
  · intro heq
    have h := terminateMessage_terminated a
    rwa [CArray.Terminated, heq] at h
  · intro h
    rw [terminateMessage, if_pos h]

theorem decoded_error {buffer : Bytes} {p : Error} (h : readError.run buffer = some (p, [])) :
    Decoded buffer (.error p) := by
  obtain ⟨raw, hraw, hbs⟩ := read_error.mp h
  have hfield : fieldAt buffer 21 maxErrorMsgBytes = raw.bytes :=
    fieldAt_append (p.sessionId.bytes ++ bytes p.errorCode ++ bytes p.recoverable) raw.bytes (by simp [hbs])
      (by simp [sessionIdBytes]) (by simp)
  have hshort : ¬ maxErrorMsgBytes ≤ strnlen p.message.bytes maxErrorMsgBytes := by
    rw [strnlen_of_length p.message.length_bytes, not_le, hraw]
    exact (CArray.str_length_lt_iff _).mpr (terminateMessage_terminated raw)
  refine ⟨by simp [hbs, Payload.type, declaredLength, sessionIdBytes, maxErrorMsgBytes], trivial,
    fun _ _ => ⟨_, if_neg hshort, by simp [hbs], ?_⟩⟩
  simp only [Payload.type, CanonicalStrings, hfield]
  rw [← CArray.Terminated, ← terminateMessage_bytes_eq_iff]
  simp [hbs, hraw]

theorem decoded_started {buffer : Bytes} {p : Started}
    (h : (readStarted buffer.length).run buffer = some (p, [])) : Decoded buffer (.started p) := by
  rcases read_started.mp h with ⟨hlen, -, hbs⟩ | ⟨hlen, hbs⟩
  · refine ⟨by simp [Payload.type, declaredLength, hlen], trivial, fun hlayout _ => absurd hlen hlayout⟩
  · refine ⟨?_, trivial, fun _ _ => ⟨_, rfl, by simp [hbs], by simp [hbs, Payload.type, CanonicalStrings]⟩⟩
    simp only [Payload.type, declaredLength, if_neg hlen]
    simp [hbs, sessionIdBytes]

/-! ## All types -/

theorem decoded_of_decodePayload {type : MessageType} {buffer : Bytes} {p : Payload}
    (h : decodePayload type (some buffer) = some p) : p.type = type ∧ Decoded buffer p := by
  obtain ⟨-, hrun⟩ := decodePayload_eq_some.mp h
  cases type <;> simp only [readPayload, run_map_eq_some] at hrun
  case hello => obtain ⟨q, hq, rfl⟩ := hrun; exact ⟨rfl, decoded_hello hq⟩
  case helloAck => obtain ⟨q, hq, rfl⟩ := hrun; exact ⟨rfl, decoded_helloAck hq⟩
  case startSession => obtain ⟨q, hq, rfl⟩ := hrun; exact ⟨rfl, decoded_start hq⟩
  case audioPcm => obtain ⟨q, hq, rfl⟩ := hrun; exact ⟨rfl, decoded_audio hq⟩
  case pause =>
    obtain ⟨q, hq, rfl⟩ := hrun
    obtain ⟨hlen, hflat⟩ := decoded_control hq
    exact ⟨rfl, hlen, trivial, fun _ _ => ⟨_, rfl, hflat ▸ le_rfl, iff_of_true hflat trivial⟩⟩
  case resume =>
    obtain ⟨q, hq, rfl⟩ := hrun
    obtain ⟨hlen, hflat⟩ := decoded_control hq
    exact ⟨rfl, hlen, trivial, fun _ _ => ⟨_, rfl, hflat ▸ le_rfl, iff_of_true hflat trivial⟩⟩
  case stopSession =>
    obtain ⟨q, hq, rfl⟩ := hrun
    obtain ⟨hlen, hflat⟩ := decoded_control hq
    exact ⟨rfl, hlen, trivial, fun _ _ => ⟨_, rfl, hflat ▸ le_rfl, iff_of_true hflat trivial⟩⟩
  case captionSegment => obtain ⟨q, hq, rfl⟩ := hrun; exact ⟨rfl, decoded_captionSegment hq⟩
  case status => obtain ⟨q, hq, rfl⟩ := hrun; exact ⟨rfl, decoded_status hq⟩
  case error => obtain ⟨q, hq, rfl⟩ := hrun; exact ⟨rfl, decoded_error hq⟩
  case shutdown =>
    obtain ⟨rfl, rfl⟩ := Reader.run_pure_eq_some.mp hrun
    exact ⟨rfl, rfl, trivial, fun _ _ => ⟨[], rfl, le_rfl, iff_of_true rfl trivial⟩⟩
  case started => obtain ⟨q, hq, rfl⟩ := hrun; exact ⟨rfl, decoded_started hq⟩
  case position => obtain ⟨q, hq, rfl⟩ := hrun; exact ⟨rfl, decoded_position hq⟩
  case modelCtrl => obtain ⟨q, hq, rfl⟩ := hrun; exact ⟨rfl, decoded_modelCtrl hq⟩
  case modelProgress => obtain ⟨q, hq, rfl⟩ := hrun; exact ⟨rfl, decoded_modelProgress hq⟩
  case translateCtrl => obtain ⟨q, hq, rfl⟩ := hrun; exact ⟨rfl, decoded_translateCtrl hq⟩

/-- **Strictness and canonical form.** What is accepted is exactly as long as it declares and holds every
slice; in the current layout it is encoded back to the same bytes exactly if its strings are canonical. -/
theorem decode_strict (type : MessageType) (buffer : Bytes) (p : Payload)
    (h : decodePayload type (some buffer) = some p) :
    buffer.length = declaredLength type buffer ∧ SlicesInside buffer p ∧
      (CurrentLayout buffer type → validatePayload p = true → ∀ bufferSize, buffer.length ≤ bufferSize →
        (encodePayload p bufferSize = some buffer ↔ CanonicalStrings buffer type)) := by
  obtain ⟨rfl, hlen, hslices, hcanon⟩ := decoded_of_decodePayload h
  refine ⟨hlen, hslices, fun hlayout hvalid bufferSize hsize => ?_⟩
  obtain ⟨fields, hf, hle, hiff⟩ := hcanon hlayout hvalid
  simp only [encodePayload, hf]
  rw [← hiff, writeAll_of_le (by simpa using hle.trans hsize), List.nil_append, Option.some.injEq]

/-- English to French, on; the byte after each language is its array's last. -/
def englishToFrench (sourceLast targetLast : UInt8) : Bytes :=
  List.replicate 16 0 ++ [1] ++ ([0x65, 0x6E] ++ List.replicate 13 0 ++ [sourceLast]) ++
    ([0x66, 0x72] ++ List.replicate 13 0 ++ [targetLast]) ++ [0]

def englishToFrenchCtrl : TranslateCtrl where
  sessionId := .zero _
  enabled := 1
  sourceLang := .ofStr 16 [0x65, 0x6E]
  targetLang := .ofStr 16 [0x66, 0x72]
  mode := 0

theorem decode_strict_englishToFrench :
    (englishToFrench 0 0).length = declaredLength .translateCtrl (englishToFrench 0 0) ∧
      SlicesInside (englishToFrench 0 0) (.translateCtrl englishToFrenchCtrl) ∧
      (CurrentLayout (englishToFrench 0 0) .translateCtrl →
        validatePayload (.translateCtrl englishToFrenchCtrl) = true →
        ∀ bufferSize, (englishToFrench 0 0).length ≤ bufferSize →
          (encodePayload (.translateCtrl englishToFrenchCtrl) bufferSize = some (englishToFrench 0 0) ↔
            CanonicalStrings (englishToFrench 0 0) .translateCtrl)) :=
  decode_strict .translateCtrl (englishToFrench 0 0) (.translateCtrl englishToFrenchCtrl) rfl

/-- A source language without its own terminator is accepted, and encoded back with one. -/
theorem not_forall_reproduced :
    ¬ ∀ type buffer p, decodePayload type (some buffer) = some p → CurrentLayout buffer type →
      validatePayload p = true → ∀ bufferSize, buffer.length ≤ bufferSize →
        encodePayload p bufferSize = some buffer := by
  intro h
  have hsame := h .translateCtrl (englishToFrench 1 0) (.translateCtrl englishToFrenchCtrl) rfl trivial
    (by decide) 50 (by decide)
  exact absurd hsame (by decide)

end VlcWhisper.Protocol
