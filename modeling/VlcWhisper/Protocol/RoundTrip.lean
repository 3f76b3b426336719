import VlcWhisper.Protocol.Codec

/-!
# Decoding undoes encoding

Main result: `decode_encode`. A payload that passes `validatePayload` and whose fixed-size strings are
terminated is encoded into any buffer of at least `encodedSize` bytes, and decoding what was written gives
the same message back (`Same`: strings up to their terminator, slices as bytes).

`RoundTrips` is the statement without the buffer; it is proved once per message type from the decoder
equivalences `read_<type>`.
-/

namespace VlcWhisper.Protocol

open VlcWhisper.Lib
open WireWord (bytes)

/-! ## Statement -/

/-- Every string field of fixed size holds its terminator. -/
def Payload.Terminated : Payload → Prop
  | .startSession p => p.modelId.Terminated ∧ p.language.Terminated ∧ p.sourceUrl.Terminated
  | .translateCtrl p => p.sourceLang.Terminated ∧ p.targetLang.Terminated
  | .status p => p.resolvedBackend.Terminated
  | .modelCtrl p => p.modelId.Terminated
  | .modelProgress p => p.modelId.Terminated
  | .error p => p.message.Terminated
  | _ => True

instance (p : Payload) : Decidable p.Terminated := by
  cases p <;> simp only [Payload.Terminated] <;> infer_instance

/-- The bytes an accepted payload takes. -/
def encodedSize : Payload → Nat
  | .hello p => 38 + p.clientVersion.length.toNat
  | .helloAck p => 10 + p.workerVersion.length.toNat
  | .startSession p => 40 + p.modelId.str.length + p.language.str.length + p.sourceUrl.str.length
  | .position _ => 40
  | .audioPcm p => 36 + p.pcm.length.toNat
  | .pause _ | .resume _ | .stopSession _ => 18
  | .captionSegment p =>
    43 + p.text.length.toNat + if hasTranslationTail p then 7 + p.translatedText.length.toNat else 0
  | .translateCtrl _ => 50
  | .status _ => 60
  | .modelCtrl _ => 49
  | .modelProgress _ => 66
  | .error _ => 277
  | .started _ => 17
  | .shutdown => 0

/-- Two slices denote the same bytes. -/
def Slice.Same {α : Type} [WireWord α] (s t : Slice α) : Prop := s.length = t.length ∧ s.bytes = t.bytes

def Hello.Same (p q : Hello) : Prop :=
  p.minMajor = q.minMajor ∧ p.maxMajor = q.maxMajor ∧ p.authToken = q.authToken ∧
    Slice.Same p.clientVersion q.clientVersion

def HelloAck.Same (p q : HelloAck) : Prop :=
  p.selectedMajor = q.selectedMajor ∧ p.selectedMinor = q.selectedMinor ∧
    p.capabilityFlags = q.capabilityFlags ∧ Slice.Same p.workerVersion q.workerVersion

def Start.Same (p q : Start) : Prop :=
  p.sessionId = q.sessionId ∧ p.timelineOriginPtsUs = q.timelineOriginPtsUs ∧ p.sampleRate = q.sampleRate ∧
    p.channels = q.channels ∧ p.sampleFormat = q.sampleFormat ∧ p.modelId.str = q.modelId.str ∧
    p.language.str = q.language.str ∧ p.sourceKind = q.sourceKind ∧ p.sourceUrlLen = q.sourceUrlLen ∧
    p.sourceUrl.str = q.sourceUrl.str

def Audio.Same (p q : Audio) : Prop :=
  p.sessionId = q.sessionId ∧ p.startPtsUs = q.startPtsUs ∧ p.durationUs = q.durationUs ∧ Slice.Same p.pcm q.pcm

def CaptionSegment.Same (p q : CaptionSegment) : Prop :=
  p.sessionId = q.sessionId ∧ p.segmentId = q.segmentId ∧ p.startPtsUs = q.startPtsUs ∧
    p.endPtsUs = q.endPtsUs ∧ p.isFinal = q.isFinal ∧ Slice.Same p.text q.text ∧
    Slice.Same p.translatedText q.translatedText ∧ p.translationAttempted = q.translationAttempted ∧
    p.translationLatencyUs = q.translationLatencyUs ∧ p.translationTier = q.translationTier

def Status.Same (p q : Status) : Prop :=
  p.sessionId = q.sessionId ∧ p.state = q.state ∧ p.queuedAudioUs = q.queuedAudioUs ∧
    p.inferenceUs = q.inferenceUs ∧ p.droppedAudioUs = q.droppedAudioUs ∧
    p.resolvedBackend.str = q.resolvedBackend.str

def ModelCtrl.Same (p q : ModelCtrl) : Prop :=
  p.sessionId = q.sessionId ∧ p.action = q.action ∧ p.modelId.str = q.modelId.str

def ModelProgress.Same (p q : ModelProgress) : Prop :=
  p.sessionId = q.sessionId ∧ p.stage = q.stage ∧ p.pct = q.pct ∧ p.bytesDone = q.bytesDone ∧
    p.bytesTotal = q.bytesTotal ∧ p.modelId.str = q.modelId.str

def TranslateCtrl.Same (p q : TranslateCtrl) : Prop :=
  p.sessionId = q.sessionId ∧ p.enabled = q.enabled ∧ p.sourceLang.str = q.sourceLang.str ∧
    p.targetLang.str = q.targetLang.str ∧ p.mode = q.mode

def Error.Same (p q : Error) : Prop :=
  p.sessionId = q.sessionId ∧ p.errorCode = q.errorCode ∧ p.recoverable = q.recoverable ∧
    p.message.str = q.message.str

/-- The same message, whatever its memory holds behind terminators and slices. -/
def Same : Payload → Payload → Prop
  | .hello p, .hello q => p.Same q
  | .helloAck p, .helloAck q => p.Same q
  | .startSession p, .startSession q => p.Same q
  | .audioPcm p, .audioPcm q => p.Same q
  | .pause p, .pause q => p = q
  | .resume p, .resume q => p = q
  | .stopSession p, .stopSession q => p = q
  | .captionSegment p, .captionSegment q => p.Same q
  | .status p, .status q => p.Same q
  | .error p, .error q => p.Same q
  | .shutdown, .shutdown => True
  | .started p, .started q => p = q
  | .position p, .position q => p = q
  | .modelCtrl p, .modelCtrl q => p.Same q
  | .modelProgress p, .modelProgress q => p.Same q
  | .translateCtrl p, .translateCtrl q => p.Same q
  | _, _ => False

/-- What a sender's struct satisfies whether or not it is valid: no dangling pointer, terminated strings, a
URL length that is the URL's, and no result of a translation that was not attempted. -/
def Payload.WellFormed : Payload → Prop
  | .hello p => ¬ p.clientVersion.Dangling
  | .helloAck p => ¬ p.workerVersion.Dangling
  | .startSession p => p.language.Terminated ∧ p.modelId.Terminated ∧ p.sourceUrl.Terminated ∧
      p.sourceUrlLen.toNat = p.sourceUrl.str.length
  | .audioPcm p => ¬ p.pcm.Dangling
  | .captionSegment p => ¬ p.text.Dangling ∧ ¬ p.translatedText.Dangling ∧
      (¬ 0 < p.translatedText.length → p.translatedText.data = none) ∧
      (p.translationAttempted = false → ¬ 0 < p.translatedText.length ∧ p.translationLatencyUs = 0 ∧
        p.translationTier = 0)
  | p => p.Terminated

/-- The chunks `p` is encoded to take `encodedSize p` bytes and read back as the same message, which is
valid if and only if `p` is. -/
def RoundTrips (p : Payload) : Prop :=
  ∃ fields q, encodeFields p = some fields ∧ fields.flatten.length = encodedSize p ∧
    (readPayload p.type (encodedSize p)).run fields.flatten = some (q, []) ∧ Same p q ∧
    validatePayload q = validatePayload p

/-! ## Per message type -/

/-- Every type's reader ends up here. -/
theorem roundTrips_intro {p q : Payload} {fields : List Bytes} (hf : encodeFields p = some fields)
    (hlen : fields.flatten.length = encodedSize p)
    (hread : (readPayload p.type (encodedSize p)).run fields.flatten = some (q, [])) (hsame : Same p q)
    (hvalid : validatePayload q = validatePayload p) : RoundTrips p :=
  ⟨fields, q, hf, hlen, hread, hsame, hvalid⟩

theorem roundTrips_hello {p : Hello} (h : (Payload.hello p).WellFormed) : RoundTrips (.hello p) := by
  have h : ¬ p.clientVersion.Dangling := h
  refine roundTrips_intro (q := .hello { p with clientVersion := p.clientVersion.copy h })
    (if_neg h) ?_ (run_map_eq_some.mpr ⟨_, read_hello.mpr ⟨?_, ?_⟩, rfl⟩) ?_ ?_
  · simp [Slice.length_bytes h, encodedSize, authTokenBytes, WireWord.toNat]
    omega
  · exact Slice.exact_copy _ h
  · simp
  · exact ⟨rfl, rfl, rfl, rfl, (Slice.bytes_copy _ h).symm⟩
  · simp [validatePayload, h, (Slice.exact_copy _ h).not_dangling]

theorem roundTrips_helloAck {p : HelloAck} (h : (Payload.helloAck p).WellFormed) : RoundTrips (.helloAck p) := by
  have h : ¬ p.workerVersion.Dangling := h
  refine roundTrips_intro (q := .helloAck { p with workerVersion := p.workerVersion.copy h })
    (if_neg h) ?_ (run_map_eq_some.mpr ⟨_, read_helloAck.mpr ⟨?_, ?_⟩, rfl⟩) ?_ ?_
  · simp [Slice.length_bytes h, encodedSize, WireWord.toNat]
    omega
  · exact Slice.exact_copy _ h
  · simp
  · exact ⟨rfl, rfl, rfl, rfl, (Slice.bytes_copy _ h).symm⟩
  · simp [validatePayload, h, (Slice.exact_copy _ h).not_dangling]

/-- What a terminated string is counted as, and what is read back for it. -/
theorem countedString_of_terminated {n : Nat} {a : CArray n} (h : a.Terminated) (hn : n ≤ 65536) :
    CountedString (UInt16.ofNat a.str.length) (CArray.pad n a.str) a.str := by
  have hlt : a.str.length < n := a.str_length_lt_iff.mpr h
  have hnat : (UInt16.ofNat a.str.length).toNat = a.str.length := by
    rw [UInt16.toNat_ofNat']
    omega
  exact ⟨hnat.symm, by omega, rfl⟩

theorem str_pad_str {n : Nat} {a : CArray n} (h : a.Terminated) : (CArray.pad n a.str).str = a.str :=
  CArray.str_pad (a.str_length_lt_iff.mpr h) (zero_notMem_cstr _)

/-- What START is read back as. -/
def startRead (p : Start) : Start :=
  { p with modelId := .pad _ p.modelId.str, language := .pad _ p.language.str,
           sourceUrlLen := UInt16.ofNat p.sourceUrl.str.length, sourceUrl := .pad _ p.sourceUrl.str }

/-- The language check looks at the string alone. -/
theorem isValidLanguageCode_congr {a b : CArray 16} (h : a.str = b.str) (allowAuto : Bool) :
    isValidLanguageCode a allowAuto = isValidLanguageCode b allowAuto := by
  simp only [isValidLanguageCode, h]

theorem boundedStringLength_congr {n : Nat} {a b : CArray n} (h : a.str = b.str) :
    boundedStringLength a = boundedStringLength b := by
  simp only [boundedStringLength, h]

theorem roundTrips_start {p : Start} (h : (Payload.startSession p).WellFormed) :
    RoundTrips (.startSession p) := by
  obtain ⟨hlang, hmodel, hurl, hurlLen⟩ := h
  have hlen : UInt16.ofNat p.sourceUrl.str.length = p.sourceUrlLen := by rw [← hurlLen, UInt16.ofNat_toNat]
  refine roundTrips_intro (q := .startSession (startRead p)) rfl ?_
    (run_map_eq_some.mpr ⟨_, read_start.mpr ⟨_, p.modelId.str, _, p.language.str, _,
      countedString_of_terminated hmodel (by decide), countedString_of_terminated hlang (by decide),
      .inr ⟨p.sourceUrl.str, countedString_of_terminated hurl (by decide), rfl⟩, ?_⟩, rfl⟩) ?_ ?_
  · simp [cappedStrnlen_of_terminated hlang, cappedStrnlen_of_terminated hmodel,
      urlLen_of_terminated hurl hurlLen, take_str, encodedSize, sessionIdBytes]
    omega
  · simp [cappedStrnlen_of_terminated hlang, cappedStrnlen_of_terminated hmodel,
      urlLen_of_terminated hurl hurlLen, take_str, startRead]
  · exact ⟨rfl, rfl, rfl, rfl, rfl, (str_pad_str hmodel).symm, (str_pad_str hlang).symm, rfl, hlen.symm,
      (str_pad_str hurl).symm⟩
  · simp only [validatePayload, validateStart, startRead, hlen, isValidLanguageCode_congr (str_pad_str hlang),
      boundedStringLength_congr (str_pad_str hmodel), boundedStringLength_congr (str_pad_str hurl)]

theorem roundTrips_position (p : Position) : RoundTrips (.position p) := by
  refine roundTrips_intro (q := .position p) rfl ?_ (run_map_eq_some.mpr ⟨p, read_position.mpr ?_, rfl⟩) rfl rfl
  · simp [encodedSize, sessionIdBytes]
  · simp

theorem roundTrips_audio {p : Audio} (h : (Payload.audioPcm p).WellFormed) : RoundTrips (.audioPcm p) := by
  have h : ¬ p.pcm.Dangling := h
  refine roundTrips_intro (q := .audioPcm { p with pcm := p.pcm.copy h })
    (if_neg h) ?_ (run_map_eq_some.mpr ⟨_, read_audio.mpr ⟨?_, ?_⟩, rfl⟩) ?_ ?_
  · simp [Slice.length_bytes h, encodedSize, sessionIdBytes, WireWord.toNat]
    omega
  · exact Slice.exact_copy _ h
  · simp
  · exact ⟨rfl, rfl, rfl, rfl, (Slice.bytes_copy _ h).symm⟩
  · simp only [validatePayload, validateAudio, Slice.length_copy, h, (Slice.exact_copy _ h).not_dangling,
      decide_false]
    rfl

theorem run_control (p : Control) :
    readControl.run [p.sessionId.bytes, bytes p.reason].flatten = some (p, []) :=
  read_control.mpr (by simp)

theorem length_control (p : Control) : [p.sessionId.bytes, bytes p.reason].flatten.length = 18 := by
  simp [sessionIdBytes]

/-- An empty translated text is read back as NULL, any other one as a slice of the input. -/
theorem exists_textExact {t : Slice UInt16} (h : ¬ t.Dangling) : ∃ u, TextExact u ∧ Slice.Same t u := by
  by_cases hpos : 0 < t.length
  · refine ⟨t.copy h, ?_, rfl, (Slice.bytes_copy _ h).symm⟩
    rw [TextExact, Slice.length_copy, if_pos hpos]
    exact Slice.exact_copy _ h
  · have h0 : t.length = 0 := by
      apply UInt16.toNat_inj.mp
      have : ¬ 0 < t.length.toNat := hpos
      exact Nat.eq_zero_of_not_pos this
    refine ⟨.null 0, rfl, h0, ?_⟩
    rw [Slice.bytes_null]
    apply List.length_eq_zero_iff.mp
    rw [Slice.length_bytes h, h0]
    rfl

theorem validateText_congr {s t : Slice UInt16} (hs : ¬ s.Dangling) (ht : ¬ t.Dangling) (h : Slice.Same s t) :
    validateText s = validateText t := by
  simp only [validateText, h.1, h.2, hs, ht]

theorem roundTrips_captionSegment {p : CaptionSegment} (h : (Payload.captionSegment p).WellFormed) :
    RoundTrips (.captionSegment p) := by
  obtain ⟨htext, htrans, hnull, hoff⟩ := h
  obtain ⟨u, hu, hlen, hbytes⟩ := exists_textExact htrans
  have hsame : Slice.Same (p.text.copy htext) p.text := ⟨rfl, Slice.bytes_copy _ htext⟩
  have hvtext := validateText_congr (Slice.exact_copy _ htext).not_dangling htext hsame
  have hvtrans := validateText_congr hu.not_dangling htrans ⟨hlen.symm, hbytes.symm⟩
  cases htail : hasTranslationTail p with
  | false =>
    have hatt : p.translationAttempted = false := by
      simp only [hasTranslationTail, Bool.or_eq_false_iff] at htail
      exact htail.1
    obtain ⟨hpos, hlat, htier⟩ := hoff hatt
    have hzero : p.translatedText.length = 0 := not_pos_uint16.mp hpos
    have hnil : p.translatedText.bytes = [] := by
      apply List.length_eq_zero_iff.mp
      rw [Slice.length_bytes htrans, hzero]
      rfl
    refine roundTrips_intro (q := .captionSegment
        { p with text := p.text.copy htext, translatedText := .null 0, translationAttempted := false,
                 translationLatencyUs := 0, translationTier := 0 })
      ((if_neg htext).trans (if_neg htrans)) ?_
      (run_map_eq_some.mpr ⟨_, read_captionSegment.mpr ⟨Slice.exact_copy _ htext, rfl,
        .inl ⟨?_, rfl, rfl, rfl, rfl⟩⟩, rfl⟩) ?_ ?_
    · simp [htail, Slice.length_bytes htext, encodedSize, sessionIdBytes, WireWord.toNat]
      omega
    · simp [htail, captionHead]
    · exact ⟨rfl, rfl, rfl, rfl, rfl, ⟨rfl, hsame.2.symm⟩, ⟨hzero, by rw [hnil, Slice.bytes_null]⟩, hatt, hlat,
        htier⟩
    · simp [validatePayload, validateCaptionSegment, hvtext, hzero, hnull hpos, hatt, hlat, htier, Slice.null]
  | true =>
    have hatt : p.translationAttempted = true := by
      by_contra hne
      have hf : p.translationAttempted = false := by simpa using hne
      simp [hasTranslationTail, hf, (hoff hf).1] at htail
    have hdata : u.length = 0 → u.data.isSome = p.translatedText.data.isSome := by
      intro h0
      have hz : ¬ 0 < u.length := not_pos_uint16.mpr h0
      rw [TextExact, if_neg hz] at hu
      rw [hnull (hlen ▸ hz), hu]
      rfl
    let q : CaptionSegment := { p with text := p.text.copy htext, translatedText := u }
    refine roundTrips_intro (q := .captionSegment q) ((if_neg htext).trans (if_neg htrans)) ?_
      (run_map_eq_some.mpr ⟨q, read_captionSegment.mpr ⟨Slice.exact_copy _ htext, rfl,
        .inr ⟨hatt, hu, ?_⟩⟩, rfl⟩) ?_ ?_
    · simp [htail, Slice.length_bytes htext, Slice.length_bytes htrans, encodedSize, sessionIdBytes,
        WireWord.toNat]
      omega
    · simp [htail, captionHead, hlen, hbytes, q]
    · exact ⟨rfl, rfl, rfl, rfl, rfl, ⟨rfl, hsame.2.symm⟩, ⟨hlen, hbytes⟩, rfl, rfl, rfl⟩
    · by_cases hpos : 0 < p.translatedText.length
      · simp only [validatePayload, validateCaptionSegment, q, hvtext, hvtrans, ← hlen, if_pos hpos]
      · simp only [validatePayload, validateCaptionSegment, q, hvtext, ← hlen, if_neg hpos,
          hdata (hlen ▸ not_pos_uint16.mp hpos)]

theorem roundTrips_translateCtrl {p : TranslateCtrl} (h : (Payload.translateCtrl p).Terminated) :
    RoundTrips (.translateCtrl p) := by
  refine roundTrips_intro (q := .translateCtrl
      { p with sourceLang := p.sourceLang.terminate, targetLang := p.targetLang.terminate }) rfl ?_
    (run_map_eq_some.mpr ⟨_, read_translateCtrl.mpr ⟨p.sourceLang, p.targetLang, rfl, rfl, ?_⟩, rfl⟩) ?_ ?_
  · simp [encodedSize, sessionIdBytes]
  · simp
  · exact ⟨rfl, rfl, (CArray.str_terminate _ h.1).symm, (CArray.str_terminate _ h.2).symm, rfl⟩
  · simp only [validatePayload, validateTranslateCtrl, isValidLanguageCode_congr (CArray.str_terminate _ h.1),
      isValidLanguageCode_congr (CArray.str_terminate _ h.2)]

theorem roundTrips_status {p : Status} (h : (Payload.status p).Terminated) : RoundTrips (.status p) := by
  refine roundTrips_intro (q := .status { p with resolvedBackend := p.resolvedBackend.terminate }) rfl ?_
    (run_map_eq_some.mpr ⟨_, read_status.mpr ⟨by simp [encodedSize], p.resolvedBackend.bytes,
      .inl ⟨by simp [encodedSize], p.resolvedBackend, rfl, rfl⟩, ?_⟩, rfl⟩) ?_ rfl
  · simp [encodedSize, sessionIdBytes]
  · simp
  · exact ⟨rfl, rfl, rfl, rfl, rfl, (CArray.str_terminate _ h).symm⟩

theorem roundTrips_modelCtrl {p : ModelCtrl} (h : (Payload.modelCtrl p).Terminated) :
    RoundTrips (.modelCtrl p) := by
  refine roundTrips_intro (q := .modelCtrl { p with modelId := p.modelId.terminate }) rfl ?_
    (run_map_eq_some.mpr ⟨_, read_modelCtrl.mpr ⟨p.modelId, rfl, ?_⟩, rfl⟩) ?_ rfl
  · simp [encodedSize, sessionIdBytes]
  · simp
  · exact ⟨rfl, rfl, (CArray.str_terminate _ h).symm⟩

theorem roundTrips_modelProgress {p : ModelProgress} (h : (Payload.modelProgress p).Terminated) :
    RoundTrips (.modelProgress p) := by
  refine roundTrips_intro (q := .modelProgress { p with modelId := p.modelId.terminate }) rfl ?_
    (run_map_eq_some.mpr ⟨_, read_modelProgress.mpr ⟨p.modelId, rfl, ?_⟩, rfl⟩) ?_ rfl
  · simp [encodedSize, sessionIdBytes]
  · simp
  · exact ⟨rfl, rfl, rfl, rfl, rfl, (CArray.str_terminate _ h).symm⟩

theorem roundTrips_error {p : Error} (h : (Payload.error p).Terminated) : RoundTrips (.error p) := by
  have hlt : strnlen p.message.bytes maxErrorMsgBytes < maxErrorMsgBytes := by
    rw [strnlen_of_length p.message.length_bytes]
    exact p.message.str_length_lt_iff.mpr h
  refine roundTrips_intro (q := .error p) (if_neg (by omega)) ?_
    (run_map_eq_some.mpr ⟨_, read_error.mpr ⟨p.message, (if_pos h).symm, ?_⟩, rfl⟩) ?_ rfl
  · simp [encodedSize, sessionIdBytes, maxErrorMsgBytes]
  · simp
  · exact ⟨rfl, rfl, rfl, rfl⟩

theorem roundTrips_started (p : Started) : RoundTrips (.started p) := by
  refine roundTrips_intro (q := .started p) rfl ?_
    (run_map_eq_some.mpr ⟨p, read_started.mpr (.inr ⟨by simp [encodedSize], ?_⟩), rfl⟩) rfl rfl
  · simp [encodedSize, sessionIdBytes]
  · simp

/-! ## The round trip -/

theorem roundTrips_of_wellFormed {p : Payload} (h : p.WellFormed) : RoundTrips p := by
  cases p with
  | hello p => exact roundTrips_hello h
  | helloAck p => exact roundTrips_helloAck h
  | startSession p => exact roundTrips_start h
  | audioPcm p => exact roundTrips_audio h
  | pause p =>
    exact ⟨_, .pause p, rfl, length_control p, run_map_eq_some.mpr ⟨p, run_control p, rfl⟩, rfl, rfl⟩
  | resume p =>
    exact ⟨_, .resume p, rfl, length_control p, run_map_eq_some.mpr ⟨p, run_control p, rfl⟩, rfl, rfl⟩
  | stopSession p =>
    exact ⟨_, .stopSession p, rfl, length_control p, run_map_eq_some.mpr ⟨p, run_control p, rfl⟩, rfl, rfl⟩
  | captionSegment p => exact roundTrips_captionSegment h
  | status p => exact roundTrips_status h
  | error p => exact roundTrips_error h
  | shutdown => exact ⟨[], .shutdown, rfl, rfl, rfl, trivial, rfl⟩
  | started p => exact roundTrips_started p
  | position p => exact roundTrips_position p
  | modelCtrl p => exact roundTrips_modelCtrl h
  | modelProgress p => exact roundTrips_modelProgress h
  | translateCtrl p => exact roundTrips_translateCtrl h

theorem wellFormed_of_validate {p : Payload} (h : validatePayload p = true) (hterm : p.Terminated) :
    p.WellFormed := by
  cases p with
  | hello p => simpa [validatePayload, Payload.WellFormed] using h
  | helloAck p => simpa [validatePayload, Payload.WellFormed] using h
  | startSession p => exact validateStart_strings h
  | audioPcm p => exact validateAudio_slice h
  | captionSegment p =>
    obtain ⟨-, htext, htrans, hlat, -⟩ := validateCaptionSegment_iff.mp h
    split at htrans
    · rename_i hpos
      refine ⟨(validateText_iff.mp htext).2.1, (validateText_iff.mp htrans.1).2.1, absurd hpos, fun hatt => ?_⟩
      rw [htrans.2.2] at hatt
      cases hatt
    · rename_i hpos
      exact ⟨(validateText_iff.mp htext).2.1, fun hd => hpos hd.1, fun _ => htrans.1,
        fun hatt => ⟨hpos, hlat hatt, htrans.2⟩⟩
  | _ => exact hterm

/-- What encoding writes, and what decoding makes of it. -/
theorem encodePayload_of_wellFormed {p : Payload} {bufferSize : Nat} (h : p.WellFormed)
    (hsize : encodedSize p ≤ bufferSize) :
    ∃ buffer q, encodePayload p bufferSize = some buffer ∧ buffer.length = encodedSize p ∧
      decodePayload p.type (some buffer) = some q ∧ Same p q ∧ validatePayload q = validatePayload p := by
  obtain ⟨fields, q, hf, hlen, hread, hsame, hvalid⟩ := roundTrips_of_wellFormed h
  refine ⟨fields.flatten, q, ?_, hlen, ?_, hsame, hvalid⟩
  · simp only [encodePayload, hf]
    rw [writeAll_of_le (by simpa [hlen] using hsize), List.nil_append]
  · refine decodePayload_eq_some.mpr ⟨?_, hlen ▸ hread⟩
    intro n hn
    rw [hlen]
    cases p <;> cases hn <;> rfl

/-- **Codec round trip.** -/
theorem decode_encode (p : Payload) (bufferSize : Nat) (hvalid : validatePayload p = true)
    (hterm : p.Terminated) (hsize : encodedSize p ≤ bufferSize) :
    ∃ buffer q, encodePayload p bufferSize = some buffer ∧ buffer.length = encodedSize p ∧
      decodePayload p.type (some buffer) = some q ∧ Same p q := by
  obtain ⟨buffer, q, henc, hlen, hdec, hsame, -⟩ :=
    encodePayload_of_wellFormed (wellFormed_of_validate hvalid hterm) hsize
  exact ⟨buffer, q, henc, hlen, hdec, hsame⟩

/-- A translated caption, "Hi" with "Salut", in a buffer of one kilobyte. -/
def translatedCaption : CaptionSegment where
  sessionId := .zero _
  segmentId := 1
  startPtsUs := 0
  endPtsUs := 1500000
  isFinal := 1
  text := .ofBytes 2 [0x48, 0x69] rfl
  translatedText := .ofBytes 5 [0x53, 0x61, 0x6C, 0x75, 0x74] rfl
  translationAttempted := true
  translationLatencyUs := 90000
  translationTier := 1

theorem decode_encode_translatedCaption :
    ∃ buffer q, encodePayload (.captionSegment translatedCaption) 1024 = some buffer ∧
      buffer.length = encodedSize (.captionSegment translatedCaption) ∧
      decodePayload .captionSegment (some buffer) = some q ∧ Same (.captionSegment translatedCaption) q :=
  decode_encode (.captionSegment translatedCaption) 1024 (by decide) trivial (by decide)

end VlcWhisper.Protocol
