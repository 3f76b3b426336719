import VlcWhisper.Protocol.Types

/-!
# Payload validation (`vw_protocol_validate.c`, `vw_protocol_util.h`)

`validatePayload` is what both ends check after decoding a payload. `isValidUtf8` and `utf8SafeLen` walk
the same characters (`utf8Char`), the first to accept or reject a whole string, the second to find how
much of it can be kept.
-/

namespace VlcWhisper.Protocol

open VlcWhisper.Lib

/-! ## Saturating arithmetic -/

def int64Max : Int := 2 ^ 63 - 1
def int64Min : Int := -2 ^ 63

/-- `vw_saturating_add_i64`. -/
def saturatingAddI64 (a b : Int) : Int :=
  if int64Min ≤ a + b ∧ a + b ≤ int64Max then a + b else if 0 < b then int64Max else int64Min

/-- `vw_saturating_sub_i64`. -/
def saturatingSubI64 (a b : Int) : Int :=
  if int64Min ≤ a - b ∧ a - b ≤ int64Max then a - b else if b < 0 then int64Max else int64Min

/-! ## UTF-8 -/

/-- A leading byte above 0x7F: continuation bytes, first code point bits, smallest code point allowed. -/
def utf8Lead (c : UInt8) : Option (Nat × Nat × Nat) :=
  if c &&& 0xE0 = 0xC0 then some (1, (c &&& 0x1F).toNat, 0x80)
  else if c &&& 0xF0 = 0xE0 then some (2, (c &&& 0x0F).toNat, 0x800)
  else if c &&& 0xF8 = 0xF0 then some (3, (c &&& 0x07).toNat, 0x10000)
  else none

/-- Fold continuation bytes into a code point. -/
def utf8Continue (codePoint : Nat) : Bytes → Option Nat
  | [] => some codePoint
  | next :: rest =>
    if next &&& 0xC0 = 0x80 then utf8Continue (codePoint * 64 + (next &&& 0x3F).toNat) rest else none

/-- The length of the well-formed character at the front of `s`, if there is one. -/
def utf8Char : Bytes → Option Nat
  | [] => none
  | c :: rest =>
    if c ≤ 0x7F then some 1
    else match utf8Lead c with
      | none => none
      | some (extra, codePoint, minCp) =>
        if rest.length < extra then none
        else match utf8Continue codePoint (rest.take extra) with
          | none => none
          | some codePoint =>
            if codePoint < minCp then none
            else if 0xD800 ≤ codePoint ∧ codePoint ≤ 0xDFFF then none
            else if 0x10FFFF < codePoint then none
            else some (1 + extra)

/-- The body of `is_valid_utf8`; every round takes at least one byte, so `fuel` bounds the rounds. -/
def validUtf8 : Nat → Bytes → Bool
  | _, [] => true
  | 0, _ :: _ => false
  | fuel + 1, s@(_ :: _) =>
    match utf8Char s with
    | none => false
    | some n => validUtf8 fuel (s.drop n)

/-- `is_valid_utf8`. -/
def isValidUtf8 (s : Bytes) : Bool := validUtf8 s.length s

/-- The body of `vw_utf8_safe_len`: `len` bytes were kept, `s` follows them. -/
def safeUtf8 (maxBytes : Nat) : Nat → Nat → Bytes → Nat
  | 0, len, _ => len
  | fuel + 1, len, s =>
    if maxBytes ≤ len then len
    else match s with
      | [] => len
      | c :: _ =>
        if c = 0 then len
        else match utf8Char s with
          | none => len
          | some n => if maxBytes < len + n then len else safeUtf8 maxBytes fuel (len + n) (s.drop n)

/-- `vw_utf8_safe_len`. -/
def utf8SafeLen (s : Bytes) (maxBytes : Nat) : Nat := safeUtf8 maxBytes s.length 0 s

/-! ## Text checks -/

def isWhitespace (c : UInt8) : Bool := c = 0x20 || c = 0x0A || c = 0x0D || c = 0x09

/-- `is_empty_or_whitespace`. -/
def isEmptyOrWhitespace (s : Bytes) : Bool := s.all isWhitespace

/-- No control character but a newline. -/
def noControl (s : Bytes) : Bool := s.all fun c => !(c < 0x20 && c ≠ 0x0A && c ≠ 0x20)

def isAsciiAlpha (c : UInt8) : Bool := (0x41 ≤ c && c ≤ 0x5A) || (0x61 ≤ c && c ≤ 0x7A)

/-- The string "auto". -/
def autoCode : Bytes := [0x61, 0x75, 0x74, 0x6F]

/-- The checks of `is_valid_language_code` on the string before its terminator: two or three letters, then
possibly `-` and two to eight letters. -/
def isLanguageTag (s : Bytes) : Bool :=
  let primary := s.takeWhile (· ≠ 0x2D)
  let subtag := s.drop (primary.length + 1)
  primary.all isAsciiAlpha && 2 ≤ primary.length && primary.length ≤ 3 &&
    (primary.length = s.length || (2 ≤ subtag.length && subtag.length ≤ 8 && subtag.all isAsciiAlpha))

/-- `is_valid_language_code`. -/
def isValidLanguageCode (code : CArray 16) (allowAuto : Bool) : Bool :=
  if code.str.length = 0 || 16 ≤ code.str.length then false
  else if allowAuto && code.str = autoCode then true
  else isLanguageTag code.str

/-- `vw_bounded_string_length`. -/
def boundedStringLength {n : Nat} (text : CArray n) : Option Nat :=
  if text.str.length = n then none else some text.str.length

/-! ## Validation by message type -/

def validateStart (p : Start) : Bool :=
  if p.sampleRate ≠ 16000 || p.channels ≠ 1 || p.sampleFormat ≠ sampleFormatS16le then false
  else if !isValidLanguageCode p.language false then false
  else match boundedStringLength p.modelId with
    | none => false
    | some modelIdLength =>
      if modelIdLength = 0 then false
      else match boundedStringLength p.sourceUrl with
        | none => false
        | some sourceUrlLength =>
          if p.sourceUrlLen.toNat ≠ sourceUrlLength then false
          else if p.sourceKind = sourceLiveAudio then sourceUrlLength = 0
          else if p.sourceKind = sourceLocalFile then 0 < sourceUrlLength
          else false

def validateAudio (p : Audio) : Bool :=
  if p.durationUs ≤ 0 || 30000000 < p.durationUs then false
  else if p.pcm.length % 2 ≠ 0 then false
  else
    -- at most 960000 for the durations that remain, so the product does not overflow
    let expectedBytes := UInt32.ofNat (p.durationUs.toInt * 32 / 1000).toNat
    if p.pcm.length + 1 < expectedBytes || expectedBytes + 1 < p.pcm.length then false
    else !decide p.pcm.Dangling

def validatePosition (p : Position) : Bool :=
  if p.currentPtsUs < -10000000 || 315360000000000 < p.currentPtsUs then false
  else if p.inputTimeUs < -1 || 315360000000000 < p.inputTimeUs then false
  else if !p.playbackRate.isFinite || p.playbackRate.le .zero || Binary32.sixteen.lt p.playbackRate then false
  else p.flags &&& ~~~(positionFlagSeek ||| positionFlagPaused) = 0

/-- The checks both texts of a caption share. -/
def validateText (t : Slice UInt16) : Bool :=
  if maxTextBytes < t.length.toNat then false
  else if decide t.Dangling then false
  else if isEmptyOrWhitespace t.bytes then false
  else if !isValidUtf8 t.bytes then false
  else noControl t.bytes

def validateCaptionSegment (p : CaptionSegment) : Bool :=
  if p.endPtsUs ≤ p.startPtsUs then false
  else if !validateText p.text then false
  else if (if 0 < p.translatedText.length then !validateText p.translatedText
           else p.translatedText.data.isSome) then false
  else if !p.translationAttempted &&
      (0 < p.translatedText.length || 0 < p.translationLatencyUs || 0 < p.translationTier) then false
  else if 3 < p.translationTier then false
  else if 0 < p.translatedText.length && p.translationTier = 0 then false
  else if p.translatedText.length = 0 && p.translationTier ≠ 0 then false
  else true

def validateTranslateCtrl (p : TranslateCtrl) : Bool :=
  if 1 < p.enabled then false
  else if 1 < p.mode then false
  else if !isValidLanguageCode p.sourceLang true then false
  else isValidLanguageCode p.targetLang false

def validateModelProgress (p : ModelProgress) : Bool :=
  if modelStageAborting < p.stage then false
  else if 100 < p.pct then false
  else !(p.bytesTotal = 0 && p.stage ≠ modelStageIdle && p.stage ≠ modelStageFailed)

/-- `vw_protocol_validate_payload`. -/
def validatePayload : Payload → Bool
  | .hello p => !decide p.clientVersion.Dangling
  | .helloAck p => !decide p.workerVersion.Dangling
  | .startSession p => validateStart p
  | .audioPcm p => validateAudio p
  | .pause p => p.reason = ctrlReasonUserPause
  | .resume p => p.reason = ctrlReasonUserResume
  | .stopSession p => p.reason = ctrlReasonUserStop || p.reason = ctrlReasonSeekDiscontinuity ||
      p.reason = ctrlReasonMediaEnd
  | .status _ => true
  | .shutdown => true
  | .error p => eProtocolVersion ≤ p.errorCode && p.errorCode ≤ errorMax
  | .started p => p.sourceActive = sourceActiveInactive || p.sourceActive = sourceActiveActive
  | .position p => validatePosition p
  | .captionSegment p => validateCaptionSegment p
  | .translateCtrl p => validateTranslateCtrl p
  | .modelCtrl p => p.action = modelActionDownload || p.action = modelActionAbort
  | .modelProgress p => validateModelProgress p

/-! ## What an accepted payload satisfies -/

theorem boundedStringLength_eq_some {n : Nat} {text : CArray n} {k : Nat}
    (h : boundedStringLength text = some k) : k = text.str.length ∧ text.Terminated := by
  simp only [boundedStringLength] at h
  split at h
  · cases h
  · rename_i hne
    have hlt : text.str.length < n := lt_of_le_of_ne text.str_length_le hne
    exact ⟨(Option.some.inj h).symm, text.str_length_lt_iff.mp hlt⟩

theorem boundedStringLength_of_terminated {n : Nat} {text : CArray n} (h : text.Terminated) :
    boundedStringLength text = some text.str.length := by
  have hlt := text.str_length_lt_iff.mpr h
  rw [boundedStringLength, if_neg (by omega)]

theorem isValidLanguageCode_terminated {code : CArray 16} {allowAuto : Bool}
    (h : isValidLanguageCode code allowAuto = true) : code.Terminated := by
  simp only [isValidLanguageCode] at h
  split at h
  · cases h
  · rename_i hlen
    simp only [Bool.or_eq_true, decide_eq_true_eq, not_or] at hlen
    exact code.str_length_lt_iff.mp (by omega)

theorem validateStart_strings {p : Start} (h : validateStart p = true) :
    p.language.Terminated ∧ p.modelId.Terminated ∧ p.sourceUrl.Terminated ∧
      p.sourceUrlLen.toNat = p.sourceUrl.str.length := by
  simp only [validateStart] at h
  split at h
  · cases h
  split at h
  · cases h
  rename_i hlang
  split at h
  · cases h
  rename_i modelIdLength hmodel
  split at h
  · cases h
  split at h
  · cases h
  rename_i sourceUrlLength hurl
  split at h
  · cases h
  rename_i hlen
  have hu := boundedStringLength_eq_some hurl
  simp only [Bool.not_eq_true, Bool.not_eq_false'] at hlang
  exact ⟨isValidLanguageCode_terminated hlang, (boundedStringLength_eq_some hmodel).2, hu.2,
    by rw [← hu.1]; simpa using hlen⟩

theorem validateStart_iff {p : Start} (hmodel : p.modelId.Terminated) (hurl : p.sourceUrl.Terminated) :
    validateStart p = true ↔
      (p.sampleRate = 16000 ∧ p.channels = 1 ∧ p.sampleFormat = sampleFormatS16le) ∧
      isValidLanguageCode p.language false = true ∧ p.modelId.str ≠ [] ∧
      p.sourceUrlLen.toNat = p.sourceUrl.str.length ∧
      (p.sourceKind = sourceLiveAudio ∧ p.sourceUrl.str = [] ∨
        p.sourceKind = sourceLocalFile ∧ p.sourceUrl.str ≠ []) := by
  simp only [validateStart, boundedStringLength_of_terminated hmodel, boundedStringLength_of_terminated hurl]
  by_cases hlive : p.sourceKind = sourceLiveAudio
  · simp [hlive, and_assoc, sourceLiveAudio, sourceLocalFile]
  · simp [hlive, and_assoc, List.length_pos_iff]

theorem validateText_iff {t : Slice UInt16} : validateText t = true ↔
    t.length.toNat ≤ maxTextBytes ∧ ¬ t.Dangling ∧ isEmptyOrWhitespace t.bytes = false ∧
      isValidUtf8 t.bytes = true ∧ noControl t.bytes = true := by
  simp [validateText]

theorem not_pos_uint16 {n : UInt16} : ¬ 0 < n ↔ n = 0 := by
  rw [← UInt16.toNat_inj, UInt16.lt_iff_toNat_lt]
  simp

theorem validateCaptionSegment_iff {p : CaptionSegment} : validateCaptionSegment p = true ↔
    p.startPtsUs < p.endPtsUs ∧ validateText p.text = true ∧
      (if 0 < p.translatedText.length then
          validateText p.translatedText = true ∧ p.translationTier ≠ 0 ∧ p.translationAttempted = true
        else p.translatedText.data = none ∧ p.translationTier = 0) ∧
      (p.translationAttempted = false → p.translationLatencyUs = 0) ∧ p.translationTier ≤ 3 := by
  by_cases hpos : 0 < p.translatedText.length
  · have hne : p.translatedText.length ≠ 0 := fun h => by simp [h] at hpos
    simp [validateCaptionSegment, hpos, hne]
    cases p.translationAttempted <;> simp
    tauto
  · have hz := not_pos_uint16.mp hpos
    simp [validateCaptionSegment, hz]
    cases p.translationAttempted <;> simp <;> tauto

theorem validateAudio_slice {p : Audio} (h : validateAudio p = true) : ¬ p.pcm.Dangling := by
  simp only [validateAudio] at h
  split at h
  · cases h
  split at h
  · cases h
  split at h
  · cases h
  · simpa using h

end VlcWhisper.Protocol
