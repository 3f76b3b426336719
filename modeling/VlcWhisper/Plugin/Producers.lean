import VlcWhisper.Plugin.WorkerClient

/-!
# Which calls write only frames the worker accepts

The worker leaves its loop at a payload that does not decode or validate. `ArgsAccepted` is the condition on
a call's arguments and on the client's state under which no such frame is written, whatever the transport,
the random source and the worker's answer do; `written_accepted_iff` says that it is exact.
-/

namespace VlcWhisper.Plugin

open VlcWhisper.Lib VlcWhisper.Protocol

/-- The worker decodes and accepts the payload. -/
def WorkerAccepts (f : Frame) : Prop :=
  ∃ p, decodePayload f.type (some f.payload) = some p ∧ validatePayload p = true

def Outcome.Accepted (o : Outcome) : Prop := ∀ f ∈ o.frames, WorkerAccepts f

/-! ## The conditions -/

/-- A valid tag, or `auto` where that is allowed, once copied into the message. -/
def LanguageAccepted (s : CString) (allowAuto : Bool) : Prop :=
  isValidLanguageCode (.ofStr 16 s.val) allowAuto = true

instance (s : CString) (allowAuto : Bool) : Decidable (LanguageAccepted s allowAuto) :=
  inferInstanceAs (Decidable (_ = true))

def StartAccepted (c : Client) (modelId sourceUrl : Option CString) : Prop :=
  tooLong maxModelIdBytes modelId = true ∨ tooLong maxSourceUrlBytes sourceUrl = true ∨
    ((∃ m, modelId = some m ∧ m.val ≠ []) ∧ (∀ url ∈ sourceUrl, url.val ≠ []) ∧
      LanguageAccepted (startLanguage c) false)

def PositionAccepted (currentPtsUs inputTimeUs : Int64) (flags : UInt32) : Prop :=
  -10000000 ≤ currentPtsUs ∧ currentPtsUs ≤ 315360000000000 ∧ -1 ≤ inputTimeUs ∧
    inputTimeUs ≤ 315360000000000 ∧ flags &&& ~~~(positionFlagSeek ||| positionFlagPaused) = 0

def TranslateAccepted (c : Client) (sourceLang targetLang : Option CString) (mode : UInt8) : Prop :=
  c.workerCapabilities &&& capabilityTranslation = 0 ∨
    (LanguageAccepted (sourceLang.getD .auto) true ∧ LanguageAccepted (targetLang.getD .en) false ∧ mode ≤ 1)

/-- 32 bytes for each millisecond, one byte more or less. -/
def AudioAccepted (chunk : AudioChunk) : Prop :=
  0 < chunk.durationUs ∧ chunk.durationUs ≤ 30000000 ∧ chunk.bytes % 2 = 0 ∧
    chunk.bytes.toNat ≤ chunk.durationUs.toInt.toNat * 32 / 1000 + 1 ∧
    chunk.durationUs.toInt.toNat * 32 / 1000 ≤ chunk.bytes.toNat + 1

/-- What a seek in source mode replays besides the position. -/
def RestartAccepted (c : Client) : Prop :=
  c.activeModelId.str ≠ [] ∧ LanguageAccepted (startLanguage c) false ∧
    (c.translationConfigured = true →
      TranslateAccepted c (some (CString.copied 16 (.ofArray c.translateSourceLang)))
        (some (CString.copied 16 (.ofArray c.translateTargetLang))) c.translateMode)

/-- The arguments of a call, in a state of the client, are ones the worker accepts. -/
def ArgsAccepted (c : Client) : Call → Prop
  | .startSession _ modelId sourceUrl => c.connected = true → StartAccepted c modelId sourceUrl
  | .sendPosition pts time _ flags => c.connected = true → c.sessionActive = true →
      PositionAccepted pts time flags ∧ (seekRestarts c flags = true → RestartAccepted c)
  | .sendAudio chunk => c.connected = true → c.sessionActive = true → AudioAccepted chunk
  | .sendTranslateCtrl _ source target mode => c.connected = true → TranslateAccepted c source target mode
  | .sendModelCtrl action modelId => c.connected = true → tooLong 32 modelId = true ∨
      action = modelActionDownload ∨ action = modelActionAbort
  | .pauseSession | .resumeSession => True
  | .stopSession reason => c.connected = true → c.sessionActive = true → reason ≤ ctrlReasonMediaEnd

/-! ## Outcomes -/

theorem accepted_quiet (c : Client) (ok : Bool) : (Outcome.quiet c ok).Accepted := by
  intro f hf
  cases hf

theorem accepted_andThen {o : Outcome} {f : Client → Outcome} :
    (o.andThen f).Accepted ↔ o.Accepted ∧ (o.ok = true → (f o.client).Accepted) := by
  rw [Outcome.andThen]
  split
  · rename_i h
    simp only [Outcome.Accepted, List.mem_append, h, forall_const]
    constructor
    · intro hall
      exact ⟨fun g hg => hall g (.inl hg), fun g hg => hall g (.inr hg)⟩
    · rintro ⟨h1, h2⟩ g (hg | hg)
      · exact h1 g hg
      · exact h2 g hg
  · rename_i h
    simp [h]

/-- A frame that is written is accepted exactly if its payload is valid. -/
theorem accepted_sendFrame {env : Env} {c : Client} {p : Payload} {bufferSize : Nat} (h : p.WellFormed)
    (hsize : encodedSize p ≤ bufferSize) :
    (sendFrame env c p bufferSize).Accepted ↔ (env.sent (c.sequence + 1) = true → validatePayload p = true) := by
  obtain ⟨buffer, q, henc, -, hdec, -, hvalid⟩ := encodePayload_of_wellFormed h hsize
  simp only [sendFrame, henc]
  split
  · rename_i hsent
    simp only [Outcome.Accepted, List.mem_singleton, forall_eq, hsent, forall_const, WorkerAccepts, hdec,
      Option.some.injEq, exists_eq_left', hvalid]
  · rename_i hsent
    simp only [Outcome.quiet, Outcome.Accepted, hsent]
    simp

theorem sendFrame_sent (env : Env) (c : Client) (p : Payload) (bufferSize : Nat) (h : p.WellFormed)
    (hsize : encodedSize p ≤ bufferSize) (hsent : env.sent (c.sequence + 1) = true) :
    (sendFrame env c p bufferSize).ok = true ∧
      (sendFrame env c p bufferSize).client = { c with sequence := c.sequence + 1 } := by
  obtain ⟨buffer, q, henc, -⟩ := encodePayload_of_wellFormed h hsize
  simp [sendFrame, henc, hsent]

/-! ## The messages -/

theorem ofStr_terminated {n : Nat} (s : Bytes) (h : 0 < n) : (CArray.ofStr n s).Terminated :=
  CArray.pad_terminated (by simp; omega)

theorem zero_terminated {n : Nat} (h : 0 < n) : (CArray.zero n).Terminated :=
  List.mem_replicate.mpr ⟨by omega, rfl⟩

theorem str_ofStr_of_fits {n : Nat} {s : CString} (h : s.val.length < n) : (CArray.ofStr n s.val).str = s.val := by
  rw [CArray.str_ofStr (by omega) s.property, List.take_of_length_le (by omega)]

theorem str_zero (n : Nat) : (CArray.zero n).str = [] := by
  rw [CArray.str, CArray.zero, cstr]
  cases n <;> simp [List.replicate_succ]

theorem startMessage_wellFormed (c : Client) (origin : Int64) (modelId sourceUrl : Option CString)
    (hurl : tooLong maxSourceUrlBytes sourceUrl = false) :
    (Payload.startSession (startMessage c origin modelId sourceUrl)).WellFormed := by
  refine ⟨ofStr_terminated _ (by decide), ?_, ?_, ?_⟩
  · cases modelId
    · exact zero_terminated (by decide)
    · exact ofStr_terminated _ (by decide)
  · cases sourceUrl
    · exact zero_terminated (by decide)
    · exact ofStr_terminated _ (by decide)
  · cases sourceUrl with
    | none => simp [startMessage, str_zero]
    | some url =>
      simp only [tooLong, Option.any_some, decide_eq_false_iff_not, not_le] at hurl
      simp only [startMessage, str_ofStr_of_fits hurl, UInt16.toNat_ofNat']
      simp only [maxSourceUrlBytes] at hurl
      omega

theorem validate_startMessage {c : Client} {origin : Int64} {modelId sourceUrl : Option CString}
    (hmodel : tooLong maxModelIdBytes modelId = false) (hurl : tooLong maxSourceUrlBytes sourceUrl = false) :
    validatePayload (.startSession (startMessage c origin modelId sourceUrl)) = true ↔
      (∃ m, modelId = some m ∧ m.val ≠ []) ∧ (∀ url ∈ sourceUrl, url.val ≠ []) ∧
        LanguageAccepted (startLanguage c) false := by
  obtain ⟨-, hm, hu, hlen⟩ := startMessage_wellFormed c origin modelId sourceUrl hurl
  have hmodelStr : (startMessage c origin modelId sourceUrl).modelId.str ≠ [] ↔
      ∃ m, modelId = some m ∧ m.val ≠ [] := by
    cases modelId with
    | none => simp [startMessage, str_zero]
    | some m =>
      simp only [tooLong, Option.any_some, decide_eq_false_iff_not, not_le] at hmodel
      simp [startMessage, str_ofStr_of_fits hmodel]
  have hkind : ((startMessage c origin modelId sourceUrl).sourceKind = sourceLiveAudio ∧
      (startMessage c origin modelId sourceUrl).sourceUrl.str = [] ∨
      (startMessage c origin modelId sourceUrl).sourceKind = sourceLocalFile ∧
      (startMessage c origin modelId sourceUrl).sourceUrl.str ≠ []) ↔ ∀ url ∈ sourceUrl, url.val ≠ [] := by
    cases sourceUrl with
    | none => simp [startMessage, str_zero]
    | some url =>
      simp only [tooLong, Option.any_some, decide_eq_false_iff_not, not_le] at hurl
      simp [startMessage, str_ofStr_of_fits hurl, sourceLocalFile, sourceLiveAudio]
  rw [validatePayload, validateStart_iff hm hu, hmodelStr, hkind]
  constructor
  · rintro ⟨-, hlang, hmod, -, hurls⟩
    exact ⟨hmod, hurls, hlang⟩
  · rintro ⟨hmod, hurls, hlang⟩
    exact ⟨⟨rfl, rfl, rfl⟩, hlang, hmod, hlen, hurls⟩

theorem zero_lt_iff {x : Binary32} (h : Binary32.zero.lt x = true) : x.isNaN = false ∧ x.le .zero = false := by
  simp only [Binary32.lt, Bool.and_eq_true, Bool.not_eq_true', decide_eq_true_eq] at h
  obtain ⟨⟨hz, hx⟩, hlt⟩ := h
  refine ⟨hx, ?_⟩
  simp only [Binary32.le, hx, hz, Bool.not_false, Bool.true_and, decide_eq_false_iff_not, not_le]
  exact hlt

/-- Whatever the rate, NaN and infinities included, the one that is sent is valid. -/
theorem effRate_valid (rate : Binary32) :
    (effRate rate).isFinite = true ∧ (effRate rate).le .zero = false ∧
      Binary32.sixteen.lt (effRate rate) = false := by
  have hpos : Binary32.zero.lt (if Binary32.zero.lt rate then rate else .one) = true := by
    split
    · assumption
    · decide
  simp only [effRate]
  generalize (if Binary32.zero.lt rate then rate else Binary32.one) = x at hpos ⊢
  split
  · decide
  · rename_i hmin
    split
    · decide
    · rename_i hmax
      simp only [Bool.not_eq_true] at hmin hmax
      obtain ⟨hnan, hle⟩ := zero_lt_iff hpos
      exact ⟨Binary32.isFinite_of_between (by decide) (by decide) hmin hmax hnan, hle, hmax⟩

theorem validate_position {c : Client} {pts time : Int64} {rate : Binary32} {flags : UInt32} :
    validatePayload (.position { sessionId := c.sessionId, currentPtsUs := pts, inputTimeUs := time,
                                 playbackRate := effRate rate, flags }) = true ↔
      PositionAccepted pts time flags := by
  obtain ⟨hfin, hpos, hmax⟩ := effRate_valid rate
  simp [validatePayload, validatePosition, hfin, hpos, hmax, PositionAccepted, and_assoc]

theorem validate_audio {c : Client} {chunk : AudioChunk} :
    validatePayload (.audioPcm { sessionId := c.sessionId, startPtsUs := chunk.startPtsUs,
                                 durationUs := chunk.durationUs, pcm := chunk.pcm }) = true ↔
      AudioAccepted chunk := by
  have hdang : ¬ chunk.pcm.Dangling := by simp [Slice.Dangling, AudioChunk.pcm]
  have hfits := chunk.fits
  simp only [audioChunkMaxPcmBytes] at hfits
  by_cases h1 : 0 < chunk.durationUs
  swap
  · simp [validatePayload, validateAudio, AudioAccepted, h1]
  by_cases h2 : chunk.durationUs ≤ 30000000
  swap
  · simp [validatePayload, validateAudio, AudioAccepted, h2]
  have hd1 : 0 < chunk.durationUs.toInt := by simpa [Int64.lt_iff_toInt_lt] using h1
  have hd2 : chunk.durationUs.toInt ≤ 30000000 := by simpa [Int64.le_iff_toInt_le] using h2
  obtain ⟨d, hd⟩ : ∃ d : Nat, chunk.durationUs.toInt = d := ⟨chunk.durationUs.toInt.toNat, by omega⟩
  have hexp : (UInt32.ofNat (chunk.durationUs.toInt * 32 / 1000).toNat).toNat = d * 32 / 1000 := by
    have hcast : (d : Int) * 32 / 1000 = (d * 32 / 1000 : Nat) := by push_cast; rfl
    rw [hd, hcast, Int.toNat_natCast, UInt32.toNat_ofNat', Nat.mod_eq_of_lt (by omega)]
  have hclamp : chunk.durationUs.toNatClampNeg = d := by
    rw [Int64.toNatClampNeg, hd, Int.toNat_natCast]
  have hlen : chunk.pcm.length = chunk.bytes := rfl
  simp [validatePayload, validateAudio, hdang, AudioAccepted, hlen, h1, h2, UInt32.lt_iff_toNat_lt, hexp, hclamp]
  intro _
  omega

theorem validate_translateCtrl {c : Client} {enabled : Bool} {source target : CString} {mode : UInt8} :
    validatePayload (.translateCtrl { sessionId := c.sessionId, enabled := if enabled then 1 else 0,
                                      sourceLang := .ofStr 16 source.val, targetLang := .ofStr 16 target.val,
                                      mode }) = true ↔
      LanguageAccepted source true ∧ LanguageAccepted target false ∧ mode ≤ 1 := by
  cases enabled <;> simp [validatePayload, validateTranslateCtrl, LanguageAccepted] <;> tauto

theorem validate_stop {c : Client} {reason : UInt16} :
    validatePayload (.stopSession
      { sessionId := c.sessionId, reason := if reason = 0 then ctrlReasonUserStop else reason }) = true ↔
      reason ≤ ctrlReasonMediaEnd := by
  simp only [validatePayload, ctrlReasonUserStop, ctrlReasonSeekDiscontinuity, ctrlReasonMediaEnd,
    Bool.or_eq_true]
  split
  · rename_i h
    subst h
    decide
  · rename_i h
    simp only [← UInt16.toNat_inj, UInt16.le_iff_toNat_le] at h ⊢
    simp at h ⊢
    omega
/-! ## The calls -/

theorem startLanguage_congr {c d : Client} (h : c.language = d.language) : startLanguage c = startLanguage d := by
  simp only [startLanguage, h]

theorem encodedSize_start_le (c : Client) (origin : Int64) (modelId sourceUrl : Option CString)
    (hurl : tooLong maxSourceUrlBytes sourceUrl = false) :
    encodedSize (.startSession (startMessage c origin modelId sourceUrl)) ≤ 2048 := by
  obtain ⟨hl, hm, hu, -⟩ := startMessage_wellFormed c origin modelId sourceUrl hurl
  have h1 := (CArray.str_length_lt_iff _).mpr hl
  have h2 := (CArray.str_length_lt_iff _).mpr hm
  have h3 := (CArray.str_length_lt_iff _).mpr hu
  have h64 : maxModelIdBytes = 64 := rfl
  have h1024 : maxSourceUrlBytes = 1024 := rfl
  simp only [encodedSize]
  omega

theorem accepted_startSession (env : Env) (c : Client) (origin : Int64) (modelId sourceUrl : Option CString) :
    (startSession env c origin modelId sourceUrl).Accepted ↔
      (c.connected = true → env.randomBytes.isSome = true → env.sent (c.sequence + 1) = true →
        StartAccepted c modelId sourceUrl) := by
  simp only [startSession, StartAccepted]
  cases hconn : c.connected with
  | false => simp [accepted_quiet]
  | true =>
    cases hmodel : tooLong maxModelIdBytes modelId with
    | true => simp [accepted_quiet]
    | false =>
      cases env.randomBytes with
      | none => simp [accepted_quiet]
      | some id =>
        cases hurl : tooLong maxSourceUrlBytes sourceUrl with
        | true => simp [accepted_quiet]
        | false =>
          simp only [Bool.not_true, Bool.false_eq_true, if_false, accepted_andThen]
          rw [accepted_sendFrame (startMessage_wellFormed _ _ _ _ hurl) (encodedSize_start_le _ _ _ _ hurl),
            validate_startMessage hmodel hurl, and_iff_left]
          · simp only [Option.isSome_some, forall_const, false_or]
            exact Iff.rfl
          · -- what follows the frame writes nothing
            intro _
            split <;> exact accepted_quiet _ _

theorem accepted_sendControlFrame (env : Env) (c : Client) (type : Control → Payload) (reason : UInt16)
    (hwf : ∀ p, (type p).WellFormed) (hsize : ∀ p, encodedSize (type p) = 18) :
    (sendControlFrame env c type reason).Accepted ↔
      (c.connected = true → env.sent (c.sequence + 1) = true →
        validatePayload (type { sessionId := c.sessionId, reason }) = true) := by
  rw [sendControlFrame]
  cases hconn : c.connected with
  | false => simp [accepted_quiet]
  | true =>
    simp only [Bool.not_true, Bool.false_eq_true, if_false]
    rw [accepted_sendFrame (hwf _) (by rw [hsize]; omega)]
    simp

theorem accepted_sendPositionFrame (env : Env) (c : Client) (pts time : Int64) (rate : Binary32)
    (flags : UInt32) :
    (sendPositionFrame env c pts time rate flags).Accepted ↔
      (env.sent (c.sequence + 1) = true → PositionAccepted pts time flags) := by
  refine (accepted_sendFrame ?_ ?_).trans ?_
  · exact trivial
  · simp [encodedSize]
  · rw [validate_position]

theorem accepted_sendTranslateCtrl (env : Env) (c : Client) (enabled : Bool) (source target : Option CString)
    (mode : UInt8) :
    (sendTranslateCtrl env c enabled source target mode).Accepted ↔
      (c.connected = true → env.sent (c.sequence + 1) = true → TranslateAccepted c source target mode) := by
  simp only [sendTranslateCtrl, TranslateAccepted]
  cases hconn : c.connected with
  | false => simp [accepted_quiet]
  | true =>
    by_cases hcap : c.workerCapabilities &&& capabilityTranslation = 0
    · simp [hcap, accepted_quiet]
    · simp only [Bool.not_true, Bool.false_eq_true, if_false, hcap, false_or, accepted_andThen]
      rw [and_iff_left (fun _ => accepted_quiet _ _), forall_const]
      refine (accepted_sendFrame ?_ ?_).trans ?_
      · exact ⟨ofStr_terminated _ (by decide), ofStr_terminated _ (by decide)⟩
      · simp [encodedSize]
      · rw [validate_translateCtrl]

theorem accepted_sendAudio (env : Env) (c : Client) (chunk : AudioChunk) :
    (sendAudio env c chunk).Accepted ↔
      (c.connected = true → c.sessionActive = true → env.sent (c.sequence + 1) = true →
        AudioAccepted chunk) := by
  have hdang : ¬ chunk.pcm.Dangling := by simp [Slice.Dangling, AudioChunk.pcm]
  have hsize : 36 + chunk.bytes.toNat ≤ 2 * audioChunkMaxPcmBytes := by
    have := chunk.fits
    simp only [audioChunkMaxPcmBytes] at this ⊢
    omega
  rw [sendAudio]
  cases hconn : c.connected with
  | false => simp [accepted_quiet]
  | true =>
    cases hact : c.sessionActive with
    | false => simp [accepted_quiet]
    | true =>
      simp only [Bool.not_true, Bool.or_self, Bool.false_eq_true, if_false]
      refine (accepted_sendFrame ?_ ?_).trans ?_
      · exact hdang
      · exact hsize
      · rw [validate_audio]
        simp

theorem accepted_sendModelCtrl (env : Env) (c : Client) (action : UInt8) (modelId : Option CString) :
    (sendModelCtrl env c action modelId).Accepted ↔
      (c.connected = true → env.sent (c.sequence + 1) = true → tooLong 32 modelId = true ∨
        action = modelActionDownload ∨ action = modelActionAbort) := by
  simp only [sendModelCtrl]
  cases hconn : c.connected with
  | false => simp [accepted_quiet]
  | true =>
    cases htoo : tooLong 32 modelId with
    | true => simp [accepted_quiet]
    | false =>
      simp only [Bool.not_true, Bool.false_eq_true, if_false]
      refine (accepted_sendFrame ?_ ?_).trans ?_
      · cases modelId
        · exact zero_terminated (by decide)
        · exact ofStr_terminated _ (by decide)
      · simp [encodedSize]
      · simp [validatePayload]

theorem accepted_stopSession (env : Env) (c : Client) (reason : UInt16) :
    (stopSession env c reason).Accepted ↔
      (c.connected = true → c.sessionActive = true → env.sent (c.sequence + 1) = true →
        reason ≤ ctrlReasonMediaEnd) := by
  rw [stopSession]
  cases hconn : c.connected with
  | false => simp [accepted_quiet]
  | true =>
    cases hact : c.sessionActive with
    | false => simp [accepted_quiet]
    | true =>
      simp only [Bool.not_true, Bool.or_self, Bool.false_eq_true, if_false, accepted_andThen]
      rw [accepted_sendControlFrame env c .stopSession _ (fun _ => trivial) (fun _ => rfl), validate_stop,
        and_iff_left (fun _ => accepted_quiet _ _)]
      simp [hconn]

theorem accepted_pauseSession (env : Env) (c : Client) : (pauseSession env c).Accepted := by
  rw [pauseSession]
  split
  · exact accepted_quiet _ _
  · exact (accepted_sendControlFrame env c .pause _ (fun _ => trivial) (fun _ => rfl)).mpr fun _ _ => rfl

theorem accepted_resumeSession (env : Env) (c : Client) : (resumeSession env c).Accepted := by
  rw [resumeSession]
  split
  · exact accepted_quiet _ _
  · exact (accepted_sendControlFrame env c .resume _ (fun _ => trivial) (fun _ => rfl)).mpr fun _ _ => rfl

/-! ## A seek in source mode -/

theorem copied_fits {n : Nat} (s : CString) (h : 0 < n) : tooLong n (some (CString.copied n s)) = false := by
  simp only [tooLong, Option.any_some, decide_eq_false_iff_not, not_le]
  exact (CArray.str_length_lt_iff _).mpr (ofStr_terminated _ h)

theorem copied_val_eq_nil {n m : Nat} (a : CArray m) (h : 1 < n) :
    (CString.copied n (.ofArray a)).val = [] ↔ a.str = [] := by
  have hval : (CString.copied n (.ofArray a)).val = a.str.take (n - 1) :=
    CArray.str_ofStr (by omega) (zero_notMem_cstr _)
  rw [hval, List.take_eq_nil_iff]
  exact or_iff_right (by omega)

theorem dropTransport_workerCapabilities (c : Client) :
    (dropTransport c).workerCapabilities = c.workerCapabilities := by
  rw [dropTransport]
  split <;> rfl

theorem sendFrame_workerCapabilities (env : Env) (c : Client) (p : Payload) (bufferSize : Nat) :
    (sendFrame env c p bufferSize).client.workerCapabilities = c.workerCapabilities := by
  simp only [sendFrame]
  split
  · rfl
  · split
    · rfl
    · exact dropTransport_workerCapabilities _

theorem sendControlFrame_client (env : Env) (c : Client) (type : Control → Payload) (reason : UInt16) :
    (sendControlFrame env c type reason).client.workerCapabilities = c.workerCapabilities ∧
      (sendControlFrame env c type reason).client.language = c.language := by
  simp only [sendControlFrame, sendFrame, dropTransport]
  split
  · exact ⟨rfl, rfl⟩
  split
  · exact ⟨rfl, rfl⟩
  split
  · exact ⟨rfl, rfl⟩
  · simp only [Outcome.quiet]
    split <;> exact ⟨rfl, rfl⟩

theorem startSession_workerCapabilities (env : Env) (c : Client) (origin : Int64)
    (modelId sourceUrl : Option CString) :
    (startSession env c origin modelId sourceUrl).client.workerCapabilities = c.workerCapabilities := by
  simp only [startSession]
  split
  · rfl
  split
  · rfl
  split
  · rfl
  split
  · rfl
  rw [Outcome.andThen]
  split
  · have hframe := sendFrame_workerCapabilities env
    split <;> simp [Outcome.quiet, dropTransport_workerCapabilities, hframe]
  · exact sendFrame_workerCapabilities _ _ _ _

/-- Every write succeeds and the worker confirms the source. -/
def goodEnv : Env := ⟨some (.zero _), fun _ => true, .started true⟩

theorem sendControlFrame_good (c : Client) (type : Control → Payload) (reason : UInt16)
    (hconn : c.connected = true) (hwf : ∀ p, (type p).WellFormed) (hsize : ∀ p, encodedSize (type p) = 18) :
    (sendControlFrame goodEnv c type reason).ok = true ∧
      (sendControlFrame goodEnv c type reason).client = { c with sequence := c.sequence + 1 } := by
  rw [sendControlFrame, if_neg (by simp [hconn])]
  exact sendFrame_sent goodEnv c _ 64 (hwf _) ((hsize _).le.trans (by decide)) rfl

theorem startSession_good {c : Client} {origin : Int64} {modelId sourceUrl : Option CString}
    (hconn : c.connected = true) (hmodel : tooLong maxModelIdBytes modelId = false)
    (hurl : tooLong maxSourceUrlBytes sourceUrl = false) :
    (startSession goodEnv c origin modelId sourceUrl).ok = true ∧
      (startSession goodEnv c origin modelId sourceUrl).client.connected = true ∧
      (startSession goodEnv c origin modelId sourceUrl).client.workerSourceActive = true := by
  have hframe (d : Client) := sendFrame_sent goodEnv d _ 2048
    (startMessage_wellFormed d origin modelId sourceUrl hurl)
    (encodedSize_start_le d origin modelId sourceUrl hurl) rfl
  simp only [startSession, hconn, hmodel, hurl, Bool.not_true, Bool.false_eq_true, if_false, goodEnv,
    Outcome.andThen] at hframe ⊢
  simp [hframe, Outcome.quiet]

theorem sendTranslateCtrl_good {c : Client} {enabled : Bool} {source target : Option CString} {mode : UInt8}
    (hconn : c.connected = true) (hcap : c.workerCapabilities &&& capabilityTranslation ≠ 0) :
    (sendTranslateCtrl goodEnv c enabled source target mode).ok = true := by
  have hframe := sendFrame_sent goodEnv c (.translateCtrl
    { sessionId := c.sessionId, enabled := if enabled then 1 else 0,
      sourceLang := .ofStr 16 (source.getD .auto).val, targetLang := .ofStr 16 (target.getD .en).val, mode }) 50
    ⟨ofStr_terminated _ (by decide), ofStr_terminated _ (by decide)⟩ (by simp [encodedSize]) rfl
  simp only [sendTranslateCtrl, hconn, hcap, Bool.not_true, Bool.false_eq_true, if_false, Outcome.andThen,
    hframe.1, if_true]
  rfl

theorem positionAccepted_without_seek (pts time : Int64) (flags : UInt32) :
    PositionAccepted pts time (flags &&& ~~~positionFlagSeek) ↔ PositionAccepted pts time flags := by
  have hmask : flags &&& ~~~positionFlagSeek &&& ~~~(positionFlagSeek ||| positionFlagPaused) =
      flags &&& ~~~(positionFlagSeek ||| positionFlagPaused) := by
    rw [UInt32.and_assoc]
    rfl
  rw [PositionAccepted, PositionAccepted, hmask]

theorem restartModelId_fits (c : Client) : tooLong maxModelIdBytes (restartModelId c) = false := by
  simp only [restartModelId]
  split
  · rfl
  · exact copied_fits _ (by decide)

/-- A restart's START is accepted exactly if there is a model to ask for and a language the worker takes. -/
theorem startAccepted_restart {c d : Client} (hlang : d.language = c.language)
    (hurl : c.activeSourceUrl.str ≠ []) :
    StartAccepted d (restartModelId c) (some (restartSourceUrl c)) ↔
      c.activeModelId.str ≠ [] ∧ LanguageAccepted (startLanguage c) false := by
  have hmodel := copied_val_eq_nil (n := maxModelIdBytes) c.activeModelId (by decide)
  have hval : (restartSourceUrl c).val ≠ [] :=
    (copied_val_eq_nil (n := maxSourceUrlBytes) c.activeSourceUrl (by decide)).not.mpr hurl
  have hfits : tooLong maxSourceUrlBytes (some (restartSourceUrl c)) = false := copied_fits _ (by decide)
  have hsome : (∃ m, restartModelId c = some m ∧ m.val ≠ []) ↔ c.activeModelId.str ≠ [] := by
    rw [← hmodel.ne]
    simp only [restartModelId]
    split
    · rename_i h
      simp [h]
    · rename_i h
      simp only [Option.some.injEq, exists_eq_left']
  rw [StartAccepted, restartModelId_fits, hfits, startLanguage_congr hlang, hsome]
  simp [hval]

theorem seekRestarts_url {c : Client} {flags : UInt32} (h : seekRestarts c flags = true) :
    c.activeSourceUrl.str ≠ [] := by
  simp only [seekRestarts, Bool.and_eq_true, decide_eq_true_eq] at h
  exact h.2

theorem restartSession_workerCapabilities (env : Env) (c : Client) (pts : Int64) :
    (restartSession env c pts).client.workerCapabilities = c.workerCapabilities := by
  rw [restartSession, Outcome.andThen]
  split
  · rw [startSession_workerCapabilities]
    exact (sendControlFrame_client _ _ _ _).1
  · exact (sendControlFrame_client _ _ _ _).1

theorem accepted_restartSession {c : Client} (env : Env) (pts : Int64) (hurl : c.activeSourceUrl.str ≠ [])
    (hmodel : c.activeModelId.str ≠ []) (hlang : LanguageAccepted (startLanguage c) false) :
    (restartSession env c pts).Accepted := by
  rw [restartSession, accepted_andThen]
  constructor
  · exact (accepted_sendControlFrame env c .stopSession _ (fun _ => trivial) (fun _ => rfl)).mpr fun _ _ => rfl
  · intro _
    rw [accepted_startSession]
    intro _ _ _
    exact (startAccepted_restart (sendControlFrame_client _ _ _ _).2 hurl).mpr ⟨hmodel, hlang⟩

theorem accepted_resendTranslateCtrl {c started : Client} (env : Env)
    (hcap : started.workerCapabilities = c.workerCapabilities)
    (h : c.translationConfigured = true →
      TranslateAccepted c (some (CString.copied 16 (.ofArray c.translateSourceLang)))
        (some (CString.copied 16 (.ofArray c.translateTargetLang))) c.translateMode) :
    (resendTranslateCtrl env c started).Accepted := by
  rw [resendTranslateCtrl]
  split
  · rename_i hconf
    simp only [Bool.and_eq_true] at hconf
    rw [accepted_sendTranslateCtrl]
    intro _ _
    have hold := h hconf.1
    rwa [TranslateAccepted, ← hcap] at hold
  · exact accepted_quiet _ _

theorem accepted_sendPosition {c : Client} {pts time : Int64} {rate : Binary32} {flags : UInt32}
    (h : ArgsAccepted c (.sendPosition pts time rate flags)) (env : Env) :
    (sendPosition env c pts time rate flags).Accepted := by
  rw [sendPosition]
  split
  · exact accepted_quiet _ _
  rename_i hact
  simp only [Bool.or_eq_true, Bool.not_eq_true', not_or, Bool.not_eq_false] at hact
  obtain ⟨hpos, hrestart⟩ := h hact.1 hact.2
  split
  · rename_i hseek
    obtain ⟨hmodel, hlang, htrans⟩ := hrestart hseek
    rw [accepted_andThen]
    refine ⟨accepted_restartSession env pts (seekRestarts_url hseek) hmodel hlang, fun _ => ?_⟩
    split
    · exact accepted_quiet _ _
    · rw [accepted_andThen]
      refine ⟨accepted_resendTranslateCtrl env (restartSession_workerCapabilities env c pts) htrans, fun _ => ?_⟩
      rw [accepted_sendPositionFrame, positionAccepted_without_seek]
      exact fun _ => hpos
  · rw [accepted_sendPositionFrame]
    exact fun _ => hpos

/-- With every write going through, each frame of a restart is written, so each condition is needed. -/
theorem restartSession_good {c : Client} (pts : Int64) (hconn : c.connected = true)
    (hurl : c.activeSourceUrl.str ≠ []) (h : (restartSession goodEnv c pts).Accepted) :
    (c.activeModelId.str ≠ [] ∧ LanguageAccepted (startLanguage c) false) ∧
      (restartSession goodEnv c pts).ok = true ∧ (restartSession goodEnv c pts).client.connected = true ∧
      (restartSession goodEnv c pts).client.workerSourceActive = true := by
  obtain ⟨hok, hclient⟩ := sendControlFrame_good c .stopSession ctrlReasonSeekDiscontinuity hconn (fun _ => trivial)
    (fun _ => rfl)
  have hfits : tooLong maxSourceUrlBytes (some (restartSourceUrl c)) = false := copied_fits _ (by decide)
  rw [restartSession, accepted_andThen] at h
  have hstart := h.2 hok
  rw [accepted_startSession, hclient] at hstart
  have hcond := (startAccepted_restart (c := c) rfl hurl).mp (hstart hconn rfl rfl)
  rw [restartSession, Outcome.andThen, if_pos hok, hclient]
  exact ⟨hcond, startSession_good hconn (restartModelId_fits c) hfits⟩

theorem resendTranslateCtrl_good {c started : Client} (hconn : started.connected = true)
    (hcap : started.workerCapabilities = c.workerCapabilities)
    (h : (resendTranslateCtrl goodEnv c started).Accepted) :
    (c.translationConfigured = true →
      TranslateAccepted c (some (CString.copied 16 (.ofArray c.translateSourceLang)))
        (some (CString.copied 16 (.ofArray c.translateTargetLang))) c.translateMode) ∧
      (resendTranslateCtrl goodEnv c started).ok = true := by
  rw [resendTranslateCtrl] at h ⊢
  split at h
  · rename_i hconf
    rw [if_pos hconf]
    simp only [Bool.and_eq_true, decide_eq_true_eq] at hconf
    rw [accepted_sendTranslateCtrl] at h
    refine ⟨fun _ => ?_, sendTranslateCtrl_good hconn hconf.2⟩
    have hnew := h hconn rfl
    rwa [TranslateAccepted, hcap] at hnew
  · rename_i hconf
    rw [if_neg hconf]
    refine ⟨fun hset => .inl ?_, rfl⟩
    simpa [hset, hcap] using hconf

theorem sendPosition_good {c : Client} {pts time : Int64} {rate : Binary32} {flags : UInt32}
    (h : (sendPosition goodEnv c pts time rate flags).Accepted) :
    ArgsAccepted c (.sendPosition pts time rate flags) := by
  intro hconn hact
  rw [sendPosition, if_neg (by simp [hconn, hact])] at h
  split at h
  · rename_i hseek
    rw [accepted_andThen] at h
    obtain ⟨⟨hmodel, hlang⟩, hok, hconn', hactive⟩ := restartSession_good pts hconn (seekRestarts_url hseek) h.1
    have hrest := h.2 hok
    rw [if_neg (by simp [hactive]), accepted_andThen] at hrest
    obtain ⟨htrans, hok'⟩ := resendTranslateCtrl_good hconn' (restartSession_workerCapabilities _ _ _) hrest.1
    have hpos := hrest.2 hok'
    rw [accepted_sendPositionFrame, positionAccepted_without_seek] at hpos
    exact ⟨hpos rfl, fun _ => ⟨hmodel, hlang, htrans⟩⟩
  · rename_i hseek
    rw [accepted_sendPositionFrame] at h
    exact ⟨h rfl, fun hs => absurd hs hseek⟩

/-! ## All calls -/

theorem accepted_of_argsAccepted {c : Client} {call : Call} (h : ArgsAccepted c call) (env : Env) :
    (call.run env c).Accepted := by
  cases call with
  | startSession origin modelId sourceUrl => exact (accepted_startSession _ _ _ _ _).mpr fun hc _ _ => h hc
  | sendPosition pts time rate flags => exact accepted_sendPosition h env
  | sendAudio chunk => exact (accepted_sendAudio _ _ _).mpr fun hc ha _ => h hc ha
  | sendTranslateCtrl enabled source target mode =>
    exact (accepted_sendTranslateCtrl _ _ _ _ _ _).mpr fun hc _ => h hc
  | sendModelCtrl action modelId => exact (accepted_sendModelCtrl _ _ _ _).mpr fun hc _ => h hc
  | pauseSession => exact accepted_pauseSession env c
  | resumeSession => exact accepted_resumeSession env c
  | stopSession reason => exact (accepted_stopSession _ _ _).mpr fun hc ha _ => h hc ha

theorem argsAccepted_of_good {c : Client} {call : Call} (h : (call.run goodEnv c).Accepted) :
    ArgsAccepted c call := by
  cases call with
  | startSession origin modelId sourceUrl => exact fun hc => (accepted_startSession _ _ _ _ _).mp h hc rfl rfl
  | sendPosition pts time rate flags => exact sendPosition_good h
  | sendAudio chunk => exact fun hc ha => (accepted_sendAudio _ _ _).mp h hc ha rfl
  | sendTranslateCtrl enabled source target mode =>
    exact fun hc => (accepted_sendTranslateCtrl _ _ _ _ _ _).mp h hc rfl
  | sendModelCtrl action modelId => exact fun hc => (accepted_sendModelCtrl _ _ _ _).mp h hc rfl
  | pauseSession => trivial
  | resumeSession => trivial
  | stopSession reason => exact fun hc ha => (accepted_stopSession _ _ _).mp h hc ha rfl

/-- **What the client writes is accepted** exactly for the calls that satisfy `ArgsAccepted`. -/
theorem written_accepted_iff (c : Client) (call : Call) :
    (∀ env, (call.run env c).Accepted) ↔ ArgsAccepted c call :=
  ⟨fun h => argsAccepted_of_good (h goodEnv), fun h env => accepted_of_argsAccepted h env⟩

/-- A connected client in an active live session. -/
def liveClient : Client where
  connected := true
  sessionId := .zero _
  sequence := 2
  sessionActive := true
  workerSourceActive := false
  workerCapabilities := capabilityPcmS16le16kMono ||| capabilitySourceMode ||| capabilityTranslation
  activeModelId := .ofStr _ [0x74, 0x69, 0x6E, 0x79]
  activeSourceUrl := .zero _
  language := .ofStr 16 [0x65, 0x6E]
  translationConfigured := false
  translateEnabled := false
  translateSourceLang := .zero _
  translateTargetLang := .zero _
  translateMode := 0

/-- "simplified-chinese", which does not fit the field. -/
def overlongLanguage : CString :=
  ⟨[0x73, 0x69, 0x6D, 0x70, 0x6C, 0x69, 0x66, 0x69, 0x65, 0x64, 0x2D, 0x63, 0x68, 0x69, 0x6E, 0x65, 0x73, 0x65],
    by decide⟩

/-- An overlong target language is cut to fifteen bytes and sent; the worker rejects it. -/
theorem not_forall_written_accepted : ¬ ∀ c call env, (Call.run env c call).Accepted := by
  intro h
  have hargs := argsAccepted_of_good (h liveClient (.sendTranslateCtrl true none (some overlongLanguage) 0) goodEnv)
  rcases hargs rfl with hcap | ⟨-, htarget, -⟩
  · exact absurd hcap (by decide)
  · exact absurd htarget (by decide)

end VlcWhisper.Plugin
