import VlcWhisper.Protocol.RoundTrip
import VlcWhisper.Worker.Translate
import VlcWhisper.Worker.TranslateAsync

/-!
# From a cue to the client

A cue leaves the worker with its source text alone or with what the translator made of it (`Way`), is encoded into
a CAPTION_SEGMENT payload, and is shown by the client if that decodes and validates (`Received`).

The builder sees to the order of the times, to the length and to a text that is not blank, the parsers to the length.
Nothing sees to the rest of what the validator asks of a text. Main result: `received_iff`.
-/

namespace VlcWhisper.Worker

open VlcWhisper.Lib VlcWhisper.Protocol SegmentBuilder

/-! ## The payload -/

/-- A string with its length in a 16-bit field. -/
def stringSlice (s : Bytes) : Slice UInt16 where
  length := .ofNat s.length
  data := some (s ++ [0])
  readable := by
    intro bs hbs
    obtain rfl : s ++ [0] = bs := by simpa using hbs
    have hle := Nat.mod_le s.length (2 ^ 16)
    change (UInt16.ofNat s.length).toNat ≤ _
    rw [UInt16.toNat_ofNat', List.length_append, List.length_singleton]
    omega

/-- The struct that `vw_worker_send_caption_segment` encodes. -/
def Caption.payload (c : Caption) : CaptionSegment where
  sessionId := c.sessionId
  segmentId := .ofNat c.cue.segmentId
  startPtsUs := .ofInt c.cue.startPtsUs
  endPtsUs := .ofInt c.cue.endPtsUs
  isFinal := 1
  text := stringSlice c.cue.text
  translatedText := (c.translatedText.map stringSlice).getD (.null 0)
  translationAttempted := c.translationAttempted
  translationLatencyUs := c.translationLatencyUs
  translationTier := c.translationTier

/-- The buffer of `vw_worker_send_caption_segment`. -/
def captionBufferBytes : Nat := 43 + maxTextBytes * 2 + 64

/-- The client's `vw_worker_client_receive_frame` returns the caption: its payload is encoded, decoded and valid. -/
def Received (c : Caption) : Prop :=
  ∃ buffer q, encodePayload (.captionSegment c.payload) captionBufferBytes = some buffer ∧
    decodePayload .captionSegment (some buffer) = some q ∧ validatePayload q = true

/-- What the validator asks of a text beyond its length. -/
def Renderable (t : Bytes) : Prop := isEmptyOrWhitespace t = false ∧ isValidUtf8 t = true ∧ noControl t = true

theorem toNat_length_stringSlice {s : Bytes} (h : s.length ≤ maxTextBytes) :
    (stringSlice s).length.toNat = s.length := by
  change (UInt16.ofNat s.length).toNat = _
  simp only [maxTextBytes] at h
  rw [UInt16.toNat_ofNat', Nat.mod_eq_of_lt (by omega)]

theorem bytes_stringSlice {s : Bytes} (h : s.length ≤ maxTextBytes) : (stringSlice s).bytes = s := by
  have hlen : WireWord.toNat (stringSlice s).length = s.length := toNat_length_stringSlice h
  rw [Slice.bytes, hlen]
  exact List.take_left' rfl

theorem not_dangling_stringSlice (s : Bytes) : ¬ (stringSlice s).Dangling := by
  rintro ⟨-, h⟩
  cases h

theorem validateText_stringSlice {s : Bytes} (h : s.length ≤ maxTextBytes) :
    validateText (stringSlice s) = true ↔ Renderable s := by
  rw [validateText_iff, bytes_stringSlice h, toNat_length_stringSlice h]
  exact ⟨fun hv => hv.2.2, fun hr => ⟨h, not_dangling_stringSlice s, hr⟩⟩

/-- A caption whose translation fields fit together, as the worker fills them in. -/
structure Caption.Coherent (c : Caption) : Prop where
  text : c.cue.text.length ≤ maxTextBytes
  translatedText : ∀ t, c.translatedText = some t → t ≠ [] ∧ t.length ≤ maxTextBytes ∧ c.translationAttempted = true ∧
    c.translationTier ≠ 0
  untranslated : c.translatedText = none → c.translationTier = 0
  unattempted : c.translationAttempted = false → c.translationLatencyUs = 0
  tier : c.translationTier ≤ 3

theorem Caption.Coherent.pos_translatedText {c : Caption} (h : c.Coherent) :
    0 < c.payload.translatedText.length ↔ c.translatedText.isSome = true := by
  rw [UInt16.lt_iff_toNat_lt]
  cases htrans : c.translatedText with
  | none => simp [payload, htrans, Slice.null]
  | some t =>
    obtain ⟨hne, hlen, -⟩ := h.translatedText t htrans
    have hpos := List.length_pos_iff.mpr hne
    simpa [payload, htrans, toNat_length_stringSlice hlen] using hpos

/-- A coherent caption is shown if its times are in order and its texts are renderable. -/
theorem Caption.Coherent.received {c : Caption} (h : c.Coherent) :
    Received c ↔ c.payload.startPtsUs < c.payload.endPtsUs ∧ Renderable c.cue.text ∧
      ∀ t, c.translatedText = some t → Renderable t := by
  have hwell : (Payload.captionSegment c.payload).WellFormed := by
    refine ⟨not_dangling_stringSlice _, ?_, ?_, ?_⟩
    · cases htrans : c.translatedText with
      | none => simp [payload, htrans, Slice.null, Slice.Dangling, WireWord.toNat]
      | some t => simpa [payload, htrans] using not_dangling_stringSlice t
    · intro hzero
      rw [h.pos_translatedText] at hzero
      simp only [Bool.not_eq_true, Option.isSome_eq_false_iff, Option.isNone_iff_eq_none] at hzero
      simp [payload, hzero, Slice.null]
    · intro hatt
      have hnone : c.translatedText = none := by
        by_contra hne
        obtain ⟨t, ht⟩ := Option.ne_none_iff_exists'.mp hne
        have := (h.translatedText t ht).2.2.1
        rw [show c.translationAttempted = false from hatt] at this
        cases this
      exact ⟨by simp [h.pos_translatedText, hnone], h.unattempted hatt, h.untranslated hnone⟩
  have hsize : encodedSize (.captionSegment c.payload) ≤ captionBufferBytes := by
    have htext : c.payload.text.length.toNat ≤ maxTextBytes := by
      rw [show c.payload.text.length.toNat = _ from toNat_length_stringSlice h.text]
      exact h.text
    have htrans : c.payload.translatedText.length.toNat ≤ maxTextBytes := by
      cases hc : c.translatedText with
      | none => simp [payload, hc, Slice.null]
      | some t =>
        have hlen := (h.translatedText t hc).2.1
        simpa [payload, hc, toNat_length_stringSlice hlen] using hlen
    simp only [encodedSize, captionBufferBytes, maxTextBytes] at htext htrans ⊢
    split <;> omega
  obtain ⟨buffer, q, henc, -, hdec, -, hvalid⟩ := encodePayload_of_wellFormed hwell hsize
  have hreceived : Received c ↔ validateCaptionSegment c.payload = true := by
    constructor
    · rintro ⟨buffer', q', henc', hdec', hvalid'⟩
      obtain rfl : buffer = buffer' := Option.some.inj (henc.symm.trans henc')
      obtain rfl : q = q' := Option.some.inj (hdec.symm.trans hdec')
      exact hvalid.symm.trans hvalid'
    · intro hv
      exact ⟨buffer, q, henc, hdec, hvalid.trans hv⟩
  rw [hreceived, validateCaptionSegment_iff]
  have htext : validateText c.payload.text = true ↔ Renderable c.cue.text := validateText_stringSlice h.text
  rw [htext]
  cases htrans : c.translatedText with
  | none =>
    have hpos : ¬ 0 < c.payload.translatedText.length := by simp [h.pos_translatedText, htrans]
    have hdata : c.payload.translatedText.data = none := by simp [payload, htrans, Slice.null]
    have htier : c.payload.translationTier = 0 := h.untranslated htrans
    have hlat : c.payload.translationAttempted = false → c.payload.translationLatencyUs = 0 := h.unattempted
    rw [if_neg hpos]
    constructor
    · rintro ⟨htimes, hrender, -⟩
      exact ⟨htimes, hrender, by simp⟩
    · rintro ⟨htimes, hrender, -⟩
      exact ⟨htimes, hrender, ⟨hdata, htier⟩, hlat, by rw [htier]; decide⟩
  | some t =>
    obtain ⟨-, hlen, hatt, htier⟩ := h.translatedText t htrans
    have hpos : 0 < c.payload.translatedText.length := by simp [h.pos_translatedText, htrans]
    have hslice : c.payload.translatedText = stringSlice t := by simp [payload, htrans]
    have hatt' : c.payload.translationAttempted = true := hatt
    have htier' : c.payload.translationTier ≠ 0 := htier
    have hmax : c.payload.translationTier ≤ 3 := h.tier
    rw [if_pos hpos, hslice, validateText_stringSlice hlen]
    simp [hatt', htier', hmax]

/-! ## Ways out of the worker -/

/-- A translation whose text, if there is one, was accepted by the parser of its tier. -/
structure ParsedOutcome where
  outcome : Outcome
  parsed : outcome.success = true → ∃ tier : Tier, ∃ raw, outcome.tier = tier.code ∧
    tier.parse (maxTextBytes + 1) raw = some outcome.translatedText

/-- How a popped cue gets to the wire. -/
inductive Way where
  /-- Translation is off, or the translator refused the cue. -/
  | sourceOnly (attempted : Bool)
  /-- A thread completed the cue's job, which the translator accepted in this state. -/
  | completed (s : TranslateAsync) (sourceLang targetLang : Bytes) (o : ParsedOutcome)
  /-- The cue's job made room for a newer one. -/
  | evicted (s : TranslateAsync) (sourceLang targetLang : Bytes)

/-- A popped cue with the session's id, before it goes either way. -/
def popped (sessionId : SessionId) (cue : Cue) : Caption := ⟨sessionId, cue, none, false, 0, tierNone⟩

def Way.caption (base : Caption) : Way → Caption
  | .sourceOnly attempted => { base with translationAttempted := attempted }
  | .completed s sourceLang targetLang o =>
    (bindResultText (translateJob (s.newJob base sourceLang targetLang) o.outcome)).segment
  | .evicted s sourceLang targetLang => (bindResultText (evictJob (s.newJob base sourceLang targetLang))).segment

/-- The translation that is bound to the cue. -/
def Way.translatedText : Way → Option Bytes
  | .completed s _ _ o =>
    if s.activeTranslationCount < activeBudget ∧ o.outcome.success = true then some o.outcome.translatedText else none
  | _ => none

theorem Way.caption_cue (w : Way) (sessionId : SessionId) (cue : Cue) :
    (w.caption (popped sessionId cue)).cue = cue := by
  cases w with
  | sourceOnly attempted => rfl
  | completed s sourceLang targetLang o =>
    have h := bindResultText_origin (translateJob (s.newJob (popped sessionId cue) sourceLang targetLang) o.outcome)
    rw [translateJob_origin] at h
    exact congrArg Prod.snd h
  | evicted s sourceLang targetLang =>
    have h := bindResultText_origin (evictJob (s.newJob (popped sessionId cue) sourceLang targetLang))
    exact congrArg Prod.snd h

theorem Tier.code_ne_zero (t : Tier) : t.code ≠ 0 := by cases t <;> decide

theorem Tier.code_le (t : Tier) : t.code ≤ 3 := by cases t <;> decide

theorem Way.coherent (w : Way) (sessionId : SessionId) (cue : Cue) (h : cue.text.length ≤ maxTextBytes) :
    (w.caption (popped sessionId cue)).Coherent ∧
      (w.caption (popped sessionId cue)).translatedText = w.translatedText := by
  have htext : (w.caption (popped sessionId cue)).cue.text.length ≤ maxTextBytes := by rwa [w.caption_cue]
  cases w with
  | sourceOnly attempted => exact ⟨⟨htext, by simp [caption, popped], by simp [caption, popped, tierNone],
      by simp [caption, popped], by simp [caption, popped, tierNone]⟩, rfl⟩
  | evicted s sourceLang targetLang =>
    refine ⟨⟨htext, ?_, ?_, ?_, ?_⟩, ?_⟩ <;> simp [caption, bindResultText, evictJob, translatedText, tierNone]
  | completed s sourceLang targetLang o =>
    by_cases hactive : s.activeTranslationCount < activeBudget
    · have hskip : ¬ activeBudget ≤ s.activeTranslationCount := not_le.mpr hactive
      cases hsuccess : o.outcome.success with
      | false =>
        refine ⟨⟨htext, ?_, ?_, ?_, ?_⟩, ?_⟩ <;>
          simp [caption, bindResultText, translateJob, TranslateAsync.newJob, hskip, hsuccess, translatedText,
            tierNone]
      | true =>
        obtain ⟨tier, raw, htier, hparse⟩ := o.parsed hsuccess
        obtain ⟨hne, hlen⟩ := Tier.parse_bounds hparse
        have hcaption : (caption (popped sessionId cue) (.completed s sourceLang targetLang o)) =
            { popped sessionId cue with translatedText := some o.outcome.translatedText, translationAttempted := true
                                        translationLatencyUs := o.outcome.latencyUs, translationTier := tier.code } := by
          simp [caption, bindResultText, translateJob, TranslateAsync.newJob, hskip, hsuccess, hne, htier, popped]
        rw [hcaption] at htext ⊢
        refine ⟨⟨htext, ?_, by simp, by simp, tier.code_le⟩, by simp [translatedText, hactive, hsuccess]⟩
        intro t ht
        obtain rfl := Option.some.inj ht
        exact ⟨hne, by omega, rfl, tier.code_ne_zero⟩
    · refine ⟨⟨htext, ?_, ?_, ?_, ?_⟩, ?_⟩ <;>
        simp [caption, bindResultText, translateJob, TranslateAsync.newJob, not_lt.mp hactive, translatedText, hactive,
          tierNone]

/-! ## Accepted cues -/

theorem isEmptyOrWhitespace_eq_false {s : Bytes} {c : UInt8} (hc : c ∈ s) (hblank : isWhitespace c = false) :
    isEmptyOrWhitespace s = false := by
  rw [isEmptyOrWhitespace, List.all_eq_false]
  exact ⟨c, hc, by simp [hblank]⟩

theorem not_blank_trimText {s : Bytes} (h : trimText s ≠ []) : isEmptyOrWhitespace (trimText s) = false := by
  have hlast := List.rdropWhile_last_not isWhitespace (s.dropWhile isWhitespace) h
  exact isEmptyOrWhitespace_eq_false (List.getLast_mem h) (by simpa [trimText] using hlast)

theorem not_blank_remainder {text : Bytes} {e : HistoryEntry} (h : remainder text e ≠ []) :
    isEmptyOrWhitespace (remainder text e) = false := by
  have hhead := List.head_dropWhile_not isWhitespace h
  exact isEmptyOrWhitespace_eq_false (List.head_mem h) (by simpa [remainder] using hhead)

theorem length_remainder_le (text : Bytes) (e : HistoryEntry) : (remainder text e).length ≤ text.length := by
  have h1 := (List.dropWhile_suffix (l := text.drop (tailPrefixLen e.text text)) isWhitespace).length_le
  have h2 : (text.drop (tailPrefixLen e.text text)).length ≤ text.length := by simp
  exact h1.trans h2

/-- A cue that is trimmed starts no earlier than the tolerance before its hypothesis. -/
theorem start_le_of_trims {text : Bytes} {start stop : Int} {e : HistoryEntry} (h : Trims text start stop e) :
    start - dedupToleranceUs ≤ e.endPtsUs := by
  have hnear := h.near
  simp only [nearCue, Bool.or_eq_true, Bool.and_eq_true, decide_eq_true_eq] at hnear
  simp only [dedupToleranceUs] at hnear ⊢
  omega

/-- What every accepted cue satisfies. -/
theorem emitted_bounds {mem : Site → Alloc} {b : SegmentBuilder} {text out : Bytes} {start stop s : Int}
    (hcand : isCandidate b text start stop = true) (hacc : Accepts mem b (trimText text) start stop out s) :
    out.length ≤ maxTextBytes ∧ isEmptyOrWhitespace out = false ∧ -dedupToleranceUs ≤ s := by
  simp only [isCandidate, Bool.and_eq_true, decide_eq_true_eq, bne_iff_ne] at hcand
  obtain ⟨⟨⟨⟨⟨hstart, -⟩, hne⟩, hlen⟩, -⟩, -⟩ := hcand
  simp only [builderMaxTextBytes] at hlen
  cases hacc with
  | whole _ _ =>
    refine ⟨by simp only [maxTextBytes]; omega, not_blank_trimText hne, ?_⟩
    rw [emitStart]
    simp only [dedupToleranceUs]
    split <;> omega
  | pending last _ htrims =>
    have h1 := length_remainder_le (trimText text) last.entry
    have h2 := start_le_of_trims htrims.2.1
    exact ⟨by simp only [maxTextBytes]; omega, not_blank_remainder htrims.2.1.rest,
      by simp only [dedupToleranceUs, Cue.entry] at h2 ⊢; omega⟩
  | history newer e older htrims =>
    have h1 := length_remainder_le (trimText text) e
    have h2 := start_le_of_trims htrims.trims.2.1
    exact ⟨by simp only [maxTextBytes]; omega, not_blank_remainder htrims.trims.2.1.rest,
      by simp only [dedupToleranceUs] at h2 ⊢; omega⟩

/-- The part of the hypothesis that is not a repetition is UTF-8 without control characters. -/
def SourceRenderable (mem : Site → Alloc) (b : SegmentBuilder) (text : Bytes) (start stop : Int64) : Prop :=
  ∀ out s, Accepts mem b (trimText text) start.toInt stop.toInt out s →
    isValidUtf8 out = true ∧ noControl out = true

/-- **Every emitted cue reaches the client**, on whichever way, exactly if the part of its hypothesis that is shown is
UTF-8 without control characters and its translation, if there is one, is so too and is not blank. -/
theorem received_iff {mem : Site → Alloc} {b b' : SegmentBuilder} {text : Bytes} {start stop : Int64} {cue : Cue}
    (hpush : pushHypothesis mem b text start.toInt stop.toInt = (b', true)) (hlast : b'.lastSegment = some cue)
    (sessionId : SessionId) (w : Way) :
    Received (w.caption (popped sessionId cue)) ↔
      SourceRenderable mem b text start stop ∧ ∀ t, w.translatedText = some t → Renderable t := by
  rcases pushHypothesis_cases hpush with ⟨hfalse, -⟩ | ⟨-, hcand, out, s, hlt, hacc, hemit⟩
  · cases hfalse
  have hcue : cue = ⟨b.nextSegmentId, s, stop.toInt, out⟩ := by
    rw [SegmentBuilder.lastSegment, Ring.newestFirst_eq, hemit.queue] at hlast
    simpa using hlast.symm
  obtain ⟨hlen, hblank, hstart⟩ := emitted_bounds hcand hacc
  have hsource : SourceRenderable mem b text start stop ↔ Renderable cue.text := by
    constructor
    · intro h
      obtain ⟨hutf8, hctrl⟩ := h out s hacc
      rw [hcue]
      exact ⟨hblank, hutf8, hctrl⟩
    · rintro ⟨-, hutf8, hctrl⟩ out' s' hacc'
      have hqueue := (emitted_of_accepts hpush hacc').queue
      rw [hemit.queue, List.append_cancel_left_eq] at hqueue
      obtain rfl : out = out' := by simpa using congrArg (List.map Cue.text) hqueue
      rw [hcue] at hutf8 hctrl
      exact ⟨hutf8, hctrl⟩
  obtain ⟨hcoherent, htrans⟩ := w.coherent sessionId cue (by rw [hcue]; exact hlen)
  have htimes : (w.caption (popped sessionId cue)).payload.startPtsUs <
      (w.caption (popped sessionId cue)).payload.endPtsUs := by
    simp only [Caption.payload, w.caption_cue]
    rw [hcue, Int64.lt_iff_toInt_lt, Int64.ofInt_toInt, Int64.toInt_ofInt_of_le]
    · exact hlt
    · simp only [dedupToleranceUs] at hstart
      dsimp only
      omega
    · have := stop.toInt_lt
      dsimp only
      omega
  rw [hcoherent.received, hsource, w.caption_cue, htrans]
  exact ⟨fun h => h.2, fun h => ⟨htimes, h⟩⟩

theorem received_iff_hello :
    Received ((Way.sourceOnly false).caption (popped (.zero _) ⟨1, 0, 1000000, ascii "hello there"⟩)) ↔
      SourceRenderable plenty create (ascii " hello there ") 0 1000000 ∧
        ∀ t, (Way.sourceOnly false).translatedText = some t → Renderable t :=
  have hpush : pushHypothesis plenty create (ascii " hello there ") (0 : Int64).toInt (1000000 : Int64).toInt =
      ((pushHypothesis plenty create (ascii " hello there ") 0 1000000).1, true) := Prod.ext rfl (by decide +kernel)
  received_iff hpush (by decide +kernel) _ _

/-- A tab is a control character to the validator, and no blank to trim in the middle of a text. -/
theorem not_forall_received : ¬ ∀ (mem : Site → Alloc) (b b' : SegmentBuilder) (text : Bytes) (start stop : Int64)
    (cue : Cue), (0 : UInt8) ∉ text → pushHypothesis mem b text start.toInt stop.toInt = (b', true) →
      b'.lastSegment = some cue → ∀ (sessionId : SessionId) (w : Way), Received (w.caption (popped sessionId cue)) := by
  intro h
  have hreceived := h plenty create (pushHypothesis plenty create (ascii "a\tb") 0 1000000).1 (ascii "a\tb") 0 1000000
    ⟨1, 0, 1000000, ascii "a\tb"⟩ (by decide) (Prod.ext rfl (by decide +kernel)) (by decide +kernel) (.zero _)
    (.sourceOnly false)
  have hcoherent := (Way.sourceOnly false).coherent (.zero _) ⟨1, 0, 1000000, ascii "a\tb"⟩ (by decide)
  have hrenderable := (hcoherent.1.received.mp hreceived).2.1
  exact absurd hrenderable.2.2 (by decide)

end VlcWhisper.Worker
