import VlcWhisper.Worker.Attribution
import VlcWhisper.Worker.TranslateText

/-!
# Blame lines

A translation that failed is reported in an ERROR frame right before the cue goes out in its source language. `Told` says
of an event of the wire what the events before it ask of it: a blame line is answered by its cue, and a cue without a
translation answers a blame line.

The translator's part in it: what it holds has a text or says why it has none (`TranslateAsync.Blamable`), whatever the
services answer, so a result without a text has a line (`TranslateResult.Deliverable`).
-/

namespace VlcWhisper.Worker

open VlcWhisper.Lib VlcWhisper.Protocol SegmentBuilder Relation

/-! ## Events of the wire -/

def translationCodes : List UInt32 :=
  [eTranslationProvider, eTranslationTransport, eTranslationParse, eTranslationDeadline, eTranslationLocal]

/-- A translation ERROR. -/
def isBlame : Payload → Bool
  | .error e => translationCodes.contains e.errorCode
  | _ => false

def Event.isBlame : Event → Bool
  | .frame _ p => Worker.isBlame p
  | _ => false

/-- It was written, or it could not be. -/
def Event.isWire : Event → Bool
  | .frame _ _ => true
  | .caption _ _ => true
  | .lost _ => true
  | _ => false

def wire (trace : List Event) : List Event := trace.filter Event.isWire

/-- How the blame line of a cue begins. -/
def blameHead (cue : Cue) : Bytes := ascii "segment=" ++ digits 10 1 (UInt64.ofNat cue.segmentId).toNat ++ ascii " cause="

/-- The ERROR is recoverable, of the caption's session, and names its cue. -/
structure Blames (e : Error) (c : Caption) : Prop where
  recoverable : e.recoverable = 1
  session : e.sessionId = c.sessionId
  names : blameHead c.cue <+: e.message.bytes

/-- The event is the cue that the ERROR names, in its source language, or it could not be written. -/
def Answers (failed : Prop) (e : Error) : Event → Prop
  | .caption _ c => Blames e c ∧ c.translatedText = none ∧ c.translationAttempted = true
  | .lost c => Blames e c ∧ failed
  | _ => False

/-- The last event is a blame line. -/
def EndsInBlame (before : List Event) (e : Error) : Prop :=
  isBlame (.error e) = true ∧ ∃ sequence, before.getLast? = some (.frame sequence (.error e))

/-- An event after those before it; `plain` are the cues that need no translation, and `failed` says that a write failed.
A worker without a translator blames nothing. -/
structure Told (translator : Bool) (plain : Cue → Prop) (failed : Prop) (before : List Event) (x : Event) : Prop where
  answers : ∀ e, EndsInBlame before e → Answers failed e x
  blamed : translator = true → ∀ sequence c, x = .caption sequence c → c.translatedText = none →
    plain c.cue ∨ ∃ e, EndsInBlame before e
  degraded : translator = false → x.isBlame = false ∧ ∀ sequence c, x = .caption sequence c → c.translatedText = none

theorem Told.mono {translator : Bool} {plain plain' : Cue → Prop} {failed failed' : Prop} {before : List Event} {x : Event}
    (h : Told translator plain failed before x) (hplain : ∀ cue, plain cue → plain' cue) (hfailed : failed → failed') :
    Told translator plain' failed' before x where
  answers := by
    intro e he
    have hx := h.answers e he
    cases x with
    | caption sequence c => exact hx
    | lost c => exact ⟨hx.1, hfailed hx.2⟩
    | _ => exact hx
  blamed := fun htranslator sequence c hc hnone => (h.blamed htranslator sequence c hc hnone).imp (hplain _) id
  degraded := h.degraded

/-! ## The line -/

theorem length_digits_le {base width n k : Nat} (hbase : 1 < base) (hwidth : width ≤ k) (hk : 0 < k) (hn : n < base ^ k) :
    (digits base width n).length ≤ k := by
  have hlen : (Nat.toDigits base n).length ≤ k := (Nat.length_toDigits_le_iff hbase hk).mpr hn
  unfold digits
  rw [List.length_append, List.length_replicate, List.length_map]
  omega

theorem length_causeName_le (cause : UInt8) : (causeName cause).length ≤ 9 := by
  unfold causeName
  repeat' split
  all_goals decide

theorem length_tierName_le (tier : UInt8) : (tierName tier).length ≤ 6 := by
  unfold tierName
  repeat' split
  all_goals decide

theorem translationErrorCode_mem (cause : UInt8) : translationCodes.contains (translationErrorCode cause) = true := by
  unfold translationErrorCode
  repeat' split
  all_goals decide

theorem length_blameHead_le (cue : Cue) : (blameHead cue).length ≤ 35 := by
  have hlt := (UInt64.ofNat cue.segmentId).toNat_lt
  have hid : (digits 10 1 (UInt64.ofNat cue.segmentId).toNat).length ≤ 20 :=
    length_digits_le (by omega) (by omega) (by omega) (by omega)
  have hparts : (ascii "segment=").length = 8 ∧ (ascii " cause=").length = 7 := by decide
  unfold blameHead
  rw [List.length_append, List.length_append, hparts.1, hparts.2]
  omega

/-- What follows the cause in a blame line. -/
def blameTail (r : TranslateResult) : Bytes :=
  let latencyUs := r.segment.translationLatencyUs.toNat
  let status := if r.failure.providerStatus = 0 then [] else ascii " status=" ++ digits 10 1 r.failure.providerStatus.toNat
  causeName r.failure.cause ++ ascii " tier=" ++ tierName r.failure.terminalTier ++ ascii " attempts=0x" ++
    digits 16 2 r.failure.attemptedTiers.toNat ++ status ++ ascii " latency_ms=" ++ digits 10 1 (latencyUs / 1000) ++
    ascii "." ++ digits 10 3 (latencyUs % 1000)

theorem length_blameTail_le (r : TranslateResult) : (blameTail r).length ≤ 75 := by
  have hname := length_causeName_le r.failure.cause
  have htier := length_tierName_le r.failure.terminalTier
  have htiers := r.failure.attemptedTiers.toNat_lt
  have hmask : (digits 16 2 r.failure.attemptedTiers.toNat).length ≤ 2 :=
    length_digits_le (by omega) (by omega) (by omega) (by omega)
  have hprovider := r.failure.providerStatus.toNat_lt
  have hstatus : (digits 10 1 r.failure.providerStatus.toNat).length ≤ 5 :=
    length_digits_le (by omega) (by omega) (by omega) (by omega)
  have hlatency := r.segment.translationLatencyUs.toNat_lt
  have hms : (digits 10 1 (r.segment.translationLatencyUs.toNat / 1000)).length ≤ 7 :=
    length_digits_le (by omega) (by omega) (by omega) (by omega)
  have hus : (digits 10 3 (r.segment.translationLatencyUs.toNat % 1000)).length ≤ 3 :=
    length_digits_le (by omega) (by omega) (by omega) (by omega)
  have hwords : (ascii " tier=").length = 6 ∧ (ascii " attempts=0x").length = 12 ∧ (ascii " status=").length = 8 ∧
      (ascii " latency_ms=").length = 12 ∧ (ascii ".").length = 1 := by decide
  obtain ⟨h1, h2, h3, h4, h5⟩ := hwords
  unfold blameTail
  dsimp only
  split
  · simp only [List.length_append, List.length_nil, h1, h2, h4, h5]
    omega
  · simp only [List.length_append, h1, h2, h3, h4, h5]
    omega

theorem diagBuild_eq (r : TranslateResult) :
    diagBuild r = if r.success || !r.attempted || r.failure.cause = failureNone then none
      else some (translationErrorCode r.failure.cause, blameHead r.segment.cue ++ blameTail r) := by
  have hhead := length_blameHead_le r.segment.cue
  have htail := length_blameTail_le r
  have hfits : (blameHead r.segment.cue ++ blameTail r).length < maxErrorMsgBytes := by
    rw [List.length_append]
    unfold maxErrorMsgBytes
    omega
  unfold diagBuild
  split
  · rfl
  · simp only [blameHead, blameTail, List.append_assoc] at hfits ⊢
    rw [if_pos hfits]

theorem blames_of_diagBuild {r : TranslateResult} {code : UInt32} {detail : Bytes} (h : diagBuild r = some (code, detail))
    {c : Caption} (hcue : c.cue = r.segment.cue) :
    isBlame (.error ⟨c.sessionId, code, 1, .ofStr maxErrorMsgBytes detail⟩) = true ∧
      Blames ⟨c.sessionId, code, 1, .ofStr maxErrorMsgBytes detail⟩ c := by
  rw [diagBuild_eq] at h
  split at h
  · cases h
  · obtain ⟨rfl, rfl⟩ := Prod.mk.inj (Option.some.inj h)
    refine ⟨translationErrorCode_mem _, rfl, rfl, ?_⟩
    have hhead := length_blameHead_le r.segment.cue
    have htail := length_blameTail_le r
    unfold CArray.ofStr
    rw [List.take_of_length_le (by rw [List.length_append]; unfold maxErrorMsgBytes; omega), hcue]
    dsimp only
    rw [CArray.bytes_pad_of_le (by rw [List.length_append]; unfold maxErrorMsgBytes; omega), List.append_assoc]
    exact List.prefix_append _ _

/-! ## What the translator holds -/

/-- The result has a text, or a cause. -/
structure TranslateResult.Blamable (r : TranslateResult) : Prop where
  attempted : r.attempted = true
  translated : r.success = true → r.translatedText ≠ []
  failed : r.success = false → r.failure.cause ≠ failureNone

theorem TranslateResult.Blamable.bind {r : TranslateResult} (h : r.Blamable) : (bindResultText r).Blamable :=
  ⟨h.attempted, h.translated, h.failed⟩

/-- A result as it is delivered: without a text it is blamed. -/
structure TranslateResult.Deliverable (r : TranslateResult) : Prop where
  unblamed : diagBuild r = none → r.segment.translatedText ≠ none
  blamed : diagBuild r ≠ none → r.segment.translatedText = none ∧ r.segment.translationAttempted = true

theorem TranslateResult.Blamable.deliverable {r : TranslateResult} (h : r.Blamable) : (bindResultText r).Deliverable := by
  have hline := diagBuild_eq (bindResultText r)
  have hsuccess : (bindResultText r).success = r.success := rfl
  have hattempted : (bindResultText r).attempted = true := h.attempted
  have hfailure : (bindResultText r).failure = r.failure := rfl
  rw [hsuccess, hattempted, hfailure] at hline
  cases hs : r.success with
  | true =>
    rw [hs] at hline
    have htext := h.translated hs
    refine ⟨fun _ => ?_, fun hsome => (hsome hline).elim⟩
    unfold bindResultText
    simp [hs, htext]
  | false =>
    rw [hs, if_neg (by simpa using h.failed hs)] at hline
    refine ⟨fun hnone => ?_, fun _ => ?_⟩
    · rw [hline] at hnone
      cases hnone
    · unfold bindResultText
      simp [hs, h.attempted]

theorem blamable_translateJob (j : Job) {o : Outcome} (ho : o.Explained) : (translateJob j o).Blamable := by
  unfold translateJob
  split
  · exact ⟨rfl, nofun, fun _ => show failureLocal ≠ failureNone by decide⟩
  · exact ⟨rfl, ho.translated, ho.failed⟩

theorem blamable_evictJob (j : Job) : (evictJob j).Blamable :=
  ⟨rfl, nofun, fun _ => show failureLocal ≠ failureNone by decide⟩

/-- A translation that the parsers and the services gave. -/
def ThreadStep.Explained : ThreadStep → Prop
  | .take => True
  | .complete _ o => o.Explained

/-- The translations are what `vw_translate_text_detailed` gives. -/
def Env.Translates (env : Env) : Prop :=
  ∀ n i o, .complete i o ∈ env.threads n → ∃ (s : Services) (text : Bytes) (m : Nat),
    text ≠ [] ∧ o = ((translateTextDetailed s text).run m).1

theorem Env.Translates.explained {env : Env} (h : env.Translates) {n : Nat} {s : ThreadStep} (hs : s ∈ env.threads n) :
    s.Explained := by
  cases s with
  | take => exact trivial
  | complete i o =>
    obtain ⟨services, text, m, htext, rfl⟩ := h n i o hs
    exact translateTextDetailed_explained services htext m

namespace TranslateAsync

structure Blamable (t : TranslateAsync) : Prop where
  results : ∀ c ∈ t.results.toList, c.result.Blamable
  texts : t.All fun o => o.2.text.length ≤ maxTextBytes

theorem blamable_create : create.Blamable := ⟨by simp [create], all_create⟩

theorem blamable_pushResult {t : TranslateAsync} (h : ∀ c ∈ t.results.toList, c.result.Blamable) (ordinal : Nat)
    {r : TranslateResult} (hr : r.Blamable) : ∀ c ∈ (t.pushResult ordinal r).results.toList, c.result.Blamable := by
  unfold pushResult
  split
  · intro c hc
    rw [Ring.toList_push] at hc
    rcases List.mem_append.mp hc with hc | hc
    · exact h c hc
    · rw [List.mem_singleton.mp hc]
      exact hr
  · exact h

theorem Blamable.take {t : TranslateAsync} (h : t.Blamable) : t.take.Blamable := by
  refine ⟨?_, all_take h.texts⟩
  unfold TranslateAsync.take
  split
  · split
    · exact h.results
    · exact h.results
  · exact h.results

theorem Blamable.complete {t : TranslateAsync} (h : t.Blamable) (i : Nat) {o : Outcome} (ho : o.Explained) :
    (t.complete i o).Blamable := by
  refine ⟨?_, all_complete h.texts i o⟩
  unfold TranslateAsync.complete
  split
  · exact h.results
  rename_i j _
  have hpush {u : TranslateAsync} (hu : u.results = t.results) :
      ∀ c ∈ (u.pushResult j.ordinal (bindResultText (translateJob j o))).results.toList, c.result.Blamable :=
    blamable_pushResult (by rw [hu]; exact h.results) _ (blamable_translateJob j ho).bind
  dsimp only
  split
  · split
    · exact hpush rfl
    · exact h.results
  · split
    · exact hpush rfl
    · exact h.results

theorem Blamable.threadStep {t : TranslateAsync} (h : t.Blamable) {s : ThreadStep} (hs : s.Explained) :
    (t.threadStep s).Blamable := by
  cases s with
  | take => exact h.take
  | complete i o => exact h.complete i hs

theorem Blamable.threads {t : TranslateAsync} (h : t.Blamable) {steps : List ThreadStep} (hsteps : ∀ s ∈ steps, s.Explained) :
    (steps.foldl TranslateAsync.threadStep t).Blamable := by
  induction steps generalizing t with
  | nil => exact h
  | cons s steps ih =>
    exact ih (h.threadStep (hsteps s List.mem_cons_self)) fun x hx => hsteps x (List.mem_cons_of_mem s hx)

theorem Blamable.invalidate {t : TranslateAsync} (h : t.Blamable) : t.invalidate.Blamable :=
  ⟨by simp [TranslateAsync.invalidate], all_invalidate h.texts⟩

theorem blamable_evictOldest {t : TranslateAsync} (h : ∀ c ∈ t.results.toList, c.result.Blamable) :
    ∀ c ∈ t.evictOldest.results.toList, c.result.Blamable := by
  unfold evictOldest
  split
  · exact h
  split
  · exact h
  · rename_i j jobs _
    dsimp only
    refine blamable_pushResult ?_ _ (blamable_evictJob j).bind
    exact h

theorem Blamable.submit {t : TranslateAsync} (h : t.Blamable) {c : Caption} (hc : c.cue.text.length ≤ maxTextBytes)
    (sourceLang targetLang : Bytes) : (t.submit c sourceLang targetLang).1.Blamable := by
  refine ⟨?_, all_submit h.texts hc sourceLang targetLang⟩
  unfold TranslateAsync.submit
  split
  · exact h.results
  split
  · exact h.results
  split
  · exact h.results
  · exact blamable_evictOldest h.results

theorem Blamable.removeResult {t : TranslateAsync} (h : t.Blamable) (i : Fin t.results.count) :
    ∀ c ∈ (t.removeResult i).results.toList, c.result.Blamable := by
  intro c hc
  rw [TranslateAsync.removeResult, Ring.toList_removeAt] at hc
  exact h.results c (List.mem_of_mem_eraseIdx hc)

theorem Blamable.tryDeliver {t : TranslateAsync} (h : t.Blamable) :
    t.tryDeliver.1.Blamable ∧ ∀ r, t.tryDeliver.2 = some r → r.Deliverable ∧ r.segment.cue.text.length ≤ maxTextBytes := by
  obtain ⟨hall, htext⟩ := all_tryDeliver h.texts
  refine ⟨⟨?_, hall⟩, fun r hr => ⟨?_, htext r hr⟩⟩
  · unfold TranslateAsync.tryDeliver
    split
    · exact h.results
    split
    · exact h.removeResult _
    · exact h.removeResult _
  · unfold TranslateAsync.tryDeliver at hr
    split at hr
    · cases hr
    rename_i i _
    split at hr
    · cases hr
    · obtain rfl := Option.some.inj hr
      have hmem : t.results.get i ∈ t.results.toList :=
        List.mem_map_of_mem (f := t.results.get) (List.mem_range.mpr i.isLt)
      exact (h.results _ hmem).deliverable

end TranslateAsync

end VlcWhisper.Worker
