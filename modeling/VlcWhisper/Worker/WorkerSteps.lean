import VlcWhisper.Worker.TranslateOrder
import VlcWhisper.Worker.WorkerLoop

/-!
# What the main loop can do to captions

`Core` is the part of the worker's state that audio, cues and captions live in: the session, the buffered audio, the
builder, the translator, the source decoder, and the history. `Core.Step` lists everything that can happen to it. Here
are the steps of sending, delivering and emitting; those of a whole round follow from them, so that what a step
preserves holds in every run.
-/

namespace VlcWhisper.Worker

open VlcWhisper.Lib VlcWhisper.Protocol SegmentBuilder Relation

/-! ## The core and its steps -/

structure Core where
  sessionId : SessionId
  sessionActive : Bool
  translateEnabled : Bool
  buffer : List SessionId
  builder : SegmentBuilder
  translator : Option TranslateAsync
  decoder : Option SessionId
  trace : List Event

def WorkerState.core (w : WorkerState) : Core where
  sessionId := w.sessionId
  sessionActive := w.sessionActive
  translateEnabled := w.translateEnabled
  buffer := w.audioBuf.toList
  builder := w.builder
  translator := w.translator
  decoder := w.sourceDecoder
  trace := w.trace

/-- The builder after a transcription: some cues with the next ids, none of them without a text. -/
structure Heard (b : SegmentBuilder) (cues : List Cue) (b' : SegmentBuilder) : Prop where
  queue : b'.queue.toList = b.queue.toList ++ cues
  next : b'.nextSegmentId = b.nextSegmentId + cues.length
  ids : cues.map Cue.segmentId = List.range' b.nextSegmentId cues.length
  texts : ∀ c ∈ cues, c.text ≠ [] ∧ c.text.length ≤ maxTextBytes

/-- Events that come before a caption is sent: a blame frame, an offer to the translator. -/
def Event.isQuiet : Event → Bool
  | .frame _ _ => true
  | .offered _ _ => true
  | _ => false

/-- A caption of the given origin was written or lost. -/
def Event.Sends (o : Origin) : Event → Prop
  | .caption _ c => c.origin = o
  | .lost c => c.origin = o
  | _ => False

namespace Core

def record (c : Core) (events : List Event) : Core := { c with trace := c.trace ++ events }

@[simp] theorem record_nil (c : Core) : c.record [] = c := by simp [record]

@[simp] theorem record_record (c : Core) (events later : List Event) :
    (c.record events).record later = c.record (events ++ later) := by
  simp [record]

/-- Why a popped cue does not wait for its translation. -/
inductive Bypass (c : Core) (cue : Cue) (before : List Event) (last : Event) : Prop
  | disabled : c.translateEnabled = false → Bypass c cue before last
  | noTranslator : c.translator = none → Bypass c cue before last
  | noText : cue.text = [] → Bypass c cue before last
  | refused (t : TranslateAsync) (sourceLang targetLang : Bytes) : c.translator = some t →
      .offered t.load cue ∈ before → (t.submit (popped c.sessionId cue) sourceLang targetLang).2 = false →
      Bypass c cue before last
  | lost (x : Caption) : last = .lost x → Bypass c cue before last

inductive Step (c : Core) : Core → Prop
  | frame (sequence : UInt64) (p : Payload) : Step c (c.record [.frame sequence p])
  /-- Audio comes in, of the active session or from the decoder, and audio is dropped. -/
  | buffer (samples : List SessionId) :
      (∀ t ∈ samples, t ∈ c.buffer ∨ (t = c.sessionId ∧ c.sessionActive = true) ∨ c.decoder = some t) →
      Step c { c with buffer := samples }
  | openSource : c.sessionActive = true → Step c { c with decoder := some c.sessionId }
  | closeSource : Step c { c with decoder := none }
  | clearBuilder (b : SegmentBuilder) : b.queue.toList = [] → b.nextSegmentId = c.builder.nextSegmentId →
      Step c { c with builder := b }
  | hear (window : List SessionId) (cues : List Cue) (b : SegmentBuilder) : window ≠ [] →
      (∀ t ∈ window, t ∈ c.buffer) → Heard c.builder cues b →
      Step c ({ c with builder := b }.record [.heard window cues])
  | invalidate (why : Reset) : (∀ waiting, why ≠ .translateCtrl waiting) →
      Step c ({ c with translator := c.translator.map TranslateAsync.invalidate }.record [.invalidated why])
  | configure (enabled : Bool) :
      Step c ({ c with translateEnabled := enabled, translator := c.translator.map TranslateAsync.invalidate
                       }.record [.invalidated (.translateCtrl (waitingCues c.translator))])
  | start (id : SessionId) :
      Step c ({ c with sessionId := id, sessionActive := true, buffer := [], builder := c.builder.clear
                       translator := c.translator.map TranslateAsync.invalidate
                       decoder := none }.record [.invalidated .start, .started id])
  | stop : Step c ({ c with sessionActive := false }.record [.ended])
  | thread (s : ThreadStep) : Step c { c with translator := c.translator.map (·.threadStep s) }
  /-- A popped cue is left to the translator. -/
  | submit (cue : Cue) (b : SegmentBuilder) (t : TranslateAsync) (sourceLang targetLang : Bytes) :
      c.builder.pop = some (cue, b) → c.translateEnabled = true → c.translator = some t →
      (t.submit (popped c.sessionId cue) sourceLang targetLang).2 = true →
      Step c (({ c with builder := b, translator := some (t.submit (popped c.sessionId cue) sourceLang targetLang).1
                        }.record [.popped cue]).record [.offered t.load cue])
  /-- A popped cue is sent at once. -/
  | emit (cue : Cue) (b : SegmentBuilder) (before : List Event) (last : Event) : c.builder.pop = some (cue, b) →
      (∀ e ∈ before, e.isQuiet = true) → last.Sends (c.sessionId, cue) → Bypass c cue before last →
      Step c (({ c with builder := b }.record [.popped cue]).record (before ++ [last]))
  /-- The next translation is sent. -/
  | deliver (t : TranslateAsync) (r : TranslateResult) (before : List Event) (last : Event) :
      c.translator = some t → t.tryDeliver.2 = some r → c.sessionActive = true → r.segment.sessionId = c.sessionId →
      (∀ e ∈ before, e.isQuiet = true) → last.Sends r.segment.origin →
      Step c ({ c with translator := some t.tryDeliver.1 }.record (before ++ [last]))
  /-- There is no next translation, or its session is over. -/
  | discard (t : TranslateAsync) : c.translator = some t →
      (∀ r, t.tryDeliver.2 = some r → ¬ (c.sessionActive = true ∧ r.segment.sessionId = c.sessionId)) →
      Step c { c with translator := some t.tryDeliver.1 }
  | drained : c.translator.any TranslateAsync.hasPending = false → Step c (c.record [.drained])

end Core

/-- From `s` the program makes steps of the core. -/
abbrev CoreStepsAt {α : Type} (w : WorkerState) (m : Loop α) : Prop := StepsAt WorkerState.core Core.Step w m

abbrev CoreSteps {α : Type} (m : Loop α) : Prop := Steps WorkerState.core Core.Step m

/-! ## Basic actions -/

variable {env : Env} {config : Config}

theorem steps_ask {α : Type} (answer : Nat → α) : CoreSteps (ask answer) := fun _ => .of_eq rfl

theorem steps_call {α : Type} (service : Service) (answer : Nat → α) : CoreSteps (call service answer) :=
  fun _ => .of_eq rfl

theorem steps_detect {α : Type} (window : List SessionId) (answer : Nat → α) : CoreSteps (detect window answer) :=
  fun _ => .of_eq rfl

theorem steps_stopRunning (fatal : Bool) : CoreSteps (stopRunning fatal) := .modify_of_eq fun _ => rfl

theorem steps_setFatalExit : CoreSteps setFatalExit := .modify_of_eq fun _ => rfl

theorem steps_orFatal {send : Loop Bool} (h : CoreSteps send) : CoreSteps (orFatal send) :=
  h.bind fun _ => .onlyIf (steps_stopRunning true)

theorem steps_loadRunning : CoreSteps (loadRunning env) :=
  (steps_ask _).bind fun _ => (Steps.onlyIf (steps_stopRunning true)).bind fun _ => .get_bind fun _ => .refl

theorem guardedIpcSend_ends (w : WorkerState) : Ends (guardedIpcSend env) w fun _ v => v.core = w.core := by
  refine Ends.get_bind ?_
  split <;> rfl

theorem sendFrame_ends (bufferSize : Nat) (p : Payload) (event : UInt64 → Event) (w : WorkerState) :
    Ends (sendFrame env bufferSize p event) w fun sent v =>
      if sent then ∃ sequence, v.core = w.core.record [event sequence] else v.core = w.core := by
  rw [sendFrame]
  split
  · rfl
  refine Ends.modify_bind <| (guardedIpcSend_ends _).bind fun header v hv => ?_
  split
  · refine (guardedIpcSend_ends v).bind fun payload u hu => ?_
    have hcore : u.core = w.core := hu.trans hv
    cases payload
    · exact hcore
    · exact ⟨u.sequence, by rw [← hcore]; rfl⟩
  · exact hv

theorem sendPayload_ends (bufferSize : Nat) (p : Payload) (w : WorkerState) :
    Ends (sendPayload env bufferSize p) w fun _ v =>
      ∃ events, v.core = w.core.record events ∧ ∀ e ∈ events, e.isQuiet = true := by
  refine (sendFrame_ends bufferSize p _ w).mono fun sent v hv => ?_
  split at hv
  · obtain ⟨sequence, hv⟩ := hv
    exact ⟨_, hv, by simp [Event.isQuiet]⟩
  · exact ⟨[], by rw [Core.record_nil, hv], by simp⟩

theorem steps_sendPayload (bufferSize : Nat) (p : Payload) : CoreSteps (sendPayload env bufferSize p) := by
  intro w
  have h : Ends (sendPayload env bufferSize p) w fun sent v =>
      if sent then ∃ sequence, v.core = w.core.record [.frame sequence p] else v.core = w.core := sendFrame_ends _ _ _ w
  rw [Ends] at h
  split at h
  · obtain ⟨sequence, h⟩ := h
    exact .of_step (h ▸ .frame sequence p)
  · exact .of_eq h

theorem steps_sendError (sessionId : SessionId) (code : UInt32) (recoverable : UInt8) (message : Bytes) :
    CoreSteps (sendError env sessionId code recoverable message) :=
  steps_sendPayload _ _

theorem steps_sendStatus (sessionId : SessionId) (sessionActive paused : Bool) :
    CoreSteps (sendStatus env config sessionId sessionActive paused) :=
  (steps_ask _).bind fun _ => (steps_ask _).bind fun _ => (steps_ask _).bind fun _ =>
    .get_bind fun _ => steps_sendPayload _ _ _

theorem steps_reportStatus : CoreSteps (reportStatus env config) :=
  .get_bind fun w => steps_orFatal (steps_sendStatus _ _ _) w

theorem steps_sendModelProgress (sessionId : SessionId) (p : DownloadProgress) :
    CoreSteps (sendModelProgress env sessionId p) :=
  steps_sendPayload _ _

/-- A caption is written or lost. -/
theorem sendCaptionSegment_ends (c : Caption) (w : WorkerState) :
    Ends (sendCaptionSegment env c) w fun _ v =>
      ∃ last : Event, last.Sends c.origin ∧ v.core = w.core.record [last] := by
  refine (sendFrame_ends _ _ _ w).bind fun sent v hv => ?_
  cases sent
  · exact ⟨.lost c, rfl, by rw [← show v.core = w.core from hv]; rfl⟩
  · obtain ⟨sequence, hv⟩ := hv
    exact ⟨.caption sequence c, rfl, hv⟩

/-! ## The translator -/

theorem threads_steps (c : Core) (steps : List ThreadStep) :
    ReflTransGen Core.Step c
      { c with translator := c.translator.map fun t => steps.foldl TranslateAsync.threadStep t } := by
  induction steps generalizing c with
  | nil =>
    rw [show (c.translator.map fun t => [].foldl TranslateAsync.threadStep t) = c.translator from Option.map_id' ..]
  | cons s steps ih =>
    refine .head (.thread s) ?_
    have h := ih { c with translator := c.translator.map (·.threadStep s) }
    rwa [Option.map_map] at h

theorem steps_runThreads : CoreSteps (runThreads env) := fun w => threads_steps w.core (env.threads w.tick)

theorem markTransportFailed_ends (w : WorkerState) : Ends markTransportFailed w fun _ v => v.core = w.core := by
  refine Ends.modify_bind (Ends.get_bind ?_)
  rw [onlyIf]
  split <;> rfl

/-- A result of the current session is sent. -/
def DeliversTo (r : TranslateResult) (w v : WorkerState) : Prop :=
  if w.sessionActive = true ∧ r.segment.sessionId = w.sessionId then
    ∃ (before : List Event) (last : Event), (∀ e ∈ before, e.isQuiet = true) ∧ last.Sends r.segment.origin ∧
      v.core = w.core.record (before ++ [last])
  else v.core = w.core

theorem deliverTranslation_ends (r : TranslateResult) (w : WorkerState) :
    Ends (deliverTranslation env r) w fun _ v => DeliversTo r w v := by
  refine Ends.get_bind ?_
  by_cases h : w.sessionActive = true ∧ r.segment.sessionId = w.sessionId
  · simp only [DeliversTo, onlyIf, h.1, h.2, decide_true, Bool.and_self]
    refine (sendCaptionSegment_ends r.segment w).bind fun sent v ⟨last, hlast, hv⟩ => ?_
    refine ⟨[], last, by simp, hlast, ?_⟩
    cases sent <;> exact hv
  · simp only [DeliversTo, if_neg h, onlyIf]
    rw [if_neg (by simpa using h)]
    rfl

theorem diagDeliver_ends (r : TranslateResult) (w : WorkerState) :
    Ends (diagDeliver env r) w fun _ v => DeliversTo r w v := by
  refine Ends.get_bind ?_
  split
  · rename_i code detail _
    split
    · rename_i hactive
      simp only [Bool.and_eq_true, decide_eq_true_eq] at hactive
      refine (sendPayload_ends _ _ w).bind fun sent v ⟨events, hv, hquiet⟩ => ?_
      cases sent
      · refine (markTransportFailed_ends v).bind fun _ u hu => ?_
        change DeliversTo r w _
        rw [DeliversTo, if_pos hactive]
        refine ⟨events, .lost r.segment, hquiet, rfl, ?_⟩
        change u.core.record [.lost r.segment] = _
        rw [hu, hv]
        simp [Core.record]
      · refine (deliverTranslation_ends r v).mono fun _ u hu => ?_
        have hid : v.sessionId = w.sessionId := congrArg Core.sessionId hv
        have hact : v.sessionActive = w.sessionActive := congrArg Core.sessionActive hv
        rw [DeliversTo, hid, hact, if_pos hactive] at hu
        obtain ⟨before, last, hbefore, hlast, hu⟩ := hu
        rw [DeliversTo, if_pos hactive]
        refine ⟨events ++ before, last, ?_, hlast, by simp [hu, hv, Core.record]⟩
        simp only [List.mem_append]
        rintro e (he | he)
        · exact hquiet e he
        · exact hbefore e he
    · exact deliverTranslation_ends r w
  · exact deliverTranslation_ends r w

theorem steps_tryDeliverScoped : CoreSteps (tryDeliverScoped env) := by
  intro w
  refine StepsAt.modify_bind .refl (StepsAt.get_bind ?_)
  split
  · exact .of_eq rfl
  refine (steps_runThreads _).bind ?_
  generalize ((runThreads env).run _).2 = v
  refine StepsAt.get_bind ?_
  split
  · exact .refl
  rename_i t ht
  dsimp only
  cases hr : t.tryDeliver.2 with
  | none => exact .of_step (.discard t ht (by simp [hr]))
  | some r =>
    have hend : Ends (diagDeliver env r) { v with translator := some t.tryDeliver.1 } fun _ u =>
        DeliversTo r { v with translator := some t.tryDeliver.1 } u := diagDeliver_ends r _
    rw [Ends, DeliversTo] at hend
    split at hend
    · rename_i hactive
      obtain ⟨before, last, hbefore, hlast, hv⟩ := hend
      refine .of_step ?_
      change Core.Step v.core ((diagDeliver env r).run { v with translator := some t.tryDeliver.1 }).2.core
      rw [hv]
      exact .deliver t r before last ht hr hactive.1 hactive.2 hbefore hlast
    · rename_i hactive
      refine .of_step ?_
      change Core.Step v.core ((diagDeliver env r).run { v with translator := some t.tryDeliver.1 }).2.core
      rw [hend]
      refine .discard t ht ?_
      intro r' hr'
      rw [hr, Option.some.injEq] at hr'
      exact hr' ▸ hactive

theorem steps_deliverResults : CoreSteps (deliverResults env) := by
  refine .get_bind fun w => ?_
  split
  · exact .refl
  · refine Steps.bind (.loop (steps_tryDeliverScoped.bind fun _ => .pure _) _) (fun _ => .pure _) w

theorem steps_drainTranslation : CoreSteps (drainTranslation env) := by
  refine (steps_ask _).bind fun polls => Steps.bind (.loop ?_ polls) fun _ => .pure _
  refine steps_loadRunning.bind fun running => .ite (.pure _) (steps_runThreads.bind fun _ => .get_bind fun w => ?_)
  split
  · exact steps_tryDeliverScoped.bind (fun _ => .pure _) w
  · rename_i hpending
    exact .of_step (.drained (Bool.not_eq_true _ |>.mp hpending))

/-! ## Emission -/

theorem submit_refused {t : TranslateAsync} {c : Caption} {sourceLang targetLang : Bytes}
    (h : (t.submit c sourceLang targetLang).2 = false) : (t.submit c sourceLang targetLang).1 = t := by
  revert h
  rw [TranslateAsync.submit]
  split
  · exact fun _ => rfl
  split
  · exact fun _ => rfl
  split
  · exact fun _ => rfl
  · intro h
    cases h

theorem popSegment_ends (w : WorkerState) : Ends popSegment w fun r v =>
    match r with
    | none => v = w
    | some cue => ∃ b, w.builder.pop = some (cue, b) ∧
        v = { w with builder := b, trace := w.trace ++ [.popped cue] } := by
  refine Ends.get_bind ?_
  cases h : w.builder.pop with
  | none => rfl
  | some r => exact ⟨r.2, rfl, rfl⟩

/-- The worker that has just popped a cue. -/
abbrev WorkerState.holding (w : WorkerState) (cue : Cue) (b : SegmentBuilder) : WorkerState :=
  { w with builder := b, trace := w.trace ++ [.popped cue] }

/-- Sending a popped cue is one step of the core, together with the pop. -/
theorem emit_sent {w v : WorkerState} {cue : Cue} {b : SegmentBuilder} (before : List Event) (last : Event)
    (hpop : w.builder.pop = some (cue, b)) (hbefore : ∀ e ∈ before, e.isQuiet = true)
    (hlast : last.Sends (w.sessionId, cue)) (hwhy : w.core.Bypass cue before last)
    (hv : v.core = (w.holding cue b).core.record (before ++ [last])) : Core.Step w.core v.core := by
  rw [hv]
  exact .emit cue b before last hpop hbefore hlast hwhy

/-- What comes of offering a popped cue to the translator: it is done with, or still has to be sent. -/
inductive OffersTo (w : WorkerState) (cue : Cue) (b : SegmentBuilder) : Bool → WorkerState → Prop
  | done (v : WorkerState) : ReflTransGen Core.Step w.core v.core → OffersTo w cue b true v
  | refused (u v : WorkerState) (before : List Event) : ReflTransGen Core.Step w.core u.core →
      u.sessionId = w.sessionId → u.builder.pop = some (cue, b) → (∀ e ∈ before, e.isQuiet = true) →
      (∀ last, u.core.Bypass cue before last) → v.core = (u.holding cue b).core.record before →
      OffersTo w cue b false v

theorem reportLocalRejection_ends (c : Caption) (w : WorkerState) :
    Ends (reportLocalRejection env c) w fun _ v =>
      ∃ events, v.core = w.core.record events ∧ ∀ e ∈ events, e.isQuiet = true := by
  refine Ends.get_bind ?_
  split
  · exact ⟨[], (Core.record_nil _).symm, by simp⟩
  · exact sendPayload_ends _ _ w

theorem blameRefusal_ends (c : Caption) (w : WorkerState) :
    Ends (blameRefusal env c) w fun lost v => ∃ events, (∀ e ∈ events, e.isQuiet = true) ∧
      v.core = w.core.record (if lost then events ++ [.lost c] else events) := by
  refine (reportLocalRejection_ends c w).bind fun reported v ⟨events, hv, hquiet⟩ => ?_
  cases reported
  · refine (markTransportFailed_ends v).bind fun _ u hu => ⟨events, hquiet, ?_⟩
    change u.core.record [.lost c] = _
    rw [hu, hv, Core.record_record]
    rfl
  · exact ⟨events, hquiet, hv⟩

theorem runThreads_holding {w : WorkerState} {cue : Cue} {b : SegmentBuilder} (hpop : w.builder.pop = some (cue, b)) :
    Ends (runThreads env) (w.holding cue b) fun _ v => ∃ u : WorkerState, v = u.holding cue b ∧
      ReflTransGen Core.Step w.core u.core ∧ u.sessionId = w.sessionId ∧ u.translateEnabled = w.translateEnabled ∧
      u.builder.pop = some (cue, b) :=
  ⟨((runThreads env).run w).2, rfl, threads_steps w.core _, rfl, rfl, hpop⟩

theorem submitScoped_ends {w : WorkerState} {cue : Cue} {b : SegmentBuilder} (hpop : w.builder.pop = some (cue, b))
    (henabled : w.translateEnabled = true) :
    Ends (submitScoped env (popped w.sessionId cue)) (w.holding cue b) (OffersTo w cue b) := by
  refine Ends.get_bind ?_
  split
  · exact .done _ (.single (emit_sent [] (.lost (popped w.sessionId cue)) hpop (by simp) rfl (.lost _ rfl) rfl))
  refine (runThreads_holding hpop).bind fun _ _ ⟨u, hu, hthreads, hid, henabled', hpop'⟩ => Ends.get_bind ?_
  rw [henabled] at henabled'
  rw [hu, ← hid]
  split
  · rename_i hnone
    exact .refused u _ [] hthreads hid hpop' (by simp) (fun _ => .noTranslator hnone) (Core.record_nil _).symm
  rename_i t ht
  dsimp only
  refine Ends.modify_bind ?_
  split
  · rename_i htrue
    exact .done _ (hthreads.tail (.submit cue b t u.translateSrcLang u.translateDstLang hpop' henabled' ht htrue))
  · rename_i hfalse
    simp only [Bool.not_eq_true] at hfalse
    refine (blameRefusal_ends _ _).mono fun lost v ⟨events, hquiet, hv⟩ => ?_
    have hbefore : ∀ e ∈ Event.offered t.load cue :: events, e.isQuiet = true := by
      simpa [Event.isQuiet] using hquiet
    have hwhy (last : Event) : u.core.Bypass cue (.offered t.load cue :: events) last :=
      .refused t _ _ ht (by simp) hfalse
    have hcore : ({ u.holding cue b with translator := some t
                                         trace := (u.holding cue b).trace ++ [.offered t.load cue] } : WorkerState).core =
        (u.holding cue b).core.record [.offered t.load cue] := by
      have ht' : u.translator = some t := ht
      simp only [WorkerState.core, Core.record, ht']
    rw [submit_refused hfalse] at hv
    change v.core = Core.record (WorkerState.core { u.holding cue b with
      translator := some t, trace := (u.holding cue b).trace ++ [.offered t.load cue] }) _ at hv
    rw [hcore, Core.record_record] at hv
    cases lost with
    | true =>
      exact .done _ (hthreads.tail (emit_sent (.offered t.load cue :: events) (.lost (popped u.sessionId cue)) hpop'
        hbefore rfl (hwhy _) hv))
    | false => exact .refused u v _ hthreads hid hpop' hbefore hwhy hv

theorem emitSegment_steps {w : WorkerState} {cue : Cue} {b : SegmentBuilder} (hpop : w.builder.pop = some (cue, b))
    (attempted : Bool) :
    Ends (emitSegment env cue attempted) (w.holding cue b) fun _ v => ReflTransGen Core.Step w.core v.core := by
  refine Ends.get_bind ?_
  dsimp only
  split
  · rename_i hoffer
    simp only [Bool.and_eq_true] at hoffer
    refine (submitScoped_ends hpop hoffer.1.1).bind fun submitted v hv => ?_
    cases hv with
    | refused u v before hu hid hpop' hquiet hwhy hv =>
      refine (sendCaptionSegment_ends _ v).mono fun _ x ⟨last, hlast, hx⟩ => ?_
      refine hu.tail (emit_sent before last hpop' hquiet (hid ▸ hlast) (hwhy last) ?_)
      rw [hx, hv, Core.record_record]
    | done v hv => exact hv
  · rename_i hskip
    refine (sendCaptionSegment_ends _ _).mono fun _ v ⟨last, hlast, hv⟩ => ?_
    refine .single (emit_sent [] last hpop (by simp) hlast ?_ hv)
    by_cases henabled : w.translateEnabled = true
    · by_cases htrans : w.translator = none
      · exact .noTranslator htrans
      · refine .noText ?_
        simpa [henabled, Option.isSome_iff_ne_none, htrans] using hskip
    · exact .disabled (Bool.not_eq_true _ |>.mp henabled)

theorem popSegment_bind_steps {α : Type} {done : Loop α} {next : Cue → Loop α} (hdone : CoreSteps done)
    (hnext : ∀ (w : WorkerState) (cue : Cue) (b : SegmentBuilder), w.builder.pop = some (cue, b) →
      Ends (next cue) (w.holding cue b) fun _ v => ReflTransGen Core.Step w.core v.core) :
    CoreSteps (do match ← popSegment with
      | none => done
      | some cue => next cue) := by
  intro w
  refine Ends.stepsAt ((popSegment_ends w).bind fun r v hv => ?_)
  cases r with
  | none =>
    obtain rfl : v = w := hv
    exact hdone v
  | some cue =>
    obtain ⟨b, hpop, rfl⟩ := hv
    exact hnext w cue b hpop

theorem steps_emitSegments : CoreSteps (emitSegments env) := by
  refine .get_bind fun w => Steps.bind (.loop (popSegment_bind_steps (.pure _) fun w cue b hpop => ?_) _) (fun _ => .pure _) w
  refine Ends.bind (P := fun _ v => ReflTransGen Core.Step w.core v.core) ?_ fun _ v hv => ?_
  swap
  · exact hv
  refine (emitSegment_steps hpop false).bind fun sent v hv => ?_
  cases sent <;> exact hv

theorem steps_emitTailSegments : CoreSteps (emitTailSegments env) := by
  refine .get_bind fun w => Steps.bind (.loop (popSegment_bind_steps (.pure _) fun u cue b hpop => ?_) _) (fun _ => .pure _) w
  exact (emitSegment_steps hpop _).bind fun sent v hv => hv

end VlcWhisper.Worker
