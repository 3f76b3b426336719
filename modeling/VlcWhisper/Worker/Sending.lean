import VlcWhisper.Protocol.RoundTrip
import VlcWhisper.Worker.WorkerLoop

/-!
# What sending changes

Most statements of the main loop only talk to the client or to the translator. `unsent` is the state but for what a
frame that is sent changes, `untranslated` also leaves out the translator and its transport, and `unemitted` the cues
that wait to be sent. Each lemma says that a program spares one of these: whatever else a state says stays as it is,
and a worker that was ended is not started again.
-/

namespace VlcWhisper.Worker

open VlcWhisper.Lib VlcWhisper.Protocol SegmentBuilder Relation

/-- The state but for what sending a frame changes. -/
def WorkerState.unsent (w : WorkerState) : WorkerState :=
  { w with running := true, fatalExit := false, sequence := 0, tick := 0, trace := [], writes := [] }

/-- The state but for what delivering a translation changes. -/
def WorkerState.untranslated (w : WorkerState) : WorkerState :=
  { w.unsent with translator := none, transport := ⟨true, false⟩ }

/-- The state but for what emitting cues changes. -/
def WorkerState.unemitted (w : WorkerState) : WorkerState := { w.untranslated with builder := .create }

theorem field_of_unsent {α : Type} {w v : WorkerState} (h : v.unsent = w.unsent) (field : WorkerState → α)
    (hfield : ∀ u, field u.unsent = field u) : field v = field w := by
  rw [← hfield v, h, hfield]

variable {env : Env} {config : Config} {α κ ι : Type}

/-- The program leaves what the view shows, and at most clears `running`. -/
abbrev Spares (view : WorkerState → κ) (m : Loop α) : Prop :=
  Steps (fun w => (view w, w.running)) (fun c d => d = (c.1, false)) m

theorem Spares.ends {view : WorkerState → κ} {m : Loop α} (h : Spares view m) (w : WorkerState) :
    Ends m w fun _ v => view v = view w ∧ (w.running = false → v.running = false) := by
  have hsteps : ReflTransGen (fun c d : κ × Bool => d = (c.1, false)) (view w, w.running) _ := h w
  have hstep (c d : κ × Bool) (hc : c.1 = view w ∧ (w.running = false → c.2 = false)) (hd : d = (c.1, false)) :
      d.1 = view w ∧ (w.running = false → d.2 = false) := by
    subst hd
    exact ⟨hc.1, fun _ => rfl⟩
  exact steps_invariant hstep hsteps ⟨rfl, id⟩

theorem Spares.eq {view : WorkerState → κ} {m : Loop α} (h : Spares view m) (w : WorkerState) :
    view (m.run w).2 = view w :=
  (h.ends w).1

theorem Spares.comp {view : WorkerState → κ} {m : Loop α} (h : Spares view m) (f : κ → ι) :
    Spares (fun w => f (view w)) m := by
  intro w
  have hsteps : ReflTransGen (fun c d : κ × Bool => d = (c.1, false)) (view w, w.running) _ := h w
  refine ReflTransGen.lift (fun c : κ × Bool => (f c.1, c.2)) (fun c d hd => ?_) _ _ hsteps
  show (f d.1, d.2) = (f c.1, false)
  rw [hd]

/-- What the view decides is preserved, and what it decides while the worker runs. -/
theorem Spares.preserves {view : WorkerState → κ} {m : Loop α} (h : Spares view m) {p : κ → Prop}
    {q : WorkerState → Prop} (hinv : ∀ w, p (view w) ↔ q w) : Preserves q m := by
  intro w hw
  refine (hinv _).mp ?_
  rw [h.eq w]
  exact (hinv w).mpr hw

theorem Spares.preserves_running {view : WorkerState → κ} {m : Loop α} (h : Spares view m) {p : κ → Prop}
    {q : WorkerState → Prop} (hinv : ∀ w, p (view w) ↔ q w) : Preserves (fun w => w.running = true → q w) m := by
  intro w hw hrunning
  obtain ⟨hview, hstopped⟩ := h.ends w
  refine (hinv _).mp ?_
  rw [hview]
  refine (hinv w).mpr (hw ?_)
  by_contra hnot
  rw [hstopped (Bool.eq_false_of_not_eq_true hnot)] at hrunning
  cases hrunning

/-! ## Frames -/

theorem spares_ask (answer : Nat → α) : Spares WorkerState.unsent (ask answer) := fun _ => .of_eq rfl

theorem spares_record (events : List Event) : Spares WorkerState.unsent (record events) := .modify_of_eq fun _ => rfl

theorem spares_recordWrite (write : Write) : Spares WorkerState.unsent (recordWrite write) := .modify_of_eq fun _ => rfl

theorem spares_stopRunning (fatal : Bool) : Spares WorkerState.unsent (stopRunning fatal) := fun _ => .of_step rfl

theorem spares_setFatalExit : Spares WorkerState.unsent setFatalExit := .modify_of_eq fun _ => rfl

theorem spares_orFatal {send : Loop Bool} (h : Spares WorkerState.unsent send) : Spares WorkerState.unsent (orFatal send) :=
  h.bind fun _ => .onlyIf (spares_stopRunning true)

theorem spares_loadRunning : Spares WorkerState.unsent (loadRunning env) :=
  (spares_ask _).bind fun _ => (Steps.onlyIf (spares_stopRunning true)).bind fun _ => .get_bind fun _ => .refl

theorem spares_guardedIpcSend : Spares WorkerState.unsent (guardedIpcSend env) := by
  refine .get_bind fun w => Steps.ite (.pure _) ?_ w
  exact (spares_ask _).bind fun _ => (spares_recordWrite _).bind fun _ => .pure _

theorem spares_sendFrame (bufferSize : Nat) (p : Payload) (event : UInt64 → Event) :
    Spares WorkerState.unsent (sendFrame env bufferSize p event) := by
  unfold sendFrame
  split
  · exact (spares_recordWrite _).bind fun _ => .pure _
  · refine .bind (.modify_of_eq fun _ => rfl) fun _ => spares_guardedIpcSend.bind fun header => .ite ?_ (.pure _)
    refine spares_guardedIpcSend.bind fun payload => .get_bind fun w => ?_
    exact Steps.bind (.onlyIf (spares_record _)) (fun _ => .pure _) w

theorem spares_sendPayload (bufferSize : Nat) (p : Payload) : Spares WorkerState.unsent (sendPayload env bufferSize p) :=
  spares_sendFrame _ _ _

theorem spares_sendError (sessionId : SessionId) (code : UInt32) (recoverable : UInt8) (message : Bytes) :
    Spares WorkerState.unsent (sendError env sessionId code recoverable message) :=
  spares_sendPayload _ _

theorem spares_sendModelProgress (sessionId : SessionId) (p : DownloadProgress) :
    Spares WorkerState.unsent (sendModelProgress env sessionId p) :=
  spares_sendPayload _ _

theorem spares_sendStatus (sessionId : SessionId) (sessionActive paused : Bool) :
    Spares WorkerState.unsent (sendStatus env config sessionId sessionActive paused) :=
  (spares_ask _).bind fun _ => (spares_ask _).bind fun _ => (spares_ask _).bind fun _ => .get_bind fun w =>
    spares_sendPayload _ _ w

theorem spares_reportStatus : Spares WorkerState.unsent (reportStatus env config) :=
  .get_bind fun w => spares_orFatal (spares_sendStatus _ _ _) w

theorem spares_sendCaptionSegment (c : Caption) : Spares WorkerState.unsent (sendCaptionSegment env c) :=
  (spares_sendFrame _ _ _).bind fun _ => (Steps.onlyIf (spares_record _)).bind fun _ => .pure _

theorem spares_rejectFrame (p : Option Payload) : Spares WorkerState.unsent (rejectFrame env p) := by
  have hleave : Spares WorkerState.unsent (do setFatalExit; pure Flow.leave) := spares_setFatalExit.bind fun _ => .pure _
  refine .get_bind fun w => ?_
  split
  · refine Steps.ite ((spares_sendError _ _ _ _).bind fun sent => .ite (.pure _) ?_) hleave w
    exact hleave
  · exact hleave w

/-! ## Whether a frame is sent -/

/-- Both writes of the next frame go out. -/
def WorkerState.reaches (w : WorkerState) (env : Env) (tick : Nat) : Bool :=
  !(w.transport.registered && w.transport.failed) && env.ipcSend tick && env.ipcSend (tick + 1)

theorem guardedIpcSend_result (w : WorkerState) : Ends (guardedIpcSend env) w fun sent v =>
    sent = (!(w.transport.registered && w.transport.failed) && env.ipcSend w.tick) ∧
      v.transport = w.transport ∧ v.running = w.running ∧ (sent = true → v.tick = w.tick + 1) := by
  refine Ends.get_bind (Ends.ite (fun hclosed => ?_) fun hopen => ?_)
  · rw [hclosed]
    exact ⟨rfl, rfl, rfl, nofun⟩
  · rw [Bool.eq_false_of_not_eq_true hopen]
    exact ⟨(Bool.true_and _).symm, rfl, rfl, fun _ => rfl⟩

/-- A frame that can be encoded is sent exactly if both its writes go out. -/
theorem sendPayload_result {bufferSize : Nat} {p : Payload} {buffer : Bytes} (hencodes : encodePayload p bufferSize = some buffer)
    (w : WorkerState) : Ends (sendPayload env bufferSize p) w fun sent v =>
      sent = w.reaches env w.tick ∧ v.running = w.running := by
  unfold sendPayload sendFrame WorkerState.reaches
  rw [hencodes]
  refine Ends.modify_bind ((guardedIpcSend_result _).bind fun header t ⟨hheader, htransport, hrunning, htick⟩ => ?_)
  refine Ends.ite (fun hsent => ?_) fun hnot => ?_
  · refine (guardedIpcSend_result t).bind fun payload u ⟨hpayload, _, hurunning, _⟩ => Ends.get_bind ?_
    have hresult : payload = w.reaches env w.tick := by
      unfold WorkerState.reaches
      rw [htransport, htick hsent] at hpayload
      have hheader : header = (!(w.transport.registered && w.transport.failed) && env.ipcSend w.tick) := hheader
      have hpayload : payload = (!(w.transport.registered && w.transport.failed) && env.ipcSend (w.tick + 1)) := hpayload
      rw [hsent] at hheader
      have hparts := Bool.and_eq_true_iff.mp hheader.symm
      rw [hpayload, hparts.1, hparts.2]
      rfl
    have hrecorded : Ends (onlyIf payload (record [.frame u.sequence p])) u fun _ v => v.running = u.running :=
      Ends.onlyIf (fun _ => rfl) fun _ => rfl
    exact hrecorded.bind fun _ v hv => ⟨hresult, hv.trans (hurunning.trans hrunning)⟩
  · have hheader : header = (!(w.transport.registered && w.transport.failed) && env.ipcSend w.tick) := hheader
    have hfailed : header = false := Bool.eq_false_of_not_eq_true hnot
    refine ⟨?_, hrunning⟩
    rw [← hheader, hfailed]
    rfl

theorem sendStatus_result (sessionId : SessionId) (sessionActive paused : Bool) (w : WorkerState) :
    Ends (sendStatus env config sessionId sessionActive paused) w fun sent v =>
      sent = w.reaches env (w.tick + 3) ∧ v.running = w.running := by
  have hbackend (s : Bytes) : (CArray.ofStr 16 s).Terminated := by
    refine CArray.pad_terminated ?_
    rw [List.length_take]
    omega
  have hencodes (s : Status) (hs : s.resolvedBackend.Terminated) : ∃ buffer, encodePayload (.status s) 64 = some buffer := by
    obtain ⟨buffer, -, hbuffer, -⟩ := encodePayload_of_wellFormed (p := .status s) hs (by decide : 60 ≤ 64)
    exact ⟨buffer, hbuffer⟩
  have hask {α : Type} (answer : Nat → α) (t : WorkerState) : Ends (ask answer) t fun _ u => u = { t with tick := t.tick + 1 } :=
    rfl
  refine (hask _ w).bind fun queued t ht => (hask _ t).bind fun inference u hu => (hask _ u).bind fun dropped v hv => ?_
  subst ht hu hv
  obtain ⟨buffer, hbuffer⟩ := hencodes
    { sessionId
      state := if !sessionActive then sessionStateIdle else if paused then sessionStatePaused else sessionStatePlaying
      queuedAudioUs := (queued + .ofNat (w.audioBuf.count * 1000000 / sampleRate)).toInt64
      inferenceUs := if w.engine then inference.toInt64 else 0
      droppedAudioUs := dropped.toInt64
      resolvedBackend := .ofStr 16 (ascii (if config.cpuBackend || !w.engine || !env.gpuActive then "cpu" else "gpu")) }
    (hbackend _)
  exact Ends.get_bind (sendPayload_result hbuffer { w with tick := w.tick + 3 })

/-! ## The translator -/

theorem spares_untranslated {m : Loop α} (h : Spares WorkerState.unsent m) : Spares WorkerState.untranslated m :=
  h.comp fun w => { w with translator := none, transport := ⟨true, false⟩ }

theorem spares_unemitted {m : Loop α} (h : Spares WorkerState.untranslated m) : Spares WorkerState.unemitted m :=
  h.comp fun w => { w with builder := .create }

theorem spares_runThreads : Spares WorkerState.untranslated (runThreads env) := fun _ => .of_eq rfl

theorem spares_markTransportFailed : Spares WorkerState.untranslated markTransportFailed :=
  .bind (.modify_of_eq fun _ => rfl) fun _ => .get_bind fun w => Steps.onlyIf (spares_untranslated (spares_stopRunning true)) w

theorem spares_reportLocalRejection (c : Caption) : Spares WorkerState.unsent (reportLocalRejection env c) := by
  refine .get_bind fun w => ?_
  split
  · exact Steps.bind (spares_recordWrite _) (fun _ => .pure _) w
  · exact spares_sendError _ _ _ _ w

theorem spares_blameRefusal (c : Caption) : Spares WorkerState.untranslated (blameRefusal env c) := by
  refine (spares_untranslated (spares_reportLocalRejection c)).bind fun reported => .ite (.pure _) ?_
  exact spares_markTransportFailed.bind fun _ => (spares_untranslated (spares_record _)).bind fun _ => .pure _

theorem spares_submitScoped (c : Caption) : Spares WorkerState.untranslated (submitScoped env c) := by
  refine .get_bind fun w => Steps.ite ((spares_untranslated (spares_record _)).bind fun _ => .pure _) ?_ w
  refine spares_runThreads.bind fun _ => .get_bind fun v => ?_
  split
  · exact .refl
  · dsimp only
    refine StepsAt.modify_bind .refl ?_
    exact Steps.ite (.pure _) (spares_blameRefusal _) _

theorem spares_deliverTranslation (r : TranslateResult) : Spares WorkerState.unsent (deliverTranslation env r) :=
  .get_bind fun w => Steps.onlyIf (spares_orFatal (spares_sendCaptionSegment _)) w

theorem spares_diagDeliver (r : TranslateResult) : Spares WorkerState.untranslated (diagDeliver env r) := by
  refine .get_bind fun w => ?_
  split
  · refine Steps.ite ?_ (spares_untranslated (spares_deliverTranslation r)) w
    refine (spares_untranslated (spares_sendError _ _ _ _)).bind fun sent => .ite (spares_untranslated (spares_deliverTranslation r)) ?_
    exact spares_markTransportFailed.bind fun _ => (spares_untranslated (spares_stopRunning true)).bind fun _ =>
      (spares_untranslated (spares_record _))
  · exact (spares_untranslated (spares_deliverTranslation r)) w

theorem spares_tryDeliverScoped : Spares WorkerState.untranslated (tryDeliverScoped env) := by
  refine .bind (.modify_of_eq fun _ => rfl) fun _ => .get_bind fun w => ?_
  refine Steps.ite ((spares_untranslated (spares_stopRunning true)).bind fun _ => .pure _) ?_ w
  refine spares_runThreads.bind fun _ => .get_bind fun v => ?_
  split
  · exact .refl
  · refine StepsAt.modify_bind .refl ?_
    split
    · exact .refl
    · exact Steps.bind (spares_diagDeliver _) (fun _ => .pure _) _

theorem spares_deliverResults : Spares WorkerState.untranslated (deliverResults env) := by
  refine .get_bind fun w => ?_
  split
  · exact .refl
  · exact Steps.bind (.loop (spares_tryDeliverScoped.bind fun _ => .pure _) _) (fun _ => .pure _) w

theorem spares_drainTranslation : Spares WorkerState.untranslated (drainTranslation env) := by
  refine (spares_untranslated (spares_ask _)).bind fun polls => .bind (.loop ?_ polls) fun _ => .pure _
  refine (spares_untranslated spares_loadRunning).bind fun running => .ite (.pure _) ?_
  refine spares_runThreads.bind fun _ => .get_bind fun w => Steps.ite ?_ ?_ w
  · exact spares_tryDeliverScoped.bind fun _ => .pure _
  · exact (spares_untranslated (spares_record _)).bind fun _ => .pure _

theorem spares_drainIf (c : Bool) : Spares WorkerState.untranslated (drainIf env c) :=
  .ite spares_drainTranslation (.pure _)

/-! ## Cues -/

theorem spares_emitSegment (cue : Cue) (attempted : Bool) : Spares WorkerState.untranslated (emitSegment env cue attempted) := by
  refine .get_bind fun w => ?_
  dsimp only
  refine Steps.ite ((spares_submitScoped _).bind fun submitted => .ite (.pure _) ?_) ?_ w
  · exact (spares_untranslated (spares_sendCaptionSegment _))
  · exact (spares_untranslated (spares_sendCaptionSegment _))

theorem spares_popSegment : Spares WorkerState.unemitted popSegment := by
  refine .get_bind fun w => ?_
  split
  · exact .refl
  · exact StepsAt.modify_bind .refl .refl

theorem spares_emitSegments : Spares WorkerState.unemitted (emitSegments env) := by
  refine .get_bind fun w => Steps.bind (.loop ?_ _) (fun _ => .pure _) w
  refine spares_popSegment.bind fun popped => ?_
  cases popped with
  | none => exact .pure _
  | some cue =>
    refine Steps.bind ?_ fun _ => .pure _
    exact (spares_unemitted (spares_emitSegment cue false)).bind fun _ => .onlyIf (spares_unemitted (spares_untranslated (spares_stopRunning true)))

theorem spares_emitTailSegments : Spares WorkerState.unemitted (emitTailSegments env) := by
  refine .get_bind fun w => Steps.bind (.loop ?_ _) (fun _ => .pure _) w
  refine spares_popSegment.bind fun popped => ?_
  cases popped with
  | none => exact .pure _
  | some cue => exact (spares_unemitted (spares_emitSegment cue _)).bind fun _ => .pure _

end VlcWhisper.Worker
