import VlcWhisper.Worker.HealthSteps

/-!
# What is written after a failed write

`Pipe` is what the worker's frames go through: how its writes ended, and whether the guard of the diagnostics refuses
every further one. It is sound if the guard refuses everything once a write has failed. A program stops (`Stops`) if,
from a sound pipe, it writes nothing after a write that failed, and a result in `P` says that the pipe is still sound.

Every handler of a frame but that of AUDIO stops, by one lemma each. Those of STOP and SHUTDOWN go on to drain the
translator; the drain loads `running` before it writes, and a worker that is running has no failed write behind it
(`Health.Clean`).
-/

namespace VlcWhisper.Worker

open VlcWhisper.Lib VlcWhisper.Protocol SegmentBuilder Relation

/-! ## The pipe -/

structure Pipe where
  writes : List Write
  shut : Bool

def WorkerState.pipe (w : WorkerState) : Pipe where
  writes := w.writes
  shut := w.transport.registered && w.transport.failed

/-- The pipe of a worker in this health. -/
def Health.pipe (h : Health) : Pipe where
  writes := h.writes
  shut := h.transport.registered && h.transport.failed

namespace Pipe

/-- A header or payload is only taken if no write has failed. -/
inductive Step (p : Pipe) : Pipe → Prop
  | write (write : Write) : (write = .sent → .failed ∉ p.writes) → Step p { p with writes := p.writes ++ [write] }
  | shut : Step p { p with shut := true }

/-- Once a write has failed, the guard refuses every other one. -/
def Sound (p : Pipe) : Prop := .failed ∈ p.writes → p.shut = true

theorem Sound.shut (p : Pipe) : Sound { p with shut := true } := fun _ => rfl

end Pipe

abbrev StopsAt {α : Type} (w : WorkerState) (m : Loop α) (P : α → Prop) : Prop :=
  Settles WorkerState.pipe Pipe.Step (fun w => w.pipe.Sound) (fun _ => True) w m P

/-- The program writes nothing after a write that failed. -/
abbrev Stops {α : Type} (m : Loop α) (P : α → Prop) : Prop :=
  SettlesAll WorkerState.pipe Pipe.Step (fun w => w.pipe.Sound) (fun _ => True) m P

/-- The program writes nothing. -/
abbrev Silent {α : Type} (m : Loop α) : Prop := Steps WorkerState.pipe (fun p q => q = { p with shut := true }) m

/-- From here on, the program only makes steps of the pipe. -/
abbrev PipeAt {α : Type} (w : WorkerState) (m : Loop α) : Prop := StepsAt WorkerState.pipe Pipe.Step w m

variable {env : Env} {config : Config} {permits : Bool → Prop} {α : Type} {P : α → Prop}

theorem HeedsAt.ok (env : Env) {w : WorkerState} {m : Loop α} (h : HeedsAt env (fun _ => True) w m fun _ => True) :
    (m.run w).2.health.Ok := h.2.1 trivial

theorem Heeds.ok (env : Env) {m : Loop α} (h : Heeds env (fun _ => True) m fun _ => True) {w : WorkerState}
    (hw : w.health.Ok) : (m.run w).2.health.Ok := HeedsAt.ok env (h w hw)

theorem Silent.pipeAt {m : Loop α} (h : Silent m) (w : WorkerState) : PipeAt w m := by
  have hsteps : ReflTransGen (fun p q => q = { p with shut := true }) w.pipe (m.run w).2.pipe := h w
  exact ReflTransGen.mono (fun p q (hq : q = _) => hq ▸ Pipe.Step.shut) _ _ hsteps

theorem Silent.sound {m : Loop α} (h : Silent m) {w : WorkerState} (hw : w.pipe.Sound) : (m.run w).2.pipe.Sound :=
  steps_invariant (fun p q _ (hq : q = { p with shut := true }) => hq ▸ Pipe.Sound.shut p) (h w) hw

theorem Silent.writes {m : Loop α} (h : Silent m) (w : WorkerState) : (m.run w).2.writes = w.writes := by
  have hkept (p q : Pipe) (hp : p.writes = w.writes) (hq : q = { p with shut := true }) : q.writes = w.writes := hq ▸ hp
  have hsame := steps_invariant hkept (h w) rfl
  exact hsame

theorem Silent.stops {m : Loop α} (h : Silent m) : Stops m P :=
  fun w hw => ⟨h.pipeAt w, fun _ => h.sound hw, fun _ => trivial⟩

theorem stopsAt_modify {w : WorkerState} (hw : w.pipe.Sound) {f : WorkerState → WorkerState} (h : (f w).pipe = w.pipe) :
    StopsAt w (modify f) fun _ => True := by
  refine ⟨StepsAt.of_eq (m := modify f) h, fun _ => ?_, fun _ => trivial⟩
  show (f w).pipe.Sound
  rw [h]
  exact hw

theorem Silent.stopsAt {m : Loop α} (h : Silent m) {w : WorkerState} (hP : Ends m w fun a _ => ¬ P a) : StopsAt w m P :=
  ⟨h.pipeAt w, fun hp => (hP hp).elim, fun _ => trivial⟩

theorem Silent.stopsAt_false {m : Loop α} (h : Silent m) (w : WorkerState) : StopsAt w m fun _ => False :=
  h.stopsAt fun h => h

/-- How a program that stops goes on after a write that failed is silent. -/
theorem Stops.bind {β : Type} {Q : β → Prop} {m : Loop α} {f : α → Loop β} (hm : Stops m P) (hf : ∀ a, P a → Stops (f a) Q)
    (hfail : ∀ a, ¬ P a → Silent (f a) ∧ ∀ w, Ends (f a) w fun b _ => ¬ Q b) : Stops (m >>= f) Q :=
  SettlesAll.bind hm hf fun a _ ha _ => (hfail a ha).1.stopsAt ((hfail a ha).2 _)

theorem Stops.bind_false {β : Type} {m : Loop α} {f : α → Loop β} (hm : Stops m P)
    (hf : ∀ a, P a → Stops (f a) fun _ => False) (hfail : ∀ a, ¬ P a → Silent (f a)) :
    Stops (m >>= f) fun _ => False :=
  hm.bind hf fun a ha => ⟨hfail a ha, fun _ => id⟩

/-! ## Silent programs -/

theorem silent_ask (answer : Nat → α) : Silent (ask answer) := fun _ => .of_eq rfl

theorem silent_call (service : Service) (answer : Nat → α) : Silent (call service answer) := fun _ => .of_eq rfl

theorem silent_detect (window : List SessionId) (answer : Nat → α) : Silent (detect window answer) := fun _ => .of_eq rfl

theorem silent_record (events : List Event) : Silent (record events) := .modify_of_eq fun _ => rfl

theorem silent_stopRunning (fatal : Bool) : Silent (stopRunning fatal) := .modify_of_eq fun _ => rfl

theorem silent_setFatalExit : Silent setFatalExit := .modify_of_eq fun _ => rfl

theorem silent_loadRunning : Silent (loadRunning env) :=
  (silent_ask _).bind fun _ => .bind (.onlyIf (silent_stopRunning true)) fun _ => .get_bind fun _ => .refl

theorem silent_runThreads : Silent (runThreads env) := fun _ => .of_eq rfl

theorem silent_popSegment : Silent popSegment := by
  refine .get_bind fun w => ?_
  split
  · exact .refl
  · exact StepsAt.modify_bind .refl .refl

theorem silent_drainAudio (samples : Nat) : Silent (drainAudio samples) := .modify_of_eq fun _ => rfl

theorem silent_markTransportFailed : Silent markTransportFailed := by
  refine .modify_bind (fun w => ?_) (.get_bind fun w => Steps.onlyIf (silent_stopRunning true) w)
  have hmark : { w.pipe with shut := w.transport.registered && true } =
      { w with transport := { w.transport with failed := true } }.pipe := rfl
  rw [← hmark]
  cases hregistered : w.transport.registered with
  | false =>
    have hopen : w.pipe = { w.pipe with shut := false } := by
      simp only [WorkerState.pipe, hregistered, Bool.false_and]
    rw [Bool.false_and, ← hopen]
  | true => exact .single rfl

theorem markTransportFailed_shut {w : WorkerState} (h : w.transport.registered = true) :
    (markTransportFailed.run w).2.pipe.shut = true := by
  have hmarked : Ends markTransportFailed w fun _ v => v.pipe.shut = true := by
    have hshut : (w.transport.registered && true) = true := by rw [h]; rfl
    exact Ends.modify_bind (Ends.get_bind (Ends.onlyIf (fun _ => hshut) fun _ => hshut))
  exact hmarked

theorem silent_transcribeWindow (window : List SessionId) (windowPtsUs : Int) (limitUs : Option Int) :
    Silent (transcribeWindow env window windowPtsUs limitUs) := by
  refine (silent_call _ _).bind fun segs => ?_
  cases segs with
  | none => exact .pure _
  | some segs => exact (silent_ask _).bind fun memory => .bind (.modify_of_eq fun _ => rfl) fun _ => .pure _

theorem silent_flushRound : Silent (flushRound env) := by
  refine .get_bind fun w => Steps.ite (.pure _) ?_ w
  refine (silent_detect _ _).bind fun speech => ?_
  split
  · exact .pure _
  · refine .ite (.pure _) (.ite ((silent_drainAudio _).bind fun _ => .pure _) ?_)
    exact (silent_transcribeWindow _ _ _).bind fun _ => .ite ((silent_drainAudio _).bind fun _ => .pure _) (.pure _)

theorem silent_flushAudioTail : Silent (flushAudioTail env) :=
  .get_bind fun w => Steps.ite (.pure _) (.bind (.loop silent_flushRound _) fun _ => .pure _) w

theorem silent_modify {f : WorkerState → WorkerState} (h : ∀ w, (f w).pipe = w.pipe) : Silent (modify f) := .modify_of_eq h

theorem stops_modify {f : WorkerState → WorkerState} (h : ∀ w, (f w).pipe = w.pipe) {P : PUnit → Prop} :
    Stops (modify f) P :=
  (silent_modify h).stops

/-! ## Sending -/

theorem stops_guardedIpcSend : Stops (guardedIpcSend env) (· = true) := by
  refine .get_bind fun w hw => ?_
  by_cases hguard : (w.transport.registered && w.transport.failed) = true
  · rw [if_pos hguard]
    exact Silent.stopsAt (.pure false) nofun
  · rw [if_neg hguard]
    have hintact : .failed ∉ w.writes := fun hlost => hguard (hw hlost)
    refine ⟨.single (.write _ fun _ => hintact), fun hsent => ?_, fun _ => trivial⟩
    have hsent : env.ipcSend w.tick = true := hsent
    show .failed ∈ w.writes ++ [if env.ipcSend w.tick then .sent else .failed] → _
    rw [hsent]
    intro hlost
    exact (hintact (by simpa using hlost)).elim

theorem stops_unencoded : Stops (do recordWrite .unencoded; pure false) (· = true) :=
  fun _ _ => ⟨.single (.write .unencoded nofun), nofun, fun _ => trivial⟩

theorem stops_sendFrame (bufferSize : Nat) (p : Payload) (event : UInt64 → Event) :
    Stops (sendFrame env bufferSize p event) (· = true) := by
  unfold sendFrame
  split
  · exact stops_unencoded
  · refine .andThen (stops_modify fun _ => by rfl) fun _ => ?_
    refine stops_guardedIpcSend.bind (fun header hheader => ?_) fun header hheader => ?_
    · rw [if_pos hheader]
      refine stops_guardedIpcSend.bind (fun payload hpayload => ?_) fun payload hpayload => ?_
      · exact Silent.stops (.get_bind fun w => Steps.bind (.onlyIf (silent_record _)) (fun _ => .pure _) w)
      · refine ⟨.get_bind fun w => Steps.bind (.onlyIf (silent_record _)) (fun _ => .pure _) w, fun w => ?_⟩
        exact hpayload
    · rw [if_neg hheader]
      exact ⟨.pure _, fun _ => nofun⟩

theorem stops_sendPayload (bufferSize : Nat) (p : Payload) : Stops (sendPayload env bufferSize p) (· = true) :=
  stops_sendFrame _ _ _

theorem stops_sendError (sessionId : SessionId) (code : UInt32) (recoverable : UInt8) (message : Bytes) :
    Stops (sendError env sessionId code recoverable message) (· = true) :=
  stops_sendPayload _ _

theorem stops_sendStatus (sessionId : SessionId) (sessionActive paused : Bool) :
    Stops (sendStatus env config sessionId sessionActive paused) (· = true) :=
  .andThen (silent_ask _).stops fun _ => .andThen (silent_ask _).stops fun _ => .andThen (silent_ask _).stops fun _ =>
    .get_bind fun w hw => stops_sendPayload _ _ w hw

theorem stops_sendCaptionSegment (c : Caption) : Stops (sendCaptionSegment env c) (· = true) :=
  (stops_sendFrame _ _ _).bind (fun _ _ => Silent.stops (.bind (.onlyIf (silent_record _)) fun _ => .pure _))
    fun _ hsent => ⟨.bind (.onlyIf (silent_record _)) fun _ => .pure _, fun _ => hsent⟩

theorem stops_orFatal {send : Loop Bool} (h : Stops send (· = true)) : Stops (orFatal send) fun _ => False :=
  h.bind_false (fun _ _ => Silent.stops (.onlyIf (silent_stopRunning true))) fun _ _ => .onlyIf (silent_stopRunning true)

theorem stops_tell {send : Loop Bool} (h : Stops send (· = true)) :
    Stops (do let sent ← send; onlyIf (!sent) (stopRunning true); pure sent) (· = true) :=
  h.bind (fun _ _ => Silent.stops (.bind (.onlyIf (silent_stopRunning true)) fun _ => .pure _))
    fun _ hsent => ⟨.bind (.onlyIf (silent_stopRunning true)) fun _ => .pure _, fun _ => hsent⟩

theorem stops_reportStatus : Stops (reportStatus env config) fun _ => False :=
  .get_bind fun w hw => stops_orFatal (stops_sendStatus _ _ _) w hw

theorem stops_orFatal_sendError (sessionId : SessionId) (code : UInt32) (recoverable : UInt8) (message : Bytes) :
    Stops (orFatal (sendError env sessionId code recoverable message)) fun _ => False :=
  stops_orFatal (stops_sendError _ _ _ _)

theorem stops_tellAndStop {send : Loop Bool} (h : Stops send (· = true)) (a : α) :
    Stops (do let _ ← send; stopRunning true; pure a) fun _ => False :=
  h.bind_false (fun _ _ => Silent.stops (.bind (silent_stopRunning true) fun _ => .pure a))
    fun _ _ => .bind (silent_stopRunning true) fun _ => .pure a

theorem stops_onlyIf {c : Bool} {m : Loop Unit} (h : Stops m fun _ => False) : Stops (onlyIf c m) fun _ => False :=
  SettlesAll.ite h (Silent.stops (.pure ()))

/-! ## The translator -/

theorem stops_deliverTranslation (r : TranslateResult) : Stops (deliverTranslation env r) fun _ => False :=
  .get_bind fun w hw => stops_onlyIf (stops_orFatal (stops_sendCaptionSegment _)) w hw

theorem stops_diagDeliver (r : TranslateResult) : Stops (diagDeliver env r) fun _ => False := by
  refine .get_bind fun w hw => ?_
  split
  · refine SettlesAll.ite ?_ (stops_deliverTranslation r) w hw
    refine (stops_sendError _ _ _ _).bind_false (fun sent hsent => ?_) fun sent hsent => ?_
    · rw [if_pos hsent]
      exact stops_deliverTranslation r
    · rw [if_neg hsent]
      exact silent_markTransportFailed.bind fun _ => (silent_stopRunning true).bind fun _ => silent_record _
  · exact stops_deliverTranslation r w hw

theorem stops_tryDeliverScoped : Stops (tryDeliverScoped env) fun _ => False := by
  refine .andThen (stops_modify fun _ => by rfl) fun _ => .get_bind fun w hw => ?_
  refine SettlesAll.ite (Silent.stops ((silent_stopRunning true).bind fun _ => .pure _)) ?_ w hw
  refine .andThen silent_runThreads.stops fun _ => .get_bind fun v hv => ?_
  split
  · exact Silent.stops (.pure _) v hv
  · dsimp only
    refine Settles.andThen (stopsAt_modify hv rfl) fun _ u hu => ?_
    split
    · exact Silent.stops (.pure _) u hu
    · exact (stops_diagDeliver _).bind_false (fun _ h => h.elim) (fun _ _ => .pure _) u hu

theorem stops_deliverRound : Stops (deliverRound env) fun _ => False :=
  stops_tryDeliverScoped.bind_false (fun _ h => h.elim) fun _ _ => .pure _

/-! ## Draining -/

/-- While the worker is running, its pipe is sound. -/
theorem sound_of_running {w : WorkerState} (hw : w.health.Clean) (hrunning : w.running = true) : w.pipe.Sound :=
  fun hlost => (hw hrunning hlost).elim

theorem loadRunning_running (w : WorkerState) : Ends (loadRunning env) w fun running v => running = v.running := by
  refine Ends.bind (m := ask env.readerFailed) (P := fun _ _ => True) trivial fun failed t _ => ?_
  cases failed <;> rfl

theorem pipeAt_loadRunning {w : WorkerState} (hw : w.health.Ok) {m : Bool → Loop α} (hstopped : Silent (m false))
    (hm : Stops (m true) fun _ => False) : PipeAt w (do let running ← loadRunning env; m running) := by
  refine StepsAt.bind (silent_loadRunning.pipeAt w) ?_
  have hok : ((loadRunning env).run w).2.health.Ok :=
    Heeds.ok env heeds_loadRunning hw
  have hsame : ((loadRunning env).run w).1 = ((loadRunning env).run w).2.running := loadRunning_running w
  cases hrunning : ((loadRunning env).run w).1 with
  | false => exact hstopped.pipeAt _
  | true => exact (hm _ (sound_of_running hok.2 (hsame.symm.trans hrunning))).1

theorem pipeAt_drainRound {w : WorkerState} (hw : w.health.Ok) : PipeAt w (drainRound env) := by
  refine pipeAt_loadRunning hw (.pure _) ?_
  refine .andThen silent_runThreads.stops fun _ => .get_bind fun v hv => SettlesAll.ite ?_ ?_ v hv
  · exact stops_tryDeliverScoped.bind_false (fun _ h => h.elim) fun _ _ => .pure _
  · exact Silent.stops ((silent_record _).bind fun _ => .pure _)

theorem pipeAt_drainTranslation {w : WorkerState} (hw : w.health.Ok) : PipeAt w (drainTranslation env) := by
  refine StepsAt.bind ((silent_ask env.drainPolls).pipeAt w) ?_
  have hround (v : WorkerState) (hv : v.health.Ok) : ((drainRound env).run v).2.health.Ok :=
    Heeds.ok env heeds_drainRound hv
  have hloop (v : WorkerState) (hv : v.health.Ok) (fuel : Nat) : PipeAt v (loop fuel (drainRound env)) :=
    StepsAt.loop_of_heads hround hv fun u _ hu => pipeAt_drainRound hu
  exact StepsAt.bind (hloop _ (Heeds.ok env (heeds_ask env.drainPolls) hw) _) .refl

theorem pipeAt_drainIf {w : WorkerState} (hw : w.health.Ok) (c : Bool) : PipeAt w (drainIf env c) := by
  unfold drainIf
  split
  · exact pipeAt_drainTranslation hw
  · exact .refl

/-! ## Emission -/

theorem stops_reportLocalRejection (c : Caption) : Stops (reportLocalRejection env c) (· = true) := by
  refine .get_bind fun v hv => ?_
  split
  · exact stops_unencoded v hv
  · exact stops_sendError _ _ _ _ v hv

theorem reportLocalRejection_transport (c : Caption) (w : WorkerState) :
    Ends (reportLocalRejection env c) w fun _ t => t.transport = w.transport :=
  field_of_unsent ((spares_reportLocalRejection c).eq w) WorkerState.transport fun _ => rfl

/-- A refused cue that cannot be blamed shuts a pipe that is registered. -/
theorem stopsAt_blameRefusal {w : WorkerState} (hw : w.pipe.Sound) (hregistered : w.transport.registered = true)
    (c : Caption) : StopsAt w (blameRefusal env c) fun _ => True := by
  refine (stops_reportLocalRejection c w hw).bind_ends (reportLocalRejection_transport c w)
    (fun reported t _ hreported ht => ?_) fun reported t hsame hreported _ => ?_
  · rw [if_pos hreported]
    exact Silent.stops (.pure _) t ht
  · rw [if_neg hreported]
    have hmarked : StopsAt t markTransportFailed fun _ => True := by
      refine ⟨silent_markTransportFailed.pipeAt t, fun _ _ => markTransportFailed_shut ?_, fun _ => trivial⟩
      rw [hsame]
      exact hregistered
    exact hmarked.andThen fun _ u hu => Silent.stops ((silent_record _).bind fun _ => .pure _) u hu

theorem stopsAt_submitScoped {w : WorkerState} (hw : w.pipe.Sound)
    (hregistered : w.translator.isSome = true → w.transport.registered = true) (c : Caption) :
    StopsAt w (submitScoped env c) fun _ => True := by
  refine Settles.get_bind (Settles.ite (Silent.stops ((silent_record _).bind fun _ => .pure _) w hw) ?_)
  have hthreads : Ends (runThreads env) w fun _ t => t.transport = w.transport ∧ t.translator.isSome = w.translator.isSome :=
    ⟨rfl, Option.isSome_map⟩
  refine (Silent.stops (P := fun _ => True) silent_runThreads w hw).bind_ends hthreads (fun _ t hsame _ ht => ?_)
    fun _ _ _ h => (h trivial).elim
  refine Settles.get_bind ?_
  split
  · exact Silent.stops (.pure _) t ht
  · rename_i t' ht'
    dsimp only
    have htransport : t.transport.registered = true := by
      rw [hsame.1]
      exact hregistered (hsame.2.symm.trans (congrArg Option.isSome ht'))
    refine Settles.bind_ends (E := fun _ u => u.transport.registered = true) (stopsAt_modify ht rfl) htransport
      (fun _ u hu _ hsound => ?_) fun _ _ _ h => (h trivial).elim
    exact .ite (Silent.stops (.pure _) u hsound) (stopsAt_blameRefusal hsound hu c)

theorem stopsAt_emitSegment {w : WorkerState} (hw : w.pipe.Sound) (hok : w.health.Ok) (cue : Cue) (attempted : Bool) :
    StopsAt w (emitSegment env cue attempted) (· = true) := by
  refine Settles.get_bind ?_
  dsimp only
  split
  · rename_i hoffer
    simp only [Bool.and_eq_true] at hoffer
    refine (stopsAt_submitScoped hw (hok.1.2.1 hoffer.1.1) _).andThen fun submitted t ht => ?_
    exact .ite (.pure ht rfl) (stops_sendCaptionSegment _ t ht)
  · exact stops_sendCaptionSegment _ w hw

theorem popSegment_keeps (env : Env) {w : WorkerState} (hw : w.pipe.Sound) (hok : w.health.Ok) :
    Ends popSegment w fun _ v => v.pipe.Sound ∧ v.health.Ok :=
  ⟨silent_popSegment.sound hw, Heeds.ok env heeds_popSegment hok⟩

theorem stopsAt_emitRound {w : WorkerState} (hw : w.pipe.Sound) (hok : w.health.Ok) :
    StopsAt w (emitRound env) fun _ => False := by
  refine (Silent.stops (P := fun _ => True) silent_popSegment w hw).bind_ends (popSegment_keeps env hw hok)
    (fun popped v hv _ _ => ?_) fun _ _ _ h => (h trivial).elim
  cases popped with
  | none => exact Silent.stops (.pure _) v hv.1
  | some cue =>
    have hsend : StopsAt v (orFatal (emitSegment env cue false)) fun _ => False := by
      refine (stopsAt_emitSegment hv.1 hv.2 cue false).bind (fun sent t _ ht => ?_) fun sent t _ _ => ?_
      · exact Silent.stops (.onlyIf (silent_stopRunning true)) t ht
      · exact Silent.stopsAt_false (.onlyIf (silent_stopRunning true)) t
    exact hsend.bind (fun _ _ h => h.elim) fun _ t _ _ => Silent.stopsAt_false (.pure _) t

theorem stopsAt_tailRound {w : WorkerState} (hw : w.pipe.Sound) (hok : w.health.Ok) (attempted : Bool) :
    StopsAt w (tailRound env attempted) (· ≠ some false) := by
  refine (Silent.stops (P := fun _ => True) silent_popSegment w hw).bind_ends (popSegment_keeps env hw hok)
    (fun popped v hv _ _ => ?_) fun _ _ _ h => (h trivial).elim
  cases popped with
  | none => exact .pure hv.1 (by simp)
  | some cue =>
    refine (stopsAt_emitSegment hv.1 hv.2 cue attempted).bind (fun sent t hsent ht => ?_) fun sent t hsent _ => ?_
    · subst hsent
      exact .pure ht nofun
    · rw [Bool.not_eq_true] at hsent
      subst hsent
      exact ⟨.refl, fun h => (h rfl).elim, fun _ => trivial⟩

theorem stopsAt_emitTailSegments {w : WorkerState} (hw : w.pipe.Sound) (hok : w.health.Ok) :
    StopsAt w (emitTailSegments env) (· = true) := by
  have hloop : Settles WorkerState.pipe Pipe.Step (fun w => w.pipe.Sound ∧ w.health.Ok) (fun _ => True) w
      (loop (w.builder.queue.count + 1) (tailRound env w.translateEnabled)) (· ≠ some false) := by
    refine SettlesAll.loop (fun v hv => ?_) nofun _ w ⟨hw, hok⟩
    have hstops : StopsAt v (tailRound env w.translateEnabled) (· ≠ some false) := stopsAt_tailRound hv.1 hv.2 _
    have hheeds : HeedsAt env (fun _ => True) v (tailRound env w.translateEnabled) (· ≠ some false) :=
      heeds_tailRound _ v hv.2
    exact ⟨hstops.1, fun h => ⟨hstops.2.1 h, hheeds.2.1 h⟩, fun _ => trivial⟩
  have hsound : StopsAt w (loop (w.builder.queue.count + 1) (tailRound env w.translateEnabled)) (· ≠ some false) :=
    ⟨hloop.1, fun h => (hloop.2.1 h).1, fun _ => trivial⟩
  refine Settles.get_bind (hsound.bind (fun r t _ ht => Silent.stops (.pure _) t ht) fun r t hr _ => ?_)
  obtain rfl := not_not.mp hr
  exact ⟨.refl, nofun, fun _ => trivial⟩

/-! ## START_SESSION, POSITION -/

theorem stops_openSource (p : Start) : Stops (openSource env p) (· = true) := by
  refine .ite ?_ (Silent.stops (.bind (silent_modify fun _ => by rfl) fun _ => .pure _))
  refine .andThen (silent_call _ _).stops fun opened => .ite (Silent.stops ?_) ?_
  · refine .bind (silent_modify fun _ => by rfl) fun _ => .bind (.onlyIf ?_) fun _ => .pure _
    exact (silent_ask _).bind fun seeked => .onlyIf (silent_modify fun _ => by rfl)
  · exact .andThen (stops_modify fun _ => by rfl) fun _ => stops_tell (stops_sendError _ _ _ _)

theorem stops_announce (sessionId : SessionId) :
    Stops (do
      let w ← get
      let started ← sendPayload env 17
        (.started ⟨sessionId, if w.sourceMode then sourceActiveActive else sourceActiveInactive⟩)
      if started then reportStatus env config else stopRunning true) fun _ => False := by
  refine .get_bind fun w hw => ?_
  refine (stops_sendPayload _ _).bind_false (fun started hstarted => ?_) (fun started hstarted => ?_) w hw
  · rw [if_pos hstarted]
    exact stops_reportStatus
  · rw [if_neg hstarted]
    exact silent_stopRunning true

theorem stops_handleStart (p : Start) : Stops (handleStart env config p) fun _ => False := by
  refine .get_bind fun w hw => SettlesAll.ite (stops_orFatal_sendError _ _ _ _) ?_ w hw
  refine .andThen (Silent.stops (.onlyIf (silent_modify fun _ => by rfl))) fun _ => ?_
  refine .ite (stops_orFatal_sendError _ _ _ _) (.ite (stops_orFatal_sendError _ _ _ _)
    (.ite (stops_orFatal_sendError _ _ _ _) ?_))
  refine .andThen (stops_modify fun _ => by rfl) fun _ => ?_
  refine (stops_openSource p).bind_false (fun goOn _ => stops_onlyIf (stops_announce p.sessionId)) fun goOn hgoOn => ?_
  rw [Bool.not_eq_true] at hgoOn
  subst hgoOn
  exact .pure ()

theorem silent_changePause (p : Position) : Silent (changePause env p) := by
  refine .bind (silent_modify fun _ => by rfl) fun _ => .get_bind fun w => Steps.ite (silent_modify fun _ => by rfl) ?_ w
  exact .onlyIf ((silent_ask _).bind fun seeked => .onlyIf (silent_modify fun _ => by rfl))

theorem stops_followPause (p : Position) : Stops (followPause env config p) (· = true) := by
  refine .get_bind fun w hw => SettlesAll.ite (Silent.stops (.pure _)) ?_ w hw
  refine .andThen (silent_changePause p).stops fun _ => ?_
  exact .get_bind fun v hv => stops_tell (stops_sendStatus _ _ _) v hv

theorem silent_followSource (p : Position) : Silent (followSource env p) := by
  have hseek : Silent (seekTo env p) :=
    (silent_ask _).bind fun seeked => .ite (silent_modify fun _ => by rfl) (silent_modify fun _ => by rfl)
  refine .get_bind fun w => Steps.bind (.onlyIf hseek) (fun _ => .get_bind fun v => ?_) w
  exact Steps.onlyIf (silent_modify fun _ => by rfl) v

theorem stops_handlePosition (p : Position) : Stops (handlePosition env config p) fun _ => False := by
  have hrest : Silent (do
      let w ← get
      if w.sourceMode && w.sourceDecoder.isSome then followSource env p
      else modify fun w => { w with currentPlaybackPtsUs := p.currentPtsUs.toInt }) :=
    .get_bind fun v => Steps.ite (silent_followSource p) (silent_modify fun _ => by rfl) v
  refine .get_bind fun w hw => stops_onlyIf ?_ w hw
  exact (stops_followPause p).bind_false (fun _ _ => Silent.stops (.onlyIf hrest)) fun _ _ => .onlyIf hrest

/-! ## PAUSE, RESUME, STOP_SESSION -/

theorem stops_handlePause (p : Control) : Stops (handlePause env config p) fun _ => False :=
  .get_bind fun w hw => stops_onlyIf (.andThen (stops_modify fun _ => by rfl) fun _ => stops_reportStatus) w hw

theorem stops_handleResume (p : Control) : Stops (handleResume env config p) fun _ => False := by
  refine .get_bind fun w hw => stops_onlyIf (.andThen (stops_modify fun _ => by rfl) fun _ => ?_) w hw
  refine .andThen (Silent.stops (.onlyIf ?_)) fun _ => stops_reportStatus
  exact (silent_ask _).bind fun seeked => .onlyIf (silent_modify fun _ => by rfl)

theorem stopsAt_finishTail {w : WorkerState} (hw : w.pipe.Sound) (hok : w.health.Ok) (hengine : w.engine = true)
    (failure : Bytes) {afterwards : Loop Unit} (hafter : Stops afterwards fun _ => False) :
    StopsAt w (finishTail env failure afterwards) fun _ => False := by
  have hflushed : Ends (flushAudioTail env) w fun _ t => t.health.Ok := by
    have hhears : HearsAt env (fun _ => True) w (flushAudioTail env) (· = true) := hearsAt_flushAudioTail hok hengine
    by_cases h : ((flushAudioTail env).run w).1 = true
    · exact hhears.2.1 h
    · exact (hhears.2.2 h).1
  refine (Silent.stops (P := fun _ => True) silent_flushAudioTail w hw).bind_ends hflushed
    (fun flushed t htok _ ht => ?_) fun _ _ _ h => (h trivial).elim
  refine .ite ?_ ?_
  · exact SettlesAll.get_bind (fun v hv => stops_tellAndStop (stops_sendError _ _ _ _) PUnit.unit v hv) t ht
  · refine (stopsAt_emitTailSegments ht htok).bind (fun sent u hsent hu => ?_) fun sent u hsent _ => ?_
    · rw [if_neg (by simp [hsent])]
      exact hafter u hu
    · rw [if_pos (by simp [hsent])]
      exact (silent_stopRunning true).stopsAt_false u

theorem pipeAt_finishTailIf {w : WorkerState} (hw : w.pipe.Sound) (hok : w.health.Ok) {c : Bool}
    (hc : c = true → 0 < w.audioBuf.count) (failure : Bytes) {afterwards : Loop Unit}
    (hafter : Stops afterwards fun _ => False) (hheeds : Heeds env (fun _ => True) afterwards fun _ => True) (drains : Bool)
    {f : Bool → Loop α} (hf : ∀ drained t, t.health.Ok → PipeAt t (f drained)) :
    PipeAt w (do onlyIf c (finishTail env failure afterwards); let drained ← drainIf env drains; f drained) := by
  have htail : PipeAt w (onlyIf c (finishTail env failure afterwards)) := by
    unfold onlyIf
    split
    · rename_i h
      exact (stopsAt_finishTail hw hok (engine_of_session hok (.inr (hc h))) _ hafter).1
    · exact .refl
  have htok := HeedsAt.ok env (heedsAt_finishTailIf hok hc failure hheeds)
  exact htail.bind ((pipeAt_drainIf htok drains).bind (hf _ _ (Heeds.ok env (heeds_drainIf drains) htok)))

theorem pipeAt_handleStop {w : WorkerState} (hw : w.pipe.Sound) (hok : w.health.Ok) (p : Control) :
    PipeAt w (handleStop env config p) := by
  refine StepsAt.get_bind ?_
  split
  · exact .refl
  refine pipeAt_finishTailIf hw hok hasTail_of_and _ (Silent.stops (.pure ())) (.pure trivial) _ fun drained t ht => ?_
  split
  · exact .refl
  · have hended : t.endSession.health.Ok := Heeds.ok env (heeds_end health_endSession) ht
    refine StepsAt.bind (m := modify WorkerState.endSession) (.of_eq rfl) ?_
    refine pipeAt_loadRunning (m := fun running => do
      onlyIf running (orFatal (sendStatus env config w.sessionId false false))
      pure Flow.proceed) hended ?_ ?_
    · exact Steps.bind (.pure ()) fun _ => .pure _
    · exact (stops_onlyIf (stops_orFatal (stops_sendStatus _ _ _))).bind_false (fun _ h => h.elim) fun _ _ => .pure _

/-! ## MODEL_CTRL -/

theorem stops_sendModelProgress (sessionId : SessionId) (p : DownloadProgress) :
    Stops (orFatal (sendModelProgress env sessionId p)) fun _ => False :=
  stops_orFatal (stops_sendPayload _ _)

theorem stops_handleModelCtrl (p : ModelCtrl) : Stops (handleModelCtrl env config p) fun _ => False := by
  have hrefuse (sessionId : SessionId) (modelId : Bytes) : Stops (refuseDownload env sessionId modelId) fun _ => False :=
    stops_sendModelProgress _ _
  have hactive : Silent (isDownloading env) :=
    .get_bind fun w => Steps.ite ((silent_ask _).bind fun cur => .pure _) (.pure _) w
  refine .get_bind fun w hw => SettlesAll.ite (.ite (hrefuse _ _) ?_) (stops_onlyIf (stops_sendModelProgress _ _)) w hw
  refine .andThen hactive.stops fun active => .ite (hrefuse _ _) ?_
  refine .andThen (Silent.stops (.onlyIf (silent_modify fun _ => by rfl))) fun _ => ?_
  refine .andThen (silent_call _ _).stops fun started => ?_
  exact .andThen (stops_modify fun _ => by rfl) fun _ => stops_onlyIf (hrefuse _ _)

/-! ## SHUTDOWN, HELLO -/

theorem pipeAt_handleShutdown {w : WorkerState} (hw : w.pipe.Sound) (hok : w.health.Ok) :
    PipeAt w (handleShutdown env config) := by
  refine StepsAt.get_bind ?_
  refine pipeAt_finishTailIf hw hok hasTail_of_and _ stops_reportStatus heeds_reportStatus _ fun drained t _ => ?_
  have hclosed : Silent (do
      modify fun w => { w with sourceDecoder := none, sourceMode := w.sourceMode && w.sourceDecoder.isNone }
      stopRunning false
      pure Flow.proceed) :=
    (silent_modify fun _ => by rfl).bind fun _ => (silent_stopRunning false).bind fun _ => .pure _
  split
  · exact .refl
  · exact hclosed.pipeAt t

theorem stops_sendHelloAck : Stops (sendHelloAck env) (· = true) := by
  unfold sendHelloAck
  split
  · exact stops_unencoded
  · refine stops_guardedIpcSend.bind (fun header hheader => ?_) fun header hheader => ?_
    · rw [if_pos hheader]
      refine stops_guardedIpcSend.bind (fun payload _ => ?_) fun payload hpayload => ?_
      · exact Silent.stops (.bind (.onlyIf (silent_record _)) fun _ => .pure _)
      · exact ⟨.bind (.onlyIf (silent_record _)) fun _ => .pure _, fun _ => hpayload⟩
    · rw [if_neg hheader]
      exact ⟨.pure _, fun _ => nofun⟩

theorem silent_leave : Silent (do setFatalExit; pure Flow.leave) := silent_setFatalExit.bind fun _ => .pure _

/-- The worker is left if it cannot answer the HELLO. -/
theorem stops_handleHello (p : Payload) : Stops (handleHello env config p) fun _ => False := by
  unfold handleHello
  split
  · refine .ite ?_ (.ite silent_leave.stops (.andThen (stops_modify fun _ => by rfl) fun _ => ?_))
    · exact (stops_sendError _ _ _ _).bind_false (fun _ _ => silent_leave.stops) fun _ _ => silent_leave
    · refine stops_sendHelloAck.bind_false (fun sent hsent => ?_) fun sent hsent => ?_
      · rw [if_pos hsent]
        exact Silent.stops (.pure _)
      · rw [if_neg hsent]
        exact (silent_stopRunning true).bind fun _ => .pure _
  · exact silent_leave.stops

theorem stops_rejectFrame (p : Option Payload) : Stops (rejectFrame env p) fun _ => False := by
  refine .get_bind fun w hw => ?_
  split
  · refine SettlesAll.ite ?_ silent_leave.stops w hw
    refine (stops_sendError _ _ _ _).bind_false (fun sent hsent => ?_) fun sent hsent => ?_
    · rw [if_pos hsent]
      exact Silent.stops (.pure _)
    · rw [if_neg hsent]
      exact silent_leave
  · exact silent_leave.stops w hw

end VlcWhisper.Worker
