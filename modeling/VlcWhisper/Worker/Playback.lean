import VlcWhisper.Worker.PauseAgreement

/-!
# Where a session plays (`vw_worker.c`)

`Playback` is what a session knows of its source: whether it is open, where it plays, and whether a seek failed. A
START begins it anew and a POSITION takes it elsewhere; `Playback.Step` says what the rest of the main loop can do to it. While the source is open the two positions of a session agree (`anchored_run`), and so a seek that fails has nothing
to undo. Main result: `failedSeek_unchanged`.
-/

namespace VlcWhisper.Worker

open VlcWhisper.Lib VlcWhisper.Protocol SegmentBuilder Relation

variable {env : Env} {config : Config} {α : Type}

/-! ## Playback and its steps -/

structure Playback where
  sessionId : SessionId
  sessionActive : Bool
  opened : Bool
  currentPlaybackPtsUs : Int
  lastPlaybackPtsUs : Int
  seekFailedPending : Bool

def WorkerState.playback (w : WorkerState) : Playback where
  sessionId := w.sessionId
  sessionActive := w.sessionActive
  opened := w.opened
  currentPlaybackPtsUs := w.currentPlaybackPtsUs
  lastPlaybackPtsUs := w.lastPlaybackPtsUs
  seekFailedPending := w.seekFailedPending

/-- The same of a session. -/
def Session.playback (s : Session) : Playback where
  sessionId := s.sessionId
  sessionActive := s.sessionActive
  opened := s.sourceMode && s.sourceDecoder.isSome
  currentPlaybackPtsUs := s.currentPlaybackPtsUs
  lastPlaybackPtsUs := s.lastPlaybackPtsUs
  seekFailedPending := s.seekFailedPending

namespace Playback

/-- What happens to the playback of a session that is not begun and not moved. -/
inductive Step (p : Playback) : Playback → Prop
  | stop (pending : Bool) (lastPtsUs : Int) :
      Step p { p with sessionActive := false, opened := false, seekFailedPending := pending
                      lastPlaybackPtsUs := lastPtsUs }
  | close : Step p { p with opened := false }
  | anchor (ptsUs : Int) : Step p { p with currentPlaybackPtsUs := ptsUs, lastPlaybackPtsUs := ptsUs }

/-- An open source is where the client last said. -/
def Anchored (p : Playback) : Prop := p.opened = true → p.currentPlaybackPtsUs = p.lastPlaybackPtsUs

theorem anchored_step (p q : Playback) (_ : p.Anchored) (h : Step p q) : q.Anchored := by
  cases h with
  | stop => exact nofun
  | close => exact nofun
  | anchor ptsUs => exact fun _ => rfl

/-- The session is over, or it goes on with what it knows of failed seeks. -/
def GoesOn (p q : Playback) : Prop :=
  q.sessionActive = true →
    p.sessionActive = true ∧ q.sessionId = p.sessionId ∧ q.seekFailedPending = p.seekFailedPending

theorem GoesOn.refl (p : Playback) : p.GoesOn p := fun hactive => ⟨hactive, rfl, rfl⟩

theorem GoesOn.trans {p q r : Playback} (hpq : p.GoesOn q) (hqr : q.GoesOn r) : p.GoesOn r := by
  intro hactive
  obtain ⟨hq, hid, hpending⟩ := hqr hactive
  obtain ⟨hp, hid', hpending'⟩ := hpq hq
  exact ⟨hp, hid.trans hid', hpending.trans hpending'⟩

theorem goesOn_step (p q : Playback) (h : Step p q) : p.GoesOn q := by
  cases h with
  | stop => exact nofun
  | close => exact fun hactive => ⟨hactive, rfl, rfl⟩
  | anchor ptsUs => exact fun hactive => ⟨hactive, rfl, rfl⟩

theorem goesOn_steps {p q : Playback} (h : ReflTransGen Step p q) : p.GoesOn q :=
  steps_invariant (fun c d hc hstep => hc.trans (goesOn_step c d hstep)) h (.refl p)

end Playback

/-- The program makes such steps only. -/
abbrev Plays (m : Loop α) : Prop := Steps WorkerState.playback Playback.Step m

theorem Plays.anchored {m : Loop α} (h : Plays m) : Preserves (fun w => w.playback.Anchored) m :=
  fun w hw => steps_invariant Playback.anchored_step (h w) hw

theorem Plays.goesOn {m : Loop α} (h : Plays m) (w : WorkerState) : Ends m w fun _ v => w.playback.GoesOn v.playback :=
  Playback.goesOn_steps (h w)

/-! ## Sending and listening -/

theorem plays_modify {f : WorkerState → WorkerState} (h : ∀ w, (f w).playback = w.playback) : Plays (modify f) :=
  .modify_of_eq h

theorem plays_of_emitted {m : Loop α} (h : Spares WorkerState.unemitted m) : Plays m :=
  fun w => .of_eq ((h.comp WorkerState.playback).eq w)

theorem plays_of_translated {m : Loop α} (h : Spares WorkerState.untranslated m) : Plays m :=
  plays_of_emitted (spares_unemitted h)

theorem plays_of_sent {m : Loop α} (h : Spares WorkerState.unsent m) : Plays m :=
  plays_of_translated (spares_untranslated h)

theorem plays_call (service : Service) (answer : Nat → α) : Plays (call service answer) := fun _ => .of_eq rfl

theorem plays_detect (window : List SessionId) (answer : Nat → α) : Plays (detect window answer) := fun _ => .of_eq rfl

theorem plays_drainAudio (samples : Nat) : Plays (drainAudio samples) := plays_modify fun _ => rfl

theorem plays_setNextInference (samples : Nat) :
    Plays (modify fun w => { w with liveNextInferenceSamples := samples }) :=
  plays_modify fun _ => rfl

theorem plays_refuse (sessionId : SessionId) (code : UInt32) (recoverable : UInt8) (message : Bytes) :
    Plays (orFatal (sendError env sessionId code recoverable message)) :=
  plays_of_sent (spares_orFatal (spares_sendError _ _ _ _))

theorem plays_giveUp (sessionId : SessionId) (code : UInt32) (recoverable : UInt8) (message : Bytes) (a : α) :
    Plays (do let _ ← sendError env sessionId code recoverable message; stopRunning true; pure a) :=
  (plays_of_sent (spares_sendError _ _ _ _)).bind fun _ => (plays_of_sent (spares_stopRunning true)).bind fun _ => .pure a

theorem plays_transcribeWindow (window : List SessionId) (windowPtsUs : Int) (limitUs : Option Int) :
    Plays (transcribeWindow env window windowPtsUs limitUs) := by
  refine (plays_call _ _).bind fun segs => ?_
  cases segs with
  | none => exact .pure _
  | some segs =>
    refine (plays_of_sent (spares_ask _)).bind fun memory => .bind (plays_modify fun _ => ?_) fun _ => .pure _
    rfl

theorem plays_flushRound : Plays (flushRound env) := by
  refine .get_bind fun w => Steps.ite (.pure _) ?_ w
  generalize w.audioBuf.getSamples chunkMaxSamples = samples
  refine (plays_detect _ _).bind fun speech => ?_
  split
  · exact .pure _
  · refine .ite (.pure _) (.ite ((plays_drainAudio _).bind fun _ => .pure _) ?_)
    refine (plays_transcribeWindow _ _ _).bind fun transcribed => .ite ?_ (.pure _)
    exact (plays_drainAudio _).bind fun _ => .pure _

theorem plays_flushAudioTail : Plays (flushAudioTail env) :=
  .get_bind fun w => Steps.ite (.pure _) (.bind (.loop plays_flushRound _) fun _ => .pure _) w

theorem plays_inferWindow (window : List SessionId) (windowPtsUs : Int) (growing : Bool) :
    Plays (inferWindow env window windowPtsUs growing) := by
  refine .get_bind fun w => Steps.ite (.pure _) ?_ w
  refine (plays_detect _ _).bind fun speech => .ite ?_ (.pure _)
  exact plays_transcribeWindow _ _ _

theorem plays_inferRound : Plays (inferRound env config) := by
  refine .get_bind fun w => Steps.ite (.pure _) ?_ w
  generalize w.audioBuf.getSamples (min w.audioBuf.count windowSamples) = samples
  obtain ⟨window, windowPtsUs⟩ := samples
  refine (plays_inferWindow window windowPtsUs _).bind fun inferred => .ite (plays_giveUp _ _ _ _ _) (.ite ?_ ?_)
  · refine (plays_setNextInference _).bind fun _ => (plays_of_sent spares_loadRunning).bind fun running => ?_
    exact .bind (.onlyIf (plays_of_sent spares_reportStatus)) fun _ => .pure _
  · refine (plays_of_sent spares_loadRunning).bind fun running => .ite (.pure _) ?_
    refine (plays_setNextInference _).bind fun _ => (plays_drainAudio _).bind fun _ => ?_
    exact (plays_of_sent spares_reportStatus).bind fun _ => .pure _

theorem plays_chunkRound : Plays (chunkRound env config) := by
  have hchunk (chunk : List SessionId) (ptsUs : Int) : Plays (transcribeChunk env chunk ptsUs) :=
    .get_bind fun w => Steps.ite (plays_transcribeWindow _ _ _) (.pure _) w
  refine .get_bind fun w => Steps.ite (.pure _) ?_ w
  generalize w.audioBuf.getSamples chunkMaxSamples = samples
  refine (plays_detect _ _).bind fun speech => ?_
  split
  · exact .pure _
  · refine .ite ((plays_drainAudio _).bind fun _ => .pure _) (.ite ?_ (.pure _))
    refine (hchunk _ _).bind fun transcribed => .ite (plays_giveUp _ _ _ _ _) ?_
    refine (plays_of_sent spares_loadRunning).bind fun running => .ite (.pure _) ?_
    exact (plays_drainAudio _).bind fun _ => (plays_of_sent spares_reportStatus).bind fun _ => .pure _

/-! ## Frames -/

theorem opened_of_closed {w : WorkerState} (h : w.sourceDecoder = none) : w.opened = false := by
  rw [WorkerState.opened, h]
  exact Bool.and_false _

theorem plays_handleAudio (p : Audio) : Plays (handleAudio env config p) := by
  refine .get_bind fun w => Steps.onlyIf (.ite (plays_modify fun _ => ?_) (.onlyIf ?_)) w
  · rfl
  · refine .bind (plays_modify fun _ => ?_) fun _ => .get_bind fun v => ?_
    · rfl
    · exact Steps.bind (.loop plays_inferRound _) (fun _ => .pure _) v

theorem plays_handlePause (p : Control) : Plays (handlePause env config p) := by
  refine .get_bind fun w => Steps.onlyIf (.bind (plays_modify fun _ => ?_) fun _ => plays_of_sent spares_reportStatus) w
  rfl

theorem plays_handleResume (p : Control) : Plays (handleResume env config p) := by
  refine .get_bind fun w => Steps.onlyIf (.bind (plays_modify fun _ => ?_) fun _ => .bind ?_ fun _ => ?_) w
  · rfl
  · refine Steps.onlyIf ((plays_of_sent (spares_ask _)).bind fun seeked => .onlyIf (.modify fun v => ?_))
    exact .single (.anchor v.currentPlaybackPtsUs)
  · exact plays_of_sent spares_reportStatus

theorem plays_followPause (p : Position) : Plays (followPause env config p) := by
  have hchange : Plays (changePause env p) := by
    refine .bind (plays_modify fun _ => by rfl) fun _ => .get_bind fun v => Steps.ite (plays_modify fun _ => ?_) ?_ v
    · rfl
    · refine Steps.onlyIf ((plays_of_sent (spares_ask _)).bind fun seeked => .onlyIf (.modify fun u => ?_))
      exact .single (.anchor p.currentPtsUs.toInt)
  refine .get_bind fun w => Steps.ite (.pure _) (hchange.bind fun _ => .get_bind fun v => ?_) w
  refine Steps.bind (plays_of_sent (spares_sendStatus _ _ _)) (fun sent => ?_) v
  exact .bind (.onlyIf (plays_of_sent (spares_stopRunning true))) fun _ => .pure _

theorem plays_finishTail (failure : Bytes) {afterwards : Loop Unit} (hafter : Plays afterwards) :
    Plays (finishTail env failure afterwards) := by
  refine plays_flushAudioTail.bind fun flushed => .ite (.get_bind fun w => ?_) ?_
  · exact Steps.bind (plays_of_sent (spares_sendError _ _ _ _)) (fun _ => plays_of_sent (spares_stopRunning true)) w
  · exact (plays_of_emitted spares_emitTailSegments).bind fun sent => .ite (plays_of_sent (spares_stopRunning true)) hafter

theorem plays_handleStop (p : Control) : Plays (handleStop env config p) := by
  refine .get_bind fun w => Steps.ite (.pure _) (.bind (.onlyIf (plays_finishTail _ (.pure ()))) fun _ => ?_) w
  refine (plays_of_translated (spares_drainIf _)).bind fun drained => .ite (.pure _) ?_
  refine .bind (.modify fun v => ?_) fun _ => ?_
  · have hstop : v.endSession.playback = { v.playback with
        sessionActive := false, opened := false, seekFailedPending := false, lastPlaybackPtsUs := -1 } := by
      unfold WorkerState.playback
      rw [opened_of_closed (w := v.endSession) rfl]
      rfl
    rw [hstop]
    exact .single (.stop false (-1))
  · refine (plays_of_sent spares_loadRunning).bind fun running => .bind (.onlyIf ?_) fun _ => .pure _
    exact plays_of_sent (spares_orFatal (spares_sendStatus _ _ _))

theorem plays_handleTranslateCtrl (p : TranslateCtrl) : Plays (handleTranslateCtrl p) := by
  refine .get_bind fun w => Steps.onlyIf (plays_modify fun _ => ?_) w
  rfl

theorem plays_progress (sessionId : SessionId) (p : DownloadProgress) :
    Plays (orFatal (sendModelProgress env sessionId p)) :=
  plays_of_sent (spares_orFatal (spares_sendModelProgress _ _))

theorem plays_handleModelCtrl (p : ModelCtrl) : Plays (handleModelCtrl env config p) := by
  have hdownloading : Plays (isDownloading env) :=
    .get_bind fun w => Steps.ite ((plays_of_sent (spares_ask _)).bind fun _ => .pure _) (.pure _) w
  refine .get_bind fun w => Steps.ite (.ite (plays_progress _ _) (hdownloading.bind fun active => ?_)) ?_ w
  · refine .ite (plays_progress _ _) (.bind (.onlyIf (plays_modify fun _ => by rfl)) fun _ => (plays_call _ _).bind fun _ => ?_)
    exact .bind (plays_modify fun _ => by rfl) fun _ => .onlyIf (plays_progress _ _)
  · exact .onlyIf (plays_progress _ _)

theorem plays_handleShutdown : Plays (handleShutdown env config) := by
  refine .get_bind fun w => Steps.bind (.onlyIf (plays_finishTail _ (plays_of_sent spares_reportStatus))) (fun _ => ?_) w
  refine (plays_of_translated (spares_drainIf _)).bind fun drained => .ite (.pure _) ?_
  refine .bind (.modify fun v => ?_) fun _ => ?_
  · let closed : WorkerState := { v with sourceDecoder := none, sourceMode := v.sourceMode && v.sourceDecoder.isNone }
    have hclose : closed.playback = { v.playback with opened := false } := by
      unfold WorkerState.playback
      rw [opened_of_closed (w := closed) rfl]
    show ReflTransGen Playback.Step v.playback closed.playback
    rw [hclose]
    exact .single .close
  · exact (plays_of_sent (spares_stopRunning false)).bind fun _ => .pure _

theorem plays_handleHello (p : Payload) : Plays (handleHello env config p) := by
  have hleave : Plays (do setFatalExit; pure Flow.leave : Loop Flow) :=
    (plays_of_sent spares_setFatalExit).bind fun _ => .pure _
  unfold handleHello
  split
  · refine .ite ((plays_of_sent (spares_sendError _ _ _ _)).bind fun _ => hleave) (.ite hleave ?_)
    refine .bind (plays_modify fun _ => by rfl) fun _ => (plays_of_sent spares_sendHelloAck).bind fun sent => .ite (.pure _) ?_
    exact (plays_of_sent (spares_stopRunning true)).bind fun _ => .pure _
  · exact hleave

/-! ## The rest of a round -/

theorem plays_pollModelDownload : Plays (pollModelDownload env) := by
  refine .get_bind fun w => Steps.onlyIf ((plays_of_sent (spares_ask _)).bind fun progress => ?_) w
  cases progress with
  | none => exact .pure _
  | some p =>
    refine (plays_of_sent (spares_ask _)).bind fun nowUs => .bind (.onlyIf ?_) fun _ =>
      .onlyIf (plays_modify fun _ => by rfl)
    exact (plays_progress _ _).bind fun _ => plays_modify fun _ => by rfl

theorem plays_lookahead : Plays (lookahead env config) := by
  refine .get_bind fun w => Steps.ite (.pure _) ((plays_call _ _).bind fun read => ?_) w
  cases read with
  | ok samples ptsUs =>
    refine .ite (.bind (plays_modify fun _ => by rfl) fun _ => .get_bind fun v => ?_) (.pure _)
    exact Steps.bind (.loop plays_chunkRound _) (fun _ => .pure _) v
  | again => exact .pure _
  | eof =>
    refine .bind (plays_modify fun _ => by rfl) fun _ => plays_flushAudioTail.bind fun flushed => ?_
    refine .ite (plays_giveUp _ _ _ _ _) ?_
    exact (plays_of_sent spares_reportStatus).bind fun _ => .pure _
  | error =>
    refine (plays_refuse _ _ _ _).bind fun _ => .bind (.modify fun v => ?_) fun _ => .pure _
    exact .single (.stop v.seekFailedPending v.lastPlaybackPtsUs)

theorem plays_afterFrame (flow : Flow) : Plays (afterFrame env config flow) := by
  have hfinish (flow : Flow) : Plays (finish flow) := by
    cases flow with
    | leave => exact (plays_of_sent (spares_stopRunning false)).bind fun _ => plays_modify fun _ => by rfl
    | hang => exact plays_modify fun _ => by rfl
    | _ => exact .pure _
  have hdeliver : Plays (deliverResults env) := plays_of_translated spares_deliverResults
  refine .bind (.ite (hdeliver.bind fun _ => plays_pollModelDownload.bind fun _ => ?_) (.pure _)) hfinish
  refine plays_lookahead.bind fun flow => .ite ?_ (.pure _)
  exact (plays_of_emitted spares_emitSegments).bind fun _ => hdeliver.bind fun _ => .pure _

/-! ## POSITION -/

/-- No seek: the session goes on at the position. -/
theorem followSource_moves (p : Position) {t : WorkerState} (hseeks : requiresSeek t p = false) :
    Ends (followSource env p) t fun _ v =>
      v = { t with currentPlaybackPtsUs := p.currentPtsUs.toInt, lastPlaybackPtsUs := p.currentPtsUs.toInt } := by
  refine Ends.get_bind ?_
  dsimp only
  rw [hseeks]
  refine Ends.bind (P := fun _ v => v = t) rfl fun _ v hv => Ends.get_bind ?_
  subst hv
  exact rfl

/-- A seek that works: the session goes on at the position, with nothing of what was recognised before. -/
theorem followSource_seeks (p : Position) {t : WorkerState} (hseeks : requiresSeek t p = true)
    (hok : env.seekSource t.tick = true) : Ends (followSource env p) t fun _ v =>
      v = { ({ t with tick := t.tick + 1, seekFailedPending := false }.invalidate .seek).reanchor p.currentPtsUs.toInt with
        lastPlaybackPtsUs := p.currentPtsUs.toInt } := by
  have hseek : Ends (seekTo env p) t fun _ v =>
      v = ({ t with tick := t.tick + 1, seekFailedPending := false }.invalidate .seek).reanchor p.currentPtsUs.toInt := by
    refine Ends.bind (m := ask env.seekSource) (P := fun seeked u => seeked = true ∧ u = { t with tick := t.tick + 1 })
      ⟨hok, rfl⟩ fun seeked u ⟨htrue, hu⟩ => ?_
    subst htrue hu
    exact rfl
  refine Ends.get_bind ?_
  dsimp only
  rw [hseeks]
  refine hseek.bind fun _ v hv => Ends.get_bind ?_
  subst hv
  refine Ends.onlyIf (fun _ => rfl) fun hnot => ?_
  have hsame : decide (p.currentPtsUs.toInt = p.currentPtsUs.toInt) = false := hnot
  rw [decide_eq_true rfl] at hsame
  cases hsame

/-- A seek that fails while the positions of the session agree: nothing is left of it but the flag. -/
theorem followSource_fails (p : Position) {t : WorkerState} (hagree : t.currentPlaybackPtsUs = t.lastPlaybackPtsUs)
    (hseeks : requiresSeek t p = true) (hfails : env.seekSource t.tick = false) : Ends (followSource env p) t fun _ v =>
      v = { t with tick := t.tick + 1, seekFailedPending := !isSeekFlag p } := by
  have hseek : Ends (seekTo env p) t fun _ v => v = { t with tick := t.tick + 1, seekFailedPending := !isSeekFlag p } := by
    refine Ends.bind (m := ask env.seekSource) (P := fun seeked u => seeked = false ∧ u = { t with tick := t.tick + 1 })
      ⟨hfails, rfl⟩ fun seeked u ⟨hfalse, hu⟩ => ?_
    subst hfalse hu
    exact rfl
  refine Ends.get_bind ?_
  dsimp only
  rw [hseeks]
  refine hseek.bind fun _ v hv => Ends.get_bind ?_
  subst hv
  refine Ends.onlyIf (fun hreached => ?_) fun _ => rfl
  -- the position is where the session is, so going there changes nothing
  have hreached : t.currentPlaybackPtsUs = p.currentPtsUs.toInt := of_decide_eq_true hreached
  show WorkerState.mk .. = WorkerState.mk ..
  rw [← hreached, ← hagree]

theorem anchored_followSource (p : Position) {t : WorkerState} (ht : t.playback.Anchored) (hopened : t.opened = true) :
    Ends (followSource env p) t fun _ v => v.playback.Anchored := by
  cases hseeks : requiresSeek t p with
  | false =>
    refine (followSource_moves p hseeks).mono fun _ v hv => ?_
    subst hv
    exact fun _ => rfl
  | true =>
    cases hanswer : env.seekSource t.tick with
    | true =>
      refine (followSource_seeks p hseeks hanswer).mono fun _ v hv => ?_
      subst hv
      exact fun _ => rfl
    | false =>
      refine (followSource_fails p (ht hopened) hseeks hanswer).mono fun _ v hv => ?_
      subst hv
      exact ht

theorem anchored_handlePosition (p : Position) :
    Preserves (fun w => w.playback.Anchored) (handlePosition env config p) := by
  refine .get_bind fun w hw => Preserves.onlyIf ((plays_followPause p).anchored.bind fun goOn => .onlyIf ?_) w hw
  refine .get_bind fun t ht => Ends.ite (fun hopen => anchored_followSource p ht hopen) fun hclosed => ?_
  have hclosed : t.opened = false := Bool.eq_false_of_not_eq_true hclosed
  intro hopen
  have hopen : t.opened = true := hopen
  rw [hclosed] at hopen
  cases hopen

/-! ## START_SESSION -/

/-- What a START leaves of the playback: it is refused, perhaps after it ended the session before, or it begins one. -/
inductive Started (env : Env) (p : Start) (w v : WorkerState) : Prop where
  | refused (h : v.playback = w.playback)
  | ended (h : v.playback = w.replaceSession.playback)
  | begun (hfresh : ¬ (w.sessionActive = true ∧ w.sessionId = p.sessionId))
      (h : v.playback = (newSession p (env.openSource w.tick) (env.seekSource (w.tick + 1))).playback)

theorem playback_refuse (sessionId : SessionId) (code : UInt32) (recoverable : UInt8) (message : Bytes) (w : WorkerState) :
    Ends (orFatal (sendError env sessionId code recoverable message)) w fun _ v => v.playback = w.playback :=
  ((spares_orFatal (spares_sendError _ _ _ _)).comp WorkerState.playback).eq w

theorem started_handleStart (p : Start) {w : WorkerState} (hauth : w.authenticated = true) :
    Ends (handleStart env config p) w fun _ v => Started env p w v := by
  by_cases haccepts : Accepts env w p
  · exact (session_handleStart haccepts).mono fun _ v hv => .begun haccepts.fresh (congrArg Session.playback hv)
  refine Ends.get_bind (Ends.ite (fun _ => ?_) fun hfresh => ?_)
  · exact (playback_refuse _ _ _ _ w).mono fun _ v hv => .refused hv
  have hreplace : Ends (onlyIf w.sessionActive (modify WorkerState.replaceSession)) w fun _ t =>
      (t = w ∨ t = w.replaceSession) ∧ t.engine = w.engine :=
    Ends.onlyIf (fun _ => ⟨.inr rfl, rfl⟩) fun _ => ⟨.inl rfl, rfl⟩
  refine hreplace.bind fun _ t ⟨ht, hengine⟩ => ?_
  have hrefused {v : WorkerState} (hv : v.playback = t.playback) : Started env p w v := by
    rcases ht with rfl | rfl
    · exact .refused hv
    · exact .ended hv
  refine Ends.ite (fun _ => (playback_refuse _ _ _ _ t).mono fun _ _ => hrefused) fun hrate => ?_
  refine Ends.ite (fun _ => (playback_refuse _ _ _ _ t).mono fun _ _ => hrefused) fun hmodel => ?_
  refine Ends.ite (fun _ => (playback_refuse _ _ _ _ t).mono fun _ _ => hrefused) fun hlanguage => ?_
  refine (haccepts ⟨hauth, ?_, not_not.mp hrate, ?_, ?_⟩).elim
  · simpa using hfresh
  · simpa [hengine] using hmodel
  · simpa using hlanguage

theorem anchored_of_started {p : Start} {w v : WorkerState} (hw : w.playback.Anchored) (h : Started env p w v) :
    v.playback.Anchored := by
  cases h with
  | refused h =>
    rw [h]
    exact hw
  | ended h =>
    rw [h]
    intro hopen
    have hopen : w.replaceSession.opened = true := hopen
    rw [opened_of_closed rfl] at hopen
    cases hopen
  | begun hfresh h =>
    rw [h]
    unfold newSession
    split
    · exact fun _ => rfl
    · exact nofun

/-! ## Rounds -/

/-- What a frame leaves of the playback. -/
inductive Handled (env : Env) (config : Config) (f : Frame) (w v : WorkerState) : Prop where
  | plain (hf : w.authenticated = true → ∀ p, f.request ≠ some (.position p))
      (h : ReflTransGen Playback.Step w.playback v.playback)
  | start (p : Start) (hf : f.request = some (.startSession p)) (h : Started env p w v)
  | position (p : Position) (hauth : w.authenticated = true) (hf : f.request = some (.position p))

theorem handled_playback (f : Frame) (w : WorkerState) : Handled env config f w (w.handled env config f) := by
  have hhandled : Ends (handleFrame env config f) w fun _ v => Handled env config f w v := by
    rw [handleFrame_eq]
    split
    · rename_i p hp
      refine Ends.get_bind (Ends.ite (fun hauth => ?_) fun hauth => ?_)
      · refine .plain (fun h => ?_) (plays_handleHello p w)
        rw [h] at hauth
        cases hauth
      · have hauth : w.authenticated = true := by simpa using hauth
        have hplain {m : Loop Flow} (hm : Plays m) (hne : ∀ q, p ≠ .position q) :
            Ends m w fun _ v => Handled env config f w v :=
          .plain (fun _ q hq => hne q (Option.some.inj (hp.symm.trans hq))) (hm w)
        have hproceed {m : Loop Unit} (hm : Plays m) (hne : ∀ q, p ≠ .position q) :
            Ends (do m; pure Flow.proceed) w fun _ v => Handled env config f w v :=
          hplain (hm.bind fun _ => .pure _) hne
        cases p with
        | startSession q => exact (started_handleStart q hauth).bind fun _ v hv => .start q hp hv
        | position q => exact .position q hauth hp
        | audioPcm q => exact hproceed (plays_handleAudio q) nofun
        | pause q => exact hproceed (plays_handlePause q) nofun
        | resume q => exact hproceed (plays_handleResume q) nofun
        | stopSession q => exact hplain (plays_handleStop q) nofun
        | translateCtrl q => exact hproceed (plays_handleTranslateCtrl q) nofun
        | modelCtrl q => exact hproceed (plays_handleModelCtrl q) nofun
        | shutdown => exact hplain plays_handleShutdown nofun
        | _ => exact hplain (.pure _) nofun
    · rename_i hnone
      refine .plain (fun _ p hp => ?_) (plays_of_sent (spares_rejectFrame _) w)
      rw [hnone] at hp
      cases hp
  exact hhandled

theorem anchored_handled (f : Frame) {w : WorkerState} (hw : w.playback.Anchored) :
    (w.handled env config f).playback.Anchored := by
  cases @handled_playback env config f w with
  | plain hf h => exact steps_invariant Playback.anchored_step h hw
  | start p hf h => exact anchored_of_started hw h
  | position p hauth hf =>
    rw [handled_position hf hauth]
    exact anchored_handlePosition p w hw

theorem anchored_wake (frame : Option Frame) : Preserves (fun w => w.playback.Anchored) (wake env config frame) := by
  have hfinished : Plays (modify fun w => { w with finished := true }) := plays_modify fun _ => by rfl
  have hawake : Plays (awake env frame) := by
    cases frame with
    | some f => exact .pure _
    | none => exact (plays_of_translated spares_runThreads).bind fun _ => .get_bind fun _ => .refl
  have hnext : Preserves (fun w => w.playback.Anchored) (handleNext env config frame) := by
    cases frame with
    | some f => exact fun w hw => anchored_handled f hw
    | none => exact .pure _
  have hround (w : WorkerState) (hw : w.playback.Anchored) :
      Ends (do let flow ← iterate env config frame; finish flow) w fun _ v => v.playback.Anchored :=
    (hnext.bind fun flow => (plays_afterFrame flow).anchored) w hw
  refine .get_bind fun w hw => Preserves.onlyIf (hawake.anchored.bind fun woken => ?_) w hw
  exact (plays_of_sent spares_loadRunning).anchored.bind fun running => .ite hfinished.anchored (.onlyIf hround)

theorem anchored_run (config : Config) (engine translator : Bool) (rounds : List (Env × Option Frame)) :
    (roundsRun config engine translator rounds).playback.Anchored :=
  run_invariant' (fun w (r : Env × Option Frame) hw => @anchored_wake r.1 config r.2 w hw) rounds nofun

/-- **A seek that fails changes nothing.** Whenever a POSITION that does not change the pause makes the worker seek, be
it asked to or because the position jumped, and the decoder does not do it, the flag for it is all that is left. -/
theorem failedSeek_unchanged {engine translator : Bool} {rounds : List (Env × Option Frame)} {w : WorkerState}
    (hrun : w = atFrame config engine translator rounds env) (hactive : w.sessionActive = true)
    (hopened : w.opened = true) {f : Frame} {p : Position} (hf : f.request = some (.position p))
    (hid : p.sessionId = w.sessionId) (hsame : isPausedFlag p = w.paused) (hseeks : requiresSeek w p = true)
    (hfails : env.seekSource w.tick = false) :
    w.handled env config f = { w with tick := w.tick + 1, seekFailedPending := !isSeekFlag p } := by
  subst hrun
  have hauth := authenticated_atFrame hactive
  have hanchored : (atFrame config engine translator rounds env).playback.Anchored :=
    (plays_of_sent spares_loadRunning).anchored _ (anchored_run config engine translator rounds)
  generalize atFrame config engine translator rounds env = w at *
  have hguard : (w.sessionActive && decide (p.sessionId = w.sessionId)) = true := by
    rw [hactive, hid, decide_eq_true rfl]
    rfl
  have hfollow : Ends (followPause env config p) w fun goOn v => goOn = true ∧ v = w := by
    refine Ends.get_bind ?_
    rw [if_pos hsame]
    exact ⟨rfl, rfl⟩
  have hposition : Ends (handlePosition env config p) w fun _ v =>
      v = { w with tick := w.tick + 1, seekFailedPending := !isSeekFlag p } := by
    refine Ends.get_bind ?_
    rw [hguard]
    refine hfollow.bind fun goOn v ⟨hgo, hv⟩ => ?_
    subst hgo hv
    refine Ends.get_bind (Ends.ite (fun _ => ?_) fun hclosed => (hclosed hopened).elim)
    exact followSource_fails p (hanchored hopened) hseeks hfails
  rw [handled_position hf hauth]
  exact hposition

/-- The position jumps ahead of the decoder. -/
def jumpPosition : Position := { QueueLog.samplePosition with currentPtsUs := 5000000 }

def jumpFrame : Frame := QueueLog.frameOf (.position jumpPosition)

/-- The decoder does not seek. -/
def Env.stuck : Env := { Env.oneCue .again with seekSource _ := false }

/-- The worker that plays a file when the position jumps. -/
def filePlays : WorkerState := atFrame downloader true true oneCueRounds .stuck

theorem failedSeek_unchanged_jump : filePlays.handled .stuck downloader jumpFrame =
    { filePlays with tick := filePlays.tick + 1, seekFailedPending := true } := by
  have hactive : filePlays.sessionActive = true := by decide +kernel
  have hopened : filePlays.opened = true := by decide +kernel
  have hid : jumpPosition.sessionId = filePlays.sessionId := by decide +kernel
  have hsame : isPausedFlag jumpPosition = filePlays.paused := by decide +kernel
  have hseeks : requiresSeek filePlays jumpPosition = true := by decide +kernel
  exact failedSeek_unchanged rfl hactive hopened rfl hid hsame hseeks rfl

end VlcWhisper.Worker
