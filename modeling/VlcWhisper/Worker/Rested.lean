import VlcWhisper.Worker.NewSession

/-!
# Paused sessions (`vw_worker.c`)

Whatever pauses a session clears its pipeline, and nothing touches it again until the session goes on. Main result:
`rested_run`. After every round of every run a session that is paused has the pipeline that a reset leaves.
-/

namespace VlcWhisper.Worker

open VlcWhisper.Lib VlcWhisper.Protocol SegmentBuilder

variable {env : Env} {config : Config} {α : Type}

/-- The pipeline is as a reset leaves it. -/
structure Cleared (w : WorkerState) : Prop where
  audioBuf : w.audioBuf.clear = w.audioBuf
  builder : w.builder.clear = w.builder
  vad : w.vad = []
  threshold : w.liveNextInferenceSamples = w.firstWindow

/-- A quiet worker whose session has a cleared pipeline while it is paused. -/
structure Rested (w : WorkerState) : Prop extends Quiet w where
  cleared : w.sessionActive = true → w.paused = true → Cleared w

theorem cleared_clearPipeline (w : WorkerState) : Cleared w.clearPipeline := ⟨rfl, rfl, rfl, rfl⟩

theorem Cleared.clearPipeline_eq {w : WorkerState} (hw : Cleared w) : w.clearPipeline = w := by
  obtain ⟨haudio, hbuilder, hvad, hthreshold⟩ := hw
  unfold WorkerState.clearPipeline
  rw [haudio, hbuilder, ← hthreshold, ← hvad]

theorem rested_of_cleared {w : WorkerState} (hw : Quiet w) (hcleared : Cleared w) : Rested w :=
  ⟨hw, fun _ _ => hcleared⟩

theorem rested_of_inactive {w : WorkerState} (hw : Quiet w) (hactive : w.sessionActive = false) : Rested w :=
  ⟨hw, fun h => absurd h (by rw [hactive]; exact Bool.false_ne_true)⟩

theorem rested_of_unpaused {w : WorkerState} (hw : Quiet w) (hpaused : w.paused = false) : Rested w :=
  ⟨hw, fun _ h => absurd h (by rw [hpaused]; exact Bool.false_ne_true)⟩

theorem Playing.rested {w : WorkerState} (hw : Playing w) : Rested w := by
  refine rested_of_unpaused hw.quiet ?_
  have hplays := hw.plays
  simp only [WorkerState.plays, Bool.and_eq_true, Bool.not_eq_true'] at hplays
  exact hplays.2

theorem rested_untranslated (w : WorkerState) : Rested w.untranslated ↔ Rested w := by
  have hcleared : Cleared w.untranslated ↔ Cleared w :=
    ⟨fun h => ⟨h.audioBuf, h.builder, h.vad, h.threshold⟩, fun h => ⟨h.audioBuf, h.builder, h.vad, h.threshold⟩⟩
  constructor
  · exact fun h => ⟨(quiet_untranslated w).mp h.toQuiet, fun hactive hpaused => hcleared.mp (h.cleared hactive hpaused)⟩
  · exact fun h => ⟨(quiet_untranslated w).mpr h.toQuiet, fun hactive hpaused => hcleared.mpr (h.cleared hactive hpaused)⟩

theorem rested_of_translated {m : Loop α} (h : Spares WorkerState.untranslated m) : Preserves Rested m :=
  h.preserves rested_untranslated

theorem rested_of_sent {m : Loop α} (h : Spares WorkerState.unsent m) : Preserves Rested m :=
  rested_of_translated (spares_untranslated h)

/-- A change that leaves the session and its pipeline alone. -/
theorem Rested.of_quiet {w v : WorkerState} (hw : Rested w) (hv : Quiet v) (hactive : v.sessionActive = w.sessionActive)
    (hpaused : v.paused = w.paused) (hcleared : Cleared w → Cleared v) : Rested v := by
  refine ⟨hv, fun ha hp => hcleared (hw.cleared ?_ ?_)⟩
  · exact hactive.symm.trans ha
  · exact hpaused.symm.trans hp

/-! ## Cues -/

theorem emitSegments_idle {w : WorkerState} (hqueued : w.builder.queue.count = 0) :
    Ends (emitSegments env) w fun _ v => v = w := by
  have hpop : w.builder.pop = none := by
    unfold SegmentBuilder.pop Ring.pop
    rw [if_pos hqueued]
  have hpopped : Ends popSegment w fun popped v => popped = none ∧ v = w := by
    refine Ends.get_bind ?_
    rw [hpop]
    exact ⟨rfl, rfl⟩
  have hround : Ends (emitRound env) w fun r v => r = some () ∧ v = w := by
    refine hpopped.bind fun popped v ⟨hnone, hv⟩ => ?_
    subst hnone
    exact ⟨rfl, hv⟩
  have hloop : Ends (loop (w.builder.queue.count + 1) (emitRound env)) w fun _ v => v = w := by
    refine hround.bind fun r v ⟨hr, hv⟩ => ?_
    subst hr
    exact hv
  exact Ends.get_bind (hloop.bind fun _ v hv => hv)

/-- The rest of a round finds nothing to do. -/
theorem afterFrame_idle {v : WorkerState} (htranslator : v.translator = none) (hmodel : v.modelDl = false)
    (hpcm : v.sourceMode = false) (hqueued : v.builder.queue.count = 0) :
    Ends (afterFrame env config .proceed) v fun _ x => x = v := by
  have hdeliver : Ends (deliverResults env) v fun _ x => x = v := by
    refine Ends.get_bind ?_
    rw [htranslator]
    exact rfl
  have hpoll : Ends (pollModelDownload env) v fun _ x => x = v := by
    refine Ends.get_bind ?_
    rw [hmodel]
    exact rfl
  have hlook : Ends (lookahead env config) v fun flow x => flow = .proceed ∧ x = v := by
    refine Ends.get_bind (Ends.ite (fun _ => ⟨rfl, rfl⟩) fun hwants => ?_)
    simp [WorkerState.wantsLookahead, hpcm] at hwants
  have hemit : Ends (emitSegments env) v fun _ x => x = v := emitSegments_idle hqueued
  have hround : Ends (andThen .proceed (do
      deliverResults env
      pollModelDownload env
      let flow ← lookahead env config
      andThen flow (do emitSegments env; deliverResults env; pure .proceed))) v fun flow x => flow = .proceed ∧ x = v := by
    refine hdeliver.bind fun _ x hx => ?_
    subst hx
    refine hpoll.bind fun _ y hy => ?_
    subst hy
    refine hlook.bind fun flow z hlooked => ?_
    obtain ⟨rfl, rfl⟩ := hlooked
    refine hemit.bind fun _ a ha => ?_
    subst ha
    exact hdeliver.bind fun _ b hb => ⟨rfl, hb⟩
  refine hround.bind fun flow x hends => ?_
  rw [hends.1]
  exact hends.2

theorem rested_emitSegments : Preserves Rested (emitSegments env) := by
  intro w hw
  cases hplays : w.plays with
  | true => exact (playing_of_emitted spares_emitSegments w (hw.playing hplays)).mono fun _ v hv => hv.rested
  | false =>
    refine (emitSegments_idle (hw.buffered hplays).2).mono fun _ v hv => ?_
    rw [hv]
    exact hw

/-! ## Frames -/

theorem rested_refuse (sessionId : SessionId) (code : UInt32) (recoverable : UInt8) (message : Bytes) :
    Preserves Rested (orFatal (sendError env sessionId code recoverable message)) :=
  rested_of_sent (spares_orFatal (spares_sendError _ _ _ _))

theorem rested_handleStart (p : Start) : Preserves Rested (handleStart env config p) := by
  refine .get_bind fun w hw => Ends.ite (fun _ => rested_refuse _ _ _ _ w hw) fun _ => ?_
  have hreplace : Preserves Rested (onlyIf w.sessionActive (modify WorkerState.replaceSession)) :=
    .onlyIf (.modify fun v hv => rested_of_inactive (quiet_replaceSession hv.toQuiet) rfl)
  refine (hreplace w hw).bind fun _ t ht => ?_
  refine Ends.ite (fun _ => rested_refuse _ _ _ _ t ht) fun _ => ?_
  refine Ends.ite (fun _ => rested_refuse _ _ _ _ t ht) fun _ => ?_
  refine Ends.ite (fun _ => rested_refuse _ _ _ _ t ht) fun _ => ?_
  have hopened : Ends (openSource env p) (t.beginSession p) fun _ v => Rested v := by
    have hquiet : Ends (openSource env p) (t.beginSession p) fun _ v => Quiet v :=
      quiet_openSource p (emptied_beginSession p ht.toQuiet)
    have hpaused : Ends (openSource env p) (t.beginSession p) fun _ v => v.paused = false := by
      refine (session_openSource (session_beginSession p t)).mono fun _ v hv => ?_
      have hsame : v.paused = (newSession p _ _).paused := congrArg Session.paused hv
      rw [hsame]
      unfold newSession
      split <;> rfl
    exact rested_of_unpaused hquiet hpaused
  refine Ends.modify_bind (hopened.bind fun goOn u hu => ?_)
  refine Preserves.onlyIf (.get_bind fun v hv => ?_) u hu
  refine (rested_of_sent (spares_sendPayload _ _) v hv).bind fun started x hx => ?_
  exact Preserves.ite (rested_of_sent spares_reportStatus) (rested_of_sent (spares_stopRunning true)) x hx

theorem rested_changePause (p : Position) {w : WorkerState} (hw : Rested w) (hchange : isPausedFlag p ≠ w.paused) :
    Ends (changePause env p) w fun _ v => Rested v := by
  have hquiet : Ends (changePause env p) w fun _ v => Quiet v := quiet_changePause p hw.toQuiet hchange
  by_cases hflag : isPausedFlag p = true
  · have hcleared : Ends (changePause env p) w fun _ v => Cleared v := by
      refine Ends.modify_bind (Ends.get_bind ?_)
      rw [if_pos hflag]
      exact cleared_clearPipeline _
    exact rested_of_cleared hquiet hcleared
  · have hpaused : Ends (changePause env p) w fun _ v => v.paused = false := by
      have hresumed : { w with paused := isPausedFlag p }.paused = false := Bool.eq_false_of_not_eq_true hflag
      have hkept : Preserves (fun v : WorkerState => v.paused = false) (do
          let seeked ← ask env.seekSource
          let requested := p.currentPtsUs.toInt
          onlyIf seeked (modify fun w => { w with lastPlaybackPtsUs := requested }.reanchor requested)) :=
        Preserves.bind (fun _ hv => hv) fun seeked => .onlyIf (.modify fun _ hv => hv)
      refine Ends.modify_bind (Ends.get_bind ?_)
      rw [if_neg hflag]
      exact (Preserves.onlyIf hkept) _ hresumed
    exact rested_of_unpaused hquiet hpaused

theorem rested_followPause (p : Position) : Preserves Rested (followPause env config p) := by
  refine .get_bind fun w hw => Ends.ite (fun _ => hw) fun hchange => ?_
  refine (rested_changePause p hw hchange).bind fun _ t ht => Ends.get_bind ?_
  refine (rested_of_sent (spares_sendStatus _ _ _) t ht).bind fun sent u hu => ?_
  exact Preserves.bind (.onlyIf (rested_of_sent (spares_stopRunning true))) (fun _ => .pure _) u hu

theorem rested_seekTo (p : Position) : Preserves Rested (seekTo env p) := by
  refine (rested_of_sent (spares_ask _)).bind fun seeked => .ite (.modify fun w hw => ?_) (.modify fun w hw => ?_)
  · exact hw.of_quiet ⟨hw.buffered, hw.source, hw.heard⟩ rfl rfl fun h => ⟨h.audioBuf, h.builder, h.vad, h.threshold⟩
  · exact rested_of_cleared (quiet_of_empty rfl rfl hw.source hw.heard) ⟨rfl, rfl, rfl, rfl⟩

theorem rested_followSource (p : Position) : Preserves Rested (followSource env p) := by
  refine .get_bind fun w hw => (Preserves.onlyIf (rested_seekTo p) w hw).bind fun _ t ht => Ends.get_bind ?_
  refine Preserves.onlyIf (.modify fun u hu => ?_) t ht
  exact hu.of_quiet ⟨hu.buffered, hu.source, hu.heard⟩ rfl rfl fun h => ⟨h.audioBuf, h.builder, h.vad, h.threshold⟩

theorem rested_handlePosition (p : Position) : Preserves Rested (handlePosition env config p) := by
  refine .get_bind fun w hw => Preserves.onlyIf ((rested_followPause p).bind fun goOn => .onlyIf ?_) w hw
  refine .get_bind fun t ht => Ends.ite (fun _ => rested_followSource p t ht) fun _ => ?_
  exact ht.of_quiet ⟨ht.buffered, ht.source, ht.heard⟩ rfl rfl fun h => ⟨h.audioBuf, h.builder, h.vad, h.threshold⟩

theorem rested_handleAudio (p : Audio) : Preserves Rested (handleAudio env config p) := by
  refine .get_bind fun w hw => Ends.onlyIf (fun hguard => ?_) fun _ => hw
  have hplays : w.plays = true := by
    simp only [Bool.and_eq_true] at hguard
    exact Bool.and_eq_true_iff.mpr hguard.1.1
  have hplaying := hw.playing hplays
  have hreset : Playing w.clearPipeline := ⟨hplaying.plays, hplaying.source, hplaying.heard⟩
  have happended : Playing (appendPcm p w) := ⟨hplaying.plays, hplaying.source, hplaying.heard⟩
  refine Ends.ite (fun _ => hreset.rested) fun _ => Ends.onlyIf (fun _ => Ends.modify_bind (Ends.get_bind ?_)) fun _ => hw
  have hloop : Preserves Playing (loop ((appendPcm p w).audioBuf.count + 1) (inferRound env config)) :=
    .loop playing_inferRound _
  exact (hloop _ happended).bind fun _ t ht => ht.rested

theorem rested_handlePause (p : Control) : Preserves Rested (handlePause env config p) := by
  refine .get_bind fun w hw => Preserves.onlyIf (.bind (.modify fun v hv => ?_) fun _ => ?_) w hw
  · exact rested_of_cleared (quiet_of_empty rfl rfl hv.source hv.heard) ⟨rfl, rfl, rfl, rfl⟩
  · exact rested_of_sent spares_reportStatus

theorem rested_handleResume (p : Control) : Preserves Rested (handleResume env config p) := by
  refine .get_bind fun w hw => Ends.onlyIf (fun hguard => ?_) fun _ => hw
  simp only [Bool.and_eq_true] at hguard
  have hresumed : Quiet { w with paused := false } := by
    refine ⟨fun hplays => ?_, hw.source, hw.heard⟩
    rw [WorkerState.plays, hguard.1] at hplays
    cases hplays
  have hseek : Preserves (fun v => Quiet v ∧ v.paused = false) (do
      let seeked ← ask env.seekSource
      onlyIf seeked (modify fun w =>
        ({ w with lastPlaybackPtsUs := w.currentPlaybackPtsUs }.reanchor w.currentPlaybackPtsUs).invalidate .resume)) := by
    refine Preserves.bind (fun v hv => ⟨quiet_of_sent (spares_ask _) v hv.1, hv.2⟩) fun seeked => ?_
    exact .onlyIf (.modify fun v hv => ⟨quiet_of_empty rfl rfl hv.1.source hv.1.heard, hv.2⟩)
  refine Ends.modify_bind (((Preserves.onlyIf hseek) _ ⟨hresumed, rfl⟩).bind fun _ t ht => ?_)
  exact rested_of_sent spares_reportStatus t (rested_of_unpaused ht.1 ht.2)

theorem rested_finishTail {w : WorkerState} (hw : Rested w) (failure : Bytes) {afterwards : Loop Unit}
    (hafter : Preserves Playing afterwards) {c : Bool} (hc : c = true → 0 < w.audioBuf.count) :
    Ends (onlyIf c (finishTail env failure afterwards)) w fun _ v => Rested v := by
  refine Ends.onlyIf (fun htail => ?_) fun _ => hw
  have hplaying := hw.playing_of_buffered (.inl (Nat.ne_of_gt (hc htail)))
  exact (playing_finishTail failure hafter w hplaying).mono fun _ _ hv => hv.rested

theorem rested_handleStop (p : Control) : Preserves Rested (handleStop env config p) := by
  refine .get_bind fun w hw => Ends.ite (fun _ => hw) fun _ => ?_
  refine (rested_finishTail hw _ (.pure ()) fun htail => ?_).bind fun _ t ht => ?_
  · simp only [Bool.and_eq_true, decide_eq_true_eq] at htail
    exact htail.2
  refine (rested_of_translated (spares_drainIf _) t ht).bind fun drained u hu => Ends.ite (fun _ => hu) fun _ => ?_
  have hended : Rested u.endSession := rested_of_inactive (quiet_of_empty rfl rfl nofun hu.heard) rfl
  refine Ends.modify_bind ((rested_of_sent spares_loadRunning _ hended).bind fun running v hv => ?_)
  exact Preserves.bind (.onlyIf (rested_of_sent (spares_orFatal (spares_sendStatus _ _ _)))) (fun _ => .pure _) v hv

theorem rested_handleTranslateCtrl (p : TranslateCtrl) : Preserves Rested (handleTranslateCtrl p) := by
  refine .get_bind fun w hw => Preserves.onlyIf (.modify fun v hv => ?_) w hw
  exact hv.of_quiet ⟨hv.buffered, hv.source, hv.heard⟩ rfl rfl fun h => ⟨h.audioBuf, h.builder, h.vad, h.threshold⟩

theorem rested_call {service : Service} (hservice : service.listens = false) (answer : Nat → α) :
    Preserves Rested (call service answer) := by
  intro w hw
  have hquiet : Ends (call service answer) w fun _ v => Quiet v := quiet_call hservice answer w hw.toQuiet
  exact hw.of_quiet hquiet rfl rfl fun h => ⟨h.audioBuf, h.builder, h.vad, h.threshold⟩

theorem rested_setModelDl (f : WorkerState → Bool) (g : WorkerState → Option UInt8) (h : WorkerState → Int) :
    Preserves Rested (modify fun w => { w with modelDl := f w, lastStage := g w, lastProgressSendUs := h w }) :=
  .modify fun _ hw => hw.of_quiet ⟨hw.buffered, hw.source, hw.heard⟩ rfl rfl
    fun h => ⟨h.audioBuf, h.builder, h.vad, h.threshold⟩

theorem rested_sendModelProgress (sessionId : SessionId) (progress : DownloadProgress) :
    Preserves Rested (orFatal (sendModelProgress env sessionId progress)) :=
  rested_of_sent (spares_orFatal (spares_sendModelProgress _ _))

theorem rested_handleModelCtrl (p : ModelCtrl) : Preserves Rested (handleModelCtrl env config p) := by
  have hdownloading : Preserves Rested (isDownloading env) :=
    .get_bind fun w hw => Preserves.ite ((rested_of_sent (spares_ask _)).bind fun _ => .pure _) (.pure _) w hw
  refine .get_bind fun w hw => ?_
  refine Preserves.ite (.ite (rested_sendModelProgress _ _) (hdownloading.bind fun active => .ite (rested_sendModelProgress _ _) ?_))
    (.onlyIf (rested_sendModelProgress _ _)) w hw
  refine Preserves.bind (.onlyIf (rested_setModelDl (fun _ => false) (fun _ => none) (·.lastProgressSendUs))) fun _ => ?_
  refine (rested_call rfl _).bind fun started => ?_
  exact .bind (rested_setModelDl (fun _ => started) (·.lastStage) (·.lastProgressSendUs)) fun _ =>
    .onlyIf (rested_sendModelProgress _ _)

theorem rested_handleShutdown : Preserves Rested (handleShutdown env config) := by
  refine .get_bind fun w hw => ?_
  refine (rested_finishTail hw _ (playing_of_sent spares_reportStatus) fun htail => ?_).bind fun _ t ht => ?_
  · simp only [Bool.and_eq_true, decide_eq_true_eq] at htail
    exact htail.2
  refine (rested_of_translated (spares_drainIf _) t ht).bind fun drained u hu => Ends.ite (fun _ => hu) fun _ => ?_
  refine Ends.modify_bind ?_
  have hclosed : Rested { u with sourceDecoder := none, sourceMode := u.sourceMode && u.sourceDecoder.isNone } := by
    refine hu.of_quiet ⟨hu.buffered, fun hactive => ?_, hu.heard⟩ rfl rfl
      fun h => ⟨h.audioBuf, h.builder, h.vad, h.threshold⟩
    show (u.sourceMode && u.sourceDecoder.isNone) = false
    rw [hu.source hactive]
    cases u.sourceDecoder <;> rfl
  exact (rested_of_sent (spares_stopRunning false) _ hclosed).bind fun _ v hv => hv

theorem rested_handleHello (p : Payload) : Preserves Rested (handleHello env config p) := by
  have hleave : Preserves Rested (do setFatalExit; pure Flow.leave : Loop Flow) :=
    (rested_of_sent spares_setFatalExit).bind fun _ => .pure _
  unfold handleHello
  split
  · refine .ite ((rested_of_sent (spares_sendError _ _ _ _)).bind fun _ => hleave) (.ite hleave ?_)
    refine .bind (.modify fun w hw => ?_) fun _ => ?_
    · exact hw.of_quiet ⟨hw.buffered, hw.source, hw.heard⟩ rfl rfl fun h => ⟨h.audioBuf, h.builder, h.vad, h.threshold⟩
    · refine (rested_of_sent spares_sendHelloAck).bind fun sent => .ite (.pure _) ?_
      exact (rested_of_sent (spares_stopRunning true)).bind fun _ => .pure _
  · exact hleave

theorem rested_handleFrame (f : Frame) : Preserves Rested (handleFrame env config f) := by
  rw [handleFrame_eq]
  split
  · refine .get_bind fun w hw => Ends.ite (fun _ => rested_handleHello _ w hw) fun _ => ?_
    have hproceed {m : Loop Unit} (hm : Preserves Rested m) : Ends (do m; pure Flow.proceed) w fun _ v => Rested v :=
      hm.bind (fun _ => .pure _) w hw
    split
    · exact hproceed (rested_handleStart _)
    · exact hproceed (rested_handlePosition _)
    · exact hproceed (rested_handleAudio _)
    · exact hproceed (rested_handlePause _)
    · exact hproceed (rested_handleResume _)
    · exact rested_handleStop _ w hw
    · exact hproceed (rested_handleTranslateCtrl _)
    · exact hproceed (rested_handleModelCtrl _)
    · exact rested_handleShutdown w hw
    · exact hw
  · exact rested_of_sent (spares_rejectFrame _)

/-! ## Rounds -/

theorem rested_pollModelDownload : Preserves Rested (pollModelDownload env) := by
  refine .get_bind fun w hw => Preserves.onlyIf ((rested_of_sent (spares_ask _)).bind fun progress => ?_) w hw
  cases progress with
  | none => exact .pure _
  | some p =>
    refine (rested_of_sent (spares_ask _)).bind fun nowUs => .bind (.onlyIf ?_) fun _ => .onlyIf ?_
    · exact (rested_sendModelProgress _ _).bind fun _ => rested_setModelDl (·.modelDl) (fun _ => some p.stage) (fun _ => nowUs)
    · exact rested_setModelDl (fun _ => false) (fun _ => none) (·.lastProgressSendUs)

theorem rested_lookahead : Preserves Rested (lookahead env config) := by
  refine .get_bind fun w hw => Ends.ite (fun _ => hw) fun hwants => ?_
  have hplays : w.plays = true := by
    simp only [WorkerState.wantsLookahead, Bool.not_eq_true', Bool.not_eq_false, Bool.and_eq_true] at hwants
    rw [WorkerState.plays, hwants.1.1.1.1.1, hwants.1.1.2]
    rfl
  refine (playing_call .readSource env.readSource w (hw.playing hplays)).bind fun read t ht => ?_
  cases read with
  | ok samples ptsUs =>
    refine Ends.ite (fun _ => ?_) fun _ => ht.rested
    have happended : Playing (appendDecoded samples ptsUs t) := ⟨ht.plays, ht.source, ht.heard⟩
    refine Ends.modify_bind (Ends.get_bind ?_)
    have hloop : Preserves Playing (loop ((appendDecoded samples ptsUs t).audioBuf.count + 1) (chunkRound env config)) :=
      .loop playing_chunkRound _
    exact (hloop _ happended).bind fun _ v hv => hv.rested
  | again => exact ht.rested
  | eof =>
    have heof : Playing { t with sourceEof := true } := ⟨ht.plays, ht.source, ht.heard⟩
    refine Ends.modify_bind ((playing_flushAudioTail _ heof).bind fun flushed u hu => Ends.ite (fun _ => ?_) fun _ => ?_)
    · refine (rested_of_sent (spares_sendError _ _ _ _) u hu.rested).bind fun _ v hv => ?_
      exact (rested_of_sent (spares_stopRunning true) v hv).bind fun _ x hx => hx
    · exact (rested_of_sent spares_reportStatus u hu.rested).bind fun _ v hv => hv
  | error =>
    refine (quiet_refuse _ _ _ _ t ht.quiet).bind fun _ u hu => ?_
    have hinactive : u.abandonSource.sessionActive = true → u.abandonSource.sourceMode = u.abandonSource.sourceDecoder.isSome := by
      intro hactive
      cases hactive
    exact rested_of_inactive (quiet_of_empty rfl rfl hinactive hu.heard) rfl

theorem rested_iterate (frame : Option Frame) : Preserves Rested (iterate env config frame) := by
  have hnext : Preserves Rested (handleNext env config frame) := by
    cases frame with
    | none => exact .pure _
    | some f => exact rested_handleFrame f
  have hdeliver : Preserves Rested (deliverResults env) := rested_of_translated spares_deliverResults
  refine hnext.bind fun flow => .ite ?_ (.pure _)
  refine hdeliver.bind fun _ => rested_pollModelDownload.bind fun _ => rested_lookahead.bind fun flow => .ite ?_ (.pure _)
  exact rested_emitSegments.bind fun _ => hdeliver.bind fun _ => .pure _

theorem rested_wake (frame : Option Frame) : Preserves Rested (wake env config frame) := by
  have hfinished : Preserves Rested (modify fun w => { w with finished := true }) :=
    .modify fun w hw => hw.of_quiet ⟨hw.buffered, hw.source, hw.heard⟩ rfl rfl
      fun h => ⟨h.audioBuf, h.builder, h.vad, h.threshold⟩
  have hfinish (flow : Flow) : Preserves Rested (finish flow) := by
    cases flow with
    | leave => exact (rested_of_sent (spares_stopRunning false)).bind fun _ => hfinished
    | hang => exact hfinished
    | _ => exact .pure ()
  have hawake : Preserves Rested (awake env frame) := by
    cases frame with
    | some f => exact .pure _
    | none => exact (rested_of_translated spares_runThreads).bind fun _ => .get_bind fun w hw => hw
  refine .get_bind fun w hw => Preserves.onlyIf (hawake.bind fun woken => ?_) w hw
  refine (rested_of_sent spares_loadRunning).bind fun running => .ite hfinished (.onlyIf ?_)
  exact (rested_iterate frame).bind fun flow => hfinish flow

/-- **A paused session is cleared.** -/
theorem rested_run (config : Config) (engine translator : Bool) (rounds : List (Env × Option Frame)) :
    Rested (roundsRun config engine translator rounds) :=
  run_invariant' (fun w (r : Env × Option Frame) hw => @rested_wake r.1 config r.2 w hw) rounds
    (rested_of_inactive (quiet_start engine translator) rfl)

end VlcWhisper.Worker
