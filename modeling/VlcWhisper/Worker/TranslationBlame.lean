import VlcWhisper.Worker.BlameWire
import VlcWhisper.Worker.PauseAgreement
import VlcWhisper.Worker.PoppedOnce

/-!
# Translation blame (`vw_worker.c`)

Main result: `translation_blame`. Whatever the frames, the services and the pipe do, a cue of a worker with a translator
that was to be translated and has no translation is written as attempted, right after the one blame line that names it, and
every blame line is followed by its cue unless a write failed. A worker that has no translator writes no blame lines, and
every cue in its source language.

A round of the main loop keeps `AllTold`: it is followed statement by statement, and only a TRANSLATE_CTRL changes which
cues are to be translated, before the round has popped any.
-/

namespace VlcWhisper.Worker

open VlcWhisper.Lib VlcWhisper.Protocol SegmentBuilder

variable {translator : Bool} {plain : Cue → Prop} {n : Nat}

/-! ## Statements -/

theorem AllTold.clear {v : BlameView} (h : AllTold translator plain n v) {b : SegmentBuilder} (hempty : b.queue.toList = []) :
    AllTold translator plain n { v with builder := b } := by
  refine ⟨h.toTelling.set_builder fun cue hcue => ?_, h.settled⟩
  rw [hempty] at hcue
  cases hcue

theorem AllTold.invalidate {v : BlameView} (h : AllTold translator plain n v) :
    AllTold translator plain n { v with translator := v.translator.map TranslateAsync.invalidate } := by
  refine ⟨h.toTelling.set_translator ?_ fun u hu => ?_, h.settled⟩
  · rw [Option.isSome_map]
    exact h.present
  · obtain ⟨t, ht, rfl⟩ := Option.map_eq_some_iff.mp hu
    exact (h.held t ht).invalidate

theorem AllTold.records {v : BlameView} (h : AllTold translator plain n v) {l : List Event}
    (hsilent : ∀ x ∈ l, x.isSilent = true) : AllTold translator plain n { v with trace := v.trace ++ l } := by
  induction l generalizing v with
  | nil =>
    rw [List.append_nil]
    exact h
  | cons x l ih =>
    have hnext := ih (h.record (hsilent x List.mem_cons_self)) fun y hy => hsilent y (List.mem_cons_of_mem x hy)
    show AllTold translator plain n { v with trace := v.trace ++ ([x] ++ l) }
    rw [← List.append_assoc]
    exact hnext

variable {env : Env} {config : Config} {α : Type}

theorem tells_ask (answer : Nat → α) : Tells translator plain n (ask answer) := fun _ hw => hw

theorem tells_call (service : Service) (answer : Nat → α) : Tells translator plain n (call service answer) := fun _ hw => hw

theorem tells_detect (window : List SessionId) (answer : Nat → α) : Tells translator plain n (detect window answer) :=
  fun _ hw => hw

theorem tells_setFatalExit : Tells translator plain n setFatalExit := fun _ hw => hw

theorem tells_loadRunning : Tells translator plain n (loadRunning env) :=
  (tells_ask _).bind fun _ => (Preserves.onlyIf (tells_stopRunning true)).bind fun _ => .get_bind fun _ hw => hw

theorem tells_sendError {code : UInt32} (hcode : translationCodes.contains code = false) (sessionId : SessionId)
    (recoverable : UInt8) (message : Bytes) : Tells translator plain n (sendError env sessionId code recoverable message) :=
  tells_sendPayload 512 hcode

theorem tells_refuse {code : UInt32} (hcode : translationCodes.contains code = false) (sessionId : SessionId)
    (recoverable : UInt8) (message : Bytes) :
    Tells translator plain n (orFatal (sendError env sessionId code recoverable message)) :=
  tells_orFatal (tells_sendError hcode _ _ _)

theorem tells_sendStatus (sessionId : SessionId) (sessionActive paused : Bool) :
    Tells translator plain n (sendStatus env config sessionId sessionActive paused) :=
  (tells_ask _).bind fun _ => (tells_ask _).bind fun _ => (tells_ask _).bind fun _ => .get_bind fun w hw =>
    tells_sendPayload 64 rfl w hw

theorem tells_reportStatus : Tells translator plain n (reportStatus env config) :=
  .get_bind fun w hw => tells_orFatal (tells_sendStatus _ _ _) w hw

theorem tells_sendModelProgress (sessionId : SessionId) (p : DownloadProgress) :
    Tells translator plain n (sendModelProgress env sessionId p) :=
  tells_sendPayload 66 rfl

theorem tells_clearPipeline : Tells translator plain n (modify WorkerState.clearPipeline) :=
  .modify fun w hw => hw.clear (toList_clear_queue w.builder)

/-! ## Drains and windows -/

theorem tells_drainTranslation (henv : env.Translates) : Tells translator plain n (drainTranslation env) := by
  refine (tells_ask _).bind fun polls => .bind (.loop ?_ polls) fun _ => .pure _
  refine tells_loadRunning.bind fun running => .ite (.pure _) ?_
  refine (tells_runThreads henv).bind fun _ => .get_bind fun w hw => Preserves.ite ?_ ?_ w hw
  · exact (tells_tryDeliverScoped henv).bind fun _ => .pure _
  · exact (tells_record rfl).bind fun _ => .pure _

theorem tells_drainIf (henv : env.Translates) (c : Bool) : Tells translator plain n (drainIf env c) :=
  .ite (tells_drainTranslation henv) (.pure _)

theorem tells_transcribeWindow (window : List SessionId) (windowPtsUs : Int) (limitUs : Option Int) :
    Tells translator plain n (transcribeWindow env window windowPtsUs limitUs) := by
  refine (tells_call .whisper _).bind fun segs => ?_
  cases segs with
  | none => exact .pure _
  | some segs =>
    refine (tells_ask _).bind fun memory => .bind (.modify fun w hw => ?_) fun _ => .pure _
    obtain ⟨cues, hheard⟩ := pushSegments_heard memory windowPtsUs limitUs 0 w.builder segs
    have hqueue : ∀ cue ∈ (pushSegments memory windowPtsUs limitUs 0 w.builder segs).queue.toList,
        cue.text ≠ [] ∧ cue.text.length ≤ maxTextBytes := by
      intro cue hcue
      rw [hheard.queue] at hcue
      rcases List.mem_append.mp hcue with hcue | hcue
      · exact hw.queue cue hcue
      · exact hheard.texts cue hcue
    have hpushed : AllTold translator plain n { w.blameView with builder := pushSegments memory windowPtsUs limitUs 0 w.builder segs } :=
      ⟨hw.toTelling.set_builder hqueue, hw.settled⟩
    exact hpushed.record (x := .heard _ _) rfl

theorem tells_drainAudio (samples : Nat) : Tells translator plain n (drainAudio samples) := fun _ hw => hw

theorem tells_flushRound : Tells translator plain n (flushRound env) := by
  refine .get_bind fun w hw => ?_
  refine Preserves.ite (.pure _) ?_ w hw
  generalize w.audioBuf.getSamples chunkMaxSamples = samples
  refine (tells_detect _ _).bind fun speech => ?_
  split
  · exact .pure _
  · refine .ite (.pure _) (.ite ((tells_drainAudio _).bind fun _ => .pure _) ?_)
    refine (tells_transcribeWindow _ _ _).bind fun transcribed => .ite ?_ (.pure _)
    exact (tells_drainAudio _).bind fun _ => .pure _

theorem tells_flushAudioTail : Tells translator plain n (flushAudioTail env) := by
  refine .get_bind fun w hw => Preserves.ite (.pure _) ?_ w hw
  exact Preserves.bind (.loop tells_flushRound _) fun _ => .pure _

theorem tells_inferWindow (window : List SessionId) (windowPtsUs : Int) (growing : Bool) :
    Tells translator plain n (inferWindow env window windowPtsUs growing) := by
  refine .get_bind fun w hw => Preserves.ite (.pure _) ?_ w hw
  refine (tells_detect _ _).bind fun speech => .ite ?_ (.pure _)
  exact tells_transcribeWindow _ _ _

theorem tells_fail (sessionId : SessionId) (message : Bytes) (a : α) : Tells translator plain n (do
    let _ ← sendError env sessionId eInternal 0 message
    stopRunning true
    pure a) :=
  (tells_sendError rfl _ _ _).bind fun _ => (tells_stopRunning true).bind fun _ => .pure _

theorem tells_setNextInference (samples : Nat) :
    Tells translator plain n (modify fun w => { w with liveNextInferenceSamples := samples }) :=
  fun _ hw => hw

theorem tells_inferRound : Tells translator plain n (inferRound env config) := by
  refine .get_bind fun w hw => Preserves.ite (.pure _) ?_ w hw
  generalize w.audioBuf.getSamples (min w.audioBuf.count windowSamples) = samples
  obtain ⟨window, windowPtsUs⟩ := samples
  refine (tells_inferWindow window windowPtsUs _).bind fun inferred => .ite (tells_fail _ _ _) (.ite ?_ ?_)
  · refine (tells_setNextInference _).bind fun _ => tells_loadRunning.bind fun running => ?_
    exact Preserves.bind (.onlyIf tells_reportStatus) fun _ => .pure _
  · refine tells_loadRunning.bind fun running => .ite (.pure _) ((tells_setNextInference _).bind fun _ => ?_)
    exact (tells_drainAudio _).bind fun _ => tells_reportStatus.bind fun _ => .pure _

theorem tells_transcribeChunk (chunk : List SessionId) (ptsUs : Int) :
    Tells translator plain n (transcribeChunk env chunk ptsUs) :=
  .get_bind fun w hw => Preserves.ite (tells_transcribeWindow _ _ _) (.pure _) w hw

theorem tells_chunkRound : Tells translator plain n (chunkRound env config) := by
  refine .get_bind fun w hw => Preserves.ite (.pure _) ?_ w hw
  generalize w.audioBuf.getSamples chunkMaxSamples = samples
  refine (tells_detect _ _).bind fun speech => ?_
  split
  · exact .pure _
  · refine .ite ((tells_drainAudio _).bind fun _ => .pure _) (.ite ?_ (.pure _))
    refine (tells_transcribeChunk _ _).bind fun transcribed => .ite (tells_fail _ _ _) ?_
    refine tells_loadRunning.bind fun running => .ite (.pure _) ?_
    exact (tells_drainAudio _).bind fun _ => tells_reportStatus.bind fun _ => .pure _

/-! ## Frames -/

theorem tells_openSource (p : Start) : Tells translator plain n (openSource env p) := by
  refine .ite ((tells_call .openSource _).bind fun opened => .ite ?_ ?_) (.bind (.modify fun _ hw => hw) fun _ => .pure _)
  · refine Preserves.bind (.modify fun _ hw => hw) fun _ => .bind (.onlyIf ?_) fun _ => .pure _
    exact (tells_ask _).bind fun _ => .onlyIf (.modify fun _ hw => hw)
  · refine Preserves.bind (.modify fun _ hw => hw) fun _ => (tells_sendError rfl _ _ _).bind fun sent => ?_
    exact Preserves.bind (.onlyIf (tells_stopRunning true)) fun _ => .pure _

theorem tells_handleStart (p : Start) : Tells translator plain n (handleStart env config p) := by
  refine .get_bind fun w hw => Preserves.ite (tells_refuse rfl _ _ _) (.bind (.onlyIf ?_) fun _ => ?_) w hw
  · refine .modify fun v hv => ?_
    have hempty : (popAll v.builder.queue.count v.builder).queue.toList = [] := (popAll_queue le_rfl).1
    exact (hv.clear hempty).record (x := .ended) rfl
  refine .ite (tells_refuse rfl _ _ _) (.ite (tells_refuse rfl _ _ _) (.ite (tells_refuse rfl _ _ _) ?_))
  refine .bind (.modify fun v hv => ?_) fun _ => (tells_openSource p).bind fun goOn => .onlyIf (.get_bind fun v hv => ?_)
  · have hbegun := (hv.clear (toList_clear_queue v.builder)).invalidate
    exact hbegun.records (l := [.invalidated .start, .started p.sessionId]) (by simp [Event.isSilent])
  · exact ((tells_sendPayload 17 rfl).bind fun started => .ite tells_reportStatus (tells_stopRunning true)) v hv

theorem tells_reanchor {w : WorkerState} (hw : AllTold translator plain n w.blameView) (ptsUs : Int) :
    AllTold translator plain n (w.reanchor ptsUs).blameView :=
  hw.clear (toList_clear_queue w.builder)

theorem tells_invalidate {w : WorkerState} (hw : AllTold translator plain n w.blameView) (why : Reset) :
    AllTold translator plain n (w.invalidate why).blameView :=
  hw.invalidate.record (x := .invalidated why) rfl

theorem tells_changePause (p : Position) : Tells translator plain n (changePause env p) := by
  refine .bind (.modify fun _ hw => hw) fun _ => .get_bind fun w hw => Preserves.ite tells_clearPipeline (.onlyIf ?_) w hw
  exact (tells_ask _).bind fun _ => .onlyIf (.modify fun v hv => hv.clear (toList_clear_queue v.builder))

theorem tells_followPause (p : Position) : Tells translator plain n (followPause env config p) := by
  refine .get_bind fun w hw => Preserves.ite (.pure _) ((tells_changePause p).bind fun _ => .get_bind fun v hv => ?_) w hw
  refine ((tells_sendStatus _ _ _).bind fun sent => .bind (.onlyIf (tells_stopRunning true)) fun _ => .pure _) v hv

theorem tells_seekTo (p : Position) : Tells translator plain n (seekTo env p) := by
  refine (tells_ask _).bind fun seeked => .ite (.modify fun _ hw => hw) (.modify fun w hw => ?_)
  exact tells_reanchor (w := { w with seekFailedPending := false }.invalidate .seek)
    (tells_invalidate (w := { w with seekFailedPending := false }) hw .seek) _

theorem tells_followSource (p : Position) : Tells translator plain n (followSource env p) := by
  refine .get_bind fun w hw => Preserves.bind (.onlyIf (tells_seekTo p)) (fun _ => .get_bind fun v hv => ?_) w hw
  have hmoved : Tells translator plain n (modify fun w =>
      { w with currentPlaybackPtsUs := p.currentPtsUs.toInt, lastPlaybackPtsUs := p.currentPtsUs.toInt }) :=
    .modify fun _ hu => hu
  exact Preserves.onlyIf hmoved v hv

theorem tells_handlePosition (p : Position) : Tells translator plain n (handlePosition env config p) := by
  refine .get_bind fun w hw => Preserves.onlyIf ((tells_followPause p).bind fun goOn => .onlyIf ?_) w hw
  refine .get_bind fun v hv => Ends.ite (fun _ => tells_followSource p v hv) fun _ => ?_
  exact hv

theorem tells_handleAudio (p : Audio) : Tells translator plain n (handleAudio env config p) := by
  refine .get_bind fun w hw => Preserves.onlyIf (.ite tells_clearPipeline (.onlyIf ?_)) w hw
  refine Preserves.bind (.modify fun _ hv => hv) fun _ => .get_bind fun v hv => ?_
  exact Preserves.bind (.loop tells_inferRound _) (fun _ => .pure _) v hv

theorem tells_handlePause (p : Control) : Tells translator plain n (handlePause env config p) := by
  refine .get_bind fun w hw => Preserves.onlyIf (.bind (.modify fun v hv => ?_) fun _ => tells_reportStatus) w hw
  exact tells_invalidate (w := { v with paused := true }.clearPipeline) (hv.clear (toList_clear_queue v.builder)) .pause

theorem tells_handleResume (p : Control) : Tells translator plain n (handleResume env config p) := by
  have hseek : Tells translator plain n (do
      let seeked ← ask env.seekSource
      onlyIf seeked (modify fun w =>
        ({ w with lastPlaybackPtsUs := w.currentPlaybackPtsUs }.reanchor w.currentPlaybackPtsUs).invalidate .resume)) := by
    refine (tells_ask _).bind fun seeked => .onlyIf (.modify fun v hv => ?_)
    exact tells_invalidate (w := { v with lastPlaybackPtsUs := v.currentPlaybackPtsUs }.reanchor v.currentPlaybackPtsUs)
      (tells_reanchor (w := { v with lastPlaybackPtsUs := v.currentPlaybackPtsUs }) hv _) .resume
  refine .get_bind fun w hw => Ends.onlyIf (fun _ => Ends.modify_bind ?_) fun _ => hw
  have hresumed : AllTold translator plain n { w with paused := false }.blameView := hw
  exact (Preserves.onlyIf hseek _ hresumed).bind fun _ v hv => tells_reportStatus v hv

theorem tells_finishTail (henv : env.Translates) (failure : Bytes) {afterwards : Loop Unit}
    (hafter : Tells translator plain n afterwards) : Tells translator plain n (finishTail env failure afterwards) := by
  refine tells_flushAudioTail.bind fun flushed => .ite (.get_bind fun w hw => ?_) ?_
  · exact ((tells_sendError rfl _ _ _).bind fun _ => tells_stopRunning true) w hw
  · exact (tells_emitTailSegments henv).bind fun sent => .ite (tells_stopRunning true) hafter

theorem tells_handleStop (henv : env.Translates) (p : Control) : Tells translator plain n (handleStop env config p) := by
  refine .get_bind fun w hw => Preserves.ite (.pure _) (.bind (.onlyIf (tells_finishTail henv _ (.pure ()))) fun _ => ?_) w hw
  refine (tells_drainIf henv _).bind fun drained => .ite (.pure _) (.bind (.modify fun v hv => ?_) fun _ => ?_)
  · have hended := (hv.clear (toList_clear_queue v.builder)).invalidate
    exact hended.records (l := [.ended, .invalidated .stop]) (by simp [Event.isSilent])
  · refine tells_loadRunning.bind fun running => .bind (.onlyIf ?_) fun _ => .pure _
    exact tells_orFatal (tells_sendStatus _ _ _)

/-- Which cues are to be translated only changes as long as nothing has happened. -/
theorem handleTranslateCtrl_told (p : TranslateCtrl) {w : WorkerState} (hw : AllTold translator plain n w.blameView)
    (hfresh : w.trace.length = n) : Ends (handleTranslateCtrl p) w fun _ v => AllTold translator plain n v.blameView := by
  have hplain (enabled : Bool) (cue : Cue) (hcue : w.blameView.plain plain n cue) :
      ({ w.blameView with translateEnabled := enabled } : BlameView).plain plain n cue := by
    refine hcue.imp id fun ⟨_, hmem⟩ => ?_
    rw [List.drop_of_length_le (by exact le_of_eq hfresh)] at hmem
    cases hmem
  refine Ends.get_bind (Ends.onlyIf (fun _ => ?_) fun _ => hw)
  have hset : AllTold translator plain n { w.blameView with translateEnabled := p.enabled != 0 } :=
    { hw with told := hw.told.mono fun _ _ hx => hx.mono (hplain _) id }
  exact hset.invalidate.record (x := .invalidated (.translateCtrl _)) rfl

theorem tells_isDownloading : Tells translator plain n (isDownloading env) :=
  .get_bind fun w hw => Preserves.ite ((tells_ask _).bind fun _ => .pure _) (.pure _) w hw

theorem tells_handleModelCtrl (p : ModelCtrl) : Tells translator plain n (handleModelCtrl env config p) := by
  have hsend (sessionId : SessionId) (progress : DownloadProgress) :
      Tells translator plain n (orFatal (sendModelProgress env sessionId progress)) :=
    tells_orFatal (tells_sendModelProgress _ _)
  refine .get_bind fun w hw => ?_
  refine Preserves.ite (.ite (hsend _ _) (tells_isDownloading.bind fun active => .ite (hsend _ _) ?_))
    (.onlyIf (hsend _ _)) w hw
  refine Preserves.bind (.onlyIf (.modify fun _ hv => hv)) fun _ => (tells_call _ _).bind fun started => ?_
  exact .bind (.modify fun _ hv => hv) fun _ => .onlyIf (hsend _ _)

theorem tells_handleShutdown (henv : env.Translates) : Tells translator plain n (handleShutdown env config) := by
  refine .get_bind fun w hw => Preserves.bind (.onlyIf (tells_finishTail henv _ tells_reportStatus)) (fun _ => ?_) w hw
  refine (tells_drainIf henv _).bind fun drained => .ite (.pure _) (.bind (.modify fun _ hv => hv) fun _ => ?_)
  exact (tells_stopRunning false).bind fun _ => .pure _

theorem tells_sendHelloAck : Tells translator plain n (sendHelloAck env) := by
  have hsend : Tells translator plain n (guardedIpcSend env) := by
    intro w hw
    refine (guardedIpcSend_view w).mono fun _ v ⟨_, writes, hview, _⟩ => ?_
    show AllTold translator plain n v.blameView
    rw [hview]
    exact hw.write writes
  unfold sendHelloAck
  split
  · exact Preserves.bind (.modify fun w hw => hw.write [.unencoded]) fun _ => .pure _
  · refine hsend.bind fun header => .ite (hsend.bind fun payload => ?_) (.pure _)
    exact Preserves.bind (.onlyIf (tells_record rfl)) fun _ => .pure _

theorem tells_handleHello (p : Payload) : Tells translator plain n (handleHello env config p) := by
  have hleave : Tells translator plain n (do setFatalExit; pure Flow.leave : Loop Flow) :=
    tells_setFatalExit.bind fun _ => .pure _
  unfold handleHello
  split
  · refine .ite ((tells_sendError rfl _ _ _).bind fun _ => hleave) (.ite hleave ?_)
    refine .bind (.modify fun _ hw => hw) fun _ => tells_sendHelloAck.bind fun sent => .ite (.pure _) ?_
    exact (tells_stopRunning true).bind fun _ => .pure _
  · exact hleave

theorem dispatch_told (henv : env.Translates) (p : Payload) {w : WorkerState} (hw : AllTold translator plain n w.blameView)
    (hfresh : w.trace.length = n) : Ends (dispatch env config p) w fun _ v => AllTold translator plain n v.blameView := by
  refine Ends.get_bind (Ends.ite (fun _ => tells_handleHello p w hw) fun _ => ?_)
  have hproceed {m : Loop Unit} (hm : Tells translator plain n m) :
      Ends (do m; pure Flow.proceed) w fun _ v => AllTold translator plain n v.blameView :=
    hm.bind (fun _ => .pure _) w hw
  split
  · exact hproceed (tells_handleStart _)
  · exact hproceed (tells_handlePosition _)
  · exact hproceed (tells_handleAudio _)
  · exact hproceed (tells_handlePause _)
  · exact hproceed (tells_handleResume _)
  · exact tells_handleStop henv _ w hw
  · exact (handleTranslateCtrl_told _ hw hfresh).bind fun _ v hv => hv
  · exact hproceed (tells_handleModelCtrl _)
  · exact tells_handleShutdown henv w hw
  · exact hw

theorem tells_rejectFrame (p : Option Payload) : Tells translator plain n (rejectFrame env p) := by
  have hleave : Tells translator plain n (do setFatalExit; pure Flow.leave : Loop Flow) :=
    tells_setFatalExit.bind fun _ => .pure _
  refine .get_bind fun w hw => ?_
  split
  · refine Preserves.ite ((tells_sendError rfl _ _ _).bind fun sent => .ite (.pure _) hleave) hleave w hw
  · exact hleave w hw

theorem handleFrame_told (henv : env.Translates) (f : Frame) {w : WorkerState} (hw : AllTold translator plain n w.blameView)
    (hfresh : w.trace.length = n) : Ends (handleFrame env config f) w fun _ v => AllTold translator plain n v.blameView := by
  rw [handleFrame_eq]
  split
  · exact dispatch_told henv _ hw hfresh
  · exact tells_rejectFrame _ w hw

/-! ## Rounds -/

theorem tells_pollModelDownload : Tells translator plain n (pollModelDownload env) := by
  refine .get_bind fun w hw => Preserves.onlyIf ((tells_ask _).bind fun progress => ?_) w hw
  cases progress with
  | none => exact .pure _
  | some p =>
    refine (tells_ask _).bind fun nowUs => .bind (.onlyIf ?_) fun _ => .onlyIf (.modify fun _ hv => hv)
    exact (tells_orFatal (tells_sendModelProgress _ _)).bind fun _ => .modify fun _ hv => hv

theorem tells_lookahead : Tells translator plain n (lookahead env config) := by
  refine .get_bind fun w hw => Preserves.ite (.pure _) ((tells_call .readSource env.readSource).bind fun read => ?_) w hw
  cases read with
  | ok samples ptsUs =>
    refine .ite (.bind (.modify fun _ hv => hv) fun _ => .get_bind fun v hv => ?_) (.pure _)
    exact Preserves.bind (.loop tells_chunkRound _) (fun _ => .pure _) v hv
  | again => exact .pure _
  | eof =>
    refine .bind (.modify fun _ hv => hv) fun _ => tells_flushAudioTail.bind fun flushed => .ite (tells_fail _ _ _) ?_
    exact tells_reportStatus.bind fun _ => .pure _
  | error =>
    refine (tells_refuse rfl _ _ _).bind fun _ => .bind (.modify fun v hv => ?_) fun _ => .pure _
    have hended := (hv.clear (toList_clear_queue v.builder)).invalidate
    exact hended.records (l := [.ended, .invalidated .readError]) (by simp [Event.isSilent])

theorem iterate_told (henv : env.Translates) (frame : Option Frame) {w : WorkerState}
    (hw : AllTold translator plain n w.blameView) (hfresh : w.trace.length = n) :
    Ends (iterate env config frame) w fun _ v => AllTold translator plain n v.blameView := by
  have hnext : Ends (handleNext env config frame) w fun _ v => AllTold translator plain n v.blameView := by
    cases frame with
    | none => exact hw
    | some f => exact handleFrame_told henv f hw hfresh
  refine hnext.bind fun flow v hv => ?_
  refine Preserves.ite (.bind (tells_deliverResults henv) fun _ => tells_pollModelDownload.bind fun _ => ?_) (.pure _) v hv
  refine tells_lookahead.bind fun flow => .ite ?_ (.pure _)
  exact (tells_emitSegments henv).bind fun _ => (tells_deliverResults henv).bind fun _ => .pure _

theorem tells_finish (flow : Flow) : Tells translator plain n (finish flow) := by
  cases flow with
  | leave => exact (tells_stopRunning false).bind fun _ => .modify fun _ hw => hw
  | hang => exact .modify fun _ hw => hw
  | _ => exact .pure ()

/-- **One round.** -/
theorem wake_told (henv : env.Translates) (frame : Option Frame) {w : WorkerState}
    (hw : AllTold translator plain n w.blameView) (hfresh : w.trace.length = n) :
    Ends (wake env config frame) w fun _ v => AllTold translator plain n v.blameView := by
  have hawake : Ends (awake env frame) w fun _ v =>
      AllTold translator plain n v.blameView ∧ v.trace.length = n := by
    cases frame with
    | some f => exact ⟨hw, hfresh⟩
    | none => exact ⟨tells_runThreads henv w hw, hfresh⟩
  refine Ends.get_bind (Ends.onlyIf (fun _ => hawake.bind fun woken v ⟨hv, hvfresh⟩ => ?_) fun _ => hw)
  have hload : Ends (loadRunning env) v fun _ u => AllTold translator plain n u.blameView ∧ u.trace.length = n := by
    refine ⟨tells_loadRunning v hv, ?_⟩
    have htrace : ((loadRunning env).run v).2.trace = v.trace := by
      show ((onlyIf (env.readerFailed v.tick) (stopRunning true)).run { v with tick := v.tick + 1 }).2.trace = v.trace
      cases env.readerFailed v.tick <;> rfl
    rw [htrace]
    exact hvfresh
  refine hload.bind fun running u ⟨hu, hufresh⟩ => Ends.ite (fun _ => hu) fun _ => Ends.onlyIf (fun _ => ?_) fun _ => hu
  exact (iterate_told henv frame hu hufresh).bind fun flow x hx => tells_finish flow x hx

/-! ## Cues that are to be translated -/

/-- The cues that were popped while translation was on, or while it was off: a round changes that before it pops any. -/
def poppedWhile (config : Config) (enabled : Bool) : WorkerState → List (Env × Option Frame) → List Cue
  | _, [] => []
  | w, r :: rounds =>
    let v := w.step r.1 config r.2
    (if v.translateEnabled = enabled then poppedCues (v.trace.drop w.trace.length) else []) ++
      poppedWhile config enabled v rounds

/-- The cues that a run was to translate. -/
def toTranslate (config : Config) (engine translator : Bool) (rounds : List (Env × Option Frame)) : List Cue :=
  poppedWhile config true (.start engine translator) rounds

theorem not_popped_before {enabled : Bool} {w : WorkerState} {rounds : List (Env × Option Frame)} {cue : Cue}
    (hw : w.core.PopsOnce) (hcue : cue ∈ poppedWhile config enabled w rounds) : .popped cue ∉ w.trace := by
  induction rounds generalizing w with
  | nil => cases hcue
  | cons r rounds ih =>
    intro hbefore
    have hv := @popsOnce_round r.1 config _ hw r.2
    obtain ⟨new, hnew⟩ := @trace_round r.1 config w r.2
    rcases List.mem_append.mp hcue with hcue | hcue
    · split at hcue
      · have hnodup : (poppedCues (w.step r.1 config r.2).trace).Nodup := hv.nodup
        rw [← hnew, List.drop_left] at hcue
        rw [← hnew, poppedCues_append] at hnodup
        exact (List.nodup_append.mp hnodup).2.2 cue (mem_poppedCues.mpr hbefore) cue hcue rfl
      · cases hcue
    · refine ih hv hcue ?_
      rw [← hnew]
      exact List.mem_append_left _ hbefore

/-- No cue is popped both ways. -/
theorem not_poppedWhile_off {w : WorkerState} {rounds : List (Env × Option Frame)} {cue : Cue} (hw : w.core.PopsOnce)
    (hoff : cue ∈ poppedWhile config false w rounds) : cue ∉ poppedWhile config true w rounds := by
  induction rounds generalizing w with
  | nil => cases hoff
  | cons r rounds ih =>
    intro hon
    have hv := @popsOnce_round r.1 config _ hw r.2
    have hin {enabled : Bool} (hcue : cue ∈ if (w.step r.1 config r.2).translateEnabled = enabled then
        poppedCues ((w.step r.1 config r.2).trace.drop w.trace.length) else []) :
        (w.step r.1 config r.2).translateEnabled = enabled ∧ .popped cue ∈ (w.step r.1 config r.2).trace := by
      split at hcue
      · exact ⟨‹_›, List.mem_of_mem_drop (mem_poppedCues.mp hcue)⟩
      · cases hcue
    rcases List.mem_append.mp hoff with hoff | hoff
    · rcases List.mem_append.mp hon with hon | hon
      · have hflag := (hin hon).1
        rw [(hin hoff).1] at hflag
        cases hflag
      · exact not_popped_before hv hon (hin hoff).2
    · rcases List.mem_append.mp hon with hon | hon
      · exact not_popped_before hv hoff (hin hon).2
      · exact ih hv hoff hon

/-! ## Runs -/

theorem allTold_start (plain : Cue → Prop) (engine translator : Bool) :
    AllTold translator plain 0 (WorkerState.start engine translator).blameView where
  present := by cases translator <;> rfl
  held := by
    intro t ht
    cases translator with
    | false => cases ht
    | true =>
      obtain rfl := Option.some.inj ht
      exact TranslateAsync.blamable_create
  queue := fun cue hcue => nomatch (show cue ∈ ([] : List Cue) from hcue)
  start := le_rfl
  told := trivial
  settled := nofun

theorem told_run {w : WorkerState} {rounds : List (Env × Option Frame)}
    (hw : AllTold translator plain w.trace.length w.blameView) (henv : ∀ r ∈ rounds, r.1.Translates)
    (hplain : ∀ cue ∈ poppedWhile config false w rounds, plain cue) : ∃ n,
      AllTold translator plain n (run (fun w (r : Env × Option Frame) => w.step r.1 config r.2) w rounds).blameView ∧
        n = (run (fun w (r : Env × Option Frame) => w.step r.1 config r.2) w rounds).trace.length := by
  induction rounds generalizing w with
  | nil => exact ⟨_, hw, rfl⟩
  | cons r rounds ih =>
    have hround : AllTold translator plain w.trace.length (w.step r.1 config r.2).blameView :=
      wake_told (henv r List.mem_cons_self) r.2 hw rfl
    refine ih (w := w.step r.1 config r.2) ?_ (fun x hx => henv x (List.mem_cons_of_mem r hx)) fun cue hcue => ?_
    · -- what was popped in this round while translation was off needs none
      have hpopped (cue : Cue) (hcue : (w.step r.1 config r.2).blameView.plain plain w.trace.length cue) : plain cue := by
        rcases hcue with hcue | ⟨hoff, hmem⟩
        · exact hcue
        have hoff : (w.step r.1 config r.2).translateEnabled = false := hoff
        refine hplain cue (List.mem_append_left _ ?_)
        rw [if_pos hoff]
        exact mem_poppedCues.mpr hmem
      exact { hround with start := le_rfl, told := hround.told.mono fun _ _ hx => hx.mono (fun cue hcue => .inl (hpopped cue hcue)) id }
    · exact hplain cue (List.mem_append_right _ hcue)

/-! ## What is written -/

def Event.isWritten : Event → Bool
  | .frame _ _ => true
  | .caption _ _ => true
  | _ => false

def written (trace : List Event) : List Event := trace.filter Event.isWritten

theorem written_eq (trace : List Event) : written trace = (wire trace).filter Event.isWritten := by
  unfold written wire
  rw [List.filter_filter]
  refine List.filter_congr fun x _ => ?_
  cases x <;> rfl

/-- Blame lines and the captions of the given cues go together: such a caption without a translation is marked as
attempted, and what was written right before it is a blame line of it, and one only unless `crowded`; a blame line is
followed by its cue unless a write `failed`. -/
structure BlameLaw (cues : List Cue) (crowded failed : Prop) (written : List Event) : Prop where
  blamed : ∀ pre sequence c post, written = pre ++ .caption sequence c :: post → c.cue ∈ cues → c.translatedText = none →
    c.translationAttempted = true ∧ ∃ before sequence' e, pre = before ++ [.frame sequence' (.error e)] ∧
      isBlame (.error e) = true ∧ Blames e c ∧ ((∃ e', EndsInBlame before e') → crowded)
  followed : ∀ pre sequence e post, written = pre ++ .frame sequence (.error e) :: post → isBlame (.error e) = true →
    failed ∨ ∃ sequence' c post', post = .caption sequence' c :: post' ∧ Blames e c ∧ c.translatedText = none ∧
      c.translationAttempted = true

theorem exists_of_filter_eq {β : Type} {p : β → Bool} {l pre post : List β} {x : β} (h : l.filter p = pre ++ x :: post) :
    ∃ l₁ l₂, l = l₁ ++ x :: l₂ ∧ l₁.filter p = pre ∧ l₂.filter p = post := by
  obtain ⟨l₁, rest, rfl, hpre, hrest⟩ := List.filter_eq_append_iff.mp h
  obtain ⟨skipped, l₂, rfl, hskipped, hx, hpost⟩ := List.filter_eq_cons_iff.mp hrest
  refine ⟨l₁ ++ skipped, l₂, (List.append_assoc ..).symm, ?_, hpost⟩
  rw [List.filter_append, hpre, List.filter_eq_nil_iff.mpr hskipped, List.append_nil]

section

variable {failed : Prop} {told : Cue → Prop} {wire : List Event}

/-- A blame line is answered by the next event. -/
theorem exists_answer (hwire : Explained (Told translator told failed) wire) (hsettled : ∀ e, ¬ EndsInBlame wire e)
    {pre post : List Event} {sequence : UInt64} {e : Error} (heq : wire = pre ++ .frame sequence (.error e) :: post)
    (he : isBlame (.error e) = true) : ∃ x later, post = x :: later ∧ Answers failed e x := by
  have hends : EndsInBlame (pre ++ [.frame sequence (.error e)]) e := endsInBlame_append.mpr ⟨he, sequence, rfl⟩
  cases post with
  | nil => exact (hsettled e (heq ▸ hends)).elim
  | cons x later =>
    rw [List.append_cons] at heq
    exact ⟨x, later, rfl, (explained_iff.mp hwire _ x later heq).answers e hends⟩

/-- Between two blame lines a write failed. -/
theorem failed_between (hwire : Explained (Told translator told failed) wire) (hsettled : ∀ e, ¬ EndsInBlame wire e)
    {pre post : List Event} {sequence : UInt64} {e e' : Error} (heq : wire = pre ++ .frame sequence (.error e) :: post)
    (hends : EndsInBlame (pre.filter Event.isWritten) e') : failed := by
  obtain ⟨he', sequence', hlast⟩ := hends
  obtain ⟨before, hbefore⟩ := List.getLast?_eq_some_iff.mp hlast
  obtain ⟨l₁, skipped, rfl, -, hskipped⟩ := exists_of_filter_eq hbefore
  rw [List.append_assoc, List.cons_append] at heq
  obtain ⟨x, later, hnext, hx⟩ := exists_answer hwire hsettled heq he'
  cases skipped with
  | nil =>
    obtain ⟨rfl, -⟩ := List.cons.inj hnext
    exact hx.elim
  | cons y skipped =>
    obtain ⟨rfl, -⟩ := List.cons.inj hnext
    have hunwritten := List.filter_eq_nil_iff.mp hskipped y List.mem_cons_self
    cases y with
    | lost c => exact hx.2
    | caption sequence c => exact (hunwritten rfl).elim
    | _ => exact hx.elim

theorem blameLaw_of_told (hwire : Explained (Told true told failed) wire) (hsettled : ∀ e, ¬ EndsInBlame wire e)
    {cues : List Cue} (hcues : ∀ cue ∈ cues, ¬ told cue) : BlameLaw cues failed failed (wire.filter Event.isWritten) where
  blamed := by
    intro pre sequence c post heq hcue hnone
    obtain ⟨l₁, l₂, hsplit, rfl, -⟩ := exists_of_filter_eq heq
    have hcaption := explained_iff.mp hwire l₁ _ l₂ hsplit
    obtain ⟨e, he⟩ := (hcaption.blamed rfl sequence c rfl hnone).resolve_left (hcues c.cue hcue)
    obtain ⟨hblames, -, hattempted⟩ := hcaption.answers e he
    obtain ⟨hblame, sequence', hlast⟩ := he
    obtain ⟨before, rfl⟩ := List.getLast?_eq_some_iff.mp hlast
    refine ⟨hattempted, before.filter Event.isWritten, sequence', e, ?_, hblame, hblames, fun ⟨e', he'⟩ => ?_⟩
    · rw [List.filter_append]
      rfl
    · rw [← List.append_cons] at hsplit
      exact failed_between hwire hsettled hsplit he'
  followed := by
    intro pre sequence e post heq he
    obtain ⟨l₁, l₂, hsplit, -, rfl⟩ := exists_of_filter_eq heq
    obtain ⟨x, later, rfl, hx⟩ := exists_answer hwire hsettled hsplit he
    cases x with
    | caption sequence' c => exact .inr ⟨sequence', c, later.filter Event.isWritten, rfl, hx⟩
    | lost c => exact .inl hx.2
    | _ => exact hx.elim

end

/-- **Translation blame.** With a translator, whatever the frames, the services and the pipe do; without one, nothing is
blamed and nothing is translated. -/
theorem translation_blame (config : Config) (engine : Bool) (rounds : List (Env × Option Frame))
    (henv : ∀ r ∈ rounds, r.1.Translates) :
    BlameLaw (toTranslate config engine true rounds) (.failed ∈ (roundsRun config engine true rounds).writes)
        (.failed ∈ (roundsRun config engine true rounds).writes) (written (roundsRun config engine true rounds).trace) ∧
      ∀ x ∈ written (roundsRun config engine false rounds).trace,
        x.isBlame = false ∧ ∀ sequence c, x = .caption sequence c → c.translatedText = none := by
  refine ⟨?_, fun x hx => ?_⟩
  · obtain ⟨n, hrun, hn⟩ := @told_run true (· ∉ toTranslate config engine true rounds) config (.start engine true) rounds
      (allTold_start _ engine true) henv fun cue hcue => not_poppedWhile_off (popsOnce_start engine true) hcue
    rw [written_eq]
    refine blameLaw_of_told hrun.told hrun.settled fun cue hcue hplain => ?_
    rcases hplain with hplain | ⟨-, hmem⟩
    · exact hplain hcue
    · have hmem : .popped cue ∈ (roundsRun config engine true rounds).trace.drop n := hmem
      rw [List.drop_of_length_le (le_of_eq hn.symm)] at hmem
      cases hmem
  · obtain ⟨n, hrun, -⟩ := @told_run false (fun _ => True) config (.start engine false) rounds
      (allTold_start _ engine false) henv fun _ _ => trivial
    rw [written_eq] at hx
    obtain ⟨pre, post, hsplit⟩ := List.append_of_mem (List.mem_of_mem_filter hx)
    exact (explained_iff.mp hrun.told pre x post hsplit).degraded rfl

/-- No service can be reached. -/
def Services.offline : Services := ⟨true, true, fun _ => true, fun _ => .failed .transport 0, fun _ => 0⟩

/-- The translator takes two cues, and fails; the write with number `lost` fails, too. -/
def Env.offline (lost : Nat) (read : SourceRead) : Env :=
  let failed := ((translateTextDetailed .offline (ascii "Hi")).run 0).1
  { Env.oneCue read with
    ipcSend n := n != lost
    threads _ := [.take, .take, .complete 0 failed, .complete 0 failed]
    transcribe _ := some [⟨0, 1000000, false, ascii "Hi"⟩, ⟨1000000, 2000000, false, ascii "Hello"⟩] }

theorem translates_offline (lost : Nat) (read : SourceRead) : (Env.offline lost read).Translates := by
  intro n i o ho
  simp only [Env.offline, List.mem_cons, reduceCtorEq, ThreadStep.complete.injEq, List.not_mem_nil, or_false,
    false_or, or_self] at ho
  exact ⟨.offline, ascii "Hi", 0, by decide, ho.2⟩

/-- The client asks for the translation of a file. -/
def offlineRounds (lost : Nat) : List (Env × Option Frame) :=
  [(.offline lost .again, some hello),
    (.offline lost .again,
      some (QueueLog.frameOf (.translateCtrl ⟨.zero _, 1, .ofStr _ (ascii "en"), .ofStr _ (ascii "fr"), 1⟩))),
    (.offline lost (.ok 1 0), some (QueueLog.frameOf (.startSession fileStart))), (.offline lost .eof, none)]

theorem translates_offlineRounds (lost : Nat) : ∀ r ∈ offlineRounds lost, r.1.Translates := by
  intro r hr
  simp only [offlineRounds, List.mem_cons, List.not_mem_nil, or_false] at hr
  rcases hr with rfl | rfl | rfl | rfl
  all_goals exact translates_offline lost _

/-- Both cues are blamed, and written after that. -/
theorem translation_blame_offline :
    (toTranslate downloader true true (offlineRounds 0)).length = 2 ∧
      (written (roundsRun downloader true true (offlineRounds 0)).trace).any Event.isBlame = true ∧
      BlameLaw (toTranslate downloader true true (offlineRounds 0))
        (.failed ∈ (roundsRun downloader true true (offlineRounds 0)).writes)
        (.failed ∈ (roundsRun downloader true true (offlineRounds 0)).writes)
        (written (roundsRun downloader true true (offlineRounds 0)).trace) := by
  refine ⟨by decide +kernel, by decide +kernel, ?_⟩
  exact (translation_blame downloader true (offlineRounds 0) (translates_offlineRounds 0)).1

/-- With no more than one blame line before a caption, in every run of workers that have a translator, or that have none. -/
def BlamesAlways (translator : Bool) : Prop :=
  ∀ (config : Config) (engine : Bool) (rounds : List (Env × Option Frame)), (∀ r ∈ rounds, r.1.Translates) →
    BlameLaw (toTranslate config engine translator rounds) False (.failed ∈ (roundsRun config engine translator rounds).writes)
      (written (roundsRun config engine translator rounds).trace)

/-- A caption of one of the cues, without a translation. -/
def Event.isUntranslated (cues : List Cue) : Event → Bool
  | .caption _ c => cues.contains c.cue && c.translatedText.isNone
  | _ => false

theorem BlameLaw.last {cues : List Cue} {crowded failed : Prop} {written : List Event} (h : BlameLaw cues crowded failed written)
    (hlast : written.getLast?.any (Event.isUntranslated cues) = true) :
    written.dropLast.getLast?.any Event.isBlame = true ∧
      (written.dropLast.dropLast.getLast?.any Event.isBlame = true → crowded) := by
  obtain ⟨x, hx, huntranslated⟩ := (Option.any_eq_true _ _).mp hlast
  obtain ⟨pre, rfl⟩ := List.getLast?_eq_some_iff.mp hx
  rw [List.dropLast_concat]
  cases x with
  | caption sequence c =>
    simp only [Event.isUntranslated, Bool.and_eq_true, List.contains_iff_mem, Option.isNone_iff_eq_none] at huntranslated
    obtain ⟨-, before, sequence', e, rfl, he, -, hcrowded⟩ := h.blamed pre sequence c [] rfl huntranslated.1 huntranslated.2
    rw [List.dropLast_concat, List.getLast?_concat]
    refine ⟨he, fun hbefore => hcrowded ?_⟩
    obtain ⟨y, hy, hblame⟩ := (Option.any_eq_true _ _).mp hbefore
    unfold Event.isBlame Worker.isBlame at hblame
    split at hblame
    · split at hblame
      · exact ⟨_, hblame, _, hy⟩
      · cases hblame
    · cases hblame
  | _ => cases huntranslated

/-- Without a translator nothing is blamed. With one, the blame line of a caption that could not be written may stand right
before the next one. -/
theorem not_blamesAlways : ¬ BlamesAlways false ∧ ¬ BlamesAlways true := by
  refine ⟨fun h => ?_, fun h => ?_⟩
  · have hlast := (h downloader true (offlineRounds 0) (translates_offlineRounds 0)).last (by decide +kernel)
    have hnone : ((written (roundsRun downloader true false (offlineRounds 0)).trace).dropLast.getLast?.any Event.isBlame) =
        false := by
      decide +kernel
    rw [hlast.1] at hnone
    cases hnone
  · have hlast := (h downloader true (offlineRounds 35) (translates_offlineRounds 35)).last (by decide +kernel)
    exact hlast.2 (by decide +kernel)

end VlcWhisper.Worker
