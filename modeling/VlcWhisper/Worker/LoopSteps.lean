import VlcWhisper.Worker.WorkerSteps

/-!
# A round of the main loop, step by step

Main result: `step_steps`, a round of the main loop, whatever the frame and the environment, is a sequence of the steps
`Core.Step`. The transcription comes first, as it says which cues a window leads to; then one lemma for each handler.
-/

namespace VlcWhisper.Worker

open VlcWhisper.Lib VlcWhisper.Protocol SegmentBuilder Relation

variable {env : Env} {config : Config}

/-! ## Transcription -/

theorem Heard.refl (b : SegmentBuilder) : Heard b [] b := ⟨by simp, by simp, by simp, by simp⟩

theorem Heard.trans {a b c : SegmentBuilder} {cues later : List Cue} (h : Heard a cues b) (h' : Heard b later c) :
    Heard a (cues ++ later) c where
  queue := by rw [h'.queue, h.queue, List.append_assoc]
  next := by rw [h'.next, h.next, List.length_append, Nat.add_assoc]
  ids := by rw [List.map_append, h.ids, h'.ids, h.next, List.length_append, List.range'_append_1]
  texts := by
    intro c hc
    rcases List.mem_append.mp hc with hc | hc
    · exact h.texts c hc
    · exact h'.texts c hc

theorem pushHypothesis_heard (mem : Site → Alloc) (b : SegmentBuilder) (text : Bytes) (start stop : Int) :
    ∃ cues, Heard b cues (pushHypothesis mem b text start stop).1 := by
  generalize hpush : pushHypothesis mem b text start stop = r
  obtain ⟨b', accepted⟩ := r
  rcases pushHypothesis_cases hpush with ⟨-, rfl⟩ | ⟨-, hcand, out, s, -, hacc, hemit⟩
  · exact ⟨[], .refl _⟩
  · obtain ⟨hlen, hblank, -⟩ := emitted_bounds hcand hacc
    refine ⟨[⟨b.nextSegmentId, s, stop, out⟩], hemit.queue, hemit.nextSegmentId, rfl, ?_⟩
    intro c hc
    obtain rfl := List.mem_singleton.mp hc
    refine ⟨?_, hlen⟩
    intro hnil
    obtain rfl : out = [] := hnil
    exact absurd hblank (by decide)

theorem pushSegments_heard (memory : Nat → Site → Alloc) (windowPtsUs : Int) (limitUs : Option Int) (i : Nat)
    (b : SegmentBuilder) (segs : List WhisperSegment) :
    ∃ cues, Heard b cues (pushSegments memory windowPtsUs limitUs i b segs) := by
  induction segs generalizing i b with
  | nil => exact ⟨[], .refl b⟩
  | cons s segs ih =>
    rw [pushSegments]
    split
    · exact ih (i + 1) b
    · obtain ⟨cues, hcues⟩ := pushHypothesis_heard (memory i) b s.text (s.span windowPtsUs).1 (s.span windowPtsUs).2
      obtain ⟨later, hlater⟩ := ih (i + 1) (pushHypothesis (memory i) b s.text (s.span windowPtsUs).1
        (s.span windowPtsUs).2).1
      exact ⟨cues ++ later, hcues.trans hlater⟩

theorem steps_transcribeWindow {w : WorkerState} {window : List SessionId} (hne : window ≠ [])
    (hsub : ∀ t ∈ window, t ∈ w.audioBuf.toList) (windowPtsUs : Int) (limitUs : Option Int) :
    CoreStepsAt w (transcribeWindow env window windowPtsUs limitUs) := by
  refine (steps_call .whisper env.transcribe w).bind ?_
  split
  · exact .refl
  rename_i segs _
  obtain ⟨cues, hcues⟩ := pushSegments_heard (env.memory (w.tick + 1)) windowPtsUs limitUs 0 w.builder segs
  refine .of_step ?_
  have hstep := Core.Step.hear (c := w.core) window cues _ hne hsub hcues
  rw [show cues = (pushSegments (env.memory (w.tick + 1)) windowPtsUs limitUs 0 w.builder segs).queue.toList.drop
    w.builder.queue.toList.length by rw [hcues.queue, List.drop_left]] at hstep
  exact hstep

theorem steps_drainAudio (samples : Nat) : CoreSteps (drainAudio samples) := by
  refine .modify fun w => .single (.buffer _ ?_)
  intro t ht
  exact .inl (List.mem_of_mem_drop (AudioBuffer.toList_drain w.audioBuf samples ▸ ht))

theorem getSamples_subset {α : Type} {maxSamples : Nat} (b : AudioBuffer α maxSamples) (maxOut : Nat) :
    ∀ t ∈ (b.getSamples maxOut).1, t ∈ b.toList := by
  rw [AudioBuffer.getSamples]
  split
  · simp
  · exact fun t ht => List.mem_of_mem_take ht

theorem take_cutSamples_ne_nil {α : Type} {window : List α} {isEof : Bool} {speech : Speech} {b : Boundary}
    (h : findChunkBoundary window.length isEof speech = some b) (hcut : 0 < b.cutSamples) :
    window.take b.cutSamples ≠ [] := by
  have hne : window ≠ [] := by
    rintro rfl
    simp [findChunkBoundary] at h
  simpa [List.take_eq_nil_iff, hne] using hcut.ne'

theorem steps_flushRound : CoreSteps (flushRound env) := by
  refine .get_bind fun v => ?_
  split
  · exact .refl
  refine (steps_detect _ env.speech v).bind ?_
  split
  · exact .refl
  rename_i b hb
  split
  · exact .refl
  rename_i hzero
  split
  · exact (steps_drainAudio _).bind (fun _ => .pure _) _
  rename_i hsilence
  simp only [Bool.and_eq_true, decide_eq_true_eq, not_and] at hzero
  refine (steps_transcribeWindow (take_cutSamples_ne_nil hb (by omega)) ?_ _ _).bind ?_
  · exact fun t ht => getSamples_subset v.audioBuf _ t (List.mem_of_mem_take ht)
  · split
    · exact (steps_drainAudio _).bind (fun _ => .pure _) _
    · exact .refl

theorem steps_flushAudioTail : CoreSteps (flushAudioTail env) := by
  refine .get_bind fun w => ?_
  split
  · exact .refl
  · exact Steps.bind (.loop steps_flushRound _) (fun _ => .pure _) w

/-! ## START_SESSION -/

theorem clear_steps (c : Core) {b : SegmentBuilder} (hqueue : b.queue.toList = [])
    (hnext : b.nextSegmentId = c.builder.nextSegmentId) :
    ReflTransGen Core.Step c { c with buffer := [], builder := b } :=
  .head (.buffer [] (by simp)) (.single (.clearBuilder b hqueue hnext))

theorem end_steps (c : Core) {b : SegmentBuilder} (hqueue : b.queue.toList = [])
    (hnext : b.nextSegmentId = c.builder.nextSegmentId) : ReflTransGen Core.Step c
      ({ c with buffer := [], builder := b, decoder := none, sessionActive := false }.record [.ended]) :=
  ((clear_steps c hqueue hnext).tail .closeSource).tail .stop

theorem toList_clear_queue (b : SegmentBuilder) : b.clear.queue.toList = [] := Ring.toList_clear b.queue

theorem stop_steps (c : Core) (why : Reset) (hwhy : ∀ waiting, why ≠ .translateCtrl waiting) : ReflTransGen Core.Step c
    ({ c with buffer := [], builder := c.builder.clear, decoder := none, sessionActive := false
              translator := c.translator.map TranslateAsync.invalidate }.record [.ended, .invalidated why]) := by
  have h := (end_steps c (toList_clear_queue c.builder) rfl).tail (.invalidate why hwhy)
  simpa only [Core.record, List.append_assoc, List.singleton_append] using h

theorem popAll_queue {fuel : Nat} {b : SegmentBuilder} (h : b.queue.count ≤ fuel) :
    (popAll fuel b).queue.toList = [] ∧ (popAll fuel b).nextSegmentId = b.nextSegmentId := by
  induction fuel generalizing b with
  | zero => exact ⟨(Ring.count_eq_zero_iff _).mp (Nat.le_zero.mp h), rfl⟩
  | succ fuel ih =>
    rw [popAll, SegmentBuilder.pop]
    cases hpop : b.queue.pop with
    | none => exact ⟨Ring.toList_of_pop_eq_none hpop, rfl⟩
    | some r =>
      have hcount := congrArg List.length (Ring.toList_of_pop_eq_some (r := b.queue) (x := r.1) (s := r.2) hpop)
      simp only [Ring.length_toList, List.length_cons] at hcount
      exact ih (b := { b with queue := r.2 }) (by simp only; omega)

theorem steps_replaceSession : CoreSteps (modify WorkerState.replaceSession) := by
  refine .modify fun w => ?_
  obtain ⟨hqueue, hnext⟩ := popAll_queue (b := w.builder) le_rfl
  exact end_steps w.core hqueue hnext

theorem steps_closeSource {f : WorkerState → WorkerState}
    (h : ∀ w, (f w).core = { w.core with decoder := none }) : CoreSteps (modify f) :=
  .modify fun w => h w ▸ .single .closeSource

theorem steps_ask_onlyIf (answer : Nat → Bool) (c : Bool → Bool) {m : Loop Unit} (h : CoreSteps m) :
    CoreSteps (do
      let answered ← ask answer
      onlyIf (c answered) m) :=
  (steps_ask answer).bind fun _ => .onlyIf h

theorem steps_openSource {w : WorkerState} {p : Start} (h : w.sessionId = p.sessionId)
    (hactive : w.sessionActive = true) : CoreStepsAt w (openSource env p) := by
  rw [openSource]
  split
  · refine (steps_call .openSource env.openSource w).bind ?_
    split
    · refine .modify_bind (.single ?_) ?_
      · change Core.Step w.core { w.core with decoder := some p.sessionId }
        exact h ▸ .openSource hactive
      · exact (Steps.onlyIf (steps_ask_onlyIf env.seekSource _ (steps_closeSource fun _ => rfl))).bind
          (fun _ => .pure _) _
    · refine .modify_bind .refl ((steps_sendError _ _ _ _).bind (fun _ => ?_) _)
      exact (Steps.onlyIf (steps_stopRunning true)).bind fun _ => .pure _
  · exact .modify_bind .refl .refl

theorem steps_handleStart (p : Start) : CoreSteps (handleStart env config p) := by
  refine .get_bind fun w => ?_
  split
  · exact steps_orFatal (steps_sendError _ _ _ _) w
  refine (Steps.onlyIf steps_replaceSession).bind (fun _ => ?_) w
  refine .ite (steps_orFatal (steps_sendError _ _ _ _)) (.ite (steps_orFatal (steps_sendError _ _ _ _))
    (.ite (steps_orFatal (steps_sendError _ _ _ _)) ?_))
  intro v
  refine .modify_bind (.single (.start p.sessionId)) ?_
  refine (steps_openSource rfl rfl).bind ?_
  refine Steps.onlyIf (.get_bind fun u => ?_) _
  refine (steps_sendPayload _ _).bind (fun _ => ?_) u
  exact .ite steps_reportStatus (steps_stopRunning true)

/-! ## POSITION -/

theorem steps_clearPipeline : CoreSteps (modify WorkerState.clearPipeline) :=
  .modify fun w => clear_steps w.core (toList_clear_queue w.builder) rfl

theorem reanchor_steps (ptsUs : Int) (w : WorkerState) : ReflTransGen Core.Step w.core (w.reanchor ptsUs).core :=
  clear_steps w.core (toList_clear_queue w.builder) rfl

theorem invalidate_steps (why : Reset) (hwhy : ∀ waiting, why ≠ .translateCtrl waiting) (w : WorkerState) :
    ReflTransGen Core.Step w.core (w.invalidate why).core :=
  .single (.invalidate why hwhy)

theorem steps_changePause (p : Position) : CoreSteps (changePause env p) := by
  intro w
  refine .modify_bind .refl (StepsAt.get_bind ?_)
  split
  · exact steps_clearPipeline _
  · refine Steps.onlyIf (steps_ask_onlyIf env.seekSource (fun seeked => seeked) (.modify fun v => ?_)) _
    exact reanchor_steps p.currentPtsUs.toInt { v with lastPlaybackPtsUs := p.currentPtsUs.toInt }

theorem steps_followPause (p : Position) : CoreSteps (followPause env config p) := by
  refine .get_bind fun w => ?_
  split
  · exact .refl
  refine (steps_changePause p).bind (fun _ => .get_bind fun v => ?_) w
  refine (steps_sendStatus _ _ _).bind (fun _ => ?_) v
  exact (Steps.onlyIf (steps_stopRunning true)).bind fun _ => .pure _

theorem steps_seekTo (p : Position) : CoreSteps (seekTo env p) := by
  refine (steps_ask env.seekSource).bind fun seeked => .ite (.modify fun _ => .refl) (.modify fun w => ?_)
  exact (invalidate_steps .seek nofun { w with seekFailedPending := false }).trans (reanchor_steps _ _)

theorem steps_followSource (p : Position) : CoreSteps (followSource env p) := by
  refine .get_bind fun w => (Steps.onlyIf (steps_seekTo p)).bind (fun _ => .get_bind fun v => ?_) w
  dsimp only
  refine Steps.onlyIf ?_ v
  exact .modify fun _ => .refl

theorem steps_handlePosition (p : Position) : CoreSteps (handlePosition env config p) := by
  refine .get_bind fun w => Steps.onlyIf ((steps_followPause p).bind fun _ => .onlyIf (.get_bind fun v => ?_)) w
  split
  · exact steps_followSource p v
  · exact .of_eq rfl

/-! ## AUDIO_PCM -/

theorem steps_inferWindow {w : WorkerState} {window : List SessionId} (hsub : ∀ t ∈ window, t ∈ w.audioBuf.toList)
    (windowPtsUs : Int) (growing : Bool) : CoreStepsAt w (inferWindow env window windowPtsUs growing) := by
  refine .get_bind ?_
  split
  · exact .refl
  rename_i hwindow
  simp only [Bool.or_eq_true, decide_eq_true_eq, not_or] at hwindow
  refine (steps_detect _ env.detectSpeech w).bind ?_
  dsimp only
  split
  · refine steps_transcribeWindow (List.ne_nil_of_length_pos (Nat.pos_of_ne_zero hwindow.1)) ?_ _ _
    exact hsub
  · exact .refl

theorem steps_inferRound : CoreSteps (inferRound env config) := by
  refine .get_bind fun w => ?_
  split
  · exact .refl
  refine (steps_inferWindow (getSamples_subset w.audioBuf _) _ _).bind ?_
  refine Steps.ite ((steps_sendError _ _ _ _).bind fun _ => (steps_stopRunning true).bind fun _ => .pure _) (.ite ?_ ?_) _
  · refine .modify_bind ?_ (steps_loadRunning.bind fun _ => ?_)
    · simp only [WorkerState.core]
      exact fun _ => .refl
    · exact (Steps.onlyIf steps_reportStatus).bind fun _ => .pure _
  · refine steps_loadRunning.bind fun running => .ite (.pure _) ?_
    refine .modify_bind (fun _ => .refl) ?_
    exact (steps_drainAudio _).bind fun _ => steps_reportStatus.bind fun _ => .pure _

/-- The samples of an AUDIO frame are the session's. -/
theorem steps_appendPcm {w : WorkerState} {p : Audio} (h : p.sessionId = w.sessionId)
    (hactive : w.sessionActive = true) : CoreStepsAt w (modify (appendPcm p)) := by
  refine .of_step (.buffer _ ?_)
  intro t ht
  rcases AudioBuffer.toList_append_subset w.audioBuf _ _ t ht with ht | ht
  · exact .inl ht
  · exact .inr (.inl ⟨(List.eq_of_mem_replicate ht).trans h, hactive⟩)

theorem steps_handleAudio (p : Audio) : CoreSteps (handleAudio env config p) := by
  refine .get_bind fun w => ?_
  rw [onlyIf]
  split
  · rename_i hsession
    simp only [Bool.and_eq_true, decide_eq_true_eq] at hsession
    dsimp only
    split
    · exact steps_clearPipeline w
    rw [onlyIf]
    split
    · refine (steps_appendPcm hsession.2 hsession.1.1.1).bind (StepsAt.get_bind ?_)
      exact Steps.bind (.loop steps_inferRound _) (fun _ => .pure _) _
    · exact .refl
  · exact .refl

/-! ## PAUSE, RESUME, STOP_SESSION, TRANSLATE_CTRL -/

theorem steps_handlePause (p : Control) : CoreSteps (handlePause env config p) := by
  refine .get_bind fun w => Steps.onlyIf (.modify_bind (fun v => ?_) steps_reportStatus) w
  exact (clear_steps v.core (toList_clear_queue v.builder) rfl).tail (.invalidate .pause nofun)

theorem steps_handleResume (p : Control) : CoreSteps (handleResume env config p) := by
  refine .get_bind fun w => Steps.onlyIf ?_ w
  refine .modify_bind (fun _ => .refl) ?_
  refine .bind (.get_bind fun v => ?_) fun _ => steps_reportStatus
  refine Steps.onlyIf (steps_ask_onlyIf env.seekSource (fun seeked => seeked) (.modify fun u => ?_)) v
  exact (reanchor_steps _ { u with lastPlaybackPtsUs := u.currentPlaybackPtsUs }).trans (invalidate_steps .resume nofun _)

theorem steps_finishTail (failure : Bytes) {afterwards : Loop Unit} (h : CoreSteps afterwards) :
    CoreSteps (finishTail env failure afterwards) := by
  refine steps_flushAudioTail.bind fun flushed => .ite (.get_bind fun w => ?_) ?_
  · exact (steps_sendError _ _ _ _).bind (fun _ => steps_stopRunning true) w
  · exact steps_emitTailSegments.bind fun sent => .ite (steps_stopRunning true) h

theorem steps_drainIf (c : Bool) : CoreSteps (drainIf env c) := .ite steps_drainTranslation (.pure _)

theorem steps_handleStop (p : Control) : CoreSteps (handleStop env config p) := by
  refine .get_bind fun w => ?_
  split
  · exact .refl
  refine (Steps.onlyIf (steps_finishTail _ (.pure ()))).bind (fun _ => (steps_drainIf _).bind fun drained => ?_) w
  refine .ite (.pure _) (.modify_bind (fun v => stop_steps v.core .stop nofun) (steps_loadRunning.bind fun running => ?_))
  exact (Steps.onlyIf (steps_orFatal (steps_sendStatus _ _ _))).bind fun _ => .pure _

theorem steps_handleTranslateCtrl (p : TranslateCtrl) : CoreSteps (handleTranslateCtrl p) :=
  .get_bind fun w => Steps.onlyIf (.modify fun _ => .single (.configure _)) w

/-! ## MODEL_CTRL, SHUTDOWN, HELLO -/

theorem steps_refuseDownload (sessionId : SessionId) (modelId : Bytes) :
    CoreSteps (refuseDownload env sessionId modelId) :=
  steps_orFatal (steps_sendModelProgress _ _)

theorem steps_handleModelCtrl (p : ModelCtrl) : CoreSteps (handleModelCtrl env config p) := by
  refine .get_bind fun w => ?_
  dsimp only
  split
  · refine Steps.ite (steps_refuseDownload _ _) ?_ w
    refine .bind (.get_bind fun v => ?_) fun active => .ite (steps_refuseDownload _ _) ?_
    · refine Steps.ite ?_ (.pure _) v
      exact (steps_ask _).bind fun _ => .pure _
    · refine .bind (.onlyIf (.modify_of_eq fun _ => rfl)) fun _ => (steps_call .download _).bind fun started => ?_
      refine .modify_bind (fun _ => .refl) ?_
      exact .onlyIf (steps_refuseDownload _ _)
  · exact Steps.onlyIf (steps_orFatal (steps_sendModelProgress _ _)) w

theorem steps_handleShutdown : CoreSteps (handleShutdown env config) := by
  refine .get_bind fun w => (Steps.onlyIf (steps_finishTail _ steps_reportStatus)).bind (fun _ => ?_) w
  refine (steps_drainIf _).bind fun drained => .ite (.pure _) ?_
  refine .modify_bind (fun v => .single .closeSource) ?_
  exact (steps_stopRunning false).bind fun _ => .pure _

theorem steps_sendHelloAck : CoreSteps (sendHelloAck env) := by
  rw [sendHelloAck]
  split
  · exact .bind (.modify_of_eq fun _ => rfl) fun _ => .pure _
  refine .bind (fun w => .of_eq (guardedIpcSend_ends w)) fun header => .ite ?_ (.pure _)
  refine .bind (fun w => .of_eq (guardedIpcSend_ends w)) fun payload => ?_
  refine .bind (.onlyIf (.modify fun w => .single ?_)) fun _ => .pure _
  exact .frame 1 (.helloAck helloAck)

theorem steps_handleHello (p : Payload) : CoreSteps (handleHello env config p) := by
  unfold handleHello
  split
  · refine .ite ?_ (.ite (steps_setFatalExit.bind fun _ => .pure _) ?_)
    · exact (steps_sendError _ _ _ _).bind fun _ => steps_setFatalExit.bind fun _ => .pure _
    · refine .modify_bind (fun _ => .refl) ?_
      exact steps_sendHelloAck.bind fun sent => .ite (.pure _) ((steps_stopRunning true).bind fun _ => .pure _)
  · exact steps_setFatalExit.bind fun _ => .pure _

/-! ## Frames -/

theorem steps_dispatch (p : Payload) : CoreSteps (dispatch env config p) := by
  refine .get_bind fun w => ?_
  split
  · exact steps_handleHello p w
  split
  · exact (steps_handleStart _).bind (fun _ => .pure _) w
  · exact (steps_handlePosition _).bind (fun _ => .pure _) w
  · exact (steps_handleAudio _).bind (fun _ => .pure _) w
  · exact (steps_handlePause _).bind (fun _ => .pure _) w
  · exact (steps_handleResume _).bind (fun _ => .pure _) w
  · exact steps_handleStop _ w
  · exact (steps_handleTranslateCtrl _).bind (fun _ => .pure _) w
  · exact (steps_handleModelCtrl _).bind (fun _ => .pure _) w
  · exact steps_handleShutdown w
  · exact .refl

theorem steps_rejectFrame (p : Option Payload) : CoreSteps (rejectFrame env p) := by
  have hleave : CoreSteps (do setFatalExit; pure Flow.leave) := steps_setFatalExit.bind fun _ => .pure _
  refine .get_bind fun w => ?_
  split
  · refine Steps.ite ((steps_sendError _ _ _ _).bind fun sent => .ite (.pure _) ?_) hleave w
    exact hleave
  · exact hleave w

theorem steps_handleFrame (f : Frame) : CoreSteps (handleFrame env config f) := by
  rw [handleFrame]
  split
  · exact .ite (steps_dispatch _) (steps_rejectFrame _)
  · exact .ite (steps_dispatch _) (steps_rejectFrame _)

/-! ## The rest of a round -/

theorem steps_pollModelDownload : CoreSteps (pollModelDownload env) := by
  refine .get_bind fun w => Steps.onlyIf ((steps_ask _).bind fun polled => ?_) w
  cases polled with
  | none => exact .pure _
  | some p =>
    refine (steps_ask _).bind fun nowUs => ?_
    refine .bind (.onlyIf ((steps_orFatal (steps_sendModelProgress _ _)).bind fun _ => ?_)) fun _ => .onlyIf ?_
    · exact .modify fun _ => .refl
    · exact .modify fun _ => .refl

theorem steps_transcribeChunk {w : WorkerState} {chunk : List SessionId} (hne : chunk ≠ [])
    (hsub : ∀ t ∈ chunk, t ∈ w.audioBuf.toList) (ptsUs : Int) : CoreStepsAt w (transcribeChunk env chunk ptsUs) := by
  refine .get_bind ?_
  split
  · exact steps_transcribeWindow hne hsub _ _
  · exact .refl

theorem steps_chunkRound : CoreSteps (chunkRound env config) := by
  refine .get_bind fun w => ?_
  split
  · exact .refl
  refine (steps_detect _ env.speech w).bind ?_
  split
  · exact .refl
  rename_i b hb
  split
  · exact (steps_drainAudio _).bind (fun _ => .pure _) _
  split
  · rename_i hcut
    refine (steps_transcribeChunk (take_cutSamples_ne_nil hb hcut) ?_ _).bind ?_
    · exact fun t ht => getSamples_subset w.audioBuf _ t (List.mem_of_mem_take ht)
    · refine Steps.ite ?_ ?_ _
      · exact (steps_sendError _ _ _ _).bind fun _ => (steps_stopRunning true).bind fun _ => .pure _
      · refine steps_loadRunning.bind fun running => .ite (.pure _) ?_
        exact (steps_drainAudio _).bind fun _ => steps_reportStatus.bind fun _ => .pure _
  · exact .refl

/-- Decoded samples are of the session that the decoder was opened for. -/
theorem steps_appendDecoded (samples : Nat) (ptsUs : Int) : CoreSteps (modify (appendDecoded samples ptsUs)) := by
  refine .modify fun w => .single (.buffer _ ?_)
  intro t ht
  rcases AudioBuffer.toList_append_subset w.audioBuf _ _ t ht with ht | ht
  · exact .inl ht
  · obtain ⟨id, hid, ht⟩ := List.mem_flatMap.mp ht
    obtain rfl := List.eq_of_mem_replicate ht
    exact .inr (.inr (Option.mem_toList.mp hid))

theorem steps_lookahead : CoreSteps (lookahead env config) := by
  refine .get_bind fun w => ?_
  split
  · exact .refl
  refine (steps_call .readSource env.readSource).bind (fun read => ?_) w
  cases read with
  | ok samples ptsUs =>
    refine .ite ((steps_appendDecoded _ _).bind fun _ => .get_bind fun v => ?_) (.pure _)
    exact Steps.bind (.loop steps_chunkRound _) (fun _ => .pure _) v
  | again => exact .pure _
  | eof =>
    refine .modify_bind (fun _ => .refl) ?_
    refine steps_flushAudioTail.bind fun flushed => .ite ?_ (steps_reportStatus.bind fun _ => .pure _)
    exact (steps_sendError _ _ _ _).bind fun _ => (steps_stopRunning true).bind fun _ => .pure _
  | error =>
    refine (steps_orFatal (steps_sendError _ _ _ _)).bind fun _ => ?_
    exact .modify_bind (fun v => stop_steps v.core .readError nofun) (.pure _)

theorem steps_andThen (flow : Flow) {next : Loop Flow} (h : CoreSteps next) : CoreSteps (andThen flow next) :=
  .ite h (.pure _)

theorem steps_iterate (frame : Option Frame) : CoreSteps (iterate env config frame) := by
  have hnext : CoreSteps (handleNext env config frame) := by
    cases frame with
    | none => exact .pure _
    | some f => exact steps_handleFrame f
  refine hnext.bind fun flow => steps_andThen flow (steps_deliverResults.bind fun _ => ?_)
  refine steps_pollModelDownload.bind fun _ => steps_lookahead.bind fun flow => steps_andThen flow ?_
  exact steps_emitSegments.bind fun _ => steps_deliverResults.bind fun _ => .pure _

theorem steps_awake (frame : Option Frame) : CoreSteps (awake env frame) := by
  cases frame with
  | some f => exact .pure _
  | none => exact steps_runThreads.bind fun _ => .get_bind fun _ => .refl

theorem steps_finish (flow : Flow) : CoreSteps (finish flow) := by
  cases flow with
  | leave => exact (steps_stopRunning false).bind fun _ => .modify fun _ => .refl
  | hang => exact .modify fun _ => .refl
  | proceed => exact .pure _
  | again => exact .pure _

/-- **A round of the main loop.** Whatever the frame and the environment, it is a sequence of steps of the core. -/
theorem step_steps (w : WorkerState) (frame : Option Frame) :
    ReflTransGen Core.Step w.core (w.step env config frame).core := by
  have hwake : CoreSteps (wake env config frame) := by
    refine .get_bind fun v => Steps.onlyIf ((steps_awake frame).bind fun woken => ?_) v
    refine steps_loadRunning.bind fun running => .ite (.modify fun _ => .refl) ?_
    exact .onlyIf ((steps_iterate frame).bind fun flow => steps_finish flow)
  exact hwake w

end VlcWhisper.Worker
