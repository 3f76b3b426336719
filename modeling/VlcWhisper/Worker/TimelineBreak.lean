import VlcWhisper.Worker.AudioBound
import VlcWhisper.Worker.AudioTimeline
import VlcWhisper.Worker.AuthGate
import VlcWhisper.Worker.Rested

/-!
# Breaks of the timeline (`vw_worker.c`, `vw_audio_buffer.c`)

Buffered live audio is discarded when its timeline breaks: by a pause, by an AUDIO frame with an impossible time, and by
one that does not go on where the buffer ends. The frame handlers see the first two and reset all that inference keeps;
the third is found by `vw_audio_buffer_append_s16le`, which owns nothing but the buffer. Main result:
`resetsAtBreaks_iff`, for every run.
-/

namespace VlcWhisper.Worker

open VlcWhisper.Lib VlcWhisper.Protocol SegmentBuilder

variable {env : Env} {config : Config}

/-! ## Breaks -/

/-- The time of the frame is before the media or ten years after its start. -/
def isInvalidPts (p : Audio) : Bool := p.startPtsUs.toInt < 0 || 315360000000000 < p.startPtsUs.toInt

/-- The frame has audio that does not go on where the buffered audio ends. -/
def WorkerState.isDiscontinuous (w : WorkerState) (p : Audio) : Bool :=
  !isInvalidPts p && 2 ≤ p.pcm.length.toNat && w.audioBuf.isDiscontinuity p.startPtsUs.toInt

/-- The frame breaks the timeline of the current session's audio. -/
def WorkerState.breaks (w : WorkerState) : Payload → Bool
  | .pause p => p.sessionId = w.sessionId
  | .position p => p.sessionId = w.sessionId && isPausedFlag p && !w.paused
  | .audioPcm p => p.sessionId = w.sessionId && !w.paused && (isInvalidPts p || w.isDiscontinuous p)
  | _ => false

/-- The frame makes a worker that listens to live audio discard what it has buffered of it. -/
structure Breaks (w : WorkerState) (p : Payload) : Prop where
  authenticated : w.authenticated = true
  active : w.sessionActive = true
  pcm : w.sourceMode = false
  buffered : 0 < w.audioBuf.count
  breaks : w.breaks p = true

/-- The state when the buffered audio was discarded; an AUDIO frame that is valid has been appended by then. -/
def WorkerState.discard (w : WorkerState) : Payload → WorkerState
  | .pause _ => { w with paused := true }.clearPipeline.invalidate .pause
  | .position p => { w with paused := isPausedFlag p }.clearPipeline
  | .audioPcm p => if isInvalidPts p then w.clearPipeline else appendPcm p w
  | _ => w

/-- What the handler of the frame does then. -/
def afterDiscard (env : Env) (config : Config) : Payload → Loop Unit
  | .pause _ => reportStatus env config
  | .position p => do
    let w ← get
    let sent ← sendStatus env config w.sessionId w.sessionActive w.paused
    onlyIf (!sent) (stopRunning true)
    onlyIf sent do
      let w ← get
      if w.sourceMode && w.sourceDecoder.isSome then followSource env p
      else modify fun w => { w with currentPlaybackPtsUs := p.currentPtsUs.toInt }
  | .audioPcm p => onlyIf (!isInvalidPts p) do
    let w ← get
    let _ ← loop (w.audioBuf.count + 1) (inferRound env config)
  | _ => pure ()

/-- A handler discards what was buffered, and then does what is left to do. -/
def Discards (env : Env) (config : Config) (m : Loop Unit) (w : WorkerState) (p : Payload) : Prop :=
  Ends m w fun _ v => v = ((afterDiscard env config p).run (w.discard p)).2

theorem discards_handlePause {w : WorkerState} {p : Control} (h : Breaks w (.pause p)) :
    Discards env config (handlePause env config p) w (.pause p) := by
  have hbreaks := h.breaks
  have hguard : (w.sessionActive && decide (p.sessionId = w.sessionId)) = true := by
    rw [h.active, Bool.true_and]
    exact hbreaks
  refine Ends.get_bind ?_
  rw [hguard]
  exact rfl

theorem discards_handlePosition {w : WorkerState} {p : Position} (h : Breaks w (.position p)) :
    Discards env config (handlePosition env config p) w (.position p) := by
  have hbreaks := h.breaks
  have hfacts : p.sessionId = w.sessionId ∧ isPausedFlag p = true ∧ w.paused = false := by
    simpa [WorkerState.breaks, and_assoc] using hbreaks
  obtain ⟨hid, hflag, hpaused⟩ := hfacts
  have hguard : (w.sessionActive && decide (p.sessionId = w.sessionId)) = true := by
    rw [h.active, hid, decide_eq_true rfl]
    rfl
  have hfollow : (followPause env config p).run w = (do
      let w ← get
      let sent ← sendStatus env config w.sessionId w.sessionActive w.paused
      onlyIf (!sent) (stopRunning true)
      pure sent : Loop Bool).run (w.discard (.position p)) := by
    have hends : Ends (followPause env config p) w fun sent v => (sent, v) = (do
        let w ← get
        let sent ← sendStatus env config w.sessionId w.sessionActive w.paused
        onlyIf (!sent) (stopRunning true)
        pure sent : Loop Bool).run (w.discard (.position p)) := by
      refine Ends.get_bind ?_
      rw [if_neg (by rw [hflag, hpaused]; decide)]
      refine Ends.bind (P := fun _ v => v = w.discard (.position p)) ?_ fun _ v hv => hv ▸ rfl
      refine Ends.modify_bind (Ends.get_bind ?_)
      rw [if_pos hflag]
      exact rfl
    exact hends
  refine Ends.get_bind ?_
  rw [hguard]
  show Ends (followPause env config p >>= _) w _
  rw [Ends, StateT.run_bind, hfollow]
  exact rfl

theorem discards_handleAudio {w : WorkerState} {p : Audio} (h : Breaks w (.audioPcm p)) :
    Discards env config (handleAudio env config p) w (.audioPcm p) := by
  have hbreaks := h.breaks
  have hfacts : p.sessionId = w.sessionId ∧ w.paused = false ∧ (isInvalidPts p || w.isDiscontinuous p) = true := by
    simpa [WorkerState.breaks, and_assoc] using hbreaks
  obtain ⟨hid, hpaused, hwhy⟩ := hfacts
  have hguard : (w.sessionActive && !w.paused && !w.sourceMode && decide (p.sessionId = w.sessionId)) = true := by
    rw [h.active, hpaused, h.pcm, hid, decide_eq_true rfl]
    rfl
  refine Ends.get_bind ?_
  rw [hguard]
  show Ends (if isInvalidPts p = true then modify WorkerState.clearPipeline else _) w _
  refine Ends.ite (fun hinvalid => ?_) fun hvalid => ?_
  · unfold WorkerState.discard afterDiscard
    dsimp only
    rw [hinvalid]
    exact rfl
  · have hvalid : isInvalidPts p = false := Bool.eq_false_of_not_eq_true hvalid
    have hlength : decide (2 ≤ p.pcm.length.toNat) = true := by
      rw [hvalid, Bool.false_or] at hwhy
      unfold WorkerState.isDiscontinuous at hwhy
      simp only [Bool.and_eq_true] at hwhy
      exact hwhy.1.2
    unfold WorkerState.discard afterDiscard
    dsimp only
    rw [hvalid, hlength]
    exact rfl

/-- The frame is handled by discarding what was buffered first. -/
theorem dispatch_of_breaks {w : WorkerState} {p : Payload} (h : Breaks w p) :
    (dispatch env config p).run w = (Flow.proceed, ((afterDiscard env config p).run (w.discard p)).2) := by
  have hauth : ¬ (!w.authenticated) = true := by
    rw [h.authenticated]
    decide
  have hproceed {m : Loop Unit} (hm : Discards env config m w p) :
      Ends (do m; pure Flow.proceed) w fun flow v =>
        (flow, v) = (Flow.proceed, ((afterDiscard env config p).run (w.discard p)).2) :=
    Ends.bind hm fun _ v hv => congrArg (Prod.mk Flow.proceed) hv
  have hdispatch : Ends (dispatch env config p) w fun flow v =>
      (flow, v) = (Flow.proceed, ((afterDiscard env config p).run (w.discard p)).2) := by
    refine Ends.get_bind ?_
    rw [if_neg hauth]
    cases p with
    | pause p => exact hproceed (discards_handlePause h)
    | position p => exact hproceed (discards_handlePosition h)
    | audioPcm p => exact hproceed (discards_handleAudio h)
    | _ => exact absurd h.breaks Bool.false_ne_true
  exact hdispatch

/-! ## What is reset -/

/-- Inference starts anew: it waits for its first window, nothing counts as covered or said, and the VAD remembers
nothing. -/
structure PipelineReset (w : WorkerState) : Prop where
  threshold : w.liveNextInferenceSamples = w.firstWindow
  frontier : w.builder.coveredEndUs = -1
  history : w.builder.history.toList = []
  vad : w.vad = []

/-- Then nothing that is recognised counts as covered. -/
theorem PipelineReset.not_covered {w : WorkerState} (h : PipelineReset w) (start stop : Int) :
    isCovered w.builder start stop = false := by
  unfold isCovered
  rw [h.frontier]
  rfl

/-- And no cue that was sent before counts as the same. -/
theorem PipelineReset.not_repeated {w : WorkerState} (h : PipelineReset w) (mem : Site → Alloc) (text : Bytes)
    (start stop : Int) : dedupHistory mem w.builder text start stop 0 w.builder.history.newestFirst = none := by
  rw [Ring.newestFirst_eq, h.history]
  rfl

theorem pipelineReset_clearPipeline (w : WorkerState) : PipelineReset w.clearPipeline where
  threshold := rfl
  frontier := rfl
  history := Ring.toList_clear _
  vad := rfl

theorem pipelineReset_appendPcm (p : Audio) (w : WorkerState) : PipelineReset (appendPcm p w) ↔ PipelineReset w :=
  ⟨fun h => ⟨h.threshold, h.frontier, h.history, h.vad⟩, fun h => ⟨h.threshold, h.frontier, h.history, h.vad⟩⟩

/-- A break resets all of it, unless it is the append that finds it and there is something to be reset. -/
theorem pipelineReset_discard {w : WorkerState} {p : Payload} (h : Breaks w p) :
    PipelineReset (w.discard p) ↔ ∀ a, p = .audioPcm a → w.isDiscontinuous a = true → PipelineReset w := by
  have hbreaks := h.breaks
  cases p with
  | pause p =>
    have hreset := pipelineReset_clearPipeline { w with paused := true }
    exact ⟨fun _ => nofun, fun _ => ⟨hreset.threshold, hreset.frontier, hreset.history, hreset.vad⟩⟩
  | position p => exact ⟨fun _ => nofun, fun _ => pipelineReset_clearPipeline _⟩
  | audioPcm p =>
    unfold WorkerState.discard
    dsimp only
    by_cases hinvalid : isInvalidPts p = true
    · rw [if_pos hinvalid]
      refine ⟨fun _ a ha hgap => ?_, fun _ => pipelineReset_clearPipeline w⟩
      obtain rfl := Payload.audioPcm.inj ha
      unfold WorkerState.isDiscontinuous at hgap
      rw [hinvalid] at hgap
      cases hgap
    · rw [if_neg hinvalid, pipelineReset_appendPcm]
      have hgap : w.isDiscontinuous p = true := by
        simp only [WorkerState.breaks, Bool.and_eq_true, Bool.or_eq_true] at hbreaks
        exact hbreaks.2.resolve_left hinvalid
      refine ⟨fun hreset a ha _ => hreset, fun hreset => hreset p rfl hgap⟩
  | _ => cases hbreaks

/-! ## Runs -/

/-- If the frame of the round makes the worker discard buffered audio, all of the pipeline is reset with it. -/
def ResetsAtBreak (w : WorkerState) (r : Env × Option Frame) : Prop :=
  ∀ f ∈ w.takes r, ∀ p, f.request = some p → Breaks w p → PipelineReset (w.discard p)

/-- The frame of the round is no audio that does not go on where the buffer ends, or there is nothing to be reset. -/
def NoStaleAppend (w : WorkerState) (r : Env × Option Frame) : Prop :=
  ∀ f ∈ w.takes r, ∀ a, f.request = some (.audioPcm a) → Breaks w (.audioPcm a) → w.isDiscontinuous a = true →
    PipelineReset w

theorem resetsAtBreak_iff (w : WorkerState) (r : Env × Option Frame) : ResetsAtBreak w r ↔ NoStaleAppend w r := by
  constructor
  · intro h f hf a hrequest hbreaks hgap
    exact (pipelineReset_discard hbreaks).mp (h f hf _ hrequest hbreaks) a rfl hgap
  · intro h f hf p hrequest hbreaks
    refine (pipelineReset_discard hbreaks).mpr fun a ha hgap => ?_
    subst ha
    exact h f hf a hrequest hbreaks hgap

/-- **Discontinuity resets.** In every run, all breaks reset the pipeline exactly if the append never finds one after
something was inferred. -/
theorem resetsAtBreaks_iff (config : Config) (engine translator : Bool) (rounds : List (Env × Option Frame)) :
    Along (fun w (r : Env × Option Frame) => w.step r.1 config r.2) ResetsAtBreak (.start engine translator) rounds ↔
      Along (fun w (r : Env × Option Frame) => w.step r.1 config r.2) NoStaleAppend (.start engine translator) rounds :=
  ⟨fun h => h.mono fun w r => (resetsAtBreak_iff w r).mp, fun h => h.mono fun w r => (resetsAtBreak_iff w r).mpr⟩

/-! ## A jump backward -/

/-- The transport works, and nobody speaks. -/
structure Env.Silent (env : Env) : Prop where
  ipcSend : ∀ n, env.ipcSend n = true
  readerFailed : ∀ n, env.readerFailed n = false
  detectSpeech : ∀ n, env.detectSpeech n = false

theorem reaches_silent (henv : env.Silent) {w : WorkerState} (hopen : w.transport.failed = false) (tick : Nat) :
    w.reaches env tick = true := by
  unfold WorkerState.reaches
  rw [hopen, henv.ipcSend, henv.ipcSend, Bool.and_false]
  rfl

theorem reportStatus_silent (henv : env.Silent) {w : WorkerState} (hopen : w.transport.failed = false) :
    Ends (reportStatus env config) w fun _ v => v.running = w.running ∧ v.unsent = w.unsent := by
  have hkept : Ends (reportStatus env config) w fun _ v => v.unsent = w.unsent := spares_reportStatus.eq w
  have hruns : Ends (reportStatus env config) w fun _ v => v.running = w.running := by
    refine Ends.get_bind ((sendStatus_result _ _ _ w).bind fun sent v ⟨hsent, hrunning⟩ => ?_)
    rw [hsent, reaches_silent henv hopen]
    exact hrunning
  exact ⟨hruns, hkept⟩

/-- The VAD has looked at what is buffered, and the next window has `n` samples. -/
def Grows (w : WorkerState) (n : Nat) (v : WorkerState) : Prop :=
  v.running = w.running ∧ ∃ vad calls, v.unsent = { w with vad, calls, liveNextInferenceSamples := n }.unsent

theorem grows_report (henv : env.Silent) {w v : WorkerState} {n : Nat} (hopen : w.transport.failed = false)
    (hv : Grows w n v) (running : Bool) : Ends (onlyIf running (reportStatus env config)) v fun _ x => Grows w n x := by
  obtain ⟨hrunning, vad, calls, hsame⟩ := hv
  have hvopen : v.transport.failed = false := (congrArg (fun x => x.transport.failed) hsame).trans hopen
  refine Ends.onlyIf (fun _ => ?_) fun _ => ⟨hrunning, vad, calls, hsame⟩
  exact (reportStatus_silent henv hvopen).mono fun _ x hx => ⟨hx.1.trans hrunning, vad, calls, hx.2.trans hsame⟩

/-- A window that is all there is of a live session is looked at, and the next one waits for more. -/
theorem inferRound_silent (henv : env.Silent) {w : WorkerState} (hopen : w.transport.failed = false)
    (hengine : w.engine = true) (hlive : w.liveProgressiveMode = true) (hpos : 0 < w.audioBuf.count)
    (hmore : w.liveNextInferenceSamples ≤ w.audioBuf.count) (hless : w.audioBuf.count < windowSamples) :
    Ends (inferRound env config) w fun r v => r = some () ∧
      Grows w (min (w.audioBuf.count + liveHopSamples) windowSamples) v := by
  refine Ends.get_bind ?_
  rw [if_neg (Nat.not_lt.mpr hmore)]
  have hlen := length_getSamples w.audioBuf (min w.audioBuf.count windowSamples)
  rw [min_eq_left hless.le, min_self] at hlen
  rw [min_eq_left hless.le]
  generalize w.audioBuf.getSamples w.audioBuf.count = samples at hlen ⊢
  obtain ⟨window, windowPtsUs⟩ := samples
  have hlen : window.length = w.audioBuf.count := hlen
  have hgrowing : (w.liveProgressiveMode && decide (window.length < windowSamples)) = true := by
    rw [hlive, hlen, decide_eq_true hless]
    rfl
  dsimp only
  rw [hgrowing]
  have hinfer : Ends (inferWindow env window windowPtsUs true) w fun inferred v => inferred = true ∧
      v = { w with tick := w.tick + 1, vad := w.vad ++ [window], calls := w.calls ++ [w.serviceCall .vad] } := by
    refine Ends.get_bind ?_
    rw [if_neg (by rw [hlen, hengine]; simpa using Nat.ne_of_gt hpos)]
    refine Ends.bind (m := detect window env.detectSpeech) (P := fun speech v => speech = false ∧
      v = { w with tick := w.tick + 1, vad := w.vad ++ [window], calls := w.calls ++ [w.serviceCall .vad] })
      ⟨henv.detectSpeech _, rfl⟩ fun speech v ⟨hspeech, hv⟩ => ?_
    rw [hspeech]
    exact ⟨rfl, hv⟩
  refine hinfer.bind fun inferred t ⟨hinferred, ht⟩ => ?_
  rw [hinferred, hlen]
  have hgrows : Grows w (min (w.audioBuf.count + liveHopSamples) windowSamples)
      { t with liveNextInferenceSamples := min (w.audioBuf.count + liveHopSamples) windowSamples, tick := t.tick + 1 } :=
    ht ▸ ⟨rfl, _, _, rfl⟩
  have hload (s : WorkerState) : Ends (loadRunning env) s fun _ u => u = { s with tick := s.tick + 1 } := by
    rw [Ends, run_loadRunning (henv.readerFailed _)]
  refine Ends.modify_bind ((hload _).bind fun running u hu => ?_)
  exact (grows_report henv hopen (hu ▸ hgrows) running).bind fun _ v hv => ⟨rfl, hv⟩

/-- A live session that was just started: nothing is buffered, and nobody is to be told anything. -/
structure JustStarted (w : WorkerState) : Prop where
  running : w.running = true
  finished : w.finished = false
  authenticated : w.authenticated = true
  engine : w.engine = true
  transport : w.transport.failed = false
  translator : w.translator = none
  modelDl : w.modelDl = false
  active : w.sessionActive = true
  paused : w.paused = false
  pcm : w.sourceMode = false
  live : w.liveProgressiveMode = true
  threshold : w.liveNextInferenceSamples = liveStartupSamples
  buffered : w.audioBuf.count = 0
  queued : w.builder.queue.count = 0

/-- After the first AUDIO frame the worker has buffered its audio, and it waits for more than at the start. -/
theorem step_firstAudio (henv : env.Silent) {w : WorkerState} (hw : JustStarted w) {f : Frame} {p : Audio}
    (hf : f.request = some (.audioPcm p)) (hid : p.sessionId = w.sessionId) (hvalid : isInvalidPts p = false)
    (hmany : liveStartupSamples ≤ p.pcm.length.toNat / 2) (hfew : p.pcm.length.toNat / 2 < windowSamples) :
    Grows (appendPcm p w) (min (p.pcm.length.toNat / 2 + liveHopSamples) windowSamples) (w.step env config (some f)) := by
  have hcount : (appendPcm p w).audioBuf.count = p.pcm.length.toNat / 2 := by
    have hroom : (List.replicate (p.pcm.length.toNat / 2) p.sessionId).length ≤ lookaheadBufferSamples := by
      rw [List.length_replicate]
      exact hfew.le.trans (by decide)
    exact (AudioBuffer.count_append_empty hw.buffered hroom _).trans List.length_replicate
  have hstartup : 0 < liveStartupSamples := by decide
  have hheard : Ends (handleAudio env config p) { w with tick := w.tick + 1 } fun _ v =>
      Grows (appendPcm p w) (min (p.pcm.length.toNat / 2 + liveHopSamples) windowSamples) v := by
    refine Ends.get_bind ?_
    have hguard : (w.sessionActive && !w.paused && !w.sourceMode && decide (p.sessionId = w.sessionId)) = true := by
      rw [hw.active, hw.paused, hw.pcm, hid, decide_eq_true rfl]
      rfl
    show Ends (onlyIf (w.sessionActive && !w.paused && !w.sourceMode && decide (p.sessionId = w.sessionId)) _) _ _
    rw [hguard]
    show Ends (if isInvalidPts p = true then modify WorkerState.clearPipeline else _) _ _
    rw [hvalid, if_neg Bool.false_ne_true]
    refine Ends.onlyIf (fun _ => Ends.modify_bind (Ends.get_bind ?_)) fun hnone => ?_
    · have hround := @inferRound_silent _ config henv (appendPcm p { w with tick := w.tick + 1 })
        hw.transport hw.engine hw.live (by show 0 < (appendPcm p w).audioBuf.count; omega)
        (by show w.liveNextInferenceSamples ≤ (appendPcm p w).audioBuf.count; rw [hw.threshold, hcount]; exact hmany)
        (by show (appendPcm p w).audioBuf.count < windowSamples; rw [hcount]; exact hfew)
      have hloop : Ends (loop ((appendPcm p w).audioBuf.count + 1) (inferRound env config))
          (appendPcm p { w with tick := w.tick + 1 }) fun _ v =>
            Grows (appendPcm p w) (min (p.pcm.length.toNat / 2 + liveHopSamples) windowSamples) v := by
        refine hround.bind fun r v ⟨hr, hgrows⟩ => ?_
        subst hr
        rw [← hcount]
        exact hgrows
      exact hloop.bind fun _ v hv => hv
    · simp only [decide_eq_false_iff_not] at hnone
      omega
  have hend : Ends (do let flow ← handleFrame env config f; afterFrame env config flow : Loop Unit)
      { w with tick := w.tick + 1 } fun _ v =>
        Grows (appendPcm p w) (min (p.pcm.length.toNat / 2 + liveHopSamples) windowSamples) v := by
    rw [handleFrame_eq, hf]
    have hdispatch : Ends (dispatch env config (.audioPcm p)) { w with tick := w.tick + 1 } fun flow v =>
        flow = .proceed ∧ Grows (appendPcm p w) (min (p.pcm.length.toNat / 2 + liveHopSamples) windowSamples) v := by
      refine Ends.get_bind ?_
      have hauth : ¬ (!w.authenticated) = true := by
        rw [hw.authenticated]
        decide
      show Ends (if (!w.authenticated) = true then _ else _) _ _
      rw [if_neg hauth]
      exact Ends.bind hheard fun _ v hv => ⟨rfl, hv⟩
    refine hdispatch.bind fun flow v ⟨hflow, hrunning, vad, calls, hv⟩ => ?_
    rw [hflow]
    have htranslator : v.translator = none := (congrArg WorkerState.translator hv).trans hw.translator
    have hmodel : v.modelDl = false := (congrArg WorkerState.modelDl hv).trans hw.modelDl
    have hpcm : v.sourceMode = false := (congrArg WorkerState.sourceMode hv).trans hw.pcm
    have hqueued : v.builder.queue.count = 0 := (congrArg (fun x => x.builder.queue.count) hv).trans hw.queued
    refine (afterFrame_idle htranslator hmodel hpcm hqueued).mono fun _ x hx => ?_
    rw [hx]
    exact ⟨hrunning, vad, calls, hv⟩
  rw [step_some hw.running hw.finished (henv.readerFailed _)]
  exact hend

/-- The frame of an AUDIO message, as the reader thread queues it. -/
def audioFrame (p : Audio) : Frame := ⟨.audioPcm, encodePayload (.audioPcm p) (encodedSize (.audioPcm p))⟩

theorem request_audioFrame {p : Audio} (h : validateAudio p = true) :
    ∃ q, (audioFrame p).request = some (.audioPcm q) ∧ p.Same q := by
  have hvalid : validatePayload (.audioPcm p) = true := h
  obtain ⟨buffer, q, hbuffer, -, hdecoded, hsame, hqvalid⟩ :=
    encodePayload_of_wellFormed (wellFormed_of_validate hvalid trivial) (Nat.le_refl _)
  cases q with
  | audioPcm q =>
    refine ⟨q, ?_, hsame⟩
    have hdecoded : decodePayload .audioPcm (some buffer) = some (.audioPcm q) := hdecoded
    unfold Frame.request audioFrame
    dsimp only
    rw [hbuffer, hdecoded]
    exact if_pos (hqvalid.trans hvalid)
  | _ => cases hsame

/-- Two seconds of silence, ten seconds into the media. -/
def twoSeconds : Audio where
  sessionId := .zero _
  startPtsUs := 10000000
  durationUs := 2000000
  pcm := .ofBytes 64000 (List.replicate 64000 0) (by rw [List.length_replicate]; rfl)

/-- One sample of its beginning. -/
def firstSample : Audio where
  sessionId := .zero _
  startPtsUs := 0
  durationUs := 62
  pcm := .ofBytes 2 [0, 0] Slice.toNat_two

/-- A live session that jumps backward without a seek or a pause. -/
def jumpBackward : List (Env × Option Frame) :=
  [(.quiet, some hello), (.quiet, some (QueueLog.frameOf (.startSession QueueLog.sampleStart))),
    (.quiet, some (audioFrame twoSeconds)), (.quiet, some (audioFrame firstSample))]

theorem justStarted_quiet : JustStarted (roundsRun downloader true false
    [(.quiet, some hello), (.quiet, some (QueueLog.frameOf (.startSession QueueLog.sampleStart)))]) := by
  refine ⟨?_, ?_, ?_, ?_, ?_, ?_, ?_, ?_, ?_, ?_, ?_, ?_, ?_, ?_⟩ <;> decide +kernel

theorem silent_quiet : Env.quiet.Silent := ⟨fun _ => by rfl, fun _ => by rfl, fun _ => by rfl⟩

/-- The inference of the new timeline waits for a window as if it went on with the old one. -/
theorem not_resetsAtBreak {w : WorkerState} (hw : JustStarted w) (hid : w.sessionId = .zero _) :
    ¬ ResetsAtBreak (w.step .quiet config (some (audioFrame twoSeconds))) (.quiet, some (audioFrame firstSample)) := by
  intro hresets
  obtain ⟨p, hp, hpid, hppts, -, hplength, -⟩ := request_audioFrame (p := twoSeconds) (by decide +kernel)
  obtain ⟨q, hq, hqid, hqpts, -, hqlength, -⟩ := request_audioFrame (p := firstSample) (by decide +kernel)
  have hsamples : p.pcm.length.toNat / 2 = 32000 := by
    rw [← hplength]
    decide
  have hvalid (a : Audio) (h : a.startPtsUs = 10000000 ∨ a.startPtsUs = 0) : isInvalidPts a = false := by
    unfold isInvalidPts
    rcases h with h | h <;> rw [h] <;> decide
  obtain ⟨hrunning, vad, calls, hsame⟩ := @step_firstAudio _ config silent_quiet _ hw _ _ hp (hpid.symm.trans hid.symm)
    (hvalid p (.inl hppts.symm)) (by rw [hsamples]; decide) (by rw [hsamples]; decide)
  generalize w.step .quiet config (some (audioFrame twoSeconds)) = v at hresets hrunning hsame
  have haudio : v.audioBuf = (appendPcm p w).audioBuf := field_of_unsent hsame (·.audioBuf) fun _ => by rfl
  have hlength : (List.replicate (p.pcm.length.toNat / 2) p.sessionId).length = 32000 := by
    rw [List.length_replicate, hsamples]
  have hcount : v.audioBuf.count = 32000 := by
    rw [haudio]
    exact (AudioBuffer.count_append_empty hw.buffered (by rw [hlength]; decide) _).trans hlength
  have hend : v.audioBuf.endHalfUs = 24000000 := by
    rw [haudio]
    refine (AudioBuffer.endHalfUs_append_empty hw.buffered (List.ne_nil_of_length_pos (by omega)) _).trans ?_
    rw [hlength, ← hppts]
    decide
  have hgap : v.isDiscontinuous q = true := by
    unfold WorkerState.isDiscontinuous AudioBuffer.isDiscontinuity
    rw [hvalid q (.inr hqpts.symm), AudioBuffer.expectedPtsUs_eq, hend, hcount, ← hqlength, ← hqpts]
    decide
  have hpaused : v.paused = false := (field_of_unsent hsame (·.paused) fun _ => by rfl).trans hw.paused
  have hvid : v.sessionId = w.sessionId := field_of_unsent hsame (·.sessionId) fun _ => by rfl
  have hbreaks : Breaks v (.audioPcm q) := by
    refine ⟨?_, ?_, ?_, by omega, ?_⟩
    · exact (field_of_unsent hsame (·.authenticated) fun _ => by rfl).trans hw.authenticated
    · exact (field_of_unsent hsame (·.sessionActive) fun _ => by rfl).trans hw.active
    · exact (field_of_unsent hsame (·.sourceMode) fun _ => by rfl).trans hw.pcm
    · unfold WorkerState.breaks
      simp only [hgap, hpaused, Bool.or_true, Bool.not_false, Bool.and_true, decide_eq_true_eq]
      exact hqid.symm.trans (hid.symm.trans hvid.symm)
  have hfinished : v.finished = false := (field_of_unsent hsame (·.finished) fun _ => by rfl).trans hw.finished
  have htakes : v.takes (.quiet, some (audioFrame firstSample)) = some (audioFrame firstSample) := by
    have hrunning : v.running = true := hrunning.trans hw.running
    unfold WorkerState.takes
    rw [hrunning, hfinished]
    rfl
  have hdiscarded : appendPcm q v = v.discard (.audioPcm q) := by
    unfold WorkerState.discard
    dsimp only
    rw [hvalid q (.inr hqpts.symm), if_neg Bool.false_ne_true]
  have hreset := hresets _ htakes _ hq hbreaks
  rw [← hdiscarded, pipelineReset_appendPcm] at hreset
  have hthreshold : v.liveNextInferenceSamples = 48000 := by
    refine (field_of_unsent hsame (·.liveNextInferenceSamples) fun _ => by rfl).trans ?_
    rw [hsamples]
    rfl
  have hfirst : v.firstWindow = 32000 := by
    have hlive : v.liveProgressiveMode = true := (field_of_unsent hsame (·.liveProgressiveMode) fun _ => by rfl).trans hw.live
    unfold WorkerState.firstWindow
    rw [hlive]
    rfl
  have hsame := hreset.threshold
  rw [hthreshold, hfirst] at hsame
  omega

/-- **A live session that jumps backward** keeps what it inferred of the audio it dropped. -/
theorem not_resetsAtBreaks : ¬ Along (fun w (r : Env × Option Frame) => w.step r.1 downloader r.2) ResetsAtBreak
    (.start true false) jumpBackward := by
  intro h
  obtain ⟨-, hrest⟩ := along_append.mp (show Along _ _ _ ([_, _] ++ [_, _]) from h)
  exact not_resetsAtBreak justStarted_quiet (by decide +kernel) hrest.2.1

end VlcWhisper.Worker
