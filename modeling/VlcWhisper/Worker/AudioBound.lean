import VlcWhisper.Worker.QueuePause
import VlcWhisper.Worker.Quiet

/-!
# The audio buffer never overflows (`vw_worker.c`)

What the main loop leaves in the audio buffer is less than the next inference waits for, or less than the longest chunk
in source mode. So the next AUDIO frame or decoded chunk fits the ring, and nothing is ever overwritten. Main result:
`bounded_run`.

An AUDIO frame has at most 480000 samples, and the loop over its windows goes on until less than a window is left; a
chunk of the source has at most 32000, and a full window always has a boundary, whatever the VAD says. The loops are
also left when an inference failed or the reader thread ended the worker, and then there is no next frame.
-/

namespace VlcWhisper.Worker

open VlcWhisper.Lib VlcWhisper.Protocol SegmentBuilder

variable {env : Env} {config : Config} {α : Type}

/-! ## The invariants -/

/-- How many buffered samples a round does not leave behind. -/
def WorkerState.limit (w : WorkerState) : Nat := if w.sourceMode then chunkMaxSamples else w.liveNextInferenceSamples

/-- Nothing was dropped, and inference waits for some samples, but at most a window. -/
structure Bounded (w : WorkerState) : Prop where
  dropped : w.audioBuf.droppedSamples = 0
  positive : 0 < w.liveNextInferenceSamples
  threshold : w.liveNextInferenceSamples ≤ windowSamples

/-- While a frame is handled. -/
structure Below (w : WorkerState) : Prop extends Bounded w where
  below : w.audioBuf.count < w.limit

/-- Between two rounds; a worker that was ended may hold more. -/
structure BelowRunning (w : WorkerState) : Prop extends Bounded w where
  below : w.running = true → w.audioBuf.count < w.limit

/-- Between the frame of a round and the look ahead: the source is read by a worker that was ended, too. -/
structure BelowSource (w : WorkerState) : Prop extends BelowRunning w where
  source : w.sourceMode = true → w.audioBuf.count < chunkMaxSamples

theorem Bounded.below_of_empty {w : WorkerState} (hw : Bounded w) (h : w.audioBuf.count = 0) : Below w := by
  refine ⟨hw, ?_⟩
  rw [h, WorkerState.limit]
  split
  · decide
  · exact hw.positive

theorem Below.belowSource {w : WorkerState} (hw : Below w) : BelowSource w := by
  refine ⟨⟨hw.toBounded, fun _ => hw.below⟩, fun hmode => ?_⟩
  have hbelow := hw.below
  rwa [WorkerState.limit, if_pos hmode] at hbelow

/-! ## Sending and transcribing -/

/-- The state but for what sending, transcribing and downloading change. -/
def WorkerState.unheard (w : WorkerState) : WorkerState :=
  { w.unemitted with vad := [], calls := [], modelDl := false, lastStage := none, lastProgressSendUs := 0 }

theorem spares_unheard {m : Loop α} (h : Spares WorkerState.unemitted m) : Spares WorkerState.unheard m :=
  h.comp fun w => { w with vad := [], calls := [], modelDl := false, lastStage := none, lastProgressSendUs := 0 }

theorem spares_sent {m : Loop α} (h : Spares WorkerState.unsent m) : Spares WorkerState.unheard m :=
  spares_unheard (spares_unemitted (spares_untranslated h))

theorem spares_detect (window : List SessionId) (answer : Nat → α) : Spares WorkerState.unheard (detect window answer) :=
  fun _ => .of_eq rfl

theorem spares_call (service : Service) (answer : Nat → α) : Spares WorkerState.unheard (call service answer) :=
  fun _ => .of_eq rfl

theorem spares_transcribeWindow (window : List SessionId) (windowPtsUs : Int) (limitUs : Option Int) :
    Spares WorkerState.unheard (transcribeWindow env window windowPtsUs limitUs) := by
  refine (spares_call .whisper _).bind fun segs => ?_
  cases segs with
  | none => exact .pure _
  | some segs => exact (spares_sent (spares_ask _)).bind fun memory => .bind (.modify_of_eq fun _ => rfl) fun _ => .pure _

theorem spares_inferWindow (window : List SessionId) (windowPtsUs : Int) (growing : Bool) :
    Spares WorkerState.unheard (inferWindow env window windowPtsUs growing) := by
  refine .get_bind fun w => Steps.ite (.pure _) ?_ w
  exact (spares_detect _ _).bind fun speech => .ite (spares_transcribeWindow _ _ _) (.pure _)

theorem spares_transcribeChunk (chunk : List SessionId) (ptsUs : Int) :
    Spares WorkerState.unheard (transcribeChunk env chunk ptsUs) :=
  .get_bind fun w => Steps.ite (spares_transcribeWindow _ _ _) (.pure _) w

theorem bounded_unheard (w : WorkerState) : Bounded w.unheard ↔ Bounded w :=
  ⟨fun h => ⟨h.dropped, h.positive, h.threshold⟩, fun h => ⟨h.dropped, h.positive, h.threshold⟩⟩

theorem below_unheard (w : WorkerState) : Below w.unheard ↔ Below w :=
  ⟨fun h => ⟨(bounded_unheard w).mp h.toBounded, h.below⟩, fun h => ⟨(bounded_unheard w).mpr h.toBounded, h.below⟩⟩

theorem below_of_heard {m : Loop α} (h : Spares WorkerState.unheard m) : Preserves Below m :=
  h.preserves below_unheard

theorem below_of_sent {m : Loop α} (h : Spares WorkerState.unsent m) : Preserves Below m :=
  below_of_heard (spares_sent h)

theorem belowRunning_of_heard {m : Loop α} (h : Spares WorkerState.unheard m) : Preserves BelowRunning m := by
  intro w hw
  have hbelow : Ends m w fun _ v => v.running = true → v.audioBuf.count < v.limit :=
    h.preserves_running (q := fun v => v.audioBuf.count < v.limit) (p := fun v => v.audioBuf.count < v.limit)
      (fun _ => .rfl) w hw.below
  exact ⟨h.preserves bounded_unheard w hw.toBounded, hbelow⟩

theorem belowSource_of_heard {m : Loop α} (h : Spares WorkerState.unheard m) : Preserves BelowSource m := by
  intro w hw
  have hsource : Ends m w fun _ v => v.sourceMode = true → v.audioBuf.count < chunkMaxSamples :=
    h.preserves (q := fun v => v.sourceMode = true → v.audioBuf.count < chunkMaxSamples)
      (p := fun v => v.sourceMode = true → v.audioBuf.count < chunkMaxSamples) (fun _ => .rfl) w hw.source
  exact ⟨belowRunning_of_heard h w hw.toBelowRunning, hsource⟩

theorem below_clearPipeline {w : WorkerState} (hw : Bounded w) : Below w.clearPipeline := by
  have hfirst : 0 < w.firstWindow ∧ w.firstWindow ≤ windowSamples := by
    unfold WorkerState.firstWindow
    split <;> decide
  exact Bounded.below_of_empty ⟨hw.dropped, hfirst.1, hfirst.2⟩ rfl

theorem below_drainAudio (samples : Nat) : Preserves Below (drainAudio samples) := by
  refine .modify fun w hw => ⟨⟨?_, hw.positive, hw.threshold⟩, ?_⟩
  · exact (AudioBuffer.droppedSamples_drain _ _).trans hw.dropped
  · have hcount : (w.audioBuf.drain samples).count ≤ w.audioBuf.count := by
      rw [AudioBuffer.count_drain]
      omega
    exact Nat.lt_of_le_of_lt hcount hw.below

theorem below_flushAudioTail : Preserves Below (flushAudioTail env) := by
  refine .get_bind fun w hw => Preserves.ite (.pure _) (Preserves.bind (.loop ?_ _) fun _ => .pure _) w hw
  refine .get_bind fun t ht => Preserves.ite (.pure _) ?_ t ht
  generalize t.audioBuf.getSamples chunkMaxSamples = samples
  refine (below_of_heard (spares_detect _ _)).bind fun speech => ?_
  split
  · exact .pure _
  · refine .ite (.pure _) (.ite ((below_drainAudio _).bind fun _ => .pure _) ?_)
    refine (below_of_heard (spares_transcribeWindow _ _ _)).bind fun transcribed => .ite ?_ (.pure _)
    exact (below_drainAudio _).bind fun _ => .pure _

/-! ## AUDIO_PCM -/

theorem samples_of_validateAudio {p : Audio} (h : validateAudio p = true) : p.pcm.length.toNat / 2 ≤ 480000 := by
  unfold validateAudio at h
  split at h
  · cases h
  rename_i hduration
  split at h
  · cases h
  dsimp only at h
  split at h
  · cases h
  rename_i hbytes
  simp only [Bool.or_eq_true, decide_eq_true_eq, not_or, Int64.not_lt, UInt32.not_lt] at hduration hbytes
  have hle : p.durationUs.toInt ≤ (30000000 : Int64).toInt := Int64.le_iff_toInt_le.mp hduration.2
  have hmaxDuration : (30000000 : Int64).toInt = 30000000 := by decide
  have hlt : (p.durationUs.toInt * 32 / 1000).toNat ≤ 960000 := by omega
  have hmax := UInt32.le_iff_toNat_le.mp hbytes.2
  rw [UInt32.toNat_add, UInt32.toNat_ofNat_of_lt' (by show _ < 2 ^ 32; omega), UInt32.toNat_one,
    Nat.mod_eq_of_lt (by omega)] at hmax
  omega

theorem length_getSamples (b : AudioBuffer SessionId lookaheadBufferSamples) (maxOut : Nat) :
    (b.getSamples maxOut).1.length = min maxOut b.count := by
  unfold AudioBuffer.getSamples
  split
  · rename_i h
    simp only [Bool.or_eq_true, decide_eq_true_eq] at h
    show 0 = _
    omega
  · rw [List.length_take, AudioBuffer.length_toList]

theorem loadRunning_ends (w : WorkerState) :
    Ends (loadRunning env) w fun running v => v.unheard = w.unheard ∧ running = v.running := by
  have hsame : Ends (loadRunning env) w fun _ v => v.unheard = w.unheard := (spares_sent spares_loadRunning).eq w
  have hload : Ends (loadRunning env) w fun running v => running = v.running := by
    refine Ends.bind (m := ask env.readerFailed) (P := fun _ _ => True) trivial fun failed t _ => ?_
    cases failed <;> exact rfl
  exact ⟨hsame, hload⟩

theorem bounded_of_unheard {w v : WorkerState} (h : v.unheard = w.unheard) (hw : Bounded w) : Bounded v :=
  (bounded_unheard v).mp (h ▸ (bounded_unheard w).mpr hw)

/-- The worker listens without a source, and it holds less than it waits for, or it was ended. -/
structure Drained (w : WorkerState) : Prop extends Bounded w where
  pcm : w.sourceMode = false
  below : w.running = true → w.audioBuf.count < w.liveNextInferenceSamples

theorem Drained.belowSource {w : WorkerState} (hw : Drained w) : BelowSource w := by
  refine ⟨⟨hw.toBounded, fun hrunning => ?_⟩, fun hmode => ?_⟩
  · rw [WorkerState.limit, hw.pcm]
    exact hw.below hrunning
  · rw [hw.pcm] at hmode
    cases hmode

theorem drained_of_heard {m : Loop α} (h : Spares WorkerState.unheard m) : Preserves Drained m := by
  intro w hw
  have hpcm : Ends m w fun _ v => v.sourceMode = false :=
    h.preserves (q := fun v => v.sourceMode = false) (p := fun v => v.sourceMode = false) (fun _ => .rfl) w hw.pcm
  have hbelow : Ends m w fun _ v => v.running = true → v.audioBuf.count < v.liveNextInferenceSamples :=
    h.preserves_running (q := fun v => v.audioBuf.count < v.liveNextInferenceSamples)
      (p := fun v => v.audioBuf.count < v.liveNextInferenceSamples) (fun _ => .rfl) w hw.below
  exact ⟨h.preserves bounded_unheard w hw.toBounded, hpcm, hbelow⟩

theorem drained_of_stopped {w : WorkerState} (hw : Bounded w) (hpcm : w.sourceMode = false)
    (hstopped : w.running = false) : Drained w :=
  ⟨hw, hpcm, fun hrunning => absurd hrunning (by rw [hstopped]; exact Bool.false_ne_true)⟩

/-- A round of the window loop leaves less than a window, or it drains some samples, or the worker was ended. -/
theorem inferRound_ends {w : WorkerState} (hw : Bounded w ∧ w.sourceMode = false) :
    Ends (inferRound env config) w fun r v =>
      (∀ a, r = some a → Drained v) ∧
        (r = none → (Bounded v ∧ v.sourceMode = false) ∧ v.audioBuf.count < w.audioBuf.count) := by
  obtain ⟨hbounded, hpcm⟩ := hw
  refine Ends.get_bind (Ends.ite (fun hless => ⟨fun _ _ => ⟨hbounded, hpcm, fun _ => hless⟩, nofun⟩) fun hmore => ?_)
  have hlen := length_getSamples w.audioBuf (min w.audioBuf.count windowSamples)
  generalize w.audioBuf.getSamples (min w.audioBuf.count windowSamples) = samples at hlen ⊢
  obtain ⟨window, windowPtsUs⟩ := samples
  have hinfer := (@spares_inferWindow env window windowPtsUs
    (w.liveProgressiveMode && decide (window.length < windowSamples))).ends w
  refine hinfer.bind fun inferred t ht => ?_
  have hsame : t.unheard = w.unheard := ht.1
  have htpcm : t.unheard.sourceMode = false := hsame ▸ hpcm
  have htaudio : t.unheard.audioBuf = w.audioBuf := hsame ▸ rfl
  have htbounded := bounded_of_unheard hsame hbounded
  refine Ends.ite (fun _ => ?_) fun _ => Ends.ite (fun hgrowing => ?_) fun _ => ?_
  · -- the inference failed
    have hsent := (spares_sent (@spares_sendError env w.sessionId eInternal 0 (ascii "Whisper inference failed"))).ends t
    refine hsent.bind fun _ u hu => ⟨fun _ _ => ?_, nofun⟩
    have hubounded := bounded_of_unheard hu.1 htbounded
    have hupcm : u.unheard.sourceMode = false := hu.1 ▸ htpcm
    exact drained_of_stopped ⟨hubounded.dropped, hubounded.positive, hubounded.threshold⟩ hupcm rfl
  · -- the window is all there is, and the next one is longer
    have hshort : window.length = w.audioBuf.count ∧ w.audioBuf.count < windowSamples := by
      simp only [Bool.and_eq_true, decide_eq_true_eq] at hgrowing
      have hlen : window.length = _ := hlen
      omega
    have hdrained : Drained { t with liveNextInferenceSamples := min (window.length + liveHopSamples) windowSamples } := by
      refine ⟨⟨htbounded.dropped, ?_, ?_⟩, htpcm, fun _ => ?_⟩
      · show 0 < min _ _
        simp only [liveHopSamples, windowSamples]
        omega
      · exact Nat.min_le_right _ _
      · show t.unheard.audioBuf.count < min _ _
        rw [htaudio]
        simp only [liveHopSamples, windowSamples] at hshort ⊢
        omega
    refine Ends.modify_bind ((drained_of_heard (spares_sent spares_loadRunning) _ hdrained).bind fun running u hu => ?_)
    refine (Preserves.onlyIf (drained_of_heard (spares_sent spares_reportStatus)) u hu).bind fun _ v hv => ?_
    exact ⟨fun _ _ => hv, nofun⟩
  · refine (loadRunning_ends t).bind fun running u hu => ?_
    have hubounded := bounded_of_unheard hu.1 htbounded
    have hupcm : u.unheard.sourceMode = false := hu.1 ▸ htpcm
    refine Ends.ite (fun hstopped => ⟨fun _ _ => ?_, nofun⟩) fun _ => ?_
    · have hstopped : u.running = false := by simpa [hu.2] using hstopped
      exact drained_of_stopped hubounded hupcm hstopped
    · -- a window's worth of samples was heard
      have hcount (n : Nat) (hn : 0 < n) : (u.audioBuf.drain n).count < w.audioBuf.count := by
        have huaudio : u.unheard.audioBuf = w.audioBuf := hu.1 ▸ htaudio
        have hpos := hbounded.positive
        show (u.unheard.audioBuf.drain n).count < _
        rw [huaudio, AudioBuffer.count_drain]
        omega
      refine Ends.modify_bind (Ends.modify_bind ?_)
      have hreport (v : WorkerState) := (spares_sent (@spares_reportStatus env config)).ends v
      refine (hreport _).bind fun _ v hv => ⟨nofun, fun _ => ⟨⟨?_, ?_⟩, ?_⟩⟩
      · refine bounded_of_unheard hv.1 ⟨?_, ?_, ?_⟩
        · exact (AudioBuffer.droppedSamples_drain _ _).trans hubounded.dropped
        · exact (by decide : 0 < windowSamples)
        · exact Nat.le_refl windowSamples
      · exact (congrArg WorkerState.sourceMode hv.1).trans hupcm
      · have haudio : v.unheard.audioBuf = u.audioBuf.drain _ := congrArg WorkerState.audioBuf hv.1
        show v.unheard.audioBuf.count < _
        rw [haudio]
        refine hcount _ ?_
        split <;> decide

theorem below_handleAudio (p : Audio) (hvalid : validateAudio p = true) {w : WorkerState} (hw : Below w) :
    Ends (handleAudio env config p) w fun _ v => BelowSource v := by
  refine Ends.get_bind (Ends.onlyIf (fun hguard => ?_) fun _ => hw.belowSource)
  have hpcm : w.sourceMode = false := by
    simp only [Bool.and_eq_true, Bool.not_eq_true'] at hguard
    exact hguard.1.2
  refine Ends.ite (fun _ => ?_) fun _ => Ends.onlyIf (fun _ => ?_) fun _ => hw.belowSource
  · exact (below_clearPipeline hw.toBounded).belowSource
  · have hcount : w.audioBuf.count < w.liveNextInferenceSamples := by
      have hbelow := hw.below
      rwa [WorkerState.limit, hpcm] at hbelow
    have hroom : w.audioBuf.count + (List.replicate (p.pcm.length.toNat / 2) p.sessionId).length ≤ lookaheadBufferSamples := by
      have hsamples := samples_of_validateAudio hvalid
      have hthreshold := hw.threshold
      have hcapacity : 480000 + windowSamples ≤ lookaheadBufferSamples := by decide
      rw [List.length_replicate]
      omega
    have happended : Bounded (appendPcm p w) :=
      ⟨(AudioBuffer.append_of_room hroom _).2.trans hw.dropped, hw.positive, hw.threshold⟩
    refine Ends.modify_bind (Ends.get_bind ?_)
    have hround (v : WorkerState) (hv : Bounded v ∧ v.sourceMode = false) := @inferRound_ends env config v hv
    have hloop := Ends.loop (fun v : WorkerState => v.audioBuf.count) hround (s := appendPcm p w) ⟨happended, hpcm⟩
      (Nat.lt_succ_self _)
    exact hloop.bind fun r v ⟨_, _, hv⟩ => hv.belowSource

/-! ## Other frames -/

/-- Nothing is buffered yet. -/
structure Fresh (w : WorkerState) : Prop extends Bounded w where
  empty : w.audioBuf.count = 0

theorem Fresh.below {w : WorkerState} (hw : Fresh w) : Below w := hw.toBounded.below_of_empty hw.empty

theorem fresh_of_sent {m : Loop α} (h : Spares WorkerState.unsent m) : Preserves Fresh m :=
  (spares_sent h).preserves (p := fun v => Fresh v) fun _ =>
    ⟨fun h => ⟨(bounded_unheard _).mp h.toBounded, h.empty⟩, fun h => ⟨(bounded_unheard _).mpr h.toBounded, h.empty⟩⟩

theorem fresh_replaceSession {w : WorkerState} (hw : Bounded w) : Fresh w.replaceSession :=
  ⟨⟨hw.dropped, (by decide : 0 < windowSamples), Nat.le_refl windowSamples⟩, rfl⟩

theorem fresh_beginSession (p : Start) {w : WorkerState} (hw : Bounded w) : Fresh (w.beginSession p) := by
  have hfirst : 0 < (w.beginSession p).liveNextInferenceSamples ∧
      (w.beginSession p).liveNextInferenceSamples ≤ windowSamples := by
    unfold WorkerState.beginSession
    dsimp only
    split <;> decide
  exact ⟨⟨hw.dropped, hfirst.1, hfirst.2⟩, rfl⟩

theorem fresh_openSource (p : Start) : Preserves Fresh (openSource env p) := by
  have hmode {f : WorkerState → WorkerState} (haudio : ∀ w, (f w).audioBuf = w.audioBuf)
      (hnext : ∀ w, (f w).liveNextInferenceSamples = w.liveNextInferenceSamples) : Preserves Fresh (modify f) := by
    refine .modify fun w hw => ⟨⟨?_, ?_, ?_⟩, ?_⟩
    · rw [haudio]
      exact hw.dropped
    · rw [hnext]
      exact hw.positive
    · rw [hnext]
      exact hw.threshold
    · rw [haudio]
      exact hw.empty
  have hcall : Preserves Fresh (call .openSource env.openSource) :=
    fun w hw => ⟨⟨hw.dropped, hw.positive, hw.threshold⟩, hw.empty⟩
  refine .ite (hcall.bind fun opened => .ite ?_ ?_) ?_
  · refine .bind (hmode (fun _ => by rfl) fun _ => by rfl) fun _ => .bind (.onlyIf ?_) fun _ => .pure _
    exact (fresh_of_sent (spares_ask _)).bind fun seeked => .onlyIf (hmode (fun _ => by rfl) fun _ => by rfl)
  · refine .bind (hmode (fun _ => by rfl) fun _ => by rfl) fun _ => ?_
    refine (fresh_of_sent (spares_sendError _ _ _ _)).bind fun sent => ?_
    exact Preserves.bind (.onlyIf (fresh_of_sent (spares_stopRunning true))) fun _ => .pure _
  · exact .bind (hmode (fun _ => by rfl) fun _ => by rfl) fun _ => .pure _

theorem below_refuse (sessionId : SessionId) (code : UInt32) (recoverable : UInt8) (message : Bytes) :
    Preserves Below (orFatal (sendError env sessionId code recoverable message)) :=
  below_of_sent (spares_orFatal (spares_sendError _ _ _ _))

theorem below_handleStart (p : Start) : Preserves Below (handleStart env config p) := by
  refine .get_bind fun w hw => Ends.ite (fun _ => below_refuse _ _ _ _ w hw) fun _ => ?_
  have hreplace : Preserves Below (onlyIf w.sessionActive (modify WorkerState.replaceSession)) :=
    .onlyIf (.modify fun _ hv => (fresh_replaceSession hv.toBounded).below)
  refine (hreplace w hw).bind fun _ t ht => ?_
  refine Ends.ite (fun _ => below_refuse _ _ _ _ t ht) fun _ => ?_
  refine Ends.ite (fun _ => below_refuse _ _ _ _ t ht) fun _ => ?_
  refine Ends.ite (fun _ => below_refuse _ _ _ _ t ht) fun _ => ?_
  refine Ends.modify_bind ((fresh_openSource p _ (fresh_beginSession p ht.toBounded)).bind fun goOn u hu => ?_)
  refine Preserves.onlyIf (.get_bind fun v hv => ?_) u hu.below
  refine (below_of_sent (spares_sendPayload _ _) v hv).bind fun started x hx => ?_
  exact Preserves.ite (below_of_sent spares_reportStatus) (below_of_sent (spares_stopRunning true)) x hx

theorem below_modify {f : WorkerState → WorkerState} (haudio : ∀ w, (f w).audioBuf = w.audioBuf)
    (hmode : ∀ w, (f w).sourceMode = w.sourceMode)
    (hnext : ∀ w, (f w).liveNextInferenceSamples = w.liveNextInferenceSamples) : Preserves Below (modify f) := by
  refine .modify fun w hw => ⟨⟨?_, ?_, ?_⟩, ?_⟩
  · rw [haudio]
    exact hw.dropped
  · rw [hnext]
    exact hw.positive
  · rw [hnext]
    exact hw.threshold
  · rw [WorkerState.limit, haudio, hmode, hnext]
    exact hw.below

theorem below_restart {f : WorkerState → WorkerState} (h : ∀ w, Bounded w → Bounded (f w))
    (hempty : ∀ w, (f w).audioBuf.count = 0) : Preserves Below (modify f) :=
  .modify fun w hw => (h w hw.toBounded).below_of_empty (hempty w)

theorem bounded_reanchor (ptsUs : Int) {w : WorkerState} (hw : Bounded w) : Bounded (w.reanchor ptsUs) := by
  have hcleared := below_clearPipeline
    (w := { w with currentPlaybackPtsUs := ptsUs, decodedPtsUs := ptsUs, sourceEof := false })
    ⟨hw.dropped, hw.positive, hw.threshold⟩
  exact hcleared.toBounded

theorem below_handlePosition (p : Position) : Preserves Below (handlePosition env config p) := by
  have hask {γ : Type} (answer : Nat → γ) : Preserves Below (ask answer) := below_of_sent (spares_ask answer)
  have hchange : Preserves Below (changePause env p) := by
    refine .bind (below_modify (fun _ => by rfl) (fun _ => by rfl) fun _ => by rfl) fun _ => .get_bind fun w hw => ?_
    refine Preserves.ite (below_restart (fun v hv => (below_clearPipeline hv).toBounded) fun _ => rfl) (.onlyIf ?_) w hw
    refine (hask _).bind fun seeked => .onlyIf (below_restart (fun v hv => ?_) fun _ => rfl)
    exact bounded_reanchor _ (w := { v with lastPlaybackPtsUs := p.currentPtsUs.toInt }) ⟨hv.dropped, hv.positive, hv.threshold⟩
  have hfollow : Preserves Below (followPause env config p) := by
    refine .get_bind fun w hw => Ends.ite (fun _ => hw) fun _ => ?_
    refine (hchange w hw).bind fun _ t ht => Ends.get_bind ?_
    refine (below_of_sent (spares_sendStatus _ _ _) t ht).bind fun sent u hu => ?_
    exact Preserves.bind (.onlyIf (below_of_sent (spares_stopRunning true))) (fun _ => .pure _) u hu
  have hseek : Preserves Below (seekTo env p) := by
    refine (hask _).bind fun seeked => .ite (below_modify (fun _ => by rfl) (fun _ => by rfl) fun _ => by rfl) ?_
    refine below_restart (fun v hv => ?_) fun _ => rfl
    exact bounded_reanchor _ (w := { v with seekFailedPending := false }.invalidate .seek) ⟨hv.dropped, hv.positive, hv.threshold⟩
  refine .get_bind fun w hw => Preserves.onlyIf (hfollow.bind fun goOn => .onlyIf (.get_bind fun t ht => ?_)) w hw
  refine Ends.ite (fun _ => Ends.get_bind ?_) fun _ => below_modify (fun _ => by rfl) (fun _ => by rfl) (fun _ => by rfl) t ht
  refine (Preserves.onlyIf hseek t ht).bind fun _ u hu => Ends.get_bind ?_
  exact Preserves.onlyIf (below_modify (fun _ => by rfl) (fun _ => by rfl) fun _ => by rfl) u hu

theorem below_handlePause (p : Control) : Preserves Below (handlePause env config p) := by
  refine .get_bind fun w hw => Preserves.onlyIf (.bind (below_restart (fun v hv => ?_) fun _ => rfl) fun _ => ?_) w hw
  · have hcleared := below_clearPipeline (w := { v with paused := true }) ⟨hv.dropped, hv.positive, hv.threshold⟩
    exact ⟨hcleared.dropped, hcleared.positive, hcleared.threshold⟩
  · exact below_of_sent spares_reportStatus

theorem below_handleResume (p : Control) : Preserves Below (handleResume env config p) := by
  refine .get_bind fun w hw => Preserves.onlyIf (.bind ?_ fun _ => .bind (.onlyIf ?_) fun _ => ?_) w hw
  · exact below_modify (fun _ => by rfl) (fun _ => by rfl) fun _ => by rfl
  · refine (below_of_sent (spares_ask _)).bind fun seeked => .onlyIf (below_restart (fun v hv => ?_) fun _ => rfl)
    have hcleared := bounded_reanchor v.currentPlaybackPtsUs (w := { v with lastPlaybackPtsUs := v.currentPlaybackPtsUs })
      ⟨hv.dropped, hv.positive, hv.threshold⟩
    exact ⟨hcleared.dropped, hcleared.positive, hcleared.threshold⟩
  · exact below_of_sent spares_reportStatus

theorem below_finishTail (failure : Bytes) {afterwards : Loop Unit} (hafter : Preserves Below afterwards) :
    Preserves Below (finishTail env failure afterwards) := by
  have hstop : Preserves Below (stopRunning true) := below_of_sent (spares_stopRunning true)
  refine below_flushAudioTail.bind fun flushed => .ite (.get_bind fun w hw => ?_) ?_
  · exact Preserves.bind (below_of_sent (spares_sendError _ _ _ _)) (fun _ => hstop) w hw
  · exact Preserves.bind (below_of_heard (spares_unheard spares_emitTailSegments)) fun sent => .ite hstop hafter

theorem below_drainIf (c : Bool) : Preserves Below (drainIf env c) :=
  below_of_heard (spares_unheard (spares_unemitted (spares_drainIf c)))

theorem below_handleStop (p : Control) : Preserves Below (handleStop env config p) := by
  refine .get_bind fun w hw => Ends.ite (fun _ => hw) fun _ => ?_
  refine (Preserves.onlyIf (below_finishTail _ (.pure ())) w hw).bind fun _ t ht => ?_
  refine (below_drainIf _ t ht).bind fun drained u hu => Ends.ite (fun _ => hu) fun _ => ?_
  have hended : Below u.endSession :=
    Bounded.below_of_empty ⟨hu.dropped, (by decide : 0 < windowSamples), Nat.le_refl windowSamples⟩ rfl
  refine Ends.modify_bind ((below_of_sent spares_loadRunning _ hended).bind fun running v hv => ?_)
  exact Preserves.bind (.onlyIf (below_of_sent (spares_orFatal (spares_sendStatus _ _ _)))) (fun _ => .pure _) v hv

theorem below_handleTranslateCtrl (p : TranslateCtrl) : Preserves Below (handleTranslateCtrl p) :=
  .get_bind fun w hw => Preserves.onlyIf (below_modify (fun _ => by rfl) (fun _ => by rfl) fun _ => by rfl) w hw

theorem below_handleModelCtrl (p : ModelCtrl) : Preserves Below (handleModelCtrl env config p) := by
  have hsend (sessionId : SessionId) (progress : DownloadProgress) :
      Preserves Below (orFatal (sendModelProgress env sessionId progress)) :=
    below_of_sent (spares_orFatal (spares_sendModelProgress _ _))
  have hdownloading : Preserves Below (isDownloading env) :=
    .get_bind fun w hw => Preserves.ite ((below_of_sent (spares_ask _)).bind fun _ => .pure _) (.pure _) w hw
  refine .get_bind fun w hw => ?_
  refine Preserves.ite (.ite (hsend _ _) (hdownloading.bind fun active => .ite (hsend _ _) ?_)) (.onlyIf (hsend _ _)) w hw
  refine .bind (.onlyIf (below_modify (fun _ => by rfl) (fun _ => by rfl) fun _ => by rfl)) fun _ => ?_
  refine (below_of_heard (spares_call _ _)).bind fun started => .bind ?_ fun _ => .onlyIf (hsend _ _)
  exact below_modify (fun _ => by rfl) (fun _ => by rfl) fun _ => by rfl

/-- A SHUTDOWN may leave the source mode with audio in the buffer, but it ends the worker. -/
theorem below_handleShutdown {w : WorkerState} (hw : Below w) :
    Ends (handleShutdown env config) w fun _ v => BelowSource v := by
  refine Ends.get_bind ?_
  refine (Preserves.onlyIf (below_finishTail _ (below_of_sent spares_reportStatus)) w hw).bind fun _ t ht => ?_
  refine (below_drainIf _ t ht).bind fun drained u hu => Ends.ite (fun _ => hu.belowSource) fun _ => ?_
  refine ⟨⟨⟨hu.dropped, hu.positive, hu.threshold⟩, nofun⟩, fun hmode => ?_⟩
  have hmode : (u.sourceMode && u.sourceDecoder.isNone) = true := hmode
  exact hu.belowSource.source (Bool.and_eq_true_iff.mp hmode).1

theorem below_handleHello (p : Payload) : Preserves Below (handleHello env config p) := by
  have hleave : Preserves Below (do setFatalExit; pure Flow.leave : Loop Flow) :=
    (below_of_sent spares_setFatalExit).bind fun _ => .pure _
  unfold handleHello
  split
  · refine .ite ((below_of_sent (spares_sendError _ _ _ _)).bind fun _ => hleave) (.ite hleave ?_)
    refine .bind (below_modify (fun _ => by rfl) (fun _ => by rfl) fun _ => by rfl) fun _ => ?_
    refine (below_of_sent spares_sendHelloAck).bind fun sent => .ite (.pure _) ?_
    exact (below_of_sent (spares_stopRunning true)).bind fun _ => .pure _
  · exact hleave

theorem valid_of_request {f : Frame} {p : Payload} (h : f.request = some p) : validatePayload p = true := by
  unfold Frame.request at h
  split at h
  · split at h
    · obtain rfl := Option.some.inj h
      assumption
    · cases h
  · split at h
    · obtain rfl := Option.some.inj h
      rfl
    · cases h

theorem below_handleFrame (f : Frame) {w : WorkerState} (hw : Below w) :
    Ends (handleFrame env config f) w fun _ v => BelowSource v := by
  have hsource {m : Loop Flow} (hm : Preserves Below m) {t : WorkerState} (ht : Below t) :
      Ends m t fun _ v => BelowSource v := (hm t ht).mono fun _ _ hv => hv.belowSource
  have hproceed {m : Loop Unit} (hm : Preserves Below m) : Ends (do m; pure Flow.proceed) w fun _ v => BelowSource v :=
    hsource (hm.bind fun _ => .pure _) hw
  rw [handleFrame_eq]
  split
  · rename_i p hp
    refine Ends.get_bind (Ends.ite (fun _ => hsource (below_handleHello p) hw) fun _ => ?_)
    cases p with
    | startSession p => exact hproceed (below_handleStart p)
    | position p => exact hproceed (below_handlePosition p)
    | audioPcm p => exact (below_handleAudio p (valid_of_request hp) hw).bind fun _ v hv => hv
    | pause p => exact hproceed (below_handlePause p)
    | resume p => exact hproceed (below_handleResume p)
    | stopSession p => exact hsource (below_handleStop p) hw
    | translateCtrl p => exact hproceed (below_handleTranslateCtrl p)
    | modelCtrl p => exact hproceed (below_handleModelCtrl p)
    | shutdown => exact below_handleShutdown hw
    | _ => exact hw.belowSource
  · exact hsource (below_of_sent (spares_rejectFrame _)) hw

/-! ## The rest of a round -/

theorem spares_pollModelDownload : Spares WorkerState.unheard (pollModelDownload env) := by
  refine .get_bind fun w => Steps.onlyIf ((spares_sent (spares_ask _)).bind fun progress => ?_) w
  cases progress with
  | none => exact .pure _
  | some p =>
    refine (spares_sent (spares_ask _)).bind fun nowUs => .bind (.onlyIf ?_) fun _ => .onlyIf (.modify_of_eq fun _ => rfl)
    exact (spares_sent (spares_orFatal (spares_sendModelProgress _ _))).bind fun _ => .modify_of_eq fun _ => rfl

/-- Decoded audio holds less than a full window, or the worker was ended. -/
structure Chunked (w : WorkerState) : Prop extends Bounded w where
  source : w.sourceMode = true
  below : w.running = true → w.audioBuf.count < chunkMaxSamples

theorem Chunked.belowRunning {w : WorkerState} (hw : Chunked w) : BelowRunning w := by
  refine ⟨hw.toBounded, fun hrunning => ?_⟩
  rw [WorkerState.limit, hw.source]
  exact hw.below hrunning

theorem chunked_of_stopped {w : WorkerState} (hw : Bounded w) (hsource : w.sourceMode = true)
    (hstopped : w.running = false) : Chunked w :=
  ⟨hw, hsource, fun hrunning => absurd hrunning (by rw [hstopped]; exact Bool.false_ne_true)⟩

theorem chunkRound_ends {w : WorkerState} (hw : Bounded w ∧ w.sourceMode = true) :
    Ends (chunkRound env config) w fun r v =>
      (∀ a, r = some a → Chunked v) ∧
        (r = none → (Bounded v ∧ v.sourceMode = true) ∧ v.audioBuf.count < w.audioBuf.count) := by
  obtain ⟨hbounded, hsource⟩ := hw
  refine Ends.get_bind (Ends.ite (fun hfew => ⟨fun _ _ => ⟨hbounded, hsource, fun _ => ?_⟩, nofun⟩) fun hmore => ?_)
  · have hmin : chunkMinSamples < chunkMaxSamples := by decide
    simp only [Bool.not_eq_true', Bool.or_eq_false_iff, decide_eq_false_iff_not, not_le] at hfew
    show w.audioBuf.count < _
    omega
  have hpos : 0 < w.audioBuf.count := by
    simp only [Bool.not_eq_true', Bool.not_eq_false, Bool.or_eq_true, Bool.and_eq_true, decide_eq_true_eq] at hmore
    rcases hmore with h | h
    · exact Nat.lt_of_lt_of_le (by decide) h
    · exact h.2
  have hlen := length_getSamples w.audioBuf chunkMaxSamples
  generalize w.audioBuf.getSamples chunkMaxSamples = samples at hlen ⊢
  obtain ⟨window, boundaryPtsUs⟩ := samples
  have hlen : window.length = min chunkMaxSamples w.audioBuf.count := hlen
  refine ((spares_detect window env.speech).ends w).bind fun speech t ht => ?_
  have htaudio : t.unheard.audioBuf = w.audioBuf := ht.1 ▸ rfl
  have htsource : t.unheard.sourceMode = true := ht.1 ▸ hsource
  have htbounded := bounded_of_unheard ht.1 hbounded
  have hdrain (u : WorkerState) (hu : u.unheard = t.unheard) (n : Nat) :
      Bounded { u with audioBuf := u.audioBuf.drain n } := by
    have hubounded := bounded_of_unheard hu htbounded
    exact ⟨(AudioBuffer.droppedSamples_drain _ _).trans hubounded.dropped, hubounded.positive, hubounded.threshold⟩
  have hcount (u : WorkerState) (hu : u.unheard = t.unheard) {n : Nat} (hn : 0 < n) :
      (u.audioBuf.drain n).count < w.audioBuf.count := by
    have huaudio : u.unheard.audioBuf = w.audioBuf := hu ▸ htaudio
    show (u.unheard.audioBuf.drain n).count < _
    rw [huaudio, AudioBuffer.count_drain]
    omega
  split
  · -- there is nothing to decide, so the window is not full
    rename_i hnone
    refine ⟨fun _ _ => ⟨htbounded, htsource, fun _ => ?_⟩, nofun⟩
    by_contra hfull
    have hfull : chunkMaxSamples ≤ w.audioBuf.count := by
      have hfull : ¬ t.unheard.audioBuf.count < chunkMaxSamples := hfull
      rw [htaudio] at hfull
      omega
    have hmax : 0 < chunkMaxSamples := by decide
    have hdecides := @findChunkBoundary_isSome window.length w.sourceEof (by omega)
      (.inr (by omega)) speech
    rw [hnone] at hdecides
    cases hdecides
  · rename_i b hb
    refine Ends.ite (fun hsilence => ?_) fun hnot => Ends.ite (fun hcut => ?_) fun hnot' => ?_
    · exact Ends.modify_bind ⟨nofun, fun _ => ⟨⟨hdrain t rfl _, htsource⟩, hcount t rfl hsilence⟩⟩
    · refine ((spares_transcribeChunk _ _).ends t).bind fun transcribed u hu => ?_
      have husource : u.unheard.sourceMode = true := hu.1 ▸ htsource
      refine Ends.ite (fun _ => ?_) fun _ => ?_
      · have hsent := (spares_sent (@spares_sendError env w.sessionId eInternal 0
          (ascii "Whisper inference failed"))).ends u
        refine hsent.bind fun _ v hv => ⟨fun _ _ => ?_, nofun⟩
        have hvbounded := bounded_of_unheard (hv.1.trans hu.1) htbounded
        have hvsource : v.unheard.sourceMode = true := hv.1 ▸ husource
        exact chunked_of_stopped ⟨hvbounded.dropped, hvbounded.positive, hvbounded.threshold⟩ hvsource rfl
      · refine (loadRunning_ends u).bind fun running v hv => ?_
        have hvsame : v.unheard = t.unheard := hv.1.trans hu.1
        have hvsource : v.unheard.sourceMode = true := hvsame ▸ htsource
        refine Ends.ite (fun hstopped => ⟨fun _ _ => ?_, nofun⟩) fun _ => Ends.modify_bind ?_
        · have hstopped : v.running = false := by simpa [hv.2] using hstopped
          exact chunked_of_stopped (bounded_of_unheard hvsame htbounded) hvsource hstopped
        · have hreport := (spares_sent (@spares_reportStatus env config)).ends
            { v with audioBuf := v.audioBuf.drain b.cutSamples }
          refine hreport.bind fun _ x hx => ⟨nofun, fun _ => ⟨⟨?_, ?_⟩, ?_⟩⟩
          · exact bounded_of_unheard hx.1 (hdrain v hvsame _)
          · exact (congrArg WorkerState.sourceMode hx.1).trans hvsource
          · have haudio : x.unheard.audioBuf = v.audioBuf.drain b.cutSamples := congrArg WorkerState.audioBuf hx.1
            show x.unheard.audioBuf.count < _
            rw [haudio]
            exact hcount v hvsame hcut
    · exfalso
      cases findChunkBoundary_valid hb with
      | cut n hn _ => exact hnot' hn
      | silence n hn => exact hnot hn

/-- The decoder writes no more samples than it is asked for. -/
def Env.Chunked (env : Env) : Prop :=
  ∀ n samples ptsUs, env.readSource n = .ok samples ptsUs → samples ≤ lookaheadChunkSamples

theorem bounded_appendDecoded {samples : Nat} (hsamples : samples ≤ lookaheadChunkSamples) (ptsUs : Int)
    {w : WorkerState} (hw : Bounded w) (hcount : w.audioBuf.count < chunkMaxSamples) :
    Bounded (appendDecoded samples ptsUs w) := by
  have hlen : (w.sourceDecoder.toList.flatMap (List.replicate samples)).length ≤ samples := by
    cases w.sourceDecoder <;> simp
  have hcapacity : chunkMaxSamples + lookaheadChunkSamples ≤ lookaheadBufferSamples := by decide
  exact ⟨(AudioBuffer.append_of_room (by omega) _).2.trans hw.dropped, hw.positive, hw.threshold⟩

/-- What is decoded ahead fits, and the loop over its chunks drains the buffer. -/
theorem below_lookahead (henv : env.Chunked) {w : WorkerState} (hw : BelowSource w) :
    Ends (lookahead env config) w fun _ v => BelowRunning v := by
  refine Ends.get_bind (Ends.ite (fun _ => hw.toBelowRunning) fun hwants => ?_)
  have hmode : w.sourceMode = true := by
    simp only [WorkerState.wantsLookahead, Bool.not_eq_true', Bool.not_eq_false, Bool.and_eq_true] at hwants
    exact hwants.1.1.1.1.2
  have hbelow : Below w := ⟨hw.toBounded, by
    rw [WorkerState.limit, if_pos hmode]
    exact hw.source hmode⟩
  have hread : Ends (call .readSource env.readSource) w fun read t =>
      read = env.readSource w.tick ∧ Below t ∧ t.sourceMode = true :=
    ⟨rfl, below_of_heard (spares_call .readSource env.readSource) w hbelow, hmode⟩
  refine hread.bind fun read t hreads => ?_
  obtain ⟨hanswer, ht, htmode⟩ := hreads
  have htrunning : BelowRunning t := ht.belowSource.toBelowRunning
  cases read with
  | ok samples ptsUs =>
    refine Ends.ite (fun _ => Ends.modify_bind (Ends.get_bind ?_)) fun _ => htrunning
    have happended := bounded_appendDecoded (henv _ _ _ hanswer.symm) ptsUs ht.toBounded (ht.belowSource.source htmode)
    have hround (v : WorkerState) (hv : Bounded v ∧ v.sourceMode = true) := @chunkRound_ends env config v hv
    have hloop := Ends.loop (fun v : WorkerState => v.audioBuf.count) hround (s := appendDecoded samples ptsUs t)
      ⟨happended, htmode⟩ (Nat.lt_succ_self _)
    refine hloop.bind fun r v hends => ?_
    obtain ⟨-, -, hv⟩ := hends
    exact hv.belowRunning
  | again => exact htrunning
  | eof =>
    have heof : Below { t with sourceEof := true } := ⟨⟨ht.dropped, ht.positive, ht.threshold⟩, ht.below⟩
    have hrunning {m : Loop Flow} (hm : Preserves Below m) {u : WorkerState} (hu : Below u) :
        Ends m u fun _ v => BelowRunning v := (hm u hu).mono fun _ _ hv => hv.belowSource.toBelowRunning
    refine Ends.modify_bind ((below_flushAudioTail _ heof).bind fun flushed u hu => Ends.ite (fun _ => ?_) fun _ => ?_)
    · refine hrunning (Preserves.bind (below_of_sent (spares_sendError _ _ _ _)) fun _ => ?_) hu
      exact (below_of_sent (spares_stopRunning true)).bind fun _ => .pure _
    · exact hrunning (Preserves.bind (below_of_sent spares_reportStatus) fun _ => .pure _) hu
  | error =>
    refine (below_refuse _ _ _ _ t ht).bind fun _ u hu => ?_
    have habandoned : Below u.abandonSource := Bounded.below_of_empty ⟨hu.dropped, hu.positive, hu.threshold⟩ rfl
    exact habandoned.belowSource.toBelowRunning

theorem below_iterate (henv : env.Chunked) (frame : Option Frame) {w : WorkerState} (hw : Below w) :
    Ends (iterate env config frame) w fun _ v => BelowRunning v := by
  have hnext : Ends (handleNext env config frame) w fun _ v => BelowSource v := by
    cases frame with
    | none => exact hw.belowSource
    | some f => exact below_handleFrame f hw
  have hdeliver : Spares WorkerState.unheard (deliverResults env) := spares_unheard (spares_unemitted spares_deliverResults)
  refine hnext.bind fun flow t ht => Ends.ite (fun _ => ?_) fun _ => ht.toBelowRunning
  refine (belowSource_of_heard hdeliver t ht).bind fun _ u hu => ?_
  refine (belowSource_of_heard spares_pollModelDownload u hu).bind fun _ v hv => ?_
  refine (below_lookahead henv hv).bind fun flow x hx => Ends.ite (fun _ => ?_) fun _ => hx
  refine (belowRunning_of_heard (spares_unheard spares_emitSegments) x hx).bind fun _ y hy => ?_
  exact (belowRunning_of_heard hdeliver y hy).bind fun _ _ hz => hz

/-- **A round of the main loop.** -/
theorem belowRunning_step (henv : env.Chunked) (config : Config) (frame : Option Frame) {w : WorkerState}
    (hw : BelowRunning w) : BelowRunning (w.step env config frame) := by
  have hfinished (v : WorkerState) (hv : BelowRunning v) : BelowRunning { v with finished := true } :=
    ⟨⟨hv.dropped, hv.positive, hv.threshold⟩, hv.below⟩
  have hawake : Preserves BelowRunning (awake env frame) := by
    cases frame with
    | some f => exact .pure _
    | none =>
      refine (belowRunning_of_heard (spares_unheard (spares_unemitted spares_runThreads))).bind fun _ => ?_
      exact .get_bind fun _ hv => hv
  have hfinish (flow : Flow) : Preserves BelowRunning (finish flow) := by
    cases flow with
    | leave => exact (belowRunning_of_heard (spares_sent (spares_stopRunning false))).bind fun _ => .modify hfinished
    | hang => exact .modify hfinished
    | _ => exact .pure ()
  have hwake : Ends (wake env config frame) w fun _ v => BelowRunning v := by
    refine Ends.get_bind (Ends.onlyIf (fun _ => ?_) fun _ => hw)
    refine (hawake w hw).bind fun woken t ht => ?_
    have hload : Ends (loadRunning env) t fun running u => BelowRunning u ∧ running = u.running :=
      ⟨belowRunning_of_heard (spares_sent spares_loadRunning) t ht, (loadRunning_ends t).2⟩
    refine hload.bind fun running u ⟨hu, hrunning⟩ => Ends.ite (fun _ => hfinished u hu) fun hgo => ?_
    refine Ends.onlyIf (fun _ => ?_) fun _ => hu
    have hgo : u.running = true := by simpa [hrunning] using hgo
    exact (below_iterate henv frame ⟨hu.toBounded, hu.below hgo⟩).bind fun flow v hv => hfinish flow v hv
  exact hwake

theorem belowRunning_start (engine translator : Bool) : BelowRunning (.start engine translator) :=
  (Bounded.below_of_empty (w := .start engine translator) ⟨rfl, (by decide : 0 < windowSamples), Nat.le_refl windowSamples⟩ rfl).belowSource.toBelowRunning

/-- **The audio ring never overwrites.** After every run nothing was dropped, and a worker that goes on holds less than
the next inference waits for, which is at most a window, or less than the longest chunk in source mode. -/
theorem bounded_run (config : Config) (engine translator : Bool) {rounds : List (Env × Option Frame)}
    (henv : ∀ r ∈ rounds, r.1.Chunked) : BelowRunning (roundsRun config engine translator rounds) := by
  have hround (w : WorkerState) (r : Env × Option Frame) (hw : BelowRunning w) (hchunked : r.1.Chunked) :
      BelowRunning (w.step r.1 config r.2) := belowRunning_step hchunked config r.2 hw
  refine run_invariant hround (belowRunning_start engine translator) (along_iff.mpr fun pre r post h => ?_)
  exact henv r (by simp [h])

/-- A source whose decoder always fills its chunk. -/
def Env.decoding : Env :=
  { Env.quiet with
    openSource _ := true
    readSource _ := .ok lookaheadChunkSamples 0 }

/-- A START with a file to decode. -/
def fileStart : Start :=
  { QueueLog.sampleStart with sourceKind := sourceLocalFile, sourceUrlLen := 1, sourceUrl := .ofStr _ (ascii "a") }

/-- A source is opened, and its first chunk decoded. -/
theorem bounded_run_decoding :
    BelowRunning (roundsRun downloader true true
      [(.decoding, some hello), (.decoding, some (QueueLog.frameOf (.startSession fileStart)))]) := by
  have hchunked : Env.decoding.Chunked := fun n samples ptsUs h => (SourceRead.ok.inj h).1.ge
  refine bounded_run downloader true true fun r hr => ?_
  simp only [List.mem_cons, List.not_mem_nil, or_false] at hr
  rcases hr with rfl | rfl
  · exact hchunked
  · exact hchunked

end VlcWhisper.Worker
