import VlcWhisper.Worker.TimelineBreak

/-!
# Every live sample is heard (`vw_worker.c`)

The windows of live audio overlap: a window that is not full leaves the buffer as it is, a full one drains a hop of its
front. A ledger beside the buffer holds the samples by their position, and says which of them were handed to the
detector. The model has no amplitudes: a sample is the id of the session it belongs to, so a window is known by where it
begins and how long it is.

Main result: `live_coverage`, in a session of live audio no sample is drained that was not in a window before, and the
window loop ends.
-/

namespace VlcWhisper.Worker

open VlcWhisper.Lib VlcWhisper.Protocol SegmentBuilder Relation

variable {env : Env} {config : Config} {α : Type}

/-! ## The ledger -/

/-- A stretch of live audio: the samples that were appended, how many of them are drained, and the windows that were
handed to the detector, each from one position to another. -/
structure LiveLedger where
  appended : List SessionId
  drained : Nat
  windows : List (Nat × Nat)

namespace LiveLedger

def start (buffered : List SessionId) : LiveLedger := ⟨buffered, 0, []⟩

/-- The sample at position `i` lies in a window. -/
def Covers (l : LiveLedger) (i : Nat) : Prop := ∃ a ∈ l.windows, a.1 ≤ i ∧ i < a.2

/-- The next `n` samples to be drained do. -/
def CoversNext (l : LiveLedger) (n : Nat) : Prop := ∀ i, l.drained ≤ i → i < l.drained + n → l.Covers i

/-- Samples are appended, the front of what is not drained is handed over, or a part of it that was is drained. -/
inductive Step (l : LiveLedger) : LiveLedger → Prop
  | append (samples : List SessionId) : Step l { l with appended := l.appended ++ samples }
  | hand (n : Nat) : l.drained + n ≤ l.appended.length →
      Step l { l with windows := l.windows ++ [(l.drained, l.drained + n)] }
  | drain (n : Nat) : l.drained + n ≤ l.appended.length → l.CoversNext n → Step l { l with drained := l.drained + n }

end LiveLedger

/-- The worker listens to live audio, as the ledger says; `heard` are the windows of before. -/
structure Listens (heard : List (List SessionId)) (l : LiveLedger) (w : WorkerState) : Prop where
  engine : w.engine = true
  active : w.sessionActive = true
  unpaused : w.paused = false
  pcm : w.sourceMode = false
  drained : l.drained ≤ l.appended.length
  buffer : w.audioBuf.toList = l.appended.drop l.drained
  within : ∀ a ∈ l.windows, a.2 ≤ l.appended.length
  windows : w.vad = heard ++ l.windows.map fun a => (l.appended.take a.2).drop a.1

/-- It went on from a ledger with some samples, and the first `n` that are buffered were handed over. -/
def Follows (heard : List (List SessionId)) (l : LiveLedger) (samples : List SessionId) (n : Nat) (w : WorkerState) : Prop :=
  ∃ l', ReflTransGen LiveLedger.Step l l' ∧ l'.appended = l.appended ++ samples ∧ Listens heard l' w ∧ l'.CoversNext n

variable {heard : List (List SessionId)} {l : LiveLedger} {samples : List SessionId} {n : Nat}

theorem LiveLedger.coversNext_zero (l : LiveLedger) : l.CoversNext 0 := by
  intro i hle hlt
  omega

theorem Listens.follows {w : WorkerState} (h : Listens heard l w) : Follows heard l [] 0 w :=
  ⟨l, .refl, (List.append_nil _).symm, h, l.coversNext_zero⟩

theorem Follows.zero {w : WorkerState} (h : Follows heard l samples n w) : Follows heard l samples 0 w := by
  obtain ⟨l', hsteps, happended, hlistens, -⟩ := h
  exact ⟨l', hsteps, happended, hlistens, l'.coversNext_zero⟩

theorem Listens.length {w : WorkerState} (h : Listens heard l w) : l.appended.length = l.drained + w.audioBuf.count := by
  have hlen := congrArg List.length h.buffer
  have hdrained := h.drained
  rw [AudioBuffer.length_toList, List.length_drop] at hlen
  omega

/-! ## What does not touch the audio -/

/-- The state but for what sending, transcribing and downloading change. -/
def WorkerState.unnoticed (w : WorkerState) : WorkerState :=
  { w.unemitted with calls := [], modelDl := false, lastStage := none, lastProgressSendUs := 0 }

theorem unnoticed_of_unemitted {m : Loop α} (h : Spares WorkerState.unemitted m) : Spares WorkerState.unnoticed m :=
  h.comp fun w => { w with calls := [], modelDl := false, lastStage := none, lastProgressSendUs := 0 }

theorem unnoticed_of_sent {m : Loop α} (h : Spares WorkerState.unsent m) : Spares WorkerState.unnoticed m :=
  unnoticed_of_unemitted (spares_unemitted (spares_untranslated h))

theorem audioBuf_of_unnoticed {w v : WorkerState} (h : v.unnoticed = w.unnoticed) : v.audioBuf = w.audioBuf := by
  have hbuf : v.unnoticed.audioBuf = w.unnoticed.audioBuf := congrArg WorkerState.audioBuf h
  exact hbuf

theorem listens_unnoticed (w : WorkerState) : Listens heard l w.unnoticed ↔ Listens heard l w :=
  ⟨fun h => ⟨h.engine, h.active, h.unpaused, h.pcm, h.drained, h.buffer, h.within, h.windows⟩,
    fun h => ⟨h.engine, h.active, h.unpaused, h.pcm, h.drained, h.buffer, h.within, h.windows⟩⟩

theorem follows_unnoticed (w : WorkerState) : Follows heard l samples n w.unnoticed ↔ Follows heard l samples n w := by
  unfold Follows
  simp only [listens_unnoticed]

theorem follows_of_unnoticed {m : Loop α} (h : Spares WorkerState.unnoticed m) : Preserves (Follows heard l samples n) m :=
  h.preserves follows_unnoticed

theorem follows_of_sent {m : Loop α} (h : Spares WorkerState.unsent m) : Preserves (Follows heard l samples n) m :=
  follows_of_unnoticed (unnoticed_of_sent h)

theorem unnoticed_transcribeWindow (window : List SessionId) (windowPtsUs : Int) (limitUs : Option Int) :
    Spares WorkerState.unnoticed (transcribeWindow env window windowPtsUs limitUs) := by
  have hcall : Spares WorkerState.unnoticed (call .whisper env.transcribe) := fun _ => .of_eq rfl
  refine hcall.bind fun segs => ?_
  cases segs with
  | none => exact .pure _
  | some segs => exact (unnoticed_of_sent (spares_ask _)).bind fun memory => .bind (.modify_of_eq fun _ => rfl) fun _ => .pure _

theorem unnoticed_pollModelDownload : Spares WorkerState.unnoticed (pollModelDownload env) := by
  refine .get_bind fun w => Steps.onlyIf ((unnoticed_of_sent (spares_ask _)).bind fun progress => ?_) w
  cases progress with
  | none => exact .pure _
  | some p =>
    refine (unnoticed_of_sent (spares_ask _)).bind fun nowUs => ?_
    refine .bind (.onlyIf ?_) fun _ => .onlyIf (.modify_of_eq fun _ => rfl)
    exact (unnoticed_of_sent (spares_orFatal (spares_sendModelProgress _ _))).bind fun _ => .modify_of_eq fun _ => rfl

/-! ## A round of the window loop -/

theorem follows_inferWindow {w : WorkerState} (hw : Follows heard l samples 0 w) (hn : n ≤ w.audioBuf.count)
    (windowPtsUs : Int) (growing : Bool) :
    Ends (inferWindow env (w.audioBuf.toList.take n) windowPtsUs growing) w fun _ v =>
      Follows heard l samples n v ∧ v.audioBuf = w.audioBuf := by
  obtain ⟨l', hsteps, happended, hlistens, -⟩ := hw
  have hlength := hlistens.length
  have hwindow : (w.audioBuf.toList.take n).length = n := by
    rw [List.length_take, AudioBuffer.length_toList, Nat.min_eq_left hn]
  refine Ends.get_bind (Ends.ite (fun hnone => ?_) fun _ => ?_)
  · have hzero : n = 0 := by
      simp only [Bool.or_eq_true, decide_eq_true_eq, hwindow, hlistens.engine, Bool.not_true, Bool.false_eq_true,
        or_false] at hnone
      exact hnone
    rw [hzero]
    exact ⟨⟨l', hsteps, happended, hlistens, l'.coversNext_zero⟩, rfl⟩
  have hhand := LiveLedger.Step.hand (l := l') n (by omega)
  have hhanded : (l'.appended.take (l'.drained + n)).drop l'.drained = w.audioBuf.toList.take n := by
    rw [List.drop_take, Nat.add_sub_cancel_left, hlistens.buffer]
  have hnext : LiveLedger.CoversNext { l' with windows := l'.windows ++ [(l'.drained, l'.drained + n)] } n := by
    intro i hle hlt
    exact ⟨(l'.drained, l'.drained + n), List.mem_append_right _ List.mem_cons_self, hle, hlt⟩
  have hdetect : Ends (detect (w.audioBuf.toList.take n) env.detectSpeech) w fun _ t =>
      Follows heard l samples n t ∧ t.audioBuf = w.audioBuf := by
    refine ⟨⟨_, hsteps.tail hhand, happended, ?_, hnext⟩, rfl⟩
    refine ⟨hlistens.engine, hlistens.active, hlistens.unpaused, hlistens.pcm, hlistens.drained, hlistens.buffer, ?_, ?_⟩
    · intro a ha
      rcases List.mem_append.mp ha with ha | ha
      · exact hlistens.within a ha
      · rw [List.mem_singleton.mp ha]
        dsimp only
        omega
    · show w.vad ++ [w.audioBuf.toList.take n] = _
      rw [hlistens.windows, List.map_append, List.map_singleton, hhanded, List.append_assoc]
  refine hdetect.bind fun speech t ht => ?_
  have htranscribe (limitUs : Option Int) :
      Ends (transcribeWindow env (w.audioBuf.toList.take n) windowPtsUs limitUs) t fun _ v =>
        Follows heard l samples n v ∧ v.audioBuf = w.audioBuf := by
    have hspares := @unnoticed_transcribeWindow env (w.audioBuf.toList.take n) windowPtsUs limitUs
    exact ⟨follows_of_unnoticed hspares t ht.1, (audioBuf_of_unnoticed (hspares.eq t)).trans ht.2⟩
  exact Ends.ite (fun _ => htranscribe _) fun _ => ht

theorem follows_drain {w : WorkerState} (hw : Follows heard l samples n w) {k : Nat} (hk : min k w.audioBuf.count ≤ n)
    (threshold : Nat) :
    Follows heard l samples 0 { w with liveNextInferenceSamples := threshold, audioBuf := w.audioBuf.drain k } := by
  obtain ⟨l', hsteps, happended, hlistens, hnext⟩ := hw
  have hlength := hlistens.length
  have hless : l'.CoversNext (min k w.audioBuf.count) := fun i hle hlt => hnext i hle (by omega)
  have hdrain := LiveLedger.Step.drain (l := l') (min k w.audioBuf.count) (by omega) hless
  refine ⟨_, hsteps.tail hdrain, happended, ?_, LiveLedger.coversNext_zero _⟩
  refine ⟨hlistens.engine, hlistens.active, hlistens.unpaused, hlistens.pcm, ?_, ?_, hlistens.within, hlistens.windows⟩
  · dsimp only
    omega
  · dsimp only
    rw [AudioBuffer.toList_drain, hlistens.buffer, List.drop_drop]
    by_cases hle : k ≤ w.audioBuf.count
    · rw [Nat.min_eq_left hle]
    · rw [Nat.min_eq_right (by omega), List.drop_eq_nil_of_le (by omega), List.drop_eq_nil_of_le (by omega)]

/-- **A round of the window loop.** It hands the front of the buffer over, and drains at most that. -/
theorem follows_inferRound : Preserves (Follows heard l samples 0) (inferRound env config) := by
  refine .get_bind fun w hw => Ends.ite (fun _ => hw) fun _ => ?_
  have hwindow := AudioBuffer.getSamples_fst w.audioBuf (min w.audioBuf.count windowSamples)
  generalize w.audioBuf.getSamples (min w.audioBuf.count windowSamples) = got at hwindow ⊢
  obtain ⟨window, windowPtsUs⟩ := got
  dsimp only at hwindow ⊢
  subst hwindow
  refine (follows_inferWindow hw (Nat.min_le_left _ _) windowPtsUs _).bind fun inferred t ht => ?_
  obtain ⟨hfollows, hbuf⟩ := ht
  have hthreshold (k : Nat) {u : WorkerState} (hu : Follows heard l samples 0 u) :
      Follows heard l samples 0 { u with liveNextInferenceSamples := k } := by
    obtain ⟨l', hsteps, happended, h, hnext⟩ := hu
    exact ⟨l', hsteps, happended, ⟨h.engine, h.active, h.unpaused, h.pcm, h.drained, h.buffer, h.within, h.windows⟩, hnext⟩
  refine Ends.ite (fun _ => ?_) fun _ => Ends.ite (fun _ => ?_) fun _ => ?_
  · refine (follows_of_sent (spares_sendError _ _ _ _) t hfollows.zero).bind fun _ u hu => ?_
    exact (follows_of_sent (spares_stopRunning true) u hu).bind fun _ v hv => hv
  · refine Ends.modify_bind ((follows_of_sent spares_loadRunning _ (hthreshold _ hfollows.zero)).bind fun running u hu => ?_)
    exact (Preserves.onlyIf (follows_of_sent spares_reportStatus) u hu).bind fun _ v hv => hv
  · have hload : Ends (loadRunning env) t fun _ u => Follows heard l samples (min w.audioBuf.count windowSamples) u ∧
        u.audioBuf = w.audioBuf := by
      have hspares := unnoticed_of_sent (@spares_loadRunning env)
      exact ⟨follows_of_unnoticed hspares t hfollows, (audioBuf_of_unnoticed (hspares.eq t)).trans hbuf⟩
    refine hload.bind fun running u hu => Ends.ite (fun _ => hu.1.zero) fun _ => ?_
    obtain ⟨hu, hubuf⟩ := hu
    refine Ends.modify_bind (Ends.modify_bind ?_)
    refine (follows_of_sent spares_reportStatus _ (follows_drain hu ?_ windowSamples)).bind fun _ v hv => hv
    rw [hubuf]
    split <;> simp only [liveHopSamples, localFallbackHopSamples, windowSamples] <;> omega

/-- The samples of an AUDIO frame. -/
def samplesOf (p : Audio) : List SessionId := List.replicate (p.pcm.length.toNat / 2) p.sessionId

/-- The frame is audio of the session that goes on where the buffer ends. -/
structure GoesOn (w : WorkerState) (p : Audio) : Prop where
  session : p.sessionId = w.sessionId
  valid : isInvalidPts p = false
  continuous : w.isDiscontinuous p = false

theorem follows_appendPcm {p : Audio} (hvalid : validateAudio p = true) {w : WorkerState} (hw : Follows heard l [] 0 w)
    (hbelow : w.audioBuf.count < windowSamples) (hgoesOn : w.audioBuf.isDiscontinuity p.startPtsUs.toInt = false) :
    Follows heard l (samplesOf p) 0 (appendPcm p w) := by
  obtain ⟨l', hsteps, happended, h, -⟩ := hw
  have hroom : w.audioBuf.count + (samplesOf p).length ≤ lookaheadBufferSamples := by
    have hsamples := samples_of_validateAudio hvalid
    have hcapacity : 480000 + windowSamples ≤ lookaheadBufferSamples := by decide
    rw [samplesOf, List.length_replicate]
    omega
  have hdrained := h.drained
  refine ⟨_, hsteps.tail (.append (samplesOf p)), ?_, ?_, LiveLedger.coversNext_zero _⟩
  · dsimp only
    rw [happended, List.append_nil]
  refine ⟨h.engine, h.active, h.unpaused, h.pcm, ?_, ?_, ?_, ?_⟩
  · rw [List.length_append]
    exact hdrained.trans (Nat.le_add_right _ _)
  · show (w.audioBuf.append (samplesOf p) p.startPtsUs.toInt).toList = _
    rw [AudioBuffer.toList_append_of_room hroom hgoesOn, h.buffer, List.drop_append_of_le_length hdrained]
  · intro a ha
    rw [List.length_append]
    exact (h.within a ha).trans (Nat.le_add_right _ _)
  · show w.vad = _
    rw [h.windows]
    congr 1
    refine List.map_congr_left fun a ha => ?_
    rw [List.take_append_of_le_length (h.within a ha)]

theorem follows_handleAudio {p : Audio} (hvalid : validateAudio p = true) {w : WorkerState} (hw : Follows heard l [] 0 w)
    (hbelow : w.audioBuf.count < windowSamples) (hp : GoesOn w p) :
    Ends (handleAudio env config p) w fun _ v => Follows heard l (samplesOf p) 0 v := by
  have hguard : (w.sessionActive && !w.paused && !w.sourceMode && decide (p.sessionId = w.sessionId)) = true := by
    obtain ⟨l', -, -, h, -⟩ := hw
    rw [h.active, h.unpaused, h.pcm, hp.session, decide_eq_true rfl]
    rfl
  refine Ends.get_bind ?_
  show Ends (onlyIf (w.sessionActive && !w.paused && !w.sourceMode && decide (p.sessionId = w.sessionId)) _) _ _
  rw [hguard]
  show Ends (if isInvalidPts p = true then modify WorkerState.clearPipeline else _) _ _
  rw [hp.valid, if_neg Bool.false_ne_true]
  refine Ends.onlyIf (fun hlong => ?_) fun hshort => ?_
  · have hgoesOn : w.audioBuf.isDiscontinuity p.startPtsUs.toInt = false := by
      have hcontinuous := hp.continuous
      unfold WorkerState.isDiscontinuous at hcontinuous
      rw [hp.valid, hlong] at hcontinuous
      exact hcontinuous
    refine Ends.modify_bind (Ends.get_bind ?_)
    have happended := follows_appendPcm hvalid hw hbelow hgoesOn
    exact (Preserves.loop follows_inferRound _ _ happended).bind fun _ v hv => hv
  · have hnone : samplesOf p = [] := by
      simp only [decide_eq_false_iff_not] at hshort
      rw [samplesOf, Nat.div_eq_of_lt (by omega)]
      rfl
    rw [hnone]
    exact hw

/-! ## Rounds of the main loop -/

/-- The samples of the frame, if it is an AUDIO frame. -/
def frameSamples (frame : Option Frame) : List SessionId :=
  match frame.bind Frame.request with
  | some (.audioPcm p) => samplesOf p
  | _ => []

/-- If the round has a frame, it is audio of the session that goes on where the buffer ends. -/
def Contiguous (w : WorkerState) (r : Env × Option Frame) : Prop :=
  ∀ f ∈ r.2, ∃ p, f.request = some (.audioPcm p) ∧ GoesOn w p

theorem goesOn_unnoticed {w v : WorkerState} (h : v.unnoticed = w.unnoticed) {p : Audio} (hp : GoesOn w p) : GoesOn v p := by
  have hsession : v.unnoticed.sessionId = w.unnoticed.sessionId := congrArg WorkerState.sessionId h
  refine ⟨hp.session.trans hsession.symm, hp.valid, ?_⟩
  have hcontinuous := hp.continuous
  unfold WorkerState.isDiscontinuous at hcontinuous ⊢
  rw [audioBuf_of_unnoticed h]
  exact hcontinuous

/-- The frame of a round is appended, or the worker leaves. -/
theorem follows_handleNext {frame : Option Frame} {w : WorkerState} (hw : Follows heard l [] 0 w)
    (hbelow : w.audioBuf.count < windowSamples) (hr : Contiguous w (env, frame)) :
    Ends (handleNext env config frame) w fun flow v =>
      (flow = .proceed ∧ Follows heard l (frameSamples frame) 0 v) ∨ (flow = .leave ∧ Follows heard l [] 0 v) := by
  cases frame with
  | none => exact .inl ⟨rfl, hw⟩
  | some f =>
    obtain ⟨p, hrequest, hp⟩ := hr f rfl
    have hsamples : frameSamples (some f) = samplesOf p := by
      unfold frameSamples
      rw [Option.bind_some, hrequest]
    rw [hsamples]
    show Ends (handleFrame env config f) _ _
    rw [handleFrame_eq, hrequest]
    refine Ends.get_bind (Ends.ite (fun _ => ?_) fun _ => ?_)
    · have hrefused : Ends setFatalExit w fun _ v => Follows heard l [] 0 v := follows_of_sent spares_setFatalExit w hw
      exact hrefused.bind fun _ v hv => .inr ⟨rfl, hv⟩
    · exact (follows_handleAudio (valid_of_request hrequest) hw hbelow hp).bind fun _ v hv => .inl ⟨rfl, hv⟩

/-- The rest of a round has nothing to do with the audio. -/
theorem follows_rest {w : WorkerState} (hw : Follows heard l samples 0 w) :
    Ends (do
      deliverResults env
      pollModelDownload env
      let flow ← lookahead env config
      andThen flow do
        emitSegments env
        deliverResults env
        pure .proceed) w fun flow v => flow = .proceed ∧ Follows heard l samples 0 v := by
  have hdeliver : Preserves (Follows heard l samples 0) (deliverResults env) :=
    follows_of_unnoticed (unnoticed_of_unemitted (spares_unemitted spares_deliverResults))
  refine (hdeliver w hw).bind fun _ t ht => ?_
  refine (follows_of_unnoticed unnoticed_pollModelDownload t ht).bind fun _ u hu => ?_
  have hlookahead : Ends (lookahead env config) u fun flow v => flow = .proceed ∧ v = u := by
    refine Ends.get_bind (Ends.ite (fun _ => ⟨rfl, rfl⟩) fun hwants => ?_)
    obtain ⟨l', -, -, h, -⟩ := hu
    rw [WorkerState.wantsLookahead, h.pcm] at hwants
    simp at hwants
  refine hlookahead.bind fun flow v hv => ?_
  obtain ⟨rfl, rfl⟩ := hv
  refine ((follows_of_unnoticed (unnoticed_of_unemitted spares_emitSegments)) _ hu).bind fun _ x hx => ?_
  exact (hdeliver x hx).bind fun _ y hy => ⟨rfl, hy⟩

/-- **A round of the main loop.** Its frame is appended, unless the loop was left. -/
theorem follows_step {r : Env × Option Frame} {w : WorkerState} (hw : Listens heard l w) (hbelow : BelowRunning w)
    (hr : Contiguous w r) :
    Follows heard l (frameSamples r.2) 0 (w.step r.1 config r.2) ∨
      ((w.step r.1 config r.2).finished = true ∧ Follows heard l [] 0 (w.step r.1 config r.2)) := by
  obtain ⟨env, frame⟩ := r
  dsimp only
  have hleft {samples : List SessionId} {v : WorkerState} (hv : Follows heard l samples 0 v) :
      Follows heard l samples 0 { v with finished := true } := by
    obtain ⟨l', hsteps, happended, h, hnext⟩ := hv
    exact ⟨l', hsteps, happended, ⟨h.engine, h.active, h.unpaused, h.pcm, h.drained, h.buffer, h.within, h.windows⟩, hnext⟩
  have hwake : Ends (wake env config frame) w fun _ v => Follows heard l (frameSamples frame) 0 v ∨
      (v.finished = true ∧ Follows heard l [] 0 v) := by
    refine Ends.get_bind (Ends.onlyIf (fun _ => ?_) fun hfinished => .inr ⟨by simpa using hfinished, hw.follows⟩)
    have hawake : Ends (awake env frame) w fun woken t => t.unnoticed = w.unnoticed ∧ BelowRunning t ∧
        (woken = false → frameSamples frame = []) := by
      cases frame with
      | some f => exact ⟨rfl, hbelow, fun hwoken => by cases hwoken⟩
      | none =>
        have hspares := unnoticed_of_unemitted (spares_unemitted (@spares_runThreads env))
        have hthreads := belowRunning_of_heard (spares_unheard (spares_unemitted (@spares_runThreads env))) w hbelow
        exact Ends.bind (P := fun _ t => t.unnoticed = w.unnoticed ∧ BelowRunning t) ⟨hspares.eq w, hthreads⟩
          fun _ t ht => ⟨ht.1, ht.2, fun _ => rfl⟩
    refine hawake.bind fun woken t ht => ?_
    obtain ⟨htsame, htbelow, hnone⟩ := ht
    have hload : Ends (loadRunning env) t fun running u => u.unnoticed = t.unnoticed ∧ BelowRunning u ∧
        running = u.running :=
      ⟨(unnoticed_of_sent spares_loadRunning).eq t, belowRunning_of_heard (spares_sent spares_loadRunning) t htbelow,
        (loadRunning_ends t).2⟩
    refine hload.bind fun running u hu => ?_
    obtain ⟨husame, hubelow, hrunning⟩ := hu
    have hlistens : Listens heard l u := (listens_unnoticed u).mp (husame.trans htsame ▸ (listens_unnoticed w).mpr hw)
    refine Ends.ite (fun _ => .inr ⟨rfl, hleft hlistens.follows⟩) fun hgo => ?_
    refine Ends.onlyIf (fun _ => ?_) fun hasleep => .inl ?_
    · have hcount : u.audioBuf.count < windowSamples := by
        have hlimit := hubelow.below (by simpa [hrunning] using hgo)
        rw [WorkerState.limit, hlistens.pcm] at hlimit
        exact Nat.lt_of_lt_of_le hlimit hubelow.threshold
      have hcontiguous : Contiguous u (env, frame) := by
        intro f hf
        obtain ⟨p, hrequest, hp⟩ := hr f hf
        exact ⟨p, hrequest, goesOn_unnoticed (husame.trans htsame) hp⟩
      refine Ends.bind (m := iterate env config frame) (P := fun flow v =>
        (flow = .proceed ∧ Follows heard l (frameSamples frame) 0 v) ∨ (flow = .leave ∧ Follows heard l [] 0 v)) ?_
        fun flow v hv => ?_
      · refine (follows_handleNext hlistens.follows hcount hcontiguous).bind fun flow v hv => ?_
        rcases hv with ⟨rfl, hv⟩ | ⟨rfl, hv⟩
        · exact (follows_rest hv).mono fun flow x hx => .inl hx
        · exact .inr ⟨rfl, hv⟩
      · rcases hv with ⟨rfl, hv⟩ | ⟨rfl, hv⟩
        · exact .inl hv
        · refine (follows_of_sent (spares_stopRunning false) v hv).bind fun _ x hx => .inr ⟨rfl, hleft hx⟩
    · rw [hnone hasleep]
      exact hlistens.follows
  exact hwake

end VlcWhisper.Worker
