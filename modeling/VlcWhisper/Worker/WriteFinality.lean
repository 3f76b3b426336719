import VlcWhisper.Worker.WriteSteps

/-!
# After a write of the worker failed

A frame of which only the header was taken leaves the stream without framing, so nothing may follow a failed write.
The handler of a frame stops at it, and a failed write ends the worker. But the round goes on to its end, and some
sites of it write without looking at what happened before (`WriteSite`). Main results:

* `writesFinal_run`: nothing follows a failed write, if after one no round comes to such a site with something to write
  over a transport that takes it.
* `not_forall_writesFinal`: a progress report follows the refusal of a download.

Proof. Between the sites every program stops at a failed write (`Stops`), or loads `running` before it goes on. At a
site, the pipe is sound, or the site has nothing to write, or nothing is taken (`WriteSite.Passive`). A worker that
begins a round is running, so no write has failed before (`Health.Clean`).
-/

namespace VlcWhisper.Worker

open VlcWhisper.Lib VlcWhisper.Protocol SegmentBuilder Relation

/-- No header and no payload is taken after a write that failed. -/
def WritesFinal (writes : List Write) : Prop := ∀ pre post, writes = pre ++ .sent :: post → .failed ∉ pre

/-- The environments of the rounds, and the frames that the rounds take. -/
abbrev roundsRun (config : Config) (engine translator : Bool) (rounds : List (Env × Option Frame)) : WorkerState :=
  run (fun w (r : Env × Option Frame) => w.step r.1 config r.2) (.start engine translator) rounds

theorem writesFinal_append {writes : List Write} (h : WritesFinal writes) {write : Write}
    (hwrite : write = .sent → .failed ∉ writes) : WritesFinal (writes ++ [write]) := by
  intro pre post heq
  rcases List.eq_nil_or_concat post with rfl | ⟨post, last, rfl⟩
  · obtain ⟨rfl, hlast⟩ := List.append_inj' heq rfl
    exact hwrite (List.cons.inj hlast).1
  · rw [List.concat_eq_append, ← List.cons_append, ← List.append_assoc] at heq
    exact h pre post (List.append_inj' heq rfl).1

theorem writesFinal_steps {p q : Pipe} (h : ReflTransGen Pipe.Step p q) (hp : WritesFinal p.writes) :
    WritesFinal q.writes := by
  have hkept (p q : Pipe) (hp : WritesFinal p.writes) (hstep : Pipe.Step p q) : WritesFinal q.writes := by
    cases hstep with
    | write write hwrite => exact writesFinal_append hp hwrite
    | shut => exact hp
  exact steps_invariant hkept h hp

/-! ## Sites -/

/-- The sites of a round that write whatever happened before: a window of live audio, a translation, the progress of
the download, the end of the source, a chunk of decoded audio, and a cue. -/
inductive WriteSite where
  | window | delivery | progress | source | chunk | cue
  deriving DecidableEq

/-- The source is read to its end, or no more. -/
def SourceRead.isLast : SourceRead → Bool
  | .eof | .error => true
  | _ => false

/-- The translator, once its lock is free. -/
def WorkerState.served (env : Env) (w : WorkerState) : Option TranslateAsync :=
  w.translator.map fun t => (env.threads w.tick).foldl TranslateAsync.threadStep t

/-- There is enough audio to cut a chunk off. -/
def WorkerState.hasChunk (w : WorkerState) : Bool :=
  chunkMinSamples ≤ w.audioBuf.count || (w.sourceEof && 0 < w.audioBuf.count)

namespace WriteSite

/-- The worker has something to write at the site: an error if speech is not recognised or the source ends, the next
translation of its session, progress that is due, or a cue that the translator does not take. -/
def wants (env : Env) (w : WorkerState) : WriteSite → Bool
  | .window =>
    w.liveNextInferenceSamples ≤ w.audioBuf.count && 0 < w.audioBuf.count && w.engine && env.detectSpeech w.tick &&
      (env.transcribe (w.tick + 1)).isNone
  | .delivery =>
    ((w.served env).bind fun t => t.tryDeliver.2).any fun r => w.sessionActive && r.segment.sessionId = w.sessionId
  | .progress =>
    w.modelDl && (env.pollDownload w.tick).any fun p => shouldReport w p (env.monotonicTimeUs (w.tick + 1))
  | .source => w.wantsLookahead && (env.readSource w.tick).isLast
  | .chunk =>
    let chunk := (w.audioBuf.getSamples chunkMaxSamples).1
    w.hasChunk && (findChunkBoundary chunk.length w.sourceEof (env.speech w.tick)).any fun b =>
      b.silenceDrain = 0 && 0 < b.cutSamples && !(w.engine && (env.transcribe (w.tick + 1)).isSome)
  | .cue =>
    w.builder.pop.any fun r => !(w.translateEnabled && r.1.text != [] && (w.served env).any fun t =>
      (t.submit (popped w.sessionId r.1) w.translateSrcLang w.translateDstLang).2)

end WriteSite

/-- From the given answer on, the transport takes nothing. -/
def Env.Closed (env : Env) (tick : Nat) : Prop := ∀ n, tick ≤ n → env.ipcSend n = false

/-- After a failed write, the guard refuses every other one, or the transport takes none, or the site has nothing to
write. -/
def WriteSite.Passive (site : WriteSite) (env : Env) (w : WorkerState) : Prop :=
  .failed ∈ w.writes → w.pipe.shut = true ∨ env.Closed w.tick ∨ site.wants env w = false

/-! ## The sites of a round -/

/-- The windows that an AUDIO frame leads to. -/
def windows (env : Env) (config : Config) (w : WorkerState) (frame : Option Frame) : List WorkerState :=
  match frame.bind Frame.request with
  | some (.audioPcm p) =>
    let ptsUs := p.startPtsUs.toInt
    if w.authenticated && w.sessionActive && !w.paused && !w.sourceMode && p.sessionId = w.sessionId &&
        !(ptsUs < 0 || 315360000000000 < ptsUs) && 2 ≤ p.pcm.length.toNat then
      heads ((appendPcm p w).audioBuf.count + 1) (inferRound env config) (appendPcm p w)
    else []
  | _ => []

def deliveries (env : Env) (w : WorkerState) : List WorkerState :=
  match w.translator with
  | none => []
  | some t => heads (t.load + 1) (deliverRound env) w

/-- The chunks that are cut off what was read ahead. -/
def chunks (env : Env) (config : Config) (w : WorkerState) : List WorkerState :=
  if w.wantsLookahead then
    match (call .readSource env.readSource).run w with
    | (.ok samples ptsUs, v) =>
      if 0 < samples then
        heads ((appendDecoded samples ptsUs v).audioBuf.count + 1) (chunkRound env config) (appendDecoded samples ptsUs v)
      else []
    | _ => []
  else []

def emissions (env : Env) (w : WorkerState) : List WorkerState := heads (w.builder.queue.count + 1) (emitRound env) w

/-- The sites after the frame was handled, each with the state in which the worker comes to it. -/
def laterVisits (env : Env) (config : Config) (w : WorkerState) : List (WriteSite × WorkerState) :=
  let delivered := ((deliverResults env).run w).2
  let polled := ((pollModelDownload env).run delivered).2
  let read := (lookahead env config).run polled
  let emitted := ((emitSegments env).run read.2).2
  (deliveries env w).map (.delivery, ·) ++ (.progress, delivered) :: (.source, polled) ::
    (chunks env config polled).map (.chunk, ·) ++
      if read.1 = .proceed then (emissions env read.2).map (.cue, ·) ++ (deliveries env emitted).map (.delivery, ·) else []

/-- The sites of a round. -/
def roundVisits (env : Env) (config : Config) (w : WorkerState) (frame : Option Frame) : List (WriteSite × WorkerState) :=
  let handled := (handleNext env config frame).run w
  (windows env config w frame).map (.window, ·) ++
    if handled.1 = .proceed then laterVisits env config handled.2 else []

/-- The wait for a frame; whether it ends in a round. -/
def waits (env : Env) (frame : Option Frame) : Loop Bool := do
  let w ← get
  if w.finished then pure false
  else do
    let woken ← awake env frame
    let running ← loadRunning env
    pure (running && woken)

/-- The sites that the worker comes to with a frame. -/
def visits (env : Env) (config : Config) (w : WorkerState) (frame : Option Frame) : List (WriteSite × WorkerState) :=
  let waited := (waits env frame).run w
  if waited.1 then roundVisits env config waited.2 frame else []

/-- At no site of the round does the worker write after a write that failed. -/
def PassiveRound (env : Env) (config : Config) (w : WorkerState) (frame : Option Frame) : Prop :=
  ∀ visit ∈ visits env config w frame, visit.1.Passive env visit.2

variable {env : Env} {config : Config} {α : Type}

/-! ## At a site -/

theorem pipe_step_of_closed {h h' : Health} (hclosed : env.Closed h.tick) (hstep : Health.Step env (fun _ => True) h h') :
    ReflTransGen Pipe.Step h.pipe h'.pipe ∧ env.Closed h'.tick := by
  cases hstep with
  | ask => exact ⟨.refl, fun n hn => hclosed n (Nat.le_of_succ_le hn)⟩
  | write =>
    refine ⟨.single (.write _ fun hsent => ?_), fun n hn => hclosed n (Nat.le_of_succ_le hn)⟩
    rw [hclosed _ (Nat.le_refl _)] at hsent
    cases hsent
  | unencoded => exact ⟨.single (.write .unencoded nofun), hclosed⟩
  | mark =>
    refine ⟨?_, hclosed⟩
    unfold Health.pipe
    cases h.transport.registered with
    | false => exact .refl
    | true => exact .single .shut
  | _ => exact ⟨.refl, hclosed⟩

/-- Over a transport that takes nothing, every write fails. -/
theorem pipe_of_closed {w v : WorkerState} (hclosed : env.Closed w.tick)
    (hsteps : ReflTransGen (Health.Step env fun _ => True) w.health v.health) :
    ReflTransGen Pipe.Step w.pipe v.pipe := by
  have hkept (h h' : Health) (hh : ReflTransGen Pipe.Step w.health.pipe h.pipe ∧ env.Closed h.tick)
      (hstep : Health.Step env (fun _ => True) h h') :
      ReflTransGen Pipe.Step w.health.pipe h'.pipe ∧ env.Closed h'.tick :=
    ⟨hh.1.trans (pipe_step_of_closed hh.2 hstep).1, (pipe_step_of_closed hh.2 hstep).2⟩
  have hall := steps_invariant hkept hsteps ⟨.refl, hclosed⟩
  exact hall.1

/-- What a site does from a state in which it is passive. -/
theorem WriteSite.Passive.pipeAt {site : WriteSite} {w : WorkerState} (hpassive : site.Passive env w)
    (hclean : w.health.Clean) {m : Loop α} (hsound : w.pipe.Sound → PipeAt w m)
    (hheeds : ReflTransGen (Health.Step env fun _ => True) w.health (m.run w).2.health)
    (hidle : w.running = false → site.wants env w = false → PipeAt w m) : PipeAt w m := by
  by_cases hw : w.pipe.Sound
  · exact hsound hw
  obtain ⟨hlost, hopen⟩ := Classical.not_imp.mp hw
  rcases hpassive hlost with hshut | hclosed | hwants
  · exact (hopen hshut).elim
  · exact pipe_of_closed hclosed hheeds
  · refine hidle (Bool.eq_false_of_not_eq_true fun hrunning => ?_) hwants
    exact hclean hrunning hlost

theorem loadRunning_stopped {w : WorkerState} (h : w.running = false) :
    Ends (loadRunning env) w fun running _ => running = false := by
  refine Ends.bind (m := ask env.readerFailed) (P := fun _ t => t.running = false) h fun failed t ht => ?_
  cases failed with
  | false => exact ht
  | true => exact rfl

/-- A worker that was ended does nothing more after it loads `running`. -/
theorem pipeAt_stopped {w : WorkerState} (h : w.running = false) {m : Bool → Loop α} (hm : Silent (m false)) :
    PipeAt w (do let running ← loadRunning env; m running) := by
  refine StepsAt.bind (silent_loadRunning.pipeAt w) ?_
  have hstopped : ((loadRunning env).run w).1 = false := loadRunning_stopped h
  rw [hstopped]
  exact hm.pipeAt _

/-! ## Windows -/

theorem inferWindow_fails (window : List SessionId) (windowPtsUs : Int) (growing : Bool) (w : WorkerState) :
    Ends (inferWindow env window windowPtsUs growing) w fun inferred t => t.running = w.running ∧
      (inferred = false → window.length ≠ 0 ∧ w.engine = true ∧ env.detectSpeech w.tick = true ∧
        env.transcribe (w.tick + 1) = none) := by
  refine Ends.get_bind (Ends.ite (fun _ => ⟨rfl, fun h => (Bool.false_ne_true h.symm).elim⟩) fun hwindow => ?_)
  simp only [Bool.or_eq_true, decide_eq_true_eq, Bool.not_eq_true', not_or, Bool.not_eq_false] at hwindow
  refine Ends.bind (m := detect window env.detectSpeech) (P := fun speech t => t.running = w.running ∧
    speech = env.detectSpeech w.tick ∧ t.tick = w.tick + 1) ⟨rfl, rfl, rfl⟩ fun speech t ht => ?_
  obtain ⟨hrunning, hspeech, htick⟩ := ht
  refine Ends.ite (fun h => ?_) fun _ => ⟨hrunning, fun h => (Bool.false_ne_true h.symm).elim⟩
  refine Ends.bind (m := call .whisper env.transcribe) (P := fun segs u => u.running = w.running ∧
    segs = env.transcribe (w.tick + 1)) ⟨hrunning, congrArg env.transcribe htick⟩ fun segs u hu => ?_
  obtain ⟨hrunning, hsegs⟩ := hu
  cases segs with
  | none => exact ⟨hrunning, fun _ => ⟨hwindow.1, hwindow.2, hspeech.symm.trans h, hsegs.symm⟩⟩
  | some segs => exact ⟨hrunning, fun h => (Bool.false_ne_true h.symm).elim⟩

theorem silent_inferWindow (window : List SessionId) (windowPtsUs : Int) (growing : Bool) :
    Silent (inferWindow env window windowPtsUs growing) := by
  refine .get_bind fun w => Steps.ite (.pure _) ?_ w
  exact (silent_detect _ _).bind fun speech => .ite (silent_transcribeWindow _ _ _) (.pure _)

theorem stops_inferRound : Stops (inferRound env config) fun _ => False := by
  refine .get_bind fun w hw => SettlesAll.ite (Silent.stops (.pure _)) ?_ w hw
  generalize w.audioBuf.getSamples (min w.audioBuf.count windowSamples) = samples
  refine .andThen (silent_inferWindow _ _ _).stops fun inferred => .ite ?_ (.ite ?_ ?_)
  · exact stops_tellAndStop (stops_sendError _ _ _ _) _
  · refine .andThen (stops_modify fun _ => by simp only [WorkerState.pipe]) fun _ => ?_
    refine .andThen silent_loadRunning.stops fun running => ?_
    exact (stops_onlyIf stops_reportStatus).bind_false (fun _ h => h.elim) fun _ _ => .pure _
  · refine .andThen silent_loadRunning.stops fun running => .ite (Silent.stops (.pure _)) ?_
    refine .andThen (stops_modify fun _ => by rfl) fun _ => .andThen (silent_drainAudio _).stops fun _ => ?_
    exact stops_reportStatus.bind_false (fun _ h => h.elim) fun _ _ => .pure _

theorem count_of_window {w : WorkerState} {n : Nat} (h : (w.audioBuf.getSamples n).1.length ≠ 0) :
    0 < w.audioBuf.count := by
  by_contra hcount
  refine h ?_
  unfold AudioBuffer.getSamples
  rw [if_pos (by simp; omega)]
  rfl

theorem idle_inferRound {w : WorkerState} (hrunning : w.running = false) (hidle : WriteSite.window.wants env w = false) :
    PipeAt w (inferRound env config) := by
  refine StepsAt.get_bind ?_
  split
  · exact .refl
  rename_i hcount
  generalize hsamples : w.audioBuf.getSamples (min w.audioBuf.count windowSamples) = samples
  dsimp only
  refine StepsAt.bind ((silent_inferWindow _ _ _).pipeAt w) ?_
  have hinferred (growing : Bool) : Ends (inferWindow env samples.1 samples.2 growing) w fun inferred t =>
      t.running = false ∧ inferred = true := by
    refine (inferWindow_fails _ _ _ _).mono fun inferred t ⟨hsame, hfails⟩ => ⟨hsame.trans hrunning, ?_⟩
    cases inferred with
    | true => rfl
    | false =>
      obtain ⟨hlength, hengine, hspeech, htranscribe⟩ := hfails rfl
      have haudio := count_of_window (hsamples ▸ hlength)
      have hwants : WriteSite.window.wants env w = true := by
        simp [WriteSite.wants, Nat.not_lt.mp hcount, haudio, hengine, hspeech, htranscribe]
      exact (Bool.false_ne_true (hidle.symm.trans hwants)).elim
  obtain ⟨hstopped, htrue⟩ := hinferred (w.liveProgressiveMode && decide (samples.1.length < windowSamples))
  rw [htrue]
  generalize ((inferWindow env samples.1 samples.2 _).run w).2 = t at hstopped ⊢
  rw [if_neg (by simp)]
  split
  · generalize min (samples.1.length + liveHopSamples) windowSamples = next
    refine StepsAt.modify_bind (by exact .refl) ?_
    exact pipeAt_stopped (by exact hstopped) (Steps.bind (.pure ()) fun _ => .pure _)
  · exact pipeAt_stopped hstopped (Steps.pure (some ()))

theorem pipeAt_inferRound {w : WorkerState} (hok : w.health.Ok) (hpassive : WriteSite.window.Passive env w) :
    PipeAt w (inferRound env config) :=
  hpassive.pipeAt hok.2 (fun hw => (stops_inferRound w hw).1) (heeds_inferRound w hok).1 idle_inferRound

theorem ok_session {w : WorkerState} {f : WorkerState → WorkerState} {active audio : Bool} (hok : w.health.Ok)
    (hengine : w.engine = true) (h : (f w).health = { w.health with sessionActive := active, hasAudio := audio }) :
    (f w).health.Ok := by
  rw [h]
  exact ⟨⟨hok.1.1, hok.1.2.1, fun hnone => (Bool.false_ne_true (hnone.symm.trans hengine)).elim⟩, hok.2⟩

theorem pipeAt_handleAudio {w : WorkerState} (hok : w.health.Ok) {p : Audio} {frame : Option Frame}
    (hframe : frame.bind Frame.request = some (.audioPcm p)) (hauth : w.authenticated = true)
    (hwindows : ∀ v ∈ windows env config w frame, WriteSite.window.Passive env v) : PipeAt w (handleAudio env config p) := by
  refine StepsAt.get_bind ?_
  unfold onlyIf
  split
  · rename_i hsession
    dsimp only
    split
    · exact .of_eq rfl
    rename_i htime
    split
    · rename_i hpcm
      have hengine := engine_of_session hok (.inl (by simp only [Bool.and_eq_true] at hsession; exact hsession.1.1.1))
      have happended : (appendPcm p w).health.Ok := ok_session hok hengine rfl
      refine StepsAt.modify_bind (by exact .refl) (StepsAt.get_bind (StepsAt.bind ?_ .refl))
      have hround (v : WorkerState) (hv : v.health.Ok) : ((inferRound env config).run v).2.health.Ok :=
        Heeds.ok env heeds_inferRound hv
      refine StepsAt.loop_of_heads hround happended fun v hv hvok => ?_
      refine pipeAt_inferRound hvok (hwindows v ?_)
      unfold windows
      rw [hframe]
      dsimp only
      rw [hauth, Bool.true_and, if_pos (by simp [hsession, htime, hpcm])]
      exact hv
    · exact .refl
  · exact .refl

/-! ## Deliveries -/

theorem diagDeliver_foreign {w : WorkerState} {r : TranslateResult}
    (h : (w.sessionActive && decide (r.segment.sessionId = w.sessionId)) = false) :
    Ends (diagDeliver env r) w fun _ v => v = w := by
  have hdeliver : Ends (deliverTranslation env r) w fun _ v => v = w :=
    Ends.get_bind (Ends.onlyIf (fun hc => (Bool.false_ne_true (h.symm.trans hc)).elim) fun _ => rfl)
  refine Ends.get_bind ?_
  split
  · rw [if_neg (by rw [h]; exact Bool.false_ne_true)]
    exact hdeliver
  · exact hdeliver

theorem idle_deliverRound {w : WorkerState} (hidle : WriteSite.delivery.wants env w = false) :
    PipeAt w (deliverRound env) := by
  refine StepsAt.bind (m := tryDeliverScoped env) ?_ .refl
  refine StepsAt.modify_bind (by exact .refl) (StepsAt.get_bind ?_)
  split
  · exact Silent.pipeAt ((silent_stopRunning true).bind fun _ => .pure _) _
  refine StepsAt.bind (silent_runThreads.pipeAt _) (StepsAt.get_bind ?_)
  split
  · exact .refl
  rename_i t ht
  refine StepsAt.modify_bind (by exact .refl) ?_
  split
  · exact .refl
  rename_i r hr
  refine StepsAt.bind (.of_eq (congrArg WorkerState.pipe (diagDeliver_foreign ?_))) .refl
  have hserved : w.served env = some t := ht
  rw [WriteSite.wants, hserved, Option.bind_some, hr] at hidle
  exact hidle

theorem pipeAt_deliverResults {w : WorkerState} (hw : w.health.Weak)
    (hpassive : ∀ v ∈ deliveries env w, WriteSite.delivery.Passive env v) : PipeAt w (deliverResults env) := by
  refine StepsAt.get_bind ?_
  unfold deliveries at hpassive
  split
  · exact .refl
  · rename_i t ht
    rw [ht] at hpassive
    have hround (v : WorkerState) (hv : v.health.Weak) : HeedsAt env (fun _ => True) v (deliverRound env) fun _ => True :=
      heedsAt_deliverRound hv
    have hkept (v : WorkerState) (hv : v.health.Weak) : ((deliverRound env).run v).2.health.Weak :=
      (HeedsAt.ok env (hround v hv)).weak
    have hloop : PipeAt w (loop (t.load + 1) (deliverRound env)) := by
      refine StepsAt.loop_of_heads hkept hw fun v hmem hv => ?_
      exact (hpassive v hmem).pipeAt hv.2.2 (fun hsound => (stops_deliverRound v hsound).1) (hround v hv).1
        fun _ => idle_deliverRound
    exact StepsAt.bind hloop .refl

/-! ## Progress -/

theorem stops_pollModelDownload : Stops (pollModelDownload env) fun _ => False := by
  refine .get_bind fun w hw => stops_onlyIf (.andThen (silent_ask _).stops fun answer => ?_) w hw
  cases answer with
  | none => exact Silent.stops (.pure ())
  | some p =>
    refine .andThen (silent_ask _).stops fun nowUs => ?_
    have hended : Silent (onlyIf (downloadEnded w.lastStage p.stage)
        (modify fun w => { w with modelDl := false, lastStage := none })) := .onlyIf (silent_modify fun _ => by rfl)
    refine (stops_onlyIf ?_).bind_false (fun _ h => h.elim) fun _ _ => hended
    exact (stops_sendModelProgress _ _).bind_false (fun _ h => h.elim) fun _ _ => silent_modify fun _ => by rfl

theorem idle_pollModelDownload {w : WorkerState} (hidle : WriteSite.progress.wants env w = false) :
    PipeAt w (pollModelDownload env) := by
  refine StepsAt.get_bind ?_
  unfold onlyIf
  split
  · rename_i hdownload
    refine StepsAt.bind (m := ask env.pollDownload) (by exact .refl) ?_
    have hanswer : ((ask env.pollDownload).run w).1 = env.pollDownload w.tick := rfl
    cases hpoll : ((ask env.pollDownload).run w).1 with
    | none => exact .refl
    | some p =>
      refine StepsAt.bind (m := ask env.monotonicTimeUs) (by exact .refl) ?_
      have hnow : ((ask env.monotonicTimeUs).run ((ask env.pollDownload).run w).2).1 = env.monotonicTimeUs (w.tick + 1) := rfl
      have hdue : shouldReport w p (env.monotonicTimeUs (w.tick + 1)) = false := by
        rw [WriteSite.wants, hdownload, Bool.true_and, ← hanswer, hpoll] at hidle
        exact hidle
      rw [hnow, hdue]
      refine StepsAt.bind (m := pure ()) (by exact .refl) ?_
      exact Silent.pipeAt (.onlyIf (silent_modify fun _ => by rfl)) _
  · exact .refl

theorem pipeAt_pollModelDownload {w : WorkerState} (hok : w.health.Ok) (hpassive : WriteSite.progress.Passive env w) :
    PipeAt w (pollModelDownload env) :=
  hpassive.pipeAt hok.2 (fun hw => (stops_pollModelDownload w hw).1) (heeds_pollModelDownload w hok).1
    fun _ => idle_pollModelDownload

/-! ## The source -/

theorem silent_transcribeChunk (chunk : List SessionId) (ptsUs : Int) : Silent (transcribeChunk env chunk ptsUs) :=
  .get_bind fun w => Steps.ite (silent_transcribeWindow _ _ _) (.pure _) w

theorem transcribeChunk_fails (chunk : List SessionId) (ptsUs : Int) (w : WorkerState) :
    Ends (transcribeChunk env chunk ptsUs) w fun transcribed t => t.running = w.running ∧
      (transcribed = false → (w.engine && (env.transcribe w.tick).isSome) = false) := by
  refine Ends.get_bind (Ends.ite (fun _ => ?_) fun hengine => ⟨rfl, fun _ => ?_⟩)
  · refine Ends.bind (m := call .whisper env.transcribe) (P := fun segs u => u.running = w.running ∧
      segs = env.transcribe w.tick) ⟨rfl, rfl⟩ fun segs u ⟨hrunning, hsegs⟩ => ?_
    cases segs with
    | none => exact ⟨hrunning, fun _ => by rw [← hsegs]; exact Bool.and_false _⟩
    | some segs => exact ⟨hrunning, nofun⟩
  · rw [Bool.eq_false_of_not_eq_true hengine, Bool.false_and]

theorem stops_chunkRound : Stops (chunkRound env config) fun _ => False := by
  refine .get_bind fun w hw => SettlesAll.ite (Silent.stops (.pure _)) ?_ w hw
  generalize w.audioBuf.getSamples chunkMaxSamples = samples
  refine .andThen (silent_detect _ _).stops fun speech => ?_
  split
  · exact Silent.stops (.pure _)
  · refine .ite (Silent.stops ((silent_drainAudio _).bind fun _ => .pure _)) (.ite ?_ (Silent.stops (.pure _)))
    refine .andThen (silent_transcribeChunk _ _).stops fun transcribed => ?_
    refine .ite (stops_tellAndStop (stops_sendError _ _ _ _) _) ?_
    refine .andThen silent_loadRunning.stops fun running => .ite (Silent.stops (.pure _)) ?_
    exact .andThen (silent_drainAudio _).stops fun _ => stops_reportStatus.bind_false (fun _ h => h.elim) fun _ _ => .pure _

theorem idle_chunkRound {w : WorkerState} (hrunning : w.running = false) (hidle : WriteSite.chunk.wants env w = false) :
    PipeAt w (chunkRound env config) := by
  refine StepsAt.get_bind ?_
  change PipeAt w (if (!w.hasChunk) = true then _ else _)
  by_cases hchunk : w.hasChunk = true
  swap
  · rw [if_pos (by simpa using hchunk)]
    exact .refl
  rw [if_neg (by simpa using hchunk)]
  rw [WriteSite.wants, hchunk, Bool.true_and] at hidle
  generalize w.audioBuf.getSamples chunkMaxSamples = samples at hidle ⊢
  refine StepsAt.bind (m := detect samples.1 env.speech) (by exact .refl) ?_
  have hspeech : ((detect samples.1 env.speech).run w).1 = env.speech w.tick := rfl
  rw [hspeech]
  split
  · exact .refl
  rename_i b hb
  rw [hb, Option.any_some] at hidle
  split
  · exact Silent.pipeAt ((silent_drainAudio _).bind fun _ => .pure _) _
  rename_i hsilence
  split
  · rename_i hcut
    have htranscribed : Ends (transcribeChunk env (samples.1.take b.cutSamples) samples.2)
        ((detect samples.1 env.speech).run w).2 fun transcribed t => t.running = false ∧ transcribed = true := by
      refine (transcribeChunk_fails _ _ _).mono fun transcribed t ⟨hsame, hfails⟩ => ⟨hsame.trans hrunning, ?_⟩
      cases transcribed with
      | true => rfl
      | false =>
        have hnone : (w.engine && (env.transcribe (w.tick + 1)).isSome) = false := hfails rfl
        rw [hnone] at hidle
        simp [hcut, Nat.eq_zero_of_not_pos hsilence] at hidle
    refine StepsAt.bind ((silent_transcribeChunk _ _).pipeAt _) ?_
    obtain ⟨hstopped, htrue⟩ := htranscribed
    rw [htrue, if_neg (by simp)]
    exact pipeAt_stopped hstopped (Steps.pure (some ()))
  · exact .refl

theorem pipeAt_chunkRound {w : WorkerState} (hok : w.health.Ok) (hpassive : WriteSite.chunk.Passive env w) :
    PipeAt w (chunkRound env config) :=
  hpassive.pipeAt hok.2 (fun hw => (stops_chunkRound w hw).1) (heeds_chunkRound w hok).1 idle_chunkRound

theorem stops_sourceEnd (sessionId : SessionId) : Stops (do
    modify fun w => { w with sourceEof := true }
    let flushed ← flushAudioTail env
    if !flushed then do
      let _ ← sendError env sessionId eInternal 0 (ascii "Source tail inference failed")
      stopRunning true
      pure Flow.leave
    else do
      reportStatus env config
      pure .proceed) fun _ => False := by
  refine .andThen (stops_modify fun _ => by rfl) fun _ => .andThen silent_flushAudioTail.stops fun flushed => .ite ?_ ?_
  · exact stops_tellAndStop (stops_sendError _ _ _ _) _
  · exact stops_reportStatus.bind_false (fun _ h => h.elim) fun _ _ => .pure _

theorem pipeAt_readChunks {w : WorkerState} (hok : w.health.Ok) (hengine : w.engine = true) (samples : Nat) (ptsUs : Int)
    (hchunks : ∀ v ∈ heads ((appendDecoded samples ptsUs w).audioBuf.count + 1) (chunkRound env config)
      (appendDecoded samples ptsUs w), WriteSite.chunk.Passive env v) :
    PipeAt w (do
      modify (appendDecoded samples ptsUs)
      let w ← get
      let _ ← loop (w.audioBuf.count + 1) (chunkRound env config)
      pure Flow.proceed) := by
  have hread : (appendDecoded samples ptsUs w).health.Ok := ok_session hok hengine rfl
  refine StepsAt.modify_bind (by exact .refl) (StepsAt.get_bind (StepsAt.bind ?_ .refl))
  have hround (v : WorkerState) (hv : v.health.Ok) : ((chunkRound env config).run v).2.health.Ok :=
    Heeds.ok env heeds_chunkRound hv
  exact StepsAt.loop_of_heads hround hread fun v hmem hv => pipeAt_chunkRound hv (hchunks v hmem)

theorem pipeAt_lookahead_of {w : WorkerState} (hok : w.health.Ok)
    (hlast : w.wantsLookahead = true → (env.readSource w.tick).isLast = true → w.pipe.Sound)
    (hchunks : ∀ v ∈ chunks env config w, WriteSite.chunk.Passive env v) : PipeAt w (lookahead env config) := by
  refine StepsAt.get_bind ?_
  by_cases hwants : w.wantsLookahead = true
  swap
  · rw [if_pos (by simpa using hwants)]
    exact .refl
  rw [if_neg (by simpa using hwants)]
  have hengine : w.engine = true := by
    unfold WorkerState.wantsLookahead at hwants
    simp only [Bool.and_eq_true] at hwants
    exact engine_of_session hok (.inl hwants.1.1.1.1.1)
  refine StepsAt.bind (m := call .readSource env.readSource) (by exact .refl) ?_
  have hanswer : ((call .readSource env.readSource).run w).1 = env.readSource w.tick := rfl
  have hcalled : ((call .readSource env.readSource).run w).2.health.Ok :=
    Heeds.ok env (heeds_call .readSource env.readSource) hok
  have hlast := hlast hwants
  rw [← hanswer] at hlast
  unfold chunks at hchunks
  rw [if_pos hwants] at hchunks
  cases hread : ((call .readSource env.readSource).run w).1 with
  | ok samples ptsUs =>
    dsimp only
    split
    · rename_i hsamples
      refine pipeAt_readChunks hcalled hengine samples ptsUs fun v hv => hchunks v ?_
      have hpair : (call .readSource env.readSource).run w =
          (.ok samples ptsUs, ((call .readSource env.readSource).run w).2) := Prod.ext hread rfl
      rw [hpair]
      dsimp only
      rw [if_pos hsamples]
      exact hv
    · exact .refl
  | again => exact .refl
  | eof =>
    have hsound : ((call .readSource env.readSource).run w).2.pipe.Sound := hlast (by rw [hread]; rfl)
    exact (stops_sourceEnd w.sessionId _ hsound).1
  | error =>
    have hsound : ((call .readSource env.readSource).run w).2.pipe.Sound := hlast (by rw [hread]; rfl)
    have habandon : Silent (do modify WorkerState.abandonSource; pure Flow.proceed) :=
      (silent_modify fun _ => by rfl).bind fun _ => .pure _
    exact (Stops.bind_false (stops_orFatal_sendError _ _ _ _) (fun _ h => h.elim) (fun _ _ => habandon) _ hsound).1

theorem pipeAt_lookahead {w : WorkerState} (hok : w.health.Ok) (hsource : WriteSite.source.Passive env w)
    (hchunks : ∀ v ∈ chunks env config w, WriteSite.chunk.Passive env v) : PipeAt w (lookahead env config) := by
  refine hsource.pipeAt hok.2 (fun hw => ?_) (heeds_lookahead w hok).1 fun _ hidle => ?_
  · exact pipeAt_lookahead_of hok (fun _ _ => hw) hchunks
  · refine pipeAt_lookahead_of hok (fun hwants hread => ?_) hchunks
    rw [WriteSite.wants, hwants, hread] at hidle
    cases hidle

/-! ## Cues -/

theorem submitScoped_accepted {w : WorkerState} {c : Caption}
    (h : (w.served env).any (fun t => (t.submit c w.translateSrcLang w.translateDstLang).2) = true) :
    Ends (submitScoped env c) w fun submitted v => submitted = true ∧ v.pipe = w.pipe := by
  refine Ends.get_bind (Ends.ite (fun _ => ⟨rfl, rfl⟩) fun _ => ?_)
  refine Ends.bind (m := runThreads env) (P := fun _ v => v.translator = w.served env ∧ v.pipe = w.pipe ∧
    v.translateSrcLang = w.translateSrcLang ∧ v.translateDstLang = w.translateDstLang) ⟨rfl, rfl, rfl, rfl⟩
    fun _ v ⟨hserved, hpipe, hsrc, hdst⟩ => Ends.get_bind ?_
  rw [← hserved, ← hsrc, ← hdst] at h
  split
  · rename_i hnone
    rw [hnone] at h
    cases h
  · rename_i t ht
    rw [ht, Option.any_some] at h
    dsimp only
    refine Ends.modify_bind ?_
    rw [if_pos h]
    exact ⟨rfl, hpipe⟩

theorem idle_emitRound {w : WorkerState} (hidle : WriteSite.cue.wants env w = false) : PipeAt w (emitRound env) := by
  refine StepsAt.bind (silent_popSegment.pipeAt w) ?_
  have hends := popSegment_ends w
  rw [Ends] at hends
  cases hpopped : (popSegment.run w).1 with
  | none => exact .refl
  | some cue =>
    rw [hpopped] at hends
    obtain ⟨b, hpop, hstate⟩ := hends
    rw [WriteSite.wants, hpop, Option.any_some, Bool.not_eq_false', Bool.and_eq_true] at hidle
    obtain ⟨hoffered, htaken⟩ := hidle
    have htranslator : w.translator.isSome = true := by
      rw [WorkerState.served, Option.any_map] at htaken
      cases h : w.translator with
      | none =>
        rw [h] at htaken
        cases htaken
      | some t => rfl
    have hsent : Ends (emitSegment env cue false) (w.holding cue b) fun sent v =>
        sent = true ∧ v.pipe = (w.holding cue b).pipe := by
      refine Ends.get_bind ?_
      dsimp only
      rw [Bool.and_eq_true] at hoffered
      rw [hoffered.1, hoffered.2, htranslator, Bool.and_self, Bool.and_self, if_pos rfl]
      refine (submitScoped_accepted (w := w.holding cue b) htaken).bind fun submitted v hv => ?_
      obtain ⟨htrue, hpipe⟩ := hv
      rw [if_pos htrue]
      exact ⟨rfl, hpipe⟩
    rw [hstate]
    refine StepsAt.bind (m := orFatal (emitSegment env cue false)) (.of_eq ?_) .refl
    refine Ends.bind (Q := fun _ v => v.pipe = (w.holding cue b).pipe) hsent fun sent v hv => ?_
    obtain ⟨htrue, hpipe⟩ := hv
    subst htrue
    exact hpipe

theorem pipeAt_emitSegments {w : WorkerState} (hok : w.health.Ok)
    (hpassive : ∀ v ∈ emissions env w, WriteSite.cue.Passive env v) : PipeAt w (emitSegments env) := by
  refine StepsAt.get_bind (StepsAt.bind ?_ .refl)
  have hround (v : WorkerState) (hv : v.health.Ok) : ((emitRound env).run v).2.health.Ok :=
    Heeds.ok env heeds_emitRound hv
  refine StepsAt.loop_of_heads hround hok fun v hmem hv => ?_
  exact (hpassive v hmem).pipeAt hv.2 (fun hsound => (stopsAt_emitRound hsound hv).1) (heeds_emitRound v hv).1
    fun _ => idle_emitRound

/-! ## Rounds -/

theorem pipeAt_handleNext {w : WorkerState} (hw : w.pipe.Sound) (hok : w.health.Ok) {frame : Option Frame}
    (hwindows : ∀ v ∈ windows env config w frame, WriteSite.window.Passive env v) :
    PipeAt w (handleNext env config frame) := by
  cases frame with
  | none => exact .refl
  | some f =>
    show PipeAt w (handleFrame env config f)
    rw [handleFrame_eq]
    split
    · rename_i p hp
      refine StepsAt.get_bind ?_
      by_cases hauth : w.authenticated = true
      · rw [if_neg (by simp [hauth])]
        split
        · exact StepsAt.bind (stops_handleStart _ w hw).1 .refl
        · exact StepsAt.bind (stops_handlePosition _ w hw).1 .refl
        · have hframe : (some f).bind Frame.request = some (.audioPcm _) := hp
          exact StepsAt.bind (pipeAt_handleAudio hok hframe hauth hwindows) .refl
        · exact StepsAt.bind (stops_handlePause _ w hw).1 .refl
        · exact StepsAt.bind (stops_handleResume _ w hw).1 .refl
        · exact pipeAt_handleStop hw hok _
        · have hset (p : TranslateCtrl) : Silent (handleTranslateCtrl p) :=
            .get_bind fun v => Steps.onlyIf (silent_modify fun _ => by rfl) v
          exact Silent.pipeAt (Steps.bind (hset _) fun _ => .pure _) w
        · exact StepsAt.bind (stops_handleModelCtrl _ w hw).1 .refl
        · exact pipeAt_handleShutdown hw hok
        · exact .refl
      · rw [if_pos (by simpa using hauth)]
        exact (stops_handleHello p w hw).1
    · exact (stops_rejectFrame _ w hw).1

/-- What follows the frame, site by site. -/
theorem pipeAt_later {w : WorkerState} (hw : w.health.Weak)
    (hpassive : ∀ visit ∈ laterVisits env config w, visit.1.Passive env visit.2) : PipeAt w (do
      deliverResults env
      pollModelDownload env
      let flow ← lookahead env config
      andThen flow do
        emitSegments env
        deliverResults env
        pure .proceed) := by
  simp only [laterVisits, List.forall_mem_append, List.forall_mem_cons, List.forall_mem_map] at hpassive
  obtain ⟨⟨hdeliveries, hprogress, hsource, hchunks⟩, hrest⟩ := hpassive
  have hdelivered := HeedsAt.ok env (heedsAt_deliverResults hw)
  have hpolled := Heeds.ok env heeds_pollModelDownload hdelivered
  refine StepsAt.bind (pipeAt_deliverResults hw hdeliveries) ?_
  refine StepsAt.bind (pipeAt_pollModelDownload hdelivered hprogress) ?_
  refine StepsAt.bind (pipeAt_lookahead hpolled hsource hchunks) ?_
  have hread : HeedsAt env (fun _ => True) _ (lookahead env config) (· ≠ .leave) := heeds_lookahead _ hpolled
  unfold andThen
  split
  · rename_i hflow
    rw [if_pos hflow, List.forall_mem_append, List.forall_mem_map, List.forall_mem_map] at hrest
    have hok := hread.2.1 (by rw [hflow]; exact nofun)
    have hemitted := Heeds.ok env heeds_emitSegments hok
    exact StepsAt.bind (pipeAt_emitSegments hok hrest.1) (StepsAt.bind (pipeAt_deliverResults hemitted.weak hrest.2) .refl)
  · exact .refl

theorem silent_finish (flow : Flow) : Silent (finish flow) := by
  cases flow with
  | leave => exact (silent_stopRunning false).bind fun _ => silent_modify fun _ => by rfl
  | hang => exact silent_modify fun _ => by rfl
  | _ => exact .pure ()

theorem permitted_true (config : Config) (w : WorkerState) (f : Frame) : Permitted config (fun _ => True) w f :=
  ⟨.inl trivial, fun _ => trivial⟩

/-- A round of a worker whose pipe is sound. -/
theorem pipeAt_round {w : WorkerState} (hw : w.pipe.Sound) (hok : w.health.Ok) {frame : Option Frame}
    (hpassive : ∀ visit ∈ roundVisits env config w frame, visit.1.Passive env visit.2) :
    PipeAt w (do let flow ← iterate env config frame; finish flow) := by
  simp only [roundVisits, List.forall_mem_append, List.forall_mem_map] at hpassive
  obtain ⟨hwindows, hrest⟩ := hpassive
  have hnext : HandlesAt env (fun _ => True) w (handleNext env config frame) :=
    handles_handleNext hok fun f _ => permitted_true config w f
  refine StepsAt.bind (StepsAt.bind (pipeAt_handleNext hw hok hwindows) ?_) ((silent_finish _).pipeAt _)
  unfold andThen
  split
  · rename_i hflow
    rw [if_pos hflow] at hrest
    have hends := hnext.2
    rw [hflow] at hends
    exact pipeAt_later hends hrest
  · exact .refl

theorem waits_ends {w : WorkerState} (hok : w.health.Ok) (frame : Option Frame) : Ends (waits env frame) w fun begins t =>
    t.health.Ok ∧ t.writes = w.writes ∧ (begins = true → t.running = true) := by
  refine Ends.get_bind (Ends.ite (fun _ => ⟨hok, rfl, nofun⟩) fun _ => ?_)
  have hawake : Ends (awake env frame) w fun _ t => t.health.Ok ∧ t.writes = w.writes := by
    refine ⟨Heeds.ok env (heeds_awake frame) hok, ?_⟩
    cases frame <;> rfl
  refine hawake.bind fun woken t ⟨htok, hwrites⟩ => ?_
  have hload : Ends (loadRunning env) t fun running u => u.health.Ok ∧ u.writes = t.writes ∧ running = u.running := by
    have hsame : ((loadRunning env).run t).2.writes = t.writes := silent_loadRunning.writes t
    exact ⟨Heeds.ok env heeds_loadRunning htok, hsame, loadRunning_running t⟩
  refine hload.bind fun running u ⟨huok, hsame, hrunning⟩ => ⟨huok, hsame.trans hwrites, fun hbegins => ?_⟩
  exact hrunning.symm.trans (Bool.and_eq_true_iff.mp hbegins).1

/-- A round follows the wait, or nothing that is written. -/
theorem step_of_waits (env : Env) (config : Config) (w : WorkerState) (frame : Option Frame) :
    if ((waits env frame).run w).1 then
      w.step env config frame =
        ((do let flow ← iterate env config frame; finish flow : Loop Unit).run ((waits env frame).run w).2).2
    else (w.step env config frame).writes = ((waits env frame).run w).2.writes := by
  cases hfinished : w.finished with
  | true =>
    have hwaits : (waits env frame).run w = (false, w) := by
      show StateT.run (if w.finished then pure false else _) w = _
      rw [hfinished]
      rfl
    have hstep : w.step env config frame = w := by
      show ((onlyIf (!w.finished) _ : Loop Unit).run w).2 = w
      rw [hfinished]
      rfl
    rw [hwaits, hstep]
    exact rfl
  | false =>
    have hwaits : (waits env frame).run w = (((loadRunning env).run ((awake env frame).run w).2).1 &&
        ((awake env frame).run w).1, ((loadRunning env).run ((awake env frame).run w).2).2) := by
      show StateT.run (if w.finished then pure false else _) w = _
      rw [hfinished]
      rfl
    have hstep : w.step env config frame = ((if !((loadRunning env).run ((awake env frame).run w).2).1 then
        modify fun w => { w with finished := true }
        else onlyIf ((awake env frame).run w).1 do let flow ← iterate env config frame; finish flow : Loop Unit).run
          ((loadRunning env).run ((awake env frame).run w).2).2).2 := by
      show ((onlyIf (!w.finished) _ : Loop Unit).run w).2 = _
      rw [hfinished]
      rfl
    rw [hwaits, hstep]
    cases ((loadRunning env).run ((awake env frame).run w).2).1 <;> cases ((awake env frame).run w).1 <;> rfl

/-! ## Runs -/

/-- The worker between two rounds. -/
def Resting (w : WorkerState) : Prop := w.health.Ok ∧ WritesFinal w.writes

theorem resting_step {w : WorkerState} (hw : Resting w) {frame : Option Frame} (hpassive : PassiveRound env config w frame) :
    Resting (w.step env config frame) := by
  obtain ⟨hok, hfinal⟩ := hw
  have hwake : HeedsAt env (fun _ => True) w (wake env config frame) fun _ => True :=
    heeds_wake hok fun f _ => permitted_true config w f
  refine ⟨hwake.2.1 trivial, ?_⟩
  obtain ⟨hwaited, hwrites, hrunning⟩ : Ends (waits env frame) w _ := waits_ends hok frame
  have hstep := step_of_waits env config w frame
  unfold PassiveRound visits at hpassive
  dsimp only at hpassive
  cases hbegins : ((waits env frame).run w).1 with
  | false =>
    rw [hbegins, if_neg Bool.false_ne_true] at hstep
    rw [hstep, hwrites]
    exact hfinal
  | true =>
    rw [hbegins, if_pos rfl] at hstep
    rw [hbegins, if_pos rfl] at hpassive
    -- a worker that is running has no failed write behind it
    have hround := pipeAt_round (sound_of_running hwaited.2 (hrunning hbegins)) hwaited hpassive
    rw [hstep]
    refine writesFinal_steps hround ?_
    show WritesFinal ((waits env frame).run w).2.writes
    rw [hwrites]
    exact hfinal

theorem resting_start (engine translator : Bool) : Resting (.start engine translator) := by
  refine ⟨⟨⟨nofun, nofun, fun _ => ⟨rfl, rfl⟩⟩, fun _ => List.not_mem_nil⟩, fun pre post heq => ?_⟩
  cases pre <;> cases heq

/-- **Write failures.** In a run in whose rounds no site writes after a failed write, nothing follows a failed write. -/
theorem writesFinal_run (config : Config) (engine translator : Bool) {rounds : List (Env × Option Frame)}
    (hpassive : Along (fun w r => w.step r.1 config r.2) (fun w r => PassiveRound r.1 config w r.2)
      (.start engine translator) rounds) : WritesFinal (roundsRun config engine translator rounds).writes := by
  have hround (w : WorkerState) (r : Env × Option Frame) (hw : Resting w) (hpassive : PassiveRound r.1 config w r.2) :
      Resting (w.step r.1 config r.2) := resting_step hw hpassive
  exact (run_invariant hround (resting_start engine translator) hpassive).2

/-! ## A refusal that fails -/

/-- Every write succeeds, and nothing else happens. -/
def Env.quiet : Env where
  ipcSend _ := true
  readerFailed _ := false
  threads _ := []
  drainPolls _ := 1
  memory _ _ _ := ⟨true, true, true⟩
  knownLanguage _ := true
  transcribe _ := some []
  detectSpeech _ := false
  speech _ := .energy false
  openSource _ := false
  seekSource _ := false
  readSource _ := .again
  startDownload _ := true
  pollDownload _ := none
  monotonicTimeUs _ := 0
  totalInferenceUs _ := 0
  queuedAudioUs _ := 0
  droppedAudioUs _ := 0
  gpuActive := false

/-- The frame as the reader thread queues it. -/
def frameOf (p : Payload) : Frame := ⟨p.type, encodePayload p 512⟩

def hello : Frame := frameOf (.hello ⟨versionMajor, versionMajor, .zero _, .ofBytes 5 (ascii "1.6.0") Slice.toNat_five⟩)

def download : Frame := frameOf (.modelCtrl ⟨.zero _, modelActionDownload, .ofStr 32 (ascii "tiny.en")⟩)

/-- A download is under way. -/
def Env.downloading (stage : UInt8) (sends : Nat → Bool) : Env :=
  { Env.quiet with
    ipcSend := sends
    pollDownload _ := some ⟨stage, 0, 0, 0, ascii "tiny.en"⟩ }

def downloader : Config := ⟨.zero _, true, true⟩

/-- A download begins; the frame that refuses the next one fails where `sends` says so. -/
def refusal (sends : Nat → Bool) : List (Env × Option Frame) :=
  [(.quiet, some hello), (.downloading modelStageDownloading fun _ => true, some download),
   (.downloading modelStageVerifying sends, some download)]

/-- The refusal of a download fails, and there is no progress to report. -/
def quietRefusal : List (Env × Option Frame) :=
  [(.quiet, some hello), (.downloading modelStageDownloading fun _ => true, some download),
   (.downloading modelStageDownloading (· != 11), some download)]

theorem writesFinal_refusal : WritesFinal (roundsRun downloader false false quietRefusal).writes := by
  refine writesFinal_run downloader false false ?_
  have hidle : Along (fun w r => w.step r.1 downloader r.2)
      (fun w (r : Env × Option Frame) => ∀ visit ∈ visits r.1 downloader w r.2,
        .failed ∈ visit.2.writes → visit.1.wants r.1 visit.2 = false) (.start false false) quietRefusal := by
    decide +kernel
  exact hidle.mono fun _ _ h visit hvisit hlost => .inr (.inr (h visit hvisit hlost))

/-- The header of the refusal fails, and a progress report follows it. -/
theorem not_forall_writesFinal :
    ¬ ∀ (config : Config) (engine translator : Bool) (rounds : List (Env × Option Frame)),
      WritesFinal (roundsRun config engine translator rounds).writes := by
  intro h
  have hwrites : (roundsRun downloader false false (refusal (· != 11))).writes =
      [.sent, .sent, .sent, .sent, .failed] ++ .sent :: [.sent] := by
    decide +kernel
  exact h _ _ _ _ _ _ hwrites (by decide)

end VlcWhisper.Worker
