import VlcWhisper.Worker.Process

/-!
# The authentication gate (`vw_worker.c`)

Before the client is authenticated the worker does nothing but look at the first frame. Main result: `authGate`. The
client is authenticated exactly if the first frame that is handled is a HELLO with a fitting version and the right
token; until then the worker is as it was started, but for an ERROR that names the protocol version; and any other
first frame is the last one, and the exit code is not zero.
-/

namespace VlcWhisper.Worker

open VlcWhisper.Lib VlcWhisper.Protocol Relation

variable {env : Env} {config : Config}

/-! ## What is handled -/

/-- What `vw_worker_run` returns after the loop. -/
def WorkerState.exitCode (w : WorkerState) : Nat := if w.fatalExit || !w.authenticated then 1 else 0

theorem Process.exitCode_eq (p : Process) : p.exitCode = p.worker.exitCode := rfl

/-- The frame that a round handles. -/
def WorkerState.takes (w : WorkerState) (r : Env × Option Frame) : Option Frame :=
  if w.running && !w.finished && !r.1.readerFailed w.tick then r.2 else none

/-- The frames that are handled in the rounds from a state on. -/
def handledFrames (config : Config) : WorkerState → List (Env × Option Frame) → List Frame
  | _, [] => []
  | w, r :: rounds => (w.takes r).toList ++ handledFrames config (w.step r.1 config r.2) rounds

/-- The frame is a HELLO that the worker takes. -/
def Frame.Admits (config : Config) (f : Frame) : Prop := ∃ h, f.request = some (.hello h) ∧ Fits config h

/-- The frame is a HELLO of a client that speaks other versions. -/
def Frame.WrongVersion (f : Frame) : Prop :=
  ∃ h, f.request = some (.hello h) ∧ (versionMajor < h.minMajor || h.maxMajor < versionMajor) = true

/-- The one answer to a client that is not authenticated. -/
def protocolError : Payload :=
  .error ⟨.zero _, eProtocolVersion, 0, .ofStr maxErrorMsgBytes (ascii "No compatible protocol major")⟩

/-- No session, no service was called, no download, no cue offered to the translator, and nothing sent but that one
answer, which takes two writes. -/
structure Gated (w : WorkerState) : Prop where
  sessionActive : w.sessionActive = false
  sourceDecoder : w.sourceDecoder = none
  calls : w.calls = []
  modelDl : w.modelDl = false
  translator : ∀ t ∈ w.translator, t = .create
  trace : w.trace = [] ∨ ∃ sequence, w.trace = [.frame sequence protocolError]
  writes : w.writes.length ≤ 2

/-! ## The phases of a run -/

/-- The worker as it was started, but for its flags and its clock. -/
def Waiting (engine translator : Bool) (w : WorkerState) : Prop :=
  ∃ running fatalExit finished tick,
    w = { WorkerState.start engine translator with running, fatalExit, finished, tick }

/-- The worker was left, without having done more than answer. -/
structure Refused (f : Frame) (w : WorkerState) : Prop where
  gated : Gated w
  silent : w.writes = [] ∨ f.WrongVersion
  authenticated : w.authenticated = false
  running : w.running = false
  finished : w.finished = true

/-- What the first frame that was handled made of the worker. -/
inductive Phase (config : Config) (engine translator : Bool) (frames : List Frame) (w : WorkerState) : Prop where
  | waiting (hframes : frames = []) (hw : Waiting engine translator w)
  | admitted (f : Frame) (hhead : frames.head? = some f) (hf : f.Admits config) (hauth : w.authenticated = true)
  | refused (f : Frame) (hframes : frames = [f]) (hf : ¬ f.Admits config) (hw : Refused f w)

variable {engine translator : Bool}

theorem Waiting.gated {w : WorkerState} (hw : Waiting engine translator w) : Gated w := by
  obtain ⟨running, fatalExit, finished, tick, rfl⟩ := hw
  refine ⟨rfl, rfl, rfl, rfl, fun t ht => ?_, .inl rfl, Nat.zero_le _⟩
  cases translator with
  | false => cases ht
  | true => exact (Option.some.inj ht).symm

theorem Waiting.silent {w : WorkerState} (hw : Waiting engine translator w) : w.trace = [] ∧ w.writes = [] := by
  obtain ⟨running, fatalExit, finished, tick, rfl⟩ := hw
  exact ⟨rfl, rfl⟩

theorem Waiting.authenticated {w : WorkerState} (hw : Waiting engine translator w) : w.authenticated = false := by
  obtain ⟨running, fatalExit, finished, tick, rfl⟩ := hw
  rfl

theorem Waiting.ok {w : WorkerState} (hw : Waiting engine translator w) : w.health.Ok := by
  obtain ⟨running, fatalExit, finished, tick, rfl⟩ := hw
  exact ⟨⟨nofun, nofun, fun _ => ⟨rfl, rfl⟩⟩, fun _ => List.not_mem_nil⟩

/-! ## Rounds without a frame -/

theorem create_threads (steps : List ThreadStep) :
    steps.foldl TranslateAsync.threadStep .create = TranslateAsync.create := by
  induction steps with
  | nil => rfl
  | cons s steps ih =>
    have hidle : TranslateAsync.create.threadStep s = TranslateAsync.create := by
      cases s <;> rfl
    rw [List.foldl_cons, hidle, ih]

theorem waiting_loadRunning {w : WorkerState} (hw : Waiting engine translator w) :
    Ends (loadRunning env) w fun running v =>
      Waiting engine translator v ∧ running = (w.running && !env.readerFailed w.tick) := by
  obtain ⟨running, fatalExit, finished, tick, rfl⟩ := hw
  refine Ends.bind (m := ask env.readerFailed) (P := fun failed v => failed = env.readerFailed tick ∧
    v = { WorkerState.start engine translator with running, fatalExit, finished, tick := tick + 1 }) ⟨rfl, rfl⟩
    fun failed v hv => ?_
  obtain ⟨hfailed, rfl⟩ := hv
  show _ ∧ _ = (running && !env.readerFailed tick)
  rw [← hfailed]
  cases failed with
  | false => exact ⟨⟨running, fatalExit, finished, tick + 1, rfl⟩, (Bool.and_true _).symm⟩
  | true => exact ⟨⟨false, fatalExit || true, finished, tick + 1, rfl⟩, (Bool.and_false _).symm⟩

theorem waiting_awake {w : WorkerState} (hw : Waiting engine translator w) :
    Ends (awake env none) w fun woken v => Waiting engine translator v ∧ woken = false := by
  obtain ⟨running, fatalExit, finished, tick, rfl⟩ := hw
  refine Ends.bind (m := runThreads env) (P := fun _ v => Waiting engine translator v)
    ⟨running, fatalExit, finished, tick + 1, ?_⟩ fun _ v hv => ?_
  · cases translator with
    | false => rfl
    | true =>
      show WorkerState.mk .. = WorkerState.mk ..
      congr 1
      exact congrArg some (create_threads _)
  · obtain ⟨running, fatalExit, finished, tick, rfl⟩ := hv
    refine ⟨⟨running, fatalExit, finished, tick, rfl⟩, ?_⟩
    cases translator <;> rfl

theorem waiting_finished {w : WorkerState} (hw : Waiting engine translator w) :
    Waiting engine translator { w with finished := true } := by
  obtain ⟨running, fatalExit, finished, tick, rfl⟩ := hw
  exact ⟨running, fatalExit, true, tick, rfl⟩

theorem waiting_step {w : WorkerState} (hw : Waiting engine translator w) {r : Env × Option Frame}
    (hnone : w.takes r = none) : Waiting engine translator (w.step r.1 config r.2) := by
  obtain ⟨env, frame⟩ := r
  by_cases hfinished : w.finished = true
  · rw [step_of_finished hfinished]
    exact hw
  have hwake : Ends (wake env config frame) w fun _ v => Waiting engine translator v := by
    refine Ends.get_bind ?_
    unfold onlyIf
    rw [if_pos (by simpa using hfinished)]
    cases frame with
    | none =>
      refine (waiting_awake hw).bind fun woken t ht => ?_
      obtain ⟨ht, rfl⟩ := ht
      refine (waiting_loadRunning ht).bind fun running u hu => ?_
      split
      · exact waiting_finished hu.1
      · exact hu.1
    | some f =>
      refine Ends.bind (m := awake env (some f)) (P := fun _ t => t = w) rfl fun woken t ht => ?_
      subst ht
      refine (waiting_loadRunning hw).bind fun running u hu => ?_
      rw [if_pos]
      · exact waiting_finished hu.1
      · -- a frame that is not handled comes too late
        have hlate : (t.running && !t.finished && !env.readerFailed t.tick) ≠ true := by
          intro htake
          rw [WorkerState.takes, if_pos htake] at hnone
          cases hnone
        rw [hu.2, Bool.not_eq_true']
        rw [Bool.eq_false_of_not_eq_true hfinished, Bool.not_false, Bool.and_true] at hlate
        exact Bool.eq_false_of_not_eq_true hlate
  exact hwake

/-! ## The first frame -/

theorem sendPayload_sends (bufferSize : Nat) (p : Payload) (w : WorkerState) :
    Ends (sendPayload env bufferSize p) w fun _ v =>
      (v.trace = w.trace ∨ ∃ sequence, v.trace = w.trace ++ [.frame sequence p]) ∧
        v.writes.length ≤ w.writes.length + 2 := by
  have hsend (u : WorkerState) : Ends (guardedIpcSend env) u fun _ v =>
      v.trace = u.trace ∧ v.writes.length ≤ u.writes.length + 1 := by
    refine Ends.get_bind ?_
    split
    · exact ⟨rfl, Nat.le_succ _⟩
    · refine ⟨rfl, ?_⟩
      show (u.writes ++ [_]).length ≤ _
      rw [List.length_append, List.length_singleton]
  unfold sendPayload sendFrame
  split
  · refine ⟨.inl rfl, ?_⟩
    show (w.writes ++ [_]).length ≤ _
    rw [List.length_append, List.length_singleton]
    omega
  · refine Ends.modify_bind ((hsend _).bind fun header t ht => ?_)
    obtain ⟨htrace, hwrites⟩ := ht
    have hwrites : t.writes.length ≤ w.writes.length + 1 := hwrites
    split
    · refine (hsend t).bind fun payload u hu => Ends.get_bind ?_
      have htrace : u.trace = w.trace := hu.1.trans htrace
      have hlen : u.writes.length ≤ w.writes.length + 2 := by omega
      cases payload with
      | false => exact ⟨.inl htrace, hlen⟩
      | true => exact ⟨.inr ⟨u.sequence, congrArg (· ++ [Event.frame u.sequence p]) htrace⟩, hlen⟩
    · exact ⟨.inl htrace, Nat.le_succ_of_le hwrites⟩

/-- At most the one answer was sent, and only if the version is wrong. -/
structure Answered (wrong : Prop) (w v : WorkerState) : Prop where
  unsent : v.unsent = w.unsent
  trace : v.trace = w.trace ∨ ∃ sequence, v.trace = w.trace ++ [.frame sequence protocolError]
  writes : v.writes.length ≤ w.writes.length + 2
  silent : v.writes = w.writes ∨ wrong

/-- The handler leaves, after it sent nothing but the one answer. -/
def Leaves (wrong : Prop) (m : Loop Flow) (w : WorkerState) : Prop :=
  Ends m w fun flow v => flow = .leave ∧ Answered wrong w v

theorem leaves_setFatalExit (wrong : Prop) (w : WorkerState) : Leaves wrong (do setFatalExit; pure .leave) w :=
  ⟨rfl, rfl, .inl rfl, Nat.le_add_right _ 2, .inl rfl⟩

theorem leaves_handleHello (w : WorkerState) {f : Frame} {p : Payload} (hp : f.request = some p)
    (hf : ¬ f.Admits config) : Leaves f.WrongVersion (handleHello env config p) w := by
  unfold handleHello
  split
  · rename_i h
    by_cases hversion : (versionMajor < h.minMajor || h.maxMajor < versionMajor) = true
    · rw [if_pos hversion]
      have hsent : Ends (sendError env (.zero _) eProtocolVersion 0 (ascii "No compatible protocol major")) w
          fun _ v => Answered f.WrongVersion w v := by
        have hkept := (@spares_sendError env (.zero _) eProtocolVersion 0 (ascii "No compatible protocol major")).eq w
        refine ⟨hkept, ?_, ?_, .inr ⟨h, hp, hversion⟩⟩
        · unfold sendError protocolError
          exact (sendPayload_sends 512 _ w).1
        · unfold sendError
          exact (sendPayload_sends 512 _ w).2
      exact hsent.bind fun _ v hv => ⟨rfl, hv.unsent, hv.trace, hv.writes, hv.silent⟩
    · have htoken : verifyTokenConstantTime config.authToken h.authToken ≠ true := fun htoken =>
        hf ⟨h, hp, Bool.eq_false_of_not_eq_true hversion, congrArg CArray.bytes (verifyTokenConstantTime_iff.mp htoken).symm⟩
      rw [if_neg hversion, if_pos (by simpa using htoken)]
      exact leaves_setFatalExit _ w
  · exact leaves_setFatalExit _ w

/-- A frame that does not admit the client ends the loop. -/
theorem leaves_handleFrame {w : WorkerState} (hauth : w.authenticated = false) {f : Frame} (hf : ¬ f.Admits config) :
    Leaves f.WrongVersion (handleFrame env config f) w := by
  rw [handleFrame_eq]
  split
  · rename_i p hp
    refine Ends.get_bind ?_
    rw [if_pos (by rw [hauth]; rfl)]
    exact leaves_handleHello w hp hf
  · refine Ends.get_bind ?_
    split
    · rw [if_neg (by rw [hauth]; exact Bool.false_ne_true)]
      exact leaves_setFatalExit _ w
    · exact leaves_setFatalExit _ w

theorem takes_eq_some {w : WorkerState} {r : Env × Option Frame} {f : Frame} (h : w.takes r = some f) :
    r.2 = some f ∧ w.running = true ∧ w.finished = false ∧ r.1.readerFailed w.tick = false := by
  unfold WorkerState.takes at h
  split at h
  · rename_i htake
    simpa [and_assoc] using And.intro h htake
  · cases h

/-- Any first frame but a fitting HELLO is the last one. -/
theorem waiting_refuse {w : WorkerState} (hw : Waiting engine translator w) {r : Env × Option Frame} {f : Frame}
    (htakes : w.takes r = some f) (hf : ¬ f.Admits config) : Refused f (w.step r.1 config r.2) := by
  obtain ⟨hframe, hrunning, hfinished, hreader⟩ := takes_eq_some htakes
  rw [hframe, step_some hrunning hfinished hreader]
  have hgated := hw.gated
  have hsilent := hw.silent
  have hauth : { w with tick := w.tick + 1 }.authenticated = false := hw.authenticated
  have hend : Ends (do let flow ← handleFrame r.1 config f; afterFrame r.1 config flow) { w with tick := w.tick + 1 }
      fun _ v => Refused f v := by
    refine (leaves_handleFrame hauth hf).bind fun flow v hv => ?_
    obtain ⟨rfl, hkept, hsent, hwrites, hwrong⟩ := hv
    simp only [hsilent.1, hsilent.2, List.nil_append] at hsent hwrites hwrong
    have hkept' : v.unsent = w.unsent := hkept
    have htranslator : v.unsent.translator = w.unsent.translator := congrArg WorkerState.translator hkept'
    refine ⟨⟨?_, ?_, ?_, ?_, fun t ht => ?_, hsent, hwrites⟩, hwrong, ?_, rfl, rfl⟩
    · exact (congrArg WorkerState.sessionActive hkept').trans hgated.sessionActive
    · exact (congrArg WorkerState.sourceDecoder hkept').trans hgated.sourceDecoder
    · exact (congrArg WorkerState.calls hkept').trans hgated.calls
    · exact (congrArg WorkerState.modelDl hkept').trans hgated.modelDl
    · exact hgated.translator t (htranslator ▸ ht)
    · exact (congrArg WorkerState.authenticated hkept').trans hauth
  exact hend

/-! ## Runs -/

/-- A worker that was left handles nothing more. -/
theorem takes_of_finished {w : WorkerState} (h : w.finished = true) (r : Env × Option Frame) : w.takes r = none := by
  unfold WorkerState.takes
  rw [if_neg]
  rw [h, Bool.not_true, Bool.and_false, Bool.false_and]
  exact Bool.false_ne_true

theorem authenticated_step {w : WorkerState} (hw : w.health.Ok) (hauth : w.authenticated = true)
    (r : Env × Option Frame) : (w.step r.1 config r.2).authenticated = true := by
  have hround : HeedsAt r.1 (fun _ => True) w (wake r.1 config r.2) fun _ => True :=
    heeds_wake hw fun f _ => permitted_true config w f
  exact steps_invariant (fun _ _ h hstep => Health.Step.authenticated hstep h) hround.1 hauth

theorem ok_step {w : WorkerState} (hw : w.health.Ok) (r : Env × Option Frame) : (w.step r.1 config r.2).health.Ok := by
  have hround : HeedsAt r.1 (fun _ => True) w (wake r.1 config r.2) fun _ => True :=
    heeds_wake hw fun f _ => permitted_true config w f
  exact hround.2.1 trivial

theorem phase_step {frames : List Frame} {w : WorkerState} (hok : w.health.Ok)
    (hphase : Phase config engine translator frames w) (r : Env × Option Frame) :
    Phase config engine translator (frames ++ (w.takes r).toList) (w.step r.1 config r.2) := by
  cases hphase with
  | waiting hframes hw =>
    subst hframes
    cases htakes : w.takes r with
    | none => exact .waiting rfl (waiting_step hw htakes)
    | some f =>
      by_cases hf : f.Admits config
      · obtain ⟨h, hrequest, hfits⟩ := hf
        obtain ⟨hframe, hrunning, hfinished, hreader⟩ := takes_eq_some htakes
        refine .admitted f rfl ⟨h, hrequest, hfits⟩ ?_
        rw [hframe]
        exact authenticated_of_hello hw.ok hrunning hfinished hreader hw.authenticated hrequest hfits
      · exact .refused f rfl hf (waiting_refuse hw htakes hf)
  | admitted f hhead hf hauth =>
    refine .admitted f ?_ hf (authenticated_step hok hauth r)
    rw [List.head?_append, hhead]
    rfl
  | refused f hframes hf hw =>
    subst hframes
    rw [takes_of_finished hw.finished, step_of_finished hw.finished]
    exact .refused f rfl hf hw

theorem phase_run {frames : List Frame} {w : WorkerState} (hok : w.health.Ok)
    (hphase : Phase config engine translator frames w) (rounds : List (Env × Option Frame)) :
    Phase config engine translator (frames ++ handledFrames config w rounds)
      (run (fun w (r : Env × Option Frame) => w.step r.1 config r.2) w rounds) := by
  induction rounds generalizing frames w with
  | nil =>
    rw [handledFrames, List.append_nil]
    exact hphase
  | cons r rounds ih =>
    rw [handledFrames, ← List.append_assoc]
    exact ih (ok_step hok r) (phase_step hok hphase r)

/-- What the first frame that is handled decides. -/
structure AuthGate (config : Config) (frames : List Frame) (w : WorkerState) : Prop where
  admitted : w.authenticated = true ↔ ∃ f ∈ frames.head?, f.Admits config
  gated : w.authenticated = false → Gated w
  silent : w.authenticated = false → w.writes = [] ∨ ∃ f ∈ frames.head?, f.WrongVersion
  refused : ∀ f ∈ frames.head?, ¬ f.Admits config → frames = [f] ∧ w.finished = true ∧ w.running = false ∧ w.exitCode = 1

theorem Phase.gate {frames : List Frame} {w : WorkerState} (hphase : Phase config engine translator frames w) :
    AuthGate config frames w := by
  cases hphase with
  | waiting hframes hw =>
    subst hframes
    refine ⟨⟨fun h => ?_, nofun⟩, fun _ => hw.gated, fun _ => .inl hw.silent.2, nofun⟩
    rw [hw.authenticated] at h
    cases h
  | admitted f hhead hf hauth =>
    refine ⟨⟨fun _ => ⟨f, hhead, hf⟩, fun _ => hauth⟩, fun h => ?_, fun h => ?_, fun g hg hnot => ?_⟩
    · rw [hauth] at h
      cases h
    · rw [hauth] at h
      cases h
    · obtain rfl := Option.some.inj (hhead.symm.trans hg)
      exact (hnot hf).elim
  | refused f hframes hf hw =>
    subst hframes
    refine ⟨⟨fun h => ?_, fun ⟨g, hg, hadmits⟩ => ?_⟩, fun _ => hw.gated, fun _ => ?_, fun g hg _ => ?_⟩
    · rw [hw.authenticated] at h
      cases h
    · obtain rfl := Option.some.inj hg
      exact (hf hadmits).elim
    · exact hw.silent.imp_right fun h => ⟨f, rfl, h⟩
    · obtain rfl := Option.some.inj hg
      refine ⟨rfl, hw.finished, hw.running, ?_⟩
      rw [WorkerState.exitCode, hw.authenticated, Bool.not_false, Bool.or_true, if_pos rfl]

theorem phase_rounds (config : Config) (engine translator : Bool) (rounds : List (Env × Option Frame)) :
    Phase config engine translator (handledFrames config (.start engine translator) rounds)
      (roundsRun config engine translator rounds) := by
  have hwaiting : Waiting engine translator (.start engine translator) := ⟨true, false, false, 0, rfl⟩
  exact phase_run hwaiting.ok (.waiting rfl hwaiting) rounds

/-- **Authentication gate.** In every run, whatever frames arrive and however the rounds go. -/
theorem authGate (config : Config) (engine translator : Bool) (rounds : List (Env × Option Frame)) :
    AuthGate config (handledFrames config (.start engine translator) rounds)
      (roundsRun config engine translator rounds) :=
  (phase_rounds config engine translator rounds).gate

end VlcWhisper.Worker
