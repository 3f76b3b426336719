import VlcWhisper.Worker.QueuePause
import VlcWhisper.Worker.Reader
import VlcWhisper.Worker.WriteFinality

/-!
# The worker process: its reader thread and its main loop (`vw_worker_run`)

The reader thread pushes frames into the queue, the main loop takes them out, and both may end the worker: they share
the flags `running` and `fatal_exit`. A schedule chooses who goes on, what arrives, and when the peer closes the
transport, so every interleaving is a run. Main results:

* `cleanShutdown`: a worker that returns has handled every frame that the queue did not evict, the SHUTDOWN last, and
  exits with 0, if no write and no speech recognition fails and the reader does not meet the end of the stream; and it
  returns.
* `not_forall_cleanShutdown`: a speech recognition that fails ends the worker with an error.
* `not_forall_cleanShutdown_of_transcribe`: a peer that closes the transport too early ends it before the SHUTDOWN.
-/

namespace VlcWhisper.Worker

open VlcWhisper.Lib VlcWhisper.Protocol Relation

variable {env : Env} {config : Config} {permits : Bool → Prop}

/-! ## Rounds in which nothing fails -/

/-- Speech recognition works, and the reader thread does not give up. -/
structure Env.Reliable (env : Env) : Prop where
  transcribe : ∀ n, env.transcribe n ≠ none
  readerFailed : ∀ n, env.readerFailed n = false

/-- Without a reason to end, a worker only ends as it is permitted. -/
theorem Health.steps_of_unblamed {h h' : Health} (hsteps : ReflTransGen (Step env permits) h h')
    (hnot : ¬ h'.Blamed env permits) : h'.fatalExit = h.fatalExit ∧ (h'.running = h.running ∨ permits false) := by
  induction hsteps with
  | refl => exact ⟨rfl, .inl rfl⟩
  | tail _ hstep ih =>
    have hnot' : ¬ Blamed env permits _ := fun hblamed => hnot (Blamed.step hblamed hstep)
    obtain ⟨hfatal, hrunning⟩ := ih hnot'
    cases hstep with
    | stop fatal hwhy =>
      rcases hwhy with hblamed | hpermits
      · exact (hnot' hblamed).elim
      · cases fatal with
        | false => exact ⟨(Bool.or_false _).trans hfatal, .inr hpermits⟩
        | true => exact (hnot' (.inr (.inl hpermits))).elim
    | refuse hpermits => exact (hnot' (.inr (.inl hpermits))).elim
    | _ => exact ⟨hfatal, hrunning⟩

/-- A round in which nothing fails. -/
theorem step_reliable (config : Config) (permits : Bool → Prop) (frame : Option Frame) {w : WorkerState} (hw : w.health.Ok)
    (henv : env.Reliable) (hframe : ∀ f ∈ frame, Permitted config permits w f) (hpermits : ¬ permits true)
    (hsent : ∀ write ∈ (w.step env config frame).writes, write = .sent) :
    (w.step env config frame).health.Ok ∧ (w.step env config frame).fatalExit = w.fatalExit ∧
      ((w.step env config frame).running = w.running ∨ permits false) := by
  have hwake : HeedsAt env permits w (wake env config frame) fun _ => True := heeds_wake hw hframe
  refine ⟨hwake.2.1 trivial, Health.steps_of_unblamed hwake.1 fun hblamed => ?_⟩
  rcases hblamed with ⟨write, hmem, hne⟩ | h | ⟨n, hn⟩ | ⟨n, hn⟩
  · exact hne (hsent write hmem)
  · exact hpermits h
  · exact henv.transcribe n hn
  · rw [henv.readerFailed n] at hn
    cases hn

theorem run_loadRunning {w : WorkerState} (h : env.readerFailed w.tick = false) :
    (loadRunning env).run w = (w.running, { w with tick := w.tick + 1 }) := by
  have hask : (ask env.readerFailed).run w = (false, { w with tick := w.tick + 1 }) := by
    rw [← h]
    rfl
  unfold loadRunning
  rw [StateT.run_bind, hask]
  rfl

theorem step_some {w : WorkerState} (hrunning : w.running = true) (hfinished : w.finished = false)
    (hreader : env.readerFailed w.tick = false) (f : Frame) :
    w.step env config (some f) =
      ((do let flow ← handleFrame env config f; afterFrame env config flow : Loop Unit).run
        { w with tick := w.tick + 1 }).2 := by
  have hload : Ends (loadRunning env) w fun running t => running = true ∧ t = { w with tick := w.tick + 1 } := by
    rw [Ends, run_loadRunning hreader]
    exact ⟨hrunning, rfl⟩
  have hwake : Ends (wake env config (some f)) w fun _ v =>
      v = ((do let flow ← handleFrame env config f; afterFrame env config flow : Loop Unit).run
        { w with tick := w.tick + 1 }).2 := by
    refine Ends.get_bind ?_
    unfold onlyIf
    rw [if_pos (by rw [hfinished]; rfl)]
    refine Ends.bind (m := awake env (some f)) (P := fun woken t => woken = true ∧ t = w) ⟨rfl, rfl⟩ fun woken t ht => ?_
    obtain ⟨rfl, rfl⟩ := ht
    refine hload.bind fun running u hu => ?_
    obtain ⟨rfl, rfl⟩ := hu
    exact rfl
  exact hwake

theorem step_of_handled {w : WorkerState} (hw : w.health.Ok) (hrunning : w.running = true) (hfinished : w.finished = false)
    (hreader : env.readerFailed w.tick = false) {f : Frame} (hf : Permitted config permits w f) {C : Health → Prop}
    (hC : ∀ h h', C h → Health.Step env permits h h' → C h')
    (hframe : Ends (handleFrame env config f) { w with tick := w.tick + 1 } fun _ v => C v.health) :
    C (w.step env config (some f)).health := by
  have hok : { w with tick := w.tick + 1 }.health.Ok := hw
  have hpermitted : Permitted config permits { w with tick := w.tick + 1 } f := ⟨hf.accepted, hf.shutdown⟩
  have hhandled : HandlesAt env permits { w with tick := w.tick + 1 } (handleFrame env config f) :=
    handles_handleFrame hok hpermitted
  rw [step_some hrunning hfinished hreader]
  exact steps_invariant hC (heeds_afterFrame hhandled.2).1 hframe

theorem Health.Step.stopped {h h' : Health} (hstep : Health.Step env permits h h') (hstopped : h.running = false) :
    h'.running = false := by
  cases hstep with
  | stop => rfl
  | _ => exact hstopped

theorem handleFrame_hello {w : WorkerState} (hw : w.health.Ok) (hauth : w.authenticated = false) {f : Frame} {p : Hello}
    (hf : f.request = some (.hello p)) (hfits : Fits config p) :
    Ends (handleFrame env config f) w fun _ v => v.authenticated = true := by
  rw [handleFrame_eq, hf]
  refine Ends.get_bind ?_
  rw [if_pos (by rw [hauth]; rfl)]
  unfold handleHello
  dsimp only
  have htoken := verifyTokenConstantTime_iff.mpr (CArray.ext_bytes hfits.2.symm)
  rw [if_neg (by rw [hfits.1]; exact Bool.false_ne_true), htoken, if_neg (by decide)]
  refine Ends.modify_bind ?_
  have hack : HeedsAt env (fun _ => True) { w with authenticated := true }
      (do let sent ← sendHelloAck env; if sent then pure .again else do stopRunning true; pure .leave) (· ≠ Flow.leave) :=
    heeds_acknowledge _ hw
  have hsteps : ReflTransGen (Health.Step env fun _ => True) { w with authenticated := true }.health _ := hack.1
  exact steps_invariant (fun _ _ h hstep => Health.Step.authenticated hstep h) hsteps rfl

theorem authenticated_of_hello {w : WorkerState} (hw : w.health.Ok) (hrunning : w.running = true)
    (hfinished : w.finished = false) (hreader : env.readerFailed w.tick = false) (hauth : w.authenticated = false)
    {f : Frame} {p : Hello} (hf : f.request = some (.hello p)) (hfits : Fits config p) :
    (w.step env config (some f)).authenticated = true := by
  have hpermitted : Permitted config (fun _ => False) w f :=
    ⟨.inr ⟨_, hf, .inr ⟨p, rfl, hfits⟩⟩, fun h => nomatch hf.symm.trans h⟩
  have hok : { w with tick := w.tick + 1 }.health.Ok := hw
  exact step_of_handled (C := fun h => h.authenticated = true) hw hrunning hfinished hreader hpermitted
    (fun _ _ h hstep => Health.Step.authenticated hstep h) (handleFrame_hello hok hauth hf hfits)

theorem handleFrame_shutdown {w : WorkerState} (hauth : w.authenticated = true) {f : Frame}
    (hf : f.request = some .shutdown) :
    Ends (handleFrame env config f) w fun flow v => flow = .hang ∨ v.running = false := by
  rw [handleFrame_eq, hf]
  refine Ends.get_bind ?_
  rw [if_neg (by simp [hauth])]
  refine Ends.get_bind (Ends.bind (P := fun _ _ => True) trivial fun _ t _ => ?_)
  refine Ends.bind (P := fun _ _ => True) trivial fun drained u _ => ?_
  cases drained with
  | false => exact .inl rfl
  | true => exact .inr rfl

theorem running_of_shutdown {w : WorkerState} (hw : w.health.Ok) (hrunning : w.running = true)
    (hfinished : w.finished = false) (hreader : env.readerFailed w.tick = false) (hauth : w.authenticated = true)
    {f : Frame} (hf : f.request = some .shutdown) :
    (w.step env config (some f)).finished = true ∨ (w.step env config (some f)).running = false := by
  have hpermitted : Permitted config (· = false) w f := ⟨.inr ⟨_, hf, .inl hauth⟩, fun _ => rfl⟩
  have hauth : { w with tick := w.tick + 1 }.authenticated = true := hauth
  have hends : Ends (handleFrame env config f) { w with tick := w.tick + 1 } fun flow v =>
      flow = .hang ∨ v.running = false := handleFrame_shutdown hauth hf
  rcases hends with hhang | hstopped
  · left
    rw [step_some hrunning hfinished hreader]
    show ((afterFrame env config ((handleFrame env config f).run _).1).run _).2.finished = true
    rw [hhang]
    rfl
  · right
    exact step_of_handled (C := fun h => h.running = false) hw hrunning hfinished hreader hpermitted
      (fun _ _ h hstep => Health.Step.stopped hstep h) hstopped

theorem step_of_finished {w : WorkerState} (h : w.finished = true) (frame : Option Frame) : w.step env config frame = w := by
  have hwake : Ends (wake env config frame) w fun _ v => v = w := by
    refine Ends.get_bind ?_
    unfold onlyIf
    rw [if_neg (by rw [h]; exact Bool.false_ne_true)]
    exact rfl
  exact hwake

theorem finished_of_stopped {w : WorkerState} (hstopped : w.running = false) :
    (w.step env config none).finished = true := by
  by_cases hfinished : w.finished = true
  · rw [step_of_finished hfinished]
    exact hfinished
  · have hwake : Ends (wake env config none) w fun _ v => v.finished = true := by
      refine Ends.get_bind ?_
      unfold onlyIf
      rw [if_pos (by simpa using hfinished)]
      refine Ends.bind (P := fun _ (t : WorkerState) => t.running = false) hstopped fun woken t ht => ?_
      have hload : Ends (loadRunning env) t fun running _ => running = false := by
        refine Ends.bind (m := ask env.readerFailed) (P := fun _ t => t.running = false) ht fun failed u hu => ?_
        cases failed
        · exact hu
        · exact rfl
      refine hload.bind fun running u hrunning => ?_
      subst hrunning
      exact rfl
    exact hwake

/-! ## The process -/

def frameQueueCapacity : Nat := 512

/-- What the reader thread pushes. -/
def queuedFrame (d : FrameHeader × Bytes) : Option Frame :=
  (MessageType.ofCode d.1.type).map fun type => ⟨type, if d.2 = [] then none else some d.2⟩

def ReaderPhase.isFatal : ReaderPhase → Bool
  | .fatal => true
  | _ => false

/-- Both threads and what they share; the flags `running` and `fatal_exit` are the main loop's fields. `handled` is a
history of the frames that the main loop handled. -/
structure Process where
  inbox : Inbox
  log : QueueLog frameQueueCapacity
  worker : WorkerState
  handled : List Frame

/-- What happens next: the reader thread makes one receive call, the main loop makes one round, or the peer closes the
transport. In a round the reader thread may give up from the given question of the main loop on. -/
inductive Move where
  | read (arrived : Bool)
  | round (env : Env) (lostAt : Option Nat)
  | close

namespace Process

def start (engine translator : Bool) (frames : List WireFrame) : Process where
  inbox := .start frames true
  log := .start frameQueueCapacity (by decide)
  worker := .start engine translator
  handled := []

/-- The next receive call meets the end of the stream. -/
def atEnd (p : Process) : Bool := p.inbox.reader.isReading && p.inbox.pipe.inflight.isEmpty && p.inbox.pipe.closed

/-- The reader thread gives up: it ends the worker and wakes it with a SHUTDOWN. -/
def giveUp (p : Process) : Process :=
  { p with
    inbox := { p.inbox with reader := { p.inbox.reader with phase := .fatal } }
    log := p.log.step (.push ⟨.shutdown, none⟩)
    worker := { p.worker with running := false, fatalExit := true } }

/-- The reader thread makes one receive call. -/
def read (arrived : Bool) (p : Process) : Process :=
  let inbox := p.inbox.step ⟨arrived, p.worker.running⟩
  let frames := (inbox.reader.pushed.drop p.inbox.reader.pushed.length).filterMap queuedFrame
  let p' := { p with inbox, log := run QueueLog.step p.log (frames.map .push) }
  if inbox.reader.phase.isFatal && p.inbox.reader.isReading then p'.giveUp else p'

/-- The main loop makes one round; it only looks at the queue while it runs. -/
def round (config : Config) (env : Env) (lostAt : Option Nat) (p : Process) : Process :=
  let lost := p.atEnd && lostAt.isSome
  let env := { env with readerFailed := fun n => lost && lostAt.any (· ≤ n) }
  let looks := p.worker.running && !p.worker.finished
  let frame := if looks then p.log.queue.pop.map Prod.fst else none
  let p' :=
    { p with
      log := if looks then p.log.step .pop else p.log
      worker := p.worker.step env config frame
      handled := p.handled ++ if env.readerFailed p.worker.tick then [] else frame.toList }
  if lost then p'.giveUp else p'

def step (config : Config) (p : Process) : Move → Process
  | .read arrived => p.read arrived
  | .round env lostAt => p.round config env lostAt
  | .close => { p with inbox := { p.inbox with pipe := { p.inbox.pipe with closed := true } } }

/-- `vw_worker_run` returns: the loop was left, and the reader thread was joined. -/
def returned (p : Process) : Bool := p.worker.finished && !p.worker.running && !p.inbox.reader.isReading

def exitCode (p : Process) : Nat := if p.worker.fatalExit || !p.worker.authenticated then 1 else 0

/-- The main loop waits for a drain that does not end. -/
def hangs (p : Process) : Bool := p.worker.finished && p.worker.running

/-- Nothing fails in this move: the client waits with what follows HELLO until it is authenticated, the reader thread does
not meet the end of the stream, speech recognition and the writes succeed, and a drain ends. -/
def Unharmed (config : Config) (p : Process) : Move → Prop
  | .read arrived => arrived = true → p.atEnd = false ∧ (p.inbox.reader.pushed = [] ∨ p.worker.authenticated = true)
  | .round env lostAt =>
    (p.atEnd = false ∨ lostAt = none) ∧ (∀ n, env.transcribe n ≠ none) ∧
      (∀ write ∈ (p.round config env lostAt).worker.writes, write = .sent) ∧ (p.round config env lostAt).hangs = false
  | .close => True

end Process

/-! ## What is queued -/

/-- The queue's frame. -/
def WireFrame.queued (f : WireFrame) : Frame := ⟨f.type, if f.payload = [] then none else some f.payload⟩

theorem queuedFrame_delivered (f : WireFrame) : queuedFrame (WireFrame.delivered f) = some (WireFrame.queued f) := by
  have hcode : MessageType.ofCode f.header.type = some f.type := Protocol.WireFrame.ofCode_code f.type
  unfold queuedFrame WireFrame.delivered
  dsimp only
  rw [hcode]
  rfl

theorem filterMap_delivered (frames : List WireFrame) :
    (frames.map WireFrame.delivered).filterMap queuedFrame = frames.map WireFrame.queued := by
  rw [List.filterMap_map, funext fun f => show (queuedFrame ∘ WireFrame.delivered) f = _ from queuedFrame_delivered f]
  exact congrFun List.filterMap_eq_map' frames

/-- A receive call pushes at most one frame, and only if something arrived. -/
theorem Reader.pushed_step (running : Bool) (r : Reader) (res : Protocol.Received) :
    ∃ new, (r.step running res).pushed = r.pushed ++ new ∧ new.length ≤ 1 ∧ (res = .timeout → new = []) := by
  have hsame {r' : Reader} (h : r'.pushed = r.pushed) (res : Protocol.Received) :
      ∃ new, r'.pushed = r.pushed ++ new ∧ new.length ≤ 1 ∧ (res = .timeout → new = []) :=
    ⟨[], by rw [h, List.append_nil], Nat.zero_le _, fun _ => rfl⟩
  unfold step
  cases res with
  | timeout =>
    dsimp only
    split <;> exact hsame rfl _
  | fatal =>
    dsimp only
    split <;> exact hsame rfl _
  | bytes bs =>
    have hpush (header : FrameHeader) (payload : Bytes) :
        ∃ new, ((r.push header payload).nextFrame running).pushed = r.pushed ++ new ∧ new.length ≤ 1 ∧
          (Protocol.Received.bytes bs = .timeout → new = []) := ⟨[(header, payload)], rfl, Nat.le_refl _, nofun⟩
    dsimp only
    unfold onBytes
    split
    · dsimp only
      split
      · exact hsame rfl _
      · unfold onHeader
        split
        · exact hsame rfl _
        · split
          · split <;> exact hsame rfl _
          · dsimp only
            split
            · exact hsame rfl _
            · exact ⟨[(_, [])], rfl, Nat.le_refl _, nofun⟩
    · dsimp only
      split <;> exact hsame rfl _
    · dsimp only
      split
      · exact hsame rfl _
      · exact hpush _ _
    · exact hsame rfl _
    · exact hsame rfl _

theorem Inbox.pushed_step (s : Inbox) (t : Turn) :
    ∃ new, (s.step t).reader.pushed = s.reader.pushed ++ new ∧ new.length ≤ 1 ∧ (t.arrived = false → new = []) := by
  unfold step
  split
  · obtain ⟨new, hpushed, hlen, hnone⟩ := s.reader.pushed_step t.running
      (ipcReceive (s.pipe.recv s.reader.capacity (if t.arrived then .record else .timeout)).1)
    refine ⟨new, hpushed, hlen, fun harrived => hnone ?_⟩
    rw [harrived]
    rfl
  · exact ⟨[], (List.append_nil _).symm, Nat.zero_le _, fun _ => rfl⟩

/-- A reader thread that waits in vain sees that the worker was ended. -/
theorem Inbox.isReading_timeout (s : Inbox) : (s.step ⟨false, false⟩).reader.isReading = false := by
  unfold step
  split
  · rename_i hreading
    show (if s.reader.isReading && !false then { s.reader with phase := .returned } else s.reader).isReading = false
    rw [if_pos (by rw [hreading]; rfl)]
    rfl
  · rename_i hended
    exact Bool.not_eq_true _ |>.mp hended

namespace QueueLog

variable {capacity : Nat}

theorem run_push (s : QueueLog capacity) (frames : List Frame) :
    (run step s (frames.map .push)).pushed = s.pushed ++ frames ∧
      (run step s (frames.map .push)).popped = s.popped ∧
      ((∃ f ∈ frames, f.isShutdown = true) → (run step s (frames.map .push)).ShutdownSince []) := by
  induction frames generalizing s with
  | nil => exact ⟨(List.append_nil _).symm, rfl, nofun⟩
  | cons f frames ih =>
    obtain ⟨hpushed, hpopped, hshutdown⟩ := ih (s.step (.push f))
    refine ⟨?_, hpopped, ?_⟩
    · rw [List.map_cons, run, hpushed]
      exact List.append_assoc _ _ _
    · rintro ⟨g, hg, hgshut⟩
      rcases List.mem_cons.mp hg with rfl | hg
      · have hstored : (s.step (.push g)).ShutdownSince [] :=
          ⟨s.popped, rfl, g, List.mem_append_right _ (mem_push_of_isShutdown s.queue hgshut), hgshut⟩
        have hkept : (run step (s.step (.push g)) (frames.map .push)).ShutdownSince [] :=
          run_invariant' (fun _ op hs => shutdownSince_step op hs) _ hstored
        exact hkept
      · exact hshutdown ⟨g, hg, hgshut⟩

theorem step_pop_of_none {s : QueueLog capacity} (h : s.queue.pop = none) : s.step .pop = s := by
  rw [step, h]

theorem step_pop_of_some {s : QueueLog capacity} {f : Frame} {q : FrameQueue capacity} (h : s.queue.pop = some (f, q)) :
    (s.step .pop).popped = s.popped ++ [f] ∧ (s.step .pop).pushed = s.pushed ∧
      s.queue.toList = f :: (s.step .pop).queue.toList := by
  rw [step, h]
  exact ⟨rfl, rfl, (FrameQueue.pop_eq_some h).1⟩

end QueueLog

/-! ## What the client sends -/

theorem type_of_request {f : Frame} {p : Payload} (h : f.request = some p) : p.type = f.type := by
  unfold Frame.request at h
  split at h
  · rename_i p' hdecode
    split at h
    · obtain rfl := Option.some.inj h
      exact type_of_decodePayload hdecode
    · cases h
  · split at h
    · rename_i hempty
      obtain rfl := Option.some.inj h
      exact hempty.1.symm
    · cases h

theorem isShutdown_of_request {f : Frame} {p : Payload} (h : f.request = some p) : f.isShutdown = true ↔ p = .shutdown := by
  have htype := type_of_request h
  unfold Frame.isShutdown
  rw [decide_eq_true_eq, ← htype]
  constructor
  · cases p <;> first | exact fun _ => rfl | exact nofun
  · rintro rfl
    rfl

theorem freshFrames_sublist (last : Option UInt64) (frames : List WireFrame) : (freshFrames last frames).Sublist frames := by
  induction frames generalizing last with
  | nil => exact .slnil
  | cons f rest ih =>
    rw [freshFrames]
    split
    · exact (ih last).cons f
    · exact (ih _).cons_cons f

/-- A client that authenticates, sends valid frames, and ends with a SHUTDOWN that is not stale. -/
structure Conversation (config : Config) where
  hello : WireFrame
  frames : List WireFrame
  shutdown : WireFrame
  greets : ∃ p, (WireFrame.queued hello).request = some (.hello p) ∧ Fits config p
  valid : ∀ f ∈ frames, ∃ p, (WireFrame.queued f).request = some p ∧ p ≠ .shutdown
  ends : (WireFrame.queued shutdown).request = some .shutdown
  fresh : isStale (lastSequence none (hello :: frames)) shutdown.sequence = false

namespace Conversation

variable (c : Conversation config)

def all : List WireFrame := c.hello :: c.frames ++ [c.shutdown]

/-- What the reader thread pushes of it; a stale frame is discarded. -/
def queued : List Frame := (freshFrames none c.all).map WireFrame.queued

/-- What is pushed between the HELLO and the SHUTDOWN. -/
def between : List Frame := (freshFrames (some c.hello.sequence) c.frames).map WireFrame.queued

theorem queued_eq : c.queued = (WireFrame.queued c.hello :: c.between) ++ [WireFrame.queued c.shutdown] := by
  have hfresh : isStale (lastSequence (some c.hello.sequence) c.frames) c.shutdown.sequence = false := c.fresh
  have hlast : freshFrames (lastSequence (some c.hello.sequence) c.frames) [c.shutdown] = [c.shutdown] := by
    rw [freshFrames, hfresh]
    rfl
  have hall : freshFrames none c.all = c.hello :: (freshFrames (some c.hello.sequence) c.frames ++ [c.shutdown]) := by
    show c.hello :: freshFrames (some c.hello.sequence) (c.frames ++ [c.shutdown]) = _
    rw [freshFrames_append, hlast]
  unfold queued between
  rw [hall]
  simp

theorem isShutdown_hello : (WireFrame.queued c.hello).isShutdown = false := by
  obtain ⟨p, hp, -⟩ := c.greets
  rw [← Bool.not_eq_true, isShutdown_of_request hp]
  exact nofun

theorem isShutdown_shutdown : (WireFrame.queued c.shutdown).isShutdown = true := (isShutdown_of_request c.ends).mpr rfl

theorem request_of_mem {f : Frame} (hf : f ∈ WireFrame.queued c.hello :: c.between) :
    ∃ p, f.request = some p ∧ p ≠ .shutdown := by
  rcases List.mem_cons.mp hf with rfl | hf
  · obtain ⟨p, hp, -⟩ := c.greets
    exact ⟨_, hp, nofun⟩
  · obtain ⟨g, hg, rfl⟩ := List.mem_map.mp hf
    exact c.valid g ((freshFrames_sublist _ _).subset hg)

theorem isShutdown_of_mem {f : Frame} (hf : f ∈ WireFrame.queued c.hello :: c.between) : f.isShutdown = false := by
  obtain ⟨p, hp, hne⟩ := c.request_of_mem hf
  rw [← Bool.not_eq_true, isShutdown_of_request hp]
  exact hne

theorem mem_queued {f : Frame} (hf : f ∈ c.queued) :
    f.request = some .shutdown ∧ f.isShutdown = true ∨ ∃ p, f.request = some p ∧ p ≠ .shutdown ∧ f.isShutdown = false := by
  rw [c.queued_eq] at hf
  rcases List.mem_append.mp hf with hf | hf
  · obtain ⟨p, hp, hne⟩ := c.request_of_mem hf
    exact .inr ⟨p, hp, hne, c.isShutdown_of_mem hf⟩
  · obtain rfl := List.mem_singleton.mp hf
    exact .inl ⟨c.ends, c.isShutdown_shutdown⟩

theorem eq_queued_of_shutdown {pushed : List Frame} (hsofar : pushed <+: c.queued) (hshutdown : ∃ f ∈ pushed, f.isShutdown = true) :
    pushed = c.queued := by
  obtain ⟨f, hf, hshut⟩ := hshutdown
  rw [c.queued_eq] at hsofar ⊢
  rcases List.prefix_concat_iff.mp hsofar with heq | hsofar
  · exact heq
  · rw [c.isShutdown_of_mem (hsofar.subset hf)] at hshut
    cases hshut

/-- What is handled up to the SHUTDOWN leaves nothing behind. -/
theorem eq_nil_of_sublist {before behind : List Frame} {f : Frame} (hf : f.isShutdown = true)
    (hsublist : (before ++ [f] ++ behind).Sublist c.queued) : behind = [] := by
  rw [c.queued_eq] at hsublist
  have hnot {l : List Frame} (hl : l.Sublist (WireFrame.queued c.hello :: c.between)) : f ∉ l := fun hmem => by
    rw [c.isShutdown_of_mem (hl.subset hmem)] at hf
    cases hf
  rcases List.eq_nil_or_concat behind with rfl | ⟨rest, last, rfl⟩
  · rfl
  obtain ⟨l₁, l₂, heq, hl₁, hl₂⟩ := List.sublist_append_iff.mp hsublist
  rcases List.sublist_singleton.mp hl₂ with rfl | rfl
  · refine (hnot hl₁ ?_).elim
    rw [List.append_nil] at heq
    rw [← heq]
    simp
  · rw [List.concat_eq_append, ← List.append_assoc] at heq
    refine (hnot hl₁ ?_).elim
    rw [← (List.append_inj' heq rfl).1]
    simp

end Conversation

/-! ## What holds until the worker returns -/

/-- Nothing has failed: the threads are where the frames say, and the worker is ended by a SHUTDOWN only. -/
structure Sound (c : Conversation config) (p : Process) : Prop where
  aligned : Aligned c.all p.inbox
  pushed : p.log.pushed = p.inbox.reader.pushed.filterMap queuedFrame
  accounted : p.log.Accounted
  kept : (∃ f ∈ p.log.pushed, f.isShutdown = true) → p.log.ShutdownSince []
  handled : p.handled = p.log.popped
  ok : p.worker.health.Ok
  exit : p.worker.fatalExit = false
  greeted : p.worker.authenticated = true ∨ p.log.popped = [] ∧ p.inbox.reader.pushed.length ≤ 1
  going : p.worker.running = true → ∀ f ∈ p.log.popped, f.isShutdown = false
  stopped : p.worker.running = false →
    p.worker.authenticated = true ∧ ∃ before f, p.log.popped = before ++ [f] ∧ f.isShutdown = true
  finished : p.worker.finished = true → p.worker.running = false
  reading : p.inbox.reader.isReading = false → p.worker.running = false

namespace Sound

variable {c : Conversation config} {p : Process}

/-- What was pushed is what the client sent so far. -/
theorem pushed_prefix_queued (h : Sound c p) : p.log.pushed <+: c.queued := by
  obtain ⟨done, rest, hall, hpushed, -⟩ := h.aligned
  rw [h.pushed, hpushed, filterMap_delivered, Conversation.queued, hall, freshFrames_append, List.map_append]
  exact List.prefix_append _ _

theorem length_pushed (h : Sound c p) : p.log.pushed.length = p.inbox.reader.pushed.length := by
  obtain ⟨done, rest, hall, hpushed, -⟩ := h.aligned
  rw [h.pushed, hpushed, filterMap_delivered, List.length_map, List.length_map]

theorem mem_queued (h : Sound c p) {f : Frame} (hf : f ∈ p.log.queue.toList) : f ∈ c.queued :=
  h.pushed_prefix_queued.subset (h.accounted.order.subset (List.mem_append_right _ hf))

/-- The first frame that the main loop takes is the HELLO. -/
theorem eq_hello (h : Sound c p) (hauth : p.worker.authenticated = false) {f : Frame} (hf : f ∈ p.log.queue.toList) :
    f = WireFrame.queued c.hello := by
  have hmem : f ∈ p.log.pushed := h.accounted.order.subset (List.mem_append_right _ hf)
  have hsofar := h.pushed_prefix_queued
  have hlen : p.log.pushed.length ≤ 1 := by
    rw [h.length_pushed]
    rcases h.greeted with hyes | ⟨-, hlen⟩
    · rw [hauth] at hyes
      cases hyes
    · exact hlen
  rw [c.queued_eq, List.cons_append] at hsofar
  generalize p.log.pushed = pushed at hmem hsofar hlen
  cases pushed with
  | nil => cases hmem
  | cons g rest =>
    obtain rfl : rest = [] := List.length_eq_zero_iff.mp (by simpa using hlen)
    obtain rfl := List.mem_singleton.mp hmem
    exact (List.cons_prefix_cons.mp hsofar).1

theorem start (c : Conversation config) (engine translator : Bool) : Sound c (.start engine translator c.all) where
  aligned := aligned_start _ _
  pushed := rfl
  accounted := QueueLog.accounted_start (by decide)
  kept := nofun
  handled := rfl
  ok := (resting_start engine translator).1
  exit := rfl
  greeted := .inr ⟨rfl, Nat.zero_le _⟩
  going := fun _ => nofun
  stopped := nofun
  finished := nofun
  reading := nofun

theorem open_of_atEnd (h : p.atEnd = false) (hreading : p.inbox.reader.isReading = true) (running arrived : Bool) :
    p.inbox.Open ⟨arrived, running⟩ := by
  intro _ hnone
  unfold Process.atEnd at h
  rw [hreading, hnone] at h
  exact h

theorem aligned_read (h : Sound c p) {arrived : Bool} (hopen : arrived = true → p.atEnd = false) :
    Aligned c.all (p.inbox.step ⟨arrived, p.worker.running⟩) ∧
      ((p.inbox.step ⟨arrived, p.worker.running⟩).reader.isReading = false → p.worker.running = false) := by
  by_cases hreading : p.inbox.reader.isReading = true
  · have hturn : p.inbox.Open ⟨arrived, p.worker.running⟩ := fun harrived =>
      open_of_atEnd (hopen harrived) hreading p.worker.running arrived harrived
    refine ⟨aligned_step h.aligned hturn, fun hended => ?_⟩
    by_contra hrunning
    rw [Bool.not_eq_false] at hrunning
    rw [reading_step h.aligned hturn hreading hrunning] at hended
    cases hended
  · have hsame : p.inbox.step ⟨arrived, p.worker.running⟩ = p.inbox := if_neg hreading
    rw [hsame]
    exact ⟨h.aligned, h.reading⟩

theorem not_isFatal {frames : List WireFrame} {s : Inbox} (h : Aligned frames s) : s.reader.phase.isFatal = false := by
  obtain ⟨done, rest, -, -, hpos⟩ := h
  unfold StandsAt at hpos
  unfold ReaderPhase.isFatal
  split
  · rename_i hphase
    rw [hphase] at hpos
    exact hpos.elim
  · rfl

theorem read_eq (h : Sound c p) {arrived : Bool} (hopen : arrived = true → p.atEnd = false) :
    ∃ new, (p.inbox.step ⟨arrived, p.worker.running⟩).reader.pushed = p.inbox.reader.pushed ++ new ∧ new.length ≤ 1 ∧
      (arrived = false → new = []) ∧
      p.read arrived = { p with inbox := p.inbox.step ⟨arrived, p.worker.running⟩
                                log := run QueueLog.step p.log ((new.filterMap queuedFrame).map .push) } := by
  obtain ⟨new, hpushed, hlen, hnone⟩ := p.inbox.pushed_step ⟨arrived, p.worker.running⟩
  refine ⟨new, hpushed, hlen, hnone, ?_⟩
  unfold Process.read
  dsimp only
  rw [not_isFatal (h.aligned_read hopen).1, hpushed, List.drop_left]
  rfl

theorem read (h : Sound c p) {arrived : Bool} (hharm : p.Unharmed config (.read arrived)) : Sound c (p.read arrived) := by
  have hopen (harrived : arrived = true) : p.atEnd = false := (hharm harrived).1
  obtain ⟨haligned, hreading⟩ := h.aligned_read hopen
  obtain ⟨new, hpushed, hlen, hnone, heq⟩ := h.read_eq hopen
  obtain ⟨hlog, hpopped, hshutdown⟩ := p.log.run_push (new.filterMap queuedFrame)
  rw [heq]
  exact {
    aligned := haligned
    pushed := by
      dsimp only
      rw [hlog, h.pushed, hpushed, List.filterMap_append]
    accounted := run_invariant' (fun _ op hs => QueueLog.accounted_step op hs) _ h.accounted
    kept := by
      rintro ⟨f, hf, hshut⟩
      dsimp only at hf ⊢
      rw [hlog] at hf
      rcases List.mem_append.mp hf with hf | hf
      · exact run_invariant' (fun _ op hs => QueueLog.shutdownSince_step op hs) _ (h.kept ⟨f, hf, hshut⟩)
      · exact hshutdown ⟨f, hf, hshut⟩
    handled := h.handled.trans hpopped.symm
    ok := h.ok
    exit := h.exit
    greeted := by
      rcases h.greeted with hauth | ⟨hnil, hle⟩
      · exact .inl hauth
      dsimp only
      rw [hpopped, hpushed]
      cases harrived : arrived with
      | false =>
        rw [hnone harrived, List.append_nil]
        exact .inr ⟨hnil, hle⟩
      | true =>
        rcases (hharm harrived).2 with hempty | hauth
        · rw [hempty]
          exact .inr ⟨hnil, hlen⟩
        · exact .inl hauth
    going := by
      dsimp only
      rw [hpopped]
      exact h.going
    stopped := by
      dsimp only
      rw [hpopped]
      exact h.stopped
    finished := h.finished
    reading := hreading }

/-- The frame that the main loop takes next. -/
def next (p : Process) : Option Frame :=
  if p.worker.running && !p.worker.finished then p.log.queue.pop.map Prod.fst else none

theorem round_eq {env : Env} {lostAt : Option Nat} (hlost : p.atEnd = false ∨ lostAt = none) :
    p.round config env lostAt =
      { p with log := if p.worker.running && !p.worker.finished then p.log.step .pop else p.log
               worker := p.worker.step { env with readerFailed := fun _ => false } config (next p)
               handled := p.handled ++ (next p).toList } := by
  have hnot : (p.atEnd && lostAt.isSome) = false := by
    rcases hlost with h | rfl
    · rw [h, Bool.false_and]
    · exact Bool.and_false _
  unfold Process.round
  dsimp only
  rw [hnot]
  rfl

variable {w' : WorkerState}

theorem idle (h : Sound c p) (hok : w'.health.Ok) (hexit : w'.fatalExit = p.worker.fatalExit)
    (hrunning : w'.running = p.worker.running) (hauth : p.worker.authenticated = true → w'.authenticated = true)
    (hfinished : w'.finished = true → w'.running = false) : Sound c { p with worker := w' } where
  aligned := h.aligned
  pushed := h.pushed
  accounted := h.accounted
  kept := h.kept
  handled := h.handled
  ok := hok
  exit := hexit.trans h.exit
  greeted := h.greeted.imp_left hauth
  going := fun hgo => h.going (hrunning ▸ hgo)
  stopped := fun hstop => (h.stopped (hrunning ▸ hstop)).imp_left hauth
  finished := hfinished
  reading := fun hended => hrunning.trans (h.reading hended)

theorem take (h : Sound c p) {f : Frame} {q : FrameQueue frameQueueCapacity} (hpop : p.log.queue.pop = some (f, q))
    (hgo : p.worker.running = true) (hok : w'.health.Ok) (hexit : w'.fatalExit = p.worker.fatalExit)
    (hauth : w'.authenticated = true) (hrunning : w'.running = !f.isShutdown)
    (hfinished : w'.finished = true → w'.running = false) :
    Sound c { p with log := p.log.step .pop, worker := w', handled := p.handled ++ [f] } := by
  obtain ⟨hpopped, hpushed, hsplit⟩ := QueueLog.step_pop_of_some hpop
  exact {
    aligned := h.aligned
    pushed := hpushed.trans h.pushed
    accounted := QueueLog.accounted_step .pop h.accounted
    kept := by
      intro hsome
      dsimp only at hsome
      rw [hpushed] at hsome
      exact QueueLog.shutdownSince_step .pop (h.kept hsome)
    handled := by
      dsimp only
      rw [hpopped, h.handled]
    ok := hok
    exit := hexit.trans h.exit
    greeted := .inl hauth
    going := by
      intro hgoes g hg
      dsimp only at hgoes hg
      rw [hpopped] at hg
      rw [hrunning, Bool.not_eq_true'] at hgoes
      rcases List.mem_append.mp hg with hg | hg
      · exact h.going hgo g hg
      · obtain rfl := List.mem_singleton.mp hg
        exact hgoes
    stopped := by
      intro hstops
      dsimp only at hstops
      rw [hrunning, Bool.not_eq_false'] at hstops
      exact ⟨hauth, p.log.popped, f, hpopped, hstops⟩
    finished := hfinished
    reading := by
      intro hended
      rw [h.reading hended] at hgo
      cases hgo }

theorem step_authenticated {w : WorkerState} (hw : w.health.Ok) (hauth : w.authenticated = true) (env : Env)
    (config : Config) (frame : Option Frame) : (w.step env config frame).authenticated = true := by
  have hwake : HeedsAt env (fun _ => True) w (wake env config frame) fun _ => True :=
    heeds_wake hw fun f _ => permitted_true config w f
  have hstep (h h' : Health) (hauth : h.authenticated = true) (hstep : Health.Step env (fun _ => True) h h') :
      h'.authenticated = true := hstep.authenticated hauth
  exact steps_invariant hstep hwake.1 hauth

theorem idle_round (h : Sound c p) {env : Env} (henv : env.Reliable)
    (hsent : ∀ write ∈ (p.worker.step env config none).writes, write = .sent)
    (hfinished : (p.worker.step env config none).finished = true → (p.worker.step env config none).running = false) :
    Sound c { p with worker := p.worker.step env config none } := by
  obtain ⟨hok, hexit, hrunning⟩ := step_reliable config (fun _ => False) none h.ok henv nofun not_false hsent
  exact h.idle hok hexit (hrunning.resolve_right not_false) (fun hauth => step_authenticated h.ok hauth env config none)
    hfinished

theorem hello_of_mem (h : Sound c p) {f : Frame} (hf : f ∈ p.log.queue.toList) :
    p.worker.authenticated = true ∨ p.worker.authenticated = false ∧ f = WireFrame.queued c.hello := by
  cases hauth : p.worker.authenticated with
  | true => exact .inl rfl
  | false => exact .inr ⟨rfl, h.eq_hello hauth hf⟩

/-- What the worker makes of the next frame of the queue: only a SHUTDOWN ends it. -/
theorem step_next (h : Sound c p) {env : Env} (henv : env.Reliable) {f : Frame} (hf : f ∈ p.log.queue.toList)
    (hgo : p.worker.running = true) (hin : p.worker.finished = false)
    (hsent : ∀ write ∈ (p.worker.step env config (some f)).writes, write = .sent)
    (hfinished : (p.worker.step env config (some f)).finished = true →
      (p.worker.step env config (some f)).running = false) :
    (p.worker.step env config (some f)).health.Ok ∧
      (p.worker.step env config (some f)).fatalExit = p.worker.fatalExit ∧
      (p.worker.step env config (some f)).authenticated = true ∧
      (p.worker.step env config (some f)).running = !f.isShutdown := by
  have hreader : env.readerFailed p.worker.tick = false := henv.readerFailed _
  rcases c.mem_queued (h.mem_queued hf) with ⟨hrequest, hshut⟩ | ⟨r, hrequest, hne, hshut⟩
  · have hauth : p.worker.authenticated = true := by
      rcases h.hello_of_mem hf with hauth | ⟨-, rfl⟩
      · exact hauth
      · rw [c.isShutdown_hello] at hshut
        cases hshut
    have hpermitted : Permitted config (· = false) p.worker f := ⟨.inr ⟨_, hrequest, .inl hauth⟩, fun _ => rfl⟩
    obtain ⟨hok, hexit, -⟩ := step_reliable config (· = false) (some f) h.ok henv
      (fun g hg => Option.some.inj hg ▸ hpermitted) (by simp) hsent
    refine ⟨hok, hexit, step_authenticated h.ok hauth env config (some f), ?_⟩
    rw [hshut]
    rcases running_of_shutdown h.ok hgo hin hreader hauth hrequest with hleft | hstopped
    · exact hfinished hleft
    · exact hstopped
  · have hpermitted : Permitted config (fun _ => False) p.worker f := by
      refine ⟨.inr ⟨r, hrequest, ?_⟩, fun hshutdown => hne (Option.some.inj (hrequest.symm.trans hshutdown))⟩
      rcases h.hello_of_mem hf with hauth | ⟨-, rfl⟩
      · exact .inl hauth
      · obtain ⟨hello, hhello, hfits⟩ := c.greets
        exact .inr ⟨hello, Option.some.inj (hrequest.symm.trans hhello), hfits⟩
    obtain ⟨hok, hexit, hrunning⟩ := step_reliable config (fun _ => False) (some f) h.ok henv
      (fun g hg => Option.some.inj hg ▸ hpermitted) not_false hsent
    refine ⟨hok, hexit, ?_, ?_⟩
    · rcases h.hello_of_mem hf with hauth | ⟨hauth, rfl⟩
      · exact step_authenticated h.ok hauth env config (some f)
      · obtain ⟨hello, hhello, hfits⟩ := c.greets
        exact authenticated_of_hello h.ok hgo hin hreader hauth hhello hfits
    · rw [hrunning.resolve_right not_false, hgo, hshut]
      rfl

theorem round (h : Sound c p) {env : Env} {lostAt : Option Nat} (hharm : p.Unharmed config (.round env lostAt)) :
    Sound c (p.round config env lostAt) := by
  obtain ⟨hlost, htranscribe, hsent, hhangs⟩ := hharm
  rw [round_eq hlost] at hsent hhangs ⊢
  have henv : Env.Reliable { env with readerFailed := fun _ => false } := ⟨htranscribe, fun _ => rfl⟩
  have hfinished : (p.worker.step { env with readerFailed := fun _ => false } config (next p)).finished = true →
      (p.worker.step { env with readerFailed := fun _ => false } config (next p)).running = false := by
    intro hfinished
    unfold Process.hangs at hhangs
    dsimp only at hhangs
    rw [hfinished] at hhangs
    exact hhangs
  unfold next at hsent hfinished ⊢
  dsimp only at hsent
  by_cases hlooks : (p.worker.running && !p.worker.finished) = true
  · obtain ⟨hgo, hin⟩ : p.worker.running = true ∧ p.worker.finished = false := by simpa using hlooks
    rw [if_pos hlooks] at hsent hfinished ⊢
    rw [if_pos hlooks]
    cases hpop : p.log.queue.pop with
    | none =>
      rw [hpop] at hsent hfinished
      rw [QueueLog.step_pop_of_none hpop]
      simpa using h.idle_round henv hsent hfinished
    | some popped =>
      obtain ⟨f, q⟩ := popped
      rw [hpop] at hsent hfinished
      have hmem : f ∈ p.log.queue.toList := by
        rw [(FrameQueue.pop_eq_some hpop).1]
        exact List.mem_cons_self ..
      obtain ⟨hok, hexit, hauth, hrunning⟩ := h.step_next henv hmem hgo hin hsent hfinished
      exact h.take hpop hgo hok hexit hauth hrunning hfinished
  · rw [if_neg hlooks] at hsent hfinished ⊢
    rw [if_neg hlooks]
    simpa using h.idle_round henv hsent hfinished

theorem step (h : Sound c p) (m : Move) (hharm : p.Unharmed config m) : Sound c (p.step config m) := by
  cases m with
  | read arrived => exact h.read hharm
  | round env lostAt => exact h.round hharm
  | close => exact { h with aligned := h.aligned }

end Sound

/-! ## What was handled -/

/-- The main loop handled every frame that the queue did not evict, in their order and the SHUTDOWN last, and the worker
exits without an error. -/
structure Complete (c : Conversation config) (p : Process) : Prop where
  exitCode : p.exitCode = 0
  handled : c.queued.Perm (p.handled ++ p.log.freed)
  order : p.handled.Sublist c.queued
  last : ∃ before, p.handled = before ++ [WireFrame.queued c.shutdown]

theorem Sound.complete {c : Conversation config} {p : Process} (h : Sound c p) (hstopped : p.worker.running = false) :
    Complete c p := by
  obtain ⟨hauth, before, f, hpopped, hshut⟩ := h.stopped hstopped
  have horder := h.accounted.order
  have hmem : f ∈ p.log.pushed := horder.subset (by simp [hpopped])
  have hall : p.log.pushed = c.queued := c.eq_queued_of_shutdown h.pushed_prefix_queued ⟨f, hmem, hshut⟩
  have hpayloads := h.accounted.payloads
  rw [hall] at hmem horder hpayloads
  have hnone : p.log.queue.toList = [] := by
    rw [hpopped] at horder
    exact c.eq_nil_of_sublist hshut horder
  have hf : f = WireFrame.queued c.shutdown := by
    rw [c.queued_eq] at hmem
    rcases List.mem_append.mp hmem with hmem | hmem
    · rw [c.isShutdown_of_mem hmem] at hshut
      cases hshut
    · exact List.mem_singleton.mp hmem
  rw [hnone, List.append_nil] at horder hpayloads
  refine ⟨?_, h.handled ▸ hpayloads, h.handled ▸ horder, before, ?_⟩
  · unfold Process.exitCode
    rw [h.exit, hauth]
    rfl
  · rw [h.handled, hpopped, hf]

/-! ## Until the worker returns -/

def Move.isRound : Move → Bool
  | .round .. => true
  | _ => false

/-- How many rounds the main loop needs if nothing more arrives. -/
def Process.pending (p : Process) : Nat :=
  if p.worker.finished then 0 else if p.worker.running then p.log.queue.toList.length + 1 else 1

theorem Process.pending_eq_zero {p : Process} : p.pending = 0 ↔ p.worker.finished = true := by
  unfold Process.pending
  split
  · simp_all
  · split <;> simp_all

namespace Sound

variable {c : Conversation config} {p : Process}

theorem pop_isSome (h : Sound c p) (hnone : p.inbox.pipe.inflight = []) (hgo : p.worker.running = true) :
    ∃ f q, p.log.queue.pop = some (f, q) := by
  have hreading : p.inbox.reader.isReading = true := by
    by_contra hended
    rw [h.reading (Bool.not_eq_true _ |>.mp hended)] at hgo
    cases hgo
  have hall : p.log.pushed = c.queued := by
    rw [h.pushed, h.aligned.all_pushed hreading hnone, filterMap_delivered]
    rfl
  have hpushed : ∃ f ∈ p.log.pushed, f.isShutdown = true := by
    refine ⟨WireFrame.queued c.shutdown, ?_, c.isShutdown_shutdown⟩
    rw [hall, c.queued_eq]
    exact List.mem_append_right _ (List.mem_singleton.mpr rfl)
  obtain ⟨since, hsince, g, hg, hshut⟩ := h.kept hpushed
  rw [List.nil_append] at hsince
  rw [← hsince] at hg
  have hqueue : g ∈ p.log.queue.toList := by
    rcases List.mem_append.mp hg with hg | hg
    · rw [h.going hgo g hg] at hshut
      cases hshut
    · exact hg
  unfold FrameQueue.pop
  cases hpop : p.log.queue.slots.pop with
  | none =>
    have hempty : p.log.queue.toList = [] := Ring.toList_of_pop_eq_none hpop
    rw [hempty] at hqueue
    cases hqueue
  | some popped => exact ⟨_, _, rfl⟩

theorem read_quiet (h : Sound c p) (hnone : p.inbox.pipe.inflight = []) {arrived : Bool}
    (hharm : p.Unharmed config (.read arrived)) :
    (p.read arrived).inbox.pipe.inflight = [] ∧ (p.read arrived).pending = p.pending := by
  have hopen (harrived : arrived = true) : p.atEnd = false := (hharm harrived).1
  obtain ⟨new, hpushed, -, -, heq⟩ := h.read_eq hopen
  have hsame : (p.inbox.step ⟨arrived, p.worker.running⟩).pipe.inflight = [] ∧
      (p.inbox.step ⟨arrived, p.worker.running⟩).reader.pushed = p.inbox.reader.pushed := by
    by_cases hreading : p.inbox.reader.isReading = true
    · have hturn : p.inbox.Open ⟨arrived, p.worker.running⟩ := fun harrived =>
        open_of_atEnd (hopen harrived) hreading p.worker.running arrived harrived
      rcases Inbox.step_cases h.aligned hturn hreading with ⟨-, hstep⟩ | ⟨record, rest, -, hin, -⟩
      · rw [hstep]
        refine ⟨hnone, ?_⟩
        unfold Reader.step
        dsimp only
        split <;> rfl
      · rw [hnone] at hin
        cases hin
    · have hstep : p.inbox.step ⟨arrived, p.worker.running⟩ = p.inbox := if_neg hreading
      rw [hstep]
      exact ⟨hnone, rfl⟩
  obtain rfl : new = [] := by simpa [hsame.2] using hpushed
  rw [heq]
  exact ⟨hsame.1, rfl⟩

/-- A round brings the worker nearer to its end. -/
theorem round_pending (h : Sound c p) (hnone : p.inbox.pipe.inflight = []) {env : Env} {lostAt : Option Nat}
    (hharm : p.Unharmed config (.round env lostAt)) :
    (p.round config env lostAt).inbox.pipe.inflight = [] ∧ (p.round config env lostAt).pending ≤ p.pending - 1 := by
  rw [round_eq hharm.1]
  refine ⟨hnone, ?_⟩
  by_cases hin : p.worker.finished = true
  · unfold Process.pending
    dsimp only
    rw [step_of_finished hin, hin]
    exact Nat.le_refl _
  rw [Bool.not_eq_true] at hin
  by_cases hgo : p.worker.running = true
  · obtain ⟨f, q, hpop⟩ := h.pop_isSome hnone hgo
    obtain ⟨-, -, hsplit⟩ := QueueLog.step_pop_of_some hpop
    have hlen : p.pending = (p.log.step .pop).queue.toList.length + 1 + 1 := by
      unfold Process.pending
      rw [hin, hgo, hsplit]
      rfl
    rw [hlen, hgo, hin]
    unfold Process.pending
    dsimp only
    split
    · omega
    · split
      · exact Nat.le_refl _
      · omega
  · rw [Bool.not_eq_true] at hgo
    have hnext : next p = none := by
      unfold next
      rw [hgo]
      rfl
    unfold Process.pending
    dsimp only
    rw [hnext, finished_of_stopped hgo]
    exact Nat.zero_le _

theorem step_pending (h : Sound c p) (hnone : p.inbox.pipe.inflight = []) (m : Move) (hharm : p.Unharmed config m) :
    (p.step config m).inbox.pipe.inflight = [] ∧ (p.step config m).pending ≤ p.pending - if m.isRound then 1 else 0 := by
  cases m with
  | read arrived =>
    obtain ⟨hnone, hpending⟩ := h.read_quiet hnone hharm
    exact ⟨hnone, Nat.le_of_eq hpending⟩
  | round env lostAt => exact h.round_pending hnone hharm
  | close => exact ⟨hnone, Nat.le_refl _⟩

/-- So many rounds end it. -/
theorem run_pending (h : Sound c p) (hnone : p.inbox.pipe.inflight = []) {schedule : List Move}
    (hharm : Along (Process.step config) (Process.Unharmed config) p schedule) :
    Sound c (run (Process.step config) p schedule) ∧
      (run (Process.step config) p schedule).pending ≤ p.pending - schedule.countP Move.isRound := by
  induction schedule generalizing p with
  | nil => exact ⟨h, Nat.le_refl _⟩
  | cons m schedule ih =>
    obtain ⟨hnone', hpending⟩ := h.step_pending hnone m hharm.1
    obtain ⟨hsound, hrun⟩ := ih (h.step m hharm.1) hnone' hharm.2
    refine ⟨hsound, hrun.trans ?_⟩
    rw [List.countP_cons]
    omega

theorem pending_le (h : Sound c p) : p.pending ≤ frameQueueCapacity + 1 := by
  have hlen := h.accounted.bounded
  unfold Process.pending
  split
  · omega
  · split <;> omega

end Sound

/-! ## Clean shutdown -/

/-- **Clean shutdown.** If nothing fails, the worker that returns has handled every frame that the queue did not evict, and
exits with 0; and it returns, once all records arrived and the main loop made enough rounds. -/
theorem cleanShutdown (c : Conversation config) (engine translator : Bool) {schedule : List Move}
    (hharm : Along (Process.step config) (Process.Unharmed config) (.start engine translator c.all) schedule) :
    ((run (Process.step config) (.start engine translator c.all) schedule).returned = true →
      Complete c (run (Process.step config) (.start engine translator c.all) schedule)) ∧
    ∀ first second, schedule = first ++ second →
      (run (Process.step config) (.start engine translator c.all) first).inbox.pipe.inflight = [] →
      frameQueueCapacity < second.countP Move.isRound →
      (run (Process.step config) (.start engine translator c.all) (schedule ++ [.read false])).returned = true := by
  have hsound {l : List Move} (hl : Along (Process.step config) (Process.Unharmed config)
      (.start engine translator c.all) l) : Sound c (run (Process.step config) (.start engine translator c.all) l) :=
    run_invariant (fun p m h hm => h.step m hm) (Sound.start c engine translator) hl
  refine ⟨fun hreturned => (hsound hharm).complete ?_, ?_⟩
  · unfold Process.returned at hreturned
    simp only [Bool.and_eq_true, Bool.not_eq_true'] at hreturned
    exact hreturned.1.2
  · rintro first second rfl hnone hrounds
    obtain ⟨hfirst, hsecond⟩ := along_append.mp hharm
    obtain ⟨hlast, hpending⟩ := (hsound hfirst).run_pending hnone hsecond
    have hbound := (hsound hfirst).pending_le
    rw [List.append_assoc, run_append, run_append]
    generalize run (Process.step config) (run (Process.step config) _ first) second = p at hlast hpending
    have hfinished : p.worker.finished = true := Process.pending_eq_zero.mp (by omega)
    have hstopped := hlast.finished hfinished
    have hopen : false = true → p.atEnd = false := nofun
    obtain ⟨new, -, -, -, heq⟩ := hlast.read_eq hopen
    show (p.read false).returned = true
    rw [heq]
    unfold Process.returned
    dsimp only
    rw [hfinished, hstopped, Inbox.isReading_timeout]
    rfl

/-! ### Recognition that fails, and a client that closes the transport at once -/

theorem valid_of_isSome {f : Frame} (hsome : f.request.isSome = true) (hnot : f.isShutdown = false) :
    ∃ p, f.request = some p ∧ p ≠ .shutdown := by
  obtain ⟨p, hp⟩ := Option.isSome_iff_exists.mp hsome
  refine ⟨p, hp, fun heq => ?_⟩
  rw [(isShutdown_of_request hp).mpr heq] at hnot
  cases hnot

/-- The frame as the client sends it. -/
def wireOf (sequence : UInt64) (p : Payload) : WireFrame where
  type := p.type
  sequence := sequence
  payload := ((encodePayload p 2048).getD []).take maxPayloadBytes
  fits := by
    rw [List.length_take]
    exact Nat.min_le_left _ _

def listener : Config := ⟨.zero _, true, false⟩

def greeting : Payload := .hello ⟨versionMajor, versionMajor, .zero _, .ofBytes 5 (ascii "1.6.0") Slice.toNat_five⟩

/-- A session with one sample of audio. -/
def oneSample : Conversation listener where
  hello := wireOf 1 greeting
  frames := [wireOf 2 (.startSession QueueLog.sampleStart), wireOf 3 (.audioPcm ⟨.zero _, 0, 63, .ofBytes 2 [1, 0] rfl⟩)]
  shutdown := wireOf 4 .shutdown
  greets := ⟨_, rfl, rfl, rfl⟩
  valid := by
    intro f hf
    refine valid_of_isSome ?_ ?_ <;> revert f <;> decide +kernel
  ends := rfl
  fresh := rfl

/-- The sample is loud. -/
def Env.loud (heard : Option (List WhisperSegment)) : Env :=
  { Env.quiet with
    transcribe _ := heard
    speech _ := .energy true }

/-- The client waits for HELLO_ACK, then sends the session and SHUTDOWN, which all arrive. -/
def oneSampleSent : List Move :=
  [.read true, .read true, .round .quiet none, .read true, .read true, .read true, .read true, .read true]

/-- The client closes the transport after the worker's reader thread has ended. -/
def oneSampleRun (heard : Option (List WhisperSegment)) : List Move :=
  oneSampleSent ++ [.round .quiet none, .round (.loud heard) none, .round (.loud heard) none, .round (.loud heard) none,
    .read false, .close]

/-- The client closes the transport before the worker has handled what it sent. -/
def closedRun : List Move := oneSampleSent ++ [.close, .read true, .round .quiet none]

theorem cleanShutdown_oneSample :
    Complete oneSample (run (Process.step listener) (.start true false oneSample.all) (oneSampleRun (some []))) := by
  refine (cleanShutdown oneSample true false ?_).1 (by decide +kernel)
  refine ⟨fun _ => ?_, fun _ => ?_, ⟨.inr rfl, nofun, ?_, ?_⟩, fun _ => ?_, fun _ => ?_, fun _ => ?_, fun _ => ?_,
    fun _ => ?_, ⟨.inr rfl, nofun, ?_, ?_⟩, ⟨.inr rfl, nofun, ?_, ?_⟩, ⟨.inr rfl, nofun, ?_, ?_⟩, ⟨.inr rfl, nofun, ?_, ?_⟩,
    nofun, trivial, trivial⟩ <;> decide +kernel

/-- The client waits with what follows HELLO until it is authenticated. -/
def Process.Waits (p : Process) : Move → Prop
  | .read arrived => arrived = true → p.inbox.reader.pushed = [] ∨ p.worker.authenticated = true
  | _ => True

/-- Every worker that returns has handled what it should, if all its writes succeed and the run is as `allowed`. -/
def ShutsDownCleanly (allowed : Process → Move → Prop) : Prop :=
  ∀ (config : Config) (c : Conversation config) (engine translator : Bool) (schedule : List Move),
    Along (Process.step config) allowed (.start engine translator c.all) schedule →
    (∀ write ∈ (run (Process.step config) (.start engine translator c.all) schedule).worker.writes, write = .sent) →
    (run (Process.step config) (.start engine translator c.all) schedule).returned = true →
    Complete c (run (Process.step config) (.start engine translator c.all) schedule)

/-- A recognition that fails in the tail of the session ends the worker with an error. -/
theorem not_forall_cleanShutdown : ¬ ShutsDownCleanly Process.Waits := by
  intro h
  have hcomplete := h listener oneSample true false (oneSampleRun none)
    (by refine ⟨fun _ => ?_, fun _ => ?_, trivial, fun _ => ?_, fun _ => ?_, fun _ => ?_, fun _ => ?_, fun _ => ?_, trivial,
          trivial, trivial, trivial, nofun, trivial, trivial⟩ <;> decide +kernel)
    (by decide +kernel) (by decide +kernel)
  have hexit : (run (Process.step listener) (.start true false oneSample.all) (oneSampleRun none)).exitCode = 1 := by
    decide +kernel
  rw [hcomplete.exitCode] at hexit
  cases hexit

/-- Where recognition works: the end of the stream makes the worker forget what is in its queue, the SHUTDOWN included. -/
theorem not_forall_cleanShutdown_of_transcribe : ¬ ShutsDownCleanly fun p m =>
    p.Waits m ∧ ∀ env lostAt, m = .round env lostAt → ∀ n, env.transcribe n ≠ none := by
  intro h
  have hquiet (p : Process) (lostAt : Option Nat) : p.Waits (.round .quiet lostAt) ∧
      ∀ env lostAt', Move.round .quiet lostAt = .round env lostAt' → ∀ n, env.transcribe n ≠ none := by
    refine ⟨trivial, ?_⟩
    rintro env lostAt' heq n
    obtain ⟨rfl, -⟩ := Move.round.inj heq
    exact nofun
  have hcomplete := h listener oneSample true false closedRun
    (by refine ⟨⟨fun _ => ?_, nofun⟩, ⟨fun _ => ?_, nofun⟩, hquiet _ _, ⟨fun _ => ?_, nofun⟩, ⟨fun _ => ?_, nofun⟩,
          ⟨fun _ => ?_, nofun⟩, ⟨fun _ => ?_, nofun⟩, ⟨fun _ => ?_, nofun⟩, ⟨trivial, nofun⟩, ⟨fun _ => ?_, nofun⟩, hquiet _ _,
          trivial⟩ <;> decide +kernel)
    (by decide +kernel) (by decide +kernel)
  have hhandled : (run (Process.step listener) (.start true false oneSample.all) closedRun).handled =
      [WireFrame.queued oneSample.hello] := by
    decide +kernel
  obtain ⟨before, hlast⟩ := hcomplete.last
  rw [hhandled] at hlast
  cases before with
  | nil => exact absurd hlast (by decide +kernel)
  | cons f before => cases before <;> cases hlast

end VlcWhisper.Worker
