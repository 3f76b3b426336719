import VlcWhisper.Worker.LoopSteps
import VlcWhisper.Worker.Sending

/-!
# What the main loop does about failures

`Health` is the part of the worker's state that decides whether the worker goes on: the flags, the state of the
transport, and how its writes ended. `Health.Step` says what can happen to it, and for what reason. Main results:

* `heeds_wake`: a round of the main loop makes such steps only, and after a write that failed the worker is not
  running.
* `flushAudioTail_isSome`, `emitTailSegments_isSome`: the loops that finish a session end.
-/

namespace VlcWhisper.Worker

open VlcWhisper.Lib VlcWhisper.Protocol SegmentBuilder Relation

/-! ## Health -/

structure Health where
  running : Bool
  fatalExit : Bool
  authenticated : Bool
  engine : Bool
  sessionActive : Bool
  hasAudio : Bool
  hasTranslator : Bool
  translateEnabled : Bool
  transport : Transport
  tick : Nat
  writes : List Write

def WorkerState.health (w : WorkerState) : Health where
  running := w.running
  fatalExit := w.fatalExit
  authenticated := w.authenticated
  engine := w.engine
  sessionActive := w.sessionActive
  hasAudio := 0 < w.audioBuf.count
  hasTranslator := w.translator.isSome
  translateEnabled := w.translateEnabled
  transport := w.transport
  tick := w.tick
  writes := w.writes

namespace Health

/-- Some write did not succeed. -/
def Faulty (h : Health) : Prop := ∃ write ∈ h.writes, write ≠ .sent

/-- There is a reason to end with an error; `permits` says which ends need none. -/
def Blamed (env : Env) (permits : Bool → Prop) (h : Health) : Prop :=
  h.Faulty ∨ permits true ∨ (∃ n, env.transcribe n = none) ∨ ∃ n, env.readerFailed n = true

/-- Without a speech model there is no session and no audio. -/
def Idle (h : Health) : Prop := h.engine = false → h.sessionActive = false ∧ h.hasAudio = false

/-- One step. The worker ends for a reason only, unless that is permitted. -/
inductive Step (env : Env) (permits : Bool → Prop) (h : Health) : Health → Prop
  | ask : Step env permits h { h with tick := h.tick + 1 }
  | write : Step env permits h { h with tick := h.tick + 1
                                        writes := h.writes ++ [if env.ipcSend h.tick then .sent else .failed] }
  | unencoded : Step env permits h { h with writes := h.writes ++ [.unencoded] }
  | stop (fatal : Bool) : h.Blamed env permits ∨ permits fatal →
      Step env permits h { h with running := false, fatalExit := h.fatalExit || fatal }
  | refuse : permits true → Step env permits h { h with fatalExit := true }
  | authenticate : Step env permits h { h with authenticated := true }
  | register : Step env permits h { h with transport := ⟨true, h.transport.registered && h.transport.failed⟩ }
  | mark : h.Faulty → Step env permits h { h with transport := { h.transport with failed := true } }
  | configure (enabled : Bool) : Step env permits h { h with translateEnabled := enabled }
  | session (active audio : Bool) : (h.engine = false → active = false ∧ audio = false) →
      Step env permits h { h with sessionActive := active, hasAudio := audio }

/-- The transport is only marked after a failure, and cues are only offered to the translator over one that can be. -/
def Kept (h : Health) : Prop :=
  (h.transport.failed = true → h.Faulty) ∧
    (h.translateEnabled = true → h.hasTranslator = true → h.transport.registered = true) ∧ h.Idle

/-- While the worker is running, no write has failed. -/
def Clean (h : Health) : Prop := h.running = true → Write.failed ∉ h.writes

def Ok (h : Health) : Prop := h.Kept ∧ h.Clean

def Bad (env : Env) (permits : Bool → Prop) (h : Health) : Prop := h.Kept ∧ h.Blamed env permits

theorem Faulty.append {h : Health} (hfaulty : h.Faulty) (more : List Write) :
    Faulty { h with writes := h.writes ++ more } := by
  obtain ⟨write, hmem, hne⟩ := hfaulty
  exact ⟨write, List.mem_append_left _ hmem, hne⟩

theorem Faulty.last {h : Health} {write : Write} (hne : write ≠ .sent) :
    Faulty { h with writes := h.writes ++ [write] } :=
  ⟨write, List.mem_append_right _ (List.mem_singleton.mpr rfl), hne⟩

theorem Faulty.step {env : Env} {permits : Bool → Prop} {h h' : Health} (hfaulty : h.Faulty)
    (hstep : Step env permits h h') : h'.Faulty := by
  cases hstep with
  | write => exact hfaulty.append _
  | unencoded => exact hfaulty.append _
  | _ => exact hfaulty

theorem Kept.append {h : Health} (hkept : h.Kept) (more : List Write) : Kept { h with writes := h.writes ++ more } :=
  ⟨fun h => (hkept.1 h).append more, hkept.2⟩

theorem Blamed.step {env : Env} {permits : Bool → Prop} {h h' : Health} (hblamed : h.Blamed env permits)
    (hstep : Step env permits h h') : h'.Blamed env permits := by
  rcases hblamed with hfaulty | hpermits | henv
  · exact .inl (hfaulty.step hstep)
  · exact .inr (.inl hpermits)
  · exact .inr (.inr henv)

theorem Blamed.steps {env : Env} {permits : Bool → Prop} {h h' : Health} (hblamed : h.Blamed env permits)
    (hsteps : ReflTransGen (Step env permits) h h') : h'.Blamed env permits := by
  refine steps_invariant ?_ hsteps hblamed
  exact fun _ _ h hstep => Blamed.step h hstep

end Health

/-- The program heeds failures: a result in `P` leaves the worker clean, any other one leaves a reason to end it. -/
abbrev HeedsAt {α : Type} (env : Env) (permits : Bool → Prop) (w : WorkerState) (m : Loop α) (P : α → Prop) : Prop :=
  Settles WorkerState.health (Health.Step env permits) (fun w => w.health.Ok) (fun w => w.health.Bad env permits) w m P

abbrev Heeds {α : Type} (env : Env) (permits : Bool → Prop) (m : Loop α) (P : α → Prop) : Prop :=
  SettlesAll WorkerState.health (Health.Step env permits) (fun w => w.health.Ok) (fun w => w.health.Bad env permits) m P

abbrev SendsAt {α : Type} (env : Env) (permits : Bool → Prop) (w : WorkerState) (m : Loop α) (P : α → Prop) : Prop :=
  Settles WorkerState.health (Health.Step env permits) (fun w => w.health.Ok)
    (fun w => w.health.Kept ∧ w.health.Faulty) w m P

/-- The program tells whether its writes succeeded. -/
abbrev Sends (env : Env) (permits : Bool → Prop) (m : Loop Bool) : Prop :=
  SettlesAll WorkerState.health (Health.Step env permits) (fun w => w.health.Ok)
    (fun w => w.health.Kept ∧ w.health.Faulty) m (· = true)

/-- The program tells whether it could recognise speech: if it could not, no write has failed. -/
abbrev HearsAt {α : Type} (env : Env) (permits : Bool → Prop) (w : WorkerState) (m : Loop α) (P : α → Prop) : Prop :=
  Settles WorkerState.health (Health.Step env permits) (fun w => w.health.Ok)
    (fun w => w.health.Ok ∧ w.health.Blamed env permits) w m P

abbrev Hears {α : Type} (env : Env) (permits : Bool → Prop) (m : Loop α) (P : α → Prop) : Prop :=
  SettlesAll WorkerState.health (Health.Step env permits) (fun w => w.health.Ok)
    (fun w => w.health.Ok ∧ w.health.Blamed env permits) m P

variable {env : Env} {config : Config} {permits : Bool → Prop} {α β : Type}

/-! ## Basic actions -/

theorem Sends.heeds {m : Loop Bool} (h : Sends env permits m) : Heeds env permits m (· = true) :=
  SettlesAll.mono h fun _ ht => ⟨ht.1, .inl ht.2⟩

theorem Hears.heeds {m : Loop α} {P : α → Prop} (h : Hears env permits m P) : Heeds env permits m P :=
  SettlesAll.mono h fun _ ht => ⟨ht.1.1, ht.2⟩

theorem HearsAt.heeds_bind {w : WorkerState} {m : Loop α} {f : α → Loop β} {P : α → Prop} {Q : β → Prop}
    (hm : HearsAt env permits w m P) (hf : ∀ a t, P a → t.health.Ok → HeedsAt env permits t (f a) Q)
    (hfail : ∀ a t, ¬ P a → t.health.Ok ∧ t.health.Blamed env permits → HeedsAt env permits t (f a) Q) :
    HeedsAt env permits w (m >>= f) Q := by
  have hnext : HeedsAt env permits (m.run w).2 (f (m.run w).1) Q := by
    by_cases ha : P (m.run w).1
    · exact hf _ _ ha (hm.2.1 ha)
    · exact hfail _ _ ha (hm.2.2 ha)
  exact ⟨hm.1.trans hnext.1, hnext.2⟩

theorem HeedsAt.of_sends {w : WorkerState} {m : Loop α} (h : SendsAt env permits w m fun _ => True) :
    HeedsAt env permits w m fun _ => True :=
  Settles.total h

theorem heedsAt_modify {w : WorkerState} (hw : w.health.Ok) {f : WorkerState → WorkerState}
    (h : (f w).health = w.health) : HeedsAt env permits w (modify f) fun _ => True := by
  refine ⟨StepsAt.of_eq (m := modify f) h, fun _ => ?_, fun hp => (hp trivial).elim⟩
  show (f w).health.Ok
  rw [h]
  exact hw

theorem heeds_modify {bad : WorkerState → Prop} {f : WorkerState → WorkerState} (h : ∀ w, (f w).health = w.health) :
    SettlesAll WorkerState.health (Health.Step env permits) (fun w => w.health.Ok) bad (modify f) fun _ => True :=
  fun w hw => (heedsAt_modify hw (h w)).total

/-- A session begins or gets audio, which takes a speech model. -/
theorem heedsAt_session {w : WorkerState} (hw : w.health.Ok) {f : WorkerState → WorkerState} {active audio : Bool}
    (h : (f w).health = { w.health with sessionActive := active, hasAudio := audio })
    (hidle : w.engine = false → active = false ∧ audio = false) : HeedsAt env permits w (modify f) fun _ => True := by
  have hstep : Health.Step env permits w.health (f w).health := by
    rw [h]
    exact .session active audio hidle
  refine ⟨.single hstep, fun _ => ?_, fun hp => (hp trivial).elim⟩
  show (f w).health.Ok
  rw [h]
  exact ⟨⟨hw.1.1, hw.1.2.1, hidle⟩, hw.2⟩

/-- The session ends, and its audio is dropped. -/
theorem heeds_end {f : WorkerState → WorkerState}
    (h : ∀ w, (f w).health = { w.health with sessionActive := false, hasAudio := false }) :
    Heeds env permits (modify f) fun _ => True :=
  fun w hw => heedsAt_session hw (h w) fun _ => ⟨rfl, rfl⟩

theorem heeds_clear {f : WorkerState → WorkerState} (h : ∀ w, (f w).health = { w.health with hasAudio := false }) :
    Heeds env permits (modify f) fun _ => True :=
  fun w hw => heedsAt_session hw (h w) fun hengine => ⟨(hw.1.2.2 hengine).1, rfl⟩

theorem engine_of_session {w : WorkerState} (hw : w.health.Ok) (h : w.sessionActive = true ∨ 0 < w.audioBuf.count) :
    w.engine = true := by
  by_contra hengine
  obtain ⟨hactive, haudio⟩ := hw.1.2.2 (Bool.not_eq_true _ |>.mp hengine)
  have hactive : w.sessionActive = false := hactive
  have haudio : decide (0 < w.audioBuf.count) = false := haudio
  simp only [decide_eq_false_iff_not] at haudio
  rcases h with h | h
  · rw [hactive] at h
    cases h
  · exact haudio h

theorem heeds_ask (answer : Nat → α) : Heeds env permits (ask answer) fun _ => True :=
  fun _ hw => ⟨.single .ask, fun _ => hw, fun hp => (hp trivial).elim⟩

theorem heeds_call (service : Service) (answer : Nat → α) : Heeds env permits (call service answer) fun _ => True :=
  fun _ hw => ⟨.single .ask, fun _ => hw, fun hp => (hp trivial).elim⟩

theorem heeds_detect (window : List SessionId) (answer : Nat → α) : Heeds env permits (detect window answer) fun _ => True :=
  fun _ hw => ⟨.single .ask, fun _ => hw, fun hp => (hp trivial).elim⟩

theorem hears_call_of {service : Service} {P : α → Prop} {answer : Nat → α}
    (h : ∀ (w : WorkerState) n, ¬ P (answer n) → w.health.Blamed env permits) : Hears env permits (call service answer) P :=
  fun w hw => ⟨.single .ask, fun _ => hw, fun hp => ⟨hw, h _ w.tick hp⟩⟩

theorem hears_ask_of {P : α → Prop} {answer : Nat → α}
    (h : ∀ (w : WorkerState) n, ¬ P (answer n) → w.health.Blamed env permits) : Hears env permits (ask answer) P :=
  fun w hw => ⟨.single .ask, fun _ => hw, fun hp => ⟨hw, h _ w.tick hp⟩⟩

theorem heedsAt_stopRunning {w : WorkerState} (hkept : w.health.Kept) {fatal : Bool}
    (hwhy : w.health.Blamed env permits ∨ permits fatal) : HeedsAt env permits w (stopRunning fatal) fun _ => True :=
  ⟨.single (.stop fatal hwhy), fun _ => ⟨hkept, fun hrunning => (Bool.false_ne_true hrunning).elim⟩,
    fun hp => (hp trivial).elim⟩

theorem heedsAt_stop_of_bad {w : WorkerState} (hbad : w.health.Bad env permits) (fatal : Bool) :
    HeedsAt env permits w (stopRunning fatal) fun _ => True :=
  heedsAt_stopRunning hbad.1 (.inl hbad.2)

theorem heedsAt_stop_then {w : WorkerState} (hbad : w.health.Bad env permits) (fatal : Bool) (a : α) {P : α → Prop} :
    HeedsAt env permits w (do stopRunning fatal; pure a) P := by
  have hstep : Health.Step env permits w.health { w.health with running := false, fatalExit := w.fatalExit || fatal } :=
    .stop fatal (.inl hbad.2)
  exact ⟨.single hstep, fun _ => ⟨hbad.1, fun hrunning => (Bool.false_ne_true hrunning).elim⟩,
    fun _ => ⟨hbad.1, hbad.2.step hstep⟩⟩

theorem heeds_orFatal {send : Loop Bool} (h : Heeds env permits send (· = true)) :
    Heeds env permits (orFatal send) fun _ => True := by
  refine h.bind (fun sent hsent => ?_) fun sent t hsent ht => ?_
  · subst hsent
    exact .pure trivial
  · rw [Bool.not_eq_true] at hsent
    subst hsent
    exact heedsAt_stop_of_bad ht true

theorem heeds_tell {send : Loop Bool} (h : Heeds env permits send (· = true)) :
    Heeds env permits (do let sent ← send; onlyIf (!sent) (stopRunning true); pure sent) fun _ => True := by
  refine h.bind (fun sent hsent => ?_) fun sent t hsent ht => ?_
  · subst hsent
    exact .andThen (.pure trivial) fun _ => .pure trivial
  · rw [Bool.not_eq_true] at hsent
    subst hsent
    exact heedsAt_stop_then ht true _

theorem heeds_loadRunning : Heeds env permits (loadRunning env) fun _ => True := by
  refine SettlesAll.bind (P := (· = false)) (Hears.heeds (hears_ask_of fun w n hn => ?_)) (fun failed hfailed => ?_) fun failed t hfailed ht => ?_
  · exact .inr (.inr (.inr ⟨n, by simpa using hn⟩))
  · subst hfailed
    exact .andThen (.pure trivial) fun _ => .get_bind fun _ hs => Settles.pure hs trivial
  · rw [Bool.not_eq_false] at hfailed
    subst hfailed
    refine (heedsAt_stop_of_bad ht true).bind (fun _ u _ hu => ?_) fun _ _ h => (h trivial).elim
    exact ⟨.refl, fun _ => hu, fun hp => (hp trivial).elim⟩

/-! ## Sending -/

theorem sends_guardedIpcSend : Sends env permits (guardedIpcSend env) := by
  refine .get_bind fun w hw => ?_
  by_cases hguard : (w.transport.registered && w.transport.failed) = true
  · rw [if_pos hguard]
    rw [Bool.and_eq_true] at hguard
    exact ⟨.refl, nofun, fun _ => ⟨hw.1, hw.1.1 hguard.2⟩⟩
  · rw [if_neg hguard]
    refine ⟨.single .write, fun hsent => ?_, fun hsent => ?_⟩
    · have hsent : env.ipcSend w.tick = true := hsent
      refine ⟨hw.1.append _, fun hrunning => ?_⟩
      show Write.failed ∉ w.writes ++ [if env.ipcSend w.tick then .sent else .failed]
      rw [hsent]
      have hclean : Write.failed ∉ w.writes := hw.2 hrunning
      simpa using hclean
    · have hsent : env.ipcSend w.tick = false := Bool.not_eq_true _ |>.mp hsent
      refine ⟨hw.1.append _, ?_⟩
      refine Health.Faulty.last (h := { w.health with tick := w.tick + 1 }) ?_
      rw [hsent]
      exact nofun

theorem sendsAt_unencoded {w : WorkerState} (hw : w.health.Ok) :
    Settles WorkerState.health (Health.Step env permits) (fun w => w.health.Ok)
      (fun w => w.health.Kept ∧ w.health.Faulty) w (do recordWrite .unencoded; pure false) (· = true) := by
  refine ⟨.single .unencoded, nofun, fun _ => ⟨hw.1.append _, ?_⟩⟩
  exact Health.Faulty.last (h := w.health) nofun

theorem sends_sendFrame (bufferSize : Nat) (p : Payload) (event : UInt64 → Event) :
    Sends env permits (sendFrame env bufferSize p event) := by
  unfold sendFrame
  split
  · exact fun w hw => sendsAt_unencoded hw
  · intro w hw
    refine Settles.bind (P := fun _ => True) ⟨.refl, fun _ => hw, fun hp => (hp trivial).elim⟩
      (fun _ t _ ht => ?_) fun _ _ h => (h trivial).elim
    refine (sends_guardedIpcSend t ht).bind (fun header u hheader hu => ?_) fun header u hheader hu => ?_
    · rw [if_pos hheader]
      refine (sends_guardedIpcSend u hu).bind (fun payload v hpayload hv => ?_) fun payload v hpayload hv => ?_
      · exact ⟨by subst hpayload; exact .refl, fun _ => by subst hpayload; exact hv, fun hp => (hp hpayload).elim⟩
      · rw [Bool.not_eq_true] at hpayload
        subst hpayload
        exact ⟨.refl, nofun, fun _ => hv⟩
    · rw [if_neg hheader]
      exact ⟨.refl, nofun, fun _ => hu⟩

theorem sends_sendPayload (bufferSize : Nat) (p : Payload) : Sends env permits (sendPayload env bufferSize p) := by
  unfold sendPayload
  exact sends_sendFrame _ _ _

theorem sends_sendError (sessionId : SessionId) (code : UInt32) (recoverable : UInt8) (message : Bytes) :
    Sends env permits (sendError env sessionId code recoverable message) := by
  unfold sendError
  exact sends_sendPayload _ _

theorem heeds_sendStatus (sessionId : SessionId) (sessionActive paused : Bool) :
    Heeds env permits (sendStatus env config sessionId sessionActive paused) (· = true) :=
  .andThen (heeds_ask _) fun _ => .andThen (heeds_ask _) fun _ => .andThen (heeds_ask _) fun _ =>
    .get_bind fun w hw => (sends_sendPayload _ _).heeds w hw

theorem heeds_reportStatus : Heeds env permits (reportStatus env config) fun _ => True :=
  .get_bind fun w hw => heeds_orFatal (heeds_sendStatus _ _ _) w hw

theorem heeds_sendCaptionSegment (c : Caption) : Heeds env permits (sendCaptionSegment env c) (· = true) := by
  have hlost (sent : Bool) (w : WorkerState) :
      ((onlyIf (!sent) (record [.lost c])).run w).2.health = w.health := by
    cases sent <;> rfl
  refine (sends_sendFrame _ _ _).heeds.bind (fun sent hsent => ?_) fun sent t hsent ht => ?_
  · subst hsent
    exact .andThen (.pure trivial) fun _ => .pure rfl
  · rw [Bool.not_eq_true] at hsent
    subst hsent
    exact ⟨.refl, nofun, fun _ => ht⟩

/-! ## The translator -/

/-- All of `Ok` but for what the next delivery restores. -/
def Health.Weak (h : Health) : Prop := (h.transport.failed = true → h.Faulty) ∧ h.Idle ∧ h.Clean

theorem Health.Ok.weak {h : Health} (hok : h.Ok) : h.Weak := ⟨hok.1.1, hok.1.2.2, hok.2⟩

theorem health_translator (w : WorkerState) (f : TranslateAsync → TranslateAsync) :
    { w with translator := w.translator.map f }.health = w.health := by
  unfold WorkerState.health
  rw [Option.isSome_map]

theorem health_some {w : WorkerState} {t t' : TranslateAsync} (h : w.translator = some t) :
    { w with translator := some t' }.health = w.health := by
  unfold WorkerState.health
  rw [h]
  rfl

theorem heeds_runThreads : Heeds env permits (runThreads env) fun _ => True := by
  intro w hw
  have hview : ((runThreads env).run w).2.health = { w.health with tick := w.tick + 1 } :=
    health_translator { w with tick := w.tick + 1 } _
  refine ⟨?_, fun _ => ?_, fun hp => (hp trivial).elim⟩
  · rw [hview]
    exact .single .ask
  · show ((runThreads env).run w).2.health.Ok
    rw [hview]
    exact hw

theorem markTransportFailed_marks (env : Env) (permits : Bool → Prop) {w : WorkerState} (hkept : w.health.Kept) (hfaulty : w.health.Faulty) :
    Ends markTransportFailed w fun _ v =>
      ReflTransGen (Health.Step env permits) w.health v.health ∧ v.health.Kept ∧ v.health.Faulty ∧
        (w.transport.registered = true → v.running = false) := by
  have hmark : Health.Step env permits w.health { w.health with transport := ⟨w.transport.registered, true⟩ } :=
    .mark hfaulty
  refine Ends.modify_bind (Ends.get_bind ?_)
  unfold onlyIf
  split
  · exact ⟨.tail (.single hmark) (.stop true (.inl (.inl hfaulty))), ⟨fun _ => hfaulty, hkept.2⟩, hfaulty, fun _ => rfl⟩
  · rename_i hregistered
    exact ⟨.single hmark, ⟨fun _ => hfaulty, hkept.2⟩, hfaulty, fun h => (hregistered h).elim⟩

theorem heeds_deliverTranslation (r : TranslateResult) : Heeds env permits (deliverTranslation env r) fun _ => True :=
  .get_bind fun w hw => SettlesAll.onlyIf (heeds_orFatal (heeds_sendCaptionSegment _)) w hw

theorem heeds_diagDeliver (r : TranslateResult) : Heeds env permits (diagDeliver env r) fun _ => True := by
  refine .get_bind fun w hw => ?_
  split
  · refine SettlesAll.ite (fun v hv => ?_) (heeds_deliverTranslation r) w hw
    refine HeedsAt.of_sends ?_
    refine (sends_sendError _ _ _ _ v hv).bind (fun sent t hsent ht => ?_) fun sent t hsent ht => ?_
    · rw [if_pos hsent]
      exact (heeds_deliverTranslation r t ht).total
    · rw [if_neg hsent]
      obtain ⟨hsteps, hkept, hfaulty, -⟩ := markTransportFailed_marks env permits ht.1 ht.2
      refine ⟨?_, fun _ => ⟨hkept, fun hrunning => (Bool.false_ne_true hrunning).elim⟩, fun hp => (hp trivial).elim⟩
      exact hsteps.tail (.stop true (.inl (.inl hfaulty)))
  · exact heeds_deliverTranslation r w hw

/-- A look at the translator's results registers the transport. -/
theorem heedsAt_tryDeliverScoped {w : WorkerState} (hw : w.health.Weak) :
    HeedsAt env permits w (tryDeliverScoped env) fun _ => True := by
  unfold tryDeliverScoped
  have hfailed (h : (w.transport.registered && w.transport.failed) = true) : w.health.Faulty :=
    hw.1 (Bool.and_eq_true _ _ |>.mp h).2
  have hregister : HeedsAt env permits w
      (modify fun w => { w with transport := ⟨true, w.transport.registered && w.transport.failed⟩ }) fun _ => True :=
    ⟨.single .register, fun _ => ⟨⟨hfailed, fun _ _ => rfl, hw.2.1⟩, hw.2.2⟩, fun hp => (hp trivial).elim⟩
  refine hregister.andThen fun _ t ht => SettlesAll.get_bind (fun u hu => ?_) t ht
  by_cases hbad : u.transport.failed = true
  · rw [if_pos hbad]
    exact heedsAt_stop_then ⟨hu.1, .inl (hu.1.1 hbad)⟩ true _
  · rw [if_neg hbad]
    refine (heeds_runThreads u hu).andThen fun _ v hv => SettlesAll.get_bind (fun x hx => ?_) v hv
    split
    · exact .pure hx trivial
    · rename_i t ht
      refine (heedsAt_modify hx (health_some ht)).andThen fun _ y hy => ?_
      split
      · exact .pure hy trivial
      · exact (heeds_diagDeliver _ y hy).andThen fun _ z hz => .pure hz trivial

theorem heeds_tryDeliverScoped : Heeds env permits (tryDeliverScoped env) fun _ => True :=
  fun _ hw => heedsAt_tryDeliverScoped hw.weak

/-- A round of the delivery loop. -/
def deliverRound (env : Env) : Loop (Option Unit) := do
  let delivered ← tryDeliverScoped env
  pure (if delivered then none else some ())

theorem heedsAt_deliverRound {w : WorkerState} (hw : w.health.Weak) :
    HeedsAt env permits w (deliverRound env) fun _ => True :=
  (heedsAt_tryDeliverScoped hw).andThen fun _ _ ht => .pure ht trivial

theorem heedsAt_deliverResults {w : WorkerState} (hw : w.health.Weak) :
    HeedsAt env permits w (deliverResults env) fun _ => True := by
  unfold deliverResults
  refine Settles.get_bind ?_
  split
  · rename_i hnone
    refine Settles.pure ⟨⟨hw.1, fun _ h => ?_, hw.2.1⟩, hw.2.2⟩ trivial
    have h : w.translator.isSome = true := h
    rw [hnone] at h
    cases h
  · -- the first round registers the transport
    refine Settles.andThen ?_ fun _ _ ht => .pure ht trivial
    rw [loop]
    refine (heedsAt_deliverRound hw).andThen fun r t ht => ?_
    cases r with
    | some a => exact .pure ht trivial
    | none => exact SettlesAll.loop (P := fun _ => True) (fun w hw => heedsAt_deliverRound hw.weak) trivial _ t ht

theorem heeds_deliverResults : Heeds env permits (deliverResults env) fun _ => True :=
  fun _ hw => heedsAt_deliverResults hw.weak

/-- A round of the drain. -/
def drainRound (env : Env) : Loop (Option Unit) := do
  let running ← loadRunning env
  if !running then pure (some ())
  else do
    runThreads env
    let w ← get
    if w.hasPending then do
      let _ ← tryDeliverScoped env
      pure none
    else do
      record [.drained]
      pure (some ())

theorem heeds_drainRound : Heeds env permits (drainRound env) fun _ => True := by
  refine .andThen heeds_loadRunning fun running => .ite (.pure trivial) (.andThen heeds_runThreads fun _ => ?_)
  refine .get_bind fun w hw => SettlesAll.ite (.andThen heeds_tryDeliverScoped fun _ => .pure trivial) ?_ w hw
  exact .andThen (heeds_modify fun _ => rfl) fun _ => .pure trivial

theorem heeds_drainTranslation : Heeds env permits (drainTranslation env) fun _ => True :=
  .andThen (heeds_ask _) fun polls => .andThen (.loop (P := fun _ => True) heeds_drainRound trivial polls) fun _ =>
    .pure trivial

/-! ## Emission -/

/-- A refused cue that cannot be blamed ends the worker. -/
theorem heedsAt_blameRefusal {w : WorkerState} (hw : w.health.Ok) (henabled : w.translateEnabled = true)
    (htranslator : w.translator.isSome = true) (c : Caption) :
    HeedsAt env permits w (blameRefusal env c) fun _ => True := by
  have hreport : Sends env permits (reportLocalRejection env c) := by
    refine .get_bind fun v hv => ?_
    split
    · exact sendsAt_unencoded hv
    · exact sends_sendError _ _ _ _ v hv
  refine HeedsAt.of_sends ?_
  refine (hreport w hw).bind_ends (reportLocalRejection_ends c w) (fun reported t _ hreported ht => ?_)
    fun reported t hends hreported ht => ?_
  · rw [if_pos hreported]
    exact .pure ht trivial
  · rw [if_neg hreported]
    obtain ⟨events, hcore, -⟩ := hends
    have hregistered : t.transport.registered = true := by
      refine ht.1.2.1 ?_ ?_
      · exact (congrArg Core.translateEnabled hcore).trans henabled
      · exact (congrArg (fun c => c.translator.isSome) hcore).trans htranslator
    obtain ⟨hsteps, hkept, -, hstopped⟩ := markTransportFailed_marks env permits ht.1 ht.2
    refine ⟨hsteps, fun _ => ⟨hkept, fun hrunning => ?_⟩, fun hp => (hp trivial).elim⟩
    exact (Bool.false_ne_true ((hstopped hregistered).symm.trans hrunning)).elim

theorem heedsAt_submitScoped {w : WorkerState} (hw : w.health.Ok) (henabled : w.translateEnabled = true) (c : Caption) :
    HeedsAt env permits w (submitScoped env c) fun _ => True := by
  unfold submitScoped
  refine Settles.get_bind ?_
  by_cases hbad : (w.transport.registered && w.transport.failed) = true
  · rw [if_pos hbad]
    have h : Heeds env permits (record [.lost c]) fun _ => True := heeds_modify fun _ => rfl
    exact h.andThen (fun _ => .pure trivial) w hw
  · rw [if_neg hbad]
    refine (heeds_runThreads w hw).bind_ends (E := fun _ t => t.translateEnabled = true) henabled
      (fun _ t henabled _ ht => Settles.get_bind ?_) fun _ _ _ h => (h trivial).elim
    split
    · exact Settles.pure ht trivial
    · rename_i t' ht'
      dsimp only
      refine (heedsAt_modify ht (health_some ht')).bind_ends (E := fun _ u => u.translateEnabled = true ∧
        u.translator.isSome = true) ⟨henabled, rfl⟩ (fun _ u hu _ hok => ?_) fun _ _ _ h => (h trivial).elim
      exact .ite (.pure hok trivial) (heedsAt_blameRefusal hok hu.1 hu.2 c)

theorem heeds_emitSegment (cue : Cue) (attempted : Bool) : Heeds env permits (emitSegment env cue attempted) (· = true) := by
  refine .get_bind fun w hw => ?_
  dsimp only
  split
  · rename_i hoffer
    simp only [Bool.and_eq_true] at hoffer
    refine (heedsAt_submitScoped hw hoffer.1.1 _).andThen fun submitted t ht => ?_
    exact .ite (.pure ht rfl) (heeds_sendCaptionSegment _ t ht)
  · exact heeds_sendCaptionSegment _ w hw

theorem heeds_popSegment : Heeds env permits popSegment fun _ => True := by
  refine .get_bind fun w hw => ?_
  split
  · exact .pure hw trivial
  · exact (heedsAt_modify hw rfl).andThen fun _ t ht => .pure ht trivial

theorem heeds_emitRound : Heeds env permits (emitRound env) fun _ => True := by
  refine .andThen heeds_popSegment fun popped => ?_
  cases popped with
  | none => exact .pure trivial
  | some cue => exact .andThen (heeds_orFatal (heeds_emitSegment _ _)) fun _ => .pure trivial

theorem heeds_emitSegments : Heeds env permits (emitSegments env) fun _ => True :=
  .get_bind fun w hw => SettlesAll.andThen (.loop (P := fun _ => True) heeds_emitRound trivial _) (fun _ => .pure trivial) w hw

/-! ## Loops that end -/

theorem count_of_pop {b b' : SegmentBuilder} {cue : Cue} (h : b.pop = some (cue, b')) :
    b'.queue.count < b.queue.count := by
  rw [SegmentBuilder.pop] at h
  cases hpop : b.queue.pop with
  | none =>
    rw [hpop] at h
    cases h
  | some r =>
    rw [hpop] at h
    obtain ⟨-, rfl⟩ := Prod.mk.inj (Option.some.inj h)
    have hcount := congrArg List.length (Ring.toList_of_pop_eq_some (r := b.queue) (x := r.1) (s := r.2) hpop)
    rw [List.length_cons, Ring.length_toList, Ring.length_toList] at hcount
    show r.2.count < _
    omega

theorem emitTailSegments_isSome (attempted : Bool) (w : WorkerState) :
    ((loop (w.builder.queue.count + 1) (tailRound env attempted)).run w).1.isSome = true := by
  refine loop_isSome (fun w => w.builder.queue.count) (fun w => ?_) (Nat.lt_succ_self _)
  refine (popSegment_ends w).bind (Q := fun r v => r = none → v.builder.queue.count < w.builder.queue.count)
    fun popped v hv => ?_
  cases popped with
  | none => exact nofun
  | some cue =>
    obtain ⟨b, hpop, rfl⟩ := hv
    intro _
    have hkeeps : ((emitSegment env cue attempted).run (w.holding cue b)).2.builder = (w.holding cue b).builder :=
      ((spares_emitSegment cue attempted).comp WorkerState.builder).eq _
    show ((emitSegment env cue attempted).run _).2.builder.queue.count < _
    rw [hkeeps]
    exact count_of_pop hpop

theorem settles_getD {bad : WorkerState → Prop} {w : WorkerState} {m : Loop (Option Bool)}
    (hm : Settles WorkerState.health (Health.Step env permits) (fun w => w.health.Ok) bad w m (· ≠ some false))
    (hsome : (m.run w).1.isSome = true) :
    Settles WorkerState.health (Health.Step env permits) (fun w => w.health.Ok) bad w
      (do let r ← m; pure (r.getD false)) (· = true) := by
  have hsame : Ends m w fun a _ => a ≠ some false ↔ a = some true := by
    show (m.run w).1 ≠ some false ↔ (m.run w).1 = some true
    obtain ⟨b, hb⟩ := Option.isSome_iff_exists.mp hsome
    rw [hb]
    cases b <;> simp
  refine (hm.sharpen hsame).bind (fun r t hr ht => ?_) fun r t hr ht => ?_
  · subst hr
    exact .pure ht rfl
  · refine ⟨.refl, fun hr' => (hr ?_).elim, fun _ => ht⟩
    exact (Option.getD_eq_iff.mp hr').resolve_right (fun h => Bool.false_ne_true h.2)

theorem heeds_tailRound (attempted : Bool) : Heeds env permits (tailRound env attempted) (· ≠ some false) := by
  refine .andThen heeds_popSegment fun popped => ?_
  cases popped with
  | none => exact .pure (by simp)
  | some cue =>
    refine (heeds_emitSegment cue attempted).bind (fun sent hsent => ?_) fun sent t hsent ht => ?_
    · subst hsent
      exact .pure nofun
    · rw [Bool.not_eq_true] at hsent
      subst hsent
      exact ⟨.refl, fun h => (h rfl).elim, fun _ => ht⟩

theorem heeds_emitTailSegments : Heeds env permits (emitTailSegments env) (· = true) :=
  .get_bind fun w hw => settles_getD (SettlesAll.loop (heeds_tailRound w.translateEnabled) nofun _ w hw) (emitTailSegments_isSome _ w)

/-! ## Transcription -/

theorem hears_transcribeWindow (window : List SessionId) (windowPtsUs : Int) (limitUs : Option Int) :
    Hears env permits (transcribeWindow env window windowPtsUs limitUs) (· = true) := by
  unfold transcribeWindow
  refine SettlesAll.bind (P := (· ≠ none)) (hears_call_of fun w n hn => ?_) (fun segs hsegs => ?_) fun segs t hsegs ht => ?_
  · exact .inr (.inr (.inl ⟨n, not_not.mp hn⟩))
  · cases segs with
    | none => exact (hsegs rfl).elim
    | some segs =>
      exact .andThen (heeds_ask _).total fun memory => .andThen (heeds_modify fun _ => rfl) fun _ => .pure rfl
  · obtain rfl := not_not.mp hsegs
    exact ⟨.refl, nofun, fun _ => ht⟩

theorem transcribeWindow_audioBuf (window : List SessionId) (windowPtsUs : Int) (limitUs : Option Int) (w : WorkerState) :
    ((transcribeWindow env window windowPtsUs limitUs).run w).2.audioBuf = w.audioBuf := by
  have hkeeps : Keeps WorkerState.audioBuf (transcribeWindow env window windowPtsUs limitUs) := by
    have hask {γ : Type} (answer : Nat → γ) : Keeps WorkerState.audioBuf (ask answer) := fun _ => .of_eq rfl
    have hcall {γ : Type} (answer : Nat → γ) : Keeps WorkerState.audioBuf (call .whisper answer) := fun _ => .of_eq rfl
    refine (hcall _).bind fun segs => ?_
    cases segs with
    | none => exact .pure _
    | some segs => exact (hask _).bind fun memory => .bind (.modify_of_eq fun _ => rfl) fun _ => .pure _
  exact hkeeps.eq w

theorem heeds_drainAudio (samples : Nat) : Heeds env permits (drainAudio samples) fun _ => True := by
  intro w hw
  refine heedsAt_session hw rfl fun hengine => ⟨(hw.1.2.2 hengine).1, ?_⟩
  have hnone : decide (0 < w.audioBuf.count) = false := (hw.1.2.2 hengine).2
  rw [AudioBuffer.count_drain]
  simp only [decide_eq_false_iff_not] at hnone ⊢
  omega

/-- At the end of the input there is always something to decide. -/
theorem findChunkBoundary_eof {sampleCount : Nat} (hpos : 0 < sampleCount) (speech : Speech) :
    ∃ b, findChunkBoundary sampleCount true speech = some b ∧ 0 < b.cutSamples + b.silenceDrain := by
  obtain ⟨b, hb⟩ := Option.isSome_iff_exists.mp (findChunkBoundary_isSome hpos (.inl rfl) speech)
  refine ⟨b, hb, ?_⟩
  cases findChunkBoundary_valid hb with
  | cut n hn _ => exact hn
  | silence n hn => simpa using hn

theorem boundary_of_tail {w : WorkerState} (hcount : w.audioBuf.count ≠ 0) (speech : Speech) :
    ∃ b, findChunkBoundary (w.audioBuf.getSamples chunkMaxSamples).1.length true speech = some b ∧
      0 < b.cutSamples + b.silenceDrain := by
  refine findChunkBoundary_eof ?_ speech
  unfold AudioBuffer.getSamples
  rw [if_neg (by simpa [chunkMaxSamples] using hcount), List.length_take, AudioBuffer.length_toList, chunkMaxSamples]
  omega

theorem hears_flushRound : Hears env permits (flushRound env) (· ≠ some false) := by
  refine .get_bind fun w hw => ?_
  by_cases hcount : w.audioBuf.count = 0
  · rw [if_pos hcount]
    exact .pure hw (by simp)
  · rw [if_neg hcount]
    refine (heeds_detect _ env.speech w hw).total.andThen fun speech t ht => ?_
    obtain ⟨b, hb, hpos⟩ := boundary_of_tail hcount speech
    split
    · rename_i hnone
      cases hb.symm.trans hnone
    · rename_i b' hb'
      obtain rfl := Option.some.inj (hb.symm.trans hb')
      rw [if_neg (by simp; omega)]
      refine .ite (SettlesAll.andThen (heeds_drainAudio _).total (fun _ => .pure nofun) t ht) ?_
      refine (hears_transcribeWindow _ _ _ t ht).bind (fun transcribed u htrue hu => ?_) fun transcribed u hfalse hu => ?_
      · rw [if_pos htrue]
        exact SettlesAll.andThen (heeds_drainAudio _).total (fun _ => .pure nofun) u hu
      · rw [if_neg hfalse]
        exact ⟨.refl, fun h => (h rfl).elim, fun _ => hu⟩

theorem flushAudioTail_isSome (w : WorkerState) :
    ((loop (w.audioBuf.count + 1) (flushRound env)).run w).1.isSome = true := by
  refine loop_isSome (fun w => w.audioBuf.count) (fun w => ?_) (Nat.lt_succ_self _)
  have hdrain (u : WorkerState) (n : Nat) (hsame : u.audioBuf = w.audioBuf) (hpos : 0 < n) (hcount : w.audioBuf.count ≠ 0) :
      ((drainAudio n).run u).2.audioBuf.count < w.audioBuf.count := by
    show (u.audioBuf.drain n).count < _
    rw [AudioBuffer.count_drain, hsame]
    omega
  show Ends (flushRound env) w fun r v => r = none → v.audioBuf.count < w.audioBuf.count
  refine Ends.get_bind ?_
  by_cases hcount : w.audioBuf.count = 0
  · rw [if_pos hcount]
    exact nofun
  · rw [if_neg hcount]
    refine Ends.bind (m := detect _ env.speech) (P := fun _ t => t.audioBuf = w.audioBuf) rfl fun speech t ht => ?_
    split
    · exact nofun
    · rename_i b hb
      split
      · exact nofun
      · rename_i hzero
        simp only [Bool.and_eq_true, decide_eq_true_eq, not_and] at hzero
        split
        · rename_i hsilence
          exact fun _ => hdrain t _ ht hsilence hcount
        · rename_i hsilence
          have hkept (window : List SessionId) (windowPtsUs : Int) :
              Ends (transcribeWindow env window windowPtsUs none) t fun _ u => u.audioBuf = w.audioBuf :=
            (transcribeWindow_audioBuf window windowPtsUs none t).trans ht
          refine (hkept _ _).bind fun transcribed u hu => ?_
          cases transcribed with
          | false => exact nofun
          | true => exact fun _ => hdrain u _ hu (by omega) hcount

theorem hearsAt_flushAudioTail {w : WorkerState} (hw : w.health.Ok) (hengine : w.engine = true) :
    HearsAt env permits w (flushAudioTail env) (· = true) := by
  refine Settles.get_bind (Settles.ite_neg (by simp [hengine]) ?_)
  exact settles_getD (SettlesAll.loop hears_flushRound nofun _ w hw) (flushAudioTail_isSome w)

theorem heedsAt_tellAndStop_then {w : WorkerState} (hw : w.health.Ok ∧ w.health.Blamed env permits) {send : Loop Bool}
    (hsend : Sends env permits send) (a : α) {P : α → Prop} :
    HeedsAt env permits w (do let _ ← send; stopRunning true; pure a) P := by
  have hsend := hsend.heeds w hw.1
  refine hsend.bind_ends (E := fun _ t => t.health.Blamed env permits) (hw.2.steps hsend.1) (fun _ t hblamed _ ht => ?_)
    fun _ t _ _ ht => heedsAt_stop_then ht true a
  exact heedsAt_stop_then ⟨ht.1, hblamed⟩ true a

theorem heedsAt_tellAndStop {w : WorkerState} (hw : w.health.Ok ∧ w.health.Blamed env permits) {send : Loop Bool}
    (hsend : Sends env permits send) : HeedsAt env permits w (do let _ ← send; stopRunning true) fun _ => True := by
  have h := heedsAt_tellAndStop_then (P := fun _ => True) hw hsend PUnit.unit
  exact h

/-! ## START_SESSION -/

theorem health_beginSession (p : Start) (w : WorkerState) :
    (w.beginSession p).health = { w.health with sessionActive := true, hasAudio := false } :=
  health_translator { w.beginSession p with translator := w.translator } TranslateAsync.invalidate

theorem heeds_openSource (p : Start) : Heeds env permits (openSource env p) fun _ => True := by
  refine .ite ?_ (.andThen (heeds_modify fun _ => rfl) fun _ => .pure trivial)
  refine .andThen (heeds_call _ _) fun opened => .ite ?_ ?_
  · refine .andThen (heeds_modify fun _ => rfl) fun _ => .andThen (.onlyIf ?_) fun _ => .pure trivial
    exact .andThen (heeds_ask _) fun seeked => .onlyIf (heeds_modify fun _ => rfl)
  · exact .andThen (heeds_modify fun _ => rfl) fun _ => heeds_tell (sends_sendError _ _ _ _).heeds

theorem heeds_orFatal_sendError (sessionId : SessionId) (code : UInt32) (recoverable : UInt8) (message : Bytes) :
    Heeds env permits (orFatal (sendError env sessionId code recoverable message)) fun _ => True :=
  heeds_orFatal (sends_sendError _ _ _ _).heeds

theorem heeds_announce (sessionId : SessionId) :
    Heeds env permits (do
      let w ← get
      let started ← sendPayload env 17
        (.started ⟨sessionId, if w.sourceMode then sourceActiveActive else sourceActiveInactive⟩)
      if started then reportStatus env config else stopRunning true) fun _ => True := by
  refine .get_bind fun v hv => ?_
  refine ((sends_sendPayload _ _).heeds v hv).bind (fun started t hstarted ht => ?_) fun started t hstarted ht => ?_
  · rw [if_pos hstarted]
    exact heeds_reportStatus t ht
  · rw [if_neg hstarted]
    exact heedsAt_stop_of_bad ht true

theorem heeds_handleStart (p : Start) : Heeds env permits (handleStart env config p) fun _ => True := by
  refine .get_bind fun w hw => Settles.ite (heeds_orFatal_sendError _ _ _ _ w hw) ?_
  refine Settles.bind_ends (SettlesAll.onlyIf (heeds_end fun _ => rfl) w hw) (E := fun _ v => v.engine = w.engine) ?_
    (fun _ v hengine _ hv => ?_) fun _ _ _ h => (h trivial).elim
  · cases w.sessionActive <;> exact rfl
  refine .ite (heeds_orFatal_sendError _ _ _ _ v hv) ?_
  by_cases hmodel : w.engine = true
  · refine Settles.ite_neg (by simp [hmodel]) (.ite (heeds_orFatal_sendError _ _ _ _ v hv) ?_)
    refine (heedsAt_session hv (health_beginSession p v) fun hnone => ?_).andThen fun _ t ht => ?_
    · rw [hengine, hmodel] at hnone
      cases hnone
    · exact SettlesAll.andThen (heeds_openSource p) (fun goOn => .onlyIf (heeds_announce p.sessionId)) t ht
  · exact Settles.ite_pos (by simpa using hmodel) (heeds_orFatal_sendError _ _ _ _ v hv)

/-! ## POSITION -/

theorem health_invalidate (why : Reset) (w : WorkerState) : (w.invalidate why).health = w.health :=
  health_translator { w with trace := w.trace ++ [.invalidated why] } TranslateAsync.invalidate

theorem heeds_changePause (p : Position) : Heeds env permits (changePause env p) fun _ => True := by
  refine .andThen (heeds_modify fun _ => rfl) fun _ => .get_bind fun w hw => SettlesAll.ite (heeds_clear fun _ => by rfl) ?_ w hw
  exact .onlyIf (.andThen (heeds_ask _) fun seeked => .onlyIf (heeds_clear fun _ => rfl))

theorem heeds_followPause (p : Position) : Heeds env permits (followPause env config p) fun _ => True := by
  refine .get_bind fun w hw => SettlesAll.ite (.pure trivial) (.andThen (heeds_changePause p) fun _ => ?_) w hw
  exact .get_bind fun v hv => heeds_tell (heeds_sendStatus _ _ _) v hv

theorem heeds_seekTo (p : Position) : Heeds env permits (seekTo env p) fun _ => True := by
  refine .andThen (heeds_ask _) fun seeked => .ite (heeds_modify fun _ => rfl) (heeds_clear fun w => ?_)
  have h := health_invalidate .seek { w with seekFailedPending := false }
  show { ({ w with seekFailedPending := false }.invalidate .seek).health with hasAudio := false } = _
  rw [h]
  rfl

theorem heeds_followSource (p : Position) : Heeds env permits (followSource env p) fun _ => True := by
  refine .get_bind fun w hw => SettlesAll.andThen (.onlyIf (heeds_seekTo p)) (fun _ => .get_bind fun v hv => ?_) w hw
  exact SettlesAll.onlyIf (heeds_modify fun _ => by rfl) v hv

theorem heeds_handlePosition (p : Position) : Heeds env permits (handlePosition env config p) fun _ => True := by
  refine .get_bind fun w hw => SettlesAll.onlyIf (.andThen (heeds_followPause p) fun _ => .onlyIf ?_) w hw
  exact .get_bind fun v hv => SettlesAll.ite (heeds_followSource p) (heeds_modify fun _ => by rfl) v hv

/-! ## AUDIO_PCM -/

theorem hears_inferWindow (window : List SessionId) (windowPtsUs : Int) (growing : Bool) :
    Hears env permits (inferWindow env window windowPtsUs growing) (· = true) := by
  refine .get_bind fun w hw => Settles.ite (.pure hw rfl) ?_
  exact SettlesAll.andThen (heeds_detect _ _).total (fun speech => .ite (hears_transcribeWindow _ _ _) (.pure rfl)) w hw

theorem heeds_inferRound : Heeds env permits (inferRound env config) fun _ => True := by
  refine .get_bind fun w hw => SettlesAll.ite (.pure trivial) (fun v hv => ?_) w hw
  generalize w.audioBuf.getSamples (min w.audioBuf.count windowSamples) = samples
  refine HearsAt.heeds_bind (hears_inferWindow _ _ _ v hv) (fun inferred t hinferred ht => ?_) fun inferred t hinferred ht => ?_
  · refine Settles.ite_neg (by simp [hinferred]) (SettlesAll.ite ?_ ?_ t ht)
    · refine .andThen (heeds_modify fun _ => by simp only [WorkerState.health]) fun _ => ?_
      refine .andThen heeds_loadRunning fun running => ?_
      exact .andThen (.onlyIf heeds_reportStatus) fun _ => .pure trivial
    · refine .andThen heeds_loadRunning fun running => .ite (.pure trivial) (.andThen (heeds_modify fun _ => rfl) fun _ => ?_)
      exact .andThen (heeds_drainAudio _) fun _ => .andThen heeds_reportStatus fun _ => .pure trivial
  · refine Settles.ite_pos (by simp [hinferred]) ?_
    exact heedsAt_tellAndStop_then ht (sends_sendError _ _ _ _) _

theorem heeds_handleAudio (p : Audio) : Heeds env permits (handleAudio env config p) fun _ => True := by
  refine .get_bind fun w hw => Settles.onlyIf hw fun hguard => ?_
  simp only [Bool.and_eq_true] at hguard
  have hengine := engine_of_session hw (.inl hguard.1.1.1)
  refine .ite (heeds_clear (fun _ => rfl) w hw) (.onlyIf hw fun _ => ?_)
  refine (heedsAt_session hw rfl fun hnone => ?_).andThen fun _ t ht => ?_
  · rw [hengine] at hnone
    cases hnone
  · refine SettlesAll.get_bind (fun v hv => ?_) t ht
    exact SettlesAll.andThen (.loop (P := fun _ => True) heeds_inferRound trivial _) (fun _ => .pure trivial) v hv

/-! ## PAUSE, RESUME, STOP_SESSION -/

theorem heeds_handlePause (p : Control) : Heeds env permits (handlePause env config p) fun _ => True := by
  refine .get_bind fun w hw => SettlesAll.onlyIf (.andThen (heeds_clear fun w => ?_) fun _ => heeds_reportStatus) w hw
  exact health_invalidate .pause { w with paused := true }.clearPipeline

theorem heeds_handleResume (p : Control) : Heeds env permits (handleResume env config p) fun _ => True := by
  refine .get_bind fun w hw => SettlesAll.onlyIf (.andThen (heeds_modify fun _ => by rfl) fun _ => ?_) w hw
  refine SettlesAll.andThen (.onlyIf (.andThen (heeds_ask _) fun seeked => .onlyIf (heeds_clear fun w => ?_)))
    (fun _ => heeds_reportStatus)
  exact health_invalidate .resume ({ w with lastPlaybackPtsUs := w.currentPlaybackPtsUs }.reanchor w.currentPlaybackPtsUs)

theorem heedsAt_finishTail {w : WorkerState} (hw : w.health.Ok) (hengine : w.engine = true) (failure : Bytes)
    {afterwards : Loop Unit} (hafter : Heeds env permits afterwards fun _ => True) :
    HeedsAt env permits w (finishTail env failure afterwards) fun _ => True := by
  refine HearsAt.heeds_bind (hearsAt_flushAudioTail hw hengine) (fun flushed t hflushed ht => ?_)
    fun flushed t hflushed ht => ?_
  · refine Settles.ite_neg (by simp [hflushed]) ?_
    refine SettlesAll.bind heeds_emitTailSegments (fun sent hsent => ?_) (fun sent u hsent hu => ?_) t ht
    · subst hsent
      exact hafter
    · refine Settles.ite_pos (by simp [hsent]) ?_
      exact heedsAt_stop_of_bad hu true
  · refine Settles.ite_pos (by simp [hflushed]) (Settles.get_bind ?_)
    exact heedsAt_tellAndStop ht (sends_sendError _ _ _ _)

theorem hasTail_of_and {w : WorkerState} {c : Bool} (h : (c && decide (0 < w.audioBuf.count)) = true) :
    0 < w.audioBuf.count :=
  of_decide_eq_true (Bool.and_eq_true_iff.mp h).2

/-- A tail is only finished where there is one, and then there is a speech model. -/
theorem heedsAt_finishTailIf {w : WorkerState} (hw : w.health.Ok) {c : Bool} (hc : c = true → 0 < w.audioBuf.count)
    (failure : Bytes) {afterwards : Loop Unit} (hafter : Heeds env permits afterwards fun _ => True) :
    HeedsAt env permits w (onlyIf c (finishTail env failure afterwards)) fun _ => True :=
  .onlyIf hw fun h => heedsAt_finishTail hw (engine_of_session hw (.inr (hc h))) _ hafter

theorem heeds_drainIf (c : Bool) : Heeds env permits (drainIf env c) fun _ => True :=
  .ite heeds_drainTranslation (.pure trivial)

theorem health_endSession (w : WorkerState) :
    w.endSession.health = { w.health with sessionActive := false, hasAudio := false } :=
  health_translator { w.endSession with translator := w.translator } TranslateAsync.invalidate

theorem heeds_handleStop (p : Control) : Heeds env permits (handleStop env config p) (· ≠ .leave) := by
  refine .get_bind fun w hw => .ite (.pure hw nofun) ?_
  refine Settles.andThen (heedsAt_finishTailIf hw hasTail_of_and _ (.pure trivial)) fun _ t ht => ?_
  refine SettlesAll.andThen (heeds_drainIf _) (fun drained => ?_) t ht
  refine .ite (.pure nofun) (.andThen (heeds_end health_endSession) fun _ => .andThen heeds_loadRunning fun running => ?_)
  exact .andThen (.onlyIf (heeds_orFatal (heeds_sendStatus _ _ _))) fun _ => .pure nofun

/-! ## MODEL_CTRL -/

theorem heeds_sendModelProgress (sessionId : SessionId) (p : DownloadProgress) :
    Heeds env permits (orFatal (sendModelProgress env sessionId p)) fun _ => True := by
  unfold sendModelProgress
  exact heeds_orFatal (sends_sendPayload _ _).heeds

theorem heeds_handleModelCtrl (p : ModelCtrl) : Heeds env permits (handleModelCtrl env config p) fun _ => True := by
  have hrefuse (sessionId : SessionId) (modelId : Bytes) :
      Heeds env permits (refuseDownload env sessionId modelId) fun _ => True := heeds_sendModelProgress _ _
  have hactive : Heeds env permits (isDownloading env) fun _ => True :=
    .get_bind fun w hw => SettlesAll.ite (.andThen (heeds_ask _) fun cur => .pure trivial) (.pure trivial) w hw
  refine .get_bind fun w hw => SettlesAll.ite (.ite (hrefuse _ _) ?_) (.onlyIf (heeds_sendModelProgress _ _)) w hw
  refine .andThen hactive fun active => .ite (hrefuse _ _) ?_
  refine .andThen (.onlyIf (heeds_modify fun _ => rfl)) fun _ => .andThen (heeds_call _ _) fun started => ?_
  exact .andThen (heeds_modify fun _ => rfl) fun _ => .onlyIf (hrefuse _ _)

/-! ## SHUTDOWN, HELLO -/

theorem heeds_handleShutdown (hpermits : permits false) :
    Heeds env permits (handleShutdown env config) (· ≠ .leave) := by
  refine .get_bind fun w hw => ?_
  refine Settles.andThen (heedsAt_finishTailIf hw hasTail_of_and _ heeds_reportStatus) fun _ t ht => ?_
  refine SettlesAll.andThen (heeds_drainIf _) (fun drained => ?_) t ht
  refine .ite (.pure nofun) (.andThen (heeds_modify fun _ => rfl) fun _ => ?_)
  exact .andThen (fun v hv => heedsAt_stopRunning hv.1 (.inr hpermits)) fun _ => .pure nofun

theorem sends_sendHelloAck : Sends env permits (sendHelloAck env) := by
  unfold sendHelloAck
  split
  · exact fun w hw => sendsAt_unencoded hw
  · refine sends_guardedIpcSend.bind (fun header hheader => ?_) fun header t hheader ht => ?_
    · rw [if_pos hheader]
      refine sends_guardedIpcSend.bind (fun payload hpayload => ?_) fun payload t hpayload ht => ?_
      · subst hpayload
        exact .andThen (.onlyIf (heeds_modify fun _ => rfl)) fun _ => .pure rfl
      · rw [Bool.not_eq_true] at hpayload
        subst hpayload
        exact ⟨.refl, nofun, fun _ => ht⟩
    · rw [if_neg hheader]
      exact ⟨.refl, nofun, fun _ => ht⟩

theorem heeds_leave (hpermits : permits true) :
    Heeds env permits (do setFatalExit; pure Flow.leave) (· ≠ .leave) :=
  fun _ hw => ⟨.single (.refuse hpermits), fun h => (h rfl).elim, fun _ => ⟨hw.1, .inr (.inl hpermits)⟩⟩

/-- The worker takes this HELLO. -/
def Fits (config : Config) (p : Hello) : Prop :=
  (versionMajor < p.minMajor || p.maxMajor < versionMajor) = false ∧ p.authToken.bytes = config.authToken.bytes

theorem heeds_acknowledge :
    Heeds env permits (do let sent ← sendHelloAck env; if sent then pure .again else do stopRunning true; pure .leave)
      (· ≠ Flow.leave) := by
  refine sends_sendHelloAck.heeds.bind (fun sent hsent => ?_) fun sent t hsent ht => ?_
  · rw [if_pos hsent]
    exact .pure nofun
  · rw [if_neg hsent]
    exact heedsAt_stop_then ht true _

theorem heeds_handleHello {p : Payload} (haccepted : permits true ∨ ∃ h, p = .hello h ∧ Fits config h) :
    Heeds env permits (handleHello env config p) (· ≠ .leave) := by
  unfold handleHello
  split
  · rename_i p
    have hfits : permits true ∨ Fits config p := by
      rcases haccepted with hpermits | ⟨h, heq, hfits⟩
      · exact .inl hpermits
      · cases heq
        exact .inr hfits
    refine .cases (fun hversion => ?_) fun _ => .cases (fun htoken => ?_) fun _ => .andThen (fun w hw => ?_) fun _ => ?_
    · have hpermits : permits true := hfits.resolve_right fun h => Bool.false_ne_true (h.1.symm.trans hversion)
      refine .bind (sends_sendError _ _ _ _).heeds (fun _ _ => heeds_leave hpermits) fun _ t _ ht => ?_
      exact ⟨.single (.refuse hpermits), fun h => (h rfl).elim, fun _ => ht⟩
    · refine heeds_leave (hfits.resolve_right fun h => ?_)
      have hsame := verifyTokenConstantTime_iff.mpr (CArray.ext_bytes h.2.symm)
      rw [hsame] at htoken
      cases htoken
    · exact ⟨.single .authenticate, fun _ => hw, fun hp => (hp trivial).elim⟩
    · exact heeds_acknowledge
  · rename_i hhello
    refine heeds_leave (haccepted.resolve_right ?_)
    rintro ⟨h, rfl, -⟩
    exact hhello h rfl

theorem heeds_rejectFrame (hpermits : permits true) (p : Option Payload) :
    Heeds env permits (rejectFrame env p) (· ≠ .leave) := by
  have hleave : Heeds env permits (do setFatalExit; pure Flow.leave) (· ≠ .leave) := heeds_leave hpermits
  refine .get_bind fun w hw => ?_
  split
  · refine SettlesAll.ite (.bind (sends_sendError _ _ _ _).heeds (fun sent hsent => ?_) fun sent t hsent ht => ?_) hleave w hw
    · rw [if_pos hsent]
      exact .pure nofun
    · rw [if_neg hsent]
      exact ⟨.single (.refuse hpermits), fun h => (h rfl).elim, fun _ => ht⟩
  · exact hleave w hw

/-! ## Frames -/

/-- What a frame asks for, if it is accepted. -/
def Frame.request (f : Frame) : Option Payload :=
  match decodePayload f.type f.payload with
  | some p => if validatePayload p then some p else none
  | none => if f.type = .shutdown ∧ (f.payload.getD []).length = 0 then some .shutdown else none

theorem handleFrame_eq (f : Frame) :
    handleFrame env config f = match f.request with
      | some p => dispatch env config p
      | none => rejectFrame env (decodePayload f.type f.payload) := by
  unfold handleFrame Frame.request
  cases decodePayload f.type f.payload with
  | none =>
    dsimp only
    split <;> rfl
  | some p =>
    dsimp only
    split <;> rfl

/-- The frame is accepted by an authenticated worker, or it is the HELLO that authenticates one. -/
def Frame.Accepted (config : Config) (authenticated : Bool) (f : Frame) : Prop :=
  ∃ p, f.request = some p ∧ (authenticated = true ∨ ∃ h, p = .hello h ∧ Fits config h)

/-- The ways in which this frame ends the worker are permitted. -/
structure Permitted (config : Config) (permits : Bool → Prop) (w : WorkerState) (f : Frame) : Prop where
  accepted : permits true ∨ f.Accepted config w.authenticated
  shutdown : f.request = some .shutdown → permits false

/-- A handler of a frame ends so, in the worker's state and with its flow. -/
def FlowEnds (env : Env) (permits : Bool → Prop) (flow : Flow) (h : Health) : Prop :=
  match flow with
  | .proceed => h.Weak
  | .again | .hang => h.Ok
  | .leave => h.Bad env permits

/-- The handler heeds failures. -/
abbrev HandlesAt (env : Env) (permits : Bool → Prop) (w : WorkerState) (m : Loop Flow) : Prop :=
  Ends m w fun flow v => ReflTransGen (Health.Step env permits) w.health v.health ∧ FlowEnds env permits flow v.health

theorem HeedsAt.handles {w : WorkerState} {m : Loop Flow} (h : HeedsAt env permits w m (· ≠ .leave)) :
    HandlesAt env permits w m := by
  refine Ends.mono h fun flow v hend => ⟨hend.1, ?_⟩
  cases flow with
  | proceed => exact (hend.2.1 nofun).weak
  | again => exact hend.2.1 nofun
  | leave => exact hend.2.2 fun hp => hp rfl
  | hang => exact hend.2.1 nofun

theorem HandlesAt.of_heeds {w : WorkerState} {m : Loop Unit} (hm : Heeds env permits m fun _ => True) (hw : w.health.Ok) :
    HandlesAt env permits w (do m; pure .proceed) :=
  HeedsAt.handles ((hm w hw).andThen fun _ _ ht => .pure ht nofun)

/-- New settings may call for a translator whose transport is not registered yet. -/
theorem handles_handleTranslateCtrl {w : WorkerState} (hw : w.health.Ok) (p : TranslateCtrl) :
    HandlesAt env permits w (do handleTranslateCtrl p; pure .proceed) := by
  have hconfigure : (w.configureTranslation p).health = { w.health with translateEnabled := p.enabled != 0 } :=
    health_translator _ TranslateAsync.invalidate
  refine Ends.bind (P := fun _ v => ReflTransGen (Health.Step env permits) w.health v.health ∧ v.health.Weak) ?_
    fun _ v hv => show _ ∧ v.health.Weak from hv
  refine Ends.get_bind ?_
  unfold onlyIf
  split
  · show ReflTransGen _ w.health (w.configureTranslation p).health ∧ (w.configureTranslation p).health.Weak
    rw [hconfigure]
    exact ⟨.single (.configure _), hw.1.1, hw.1.2.2, hw.2⟩
  · exact ⟨.refl, hw.weak⟩

theorem handles_dispatch {w : WorkerState} (hw : w.health.Ok) (p : Payload)
    (haccepted : permits true ∨ w.authenticated = true ∨ ∃ h, p = .hello h ∧ Fits config h) (hshutdown : p = .shutdown → permits false) :
    HandlesAt env permits w (dispatch env config p) := by
  refine Ends.get_bind ?_
  by_cases hauth : w.authenticated = true
  · rw [if_neg (by simp [hauth])]
    split
    · exact HandlesAt.of_heeds (heeds_handleStart _) hw
    · exact HandlesAt.of_heeds (heeds_handlePosition _) hw
    · exact HandlesAt.of_heeds (heeds_handleAudio _) hw
    · exact HandlesAt.of_heeds (heeds_handlePause _) hw
    · exact HandlesAt.of_heeds (heeds_handleResume _) hw
    · exact HeedsAt.handles (heeds_handleStop _ w hw)
    · exact handles_handleTranslateCtrl hw _
    · exact HandlesAt.of_heeds (heeds_handleModelCtrl _) hw
    · exact HeedsAt.handles (heeds_handleShutdown (hshutdown rfl) w hw)
    · exact ⟨.refl, hw.weak⟩
  · rw [if_pos (by simpa using hauth)]
    exact HeedsAt.handles (heeds_handleHello (haccepted.imp_right fun h => h.resolve_left hauth) w hw)

theorem handles_handleFrame {w : WorkerState} (hw : w.health.Ok) {f : Frame} (hf : Permitted config permits w f) :
    HandlesAt env permits w (handleFrame env config f) := by
  rw [handleFrame_eq]
  split
  · rename_i p hp
    refine handles_dispatch hw p (hf.accepted.imp_right fun h => ?_) fun h => hf.shutdown (hp.trans (congrArg some h))
    obtain ⟨p', hp', h⟩ := h
    obtain rfl := Option.some.inj (hp.symm.trans hp')
    exact h
  · rename_i hnone
    refine HeedsAt.handles (heeds_rejectFrame (hf.accepted.resolve_right fun h => ?_) _ w hw)
    obtain ⟨p, hp, -⟩ := h
    cases hnone.symm.trans hp

/-! ## The rest of a round -/

theorem heeds_pollModelDownload : Heeds env permits (pollModelDownload env) fun _ => True := by
  refine .get_bind fun w hw => SettlesAll.onlyIf (.andThen (heeds_ask _) fun answer => ?_) w hw
  cases answer with
  | none => exact .pure trivial
  | some p =>
    refine .andThen (heeds_ask _) fun nowUs => .andThen (.onlyIf ?_) fun _ => .onlyIf (heeds_modify fun _ => rfl)
    exact .andThen (heeds_sendModelProgress _ _) fun _ => heeds_modify fun _ => rfl

theorem hearsAt_transcribeChunk {w : WorkerState} (hw : w.health.Ok) (hengine : w.engine = true) (chunk : List SessionId)
    (ptsUs : Int) : HearsAt env permits w (transcribeChunk env chunk ptsUs) (· = true) :=
  Settles.get_bind (Settles.ite_pos hengine (hears_transcribeWindow _ _ _ w hw))

theorem heeds_chunkRound : Heeds env permits (chunkRound env config) fun _ => True := by
  refine .get_bind fun w hw => ?_
  by_cases hmore : (!(chunkMinSamples ≤ w.audioBuf.count || (w.sourceEof && 0 < w.audioBuf.count))) = true
  · exact Settles.ite_pos hmore (.pure hw trivial)
  have hengine : w.engine = true := by
    refine engine_of_session hw (.inr ?_)
    simp only [Bool.not_eq_true', Bool.not_eq_false, Bool.or_eq_true, Bool.and_eq_true, decide_eq_true_eq] at hmore
    rcases hmore with hcount | hcount
    · exact Nat.lt_of_lt_of_le (by decide) hcount
    · exact hcount.2
  refine Settles.ite_neg hmore ?_
  generalize w.audioBuf.getSamples chunkMaxSamples = samples
  refine (heeds_detect _ env.speech w hw).bind_ends (E := fun _ t => t.engine = true) hengine (fun speech t hengine _ ht => ?_)
    fun _ _ _ h => (h trivial).elim
  split
  · exact .pure ht trivial
  · rename_i b hb
    refine .ite (SettlesAll.andThen (heeds_drainAudio _) (fun _ => .pure trivial) t ht) (.ite ?_ (.pure ht trivial))
    refine HearsAt.heeds_bind (hearsAt_transcribeChunk ht hengine _ _) (fun transcribed u htranscribed hu => ?_)
      fun transcribed u htranscribed hu => ?_
    · refine Settles.ite_neg (by simp [htranscribed]) (SettlesAll.andThen heeds_loadRunning (fun running => ?_) u hu)
      refine .ite (.pure trivial) (.andThen (heeds_drainAudio _) fun _ => ?_)
      exact .andThen heeds_reportStatus fun _ => .pure trivial
    · refine Settles.ite_pos (by simp [htranscribed]) ?_
      exact heedsAt_tellAndStop_then hu (sends_sendError _ _ _ _) _

theorem health_abandonSource (w : WorkerState) :
    w.abandonSource.health = { w.health with sessionActive := false, hasAudio := false } :=
  health_translator { w.abandonSource with translator := w.translator } TranslateAsync.invalidate

theorem heeds_lookahead : Heeds env permits (lookahead env config) (· ≠ .leave) := by
  refine .get_bind fun w hw => ?_
  by_cases hwants : w.wantsLookahead = true
  swap
  · exact Settles.ite_pos (by simpa using hwants) (.pure hw nofun)
  have hengine : w.engine = true := by
    unfold WorkerState.wantsLookahead at hwants
    simp only [Bool.and_eq_true] at hwants
    exact engine_of_session hw (.inl hwants.1.1.1.1.1)
  refine Settles.ite_neg (by simp [hwants]) ?_
  refine (heeds_call .readSource env.readSource w hw).bind_ends (E := fun _ t => t.engine = true) hengine
    (fun answer t hengine _ ht => ?_) fun _ _ _ h => (h trivial).elim
  cases answer with
  | ok samples ptsUs =>
    refine .ite ?_ (.pure ht nofun)
    refine (heedsAt_session ht rfl fun hnone => ?_).andThen fun _ u hu => ?_
    · rw [hengine] at hnone
      cases hnone
    · refine SettlesAll.get_bind (fun v hv => ?_) u hu
      exact SettlesAll.andThen (.loop (P := fun _ => True) heeds_chunkRound trivial _) (fun _ => .pure nofun) v hv
  | again => exact .pure ht nofun
  | eof =>
    refine (heedsAt_modify ht rfl).bind_ends (E := fun _ u => u.engine = true) hengine (fun _ u hengine _ hu => ?_)
      fun _ _ _ h => (h trivial).elim
    refine HearsAt.heeds_bind (hearsAt_flushAudioTail hu hengine) (fun flushed v hflushed hv => ?_)
      fun flushed v hflushed hv => ?_
    · refine Settles.ite_neg (by simp [hflushed]) ?_
      exact heeds_reportStatus.andThen (fun _ => .pure nofun) v hv
    · refine Settles.ite_pos (by simp [hflushed]) ?_
      exact heedsAt_tellAndStop_then hv (sends_sendError _ _ _ _) _
  | error =>
    refine SettlesAll.andThen (heeds_orFatal_sendError _ _ _ _) (fun _ => ?_) t ht
    exact .andThen (heeds_end health_abandonSource) fun _ => .pure nofun

theorem heeds_finish {w : WorkerState} {flow : Flow} (hok : flow ≠ .leave → w.health.Ok)
    (hbad : ¬ flow ≠ .leave → w.health.Bad env permits) : HeedsAt env permits w (finish flow) fun _ => True := by
  cases flow with
  | proceed => exact .pure (hok nofun) trivial
  | again => exact .pure (hok nofun) trivial
  | leave => exact (heedsAt_stop_of_bad (hbad fun hp => hp rfl) false).andThen fun _ _ ht => heedsAt_modify ht rfl
  | hang => exact heedsAt_modify (hok nofun) rfl

/-- What follows the frame of a round. -/
def afterFrame (env : Env) (config : Config) (flow : Flow) : Loop Unit := do
  let flow ← andThen flow do
    deliverResults env
    pollModelDownload env
    let flow ← lookahead env config
    andThen flow do
      emitSegments env
      deliverResults env
      pure .proceed
  finish flow

theorem heeds_afterFrame {w : WorkerState} {flow : Flow} (hflow : FlowEnds env permits flow w.health) :
    HeedsAt env permits w (afterFrame env config flow) fun _ => True := by
  have hrest : Heeds env permits (do
      pollModelDownload env
      let flow ← lookahead env config
      andThen flow (do emitSegments env; deliverResults env; pure .proceed)) (· ≠ .leave) := by
    refine .andThen heeds_pollModelDownload fun _ => .bind heeds_lookahead (fun flow hflow => .ite ?_ (.pure hflow)) ?_
    · exact .andThen heeds_emitSegments fun _ => .andThen heeds_deliverResults fun _ => .pure nofun
    · intro flow t hflow ht
      obtain rfl : flow = .leave := not_not.mp hflow
      exact ⟨.refl, fun h => (h rfl).elim, fun _ => ht⟩
  have hgo : HeedsAt env permits w (andThen flow (do
      deliverResults env
      pollModelDownload env
      let flow ← lookahead env config
      andThen flow (do emitSegments env; deliverResults env; pure .proceed))) (· ≠ .leave) := by
    cases flow with
    | proceed => exact (heedsAt_deliverResults hflow).andThen fun _ t ht => hrest t ht
    | again => exact .pure hflow nofun
    | leave => exact ⟨.refl, fun h => (h rfl).elim, fun _ => hflow⟩
    | hang => exact .pure hflow nofun
  have hfinish := heeds_finish hgo.2.1 hgo.2.2
  exact ⟨hgo.1.trans hfinish.1, hfinish.2⟩

theorem handles_handleNext {w : WorkerState} (hw : w.health.Ok) {frame : Option Frame}
    (hframe : ∀ f ∈ frame, Permitted config permits w f) : HandlesAt env permits w (handleNext env config frame) := by
  cases frame with
  | none => exact ⟨.refl, hw.weak⟩
  | some f => exact handles_handleFrame hw (hframe f rfl)

/-- A whole round of a running worker. -/
theorem heeds_round {w : WorkerState} (hw : w.health.Ok) {frame : Option Frame}
    (hframe : ∀ f ∈ frame, Permitted config permits w f) :
    HeedsAt env permits w (do let flow ← iterate env config frame; finish flow) fun _ => True := by
  have hnext : HandlesAt env permits w (handleNext env config frame) := handles_handleNext hw hframe
  have hafter : HeedsAt env permits ((handleNext env config frame).run w).2
      (afterFrame env config ((handleNext env config frame).run w).1) fun _ => True := heeds_afterFrame hnext.2
  exact ⟨hnext.1.trans hafter.1, hafter.2⟩

theorem heeds_awake (frame : Option Frame) : Heeds env permits (awake env frame) fun _ => True := by
  cases frame with
  | some f => exact .pure trivial
  | none => exact .andThen heeds_runThreads fun _ => .get_bind fun w hw => .pure hw trivial

theorem Health.Step.authenticated {h h' : Health} (hstep : Health.Step env permits h h') (hauth : h.authenticated = true) :
    h'.authenticated = true := by
  cases hstep with
  | authenticate => rfl
  | _ => exact hauth

theorem Permitted.steps {w v : WorkerState} {f : Frame} (hf : Permitted config permits w f)
    (hsteps : ReflTransGen (Health.Step env permits) w.health v.health) : Permitted config permits v f where
  accepted := hf.accepted.imp_right fun ⟨p, hp, h⟩ => ⟨p, hp, h.imp_left fun hauth =>
    steps_invariant (fun _ _ hauth hstep => Health.Step.authenticated hstep hauth) hsteps hauth⟩
  shutdown := hf.shutdown

/-- What follows the wait. -/
theorem round_ends {t : WorkerState} {running woken : Bool} (hrunning : running = t.running) (frame : Option Frame) :
    Ends (if !running then modify fun w => { w with finished := true } else
      onlyIf woken do
        let flow ← iterate env config frame
        finish flow) t fun _ v =>
      v.health = t.health ∨ t.running = true ∧
        v = ((do let flow ← iterate env config frame; finish flow : Loop Unit).run t).2 := by
  cases running with
  | false => exact .inl rfl
  | true =>
    cases woken with
    | false => exact .inl rfl
    | true => exact .inr ⟨hrunning.symm, rfl⟩

/-- The wait writes nothing, and the rest of the round needs a running worker. -/
theorem wake_ends (env : Env) (config : Config) (permits : Bool → Prop) {w : WorkerState} (hw : w.health.Ok) (frame : Option Frame) :
    Ends (wake env config frame) w fun _ v => ∃ t, ReflTransGen (Health.Step env permits) w.health t.health ∧
      t.health.Ok ∧ t.writes = w.writes ∧ (v.health = t.health ∨ t.running = true ∧
        v = ((do let flow ← iterate env config frame; finish flow : Loop Unit).run t).2) := by
  have hload (u : WorkerState) : Ends (loadRunning env) u fun running t => t.writes = u.writes ∧ running = t.running := by
    refine Ends.bind (m := ask env.readerFailed) (P := fun _ t => t.writes = u.writes) rfl fun failed t ht => ?_
    cases failed <;> exact ⟨ht, rfl⟩
  have hawake : Ends (awake env frame) w fun _ t => t.writes = w.writes := by
    cases frame <;> exact rfl
  have hsteps : HeedsAt env permits w (awake env frame) fun _ => True := heeds_awake frame w hw
  refine Ends.get_bind ?_
  unfold onlyIf
  split
  · refine Ends.bind (P := fun _ (t : WorkerState) => ReflTransGen (Health.Step env permits) w.health t.health ∧ t.health.Ok ∧
      t.writes = w.writes) ⟨hsteps.1, hsteps.2.1 trivial, hawake⟩ fun woken t ht => ?_
    obtain ⟨hsteps, hok, hwrites⟩ := ht
    have hsteps' : HeedsAt env permits t (loadRunning env) fun _ => True := heeds_loadRunning t hok
    refine Ends.bind (P := fun running (u : WorkerState) => ReflTransGen (Health.Step env permits) t.health u.health ∧ u.health.Ok ∧
      u.writes = t.writes ∧ running = u.running) ⟨hsteps'.1, hsteps'.2.1 trivial, hload t⟩ fun running u hu => ?_
    exact (round_ends hu.2.2.2 frame).mono fun _ _ hv =>
      ⟨u, hsteps.trans hu.1, hu.2.1, hu.2.2.1.trans hwrites, hv⟩
  · exact ⟨w, .refl, hw, rfl, .inl rfl⟩

/-- **A round of the main loop.** -/
theorem heeds_wake {w : WorkerState} (hw : w.health.Ok) {frame : Option Frame} (hframe : ∀ f ∈ frame, Permitted config permits w f) :
    HeedsAt env permits w (wake env config frame) fun _ => True := by
  obtain ⟨t, hsteps, hok, -, hv⟩ := wake_ends env config permits hw frame
  rcases hv with hsame | ⟨-, hround⟩
  · refine ⟨?_, fun _ => ?_, fun hp => (hp trivial).elim⟩
    · rw [hsame]
      exact hsteps
    · show ((wake env config frame).run w).2.health.Ok
      rw [hsame]
      exact hok
  · have hends : HeedsAt env permits t (do let flow ← iterate env config frame; finish flow) fun _ => True :=
      heeds_round hok fun f hf => (hframe f hf).steps hsteps
    refine ⟨?_, fun _ => ?_, fun hp => (hp trivial).elim⟩
    · rw [hround]
      exact hsteps.trans hends.1
    · show ((wake env config frame).run w).2.health.Ok
      rw [hround]
      exact hends.2.1 trivial

end VlcWhisper.Worker
