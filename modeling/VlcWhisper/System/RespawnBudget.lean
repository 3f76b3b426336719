import VlcWhisper.Lib.Machine
import VlcWhisper.Plugin.ClientWrites
import VlcWhisper.Plugin.SenderLoop
import VlcWhisper.System.ModelProgress

/-!
# The budget of respawns (`vw_whisper_module.c`)

A worker whose transport dies is replaced at most three times. Many causes set the flag that says so. Main result:
`respawn_budget`. If no request for a model is refused before it is sent, and no seek's restart is refused over a
transport that works, then by the time a respawn is counted, or the loop ends, the transport has failed or the worker
has reported an error that it cannot recover from, since its last launch; and never more than three are counted.
-/

namespace VlcWhisper.System

open VlcWhisper.Lib VlcWhisper.Protocol VlcWhisper.Plugin VlcWhisper.Plugin.Sender

variable {α : Type}

/-! ## Causes -/

/-- The START that the client would send next meets, as its answer, an error that the worker cannot recover from. -/
def RefusedFatally (c : Conn) : Prop :=
  ∃ sessionId passed f rest err, c.random.headD none = some sessionId ∧ Awaits c (passed ++ f :: rest) ∧
    (∀ g ∈ passed, passedOver sessionId g = true) ∧ f.type = .error ∧
    decodePayload .error (some f.payload) = some (.error err) ∧ err.recoverable = 0

/-- The call restarts the session. -/
def seeks (c : Conn) : Call → Bool
  | .sendPosition _ _ _ flags => seekRestarts c.client flags
  | _ => false

/-- What a call gave, and the client after it. -/
def outcome (call : Call) (c : Conn) : Bool × Conn := (Conn.perform call).run c

/-- The transport failed, or the worker reported an error that it cannot recover from. -/
def WorkerFails : Event → Prop
  | .called call c => (outcome call c).2.client.connected = false ∨
      seeks c call = true ∧ (outcome call c).1 = false ∧ RefusedFatally c
  | .received timeoutUs c =>
    ((Conn.receiveFrame timeoutUs).run c).1.1 = .fatal ∨
      ∃ err, ((Conn.receiveFrame timeoutUs).run c).1.2 = some (.error err) ∧ err.recoverable = 0
  | _ => False

/-- A seek's restart failed, although neither the transport nor the worker did. -/
def RestartRefused : Event → Prop
  | .called call c => seeks c call = true ∧ (outcome call c).1 = false ∧ ¬ WorkerFails (.called call c)
  | _ => False

def isRespawn : Event → Bool
  | .respawned _ => true
  | _ => false

/-- A respawn that counts. -/
def isCounted : Event → Bool
  | .respawned transportRecovery => transportRecovery
  | _ => false

/-- Such an event has come since the worker was launched. -/
def Since (P : Event → Prop) (log : List Event) : Prop :=
  ∃ pre e post, log = pre ++ e :: post ∧ P e ∧ ∀ x ∈ post, isRespawn x = false

/-! ## The law -/

/-- The request that the round's poll of the settings makes: none is empty. -/
def requested (s : Sender) (t : Round) : CString :=
  if !s.cfg.valid then t.config.snapshot.modelDownload
  else if 2000000 ≤ t.cfgNowUs - s.lastConfigPollUs && !s.respawnInProgress &&
      orDefault .empty t.config.modelDownload ≠ s.cfg.modelDownload then orDefault .empty t.config.modelDownload
  else .empty

/-- The request is refused before it is sent: there is no client, or it does not fit. It does no harm where the worker
counts as dead already, or is replaced for its settings. -/
def RequestRefused (s : Sender) (t : Round) : Prop :=
  (requested s t).val ≠ [] ∧ (s.client = none ∨ (∃ c, s.client = some c ∧ c.client.connected = true) ∧
    32 ≤ (requested s t).val.length) ∧ s.workerDead = false ∧ (s.cfg.valid && s.cfg.differs t.config) = false

/-- The rounds in which the law is kept. -/
def Meets (s : Sender) (t : Round) : Prop := ¬ RequestRefused s t ∧ ¬ Since RestartRefused s.log

/-- When the round makes the respawn that it counts, or ends the loop without one, the worker has failed already: what
the log holds before that respawn says so. -/
def Justified (s : Sender) (t : Round) : Prop :=
  ((s.step t).respawnCount ≠ s.respawnCount → ∃ before after, (s.step t).log = s.log ++ before ++ .respawned true :: after ∧
    (∀ e ∈ before, isCounted e = false) ∧ Since WorkerFails (s.log ++ before)) ∧
  ((s.step t).respawnCount = s.respawnCount → (s.step t).ended ≠ s.ended → Since WorkerFails (s.step t).log)

/-! ## Calls that fail -/

/-- What may have let a call fail. -/
def Cause (e : Event) : Prop := WorkerFails e ∨ RestartRefused e

/-- A client with a transport has its session. -/
def Active (c : Conn) : Prop := c.client.connected = true → c.client.sessionActive = true

theorem Active.of_desk {c d : Conn} (hc : Active c) (h : d.desk = c.desk) : Active d := by
  have hconnected : d.client.connected = c.client.connected := congrArg (·.client.connected) h
  have hactive : d.client.sessionActive = c.client.sessionActive := congrArg (·.client.sessionActive) h
  unfold Active
  rw [hconnected, hactive]
  exact hc

theorem Active.of_disconnected {c : Conn} (h : c.client.connected = false) : Active c := by
  intro hconn
  rw [h] at hconn
  cases hconn

theorem Active.of_sends {c d : Conn} (hc : Active c) {p : Payload} {ok : Bool} (h : c.Sends p ok d) : Active d := by
  rcases h with ⟨-, f, -, -, hwrote⟩ | ⟨-, hdropped⟩
  · exact hc.of_desk hwrote.desk
  · exact .of_disconnected hdropped.connected

theorem active_of_ends {m : ClientM Bool} {c : Conn} {idle : Prop} {type : α → Payload} (hc : Active c)
    (h : Ends m c fun ok t => idle ∧ ok = false ∧ t = c ∨ ∃ p, c.Sends (type p) ok t) : Ends m c fun _ t => Active t := by
  refine h.mono fun ok t ht => ?_
  rcases ht with ⟨-, -, rfl⟩ | ⟨p, hsends⟩
  · exact hc
  · exact hc.of_sends hsends

theorem active_sendTranslateCtrl {c : Conn} (hc : Active c) (enabled : Bool) (source target : CString) (mode : UInt8) :
    Ends (Conn.sendTranslateCtrl enabled (some source) (some target) mode) c fun _ t => Active t := by
  refine (Conn.ends_sendTranslateCtrl enabled source target mode c).mono fun ok t ht => ?_
  rcases ht with ⟨-, -, rfl⟩ | ⟨-, -, rfl⟩ | ⟨u, hsends, rfl⟩
  · exact hc
  · cases enabled
    · exact hc
    · exact hc
  · have hu : Active u := hc.of_sends hsends
    cases ok
    · exact hu
    · exact hu

theorem active_control {c : Conn} (hc : Active c) {type : Control → Payload}
    (htype : type ∈ [Payload.pause, .resume, .stopSession]) (reason : UInt16) :
    Ends (Conn.sendControlFrame type reason) c fun _ t => Active t := by
  by_cases hconn : c.client.connected = true
  · exact (Conn.ends_sendControlFrame htype reason hconn).mono fun _ _ h => hc.of_sends h
  · unfold Conn.sendControlFrame
    refine Ends.get_bind ?_
    rw [if_pos (by simpa using hconn)]
    exact hc

/-- The answer, if it is one, says that the session is active. -/
def Accepted (r : Option Bool) (t : Conn) : Prop := r = some true → t.client.sessionActive = true

theorem accepted_lost (t : Conn) : Ends (Conn.lost (some false)) t Accepted := nofun

theorem accepted_onStarted (start : Start) (deadlineUs : Int) (header : FrameHeader) (s : Conn) :
    Ends (Conn.onStarted start deadlineUs header) s fun ok t => Accepted (some ok) t := by
  have hlost (t : Conn) : Ends (Conn.lost false) t fun ok u => Accepted (some ok) u := nofun
  have haccept (sourceActive : Bool) (t : Conn) :
      Ends (Conn.accept start sourceActive) t fun ok u => Accepted (some ok) u := fun _ => rfl
  refine Ends.get_bind (Ends.ite (fun _ => hlost s) fun _ => Ends.modify_bind ?_)
  refine Ends.ite (fun _ => hlost _) fun _ => Ends.ite (fun _ => ?_) fun _ => haccept _ _
  refine Ends.bind (P := fun _ _ => True) trivial fun r u _ => Ends.ite (fun _ => hlost u) fun _ => ?_
  split
  · exact Ends.ite (fun _ => hlost u) fun _ => haccept _ u
  · exact hlost u

theorem accepted_onError (deadlineUs : Int) (header : FrameHeader) (s : Conn) :
    Ends (Conn.onError deadlineUs header) s Accepted := by
  refine Ends.get_bind (Ends.ite (fun _ => ?_) fun _ => nofun)
  refine Ends.bind (P := fun _ _ => True) trivial fun r t _ => Ends.ite (fun _ => accepted_lost t) fun _ => ?_
  split
  · exact Ends.ite (fun _ => accepted_lost t) fun _ => Ends.ite (fun _ => nofun) fun _ =>
      Ends.ite (fun _ => nofun) fun _ => nofun
  · exact accepted_lost t

theorem accepted_handshakeRound (start : Start) (deadlineUs : Int) (s : Conn) :
    Ends (Conn.handshakeRound start deadlineUs) s Accepted := by
  unfold Conn.handshakeRound
  refine Ends.bind (P := fun _ _ => True) trivial fun before t _ => Ends.ite (fun _ => ?_) fun _ => accepted_lost t
  refine Ends.bind (P := fun _ _ => True) trivial fun r u _ => Ends.ite (fun _ => accepted_lost u) fun _ => ?_
  split
  · exact accepted_lost u
  · rename_i header _
    refine Ends.ite (fun _ => ?_) fun _ => Ends.ite (fun _ => accepted_onError deadlineUs header u) fun _ =>
      Ends.ite (fun _ => ?_) fun _ => nofun
    · rw [map_eq_pure_bind]
      exact (accepted_onStarted start deadlineUs header u).bind fun ok v hv => hv
    · exact Ends.bind (P := fun _ _ => True) trivial fun r v _ => Ends.ite (fun _ => accepted_lost v) fun _ => nofun

theorem accepted_loop {body : ClientM (Option Bool)} (hbody : ∀ s, Ends body s Accepted) (fuel : Nat) (s : Conn) :
    Ends (loop fuel body) s Accepted := by
  induction fuel generalizing s with
  | zero => exact nofun
  | succ fuel ih =>
    refine (hbody s).bind fun r t hr => ?_
    cases r with
    | some answer => exact hr
    | none => exact ih t

theorem active_startSession (timelineOriginPtsUs : Int64) (modelId sourceUrl : Option CString) (s : Conn) :
    Ends (Conn.startSession timelineOriginPtsUs modelId sourceUrl) s fun ok t => Accepted (some ok) t := by
  have hhandshake (start : Start) (s : Conn) : Ends (Conn.handshake start) s fun ok t => Accepted (some ok) t := by
    refine Ends.bind (P := fun _ _ => True) trivial fun deadline t _ => ?_
    cases deadline with
    | none => exact nofun
    | some deadlineUs =>
      refine Ends.get_bind ((accepted_loop (accepted_handshakeRound start deadlineUs) _ t).bind fun r u hr => ?_)
      cases r with
      | some answer => exact hr
      | none => exact nofun
  unfold Conn.startSession
  refine Ends.get_bind (Ends.ite (fun _ => nofun) fun _ => Ends.ite (fun _ => nofun) fun _ => Ends.modify_bind ?_)
  refine Ends.bind (P := fun _ _ => True) trivial fun id t _ => ?_
  cases id with
  | none => exact nofun
  | some id =>
    refine Ends.modify_bind (Ends.ite (fun _ => nofun) fun _ => Ends.get_bind ?_)
    exact Ends.bind (P := fun _ _ => True) trivial fun sent u _ => Ends.ite (fun _ => hhandshake _ u) fun _ => nofun

theorem active_sendPosition {c : Conn} (hc : Active c) (pts time : Int64) (rate : Binary32) (flags : UInt32) :
    Ends (Conn.sendPosition pts time rate flags) c fun ok t => (seekRestarts c.client flags = false ∨ ok = true) → Active t := by
  by_cases hseek : seekRestarts c.client flags = true
  · have hfails {m : ClientM Bool} {t : Conn} (h : Ends m t fun ok _ => ok = false) :
        Ends m t fun ok u => (seekRestarts c.client flags = false ∨ ok = true) → Active u := by
      refine h.mono fun ok u hok hor => ?_
      rw [hseek, hok] at hor
      rcases hor with h | h <;> cases h
    have hdrop (t : Conn) : Ends (Conn.lost false) t fun ok _ => ok = false := rfl
    refine Ends.get_bind (Ends.ite (fun _ => hfails rfl) fun _ => ?_)
    rw [if_pos hseek]
    refine Ends.bind (P := fun _ _ => True) trivial fun stopped t _ => Ends.ite (fun _ => Ends.modify_bind ?_) fun _ => hfails rfl
    refine (active_startSession pts _ _ _).bind fun started u hu => Ends.ite (fun hstarted => ?_) fun _ => hfails rfl
    subst hstarted
    have hu : Active u := fun _ => hu rfl
    refine Ends.get_bind (Ends.ite (fun _ => hfails (hdrop u)) fun _ => ?_)
    have hresend : Ends (Conn.resendTranslateCtrl c.client) u fun _ t => Active t :=
      Ends.get_bind (Ends.ite (fun _ => active_sendTranslateCtrl hu _ _ _ _) fun _ => hu)
    refine hresend.bind fun resent v hv => Ends.ite (fun _ => ?_) fun _ => hfails rfl
    exact (Conn.ends_sendPositionFrame pts time rate _ v).mono fun _ _ ⟨p, h⟩ _ => hv.of_sends h
  · rw [Bool.not_eq_true] at hseek
    refine (Conn.ends_sendPosition pts time rate hseek).mono fun ok t ht _ => ?_
    rcases ht with ⟨-, -, rfl⟩ | ⟨p, hsends⟩
    · exact hc
    · exact hc.of_sends hsends

/-! ## Calls of the loop -/

/-- The calls that leave a session active. -/
def Steady (c : Conn) (call : Call) : Prop :=
  match call with
  | .startSession .. | .stopSession _ => False
  | .sendPosition _ _ _ flags => seekRestarts c.client flags = false
  | .sendTranslateCtrl _ source target _ => source.isSome = true ∧ target.isSome = true
  | .sendModelCtrl _ modelId => modelId.isSome = true
  | _ => True

theorem active_outcome {c : Conn} (hc : Active c) {call : Call} (hcall : Steady c call) : Active (outcome call c).2 := by
  cases call with
  | startSession => exact hcall.elim
  | stopSession => exact hcall.elim
  | sendPosition pts time rate flags => exact active_sendPosition hc pts time rate flags (.inl hcall)
  | sendAudio chunk => exact active_of_ends hc (Conn.ends_sendAudio chunk c)
  | sendTranslateCtrl enabled source target mode =>
    obtain ⟨source, rfl⟩ := Option.isSome_iff_exists.mp hcall.1
    obtain ⟨target, rfl⟩ := Option.isSome_iff_exists.mp hcall.2
    exact active_sendTranslateCtrl hc enabled source target mode
  | sendModelCtrl action modelId =>
    obtain ⟨modelId, rfl⟩ := Option.isSome_iff_exists.mp hcall
    exact active_of_ends hc (Conn.ends_sendModelCtrl action modelId c)
  | pauseSession =>
    have hpause : Ends Conn.pauseSession c fun _ t => Active t :=
      Ends.get_bind (Ends.ite (fun _ => hc) fun _ => active_control hc (by simp) _)
    exact hpause
  | resumeSession =>
    have hresume : Ends Conn.resumeSession c fun _ t => Active t :=
      Ends.get_bind (Ends.ite (fun _ => hc) fun _ => active_control hc (by simp) _)
    exact hresume

theorem disconnected_of_sends {c d : Conn} {p : Payload} {ok : Bool} (h : c.Sends p ok d) (hok : ok = false) :
    d.client.connected = false := by
  rw [hok] at h
  exact h.disconnected

/-- A position that could not be sent. -/
theorem cause_of_sendPosition {c : Conn} (hc : Active c) {pts time : Int64} {rate : Binary32} {flags : UInt32}
    (h : (outcome (.sendPosition pts time rate flags) c).1 = false) : Cause (.called (.sendPosition pts time rate flags) c) := by
  by_cases hseek : seekRestarts c.client flags = true
  · by_cases hfails : WorkerFails (.called (.sendPosition pts time rate flags) c)
    · exact .inl hfails
    · exact .inr ⟨hseek, h, hfails⟩
  · rw [Bool.not_eq_true] at hseek
    refine .inl (.inl ?_)
    have hends := Conn.ends_sendPosition pts time rate (s := c) hseek
    rcases hends with ⟨hidle, -, hsame⟩ | ⟨p, hsends⟩
    · have hsame : (outcome (.sendPosition pts time rate flags) c).2 = c := hsame
      rw [hsame]
      by_contra hconn
      rw [Bool.not_eq_false] at hconn
      rw [hconn, hc hconn] at hidle
      rcases hidle with h | h <;> cases h
    · exact disconnected_of_sends hsends h

theorem cause_of_sendAudio {c : Conn} (hc : Active c) {chunk : AudioChunk} (h : (outcome (.sendAudio chunk) c).1 = false) :
    Cause (.called (.sendAudio chunk) c) := by
  refine .inl (.inl ?_)
  rcases Conn.ends_sendAudio chunk c with ⟨hidle, -, hsame⟩ | ⟨p, hsends⟩
  · have hsame : (outcome (.sendAudio chunk) c).2 = c := hsame
    rw [hsame]
    by_contra hconn
    rw [Bool.not_eq_false] at hconn
    rw [hconn, hc hconn] at hidle
    rcases hidle with h | h <;> cases h
  · exact disconnected_of_sends hsends h

theorem cause_of_sendTranslateCtrl {c : Conn} (hcap : c.client.workerCapabilities &&& capabilityTranslation ≠ 0)
    {enabled : Bool} {source target : CString} {mode : UInt8}
    (h : (outcome (.sendTranslateCtrl enabled (some source) (some target) mode) c).1 = false) :
    Cause (.called (.sendTranslateCtrl enabled (some source) (some target) mode) c) := by
  refine .inl (.inl ?_)
  rcases Conn.ends_sendTranslateCtrl enabled source target mode c with ⟨hgone, -, hsame⟩ | ⟨hnone, -⟩ | ⟨u, hsends, hafter⟩
  · have hsame : (outcome (.sendTranslateCtrl enabled (some source) (some target) mode) c).2 = c := hsame
    rw [hsame]
    exact hgone
  · exact (hcap hnone).elim
  · have hafter : (outcome (.sendTranslateCtrl enabled (some source) (some target) mode) c).2 =
        if (outcome (.sendTranslateCtrl enabled (some source) (some target) mode) c).1 then _ else u := hafter
    rw [hafter, h, if_neg Bool.false_ne_true]
    exact disconnected_of_sends hsends h

theorem cause_of_sendModelCtrl {c : Conn} {action : UInt8} {modelId : CString}
    (hfits : c.client.connected = true → modelId.val.length < 32)
    (h : (outcome (.sendModelCtrl action (some modelId)) c).1 = false) :
    Cause (.called (.sendModelCtrl action (some modelId)) c) := by
  refine .inl (.inl ?_)
  rcases Conn.ends_sendModelCtrl action modelId c with ⟨hidle, -, hsame⟩ | ⟨p, hsends⟩
  · have hsame : (outcome (.sendModelCtrl action (some modelId)) c).2 = c := hsame
    rw [hsame]
    by_contra hconn
    rw [Bool.not_eq_false] at hconn
    rw [hconn] at hidle
    have hlong := hidle.resolve_left Bool.noConfusion
    have hshort := hfits hconn
    omega
  · exact disconnected_of_sends hsends h

/-! ## The invariant -/

theorem Since.append {P : Event → Prop} {l more : List Event} (h : Since P l) (hmore : ∀ x ∈ more, isRespawn x = false) :
    Since P (l ++ more) := by
  obtain ⟨pre, e, post, rfl, he, hpost⟩ := h
  refine ⟨pre, e, post ++ more, by rw [List.append_assoc, List.cons_append], he, fun x hx => ?_⟩
  exact (List.mem_append.mp hx).elim (hpost x) (hmore x)

theorem since_last {P : Event → Prop} (l : List Event) {e : Event} (he : P e) : Since P (l ++ [e]) :=
  ⟨l, e, [], rfl, he, List.forall_mem_nil _⟩

/-- So far the round has counted nothing. -/
structure Counted (b : Bool) (n : Nat) (l₀ : List Event) (s : Sender) : Prop where
  count : s.respawnCount = n
  grows : l₀ <+: s.log
  respawning : s.respawnInProgress = b

/-- A worker counts as dead for a cause, and `h` says that there is a client. -/
structure Sober (b h : Bool) (n : Nat) (l₀ : List Event) (s : Sender) : Prop extends Counted b n l₀ s where
  dead : s.workerDead = true → Since Cause s.log
  held : h = true → s.client.isSome = true

/-- The client has the session that the loop counts on. -/
structure Well (b h : Bool) (n : Nat) (l₀ : List Event) (s : Sender) : Prop extends Sober b h n l₀ s where
  active : s.workerDead = false → s.sessionActive = true → ∀ c ∈ s.client, Active c
  source : s.sourceModeActive = true → s.sessionActive = true

/-- What the invariant depends on, without the session and with it. -/
def glimpses (s : Sender) : Nat × List Event × Bool × Bool × Option Conn :=
  (s.respawnCount, s.log, s.respawnInProgress, s.workerDead, s.client)

def sees (s : Sender) : (Nat × List Event × Bool × Bool × Option Conn) × Bool × Bool :=
  (glimpses s, s.sessionActive, s.sourceModeActive)

variable {b h : Bool} {n : Nat} {l₀ : List Event} {s t : Sender}

theorem Sober.of_glimpses (hs : Sober b h n l₀ s) (ht : glimpses t = glimpses s) : Sober b h n l₀ t := by
  obtain ⟨hcount, hlog, hrespawning, hdead, hclient⟩ : _ ∧ _ ∧ _ ∧ _ ∧ _ := by
    simpa only [glimpses, Prod.mk.injEq] using ht
  obtain ⟨⟨hn, hl, hb⟩, hcause, hheld⟩ := hs
  rw [← hcount] at hn
  rw [← hlog] at hl hcause
  rw [← hrespawning] at hb
  rw [← hdead] at hcause
  rw [← hclient] at hheld
  exact ⟨⟨hn, hl, hb⟩, hcause, hheld⟩

theorem Well.of_sees (hs : Well b h n l₀ s) (ht : sees t = sees s) : Well b h n l₀ t := by
  obtain ⟨hglimpses, hactive, hsource⟩ : _ ∧ _ ∧ _ := by simpa only [sees, Prod.mk.injEq] using ht
  obtain ⟨-, -, -, hdead, hclient⟩ : _ ∧ _ ∧ _ ∧ _ ∧ _ := by simpa only [glimpses, Prod.mk.injEq] using hglimpses
  refine ⟨hs.toSober.of_glimpses hglimpses, ?_, ?_⟩
  · rw [hdead, hclient, hactive]
    exact hs.active
  · rw [hactive, hsource]
    exact hs.source

theorem well_modify {f : Sender → Sender} (hf : ∀ s, sees (f s) = sees s) : Preserves (Well b h n l₀) (modify f) :=
  fun s hs => hs.of_sees (hf s)

theorem Counted.logged {l : List Event} (hs : Counted b n l₀ s) (ht : t.respawnCount = s.respawnCount)
    (hlog : t.log = s.log ++ l) (hrespawning : t.respawnInProgress = s.respawnInProgress) : Counted b n l₀ t :=
  ⟨ht.trans hs.count, hlog ▸ hs.grows.trans (List.prefix_append _ _), hrespawning.trans hs.respawning⟩

theorem well_log {m : Sender → List Event} (hmore : ∀ s, ∀ x ∈ m s, isRespawn x = false) {f : Sender → Sender}
    (hf : ∀ s, sees (f s) = sees { s with log := s.log ++ m s }) : Preserves (Well b h n l₀) (modify f) := by
  intro s hs
  have hlogged : Well b h n l₀ { s with log := s.log ++ m s } :=
    ⟨⟨hs.toCounted.logged rfl rfl rfl, fun hdead => (hs.dead hdead).append (hmore s), hs.held⟩, hs.active, hs.source⟩
  exact hlogged.of_sees (hf s)

theorem well_record {e : Event} (he : isRespawn e = false) : Preserves (Well b h n l₀) (record e) :=
  well_log (m := fun _ => [e]) (fun _ x hx => by rw [List.mem_singleton.mp hx]; exact he) fun _ => rfl

theorem well_present (f : CaptionPresenter → List Render × CaptionPresenter) : Preserves (Well b h n l₀) (present f) := by
  refine well_log (m := fun s => (f s.presenter).1.map .drawn) (fun s x hx => ?_) fun _ => rfl
  obtain ⟨r, -, rfl⟩ := List.mem_map.mp hx
  rfl

theorem well_blank : Preserves (Well b h n l₀) blank := well_modify fun _ => rfl

theorem Sober.die (hs : Sober b h n l₀ s) (hsource : s.sourceModeActive = true → s.sessionActive = true)
    (hcause : Since Cause s.log) : Ends die s fun _ t => Well b h n l₀ t :=
  ⟨⟨⟨hs.count, hs.grows, hs.respawning⟩, fun _ => hcause, hs.held⟩, nofun, hsource⟩

theorem well_die (hs : Well b h n l₀ s) (hcause : Since Cause s.log) : Ends die s fun _ t => Well b h n l₀ t :=
  hs.toSober.die hs.source hcause

/-! ## Calls -/

theorem ends_perform (call : Call) (s : Sender) : Ends (perform call) s fun ok t =>
    s.client = none ∧ ok = false ∧ t = s ∨ ∃ c, s.client = some c ∧ ok = (outcome call c).1 ∧
      t = { s with client := some (outcome call c).2, log := s.log ++ [.called call c] } := by
  rcases hclient : s.client with _ | c
  · have hrun : (perform call).run s = (false, s) := by
      show perform call s = _
      unfold perform
      rw [hclient]
    exact .inl ⟨rfl, congrArg Prod.fst hrun, congrArg Prod.snd hrun⟩
  · have hrun : (perform call).run s = ((outcome call c).1,
        { s with client := some (outcome call c).2, log := s.log ++ [.called call c] }) := by
      show perform call s = _
      unfold perform
      rw [hclient]
      rfl
    exact .inr ⟨c, rfl, congrArg Prod.fst hrun, congrArg Prod.snd hrun⟩

theorem ends_receiveCall (timeoutUs : UInt32) (s : Sender) : Ends (Sender.receiveFrame timeoutUs) s fun r t =>
    s.client = none ∧ r = (.fatal, none) ∧ t = s ∨ ∃ c, s.client = some c ∧ r = ((Conn.receiveFrame timeoutUs).run c).1 ∧
      t = { s with client := some ((Conn.receiveFrame timeoutUs).run c).2, log := s.log ++ [.received timeoutUs c] } := by
  rcases hclient : s.client with _ | c
  · have hrun : (Sender.receiveFrame timeoutUs).run s = ((.fatal, none), s) := by
      show Sender.receiveFrame timeoutUs s = _
      unfold Sender.receiveFrame
      rw [hclient]
    exact .inl ⟨rfl, congrArg Prod.fst hrun, congrArg Prod.snd hrun⟩
  · have hrun : (Sender.receiveFrame timeoutUs).run s = (((Conn.receiveFrame timeoutUs).run c).1,
        { s with client := some ((Conn.receiveFrame timeoutUs).run c).2, log := s.log ++ [.received timeoutUs c] }) := by
      show Sender.receiveFrame timeoutUs s = _
      unfold Sender.receiveFrame
      rw [hclient]
    exact .inr ⟨c, rfl, congrArg Prod.fst hrun, congrArg Prod.snd hrun⟩

theorem Sober.called (hs : Sober b h n l₀ s) (call : Call) (c d : Conn) :
    Sober b h n l₀ { s with client := some d, log := s.log ++ [.called call c] } :=
  ⟨hs.toCounted.logged rfl rfl rfl,
    fun hdead => (hs.dead hdead).append (by rintro x hx; rw [List.mem_singleton.mp hx]; rfl), fun _ => rfl⟩

theorem sober_perform (call : Call) : Preserves (Sober b h n l₀) (perform call) := by
  intro s hs
  refine (ends_perform call s).mono fun ok t ht => ?_
  rcases ht with ⟨-, -, rfl⟩ | ⟨c, hclient, -, rfl⟩
  · exact hs
  · exact hs.called call c _

theorem well_perform (hs : Well b h n l₀ s) {call : Call} (hcall : ∀ c ∈ s.client, Steady c call) :
    Ends (perform call) s fun ok t => Well b h n l₀ t ∧ (ok = false → (s.client = none ∧ t = s) ∨
      ∃ c, s.client = some c ∧ (outcome call c).1 = false ∧
        t = { s with client := some (outcome call c).2, log := s.log ++ [.called call c] }) := by
  refine (ends_perform call s).mono fun ok t ht => ?_
  rcases ht with ⟨hclient, -, rfl⟩ | ⟨c, hclient, rfl, rfl⟩
  · exact ⟨hs, fun _ => .inl ⟨hclient, rfl⟩⟩
  · refine ⟨⟨hs.toSober.called call c _, fun hdead hactive d hd => ?_, hs.source⟩, fun hok => .inr ⟨c, hclient, hok, rfl⟩⟩
    obtain rfl := Option.some.inj hd
    exact active_outcome (hs.active hdead hactive c hclient) (hcall c hclient)

/-- The worker is dead already, or the client has its session. -/
theorem Well.since_called (hs : Well b h n l₀ s) {c : Conn} (hclient : s.client = some c) (hactive : s.sessionActive = true)
    {call : Call} (hcause : Active c → Cause (.called call c)) : Since Cause (s.log ++ [.called call c]) := by
  by_cases hdead : s.workerDead = true
  · exact (hs.dead hdead).append (by rintro x hx; rw [List.mem_singleton.mp hx]; rfl)
  · rw [Bool.not_eq_true] at hdead
    exact since_last _ (hcause (hs.active hdead hactive c hclient))

/-! ## Sessions and respawns -/

theorem well_startSession (sourceUrl : Option CString) (hs : Sober b h n l₀ s) :
    Ends (Sender.startSession sourceUrl) s fun _ t => Well b h n l₀ t := by
  refine Ends.get_bind ((ends_perform _ s).bind fun started t ht => ?_)
  have hsource (u : Sender) : (started && u.workerSourceActive) = true → started = true := fun h =>
    ((Bool.and_eq_true ..).mp h).1
  rcases ht with ⟨hclient, hstarted, rfl⟩ | ⟨c, hclient, hstarted, rfl⟩
  · refine ⟨hs.of_glimpses rfl, fun _ _ d hd => ?_, hsource _⟩
    have hd : t.client = some d := hd
    rw [hclient] at hd
    cases hd
  · refine ⟨(hs.called _ c _).of_glimpses rfl, fun _ hactive d hd => ?_, hsource _⟩
    obtain rfl := Option.some.inj hd
    have hactive : started = true := hactive
    have haccepted := active_startSession 0 (some (catalogIdFromPath s.modelPath)) sourceUrl c
    exact fun _ => haccepted (congrArg some (hstarted.symm.trans hactive))

/-- TRANSLATE_CTRL with the snapshot. -/
def translation (s : Sender) : Call :=
  .sendTranslateCtrl s.cfg.translateEnabled (some s.cfg.translateFrom) (some s.cfg.translateTo) s.cfg.translateMode

theorem steady_translation (s : Sender) (c : Conn) : Steady c (translation s) := ⟨rfl, rfl⟩

theorem well_sendTranslation (hs : Well b h n l₀ s) : Ends sendTranslation s fun ok t => Well b h n l₀ t ∧
    (ok = false → (s.client = none ∧ t = s) ∨
      ∃ c, s.client = some c ∧ (outcome (translation s) c).1 = false ∧
        t = { s with client := some (outcome (translation s) c).2, log := s.log ++ [.called (translation s) c] }) :=
  Ends.get_bind (well_perform hs fun c _ => steady_translation s c)

theorem well_pause (hs : Well b h n l₀ s) : Ends (perform .pauseSession) s fun _ t => Well b h n l₀ t :=
  (well_perform hs fun _ _ => by exact trivial).mono fun _ _ ht => ht.1

theorem well_relaunch (launch : Launch) (paused : Bool) (hs : Counted b n l₀ s)
    (hsource : s.sourceModeActive = true → s.sessionActive = true) :
    Ends (relaunch launch paused) s fun _ t => Well b false n l₀ t := by
  refine Ends.bind (P := fun _ t => Sober b false n l₀ t ∧ (t.sourceModeActive = true → t.sessionActive = true))
    ⟨⟨⟨hs.count, hs.grows, hs.respawning⟩, nofun, nofun⟩, hsource⟩ fun _ t ⟨ht, hsource⟩ => ?_
  refine Ends.bind (P := fun _ u => Sober b false n l₀ u ∧ (u.sourceModeActive = true → u.sessionActive = true))
    ⟨⟨⟨ht.count, ht.grows, ht.respawning⟩, ht.dead, nofun⟩, hsource⟩ fun _ u ⟨hu, hsource⟩ => ?_
  refine Ends.get_bind (Ends.ite (fun hnone => ?_) fun _ => ?_)
  · refine ⟨hu, fun _ _ c hc => ?_, hsource⟩
    have hc : u.client = some c := hc
    rw [hc] at hnone
    cases hnone
  · refine Ends.bind (P := fun _ v => Sober b false n l₀ v) (hu.of_glimpses rfl) fun _ v hv => ?_
    refine (well_startSession _ hv).bind fun started w hw => ?_
    refine Ends.bind (P := fun _ w => Well b false n l₀ w) (hw.of_sees rfl) fun _ w hw => Ends.ite (fun _ => hw) fun _ => ?_
    refine (well_sendTranslation hw).bind fun _ x hx => Ends.ite (fun _ => ?_) fun _ => hx.1
    exact (well_pause hx.1).bind fun _ y hy => hy

theorem well_respawnWorker (launch : Launch) (paused : Bool) (hs : Counted b n l₀ s)
    (hsource : s.sourceModeActive = true → s.sessionActive = true) :
    Ends (respawnWorker launch paused false) s fun _ t => Well b false n l₀ t :=
  Ends.modify_bind (Ends.get_bind (Ends.modify_bind (Ends.modify_bind
    (well_relaunch launch paused (hs.logged (l := [.respawned false]) rfl rfl rfl) hsource))))

theorem well_activateDownloadedModel (t : Round) (modelId : CString) :
    Preserves (Well b false n l₀) (activateDownloadedModel t modelId) := by
  intro s hs
  unfold activateDownloadedModel
  split
  · exact Ends.ite (fun _ => hs) fun _ => Ends.modify_bind (Ends.get_bind
      (well_respawnWorker _ _ ⟨hs.count, hs.grows, hs.respawning⟩ hs.source))
  · exact hs

/-! ## Settings -/

/-- A request that does not fail for want of a client or for its length; a dead worker fails it anyway. -/
def Allowed (request : CString) (s : Sender) : Prop :=
  s.workerDead = true ∨ request.val = [] ∨
    ∃ c, s.client = some c ∧ (c.client.connected = true → request.val.length < 32)

/-- Of the client, telling the settings changes neither the capabilities nor, for the better, the transport. -/
theorem outcome_translation (s : Sender) (c : Conn) :
    (outcome (translation s) c).2.client.workerCapabilities = c.client.workerCapabilities ∧
      ((outcome (translation s) c).2.client.connected = true → c.client.connected = true) := by
  rcases Conn.ends_sendTranslateCtrl s.cfg.translateEnabled s.cfg.translateFrom s.cfg.translateTo s.cfg.translateMode c with
    ⟨-, -, hsame⟩ | ⟨-, -, hafter⟩ | ⟨u, hsends, hafter⟩
  · have hsame : (outcome (translation s) c).2 = c := hsame
    rw [hsame]
    exact ⟨rfl, id⟩
  · have hafter : (outcome (translation s) c).2 = { c with client := _ } := hafter
    rw [hafter]
    split
    · exact ⟨rfl, id⟩
    · exact ⟨rfl, id⟩
  · have hafter : (outcome (translation s) c).2 = if (outcome (translation s) c).1 then _ else u := hafter
    have hu : u.client.workerCapabilities = c.client.workerCapabilities ∧
        (u.client.connected = true → c.client.connected = true) := by
      rcases hsends with ⟨-, f, -, -, hwrote⟩ | ⟨-, hdropped⟩
      · have hconnected : u.client.connected = c.client.connected := congrArg (·.client.connected) hwrote.desk
        exact ⟨congrArg (·.client.workerCapabilities) hwrote.desk, hconnected.symm.trans⟩
      · refine ⟨(congrArg (·.client.workerCapabilities) hdropped).trans ?_, fun hconn => ?_⟩
        · show (dropTransport _).workerCapabilities = _
          unfold dropTransport
          split
          · rfl
          · rfl
        · rw [hdropped.connected] at hconn
          cases hconn
    rw [hafter]
    split
    · exact hu
    · exact hu

theorem tells_relayTranslation {request : CString} (hs : Well b false n l₀ s) (hallowed : Allowed request s) :
    Ends relayTranslation s fun _ t => Well b false n l₀ t ∧ Allowed request t ∧ t.cfg = s.cfg := by
  refine Ends.get_bind (Ends.ite (fun hsome => ?_) fun _ => ⟨hs, hallowed, rfl⟩)
  have hclient : s.client.isSome = true := ((Bool.and_eq_true ..).mp hsome).1
  have hcall : Ends sendTranslation s fun _ t => Allowed request t ∧ t.cfg = s.cfg := by
    refine Ends.get_bind ((ends_perform (translation s) s).mono fun _ t ht => ?_)
    rcases ht with ⟨-, -, rfl⟩ | ⟨c, hc, -, rfl⟩
    · exact ⟨hallowed, rfl⟩
    · refine ⟨?_, rfl⟩
      rcases hallowed with hdead | hempty | ⟨d, hd, hfits⟩
      · exact .inl hdead
      · exact .inr (.inl hempty)
      · obtain rfl := Option.some.inj (hc.symm.trans hd)
        exact .inr (.inr ⟨_, rfl, fun hconn => hfits ((outcome_translation s c).2 hconn)⟩)
  have hboth : Ends sendTranslation s fun ok t => (Well b false n l₀ t ∧ (ok = false → (s.client = none ∧ t = s) ∨
      ∃ c, s.client = some c ∧ (outcome (translation s) c).1 = false ∧
        t = { s with client := some (outcome (translation s) c).2, log := s.log ++ [.called (translation s) c] })) ∧
      Allowed request t ∧ t.cfg = s.cfg := ⟨well_sendTranslation hs, hcall⟩
  refine hboth.bind fun ok t ⟨⟨ht, hfails⟩, hallowed, hcfg⟩ => Ends.ite (fun _ => ⟨ht, hallowed, hcfg⟩) fun hok => ?_
  refine Ends.get_bind ((Ends.onlyIf (fun hcap => ?_) fun _ => ⟨ht, hallowed, hcfg⟩ :
    Ends _ t fun _ u => Well b false n l₀ u ∧ Allowed request u ∧ u.cfg = s.cfg).bind fun _ u hu => hu)
  rcases hfails (Bool.eq_false_iff.mpr hok) with ⟨hnone, -⟩ | ⟨c, hc, hfalse, rfl⟩
  · rw [hnone] at hclient
    cases hclient
  · refine ⟨well_die ht (since_last _ (cause_of_sendTranslateCtrl ?_ hfalse)), .inl rfl, rfl⟩
    have hcap : (outcome (translation s) c).2.client.workerCapabilities &&& capabilityTranslation ≠ 0 :=
      of_decide_eq_true hcap
    rw [(outcome_translation s c).1] at hcap
    exact hcap

/-- A request that is not refused before it is sent fails for a cause. -/
theorem well_sendModelRequest {request : CString} (hs : Well b false n l₀ s) (hrequest : request.val ≠ [])
    (hallowed : Allowed request s) : Ends (sendModelRequest request) s fun ok t =>
      Well b false n l₀ t ∧ (ok = false → Since Cause t.log) := by
  refine Ends.get_bind (Ends.ite (fun hidle => ⟨hs, fun _ => ?_⟩) fun _ => ?_)
  · rcases hallowed with hdead | hempty | ⟨c, hclient, -⟩
    · exact hs.dead hdead
    · exact (hrequest hempty).elim
    · rw [hclient] at hidle
      exact (hrequest (by simpa using hidle)).elim
  · refine (well_perform hs fun _ _ => by exact rfl).bind fun ok t ⟨ht, hfails⟩ => Ends.ite (fun _ => ?_) fun hok => ?_
    · exact ⟨ht.of_sees rfl, nofun⟩
    · refine ⟨ht, fun _ => ?_⟩
      rw [Bool.not_eq_true] at hok
      rcases hfails hok with ⟨hnone, rfl⟩ | ⟨c, hclient, hfalse, rfl⟩
      · rcases hallowed with hdead | hempty | ⟨c, hclient, -⟩
        · exact hs.dead hdead
        · exact (hrequest hempty).elim
        · rw [hnone] at hclient
          cases hclient
      · rcases hallowed with hdead | hempty | ⟨d, hd, hfits⟩
        · exact (hs.dead hdead).append (by rintro x hx; rw [List.mem_singleton.mp hx]; rfl)
        · exact (hrequest hempty).elim
        · obtain rfl := Option.some.inj (hclient.symm.trans hd)
          refine since_last _ (cause_of_sendModelCtrl (fun hconn => ?_) hfalse)
          split
          · exact Nat.zero_lt_succ 31
          · exact hfits hconn

theorem well_relayModelRequest {request : CString} (hs : Well b false n l₀ s) (hrequest : request.val ≠ [])
    (hallowed : Allowed request s) : Ends (relayModelRequest request) s fun _ t => Well b false n l₀ t :=
  (well_sendModelRequest hs hrequest hallowed).bind fun _ _ ⟨ht, hcause⟩ =>
    Ends.ite (fun _ => ht) fun hok => well_die ht (hcause (Bool.eq_false_iff.mpr hok))

/-- What a respawn for other settings needs. -/
def Kept (b : Bool) (n : Nat) (l₀ : List Event) (s : Sender) : Prop :=
  Counted b n l₀ s ∧ (s.sourceModeActive = true → s.sessionActive = true)

theorem kept_perform (call : Call) : Preserves (Kept b n l₀) (perform call) := by
  intro s ⟨hs, hsource⟩
  refine (ends_perform call s).mono fun ok t ht => ?_
  rcases ht with ⟨-, -, rfl⟩ | ⟨c, -, -, rfl⟩
  · exact ⟨hs, hsource⟩
  · exact ⟨hs.logged rfl rfl rfl, hsource⟩

theorem kept_relayModelRequest (request : CString) : Preserves (Kept b n l₀) (relayModelRequest request) := by
  have hsend : Preserves (Kept b n l₀) (sendModelRequest request) := by
    refine .get_bind fun s hs => Ends.ite (fun _ => hs) fun _ => ?_
    refine (kept_perform _ s hs).bind fun ok t ht => Ends.ite (fun _ => ?_) fun _ => ht
    exact ⟨⟨ht.1.count, ht.1.grows, ht.1.respawning⟩, ht.2⟩
  exact .bind hsend fun sent => .ite (.pure ()) fun t ht => ⟨⟨ht.1.count, ht.1.grows, ht.1.respawning⟩, ht.2⟩

theorem ends_respawnForConfig (t : Round) (hs : Kept false n l₀ s) :
    Ends (respawnForConfig t) s fun _ u => Well false false n l₀ u := by
  obtain ⟨hs, hsource⟩ := hs
  refine Ends.get_bind (Ends.onlyIf (fun _ => ?_) fun hbusy => ?_)
  · refine Ends.bind (P := fun _ u => Kept true n l₀ u) ⟨⟨hs.count, hs.grows, rfl⟩, hsource⟩ fun _ u hu => ?_
    refine Ends.get_bind ((well_respawnWorker t.cfgRespawn u.paused hu.1 hu.2).bind fun _ v hv => ?_)
    exact ⟨⟨⟨hv.count, hv.grows, rfl⟩, hv.dead, hv.held⟩, hv.active, hv.source⟩
  · rw [hs.respawning] at hbusy
    cases hbusy

/-- What the law says of the round's request. -/
theorem allowed_of_not_refused (t : Round) (hlaw : ¬ RequestRefused s t)
    (hdiffers : (s.cfg.valid && s.cfg.differs t.config) = false) : Allowed (requested s t) s := by
  by_cases hdead : s.workerDead = true
  · exact .inl hdead
  · by_cases hempty : (requested s t).val = []
    · exact .inr (.inl hempty)
    · refine .inr (.inr ?_)
      rw [Bool.not_eq_true] at hdead
      have hsent : ¬ (s.client = none ∨ (∃ c, s.client = some c ∧ c.client.connected = true) ∧
          32 ≤ (requested s t).val.length) := fun h => hlaw ⟨hempty, h, hdead, hdiffers⟩
      rw [not_or] at hsent
      obtain ⟨c, hclient⟩ := Option.ne_none_iff_exists'.mp hsent.1
      refine ⟨c, hclient, fun hconn => ?_⟩
      by_contra hlong
      exact hsent.2 ⟨⟨c, hclient, hconn⟩, by omega⟩

theorem ends_takeSnapshot (t : Round) (hs : Well false false n l₀ s) (hvalid : s.cfg.valid = false)
    (hlaw : ¬ RequestRefused s t) : Ends (takeSnapshot t) s fun _ u => Well false false n l₀ u := by
  have hrequested : requested s t = t.config.snapshot.modelDownload := by
    unfold requested
    rw [hvalid]
    rfl
  have hallowed := allowed_of_not_refused t hlaw (by rw [hvalid]; rfl)
  rw [hrequested] at hallowed
  have htold (u : Sender) (hu : Well false false n l₀ u) (hallowed : Allowed t.config.snapshot.modelDownload u)
      (hcfg : u.cfg.modelDownload = t.config.snapshot.modelDownload) :
      Ends (do
        modify fun s => { s with lastConfigPollUs := t.cfgNowUs, cfg := { s.cfg with valid := true } }
        let s ← get
        onlyIf (s.cfg.modelDownload.val ≠ []) (relayModelRequest s.cfg.modelDownload)) u
        fun _ v => Well false false n l₀ v := by
    refine Ends.bind (P := fun _ v => Well false false n l₀ v ∧ Allowed t.config.snapshot.modelDownload v ∧
      v.cfg.modelDownload = t.config.snapshot.modelDownload) ⟨hu.of_sees rfl, hallowed, hcfg⟩ fun _ v ⟨hv, hallowed, hcfg⟩ => ?_
    refine Ends.get_bind (Ends.onlyIf (fun hnonempty => ?_) fun _ => hv)
    rw [hcfg] at hnonempty ⊢
    exact well_relayModelRequest hv (of_decide_eq_true hnonempty) hallowed
  refine Ends.bind (P := fun _ u => Well false false n l₀ u ∧ Allowed t.config.snapshot.modelDownload u ∧
    u.cfg.modelDownload = t.config.snapshot.modelDownload) ⟨hs.of_sees rfl, hallowed, rfl⟩ fun _ u ⟨hu, hallowed, hcfg⟩ => ?_
  refine (tells_relayTranslation hu hallowed).bind fun told v ⟨hv, hallowed, hkept⟩ => ?_
  have hcfg : v.cfg.modelDownload = t.config.snapshot.modelDownload := hkept ▸ hcfg
  refine Ends.ite (fun _ => htold v hv hallowed hcfg) fun _ => ?_
  exact htold _ (hv.of_sees rfl) hallowed hcfg

/-- Where the settings ask for another worker, a refused request does no harm. -/
theorem ends_compareSnapshot (t : Round) (hs : Well false false n l₀ s)
    (hallowed : s.cfg.differs t.config = false → orDefault .empty t.config.modelDownload ≠ s.cfg.modelDownload →
      Allowed (orDefault .empty t.config.modelDownload) s) :
    Ends (compareSnapshot t) s fun _ u => Well false false n l₀ u := by
  have htell {r : CString} (hallowed : Allowed r s) : Ends (onlyIf (s.cfg.translationDiffers t.config) do
      modify fun s => { s with cfg := s.cfg.withTranslation t.config }
      let _ ← relayTranslation
      pure ()) s fun _ u => Well false false n l₀ u ∧ Allowed r u := by
    refine Ends.onlyIf (fun _ => ?_) fun _ => ⟨hs, hallowed⟩
    refine Ends.bind (P := fun _ u => Well false false n l₀ u ∧ Allowed r u) ⟨hs.of_sees rfl, hallowed⟩
      fun _ u ⟨hu, hallowed⟩ => ?_
    exact (tells_relayTranslation hu hallowed).bind fun _ v ⟨hv, hallowed, _⟩ => ⟨hv, hallowed⟩
  refine Ends.get_bind ?_
  by_cases hdiffers : s.cfg.differs t.config = true
  · refine (htell (r := .empty) (.inr (.inl rfl))).bind fun _ u ⟨hu, _⟩ => ?_
    have hu : Kept false n l₀ u := ⟨hu.toCounted, hu.source⟩
    have hasked : Ends (onlyIf (orDefault .empty t.config.modelDownload ≠ s.cfg.modelDownload) do
        if (orDefault .empty t.config.modelDownload).val ≠ [] then
          relayModelRequest (orDefault .empty t.config.modelDownload)
        else modify fun s => { s with cfg := { s.cfg with
                                  modelDownload := (orDefault .empty t.config.modelDownload).truncated 40 } }) u
        fun _ v => Kept false n l₀ v := by
      refine Ends.onlyIf (fun _ => Ends.ite (fun _ => kept_relayModelRequest _ u hu) fun _ => ?_) fun _ => hu
      exact ⟨⟨hu.1.count, hu.1.grows, hu.1.respawning⟩, hu.2⟩
    refine hasked.bind fun _ v hv => Ends.onlyIf (fun _ => ends_respawnForConfig t hv) fun hsame => ?_
    rw [hdiffers] at hsame
    cases hsame
  · rw [Bool.not_eq_true] at hdiffers
    have hrest (u : Sender) (hu : Well false false n l₀ u) :
        Ends (onlyIf (s.cfg.differs t.config) (respawnForConfig t)) u fun _ v => Well false false n l₀ v := by
      rw [hdiffers]
      exact hu
    by_cases hasked : orDefault .empty t.config.modelDownload = s.cfg.modelDownload
    · refine (htell (r := .empty) (.inr (.inl rfl))).bind fun _ u ⟨hu, _⟩ => ?_
      refine Ends.bind (P := fun _ v => Well false false n l₀ v) (Ends.onlyIf (fun hne => ?_) fun _ => hu) fun _ v hv => hrest v hv
      exact (of_decide_eq_true hne hasked).elim
    · refine (htell (hallowed hdiffers hasked)).bind fun _ u ⟨hu, hallowed⟩ => ?_
      refine Ends.bind (P := fun _ v => Well false false n l₀ v) (Ends.onlyIf (fun _ => ?_) fun _ => hu) fun _ v hv => hrest v hv
      refine Ends.ite (fun hnonempty => well_relayModelRequest hu hnonempty hallowed) fun _ => ?_
      exact hu.of_sees rfl

/-- **The settings are polled without killing a worker.** -/
theorem ends_pollConfig (t : Round) (hs : Well false false n l₀ s) (hlaw : ¬ RequestRefused s t) :
    Ends (pollConfig t) s fun _ u => Well false false n l₀ u := by
  refine Ends.get_bind (Ends.ite (fun hinvalid => ?_) fun hvalid => Ends.ite (fun hdue => ?_) fun _ => hs)
  · rw [Bool.not_eq_true'] at hinvalid
    exact ends_takeSnapshot t hs hinvalid hlaw
  · have hidle := hs.respawning
    have hallowed : s.cfg.differs t.config = false → orDefault .empty t.config.modelDownload ≠ s.cfg.modelDownload →
        Allowed (orDefault .empty t.config.modelDownload) s := by
      intro hdiffers hasked
      have hrequested : requested s t = orDefault .empty t.config.modelDownload := by
        unfold requested
        rw [if_neg hvalid, if_pos (by simp [hdue, hidle, hasked])]
      have hallowed := allowed_of_not_refused t hlaw (by rw [hdiffers, Bool.and_false])
      rwa [hrequested] at hallowed
    refine Ends.bind (P := fun _ u => Well false false n l₀ u ∧ (u.cfg.differs t.config = false →
      orDefault .empty t.config.modelDownload ≠ u.cfg.modelDownload → Allowed (orDefault .empty t.config.modelDownload) u))
      ⟨hs.of_sees rfl, hallowed⟩ fun _ u ⟨hu, hallowed⟩ => ?_
    exact Ends.onlyIf (fun _ => ends_compareSnapshot t hu hallowed) fun _ => hu

/-! ## What the poll logs -/

/-- A restart of the session for a seek. -/
def isSeek : Event → Bool
  | .called call c => seeks c call
  | _ => false

theorem RestartRefused.isSeek {e : Event} (h : RestartRefused e) : isSeek e = true := by
  cases e with
  | called call c => exact h.1
  | _ => exact h.elim

/-- Since the head of the loop neither a seek nor a counted respawn was logged. -/
def Polls (l₀ : List Event) (s : Sender) : Prop :=
  ∃ more, s.log = l₀ ++ more ∧ ∀ e ∈ more, isSeek e = false ∧ isCounted e = false

theorem Polls.snoc {e : Event} (hs : Polls l₀ s) (he : isSeek e = false ∧ isCounted e = false)
    (ht : t.log = s.log ++ [e]) : Polls l₀ t := by
  obtain ⟨more, hlog, hmore⟩ := hs
  refine ⟨more ++ [e], by rw [ht, hlog, List.append_assoc], fun x hx => ?_⟩
  rcases List.mem_append.mp hx with hx | hx
  · exact hmore x hx
  · rw [List.mem_singleton.mp hx]
    exact he

theorem polls_modify {f : Sender → Sender} (hf : ∀ s, (f s).log = s.log) : Preserves (Polls l₀) (modify f) := by
  rintro s ⟨more, hlog, hmore⟩
  exact ⟨more, (hf s).trans hlog, hmore⟩

theorem polls_perform (call : Call) (hcall : ∀ c, seeks c call = false) : Preserves (Polls l₀) (perform call) := by
  intro s hs
  refine (ends_perform call s).mono fun ok t ht => ?_
  rcases ht with ⟨-, -, rfl⟩ | ⟨c, -, -, rfl⟩
  · exact hs
  · exact hs.snoc (e := .called call c) ⟨hcall c, rfl⟩ rfl

theorem polls_sendTranslation : Preserves (Polls l₀) sendTranslation :=
  .get_bind fun s hs => polls_perform (translation s) (fun _ => rfl) s hs

theorem polls_relayTranslation : Preserves (Polls l₀) relayTranslation := by
  refine .get_bind fun s hs => Preserves.ite ?_ (.pure _) s hs
  refine .bind polls_sendTranslation fun sent => .ite (.pure _) (.get_bind fun u hu => ?_)
  have hdie : Preserves (Polls l₀) die := polls_modify fun _ => rfl
  exact Preserves.bind (.onlyIf hdie) (fun _ => .pure _) u hu

theorem polls_relayModelRequest (request : CString) : Preserves (Polls l₀) (relayModelRequest request) := by
  have hsend : Preserves (Polls l₀) (sendModelRequest request) := by
    refine .get_bind fun s hs => Preserves.ite (.pure _) ?_ s hs
    refine .bind (polls_perform _ fun _ => rfl) fun sent => .ite ?_ (.pure _)
    exact .bind (polls_modify fun _ => rfl) fun _ => .pure _
  exact .bind hsend fun _ => .ite (.pure _) (polls_modify fun _ => rfl)

/-- A new worker gets its session, the settings and perhaps a PAUSE. -/
theorem polls_relaunch (launch : Launch) (paused : Bool) : Preserves (Polls l₀) (relaunch launch paused) := by
  have hstart (url : Option CString) : Preserves (Polls l₀) (Sender.startSession url) := by
    refine .get_bind fun s hs => ?_
    refine Preserves.bind (polls_perform _ fun _ => rfl) (fun _ => ?_) s hs
    exact .bind (polls_modify fun _ => rfl) fun _ => .pure _
  refine .bind (polls_modify fun _ => rfl) fun _ => .bind (polls_modify fun _ => rfl) fun _ => .get_bind fun s hs => ?_
  have hblank : Preserves (Polls l₀) blank := polls_modify fun _ => rfl
  refine Ends.ite (fun _ => hs) fun _ => Preserves.bind hblank (fun _ => ?_) s hs
  refine .bind (hstart _) fun _ => .bind (polls_modify fun _ => rfl) fun _ => .ite (.pure _) ?_
  refine .bind polls_sendTranslation fun _ => .ite ?_ (.pure _)
  exact .bind (polls_perform _ fun _ => rfl) fun _ => .pure _

theorem polls_respawnForConfig (t : Round) : Preserves (Polls l₀) (respawnForConfig t) := by
  have hrespawn (launch : Launch) (paused : Bool) : Preserves (Polls l₀) (respawnWorker launch paused false) := by
    refine .bind (polls_modify fun _ => rfl) fun _ => .get_bind fun s hs => Ends.ite (fun _ => hs) fun _ => ?_
    have hrecord : Preserves (Polls l₀) (record (.respawned false)) := fun u hu =>
      hu.snoc (e := .respawned false) ⟨rfl, rfl⟩ rfl
    exact Preserves.bind (polls_modify fun _ => rfl) (fun _ => .bind hrecord fun _ => polls_relaunch _ _) s hs
  refine .get_bind fun s hs => Ends.onlyIf (fun _ => ?_) fun _ => hs
  refine Ends.bind (P := fun _ u => Polls l₀ u) hs fun _ u hu => Ends.get_bind ?_
  exact (hrespawn _ _ u hu).bind fun _ v hv => hv

theorem polls_pollConfig (t : Round) : Preserves (Polls l₀) (pollConfig t) := by
  have htake : Preserves (Polls l₀) (takeSnapshot t) := by
    have htold : Preserves (Polls l₀) (do
        modify fun s => { s with lastConfigPollUs := t.cfgNowUs, cfg := { s.cfg with valid := true } }
        let s ← get
        onlyIf (s.cfg.modelDownload.val ≠ []) (relayModelRequest s.cfg.modelDownload)) :=
      .bind (polls_modify fun _ => rfl) fun _ => .get_bind fun s hs => Preserves.onlyIf (polls_relayModelRequest _) s hs
    refine .bind (polls_modify fun _ => rfl) fun _ => .bind polls_relayTranslation fun told => .ite htold ?_
    exact .bind (polls_modify fun _ => rfl) fun _ => htold
  have hcompare : Preserves (Polls l₀) (compareSnapshot t) := by
    refine .get_bind fun s hs => Preserves.bind (.onlyIf ?_) (fun _ => .bind (.onlyIf (.ite ?_ ?_)) fun _ => .onlyIf ?_) s hs
    · exact .bind (polls_modify fun _ => rfl) fun _ => .bind polls_relayTranslation fun _ => .pure _
    · exact polls_relayModelRequest _
    · exact polls_modify fun _ => rfl
    · exact polls_respawnForConfig t
  refine .get_bind fun s hs => Preserves.ite htake (.ite ?_ (.pure _)) s hs
  exact .bind (polls_modify fun _ => rfl) fun _ => .onlyIf hcompare

/-! ## The input -/

theorem Well.unheld (hs : Well b h n l₀ s) : Well b false n l₀ s :=
  ⟨⟨hs.toCounted, hs.dead, nofun⟩, hs.active, hs.source⟩

theorem well_swapMedia (url : CString) : Preserves (Well b h n l₀) (swapMedia url) := by
  intro s hs
  unfold swapMedia
  refine Ends.bind (P := fun _ t => Well b h n l₀ t) (hs.of_sees rfl) fun _ t ht => ?_
  refine (well_blank t ht).bind fun _ u hu => (sober_perform _ u hu.toSober).bind fun _ v hv => ?_
  refine Ends.bind (P := fun _ w => Sober b h n l₀ w) (hv.of_glimpses rfl) fun _ w hw => ?_
  exact (well_startSession _ hw).bind fun started x hx => Ends.onlyIf (fun _ => hx.of_sees rfl) fun _ => hx

theorem well_detectMediaSwap (input : Option Input) : Preserves (Well b h n l₀) (detectMediaSwap input) := by
  intro s hs
  refine Ends.get_bind ?_
  split
  · exact Ends.onlyIf (fun _ => well_swapMedia _ s hs) fun _ => hs
  · exact hs

theorem steady_pausedFlags (c : Conn) (pts time : Int64) (rate : Binary32) (paused : Bool) :
    Steady c (.sendPosition pts time rate (pausedFlags paused)) := by
  show seekRestarts c.client (pausedFlags paused) = false
  unfold seekRestarts pausedFlags
  cases paused
  · simp [positionFlagSeek]
  · have hflags : positionFlagPaused &&& positionFlagSeek = 0 := by decide
    simp [hflags]

theorem well_pace (positionUs : Int64) (playbackRate : Binary32) (paused : Bool) (hs : Well b true n l₀ s) :
    Ends (pace positionUs playbackRate paused) s fun _ t => Well b true n l₀ t := by
  refine Ends.get_bind (Ends.ite (fun hsends => ?_) fun _ => hs)
  have hactive : s.sessionActive = true := ((Bool.and_eq_true ..).mp hsends).2
  refine Ends.bind (P := fun _ t => Well b true n l₀ t ∧ t.sessionActive = true) ⟨hs.of_sees rfl, hactive⟩
    fun _ t ⟨ht, hactive⟩ => ?_
  refine (well_perform ht fun c _ => steady_pausedFlags c positionUs positionUs playbackRate paused).bind
    fun ok u ⟨hu, hfails⟩ => Ends.ite (fun _ => hu) fun hok => ?_
  have hcause : Since Cause u.log := by
    rcases hfails (Bool.eq_false_iff.mpr hok) with ⟨hnone, -⟩ | ⟨c, hclient, hfalse, rfl⟩
    · have hheld := ht.held rfl
      rw [hnone] at hheld
      cases hheld
    · exact ht.since_called hclient hactive fun hc => cause_of_sendPosition hc hfalse
  exact (well_die hu hcause).bind fun _ v hv => hv

theorem well_follow (t : Round) (positionUs : Int64) (playbackRate : Binary32) (paused : Bool) (hs : Well b true n l₀ s) :
    Ends (follow t positionUs playbackRate paused) s fun _ u => Well b true n l₀ u := by
  refine Ends.ite (fun _ => ?_) fun _ => well_pace _ _ _ hs
  refine (well_blank s hs).bind fun _ u hu => ?_
  refine Ends.bind (P := fun _ v => Well b true n l₀ v) (hu.of_sees rfl) fun _ v hv => ?_
  exact (well_pace _ _ _ hv).bind fun ok w hw => hw.of_sees rfl

theorem well_signalSeek (positionUs : Int64) : Preserves (Well b h n l₀) (signalSeek positionUs) :=
  well_modify fun _ => rfl

theorem well_detectPausedSeek (nowPaused : Bool) (positionUs : Int64) :
    Preserves (Well b h n l₀) (detectPausedSeek nowPaused positionUs) := by
  refine .get_bind fun s hs => Preserves.ite ?_ ?_ s hs
  · refine .ite (well_modify fun _ => rfl) (.bind (.onlyIf (well_signalSeek positionUs)) fun _ => ?_)
    exact well_modify fun _ => rfl
  · exact .onlyIf (well_modify fun _ => rfl)

theorem well_detectSeek (t : Round) (nowPaused : Bool) (positionUs : Int64) :
    Preserves (Well b h n l₀) (detectSeek t nowPaused positionUs) := by
  refine .get_bind fun s hs => ?_
  dsimp only
  refine Preserves.bind (.onlyIf ?_) (fun _ => .onlyIf ?_) s hs
  · exact .bind (well_signalSeek positionUs) fun _ => .onlyIf (well_modify fun _ => rfl)
  · exact well_modify fun _ => rfl

theorem well_pollInput (t : Round) (hs : Well b true n l₀ s) : Ends (pollInput t) s fun _ u => Well b true n l₀ u := by
  refine Ends.get_bind (Ends.ite (fun _ => ?_) fun _ => hs)
  refine Ends.bind (P := fun _ u => Well b true n l₀ u) (hs.of_sees rfl) fun _ u hu => ?_
  refine (well_detectMediaSwap _ u hu).bind fun _ v hv => Ends.get_bind ((well_follow t _ _ _ hv).bind fun told w hw => ?_)
  refine Ends.ite (fun _ => ?_) fun _ => hw
  exact (well_detectPausedSeek _ _ w hw).bind fun _ x hx => (well_detectSeek t _ _ x hx).bind fun _ y hy => hy

theorem well_followPause (p : Polled) : Preserves (Well b h n l₀) (followPause p) := by
  have hcall {call : Call} (hcall : ∀ c, Steady c call) : Preserves (Well b h n l₀) (perform call) :=
    fun s hs => (well_perform hs fun c _ => hcall c).mono fun _ _ ht => ht.1
  have hset : Preserves (Well b h n l₀) (modify fun s => { s with paused := p.nowPaused }) := well_modify fun _ => rfl
  refine .get_bind fun s hs => Preserves.onlyIf ?_ s hs
  dsimp only
  refine .ite (.ite ?_ ?_) ?_
  · refine .bind (.onlyIf ?_) fun _ => hset
    exact .bind (well_modify fun _ => rfl) fun _ => well_signalSeek _
  · exact .bind well_blank fun _ => .bind (hcall fun _ => trivial) fun _ => hset
  · exact .bind (well_modify fun _ => rfl) fun _ => .bind well_blank fun _ => .bind (hcall fun _ => trivial) fun _ => hset

/-! ## Seeks -/

theorem well_restartLive (seekTargetUs : Int64) : Preserves (Well b h n l₀) (restartLive seekTargetUs) := by
  intro s hs
  refine (sober_perform _ s hs.toSober).bind fun _ t ht => ?_
  refine Ends.bind (P := fun _ u => Sober b h n l₀ u) (ht.of_glimpses rfl) fun _ u hu => ?_
  refine (well_startSession none hu).bind fun started v hv => Ends.ite (fun _ => ?_) fun _ => hv
  refine (well_sendTranslation hv).bind fun _ w ⟨hw, _⟩ => Ends.get_bind (Ends.onlyIf (fun _ => ?_) fun _ => hw)
  exact (well_perform hw fun c _ => steady_pausedFlags c _ _ _ _).bind fun _ x ⟨hx, _⟩ => hx

/-- A source seek that fails does so for a cause. -/
theorem well_seekSource (seekTargetUs : Int64) (preview : Bool) (hs : Well b true n l₀ s) (hactive : s.sessionActive = true) :
    Ends (seekSource seekTargetUs preview) s fun _ t => Well b true n l₀ t := by
  refine Ends.onlyIf (fun _ => ?_) fun _ => hs
  refine Ends.bind (P := fun _ t => Well b true n l₀ t ∧ t.sessionActive = true) ⟨hs.of_sees rfl, hactive⟩
    fun _ t ⟨ht, hactive⟩ => Ends.get_bind ((ends_perform _ t).bind fun ok u hu => ?_)
  rcases hu with ⟨hnone, -, -⟩ | ⟨c, hclient, hok, rfl⟩
  · have hheld := ht.held rfl
    rw [hnone] at hheld
    cases hheld
  · refine Ends.ite (fun htrue => ?_) fun hfalse => ?_
    · refine ⟨ht.toSober.called _ c _, fun hdead _ d hd => ?_, ht.source⟩
      obtain rfl := Option.some.inj hd
      exact active_sendPosition (ht.active hdead hactive c hclient) _ _ _ _ (.inr (hok ▸ htrue))
    · rw [hok, Bool.not_eq_true] at hfalse
      refine (ht.toSober.called _ c _).die ht.source ?_
      exact ht.since_called hclient hactive fun hc => cause_of_sendPosition hc hfalse

theorem well_followSeek (t : Round) : Preserves (Well b true n l₀) (followSeek t) := by
  intro s hs
  refine Ends.get_bind (Ends.onlyIf (fun _ => ?_) fun _ => hs)
  dsimp only
  have hseek (preview : Bool) (targetUs : Int64) (u : Sender)
      (hu : Well b true n l₀ u ∧ (s.sourceModeActive = true → u.sessionActive = true)) :
      Ends (if s.sourceModeActive then seekSource targetUs preview else restartLive targetUs) u fun _ v => Well b true n l₀ v :=
    Ends.ite (fun hmode => well_seekSource _ _ hu.1 (hu.2 hmode)) fun _ => well_restartLive _ u hu.1
  refine Ends.bind (P := fun _ u => Well b true n l₀ u ∧ (s.sourceModeActive = true → u.sessionActive = true))
    ⟨hs.of_sees rfl, hs.source⟩ fun _ u hu => Ends.ite (fun _ => ?_) fun _ => ?_
  · exact Ends.bind (P := fun _ v => Well b true n l₀ v ∧ (s.sourceModeActive = true → v.sessionActive = true))
      ⟨hu.1.of_sees rfl, hu.2⟩ fun _ v hv => hseek _ _ v hv
  · refine Ends.bind (P := fun _ v => Well b true n l₀ v ∧ (s.sourceModeActive = true → v.sessionActive = true))
      ⟨hu.1.of_sees rfl, hu.2⟩ fun _ v hv => ?_
    exact Ends.bind (P := fun _ w => Well b true n l₀ w ∧ (s.sourceModeActive = true → w.sessionActive = true))
      ⟨hv.1.of_sees rfl, hv.2⟩ fun _ w hw => hseek _ _ w hw

/-! ## Audio and frames -/

theorem well_sendBurst {forwards : Bool} (sentAny : Bool) (chunks : List AudioChunk) (hs : Well b true n l₀ s)
    (hactive : forwards = true → s.sessionActive = true) :
    Ends (sendBurst forwards sentAny chunks) s fun _ t => Well b true n l₀ t := by
  induction chunks generalizing sentAny s with
  | nil => exact hs
  | cons chunk chunks ih =>
    refine Ends.ite (fun hforwards => ?_) fun _ => ih sentAny hs hactive
    refine (ends_perform _ s).bind fun ok t ht => ?_
    rcases ht with ⟨hnone, -, -⟩ | ⟨c, hclient, hok, rfl⟩
    · have hheld := hs.held rfl
      rw [hnone] at hheld
      cases hheld
    · refine Ends.ite (fun _ => ih true ⟨hs.toSober.called _ c _, fun hdead _ d hd => ?_, hs.source⟩ hactive) fun hfalse => ?_
      · obtain rfl := Option.some.inj hd
        exact active_outcome (hs.active hdead (hactive hforwards) c hclient) (by exact trivial)
      · rw [hok, Bool.not_eq_true] at hfalse
        have hcause := hs.since_called hclient (hactive hforwards) fun hc => cause_of_sendAudio hc hfalse
        exact ((hs.toSober.called _ c _).die hs.source hcause).bind fun _ u hu => hu

theorem active_receiveFrame {c : Conn} (hc : Active c) (timeoutUs : UInt32) : Active ((Conn.receiveFrame timeoutUs).run c).2 := by
  have hreads : Relation.ReflTransGen _ c.ledger ((Conn.receiveFrame timeoutUs).run c).2.ledger :=
    Conn.reads_receiveFrame timeoutUs c
  have hinv (x y : Client × List (Option SessionId) × Bytes) (_ : x.1.connected = true → x.1.sessionActive = true)
      (hxy : y = (dropTransport x.1, x.2)) : y.1.connected = true → y.1.sessionActive = true := by
    rintro hconn
    rw [hxy, Conn.dropTransport_connected x.1] at hconn
    cases hconn
  exact steps_invariant hinv hreads hc

theorem well_receiveFrame (timeoutUs : UInt32) (hs : Well b true n l₀ s) : Ends (Sender.receiveFrame timeoutUs) s fun r t =>
    Well b true n l₀ t ∧ ∃ c, r = ((Conn.receiveFrame timeoutUs).run c).1 ∧ t.log = s.log ++ [.received timeoutUs c] := by
  refine (ends_receiveCall timeoutUs s).mono fun r t ht => ?_
  rcases ht with ⟨hnone, -, -⟩ | ⟨c, hclient, rfl, rfl⟩
  · have hheld := hs.held rfl
    rw [hnone] at hheld
    cases hheld
  · refine ⟨⟨⟨hs.toCounted.logged rfl rfl rfl, fun hdead => (hs.dead hdead).append ?_, fun _ => rfl⟩, fun hdead hactive d hd => ?_,
      hs.source⟩, c, rfl, rfl⟩
    · rintro x hx
      rw [List.mem_singleton.mp hx]
      rfl
    · obtain rfl := Option.some.inj hd
      exact active_receiveFrame (hs.active hdead hactive c hclient) timeoutUs

theorem well_onSegment (t : Round) (isSourceMode : Bool) (segment : CaptionSegment) :
    Preserves (Well b h n l₀) (onSegment t isSourceMode segment) := by
  refine .get_bind fun s hs => Preserves.ite (.pure ()) (.ite (.pure ()) (.ite ?_ (.ite ?_ (.pure ())))) s hs
  · exact .bind (well_record rfl) fun _ => well_present _
  · exact .bind (well_modify fun _ => rfl) fun _ => .bind (well_record rfl) fun _ => well_present _

theorem well_onModelProgress (t : Round) (progress : ModelProgress) :
    Preserves (Well b false n l₀) (onModelProgress t progress) := by
  refine .bind (.onlyIf (well_modify fun _ => rfl)) fun _ => .get_bind fun s hs => Preserves.onlyIf ?_ s hs
  exact .bind (well_modify fun _ => rfl) fun _ => .bind (well_activateDownloadedModel t _) fun _ => .pure ()

theorem well_onPayload (t : Round) (isSourceMode : Bool) {p : Payload} (hs : Well b false n l₀ s)
    (hcause : ∀ err, p = .error err → err.recoverable = 0 → Since Cause s.log) :
    Ends (onPayload t isSourceMode p) s fun _ u => Well b false n l₀ u := by
  cases p with
  | captionSegment segment => exact well_onSegment t isSourceMode segment s hs
  | modelProgress progress => exact well_onModelProgress t progress s hs
  | error err => exact Ends.onlyIf (fun h => well_die hs (hcause err rfl (of_decide_eq_true h))) fun _ => hs
  | _ => exact hs

theorem well_takeFrame (t : Round) (isSourceMode sentAny : Bool) (hs : Well b true n l₀ s) :
    Ends (takeFrame t isSourceMode sentAny) s fun _ u => Well b false n l₀ u := by
  refine (well_receiveFrame _ hs).bind fun r u ⟨hu, c, hr, hlog⟩ => ?_
  split
  · have hfatal : Since Cause u.log := hlog ▸ since_last _ (.inl (.inl (hr ▸ rfl)))
    exact (well_die hu.unheld hfatal).bind fun _ v hv => hv.of_sees rfl
  · rename_i p
    refine (well_onPayload t isSourceMode hu.unheld fun err hp hfatal => ?_).bind fun _ v hv => hv
    exact hlog ▸ since_last _ (.inl (.inr ⟨err, hr ▸ congrArg some hp, hfatal⟩))
  · exact hu.unheld

theorem well_flushPending (t : Round) (isSourceMode : Bool) : Preserves (Well b h n l₀) (flushPending t isSourceMode) := by
  intro s hs
  refine Ends.get_bind ?_
  split
  · exact Ends.onlyIf (fun _ => well_present _ s hs) fun _ => hs
  · exact hs

/-! ## Rounds -/

theorem well_serve (t : Round) (hs : Well b true n l₀ s) : Ends (serve t) s fun _ u => Well b false n l₀ u := by
  refine Ends.get_bind ((well_sendBurst false t.chunks hs fun hforwards => ?_).bind fun sentAny u hu => ?_)
  · exact ((Bool.and_eq_true ..).mp hforwards).2
  · refine Ends.get_bind (Ends.ite (fun _ => hu.unheld) fun _ => (well_takeFrame t _ sentAny hu).bind fun taken v hv => ?_)
    exact Ends.ite (fun _ => well_flushPending t _ v hv) fun _ => hv

theorem well_attend (t : Round) (hs : Well b true n l₀ s) : Ends (attend t) s fun _ u => Well b false n l₀ u := by
  refine (well_pollInput t hs).bind fun polled u hu => ?_
  cases polled with
  | none => exact hu.unheld
  | some p =>
    refine (well_followPause p u hu).bind fun _ v hv => (well_followSeek t v hv).bind fun _ w hw => ?_
    exact well_serve t hw

theorem well_idle (t : Round) : Preserves (Well b false n l₀) (idle t) := by
  intro s hs
  refine Ends.get_bind (Ends.onlyIf (fun _ => ?_) fun _ => hs)
  refine Ends.bind (P := fun _ u => Well b false n l₀ u) (hs.of_sees rfl) fun _ u hu => ?_
  exact (well_respawnWorker t.retry _ hu.toCounted hu.source).bind fun _ v hv => hv

/-- At the head of the loop: a worker that counts as dead does so for a cause. -/
def AtHead (s : Sender) : Prop := s.respawnCount ≤ maxWorkerRespawns ∧ Well false false s.respawnCount s.log s

/-- A respawn is counted, or the budget is used up. -/
def Spends (n : Nat) (log : List Event) (u : Sender) : Prop :=
  (u.respawnCount = n + 1 ∧ ∃ after, u.log = log ++ .respawned true :: after) ∨ u.respawnCount = n ∧ u.log = log

/-- What a round leaves, and whether it goes on. -/
def Leaves (s : Sender) (goesOn : Bool) (u : Sender) : Prop :=
  u.respawnCount ≤ maxWorkerRespawns ∧ Well false false u.respawnCount s.log u ∧
    (goesOn = true ∧ u.respawnCount = s.respawnCount ∨
      ∃ v, Polls s.log v ∧ Since Cause v.log ∧ Spends s.respawnCount v.log u)

theorem Well.leaves (hs : Well false false n l₀ t) (hn : n = s.respawnCount) (hl₀ : l₀ = s.log)
    (hcount : s.respawnCount ≤ maxWorkerRespawns) : Leaves s true t := by
  subst hn hl₀
  have hsame := hs.count
  refine ⟨hsame ▸ hcount, ?_, .inl ⟨rfl, hsame⟩⟩
  rw [hsame]
  exact hs

/-- A counted respawn, or the end of the loop. -/
theorem ends_recover (t : Round) (hs : Well false false n l₀ s) (hcount : n ≤ maxWorkerRespawns) :
    Ends (recover t) s fun _ u => Spends n s.log u ∧ u.respawnCount ≤ maxWorkerRespawns ∧
      Well false false u.respawnCount l₀ u := by
  obtain rfl : s.respawnCount = n := hs.count
  have hrespawn : Ends (respawnWorker t.recovery s.paused true) s fun _ u => Spends s.respawnCount s.log u ∧
      u.respawnCount ≤ maxWorkerRespawns ∧ Well false false u.respawnCount l₀ u := by
    refine Ends.modify_bind (Ends.get_bind (Ends.ite (fun _ => ?_) fun hbudget => ?_))
    · exact ⟨.inr ⟨rfl, rfl⟩, hcount, hs.of_sees rfl⟩
    · have hleft : s.respawnCount + 1 ≤ maxWorkerRespawns := by
        have hnot : ¬ maxWorkerRespawns ≤ s.respawnCount := by simpa using hbudget
        omega
      refine Ends.bind (P := fun _ u => Kept false (s.respawnCount + 1) s.log u ∧ u.log = s.log)
        ⟨⟨⟨rfl, List.prefix_rfl, hs.respawning⟩, hs.source⟩, rfl⟩ fun _ u ⟨hu, hlog⟩ => ?_
      refine Ends.bind (P := fun _ u => Kept false (s.respawnCount + 1) (s.log ++ [.respawned true]) u)
        ⟨⟨hu.1.count, hlog ▸ List.prefix_rfl, hu.1.respawning⟩, hu.2⟩ fun _ v hv => ?_
      refine (well_relaunch t.recovery s.paused hv.1 hv.2).mono fun _ w hw => ?_
      obtain ⟨after, hafter⟩ := hw.grows
      refine ⟨.inl ⟨hw.count, after, by rw [← hafter, List.append_assoc, List.singleton_append]⟩, hw.count ▸ hleft, ?_⟩
      have hgrows : l₀ <+: w.log := (hs.grows.trans (List.prefix_append _ _)).trans hw.grows
      exact ⟨⟨⟨rfl, hgrows, hw.respawning⟩, hw.dead, hw.held⟩, hw.active, hw.source⟩
  refine Ends.get_bind (hrespawn.bind fun ok u hu => Ends.ite (fun _ => ?_) fun _ => hu)
  exact ⟨hu.1, hu.2.1, hu.2.2.of_sees rfl⟩

theorem leaves_round (t : Round) (hs : AtHead s) (hlaw : ¬ RequestRefused s t) : Ends (round t) s (Leaves s) := by
  obtain ⟨hcount, hs⟩ := hs
  have hpoll : Ends (pollConfig t) s fun _ u => Well false false s.respawnCount s.log u ∧ Polls s.log u :=
    ⟨ends_pollConfig t hs hlaw, polls_pollConfig t s ⟨[], (List.append_nil _).symm, List.forall_mem_nil _⟩⟩
  refine hpoll.bind fun _ u ⟨hu, hpolls⟩ => Ends.get_bind (Ends.ite (fun hdead => ?_) fun _ => Ends.ite (fun _ => ?_) fun hsome => ?_)
  · exact (ends_recover t hu hcount).mono fun _ v ⟨hlog, hv, hwell⟩ => ⟨hv, hwell, .inr ⟨u, hpolls, hu.dead hdead, hlog⟩⟩
  · exact (well_idle t u hu).bind fun _ v hv => hv.leaves rfl rfl hcount
  · have hheld : Well false true s.respawnCount s.log u := ⟨⟨hu.toCounted, hu.dead, fun _ => by simpa [Option.isSome_iff_ne_none] using hsome⟩, hu.active, hu.source⟩
    exact (well_attend t hheld).bind fun _ v hv => hv.leaves rfl rfl hcount

/-- The poll restarts nothing: a cause that it did not see before is the worker's. -/
theorem Polls.fails {v : Sender} (hv : Polls l₀ v) (hcause : Since Cause v.log) (hlaw : ¬ Since RestartRefused l₀) :
    Since WorkerFails v.log := by
  obtain ⟨more, hlog, hmore⟩ := hv
  obtain ⟨pre, e, post, hsplit, he, hpost⟩ := hcause
  refine ⟨pre, e, post, hsplit, he.resolve_right fun hrefused => ?_, hpost⟩
  have hnew : e ∉ more := fun hmem => by
    have hquiet := (hmore e hmem).1
    rw [hrefused.isSeek] at hquiet
    cases hquiet
  rw [hlog] at hsplit
  rcases List.append_eq_append_iff.mp hsplit with ⟨a, -, rfl⟩ | ⟨a, rfl, ha⟩
  · exact hnew (by simp)
  · cases a with
    | nil => exact hnew (by rw [← List.nil_append more, ← ha]; exact List.mem_cons_self)
    | cons x a =>
      obtain ⟨rfl, rfl⟩ := List.cons.inj ha
      exact hlaw ⟨pre, e, a, rfl, hrefused, fun x hx => hpost x (List.mem_append_left _ hx)⟩

/-- The round keeps the law. -/
theorem atHead_step (s : Sender) (t : Round) (hs : AtHead s) (hlaw : Meets s t) : AtHead (s.step t) ∧ Justified s t := by
  by_cases hended : s.ended = true
  · have hstep : s.step t = s := by
      unfold Sender.step
      rw [if_pos hended]
    unfold Justified
    rw [hstep]
    exact ⟨hs, fun h => absurd rfl h, fun _ h => absurd rfl h⟩
  · have hstep : s.step t = { ((round t).run s).2 with ended := !((round t).run s).1 } := by
      unfold Sender.step
      rw [if_neg hended]
    have hleaves : Leaves s ((round t).run s).1 ((round t).run s).2 := leaves_round t hs hlaw.1
    obtain ⟨hcount, hwell, hwhy⟩ := hleaves
    unfold Justified
    rw [hstep]
    refine ⟨⟨hcount, ⟨⟨⟨rfl, List.prefix_rfl, hwell.respawning⟩, hwell.dead, nofun⟩, hwell.active, hwell.source⟩⟩, ?_⟩
    rcases hwhy with ⟨hgoes, hsame⟩ | ⟨v, hpolls, hcause, hlog⟩
    · rw [Bool.not_eq_true] at hended
      rw [hgoes, hended]
      exact ⟨fun h => absurd hsame h, fun _ h => absurd rfl h⟩
    · have hfails := hpolls.fails hcause hlaw.2
      obtain ⟨before, hbefore, hplain⟩ := hpolls
      rw [hbefore] at hfails hlog
      rcases hlog with ⟨hmore, after, hafter⟩ | ⟨hsame, hlog⟩
      · refine ⟨fun _ => ⟨before, after, hafter, fun e he => (hplain e he).2, hfails⟩, fun hsame => ?_⟩
        exact absurd (hmore.symm.trans hsame) (Nat.succ_ne_self _)
      · exact ⟨fun h => absurd hsame h, fun _ _ => hlog ▸ hfails⟩

theorem atHead_start (launch : Launch) (modelPath : CString) (authToken : CArray authTokenBytes) :
    AtHead (Sender.start launch modelPath authToken) := by
  have hopened : Sober false false 0 [] (opened launch modelPath authToken) := ⟨⟨rfl, List.prefix_rfl, rfl⟩, nofun, nofun⟩
  have hbegin : Ends (begin launch.uri) (opened launch modelPath authToken) fun _ t => Well false false 0 [] t := by
    refine Ends.get_bind (Ends.bind (P := fun _ t => Sober false false 0 [] t) (hopened.of_glimpses rfl) fun _ t ht => ?_)
    exact (well_startSession _ ht).bind fun _ u hu => hu
  have hwell : Well false false 0 [] (Sender.start launch modelPath authToken) := hbegin
  refine ⟨hwell.count ▸ Nat.zero_le _, ?_⟩
  rw [hwell.count]
  exact ⟨⟨⟨hwell.count, List.prefix_rfl, hwell.respawning⟩, hwell.dead, hwell.held⟩, hwell.active, hwell.source⟩

/-- **The budget.** Whatever the settings, the input and the workers do: if the law is kept, a respawn is counted and the
loop ends only after the worker that was launched last has failed, and never more than three are counted. -/
theorem respawn_budget (launch : Launch) (modelPath : CString) (authToken : CArray authTokenBytes) (rounds : List Round)
    (hlaw : Along Sender.step Meets (Sender.start launch modelPath authToken) rounds) :
    Along Sender.step Justified (Sender.start launch modelPath authToken) rounds ∧
      (run Sender.step (Sender.start launch modelPath authToken) rounds).respawnCount ≤ maxWorkerRespawns :=
  ⟨.of_invariant (fun s t hs h => (atHead_step s t hs h).1) (fun s t hs h => (atHead_step s t hs h).2)
      (atHead_start launch modelPath authToken) hlaw,
    (run_invariant (fun s t hs h => (atHead_step s t hs h).1) (atHead_start launch modelPath authToken) hlaw).1⟩

/-! ## A worker that dies, and a request without one -/

/-- HELLO_ACK of a worker that can transcribe. -/
def helloAckFrame (sequence : UInt64) : WireFrame where
  type := .helloAck
  sequence := sequence
  payload := [1, 0, 6, 0, 1, 0, 0, 0, 1, 0, 0x31]
  fits := by decide

/-- A process that has come up, its frames, and how the receives after them end. -/
def endpoint (frames : List WireFrame) (after : List Arrival) : Conn where
  client := Conn.newClient none
  lastWorkerSequence := none
  workerProtocolMinor := 0
  random := [some (.zero 16)]
  link :=
    { pipe := { inflight := frames.flatMap fun f => [encodeHeader f.header, f.payload], closed := false }
      arrivals := frames.flatMap (fun _ => [.record, .record]) ++ after
      sends := []
      clock := List.replicate 40 0
      log := [] }

def launchOf (first : Option Conn) : Launch := ⟨first, none, none, none⟩

/-- A worker that accepts its session and then dies. -/
def dying : Launch := launchOf (some (endpoint [helloAckFrame 1, startedFrame 2] [.broken]))

/-- A round in which nothing happens, but for a request. -/
def quietRound (modelDownload : Option CString) (recovery : Launch) : Round where
  config := ⟨none, none, none, none, modelDownload, 4, false, false, none, none, 0⟩
  cfgNowUs := 0
  cfgRespawn := launchOf none
  cfgRespawnAtUs := 0
  recovery := recovery
  idleNowUs := 0
  retry := launchOf none
  showPaused := false
  nowUs := 0
  input := none
  rateChanged := false
  seekThresholdUs := 1500000
  discontinuity := false
  chunks := []
  modelDir := none
  modelExists := false
  activation := launchOf none
  minMediaFloorUs := 0

theorem WorkerFails.not_respawn {e : Event} (h : WorkerFails e) : isRespawn e = false := by
  cases e with
  | respawned => exact h.elim
  | _ => rfl

theorem meets_of_quiet {s : Sender} {t : Round} (hrequest : (requested s t).val = [])
    (hseek : ∀ e ∈ s.log, isSeek e = false) : Meets s t := by
  refine ⟨fun h => h.1 hrequest, fun ⟨pre, e, post, hlog, hrefused, _⟩ => ?_⟩
  have hquiet := hseek e (by rw [hlog]; simp)
  rw [hrefused.isSeek] at hquiet
  cases hquiet

/-- The second round replaces the worker. -/
theorem respawn_budget_dying :
    Along Sender.step Justified (Sender.start dying .empty (.zero 32)) [quietRound none dying, quietRound none dying] ∧
      (run Sender.step (Sender.start dying .empty (.zero 32)) [quietRound none dying, quietRound none dying]).respawnCount ≤
        maxWorkerRespawns :=
  respawn_budget dying .empty (.zero 32) [quietRound none dying, quietRound none dying]
    ⟨meets_of_quiet (by decide +kernel) (by decide +kernel), meets_of_quiet (by decide +kernel) (by decide +kernel), trivial⟩

example : (run Sender.step (Sender.start dying .empty (.zero 32))
    [quietRound none dying, quietRound none dying]).respawnCount = 1 := by decide +kernel

/-- Without a client, the first request for a model counts a respawn. -/
theorem not_respawn_budget : ¬ ∀ (launch : Launch) (modelPath : CString) (authToken : CArray authTokenBytes)
    (rounds : List Round), Along Sender.step Justified (Sender.start launch modelPath authToken) rounds := by
  intro h
  obtain ⟨hjustified, -⟩ := h (launchOf none) .empty (.zero 32) [quietRound (some (.ofString "tiny")) (launchOf none)]
  have hcounted : ((Sender.start (launchOf none) .empty (.zero 32)).step
      (quietRound (some (.ofString "tiny")) (launchOf none))).respawnCount = 1 := by decide +kernel
  have honly : ∀ e ∈ ((Sender.start (launchOf none) .empty (.zero 32)).step
      (quietRound (some (.ofString "tiny")) (launchOf none))).log, isRespawn e = true := by decide +kernel
  obtain ⟨before, after, hlog, -, pre, e, post, hsplit, hfails, -⟩ := hjustified.1 (by rw [hcounted]; decide)
  have hrespawn := honly e (by rw [hlog, hsplit]; simp)
  rw [hfails.not_respawn] at hrespawn
  cases hrespawn

end VlcWhisper.System
