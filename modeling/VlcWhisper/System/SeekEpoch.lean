import VlcWhisper.System.ClientEpochs

/-!
# Seeks and epochs (`vw_whisper_module.c`)

A seek in source mode replaces the session, while cues of the old one may be in the socket, in the presenter or on their
way. Main result: `seek_epoch`. In every run, after a seek that restarted the session no cue of an earlier session is
handed to the presenter or drawn, the client is in source mode on the new session, and a worker that can translate was
sent the settings that the client was given last before the new POSITION.
-/

namespace VlcWhisper.System

open VlcWhisper.Lib VlcWhisper.Protocol VlcWhisper.Plugin VlcWhisper.Plugin.Sender

/-! ## Reading the log -/

/-- The ids that a call drew. -/
def drawn (s t : Conn) : List SessionId := (s.random.take (s.random.length - t.random.length)).filterMap id

def drawnBy : Event → List SessionId
  | .called call c => drawn c (outcome call c).2
  | _ => []

def drawnIds (log : List Event) : List SessionId := log.flatMap drawnBy

/-- The session that the client is left with. -/
def epochAfter (current : SessionId) : Event → SessionId
  | .called call c => (outcome call c).2.client.sessionId
  | _ => current

def epoch (log : List Event) : SessionId := log.foldl epochAfter (.zero _)

/-- The settings that the client was given last. -/
def configuredAfter (current : Option Translation) : Event → Option Translation
  | .called call c => configuredBy call (outcome call c).1 current
  | .respawned _ => none
  | _ => current

def configured (log : List Event) : Option Translation := log.foldl configuredAfter none

/-- The cue that the presenter is given or draws. -/
def shown : Event → Option CaptionSegment
  | .handed segment => some segment
  | .drawn render => some render.cue.segment
  | _ => none

/-- A seek has restarted the session. -/
def isRestart : Event → Bool
  | .called call c => seeks c call && (outcome call c).1
  | _ => false

theorem drawnIds_append (l m : List Event) : drawnIds (l ++ m) = drawnIds l ++ drawnIds m := List.flatMap_append

theorem epoch_append_one (l : List Event) (e : Event) : epoch (l ++ [e]) = epochAfter (epoch l) e := List.foldl_concat ..

theorem epoch_called (l : List Event) (call : Call) (c : Conn) :
    epoch (l ++ [.called call c]) = (outcome call c).2.client.sessionId :=
  epoch_append_one ..

theorem configured_append_one (l : List Event) (e : Event) : configured (l ++ [e]) = configuredAfter (configured l) e :=
  List.foldl_concat ..

theorem snug_configured (l : List Event) : ∀ tr ∈ configured l, tr.Snug := by
  induction l using List.reverseRecOn with
  | nil => nofun
  | append_singleton l e ih =>
    rw [configured_append_one]
    cases e with
    | called call c => exact snug_configuredBy ih
    | respawned => nofun
    | _ => exact ih

theorem drawn_of_append {s t : Conn} {used : List (Option SessionId)} (h : s.random = used ++ t.random) :
    drawn s t = used.filterMap id := by
  unfold drawn
  rw [h, List.length_append, Nat.add_sub_cancel, List.take_left]

/-! ## The law -/

/-- The client as the log leaves it; a new one has no session yet. -/
structure Knows (log : List Event) (c : Conn) : Prop where
  sessionId : c.client.sessionId = epoch log ∨ c.client.sessionId = .zero _
  active : c.client.sessionActive = true → c.client.sessionId ∈ drawnIds log
  told : settings c.client = configured log

/-- A call is made on that client, and a cue that is shown is one of its session. -/
def Dated (log : List Event) : Event → Prop
  | .called _ c => Knows log c
  | .handed segment => segment.sessionId = epoch log
  | .drawn render => render.cue.segment.sessionId = epoch log
  | _ => True

/-- All events so far are dated, and what is held back while the input plays is of the client's session. -/
structure Current (s : Sender) : Prop where
  past : Explained Dated s.log
  client : ∀ c ∈ s.client, Knows s.log c ∧ c.client.sessionId = epoch s.log
  pending : ∀ cue ∈ s.presenter.pending, s.paused = false → cue.segment.sessionId = epoch s.log

/-- Nothing is held back, or nothing is drawn of it. -/
def Clear (s : Sender) : Prop := s.presenter.pending = none ∨ s.paused = true

variable {s t : Sender}

theorem Clear.pending (h : Clear s) {sessionId : SessionId} :
    ∀ cue ∈ s.presenter.pending, s.paused = false → cue.segment.sessionId = sessionId := by
  intro cue hcue hplays
  rcases h with hnone | hpaused
  · rw [hnone] at hcue
    cases hcue
  · rw [hpaused] at hplays
    cases hplays

/-- What the law depends on. -/
def sights (s : Sender) : Option Conn × CaptionPresenter × Bool × List Event := (s.client, s.presenter, s.paused, s.log)

theorem Current.of_sights (hs : Current s) (ht : sights t = sights s) : Current t := by
  obtain ⟨hclient, hpresenter, hpaused, hlog⟩ : _ ∧ _ ∧ _ ∧ _ := by simpa only [sights, Prod.mk.injEq] using ht
  obtain ⟨hpast, hknows, hpending⟩ := hs
  rw [← hlog] at hpast hknows hpending
  rw [← hclient] at hknows
  rw [← hpresenter, ← hpaused] at hpending
  exact ⟨hpast, hknows, hpending⟩

theorem current_modify {f : Sender → Sender} (hf : ∀ s, sights (f s) = sights s) : Preserves Current (modify f) :=
  fun s hs => hs.of_sights (hf s)

/-! ## Calls -/

theorem knows_called {log : List Event} {c : Conn} (hc : Knows log c) (call : Call) :
    Knows (log ++ [.called call c]) (outcome call c).2 := by
  have hsnug : ∀ tr ∈ settings c.client, tr.Snug := hc.told ▸ snug_configured log
  obtain ⟨⟨used, hused, hid⟩, hsettings⟩ := turns_perform hsnug call
  have hused : c.random = used ++ (outcome call c).2.random := hused
  have hdrawn : drawnIds (log ++ [.called call c]) = drawnIds log ++ used.filterMap id := by
    rw [drawnIds_append]
    show _ ++ (drawn c (outcome call c).2 ++ []) = _
    rw [List.append_nil, drawn_of_append hused]
  refine ⟨.inl (epoch_called ..).symm, fun hactive => ?_, ?_⟩
  · rw [hdrawn, List.mem_append]
    rcases hid with ⟨hsame, hbefore⟩ | hnew
    · have hsame : (outcome call c).2.client.sessionId = c.client.sessionId := hsame
      rw [hsame]
      exact .inl (hc.active (hbefore hactive))
    · exact .inr hnew
  · rw [configured_append_one]
    show settings (outcome call c).2.client = configuredBy call (outcome call c).1 (configured log)
    rw [← hc.told]
    exact hsettings

/-- A state in which a session may be asked for. -/
structure Ready (s : Sender) : Prop where
  past : Explained Dated s.log
  client : ∀ c ∈ s.client, Knows s.log c
  clear : Clear s

theorem Current.ready (hs : Current s) (hclear : Clear s) : Ready s := ⟨hs.past, fun c hc => (hs.client c hc).1, hclear⟩

theorem called_perform (call : Call) (hs : Ready s) : Ends (perform call) s fun _ t => Current t ∧ Clear t := by
  obtain ⟨hpast, hclient, hclear⟩ := hs
  refine (ends_perform call s).mono fun ok t ht => ?_
  rcases ht with ⟨hnone, -, rfl⟩ | ⟨c, hc, -, rfl⟩
  · refine ⟨⟨hpast, fun c hc => ?_, hclear.pending⟩, hclear⟩
    rw [hnone] at hc
    cases hc
  · refine ⟨⟨explained_append_one hpast (hclient c hc), fun d hd => ?_, hclear.pending⟩, hclear⟩
    obtain rfl := Option.some.inj hd
    exact ⟨knows_called (hclient c hc) call, (epoch_called ..).symm⟩

theorem current_perform {call : Call} (hs : Current s) (hcall : ∀ c ∈ s.client, KeepsSession c.client call) :
    Ends (perform call) s fun _ t => Current t := by
  refine (ends_perform call s).mono fun ok t ht => ?_
  rcases ht with ⟨-, -, rfl⟩ | ⟨c, hc, -, rfl⟩
  · exact hs
  · obtain ⟨hknows, hid⟩ := hs.client c hc
    have hstays : Remains c (outcome call c).2 := (stays_perform (hcall c hc)).1
    have hepoch : epoch (s.log ++ [.called call c]) = epoch s.log :=
      (epoch_called ..).trans (hstays.sessionId.trans hid)
    refine ⟨explained_append_one hs.past hknows, fun d hd => ?_, fun cue hcue hplays => (hs.pending cue hcue hplays).trans hepoch.symm⟩
    obtain rfl := Option.some.inj hd
    exact ⟨knows_called hknows call, (epoch_called ..).symm⟩

/-- Events of which the session and the settings know nothing. -/
structure Silent (e : Event) : Prop where
  keepsEpoch : ∀ sessionId, epochAfter sessionId e = sessionId
  keepsSettings : ∀ settings, configuredAfter settings e = settings

theorem Silent.epoch_append {e : Event} (he : Silent e) (l : List Event) : epoch (l ++ [e]) = epoch l :=
  (epoch_append_one l e).trans (he.keepsEpoch _)

theorem Knows.silent {log : List Event} {c d : Conn} {e : Event} (hc : Knows log c) (he : Silent e)
    (hid : d.client.sessionId = c.client.sessionId)
    (hactive : d.client.sessionActive = true → c.client.sessionActive = true)
    (hsettings : settings d.client = settings c.client) : Knows (log ++ [e]) d := by
  refine ⟨?_, fun hd => ?_, ?_⟩
  · rw [he.epoch_append, hid]
    exact hc.sessionId
  · rw [drawnIds_append, hid]
    exact List.mem_append_left _ (hc.active (hactive hd))
  · rw [configured_append_one, he.keepsSettings, hsettings]
    exact hc.told

theorem Current.silent {e : Event} (hs : Current s) (he : Silent e) (hdated : Dated s.log e)
    (ht : sights t = sights { s with log := s.log ++ [e] }) : Current t := by
  refine Current.of_sights (s := { s with log := s.log ++ [e] }) ?_ ht
  refine ⟨explained_append_one hs.past hdated, fun c hc => ?_, fun cue hcue hplays => ?_⟩
  · obtain ⟨hknows, hid⟩ := hs.client c hc
    exact ⟨hknows.silent he rfl id rfl, hid.trans (he.epoch_append s.log).symm⟩
  · exact (hs.pending cue hcue hplays).trans (he.epoch_append s.log).symm

theorem current_drawn {renders : List Render} (hs : Current s)
    (hrenders : ∀ r ∈ renders, r.cue.segment.sessionId = epoch s.log) :
    Current { s with log := s.log ++ renders.map .drawn } ∧ epoch (s.log ++ renders.map .drawn) = epoch s.log := by
  induction renders generalizing s with
  | nil => exact ⟨hs.of_sights (by rw [List.map_nil, List.append_nil]), by rw [List.map_nil, List.append_nil]⟩
  | cons r renders ih =>
    have hsilent : Silent (.drawn r) := ⟨fun _ => rfl, fun _ => rfl⟩
    have hone : Current { s with log := s.log ++ [.drawn r] } := hs.silent hsilent (hrenders r (List.mem_cons_self ..)) rfl
    obtain ⟨hall, hepoch⟩ := ih hone fun x hx =>
      (hrenders x (List.mem_cons_of_mem _ hx)).trans (hsilent.epoch_append s.log).symm
    rw [List.map_cons, ← List.singleton_append, ← List.append_assoc]
    exact ⟨hall, hepoch.trans (hsilent.epoch_append s.log)⟩

/-- What is drawn and what is held back then are cues of the client's session. -/
theorem current_present {f : CaptionPresenter → List Render × CaptionPresenter} (hs : Current s)
    (hdrawn : ∀ r ∈ (f s.presenter).1, r.cue.segment.sessionId = epoch s.log)
    (hheld : ∀ cue ∈ (f s.presenter).2.pending, s.paused = false → cue.segment.sessionId = epoch s.log) :
    Ends (present f) s fun _ t => Current t := by
  obtain ⟨hall, hepoch⟩ := current_drawn hs hdrawn
  exact ⟨hall.past, hall.client, fun cue hcue hplays => (hheld cue hcue hplays).trans hepoch.symm⟩

theorem clear_blank (hs : Current s) : Ends blank s fun _ t => Current t ∧ Clear t :=
  ⟨⟨hs.past, hs.client, nofun⟩, .inl rfl⟩

theorem current_blank : Preserves Current blank := fun _ hs => (clear_blank hs).mono fun _ _ ht => ht.1

theorem current_die : Preserves Current die := current_modify fun _ => rfl

/-! ## Sessions and respawns -/

theorem called_startSession (sourceUrl : Option CString) (hs : Ready s) :
    Ends (Sender.startSession sourceUrl) s fun _ t => Current t ∧ Clear t := by
  refine Ends.get_bind ((called_perform _ hs).bind fun started t ht => ?_)
  exact ⟨ht.1.of_sights rfl, ht.2⟩

theorem current_sendTranslation : Preserves Current sendTranslation :=
  .get_bind fun _ hs => current_perform hs fun _ _ => trivial

/-- A client that has had no session and no settings. -/
structure Fresh (c : Conn) : Prop where
  sessionId : c.client.sessionId = .zero _
  active : c.client.sessionActive = false
  told : settings c.client = none

/-- The identity of a client. -/
def identity (s : Conn) : (SessionId × Option Translation) × Bool :=
  ((s.client.sessionId, settings s.client), s.client.sessionActive)

/-- A handshake that fails ends the session. -/
abbrev Greets {α : Type} (m : ClientM α) : Prop := Steps identity (fun x y => y = (x.1, false)) m

theorem greets_lost {α : Type} (result : α) : Greets (Conn.lost result) := by
  refine .bind (.modify fun s => ?_) fun _ => .pure _
  show Relation.ReflTransGen _ _ (((dropTransport s.client).sessionId, settings (dropTransport s.client)), (dropTransport s.client).sessionActive)
  unfold dropTransport
  split
  · exact .single rfl
  · exact .refl

theorem greets_onLink {α : Type} (f : Link → α × Link) : Greets (Conn.onLink f) := .modify_of_eq fun _ => rfl

theorem greets_awaitHelloAck : Greets Conn.awaitHelloAck := by
  unfold Conn.awaitHelloAck
  refine .bind (greets_onLink _) fun deadline => ?_
  split
  · exact greets_lost _
  · refine .bind (greets_onLink _) fun ⟨code, buffer⟩ => .ite (greets_lost _) ?_
    split
    · exact greets_lost _
    · refine .ite (greets_lost _) (.bind (greets_onLink _) fun ⟨code, payload⟩ => .ite (greets_lost _) ?_)
      unfold Conn.onHelloAck
      split
      · exact .ite (.bind (.modify_of_eq fun _ => rfl) fun _ => .pure _) (greets_lost _)
      · exact greets_lost _

theorem fresh_connect (authToken : CArray authTokenBytes) (language : Option CString) (s : Conn) :
    Ends (Conn.connect authToken language) s fun _ t => Fresh t := by
  refine Ends.modify_bind ?_
  generalize hnew : ({ s with client := Conn.newClient language, lastWorkerSequence := none, workerProtocolMinor := 0 } : Conn) = u
  have hidentity : identity u = ((.zero _, none), false) := hnew ▸ rfl
  have hstep (x y : (SessionId × Option Translation) × Bool) (hx : x = ((.zero _, none), false)) (hxy : y = (x.1, false)) :
      y = ((.zero _, none), false) := by
    rw [hxy, hx]
  have hafter {m : ClientM Bool} (hm : Greets m) : Ends m u fun _ t => Fresh t := by
    have hend := steps_invariant hstep (hm u) hidentity
    exact ⟨congrArg (·.1.1) hend, congrArg (·.2) hend, congrArg (·.1.2) hend⟩
  split
  · exact hafter (greets_lost _)
  · refine hafter (.bind ?_ fun _ => .ite greets_awaitHelloAck (.pure _))
    unfold Conn.sendParts
    exact .bind (greets_onLink _) fun _ => .ite (.bind (greets_onLink _) fun _ => .ite (.pure _) (greets_lost _)) (greets_lost _)

theorem fresh_launch {authToken : CArray authTokenBytes} {launch : Launch} {c : Conn}
    (h : launchWithAutoRetry authToken launch = some c) : Fresh c := by
  have hconnect {o : Option Conn} (h : o.bind (connectTo authToken launch.language) = some c) : Fresh c := by
    obtain ⟨fresh, -, h⟩ := Option.bind_eq_some_iff.mp h
    unfold connectTo at h
    dsimp only at h
    split at h
    · exact Option.some.inj h ▸ fresh_connect authToken launch.language fresh
    · cases h
  unfold launchWithAutoRetry at h
  split at h
  · rename_i hfirst
    exact hconnect (hfirst.trans h)
  · exact hconnect h

theorem Fresh.knows {c : Conn} (h : Fresh c) {log : List Event} (hlog : configured log = none) : Knows log c := by
  refine ⟨.inr h.sessionId, fun hactive => ?_, h.told.trans hlog.symm⟩
  rw [h.active] at hactive
  cases hactive

/-- What a respawn needs of the state: there is no client, and no settings were given. -/
structure Bereft (s : Sender) : Prop extends Current s where
  none : s.client = none
  told : configured s.log = Option.none

theorem current_relaunch (launch : Launch) (paused : Bool) (hs : Bereft { s with client := none }) :
    Ends (relaunch launch paused) s fun _ t => Current t := by
  refine Ends.bind (P := fun _ t => Bereft t) ⟨hs.toCurrent.of_sights rfl, rfl, hs.told⟩ fun _ t ht => ?_
  refine Ends.bind (P := fun _ u => Explained Dated u.log ∧ (∀ c ∈ u.client, Knows u.log c) ∧ (u.client = none → Current u))
    ⟨ht.past, fun c hc => (fresh_launch hc).knows ht.told, fun hnone => ⟨ht.past, ?_, ht.pending⟩⟩ fun _ u ⟨hpast, hclient, hcurrent⟩ => ?_
  · rw [hnone]
    exact nofun
  · refine Ends.get_bind (Ends.ite (fun hnone => hcurrent (Option.isNone_iff_eq_none.mp hnone)) fun _ => ?_)
    refine Ends.bind (P := fun _ v => Ready v) ⟨hpast, hclient, .inl rfl⟩ fun _ v hv => ?_
    refine (called_startSession _ hv).bind fun started v hv => ?_
    refine Ends.bind (P := fun _ v => Current v) (hv.1.of_sights rfl) fun _ v hv => Ends.ite (fun _ => hv) fun _ => ?_
    refine (current_sendTranslation v hv).bind fun _ w hw => Ends.ite (fun _ => ?_) fun _ => hw
    exact (current_perform hw fun _ _ => by exact trivial).bind fun _ x hx => hx

theorem current_respawnWorker (launch : Launch) (paused transportRecovery : Bool) :
    Preserves Current (respawnWorker launch paused transportRecovery) := by
  intro s hs
  refine Ends.bind (P := fun _ t => Current t) (hs.of_sights rfl) fun _ t ht => Ends.get_bind (Ends.ite (fun _ => ht) fun _ => ?_)
  refine Ends.bind (P := fun _ u => Current u) (ht.of_sights rfl) fun _ u hu => ?_
  refine Ends.bind (P := fun _ v => Bereft { v with client := none }) ?_ fun _ v hv => current_relaunch launch paused hv
  have hepoch : epoch (u.log ++ [.respawned transportRecovery]) = epoch u.log := epoch_append_one ..
  refine ⟨⟨explained_append_one hu.past trivial, nofun, fun cue hcue hplays => ?_⟩, rfl, configured_append_one ..⟩
  exact (hu.pending cue hcue hplays).trans hepoch.symm

theorem current_activateDownloadedModel (t : Round) (modelId : CString) :
    Preserves Current (activateDownloadedModel t modelId) := by
  intro s hs
  unfold activateDownloadedModel
  split
  · exact Ends.ite (fun _ => hs) fun _ => Ends.modify_bind (Ends.get_bind (current_respawnWorker _ _ _ _ (hs.of_sights rfl)))
  · exact hs

/-! ## Settings -/

theorem current_relayTranslation : Preserves Current relayTranslation := by
  refine .get_bind fun s hs => Ends.ite (fun _ => ?_) fun _ => hs
  refine (current_sendTranslation s hs).bind fun ok t ht => Ends.ite (fun _ => ht) fun _ => ?_
  exact Ends.get_bind ((Preserves.onlyIf current_die t ht).bind fun _ u hu => hu)

theorem current_relayModelRequest (request : CString) : Preserves Current (relayModelRequest request) := by
  have hsend : Preserves Current (sendModelRequest request) := by
    refine .get_bind fun s hs => Ends.ite (fun _ => hs) fun _ => ?_
    refine (current_perform hs fun _ _ => by exact trivial).bind fun ok t ht => Ends.ite (fun _ => ?_) fun _ => ht
    exact ht.of_sights rfl
  exact .bind hsend fun _ => .ite (.pure ()) current_die

theorem current_respawnForConfig (t : Round) : Preserves Current (respawnForConfig t) := by
  refine .get_bind fun s hs => Preserves.onlyIf ?_ s hs
  refine .bind (current_modify fun _ => rfl) fun _ => .get_bind fun s hs => ?_
  exact (current_respawnWorker _ _ _ s hs).bind fun _ u hu => hu.of_sights rfl

theorem current_pollConfig (t : Round) : Preserves Current (pollConfig t) := by
  have htake : Preserves Current (takeSnapshot t) := by
    refine .bind (current_modify fun _ => rfl) fun _ => .bind current_relayTranslation fun told => ?_
    have hrest : Preserves Current (do
        modify fun s => { s with lastConfigPollUs := t.cfgNowUs, cfg := { s.cfg with valid := true } }
        let s ← get
        onlyIf (s.cfg.modelDownload.val ≠ []) (relayModelRequest s.cfg.modelDownload)) :=
      .bind (current_modify fun _ => rfl) fun _ => .get_bind fun s hs => Preserves.onlyIf (current_relayModelRequest _) s hs
    exact .ite hrest (.bind (current_modify fun _ => rfl) fun _ => hrest)
  have hcompare : Preserves Current (compareSnapshot t) := by
    refine .get_bind fun s hs => ?_
    dsimp only
    refine Preserves.bind (.onlyIf ?_) (fun _ => .bind (.onlyIf ?_) fun _ => .onlyIf (current_respawnForConfig t)) s hs
    · exact .bind (current_modify fun _ => rfl) fun _ => .bind current_relayTranslation fun _ => .pure ()
    · exact .ite (current_relayModelRequest _) (current_modify fun _ => rfl)
  refine .get_bind fun s hs => Preserves.ite htake (.ite ?_ (.pure ())) s hs
  exact .bind (current_modify fun _ => rfl) fun _ => .onlyIf hcompare

/-! ## The input -/

theorem current_swapMedia (url : CString) : Preserves Current (swapMedia url) := by
  intro s hs
  refine Ends.bind (P := fun _ t => Current t) (hs.of_sights rfl) fun _ t ht => ?_
  refine (clear_blank ht).bind fun _ u hu => ?_
  refine (called_perform _ (hu.1.ready hu.2)).bind fun _ v hv => ?_
  refine Ends.bind (P := fun _ w => Current w ∧ Clear w) ⟨hv.1.of_sights rfl, hv.2⟩ fun _ w hw => ?_
  exact (called_startSession _ (hw.1.ready hw.2)).bind fun started x hx => Ends.onlyIf (fun _ => hx.1.of_sights rfl) fun _ => hx.1

theorem current_detectMediaSwap (input : Option Input) : Preserves Current (detectMediaSwap input) := by
  intro s hs
  refine Ends.get_bind ?_
  split
  · exact Ends.onlyIf (fun _ => current_swapMedia _ s hs) fun _ => hs
  · exact hs

theorem keepsSession_pausedFlags (c : Conn) (pts time : Int64) (rate : Binary32) (paused : Bool) :
    KeepsSession c.client (.sendPosition pts time rate (pausedFlags paused)) :=
  steady_pausedFlags c pts time rate paused

theorem current_pace (positionUs : Int64) (playbackRate : Binary32) (paused : Bool) :
    Preserves Current (pace positionUs playbackRate paused) := by
  refine .get_bind fun s hs => Preserves.ite ?_ (.pure true) s hs
  refine .bind (current_modify fun _ => rfl) fun _ t ht => ?_
  refine (current_perform ht fun c _ => keepsSession_pausedFlags c _ _ _ _).bind fun ok u hu => Ends.ite (fun _ => hu) fun _ => ?_
  exact (current_die u hu).bind fun _ v hv => hv

theorem current_follow (t : Round) (positionUs : Int64) (playbackRate : Binary32) (paused : Bool) :
    Preserves Current (follow t positionUs playbackRate paused) := by
  refine .ite ?_ (current_pace _ _ _)
  refine .bind current_blank fun _ => .bind (current_modify fun _ => rfl) fun _ => .bind (current_pace _ _ _) fun ok => ?_
  exact .bind (current_modify fun _ => rfl) fun _ => .pure ok

theorem current_signalSeek (positionUs : Int64) : Preserves Current (signalSeek positionUs) := current_modify fun _ => rfl

theorem current_detectPausedSeek (nowPaused : Bool) (positionUs : Int64) :
    Preserves Current (detectPausedSeek nowPaused positionUs) := by
  refine .get_bind fun s hs => Preserves.ite ?_ ?_ s hs
  · refine .ite (current_modify fun _ => rfl) (.bind (.onlyIf (current_signalSeek positionUs)) fun _ => ?_)
    exact current_modify fun _ => rfl
  · exact .onlyIf (current_modify fun _ => rfl)

theorem current_detectSeek (t : Round) (nowPaused : Bool) (positionUs : Int64) :
    Preserves Current (detectSeek t nowPaused positionUs) := by
  refine .get_bind fun s hs => ?_
  dsimp only
  refine Preserves.bind (.onlyIf ?_) (fun _ => .onlyIf ?_) s hs
  · exact .bind (current_signalSeek positionUs) fun _ => .onlyIf (current_modify fun _ => rfl)
  · exact current_modify fun _ => rfl

theorem current_pollInput (t : Round) : Preserves Current (pollInput t) := by
  refine .get_bind fun s hs => Preserves.ite ?_ (.pure _) s hs
  refine .bind (current_modify fun _ => rfl) fun _ => .bind (current_detectMediaSwap _) fun _ => .get_bind fun s hs => ?_
  refine (current_follow t _ _ _ s hs).bind fun told u hu => Ends.ite (fun _ => ?_) fun _ => hu
  exact (current_detectPausedSeek _ _ u hu).bind fun _ v hv => (current_detectSeek t _ _ v hv).bind fun _ w hw => hw

theorem presenter_perform (call : Call) : Keeps Sender.presenter (perform call) := by
  refine fun s => .of_eq ?_
  rcases ends_perform call s with ⟨-, -, hsame⟩ | ⟨c, -, -, hafter⟩
  · rw [hsame]
  · rw [hafter]

/-- A pause may keep a cue; it is not drawn before the pause ends, and then it is gone. -/
theorem current_followPause (p : Polled) : Preserves Current (followPause p) := by
  refine .get_bind fun s hs => Ends.onlyIf (fun _ => ?_) fun _ => hs
  have hpause (hpaused : p.nowPaused = true) : Preserves Current (modify fun s => { s with paused := p.nowPaused }) := by
    refine fun s hs => ⟨hs.past, hs.client, fun cue _ hplays => ?_⟩
    have hplays : p.nowPaused = false := hplays
    rw [hpaused] at hplays
    cases hplays
  refine Ends.ite (fun hpaused => Ends.ite (fun _ => ?_) fun _ => ?_) fun _ => ?_
  · refine (Preserves.onlyIf ?_ s hs).bind fun _ t ht => hpause hpaused t ht
    exact .bind (current_modify fun _ => rfl) fun _ => current_signalSeek _
  · exact (current_blank s hs).bind fun _ t ht =>
      (current_perform ht fun _ _ => by exact trivial).bind fun _ u hu => hpause hpaused u hu
  · refine Ends.bind (P := fun _ t => Current t) (hs.of_sights rfl) fun _ t ht => ?_
    refine Ends.bind (P := fun _ u => Current u ∧ u.presenter.pending = none) ⟨⟨ht.past, ht.client, nofun⟩, rfl⟩ fun _ u hu => ?_
    have hresume : Ends (perform .resumeSession) u fun _ v => Current v ∧ v.presenter = u.presenter :=
      ⟨current_perform hu.1 fun _ _ => by exact trivial, (presenter_perform _).eq u⟩
    refine hresume.bind fun _ v ⟨hv, hpresenter⟩ => ⟨hv.past, hv.client, fun cue hcue _ => ?_⟩
    have hcue : cue ∈ v.presenter.pending := hcue
    rw [hpresenter, hu.2] at hcue
    cases hcue

/-! ## Seeks -/

theorem current_restartLive (seekTargetUs : Int64) (hs : Current s) (hclear : Clear s) :
    Ends (restartLive seekTargetUs) s fun _ t => Current t := by
  refine (called_perform _ (hs.ready hclear)).bind fun _ t ht => ?_
  refine Ends.bind (P := fun _ u => Current u ∧ Clear u) ⟨ht.1.of_sights rfl, ht.2⟩ fun _ u hu => ?_
  refine (called_startSession none (hu.1.ready hu.2)).bind fun started v hv => Ends.ite (fun _ => ?_) fun _ => hv.1
  refine (current_sendTranslation v hv.1).bind fun _ w hw => Ends.get_bind (Ends.onlyIf (fun _ => ?_) fun _ => hw)
  exact (current_perform hw fun c _ => keepsSession_pausedFlags c _ _ _ _).bind fun _ x hx => hx

theorem current_seekSource (seekTargetUs : Int64) (preview : Bool) (hs : Current s) (hclear : Clear s) :
    Ends (seekSource seekTargetUs preview) s fun _ t => Current t := by
  refine Ends.onlyIf (fun _ => ?_) fun _ => hs
  refine Ends.bind (P := fun _ t => Current t ∧ Clear t) ⟨hs.of_sights rfl, hclear⟩ fun _ t ht => Ends.get_bind ?_
  refine (called_perform _ (ht.1.ready ht.2)).bind fun ok u hu => Ends.ite (fun _ => hu.1) fun _ => ?_
  exact current_die u hu.1

/-- A seek that keeps its cue for a preview is made in a pause. -/
theorem current_followSeek (t : Round) : Preserves Current (followSeek t) := by
  refine .get_bind fun s hs => Ends.onlyIf (fun _ => ?_) fun _ => hs
  dsimp only
  have hseek (targetUs : Int64) (preview : Bool) (u : Sender) (hu : Current u ∧ Clear u) :
      Ends (if s.sourceModeActive then seekSource targetUs preview else restartLive targetUs) u fun _ v => Current v :=
    Ends.ite (fun _ => current_seekSource _ _ hu.1 hu.2) fun _ => current_restartLive _ hu.1 hu.2
  refine Ends.bind (P := fun _ u => Current u ∧ u.paused = s.paused) ⟨hs.of_sights rfl, rfl⟩ fun _ u ⟨hu, hpaused⟩ =>
    Ends.ite (fun hpreview => ?_) fun _ => ?_
  · rw [Bool.and_eq_true, Bool.and_eq_true] at hpreview
    exact Ends.bind (P := fun _ v => Current v ∧ Clear v) ⟨hu.of_sights rfl, .inr (hpaused.trans hpreview.1.1)⟩
      fun _ v hv => hseek _ _ v hv
  · refine (clear_blank hu).bind fun _ v hv => ?_
    exact Ends.bind (P := fun _ w => Current w ∧ Clear w) ⟨hv.1.of_sights rfl, hv.2⟩ fun _ w hw => hseek _ _ w hw

/-! ## Audio and frames -/

theorem current_sendBurst (forwards sentAny : Bool) (chunks : List AudioChunk) :
    Preserves Current (sendBurst forwards sentAny chunks) := by
  induction chunks generalizing sentAny with
  | nil => exact .pure _
  | cons chunk chunks ih =>
    refine .ite (fun s hs => ?_) (ih sentAny)
    refine (current_perform hs fun _ _ => by exact trivial).bind fun ok t ht => Ends.ite (fun _ => ih true t ht) fun _ => ?_
    exact (current_die t ht).bind fun _ u hu => hu

theorem current_receiveFrame (timeoutUs : UInt32) : Preserves Current (Sender.receiveFrame timeoutUs) := by
  intro s hs
  refine (ends_receiveCall timeoutUs s).mono fun r t ht => ?_
  rcases ht with ⟨-, -, rfl⟩ | ⟨c, hclient, -, rfl⟩
  · exact hs
  · have hsilent : Silent (.received timeoutUs c) := ⟨fun _ => rfl, fun _ => rfl⟩
    have hbare : bare ((Conn.receiveFrame timeoutUs).run c).2.client = bare c.client :=
      congrArg (·.1) ((standing_of_reads (Conn.reads_receiveFrame timeoutUs)).eq c)
    have hactive : ((Conn.receiveFrame timeoutUs).run c).2.client.sessionActive = true → c.client.sessionActive = true := by
      have hreads : Relation.ReflTransGen _ c.ledger ((Conn.receiveFrame timeoutUs).run c).2.ledger :=
        Conn.reads_receiveFrame timeoutUs c
      have hinv (x y : Client × List (Option SessionId) × Bytes) (hx : x.1.sessionActive = true → c.client.sessionActive = true)
          (hxy : y = (dropTransport x.1, x.2)) : y.1.sessionActive = true → c.client.sessionActive = true := by
        rw [hxy]
        exact fun hon => hx (active_dropTransport hon)
      exact steps_invariant hinv hreads id
    have hid : (bare ((Conn.receiveFrame timeoutUs).run c).2.client).sessionId = (bare c.client).sessionId := congrArg _ hbare
    obtain ⟨hknows, hepoch⟩ := hs.client c hclient
    refine ⟨explained_append_one hs.past trivial, fun d hd => ?_, fun cue hcue hplays => ?_⟩
    · obtain rfl := Option.some.inj hd
      exact ⟨hknows.silent hsilent hid hactive (settings_of_bare hbare),
        (hid.trans hepoch).trans (hsilent.epoch_append s.log).symm⟩
    · exact (hs.pending cue hcue hplays).trans (hsilent.epoch_append s.log).symm

/-- A cue that is handed on is one of the client's session. -/
theorem current_onSegment (t : Round) (isSourceMode : Bool) (segment : CaptionSegment) :
    Preserves Current (onSegment t isSourceMode segment) := by
  refine .get_bind fun s hs => Ends.ite (fun _ => hs) fun hsession => Ends.ite (fun _ => hs) fun _ => ?_
  rw [not_not] at hsession
  obtain ⟨c, hclient, hid⟩ := Option.map_eq_some_iff.mp hsession
  have hsegment : segment.sessionId = epoch s.log := hid.symm.trans (hs.client c hclient).2
  have hsilent : Silent (.handed segment) := ⟨fun _ => rfl, fun _ => rfl⟩
  have hhanded (u : Sender) (hu : Current u) (hlog : u.log = s.log) : Ends (record (.handed segment)) u fun _ v =>
      Current v ∧ epoch v.log = segment.sessionId ∧ v.presenter = u.presenter ∧ v.paused = u.paused := by
    refine ⟨hu.silent hsilent ?_ rfl, (hsilent.epoch_append u.log).trans ?_, rfl, rfl⟩
    · exact hsegment.trans (by rw [hlog])
    · rw [hlog, hsegment]
  refine Ends.ite (fun hplays => ?_) fun _ => Ends.ite (fun _ => ?_) fun _ => hs
  · refine (hhanded s hs rfl).bind fun _ u ⟨hu, hepoch, hpresenter, hpaused⟩ => ?_
    have hplays : u.paused = false := by simpa [hpaused] using hplays
    refine current_present hu (fun r hr => ?_) fun cue hcue _ => ?_
    · unfold CaptionPresenter.showSegment at hr
      split at hr
      · cases hr
      · obtain ⟨cue, hcue, rfl⟩ := List.mem_map.mp hr
        exact hu.pending cue (Option.mem_toList.mp hcue) hplays
    · unfold CaptionPresenter.showSegment at hcue
      split at hcue
      · exact hu.pending cue hcue hplays
      · obtain rfl := Option.some.inj hcue
        exact hepoch.symm
  · refine Ends.bind (P := fun _ u => Current u ∧ u.log = s.log) ⟨hs.of_sights rfl, rfl⟩ fun _ u hu => ?_
    refine (hhanded u hu.1 hu.2).bind fun _ v ⟨hv, hepoch, _, _⟩ => current_present hv (fun r hr => ?_) fun cue hcue hplays => ?_
    · unfold CaptionPresenter.showPaused at hr
      split at hr
      · cases hr
      · rw [List.mem_singleton.mp hr]
        exact hepoch.symm
    · unfold CaptionPresenter.showPaused at hcue
      split at hcue
      · exact hv.pending cue hcue hplays
      · cases hcue

theorem current_onPayload (t : Round) (isSourceMode : Bool) (p : Payload) : Preserves Current (onPayload t isSourceMode p) := by
  have hprogress (progress : ModelProgress) : Preserves Current (onModelProgress t progress) := by
    refine .bind (.onlyIf (current_modify fun _ => rfl)) fun _ => .get_bind fun s hs => Preserves.onlyIf ?_ s hs
    exact .bind (current_modify fun _ => rfl) fun _ => .bind (current_activateDownloadedModel t _) fun _ => .pure ()
  cases p with
  | captionSegment segment => exact current_onSegment t isSourceMode segment
  | modelProgress progress => exact hprogress progress
  | error err => exact .onlyIf current_die
  | _ => exact .pure ()

theorem current_takeFrame (t : Round) (isSourceMode sentAny : Bool) : Preserves Current (takeFrame t isSourceMode sentAny) := by
  refine .bind (current_receiveFrame _) fun r => ?_
  split
  · exact .bind current_die fun _ => .bind (current_modify fun _ => rfl) fun _ => .pure _
  · exact .bind (current_onPayload t isSourceMode _) fun _ => .pure _
  · exact .pure _

theorem current_flushPending (t : Round) (isSourceMode : Bool) : Preserves Current (flushPending t isSourceMode) := by
  refine .get_bind fun s hs => ?_
  split
  · rename_i cue hpending
    refine Ends.onlyIf (fun hdue => ?_) fun _ => hs
    have hplays : s.paused = false := by
      rw [Bool.and_eq_true] at hdue
      simpa using hdue.1
    refine current_present hs (fun r hr => ?_) nofun
    obtain ⟨cue, hcue, rfl⟩ := List.mem_map.mp hr
    exact hs.pending cue (Option.mem_toList.mp hcue) hplays
  · exact hs

/-! ## Rounds -/

theorem current_attend (t : Round) : Preserves Current (attend t) := by
  have hserve : Preserves Current (serve t) := by
    refine .get_bind fun s hs => (current_sendBurst _ _ _ s hs).bind fun sentAny u hu => Ends.get_bind ?_
    refine Ends.ite (fun _ => hu) fun _ => (current_takeFrame t _ sentAny u hu).bind fun taken v hv => ?_
    exact Ends.ite (fun _ => current_flushPending t _ v hv) fun _ => hv
  refine .bind (current_pollInput t) fun polled => ?_
  cases polled with
  | none => exact .pure ()
  | some p => exact .bind (current_followPause p) fun _ => .bind (current_followSeek t) fun _ => hserve

theorem current_round (t : Round) : Preserves Current (round t) := by
  have hrecover : Preserves Current (recover t) := by
    refine .get_bind fun s hs => (current_respawnWorker _ _ _ s hs).bind fun ok u hu => Ends.ite (fun _ => ?_) fun _ => hu
    exact hu.of_sights rfl
  have hidle : Preserves Current (idle t) := by
    refine .get_bind fun s hs => Preserves.onlyIf ?_ s hs
    exact .bind (current_modify fun _ => rfl) fun _ => .bind (current_respawnWorker _ _ _) fun _ => .pure ()
  refine .bind (current_pollConfig t) fun _ => .get_bind fun s hs => Preserves.ite hrecover (.ite ?_ ?_) s hs
  · exact .bind hidle fun _ => .pure _
  · exact .bind (current_attend t) fun _ => .pure _

/-- **A round keeps the law.** -/
theorem current_step (s : Sender) (t : Round) (hs : Current s) : Current (s.step t) := by
  unfold Sender.step
  split
  · exact hs
  · have hround : Current ((round t).run s).2 := current_round t s hs
    exact hround.of_sights rfl

theorem current_start (launch : Launch) (modelPath : CString) (authToken : CArray authTokenBytes) :
    Current (Sender.start launch modelPath authToken) := by
  have hopened : Ready (opened launch modelPath authToken) := ⟨trivial, fun c hc => (fresh_launch hc).knows rfl, .inl rfl⟩
  have hbegin : Ends (begin launch.uri) (opened launch modelPath authToken) fun _ t => Current t := by
    refine Ends.get_bind (Ends.bind (P := fun _ t => Ready t) ⟨hopened.past, hopened.client, hopened.clear⟩ fun _ t ht => ?_)
    exact (called_startSession _ ht).bind fun _ u hu => hu.1
  exact hbegin

/-! ## The seek -/

/-- The client has left its session for a new one, in source mode. -/
structure Enters (log : List Event) (c t : Conn) : Prop where
  left : c.client.sessionId ∈ drawnIds log
  entered : drawn c t = [t.client.sessionId]
  active : t.client.sessionActive = true
  source : t.client.workerSourceActive = true

/-- The settings were sent for the new session, and then its first POSITION. -/
def Resends (tr : Translation) (c t : Conn) : Prop :=
  ∃ earlier ctrl position, Conn.written t.link.log =
      Conn.written c.link.log ++ (earlier ++ [ctrl, position]).flatMap WireFrame.bytes ∧
    Carries ctrl (.translateCtrl (tr.message t.client.sessionId)) ∧
    ∃ p, Carries position (.position p) ∧ p.sessionId = t.client.sessionId

theorem restarted_outcome {log : List Event} {call : Call} {c : Conn} (hc : Knows log c) (hseek : seeks c call = true)
    (hok : (outcome call c).1 = true) : Restarted c (outcome call c).2 := by
  cases call with
  | sendPosition pts time rate flags =>
    exact (ends_restart (hc.told ▸ snug_configured log) pts time rate hseek).2 hok
  | _ => cases hseek

theorem Restarted.drawn_eq {c t : Conn} (h : Restarted c t) : drawn c t = [t.client.sessionId] := by
  have hused : c.random = [some t.client.sessionId] ++ t.random := h.random
  exact drawn_of_append hused

theorem active_of_outcome {call : Call} {c : Conn} (hseek : seeks c call = true) (hok : (outcome call c).1 = true) :
    c.client.sessionActive = true := by
  cases call with
  | sendPosition pts time rate flags =>
    by_contra hidle
    have hrefused : Ends (Conn.sendPosition pts time rate flags) c fun ok _ => ok = false :=
      Ends.get_bind (Ends.ite (fun _ => rfl) fun hlive => (hlive (by simp [hidle])).elim)
    have hfalse : (outcome (.sendPosition pts time rate flags) c).1 = false := hrefused
    rw [hok] at hfalse
    cases hfalse
  | _ => cases hseek

theorem Restarted.resends {c t : Conn} (h : Restarted c t) {tr : Translation} (htr : tr ∈ settings c.client)
    (hcap : c.client.workerCapabilities &&& capabilityTranslation ≠ 0) : Resends tr c t := by
  obtain ⟨stop, start, resent, position, hbytes, -, -, hresent, p, hposition, hp⟩ := h.wrote
  obtain ⟨ctrl, rfl, hctrl⟩ := hresent.1 tr htr hcap
  exact ⟨[stop, start], ctrl, position, hbytes, hctrl, p, hposition, hp⟩

/-- From any place of the log on, the client's session is one of then or of later. -/
theorem epoch_append_mem {l m : List Event} (h : Along (fun h e => h ++ [e]) Dated l m) {ids : List SessionId}
    (hids : epoch l ∈ .zero _ :: ids) : epoch (l ++ m) ∈ .zero _ :: (ids ++ drawnIds m) := by
  induction m generalizing l ids with
  | nil =>
    rw [List.append_nil]
    show _ ∈ _ :: (ids ++ [])
    rwa [List.append_nil]
  | cons e m ih =>
    obtain ⟨hdated, hrest⟩ := h
    have hnext : epoch (l ++ [e]) ∈ .zero _ :: (ids ++ drawnBy e) := by
      rw [epoch_append_one]
      have hweaken {x : SessionId} (hx : x ∈ .zero _ :: ids) : x ∈ .zero _ :: (ids ++ drawnBy e) := by
        rw [List.mem_cons] at hx ⊢
        exact hx.imp id (List.mem_append_left _)
      cases e with
      | called call c =>
        have hknows : Knows l c := hdated
        obtain ⟨⟨used, hused, hid⟩, -⟩ := turns_perform (hknows.told ▸ snug_configured l) call
        have hused : c.random = used ++ (outcome call c).2.random := hused
        rcases hid with ⟨hsame, -⟩ | hnew
        · have hsame : epochAfter (epoch l) (.called call c) = c.client.sessionId := hsame
          rw [hsame]
          rcases hknows.sessionId with hold | hzero
          · rw [hold]
            exact hweaken hids
          · rw [hzero]
            exact List.mem_cons_self ..
        · refine List.mem_cons_of_mem _ (List.mem_append_right _ ?_)
          show _ ∈ drawn c (outcome call c).2
          rw [drawn_of_append hused]
          exact hnew
      | _ => exact hweaken hids
    have hall : epoch ((l ++ [e]) ++ m) ∈ _ := ih hrest hnext
    rw [List.append_assoc] at hall
    rw [List.append_cons]
    exact hall

theorem dated_run (launch : Launch) (modelPath : CString) (authToken : CArray authTokenBytes) (rounds : List Round) :
    Explained Dated (run Sender.step (Sender.start launch modelPath authToken) rounds).log :=
  (run_invariant' current_step rounds (current_start launch modelPath authToken)).past

theorem knows_of_log {launch : Launch} {modelPath : CString} {authToken : CArray authTokenBytes} {rounds : List Round}
    {before after : List Event} {call : Call} {c : Conn}
    (hlog : (run Sender.step (Sender.start launch modelPath authToken) rounds).log = before ++ .called call c :: after) :
    Knows before c := by
  obtain ⟨-, hdated, -⟩ := explained_append.mp (hlog ▸ dated_run launch modelPath authToken rounds)
  exact hdated

/-- **Seeks.** In every run, after a seek that restarted the session: the client is in source mode on a session with a
fresh id, a worker that can translate was sent the settings that the client was given last before the new POSITION, and
no cue of an earlier session is handed to the presenter or drawn. -/
theorem seek_epoch (launch : Launch) (modelPath : CString) (authToken : CArray authTokenBytes) (rounds : List Round)
    (before after : List Event) (call : Call) (c : Conn)
    (hlog : (run Sender.step (Sender.start launch modelPath authToken) rounds).log = before ++ .called call c :: after)
    (hfresh : (.zero _ :: drawnIds (before ++ .called call c :: after)).Nodup) (hseek : seeks c call = true)
    (hok : (outcome call c).1 = true) :
    Enters before c (outcome call c).2 ∧
      (∀ tr ∈ configured before, c.client.workerCapabilities &&& capabilityTranslation ≠ 0 →
        Resends tr c (outcome call c).2) ∧
      ∀ e ∈ after, ∀ segment, shown e = some segment → segment.sessionId ∉ drawnIds before := by
  have hknows := knows_of_log hlog
  obtain ⟨-, -, hlater⟩ := explained_append.mp (hlog ▸ dated_run launch modelPath authToken rounds)
  have hrestarted := restarted_outcome hknows hseek hok
  refine ⟨⟨hknows.active (active_of_outcome hseek hok), hrestarted.drawn_eq, hrestarted.active, hrestarted.source⟩,
    fun tr htr hcap => hrestarted.resends (hknows.told ▸ htr) hcap, fun e he segment hshown => ?_⟩
  obtain ⟨middle, rest, rfl⟩ := List.append_of_mem he
  obtain ⟨hmiddle, hevent, -⟩ := along_append.mp hlater
  rw [run_snoc] at hevent
  have hstart : epoch (before ++ [.called call c]) ∈ .zero _ :: drawn c (outcome call c).2 := by
    rw [epoch_called, hrestarted.drawn_eq]
    exact List.mem_cons_of_mem _ (List.mem_singleton_self _)
  have hepoch := epoch_append_mem hmiddle hstart
  have hsegment : segment.sessionId = epoch (before ++ [.called call c] ++ middle) := by
    cases e with
    | handed segment' => exact Option.some.inj hshown ▸ hevent
    | drawn render => exact Option.some.inj hshown ▸ hevent
    | _ => cases hshown
  rw [hsegment]
  intro hold
  have hids : drawnIds (before ++ .called call c :: (middle ++ e :: rest)) =
      drawnIds before ++ ((drawn c (outcome call c).2 ++ drawnIds middle) ++ drawnIds (e :: rest)) := by
    rw [drawnIds_append, ← List.singleton_append, drawnIds_append, drawnIds_append, List.append_assoc]
    show _ ++ ((drawn c (outcome call c).2 ++ []) ++ _) = _
    rw [List.append_nil]
  rw [hids, List.nodup_cons, List.nodup_append] at hfresh
  rcases List.mem_cons.mp hepoch with hzero | hnew
  · rw [hzero] at hold
    exact hfresh.1 (List.mem_append_left _ hold)
  · exact hfresh.2.2.2 _ hold _ (List.mem_append_left _ hnew) rfl

/-! ## A seek of a worker with the capability, and one without -/

def seekUri : CString := .ofString "/a"

/-- The worker accepts its second and its third session, in source mode. -/
def startedSource (sequence : UInt64) (byte : UInt8) : WireFrame where
  type := .started
  sequence := sequence
  payload := List.replicate 16 byte ++ [1]
  fits := by rw [List.length_append, List.length_replicate]; decide

def helloWith (capabilities : UInt8) : WireFrame where
  type := .helloAck
  sequence := 1
  payload := [1, 0, 6, 0, capabilities, 0, 0, 0, 1, 0, 0x31]
  fits := (by decide : 11 ≤ maxPayloadBytes)

/-- A worker that opens the source, twice. -/
def seekable (capabilities : UInt8) : Launch where
  first := some { endpoint [helloWith capabilities, startedSource 2 1, startedSource 3 2] [] with
    random := [some ⟨List.replicate 16 1, rfl⟩, some ⟨List.replicate 16 2, rfl⟩] }
  fallback := none
  language := none
  uri := some seekUri

/-- The input jumps. -/
def seekRound : Round :=
  { quietRound none (launchOf none) with nowUs := 100000, input := some ⟨false, none, some seekUri, some 0⟩, discontinuity := true }

/-- The log of a run with one seek. -/
def seekLog (capabilities : UInt8) : List Event :=
  (run Sender.step (Sender.start (seekable capabilities) .empty (.zero 32)) [seekRound]).log

def toldWith (capabilities : UInt32) : Event → Bool
  | .called _ c => c.client.translationConfigured && c.client.workerCapabilities = capabilities
  | _ => false

theorem exists_restart (log : List Event) (capabilities : UInt32)
    (h : log.any (fun e => isRestart e && toldWith capabilities e) = true) : ∃ before call c after,
      log = before ++ .called call c :: after ∧ seeks c call = true ∧ (outcome call c).1 = true ∧
      c.client.workerCapabilities = capabilities ∧ ∃ tr, tr ∈ settings c.client := by
  obtain ⟨e, he, hrestart⟩ := List.any_eq_true.mp h
  obtain ⟨before, after, rfl⟩ := List.append_of_mem he
  cases e with
  | called call c =>
    rw [isRestart, toldWith, Bool.and_eq_true, Bool.and_eq_true, Bool.and_eq_true] at hrestart
    exact ⟨before, call, c, after, rfl, hrestart.1.1, hrestart.1.2, of_decide_eq_true hrestart.2.2, _, if_pos hrestart.2.1⟩
  | _ => cases hrestart

/-- The settings are sent to the worker again. -/
theorem seek_epoch_translating : ∃ before call c after tr, seekLog 25 = before ++ .called call c :: after ∧
    Enters before c (outcome call c).2 ∧ Resends tr c (outcome call c).2 ∧
    ∀ e ∈ after, ∀ segment, shown e = some segment → segment.sessionId ∉ drawnIds before := by
  obtain ⟨before, call, c, after, hlog, hseek, hok, hcap, tr, htr⟩ :=
    exists_restart (seekLog 25) 25 (by decide +kernel)
  have hfresh : (.zero _ :: drawnIds (seekLog 25)).Nodup := by decide +kernel
  rw [hlog] at hfresh
  obtain ⟨henters, hresends, hshown⟩ :=
    seek_epoch (seekable 25) .empty (.zero 32) [seekRound] before after call c hlog hfresh hseek hok
  have hknows := knows_of_log hlog
  exact ⟨before, call, c, after, tr, hlog, henters, hresends tr (hknows.told ▸ htr) (by rw [hcap]; decide), hshown⟩

/-- A worker without the capability is not sent them. -/
theorem not_seek_epoch : ¬ ∀ (launch : Launch) (modelPath : CString) (authToken : CArray authTokenBytes)
    (rounds : List Round) (before after : List Event) (call : Call) (c : Conn),
    (run Sender.step (Sender.start launch modelPath authToken) rounds).log = before ++ .called call c :: after →
    (.zero _ :: drawnIds (before ++ .called call c :: after)).Nodup → seeks c call = true → (outcome call c).1 = true →
    Enters before c (outcome call c).2 ∧ (∀ tr ∈ configured before, Resends tr c (outcome call c).2) ∧
      ∀ e ∈ after, ∀ segment, shown e = some segment → segment.sessionId ∉ drawnIds before := by
  intro h
  obtain ⟨before, call, c, after, hlog, hseek, hok, hcap, tr, htr⟩ :=
    exists_restart (seekLog 9) 9 (by decide +kernel)
  have hfresh : (.zero _ :: drawnIds (seekLog 9)).Nodup := by decide +kernel
  rw [hlog] at hfresh
  have hknows := knows_of_log hlog
  obtain ⟨earlier, ctrl, position, hbytes, hctrl, -⟩ := (h _ _ _ _ _ _ _ _ hlog hfresh hseek hok).2.1 tr (hknows.told ▸ htr)
  obtain ⟨stop, start, resent, last, hwrote, -, ⟨m, hstart, -⟩, hresent, -⟩ := (restarted_outcome hknows hseek hok).wrote
  rw [hresent.2 (by rw [hcap]; decide)] at hwrote
  have hframes : earlier ++ [ctrl, position] = [stop, start, last] :=
    WireFrame.flatMap_bytes_inj (List.append_cancel_left (hbytes.symm.trans hwrote))
  have hearlier : earlier.length = 1 := by
    have hlen := congrArg List.length hframes
    simpa using hlen
  obtain ⟨first, rfl⟩ := List.length_eq_one_iff.mp hearlier
  obtain ⟨-, rfl, -⟩ : first = stop ∧ ctrl = start ∧ position = last := by simpa using hframes
  have htype := hctrl.1.symm.trans hstart.1
  cases htype

end VlcWhisper.System
