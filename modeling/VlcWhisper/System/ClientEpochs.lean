import VlcWhisper.System.RespawnBudget

/-!
# The epochs of the client (`vw_worker_client.c`)

Only START gives the client another session, with the next id that the platform gives, and only TRANSLATE_CTRL other
settings. Main results:

* `turns_perform`: after a call the client has the session it had or one whose id the call drew, and the settings of its
  last TRANSLATE_CTRL.
* `ends_restart`: a seek that restarts the session and succeeds has written STOP, START, the settings and POSITION.
-/

namespace VlcWhisper.System

open VlcWhisper.Lib VlcWhisper.Protocol VlcWhisper.Plugin

/-! ## Waiting for an answer -/

/-- The client without what an answer may change, and without its count of frames. -/
def bare (c : Client) : Client :=
  { c with connected := false, sequence := 0, sessionActive := false, workerSourceActive := false,
           activeModelId := .zero _, activeSourceUrl := .zero _ }

theorem bare_dropTransport (c : Client) : bare (dropTransport c) = bare c := by
  unfold dropTransport
  split
  · rfl
  · rfl

/-- What waiting for an answer leaves as it was. -/
def standing (s : Conn) : Client × List (Option SessionId) × Bytes :=
  (bare s.client, s.random, Conn.written s.link.log)

theorem standing_of_reads {α : Type} {m : ClientM α} (h : Conn.Reads m) : Keeps standing m :=
  h.keeps (fun x => (bare x.1, x.2)) fun x y hxy => by rw [hxy, bare_dropTransport]

theorem standing_lost {α : Type} (result : α) : Keeps standing (Conn.lost result) :=
  standing_of_reads (Conn.reads_lost result)

theorem standing_receiveAll (len : Nat) (deadlineUs : Int) : Keeps standing (Conn.receiveAll len deadlineUs) :=
  standing_of_reads (Conn.reads_receiveAll len deadlineUs)

theorem standing_onStarted (start : Start) (deadlineUs : Int) (header : FrameHeader) :
    Keeps standing (Conn.onStarted start deadlineUs header) := by
  have haccept (sourceActive : Bool) : Keeps standing (Conn.accept start sourceActive) :=
    .bind (.modify_of_eq fun _ => rfl) fun _ => .pure _
  unfold Conn.onStarted
  refine .get_bind fun s => Steps.ite (standing_lost _) ?_ s
  refine .bind (.modify_of_eq fun _ => rfl) fun _ => .ite (standing_lost _) (.ite ?_ (haccept _))
  refine .bind (standing_receiveAll _ _) fun ⟨code, payload⟩ => .ite (standing_lost _) ?_
  split
  · exact .ite (standing_lost _) (haccept _)
  · exact standing_lost _

theorem standing_onError (deadlineUs : Int) (header : FrameHeader) : Keeps standing (Conn.onError deadlineUs header) := by
  unfold Conn.onError
  refine .get_bind fun s => Steps.ite ?_ (.pure _) s
  refine .bind (standing_receiveAll _ _) fun ⟨code, payload⟩ => .ite (standing_lost _) ?_
  split
  · exact .ite (standing_lost _) (.ite (.pure _) (.ite (.pure _) (.pure _)))
  · exact standing_lost _

theorem standing_handshakeRound (start : Start) (deadlineUs : Int) : Keeps standing (Conn.handshakeRound start deadlineUs) := by
  unfold Conn.handshakeRound
  refine .bind (standing_of_reads (Conn.reads_isBefore _)) fun before => .ite ?_ (standing_lost _)
  refine .bind (standing_receiveAll _ _) fun ⟨code, buffer⟩ => .ite (standing_lost _) ?_
  split
  · exact standing_lost _
  · refine .ite ?_ (.ite (standing_onError _ _) (.ite ?_ (.pure _)))
    · rw [map_eq_pure_bind]
      exact .bind (standing_onStarted start deadlineUs _) fun _ => .pure _
    · exact .bind (standing_receiveAll _ _) fun ⟨code, _⟩ => .ite (standing_lost _) (.pure _)

theorem standing_handshake (start : Start) : Keeps standing (Conn.handshake start) := by
  unfold Conn.handshake
  refine .bind (standing_of_reads (Conn.reads_makeDeadline _)) fun deadline => ?_
  cases deadline with
  | none => exact .pure _
  | some deadlineUs =>
    exact .get_bind fun s => Steps.bind (.loop (standing_handshakeRound start deadlineUs) _) (fun _ => .pure _) s

/-! ## Sending -/

/-- The frame carries the payload. -/
def Carries (f : WireFrame) (p : Payload) : Prop := f.type = p.type ∧ ∃ size, encodePayload p size = some f.payload

/-- The session stays the same, unless it ends. -/
structure Remains (s t : Conn) : Prop where
  sessionId : t.client.sessionId = s.client.sessionId
  random : t.random = s.random
  active : t.client.sessionActive = true → s.client.sessionActive = true

theorem Remains.refl (s : Conn) : Remains s s := ⟨rfl, rfl, id⟩

theorem Remains.trans {s t u : Conn} (h : Remains s t) (h' : Remains t u) : Remains s u :=
  ⟨h'.sessionId.trans h.sessionId, h'.random.trans h.random, fun hu => h.active (h'.active hu)⟩

theorem active_dropTransport {c : Client} (h : (dropTransport c).sessionActive = true) : c.sessionActive = true := by
  unfold dropTransport at h
  split at h
  · cases h
  · exact h

theorem sends_cases {s t : Conn} {p : Payload} {ok : Bool} (h : s.Sends p ok t) :
    Remains s t ∧ bare t.client = bare s.client ∧ (ok = true → t.client.sessionActive = s.client.sessionActive ∧
      t.client.workerSourceActive = s.client.workerSourceActive ∧ ∃ f, Carries f p ∧
        Conn.written t.link.log = Conn.written s.link.log ++ f.bytes) := by
  rcases h with ⟨-, f, htype, hencodes, hwrote⟩ | ⟨rfl, hdropped⟩
  · have hdesk := hwrote.desk
    have hactive : t.client.sessionActive = s.client.sessionActive := congrArg (·.client.sessionActive) hdesk
    refine ⟨⟨congrArg (·.client.sessionId) hdesk, congrArg (·.random) hdesk, hactive.symm.trans⟩,
      congrArg (fun c => bare c.client) hdesk, fun _ => ⟨hactive, congrArg (·.client.workerSourceActive) hdesk, f,
        ⟨htype, hencodes⟩, ?_⟩⟩
    rw [hwrote.bytes, List.flatMap_singleton]
  · have hbare : bare t.client = bare s.client :=
      (congrArg (fun c => bare c.client) hdropped).trans (bare_dropTransport _)
    have hid : (bare t.client).sessionId = (bare s.client).sessionId := congrArg _ hbare
    refine ⟨⟨hid, congrArg (·.random) hdropped, fun hactive => ?_⟩, hbare, nofun⟩
    have hactive' : (dropTransport s.desk.client).sessionActive = true :=
      (congrArg (·.client.sessionActive) hdropped).symm.trans hactive
    have hbefore : s.desk.client.sessionActive = true := active_dropTransport hactive'
    exact hbefore

/-! ## START -/

/-- A session was asked for, with the next id if there is one. -/
structure Asked (s t : Conn) : Prop where
  random : t.random = s.random.tail
  client : bare t.client = bare { s.client with sessionId := (s.random.headD none).getD s.client.sessionId }
  active : s.random.headD none = none → t.client.sessionActive = false

/-- What START has written for a session that it began. -/
def Began (s t : Conn) : Prop :=
  t.client.sessionActive = true ∧ ∃ sessionId start f, s.random.headD none = some sessionId ∧
    start.sessionId = sessionId ∧ Carries f (.startSession start) ∧
    Conn.written t.link.log = Conn.written s.link.log ++ f.bytes

theorem length_encodePayload_le {p : Payload} {size : Nat} {payload : Bytes} (h : encodePayload p size = some payload) :
    payload.length ≤ size := by
  unfold encodePayload at h
  split at h
  · cases h
  · exact length_writeAll_le (Nat.zero_le _) h

theorem ends_sendStart (start : Start) (s : Conn) : Ends (Conn.sendFrame (.startSession start) 2048) s fun ok t =>
    ok = false ∧ t = s ∨ s.Sends (.startSession start) ok t := by
  rcases hencodes : encodePayload (.startSession start) 2048 with _ | payload
  · unfold Conn.sendFrame
    rw [hencodes]
    exact .inl ⟨rfl, rfl⟩
  · have hlen : payload.length ≤ maxPayloadBytes := (length_encodePayload_le hencodes).trans (by decide)
    exact (Conn.ends_sendFrame hencodes hlen s).mono fun _ _ h => .inr h

theorem ends_startSession (timelineOriginPtsUs : Int64) (modelId sourceUrl : Option CString) (s : Conn) :
    Ends (Conn.startSession timelineOriginPtsUs modelId sourceUrl) s fun ok t =>
      (ok = false ∧ t = s ∨ Asked s t) ∧ (ok = true → Began s t) := by
  have hactive := active_startSession timelineOriginPtsUs modelId sourceUrl s
  suffices h : Ends (Conn.startSession timelineOriginPtsUs modelId sourceUrl) s fun ok t =>
      (ok = false ∧ t = s ∨ Asked s t) ∧ (ok = true → ∃ sessionId start f, s.random.headD none = some sessionId ∧
        start.sessionId = sessionId ∧ Carries f (.startSession start) ∧
        Conn.written t.link.log = Conn.written s.link.log ++ f.bytes) from
    ⟨h.1, fun hok => ⟨hactive (congrArg some hok), h.2 hok⟩⟩
  clear hactive
  refine Ends.get_bind (Ends.ite (fun _ => ⟨.inl ⟨rfl, rfl⟩, nofun⟩) fun _ =>
    Ends.ite (fun _ => ⟨.inl ⟨rfl, rfl⟩, nofun⟩) fun _ => Ends.modify_bind ?_)
  refine Ends.bind (P := fun id t => id = s.random.headD none ∧ t = { s with
    client := { s.client with sessionActive := false, workerSourceActive := false }, random := s.random.tail }) ⟨rfl, rfl⟩ ?_
  rintro id _ ⟨hid, rfl⟩
  cases id with
  | none => exact ⟨.inr ⟨rfl, by rw [← hid]; rfl, fun _ => rfl⟩, nofun⟩
  | some id =>
    have hsome {t : Conn} (hrandom : t.random = s.random.tail) (hbare : bare t.client = bare { s.client with sessionId := id }) :
        Asked s t := by
      refine ⟨hrandom, by rw [← hid]; exact hbare, fun hnone => ?_⟩
      rw [hnone] at hid
      cases hid
    refine Ends.modify_bind (Ends.ite (fun _ => ⟨.inr (hsome rfl rfl), nofun⟩) fun _ => Ends.get_bind ?_)
    refine (ends_sendStart _ _).bind fun sent t ht => ?_
    rcases ht with ⟨rfl, rfl⟩ | hsends
    · exact ⟨.inr (hsome rfl rfl), nofun⟩
    · obtain ⟨hremains, hbare, hframe⟩ := sends_cases hsends
      refine Ends.ite (fun hsent => ?_) fun _ => ⟨.inr (hsome hremains.random hbare), nofun⟩
      refine ((standing_handshake _).ends t).mono fun ok u hu => ?_
      have hrandom : u.random = t.random := congrArg (·.2.1) hu
      have hwritten : Conn.written u.link.log = Conn.written t.link.log := congrArg (·.2.2) hu
      have hclient : bare u.client = bare t.client := congrArg (·.1) hu
      obtain ⟨-, -, f, hcarries, hbytes⟩ := hframe hsent
      exact ⟨.inr (hsome (hrandom.trans hremains.random) (hclient.trans hbare)),
        fun _ => ⟨id, _, f, hid.symm, rfl, hcarries, hwritten.trans hbytes⟩⟩

/-! ## Settings -/

/-- The settings of a TRANSLATE_CTRL. -/
structure Translation where
  enabled : Bool
  source : CArray 16
  target : CArray 16
  mode : UInt8

def Translation.message (tr : Translation) (sessionId : SessionId) : TranslateCtrl where
  sessionId := sessionId
  enabled := if tr.enabled then 1 else 0
  sourceLang := tr.source
  targetLang := tr.target
  mode := tr.mode

/-- The settings that the client would send again. -/
def settings (c : Client) : Option Translation :=
  if c.translationConfigured then
    some ⟨c.translateEnabled, c.translateSourceLang, c.translateTargetLang, c.translateMode⟩
  else none

theorem settings_of_bare {c d : Client} (h : bare d = bare c) : settings d = settings c := by
  show settings (bare d) = settings (bare c)
  rw [h]

/-- Nothing follows the strings of the settings in their arrays. -/
def Translation.Snug (tr : Translation) : Prop :=
  .ofStr 16 tr.source.str = tr.source ∧ .ofStr 16 tr.target.str = tr.target

theorem ofStr_str {n : Nat} (hn : 0 < n) (s : CString) : CArray.ofStr n (CArray.ofStr n s.val).str = .ofStr n s.val := by
  rw [CArray.str_ofStr hn s.property]
  unfold CArray.ofStr
  rw [List.take_take, Nat.min_self]

/-- The settings in force after a call. -/
def configuredBy (call : Call) (ok : Bool) (before : Option Translation) : Option Translation :=
  match call with
  | .sendTranslateCtrl enabled source target mode =>
    if ok then some ⟨enabled, .ofStr 16 (source.getD .auto).val, .ofStr 16 (target.getD .en).val, mode⟩ else before
  | _ => before

theorem snug_configuredBy {call : Call} {ok : Bool} {before : Option Translation} (h : ∀ tr ∈ before, tr.Snug) :
    ∀ tr ∈ configuredBy call ok before, tr.Snug := by
  cases call with
  | sendTranslateCtrl enabled source target mode =>
    cases ok
    · exact h
    · intro tr htr
      obtain rfl := Option.some.inj htr
      exact ⟨ofStr_str (by decide) _, ofStr_str (by decide) _⟩
  | _ => exact h

theorem ends_translateCtrl (enabled : Bool) (source target : Option CString) (mode : UInt8) (s : Conn) :
    Ends (Conn.sendTranslateCtrl enabled source target mode) s fun ok t => Remains s t ∧
      settings t.client = configuredBy (.sendTranslateCtrl enabled source target mode) ok (settings s.client) ∧
      (ok = true → s.client.workerCapabilities &&& capabilityTranslation ≠ 0 →
        t.client.sessionActive = s.client.sessionActive ∧ t.client.workerSourceActive = s.client.workerSourceActive ∧
        ∃ f, Carries f (.translateCtrl (Translation.message
          ⟨enabled, .ofStr 16 (source.getD .auto).val, .ofStr 16 (target.getD .en).val, mode⟩ s.client.sessionId)) ∧
          Conn.written t.link.log = Conn.written s.link.log ++ f.bytes) := by
  refine (Conn.ends_sendTranslateCtrl enabled (source.getD .auto) (target.getD .en) mode s).mono fun ok t ht => ?_
  rcases ht with ⟨-, rfl, rfl⟩ | ⟨hnone, rfl, rfl⟩ | ⟨u, hsends, rfl⟩
  · exact ⟨.refl t, rfl, nofun⟩
  · refine ⟨?_, ?_, fun _ hcap => (hcap hnone).elim⟩
    · cases enabled <;> exact ⟨rfl, rfl, id⟩
    · cases enabled <;> rfl
  · obtain ⟨hremains, hbare, hframe⟩ := sends_cases hsends
    cases ok
    · exact ⟨hremains, settings_of_bare hbare, nofun⟩
    · exact ⟨⟨hremains.sessionId, hremains.random, hremains.active⟩, rfl, fun _ _ => hframe rfl⟩

/-! ## Calls -/

/-- The session is the one from before, or its id was drawn. -/
def Turns (s t : Conn) : Prop :=
  ∃ used, s.random = used ++ t.random ∧
    (t.client.sessionId = s.client.sessionId ∧ (t.client.sessionActive = true → s.client.sessionActive = true) ∨
      t.client.sessionId ∈ used.filterMap id)

theorem Turns.trans {s t u : Conn} (h : Turns s t) (h' : Turns t u) : Turns s u := by
  obtain ⟨used, hused, hst⟩ := h
  obtain ⟨more, hmore, htu⟩ := h'
  refine ⟨used ++ more, by rw [hused, hmore, List.append_assoc], ?_⟩
  rw [List.filterMap_append]
  rcases htu with ⟨hid, hactive⟩ | hdrawn
  · rw [hid]
    rcases hst with ⟨hid', hactive'⟩ | hdrawn
    · exact .inl ⟨hid', fun hu => hactive' (hactive hu)⟩
    · exact .inr (List.mem_append_left _ hdrawn)
  · exact .inr (List.mem_append_right _ hdrawn)

theorem Remains.turns {s t : Conn} (h : Remains s t) : Turns s t :=
  ⟨[], h.random.symm, .inl ⟨h.sessionId, h.active⟩⟩

theorem Asked.turns {s t : Conn} (h : Asked s t) : Turns s t := by
  have hid : (bare t.client).sessionId = _ := congrArg _ h.client
  have hid : t.client.sessionId = (s.random.headD none).getD s.client.sessionId := hid
  have hrandom := h.random
  have hactive := h.active
  rcases hlist : s.random with _ | ⟨first, rest⟩
  · rw [hlist] at hrandom hid hactive
    refine ⟨[], by rw [hrandom]; exact hlist, .inl ⟨hid, fun hon => ?_⟩⟩
    rw [hactive rfl] at hon
    cases hon
  · rw [hlist] at hrandom hid hactive
    refine ⟨[first], by rw [hrandom]; exact hlist, ?_⟩
    cases first with
    | none =>
      refine .inl ⟨hid, fun hon => ?_⟩
      rw [hactive rfl] at hon
      cases hon
    | some id => exact .inr (by rw [hid]; exact List.mem_singleton_self id)

theorem Asked.capabilities {s t : Conn} (h : Asked s t) : t.client.workerCapabilities = s.client.workerCapabilities := by
  have hclient : (bare t.client).workerCapabilities = _ := congrArg _ h.client
  exact hclient

theorem Asked.settings {s t : Conn} (h : Asked s t) : settings t.client = settings s.client := by
  have hsettings := settings_of_bare h.client
  exact hsettings

theorem turns_startSession (timelineOriginPtsUs : Int64) (modelId sourceUrl : Option CString) (s : Conn) :
    Ends (Conn.startSession timelineOriginPtsUs modelId sourceUrl) s fun _ t => Turns s t ∧
      settings t.client = settings s.client := by
  refine (ends_startSession timelineOriginPtsUs modelId sourceUrl s).mono fun ok t ht => ?_
  rcases ht.1 with ⟨-, rfl⟩ | hasked
  · exact ⟨(Remains.refl t).turns, rfl⟩
  · exact ⟨hasked.turns, hasked.settings⟩

/-- The session and the settings stay. -/
def Stays (s t : Conn) : Prop := Remains s t ∧ settings t.client = settings s.client

theorem stays_refl (s : Conn) : Stays s s := ⟨.refl s, rfl⟩

theorem stays_sends {s t : Conn} {p : Payload} {ok : Bool} (h : s.Sends p ok t) : Stays s t :=
  ⟨(sends_cases h).1, settings_of_bare (sends_cases h).2.1⟩

/-! ## A seek that restarts the session -/

/-- The settings are sent again, if there are any and the worker can use them. -/
def Resent (s t : Conn) (resent : List WireFrame) : Prop :=
  (∀ tr ∈ settings s.client, s.client.workerCapabilities &&& capabilityTranslation ≠ 0 →
    ∃ f, resent = [f] ∧ Carries f (.translateCtrl (tr.message t.client.sessionId))) ∧
  (s.client.workerCapabilities &&& capabilityTranslation = 0 → resent = [])

/-- The client has left its session for the next one, in source mode. -/
structure Restarted (s t : Conn) : Prop where
  random : s.random = some t.client.sessionId :: t.random
  active : t.client.sessionActive = true
  source : t.client.workerSourceActive = true
  wrote : ∃ stop start resent position, Conn.written t.link.log =
      Conn.written s.link.log ++ (stop :: start :: resent ++ [position]).flatMap WireFrame.bytes ∧
    Carries stop (.stopSession ⟨s.client.sessionId, ctrlReasonSeekDiscontinuity⟩) ∧
    (∃ m, Carries start (.startSession m) ∧ m.sessionId = t.client.sessionId) ∧ Resent s t resent ∧
    ∃ p, Carries position (.position p) ∧ p.sessionId = t.client.sessionId

theorem ends_position (currentPtsUs inputTimeUs : Int64) (playbackRate : Binary32) (flags : UInt32) (s : Conn) :
    Ends (Conn.sendPositionFrame currentPtsUs inputTimeUs playbackRate flags) s fun ok t =>
      s.Sends (.position { sessionId := s.client.sessionId, currentPtsUs, inputTimeUs,
                           playbackRate := effRate playbackRate, flags }) ok t := by
  obtain ⟨payload, hencodes, hlen⟩ := exists_encode_position
    { sessionId := s.client.sessionId, currentPtsUs, inputTimeUs, playbackRate := effRate playbackRate, flags }
  exact Ends.get_bind (Conn.ends_sendFrame hencodes (hlen.trans (by decide)) s)

theorem configuredBy_again {tr : Translation} (h : tr.Snug) {source target : CString}
    (hsource : source = .copied 16 (.ofArray tr.source)) (htarget : target = .copied 16 (.ofArray tr.target)) :
    (⟨tr.enabled, .ofStr 16 source.val, .ofStr 16 target.val, tr.mode⟩ : Translation) = tr := by
  have hagain {a : CArray 16} (ha : .ofStr 16 a.str = a) : CArray.ofStr 16 (CString.copied 16 (.ofArray a)).val = a := by
    show CArray.ofStr 16 (CArray.ofStr 16 a.str).str = a
    rw [ha, ha]
  rw [hsource, htarget, hagain h.1, hagain h.2]

theorem ends_resend {c : Client} {s : Conn} (hsnug : ∀ tr ∈ settings c, tr.Snug) (hc : settings s.client = settings c) :
    Ends (Conn.resendTranslateCtrl c) s fun ok t => Remains s t ∧ settings t.client = settings s.client ∧
      (ok = true → t.client.sessionActive = s.client.sessionActive ∧
        t.client.workerSourceActive = s.client.workerSourceActive ∧ ∃ resent, Resent s s resent ∧
          Conn.written t.link.log = Conn.written s.link.log ++ resent.flatMap WireFrame.bytes) := by
  refine Ends.get_bind (Ends.ite (fun hsends => ?_) fun hquiet => ?_)
  · rw [Bool.and_eq_true] at hsends
    have hcap : s.client.workerCapabilities &&& capabilityTranslation ≠ 0 := of_decide_eq_true hsends.2
    have hsettings : settings c =
        some ⟨c.translateEnabled, c.translateSourceLang, c.translateTargetLang, c.translateMode⟩ := if_pos hsends.1
    have hagain := configuredBy_again (hsnug _ hsettings) rfl rfl
    refine (ends_translateCtrl _ _ _ _ s).mono fun ok t ⟨hremains, hafter, hframe⟩ => ⟨hremains, ?_, fun hok => ?_⟩
    · rw [hafter]
      cases ok
      · rfl
      · exact (congrArg some hagain).trans (hsettings.symm.trans hc.symm)
    · obtain ⟨hactive, hsource, f, hcarries, hbytes⟩ := hframe hok hcap
      refine ⟨hactive, hsource, [f], ⟨fun tr htr _ => ⟨f, rfl, ?_⟩, fun hnone => (hcap hnone).elim⟩, ?_⟩
      · rw [hc, hsettings] at htr
        obtain rfl := Option.some.inj htr
        rw [← hagain]
        exact hcarries
      · rw [hbytes, List.flatMap_singleton]
  · refine ⟨.refl s, rfl, fun _ => ⟨rfl, rfl, [], ⟨fun tr htr hcap => ?_, fun _ => rfl⟩, (List.append_nil _).symm⟩⟩
    rw [hc] at htr
    refine (hquiet ?_).elim
    have hconfigured : c.translationConfigured = true := by
      unfold settings at htr
      split at htr
      · assumption
      · cases htr
    rw [hconfigured, Bool.true_and]
    exact decide_eq_true hcap

/-- The new session is in source mode, and told the settings and the position; a failure ends it. -/
theorem ends_resume {c : Client} {s : Conn} (hsnug : ∀ tr ∈ settings c, tr.Snug) (hc : settings s.client = settings c)
    (currentPtsUs inputTimeUs : Int64) (playbackRate : Binary32) (flags : UInt32) :
    Ends (do
      let started ← get
      if !started.client.workerSourceActive then Conn.lost false
      else if ← Conn.resendTranslateCtrl c then Conn.sendPositionFrame currentPtsUs inputTimeUs playbackRate flags
      else pure false) s fun ok t => Remains s t ∧ settings t.client = settings s.client ∧
        (ok = true → t.client.sessionActive = s.client.sessionActive ∧ t.client.workerSourceActive = true ∧
          ∃ resent position, Conn.written t.link.log =
              Conn.written s.link.log ++ (resent ++ [position]).flatMap WireFrame.bytes ∧ Resent s s resent ∧
            ∃ p, Carries position (.position p) ∧ p.sessionId = s.client.sessionId) := by
  refine Ends.get_bind (Ends.ite (fun _ => ?_) fun hsource => ?_)
  · have hid : (bare (dropTransport s.client)).sessionId = (bare s.client).sessionId := congrArg _ (bare_dropTransport _)
    exact ⟨⟨hid, rfl, active_dropTransport⟩, settings_of_bare (bare_dropTransport s.client), nofun⟩
  · have hsource : s.client.workerSourceActive = true := by simpa using hsource
    refine (ends_resend hsnug hc).bind fun told t ⟨hkept, hsettings, hresent⟩ => ?_
    refine Ends.ite (fun htold => ?_) fun _ => ⟨hkept, hsettings, nofun⟩
    obtain ⟨hactive, hmode, resent, hagain, hbytes⟩ := hresent htold
    refine (ends_position currentPtsUs inputTimeUs playbackRate flags t).mono fun ok u hu => ?_
    obtain ⟨hlast, hbare, hframe⟩ := sends_cases hu
    refine ⟨hkept.trans hlast, (settings_of_bare hbare).trans hsettings, fun hok => ?_⟩
    obtain ⟨hactive', hmode', position, hposition, hbytes'⟩ := hframe hok
    refine ⟨hactive'.trans hactive, (hmode'.trans hmode).trans hsource, resent, position, ?_, hagain, _, hposition,
      hkept.sessionId⟩
    rw [hbytes', hbytes, List.flatMap_append, List.flatMap_singleton, List.append_assoc]

/-- STOP is sent, and the client has no session until it is given another. -/
theorem ends_leave {s : Conn} (hconn : s.client.connected = true) {f : ClientM Bool} {P : Bool → Conn → Prop}
    (hfail : ∀ t, Stays s t → P false t)
    (hf : ∀ t stop, Remains s t → bare t.client = bare s.client →
      Carries stop (.stopSession ⟨s.client.sessionId, ctrlReasonSeekDiscontinuity⟩) →
      Conn.written t.link.log = Conn.written s.link.log ++ stop.bytes → Ends f t P) :
    Ends (do
      if ← Conn.sendControlFrame .stopSession ctrlReasonSeekDiscontinuity then do
        Conn.modifyClient fun c => { c with sessionActive := false, workerSourceActive := false }
        f
      else pure false) s P := by
  refine (Conn.ends_sendControlFrame (by simp) ctrlReasonSeekDiscontinuity hconn).bind fun stopped t ht =>
    Ends.ite (fun hstopped => Ends.modify_bind ?_) fun _ => hfail t (stays_sends ht)
  obtain ⟨hremains, hbare, hframe⟩ := sends_cases ht
  obtain ⟨-, -, stop, hstop, hbytes⟩ := hframe hstopped
  exact hf _ stop ⟨hremains.sessionId, hremains.random, nofun⟩ hbare hstop hbytes

theorem ends_restart {s : Conn} (hsnug : ∀ tr ∈ settings s.client, tr.Snug) (currentPtsUs inputTimeUs : Int64)
    (playbackRate : Binary32) {flags : UInt32} (hseek : seekRestarts s.client flags = true) :
    Ends (Conn.sendPosition currentPtsUs inputTimeUs playbackRate flags) s fun ok t =>
      (Turns s t ∧ settings t.client = settings s.client) ∧ (ok = true → Restarted s t) := by
  refine Ends.get_bind (Ends.ite (fun _ => ⟨⟨(Remains.refl s).turns, rfl⟩, nofun⟩) fun hlive => ?_)
  have hconn : s.client.connected = true := by
    by_contra hconn
    exact hlive (by simp [hconn])
  rw [if_pos hseek]
  refine ends_leave hconn (fun t ht => ⟨⟨ht.1.turns, ht.2⟩, nofun⟩) fun t stop hremains hbare hstop hstopBytes => ?_
  have hsettings : settings t.client = settings s.client := settings_of_bare hbare
  refine (ends_startSession currentPtsUs (restartModelId s.client) (some (restartSourceUrl s.client)) t).bind
    fun started u ⟨hasks, hbegan⟩ => ?_
  have hturned : Turns s u ∧ settings u.client = settings s.client := by
    rcases hasks with ⟨-, rfl⟩ | hasked
    · exact ⟨hremains.turns, hsettings⟩
    · exact ⟨hremains.turns.trans hasked.turns, hasked.settings.trans hsettings⟩
  refine Ends.ite (fun hstarted => ?_) fun _ => ⟨hturned, nofun⟩
  refine (ends_resume hsnug hturned.2 currentPtsUs inputTimeUs playbackRate _).mono fun ok v ⟨hkept, hsame, hdone⟩ => ?_
  refine ⟨⟨hturned.1.trans hkept.turns, hsame.trans hturned.2⟩, fun hok => ?_⟩
  obtain ⟨hactive, hsource, resent, position, hbytes, hagain, p, hposition, hp⟩ := hdone hok
  obtain ⟨hon, id, start, f, hid, hstart, hcarries, hstartBytes⟩ := hbegan hstarted
  have hasked : Asked t u := hasks.resolve_left fun ⟨hfalse, _⟩ => by rw [hstarted] at hfalse; cases hfalse
  have hu : u.client.sessionId = id := by
    have hclient : (bare u.client).sessionId = _ := congrArg _ hasked.client
    exact hclient.trans (by rw [hid]; rfl)
  have hv : v.client.sessionId = id := hkept.sessionId.trans hu
  have hbefore : (bare t.client).workerCapabilities = (bare s.client).workerCapabilities := congrArg _ hbare
  have hcapabilities : u.client.workerCapabilities = s.client.workerCapabilities := hasked.capabilities.trans hbefore
  refine ⟨?_, hactive.trans hon, hsource, stop, f, resent, position, ?_, hstop, ⟨start, hcarries, hstart.trans hv.symm⟩, ?_,
    p, hposition, hp.trans (hu.trans hv.symm)⟩
  · rw [hremains.random] at hid
    rw [hv, hkept.random, hasked.random, hremains.random]
    rcases hlist : s.random with _ | ⟨first, rest⟩
    · rw [hlist] at hid
      cases hid
    · rw [hlist] at hid
      exact congrArg (· :: rest) hid
  · rw [hbytes, hstartBytes, hstopBytes, List.cons_append, List.cons_append, List.flatMap_cons, List.flatMap_cons,
      List.append_assoc, List.append_assoc]
  · unfold Resent at hagain ⊢
    rwa [hcapabilities, hturned.2, hu, ← hv] at hagain

/-! ## All calls -/

/-- The call asks for no session. -/
def KeepsSession (c : Client) : Call → Prop
  | .startSession .. => False
  | .sendPosition _ _ _ flags => seekRestarts c flags = false
  | _ => True

theorem stays_control {type : Control → Payload} (htype : type ∈ [Payload.pause, .resume, .stopSession]) (reason : UInt16)
    (s : Conn) : Ends (Conn.sendControlFrame type reason) s fun _ t => Stays s t := by
  by_cases hconn : s.client.connected = true
  · exact (Conn.ends_sendControlFrame htype reason hconn).mono fun _ _ h => stays_sends h
  · unfold Conn.sendControlFrame
    refine Ends.get_bind ?_
    rw [if_pos (by simpa using hconn)]
    exact stays_refl s

theorem stays_stopSession (reason : UInt16) (s : Conn) : Ends (Conn.stopSession reason) s fun _ t => Stays s t := by
  refine Ends.get_bind (Ends.ite (fun _ => stays_refl s) fun _ => ?_)
  refine (stays_control (by simp) _ s).bind fun sent t ht => Ends.ite (fun _ => ?_) fun _ => ht
  exact ⟨⟨ht.1.sessionId, ht.1.random, nofun⟩, ht.2⟩

theorem stays_of_ends {α : Type} {m : ClientM Bool} {s : Conn} {idle : Prop} {type : α → Payload}
    (h : Ends m s fun ok t => idle ∧ ok = false ∧ t = s ∨ ∃ p, s.Sends (type p) ok t) : Ends m s fun _ t => Stays s t := by
  refine h.mono fun ok t ht => ?_
  rcases ht with ⟨-, -, rfl⟩ | ⟨p, hsends⟩
  · exact stays_refl t
  · exact stays_sends hsends

theorem stays_sendModelCtrl (action : UInt8) (modelId : Option CString) (s : Conn) :
    Ends (Conn.sendModelCtrl action modelId) s fun _ t => Stays s t := by
  cases modelId with
  | none => exact stays_of_ends (Conn.ends_sendModelCtrl action .empty s)
  | some modelId => exact stays_of_ends (Conn.ends_sendModelCtrl action modelId s)

/-- Without START the session stays, and only TRANSLATE_CTRL changes the settings. -/
theorem stays_perform {s : Conn} {call : Call} (hcall : KeepsSession s.client call) : Ends (Conn.perform call) s fun ok t =>
    Remains s t ∧ settings t.client = configuredBy call ok (settings s.client) := by
  cases call with
  | startSession => exact hcall.elim
  | sendPosition pts time rate flags => exact stays_of_ends (Conn.ends_sendPosition pts time rate hcall)
  | sendAudio chunk => exact stays_of_ends (Conn.ends_sendAudio chunk s)
  | sendTranslateCtrl enabled source target mode =>
    exact (ends_translateCtrl enabled source target mode s).mono fun ok t ht => ⟨ht.1, ht.2.1⟩
  | sendModelCtrl action modelId => exact stays_sendModelCtrl action modelId s
  | pauseSession =>
    have hpause : Ends Conn.pauseSession s fun _ t => Stays s t :=
      Ends.get_bind (Ends.ite (fun _ => stays_refl s) fun _ => stays_control (by simp) _ s)
    exact hpause
  | resumeSession =>
    have hresume : Ends Conn.resumeSession s fun _ t => Stays s t :=
      Ends.get_bind (Ends.ite (fun _ => stays_refl s) fun _ => stays_control (by simp) _ s)
    exact hresume
  | stopSession reason => exact stays_stopSession reason s

/-- **Sessions and settings of a call.** -/
theorem turns_perform {s : Conn} (hsnug : ∀ tr ∈ settings s.client, tr.Snug) (call : Call) :
    Ends (Conn.perform call) s fun ok t => Turns s t ∧ settings t.client = configuredBy call ok (settings s.client) := by
  by_cases hcall : KeepsSession s.client call
  · exact (stays_perform hcall).mono fun ok t ht => ⟨ht.1.turns, ht.2⟩
  · cases call with
    | startSession origin modelId sourceUrl => exact turns_startSession origin modelId sourceUrl s
    | sendPosition pts time rate flags =>
      exact (ends_restart hsnug pts time rate (Bool.not_eq_false _ ▸ hcall)).mono fun _ _ h => h.1
    | _ => exact (hcall trivial).elim

end VlcWhisper.System
