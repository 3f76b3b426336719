import VlcWhisper.Plugin.ClientIo

/-!
# What the client does with its transport

A transition system on the transport as the client sees it: whether it has it, and the calls it has made. All calls need
the transport, and nothing gives it back. Main result: `steps_run`, that every function of the client only makes these
steps, and that a failed send drops the transport unless it is the header of a control frame or SHUTDOWN.
-/

namespace VlcWhisper.Plugin

open VlcWhisper.Lib VlcWhisper.Protocol Relation

/-! ## The steps -/

/-- Whether the client has the transport, and the calls on it. -/
abbrev Transport := Bool × List Io

def Conn.transport (s : Conn) : Transport := (s.client.connected, s.link.log)

/-- One step of the client. A failed send drops the transport; that a client keeps it is no `strict` step. -/
inductive TransportStep (strict : Bool) : Transport → Transport → Prop
  | wrote (log : List Io) (records : List Bytes) :
      TransportStep strict (true, log) (true, log ++ [.wrote records true])
  | failed (log : List Io) (records : List Bytes) :
      TransportStep strict (true, log) (false, log ++ [.wrote records false])
  | kept (log : List Io) (records : List Bytes) (h : strict = false) :
      TransportStep strict (true, log) (true, log ++ [.wrote records false])
  | received (log : List Io) (capacity : Nat) (result : RecvRecord) :
      TransportStep strict (true, log) (true, log ++ [.received capacity result])
  | dropped (log : List Io) : TransportStep strict (true, log) (false, log)

variable {strict : Bool} {α β : Type}

theorem steps_received (log events : List Io) (h : ∀ io ∈ events, io.IsReceive) :
    ReflTransGen (TransportStep strict) (true, log) (true, log ++ events) := by
  induction events generalizing log with
  | nil => rw [List.append_nil]
  | cons io events ih =>
    have hio := h io (List.mem_cons_self ..)
    cases io with
    | wrote records ok => exact hio.elim
    | received capacity result =>
      have hrest := ih (log ++ [.received capacity result]) fun io hio => h io (List.mem_cons_of_mem _ hio)
      rw [List.append_assoc] at hrest
      exact .head (.received log capacity result) hrest

namespace Conn

/-- From a client that has the transport, the program makes such steps, and still has it after a result in `P`. -/
abbrev Speaks (strict : Bool) (m : ClientM α) (P : α → Prop) : Prop :=
  ServesAll transport (TransportStep strict) (fun s => s.client.connected = true) m P

abbrev SpeaksAt (strict : Bool) (s : Conn) (m : ClientM α) (P : α → Prop) : Prop :=
  Serves transport (TransportStep strict) (fun s => s.client.connected = true) s m P

/-! ## Calls -/

theorem transport_of_connected {s : Conn} (h : s.client.connected = true) : s.transport = (true, s.link.log) := by
  rw [transport, h]

theorem speaks_receiveAll (len : Nat) (deadlineUs : Int) {P : RecvCode × Bytes → Prop} :
    Speaks strict (receiveAll len deadlineUs) P := by
  intro s hs
  obtain ⟨events, h⟩ := receiveAll_spec len deadlineUs [] s.link (Nat.zero_le _)
  refine ⟨?_, fun _ => hs⟩
  rw [transport_of_connected hs]
  show ReflTransGen _ _ (s.client.connected, (Plugin.receiveAll len deadlineUs [] s.link).2.2.log)
  rw [hs, h.log]
  exact steps_received _ _ h.receives

theorem speaks_clock {f : Link → α × Link} (h : ∀ l, (f l).2.log = l.log) {P : α → Prop} : Speaks strict (onLink f) P := by
  intro s hs
  refine ⟨?_, fun _ => hs⟩
  have hsame : transport ((onLink f).run s).2 = transport s := congrArg (s.client.connected, ·) (h s.link)
  rw [hsame]

theorem speaks_isBefore (deadlineUs : Int) {P : Bool → Prop} : Speaks strict (isBefore deadlineUs) P := by
  refine speaks_clock fun l => ?_
  unfold Link.isBefore
  split <;> rfl

theorem speaks_makeDeadline (durationUs : Int) {P : Option Int → Prop} : Speaks strict (makeDeadline durationUs) P := by
  refine speaks_clock fun l => ?_
  unfold Link.makeDeadline
  split <;> rfl

theorem speaks_modifyClient {f : Client → Client} (h : ∀ c, (f c).connected = c.connected) {P : PUnit → Prop} :
    Speaks strict (modifyClient f) P :=
  .modify_of_eq (fun s => congrArg (·, s.link.log) (h s.client)) fun s hs => (h s.client).trans hs

theorem speaks_modify {f : Conn → Conn} (h : ∀ s, (f s).client.connected = s.client.connected ∧ (f s).link = s.link)
    {P : PUnit → Prop} : Speaks strict (modify f) P := by
  refine .modify_of_eq (fun s => ?_) fun s hs => (h s).1.trans hs
  unfold transport
  rw [(h s).1, (h s).2]

theorem ends_lost (result : α) (s : Conn) :
    Ends (lost result) s fun a t => a = result ∧ t.transport = (false, s.link.log) := by
  refine ⟨rfl, ?_⟩
  show ((dropTransport s.client).connected, s.link.log) = _
  unfold dropTransport
  split
  · rfl
  · rename_i h
    rw [Bool.eq_false_iff.mpr h]

theorem speaks_lost (result : α) {P : α → Prop} (h : ¬ P result) : Speaks strict (lost result) P := by
  intro s hs
  refine (ends_lost result s).mono ?_
  rintro _ t ⟨rfl, ht⟩
  refine ⟨?_, fun hp => (h hp).elim⟩
  rw [ht, transport_of_connected hs]
  exact .single (.dropped _)

/-! ## Frames -/

theorem ends_ipcSend (bs : Bytes) (s : Conn) :
    Ends (ipcSend bs) s fun ok t => t.client = s.client ∧ ∃ records, t.link.log = s.link.log ++ [.wrote records ok] :=
  ⟨rfl, _, rfl⟩

theorem speaks_sendParts (header : FrameHeader) (payload : Bytes) :
    Speaks strict (sendParts header payload) (· = true) := by
  intro s hs
  refine Ends.bind (ends_ipcSend (encodeHeader header) s) ?_
  rintro ok t ⟨hclient, records, hlog⟩
  rw [transport_of_connected hs]
  cases ok with
  | false =>
    refine (ends_lost false t).mono ?_
    rintro _ u ⟨rfl, hu⟩
    refine ⟨?_, nofun⟩
    rw [hu, hlog]
    exact .single (.failed _ _)
  | true =>
    refine Ends.bind (ends_ipcSend payload t) ?_
    rintro ok u ⟨hclient', records', hlog'⟩
    rw [hlog] at hlog'
    have hfirst : TransportStep strict _ _ := .wrote s.link.log records
    cases ok with
    | false =>
      refine (ends_lost false u).mono ?_
      rintro _ v ⟨rfl, hv⟩
      refine ⟨?_, nofun⟩
      rw [hv, hlog']
      exact .head hfirst (.single (.failed _ _))
    | true =>
      have hconn : u.client.connected = true := by rw [hclient', hclient, hs]
      refine ⟨?_, fun _ => hconn⟩
      show ReflTransGen _ _ (transport u)
      rw [transport_of_connected hconn, hlog']
      exact .head hfirst (.single (.wrote _ _))

theorem speaks_nextHeader (type : MessageType) (payload : Bytes) {P : FrameHeader → Prop} :
    Speaks strict (nextHeader type payload) P := by
  unfold nextHeader
  refine .andThen (speaks_modifyClient ?_) fun _ => ?_
  · exact fun _ => rfl
  · exact .get_bind fun s => .pure _

theorem speaks_sendFrame (p : Payload) (bufferSize : Nat) : Speaks strict (sendFrame p bufferSize) (· = true) := by
  unfold sendFrame
  split
  · exact .pure false
  · exact .andThen (speaks_nextHeader _ _) fun header => speaks_sendParts _ _

/-- The next send writes its first record: for a header that is all of it. -/
def FirstSendWorks (s : Conn) : Prop := (s.link.sends.headD fun _ => false) 0 = false

theorem send_header {s : Conn} (h : FirstSendWorks s) (header : FrameHeader) :
    (s.link.send (encodeHeader header)).1 = true := by
  have hne : encodeHeader header ≠ [] := List.ne_nil_of_length_pos (by rw [length_encodeHeader]; decide)
  have hrest : (encodeHeader header).drop maxRecordBytes = [] := by
    rw [List.drop_eq_nil_iff, length_encodeHeader]
    decide
  show (Protocol.ipcSend (s.link.sends.headD fun _ => false) 0 (encodeHeader header)).1 = true
  rw [Protocol.ipcSend, if_neg hne, if_neg (by rw [h]; decide), hrest, Protocol.ipcSend, if_pos rfl]

/-- A control frame: if its header fails, its payload is sent all the same. -/
theorem speaks_sendControlFrame {s : Conn} (hs : s.client.connected = true) (hheader : strict = true → FirstSendWorks s)
    (type : Control → Payload) (reason : UInt16) : SpeaksAt strict s (sendControlFrame type reason) (· = true) := by
  unfold sendControlFrame
  refine Ends.get_bind ?_
  rw [if_neg (by rw [hs]; decide)]
  dsimp only
  split
  · exact ServesAll.pure false s hs
  · rename_i payload _
    generalize (type { sessionId := s.client.sessionId, reason }).type = messageType
    refine Ends.bind (P := fun _ t => t.transport = s.transport ∧ t.link = s.link) ⟨rfl, rfl⟩ ?_
    rintro header t ⟨ht, hlink⟩
    have htconn : t.client.connected = true := (congrArg Prod.fst ht).trans hs
    refine Ends.bind (P := fun ok u => (ok = (t.link.send (encodeHeader header)).1) ∧ u.client = t.client ∧
      ∃ records, u.link.log = t.link.log ++ [.wrote records ok]) ⟨rfl, rfl, _, rfl⟩ ?_
    rintro ok1 u ⟨hok1, hclient, records, hlog⟩
    refine Ends.bind (ends_ipcSend payload u) ?_
    rintro ok2 v ⟨hclient', records', hlog'⟩
    rw [hlog, hlink] at hlog'
    rw [transport_of_connected hs]
    have hstrict (h : ok1 = false) : strict = false := by
      by_contra hne
      have hworks := hheader (Bool.eq_true_of_not_eq_false hne)
      have htrue : (t.link.send (encodeHeader header)).1 = true := by
        rw [hlink]
        exact send_header hworks header
      rw [← hok1, h] at htrue
      cases htrue
    have hfirst : TransportStep strict (true, s.link.log) (true, s.link.log ++ [.wrote records ok1]) := by
      cases ok1 with
      | false => exact .kept _ _ (hstrict rfl)
      | true => exact .wrote _ _
    cases ok2 with
    | false =>
      rw [Bool.and_false]
      refine (ends_lost false v).mono ?_
      rintro _ w ⟨rfl, hw⟩
      refine ⟨?_, nofun⟩
      rw [hw, hlog']
      exact .head hfirst (.single (.failed _ _))
    | true =>
      have hvconn : v.client.connected = true := by rw [hclient', hclient, htconn]
      have hsecond : ReflTransGen (TransportStep strict) (true, s.link.log) v.transport := by
        rw [transport_of_connected hvconn, hlog']
        exact .head hfirst (.single (.wrote _ _))
      cases ok1 with
      | true => exact ⟨hsecond, fun _ => hvconn⟩
      | false =>
        refine (ends_lost false v).mono ?_
        rintro _ w ⟨rfl, hw⟩
        refine ⟨?_, nofun⟩
        rw [transport_of_connected hvconn] at hsecond
        rw [hw]
        exact hsecond.tail (.dropped _)

/-! ## Handshakes -/

theorem speaks_onHelloAck (payload : Bytes) : Speaks strict (onHelloAck payload) (· = true) := by
  unfold onHelloAck
  split
  · refine .ite ?_ (speaks_lost _ nofun)
    refine .andThen (speaks_modify ?_) fun _ => .pure _
    exact fun s => ⟨rfl, rfl⟩
  · exact speaks_lost _ nofun

theorem speaks_awaitHelloAck : Speaks strict awaitHelloAck (· = true) := by
  unfold awaitHelloAck
  refine .andThen (speaks_makeDeadline _) fun deadline => ?_
  cases deadline with
  | none => exact speaks_lost _ nofun
  | some deadlineUs =>
    refine .andThen (speaks_receiveAll _ _) fun ⟨code, buffer⟩ => .ite (speaks_lost _ nofun) ?_
    split
    · exact speaks_lost _ nofun
    · refine .ite (speaks_lost _ nofun) ?_
      exact .andThen (speaks_receiveAll _ _) fun ⟨code, payload⟩ => .ite (speaks_lost _ nofun) (speaks_onHelloAck _)

theorem speaks_accept (start : Start) (sourceActive : Bool) {P : Bool → Prop} : Speaks strict (accept start sourceActive) P := by
  unfold accept
  refine .andThen (speaks_modifyClient ?_) fun _ => .pure _
  exact fun _ => rfl

theorem speaks_onStarted (start : Start) (deadlineUs : Int) (header : FrameHeader) :
    Speaks strict (onStarted start deadlineUs header) (· = true) := by
  unfold onStarted
  refine .get_bind fun s => .ite (speaks_lost _ nofun) ?_
  refine .andThen (speaks_modify ?_) fun _ => .ite (speaks_lost _ nofun) (.ite ?_ (speaks_accept _ _))
  · exact fun s => ⟨rfl, rfl⟩
  refine .andThen (speaks_receiveAll _ _) fun ⟨code, payload⟩ => .ite (speaks_lost _ nofun) ?_
  split
  · exact .ite (speaks_lost _ nofun) (speaks_accept _ _)
  · exact speaks_lost _ nofun

theorem speaks_onError (deadlineUs : Int) (header : FrameHeader) :
    Speaks strict (onError deadlineUs header) (· ≠ some false) := by
  unfold onError
  refine .get_bind fun s => .ite ?_ (.pure _)
  refine .andThen (speaks_receiveAll _ _) fun ⟨code, payload⟩ => .ite (speaks_lost _ (by simp)) ?_
  split
  · refine .ite (speaks_lost _ (by simp)) (.ite (.pure _) (.ite (.pure _) (.pure _)))
  · exact speaks_lost _ (by simp)

theorem speaks_handshakeRound (start : Start) (deadlineUs : Int) :
    Speaks strict (handshakeRound start deadlineUs) (· ≠ some false) := by
  have hlost : Speaks strict (lost (some false)) (· ≠ some false) := speaks_lost _ (by simp)
  unfold handshakeRound
  refine .andThen (speaks_isBefore _) fun before => .ite ?_ hlost
  refine .andThen (speaks_receiveAll _ _) fun ⟨code, buffer⟩ => .ite hlost ?_
  split
  · exact hlost
  · refine .ite ?_ (.ite (speaks_onError _ _) (.ite ?_ (.pure _)))
    · exact ServesAll.bind (speaks_onStarted _ _ _) (fun _ _ => .pure _) fun a ha => .pure (by simpa using ha)
    · exact .andThen (speaks_receiveAll _ _) fun ⟨code, _⟩ => .ite hlost (.pure _)

theorem speaks_handshake (start : Start) : Speaks strict (handshake start) (· = true) := by
  unfold handshake
  refine .andThen (speaks_makeDeadline _) fun deadline => ?_
  cases deadline with
  | none => exact .pure _
  | some deadlineUs =>
    refine .get_bind fun s => ?_
    refine (ServesAll.loop (speaks_handshakeRound start deadlineUs) nofun _).bind (fun _ _ => .pure _) fun a ha => .pure ?_
    rw [not_not.mp ha]
    nofun

theorem speaks_startSession (timelineOriginPtsUs : Int64) (modelId sourceUrl : Option CString) :
    Speaks strict (startSession timelineOriginPtsUs modelId sourceUrl) (· = true) := by
  unfold startSession
  refine .get_bind fun s => .ite (.pure _) (.ite (.pure _) ?_)
  refine .andThen (speaks_modifyClient ?_) fun _ => ?_
  · exact fun _ => rfl
  refine .andThen (fun s hs => ⟨.refl, fun _ => hs⟩) fun id => ?_
  split
  · exact .pure _
  · refine .andThen (speaks_modifyClient ?_) fun _ => .ite (.pure _) ?_
    · exact fun _ => rfl
    · refine .get_bind fun s => ?_
      refine (speaks_sendFrame _ _).bind (fun ok hok => ?_) fun ok hok => ?_
      · rw [if_pos hok]
        exact speaks_handshake _
      · rw [if_neg hok]
        exact .pure Bool.false_ne_true

/-! ## The other functions -/

theorem speaks_sendPositionFrame (currentPtsUs inputTimeUs : Int64) (playbackRate : Binary32) (flags : UInt32) :
    Speaks strict (sendPositionFrame currentPtsUs inputTimeUs playbackRate flags) (· = true) := by
  unfold sendPositionFrame
  exact .get_bind fun s => speaks_sendFrame _ _

theorem speaks_sendTranslateCtrl (enabled : Bool) (sourceLang targetLang : Option CString) (mode : UInt8) :
    Speaks strict (sendTranslateCtrl enabled sourceLang targetLang mode) (· = true) := by
  unfold sendTranslateCtrl
  refine .get_bind fun s => .ite (.pure _) (.ite ?_ ?_)
  · refine ServesAll.andThen ?_ fun _ => .pure _
    unfold onlyIf
    refine .ite (speaks_modifyClient ?_) (.pure _)
    exact fun _ => rfl
  · refine (speaks_sendFrame _ _).bind (fun ok hok => ?_) fun ok hok => ?_
    · rw [if_pos hok]
      refine .andThen (speaks_modifyClient ?_) fun _ => .pure _
      exact fun _ => rfl
    · rw [if_neg hok]
      exact .pure Bool.false_ne_true

theorem speaks_resendTranslateCtrl (c : Client) : Speaks strict (resendTranslateCtrl c) (· = true) := by
  unfold resendTranslateCtrl
  exact .get_bind fun s => .ite (speaks_sendTranslateCtrl _ _ _ _) (.pure _)

theorem speaks_restart (c : Client) (currentPtsUs inputTimeUs : Int64) (playbackRate : Binary32) (flags : UInt32) :
    Speaks strict (do
      modifyClient fun c => { c with sessionActive := false, workerSourceActive := false }
      if ← startSession currentPtsUs (restartModelId c) (some (restartSourceUrl c)) then do
        let started ← get
        if !started.client.workerSourceActive then lost false
        else if ← resendTranslateCtrl c then
          sendPositionFrame currentPtsUs inputTimeUs playbackRate (flags &&& ~~~positionFlagSeek)
        else pure false
      else pure false) (· = true) := by
  refine .andThen (speaks_modifyClient ?_) fun _ => ?_
  · exact fun _ => rfl
  refine (speaks_startSession _ _ _).bind (fun ok hok => ?_) fun ok hok => ?_
  · rw [if_pos hok]
    refine .get_bind fun started => .ite (speaks_lost _ nofun) ?_
    refine (speaks_resendTranslateCtrl c).bind (fun ok hok => ?_) fun ok hok => ?_
    · rw [if_pos hok]
      exact speaks_sendPositionFrame _ _ _ _
    · rw [if_neg hok]
      exact .pure Bool.false_ne_true
  · rw [if_neg hok]
    exact .pure Bool.false_ne_true

theorem speaks_receivePayload (length : Nat) (deadlineUs : Int) {P : RecvCode × Option Bytes → Prop} :
    Speaks strict (receivePayload length deadlineUs) P := by
  unfold receivePayload
  refine .ite ?_ (.pure _)
  exact .andThen (speaks_receiveAll _ _) fun ⟨code, payload⟩ => .pure _

/-- A round of the receive loop that does not end it keeps the transport. -/
theorem speaks_onFrame (header : FrameHeader) :
    Speaks strict (onFrame header) (· ≠ some (.fatal, none)) := by
  have hlost : Speaks strict (lost (some (.fatal, none))) (· ≠ some (RecvCode.fatal, (none : Option Payload))) :=
    speaks_lost _ (by simp)
  unfold onFrame
  refine .get_bind fun s => .ite (.ite ?_ (.pure _)) ?_
  · refine .andThen (speaks_makeDeadline _) fun deadline => ?_
    cases deadline with
    | none => exact hlost
    | some deadlineUs => exact .andThen (speaks_receiveAll _ _) fun ⟨code, _⟩ => .ite hlost (.pure _)
  · refine .andThen (speaks_modify ?_) fun _ => .andThen (speaks_makeDeadline _) fun deadline => ?_
    · exact fun s => ⟨rfl, rfl⟩
    cases deadline with
    | none => exact hlost
    | some deadlineUs =>
      refine .andThen (speaks_receivePayload _ _) fun ⟨code, payload⟩ => .ite hlost ?_
      split <;> exact .pure _

theorem speaks_receiveRound (deadlineUs : Int) :
    Speaks strict (receiveRound deadlineUs) (· ≠ some (.fatal, none)) := by
  have hlost : Speaks strict (lost (some (.fatal, none))) (· ≠ some (RecvCode.fatal, (none : Option Payload))) :=
    speaks_lost _ (by simp)
  unfold receiveRound
  refine .andThen (speaks_isBefore _) fun before => .ite ?_ (.pure _)
  refine .andThen (speaks_receiveAll _ _) fun ⟨code, buffer⟩ => .ite (.pure _) (.ite hlost ?_)
  split
  · exact hlost
  · exact speaks_onFrame _

/-! ## Any call -/

/-- The call starts with a control frame or SHUTDOWN: STOP, PAUSE, RESUME, or a seek that restarts the session. -/
def opensWithControl (c : Client) : ApiCall → Bool
  | .send .pauseSession | .send .resumeSession | .send (.stopSession _) => c.connected && c.sessionActive
  | .send (.sendPosition _ _ _ flags) => c.connected && c.sessionActive && seekRestarts c flags
  | .shutdown => c.connected
  | _ => false

/-- Its first send works, if the call is one of those. -/
def Safe (s : Conn) (call : ApiCall) : Prop := opensWithControl s.client call = true → FirstSendWorks s

/-- Without the transport, no call makes any on it. -/
theorem apply_of_disconnected {s : Conn} (hs : s.client.connected = false) (call : ApiCall) :
    (s.apply call).transport = s.transport := by
  obtain ⟨⟨connected, _, _, _, _, _, _, _, _, _, _, _, _, _⟩, _, _, _, _⟩ := s
  obtain rfl : connected = false := hs
  cases call with
  | send call => cases call <;> rfl
  | shutdown => rfl
  | receiveFrame timeoutUs => rfl

theorem steps_discard {s : Conn} {m : ClientM α} {P : α → Prop} (h : SpeaksAt strict s m P) :
    StepsAt transport (TransportStep strict) s (discard m) := h.1

theorem stepsAt_shutdown {s : Conn} (hs : s.client.connected = true) (hheader : strict = true → FirstSendWorks s) :
    StepsAt transport (TransportStep strict) s shutdown := by
  unfold shutdown
  refine .get_bind ?_
  rw [if_neg (by rw [hs]; decide)]
  refine Ends.bind (P := fun _ t => t.transport = s.transport ∧ t.link = s.link) ⟨rfl, rfl⟩ ?_
  rintro header t ⟨ht, hlink⟩
  have htconn : t.client.connected = true := (congrArg Prod.fst ht).trans hs
  have hworks (h : strict = true) : (t.link.send (encodeHeader header)).1 = true := by
    rw [hlink]
    exact send_header (hheader h) header
  obtain ⟨-, records, hlog⟩ := ends_ipcSend (encodeHeader header) t
  change (t.link.send (encodeHeader header)).2.log = t.link.log ++ [.wrote records (t.link.send (encodeHeader header)).1]
    at hlog
  show ReflTransGen _ _ (t.client.connected, (t.link.send (encodeHeader header)).2.log)
  rw [transport_of_connected hs, htconn, hlog, hlink]
  rw [hlink] at hworks
  refine .single ?_
  cases hok : (s.link.send (encodeHeader header)).1 with
  | true => exact .wrote _ _
  | false =>
    refine .kept _ _ ?_
    by_contra hne
    rw [hworks (Bool.eq_true_of_not_eq_false hne)] at hok
    cases hok

theorem speaks_sendAudio (chunk : AudioChunk) : Speaks strict (sendAudio chunk) (· = true) := by
  unfold sendAudio
  exact .get_bind fun s => .ite (.pure _) (speaks_sendFrame _ _)

theorem speaks_sendModelCtrl (action : UInt8) (modelId : Option CString) :
    Speaks strict (sendModelCtrl action modelId) (· = true) := by
  unfold sendModelCtrl
  exact .get_bind fun s => .ite (.pure _) (.ite (.pure _) (speaks_sendFrame _ _))

theorem speaks_receiveFrame (timeoutUs : UInt32) : Speaks strict (receiveFrame timeoutUs) (·.1 ≠ .fatal) := by
  unfold receiveFrame
  refine .get_bind fun s => .ite (.pure _) ?_
  refine .andThen (speaks_makeDeadline _) fun deadline => ?_
  cases deadline with
  | none => exact .pure _
  | some deadlineUs =>
    refine .get_bind fun s => ?_
    refine (ServesAll.loop (speaks_receiveRound deadlineUs) nofun _).bind (fun _ _ => .pure _) fun a ha => .pure ?_
    rw [not_not.mp ha]
    exact not_not.mpr rfl

theorem stepsAt_control {s : Conn} (hs : s.client.connected = true)
    (hheader : strict = true → s.client.sessionActive = true → FirstSendWorks s) (type : Control → Payload)
    (reason : UInt16) :
    StepsAt transport (TransportStep strict) s
      (if !s.client.connected || !s.client.sessionActive then pure () else discard (sendControlFrame type reason)) := by
  split
  · exact .of_eq rfl
  · rename_i hguard
    rw [hs, Bool.not_true, Bool.false_or, Bool.not_eq_true', Bool.not_eq_false] at hguard
    exact steps_discard (speaks_sendControlFrame hs (fun h => hheader h hguard) type reason)

theorem stepsAt_stopSession {s : Conn} (hs : s.client.connected = true)
    (hheader : strict = true → s.client.sessionActive = true → FirstSendWorks s) (reason : UInt16) :
    StepsAt transport (TransportStep strict) s (stopSession reason) := by
  unfold stopSession
  refine .get_bind ?_
  split
  · exact .of_eq rfl
  · rename_i hguard
    rw [hs, Bool.not_true, Bool.false_or, Bool.not_eq_true', Bool.not_eq_false] at hguard
    refine (show SpeaksAt strict s _ fun _ => False from ?_).steps
    refine Serves.bind (speaks_sendControlFrame hs (fun h => hheader h hguard) _ _) (fun ok hok => ?_)
      fun ok hok => ?_
    · rw [if_pos hok]
      refine speaks_modifyClient ?_
      exact fun _ => rfl
    · rw [if_neg hok]
      exact .pure nofun

theorem stepsAt_sendPosition {s : Conn} (hs : s.client.connected = true) (currentPtsUs inputTimeUs : Int64)
    (playbackRate : Binary32) (flags : UInt32)
    (hheader : strict = true → s.client.sessionActive = true → seekRestarts s.client flags = true → FirstSendWorks s) :
    SpeaksAt strict s (sendPosition currentPtsUs inputTimeUs playbackRate flags) (· = true) := by
  unfold sendPosition
  refine Ends.get_bind ?_
  dsimp only
  split
  · exact ServesAll.pure false s hs
  · rename_i hguard
    rw [hs, Bool.not_true, Bool.false_or, Bool.not_eq_true', Bool.not_eq_false] at hguard
    split
    · rename_i hseek
      refine Serves.bind (speaks_sendControlFrame hs (fun h => hheader h hguard hseek) _ _) (fun ok hok => ?_)
        fun ok hok => ?_
      · rw [if_pos hok]
        exact speaks_restart s.client currentPtsUs inputTimeUs playbackRate flags
      · rw [if_neg hok]
        exact .pure Bool.false_ne_true
    · exact speaks_sendPositionFrame _ _ _ _ s hs

/-- **The client's steps.** Every call makes steps on the transport, and strict ones if it is safe. -/
theorem steps_run (s : Conn) (call : ApiCall) (hsafe : strict = true → Safe s call) :
    StepsAt transport (TransportStep strict) s call.run := by
  rcases hconn : s.client.connected with _ | _
  · exact .of_eq (apply_of_disconnected hconn call)
  have hopens (h : strict = true) (hopen : opensWithControl s.client call = true) : FirstSendWorks s := hsafe h hopen
  cases call with
  | shutdown => exact stepsAt_shutdown hconn fun h => hopens h hconn
  | receiveFrame timeoutUs => exact steps_discard (speaks_receiveFrame timeoutUs s hconn)
  | send call =>
    cases call with
    | startSession origin modelId sourceUrl => exact steps_discard (speaks_startSession _ _ _ s hconn)
    | sendAudio chunk => exact steps_discard (speaks_sendAudio chunk s hconn)
    | sendTranslateCtrl enabled source target mode => exact steps_discard (speaks_sendTranslateCtrl _ _ _ _ s hconn)
    | sendModelCtrl action modelId => exact steps_discard (speaks_sendModelCtrl _ _ s hconn)
    | sendPosition pts time rate flags =>
      refine steps_discard (stepsAt_sendPosition hconn pts time rate flags fun h hactive hseek => hopens h ?_)
      show (s.client.connected && s.client.sessionActive && seekRestarts s.client flags) = true
      rw [hconn, hactive, hseek]
      rfl
    | pauseSession =>
      refine stepsAt_control hconn (fun h hactive => hopens h ?_) .pause ctrlReasonUserPause
      show (s.client.connected && s.client.sessionActive) = true
      rw [hconn, hactive]
      rfl
    | resumeSession =>
      refine stepsAt_control hconn (fun h hactive => hopens h ?_) .resume ctrlReasonUserResume
      show (s.client.connected && s.client.sessionActive) = true
      rw [hconn, hactive]
      rfl
    | stopSession reason =>
      refine stepsAt_stopSession hconn (fun h hactive => hopens h ?_) reason
      show (s.client.connected && s.client.sessionActive) = true
      rw [hconn, hactive]
      rfl

end Conn

end VlcWhisper.Plugin
