import VlcWhisper.Plugin.TransportSteps

/-!
# What a call writes (`vw_worker_client.c`)

A sending function either writes its frame, and of the rest of the client only the sequence number changes, or it fails
and drops the transport. Main results, one for each function that waits for no answer: `ends_sendPositionFrame`,
`ends_sendTranslateCtrl`, `ends_sendAudio`, `ends_sendModelCtrl`, `ends_sendControlFrame`.
-/

namespace VlcWhisper.Plugin

open VlcWhisper.Lib VlcWhisper.Protocol

/-! ## Encoding -/

theorem exists_encode {p : Payload} {fields : List Bytes} {size : Nat} (hfields : encodeFields p = some fields)
    (hsize : fields.flatten.length ≤ size) :
    ∃ payload, encodePayload p size = some payload ∧ payload.length ≤ size := by
  refine ⟨fields.flatten, ?_, hsize⟩
  have hwrites : writeAll size [] fields = some ([] ++ fields.flatten) :=
    writeAll_of_le (by rw [List.length_nil, Nat.zero_add]; exact hsize)
  rw [List.nil_append] at hwrites
  unfold encodePayload
  rw [hfields]
  exact hwrites

theorem exists_encode_position (p : Position) :
    ∃ payload, encodePayload (.position p) 64 = some payload ∧ payload.length ≤ 64 :=
  exists_encode rfl (by simp [sessionIdBytes])

theorem exists_encode_control {type : Control → Payload} (htype : type ∈ [Payload.pause, .resume, .stopSession]) (p : Control) :
    ∃ payload, encodePayload (type p) 64 = some payload ∧ payload.length ≤ 64 := by
  simp only [List.mem_cons, List.not_mem_nil, or_false] at htype
  rcases htype with rfl | rfl | rfl
  all_goals exact exists_encode rfl (by simp [sessionIdBytes])

theorem exists_encode_translateCtrl (p : TranslateCtrl) :
    ∃ payload, encodePayload (.translateCtrl p) 50 = some payload ∧ payload.length ≤ 50 :=
  exists_encode rfl (by simp [sessionIdBytes])

theorem exists_encode_modelCtrl (p : ModelCtrl) :
    ∃ payload, encodePayload (.modelCtrl p) 128 = some payload ∧ payload.length ≤ 128 :=
  exists_encode rfl (by simp [sessionIdBytes])

theorem exists_encode_audio (sessionId : SessionId) (chunk : AudioChunk) :
    ∃ payload, encodePayload (.audioPcm ⟨sessionId, chunk.startPtsUs, chunk.durationUs, chunk.pcm⟩)
      (2 * audioChunkMaxPcmBytes) = some payload ∧ payload.length ≤ 2 * audioChunkMaxPcmBytes := by
  have hdangling : ¬ chunk.pcm.Dangling := by
    intro h
    cases h.2
  have hlen : chunk.pcm.bytes.length = chunk.bytes.toNat := Slice.length_bytes hdangling
  have hfits := chunk.fits
  unfold audioChunkMaxPcmBytes at hfits ⊢
  refine exists_encode (if_neg hdangling) ?_
  simp [sessionIdBytes, hlen]
  omega

/-! ## Frames -/

namespace Conn

/-- The bytes that were sent. -/
def written : List Io → Bytes
  | [] => []
  | .wrote records _ :: rest => records.flatten ++ written rest
  | .received .. :: rest => written rest

theorem written_append (l m : List Io) : written (l ++ m) = written l ++ written m := by
  induction l with
  | nil => rfl
  | cons io l ih =>
    cases io with
    | wrote records ok => rw [List.cons_append, written, written, ih, List.append_assoc]
    | received capacity result => exact ih

/-- What sending leaves as it was. -/
def desk (s : Conn) : Conn :=
  { s with client := { s.client with sequence := 0 }, link := { s.link with sends := [], log := [] } }

/-- The frames were written, and nothing else has changed. -/
structure Wrote (s t : Conn) (frames : List WireFrame) : Prop where
  desk : desk t = desk s
  bytes : written t.link.log = written s.link.log ++ frames.flatMap WireFrame.bytes

/-- The transport was dropped, and nothing else has changed. -/
def Dropped (s t : Conn) : Prop := desk t = { desk s with client := dropTransport (desk s).client }

theorem dropTransport_connected (c : Client) : (dropTransport c).connected = false := by
  unfold dropTransport
  split
  · rfl
  · rename_i h
    exact Bool.eq_false_iff.mpr h

theorem Dropped.connected {s t : Conn} (h : Dropped s t) : t.client.connected = false :=
  (congrArg (·.client.connected) h).trans (dropTransport_connected _)

theorem ends_drop {α : Type} (result : α) {s t : Conn} (h : desk t = desk s) :
    Ends (lost result) t fun r u => r = result ∧ Dropped s u := by
  refine ⟨rfl, ?_⟩
  have hdrop : desk { t with client := dropTransport t.client } = { desk t with client := dropTransport (desk t).client } := by
    unfold desk dropTransport
    split
    · rfl
    · rfl
  exact hdrop.trans (by rw [h])

theorem ends_send (bs : Bytes) (s : Conn) : Ends (ipcSend bs) s fun ok t => desk t = desk s ∧
    (ok = true → written t.link.log = written s.link.log ++ bs) := by
  refine ⟨rfl, fun hok => ?_⟩
  have hok : (Protocol.ipcSend (s.link.sends.headD fun _ => false) 0 bs).1 = true := hok
  show written (s.link.log ++ [.wrote (Protocol.ipcSend _ 0 bs).2 _]) = _
  rw [written_append, records_of_ipcSend hok]
  show _ ++ ((records maxRecordBytes bs).flatten ++ []) = _
  rw [List.append_nil, flatten_records (by decide)]

/-- A frame with this payload was written, or the transport is dropped. -/
def Sends (s : Conn) (p : Payload) (ok : Bool) (t : Conn) : Prop :=
  ok = true ∧ (∃ f : WireFrame, f.type = p.type ∧ (∃ size, encodePayload p size = some f.payload) ∧ Wrote s t [f]) ∨
    ok = false ∧ Dropped s t

theorem Sends.disconnected {s t : Conn} {p : Payload} (h : Sends s p false t) : t.client.connected = false := by
  rcases h with ⟨hok, -⟩ | ⟨-, hdropped⟩
  · cases hok
  · exact hdropped.connected

theorem ends_sendParts {s t : Conn} {p : Payload} {size : Nat} (f : WireFrame) (htype : f.type = p.type)
    (hencodes : encodePayload p size = some f.payload) (hdesk : desk t = desk s) (hlog : t.link.log = s.link.log) :
    Ends (sendParts f.header f.payload) t fun ok u => Sends s p ok u := by
  refine (ends_send _ t).bind fun ok1 u ⟨hu, hheader⟩ => ?_
  refine Ends.ite (fun hok1 => ?_) fun _ => ?_
  · refine (ends_send _ u).bind fun ok2 v ⟨hv, hpayload⟩ => Ends.ite (fun hok2 => ?_) fun _ => ?_
    · refine .inl ⟨rfl, f, htype, ⟨size, hencodes⟩, (hv.trans hu).trans hdesk, ?_⟩
      show written v.link.log = _
      rw [hpayload hok2, hheader hok1, hlog, List.flatMap_singleton, WireFrame.bytes, List.append_assoc]
    · exact (ends_drop false ((hv.trans hu).trans hdesk)).mono fun _ _ h => .inr h
  · exact (ends_drop false (hu.trans hdesk)).mono fun _ _ h => .inr h

theorem ends_nextHeader {p : Payload} {payload : Bytes} (hlen : payload.length ≤ maxPayloadBytes) (s : Conn) :
    Ends (nextHeader p.type payload) s fun header t => desk t = desk s ∧ t.link.log = s.link.log ∧
      ∃ f : WireFrame, header = f.header ∧ f.payload = payload ∧ f.type = p.type :=
  ⟨rfl, rfl, ⟨p.type, s.client.sequence + 1, payload, hlen⟩, rfl, rfl, rfl⟩

theorem ends_sendFrame {p : Payload} {size : Nat} {payload : Bytes} (hencodes : encodePayload p size = some payload)
    (hlen : payload.length ≤ maxPayloadBytes) (s : Conn) : Ends (sendFrame p size) s fun ok t => Sends s p ok t := by
  unfold sendFrame
  rw [hencodes]
  refine (ends_nextHeader hlen s).bind fun header t ⟨hdesk, hlog, f, hheader, hpayload, htype⟩ => ?_
  rw [hheader, ← hpayload]
  exact ends_sendParts f htype (hencodes.trans (congrArg some hpayload.symm)) hdesk hlog

/-! ## The sending functions -/

/-- `send_control_frame` sends the payload even if the header was lost. -/
theorem ends_sendControlFrame {type : Control → Payload} (htype : type ∈ [Payload.pause, .resume, .stopSession])
    (reason : UInt16) {s : Conn} (hs : s.client.connected = true) :
    Ends (sendControlFrame type reason) s fun ok t => Sends s (type ⟨s.client.sessionId, reason⟩) ok t := by
  obtain ⟨payload, hencodes, hlen⟩ := exists_encode_control htype ⟨s.client.sessionId, reason⟩
  unfold sendControlFrame
  refine Ends.get_bind ?_
  rw [if_neg (by rw [hs]; decide)]
  dsimp only
  rw [hencodes]
  have hmax : payload.length ≤ maxPayloadBytes := hlen.trans (by decide)
  refine (ends_nextHeader hmax s).bind fun header t ⟨hdesk, hlog, f, hheader, hpayload, hf⟩ => ?_
  refine (ends_send _ t).bind fun ok1 u ⟨hu, hsent1⟩ => (ends_send _ u).bind fun ok2 v ⟨hv, hsent2⟩ => ?_
  refine Ends.ite (fun hok => ?_) fun _ => ?_
  · rw [Bool.and_eq_true] at hok
    refine .inl ⟨rfl, f, hf, ⟨64, hencodes.trans (congrArg some hpayload.symm)⟩, (hv.trans hu).trans hdesk, ?_⟩
    show written v.link.log = _
    rw [hsent2 hok.2, hsent1 hok.1, hlog, hheader, ← hpayload, List.flatMap_singleton, WireFrame.bytes, List.append_assoc]
  · exact (ends_drop false ((hv.trans hu).trans hdesk)).mono fun _ _ h => .inr h

theorem ends_sendPositionFrame (currentPtsUs inputTimeUs : Int64) (playbackRate : Binary32) (flags : UInt32) (s : Conn) :
    Ends (sendPositionFrame currentPtsUs inputTimeUs playbackRate flags) s fun ok t =>
      ∃ p, Sends s (.position p) ok t := by
  refine Ends.get_bind ?_
  obtain ⟨payload, hencodes, hlen⟩ := exists_encode_position
    { sessionId := s.client.sessionId, currentPtsUs, inputTimeUs, playbackRate := effRate playbackRate, flags }
  exact (ends_sendFrame hencodes (hlen.trans (by decide)) s).mono fun _ _ h => ⟨_, h⟩

theorem ends_sendPosition {s : Conn} (currentPtsUs inputTimeUs : Int64) (playbackRate : Binary32) {flags : UInt32}
    (hseek : seekRestarts s.client flags = false) :
    Ends (sendPosition currentPtsUs inputTimeUs playbackRate flags) s fun ok t =>
      (s.client.connected = false ∨ s.client.sessionActive = false) ∧ ok = false ∧ t = s ∨
        ∃ p, Sends s (.position p) ok t := by
  refine Ends.get_bind (Ends.ite (fun hidle => .inl ⟨?_, rfl, rfl⟩) fun _ => ?_)
  · simpa using hidle
  · rw [if_neg (by rw [hseek]; decide)]
    exact (ends_sendPositionFrame _ _ _ _ s).mono fun _ _ h => .inr h

/-- The settings that the client keeps. -/
def withSettings (c : Client) (enabled : Bool) (source target : CArray 16) (mode : UInt8) : Client :=
  { c with translationConfigured := true, translateEnabled := enabled, translateSourceLang := source,
           translateTargetLang := target, translateMode := mode }

/-- TRANSLATE_CTRL is sent and its settings are kept; a worker without the capability is sent none. -/
theorem ends_sendTranslateCtrl (enabled : Bool) (source target : CString) (mode : UInt8) (s : Conn) :
    Ends (sendTranslateCtrl enabled (some source) (some target) mode) s fun ok t =>
      s.client.connected = false ∧ ok = false ∧ t = s ∨
      s.client.workerCapabilities &&& capabilityTranslation = 0 ∧ ok = !enabled ∧
        t = { s with client := if enabled then s.client
                               else withSettings s.client enabled (.ofStr 16 source.val) (.ofStr 16 target.val) mode } ∨
      ∃ u, Sends s (.translateCtrl { sessionId := s.client.sessionId, enabled := if enabled then 1 else 0,
                                     sourceLang := .ofStr 16 source.val, targetLang := .ofStr 16 target.val, mode }) ok u ∧
        t = if ok then { u with client := withSettings u.client enabled (.ofStr 16 source.val) (.ofStr 16 target.val) mode }
            else u := by
  refine Ends.get_bind (Ends.ite (fun hgone => .inl ⟨?_, rfl, rfl⟩) fun _ => Ends.ite (fun hnone => .inr (.inl ?_)) fun _ => ?_)
  · simpa using hgone
  · cases enabled
    · exact ⟨hnone, rfl, rfl⟩
    · exact ⟨hnone, rfl, rfl⟩
  · obtain ⟨payload, hencodes, hlen⟩ := exists_encode_translateCtrl
      { sessionId := s.client.sessionId, enabled := if enabled then 1 else 0, sourceLang := .ofStr 16 source.val,
        targetLang := .ofStr 16 target.val, mode }
    refine (ends_sendFrame hencodes (hlen.trans (by decide)) s).bind fun ok u hu => Ends.ite (fun hok => ?_) fun hok => ?_
    · subst hok
      exact .inr (.inr ⟨u, hu, rfl⟩)
    · rw [Bool.not_eq_true] at hok
      subst hok
      exact .inr (.inr ⟨u, hu, rfl⟩)

theorem ends_sendAudio (chunk : AudioChunk) (s : Conn) : Ends (sendAudio chunk) s fun ok t =>
    (s.client.connected = false ∨ s.client.sessionActive = false) ∧ ok = false ∧ t = s ∨ ∃ p, Sends s (.audioPcm p) ok t := by
  refine Ends.get_bind (Ends.ite (fun hidle => .inl ⟨?_, rfl, rfl⟩) fun _ => ?_)
  · simpa using hidle
  · obtain ⟨payload, hencodes, hlen⟩ := exists_encode_audio s.client.sessionId chunk
    exact (ends_sendFrame hencodes (hlen.trans (by decide)) s).mono fun _ _ h => .inr ⟨_, h⟩

theorem ends_sendModelCtrl (action : UInt8) (modelId : CString) (s : Conn) :
    Ends (sendModelCtrl action (some modelId)) s fun ok t =>
      (s.client.connected = false ∨ 32 ≤ modelId.val.length) ∧ ok = false ∧ t = s ∨ ∃ p, Sends s (.modelCtrl p) ok t := by
  refine Ends.get_bind (Ends.ite (fun hgone => .inl ⟨.inl ?_, rfl, rfl⟩) fun _ =>
    Ends.ite (fun hlong => .inl ⟨.inr ?_, rfl, rfl⟩) fun _ => ?_)
  · simpa using hgone
  · simpa [tooLong] using hlong
  · obtain ⟨payload, hencodes, hlen⟩ := exists_encode_modelCtrl { sessionId := .zero _, action, modelId := .ofStr 32 modelId.val }
    exact (ends_sendFrame hencodes (hlen.trans (by decide)) s).mono fun _ _ h => .inr ⟨_, h⟩

/-! ## Receiving -/

/-- The client, what it draws from and what it has sent. -/
def ledger (s : Conn) : Client × List (Option SessionId) × Bytes := (s.client, s.random, written s.link.log)

/-- Of these, receiving changes only the transport. -/
abbrev Reads {α : Type} (m : ClientM α) : Prop := Steps ledger (fun x y => y = (dropTransport x.1, x.2)) m

theorem reads_onLink {α : Type} {f : Link → α × Link} (h : ∀ l, written (f l).2.log = written l.log) : Reads (onLink f) :=
  .modify_of_eq fun s => congrArg (fun bs => (s.client, s.random, bs)) (h s.link)

theorem written_of_receives {events : List Io} (h : ∀ io ∈ events, io.IsReceive) : written events = [] := by
  induction events with
  | nil => rfl
  | cons io events ih =>
    have hio := h io (List.mem_cons_self ..)
    cases io with
    | wrote records ok => exact hio.elim
    | received capacity result => exact ih fun io hio => h io (List.mem_cons_of_mem _ hio)

theorem reads_receiveAll (len : Nat) (deadlineUs : Int) : Reads (receiveAll len deadlineUs) := by
  refine reads_onLink fun l => ?_
  obtain ⟨events, h⟩ := receiveAll_spec len deadlineUs [] l (Nat.zero_le _)
  rw [h.log, written_append, written_of_receives h.receives, List.append_nil]

theorem reads_makeDeadline (durationUs : Int) : Reads (makeDeadline durationUs) := by
  refine reads_onLink fun l => ?_
  unfold Link.makeDeadline
  split <;> rfl

theorem reads_isBefore (deadlineUs : Int) : Reads (isBefore deadlineUs) := by
  refine reads_onLink fun l => ?_
  unfold Link.isBefore
  split <;> rfl

theorem reads_lost {α : Type} (result : α) : Reads (lost result) :=
  .bind (.modify fun _ => .single rfl) fun _ => .pure _

theorem reads_onFrame (header : FrameHeader) : Reads (onFrame header) := by
  unfold onFrame
  refine .get_bind fun s => Steps.ite (Steps.ite ?_ (.pure _)) ?_ s
  · refine .bind (reads_makeDeadline _) fun deadline => ?_
    cases deadline with
    | none => exact reads_lost _
    | some deadlineUs => exact .bind (reads_receiveAll _ _) fun ⟨code, _⟩ => .ite (reads_lost _) (.pure _)
  · refine .bind (.modify_of_eq fun _ => rfl) fun _ => .bind (reads_makeDeadline _) fun deadline => ?_
    cases deadline with
    | none => exact reads_lost _
    | some deadlineUs =>
      have hpayload (length : Nat) : Reads (receivePayload length deadlineUs) :=
        .ite (.bind (reads_receiveAll _ _) fun _ => .pure _) (.pure _)
      refine .bind (hpayload _) fun ⟨code, payload⟩ => .ite (reads_lost _) ?_
      split <;> exact .pure _

theorem reads_receiveRound (deadlineUs : Int) : Reads (receiveRound deadlineUs) := by
  refine .bind (reads_isBefore _) fun before => .ite (.bind (reads_receiveAll _ _) fun ⟨code, buffer⟩ => ?_) (.pure _)
  refine .ite (.pure _) (.ite (reads_lost _) ?_)
  split
  · exact reads_lost _
  · exact reads_onFrame _

/-- A call that receives changes nothing that the client knows, unless it drops the transport. -/
theorem reads_receiveFrame (timeoutUs : UInt32) : Reads (receiveFrame timeoutUs) := by
  refine .get_bind fun s => Steps.ite (.pure _) (.bind (reads_makeDeadline _) fun deadline => ?_) s
  cases deadline with
  | none => exact .pure _
  | some deadlineUs => exact .get_bind fun s => Steps.bind (.loop (reads_receiveRound _) _) (fun _ => .pure _) s

end Conn

end VlcWhisper.Plugin
