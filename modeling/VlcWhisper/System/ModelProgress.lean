import VlcWhisper.Plugin.ReceiveFrame
import VlcWhisper.System.Framing

/-!
# The end of a download on its way to the module (`vw_worker_client.c`)

The worker tells the end of a download once. The client reads its frames in order, in the receive loop, which hands
MODEL_PROGRESS to the module, and while it waits for the answer to START, where it passes over all frames but STARTED
and ERROR. Main result: `terminal_progress`. If no START meets the end of a download among the frames before its answer,
each call returns every end of a download that it reads, and that is the last frame it reads.
-/

namespace VlcWhisper.System

open VlcWhisper.Lib VlcWhisper.Protocol VlcWhisper.Plugin VlcWhisper.Worker

/-! ## The frames on their way -/

/-- What the worker has sent and the client has not received are these frames. -/
def Awaits (s : Conn) (frames : List WireFrame) : Prop :=
  s.link.pipe.inflight.flatten = frames.flatMap WireFrame.bytes

/-- MODEL_PROGRESS with the last stage of a download. -/
def endedDownload (f : WireFrame) : Option ModelProgress :=
  match f.type, decodePayload .modelProgress (some f.payload) with
  | .modelProgress, some (.modelProgress p) =>
    if validatePayload (.modelProgress p) && (p.stage = modelStageDone || p.stage = modelStageFailed) then some p else none
  | _, _ => none

/-- A frame that the wait for the answer to START passes over. -/
def passedOver (sessionId : SessionId) (f : WireFrame) : Bool :=
  match f.type with
  | .started => false
  | .error =>
    match decodePayload .error (some f.payload) with
    | some (.error err) => validatePayload (.error err) &&
        (Conn.isStaleTranslation err sessionId || err.errorCode = eSourceOpen && err.recoverable ≠ 0)
    | _ => false
  | _ => true

/-- The call waits for an answer to START. -/
def startsSession (c : Client) : Conn.ApiCall → Bool
  | .send (.startSession _ modelId sourceUrl) =>
    c.connected && !tooLong maxModelIdBytes modelId && !tooLong maxSourceUrlBytes sourceUrl
  | .send (.sendPosition _ _ _ flags) => c.connected && c.sessionActive && seekRestarts c flags
  | _ => false

/-! ## The law -/

/-- Every end of a download that the call reads is the last frame it reads, and is returned, unless the call loses the
transport. -/
def Returned (s : Conn) (call : Conn.ApiCall) : Prop :=
  ∀ frames, Awaits s frames → (s.apply call).client.connected = true → ∃ taken rest, frames = taken ++ rest ∧
    Awaits (s.apply call) rest ∧ ∀ f ∈ taken, ∀ p, endedDownload f = some p →
      (∃ timeoutUs, call = .receiveFrame timeoutUs ∧
        ((Conn.receiveFrame timeoutUs).run s).1 = (.ok, some (.modelProgress p))) ∧ ∃ earlier, taken = earlier ++ [f]

/-- No end of a download is among the frames that come before the answer to START. -/
def Undisturbed (s : Conn) (call : Conn.ApiCall) : Prop :=
  startsSession s.client call = true → ∀ sessionId, s.random.headD none = some sessionId →
    ∀ frames, Awaits s frames → ∀ f ∈ frames.takeWhile (passedOver sessionId), endedDownload f = none

/-! ## Receiving -/

theorem receiveTimeout_bytes {capacity : Nat} {l : Link} {res : Received} (h : (l.receiveTimeout capacity).1 = res)
    (hres : res ≠ .fatal) : l.pipe.inflight.flatten =
      receivedBytes res ++ (l.receiveTimeout capacity).2.pipe.inflight.flatten := by
  have hrecv : ipcReceive (l.pipe.recv capacity (l.arrivals.headD .timeout)).1 = res := h
  show _ = receivedBytes res ++ (l.pipe.recv capacity (l.arrivals.headD .timeout)).2.inflight.flatten
  unfold Pipe.recv at hrecv ⊢
  split at hrecv
  · rw [← hrecv]
    rfl
  · exact (hres hrecv.symm).elim
  · split at hrecv
    · rename_i hnone
      dsimp only at hrecv ⊢
      split at hrecv
      · exact (hres hrecv.symm).elim
      · rw [hnone, ← hrecv]
        rfl
    · rename_i record rest hnext
      rw [hnext]
      dsimp only at hrecv ⊢
      split at hrecv
      · exact (hres hrecv.symm).elim
      · split at hrecv
        · exact (hres hrecv.symm).elim
        · rw [← hrecv]
          rfl

theorem receiveAll_bytes (len : Nat) (deadlineUs : Int) (got : Bytes) (l : Link) :
    (receiveAll len deadlineUs got l).1 ≠ .fatal → ∃ more, (receiveAll len deadlineUs got l).2.1 = got ++ more ∧
      l.pipe.inflight.flatten = more ++ (receiveAll len deadlineUs got l).2.2.pipe.inflight.flatten := by
  fun_induction receiveAll len deadlineUs got l with
  | case1 => exact fun _ => ⟨[], (List.append_nil _).symm, rfl⟩
  | case2 => exact fun _ => ⟨[], (List.append_nil _).symm, rfl⟩
  | case3 => exact fun hfatal => (hfatal rfl).elim
  | case4 => exact fun _ => ⟨[], (List.append_nil _).symm, rfl⟩
  | case5 got l hmore nowUs clock hclock hnow hbefore res bs hres ih =>
    intro hok
    obtain ⟨more, hbuffer, hleft⟩ := ih hok
    refine ⟨bs ++ more, by rw [hbuffer, List.append_assoc], ?_⟩
    rw [List.append_assoc, ← hleft]
    exact receiveTimeout_bytes hres fun h => by cases h
  | case6 => exact fun hfatal => (hfatal rfl).elim
  | case7 got l hmore nowUs hnow hbefore hclock hclock' res hres =>
    exact fun _ => ⟨[], (List.append_nil _).symm, receiveTimeout_bytes hres fun h => by cases h⟩
  | case8 got l hmore nowUs hnow hbefore laterUs clock hclock hpassed hclock' res hres =>
    exact fun _ => ⟨[], (List.append_nil _).symm, receiveTimeout_bytes hres fun h => by cases h⟩
  | case9 got l hmore nowUs hnow hbefore laterUs clock hclock hlater hclock' res hres ih =>
    intro hok
    obtain ⟨more, hbuffer, hleft⟩ := ih hok
    refine ⟨more, hbuffer, ?_⟩
    rw [← hleft]
    exact receiveTimeout_bytes hres fun h => by cases h

theorem ends_receiveBytes (len : Nat) (deadlineUs : Int) (s : Conn) :
    Ends (Conn.receiveAll len deadlineUs) s fun r t => Conn.SameClient s t ∧
      (r.1 ≠ .fatal → s.link.pipe.inflight.flatten = r.2 ++ t.link.pipe.inflight.flatten) ∧
      (r.1 = .ok → r.2.length = len) ∧ (r.1 = .timeout → r.2 = []) := by
  obtain ⟨events, h⟩ := receiveAll_spec len deadlineUs [] s.link (Nat.zero_le _)
  refine ⟨⟨rfl, rfl⟩, fun hcode => ?_, h.ok, h.timeout⟩
  obtain ⟨more, hbuffer, hleft⟩ := receiveAll_bytes len deadlineUs [] s.link hcode
  show _ = (Plugin.receiveAll len deadlineUs [] s.link).2.1 ++ _
  rw [hbuffer]
  exact hleft

/-- The header of the next frame was received, not its payload. -/
def Within (s : Conn) (f : WireFrame) (rest : List WireFrame) : Prop :=
  s.link.pipe.inflight.flatten = f.payload ++ rest.flatMap WireFrame.bytes

variable {s : Conn} {f : WireFrame} {frames rest : List WireFrame}

theorem ends_receiveHeader (hs : Awaits s frames) (deadlineUs : Int) :
    Ends (Conn.receiveAll headerBytes deadlineUs) s fun r t => Conn.SameClient s t ∧
      (r.1 = .ok → ∃ f rest, frames = f :: rest ∧ r.2 = encodeHeader f.header ∧ Within t f rest) ∧
      (r.1 = .timeout → Awaits t frames) := by
  refine (ends_receiveBytes headerBytes deadlineUs s).mono ?_
  rintro ⟨code, buffer⟩ t ⟨hsame, hbytes, hok, htimeout⟩
  unfold Awaits at hs
  rw [hs] at hbytes
  refine ⟨hsame, fun hcode => ?_, fun hcode => ?_⟩
  · have hlen : buffer.length = headerBytes := hok hcode
    have hbytes : frames.flatMap WireFrame.bytes = buffer ++ t.link.pipe.inflight.flatten :=
      hbytes (fun h => by cases hcode.symm.trans h)
    cases frames with
    | nil =>
      have hempty := congrArg List.length hbytes
      rw [List.flatMap_nil, List.length_nil, List.length_append, hlen, headerBytes] at hempty
      omega
    | cons f rest =>
      rw [List.flatMap_cons, WireFrame.bytes, List.append_assoc] at hbytes
      obtain ⟨hheader, hleft⟩ := List.append_inj hbytes (by rw [length_encodeHeader, hlen])
      exact ⟨f, rest, rfl, hheader.symm, hleft.symm⟩
  · have hnone : buffer = [] := htimeout hcode
    have hbytes : frames.flatMap WireFrame.bytes = buffer ++ t.link.pipe.inflight.flatten :=
      hbytes (fun h => by cases hcode.symm.trans h)
    rw [hnone, List.nil_append] at hbytes
    exact hbytes.symm

theorem ends_receiveRest (hs : Within s f rest) (deadlineUs : Int) :
    Ends (Conn.receiveAll f.header.payloadLength.toNat deadlineUs) s fun r t => Conn.SameClient s t ∧
      (r.1 = .ok → r.2 = f.payload ∧ Awaits t rest) := by
  refine (ends_receiveBytes _ deadlineUs s).mono ?_
  rintro ⟨code, buffer⟩ t ⟨hsame, hbytes, hok, -⟩
  refine ⟨hsame, fun hcode => ?_⟩
  have hlen : buffer.length = f.header.payloadLength.toNat := hok hcode
  have hbytes : s.link.pipe.inflight.flatten = buffer ++ t.link.pipe.inflight.flatten :=
    hbytes (fun h => by cases hcode.symm.trans h)
  unfold Within at hs
  rw [hs] at hbytes
  obtain ⟨hpayload, hleft⟩ := List.append_inj hbytes (by rw [hlen, f.payloadLength_header])
  exact ⟨hpayload.symm, hleft.symm⟩

theorem Within.awaits (hs : Within s f rest) (hempty : ¬ 0 < f.header.payloadLength.toNat) :
    f.payload = [] ∧ Awaits s rest := by
  have hnil : f.payload = [] := by
    rw [f.payloadLength_header] at hempty
    exact List.length_eq_zero_iff.mp (by omega)
  unfold Within at hs
  rw [hnil, List.nil_append] at hs
  exact ⟨hnil, hs⟩

theorem disconnected_lost {α : Type} (result : α) (s : Conn) :
    Ends (Conn.lost result) s fun a t => a = result ∧ t.client.connected = false := by
  refine (Conn.ends_lost result s).mono fun a t ⟨ha, ht⟩ => ⟨ha, congrArg Prod.fst ht⟩

/-- What has come of the worker's frames, and the number of the last one. -/
def inbound (s : Conn) : Pipe × Option UInt64 := (s.link.pipe, s.lastWorkerSequence)

theorem inbound_onLink {α : Type} {f : Link → α × Link} (h : ∀ l, (f l).2.pipe = l.pipe) : Keeps inbound (Conn.onLink f) :=
  fun s => .of_eq (congrArg (fun p => (p, s.lastWorkerSequence)) (h s.link))

theorem inbound_makeDeadline (durationUs : Int) : Keeps inbound (Conn.makeDeadline durationUs) := by
  refine inbound_onLink fun l => ?_
  unfold Link.makeDeadline
  split <;> rfl

theorem inbound_isBefore (deadlineUs : Int) : Keeps inbound (Conn.isBefore deadlineUs) := by
  refine inbound_onLink fun l => ?_
  unfold Link.isBefore
  split <;> rfl

theorem Awaits.of_inbound {t : Conn} (hs : Awaits s frames) (h : inbound t = inbound s) : Awaits t frames := by
  have hpipe : t.link.pipe = s.link.pipe := congrArg Prod.fst h
  unfold Awaits
  rw [hpipe]
  exact hs

theorem Within.of_inbound {t : Conn} (hs : Within s f rest) (h : inbound t = inbound s) : Within t f rest := by
  have hpipe : t.link.pipe = s.link.pipe := congrArg Prod.fst h
  unfold Within
  rw [hpipe]
  exact hs

/-! ## The receive loop -/

/-- A frame that the receive loop read is skipped, or it is delivered. -/
structure Taken (last : Option UInt64) (t : Conn) (f : WireFrame) (rest : List WireFrame)
    (r : Option (RecvCode × Option Payload)) : Prop where
  awaits : Awaits t rest
  lastSequence : t.lastWorkerSequence = Conn.lastAfter last f
  given : r = (Conn.given last f).map fun p => (.ok, some p)

theorem takes_onFrame (hs : Within s f rest) : Ends (Conn.onFrame f.header) s fun r t =>
    t.client.connected = false ∧ r = some (.fatal, none) ∨ Taken s.lastWorkerSequence t f rest r := by
  have hlost (t : Conn) : Ends (Conn.lost (some (RecvCode.fatal, (none : Option Payload)))) t fun r u =>
      u.client.connected = false ∧ r = some (.fatal, none) ∨ Taken s.lastWorkerSequence u f rest r :=
    (disconnected_lost _ t).mono fun _ _ ⟨hr, hu⟩ => .inl ⟨hu, hr⟩
  have hseq : f.header.sequence = f.sequence := rfl
  unfold Conn.onFrame
  refine Ends.get_bind ?_
  rw [hseq]
  by_cases hstale : isStale s.lastWorkerSequence f.sequence = true
  · have hgiven : Conn.given s.lastWorkerSequence f = none := by rw [Conn.given, if_pos hstale]
    have hlast : Conn.lastAfter s.lastWorkerSequence f = s.lastWorkerSequence := by rw [Conn.lastAfter, if_pos hstale]
    rw [if_pos hstale]
    by_cases hpos : 0 < f.header.payloadLength.toNat
    · rw [if_pos hpos]
      refine ((inbound_makeDeadline 3000000).ends s).bind fun deadline t ht => ?_
      cases deadline with
      | none => exact hlost t
      | some deadlineUs =>
        refine (ends_receiveRest (hs.of_inbound ht) deadlineUs).bind ?_
        rintro ⟨code, payload⟩ u ⟨⟨-, hsame⟩, hok⟩
        dsimp only
        by_cases hcode : code = .ok
        · rw [if_neg (not_not.mpr hcode)]
          have hkept : t.lastWorkerSequence = s.lastWorkerSequence := congrArg Prod.snd ht
          refine .inr ⟨(hok hcode).2, (hsame.trans hkept).trans hlast.symm, ?_⟩
          rw [hgiven]
          rfl
        · rw [if_pos hcode]
          exact hlost u
    · rw [if_neg hpos]
      refine .inr ⟨(hs.awaits hpos).2, hlast.symm, ?_⟩
      rw [hgiven]
      rfl
  · rw [if_neg hstale]
    refine Ends.modify_bind ?_
    have hs : Within { s with lastWorkerSequence := some f.sequence } f rest := hs
    have hlast : Conn.lastAfter s.lastWorkerSequence f = some f.sequence := by rw [Conn.lastAfter, if_neg hstale]
    have hgiven : Conn.given s.lastWorkerSequence f =
        Conn.delivered f.type (if f.payload = [] then none else some f.payload) := by rw [Conn.given, if_neg hstale]
    refine ((inbound_makeDeadline 3000000).ends _).bind fun deadline t ht => ?_
    have hkept : t.lastWorkerSequence = some f.sequence := congrArg Prod.snd ht
    cases deadline with
    | none => exact hlost t
    | some deadlineUs =>
      have hpayload : Ends (Conn.receivePayload f.header.payloadLength.toNat deadlineUs) t fun r u =>
          u.lastWorkerSequence = t.lastWorkerSequence ∧
            (r.1 = .ok → r.2 = (if f.payload = [] then none else some f.payload) ∧ Awaits u rest) := by
        refine Ends.ite (fun hpos => ?_) fun hempty => ?_
        · refine (ends_receiveRest (hs.of_inbound ht) deadlineUs).bind ?_
          rintro ⟨code, payload⟩ u ⟨⟨-, hsame⟩, hok⟩
          refine ⟨hsame, fun hcode => ?_⟩
          obtain ⟨hpayload, hawaits⟩ := hok hcode
          rw [f.payloadLength_header] at hpos
          rw [if_neg (List.ne_nil_of_length_pos hpos)]
          exact ⟨congrArg some hpayload, hawaits⟩
        · obtain ⟨hnil, hawaits⟩ := (hs.of_inbound ht).awaits hempty
          rw [if_pos hnil]
          exact ⟨rfl, fun _ => ⟨rfl, hawaits⟩⟩
      refine hpayload.bind ?_
      rintro ⟨code, payload⟩ u ⟨hsame, hok⟩
      dsimp only
      by_cases hcode : code = .ok
      · obtain ⟨hpayload, hawaits⟩ := hok hcode
        have hpayload : payload = if f.payload = [] then none else some f.payload := hpayload
        have htype : (MessageType.ofCode f.header.type).bind (fun type => Conn.delivered type payload) =
            Conn.given s.lastWorkerSequence f := by
          have hcode : MessageType.ofCode f.header.type = some f.type := WireFrame.ofCode_code f.type
          rw [hcode, hgiven, hpayload]
          rfl
        rw [if_neg (not_not.mpr hcode), htype]
        have hafter : u.lastWorkerSequence = Conn.lastAfter s.lastWorkerSequence f :=
          (hsame.trans hkept).trans hlast.symm
        cases hres : Conn.given s.lastWorkerSequence f with
        | none => exact .inr ⟨hawaits, hafter, by rw [hres]; rfl⟩
        | some p => exact .inr ⟨hawaits, hafter, by rw [hres]; rfl⟩
      · rw [if_pos hcode]
        exact hlost u

/-- A round of the loop: the transport is lost, nothing came, or a frame was read. -/
theorem takes_receiveRound (hs : Awaits s frames) (deadlineUs : Int) : Ends (Conn.receiveRound deadlineUs) s fun r t =>
    t.client.connected = false ∧ r = some (.fatal, none) ∨
      r = some (.timeout, none) ∧ Awaits t frames ∧ t.lastWorkerSequence = s.lastWorkerSequence ∨
      ∃ f rest, frames = f :: rest ∧ Taken s.lastWorkerSequence t f rest r := by
  have hlost (t : Conn) : Ends (Conn.lost (some (RecvCode.fatal, (none : Option Payload)))) t fun r u =>
      u.client.connected = false ∧ r = some (.fatal, none) ∨
        r = some (.timeout, none) ∧ Awaits u frames ∧ u.lastWorkerSequence = s.lastWorkerSequence ∨
        ∃ f rest, frames = f :: rest ∧ Taken s.lastWorkerSequence u f rest r :=
    (disconnected_lost _ t).mono fun _ _ ⟨hr, hu⟩ => .inl ⟨hu, hr⟩
  unfold Conn.receiveRound
  refine ((inbound_isBefore deadlineUs).ends s).bind fun before t ht => Ends.ite (fun _ => ?_) fun _ => ?_
  · refine (ends_receiveHeader (hs.of_inbound ht) deadlineUs).bind ?_
    rintro ⟨code, buffer⟩ u ⟨⟨-, hsame⟩, hok, htimeout⟩
    have hkept : u.lastWorkerSequence = s.lastWorkerSequence := hsame.trans (congrArg Prod.snd ht)
    refine Ends.ite (fun hcode => .inr (.inl ⟨rfl, htimeout hcode, hkept⟩)) fun _ => Ends.ite (fun _ => hlost u) fun hcode => ?_
    obtain ⟨f, rest, hframes, hbuffer, hwithin⟩ := hok (not_not.mp hcode)
    have hbuffer : buffer = encodeHeader f.header := hbuffer
    rw [hbuffer, f.decode_header]
    refine (takes_onFrame hwithin).mono fun r v hv => ?_
    rw [hkept] at hv
    rcases hv with hv | hv
    · exact .inl hv
    · exact .inr (.inr ⟨f, rest, hframes, hv⟩)
  · exact .inr (.inl ⟨rfl, hs.of_inbound ht, congrArg Prod.snd ht⟩)

/-- What the loop came to: it lost the transport, or it skipped frames and delivers the one after them, or none. -/
def Delivers (last : Option UInt64) (frames : List WireFrame) (t : Conn) (r : RecvCode × Option Payload) : Prop :=
  t.client.connected = false ∨ ∃ taken rest, frames = taken ++ rest ∧ Awaits t rest ∧
    t.lastWorkerSequence = taken.foldl Conn.lastAfter last ∧
    (Conn.Skipped last taken ∨ ∃ skipped f p, taken = skipped ++ [f] ∧ Conn.Skipped last skipped ∧
      Conn.given (skipped.foldl Conn.lastAfter last) f = some p ∧ r = (.ok, some p))

theorem delivers_loop (deadlineUs : Int) (fuel : Nat) (hs : Awaits s frames) :
    Ends (loop fuel (Conn.receiveRound deadlineUs)) s fun r t =>
      Delivers s.lastWorkerSequence frames t (r.getD (.timeout, none)) := by
  induction fuel generalizing s frames with
  | zero => exact .inr ⟨[], frames, rfl, hs, rfl, .inl trivial⟩
  | succ fuel ih =>
    unfold loop
    refine (takes_receiveRound hs deadlineUs).bind ?_
    rintro r t (⟨hlost, rfl⟩ | ⟨rfl, hawaits, hlast⟩ | ⟨f, rest, rfl, htaken⟩)
    · exact .inl hlost
    · exact .inr ⟨[], frames, rfl, hawaits, hlast, .inl trivial⟩
    · have hr := htaken.given
      cases hgiven : Conn.given s.lastWorkerSequence f with
      | some p =>
        rw [hgiven] at hr
        subst hr
        refine .inr ⟨[f], rest, rfl, htaken.awaits, htaken.lastSequence, .inr ⟨[], f, p, rfl, trivial, hgiven, rfl⟩⟩
      | none =>
        rw [hgiven] at hr
        subst hr
        refine (ih htaken.awaits).mono fun r u hu => ?_
        rw [htaken.lastSequence] at hu
        rcases hu with hlost | ⟨taken, rest', hrest, hawaits, hlast, hdelivers⟩
        · exact .inl hlost
        · refine .inr ⟨f :: taken, rest', by rw [hrest]; rfl, hawaits, hlast, ?_⟩
          rcases hdelivers with hskipped | ⟨skipped, g, p, htaken, hskipped, hg, hr⟩
          · exact .inl ⟨hgiven, hskipped⟩
          · exact .inr ⟨f :: skipped, g, p, by rw [htaken]; rfl, ⟨hgiven, hskipped⟩, hg, hr⟩

theorem delivers_receiveFrame (hs : Awaits s frames) (timeoutUs : UInt32) : Ends (Conn.receiveFrame timeoutUs) s fun r t =>
    Delivers s.lastWorkerSequence frames t r := by
  refine Ends.get_bind (Ends.ite (fun hgone => ?_) fun _ => ?_)
  · rw [Bool.not_eq_true'] at hgone
    exact .inl hgone
  · refine ((inbound_makeDeadline _).ends s).bind fun deadline t ht => ?_
    have hlast : t.lastWorkerSequence = s.lastWorkerSequence := congrArg Prod.snd ht
    cases deadline with
    | none => exact .inr ⟨[], frames, rfl, hs.of_inbound ht, hlast, .inl trivial⟩
    | some deadlineUs =>
      refine Ends.get_bind ((delivers_loop deadlineUs _ (hs.of_inbound ht)).bind fun r u hu => ?_)
      rw [hlast] at hu
      exact hu

/-! ## The wait for the answer to START -/

/-- A frame that the wait read: it is passed over, or the wait ends with it. -/
structure Heard (s t : Conn) (f : WireFrame) (rest : List WireFrame) (r : Option Bool) : Prop where
  awaits : Awaits t rest
  lastSequence : t.lastWorkerSequence = s.lastWorkerSequence ∨ t.lastWorkerSequence = some f.sequence
  verdict : t.client.sessionId = s.client.sessionId ∧ r = none ∧ passedOver s.client.sessionId f = true ∨
    r ≠ none ∧ f.type ≠ .modelProgress

theorem hears_onStarted (start : Start) (deadlineUs : Int) (hs : Within s f rest) :
    Ends (Conn.onStarted start deadlineUs f.header) s fun _ t => t.client.connected = false ∨
      Awaits t rest ∧ t.lastWorkerSequence = some f.sequence := by
  have hlost (t : Conn) : Ends (Conn.lost false) t fun _ u => u.client.connected = false ∨
      Awaits u rest ∧ u.lastWorkerSequence = some f.sequence :=
    (disconnected_lost _ t).mono fun _ _ ⟨_, hu⟩ => .inl hu
  have haccept {t : Conn} (active : Bool) (ht : Awaits t rest ∧ t.lastWorkerSequence = some f.sequence) :
      Ends (Conn.accept start active) t fun _ u => u.client.connected = false ∨
        Awaits u rest ∧ u.lastWorkerSequence = some f.sequence := .inr ht
  refine Ends.get_bind (Ends.ite (fun _ => hlost s) fun _ => Ends.modify_bind ?_)
  have hs : Within { s with lastWorkerSequence := some f.header.sequence } f rest := hs
  refine Ends.ite (fun _ => hlost _) fun _ => Ends.ite (fun _ => ?_) fun hempty => ?_
  · refine (ends_receiveRest hs deadlineUs).bind ?_
    rintro ⟨code, payload⟩ t ⟨⟨-, hsame⟩, hok⟩
    refine Ends.ite (fun _ => hlost t) fun hcode => ?_
    obtain ⟨-, hawaits⟩ := hok (not_not.mp hcode)
    split
    · exact Ends.ite (fun _ => hlost t) fun _ => haccept _ ⟨hawaits, hsame⟩
    · exact hlost t
  · exact haccept false ⟨(hs.awaits hempty).2, rfl⟩

theorem hears_onError (deadlineUs : Int) (hs : Within s f rest) (htype : f.type = .error) :
    Ends (Conn.onError deadlineUs f.header) s fun r t => t.client.connected = false ∧ r ≠ none ∨ Heard s t f rest r := by
  have hother : f.type ≠ .modelProgress := by
    rw [htype]
    nofun
  have hlost (t : Conn) :
      Ends (Conn.lost (some false)) t fun r u => u.client.connected = false ∧ r ≠ none ∨ Heard s u f rest r :=
    (disconnected_lost _ t).mono fun _ _ ⟨hr, hu⟩ => .inl ⟨hu, by rw [hr]; nofun⟩
  refine Ends.get_bind (Ends.ite (fun _ => ?_) fun hempty => ?_)
  · refine (ends_receiveRest hs deadlineUs).bind ?_
    rintro ⟨code, payload⟩ t ⟨⟨hclient, hsame⟩, hok⟩
    refine Ends.ite (fun _ => hlost t) fun hcode => ?_
    obtain ⟨hpayload, hawaits⟩ := hok (not_not.mp hcode)
    have hpayload : payload = f.payload := hpayload
    rw [hpayload]
    have hpassed (hpasses : passedOver s.client.sessionId f = true) :
        Ends (pure none : ClientM (Option Bool)) t fun r u => u.client.connected = false ∧ r ≠ none ∨ Heard s u f rest r := by
      refine .inr ⟨hawaits, .inl hsame, .inl ⟨?_, rfl, hpasses⟩⟩
      show t.client.sessionId = _
      rw [hclient]
    split
    · rename_i err hdecode
      have hpasses : passedOver s.client.sessionId f = (validatePayload (.error err) &&
          (Conn.isStaleTranslation err s.client.sessionId || err.errorCode = eSourceOpen && err.recoverable ≠ 0)) := by
        unfold passedOver
        rw [htype]
        dsimp only
        rw [hdecode]
      refine Ends.ite (fun _ => hlost t) fun hvalid => Ends.ite (fun hstale => ?_) fun _ =>
        Ends.ite (fun hopen => ?_) fun _ => ?_
      · refine hpassed ?_
        rw [Bool.not_eq_true', Bool.not_eq_false] at hvalid
        rw [hpasses, hvalid, hstale]
        rfl
      · refine hpassed ?_
        rw [Bool.not_eq_true', Bool.not_eq_false] at hvalid
        rw [hpasses, hvalid, hopen, Bool.or_true]
        rfl
      · exact .inr ⟨hawaits, .inl hsame, .inr ⟨nofun, hother⟩⟩
    · exact hlost t
  · exact .inr ⟨(hs.awaits hempty).2, .inl rfl, .inr ⟨nofun, hother⟩⟩

theorem hears_handshakeRound (start : Start) (deadlineUs : Int) (hs : Awaits s frames) :
    Ends (Conn.handshakeRound start deadlineUs) s fun r t => t.client.connected = false ∧ r ≠ none ∨
      ∃ f rest, frames = f :: rest ∧ Heard s t f rest r := by
  have hlost (t : Conn) : Ends (Conn.lost (some false)) t fun r u => u.client.connected = false ∧ r ≠ none ∨
      ∃ f rest, frames = f :: rest ∧ Heard s u f rest r :=
    (disconnected_lost _ t).mono fun _ _ ⟨hr, hu⟩ => .inl ⟨hu, by rw [hr]; nofun⟩
  unfold Conn.handshakeRound
  have hbefore : Ends (Conn.isBefore deadlineUs) s fun _ t => Conn.SameClient s t ∧ inbound t = inbound s :=
    ⟨(Conn.ends_isBefore deadlineUs s).1, (inbound_isBefore deadlineUs).eq s⟩
  refine hbefore.bind fun before t ⟨⟨hclient, hlast⟩, hin⟩ => ?_
  refine Ends.ite (fun _ => ?_) fun _ => hlost t
  refine (ends_receiveHeader (hs.of_inbound hin) deadlineUs).bind ?_
  rintro ⟨code, buffer⟩ u ⟨⟨hclient', hlast'⟩, hok, -⟩
  refine Ends.ite (fun _ => hlost u) fun hcode => ?_
  obtain ⟨f, rest, hframes, hbuffer, hwithin⟩ := hok (not_not.mp hcode)
  have hbuffer : buffer = encodeHeader f.header := hbuffer
  have hlast : u.lastWorkerSequence = s.lastWorkerSequence := hlast'.trans hlast
  have hsession : u.client.sessionId = s.client.sessionId := by rw [hclient', hclient]
  have hcodes (type : MessageType) : f.header.type = type.code ↔ f.type = type := by
    refine ⟨fun h => ?_, fun h => congrArg MessageType.code h⟩
    have hof := WireFrame.ofCode_code f.type
    have hcode : f.type.code = type.code := h
    rw [hcode, WireFrame.ofCode_code] at hof
    exact (Option.some.inj hof).symm
  have hheard {v : Conn} {r : Option Bool} (hv : Heard u v f rest r) : ∃ f rest, frames = f :: rest ∧ Heard s v f rest r := by
    refine ⟨f, rest, hframes, hv.awaits, hv.lastSequence.imp (·.trans hlast) id, ?_⟩
    rw [← hsession]
    exact hv.verdict
  rw [hbuffer, f.decode_header]
  refine Ends.ite (fun hstarted => ?_) fun hstarted => Ends.ite (fun herror => ?_) fun herror => ?_
  · rw [map_eq_pure_bind]
    refine (hears_onStarted start deadlineUs hwithin).bind fun answer v hv => ?_
    rcases hv with hgone | ⟨hawaits, hseq⟩
    · exact .inl ⟨hgone, nofun⟩
    · refine .inr (hheard ⟨hawaits, .inr hseq, .inr ⟨nofun, ?_⟩⟩)
      rw [(hcodes _).mp hstarted]
      nofun
  · refine (hears_onError deadlineUs hwithin ((hcodes _).mp herror)).mono fun r v hv => ?_
    exact hv.imp id hheard
  · have hpasses : passedOver u.client.sessionId f = true := by
      unfold passedOver
      split
      · exact (hstarted ((hcodes _).mpr ‹_›)).elim
      · exact (herror ((hcodes _).mpr ‹_›)).elim
      · rfl
    refine Ends.ite (fun _ => ?_) fun hempty => ?_
    · refine (ends_receiveRest hwithin deadlineUs).bind ?_
      rintro ⟨code, payload⟩ v ⟨⟨hclient, hsame⟩, hok⟩
      refine Ends.ite (fun _ => hlost v) fun hcode => ?_
      refine .inr (hheard ⟨(hok (not_not.mp hcode)).2, .inl hsame, .inl ⟨?_, rfl, hpasses⟩⟩)
      show v.client.sessionId = _
      rw [hclient]
    · exact .inr (hheard ⟨(hwithin.awaits hempty).2, .inl rfl, .inl ⟨rfl, rfl, hpasses⟩⟩)

/-! ## The other calls only write -/

/-- What a call that only writes leaves as it was. -/
structure Ahead where
  inbound : Pipe × Option UInt64
  random : List (Option SessionId)
  sessionId : SessionId

def ahead (s : Conn) : Ahead := ⟨inbound s, s.random, s.client.sessionId⟩

/-- The transport is dropped, and all else stays. -/
def Drops (x y : Ahead × Bool) : Prop := y = (x.1, false)

/-- The program reads nothing. -/
abbrev Writes {α : Type} (m : ClientM α) : Prop := Steps (fun s => (ahead s, s.client.connected)) Drops m

theorem Writes.ends {α : Type} {m : ClientM α} (h : Writes m) (s : Conn) :
    Ends m s fun _ t => ahead t = ahead s ∧ (s.client.connected = false → t.client.connected = false) := by
  have hstep (x y : Ahead × Bool) (hx : x.1 = ahead s ∧ (s.client.connected = false → x.2 = false)) (hxy : Drops x y) :
      y.1 = ahead s ∧ (s.client.connected = false → y.2 = false) := by
    unfold Drops at hxy
    rw [hxy]
    exact ⟨hx.1, fun _ => rfl⟩
  exact steps_invariant hstep (h s) ⟨rfl, id⟩

theorem writes_ipcSend (bs : Bytes) : Writes (Conn.ipcSend bs) := fun s => .of_eq (by rfl)

theorem writes_lost {α : Type} (result : α) : Writes (Conn.lost result) := by
  refine .bind (.modify fun s => .single ?_) fun _ => .pure _
  show (ahead { s with client := dropTransport s.client }, (dropTransport s.client).connected) = (ahead s, false)
  unfold dropTransport
  split
  · rfl
  · rename_i hconn
    rw [Bool.not_eq_true] at hconn
    rw [hconn]

theorem writes_nextHeader (type : MessageType) (payload : Bytes) : Writes (Conn.nextHeader type payload) :=
  .bind (.modify_of_eq fun _ => rfl) fun _ => .get_bind fun s => Steps.pure _ s

theorem writes_sendParts (header : FrameHeader) (payload : Bytes) : Writes (Conn.sendParts header payload) := by
  unfold Conn.sendParts
  exact .bind (writes_ipcSend _) fun _ =>
    .ite (.bind (writes_ipcSend _) fun _ => .ite (.pure _) (writes_lost _)) (writes_lost _)

theorem writes_sendFrame (p : Payload) (bufferSize : Nat) : Writes (Conn.sendFrame p bufferSize) := by
  unfold Conn.sendFrame
  split
  · exact .pure _
  · exact .bind (writes_nextHeader _ _) fun _ => writes_sendParts _ _

theorem writes_sendControlFrame (type : Control → Payload) (reason : UInt16) :
    Writes (Conn.sendControlFrame type reason) := by
  unfold Conn.sendControlFrame
  refine .get_bind fun s => Steps.ite (.pure _) ?_ s
  dsimp only
  split
  · exact .pure _
  · exact .bind (writes_nextHeader _ _) fun _ => .bind (writes_ipcSend _) fun _ => .bind (writes_ipcSend _) fun _ =>
      .ite (.pure _) (writes_lost _)

theorem writes_sendPositionFrame (currentPtsUs inputTimeUs : Int64) (playbackRate : Binary32) (flags : UInt32) :
    Writes (Conn.sendPositionFrame currentPtsUs inputTimeUs playbackRate flags) :=
  .get_bind fun s => writes_sendFrame _ _ s

theorem writes_sendTranslateCtrl (enabled : Bool) (sourceLang targetLang : Option CString) (mode : UInt8) :
    Writes (Conn.sendTranslateCtrl enabled sourceLang targetLang mode) := by
  unfold Conn.sendTranslateCtrl
  refine .get_bind fun s => Steps.ite (.pure _) (.ite ?_ ?_) s
  · exact .bind (.onlyIf (.modify_of_eq fun _ => rfl)) fun _ => .pure _
  · exact .bind (writes_sendFrame _ _) fun _ => .ite (.bind (.modify_of_eq fun _ => rfl) fun _ => .pure _) (.pure _)

theorem writes_resendTranslateCtrl (c : Client) : Writes (Conn.resendTranslateCtrl c) :=
  .get_bind fun s => Steps.ite (writes_sendTranslateCtrl _ _ _ _) (.pure _) s

theorem writes_discard {α : Type} {m : ClientM α} (h : Writes m) : Writes (Conn.discard m) := .bind h fun _ => .pure _

/-! ## Frames read by a call -/

/-- The call lost the transport, or it read some of the frames, those of type MODEL_PROGRESS only where it may. -/
def Reads (s : Conn) (frames : List WireFrame) (may : WireFrame → Prop) (t : Conn) : Prop :=
  t.client.connected = false ∨ ∃ taken rest, frames = taken ++ rest ∧ Awaits t rest ∧
    (t.lastWorkerSequence = s.lastWorkerSequence ∨ ∃ f ∈ taken, t.lastWorkerSequence = some f.sequence) ∧
    ∀ f ∈ taken, f.type = .modelProgress → may f

variable {may : WireFrame → Prop}

theorem Reads.mono {t : Conn} {may' : WireFrame → Prop} (h : Reads s frames may t) (hmay : ∀ f, may f → may' f) :
    Reads s frames may' t :=
  h.imp id fun ⟨taken, rest, hframes, hawaits, hlast, hall⟩ =>
    ⟨taken, rest, hframes, hawaits, hlast, fun f hf htype => hmay f (hall f hf htype)⟩

theorem Reads.nothing {t : Conn} (hs : Awaits s frames) (h : inbound t = inbound s) : Reads s frames may t :=
  .inr ⟨[], frames, rfl, hs.of_inbound h, .inl (congrArg Prod.snd h), List.forall_mem_nil _⟩

theorem Reads.before {t u : Conn} (h : inbound t = inbound s) (hu : Reads t frames may u) : Reads s frames may u := by
  have hlast : t.lastWorkerSequence = s.lastWorkerSequence := congrArg Prod.snd h
  unfold Reads at hu ⊢
  rw [hlast] at hu
  exact hu

theorem Reads.after {α : Type} {m : ClientM α} {t : Conn} (ht : Reads s frames may t) (hm : Writes m) :
    Ends m t fun _ u => Reads s frames may u := by
  refine (hm.ends t).mono fun _ u ⟨hahead, hgone⟩ => ?_
  have hin : inbound u = inbound t := congrArg Ahead.inbound hahead
  have hlast : u.lastWorkerSequence = t.lastWorkerSequence := congrArg Prod.snd hin
  rcases ht with hlost | ⟨taken, rest, hframes, hawaits, hseq, hmay⟩
  · exact .inl (hgone hlost)
  · rw [← hlast] at hseq
    exact .inr ⟨taken, rest, hframes, hawaits.of_inbound hin, hseq, hmay⟩

theorem Writes.reads {α : Type} {m : ClientM α} (hm : Writes m) (hs : Awaits s frames) :
    Ends m s fun _ t => Reads s frames may t :=
  (Reads.nothing hs rfl).after hm

/-- The frames before the answer to START are passed over. -/
theorem reads_handshakeLoop (start : Start) (deadlineUs : Int) (fuel : Nat) (hs : Awaits s frames) :
    Ends (loop fuel (Conn.handshakeRound start deadlineUs)) s fun _ t =>
      Reads s frames (· ∈ frames.takeWhile (passedOver s.client.sessionId)) t := by
  induction fuel generalizing s frames with
  | zero => exact .nothing hs rfl
  | succ fuel ih =>
    unfold loop
    refine (hears_handshakeRound start deadlineUs hs).bind ?_
    rintro r t (⟨hgone, hr⟩ | ⟨f, rest, rfl, hheard⟩)
    · cases r with
      | some answer => exact .inl hgone
      | none => exact (hr rfl).elim
    · rcases hheard.verdict with ⟨hsession, rfl, hpasses⟩ | ⟨hr, hother⟩
      · refine (ih hheard.awaits).mono fun _ u hu => ?_
        rw [hsession] at hu
        rw [List.takeWhile_cons_of_pos hpasses]
        rcases hu with hgone | ⟨taken, rest', rfl, hawaits, hlast, hmay⟩
        · exact .inl hgone
        · refine .inr ⟨f :: taken, rest', rfl, hawaits, ?_, fun g hg hprogress => ?_⟩
          · rcases hlast with hlast | ⟨g, hg, hlast⟩
            · rw [hlast]
              exact hheard.lastSequence.imp id fun h => ⟨f, List.mem_cons_self .., h⟩
            · exact .inr ⟨g, List.mem_cons_of_mem _ hg, hlast⟩
          · rcases List.mem_cons.mp hg with rfl | hg
            · exact List.mem_cons_self ..
            · exact List.mem_cons_of_mem _ (hmay g hg hprogress)
      · cases r with
        | none => exact (hr rfl).elim
        | some answer =>
          refine .inr ⟨[f], rest, rfl, hheard.awaits, ?_, fun g hg hprogress => ?_⟩
          · exact hheard.lastSequence.imp id fun h => ⟨f, List.mem_singleton_self _, h⟩
          · rw [List.mem_singleton.mp hg] at hprogress
            exact (hother hprogress).elim

theorem reads_handshake (start : Start) (hs : Awaits s frames) : Ends (Conn.handshake start) s fun _ t =>
    Reads s frames (· ∈ frames.takeWhile (passedOver s.client.sessionId)) t := by
  have hdeadline : Ends (Conn.makeDeadline 5000000) s fun _ t => Conn.SameClient s t ∧ inbound t = inbound s :=
    ⟨(Conn.ends_makeDeadline 5000000 s).1, (inbound_makeDeadline 5000000).eq s⟩
  refine hdeadline.bind fun deadline t ⟨⟨hclient, _⟩, hin⟩ => ?_
  cases deadline with
  | none => exact .nothing hs hin
  | some deadlineUs =>
    refine Ends.get_bind ((reads_handshakeLoop start deadlineUs _ (hs.of_inbound hin)).bind fun _ u hu => ?_)
    rw [hclient] at hu
    exact hu.before hin

/-- A START that is not refused before it is sent. -/
def Starts (s : Conn) (modelId sourceUrl : Option CString) : Prop :=
  s.client.connected = true ∧ tooLong maxModelIdBytes modelId = false ∧ tooLong maxSourceUrlBytes sourceUrl = false

theorem reads_startSession (timelineOriginPtsUs : Int64) (modelId sourceUrl : Option CString) (hs : Awaits s frames) :
    Ends (Conn.startSession timelineOriginPtsUs modelId sourceUrl) s fun _ t =>
      Reads s frames (fun f => Starts s modelId sourceUrl ∧ ∃ id, s.random.headD none = some id ∧
        f ∈ frames.takeWhile (passedOver id)) t := by
  unfold Conn.startSession
  refine Ends.get_bind (Ends.ite (fun _ => .nothing hs rfl) fun hconn => Ends.ite (fun _ => .nothing hs rfl) fun hmodel => ?_)
  refine Ends.modify_bind ?_
  have hconn : s.client.connected = true := by simpa using hconn
  have hrandom : Ends Conn.getRandomBytes { s with client := { s.client with sessionActive := false, workerSourceActive := false } }
      fun id t => inbound t = inbound s ∧ s.random.headD none = id := ⟨rfl, rfl⟩
  refine hrandom.bind fun id t ⟨hin, hid⟩ => ?_
  cases id with
  | none => exact .nothing hs hin
  | some id =>
    refine Ends.modify_bind (Ends.ite (fun _ => .nothing hs hin) fun hurl => Ends.get_bind ?_)
    have hstarts : Starts s modelId sourceUrl := ⟨hconn, Bool.eq_false_iff.mpr hmodel, Bool.eq_false_iff.mpr hurl⟩
    refine ((writes_sendFrame _ _).ends _).bind fun sent u ⟨hahead, _⟩ => ?_
    have hin : inbound u = inbound s := (congrArg Ahead.inbound hahead).trans hin
    have hsession : u.client.sessionId = id := congrArg Ahead.sessionId hahead
    refine Ends.ite (fun _ => ?_) fun _ => .nothing hs hin
    refine (reads_handshake _ (hs.of_inbound hin)).mono fun _ v hv => (hv.before hin).mono fun f hf => ?_
    rw [hsession] at hf
    exact ⟨hstarts, id, hid, hf⟩

/-! ## Calls -/

/-- The frames on their way to the client, in the order of their numbers. -/
structure Stands (s : Conn) (frames : List WireFrame) : Prop where
  awaits : Awaits s frames
  increasing : Increasing frames
  fresh : ∀ n ∈ s.lastWorkerSequence, ∀ f ∈ frames, n < f.sequence

/-- The frame is among those before an answer to the call's START. -/
def MeetsStart (s : Conn) (call : Conn.ApiCall) (frames : List WireFrame) (f : WireFrame) : Prop :=
  startsSession s.client call = true ∧ ∃ id, s.random.headD none = some id ∧ f ∈ frames.takeWhile (passedOver id)

theorem reads_sendPosition (currentPtsUs inputTimeUs : Int64) (playbackRate : Binary32) (flags : UInt32)
    (hs : Awaits s frames) : Ends (Conn.sendPosition currentPtsUs inputTimeUs playbackRate flags) s fun _ t =>
      Reads s frames (MeetsStart s (.send (.sendPosition currentPtsUs inputTimeUs playbackRate flags)) frames) t := by
  unfold Conn.sendPosition
  refine Ends.get_bind (Ends.ite (fun _ => .nothing hs rfl) fun hactive => Ends.ite (fun hseek => ?_) fun _ =>
    (writes_sendPositionFrame _ _ _ _).reads hs)
  have hstarts : startsSession s.client (.send (.sendPosition currentPtsUs inputTimeUs playbackRate flags)) = true := by
    rw [startsSession, hseek]
    simpa using hactive
  refine ((writes_sendControlFrame _ _).ends s).bind fun stopped t ⟨hahead, _⟩ => ?_
  have hin : inbound t = inbound s := congrArg Ahead.inbound hahead
  have hrandom : t.random = s.random := congrArg Ahead.random hahead
  refine Ends.ite (fun _ => Ends.modify_bind ?_) fun _ => .nothing hs hin
  have hawaits : Awaits { t with client := { t.client with sessionActive := false, workerSourceActive := false } } frames :=
    hs.of_inbound hin
  refine (reads_startSession _ _ _ hawaits).bind fun started u hu => ?_
  have hu : Reads s frames (MeetsStart s (.send (.sendPosition currentPtsUs inputTimeUs playbackRate flags)) frames) u := by
    refine (hu.before hin).mono fun f ⟨_, id, hid, hf⟩ => ⟨hstarts, id, ?_, hf⟩
    rw [← hrandom]
    exact hid
  refine Ends.ite (fun _ => Ends.get_bind (Ends.ite (fun _ => hu.after (writes_lost _)) fun _ => ?_)) fun _ => hu
  exact (hu.after (writes_resendTranslateCtrl _)).bind fun sent v hv =>
    Ends.ite (fun _ => hv.after (writes_sendPositionFrame _ _ _ _)) fun _ => hv

theorem reads_discard {α : Type} {m : ClientM α} (h : Ends m s fun _ t => Reads s frames may t) :
    Ends (Conn.discard m) s fun _ t => Reads s frames may t := h

/-- The calls other than `receive_frame` read nothing but the frames up to an answer to START. -/
theorem reads_send (hs : Awaits s frames) (call : Call) :
    Reads s frames (MeetsStart s (.send call) frames) (s.apply (.send call)) := by
  have hwrites {m : ClientM Unit} (h : Writes m) : Reads s frames (MeetsStart s (.send call) frames) (m.run s).2 :=
    h.reads hs
  cases call with
  | startSession origin modelId sourceUrl =>
    refine Reads.mono (reads_discard (reads_startSession origin modelId sourceUrl hs)) fun f ⟨hstarts, hf⟩ => ⟨?_, hf⟩
    obtain ⟨hconn, hmodel, hurl⟩ := hstarts
    rw [startsSession, hconn, hmodel, hurl]
    rfl
  | sendPosition pts time rate flags => exact reads_discard (reads_sendPosition pts time rate flags hs)
  | sendAudio chunk =>
    exact hwrites (writes_discard (.get_bind fun t => Steps.ite (.pure _) (writes_sendFrame _ _) t))
  | sendTranslateCtrl enabled source target mode => exact hwrites (writes_discard (writes_sendTranslateCtrl _ _ _ _))
  | sendModelCtrl action modelId =>
    exact hwrites (writes_discard (.get_bind fun t =>
      Steps.ite (.pure _) (.ite (.pure _) (writes_sendFrame _ _)) t))
  | pauseSession =>
    exact hwrites (.get_bind fun t => Steps.ite (.pure _) (writes_discard (writes_sendControlFrame _ _)) t)
  | resumeSession =>
    exact hwrites (.get_bind fun t => Steps.ite (.pure _) (writes_discard (writes_sendControlFrame _ _)) t)
  | stopSession reason =>
    refine hwrites (.get_bind fun t => Steps.ite (.pure _) (.bind (writes_sendControlFrame _ _) fun _ => ?_) t)
    exact .ite (.modify_of_eq fun _ => rfl) (.pure _)

theorem reads_shutdown (hs : Awaits s frames) : Reads s frames may (s.apply .shutdown) := by
  have hwrites : Writes Conn.shutdown := .get_bind fun t => Steps.ite (.pure _)
    (.bind (writes_nextHeader _ _) fun _ => writes_discard (writes_ipcSend _)) t
  exact hwrites.reads hs

/-! ## Ends of downloads -/

theorem modelProgress_of_endedDownload {p : ModelProgress} (h : endedDownload f = some p) :
    f.type = .modelProgress ∧ Conn.delivered f.type (if f.payload = [] then none else some f.payload) =
      some (.modelProgress p) := by
  unfold endedDownload at h
  split at h
  · rename_i q htype hdecode
    split at h
    · rename_i hends
      obtain rfl := Option.some.inj h
      have hnonempty : f.payload ≠ [] := by
        intro hnil
        rw [hnil] at hdecode
        cases hdecode
      rw [Bool.and_eq_true] at hends
      refine ⟨htype, ?_⟩
      rw [htype, if_neg hnonempty]
      unfold Conn.delivered
      dsimp only
      rw [hdecode]
      dsimp only
      rw [if_pos hends.1]
    · cases h
  · cases h

theorem given_of_endedDownload {last : Option UInt64} {p : ModelProgress} (h : endedDownload f = some p)
    (hfresh : ∀ n ∈ last, n < f.sequence) : Conn.given last f = some (.modelProgress p) := by
  have hstale : isStale last f.sequence = false := by
    cases last with
    | none => rfl
    | some n =>
      have hlt := hfresh n rfl
      simpa [isStale] using hlt
  rw [Conn.given, hstale, if_neg Bool.false_ne_true]
  exact (modelProgress_of_endedDownload h).2

theorem foldl_lastAfter (taken : List WireFrame) (last : Option UInt64) :
    taken.foldl Conn.lastAfter last = last ∨ ∃ f ∈ taken, taken.foldl Conn.lastAfter last = some f.sequence := by
  induction taken generalizing last with
  | nil => exact .inl rfl
  | cons f taken ih =>
    rcases ih (Conn.lastAfter last f) with h | ⟨g, hg, h⟩
    · have hlast : Conn.lastAfter last f = last ∨ Conn.lastAfter last f = some f.sequence := by
        unfold Conn.lastAfter
        split
        · exact .inl rfl
        · exact .inr rfl
      rw [List.foldl_cons, h]
      exact hlast.imp id fun h => ⟨f, List.mem_cons_self .., h⟩
    · exact .inr ⟨g, List.mem_cons_of_mem _ hg, h⟩

theorem stands_rest {taken : List WireFrame} {t : Conn} (hs : Stands s (taken ++ rest)) (ht : Awaits t rest)
    (hlast : t.lastWorkerSequence = s.lastWorkerSequence ∨ ∃ f ∈ taken, t.lastWorkerSequence = some f.sequence) :
    Stands t rest := by
  obtain ⟨-, hincreasing, hacross⟩ := List.pairwise_append.mp hs.increasing
  refine ⟨ht, hincreasing, fun n hn g hg => ?_⟩
  rcases hlast with hlast | ⟨f, hf, hlast⟩
  · rw [hlast] at hn
    exact hs.fresh n hn g (List.mem_append_right _ hg)
  · rw [hlast] at hn
    obtain rfl := Option.some.inj hn
    exact hacross f hf g hg

theorem ended_of_skipped {skipped : List WireFrame} {last : Option UInt64} (hskipped : Conn.Skipped last skipped)
    (hincreasing : Increasing skipped) (hfresh : ∀ n ∈ last, ∀ f ∈ skipped, n < f.sequence) :
    ∀ f ∈ skipped, endedDownload f = none := by
  induction skipped generalizing last with
  | nil => exact List.forall_mem_nil _
  | cons f skipped ih =>
    obtain ⟨hgiven, hskipped⟩ := hskipped
    obtain ⟨hhead, htail⟩ := List.pairwise_cons.mp hincreasing
    have hnone : endedDownload f = none := by
      cases hended : endedDownload f with
      | none => rfl
      | some p =>
        rw [given_of_endedDownload hended fun n hn => hfresh n hn f (List.mem_cons_self ..)] at hgiven
        cases hgiven
    intro g hg
    rcases List.mem_cons.mp hg with rfl | hg
    · exact hnone
    · refine ih hskipped htail (fun n hn g hg => ?_) g hg
      unfold Conn.lastAfter at hn
      split at hn
      · exact hfresh n hn g (List.mem_cons_of_mem _ hg)
      · obtain rfl := Option.some.inj hn
        exact hhead g hg

/-! ## Runs -/

/-- The frames on their way are known by their bytes. -/
theorem Awaits.unique {others : List WireFrame} (h : Awaits s frames) (h' : Awaits s others) : frames = others := by
  unfold Awaits at h h'
  exact WireFrame.flatMap_bytes_inj (h.symm.trans h')

/-- Where the client may be: without its transport, or before frames in order. -/
def Ordered (s : Conn) : Prop := s.client.connected = false ∨ ∃ frames, Stands s frames

theorem disconnected_apply (hs : s.client.connected = false) (call : Conn.ApiCall) :
    (s.apply call).client.connected = false :=
  (congrArg Prod.fst (Conn.apply_of_disconnected hs call)).trans hs

theorem returned_of_reads {call : Conn.ApiCall} (hs : Stands s frames) (hreads : Reads s frames may (s.apply call))
    (hmay : ∀ f, may f → endedDownload f = none) : Ordered (s.apply call) ∧ Returned s call := by
  rcases hreads with hgone | ⟨taken, rest, rfl, hawaits, hlast, hall⟩
  · refine ⟨.inl hgone, fun frames _ hconn => ?_⟩
    rw [hgone] at hconn
    cases hconn
  · refine ⟨.inr ⟨rest, stands_rest hs hawaits hlast⟩, fun frames hframes _ => ?_⟩
    rw [hframes.unique hs.awaits]
    refine ⟨taken, rest, rfl, hawaits, fun f hf p hended => ?_⟩
    rw [hmay f (hall f hf (modelProgress_of_endedDownload hended).1)] at hended
    cases hended

/-- `receive_frame` returns the end of a download that it reads. -/
theorem returned_receiveFrame (timeoutUs : UInt32) (hs : Stands s frames) :
    Ordered (s.apply (.receiveFrame timeoutUs)) ∧ Returned s (.receiveFrame timeoutUs) := by
  have hdelivers : Delivers s.lastWorkerSequence frames (s.apply (.receiveFrame timeoutUs))
      ((Conn.receiveFrame timeoutUs).run s).1 := delivers_receiveFrame hs.awaits timeoutUs
  rcases hdelivers with hgone | ⟨taken, rest, rfl, hawaits, hlast, htaken⟩
  · refine ⟨.inl hgone, fun frames _ hconn => ?_⟩
    rw [hgone] at hconn
    cases hconn
  · have hseq := foldl_lastAfter taken s.lastWorkerSequence
    rw [← hlast] at hseq
    refine ⟨.inr ⟨rest, stands_rest hs hawaits hseq⟩, fun frames hframes _ => ?_⟩
    rw [hframes.unique hs.awaits]
    refine ⟨taken, rest, rfl, hawaits, fun f hf p hended => ?_⟩
    have hincreasing : Increasing taken := (List.pairwise_append.mp hs.increasing).1
    have hfresh (n : UInt64) (hn : n ∈ s.lastWorkerSequence) (g : WireFrame) (hg : g ∈ taken) : n < g.sequence :=
      hs.fresh n hn g (List.mem_append_left _ hg)
    rcases htaken with hskipped | ⟨skipped, g, q, rfl, hskipped, hgiven, hr⟩
    · rw [ended_of_skipped hskipped hincreasing hfresh f hf] at hended
      cases hended
    · obtain ⟨hincreasing, -, hacross⟩ := List.pairwise_append.mp hincreasing
      rcases List.mem_append.mp hf with hf | hf
      · have hnone := ended_of_skipped hskipped hincreasing
          (fun n hn g hg => hfresh n hn g (List.mem_append_left _ hg)) f hf
        rw [hnone] at hended
        cases hended
      · obtain rfl := List.mem_singleton.mp hf
        have hsame : Conn.given (skipped.foldl Conn.lastAfter s.lastWorkerSequence) f = some (.modelProgress p) := by
          refine given_of_endedDownload hended fun n hn => ?_
          rcases foldl_lastAfter skipped s.lastWorkerSequence with h | ⟨g, hg, h⟩
          · rw [h] at hn
            exact hfresh n hn f (List.mem_append_right _ (List.mem_singleton_self _))
          · rw [h] at hn
            obtain rfl := Option.some.inj hn
            exact hacross g hg f (List.mem_singleton_self _)
        rw [hsame] at hgiven
        obtain rfl := Option.some.inj hgiven
        exact ⟨⟨timeoutUs, rfl, hr⟩, skipped, rfl⟩

theorem returned_apply (call : Conn.ApiCall) (hs : Ordered s) (hcalm : Undisturbed s call) :
    Ordered (s.apply call) ∧ Returned s call := by
  rcases hs with hgone | ⟨frames, hs⟩
  · refine ⟨.inl (disconnected_apply hgone call), fun frames _ hconn => ?_⟩
    rw [disconnected_apply hgone call] at hconn
    cases hconn
  · cases call with
    | send call =>
      refine returned_of_reads hs (reads_send hs.awaits call) fun f ⟨hstarts, id, hid, hf⟩ => ?_
      exact hcalm hstarts id hid frames hs.awaits f hf
    | shutdown =>
      have hreads : Reads s frames (fun _ => False) (s.apply .shutdown) := reads_shutdown hs.awaits
      exact returned_of_reads hs hreads fun _ h => h.elim
    | receiveFrame timeoutUs => exact returned_receiveFrame timeoutUs hs

/-- **The end of a download.** Whatever calls are made, and whenever the worker's frames arrive: if no end of a download
is among the frames before an answer to START, each end of a download that is read is returned by the call of
`receive_frame` that reads it, before any later frame is read. -/
theorem terminal_progress (hs : Stands s frames) (calls : List Conn.ApiCall)
    (hcalm : Along Conn.apply Undisturbed s calls) : Along Conn.apply Returned s calls :=
  have hordered : Ordered s := .inr ⟨frames, hs⟩
  have hstep (s : Conn) (call : Conn.ApiCall) (h : Ordered s) (hcall : Undisturbed s call) :
      Ordered (s.apply call) ∧ Returned s call := returned_apply call h hcall
  .of_invariant (fun s call h hcall => (hstep s call h hcall).1) (fun s call h hcall => (hstep s call h hcall).2)
    hordered hcalm

/-! ## A download that ends around START -/

/-- A download that is done: one byte of one. -/
def doneFrame (sequence : UInt64) : WireFrame where
  type := .modelProgress
  sequence := sequence
  payload := List.replicate 16 0 ++ [3, 100] ++ [1, 0, 0, 0, 0, 0, 0, 0] ++ [1, 0, 0, 0, 0, 0, 0, 0] ++ List.replicate 32 0
  fits := by decide

def startedFrame (sequence : UInt64) : WireFrame where
  type := .started
  sequence := sequence
  payload := List.replicate 17 0
  fits := by decide

/-- A client whose transport works, and two frames of its worker. -/
def atStart (first second : WireFrame) : Conn where
  client := Conn.newClient none
  lastWorkerSequence := some 1
  workerProtocolMinor := 6
  random := [some (.zero 16)]
  link :=
    { pipe := { inflight := [encodeHeader first.header, first.payload, encodeHeader second.header, second.payload]
                closed := false }
      arrivals := List.replicate 4 .record
      sends := []
      clock := List.replicate 12 0
      log := [] }

theorem stands_atStart {first second : WireFrame} (hfirst : 1 < first.sequence) (horder : first.sequence < second.sequence) :
    Stands (atStart first second) [first, second] where
  awaits := by simp [Awaits, atStart, WireFrame.bytes]
  increasing := by simpa [Increasing] using horder
  fresh := by
    intro n hn f hf
    obtain rfl := Option.some.inj hn
    rcases List.mem_pair.mp hf with rfl | rfl
    · exact hfirst
    · exact UInt64.lt_trans hfirst horder

/-- The answer to START comes before the end of the download. -/
theorem terminal_progress_after : Along Conn.apply Returned (atStart (startedFrame 2) (doneFrame 3))
    [.send (.startSession 0 none none), .receiveFrame 1000] := by
  have hs : Stands (atStart (startedFrame 2) (doneFrame 3)) [startedFrame 2, doneFrame 3] :=
    stands_atStart (by decide) (by decide)
  refine terminal_progress hs _ ⟨fun _ id _ frames hframes f hf => ?_, nofun, trivial⟩
  rw [hframes.unique hs.awaits] at hf
  cases hf

/-- The end of the download comes before the answer to START. -/
theorem not_terminal_progress : ¬ ∀ (s : Conn) (frames : List WireFrame) (calls : List Conn.ApiCall),
    Stands s frames → Along Conn.apply Returned s calls := by
  intro h
  have hs : Stands (atStart (doneFrame 2) (startedFrame 3)) [doneFrame 2, startedFrame 3] :=
    stands_atStart (by decide) (by decide)
  have hconn : ((atStart (doneFrame 2) (startedFrame 3)).apply (.send (.startSession 0 none none))).client.connected = true := by
    decide +kernel
  have hread : Awaits ((atStart (doneFrame 2) (startedFrame 3)).apply (.send (.startSession 0 none none))) [] := by
    unfold Awaits
    decide +kernel
  obtain ⟨hreturned, -⟩ := h _ _ [.send (.startSession 0 none none)] hs
  obtain ⟨taken, rest, hframes, hawaits, hall⟩ := hreturned _ hs.awaits hconn
  rw [hawaits.unique hread, List.append_nil] at hframes
  have hended : endedDownload (doneFrame 2) ≠ none := by decide +kernel
  obtain ⟨p, hp⟩ := Option.ne_none_iff_exists'.mp hended
  obtain ⟨⟨timeoutUs, hcall, -⟩, -⟩ := hall (doneFrame 2) (by rw [← hframes]; exact List.mem_cons_self ..) p hp
  cases hcall

end VlcWhisper.System
