import VlcWhisper.Plugin.WriteFailure

/-!
# Receiving frames without losing the framing

A call of `vw_worker_client_receive_frame` skips the frames that it does not deliver. Main results:

* `receiveFrame_aligned`: a call that keeps the transport has read whole frames only, skipped those that are stale or
  that it cannot deliver, and delivers the last one or none. Whatever ends within a frame is fatal, and final.
* `receiveFrame_returns`, `handshake_returns`: the loops that wait for frames end.
-/

namespace VlcWhisper.Plugin

open VlcWhisper.Lib VlcWhisper.Protocol

namespace Conn

/-! ## What is read of a frame -/

/-- What is delivered of a frame. -/
def given (last : Option UInt64) (f : WireFrame) : Option Payload :=
  if isStale last f.sequence then none else delivered f.type (if f.payload = [] then none else some f.payload)

/-- The sequence number to remember after a frame. -/
def lastAfter (last : Option UInt64) (f : WireFrame) : Option UInt64 :=
  if isStale last f.sequence then last else some f.sequence

/-- None of the frames is delivered. -/
def Skipped : Option UInt64 → List WireFrame → Prop
  | _, [] => True
  | last, f :: rest => given last f = none ∧ Skipped (lastAfter last f) rest

/-- What a call that keeps the transport has read, and what it returns for it. -/
def HasRead (last : Option UInt64) (bs : Bytes) : RecvCode × Option Payload → Prop
  | (.ok, some p) => ∃ skipped f, bs = (skipped ++ [f]).flatMap WireFrame.bytes ∧ Skipped last skipped ∧
      given (skipped.foldl lastAfter last) f = some p
  | (.timeout, none) => ∃ skipped, bs = skipped.flatMap WireFrame.bytes ∧ Skipped last skipped
  | _ => False

theorem exists_frame {header : FrameHeader} (hvalid : validateHeader header = true) {payload : Bytes}
    (hlen : payload.length = header.payloadLength.toNat) :
    ∃ f : WireFrame, encodeHeader header ++ payload = f.bytes ∧ f.sequence = header.sequence ∧
      MessageType.ofCode header.type = some f.type ∧ f.payload = payload := by
  obtain ⟨f, rfl, rfl⟩ := WireFrame.exists_of_validateHeader hvalid hlen
  exact ⟨f, rfl, rfl, WireFrame.ofCode_code f.type, rfl⟩

/-! ## One frame -/

/-- Between two states the client has only received. -/
structure Took (s t : Conn) (events : List Io) : Prop where
  log : t.link.log = s.link.log ++ events
  receives : ∀ io ∈ events, io.IsReceive

theorem Took.refl {s t : Conn} (h : t.link.log = s.link.log) : Took s t [] :=
  ⟨by rw [h, List.append_nil], List.forall_mem_nil _⟩

theorem Took.trans {s t u : Conn} {events later : List Io} (h : Took s t events) (h' : Took t u later) :
    Took s u (events ++ later) :=
  ⟨by rw [h'.log, h.log, List.append_assoc], fun io hio => (List.mem_append.mp hio).elim (h.receives io) (h'.receives io)⟩

/-- The client knows what it knew. -/
def SameClient (s t : Conn) : Prop := t.client = s.client ∧ t.lastWorkerSequence = s.lastWorkerSequence

theorem ends_receiveAll (len : Nat) (deadlineUs : Int) (s : Conn) :
    Ends (receiveAll len deadlineUs) s fun r t => SameClient s t ∧ ∃ events, Took s t events ∧ r.2 = consumed events ∧
      (r.1 ≠ .fatal → ∀ io ∈ events, io.breaks = false) ∧ (r.1 = .ok → r.2.length = len) ∧ (r.1 = .timeout → r.2 = []) := by
  obtain ⟨events, h⟩ := receiveAll_spec len deadlineUs [] s.link (Nat.zero_le _)
  exact ⟨⟨rfl, rfl⟩, events, ⟨h.log, h.receives⟩, h.buffer, h.unbroken, h.ok, h.timeout⟩

theorem ends_makeDeadline (durationUs : Int) (s : Conn) :
    Ends (makeDeadline durationUs) s fun r t => SameClient s t ∧ Took s t [] ∧ r = (s.link.makeDeadline durationUs).1 := by
  refine ⟨⟨rfl, rfl⟩, Took.refl ?_, rfl⟩
  show (s.link.makeDeadline durationUs).2.log = _
  unfold Link.makeDeadline
  split <;> rfl

theorem ends_isBefore (deadlineUs : Int) (s : Conn) :
    Ends (isBefore deadlineUs) s fun _ t => SameClient s t ∧ Took s t [] := by
  refine ⟨⟨rfl, rfl⟩, Took.refl ?_⟩
  show (s.link.isBefore deadlineUs).2.log = _
  unfold Link.isBefore
  split <;> rfl

/-- What a round has come to, given what it has read. -/
def RoundEnds (last : Option UInt64) (events : List Io) (bs : Bytes) (t : Conn) : Option (RecvCode × Option Payload) → Prop
  | some (.fatal, none) => t.client.connected = false
  | r => t.client.connected = true ∧ (∀ io ∈ events, io.breaks = false) ∧
    match r with
    | none => ∃ f : WireFrame, bs = f.bytes ∧ given last f = none ∧ t.lastWorkerSequence = lastAfter last f
    | some (.ok, some p) => ∃ f : WireFrame, bs = f.bytes ∧ given last f = some p
    | some (.timeout, none) => bs = []
    | _ => False

theorem ends_lost_round {s t : Conn} {events : List Io} (h : Took s t events) (last : Option UInt64) (bs : Bytes) :
    Ends (lost (some (RecvCode.fatal, (none : Option Payload)))) t fun r u =>
      ∃ events, Took s u events ∧ RoundEnds last events (bs ++ consumed events) u r := by
  refine (ends_lost _ t).mono ?_
  rintro _ u ⟨rfl, hu⟩
  have hlog : u.link.log = t.link.log := congrArg Prod.snd hu
  have hconn : u.client.connected = false := congrArg Prod.fst hu
  exact ⟨events, ⟨hlog.trans h.log, h.receives⟩, hconn⟩

theorem ends_payload {s : Conn} {header : FrameHeader} {events : List Io} {payload : Bytes}
    (hvalid : validateHeader header = true) (hpayload : payload = consumed events)
    (hlen : payload.length = header.payloadLength.toNat) :
    ∃ f : WireFrame, encodeHeader header ++ consumed events = f.bytes ∧
      lastAfter s.lastWorkerSequence f =
        (if isStale s.lastWorkerSequence header.sequence then s.lastWorkerSequence else some header.sequence) ∧
      given s.lastWorkerSequence f =
        if isStale s.lastWorkerSequence header.sequence then none
        else (MessageType.ofCode header.type).bind fun type => delivered type (if payload = [] then none else some payload) := by
  obtain ⟨f, hbytes, hseq, htype, hf⟩ := exists_frame hvalid hlen
  refine ⟨f, by rw [← hpayload, hbytes], ?_, ?_⟩
  · rw [lastAfter, hseq]
  · rw [given, hseq, htype, hf]
    rfl

theorem ends_receivePayload (length : Nat) (deadlineUs : Int) (s : Conn) :
    Ends (receivePayload length deadlineUs) s fun r t => SameClient s t ∧ ∃ events, Took s t events ∧
      (r.1 = .ok → ∃ payload, payload = consumed events ∧ (∀ io ∈ events, io.breaks = false) ∧
        payload.length = length ∧ r.2 = if payload = [] then none else some payload) := by
  unfold receivePayload
  by_cases hpos : 0 < length
  · rw [if_pos hpos]
    refine Ends.bind (ends_receiveAll _ _ s) ?_
    rintro ⟨code, payload⟩ t ⟨hsame, events, htook, hpayload, hunbroken, hok, -⟩
    refine ⟨hsame, events, htook, fun hcode => ⟨payload, hpayload, ?_, hok hcode, ?_⟩⟩
    · exact hunbroken (by rw [show code = .ok from hcode]; nofun)
    · have hlen : payload.length = length := hok hcode
      rw [if_neg (List.ne_nil_of_length_pos (by omega))]
      rfl
  · rw [if_neg hpos]
    refine ⟨⟨rfl, rfl⟩, [], .refl rfl, fun _ => ⟨[], rfl, List.forall_mem_nil _, ?_, rfl⟩⟩
    rw [List.length_nil]
    omega

theorem ends_onFrame {s : Conn} (hs : s.client.connected = true) {header : FrameHeader}
    (hvalid : validateHeader header = true) :
    Ends (onFrame header) s fun r t => ∃ events, Took s t events ∧
      RoundEnds s.lastWorkerSequence events (encodeHeader header ++ consumed events) t r := by
  unfold onFrame
  refine Ends.get_bind ?_
  by_cases hstale : isStale s.lastWorkerSequence header.sequence = true
  · rw [if_pos hstale]
    by_cases hpos : 0 < header.payloadLength.toNat
    · rw [if_pos hpos]
      refine Ends.bind (ends_makeDeadline _ s) ?_
      rintro deadline t ⟨⟨hclient, hlast⟩, htook, -⟩
      cases deadline with
      | none => exact ends_lost_round htook _ _
      | some deadlineUs =>
        refine Ends.bind (ends_receiveAll _ _ t) ?_
        rintro ⟨code, payload⟩ u ⟨⟨hclient', hlast'⟩, events, htook', hpayload, hunbroken, hok, -⟩
        dsimp only
        by_cases hcode : code = .ok
        · rw [if_neg (not_not.mpr hcode)]
          obtain ⟨f, hbytes, hafter, hgiven⟩ := ends_payload (s := s) hvalid hpayload (hok hcode)
          rw [if_pos hstale] at hafter hgiven
          have hconn : u.client.connected = true := by rw [hclient', hclient, hs]
          refine ⟨events, htook.trans htook', hconn, hunbroken (by rw [hcode]; nofun), f, hbytes, hgiven, ?_⟩
          exact (hlast'.trans hlast).trans hafter.symm
        · rw [if_pos hcode]
          exact ends_lost_round (htook.trans htook') _ _
    · rw [if_neg hpos]
      have hnone : (consumed []).length = header.payloadLength.toNat := by
        rw [consumed, List.length_nil]
        omega
      obtain ⟨f, hbytes, hafter, hgiven⟩ := ends_payload (s := s) hvalid rfl hnone
      rw [if_pos hstale] at hafter hgiven
      exact ⟨[], .refl rfl, hs, List.forall_mem_nil _, f, hbytes, hgiven, hafter.symm⟩
  · rw [if_neg hstale]
    refine Ends.modify_bind ?_
    refine Ends.bind (ends_makeDeadline _ _) ?_
    rintro deadline t ⟨⟨hclient, hlast⟩, htook, -⟩
    have htook : Took s t [] := ⟨htook.log, htook.receives⟩
    cases deadline with
    | none => exact ends_lost_round htook _ _
    | some deadlineUs =>
      refine Ends.bind (ends_receivePayload _ _ t) ?_
      rintro ⟨code, payload⟩ u ⟨⟨hclient', hlast'⟩, events, htook', hok⟩
      dsimp only
      by_cases hcode : code = .ok
      · rw [if_neg (not_not.mpr hcode)]
        obtain ⟨bs, hbs, hunbroken, hlen, rfl⟩ := hok hcode
        obtain ⟨f, hbytes, hafter, hgiven⟩ := ends_payload (s := s) hvalid hbs hlen
        rw [if_neg hstale] at hafter hgiven
        have hconn : u.client.connected = true := by rw [hclient', hclient, hs]
        cases hdelivered : (MessageType.ofCode header.type).bind fun type =>
            delivered type (if bs = [] then none else some bs) with
        | none =>
          refine ⟨events, htook.trans htook', hconn, hunbroken, f, hbytes, hgiven.trans hdelivered, ?_⟩
          exact (hlast'.trans hlast).trans hafter.symm
        | some p => exact ⟨events, htook.trans htook', hconn, hunbroken, f, hbytes, hgiven.trans hdelivered⟩
      · rw [if_pos hcode]
        exact ends_lost_round (htook.trans htook') _ _

theorem RoundEnds.prepend {last : Option UInt64} {before events : List Io} {bs : Bytes} {t : Conn}
    {r : Option (RecvCode × Option Payload)} (h : RoundEnds last events bs t r)
    (hbefore : ∀ io ∈ before, io.breaks = false) : RoundEnds last (before ++ events) bs t r := by
  unfold RoundEnds at h ⊢
  split at h
  · exact h
  · obtain ⟨hconn, hunbroken, hread⟩ := h
    exact ⟨hconn, fun io hio => (List.mem_append.mp hio).elim (hbefore io) (hunbroken io), hread⟩

theorem ends_receiveRound {s : Conn} (hs : s.client.connected = true) (deadlineUs : Int) :
    Ends (receiveRound deadlineUs) s fun r t => ∃ events, Took s t events ∧
      RoundEnds s.lastWorkerSequence events (consumed events) t r := by
  unfold receiveRound
  refine Ends.bind (ends_isBefore deadlineUs s) ?_
  rintro before t ⟨⟨hclient, hlast⟩, htook⟩
  rw [← hclient] at hs
  rw [← hlast]
  by_cases hbefore : before = true
  · rw [if_pos hbefore]
    refine Ends.bind (ends_receiveAll _ _ t) ?_
    rintro ⟨code, buffer⟩ u ⟨⟨hclient', hlast'⟩, events, htook', hbuffer, hunbroken, hok, htimeout⟩
    rw [← hclient'] at hs
    rw [← hlast']
    have htook : Took s u events := htook.trans htook'
    dsimp only at hbuffer hunbroken hok htimeout ⊢
    by_cases hclean : code = .timeout
    · rw [if_pos hclean]
      exact ⟨events, htook, hs, hunbroken (by rw [hclean]; nofun), hbuffer.symm.trans (htimeout hclean)⟩
    · rw [if_neg hclean]
      by_cases hcode : code = .ok
      · rw [if_neg (not_not.mpr hcode)]
        have hbroke := hunbroken (by rw [hcode]; nofun)
        cases hheader : decodeHeader buffer with
        | none => exact ends_lost_round htook _ []
        | some header =>
          obtain ⟨hbytes, hvalid⟩ := (decodeHeader_eq_some (hok hcode)).mp hheader
          refine (ends_onFrame hs hvalid).mono ?_
          rintro r v ⟨later, htook', hround⟩
          refine ⟨events ++ later, htook.trans htook', ?_⟩
          rw [consumed_append, ← hbuffer, hbytes]
          exact hround.prepend hbroke
      · rw [if_pos hcode]
        exact ends_lost_round htook _ []
  · rw [if_neg hbefore]
    exact ⟨[], htook, hs, List.forall_mem_nil _, rfl⟩

/-! ## The loop -/

/-- What a call has come to, given what it has read. -/
def CallEnds (last : Option UInt64) (events : List Io) (t : Conn) (r : RecvCode × Option Payload) : Prop :=
  t.client.connected = true ∧ (∀ io ∈ events, io.breaks = false) ∧ HasRead last (consumed events) r ∨
    t.client.connected = false ∧ r = (.fatal, none)

theorem CallEnds.skip {last : Option UInt64} {f : WireFrame} {before events : List Io} {t : Conn}
    {r : RecvCode × Option Payload} (h : CallEnds (lastAfter last f) events t r) (hgiven : given last f = none)
    (hbytes : consumed before = f.bytes) (hbefore : ∀ io ∈ before, io.breaks = false) :
    CallEnds last (before ++ events) t r := by
  rcases h with ⟨hconn, hunbroken, hread⟩ | h
  · refine .inl ⟨hconn, fun io hio => (List.mem_append.mp hio).elim (hbefore io) (hunbroken io), ?_⟩
    rw [consumed_append, hbytes]
    unfold HasRead at hread ⊢
    split at hread
    · obtain ⟨skipped, g, hbs, hskipped, hg⟩ := hread
      exact ⟨f :: skipped, g, by rw [hbs, List.cons_append, List.flatMap_cons], ⟨hgiven, hskipped⟩, hg⟩
    · obtain ⟨skipped, hbs, hskipped⟩ := hread
      exact ⟨f :: skipped, by rw [hbs, List.flatMap_cons], hgiven, hskipped⟩
    · exact hread.elim
  · exact .inr h

theorem ends_receiveLoop (deadlineUs : Int) (fuel : Nat) {s : Conn} (hs : s.client.connected = true) :
    Ends (loop fuel (receiveRound deadlineUs)) s fun r t => ∃ events, Took s t events ∧
      CallEnds s.lastWorkerSequence events t (r.getD (.timeout, none)) := by
  induction fuel generalizing s with
  | zero => exact ⟨[], .refl rfl, .inl ⟨hs, List.forall_mem_nil _, [], rfl, trivial⟩⟩
  | succ fuel ih =>
    unfold loop
    refine Ends.bind (ends_receiveRound hs deadlineUs) ?_
    rintro r t ⟨events, htook, hround⟩
    unfold RoundEnds at hround
    split at hround
    · exact ⟨events, htook, .inr ⟨hround, rfl⟩⟩
    · obtain ⟨hconn, hunbroken, hread⟩ := hround
      split at hread
      · obtain ⟨f, hbytes, hgiven, hlast⟩ := hread
        refine (ih hconn).mono ?_
        rintro r u ⟨later, htook', hcall⟩
        rw [hlast] at hcall
        exact ⟨events ++ later, htook.trans htook', hcall.skip hgiven hbytes hunbroken⟩
      · obtain ⟨f, hbytes, hgiven⟩ := hread
        exact ⟨events, htook, .inl ⟨hconn, hunbroken, [], f, by rw [hbytes]; exact (List.append_nil _).symm, trivial, hgiven⟩⟩
      · exact ⟨events, htook, .inl ⟨hconn, hunbroken, [], hread, trivial⟩⟩
      · exact hread.elim

/-- A call of the function: without a deadline nothing is begun. -/
theorem ends_receiveFrame (timeoutUs : UInt32) (s : Conn) :
    Ends (receiveFrame timeoutUs) s fun r t => ∃ events, Took s t events ∧
      (CallEnds s.lastWorkerSequence events t r ∨
        (s.link.makeDeadline timeoutUs.toNat).1 = none ∧ events = [] ∧ r = (.fatal, none)) := by
  unfold receiveFrame
  refine Ends.get_bind ?_
  rcases hs : s.client.connected with _ | _
  · rw [Bool.not_false, if_pos rfl]
    exact ⟨[], .refl rfl, .inl (.inr ⟨hs, rfl⟩)⟩
  · rw [Bool.not_true, if_neg Bool.false_ne_true]
    refine Ends.bind (ends_makeDeadline _ s) ?_
    rintro deadline t ⟨⟨hclient, hlast⟩, htook, hdeadline⟩
    cases deadline with
    | none => exact ⟨[], htook, .inr ⟨hdeadline.symm, rfl, rfl⟩⟩
    | some deadlineUs =>
      rw [← hclient] at hs
      refine Ends.get_bind ?_
      refine Ends.bind (ends_receiveLoop deadlineUs _ hs) ?_
      rintro r u ⟨events, htook', hcall⟩
      rw [hlast] at hcall
      exact ⟨events, htook.trans htook', .inl hcall⟩

/-- **Receiving keeps the framing.** Whatever arrives and when: a call that keeps the transport has only consumed whole
frames, no receive has failed, and it delivers the frame it stopped at after frames that are stale or that it does not
deliver; only for want of a deadline does it fail, and then it has read nothing. If what it has consumed ends within a
frame or in a header that is none, it is fatal. A call that loses the transport is fatal, and later calls make none on
it. -/
theorem receiveFrame_aligned (s : Conn) (timeoutUs : UInt32) :
    ∃ events res, res = (receiveFrame timeoutUs).run s ∧ res.2.link.log = s.link.log ++ events ∧
      (∀ io ∈ events, io.IsReceive) ∧
      (res.2.client.connected = true → (∀ io ∈ events, io.breaks = false) ∧
        (HasRead s.lastWorkerSequence (consumed events) res.1 ∨
          (s.link.makeDeadline timeoutUs.toNat).1 = none ∧ consumed events = [] ∧ res.1 = (.fatal, none))) ∧
      (∀ (whole : List WireFrame) (rest : Bytes), consumed events = whole.flatMap WireFrame.bytes ++ rest →
        WireFrame.Incomplete rest → res.2.client.connected = false) ∧
      (res.2.client.connected = false → res.1 = (.fatal, none) ∧
        ∀ calls, (run apply res.2 calls).transport = res.2.transport) := by
  obtain ⟨events, htook, hends⟩ := ends_receiveFrame timeoutUs s
  have hwhole {r : RecvCode × Option Payload} (h : HasRead s.lastWorkerSequence (consumed events) r) :
      ∃ frames : List WireFrame, consumed events = frames.flatMap WireFrame.bytes := by
    unfold HasRead at h
    split at h
    · obtain ⟨skipped, f, hbs, -⟩ := h
      exact ⟨_, hbs⟩
    · obtain ⟨skipped, hbs, -⟩ := h
      exact ⟨_, hbs⟩
    · exact h.elim
  refine ⟨events, _, rfl, htook.log, htook.receives, fun hconn => ?_, fun whole rest hrest hincomplete => ?_,
    fun hlost => ⟨?_, silent_after_drop hlost⟩⟩
  · rcases hends with (⟨-, hunbroken, hread⟩ | ⟨hlost, -⟩) | ⟨hdeadline, rfl, hr⟩
    · exact ⟨hunbroken, .inl hread⟩
    · rw [hconn] at hlost
      cases hlost
    · exact ⟨List.forall_mem_nil _, .inr ⟨hdeadline, rfl, hr⟩⟩
  · rcases hends with (⟨-, -, hread⟩ | ⟨hlost, -⟩) | ⟨-, rfl, -⟩
    · obtain ⟨frames, hframes⟩ := hwhole hread
      exact (WireFrame.ne_flatMap_of_incomplete hincomplete frames (hrest.symm.trans hframes)).elim
    · exact hlost
    · exact (WireFrame.ne_flatMap_of_incomplete hincomplete [] hrest.symm).elim
  · rcases hends with (⟨hconn, -⟩ | ⟨-, hr⟩) | ⟨-, -, hr⟩
    · rw [hconn] at hlost
      cases hlost
    · exact hr
    · exact hr

/-! ## The loops end -/

/-- The program only uses up readings of the clock. -/
abbrev Clocked {α : Type} (m : ClientM α) : Prop := Steps (fun s : Conn => s.link.clock.length) (· ≥ ·) m

variable {α β : Type}

theorem clocked_onLink {f : Link → α × Link} (h : ∀ l, (f l).2.clock.length ≤ l.clock.length) : Clocked (onLink f) :=
  fun s => .of_step (h s.link)

theorem Clocked.le {m : ClientM α} (h : Clocked m) (s : Conn) :
    (m.run s).2.link.clock.length ≤ s.link.clock.length := by
  have hsteps : Relation.ReflTransGen (· ≥ ·) s.link.clock.length (m.run s).2.link.clock.length := h s
  rwa [Relation.reflTransGen_eq_self] at hsteps

theorem clock_receiveAll (len : Nat) (deadlineUs : Int) (got : Bytes) (l : Link) :
    (Plugin.receiveAll len deadlineUs got l).2.2.clock.length ≤ l.clock.length := by
  have hsame (capacity : Nat) (l : Link) : (l.receiveTimeout capacity).2.clock = l.clock := rfl
  fun_induction Plugin.receiveAll len deadlineUs got l with
  | case1 => exact le_rfl
  | case2 => exact le_rfl
  | case3 got l hmore nowUs clock hclock => rw [hclock]; exact Nat.le_succ _
  | case4 got l hmore nowUs clock hclock => rw [hclock]; exact Nat.le_succ _
  | case5 got l hmore nowUs clock hclock hnow hbefore res bs hres ih =>
    rw [hsame] at ih
    rw [hclock]
    exact Nat.le_succ_of_le ih
  | case6 got l hmore nowUs clock hclock hnow hbefore res =>
    rw [hclock]
    exact Nat.le_succ _
  | case7 got l hmore nowUs hnow hbefore hclock => exact Nat.zero_le _
  | case8 got l hmore nowUs hnow hbefore laterUs clock hclock hpassed hclock' =>
    rw [hclock']
    exact Nat.le_add_right _ 2
  | case9 got l hmore nowUs hnow hbefore laterUs clock hclock hlater hclock' res hres ih =>
    rw [hclock']
    exact Nat.le_trans ih (Nat.le_add_right _ 2)

theorem clocked_receiveAll (len : Nat) (deadlineUs : Int) : Clocked (receiveAll len deadlineUs) :=
  clocked_onLink (clock_receiveAll len deadlineUs [])

theorem clocked_makeDeadline (durationUs : Int) : Clocked (makeDeadline durationUs) := by
  refine clocked_onLink fun l => ?_
  unfold Link.makeDeadline
  split
  · exact le_rfl
  · rename_i clock hclock
    rw [hclock]
    exact Nat.le_succ _

theorem clocked_lost (result : α) : Clocked (lost result) :=
  .bind (.modify_of_eq fun _ => rfl) fun _ => .pure _

theorem clocked_onFrame (header : FrameHeader) : Clocked (onFrame header) := by
  unfold onFrame
  refine .get_bind fun s => Steps.ite (Steps.ite ?_ (.pure _)) ?_ s
  · refine .bind (clocked_makeDeadline _) fun deadline => ?_
    cases deadline with
    | none => exact clocked_lost _
    | some deadlineUs => exact .bind (clocked_receiveAll _ _) fun ⟨code, _⟩ => .ite (clocked_lost _) (.pure _)
  · refine .bind (.modify_of_eq fun _ => rfl) fun _ => .bind (clocked_makeDeadline _) fun deadline => ?_
    cases deadline with
    | none => exact clocked_lost _
    | some deadlineUs =>
      have hpayload (length : Nat) : Clocked (receivePayload length deadlineUs) :=
        .ite (.bind (clocked_receiveAll _ _) fun _ => .pure _) (.pure _)
      refine .bind (hpayload _) fun ⟨code, payload⟩ => .ite (clocked_lost _) ?_
      split <;> exact .pure _

theorem clocked_onStarted (start : Start) (deadlineUs : Int) (header : FrameHeader) :
    Clocked (onStarted start deadlineUs header) := by
  have haccept (active : Bool) : Clocked (accept start active) := .bind (.modify_of_eq fun _ => rfl) fun _ => .pure _
  unfold onStarted
  refine .get_bind fun s => Steps.ite (clocked_lost _) ?_ s
  refine .bind (.modify_of_eq fun _ => rfl) fun _ => .ite (clocked_lost _) (.ite ?_ (haccept _))
  refine .bind (clocked_receiveAll _ _) fun ⟨code, payload⟩ => .ite (clocked_lost _) ?_
  split
  · exact .ite (clocked_lost _) (haccept _)
  · exact clocked_lost _

theorem clocked_onError (deadlineUs : Int) (header : FrameHeader) : Clocked (onError deadlineUs header) := by
  unfold onError
  refine .get_bind fun s => Steps.ite ?_ (.pure _) s
  refine .bind (clocked_receiveAll _ _) fun ⟨code, payload⟩ => .ite (clocked_lost _) ?_
  split
  · exact .ite (clocked_lost _) (.ite (.pure _) (.ite (.pure _) (.pure _)))
  · exact clocked_lost _

theorem loop_isBefore_isSome {round : Bool → ClientM (Option α)} (hround : Clocked (round true))
    (hstop : ∀ s, Ends (round false) s fun r _ => r ≠ none) (deadlineUs : Int) (s : Conn) :
    ((loop (s.link.clock.length + 1) (isBefore deadlineUs >>= round)).run s).1.isSome = true := by
  refine loop_isSome (fun s => s.link.clock.length) (fun s => ?_) (Nat.lt_succ_self _)
  refine Ends.bind (P := fun before (t : Conn) => before = true → t.link.clock.length < s.link.clock.length)
    (Q := fun r (t : Conn) => r = none → t.link.clock.length < s.link.clock.length) ?_ ?_
  · show (s.link.isBefore deadlineUs).1 = true → (s.link.isBefore deadlineUs).2.clock.length < _
    unfold Link.isBefore
    split
    · exact fun h => (Bool.false_ne_true h).elim
    · rename_i clock hclock
      rw [hclock]
      exact fun _ => Nat.lt_succ_self _
  · rintro before t ht
    cases before with
    | true => exact fun _ => Nat.lt_of_le_of_lt (hround.le t) (ht rfl)
    | false => exact fun hnone => (hstop t hnone).elim

/-- The receive loop of `vw_worker_client_receive_frame` ends with a result. -/
theorem receiveFrame_returns (deadlineUs : Int) (s : Conn) :
    ((loop (s.link.clock.length + 1) (receiveRound deadlineUs)).run s).1.isSome = true := by
  unfold receiveRound
  refine loop_isBefore_isSome ?_ ?_ deadlineUs s
  · refine .bind (clocked_receiveAll _ _) fun ⟨code, buffer⟩ => .ite (.pure _) (.ite (clocked_lost _) ?_)
    split
    · exact clocked_lost _
    · exact clocked_onFrame _
  · exact fun _ => nofun

/-- The loop of the START handshake ends with an answer. -/
theorem handshake_returns (start : Start) (deadlineUs : Int) (s : Conn) :
    ((loop (s.link.clock.length + 1) (handshakeRound start deadlineUs)).run s).1.isSome = true := by
  unfold handshakeRound
  refine loop_isBefore_isSome ?_ ?_ deadlineUs s
  · refine .bind (clocked_receiveAll _ _) fun ⟨code, buffer⟩ => .ite (clocked_lost _) ?_
    split
    · exact clocked_lost _
    · refine .ite ?_ (.ite (clocked_onError _ _) (.ite ?_ (.pure _)))
      · exact .bind (clocked_onStarted _ _ _) fun _ => .pure _
      · exact .bind (clocked_receiveAll _ _) fun ⟨code, _⟩ => .ite (clocked_lost _) (.pure _)
  · exact fun _ => nofun

end Conn

end VlcWhisper.Plugin
