import VlcWhisper.Protocol.Transport

/-!
# The client's end of the connection (`vw_ipc_transport.h`, `receive_all`)

What the client reads and writes, call by call. A `Link` holds the records under way to the client and everything the
environment will decide: what each receive meets, which records of each send fail, what the monotonic clock reads. It
keeps a log of the calls.

When no reading of the clock is left, every deadline has passed: this is how a run that waits in vain ends.
-/

namespace VlcWhisper.Plugin

open VlcWhisper.Lib VlcWhisper.Protocol

/-- A call on the transport: the records of a send, or the buffer of a receive, with the result. -/
inductive Io where
  | wrote (records : List Bytes) (ok : Bool)
  | received (capacity : Nat) (result : RecvRecord)

structure Link where
  pipe : Pipe
  arrivals : List Arrival
  sends : List (Nat → Bool)
  clock : List Int
  log : List Io

namespace Link

/-- `vw_ipc_receive_timeout`. -/
def receiveTimeout (capacity : Nat) (l : Link) : Received × Link :=
  let res := l.pipe.recv capacity (l.arrivals.headD .timeout)
  (ipcReceive res.1,
    { l with pipe := res.2, arrivals := l.arrivals.tail, log := l.log ++ [.received capacity res.1] })

/-- `vw_ipc_send`; a record fails only if the environment says so. -/
def send (bs : Bytes) (l : Link) : Bool × Link :=
  let res := ipcSend (l.sends.headD fun _ => false) 0 bs
  (res.1, { l with sends := l.sends.tail, log := l.log ++ [.wrote res.2 res.1] })

/-- `vw_platform_get_monotonic_time_us() < deadline_us`. -/
def isBefore (deadlineUs : Int) (l : Link) : Bool × Link :=
  match l.clock with
  | [] => (false, l)
  | nowUs :: clock => (nowUs < deadlineUs, { l with clock })

/-- `vw_worker_client_make_deadline`. -/
def makeDeadline (durationUs : Int) (l : Link) : Option Int × Link :=
  match l.clock with
  | [] => (none, l)
  | nowUs :: clock =>
    (if nowUs < 0 ∨ int64Max - nowUs < durationUs then none else some (nowUs + durationUs), { l with clock })

end Link

/-- `VW_IPC_RECV_OK`, `VW_IPC_RECV_TIMEOUT` and `VW_IPC_RECV_FATAL`. -/
inductive RecvCode where
  | ok
  | timeout
  | fatal
  deriving DecidableEq

/-- The deadline has passed: between two frames if nothing was read yet. -/
def expired (got : Bytes) : RecvCode := if got = [] then .timeout else .fatal

/-- `receive_all`, from what it has got so far: the code, the buffer and the link after it. -/
def receiveAll (len : Nat) (deadlineUs : Int) (got : Bytes) (l : Link) : RecvCode × Bytes × Link :=
  if len ≤ got.length then (.ok, got, l)
  else
    match hclock : l.clock with
    | [] => (expired got, got, l)
    | nowUs :: clock =>
      if nowUs < 0 then (.fatal, got, { l with clock })
      else if deadlineUs ≤ nowUs then (expired got, got, { l with clock })
      else
        let res := { l with clock }.receiveTimeout (len - got.length)
        match res.1 with
        | .bytes bs => receiveAll len deadlineUs (got ++ bs) res.2
        | .fatal => (.fatal, got, res.2)
        | .timeout =>
          match clock with
          | [] => (expired got, got, res.2)
          | laterUs :: clock =>
            if deadlineUs ≤ laterUs then (expired got, got, { res.2 with clock })
            else receiveAll len deadlineUs got { res.2 with clock }
termination_by l.clock.length
decreasing_by
  · rw [hclock]
    show clock.length < clock.length + 1
    omega
  · rw [hclock]
    show clock.length < _ + 1 + 1
    omega

/-! ## What is read -/

/-- The bytes that receives delivered. -/
def consumed : List Io → Bytes
  | [] => []
  | .received _ (.bytes bs) :: rest => bs ++ consumed rest
  | _ :: rest => consumed rest

theorem consumed_append (l m : List Io) : consumed (l ++ m) = consumed l ++ consumed m := by
  induction l with
  | nil => rfl
  | cons io l ih =>
    rcases io with ⟨rs, ok⟩ | ⟨capacity, bs | _ | _ | _ | _⟩
    · exact ih
    · show bs ++ consumed (l ++ m) = bs ++ consumed l ++ consumed m
      rw [ih, List.append_assoc]
    · exact ih
    · exact ih
    · exact ih
    · exact ih

/-- The call only received. -/
def Io.IsReceive : Io → Prop
  | .wrote .. => False
  | .received .. => True

/-- The connection broke in the call, or a record was cut. -/
def Io.breaks : Io → Bool
  | .received _ .eof | .received _ .tooLong | .received _ .broken => true
  | _ => false

/-- The bytes of an answer of the transport. -/
def receivedBytes : Received → Bytes
  | .bytes bs => bs
  | .timeout | .fatal => []

theorem Link.receiveTimeout_spec {capacity : Nat} {l : Link} {res : Received}
    (h : (l.receiveTimeout capacity).1 = res) :
    ∃ events, (l.receiveTimeout capacity).2.log = l.log ++ events ∧
      (∀ io ∈ events, io.IsReceive ∧ (res ≠ .fatal → io.breaks = false)) ∧
      consumed events = receivedBytes res ∧ (receivedBytes res).length ≤ capacity := by
  obtain ⟨result, hresult⟩ : ∃ result, (l.pipe.recv capacity (l.arrivals.headD .timeout)).1 = result := ⟨_, rfl⟩
  have hres : ipcReceive result = res := by
    rw [← hresult]
    exact h
  refine ⟨[.received capacity result], ?_, ?_, ?_, ?_⟩
  · rw [← hresult]
    rfl
  · intro io hio
    rw [List.mem_singleton.mp hio, ← hres]
    refine ⟨trivial, fun h => ?_⟩
    cases result with
    | bytes bs => rfl
    | again => rfl
    | _ => exact (h rfl).elim
  · rw [← hres]
    cases result with
    | bytes bs => exact List.append_nil bs
    | _ => rfl
  · rw [← hres]
    cases result with
    | bytes bs => exact (Pipe.length_of_recv (Prod.ext hresult rfl)).2
    | _ => exact Nat.zero_le _

/-- What a call of `receive_all` does: it only receives, and what it receives is what its buffer gains. A buffer that
is complete has `len` bytes, and a time-out between frames has read nothing. If it does not fail, no receive did. -/
structure Reading (len : Nat) (got : Bytes) (l : Link) (res : RecvCode × Bytes × Link) (events : List Io) : Prop where
  log : res.2.2.log = l.log ++ events
  receives : ∀ io ∈ events, io.IsReceive
  unbroken : res.1 ≠ .fatal → ∀ io ∈ events, io.breaks = false
  buffer : res.2.1 = got ++ consumed events
  ok : res.1 = .ok → res.2.1.length = len
  timeout : res.1 = .timeout → res.2.1 = []

theorem expired_ne_ok (got : Bytes) : expired got ≠ .ok := by
  unfold expired
  split <;> exact nofun

theorem nil_of_expired {got : Bytes} (h : expired got = .timeout) : got = [] := by
  unfold expired at h
  split at h
  · assumption
  · cases h

theorem reading_stop {len : Nat} {got : Bytes} {l m : Link} {code : RecvCode} (res : Received) {events : List Io}
    (hlog : m.log = l.log ++ events) (hevents : ∀ io ∈ events, io.IsReceive ∧ (res ≠ .fatal → io.breaks = false))
    (hnothing : consumed events = []) (hfatal : code ≠ .fatal → res ≠ .fatal) (hok : code ≠ .ok)
    (htimeout : code = .timeout → got = []) : Reading len got l (code, got, m) events where
  log := hlog
  receives := fun io hio => (hevents io hio).1
  unbroken := fun h io hio => (hevents io hio).2 (hfatal h)
  buffer := by rw [hnothing, List.append_nil]
  ok := fun h => (hok h).elim
  timeout := htimeout

theorem reading_more {len : Nat} {got more : Bytes} {l m : Link} {answer : Received} {res : RecvCode × Bytes × Link}
    {events later : List Io} (hlog : m.log = l.log ++ events)
    (hevents : ∀ io ∈ events, io.IsReceive ∧ (answer ≠ .fatal → io.breaks = false)) (hanswer : answer ≠ .fatal)
    (hmore : more = got ++ consumed events) (h : Reading len more m res later) :
    Reading len got l res (events ++ later) where
  log := by rw [h.log, hlog, List.append_assoc]
  receives := fun io hio => (List.mem_append.mp hio).elim (fun hio => (hevents io hio).1) (h.receives io)
  unbroken := fun hres io hio =>
    (List.mem_append.mp hio).elim (fun hio => (hevents io hio).2 hanswer) (h.unbroken hres io)
  buffer := by rw [h.buffer, hmore, consumed_append, List.append_assoc]
  ok := h.ok
  timeout := h.timeout

theorem receiveAll_spec (len : Nat) (deadlineUs : Int) (got : Bytes) (l : Link) (hgot : got.length ≤ len) :
    ∃ events, Reading len got l (receiveAll len deadlineUs got l) events := by
  fun_induction receiveAll len deadlineUs got l with
  | case1 got l hlen =>
    exact ⟨[], (List.append_nil _).symm, List.forall_mem_nil _, fun _ => List.forall_mem_nil _, (List.append_nil _).symm,
      fun _ => Nat.le_antisymm hgot hlen, nofun⟩
  | case2 got l hmore hclock =>
    exact ⟨[], reading_stop .timeout (List.append_nil _).symm (List.forall_mem_nil _) rfl nofun (expired_ne_ok got)
      nil_of_expired⟩
  | case3 got l hmore nowUs clock hclock hfailed =>
    exact ⟨[], reading_stop .timeout (List.append_nil _).symm (List.forall_mem_nil _) rfl nofun nofun nofun⟩
  | case4 got l hmore nowUs clock hclock hnow hpassed =>
    exact ⟨[], reading_stop .timeout (List.append_nil _).symm (List.forall_mem_nil _) rfl nofun (expired_ne_ok got)
      nil_of_expired⟩
  | case5 got l hmore nowUs clock hclock hnow hbefore res bs hres ih =>
    obtain ⟨events, hlog, hevents, hbytes, hfits⟩ := Link.receiveTimeout_spec hres
    obtain ⟨later, hlater⟩ := ih (by rw [List.length_append]; exact Nat.add_le_of_le_sub' hgot hfits)
    exact ⟨events ++ later, reading_more hlog hevents nofun (by rw [hbytes, receivedBytes]) hlater⟩
  | case6 got l hmore nowUs clock hclock hnow hbefore res hres =>
    obtain ⟨events, hlog, hevents, hbytes, -⟩ := Link.receiveTimeout_spec hres
    exact ⟨events, reading_stop _ hlog hevents hbytes (fun h => (h rfl).elim) nofun nofun⟩
  | case7 got l hmore nowUs hnow hbefore hclock hclock' res hres =>
    obtain ⟨events, hlog, hevents, hbytes, -⟩ := Link.receiveTimeout_spec hres
    exact ⟨events, reading_stop _ hlog hevents hbytes (fun _ => nofun) (expired_ne_ok got) nil_of_expired⟩
  | case8 got l hmore nowUs hnow hbefore laterUs clock hclock hpassed hclock' res hres =>
    obtain ⟨events, hlog, hevents, hbytes, -⟩ := Link.receiveTimeout_spec hres
    exact ⟨events, reading_stop _ hlog hevents hbytes (fun _ => nofun) (expired_ne_ok got) nil_of_expired⟩
  | case9 got l hmore nowUs hnow hbefore laterUs clock hclock hlater hclock' res hres ih =>
    obtain ⟨events, hlog, hevents, hbytes, -⟩ := Link.receiveTimeout_spec hres
    obtain ⟨later, hlater⟩ := ih hgot
    exact ⟨events ++ later,
      reading_more (m := { res.2 with clock }) hlog hevents nofun (by rw [hbytes, receivedBytes, List.append_nil]) hlater⟩

/-! ## Reading what was sent -/

/-- No record was longer than the buffer it was received into. -/
def NoneCut (events : List Io) : Prop := ∀ io ∈ events, ∀ capacity, io ≠ .received capacity .tooLong

/-- What a receive for the rest `left` of a buffer that was sent leaves: the next record is taken, or nothing. -/
def TakesRecord (left : Bytes) (more : List Bytes) (l m : Link) : Received → Prop
  | .bytes bs =>
    bs = left.take maxRecordBytes ∧ m.pipe.inflight = records maxRecordBytes (left.drop maxRecordBytes) ++ more
  | .timeout => m.pipe.inflight = l.pipe.inflight
  | .fatal => True

theorem Link.receiveTimeout_records {capacity : Nat} {l : Link} {res : Received}
    (h : (l.receiveTimeout capacity).1 = res) {left : Bytes} {more : List Bytes}
    (hin : l.pipe.inflight = records maxRecordBytes left ++ more) (hleft : left ≠ []) (hcapacity : capacity = left.length) :
    (∃ events, (l.receiveTimeout capacity).2.log = l.log ++ events ∧ NoneCut events) ∧
      TakesRecord left more l (l.receiveTimeout capacity).2 res := by
  subst h
  have hnone {result : RecvRecord} (h : result ≠ .tooLong) : NoneCut [.received capacity result] := by
    intro io hio capacity hcut
    rw [List.mem_singleton.mp hio] at hcut
    simp only [Io.received.injEq] at hcut
    exact h hcut.2
  rw [records_cons (by decide) hleft, List.cons_append] at hin
  unfold receiveTimeout
  dsimp only
  cases l.arrivals.headD .timeout with
  | record =>
    have hpos := List.length_pos_of_ne_nil hleft
    rw [Pipe.recv_record hin (by rw [List.length_take]; omega)
      (List.ne_nil_of_length_pos (by rw [List.length_take, maxRecordBytes]; omega))]
    exact ⟨⟨_, rfl, hnone nofun⟩, rfl, rfl⟩
  | timeout => exact ⟨⟨_, rfl, hnone nofun⟩, rfl⟩
  | broken => exact ⟨⟨_, rfl, hnone nofun⟩, trivial⟩

theorem NoneCut.append {events later : List Io} (h : NoneCut events) (h' : NoneCut later) : NoneCut (events ++ later) :=
  fun io hio => (List.mem_append.mp hio).elim (h io) (h' io)

theorem noneCut_same {l m : Link} (h : m.log = l.log) : ∃ events, m.log = l.log ++ events ∧ NoneCut events :=
  ⟨[], by rw [h, List.append_nil], List.forall_mem_nil _⟩

/-- **Framing at the client.** A buffer that was sent whole and is asked for whole is never cut, and if the call completes
it has got exactly that buffer and left the rest where it is. -/
theorem receiveAll_records {len : Nat} (deadlineUs : Int) (got : Bytes) {left : Bytes} {more : List Bytes} {l : Link}
    (hin : l.pipe.inflight = records maxRecordBytes left ++ more) (hlen : got.length + left.length = len) :
    (∃ events, (receiveAll len deadlineUs got l).2.2.log = l.log ++ events ∧ NoneCut events) ∧
      ((receiveAll len deadlineUs got l).1 = .ok → (receiveAll len deadlineUs got l).2.1 = got ++ left ∧
        (receiveAll len deadlineUs got l).2.2.pipe.inflight = more) := by
  fun_induction receiveAll len deadlineUs got l generalizing left with
  | case1 got l hmore =>
    have hnil : left = [] := List.length_eq_zero_iff.mp (by omega)
    rw [hnil, records_nil] at hin
    exact ⟨noneCut_same rfl, fun _ => ⟨by rw [hnil, List.append_nil], hin⟩⟩
  | case2 got l hmore hclock => exact ⟨noneCut_same rfl, fun h => (expired_ne_ok got h).elim⟩
  | case3 got l hmore nowUs clock hclock hfailed => exact ⟨noneCut_same rfl, nofun⟩
  | case4 got l hmore nowUs clock hclock hnow hpassed => exact ⟨noneCut_same rfl, fun h => (expired_ne_ok got h).elim⟩
  | case5 got l hmore nowUs clock hclock hnow hbefore res bs hres =>
    rename_i ih
    have hleft : left ≠ [] := List.ne_nil_of_length_pos (by omega)
    obtain ⟨⟨events, hlog, hcut⟩, hbs, hrest⟩ := Link.receiveTimeout_records hres hin hleft (by omega)
    have hdrop := List.length_drop (i := maxRecordBytes) (l := left)
    obtain ⟨⟨later, hlater, hcut'⟩, hok⟩ := ih hrest (by rw [hbs, List.length_append, List.length_take]; omega)
    refine ⟨⟨events ++ later, hlater.trans ?_, hcut.append hcut'⟩, fun h => ?_⟩
    · rw [← List.append_assoc]
      exact congrArg (· ++ later) hlog
    · obtain ⟨hbuffer, hinflight⟩ := hok h
      exact ⟨by rw [hbuffer, hbs, List.append_assoc, List.take_append_drop], hinflight⟩
  | case6 got l hmore nowUs clock hclock hnow hbefore res =>
    rename_i hres
    have hleft : left ≠ [] := List.ne_nil_of_length_pos (by omega)
    exact ⟨(Link.receiveTimeout_records hres hin hleft (by omega)).1, nofun⟩
  | case7 got l hmore nowUs hnow hbefore hclock hclock' res =>
    rename_i hres
    have hleft : left ≠ [] := List.ne_nil_of_length_pos (by omega)
    exact ⟨(Link.receiveTimeout_records hres hin hleft (by omega)).1, fun h => (expired_ne_ok got h).elim⟩
  | case8 got l hmore nowUs hnow hbefore laterUs clock hclock hpassed hclock' res =>
    rename_i hres
    have hleft : left ≠ [] := List.ne_nil_of_length_pos (by omega)
    exact ⟨(Link.receiveTimeout_records hres hin hleft (by omega)).1, fun h => (expired_ne_ok got h).elim⟩
  | case9 got l hmore nowUs hnow hbefore laterUs clock hclock hlater hclock' res hres =>
    rename_i ih
    have hleft : left ≠ [] := List.ne_nil_of_length_pos (by omega)
    obtain ⟨⟨events, hlog, hcut⟩, hsame⟩ := Link.receiveTimeout_records hres hin hleft (by omega)
    obtain ⟨⟨later, hlater, hcut'⟩, hok⟩ := ih (hsame.trans hin) hlen
    refine ⟨⟨events ++ later, hlater.trans ?_, hcut.append hcut'⟩, hok⟩
    rw [← List.append_assoc]
    exact congrArg (· ++ later) hlog

end VlcWhisper.Plugin
