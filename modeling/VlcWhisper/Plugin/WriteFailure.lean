import VlcWhisper.Lib.Machine
import VlcWhisper.Plugin.TransportSteps

/-!
# After a failed write

A frame that is only partly written leaves the stream without framing, so nothing may follow it. Main results:

* `failureFinal_life`: nothing follows a failed send, if no control frame and no SHUTDOWN is what fails first.
* `not_forall_failureFinal`: the payload of a control frame follows its failed header.
* `silent_after_drop`: once the transport is dropped, no call reads or writes anything on it.
-/

namespace VlcWhisper.Plugin

open VlcWhisper.Lib VlcWhisper.Protocol

/-- The call writes a record. -/
def Io.writes : Io → Bool
  | .wrote records _ => !records.isEmpty
  | .received .. => false

/-- The call is a send that failed. -/
def Io.isFailure : Io → Bool
  | .wrote _ ok => !ok
  | .received .. => false

abbrev NoFailure (log : List Io) : Prop := ∀ io ∈ log, io.isFailure = false

/-- No record is written after a send that failed. -/
abbrev FailureFinal (log : List Io) : Prop := Explained (fun pre io => io.writes = true → NoFailure pre) log

theorem NoFailure.append {log : List Io} (h : NoFailure log) {io : Io} (hio : io.isFailure = false) :
    NoFailure (log ++ [io]) := by
  intro io' hmem
  rcases List.mem_append.mp hmem with hmem | hmem
  · exact h io' hmem
  · rw [List.mem_singleton.mp hmem]
    exact hio

theorem NoFailure.failureFinal {log : List Io} (h : NoFailure log) : FailureFinal log := by
  refine explained_iff.mpr fun pre io post hlog _ io' hmem => h io' ?_
  rw [hlog]
  exact List.mem_append_left _ hmem

/-- The first failure is final as long as it is last. -/
theorem NoFailure.failureFinal_append {log : List Io} (h : NoFailure log) (io : Io) : FailureFinal (log ++ [io]) :=
  explained_append.mpr ⟨h.failureFinal, fun _ => h, trivial⟩

/-- The client has the transport only if nothing failed on it, and nothing followed what failed. -/
def Sound (t : Transport) : Prop := NoFailure t.2 ∨ t.1 = false ∧ FailureFinal t.2

theorem Sound.failureFinal {t : Transport} (h : Sound t) : FailureFinal t.2 := by
  rcases h with h | ⟨-, h⟩
  · exact h.failureFinal
  · exact h

theorem sound_step (t u : Transport) (h : Sound t) (hstep : TransportStep true t u) : Sound u := by
  have hclean {log : List Io} (h : Sound (true, log)) : NoFailure log := by
    rcases h with h | ⟨hconn, -⟩
    · exact h
    · cases hconn
  cases hstep with
  | wrote log records => exact .inl ((hclean h).append rfl)
  | failed log records => exact .inr ⟨rfl, (hclean h).failureFinal_append _⟩
  | kept log records hlax => cases hlax
  | received log capacity result => exact .inl ((hclean h).append rfl)
  | dropped log => exact .inl (hclean h)

namespace Conn

/-- A client from its connection on: the handshake, then calls. -/
def life (fresh : Conn) (authToken : CArray authTokenBytes) (language : Option CString) (calls : List ApiCall) : Conn :=
  run apply ((connect authToken language).run fresh).2 calls

/-- The HELLO handshake starts with the transport. -/
theorem steps_connect (authToken : CArray authTokenBytes) (language : Option CString) (fresh : Conn) :
    Relation.ReflTransGen (TransportStep true) (true, fresh.link.log)
      ((connect authToken language).run fresh).2.transport := by
  have hrest (s : Conn) (hs : s.client.connected = true) (hlog : s.link.log = fresh.link.log) {m : ClientM Bool}
      (hm : Speaks true m (· = true)) : Relation.ReflTransGen (TransportStep true) (true, fresh.link.log)
        (m.run s).2.transport := by
    rw [← hlog, ← transport_of_connected hs]
    exact (hm s hs).steps
  unfold connect
  refine hrest { fresh with client := newClient language, lastWorkerSequence := none, workerProtocolMinor := 0 } rfl rfl ?_
  split
  · exact speaks_lost _ nofun
  · refine (speaks_sendParts _ _).bind (fun ok hok => ?_) fun ok hok => ?_
    · rw [if_pos hok]
      exact speaks_awaitHelloAck
    · rw [if_neg hok]
      exact .pure Bool.false_ne_true

/-- **Write failures.** In a life in which no control frame's header and no SHUTDOWN fails, nothing follows a failed
send. -/
theorem failureFinal_life {fresh : Conn} (hfresh : fresh.link.log = []) (authToken : CArray authTokenBytes)
    (language : Option CString) {calls : List ApiCall}
    (hsafe : Along apply Safe ((connect authToken language).run fresh).2 calls) :
    FailureFinal (fresh.life authToken language calls).link.log := by
  have hstart : Sound (true, fresh.link.log) := by
    rw [hfresh]
    exact .inl nofun
  have hconnect : Sound ((connect authToken language).run fresh).2.transport :=
    steps_invariant sound_step (steps_connect authToken language fresh) hstart
  have hcall (s : Conn) (call : ApiCall) (h : Sound s.transport) (hsafe : Safe s call) : Sound (s.apply call).transport :=
    steps_invariant sound_step (steps_run s call fun _ => hsafe) h
  exact (run_invariant hcall hconnect hsafe).failureFinal

/-- **A dropped transport.** Without the transport, calls make none on it, however many there are. -/
theorem silent_after_drop {s : Conn} (h : s.client.connected = false) (calls : List ApiCall) :
    (run apply s calls).transport = s.transport := by
  have hstep (u : Conn) (call : ApiCall) (hu : u.transport = s.transport) : (u.apply call).transport = s.transport := by
    have hconn : u.client.connected = false := (congrArg Prod.fst hu).trans h
    exact (apply_of_disconnected hconn call).trans hu
  exact run_invariant' hstep calls rfl

/-! ## A control frame whose header fails -/

/-- HELLO_ACK: version 1.6, PCM and translation. -/
def helloAckPayload : Bytes := [1, 0, 6, 0, 17, 0, 0, 0, 5, 0] ++ clientVersion

/-- A worker that answers HELLO and START, and a transport that fails on the fifth send. -/
def failingFifth : Conn where
  client := newClient none
  lastWorkerSequence := none
  workerProtocolMinor := 0
  random := [some (.zero 16)]
  link :=
    { pipe :=
        { inflight := [encodeHeader ⟨protocolMagic, versionMajor, MessageType.helloAck.code, 15, 1⟩, helloAckPayload,
                       encodeHeader ⟨protocolMagic, versionMajor, MessageType.started.code, 17, 2⟩,
                       List.replicate 17 0]
          closed := false }
      arrivals := [.record, .record, .record, .record]
      sends := [fun _ => false, fun _ => false, fun _ => false, fun _ => false, fun _ => true]
      clock := List.replicate 8 0
      log := [] }

/-- The header of TRANSLATE_CTRL fails, and nothing follows it. -/
theorem failureFinal_failingFifth :
    FailureFinal (failingFifth.life (.zero _) none [.send (.startSession 0 none none),
      .send (.sendTranslateCtrl true none none 0), .send (.sendModelCtrl 0 none)]).link.log :=
  failureFinal_life rfl _ _ ⟨nofun, nofun, nofun, trivial⟩

/-- The header of PAUSE fails, and its payload is written. -/
theorem not_forall_failureFinal :
    ¬ ∀ (fresh : Conn) (authToken : CArray authTokenBytes) (language : Option CString) (calls : List ApiCall),
      fresh.link.log = [] → FailureFinal (fresh.life authToken language calls).link.log := by
  intro h
  have hlife : ¬ FailureFinal
      (failingFifth.life (.zero _) none [.send (.startSession 0 none none), .send .pauseSession]).link.log := by
    decide +kernel
  exact hlife (h failingFifth (.zero _) none _ rfl)

end Conn

end VlcWhisper.Plugin
