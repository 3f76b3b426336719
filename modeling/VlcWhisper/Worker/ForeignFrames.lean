import VlcWhisper.Worker.WriteFinality

/-!
# Frames of another session

The client stamps what it sends with the id of its session, and frames of an ended session may still be on their way
when the next one begins. Main result: `foreign_inert`. A frame with an id that is not the current one, or a START of
the session that is active, changes nothing but what an error reply changes.
-/

namespace VlcWhisper.Worker

open VlcWhisper.Lib VlcWhisper.Protocol

variable {env : Env} {config : Config}

/-- The frame belongs to a session that is not the current one, or starts the active one again. -/
def Foreign (w : WorkerState) : Payload → Prop
  | .audioPcm p => p.sessionId ≠ w.sessionId
  | .position p => p.sessionId ≠ w.sessionId
  | .pause p => p.sessionId ≠ w.sessionId
  | .resume p => p.sessionId ≠ w.sessionId
  | .stopSession p => p.sessionId ≠ w.sessionId
  | .translateCtrl p => p.sessionId ≠ w.sessionId
  | .startSession p => w.sessionActive = true ∧ p.sessionId = w.sessionId
  | _ => False

/-- At most an ERROR frame was sent. -/
def RepliesError (w v : WorkerState) : Prop :=
  (v.sequence = w.sequence ∧ v.trace = w.trace) ∨
    v.sequence = w.sequence + 1 ∧ (v.trace = w.trace ∨ ∃ e, v.trace = w.trace ++ [.frame v.sequence (.error e)])

theorem guardedIpcSend_keepsTrace (w : WorkerState) :
    Ends (guardedIpcSend env) w fun _ v => v.sequence = w.sequence ∧ v.trace = w.trace := by
  refine Ends.get_bind ?_
  split
  · exact ⟨rfl, rfl⟩
  · exact ⟨rfl, rfl⟩

theorem sendError_replies (sessionId : SessionId) (code : UInt32) (recoverable : UInt8) (message : Bytes)
    (w : WorkerState) : Ends (sendError env sessionId code recoverable message) w fun _ v => RepliesError w v := by
  unfold sendError sendPayload sendFrame
  split
  · exact .inl ⟨rfl, rfl⟩
  · refine Ends.modify_bind ((guardedIpcSend_keepsTrace _).bind fun header t ht => ?_)
    obtain ⟨hsequence, htrace⟩ := ht
    split
    · refine (guardedIpcSend_keepsTrace t).bind fun payload u hu => Ends.get_bind ?_
      have hsequence' : u.sequence = w.sequence + 1 := hu.1.trans hsequence
      have htrace' : u.trace = w.trace := hu.2.trans htrace
      cases payload with
      | false => exact .inr ⟨hsequence', .inl htrace'⟩
      | true =>
        refine .inr ⟨hsequence', .inr ⟨⟨sessionId, code, recoverable, .ofStr maxErrorMsgBytes message⟩, ?_⟩⟩
        show u.trace ++ _ = _
        rw [htrace']
        rfl
    · exact .inr ⟨hsequence, .inl htrace⟩

/-- The handler changes nothing but what an error reply changes. -/
def Inert (m : Loop Flow) (w : WorkerState) : Prop :=
  Ends m w fun flow v => v.unsent = w.unsent ∧ RepliesError w v ∧ (w.authenticated = true → flow = .proceed)

theorem inert_of_skipped {w : WorkerState} {c : Bool} {m : Loop Unit} (hc : c = false) :
    Inert (do onlyIf c m; pure Flow.proceed) w := by
  subst hc
  exact ⟨rfl, .inl ⟨rfl, rfl⟩, fun _ => rfl⟩

theorem inert_restart {w : WorkerState} {p : Start} (hactive : w.sessionActive = true) (hid : p.sessionId = w.sessionId) :
    Inert (do handleStart env config p; pure Flow.proceed) w := by
  have hkept := (@spares_sendError env w.sessionId eInternal 1 (ascii "Session already active")).eq w
  have hreply := @sendError_replies env w.sessionId eInternal 1 (ascii "Session already active") w
  refine Ends.bind (P := fun _ v => v.unsent = w.unsent ∧ RepliesError w v) ?_ fun _ v hv => ⟨hv.1, hv.2, fun _ => rfl⟩
  refine Ends.get_bind ?_
  rw [if_pos (by rw [hactive, hid]; simp)]
  refine Ends.bind (P := fun _ v => v.unsent = w.unsent ∧ RepliesError w v) ⟨hkept, hreply⟩ fun sent v hv => ?_
  cases sent
  · exact hv
  · exact hv

theorem inert_handleHello {w : WorkerState} (hauth : w.authenticated = false) {p : Payload}
    (hforeign : Foreign w p) : Inert (handleHello env config p) w := by
  unfold handleHello
  split
  · exact hforeign.elim
  · refine ⟨rfl, .inl ⟨rfl, rfl⟩, fun h => ?_⟩
    rw [hauth] at h
    cases h

theorem inert_dispatch {w : WorkerState} {p : Payload} (hforeign : Foreign w p) : Inert (dispatch env config p) w := by
  refine Ends.get_bind ?_
  by_cases hauth : w.authenticated = true
  · rw [if_neg (by rw [hauth]; decide)]
    have hskip {q : SessionId} (h : q ≠ w.sessionId) (c : Bool) : (c && decide (q = w.sessionId)) = false := by
      rw [decide_eq_false h, Bool.and_false]
    cases p with
    | startSession p => exact inert_restart hforeign.1 hforeign.2
    | position p => exact inert_of_skipped (hskip hforeign w.sessionActive)
    | audioPcm p => exact inert_of_skipped (hskip hforeign _)
    | pause p => exact inert_of_skipped (hskip hforeign w.sessionActive)
    | resume p => exact inert_of_skipped (hskip hforeign w.sessionActive)
    | translateCtrl p => exact inert_of_skipped (decide_eq_false hforeign)
    | stopSession p =>
      refine Ends.get_bind ?_
      rw [if_pos (show p.sessionId ≠ w.sessionId from hforeign)]
      exact ⟨rfl, .inl ⟨rfl, rfl⟩, fun _ => rfl⟩
    | _ => exact hforeign.elim
  · have hauth' := Bool.eq_false_of_not_eq_true hauth
    rw [if_pos (by rw [hauth']; rfl)]
    exact inert_handleHello hauth' hforeign

/-- **Foreign-session frames are inert.** In any state, handling such a frame leaves all session state as it is. -/
theorem foreign_inert {w : WorkerState} {f : Frame} {p : Payload} (hf : f.request = some p) (hforeign : Foreign w p) :
    Inert (handleFrame env config f) w := by
  rw [handleFrame_eq, hf]
  exact inert_dispatch hforeign

/-- A worker with an active session. -/
def WorkerState.live (sessionId : SessionId) : WorkerState :=
  { WorkerState.start true true with authenticated := true, sessionActive := true, sessionId }

def pauseRequest : Control := ⟨.zero _, ctrlReasonUserPause⟩

/-- A PAUSE of the session before. -/
theorem foreign_inert_pause :
    Inert (handleFrame .quiet ⟨.zero _, true, false⟩ (frameOf (.pause pauseRequest))) (.live (.pad _ [7])) :=
  foreign_inert (p := .pause pauseRequest) rfl (by decide +kernel : pauseRequest.sessionId ≠ _)

end VlcWhisper.Worker
