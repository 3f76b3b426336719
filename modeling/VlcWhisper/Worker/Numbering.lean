import VlcWhisper.Worker.AuthGate

/-!
# How the worker numbers its frames (`vw_worker.c`, `vw_worker_translation_diag_override.h`)

Every frame takes the next number of one counter, also if it fails, so the counter is never ahead of the frames that
were begun. `Numbering.Step` says what can happen to the numbers; a transport that is known to have failed takes no
frame, and stays so. Main result: `numbers_wake`. After HELLO_ACK a round of the main loop makes such steps only.
-/

namespace VlcWhisper.Worker

open VlcWhisper.Lib VlcWhisper.Protocol SegmentBuilder Relation

variable {env : Env} {config : Config} {α : Type}

/-! ## Numbers -/

/-- The number of a frame that was sent. -/
def Event.sequence? : Event → Option UInt64
  | .frame sequence _ | .caption sequence _ => some sequence
  | _ => none

/-- The numbers of the frames that were sent. -/
def sentSequences (trace : List Event) : List UInt64 := trace.filterMap Event.sequence?

/-- What numbers depend on: the counter, the numbers so far, and what became of the writes. -/
structure Numbering where
  sequence : UInt64
  sent : List UInt64
  failures : Nat
  transport : Transport

def WorkerState.numbering (w : WorkerState) : Numbering where
  sequence := w.sequence
  sent := sentSequences w.trace
  failures := w.writes.count .failed
  transport := w.transport

namespace Numbering

/-- Nothing more is written. -/
def Closed (s : Numbering) : Prop := s.transport.registered = true ∧ s.transport.failed = true

/-- How many frames were begun: each of them was sent, or one of its writes failed. -/
def begun (s : Numbering) : Nat := s.sent.length + s.failures

/-- What happens to the numbers. -/
inductive Step (s : Numbering) : Numbering → Prop
  | sent : ¬ s.Closed → Step s { s with sequence := s.sequence + 1, sent := s.sent ++ [s.sequence + 1] }
  | failed : Step s { s with sequence := s.sequence + 1, failures := s.failures + 1 }
  | refused : s.Closed → Step s { s with sequence := s.sequence + 1 }
  | register : Step s { s with transport := ⟨true, s.transport.registered && s.transport.failed⟩ }
  | mark : Step s { s with transport := { s.transport with failed := true } }

/-- The numbers are those of a counter that does not wrap, and it is behind the frames that were begun. -/
def Counted (s : Numbering) : Prop :=
  ∃ ns : List Nat, s.sent = ns.map UInt64.ofNat ∧ ns.Pairwise (· < ·) ∧ (∀ n ∈ ns, n ≤ s.begun + 1) ∧
    (s.Closed ∨ ∃ last, s.sequence = UInt64.ofNat last ∧ last ≤ s.begun + 1 ∧ ∀ n ∈ ns, n ≤ last)

theorem counted_step (s t : Numbering) (hs : s.Counted) (hstep : Step s t) : t.Counted := by
  obtain ⟨ns, hsent, hincreasing, hbound, hcounter⟩ := hs
  have hnext (last : Nat) (h : s.sequence = UInt64.ofNat last) : s.sequence + 1 = UInt64.ofNat (last + 1) := by
    rw [h, UInt64.ofNat_add]
    rfl
  cases hstep with
  | sent hopen =>
    rcases hcounter with hclosed | ⟨last, hlast, hbehind, habove⟩
    · exact (hopen hclosed).elim
    · have hbegun : begun { s with sequence := s.sequence + 1, sent := s.sent ++ [s.sequence + 1] } = s.begun + 1 := by
        show (s.sent ++ [s.sequence + 1]).length + s.failures = s.sent.length + s.failures + 1
        rw [List.length_append, List.length_singleton]
        omega
      refine ⟨ns ++ [last + 1], ?_, ?_, ?_, .inr ⟨last + 1, hnext last hlast, ?_, ?_⟩⟩
      · rw [hsent, hnext last hlast, List.map_append, List.map_singleton]
      · refine List.pairwise_append.mpr ⟨hincreasing, List.pairwise_singleton _ _, fun n hn m hm => ?_⟩
        obtain rfl := List.mem_singleton.mp hm
        exact Nat.lt_succ_of_le (habove n hn)
      · intro n hn
        rw [hbegun]
        rcases List.mem_append.mp hn with hn | hn
        · exact Nat.le_succ_of_le (hbound n hn)
        · obtain rfl := List.mem_singleton.mp hn
          exact Nat.succ_le_succ hbehind
      · rw [hbegun]
        exact Nat.succ_le_succ hbehind
      · intro n hn
        rcases List.mem_append.mp hn with hn | hn
        · exact Nat.le_succ_of_le (habove n hn)
        · exact (List.mem_singleton.mp hn).le
  | failed =>
    refine ⟨ns, hsent, hincreasing, fun n hn => Nat.le_succ_of_le (hbound n hn), ?_⟩
    refine hcounter.imp id fun ⟨last, hlast, hbehind, habove⟩ => ?_
    exact ⟨last + 1, hnext last hlast, Nat.succ_le_succ hbehind, fun n hn => Nat.le_succ_of_le (habove n hn)⟩
  | refused hclosed => exact ⟨ns, hsent, hincreasing, hbound, .inl hclosed⟩
  | register =>
    refine ⟨ns, hsent, hincreasing, hbound, hcounter.imp (fun hclosed => ⟨rfl, ?_⟩) id⟩
    show (s.transport.registered && s.transport.failed) = true
    rw [hclosed.1, hclosed.2]
    rfl
  | mark => exact ⟨ns, hsent, hincreasing, hbound, hcounter.imp (fun hclosed => ⟨hclosed.1, rfl⟩) id⟩

theorem Counted.increasing {s : Numbering} (hs : s.Counted) (hfew : s.begun + 1 < 2 ^ 64) :
    s.sent.Pairwise (· < ·) := by
  obtain ⟨ns, hsent, hincreasing, hbound, -⟩ := hs
  rw [hsent, List.pairwise_map]
  refine hincreasing.imp_of_mem fun {m n} hm hn hless => ?_
  have hm := hbound m hm
  have hn := hbound n hn
  rw [UInt64.lt_iff_toNat_lt, UInt64.toNat_ofNat', UInt64.toNat_ofNat', Nat.mod_eq_of_lt (by omega),
    Nat.mod_eq_of_lt (by omega)]
  exact hless

end Numbering

/-- The program numbers its frames. -/
abbrev Numbers (m : Loop α) : Prop := Steps WorkerState.numbering Numbering.Step m

/-! ## Basic actions -/

theorem sentSequences_append (trace events : List Event) :
    sentSequences (trace ++ events) = sentSequences trace ++ sentSequences events :=
  List.filterMap_append

theorem numbers_modify {f : WorkerState → WorkerState} (h : ∀ w, (f w).numbering = w.numbering) : Numbers (modify f) :=
  .modify_of_eq h

theorem numbering_record (w : WorkerState) {events : List Event} (h : sentSequences events = []) :
    { w with trace := w.trace ++ events }.numbering = w.numbering := by
  unfold WorkerState.numbering
  rw [sentSequences_append, h, List.append_nil]

theorem numbers_record {events : List Event} (h : sentSequences events = []) : Numbers (record events) :=
  numbers_modify fun w => numbering_record w h

theorem numbers_ask (answer : Nat → α) : Numbers (ask answer) := fun _ => .of_eq rfl

theorem numbers_call (service : Service) (answer : Nat → α) : Numbers (call service answer) := fun _ => .of_eq rfl

theorem numbers_detect (window : List SessionId) (answer : Nat → α) : Numbers (detect window answer) :=
  fun _ => .of_eq rfl

theorem numbers_stopRunning (fatal : Bool) : Numbers (stopRunning fatal) := numbers_modify fun _ => rfl

theorem numbers_setFatalExit : Numbers setFatalExit := numbers_modify fun _ => rfl

theorem numbers_orFatal {send : Loop Bool} (h : Numbers send) : Numbers (orFatal send) :=
  h.bind fun _ => .onlyIf (numbers_stopRunning true)

theorem numbers_loadRunning : Numbers (loadRunning env) :=
  (numbers_ask _).bind fun _ => (Steps.onlyIf (numbers_stopRunning true)).bind fun _ => .get_bind fun _ => .refl

/-- A write changes nothing but the list of writes. -/
structure Wrote (w : WorkerState) (sent : Bool) (v : WorkerState) : Prop where
  sequence : v.sequence = w.sequence
  trace : v.trace = w.trace
  transport : v.transport = w.transport
  outcome : w.numbering.Closed ∧ sent = false ∧ v.writes = w.writes ∨
    ¬ w.numbering.Closed ∧ v.writes = w.writes ++ [if sent then .sent else .failed]

theorem guardedIpcSend_wrote (w : WorkerState) : Ends (guardedIpcSend env) w fun sent v => Wrote w sent v := by
  refine Ends.get_bind (Ends.ite (fun hclosed => ?_) fun hopen => ?_)
  · exact ⟨rfl, rfl, rfl, .inl ⟨Bool.and_eq_true_iff.mp hclosed, rfl, rfl⟩⟩
  · exact ⟨rfl, rfl, rfl, .inr ⟨fun h => hopen (Bool.and_eq_true_iff.mpr h), rfl⟩⟩

theorem numbering_of_wrote {w v : WorkerState} {sent : Bool} (h : Wrote w sent v) (hopen : ¬ w.numbering.Closed) :
    v.numbering = { w.numbering with failures := w.numbering.failures + if sent then 0 else 1 } := by
  rcases h.outcome with ⟨hclosed, -⟩ | ⟨-, hwrites⟩
  · exact (hopen hclosed).elim
  · unfold WorkerState.numbering
    rw [h.sequence, h.trace, h.transport, hwrites, List.count_append]
    cases sent <;> rfl

/-- A frame is numbered, whether its writes succeed or not. -/
theorem numbers_sendFrame (bufferSize : Nat) (p : Payload) {event : UInt64 → Event}
    (hevent : ∀ n, (event n).sequence? = some n) : Numbers (sendFrame env bufferSize p event) := by
  unfold sendFrame
  split
  · refine .bind (numbers_modify fun w => ?_) fun _ => .pure _
    unfold WorkerState.numbering
    rw [List.count_append]
    rfl
  · intro w
    let t : WorkerState := { w with sequence := w.sequence + 1 }
    have hsends : Ends (do
        let header ← guardedIpcSend env
        if header then do
          let payload ← guardedIpcSend env
          let w ← get
          onlyIf payload (record [event w.sequence])
          pure payload
        else pure false) t fun _ v => Numbering.Step w.numbering v.numbering := by
      refine (guardedIpcSend_wrote t).bind fun header u hu => ?_
      by_cases hclosed : w.numbering.Closed
      · -- the header is not even tried
        have hclosed' : t.numbering.Closed := hclosed
        rcases hu.outcome with ⟨-, rfl, hwrites⟩ | ⟨hopen, -⟩
        · have hsame : u.numbering = t.numbering := by
            unfold WorkerState.numbering
            rw [hu.sequence, hu.trace, hu.transport, hwrites]
          show Numbering.Step w.numbering u.numbering
          rw [hsame]
          exact .refused hclosed
        · exact (hopen hclosed').elim
      · have hopen : ¬ t.numbering.Closed := hclosed
        have hnumbering := numbering_of_wrote hu hopen
        cases header with
        | false =>
          show Numbering.Step w.numbering u.numbering
          rw [hnumbering]
          exact .failed
        | true =>
          have hsame : u.numbering = t.numbering := hnumbering
          have hopen' : ¬ u.numbering.Closed := by
            rw [hsame]
            exact hopen
          refine (guardedIpcSend_wrote u).bind fun payload v hv => Ends.get_bind ?_
          have hnumbering' := numbering_of_wrote hv hopen'
          rw [hsame] at hnumbering'
          cases payload with
          | false =>
            show Numbering.Step w.numbering v.numbering
            rw [hnumbering']
            exact .failed
          | true =>
            have hseq : v.sequence = w.sequence + 1 := congrArg Numbering.sequence hnumbering'
            have hafter : { v with trace := v.trace ++ [event v.sequence] }.numbering =
                { t.numbering with sent := t.numbering.sent ++ [w.sequence + 1] } := by
              rw [← show v.numbering = t.numbering from hnumbering']
              unfold WorkerState.numbering
              rw [sentSequences_append, hseq]
              unfold sentSequences
              rw [List.filterMap_cons_some (hevent _)]
              rfl
            show Numbering.Step w.numbering { v with trace := v.trace ++ [event v.sequence] }.numbering
            rw [hafter]
            exact .sent hclosed
    exact StepsAt.of_step hsends

theorem numbers_sendPayload (bufferSize : Nat) (p : Payload) : Numbers (sendPayload env bufferSize p) :=
  numbers_sendFrame _ _ fun _ => rfl

theorem numbers_sendError (sessionId : SessionId) (code : UInt32) (recoverable : UInt8) (message : Bytes) :
    Numbers (sendError env sessionId code recoverable message) :=
  numbers_sendPayload _ _

theorem numbers_sendModelProgress (sessionId : SessionId) (p : DownloadProgress) :
    Numbers (sendModelProgress env sessionId p) :=
  numbers_sendPayload _ _

theorem numbers_sendStatus (sessionId : SessionId) (sessionActive paused : Bool) :
    Numbers (sendStatus env config sessionId sessionActive paused) :=
  (numbers_ask _).bind fun _ => (numbers_ask _).bind fun _ => (numbers_ask _).bind fun _ =>
    .get_bind fun w => numbers_sendPayload _ _ w

theorem numbers_reportStatus : Numbers (reportStatus env config) :=
  .get_bind fun w => numbers_orFatal (numbers_sendStatus _ _ _) w

theorem numbers_sendCaptionSegment (c : Caption) : Numbers (sendCaptionSegment env c) :=
  (numbers_sendFrame _ _ fun _ => rfl).bind fun _ => (Steps.onlyIf (numbers_record rfl)).bind fun _ => .pure _

/-! ## The translator -/

theorem numbers_runThreads : Numbers (runThreads env) := fun _ => .of_eq rfl

theorem numbers_invalidate (why : Reset) (w : WorkerState) : (w.invalidate why).numbering = w.numbering :=
  numbering_record w rfl

theorem numbers_markTransportFailed : Numbers markTransportFailed :=
  .bind (.modify fun _ => .single .mark) fun _ => .get_bind fun w => Steps.onlyIf (numbers_stopRunning true) w

theorem numbers_reportLocalRejection (c : Caption) : Numbers (reportLocalRejection env c) := by
  refine .get_bind fun w => ?_
  split
  · refine Steps.bind (numbers_modify fun v => ?_) (fun _ => .pure _) w
    unfold WorkerState.numbering
    rw [List.count_append]
    rfl
  · exact numbers_sendError _ _ _ _ w

theorem numbers_blameRefusal (c : Caption) : Numbers (blameRefusal env c) := by
  refine (numbers_reportLocalRejection c).bind fun reported => .ite (.pure _) ?_
  exact numbers_markTransportFailed.bind fun _ => (numbers_record rfl).bind fun _ => .pure _

theorem numbers_submitScoped (c : Caption) : Numbers (submitScoped env c) := by
  refine .get_bind fun w => Steps.ite ((numbers_record rfl).bind fun _ => .pure _) ?_ w
  refine numbers_runThreads.bind fun _ => .get_bind fun v => ?_
  split
  · exact .refl
  · dsimp only
    refine Steps.bind (numbers_modify fun u => ?_) (fun _ => .ite (.pure _) (numbers_blameRefusal c)) v
    exact numbering_record u rfl

theorem numbers_deliverTranslation (r : TranslateResult) : Numbers (deliverTranslation env r) :=
  .get_bind fun w => Steps.onlyIf (numbers_orFatal (numbers_sendCaptionSegment _)) w

theorem numbers_diagDeliver (r : TranslateResult) : Numbers (diagDeliver env r) := by
  refine .get_bind fun w => ?_
  split
  · refine Steps.ite ?_ (numbers_deliverTranslation r) w
    refine (numbers_sendError _ _ _ _).bind fun sent => .ite (numbers_deliverTranslation r) ?_
    exact numbers_markTransportFailed.bind fun _ => (numbers_stopRunning true).bind fun _ => numbers_record rfl
  · exact numbers_deliverTranslation r w

theorem numbers_tryDeliverScoped : Numbers (tryDeliverScoped env) := by
  refine .bind (.modify fun w => .single .register) fun _ => .get_bind fun w => ?_
  refine Steps.ite ((numbers_stopRunning true).bind fun _ => .pure _) ?_ w
  refine numbers_runThreads.bind fun _ => .get_bind fun v => ?_
  split
  · exact .refl
  · refine StepsAt.modify_bind .refl ?_
    split
    · exact .refl
    · exact Steps.bind (numbers_diagDeliver _) (fun _ => .pure _) _

theorem numbers_deliverResults : Numbers (deliverResults env) := by
  refine .get_bind fun w => ?_
  split
  · exact .refl
  · exact Steps.bind (.loop (numbers_tryDeliverScoped.bind fun _ => .pure _) _) (fun _ => .pure _) w

theorem numbers_drainTranslation : Numbers (drainTranslation env) := by
  refine (numbers_ask _).bind fun polls => .bind (.loop ?_ polls) fun _ => .pure _
  refine numbers_loadRunning.bind fun running => .ite (.pure _) ?_
  refine numbers_runThreads.bind fun _ => .get_bind fun w => Steps.ite ?_ ?_ w
  · exact numbers_tryDeliverScoped.bind fun _ => .pure _
  · exact (numbers_record rfl).bind fun _ => .pure _

theorem numbers_drainIf (c : Bool) : Numbers (drainIf env c) := .ite numbers_drainTranslation (.pure _)

/-! ## Cues and audio -/

theorem numbers_emitSegment (cue : Cue) (attempted : Bool) : Numbers (emitSegment env cue attempted) := by
  refine .get_bind fun w => ?_
  dsimp only
  refine Steps.ite ((numbers_submitScoped _).bind fun submitted => .ite (.pure _) ?_) ?_ w
  · exact numbers_sendCaptionSegment _
  · exact numbers_sendCaptionSegment _

theorem numbers_popSegment : Numbers popSegment := by
  refine .get_bind fun w => ?_
  split
  · exact .refl
  · rename_i cue builder _
    refine Steps.bind (numbers_modify fun v => ?_) (fun _ => .pure _) w
    exact numbering_record v rfl

theorem numbers_emitSegments : Numbers (emitSegments env) := by
  refine .get_bind fun w => Steps.bind (.loop ?_ _) (fun _ => .pure _) w
  refine numbers_popSegment.bind fun popped => ?_
  cases popped with
  | none => exact .pure _
  | some cue => exact (numbers_orFatal (numbers_emitSegment cue false)).bind fun _ => .pure _

theorem numbers_emitTailSegments : Numbers (emitTailSegments env) := by
  refine .get_bind fun w => Steps.bind (.loop ?_ _) (fun _ => .pure _) w
  refine numbers_popSegment.bind fun popped => ?_
  cases popped with
  | none => exact .pure _
  | some cue => exact (numbers_emitSegment cue _).bind fun _ => .pure _

theorem numbers_drainAudio (samples : Nat) : Numbers (drainAudio samples) := numbers_modify fun _ => by rfl

theorem numbers_transcribeWindow (window : List SessionId) (windowPtsUs : Int) (limitUs : Option Int) :
    Numbers (transcribeWindow env window windowPtsUs limitUs) := by
  refine (numbers_call .whisper _).bind fun segs => ?_
  cases segs with
  | none => exact .pure _
  | some segs =>
    refine (numbers_ask _).bind fun memory => .bind (numbers_modify fun w => ?_) fun _ => .pure _
    exact numbering_record w rfl

theorem numbers_flushRound : Numbers (flushRound env) := by
  refine .get_bind fun w => ?_
  refine Steps.ite (.pure _) ?_ w
  generalize w.audioBuf.getSamples chunkMaxSamples = samples
  refine (numbers_detect _ _).bind fun speech => ?_
  split
  · exact .pure _
  · refine .ite (.pure _) (.ite ((numbers_drainAudio _).bind fun _ => .pure _) ?_)
    refine (numbers_transcribeWindow _ _ _).bind fun transcribed => .ite ?_ (.pure _)
    exact (numbers_drainAudio _).bind fun _ => .pure _

theorem numbers_flushAudioTail : Numbers (flushAudioTail env) :=
  .get_bind fun w => Steps.ite (.pure _) (.bind (.loop numbers_flushRound _) fun _ => .pure _) w

theorem numbers_finishTail (failure : Bytes) {afterwards : Loop Unit} (h : Numbers afterwards) :
    Numbers (finishTail env failure afterwards) := by
  refine numbers_flushAudioTail.bind fun flushed => .ite (.get_bind fun w => ?_) ?_
  · exact (numbers_sendError _ _ _ _).bind (fun _ => numbers_stopRunning true) w
  · exact numbers_emitTailSegments.bind fun sent => .ite (numbers_stopRunning true) h

theorem numbers_inferWindow (window : List SessionId) (windowPtsUs : Int) (growing : Bool) :
    Numbers (inferWindow env window windowPtsUs growing) := by
  refine .get_bind fun w => Steps.ite (.pure _) ?_ w
  exact (numbers_detect _ _).bind fun speech => .ite (numbers_transcribeWindow _ _ _) (.pure _)

theorem numbers_setNextInference (samples : Nat) :
    Numbers (modify fun w => { w with liveNextInferenceSamples := samples }) :=
  numbers_modify fun _ => rfl

theorem numbers_inferRound : Numbers (inferRound env config) := by
  refine .get_bind fun w => ?_
  refine Steps.ite (.pure _) ?_ w
  generalize w.audioBuf.getSamples _ = samples
  refine (numbers_inferWindow _ _ _).bind fun inferred => .ite ?_ (.ite ?_ ?_)
  · exact (numbers_sendError _ _ _ _).bind fun _ => (numbers_stopRunning true).bind fun _ => .pure _
  · refine (numbers_setNextInference _).bind fun _ => numbers_loadRunning.bind fun _ => ?_
    exact (Steps.onlyIf numbers_reportStatus).bind fun _ => .pure _
  · refine numbers_loadRunning.bind fun running => .ite (.pure _) ?_
    refine (numbers_setNextInference _).bind fun _ => (numbers_drainAudio _).bind fun _ => ?_
    exact numbers_reportStatus.bind fun _ => .pure _

/-! ## Handlers -/

theorem numbers_openSource (p : Start) : Numbers (openSource env p) := by
  refine .ite ((numbers_call .openSource _).bind fun opened => .ite ?_ ?_) ?_
  · refine .bind (numbers_modify fun _ => by rfl) fun _ => .bind (.onlyIf ?_) fun _ => .pure _
    exact (numbers_ask _).bind fun _ => .onlyIf (numbers_modify fun _ => by rfl)
  · refine .bind (numbers_modify fun _ => by rfl) fun _ => (numbers_sendError _ _ _ _).bind fun sent => ?_
    exact (Steps.onlyIf (numbers_stopRunning true)).bind fun _ => .pure _
  · exact .bind (numbers_modify fun _ => by rfl) fun _ => .pure _

theorem numbers_refuse (sessionId : SessionId) (code : UInt32) (recoverable : UInt8) (message : Bytes) :
    Numbers (orFatal (sendError env sessionId code recoverable message)) :=
  numbers_orFatal (numbers_sendError _ _ _ _)

theorem numbers_handleStart (p : Start) : Numbers (handleStart env config p) := by
  refine .get_bind fun w => Steps.ite (numbers_refuse _ _ _ _) ?_ w
  refine .bind (.onlyIf (numbers_modify fun v => by exact numbering_record v rfl)) fun _ => .ite (numbers_refuse _ _ _ _)
    (.ite (numbers_refuse _ _ _ _) (.ite (numbers_refuse _ _ _ _) ?_))
  refine .bind (numbers_modify fun v => by exact numbering_record v rfl) fun _ => (numbers_openSource p).bind fun goOn => .onlyIf ?_
  refine .get_bind fun v => ?_
  exact Steps.bind (numbers_sendPayload _ _) (fun _ => .ite numbers_reportStatus (numbers_stopRunning true)) v

theorem numbers_changePause (p : Position) : Numbers (changePause env p) := by
  refine .bind (numbers_modify fun _ => by rfl) fun _ => .get_bind fun w => ?_
  refine Steps.ite (numbers_modify fun _ => by rfl) (.onlyIf ?_) w
  exact (numbers_ask _).bind fun seeked => .onlyIf (numbers_modify fun _ => by rfl)

theorem numbers_followPause (p : Position) : Numbers (followPause env config p) := by
  refine .get_bind fun w => Steps.ite (.pure _) ?_ w
  refine (numbers_changePause p).bind fun _ => .get_bind fun v => ?_
  exact Steps.bind (numbers_sendStatus _ _ _) (fun _ => .bind (.onlyIf (numbers_stopRunning true)) fun _ => .pure _) v

theorem numbers_seekTo (p : Position) : Numbers (seekTo env p) :=
  (numbers_ask _).bind fun _ => .ite (numbers_modify fun _ => by rfl) (numbers_modify fun w => by
    exact numbers_invalidate .seek { w with seekFailedPending := false })

theorem numbers_followSource (p : Position) : Numbers (followSource env p) := by
  refine .get_bind fun w => Steps.bind (.onlyIf (numbers_seekTo p)) (fun _ => .get_bind fun v => ?_) w
  exact Steps.onlyIf (numbers_modify fun _ => by rfl) v

theorem numbers_handlePosition (p : Position) : Numbers (handlePosition env config p) := by
  refine .get_bind fun w => Steps.onlyIf ((numbers_followPause p).bind fun goOn => .onlyIf ?_) w
  exact .get_bind fun v => Steps.ite (numbers_followSource p) (numbers_modify fun _ => by rfl) v

theorem numbers_handleAudio (p : Audio) : Numbers (handleAudio env config p) := by
  refine .get_bind fun w => Steps.onlyIf (.ite (numbers_modify fun _ => by rfl) (.onlyIf ?_)) w
  refine .bind (numbers_modify fun _ => by rfl) fun _ => .get_bind fun v => ?_
  exact Steps.bind (.loop numbers_inferRound _) (fun _ => .pure _) v

theorem numbers_handlePause (p : Control) : Numbers (handlePause env config p) :=
  .get_bind fun w => Steps.onlyIf (.bind (numbers_modify fun v => by
    exact numbers_invalidate .pause { v with paused := true }.clearPipeline) fun _ => numbers_reportStatus) w

theorem numbers_handleResume (p : Control) : Numbers (handleResume env config p) := by
  refine .get_bind fun w => Steps.onlyIf (.bind (numbers_modify fun _ => by rfl) fun _ => .bind (.get_bind fun v => ?_)
    fun _ => numbers_reportStatus) w
  refine Steps.onlyIf ((numbers_ask _).bind fun seeked => .onlyIf (numbers_modify fun u => ?_)) v
  exact numbers_invalidate .resume ({ u with lastPlaybackPtsUs := u.currentPlaybackPtsUs }.reanchor u.currentPlaybackPtsUs)

theorem numbers_handleStop (p : Control) : Numbers (handleStop env config p) := by
  refine .get_bind fun w => Steps.ite (.pure _) ?_ w
  refine .bind (.onlyIf (numbers_finishTail _ (.pure ()))) fun _ => (numbers_drainIf _).bind fun drained => .ite (.pure _) ?_
  refine .bind (numbers_modify fun v => by exact numbering_record v rfl) fun _ => numbers_loadRunning.bind fun running => ?_
  exact .bind (.onlyIf (numbers_orFatal (numbers_sendStatus _ _ _))) fun _ => .pure _

theorem numbers_handleTranslateCtrl (p : TranslateCtrl) : Numbers (handleTranslateCtrl p) :=
  .get_bind fun w => Steps.onlyIf (numbers_modify fun v => by exact numbering_record v rfl) w

theorem numbers_refuseDownload (sessionId : SessionId) (modelId : Bytes) :
    Numbers (refuseDownload env sessionId modelId) :=
  numbers_orFatal (numbers_sendModelProgress _ _)

theorem numbers_isDownloading : Numbers (isDownloading env) :=
  .get_bind fun w => Steps.ite ((numbers_ask _).bind fun _ => .pure _) (.pure _) w

theorem numbers_handleModelCtrl (p : ModelCtrl) : Numbers (handleModelCtrl env config p) := by
  refine .get_bind fun w => Steps.ite (.ite (numbers_refuseDownload _ _) ?_) (.onlyIf ?_) w
  · refine numbers_isDownloading.bind fun active => .ite (numbers_refuseDownload _ _) ?_
    refine .bind (.onlyIf (numbers_modify fun _ => by rfl)) fun _ => (numbers_call .download _).bind fun started => ?_
    exact .bind (numbers_modify fun _ => by rfl) fun _ => .onlyIf (numbers_refuseDownload _ _)
  · exact numbers_orFatal (numbers_sendModelProgress _ _)

theorem numbers_handleShutdown : Numbers (handleShutdown env config) := by
  refine .get_bind fun w => Steps.bind (.onlyIf (numbers_finishTail _ numbers_reportStatus)) (fun _ => ?_) w
  refine (numbers_drainIf _).bind fun drained => .ite (.pure _) (.bind (numbers_modify fun _ => by rfl) fun _ => ?_)
  exact (numbers_stopRunning false).bind fun _ => .pure _

theorem numbers_dispatch {w : WorkerState} (hauth : w.authenticated = true) (p : Payload) :
    StepsAt WorkerState.numbering Numbering.Step w (dispatch env config p) := by
  refine .get_bind ?_
  rw [if_neg (by rw [hauth]; exact Bool.false_ne_true)]
  split
  · exact (numbers_handleStart _).bind (fun _ => .pure _) w
  · exact (numbers_handlePosition _).bind (fun _ => .pure _) w
  · exact (numbers_handleAudio _).bind (fun _ => .pure _) w
  · exact (numbers_handlePause _).bind (fun _ => .pure _) w
  · exact (numbers_handleResume _).bind (fun _ => .pure _) w
  · exact numbers_handleStop _ w
  · exact (numbers_handleTranslateCtrl _).bind (fun _ => .pure _) w
  · exact (numbers_handleModelCtrl _).bind (fun _ => .pure _) w
  · exact numbers_handleShutdown w
  · exact .refl

theorem numbers_rejectFrame (p : Option Payload) : Numbers (rejectFrame env p) := by
  have hleave : Numbers (do setFatalExit; pure Flow.leave) := numbers_setFatalExit.bind fun _ => .pure _
  refine .get_bind fun w => ?_
  split
  · exact Steps.ite ((numbers_sendError _ _ _ _).bind fun sent => .ite (.pure _) hleave) hleave w
  · exact hleave w

theorem numbers_handleFrame {w : WorkerState} (hauth : w.authenticated = true) (f : Frame) :
    StepsAt WorkerState.numbering Numbering.Step w (handleFrame env config f) := by
  rw [handleFrame_eq]
  split
  · exact numbers_dispatch hauth _
  · exact numbers_rejectFrame _ w

/-! ## Rounds -/

theorem numbers_pollModelDownload : Numbers (pollModelDownload env) := by
  refine .get_bind fun w => Steps.onlyIf ((numbers_ask _).bind fun polled => ?_) w
  cases polled with
  | none => exact .pure _
  | some p =>
    refine (numbers_ask _).bind fun nowUs => .bind (.onlyIf ?_) fun _ => .onlyIf (numbers_modify fun _ => by rfl)
    exact (numbers_orFatal (numbers_sendModelProgress _ _)).bind fun _ => numbers_modify fun _ => by rfl

theorem numbers_chunkRound : Numbers (chunkRound env config) := by
  refine .get_bind fun w => Steps.ite (.pure _) ?_ w
  generalize w.audioBuf.getSamples _ = samples
  refine (numbers_detect _ _).bind fun speech => ?_
  split
  · exact .pure _
  refine .ite ((numbers_drainAudio _).bind fun _ => .pure _) (.ite ?_ (.pure _))
  refine .bind (.get_bind fun v => Steps.ite (numbers_transcribeWindow _ _ _) (.pure _) v) fun transcribed => .ite ?_ ?_
  · exact (numbers_sendError _ _ _ _).bind fun _ => (numbers_stopRunning true).bind fun _ => .pure _
  · refine numbers_loadRunning.bind fun running => .ite (.pure _) ?_
    exact (numbers_drainAudio _).bind fun _ => numbers_reportStatus.bind fun _ => .pure _

theorem numbers_lookahead : Numbers (lookahead env config) := by
  refine .get_bind fun w => Steps.ite (.pure _) ((numbers_call .readSource _).bind fun read => ?_) w
  cases read with
  | ok samples ptsUs =>
    refine .ite (.bind (numbers_modify fun _ => by rfl) fun _ => .get_bind fun v => ?_) (.pure _)
    exact Steps.bind (.loop numbers_chunkRound _) (fun _ => .pure _) v
  | again => exact .pure _
  | eof =>
    refine .bind (numbers_modify fun _ => by rfl) fun _ => numbers_flushAudioTail.bind fun flushed => .ite ?_ ?_
    · exact (numbers_sendError _ _ _ _).bind fun _ => (numbers_stopRunning true).bind fun _ => .pure _
    · exact numbers_reportStatus.bind fun _ => .pure _
  | error =>
    refine (numbers_refuse _ _ _ _).bind fun _ => .bind (numbers_modify fun v => ?_) fun _ => .pure _
    exact numbering_record v rfl

theorem numbers_finish (flow : Flow) : Numbers (finish flow) := by
  cases flow with
  | leave => exact (numbers_stopRunning false).bind fun _ => numbers_modify fun _ => rfl
  | hang => exact numbers_modify fun _ => rfl
  | proceed => exact .pure _
  | again => exact .pure _

theorem numbers_afterFrame (flow : Flow) : Numbers (afterFrame env config flow) := by
  refine .bind (.ite (numbers_deliverResults.bind fun _ => numbers_pollModelDownload.bind fun _ => ?_) (.pure _)) numbers_finish
  refine numbers_lookahead.bind fun flow => .ite ?_ (.pure _)
  exact numbers_emitSegments.bind fun _ => numbers_deliverResults.bind fun _ => .pure _

theorem authenticated_awake (frame : Option Frame) (w : WorkerState) :
    Ends (awake env frame) w fun _ v => v.authenticated = w.authenticated := by
  cases frame <;> exact rfl

theorem numbers_awake (frame : Option Frame) : Numbers (awake env frame) := by
  cases frame with
  | some f => exact .pure _
  | none => exact numbers_runThreads.bind fun _ => .get_bind fun _ => .refl

/-- **A round of an authenticated worker.** -/
theorem numbers_wake {w : WorkerState} (hauth : w.authenticated = true) (frame : Option Frame) :
    StepsAt WorkerState.numbering Numbering.Step w (wake env config frame) := by
  refine .get_bind (Ends.onlyIf (fun _ => ?_) fun _ => .refl)
  have hawake := @authenticated_awake env frame w
  refine StepsAt.bind (numbers_awake frame w) (StepsAt.bind (numbers_loadRunning _) ?_)
  have hload := (@spares_loadRunning env).eq ((awake env frame).run w).2
  have hauth' : ((loadRunning env).run ((awake env frame).run w).2).2.authenticated = true := by
    have hkept := congrArg WorkerState.authenticated hload
    exact hkept.trans (hawake.trans hauth)
  generalize ((loadRunning env).run ((awake env frame).run w).2).2 = v at hauth' ⊢
  refine Ends.ite (fun _ => numbers_modify (fun _ => by rfl) v) fun _ => Ends.onlyIf (fun _ => ?_) fun _ => .refl
  have hnext : StepsAt WorkerState.numbering Numbering.Step v (handleNext env config frame) := by
    cases frame with
    | none => exact .refl
    | some f => exact numbers_handleFrame hauth' f
  have hafter : StepsAt WorkerState.numbering Numbering.Step ((handleNext env config frame).run v).2
      (afterFrame env config ((handleNext env config frame).run v).1) := numbers_afterFrame _ _
  exact ReflTransGen.trans hnext hafter

end VlcWhisper.Worker
