import VlcWhisper.Worker.Numbering
import VlcWhisper.Worker.ReaderStream
import VlcWhisper.Worker.Rested

/-!
# Sequence numbers (`vw_worker.c`)

The frames that come in and the frames that go out are numbered. Main results:

* `increasing_of_few`: as long as the worker has begun fewer than 2^64 - 1 frames, the numbers of those it sent
  increase, HELLO_ACK's being the first.
* `sequenceNumbers`: together with what the reader thread makes of the numbers of the frames that come in.
* `not_alwaysIncreasing`: the number after 2^64 - 1 is 0.
-/

namespace VlcWhisper.Worker

open VlcWhisper.Lib VlcWhisper.Protocol Relation

variable {env : Env} {config : Config}

/-! ## The first frames -/

theorem counted_first {s : Numbering} (hsequence : s.sequence = 1) (hsent : s.sent = [] ∨ s.sent = [1]) : s.Counted := by
  rcases hsent with hsent | hsent
  · refine ⟨[], hsent, List.Pairwise.nil, fun n hn => absurd hn List.not_mem_nil, .inr ⟨1, hsequence, ?_, ?_⟩⟩
    · exact Nat.le_add_left 1 s.begun
    · exact fun n hn => absurd hn List.not_mem_nil
  · refine ⟨[1], hsent, List.pairwise_singleton _ _, fun n hn => ?_, .inr ⟨1, hsequence, ?_, ?_⟩⟩
    · rw [List.mem_singleton.mp hn]
      exact Nat.le_add_left 1 s.begun
    · exact Nat.le_add_left 1 s.begun
    · exact fun n hn => (List.mem_singleton.mp hn).le

theorem counted_sendHelloAck {w : WorkerState} (hsequence : w.sequence = 1) (hsent : sentSequences w.trace = []) :
    Ends (sendHelloAck env) w fun _ v => v.numbering.Counted := by
  unfold sendHelloAck
  split
  · exact counted_first hsequence (.inl hsent)
  · refine (guardedIpcSend_wrote w).bind fun header t ht => ?_
    have hseq : t.sequence = 1 := ht.sequence.trans hsequence
    have hnone : sentSequences t.trace = [] := by rw [ht.trace, hsent]
    refine Ends.ite (fun _ => ?_) fun _ => counted_first hseq (.inl hnone)
    refine (guardedIpcSend_wrote t).bind fun payload u hu => ?_
    have hseq' : u.sequence = 1 := hu.sequence.trans hseq
    have hnone' : sentSequences u.trace = [] := by rw [hu.trace, hnone]
    cases payload with
    | false => exact counted_first hseq' (.inl hnone')
    | true =>
      refine counted_first hseq' (.inr ?_)
      show sentSequences (u.trace ++ [.frame 1 (.helloAck helloAck)]) = [1]
      rw [sentSequences_append, hnone']
      rfl

theorem counted_hello {w : WorkerState} (hsequence : w.sequence = 1) (hsent : sentSequences w.trace = [])
    (hauth : w.authenticated = false) {f : Frame} (hf : f.Admits config) :
    Ends (handleFrame env config f) w fun _ v => v.numbering.Counted := by
  obtain ⟨p, hp, hversion, htoken⟩ := hf
  rw [handleFrame_eq, hp]
  refine Ends.get_bind ?_
  rw [if_pos (by rw [hauth]; rfl)]
  unfold handleHello
  dsimp only
  rw [if_neg (by rw [hversion]; exact Bool.false_ne_true),
    verifyTokenConstantTime_iff.mpr (CArray.ext_bytes htoken.symm), if_neg (by decide)]
  refine Ends.modify_bind ?_
  refine (counted_sendHelloAck (w := { w with authenticated := true }) hsequence hsent).bind fun sent v hv => ?_
  cases sent <;> exact hv

/-! ## Runs -/

variable {engine translator : Bool}

theorem counted_step {w : WorkerState} {frames : List Frame} (hphase : Phase config engine translator frames w)
    (hw : w.authenticated = true → w.numbering.Counted) (r : Env × Option Frame)
    (hauth : (w.step r.1 config r.2).authenticated = true) : (w.step r.1 config r.2).numbering.Counted := by
  have hgo (hauth : w.authenticated = true) : (w.step r.1 config r.2).numbering.Counted := by
    have hsteps : ReflTransGen Numbering.Step w.numbering (w.step r.1 config r.2).numbering := numbers_wake hauth r.2
    exact steps_invariant Numbering.counted_step hsteps (hw hauth)
  cases hphase with
  | waiting hframes hwaiting =>
    cases htakes : w.takes r with
    | none =>
      rw [(waiting_step hwaiting htakes).authenticated] at hauth
      cases hauth
    | some f =>
      by_cases hf : f.Admits config
      · obtain ⟨hframe, hrunning, hfinished, hreader⟩ := takes_eq_some htakes
        obtain ⟨running, fatalExit, finished, tick, rfl⟩ := hwaiting
        rw [hframe, step_some hrunning hfinished hreader]
        have hhello := @counted_hello r.1 _ { WorkerState.start engine translator with
          running, fatalExit, finished, tick := tick + 1 } rfl rfl rfl _ hf
        refine steps_invariant Numbering.counted_step (numbers_afterFrame _ _) hhello
      · rw [(waiting_refuse hwaiting htakes hf).authenticated] at hauth
        cases hauth
  | admitted f hhead hf hadmitted => exact hgo hadmitted
  | refused f hframes hf hrefused =>
    rw [step_of_finished hrefused.finished, hrefused.authenticated] at hauth
    cases hauth

theorem counted_run (config : Config) (engine translator : Bool) (rounds : List (Env × Option Frame))
    (hauth : (roundsRun config engine translator rounds).authenticated = true) :
    (roundsRun config engine translator rounds).numbering.Counted := by
  have hstep (w : WorkerState) (r : Env × Option Frame)
      (hw : w.health.Ok ∧ (∃ frames, Phase config engine translator frames w) ∧
        (w.authenticated = true → w.numbering.Counted)) :
      (w.step r.1 config r.2).health.Ok ∧ (∃ frames, Phase config engine translator frames (w.step r.1 config r.2)) ∧
        ((w.step r.1 config r.2).authenticated = true → (w.step r.1 config r.2).numbering.Counted) := by
    obtain ⟨hok, ⟨frames, hphase⟩, hcounted⟩ := hw
    exact ⟨ok_step hok r, ⟨_, phase_step hok hphase r⟩, counted_step hphase hcounted r⟩
  have hwaiting : Waiting engine translator (.start engine translator) := ⟨true, false, false, 0, rfl⟩
  exact (run_invariant' hstep rounds ⟨hwaiting.ok, ⟨[], .waiting rfl hwaiting⟩, nofun⟩).2.2 hauth

/-- **Numbers of the frames that go out.** They increase until the counter is used up. -/
theorem increasing_of_few (config : Config) (engine translator : Bool) (rounds : List (Env × Option Frame))
    (hfew : (roundsRun config engine translator rounds).numbering.begun + 1 < 2 ^ 64) :
    (sentSequences (roundsRun config engine translator rounds).trace).Pairwise (· < ·) := by
  cases hauth : (roundsRun config engine translator rounds).authenticated with
  | true => exact (counted_run config engine translator rounds hauth).increasing hfew
  | false =>
    -- a client that is not authenticated gets one answer at most
    rcases ((authGate config engine translator rounds).gated hauth).trace with htrace | ⟨sequence, htrace⟩
    · rw [htrace]
      exact List.Pairwise.nil
    · rw [htrace]
      exact List.pairwise_singleton _ _

/-! ## The counter wraps -/

/-- A worker that refuses downloads, and has nothing else to do. -/
structure Refuses (w : WorkerState) : Prop where
  running : w.running = true
  finished : w.finished = false
  authenticated : w.authenticated = true
  transport : w.transport.failed = false
  translator : w.translator = none
  modelDl : w.modelDl = false
  pcm : w.sourceMode = false
  queued : w.builder.queue.count = 0

theorem sendPayload_quiet {w : WorkerState} (hopen : w.transport.failed = false) {bufferSize : Nat} {p : Payload}
    {buffer : Bytes} (hencodes : encodePayload p bufferSize = some buffer) :
    Ends (sendPayload .quiet bufferSize p) w fun sent v => sent = true ∧ v.unsent = w.unsent ∧ v.running = w.running ∧
      v.sequence = w.sequence + 1 ∧ v.trace = w.trace ++ [.frame (w.sequence + 1) p] := by
  have hsend (u : WorkerState) (hu : u.transport.failed = false) : Ends (guardedIpcSend .quiet) u fun sent v =>
      sent = true ∧ v = { u with tick := u.tick + 1, writes := u.writes ++ [.sent] } := by
    refine Ends.get_bind ?_
    rw [hu, Bool.and_false, if_neg Bool.false_ne_true]
    exact ⟨rfl, rfl⟩
  unfold sendPayload sendFrame
  rw [hencodes]
  refine Ends.modify_bind ((hsend { w with sequence := w.sequence + 1 } hopen).bind fun header t ht => ?_)
  obtain ⟨rfl, ht⟩ := ht
  have hopen' : t.transport.failed = false := by rw [ht, ← hopen]
  refine Ends.ite (fun _ => ?_) fun hnot => (hnot rfl).elim
  refine (hsend t hopen').bind fun payload u hu => Ends.get_bind ?_
  obtain ⟨rfl, rfl⟩ := hu
  subst ht
  exact ⟨rfl, rfl, rfl, rfl, rfl⟩

theorem refuses_step {w : WorkerState} (hw : Refuses w) :
    Refuses (w.step .quiet listener (some download)) ∧
      (w.step .quiet listener (some download)).sequence = w.sequence + 1 ∧
      sentSequences (w.step .quiet listener (some download)).trace = sentSequences w.trace ++ [w.sequence + 1] := by
  obtain ⟨ctrl, hrequest, haction⟩ : ∃ ctrl : ModelCtrl, download.request = some (.modelCtrl ctrl) ∧
      ctrl.action = modelActionDownload := ⟨_, rfl, rfl⟩
  have hrefuse (u : WorkerState) (hu : Refuses u) : Ends (handleModelCtrl .quiet listener ctrl) u fun _ v =>
      v.unsent = u.unsent ∧ v.running = u.running ∧ v.sequence = u.sequence + 1 ∧
        sentSequences v.trace = sentSequences u.trace ++ [u.sequence + 1] := by
    refine Ends.get_bind ?_
    have hencodes : ∃ buffer, encodePayload (.modelProgress ⟨if u.sessionActive then u.sessionId else ctrl.sessionId,
        modelStageFailed, 0, 0, 0, .ofStr 32 ctrl.modelId.str⟩) 66 = some buffer := by
      have hterminated : (CArray.ofStr 32 ctrl.modelId.str).Terminated := by
        refine CArray.pad_terminated ?_
        rw [List.length_take]
        omega
      obtain ⟨buffer, -, hbuffer, -⟩ := encodePayload_of_wellFormed (p := .modelProgress
        ⟨if u.sessionActive then u.sessionId else ctrl.sessionId, modelStageFailed, 0, 0, 0, .ofStr 32 ctrl.modelId.str⟩)
        hterminated (by decide : 66 ≤ 66)
      exact ⟨buffer, hbuffer⟩
    obtain ⟨buffer, hbuffer⟩ := hencodes
    have hdownload : (!modelCatalog.contains ctrl.modelId.str || !listener.dlDirReady) = true := Bool.or_true _
    dsimp only
    rw [if_pos haction, if_pos hdownload]
    refine (sendPayload_quiet hu.transport hbuffer).bind fun sent v hv => ?_
    obtain ⟨rfl, hkept, hrunning, hsequence, htrace⟩ := hv
    refine ⟨hkept, hrunning, hsequence, ?_⟩
    show sentSequences v.trace = _
    rw [htrace, sentSequences_append]
    rfl
  let t : WorkerState := { w with tick := w.tick + 1 }
  have ht : Refuses t := ⟨hw.running, hw.finished, hw.authenticated, hw.transport, hw.translator, hw.modelDl, hw.pcm, hw.queued⟩
  have hframe : Ends (handleFrame .quiet listener download) t fun flow v => flow = .proceed ∧ Refuses v ∧
      v.sequence = w.sequence + 1 ∧ sentSequences v.trace = sentSequences w.trace ++ [w.sequence + 1] := by
    rw [handleFrame_eq, hrequest]
    refine Ends.get_bind ?_
    rw [if_neg (by rw [ht.authenticated]; exact Bool.false_ne_true)]
    refine (hrefuse t ht).bind fun _ v hv => ⟨rfl, ?_, hv.2.2⟩
    obtain ⟨hkept, hrunning, -⟩ := hv
    exact ⟨hrunning.trans ht.running, (congrArg WorkerState.finished hkept).trans ht.finished,
      (congrArg WorkerState.authenticated hkept).trans ht.authenticated,
      (congrArg (fun u => u.transport.failed) hkept).trans ht.transport,
      (congrArg WorkerState.translator hkept).trans ht.translator, (congrArg WorkerState.modelDl hkept).trans ht.modelDl,
      (congrArg WorkerState.sourceMode hkept).trans ht.pcm, (congrArg (fun u => u.builder.queue.count) hkept).trans ht.queued⟩
  have hround : Ends (do let flow ← handleFrame .quiet listener download; afterFrame .quiet listener flow : Loop Unit) t
      fun _ v => Refuses v ∧ v.sequence = w.sequence + 1 ∧
        sentSequences v.trace = sentSequences w.trace ++ [w.sequence + 1] := by
    refine hframe.bind fun flow v hv => ?_
    obtain ⟨rfl, hv, hsequence, hsent⟩ := hv
    refine (afterFrame_idle hv.translator hv.modelDl hv.pcm hv.queued).mono fun _ x hx => ?_
    rw [hx]
    exact ⟨hv, hsequence, hsent⟩
  rw [step_some hw.running hw.finished rfl]
  exact hround

/-- A client that says HELLO and then asks for `n` downloads. -/
def insistent (n : Nat) : List (Env × Option Frame) := (.quiet, some hello) :: List.replicate n (.quiet, some download)

theorem sentSequences_insistent (n : Nat) :
    sentSequences (roundsRun listener false false (insistent n)).trace =
      (List.range (n + 1)).map fun i => UInt64.ofNat (i + 1) := by
  have hrun (n : Nat) : Refuses (roundsRun listener false false (insistent n)) ∧
      (roundsRun listener false false (insistent n)).sequence = UInt64.ofNat (n + 1) ∧
      sentSequences (roundsRun listener false false (insistent n)).trace =
        (List.range (n + 1)).map fun i => UInt64.ofNat (i + 1) := by
    induction n with
    | zero =>
      refine ⟨⟨?_, ?_, ?_, ?_, ?_, ?_, ?_, ?_⟩, ?_, ?_⟩ <;> decide +kernel
    | succ n ih =>
      have hsnoc : insistent (n + 1) = insistent n ++ [(.quiet, some download)] := by
        unfold insistent
        rw [List.replicate_succ', List.cons_append]
      obtain ⟨hrefuses, hsequence, hsent⟩ := ih
      obtain ⟨hrefuses', hsequence', hsent'⟩ := refuses_step hrefuses
      have hnext : UInt64.ofNat (n + 1) + 1 = UInt64.ofNat (n + 1 + 1) := by
        rw [UInt64.ofNat_add (n + 1) 1]
        rfl
      rw [roundsRun, hsnoc, run_append]
      refine ⟨hrefuses', hsequence'.trans (by rw [hsequence, hnext]), hsent'.trans ?_⟩
      rw [hsent, hsequence, hnext, List.range_succ (n := n + 1), List.map_append]
      rfl
  exact (hrun n).2.2

/-- The frame after number 2^64 - 1 has number 0. -/
theorem not_alwaysIncreasing :
    ¬ ∀ (config : Config) (engine translator : Bool) (rounds : List (Env × Option Frame)),
      (sentSequences (roundsRun config engine translator rounds).trace).Pairwise (· < ·) := by
  intro h
  have hmany (n : Nat) : UInt64.ofNat 1 < UInt64.ofNat (n + 1) ∨ n = 0 := by
    have hpairs := h listener false false (insistent n)
    rw [sentSequences_insistent, List.pairwise_map, List.pairwise_iff_getElem] at hpairs
    rcases Nat.eq_zero_or_pos n with hzero | hpos
    · exact .inr hzero
    · have hpair := hpairs 0 n (by rw [List.length_range]; omega) (by rw [List.length_range]; omega) hpos
      rw [List.getElem_range, List.getElem_range] at hpair
      exact .inl hpair
  have hwrapped := hmany 18446744073709551615
  revert hwrapped
  decide

/-! ## Both directions -/

/-- **Sequence numbers.** Of the frames that come in, in whatever pieces, those are queued that have a greater number
than the ones queued before, and the others are discarded up to their last byte; the numbers of the frames that are
sent increase, until the 64-bit counter is used up. -/
theorem sequenceNumbers :
    (∀ (running : Bool) (received : List (Bool × Protocol.Received)),
      ((run Tap.step (.start running) received).reader.pushed.map fun d => d.1.sequence).Pairwise (· < ·) ∧
        Tapped (run Tap.step (.start running) received)) ∧
      ∀ (config : Config) (engine translator : Bool) (rounds : List (Env × Option Frame)),
        (roundsRun config engine translator rounds).numbering.begun + 1 < 2 ^ 64 →
          (sentSequences (roundsRun config engine translator rounds).trace).Pairwise (· < ·) := by
  refine ⟨fun running received => ?_, increasing_of_few⟩
  have htapped := tapped_run running received
  refine ⟨?_, htapped⟩
  obtain ⟨done, rest, -, hpushed, -⟩ := htapped
  rw [hpushed, List.map_map, List.pairwise_map]
  exact (freshFrames_increasing none done).1

/-- Three frames byte by byte; the second has the number of the first. -/
def repeated : List WireFrame := [wireOf 5 greeting, wireOf 5 greeting, wireOf 6 .shutdown]

theorem sequenceNumbers_repeated :
    ((run Tap.step (.start true) ((repeated.flatMap WireFrame.bytes).map fun b => (true, .bytes [b]))).reader.pushed.map
        fun d => d.1.sequence) = [5, 6] ∧
      Tapped (run Tap.step (.start true) ((repeated.flatMap WireFrame.bytes).map fun b => (true, .bytes [b]))) ∧
      sentSequences (roundsRun listener false false (insistent 2)).trace = [1, 2, 3] ∧
      (sentSequences (roundsRun listener false false (insistent 2)).trace).Pairwise (· < ·) :=
  ⟨by decide +kernel, (sequenceNumbers.1 true _).2, by decide +kernel,
    sequenceNumbers.2 listener false false (insistent 2) (by decide +kernel)⟩

end VlcWhisper.Worker
