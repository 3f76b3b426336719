import VlcWhisper.Plugin.MeteredSender

/-!
# The account of the cues (`vw_benchmark.c`, `vw_plugin_close`)

The close path drains the worker after the sender thread has ended: STOP, SHUTDOWN, and frames until the transport
closes. Its cues are counted like those of the loop, but one of another session is passed over.

Main result: `balanced_accounts`. After every frame, of the loop or of the drain, each cue that was received is sent or
filtered, each filtered one has its cause, and each translation has succeeded or failed.
-/

namespace VlcWhisper.Plugin

open VlcWhisper.Lib VlcWhisper.Protocol

/-! ## The close path -/

/-- What a round of the drain meets. -/
structure DrainRound where
  nowUs : Int64
  segmentUs : Int64
  minMediaFloorUs : Int64

/-- What `vw_plugin_close` meets: the audio that is still queued, the time when the drain starts, its rounds, and the
report. -/
structure Closing where
  chunks : List AudioChunk
  audioUs : List Int64
  startedUs : Int64
  rounds : List DrainRound
  minMediaFloorUs : Int64
  reportWritten : Bool
  closedUs : Int64

namespace Metered

/-- `vw_worker_client_shutdown`. -/
def shutdown : SenderM Unit :=
  modify fun s => { s with client := s.client.map fun c => (Conn.shutdown.run c).2 }

/-- `vw_plugin_drain_close_audio`. -/
def drainCloseAudio : List AudioChunk → List Int64 → MeteredM Unit
  | [], _ => pure ()
  | chunk :: chunks, audioUs => do
    if ← unseen (Sender.perform (.sendAudio chunk)) then do
      tell (·.recordAudio chunk.startPtsUs chunk.durationUs (audioUs.headD 0))
      drainCloseAudio chunks audioUs.tail
    else pure ()

/-- `vw_close_join`, once the thread has ended. -/
def closeJoin (c : Closing) : MeteredM Unit := do
  let s ← unseen get
  onlyIf (s.client.any (·.client.sessionActive) && !s.workerSourceActive) (drainCloseAudio c.chunks c.audioUs)

/-- A frame of the drain has come: whether it is a cue that the presenter has taken. -/
def onDrained (d : DrainRound) (sourceActive : Bool) (p : Payload) : MeteredM Bool := do
  let s ← unseen get
  match p with
  | .status status => do
    tell (·.updateStatus status)
    pure false
  | .captionSegment segment =>
    if s.client.map (·.client.sessionId) ≠ some segment.sessionId then pure false
    else do
      tell (·.recordReceived segment d.segmentUs sourceActive)
      unseen (Sender.record (.handed segment))
      unseen (Sender.present (·.showSegment d.minMediaFloorUs segment (-1) false))
      tell (·.recordPresented segment.text.data.isSome d.segmentUs)
      pure segment.text.data.isSome
  | _ => pure false

/-- The loop of `vw_plugin_stop_session_scoped`. -/
def drain (deadlineUs : Int64) (sourceActive : Bool) : Bool → List DrainRound → MeteredM Bool
  | receivedTail, [] => pure receivedTail
  | receivedTail, d :: ds =>
    if d.nowUs < 0 || deadlineUs ≤ d.nowUs then pure receivedTail
    else do
      let remainingUs := deadlineUs - d.nowUs
      match ← unseen (Sender.receiveFrame (if remainingUs < 250000 then remainingUs.toUInt64.toUInt32 else 250000)) with
      | (.fatal, _) => pure receivedTail
      | (.ok, some p) => do
        tell (·.recordTranslationError p)
        tell (·.recordFrame)
        let shown ← onDrained d sourceActive p
        drain deadlineUs sourceActive (receivedTail || shown) ds
      | _ => drain deadlineUs sourceActive receivedTail ds

/-- `vw_plugin_stop_session_scoped`, up to the end of its loop. -/
def stopSessionScoped (c : Closing) : MeteredM Bool := do
  let s ← unseen get
  let _ ← unseen (Sender.perform (.stopSession ctrlReasonMediaEnd))
  unseen shutdown
  if c.startedUs < 0 then pure false
  else drain (c.startedUs + 120000000) s.workerSourceActive false c.rounds

/-- The close path up to its last frame. -/
def closeFrames (c : Closing) : MeteredM Bool := do
  closeJoin c
  unseen Sender.blank
  let s ← unseen get
  if s.client.isSome && !s.workerDead then stopSessionScoped c else pure false

/-- `vw_plugin_close`: a dead worker is only told to shut down. -/
def close (c : Closing) : MeteredM Unit := do
  let receivedTail ← closeFrames c
  unseen do
    onlyIf receivedTail (Sender.present (·.flush c.minMediaFloorUs (-1) false))
    let s ← get
    onlyIf s.workerDead shutdown
    modify fun s => { s with client := none }
  tell (·.finalize c.reportWritten c.closedUs)

end Metered

/-! ## Balances -/

/-- What the counts of cues and of translations say of each other. -/
structure Balanced (b : BenchmarkTotals) : Prop where
  cues : b.captionsReceived + b.captionsStale = b.captionsSent + b.captionsFiltered
  filtered : b.captionsFiltered = b.captionsPaused + b.captionsStale + b.captionsPresenterRejected
  translations : b.translationRequestsSent = b.translationSuccessCount + b.translationFailureCount

/-- A cue was received, and is not yet sent or filtered. -/
structure Owing (b : BenchmarkTotals) : Prop where
  cues : b.captionsReceived + b.captionsStale = b.captionsSent + b.captionsFiltered + if b.active then 1 else 0
  filtered : b.captionsFiltered = b.captionsPaused + b.captionsStale + b.captionsPresenterRejected
  translations : b.translationRequestsSent = b.translationSuccessCount + b.translationFailureCount

namespace BenchmarkTotals

variable {b b' : BenchmarkTotals}

/-- The counts that are balanced. -/
def counts (b : BenchmarkTotals) : List UInt64 :=
  [b.captionsReceived, b.captionsStale, b.captionsSent, b.captionsFiltered, b.captionsPaused,
    b.captionsPresenterRejected, b.translationRequestsSent, b.translationSuccessCount, b.translationFailureCount]

theorem balanced_of_counts (h : b'.counts = b.counts) (hb : Balanced b) : Balanced b' := by
  simp only [counts, List.cons.injEq, and_true] at h
  obtain ⟨hreceived, hstale, hsent, hfiltered, hpaused, hrejected, hrequests, hsuccess, hfailure⟩ := h
  constructor
  · rw [hreceived, hstale, hsent, hfiltered, hb.cues]
  · rw [hfiltered, hpaused, hstale, hrejected, hb.filtered]
  · rw [hrequests, hsuccess, hfailure, hb.translations]

theorem balanced_zero : Balanced zero := ⟨rfl, rfl, rfl⟩

theorem begin_balanced (modelId backend : CString) (reading : BeginReading) (hb : Balanced b) :
    Balanced (b.begin modelId backend reading) := by
  unfold begin Benchmark.begin
  split
  · exact hb
  split
  · exact ⟨rfl, rfl, rfl⟩
  · exact balanced_zero

theorem beginIfInactive_balanced (modelId backend : CString) (reading : BeginReading) (hb : Balanced b) :
    Balanced (b.beginIfInactive modelId backend reading) := by
  unfold beginIfInactive
  split
  · exact hb
  · exact begin_balanced _ _ _ hb

theorem recordAudio_balanced (startPtsUs durationUs nowUs : Int64) (hb : Balanced b) :
    Balanced (b.recordAudio startPtsUs durationUs nowUs) := by
  refine balanced_of_counts ?_ hb
  unfold recordAudio Benchmark.recordAudio
  dsimp only
  split_ifs <;> rfl

theorem resetLiveClock_balanced (hb : Balanced b) : Balanced b.resetLiveClock := ⟨hb.cues, hb.filtered, hb.translations⟩

theorem recordFrame_balanced (hb : Balanced b) : Balanced b.recordFrame := by
  refine balanced_of_counts ?_ hb
  unfold recordFrame
  split <;> rfl

theorem recordTranslationError_balanced (p : Payload) (hb : Balanced b) : Balanced (b.recordTranslationError p) := by
  refine balanced_of_counts ?_ hb
  unfold recordTranslationError recordTranslationFailure
  split
  · split_ifs <;> rfl
  · rfl

theorem updateStatus_balanced (status : Status) (hb : Balanced b) : Balanced (b.updateStatus status) := by
  refine balanced_of_counts ?_ hb
  unfold updateStatus
  split <;> rfl

theorem flushIfDue_balanced (written : Bool) (nowUs : Int64) (hb : Balanced b) :
    Balanced (b.flushIfDue written nowUs) := by
  refine balanced_of_counts ?_ hb
  unfold flushIfDue
  split_ifs <;> rfl

theorem finalize_balanced (written : Bool) (nowUs : Int64) (hb : Balanced b) : Balanced (b.finalize written nowUs) := by
  refine balanced_of_counts ?_ hb
  unfold finalize
  split <;> rfl

/-! ### A cue -/

theorem recordCaptionReceived_owing (segment : CaptionSegment) (nowUs : Int64) (sourceMode : Bool) (hb : Balanced b) :
    Owing (b.recordCaptionReceived segment nowUs sourceMode) := by
  refine ⟨?_, hb.filtered, hb.translations⟩
  show (b.toBenchmark.recordCaptionReceived segment nowUs sourceMode).captionsReceived + b.captionsStale =
    b.captionsSent + b.captionsFiltered +
      if (b.toBenchmark.recordCaptionReceived segment nowUs sourceMode).active then 1 else 0
  have hreceived := congrArg Prod.snd (Benchmark.recordCaptionReceived_cueCount segment nowUs sourceMode b.toBenchmark)
  change (b.toBenchmark.recordCaptionReceived segment nowUs sourceMode).captionsReceived =
    b.captionsReceived + (if b.active then 1 else 0) at hreceived
  rw [hreceived, Benchmark.recordCaptionReceived_active, ← hb.cues]
  ac_rfl

theorem recordTranslation_owing (tier : UInt8) (latencyUs : UInt32) (success : Bool) (hb : Owing b) :
    Owing (b.recordTranslation tier latencyUs success) := by
  obtain ⟨hcues, hfiltered, htranslations⟩ := hb
  unfold recordTranslation countTranslation
  split
  · exact ⟨hcues, hfiltered, htranslations⟩
  cases success with
  | false =>
    refine ⟨hcues, hfiltered, ?_⟩
    show b.translationRequestsSent + 1 = b.translationSuccessCount + (b.translationFailureCount + 1)
    rw [htranslations, UInt64.add_assoc]
  | true =>
    have hsuccess : b.translationRequestsSent + 1 = b.translationSuccessCount + 1 + b.translationFailureCount := by
      rw [htranslations]
      ac_rfl
    simp only [Bool.not_true, Bool.false_eq_true, if_false]
    split_ifs <;> exact ⟨hcues, hfiltered, hsuccess⟩

theorem recordReceived_owing (segment : CaptionSegment) (nowUs : Int64) (sourceMode : Bool) (hb : Balanced b) :
    Owing (b.recordReceived segment nowUs sourceMode) := by
  have howing := recordCaptionReceived_owing segment nowUs sourceMode hb
  unfold recordReceived
  dsimp only
  split
  · exact recordTranslation_owing _ _ _ howing
  · exact howing

theorem recordCaptionSent_balanced (nowUs : Int64) (hb : Owing b) : Balanced (b.recordCaptionSent nowUs) := by
  obtain ⟨hcues, hfiltered, htranslations⟩ := hb
  unfold recordCaptionSent
  cases hactive : b.active with
  | false =>
    rw [hactive] at hcues
    exact ⟨hcues.trans (UInt64.add_zero _), hfiltered, htranslations⟩
  | true =>
    rw [hactive] at hcues
    have hsent : b.captionsReceived + b.captionsStale = b.captionsSent + 1 + b.captionsFiltered := by
      rw [hcues, if_pos rfl]
      ac_rfl
    simp only [Bool.not_true, Bool.false_eq_true, if_false]
    split_ifs <;> exact ⟨hsent, hfiltered, htranslations⟩

theorem recordCaptionFiltered_balanced {paused presenterRejected : Bool} (hcause : paused = !presenterRejected)
    (hb : Owing b) : Balanced (b.recordCaptionFiltered paused false presenterRejected) := by
  obtain ⟨hcues, hfiltered, htranslations⟩ := hb
  unfold recordCaptionFiltered
  cases hactive : b.active with
  | false =>
    rw [hactive] at hcues
    exact ⟨hcues.trans (UInt64.add_zero _), hfiltered, htranslations⟩
  | true =>
    rw [hactive] at hcues
    refine ⟨hcues.trans (UInt64.add_assoc ..), ?_, htranslations⟩
    subst hcause
    show b.captionsFiltered + 1 = _
    rw [hfiltered]
    cases presenterRejected
    · show _ = b.captionsPaused + 1 + b.captionsStale + b.captionsPresenterRejected
      ac_rfl
    · show _ = b.captionsPaused + b.captionsStale + (b.captionsPresenterRejected + 1)
      ac_rfl

theorem recordPresented_balanced (shown : Bool) (nowUs : Int64) (hb : Owing b) :
    Balanced (b.recordPresented shown nowUs) := by
  unfold recordPresented
  split
  · exact recordCaptionSent_balanced nowUs hb
  · exact recordCaptionFiltered_balanced rfl hb

theorem recordCaptionFiltered_stale_balanced (hb : Balanced b) :
    Balanced (b.recordCaptionFiltered false true false) := by
  obtain ⟨hcues, hfiltered, htranslations⟩ := hb
  unfold recordCaptionFiltered
  split
  · exact ⟨hcues, hfiltered, htranslations⟩
  · refine ⟨?_, ?_, htranslations⟩
    · show b.captionsReceived + (b.captionsStale + 1) = b.captionsSent + (b.captionsFiltered + 1)
      rw [← UInt64.add_assoc, hcues, UInt64.add_assoc]
    · show b.captionsFiltered + 1 = b.captionsPaused + (b.captionsStale + 1) + b.captionsPresenterRejected
      rw [hfiltered]
      ac_rfl

end BenchmarkTotals

/-! ## The loop -/

namespace Metered

open BenchmarkTotals

theorem respawning_passes (m : SenderM Bool) (reading : BeginReading) :
    Passes Balanced Balanced (respawning m reading) := by
  refine .unseen_bind fun respawned => .unseen_bind fun s => (Passes.tell fun b hb => ?_).bind fun _ => .pure _
  split
  · exact beginIfInactive_balanced _ _ _ hb
  · exact hb

theorem respawnForConfig_passes (t : MeteredRound) : Passes Balanced Balanced (respawnForConfig t) := by
  refine .unseen_bind fun s => .onlyIf (.unseen_bind fun _ => .unseen_bind fun s => ?_)
  exact (respawning_passes _ _).bind fun _ => .unseen _

theorem compareSnapshot_passes (t : MeteredRound) : Passes Balanced Balanced (compareSnapshot t) :=
  .unseen_bind fun _ => .unseen_bind fun _ => .unseen_bind fun _ => .onlyIf (respawnForConfig_passes t)

theorem pollConfig_passes (t : MeteredRound) : Passes Balanced Balanced (pollConfig t) := by
  refine .unseen_bind fun s => .ite (.unseen _) (.ite ?_ (.pure ()))
  exact .unseen_bind fun _ => .onlyIf (compareSnapshot_passes t)

theorem detectMediaSwap_passes (input : Option Input) : Passes Balanced Balanced (detectMediaSwap input) := by
  refine .unseen_bind fun s => ?_
  cases input.bind (·.uri) with
  | none => exact .pure ()
  | some uri => exact .onlyIf ((Passes.tell fun b hb => resetLiveClock_balanced hb).bind fun _ => .unseen _)

theorem pollInput_passes (t : MeteredRound) : Passes Balanced Balanced (pollInput t) := by
  refine .unseen_bind fun s => .ite ?_ (.pure _)
  refine .unseen_bind fun _ => (detectMediaSwap_passes _).bind fun _ => .unseen_bind fun s => .unseen_bind fun _ => ?_
  exact .ite (.unseen_bind fun _ => .unseen_bind fun _ => .pure _) (.pure none)

theorem followSeek_passes (t : MeteredRound) : Passes Balanced Balanced (followSeek t) := by
  refine .unseen_bind fun s => (Passes.tell fun b hb => ?_).bind fun _ => .unseen _
  split
  · exact resetLiveClock_balanced hb
  · exact hb

theorem sendBurst_passes (forwards sentAny : Bool) (chunks : List AudioChunk) (audioUs : List Int64) :
    Passes Balanced Balanced (sendBurst forwards sentAny chunks audioUs) := by
  induction chunks generalizing sentAny audioUs with
  | nil => exact .pure sentAny
  | cons chunk chunks ih =>
    refine .ite (.unseen_bind fun sent => .ite ?_ ?_) (ih sentAny audioUs)
    · exact (Passes.tell fun b hb => recordAudio_balanced _ _ _ hb).bind fun _ => ih true audioUs.tail
    · exact .unseen_bind fun _ => .pure sentAny

theorem onSegment_passes (t : MeteredRound) (isSourceMode : Bool) (segment : CaptionSegment) :
    Passes Balanced Balanced (onSegment t isSourceMode segment) := by
  have hstale : Passes Balanced Balanced
      (tell (σ := Sender) fun b : BenchmarkTotals => b.recordCaptionFiltered false true false) :=
    .tell fun b hb => recordCaptionFiltered_stale_balanced hb
  refine .unseen_bind fun s => .ite hstale (.ite hstale ?_)
  refine (Passes.tell fun b hb => recordReceived_owing _ _ _ hb).bind fun _ => .ite ?_ (.ite ?_ ?_)
  · exact .unseen_bind fun _ => .unseen_bind fun _ => .tell fun b hb => recordPresented_balanced _ _ hb
  · exact .unseen_bind fun _ => .unseen_bind fun _ => .unseen_bind fun _ =>
      .tell fun b hb => recordPresented_balanced _ _ hb
  · exact .tell fun b hb => recordCaptionFiltered_balanced rfl hb

theorem onModelProgress_passes (t : MeteredRound) (progress : ModelProgress) :
    Passes Balanced Balanced (onModelProgress t progress) := by
  refine .unseen_bind fun _ => .unseen_bind fun s => .onlyIf (.unseen_bind fun _ => ?_)
  exact (respawning_passes _ _).bind fun _ => .pure ()

theorem onPayload_passes (t : MeteredRound) (isSourceMode : Bool) (p : Payload) :
    Passes Balanced Balanced (onPayload t isSourceMode p) := by
  cases p with
  | captionSegment segment => exact onSegment_passes t isSourceMode segment
  | status status => exact .tell fun b hb => updateStatus_balanced status hb
  | modelProgress progress => exact onModelProgress_passes t progress
  | error err => exact .unseen _
  | _ => exact .pure ()

theorem tell_frame_bind {α : Type} {p : Payload} {m : MeteredM α} (h : Passes Balanced Balanced m) :
    Passes Balanced Balanced (tell (·.recordTranslationError p) >>= fun _ => tell (·.recordFrame) >>= fun _ => m) := by
  refine (Passes.tell fun b hb => recordTranslationError_balanced p hb).bind fun _ => ?_
  exact (Passes.tell fun b hb => recordFrame_balanced hb).bind fun _ => h

theorem takeFrame_passes (t : MeteredRound) (isSourceMode sentAny : Bool) :
    Passes Balanced Balanced (takeFrame t isSourceMode sentAny) := by
  refine .unseen_bind fun r => ?_
  obtain ⟨code, p⟩ := r
  cases code with
  | fatal => exact .unseen_bind fun _ => .unseen_bind fun _ => .pure false
  | timeout => exact .pure true
  | ok =>
    cases p with
    | none => exact .pure true
    | some p => exact tell_frame_bind ((onPayload_passes t isSourceMode p).bind fun _ => .pure true)

theorem serve_passes (t : MeteredRound) : Passes Balanced Balanced (serve t) := by
  refine .unseen_bind fun s => (sendBurst_passes _ _ _ _).bind fun sentAny => .unseen_bind fun s => ?_
  refine .ite (.pure ()) ((takeFrame_passes _ _ _).bind fun taken => .ite ?_ (.pure ()))
  exact .unseen_bind fun _ => .tell fun b hb => flushIfDue_balanced _ _ hb

theorem idle_passes (t : MeteredRound) : Passes Balanced Balanced (idle t) :=
  .unseen_bind fun _ => .onlyIf (.unseen_bind fun _ => (respawning_passes _ _).bind fun _ => .pure ())

theorem attend_passes (t : MeteredRound) : Passes Balanced Balanced (attend t) := by
  refine (pollInput_passes t).bind fun polled => ?_
  cases polled with
  | none => exact .pure ()
  | some p => exact .unseen_bind fun _ => (followSeek_passes t).bind fun _ => serve_passes t

theorem recover_passes (t : MeteredRound) : Passes Balanced Balanced (recover t) := by
  refine (respawning_passes _ _).bind fun recovered => (Passes.tell fun b hb => ?_).bind fun _ => .pure _
  split
  · exact resetLiveClock_balanced hb
  · exact hb

theorem round_passes (t : MeteredRound) : Passes Balanced Balanced (round t) := by
  refine (pollConfig_passes t).bind fun _ => .unseen_bind fun s => .ite (recover_passes t) (.ite ?_ ?_)
  · exact (idle_passes t).bind fun _ => .pure true
  · exact (attend_passes t).bind fun _ => .pure true

theorem step_balanced {s : Sender × BenchmarkTotals} (t : MeteredRound) (hs : Balanced s.2) :
    Balanced (step s t).2 := by
  unfold step
  split
  · exact hs
  · exact round_passes t s hs

theorem start_balanced (launch : Launch) (modelPath : CString) (authToken : CArray authTokenBytes)
    (reading : BeginReading) : Balanced (start launch modelPath authToken reading).2 := by
  have hbegin : Passes Balanced Balanced (begin launch.uri reading) := by
    refine .unseen_bind fun _ => .unseen_bind fun s => .tell fun b hb => ?_
    split
    · exact begin_balanced _ _ _ hb
    · exact hb
  exact hbegin _ balanced_zero

theorem foldl_step_balanced {s : Sender × BenchmarkTotals} (rounds : List MeteredRound) (hs : Balanced s.2) :
    Balanced (rounds.foldl step s).2 := by
  induction rounds generalizing s with
  | nil => exact hs
  | cons t rounds ih => exact ih (step_balanced t hs)

/-! ## The close path's frames -/

theorem drainCloseAudio_passes (chunks : List AudioChunk) (audioUs : List Int64) :
    Passes Balanced Balanced (drainCloseAudio chunks audioUs) := by
  induction chunks generalizing audioUs with
  | nil => exact .pure ()
  | cons chunk chunks ih =>
    refine .unseen_bind fun sent => .ite ?_ (.pure ())
    exact (Passes.tell fun b hb => recordAudio_balanced _ _ _ hb).bind fun _ => ih audioUs.tail

theorem onDrained_passes (d : DrainRound) (sourceActive : Bool) (p : Payload) :
    Passes Balanced Balanced (onDrained d sourceActive p) := by
  refine .unseen_bind fun s => ?_
  cases p with
  | status status => exact (Passes.tell fun b hb => updateStatus_balanced status hb).bind fun _ => .pure false
  | captionSegment segment =>
    refine .ite (.pure false) ((Passes.tell fun b hb => recordReceived_owing _ _ _ hb).bind fun _ => ?_)
    refine .unseen_bind fun _ => .unseen_bind fun _ => ?_
    exact (Passes.tell fun b hb => recordPresented_balanced _ _ hb).bind fun _ => .pure _
  | _ => exact .pure false

theorem drain_passes (deadlineUs : Int64) (sourceActive receivedTail : Bool) (rounds : List DrainRound) :
    Passes Balanced Balanced (drain deadlineUs sourceActive receivedTail rounds) := by
  induction rounds generalizing receivedTail with
  | nil => exact .pure receivedTail
  | cons d rounds ih =>
    refine .ite (.pure receivedTail) (.unseen_bind fun r => ?_)
    obtain ⟨code, p⟩ := r
    cases code with
    | fatal => exact .pure receivedTail
    | timeout => exact ih receivedTail
    | ok =>
      cases p with
      | none => exact ih receivedTail
      | some p => exact tell_frame_bind ((onDrained_passes d sourceActive p).bind fun shown => ih _)

theorem closeFrames_passes (c : Closing) : Passes Balanced Balanced (closeFrames c) := by
  have hjoin : Passes Balanced Balanced (closeJoin c) := .unseen_bind fun _ => .onlyIf (drainCloseAudio_passes _ _)
  have hstop : Passes Balanced Balanced (stopSessionScoped c) :=
    .unseen_bind fun _ => .unseen_bind fun _ => .unseen_bind fun _ => .ite (.pure false) (drain_passes _ _ _ _)
  exact hjoin.bind fun _ => .unseen_bind fun _ => .unseen_bind fun _ => .ite hstop (.pure false)

theorem close_passes (c : Closing) : Passes Balanced Balanced (close c) := by
  refine (closeFrames_passes c).bind fun receivedTail => .unseen_bind fun _ => ?_
  exact .tell fun b hb => finalize_balanced _ _ hb

/-- **The accounts are balanced after any rounds of the loop, then after any frames of the drain, and at the end.** -/
theorem balanced_accounts (launch : Launch) (modelPath : CString) (authToken : CArray authTokenBytes)
    (reading : BeginReading) (rounds : List MeteredRound) (c : Closing) :
    Balanced (rounds.foldl step (start launch modelPath authToken reading)).2 ∧
      Balanced ((closeFrames c).run (rounds.foldl step (start launch modelPath authToken reading))).2.2 ∧
      Balanced ((close c).run (rounds.foldl step (start launch modelPath authToken reading))).2.2 := by
  have hloop := foldl_step_balanced rounds (start_balanced launch modelPath authToken reading)
  exact ⟨hloop, closeFrames_passes c _ hloop, close_passes c _ hloop⟩

end Metered

end VlcWhisper.Plugin
