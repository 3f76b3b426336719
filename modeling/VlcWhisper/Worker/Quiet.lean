import VlcWhisper.Worker.Sending
import VlcWhisper.Worker.WriteFinality

/-!
# Quiet sessions (`vw_worker.c`)

A worker whose session is paused, or that has none, holds no audio and no cues, and it does not listen. Main result:
`quiet_run`. After every round of every run the audio buffer and the builder's queue are empty unless a session plays;
every read of the source and every look of the VAD or the speech model at audio happened while a session played, the
tail of an ended session included; and an active session is in source mode exactly if its decoder is open.

A handler either keeps `Quiet`, or it only runs where a session plays, and then it keeps `Playing`.
-/

namespace VlcWhisper.Worker

open VlcWhisper.Lib VlcWhisper.Protocol SegmentBuilder

variable {env : Env} {config : Config} {α : Type}

/-! ## The invariant -/

/-- The service listens: it reads the source, or it looks at audio. -/
def Service.listens : Service → Bool
  | .readSource | .vad | .whisper => true
  | .openSource | .download => false

/-- A session is active and not paused. -/
def WorkerState.plays (w : WorkerState) : Bool := w.sessionActive && !w.paused

/-- Nothing is buffered and nothing is heard unless a session plays. -/
structure Quiet (w : WorkerState) : Prop where
  buffered : w.plays = false → w.audioBuf.count = 0 ∧ w.builder.queue.count = 0
  source : w.sessionActive = true → w.sourceMode = w.sourceDecoder.isSome
  heard : ∀ c ∈ w.calls, c.service.listens = true → c.sessionActive = true ∧ c.paused = false

/-- The same while a session plays. -/
structure Playing (w : WorkerState) : Prop where
  plays : w.plays = true
  source : w.sourceMode = w.sourceDecoder.isSome
  heard : ∀ c ∈ w.calls, c.service.listens = true → c.sessionActive = true ∧ c.paused = false

theorem Playing.quiet {w : WorkerState} (hw : Playing w) : Quiet w where
  buffered := fun h => absurd hw.plays (by rw [h]; exact Bool.false_ne_true)
  source := fun _ => hw.source
  heard := hw.heard

theorem Quiet.playing {w : WorkerState} (hw : Quiet w) (hplays : w.plays = true) : Playing w where
  plays := hplays
  source := hw.source (Bool.and_eq_true_iff.mp hplays).1
  heard := hw.heard

theorem Quiet.playing_of_buffered {w : WorkerState} (hw : Quiet w)
    (h : w.audioBuf.count ≠ 0 ∨ w.builder.queue.count ≠ 0) : Playing w := by
  refine hw.playing ?_
  by_contra hplays
  have hempty := hw.buffered (Bool.eq_false_of_not_eq_true hplays)
  exact h.elim (absurd hempty.1) (absurd hempty.2)

/-! ## Sending -/

theorem quiet_untranslated (w : WorkerState) : Quiet w.untranslated ↔ Quiet w :=
  ⟨fun h => ⟨h.buffered, h.source, h.heard⟩, fun h => ⟨h.buffered, h.source, h.heard⟩⟩

theorem playing_unemitted (w : WorkerState) : Playing w.unemitted ↔ Playing w :=
  ⟨fun h => ⟨h.plays, h.source, h.heard⟩, fun h => ⟨h.plays, h.source, h.heard⟩⟩

theorem quiet_of_translated {m : Loop α} (h : Spares WorkerState.untranslated m) : Preserves Quiet m :=
  h.preserves quiet_untranslated

theorem quiet_of_sent {m : Loop α} (h : Spares WorkerState.unsent m) : Preserves Quiet m :=
  quiet_of_translated (spares_untranslated h)

theorem playing_of_emitted {m : Loop α} (h : Spares WorkerState.unemitted m) : Preserves Playing m :=
  h.preserves playing_unemitted

theorem playing_of_sent {m : Loop α} (h : Spares WorkerState.unsent m) : Preserves Playing m :=
  playing_of_emitted (spares_unemitted (spares_untranslated h))

theorem quiet_popSegment : Preserves Quiet popSegment := by
  refine .get_bind fun w hw => ?_
  split
  · exact hw
  · rename_i cue builder hpop
    -- a queue that something is popped from is not empty
    have hcount : w.builder.queue.count ≠ 0 := by
      have := count_of_pop hpop
      omega
    have hplaying := hw.playing_of_buffered (.inr hcount)
    exact Playing.quiet ⟨hplaying.plays, hplaying.source, hplaying.heard⟩

theorem quiet_emitSegments : Preserves Quiet (emitSegments env) := by
  refine .get_bind fun w hw => Preserves.bind (.loop ?_ _) (fun _ => .pure ()) w hw
  refine quiet_popSegment.bind fun popped => ?_
  cases popped with
  | none => exact .pure _
  | some cue =>
    refine Preserves.bind ?_ fun _ => .pure _
    refine (quiet_of_translated (spares_emitSegment cue false)).bind fun sent => .onlyIf ?_
    exact quiet_of_sent (spares_stopRunning true)

/-! ## Listening -/

theorem heard_call {w : WorkerState} (hw : Playing w) (service : Service) :
    ∀ c ∈ w.calls ++ [w.serviceCall service], c.service.listens = true → c.sessionActive = true ∧ c.paused = false := by
  intro c hc hlistens
  rcases List.mem_append.mp hc with hc | hc
  · exact hw.heard c hc hlistens
  · obtain rfl := List.mem_singleton.mp hc
    have hplays := hw.plays
    simpa [WorkerState.plays, WorkerState.serviceCall] using hplays

theorem playing_call (service : Service) (answer : Nat → α) : Preserves Playing (call service answer) :=
  fun _ hw => ⟨hw.plays, hw.source, heard_call hw service⟩

theorem playing_detect (window : List SessionId) (answer : Nat → α) : Preserves Playing (detect window answer) :=
  fun _ hw => ⟨hw.plays, hw.source, heard_call hw .vad⟩

theorem playing_drainAudio (samples : Nat) : Preserves Playing (drainAudio samples) :=
  .modify fun _ hw => ⟨hw.plays, hw.source, hw.heard⟩

theorem playing_transcribeWindow (window : List SessionId) (windowPtsUs : Int) (limitUs : Option Int) :
    Preserves Playing (transcribeWindow env window windowPtsUs limitUs) := by
  refine (playing_call .whisper _).bind fun segs => ?_
  cases segs with
  | none => exact .pure _
  | some segs =>
    refine (playing_of_sent (spares_ask _)).bind fun memory => .bind (.modify fun w hw => ?_) fun _ => .pure _
    exact ⟨hw.plays, hw.source, hw.heard⟩

theorem playing_flushRound : Preserves Playing (flushRound env) := by
  refine .get_bind fun w hw => ?_
  refine Preserves.ite (.pure _) ?_ w hw
  generalize w.audioBuf.getSamples chunkMaxSamples = samples
  refine (playing_detect _ _).bind fun speech => ?_
  split
  · exact .pure _
  · refine .ite (.pure _) (.ite ((playing_drainAudio _).bind fun _ => .pure _) ?_)
    refine (playing_transcribeWindow _ _ _).bind fun transcribed => .ite ?_ (.pure _)
    exact (playing_drainAudio _).bind fun _ => .pure _

theorem playing_flushAudioTail : Preserves Playing (flushAudioTail env) := by
  refine .get_bind fun w hw => Preserves.ite (.pure _) ?_ w hw
  exact Preserves.bind (.loop playing_flushRound _) fun _ => .pure _

theorem playing_inferWindow (window : List SessionId) (windowPtsUs : Int) (growing : Bool) :
    Preserves Playing (inferWindow env window windowPtsUs growing) := by
  refine .get_bind fun w hw => Preserves.ite (.pure _) ?_ w hw
  refine (playing_detect _ _).bind fun speech => .ite ?_ (.pure _)
  exact playing_transcribeWindow _ _ _

theorem playing_setNextInference (samples : Nat) :
    Preserves Playing (modify fun w => { w with liveNextInferenceSamples := samples }) :=
  .modify fun _ hw => ⟨hw.plays, hw.source, hw.heard⟩

theorem playing_inferRound : Preserves Playing (inferRound env config) := by
  refine .get_bind fun w hw => Preserves.ite (.pure _) ?_ w hw
  generalize w.audioBuf.getSamples (min w.audioBuf.count windowSamples) = samples
  obtain ⟨window, windowPtsUs⟩ := samples
  refine (playing_inferWindow window windowPtsUs _).bind fun inferred => .ite ?_ (.ite ?_ ?_)
  · refine (playing_of_sent (spares_sendError _ _ _ _)).bind fun _ => ?_
    exact (playing_of_sent (spares_stopRunning true)).bind fun _ => .pure _
  · refine (playing_setNextInference _).bind fun _ => (playing_of_sent spares_loadRunning).bind fun running => ?_
    exact Preserves.bind (.onlyIf (playing_of_sent spares_reportStatus)) fun _ => .pure _
  · refine (playing_of_sent spares_loadRunning).bind fun running => .ite (.pure _) ?_
    refine (playing_setNextInference _).bind fun _ => (playing_drainAudio _).bind fun _ => ?_
    exact (playing_of_sent spares_reportStatus).bind fun _ => .pure _

theorem playing_transcribeChunk (chunk : List SessionId) (ptsUs : Int) :
    Preserves Playing (transcribeChunk env chunk ptsUs) :=
  .get_bind fun w hw => Preserves.ite (playing_transcribeWindow _ _ _) (.pure _) w hw

theorem playing_chunkRound : Preserves Playing (chunkRound env config) := by
  refine .get_bind fun w hw => Preserves.ite (.pure _) ?_ w hw
  generalize w.audioBuf.getSamples chunkMaxSamples = samples
  refine (playing_detect _ _).bind fun speech => ?_
  split
  · exact .pure _
  · refine .ite ((playing_drainAudio _).bind fun _ => .pure _) (.ite ?_ (.pure _))
    refine (playing_transcribeChunk _ _).bind fun transcribed => .ite ?_ ?_
    · refine (playing_of_sent (spares_sendError _ _ _ _)).bind fun _ => ?_
      exact (playing_of_sent (spares_stopRunning true)).bind fun _ => .pure _
    · refine (playing_of_sent spares_loadRunning).bind fun running => .ite (.pure _) ?_
      refine (playing_drainAudio _).bind fun _ => ?_
      exact (playing_of_sent spares_reportStatus).bind fun _ => .pure _

/-! ## Frames -/

/-- What is paused or ended holds nothing, if the source is as the session says. -/
theorem quiet_of_empty {w : WorkerState} (haudio : w.audioBuf.count = 0) (hqueue : w.builder.queue.count = 0)
    (hsource : w.sessionActive = true → w.sourceMode = w.sourceDecoder.isSome)
    (hheard : ∀ c ∈ w.calls, c.service.listens = true → c.sessionActive = true ∧ c.paused = false) : Quiet w :=
  ⟨fun _ => ⟨haudio, hqueue⟩, hsource, hheard⟩

theorem quiet_clearPipeline {w : WorkerState} (hw : Quiet w) : Quiet w.clearPipeline :=
  quiet_of_empty rfl rfl hw.source hw.heard

theorem quiet_stop {send : Loop Bool} (h : Spares WorkerState.unsent send) (a : α) :
    Preserves Quiet (do let _ ← send; stopRunning true; pure a) :=
  (quiet_of_sent h).bind fun _ => (quiet_of_sent (spares_stopRunning true)).bind fun _ => .pure a

theorem quiet_call {service : Service} (hservice : service.listens = false) (answer : Nat → α) :
    Preserves Quiet (call service answer) := by
  refine fun w hw => ⟨hw.buffered, hw.source, fun c hc hlistens => ?_⟩
  rcases List.mem_append.mp hc with hc | hc
  · exact hw.heard c hc hlistens
  · obtain rfl := List.mem_singleton.mp hc
    exact absurd hservice (by rw [show service.listens = true from hlistens]; decide)

/-- Nothing is buffered, and no source is open. -/
structure Emptied (w : WorkerState) : Prop where
  audioBuf : w.audioBuf.count = 0
  queue : w.builder.queue.count = 0
  sourceDecoder : w.sourceDecoder = none
  heard : ∀ c ∈ w.calls, c.service.listens = true → c.sessionActive = true ∧ c.paused = false

theorem Emptied.quiet {w : WorkerState} (hw : Emptied w) (hmode : w.sourceMode = false) : Quiet w :=
  quiet_of_empty hw.audioBuf hw.queue (fun _ => by rw [hmode, hw.sourceDecoder]; rfl) hw.heard

theorem quiet_openSource (p : Start) {w : WorkerState} (hw : Emptied w) :
    Ends (openSource env p) w fun _ v => Quiet v := by
  refine Ends.ite (fun _ => ?_) fun _ => Emptied.quiet ⟨hw.audioBuf, hw.queue, hw.sourceDecoder, hw.heard⟩ rfl
  have hcalled : Ends (call .openSource env.openSource) w fun _ v => Emptied v := by
    refine ⟨hw.audioBuf, hw.queue, hw.sourceDecoder, fun c hc hlistens => ?_⟩
    rcases List.mem_append.mp hc with hc | hc
    · exact hw.heard c hc hlistens
    · obtain rfl := List.mem_singleton.mp hc
      cases hlistens
  refine hcalled.bind fun opened t ht => Ends.ite (fun _ => ?_) fun _ => ?_
  · have hopened : Quiet { t with sourceDecoder := some p.sessionId, sourceMode := true, sourceEof := false
                                  currentPlaybackPtsUs := p.timelineOriginPtsUs.toInt
                                  lastPlaybackPtsUs := p.timelineOriginPtsUs.toInt
                                  decodedPtsUs := p.timelineOriginPtsUs.toInt } :=
      quiet_of_empty ht.audioBuf ht.queue (fun _ => rfl) ht.heard
    refine Ends.modify_bind (Ends.bind (P := fun _ v => Quiet v) ?_ fun _ v hv => hv)
    refine Ends.onlyIf (fun _ => ?_) fun _ => hopened
    refine Ends.bind (m := ask env.seekSource) (P := fun _ u => Quiet u ∧ u.audioBuf.count = 0 ∧ u.builder.queue.count = 0)
      ⟨⟨hopened.buffered, hopened.source, hopened.heard⟩, ht.audioBuf, ht.queue⟩ fun seeked u hu => ?_
    obtain ⟨hquiet, haudio, hqueue⟩ := hu
    exact Ends.onlyIf (fun _ => quiet_of_empty haudio hqueue (fun _ => rfl) hquiet.heard) fun _ => hquiet
  · have hfailed : Quiet { t with sourceMode := false, sourceEof := false } :=
      Emptied.quiet ⟨ht.audioBuf, ht.queue, ht.sourceDecoder, ht.heard⟩ rfl
    refine Ends.modify_bind ?_
    refine (quiet_of_sent (spares_sendError _ _ _ _) _ hfailed).bind fun sent u hu => ?_
    exact (Preserves.onlyIf (quiet_of_sent (spares_stopRunning true)) u hu).bind fun _ v hv => hv

/-- A START with another id ends the session before. -/
theorem quiet_replaceSession {w : WorkerState} (hw : Quiet w) : Quiet w.replaceSession := by
  refine quiet_of_empty rfl ?_ (fun hactive => ?_) hw.heard
  · have hempty := (popAll_queue (b := w.builder) le_rfl).1
    have hlen := congrArg List.length hempty
    rwa [Ring.length_toList] at hlen
  · cases hactive

theorem emptied_beginSession (p : Start) {w : WorkerState} (hw : Quiet w) : Emptied (w.beginSession p) :=
  ⟨rfl, rfl, rfl, hw.heard⟩

theorem quiet_refuse (sessionId : SessionId) (code : UInt32) (recoverable : UInt8) (message : Bytes) :
    Preserves Quiet (orFatal (sendError env sessionId code recoverable message)) :=
  quiet_of_sent (spares_orFatal (spares_sendError _ _ _ _))

theorem quiet_handleStart (p : Start) : Preserves Quiet (handleStart env config p) := by
  refine .get_bind fun w hw => Ends.ite (fun _ => quiet_refuse _ _ _ _ w hw) fun _ => ?_
  have hreplace : Preserves Quiet (onlyIf w.sessionActive (modify WorkerState.replaceSession)) :=
    .onlyIf (.modify fun _ => quiet_replaceSession)
  refine (hreplace w hw).bind fun _ t ht => ?_
  refine Ends.ite (fun _ => quiet_refuse _ _ _ _ t ht) fun _ => ?_
  refine Ends.ite (fun _ => quiet_refuse _ _ _ _ t ht) fun _ => ?_
  refine Ends.ite (fun _ => quiet_refuse _ _ _ _ t ht) fun _ => ?_
  refine Ends.modify_bind ((quiet_openSource p (emptied_beginSession p ht)).bind fun goOn u hu => ?_)
  refine Preserves.onlyIf (.get_bind fun v hv => ?_) u hu
  refine (quiet_of_sent (spares_sendPayload _ _) v hv).bind fun started x hx => ?_
  exact Preserves.ite (quiet_of_sent spares_reportStatus) (quiet_of_sent (spares_stopRunning true)) x hx

/-- Who is paused by the position forgets its audio; who goes on was empty. -/
theorem quiet_changePause (p : Position) {w : WorkerState} (hw : Quiet w) (hchange : isPausedFlag p ≠ w.paused) :
    Ends (changePause env p) w fun _ v => Quiet v := by
  refine Ends.modify_bind (Ends.get_bind (Ends.ite (fun _ => quiet_of_empty rfl rfl hw.source hw.heard) fun hgo => ?_))
  have hpaused : w.paused = true := by
    cases h : w.paused with
    | true => rfl
    | false => exact (hchange (by rw [Bool.eq_false_of_not_eq_true hgo, h])).elim
  have hempty := hw.buffered (by rw [WorkerState.plays, hpaused, Bool.not_true, Bool.and_false])
  have hgone : Quiet { w with paused := isPausedFlag p } := quiet_of_empty hempty.1 hempty.2 hw.source hw.heard
  refine Preserves.onlyIf ((quiet_of_sent (spares_ask _)).bind fun seeked => .onlyIf (.modify fun v hv => ?_)) _ hgone
  exact quiet_of_empty rfl rfl hv.source hv.heard

theorem quiet_followPause (p : Position) : Preserves Quiet (followPause env config p) := by
  refine .get_bind fun w hw => Ends.ite (fun _ => hw) fun hchange => ?_
  refine (quiet_changePause p hw hchange).bind fun _ t ht => Ends.get_bind ?_
  refine (quiet_of_sent (spares_sendStatus _ _ _) t ht).bind fun sent u hu => ?_
  exact Preserves.bind (.onlyIf (quiet_of_sent (spares_stopRunning true))) (fun _ => .pure _) u hu

theorem quiet_seekTo (p : Position) : Preserves Quiet (seekTo env p) := by
  refine (quiet_of_sent (spares_ask _)).bind fun seeked => .ite (.modify fun w hw => ?_) (.modify fun w hw => ?_)
  · exact ⟨hw.buffered, hw.source, hw.heard⟩
  · exact quiet_of_empty rfl rfl hw.source hw.heard

theorem quiet_followSource (p : Position) : Preserves Quiet (followSource env p) := by
  refine .get_bind fun w hw => (Preserves.onlyIf (quiet_seekTo p) w hw).bind fun _ t ht => Ends.get_bind ?_
  exact Preserves.onlyIf (.modify fun u hu => ⟨hu.buffered, hu.source, hu.heard⟩) t ht

theorem quiet_handlePosition (p : Position) : Preserves Quiet (handlePosition env config p) := by
  refine .get_bind fun w hw => Preserves.onlyIf ((quiet_followPause p).bind fun goOn => .onlyIf ?_) w hw
  refine .get_bind fun t ht => Ends.ite (fun _ => quiet_followSource p t ht) fun _ => ?_
  exact ⟨ht.buffered, ht.source, ht.heard⟩

theorem quiet_handleAudio (p : Audio) : Preserves Quiet (handleAudio env config p) := by
  refine .get_bind fun w hw => Ends.onlyIf (fun hguard => ?_) fun _ => hw
  have hplays : w.plays = true := by
    simp only [Bool.and_eq_true] at hguard
    exact Bool.and_eq_true_iff.mpr hguard.1.1
  have hplaying := hw.playing hplays
  refine Ends.ite (fun _ => quiet_clearPipeline hw) fun _ => Ends.onlyIf (fun _ => ?_) fun _ => hw
  have happended : Playing (appendPcm p w) := ⟨hplaying.plays, hplaying.source, hplaying.heard⟩
  refine Ends.modify_bind (Ends.get_bind ?_)
  have hloop : Preserves Playing (loop ((appendPcm p w).audioBuf.count + 1) (inferRound env config)) :=
    .loop playing_inferRound _
  exact (hloop _ happended).bind fun _ t ht => ht.quiet

theorem quiet_handlePause (p : Control) : Preserves Quiet (handlePause env config p) := by
  refine .get_bind fun w hw => Preserves.onlyIf (.bind (.modify fun v hv => ?_) fun _ => ?_) w hw
  · exact quiet_of_empty rfl rfl hv.source hv.heard
  · exact quiet_of_sent spares_reportStatus

/-- A session that goes on was empty while it was paused. -/
theorem quiet_handleResume (p : Control) : Preserves Quiet (handleResume env config p) := by
  refine .get_bind fun w hw => Ends.onlyIf (fun _ => ?_) fun _ => hw
  have hresumed : Quiet { w with paused := false } := by
    refine ⟨fun hplays => hw.buffered ?_, hw.source, hw.heard⟩
    have hactive : w.sessionActive = false := by simpa [WorkerState.plays] using hplays
    rw [WorkerState.plays, hactive, Bool.false_and]
  refine Ends.modify_bind ?_
  have hseek : Preserves Quiet (do
      let seeked ← ask env.seekSource
      onlyIf seeked (modify fun w =>
        ({ w with lastPlaybackPtsUs := w.currentPlaybackPtsUs }.reanchor w.currentPlaybackPtsUs).invalidate .resume)) :=
    (quiet_of_sent (spares_ask _)).bind fun seeked => .onlyIf (.modify fun v hv =>
      quiet_of_empty rfl rfl hv.source hv.heard)
  exact ((Preserves.onlyIf hseek) _ hresumed).bind fun _ t ht => quiet_of_sent spares_reportStatus t ht

theorem playing_emitTailSegments : Preserves Playing (emitTailSegments env) := playing_of_emitted spares_emitTailSegments

theorem playing_finishTail (failure : Bytes) {afterwards : Loop Unit} (hafter : Preserves Playing afterwards) :
    Preserves Playing (finishTail env failure afterwards) := by
  refine playing_flushAudioTail.bind fun flushed => .ite ?_ ?_
  · refine .get_bind fun w hw => ?_
    refine (playing_of_sent (spares_sendError _ _ _ _) w hw).bind fun _ t ht => ?_
    exact playing_of_sent (spares_stopRunning true) t ht
  · refine playing_emitTailSegments.bind fun sent => .ite ?_ hafter
    exact playing_of_sent (spares_stopRunning true)

theorem quiet_finishTail {w : WorkerState} (hw : Quiet w) (failure : Bytes) {afterwards : Loop Unit}
    (hafter : Preserves Playing afterwards) {c : Bool} (hc : c = true → 0 < w.audioBuf.count) :
    Ends (onlyIf c (finishTail env failure afterwards)) w fun _ v => Quiet v := by
  refine Ends.onlyIf (fun htail => ?_) fun _ => hw
  have hplaying := hw.playing_of_buffered (.inl (Nat.ne_of_gt (hc htail)))
  exact (playing_finishTail failure hafter w hplaying).mono fun _ _ hv => hv.quiet

theorem quiet_handleStop (p : Control) : Preserves Quiet (handleStop env config p) := by
  refine .get_bind fun w hw => Ends.ite (fun _ => hw) fun _ => ?_
  refine (quiet_finishTail hw _ (.pure ()) fun htail => ?_).bind fun _ t ht => ?_
  · simp only [Bool.and_eq_true, decide_eq_true_eq] at htail
    exact htail.2
  refine (quiet_of_translated (spares_drainIf _) t ht).bind fun drained u hu => Ends.ite (fun _ => hu) fun _ => ?_
  have hended : Quiet u.endSession := quiet_of_empty rfl rfl nofun hu.heard
  refine Ends.modify_bind ((quiet_of_sent spares_loadRunning _ hended).bind fun running v hv => ?_)
  exact Preserves.bind (.onlyIf (quiet_of_sent (spares_orFatal (spares_sendStatus _ _ _)))) (fun _ => .pure _) v hv

theorem quiet_handleTranslateCtrl (p : TranslateCtrl) : Preserves Quiet (handleTranslateCtrl p) := by
  refine .get_bind fun w hw => Preserves.onlyIf (.modify fun v hv => ?_) w hw
  exact ⟨hv.buffered, hv.source, hv.heard⟩

theorem quiet_isDownloading : Preserves Quiet (isDownloading env) :=
  .get_bind fun w hw => Preserves.ite ((quiet_of_sent (spares_ask _)).bind fun _ => .pure _) (.pure _) w hw

theorem quiet_handleModelCtrl (p : ModelCtrl) : Preserves Quiet (handleModelCtrl env config p) := by
  have hsend (sessionId : SessionId) (progress : DownloadProgress) :
      Preserves Quiet (orFatal (sendModelProgress env sessionId progress)) :=
    quiet_of_sent (spares_orFatal (spares_sendModelProgress _ _))
  refine .get_bind fun w hw => ?_
  refine Preserves.ite (.ite (hsend _ _) (quiet_isDownloading.bind fun active => .ite (hsend _ _) ?_))
    (.onlyIf (hsend _ _)) w hw
  refine Preserves.bind (.onlyIf (.modify fun v hv => ⟨hv.buffered, hv.source, hv.heard⟩)) fun _ => ?_
  refine (quiet_call rfl _).bind fun started => .bind (.modify fun v hv => ?_) fun _ => .onlyIf (hsend _ _)
  exact ⟨hv.buffered, hv.source, hv.heard⟩

theorem quiet_handleShutdown : Preserves Quiet (handleShutdown env config) := by
  refine .get_bind fun w hw => ?_
  refine (quiet_finishTail hw _ (playing_of_sent spares_reportStatus) fun htail => ?_).bind fun _ t ht => ?_
  · simp only [Bool.and_eq_true, decide_eq_true_eq] at htail
    exact htail.2
  refine (quiet_of_translated (spares_drainIf _) t ht).bind fun drained u hu => Ends.ite (fun _ => hu) fun _ => ?_
  refine Ends.modify_bind ?_
  have hclosed : Quiet { u with sourceDecoder := none, sourceMode := u.sourceMode && u.sourceDecoder.isNone } := by
    refine ⟨hu.buffered, fun hactive => ?_, hu.heard⟩
    show (u.sourceMode && u.sourceDecoder.isNone) = false
    rw [hu.source hactive]
    cases u.sourceDecoder <;> rfl
  exact (quiet_of_sent (spares_stopRunning false) _ hclosed).bind fun _ v hv => hv

theorem spares_sendHelloAck : Spares WorkerState.unsent (sendHelloAck env) := by
  unfold sendHelloAck
  split
  · exact (spares_recordWrite _).bind fun _ => .pure _
  · refine spares_guardedIpcSend.bind fun header => .ite ?_ (.pure _)
    exact spares_guardedIpcSend.bind fun payload => (Steps.onlyIf (spares_record _)).bind fun _ => .pure _

theorem quiet_handleHello (p : Payload) : Preserves Quiet (handleHello env config p) := by
  have hleave : Preserves Quiet (do setFatalExit; pure Flow.leave : Loop Flow) :=
    (quiet_of_sent spares_setFatalExit).bind fun _ => .pure _
  unfold handleHello
  split
  · refine .ite ((quiet_of_sent (spares_sendError _ _ _ _)).bind fun _ => hleave) (.ite hleave ?_)
    refine .bind (.modify fun w hw => ⟨hw.buffered, hw.source, hw.heard⟩) fun _ => ?_
    refine (quiet_of_sent spares_sendHelloAck).bind fun sent => .ite (.pure _) ?_
    exact (quiet_of_sent (spares_stopRunning true)).bind fun _ => .pure _
  · exact hleave

theorem quiet_dispatch (p : Payload) : Preserves Quiet (dispatch env config p) := by
  refine .get_bind fun w hw => Ends.ite (fun _ => quiet_handleHello p w hw) fun _ => ?_
  have hproceed {m : Loop Unit} (hm : Preserves Quiet m) : Ends (do m; pure Flow.proceed) w fun _ v => Quiet v :=
    hm.bind (fun _ => .pure _) w hw
  split
  · exact hproceed (quiet_handleStart _)
  · exact hproceed (quiet_handlePosition _)
  · exact hproceed (quiet_handleAudio _)
  · exact hproceed (quiet_handlePause _)
  · exact hproceed (quiet_handleResume _)
  · exact quiet_handleStop _ w hw
  · exact hproceed (quiet_handleTranslateCtrl _)
  · exact hproceed (quiet_handleModelCtrl _)
  · exact quiet_handleShutdown w hw
  · exact hw

theorem quiet_handleFrame (f : Frame) : Preserves Quiet (handleFrame env config f) := by
  rw [handleFrame_eq]
  split
  · exact quiet_dispatch _
  · exact quiet_of_sent (spares_rejectFrame _)

/-! ## Rounds -/

theorem quiet_pollModelDownload : Preserves Quiet (pollModelDownload env) := by
  refine .get_bind fun w hw => Preserves.onlyIf ((quiet_of_sent (spares_ask _)).bind fun progress => ?_) w hw
  cases progress with
  | none => exact .pure _
  | some p =>
    refine (quiet_of_sent (spares_ask _)).bind fun nowUs => .bind (.onlyIf ?_) fun _ => .onlyIf (.modify fun v hv => ?_)
    · refine (quiet_of_sent (spares_orFatal (spares_sendModelProgress _ _))).bind fun _ => .modify fun v hv => ?_
      exact ⟨hv.buffered, hv.source, hv.heard⟩
    · exact ⟨hv.buffered, hv.source, hv.heard⟩

theorem quiet_lookahead : Preserves Quiet (lookahead env config) := by
  refine .get_bind fun w hw => Ends.ite (fun _ => hw) fun hwants => ?_
  have hplays : w.plays = true := by
    simp only [WorkerState.wantsLookahead, Bool.not_eq_true', Bool.not_eq_false, Bool.and_eq_true] at hwants
    rw [WorkerState.plays, hwants.1.1.1.1.1, hwants.1.1.2]
    rfl
  refine (playing_call .readSource env.readSource w (hw.playing hplays)).bind fun read t ht => ?_
  cases read with
  | ok samples ptsUs =>
    refine Ends.ite (fun _ => ?_) fun _ => ht.quiet
    have happended : Playing (appendDecoded samples ptsUs t) := ⟨ht.plays, ht.source, ht.heard⟩
    refine Ends.modify_bind (Ends.get_bind ?_)
    have hloop : Preserves Playing (loop ((appendDecoded samples ptsUs t).audioBuf.count + 1) (chunkRound env config)) :=
      .loop playing_chunkRound _
    exact (hloop _ happended).bind fun _ v hv => hv.quiet
  | again => exact ht.quiet
  | eof =>
    have heof : Playing { t with sourceEof := true } := ⟨ht.plays, ht.source, ht.heard⟩
    refine Ends.modify_bind ((playing_flushAudioTail _ heof).bind fun flushed u hu => Ends.ite (fun _ => ?_) fun _ => ?_)
    · exact quiet_stop (spares_sendError _ _ _ _) _ u hu.quiet
    · exact (quiet_of_sent spares_reportStatus u hu.quiet).bind fun _ v hv => hv
  | error =>
    refine (quiet_refuse _ _ _ _ t ht.quiet).bind fun _ u hu => ?_
    exact quiet_of_empty rfl rfl nofun hu.heard

theorem quiet_iterate (frame : Option Frame) : Preserves Quiet (iterate env config frame) := by
  have hnext : Preserves Quiet (handleNext env config frame) := by
    cases frame with
    | none => exact .pure _
    | some f => exact quiet_handleFrame f
  have hdeliver : Preserves Quiet (deliverResults env) := quiet_of_translated spares_deliverResults
  refine hnext.bind fun flow => .ite ?_ (.pure _)
  refine hdeliver.bind fun _ => quiet_pollModelDownload.bind fun _ => quiet_lookahead.bind fun flow => .ite ?_ (.pure _)
  exact quiet_emitSegments.bind fun _ => hdeliver.bind fun _ => .pure _

theorem quiet_finish (flow : Flow) : Preserves Quiet (finish flow) := by
  have hfinished : Preserves Quiet (modify fun w => { w with finished := true }) :=
    .modify fun w hw => ⟨hw.buffered, hw.source, hw.heard⟩
  cases flow with
  | leave => exact (quiet_of_sent (spares_stopRunning false)).bind fun _ => hfinished
  | hang => exact hfinished
  | _ => exact .pure ()

theorem quiet_wake (frame : Option Frame) : Preserves Quiet (wake env config frame) := by
  have hawake : Preserves Quiet (awake env frame) := by
    cases frame with
    | some f => exact .pure _
    | none => exact (quiet_of_translated spares_runThreads).bind fun _ => .get_bind fun w hw => hw
  refine .get_bind fun w hw => Preserves.onlyIf (hawake.bind fun woken => ?_) w hw
  refine (quiet_of_sent spares_loadRunning).bind fun running => .ite (.modify fun v hv => ?_) (.onlyIf ?_)
  · exact ⟨hv.buffered, hv.source, hv.heard⟩
  · exact (quiet_iterate frame).bind fun flow => quiet_finish flow

theorem quiet_start (engine translator : Bool) : Quiet (.start engine translator) :=
  quiet_of_empty rfl rfl nofun fun _ hc => nomatch hc

/-- **Paused or inactive means quiet.** After every run, whatever the frames and whatever the environment answers. -/
theorem quiet_run (config : Config) (engine translator : Bool) (rounds : List (Env × Option Frame)) :
    Quiet (roundsRun config engine translator rounds) :=
  run_invariant' (fun w (r : Env × Option Frame) hw => @quiet_wake r.1 config r.2 w hw) rounds (quiet_start engine translator)

end VlcWhisper.Worker
