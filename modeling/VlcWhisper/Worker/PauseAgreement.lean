import VlcWhisper.Worker.AuthGate
import VlcWhisper.Worker.Rested

/-!
# Two ways to pause (`vw_worker.c`)

A client pauses with a POSITION that says so, or with a PAUSE before it, and it goes on with a POSITION or with a
RESUME. Main result: `pauses_alike`. The two ways leave the same pipeline, always; they leave the same pending
translations exactly if there are none, or the position itself makes the worker seek, since only PAUSE, RESUME and a
seek begin a new epoch.
-/

namespace VlcWhisper.Worker

open VlcWhisper.Lib VlcWhisper.Protocol SegmentBuilder

variable {env : Env} {config : Config}

/-! ## What the two ways are compared by -/

/-- What is to be recognised and sent, and whether the session is paused. -/
structure SessionPipeline where
  audioBuf : AudioBuffer SessionId lookaheadBufferSamples
  builder : SegmentBuilder
  vad : List (List SessionId)
  liveNextInferenceSamples : Nat
  liveProgressiveMode : Bool
  paused : Bool

def WorkerState.pipeline (w : WorkerState) : SessionPipeline where
  audioBuf := w.audioBuf
  builder := w.builder
  vad := w.vad
  liveNextInferenceSamples := w.liveNextInferenceSamples
  liveProgressiveMode := w.liveProgressiveMode
  paused := w.paused

/-- What clears the pipeline shows in it. -/
def SessionPipeline.clear (q : SessionPipeline) : SessionPipeline :=
  { q with audioBuf := q.audioBuf.clear, builder := q.builder.clear, vad := []
           liveNextInferenceSamples := if q.liveProgressiveMode then liveStartupSamples else windowSamples }

/-- The cues of the current epoch that the translator still has. -/
def pendingOf (translator : Option TranslateAsync) : List (Nat × Origin) := translator.elim [] TranslateAsync.entries

def WorkerState.pending (w : WorkerState) : List (Nat × Origin) := pendingOf w.translator

/-- The source of the session is open. -/
def WorkerState.opened (w : WorkerState) : Bool := w.sourceMode && w.sourceDecoder.isSome

/-- The translator begins a new epoch if `c`. -/
def resetIf (c : Bool) (translator : Option TranslateAsync) : Option TranslateAsync :=
  if c then translator.map TranslateAsync.invalidate else translator

/-- A handler leaves this of the state. -/
structure PauseLeaves (v : WorkerState) (pipeline : SessionPipeline) (translator : Option TranslateAsync) : Prop where
  pipeline : v.pipeline = pipeline
  translator : v.translator = translator

/-- The worker still takes the frames of the same session. -/
structure WorkerState.Speaks (v w : WorkerState) : Prop where
  authenticated : v.authenticated = w.authenticated
  sessionActive : v.sessionActive = w.sessionActive
  sessionId : v.sessionId = w.sessionId

theorem PauseLeaves.of_sent {w v : WorkerState} (h : v.unsent = w.unsent) : PauseLeaves v w.pipeline w.translator :=
  ⟨field_of_unsent h (·.pipeline) fun _ => by rfl, field_of_unsent h (·.translator) fun _ => by rfl⟩

/-! ## The handlers -/

theorem followSource_ends (hseek : ∀ n, env.seekSource n = true) (p : Position) (t : WorkerState) :
    Ends (followSource env p) t fun _ v =>
      PauseLeaves v (if requiresSeek t p then t.clearPipeline else t).pipeline (resetIf (requiresSeek t p) t.translator) ∧
        v.currentPlaybackPtsUs = p.currentPtsUs.toInt ∧ v.opened = t.opened ∧ v.Speaks t := by
  have hseeked : Ends (seekTo env p) t fun _ v => v =
      ({ t with tick := t.tick + 1, seekFailedPending := false }.invalidate .seek).reanchor p.currentPtsUs.toInt := by
    refine Ends.bind (m := ask env.seekSource) (P := fun seeked u => seeked = true ∧ u = { t with tick := t.tick + 1 })
      ⟨hseek _, rfl⟩ fun seeked u ⟨hok, hu⟩ => ?_
    subst hok hu
    exact rfl
  refine Ends.get_bind ?_
  dsimp only
  cases requiresSeek t p with
  | false =>
    refine Ends.bind (P := fun _ v => v = t) rfl fun _ v hv => Ends.get_bind ?_
    subst hv
    exact ⟨⟨rfl, rfl⟩, rfl, rfl, rfl, rfl, rfl⟩
  | true =>
    refine hseeked.bind fun _ v hv => Ends.get_bind ?_
    subst hv
    refine Ends.onlyIf (fun _ => ⟨⟨rfl, rfl⟩, rfl, rfl, rfl, rfl, rfl⟩) fun hnot => ?_
    have hsame : decide (p.currentPtsUs.toInt = p.currentPtsUs.toInt) = false := hnot
    rw [decide_eq_true rfl] at hsame
    cases hsame

/-- A POSITION that says what the worker knows only moves on. -/
theorem handlePosition_same (hseek : ∀ n, env.seekSource n = true) {p : Position} {w : WorkerState}
    (hactive : w.sessionActive = true) (hid : p.sessionId = w.sessionId) (hsame : isPausedFlag p = w.paused) :
    Ends (handlePosition env config p) w fun _ v =>
      PauseLeaves v (if w.opened && requiresSeek w p then w.clearPipeline else w).pipeline
          (resetIf (w.opened && requiresSeek w p) w.translator) ∧
        v.currentPlaybackPtsUs = p.currentPtsUs.toInt ∧ v.opened = w.opened ∧ v.Speaks w := by
  have hguard : (w.sessionActive && decide (p.sessionId = w.sessionId)) = true := by
    rw [hactive, hid, decide_eq_true rfl]
    rfl
  have hfollow : Ends (followPause env config p) w fun goOn v => goOn = true ∧ v = w := by
    refine Ends.get_bind ?_
    rw [if_pos hsame]
    exact ⟨rfl, rfl⟩
  refine Ends.get_bind ?_
  rw [hguard]
  refine hfollow.bind fun goOn v ⟨hgo, hv⟩ => ?_
  subst hgo hv
  refine Ends.get_bind (Ends.ite (fun hopened => ?_) fun hclosed => ?_)
  · have hopened : v.opened = true := hopened
    have hcond : (v.opened && requiresSeek v p) = requiresSeek v p := by rw [hopened, Bool.true_and]
    rw [hcond]
    exact followSource_ends hseek p v
  · have hclosed : v.opened = false := Bool.eq_false_of_not_eq_true hclosed
    have hcond : (v.opened && requiresSeek v p) = false := by rw [hclosed, Bool.false_and]
    rw [hcond]
    exact ⟨⟨rfl, rfl⟩, rfl, rfl, rfl, rfl, rfl⟩

/-- The rest of a POSITION that changed the pause: the client is told, and if that works the worker moves on. -/
theorem handlePosition_changed (hseek : ∀ n, env.seekSource n = true) {p : Position} {w t : WorkerState}
    (hactive : w.sessionActive = true) (hid : p.sessionId = w.sessionId) (hchange : isPausedFlag p ≠ w.paused)
    (hchanged : Ends (changePause env p) w fun _ v => v = t) :
    Ends (handlePosition env config p) w fun _ v =>
      PauseLeaves v (if t.opened && requiresSeek t p && t.reaches env (t.tick + 3) then t.clearPipeline else t).pipeline
        (resetIf (t.opened && requiresSeek t p && t.reaches env (t.tick + 3)) t.translator) := by
  have hguard : (w.sessionActive && decide (p.sessionId = w.sessionId)) = true := by
    rw [hactive, hid, decide_eq_true rfl]
    rfl
  have hfollow : Ends (followPause env config p) w fun goOn v => goOn = t.reaches env (t.tick + 3) ∧ v.unsent = t.unsent := by
    refine Ends.get_bind ?_
    rw [if_neg hchange]
    refine hchanged.bind fun _ v hv => Ends.get_bind ?_
    subst hv
    have hsent : Ends (sendStatus env config v.sessionId v.sessionActive v.paused) v fun sent u =>
        sent = v.reaches env (v.tick + 3) ∧ u.unsent = v.unsent :=
      ⟨(sendStatus_result _ _ _ v).1, (spares_sendStatus _ _ _).eq v⟩
    refine hsent.bind fun sent u ⟨hresult, hu⟩ => ?_
    have hstop : Spares WorkerState.unsent (onlyIf (!sent) (stopRunning true)) := Steps.onlyIf (spares_stopRunning true)
    exact (hstop.ends u).bind fun _ x hx => ⟨hresult, hx.1.trans hu⟩
  refine Ends.get_bind ?_
  rw [hguard]
  refine hfollow.bind fun goOn v ⟨hgo, hv⟩ => ?_
  rw [← hgo]
  have hopened : v.opened = t.opened := field_of_unsent hv (·.opened) fun _ => by rfl
  have hseeks : requiresSeek v p = requiresSeek t p := field_of_unsent hv (requiresSeek · p) fun _ => by rfl
  have hleaves := PauseLeaves.of_sent hv
  cases goOn with
  | false =>
    rw [Bool.and_false]
    exact hleaves
  | true =>
    refine Ends.get_bind (Ends.ite (fun hopen => ?_) fun hclosed => ?_)
    · have hopen : v.opened = true := hopen
      refine (followSource_ends hseek p v).mono fun _ x hx => ?_
      rw [Bool.and_true, ← hopened, hopen, Bool.true_and, ← hseeks, ← hleaves.translator]
      refine ⟨hx.1.pipeline.trans ?_, hx.1.translator⟩
      have hcleared : v.clearPipeline.pipeline = t.clearPipeline.pipeline :=
        field_of_unsent hv (·.clearPipeline.pipeline) fun _ => by rfl
      split
      · exact hcleared
      · exact hleaves.pipeline
    · have hclosed : v.opened = false := Bool.eq_false_of_not_eq_true hclosed
      rw [Bool.and_true, ← hopened, hclosed, Bool.false_and]
      exact ⟨hleaves.pipeline, hleaves.translator⟩

/-- PAUSE clears the pipeline and begins a new epoch. -/
theorem handlePause_ends {c : Control} {w : WorkerState} (hactive : w.sessionActive = true)
    (hid : c.sessionId = w.sessionId) : Ends (handlePause env config c) w fun _ v =>
      v.unsent = ({ w with paused := true }.clearPipeline.invalidate .pause).unsent := by
  have hguard : (w.sessionActive && decide (c.sessionId = w.sessionId)) = true := by
    rw [hactive, hid, decide_eq_true rfl]
    rfl
  refine Ends.get_bind ?_
  rw [hguard]
  exact Ends.modify_bind (spares_reportStatus.eq _)

/-- RESUME seeks the source to where it was, if that is known, and then it begins a new epoch. -/
theorem handleResume_ends (hseek : ∀ n, env.seekSource n = true) {c : Control} {w : WorkerState}
    (hactive : w.sessionActive = true) (hid : c.sessionId = w.sessionId) :
    Ends (handleResume env config c) w fun _ v =>
      PauseLeaves v (if w.opened && decide (0 ≤ w.currentPlaybackPtsUs) then { w with paused := false }.clearPipeline
          else { w with paused := false }).pipeline
        (resetIf (w.opened && decide (0 ≤ w.currentPlaybackPtsUs)) w.translator) := by
  have hguard : (w.sessionActive && decide (c.sessionId = w.sessionId)) = true := by
    rw [hactive, hid, decide_eq_true rfl]
    rfl
  refine Ends.get_bind ?_
  rw [hguard]
  refine Ends.modify_bind ?_
  have hsought : Ends (onlyIf (w.opened && decide (0 ≤ w.currentPlaybackPtsUs)) do
      let seeked ← ask env.seekSource
      onlyIf seeked (modify fun w =>
        ({ w with lastPlaybackPtsUs := w.currentPlaybackPtsUs }.reanchor w.currentPlaybackPtsUs).invalidate .resume))
      { w with paused := false } fun _ v =>
        PauseLeaves v (if w.opened && decide (0 ≤ w.currentPlaybackPtsUs) then { w with paused := false }.clearPipeline
            else { w with paused := false }).pipeline
          (resetIf (w.opened && decide (0 ≤ w.currentPlaybackPtsUs)) w.translator) := by
    refine Ends.onlyIf (fun hseeks => ?_) fun hstays => ?_
    · refine Ends.bind (m := ask env.seekSource) (P := fun seeked u => seeked = true ∧
        u = { w with paused := false, tick := w.tick + 1 }) ⟨hseek _, rfl⟩ fun seeked u ⟨hok, hu⟩ => ?_
      subst hok hu
      rw [hseeks]
      exact ⟨rfl, rfl⟩
    · rw [hstays]
      exact ⟨rfl, rfl⟩
  refine hsought.bind fun _ v hv => ?_
  have hreport : Ends (reportStatus env config) v fun _ x => x.unsent = v.unsent := spares_reportStatus.eq v
  refine hreport.mono fun _ x hx => ?_
  have hleaves := PauseLeaves.of_sent hx
  exact ⟨hleaves.pipeline.trans hv.pipeline, hleaves.translator.trans hv.translator⟩

/-! ## Frames -/

theorem handled_of_request {f : Frame} {p : Payload} (hf : f.request = some p) (w : WorkerState) :
    w.handled env config f = ((dispatch env config p).run w).2 := by
  rw [WorkerState.handled, handleFrame_eq, hf]

theorem handled_position {f : Frame} {p : Position} (hf : f.request = some (.position p)) {w : WorkerState}
    (hauth : w.authenticated = true) : w.handled env config f = ((handlePosition env config p).run w).2 := by
  have hdispatch : Ends (dispatch env config (.position p)) w fun _ v => v = ((handlePosition env config p).run w).2 := by
    refine Ends.get_bind ?_
    rw [if_neg (by rw [hauth]; decide)]
    exact rfl
  rw [handled_of_request hf]
  exact hdispatch

theorem handled_pause {f : Frame} {c : Control} (hf : f.request = some (.pause c)) {w : WorkerState}
    (hauth : w.authenticated = true) : w.handled env config f = ((handlePause env config c).run w).2 := by
  have hdispatch : Ends (dispatch env config (.pause c)) w fun _ v => v = ((handlePause env config c).run w).2 := by
    refine Ends.get_bind ?_
    rw [if_neg (by rw [hauth]; decide)]
    exact rfl
  rw [handled_of_request hf]
  exact hdispatch

theorem handled_resume {f : Frame} {c : Control} (hf : f.request = some (.resume c)) {w : WorkerState}
    (hauth : w.authenticated = true) : w.handled env config f = ((handleResume env config c).run w).2 := by
  have hdispatch : Ends (dispatch env config (.resume c)) w fun _ v => v = ((handleResume env config c).run w).2 := by
    refine Ends.get_bind ?_
    rw [if_neg (by rw [hauth]; decide)]
    exact rfl
  rw [handled_of_request hf]
  exact hdispatch

/-! ## Pending translations -/

theorem inEpoch_resetIf {translator : Option TranslateAsync} {epoch : Nat} (h : ∀ t ∈ translator, t.InEpoch epoch)
    (hlt : epoch < uint64Max) (c : Bool) :
    ∀ t ∈ resetIf c translator, t.InEpoch (if c then epoch + 1 else epoch) := by
  cases c with
  | false => exact h
  | true =>
    intro t' ht'
    obtain ⟨t, ht, rfl⟩ := Option.map_eq_some_iff.mp ht'
    exact (h t ht).invalidate hlt

theorem pendingOf_resetIf {translator : Option TranslateAsync} {epoch : Nat} (h : ∀ t ∈ translator, t.InEpoch epoch)
    (hlt : epoch < uint64Max) (c : Bool) : pendingOf (resetIf c translator) = if c then [] else pendingOf translator := by
  cases c with
  | false => rfl
  | true =>
    cases translator with
    | none => rfl
    | some t => exact (h t rfl).entries_invalidate hlt

theorem pendingOf_resetIf_twice {translator : Option TranslateAsync} {epoch : Nat} (h : ∀ t ∈ translator, t.InEpoch epoch)
    (hlt : epoch + 1 < uint64Max) (c d : Bool) :
    pendingOf (resetIf c (resetIf d translator)) = if c || d then [] else pendingOf translator := by
  have hnext := inEpoch_resetIf h (Nat.lt_of_succ_lt hlt) d
  rw [pendingOf_resetIf hnext (by split <;> omega), pendingOf_resetIf h (Nat.lt_of_succ_lt hlt)]
  cases c <;> rfl

/-- Two ways to reset differ only if there is something to be reset. -/
theorem reset_eq_iff {α : Type} (pending : List α) (c d : Bool) :
    (if c then [] else pending) = (if d then [] else pending) ↔ pending = [] ∨ c = d := by
  cases c <;> cases d <;> simp [eq_comm]

/-! ## The comparison -/

/-- The same POSITION, but paused. -/
def pausing (p : Position) : Position := { p with flags := p.flags ||| positionFlagPaused }

theorem or_and_flag (a b c : UInt32) : (a ||| b) &&& c = (a &&& c) ||| (b &&& c) := by
  refine UInt32.toBitVec_inj.1 ?_
  simp only [UInt32.toBitVec_and, UInt32.toBitVec_or, BitVec.and_or_distrib_right]

theorem isPausedFlag_pausing (p : Position) : isPausedFlag (pausing p) = true := by
  have hne : (p.flags ||| positionFlagPaused) &&& positionFlagPaused ≠ 0 := by
    rw [or_and_flag, UInt32.and_self]
    intro h
    exact absurd (UInt32.or_eq_zero_iff.mp h).2 (by decide)
  exact decide_eq_true hne

theorem isSeekFlag_pausing (p : Position) : isSeekFlag (pausing p) = isSeekFlag p := by
  have hsame : (p.flags ||| positionFlagPaused) &&& positionFlagSeek = p.flags &&& positionFlagSeek := by
    rw [or_and_flag, show positionFlagPaused &&& positionFlagSeek = 0 by decide, UInt32.or_zero]
  show decide ((p.flags ||| positionFlagPaused) &&& positionFlagSeek ≠ 0) = _
  rw [hsame]
  rfl

theorem requiresSeek_pausing (w : WorkerState) (p : Position) : requiresSeek w (pausing p) = requiresSeek w p := by
  unfold requiresSeek
  rw [isSeekFlag_pausing]
  rfl

/-- Where a POSITION that pauses leaves the translations that a PAUSE before it would leave. -/
def PausesAlike (env : Env) (w : WorkerState) (p : Position) : Prop :=
  w.pending = [] ∨ (w.opened && requiresSeek w p && w.reaches env (w.tick + 3)) = true

/-- Where a POSITION that goes on leaves the translations that a RESUME after it would leave. -/
def ResumesAlike (env : Env) (w : WorkerState) (p : Position) : Prop :=
  w.pending = [] ∨ w.opened = false ∨
    (if 0 ≤ p.currentPtsUs.toInt then isSeekFlag p && w.reaches env (w.tick + 4)
      else !requiresSeek w p || w.reaches env (w.tick + 3)) = true

theorem position_pauses (hseek : ∀ n, env.seekSource n = true) {p : Position} {w : WorkerState}
    (hactive : w.sessionActive = true) (hid : p.sessionId = w.sessionId) (hflag : isPausedFlag p = true)
    (hplays : w.paused = false) : Ends (handlePosition env config p) w fun _ v =>
      PauseLeaves v { w with paused := true }.clearPipeline.pipeline
        (resetIf (w.opened && requiresSeek w p && w.reaches env (w.tick + 3)) w.translator) := by
  have hchanged : Ends (changePause env p) w fun _ v => v = { w with paused := true }.clearPipeline := by
    refine Ends.modify_bind (Ends.get_bind ?_)
    rw [hflag]
    exact rfl
  have hends := @handlePosition_changed _ config hseek _ _ _ hactive hid (by rw [hflag, hplays]; decide) hchanged
  refine hends.mono fun _ v hv => ⟨hv.pipeline.trans ?_, hv.translator⟩
  split <;> rfl

theorem pause_position (hseek : ∀ n, env.seekSource n = true) {p : Position} {c : Control} {w : WorkerState}
    (hactive : w.sessionActive = true) (hid : p.sessionId = w.sessionId) (hcid : c.sessionId = w.sessionId)
    (hflag : isPausedFlag p = true) : Ends (do handlePause env config c; handlePosition env config p) w fun _ v =>
      PauseLeaves v { w with paused := true }.clearPipeline.pipeline
        (resetIf (w.opened && requiresSeek w p) (resetIf true w.translator)) := by
  refine (handlePause_ends hactive hcid).bind fun _ v hv => ?_
  have hpaused : isPausedFlag p = v.paused := hflag.trans (field_of_unsent hv (·.paused) fun _ => by rfl).symm
  have hvactive : v.sessionActive = true := (field_of_unsent hv (·.sessionActive) fun _ => by rfl).trans hactive
  have hvid : p.sessionId = v.sessionId := hid.trans (field_of_unsent hv (·.sessionId) fun _ => by rfl).symm
  have hopened : v.opened = w.opened := field_of_unsent hv (·.opened) fun _ => by rfl
  have hseeks : requiresSeek v p = requiresSeek w p := field_of_unsent hv (requiresSeek · p) fun _ => by rfl
  have hleaves := PauseLeaves.of_sent hv
  refine (handlePosition_same hseek hvactive hvid hpaused).mono fun _ x ⟨hx, _⟩ => ⟨hx.pipeline.trans ?_, ?_⟩
  · have hcleared : v.clearPipeline.pipeline = { w with paused := true }.clearPipeline.pipeline :=
      field_of_unsent hv (·.clearPipeline.pipeline) fun _ => by rfl
    split
    · exact hcleared
    · exact hleaves.pipeline
  · rw [hx.translator, hleaves.translator, hopened, hseeks]
    rfl

theorem unpaused_clearPipeline {w : WorkerState} (hw : Cleared w) :
    { w with paused := false }.clearPipeline = { w with paused := false } := by
  have hcleared : Cleared { w with paused := false } := ⟨hw.audioBuf, hw.builder, hw.vad, hw.threshold⟩
  exact hcleared.clearPipeline_eq

/-- A source that is already at the position is only sought where the flag says so. -/
theorem requiresSeek_of_reached {w : WorkerState} {p : Position} (h : w.lastPlaybackPtsUs = p.currentPtsUs.toInt) :
    requiresSeek w p = isSeekFlag p := by
  unfold requiresSeek
  dsimp only
  rw [h, bne_self_eq_false, Bool.and_false, Bool.false_and, Bool.or_false]

theorem position_resumes (hseek : ∀ n, env.seekSource n = true) {p : Position} {w : WorkerState}
    (hactive : w.sessionActive = true) (hid : p.sessionId = w.sessionId) (hflag : isPausedFlag p = false)
    (hpaused : w.paused = true) (hw : Cleared w) : Ends (handlePosition env config p) w fun _ v =>
      PauseLeaves v { w with paused := false }.pipeline
        (resetIf (if w.opened && decide (0 ≤ p.currentPtsUs.toInt) then isSeekFlag p && w.reaches env (w.tick + 4)
          else w.opened && requiresSeek w p && w.reaches env (w.tick + 3)) w.translator) := by
  have hcleared := congrArg WorkerState.pipeline (unpaused_clearPipeline hw)
  have hchange : isPausedFlag p ≠ w.paused := by
    rw [hflag, hpaused]
    decide
  cases hseeks : w.opened && decide (0 ≤ p.currentPtsUs.toInt) with
  | true =>
    have hchanged : Ends (changePause env p) w fun _ v => v = { w with
        paused := false, tick := w.tick + 1, lastPlaybackPtsUs := p.currentPtsUs.toInt }.reanchor p.currentPtsUs.toInt := by
      refine Ends.modify_bind (Ends.get_bind ?_)
      rw [hflag, if_neg Bool.false_ne_true]
      show Ends (onlyIf (w.opened && decide (0 ≤ p.currentPtsUs.toInt)) _) _ _
      rw [hseeks]
      refine Ends.bind (m := ask env.seekSource) (P := fun seeked u => seeked = true ∧
        u = { w with paused := false, tick := w.tick + 1 }) ⟨hseek _, rfl⟩ fun seeked u ⟨hok, hu⟩ => ?_
      subst hok hu
      exact rfl
    have hends := @handlePosition_changed _ config hseek _ _ _ hactive hid hchange hchanged
    refine hends.mono fun _ v hv => ⟨hv.pipeline.trans ?_, hv.translator.trans ?_⟩
    · split <;> exact hcleared
    · have hopened : w.opened = true := (Bool.and_eq_true_iff.mp hseeks).1
      have hsought : requiresSeek ({ w with
          paused := false, tick := w.tick + 1, lastPlaybackPtsUs := p.currentPtsUs.toInt }.reanchor p.currentPtsUs.toInt) p =
          isSeekFlag p := requiresSeek_of_reached rfl
      rw [hsought, if_pos rfl]
      show resetIf (w.opened && isSeekFlag p && w.reaches env (w.tick + 4)) w.translator = _
      rw [hopened, Bool.true_and]
  | false =>
    have hchanged : Ends (changePause env p) w fun _ v => v = { w with paused := false } := by
      refine Ends.modify_bind (Ends.get_bind ?_)
      rw [hflag, if_neg Bool.false_ne_true]
      show Ends (onlyIf (w.opened && decide (0 ≤ p.currentPtsUs.toInt)) _) _ _
      rw [hseeks]
      exact rfl
    have hends := @handlePosition_changed _ config hseek _ _ _ hactive hid hchange hchanged
    refine hends.mono fun _ v hv => ⟨hv.pipeline.trans ?_, hv.translator⟩
    split
    · exact hcleared
    · rfl

theorem position_resume (hseek : ∀ n, env.seekSource n = true) {p : Position} {c : Control} {w : WorkerState}
    (hactive : w.sessionActive = true) (hid : p.sessionId = w.sessionId) (hcid : c.sessionId = w.sessionId)
    (hpaused : w.paused = true) (hw : Cleared w) :
    Ends (do handlePosition env config (pausing p); handleResume env config c) w fun _ v =>
      PauseLeaves v { w with paused := false }.pipeline (resetIf (w.opened && decide (0 ≤ p.currentPtsUs.toInt))
        (resetIf (w.opened && requiresSeek w p) w.translator)) := by
  have hsame : isPausedFlag (pausing p) = w.paused := (isPausedFlag_pausing p).trans hpaused.symm
  have hpid : (pausing p).sessionId = w.sessionId := hid
  refine (handlePosition_same hseek hactive hpid hsame).bind fun _ v ⟨hv, hpts, hopened, hspeaks⟩ => ?_
  have hvactive : v.sessionActive = true := hspeaks.sessionActive.trans hactive
  have hvid : c.sessionId = v.sessionId := hcid.trans hspeaks.sessionId.symm
  have hpipeline : v.pipeline = w.pipeline := by
    refine hv.pipeline.trans ?_
    split
    · rw [hw.clearPipeline_eq]
    · rfl
  refine (handleResume_ends hseek hvactive hvid).mono fun _ x hx => ⟨hx.pipeline.trans ?_, ?_⟩
  · have hresumed : { v with paused := false }.pipeline = { w with paused := false }.pipeline :=
      congrArg (fun q : SessionPipeline => { q with paused := false }) hpipeline
    have hcleared : { v with paused := false }.clearPipeline.pipeline = { w with paused := false }.clearPipeline.pipeline :=
      congrArg SessionPipeline.clear hresumed
    split
    · rw [hcleared, unpaused_clearPipeline hw]
    · exact hresumed
  · have hpts : v.currentPlaybackPtsUs = p.currentPtsUs.toInt := hpts
    rw [hx.translator, hv.translator, hopened, hpts, requiresSeek_pausing]

/-! ## Runs -/

theorem authenticated_atFrame {engine translator : Bool} {rounds : List (Env × Option Frame)}
    (hactive : (atFrame config engine translator rounds env).sessionActive = true) :
    (atFrame config engine translator rounds env).authenticated = true := by
  have hsame : (atFrame config engine translator rounds env).unsent = (roundsRun config engine translator rounds).unsent :=
    spares_loadRunning.eq _
  rw [field_of_unsent hsame (·.authenticated) fun _ => by rfl]
  rw [field_of_unsent hsame (·.sessionActive) fun _ => by rfl] at hactive
  by_contra hauth
  have hgated := (phase_rounds config engine translator rounds).gate.gated (Bool.eq_false_of_not_eq_true hauth)
  rw [hgated.sessionActive] at hactive
  cases hactive

/-- Two ways to handle what the client says in `w`: they leave the same pipeline, and, until the epoch numbers run out,
the same pending translations exactly if `alike`. -/
structure AgreesIf (w v v' : WorkerState) (alike : Prop) : Prop where
  pipeline : v.pipeline = v'.pipeline
  pending : resets w.trace + 2 < uint64Max → (v.pending = v'.pending ↔ alike)

theorem agreesIf_of_leaves {w v v' : WorkerState} (hw : w.core.Tracked) {pipeline : SessionPipeline} {a c d : Bool}
    (hv : PauseLeaves v pipeline (resetIf a w.translator)) (hv' : PauseLeaves v' pipeline (resetIf c (resetIf d w.translator)))
    {alike : Prop} (halike : w.pending = [] ∨ a = (c || d) ↔ alike) : AgreesIf w v v' alike := by
  refine ⟨hv.pipeline.trans hv'.pipeline.symm, fun hlt => ?_⟩
  have hepoch : ∀ t ∈ w.translator, t.InEpoch (resets w.trace + 1) := hw (by show resets w.trace < _; omega)
  unfold WorkerState.pending
  rw [hv.translator, hv'.translator, pendingOf_resetIf hepoch (by omega), pendingOf_resetIf_twice hepoch hlt, reset_eq_iff]
  exact halike

/-- **Two ways to pause, and two ways to go on.** -/
theorem pauses_alike {engine translator : Bool} {rounds : List (Env × Option Frame)} (hseek : ∀ n, env.seekSource n = true)
    {w : WorkerState} (hrun : w = atFrame config engine translator rounds env) (hactive : w.sessionActive = true)
    {f g : Frame} {p : Position} {c : Control} (hf : f.request = some (.position p)) (hid : p.sessionId = w.sessionId)
    (hcid : c.sessionId = w.sessionId) :
    (w.paused = false → isPausedFlag p = true → g.request = some (.pause c) →
      AgreesIf w (w.handled env config f) ((w.handled env config g).handled env config f) (PausesAlike env w p)) ∧
    (w.paused = true → isPausedFlag p = false → g.request = some (.resume c) →
      ∀ f' : Frame, f'.request = some (.position (pausing p)) →
      AgreesIf w (w.handled env config f) ((w.handled env config f').handled env config g) (ResumesAlike env w p)) := by
  subst hrun
  have hauth := authenticated_atFrame hactive
  have htracked := tracked_atFrame config engine translator rounds env
  have hrested : Rested (atFrame config engine translator rounds env) :=
    rested_of_sent spares_loadRunning _ (rested_run config engine translator rounds)
  generalize atFrame config engine translator rounds env = w at *
  constructor
  · intro hplays hflag hg
    have hpaused : Ends (handlePause env config c) w fun _ v => v.authenticated = true := by
      refine (handlePause_ends hactive hcid).mono fun _ v hv => ?_
      exact (field_of_unsent hv (·.authenticated) fun _ => by rfl).trans hauth
    rw [handled_position hf hauth, handled_pause hg hauth, handled_position hf hpaused]
    refine agreesIf_of_leaves htracked (position_pauses hseek hactive hid hflag hplays)
      (pause_position hseek hactive hid hcid hflag) ?_
    rw [Bool.or_true]
    rfl
  · intro hpaused hflag hg f' hf'
    have hcleared := hrested.cleared hactive hpaused
    have hsame : isPausedFlag (pausing p) = w.paused := (isPausedFlag_pausing p).trans hpaused.symm
    have hpid : (pausing p).sessionId = w.sessionId := hid
    have hwaits : Ends (handlePosition env config (pausing p)) w fun _ v => v.authenticated = true :=
      (handlePosition_same hseek hactive hpid hsame).mono fun _ v ⟨_, _, _, hspeaks⟩ => hspeaks.authenticated.trans hauth
    rw [handled_position hf hauth, handled_position hf' hauth, handled_resume hg hwaits]
    refine agreesIf_of_leaves htracked (position_resumes hseek hactive hid hflag hpaused hcleared)
      (position_resume hseek hactive hid hcid hpaused hcleared) ?_
    unfold ResumesAlike
    refine or_congr_right ?_
    cases w.opened with
    | false => simp
    | true =>
      by_cases hpts : 0 ≤ p.currentPtsUs.toInt
      · simp [hpts]
      · cases requiresSeek w p <;> simp [hpts]

/-- A source that can be opened and sought, and in which one cue is recognised. -/
def Env.oneCue (read : SourceRead) : Env :=
  { Env.quiet with
    openSource _ := true
    seekSource _ := true
    readSource _ := read
    speech _ := .energy true
    transcribe _ := some [⟨0, 1000000, false, ascii "Hi"⟩] }

/-- The client asks for translations, and then for a file, of which the decoder has one sample. -/
def oneCueRounds : List (Env × Option Frame) :=
  [(.quiet, some hello),
    (.quiet, some (QueueLog.frameOf (.translateCtrl ⟨.zero _, 1, .ofStr _ (ascii "en"), .ofStr _ (ascii "fr"), 1⟩))),
    (.oneCue (.ok 1 0), some (QueueLog.frameOf (.startSession fileStart))), (.oneCue .eof, none)]

/-- The client says that it is paused. -/
def pausedPosition : Position := { QueueLog.samplePosition with flags := positionFlagPaused }

def pausedFrame : Frame := QueueLog.frameOf (.position pausedPosition)

def pauseFrame : Frame := QueueLog.frameOf (.pause ⟨.zero _, ctrlReasonUserPause⟩)

/-- The worker while the cue waits for its translation. -/
def oneCueWaits : WorkerState := atFrame downloader true true oneCueRounds (.oneCue .again)

theorem pauses_alike_oneCue :
    AgreesIf oneCueWaits (oneCueWaits.handled (.oneCue .again) downloader pausedFrame)
      ((oneCueWaits.handled (.oneCue .again) downloader pauseFrame).handled (.oneCue .again) downloader pausedFrame)
      (PausesAlike (.oneCue .again) oneCueWaits pausedPosition) := by
  have hactive : oneCueWaits.sessionActive = true := by decide +kernel
  have hplays : oneCueWaits.paused = false := by decide +kernel
  have hid : pausedPosition.sessionId = oneCueWaits.sessionId := by decide +kernel
  exact (pauses_alike (fun _ => rfl) rfl hactive (c := ⟨.zero _, ctrlReasonUserPause⟩) rfl hid hid).1 hplays
    (by decide) rfl

/-- A POSITION that pauses keeps a translation that a PAUSE drops. -/
theorem not_pauses_alike : oneCueWaits.sessionActive = true ∧ oneCueWaits.paused = false ∧
    (oneCueWaits.handled (.oneCue .again) downloader pausedFrame).pending ≠
      ((oneCueWaits.handled (.oneCue .again) downloader pauseFrame).handled (.oneCue .again) downloader pausedFrame).pending := by
  refine ⟨by decide +kernel, by decide +kernel, fun hsame => ?_⟩
  have hkept : (oneCueWaits.handled (.oneCue .again) downloader pausedFrame).pending.length = 1 := by decide +kernel
  have hdropped : ((oneCueWaits.handled (.oneCue .again) downloader pauseFrame).handled (.oneCue .again) downloader
      pausedFrame).pending.length = 0 := by
    decide +kernel
  rw [hsame, hdropped] at hkept
  cases hkept

end VlcWhisper.Worker
