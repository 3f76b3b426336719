import VlcWhisper.Worker.Playback

/-!
# When a drifting source is sought again (`vw_worker.c`)

A position that drifts from the decoder makes the worker seek. If that fails, the worker leaves it at that until a seek
succeeds, the client asks for one, or the session ends. Main result: `seeks_lawful`. That is so in every run in which no
session goes on with a successful seek while a failed one is pending: RESUME and a POSITION that ends a pause seek the
source, too, but they leave the flag, and so drift stays uncorrected after them (`not_seeks_lawful`).
-/

namespace VlcWhisper.Worker

open VlcWhisper.Lib VlcWhisper.Protocol

variable {env : Env} {config : Config}

/-! ## The law -/

/-- What concerns the seeks of a session. -/
inductive SeekEvent where
  /-- A POSITION without SEEK: whether it drifted, and what the decoder answered if it was asked to seek. -/
  | position (drifted : Bool) (answer : Option Bool)
  /-- A POSITION with SEEK. -/
  | explicit
  /-- The session went on by a RESUME or a POSITION, and the decoder was asked to seek. -/
  | resumed (ok : Bool)
  /-- There is no session any more, or it is another one. -/
  | ended
  deriving DecidableEq

/-- Whether drift is left alone after the event. -/
def SeekEvent.suppress (suppressed : Bool) : SeekEvent → Bool
  | .position _ (some ok) => !ok
  | .position _ none => suppressed
  | .explicit => false
  | .resumed ok => suppressed && !ok
  | .ended => false

/-- An implicit seek failed, and since then no seek succeeded, none was asked for, and the session did not end. -/
def suppressed (log : List SeekEvent) : Bool := log.foldl SeekEvent.suppress false

/-- A POSITION without SEEK makes the worker seek exactly if it drifts and that is not suppressed. -/
def SeekEvent.Due (past : List SeekEvent) : SeekEvent → Prop
  | .position drifted answer => answer.isSome = (drifted && !suppressed past)
  | _ => True

instance (past : List SeekEvent) : ∀ e : SeekEvent, Decidable (e.Due past)
  | .position drifted answer => inferInstanceAs (Decidable (answer.isSome = (drifted && !suppressed past)))
  | .explicit => .isTrue trivial
  | .resumed _ => .isTrue trivial
  | .ended => .isTrue trivial

def Lawful (log : List SeekEvent) : Prop := Explained (fun past e => e.Due past) log

instance (log : List SeekEvent) : Decidable (Lawful log) :=
  inferInstanceAs (Decidable (Explained (fun past e => SeekEvent.Due past e) log))

theorem suppressed_append (past log : List SeekEvent) :
    suppressed (past ++ log) = log.foldl SeekEvent.suppress (suppressed past) :=
  List.foldl_append

/-! ## What a run does -/

/-- The position jumped, back or past what is decoded. -/
def drifts (w : WorkerState) (p : Position) : Bool :=
  let requested := p.currentPtsUs.toInt
  let backwardJump := 0 ≤ w.lastPlaybackPtsUs && requested < saturatingSubI64 w.lastPlaybackPtsUs 500000
  let forwardPastDecoded := saturatingAddI64 w.decodedPtsUs 1000000 < requested
  (backwardJump || forwardPastDecoded) && requested != w.lastPlaybackPtsUs

/-- What the decoder answers if following the position asks it. -/
def seekAnswer (env : Env) (p : Position) (w : WorkerState) : Option Bool :=
  if ((followSource env p).run w).2.tick = w.tick then none else some (env.seekSource w.tick)

/-- The session goes on, and its source is sought for that. -/
def resumesSource (w : WorkerState) : Payload → Bool
  | .resume p => w.sessionActive && p.sessionId = w.sessionId && w.opened && 0 ≤ w.currentPlaybackPtsUs
  | .position p => w.sessionActive && p.sessionId = w.sessionId && w.paused && !isPausedFlag p && w.opened &&
      0 ≤ p.currentPtsUs.toInt
  | _ => false

def resumeEvents (env : Env) (w : WorkerState) (p : Payload) : List SeekEvent :=
  if resumesSource w p then [.resumed (env.seekSource w.tick)] else []

/-- The position is followed in an open source. -/
def followEvents (env : Env) (w : WorkerState) (p : Position) : List SeekEvent :=
  if w.opened then [if isSeekFlag p then .explicit else .position (drifts w p) (seekAnswer env p w)] else []

/-- A POSITION of the session is followed after the pause was, if the client could be told. -/
def positionEvents (env : Env) (config : Config) (w : WorkerState) (p : Position) : List SeekEvent :=
  let followed := (followPause env config p).run w
  if w.sessionActive && p.sessionId = w.sessionId && followed.1 then followEvents env followed.2 p else []

def requestEvents (env : Env) (config : Config) (w : WorkerState) : Payload → List SeekEvent
  | .position p => resumeEvents env w (.position p) ++ positionEvents env config w p
  | p => resumeEvents env w p

/-- A frame of a client that is authenticated. -/
def frameEvents (env : Env) (config : Config) (w : WorkerState) (f : Frame) : List SeekEvent :=
  match f.request with
  | some p => if w.authenticated then requestEvents env config w p else []
  | none => []

/-- The state in which a round handles its frame. -/
def WorkerState.loaded (w : WorkerState) : WorkerState := { w with tick := w.tick + 1 }

def roundEvents (config : Config) (w : WorkerState) (r : Env × Option Frame) : List SeekEvent :=
  let v := w.step r.1 config r.2
  (w.takes r).elim [] (frameEvents r.1 config w.loaded) ++
    if v.sessionActive && v.sessionId = w.sessionId then [] else [.ended]

def seekLog (config : Config) : WorkerState → List (Env × Option Frame) → List SeekEvent
  | _, [] => []
  | w, r :: rounds => roundEvents config w r ++ seekLog config (w.step r.1 config r.2) rounds

/-- The session goes on with a successful seek while a failed one is pending. -/
def WorkerState.resumesPending (w : WorkerState) (r : Env × Option Frame) : Bool :=
  ((w.takes r).bind Frame.request).any fun p =>
    resumesSource w.loaded p && w.seekFailedPending && r.1.seekSource (w.tick + 1)

/-! ## Positions -/

theorem requiresSeek_eq (w : WorkerState) (p : Position) :
    requiresSeek w p = (isSeekFlag p || (drifts w p && !w.seekFailedPending)) := rfl

theorem seekAnswer_eq (p : Position) {t : WorkerState} (hagree : t.currentPlaybackPtsUs = t.lastPlaybackPtsUs) :
    seekAnswer env p t = if requiresSeek t p then some (env.seekSource t.tick) else none := by
  unfold seekAnswer
  cases hseeks : requiresSeek t p with
  | false =>
    have hmoves := @followSource_moves env p _ hseeks
    rw [Ends] at hmoves
    rw [hmoves]
    exact if_pos rfl
  | true =>
    have hticks : ((followSource env p).run t).2.tick = t.tick + 1 := by
      cases hanswer : env.seekSource t.tick with
      | true => exact congrArg WorkerState.tick (followSource_seeks p hseeks hanswer)
      | false => exact congrArg WorkerState.tick (followSource_fails p hagree hseeks hanswer)
    rw [hticks, if_neg (Nat.succ_ne_self _)]
    rfl

/-- The log knows what is pending. -/
structure Tracks (past : List SeekEvent) (w : WorkerState) : Prop where
  anchored : w.playback.Anchored
  active : w.sessionActive = true → w.seekFailedPending = suppressed past
  inactive : w.sessionActive = false → suppressed past = false

/-- Following a position in an open source does what is due, and the log knows what is pending then. -/
theorem followSource_lawful {past : List SeekEvent} (p : Position) {t : WorkerState}
    (hagree : t.currentPlaybackPtsUs = t.lastPlaybackPtsUs) (hpending : t.seekFailedPending = suppressed past) :
    let e := if isSeekFlag p then .explicit else .position (drifts t p) (seekAnswer env p t)
    SeekEvent.Due past e ∧ Ends (followSource env p) t fun _ v =>
      v.seekFailedPending = e.suppress (suppressed past) ∧ v.sessionId = t.sessionId := by
  have hmoved (hseeks : requiresSeek t p = false) : Ends (followSource env p) t fun _ v =>
      v.seekFailedPending = t.seekFailedPending ∧ v.sessionId = t.sessionId := by
    refine (followSource_moves p hseeks).mono fun _ v hv => ?_
    subst hv
    exact ⟨rfl, rfl⟩
  have hsought (hseeks : requiresSeek t p = true) : Ends (followSource env p) t fun _ v =>
      v.seekFailedPending = (!env.seekSource t.tick && !isSeekFlag p) ∧ v.sessionId = t.sessionId := by
    cases hanswer : env.seekSource t.tick with
    | true =>
      refine (followSource_seeks p hseeks hanswer).mono fun _ v hv => ?_
      subst hv
      exact ⟨rfl, rfl⟩
    | false =>
      refine (followSource_fails p hagree hseeks hanswer).mono fun _ v hv => ?_
      subst hv
      exact ⟨rfl, rfl⟩
  rw [seekAnswer_eq p hagree]
  cases hflag : isSeekFlag p with
  | true =>
    have hseeks : requiresSeek t p = true := by rw [requiresSeek_eq, hflag, Bool.true_or]
    refine ⟨trivial, (hsought hseeks).mono fun _ v ⟨hv, hid⟩ => ⟨hv.trans ?_, hid⟩⟩
    rw [hflag]
    exact Bool.and_false _
  | false =>
    have hdrifts : requiresSeek t p = (drifts t p && !suppressed past) := by
      rw [requiresSeek_eq, hflag, Bool.false_or, hpending]
    cases hseeks : requiresSeek t p with
    | false =>
      refine ⟨?_, (hmoved hseeks).mono fun _ v ⟨hv, hid⟩ => ⟨hv.trans hpending, hid⟩⟩
      show false = (drifts t p && !suppressed past)
      rw [← hdrifts, hseeks]
    | true =>
      refine ⟨?_, (hsought hseeks).mono fun _ v ⟨hv, hid⟩ => ⟨hv.trans ?_, hid⟩⟩
      · show true = (drifts t p && !suppressed past)
        rw [← hdrifts, hseeks]
      · rw [hflag]
        exact Bool.and_true _

/-! ## Frames -/

theorem sessionActive_followPause (p : Position) :
    Keeps WorkerState.sessionActive (followPause env config p) := by
  have hsent {α : Type} {m : Loop α} (hm : Spares WorkerState.unsent m) : Keeps WorkerState.sessionActive m :=
    fun w => .of_eq ((hm.comp WorkerState.sessionActive).eq w)
  have hchange : Keeps WorkerState.sessionActive (changePause env p) := by
    refine .bind (.modify_of_eq fun _ => by rfl) fun _ => .get_bind fun v => Steps.ite (.modify_of_eq fun _ => ?_) ?_ v
    · rfl
    · exact .onlyIf ((hsent (spares_ask _)).bind fun seeked => .onlyIf (.modify_of_eq fun _ => by rfl))
  refine .get_bind fun w => Steps.ite (.pure _) (hchange.bind fun _ => .get_bind fun v => ?_) w
  refine Steps.bind (hsent (spares_sendStatus _ _ _)) (fun sent => ?_) v
  exact .bind (.onlyIf (hsent (spares_stopRunning true))) fun _ => .pure _

/-- What a frame does to the log and to the session: it goes on and the log knows what is pending, or it is a new one
with nothing pending. -/
inductive Records (past events : List SeekEvent) (w v : WorkerState) : Prop where
  | goes (h : v.sessionActive = true →
      w.sessionActive = true ∧ v.sessionId = w.sessionId ∧ v.seekFailedPending = suppressed (past ++ events))
  | begins (hevents : events = []) (hpending : v.seekFailedPending = false)
      (hfresh : ¬ (w.sessionActive = true ∧ w.sessionId = v.sessionId))

/-- Each of the events is due after those before it. -/
def AllDue (past events : List SeekEvent) : Prop :=
  Along (fun past e => past ++ [e]) (fun past e => SeekEvent.Due past e) past events

theorem allDue_append {past events later : List SeekEvent} (h : AllDue past events) (hlater : AllDue (past ++ events) later) :
    AllDue past (events ++ later) := by
  refine along_append.mpr ⟨h, ?_⟩
  rw [run_snoc]
  exact hlater

theorem allDue_resumeEvents (past : List SeekEvent) (env : Env) (w : WorkerState) (p : Payload) :
    AllDue past (resumeEvents env w p) := by
  unfold resumeEvents
  split
  · exact ⟨trivial, trivial⟩
  · trivial

/-- A session that goes on leaves drift as it is if there is nothing pending, or its seek fails. -/
theorem suppressed_resumeEvents {past : List SeekEvent} {w : WorkerState} {p : Payload}
    (hclear : resumesSource w p = true → suppressed past = true → env.seekSource w.tick = false) :
    suppressed (past ++ resumeEvents env w p) = suppressed past := by
  unfold resumeEvents
  split
  · rename_i hresumes
    rw [suppressed_append]
    show (suppressed past && !env.seekSource w.tick) = suppressed past
    cases hpast : suppressed past with
    | false => rfl
    | true =>
      rw [hclear hresumes hpast]
      rfl
  · rw [List.append_nil]

theorem follow_records {past : List SeekEvent} (p : Position) {t : WorkerState} (ht : t.playback.Anchored)
    (hpending : t.seekFailedPending = suppressed past) :
    AllDue past (followEvents env t p) ∧ Ends (do
      let w ← get
      if w.sourceMode && w.sourceDecoder.isSome then followSource env p
      else modify fun w => { w with currentPlaybackPtsUs := p.currentPtsUs.toInt }) t fun _ v =>
        v.seekFailedPending = suppressed (past ++ followEvents env t p) ∧ v.sessionId = t.sessionId := by
  unfold followEvents
  cases hopened : t.opened with
  | true =>
    obtain ⟨hdue, hfollow⟩ := @followSource_lawful env _ p _ (ht hopened) hpending
    rw [if_pos rfl, suppressed_append]
    exact ⟨⟨hdue, trivial⟩, Ends.get_bind (Ends.ite (fun _ => hfollow) fun hclosed => (hclosed hopened).elim)⟩
  | false =>
    rw [if_neg Bool.false_ne_true, List.append_nil]
    refine ⟨trivial, Ends.get_bind (Ends.ite (fun hopen => ?_) fun _ => ⟨hpending, rfl⟩)⟩
    have hopen : t.opened = true := hopen
    rw [hopened] at hopen
    cases hopen

theorem handlePosition_records {past : List SeekEvent} (p : Position) {w : WorkerState} (hw : Tracks past w)
    (hclear : resumesSource w (.position p) = true → w.seekFailedPending = true → env.seekSource w.tick = false) :
    AllDue past (requestEvents env config w (.position p)) ∧
      Ends (handlePosition env config p) w fun _ v => Records past (requestEvents env config w (.position p)) w v := by
  cases hguard : w.sessionActive && decide (p.sessionId = w.sessionId) with
  | false =>
    have hnone : requestEvents env config w (.position p) = [] := by
      simp [requestEvents, resumeEvents, resumesSource, positionEvents, hguard]
    rw [hnone]
    refine ⟨trivial, Ends.get_bind (Ends.onlyIf (fun hmine => ?_) fun _ => .goes fun hactive => ⟨hactive, rfl, ?_⟩)⟩
    · rw [hguard] at hmine
      cases hmine
    · rw [List.append_nil]
      exact hw.active hactive
  | true =>
    have hactive : w.sessionActive = true := (Bool.and_eq_true_iff.mp hguard).1
    have hknown := hw.active hactive
    rw [hknown] at hclear
    rw [← suppressed_resumeEvents (p := .position p) hclear] at hknown
    have hdue := allDue_resumeEvents past env w (.position p)
    have hgoes : w.playback.GoesOn ((followPause env config p).run w).2.playback := (plays_followPause p).goesOn w
    have hstays : ((followPause env config p).run w).2.sessionActive = w.sessionActive := (sessionActive_followPause p).eq w
    have hanchored : ((followPause env config p).run w).2.playback.Anchored := (plays_followPause p).anchored w hw.anchored
    obtain ⟨-, hid, hpending⟩ := hgoes (hstays.trans hactive)
    obtain ⟨hfollowDue, hfollow⟩ := @follow_records env _ p _ hanchored (hpending.trans hknown)
    have hevents : requestEvents env config w (.position p) = resumeEvents env w (.position p) ++
        if ((followPause env config p).run w).1 then followEvents env ((followPause env config p).run w).2 p else [] := by
      simp only [requestEvents, positionEvents, hguard, Bool.true_and]
    rw [hevents]
    have hposition : Ends (handlePosition env config p) w fun _ v =>
        v.seekFailedPending = suppressed (past ++ (resumeEvents env w (.position p) ++
          if ((followPause env config p).run w).1 then followEvents env ((followPause env config p).run w).2 p else [])) ∧
        v.sessionId = w.sessionId := by
      refine Ends.get_bind (Ends.onlyIf (fun _ => ?_) fun hother => ?_)
      · refine Ends.bind (P := fun goOn t => goOn = ((followPause env config p).run w).1 ∧
          t = ((followPause env config p).run w).2) ⟨rfl, rfl⟩ fun goOn t ⟨hgo, ht⟩ => ?_
        subst ht
        rw [← hgo, ← List.append_assoc]
        refine Ends.onlyIf (fun htrue => ?_) fun hfalse => ?_
        · rw [htrue, if_pos rfl]
          exact hfollow.mono fun _ v ⟨hv, hvid⟩ => ⟨hv, hvid.trans hid⟩
        · rw [hfalse, if_neg Bool.false_ne_true, List.append_nil]
          exact ⟨hpending.trans hknown, hid⟩
      · rw [hguard] at hother
        cases hother
    refine ⟨allDue_append hdue ?_, hposition.mono fun _ v ⟨hv, hvid⟩ => .goes fun _ => ⟨hactive, hvid, hv⟩⟩
    split
    · exact hfollowDue
    · trivial

theorem active_of_resumesSource {w : WorkerState} {p : Payload} (h : resumesSource w p = true) : w.sessionActive = true := by
  cases p with
  | resume p =>
    simp only [resumesSource, Bool.and_eq_true] at h
    exact h.1.1.1
  | position p =>
    simp only [resumesSource, Bool.and_eq_true] at h
    exact h.1.1.1.1.1
  | _ => cases h

theorem records_of_resume {past events : List SeekEvent} {w v : WorkerState} {p : Payload} (hw : Tracks past w)
    (hclear : resumesSource w p = true → w.seekFailedPending = true → env.seekSource w.tick = false)
    (hevents : events = resumeEvents env w p) (hgoes : w.playback.GoesOn v.playback) :
    AllDue past events ∧ Records past events w v := by
  subst hevents
  have hsame : suppressed (past ++ resumeEvents env w p) = suppressed past :=
    suppressed_resumeEvents fun hresumes hpast => hclear hresumes ((hw.active (active_of_resumesSource hresumes)).trans hpast)
  refine ⟨allDue_resumeEvents past env w p, .goes fun hactive => ?_⟩
  obtain ⟨hwas, hid, hpending⟩ := hgoes hactive
  refine ⟨hwas, hid, ?_⟩
  rw [hsame]
  exact hpending.trans (hw.active hwas)

theorem frameEvents_plain {f : Frame} {w : WorkerState} (hf : w.authenticated = true → ∀ p, f.request ≠ some (.position p)) :
    frameEvents env config w f = [] ∨ ∃ p, f.request = some p ∧ frameEvents env config w f = resumeEvents env w p := by
  unfold frameEvents
  cases hrequest : f.request with
  | none => exact .inl rfl
  | some p =>
    cases hauth : w.authenticated with
    | false => exact .inl rfl
    | true =>
      refine .inr ⟨p, rfl, ?_⟩
      cases p with
      | position q => exact (hf hauth q hrequest).elim
      | _ => rfl

theorem frame_records {past : List SeekEvent} {f : Frame} {w : WorkerState} (hw : Tracks past w)
    (hclear : ∀ p, f.request = some p → resumesSource w p = true → w.seekFailedPending = true →
      env.seekSource w.tick = false) :
    AllDue past (frameEvents env config w f) ∧
      Records past (frameEvents env config w f) w (w.handled env config f) := by
  have hgoesOn (hplain : w.authenticated = true → ∀ p, f.request ≠ some (.position p))
      (hgoes : w.playback.GoesOn (w.handled env config f).playback) :
      AllDue past (frameEvents env config w f) ∧
        Records past (frameEvents env config w f) w (w.handled env config f) := by
    rcases @frameEvents_plain env config _ _ hplain with hnone | ⟨p, hp, hevents⟩
    · rw [hnone]
      refine ⟨trivial, .goes fun hactive => ?_⟩
      obtain ⟨hwas, hid, hpending⟩ := hgoes hactive
      rw [List.append_nil]
      exact ⟨hwas, hid, hpending.trans (hw.active hwas)⟩
    · exact records_of_resume hw (hclear p hp) hevents hgoes
  cases @handled_playback env config f w with
  | plain hf h => exact hgoesOn hf (Playback.goesOn_steps h)
  | start p hf h =>
    have hplain : w.authenticated = true → ∀ q, f.request ≠ some (.position q) := by
      intro _ q hq
      rw [hf] at hq
      cases hq
    cases h with
    | refused h => exact hgoesOn hplain (h ▸ .refl _)
    | ended h =>
      refine hgoesOn hplain fun hactive => ?_
      rw [h] at hactive
      cases hactive
    | begun hfresh h =>
      have hevents : frameEvents env config w f = [] := by
        unfold frameEvents
        rw [hf]
        exact ite_self _
      have hnew : (newSession p (env.openSource w.tick) (env.seekSource (w.tick + 1))).playback.sessionId = p.sessionId ∧
          (newSession p (env.openSource w.tick) (env.seekSource (w.tick + 1))).playback.seekFailedPending = false := by
        unfold newSession
        split <;> exact ⟨rfl, rfl⟩
      rw [← h] at hnew
      have hid : (w.handled env config f).sessionId = p.sessionId := hnew.1
      refine ⟨hevents ▸ trivial, .begins hevents hnew.2 ?_⟩
      rw [hid]
      exact hfresh
  | position p hauth hf =>
    have hevents : frameEvents env config w f = requestEvents env config w (.position p) := by
      unfold frameEvents
      rw [hf]
      exact if_pos hauth
    rw [hevents, handled_position hf hauth]
    exact handlePosition_records p hw (hclear _ hf)

/-! ## Rounds -/

theorem loadRunning_loads (w : WorkerState) :
    Ends (loadRunning env) w fun running _ => running = (w.running && !env.readerFailed w.tick) := by
  refine Ends.bind (m := ask env.readerFailed) (P := fun failed t => failed = env.readerFailed w.tick ∧ t.running = w.running)
    ⟨rfl, rfl⟩ fun failed t ⟨hfailed, ht⟩ => ?_
  rw [← hfailed, ← ht]
  cases failed with
  | false => exact (Bool.and_true _).symm
  | true => exact (Bool.and_false _).symm

/-- A round that handles no frame. -/
theorem goesOn_of_untaken {w : WorkerState} {r : Env × Option Frame} (h : w.takes r = none) :
    w.playback.GoesOn (w.step r.1 config r.2).playback := by
  obtain ⟨env, frame⟩ := r
  have hfinished : Plays (modify fun w => { w with finished := true }) := plays_modify fun _ => by rfl
  have hload : Plays (loadRunning env) := plays_of_sent spares_loadRunning
  cases frame with
  | none =>
    have hround : Plays (do let flow ← iterate env config none; finish flow) := plays_afterFrame .proceed
    have hawake : Plays (awake env none) := (plays_of_translated spares_runThreads).bind fun _ => .get_bind fun _ => .refl
    have hwake : Plays (wake env config none) := by
      refine .get_bind fun v => Steps.onlyIf (hawake.bind fun woken => hload.bind fun running => ?_) v
      exact .ite hfinished (.onlyIf hround)
    exact hwake.goesOn w
  | some f =>
    by_cases hdone : w.finished = true
    · rw [step_of_finished hdone]
      exact .refl _
    have hnot : (w.running && !env.readerFailed w.tick) = false := by
      by_contra htakes
      have hopen : (w.running && !w.finished && !env.readerFailed w.tick) = true := by
        simpa [Bool.eq_false_of_not_eq_true hdone] using htakes
      rw [WorkerState.takes, if_pos hopen] at h
      cases h
    have hwake : Ends (wake env config (some f)) w fun _ v => w.playback.GoesOn v.playback := by
      refine Ends.get_bind (Ends.onlyIf (fun _ => ?_) fun _ => .refl _)
      refine Ends.bind (m := awake env (some f)) (P := fun _ t => t = w) rfl fun _ t ht => ?_
      subst ht
      have hloaded : Ends (loadRunning env) t fun running v => running = false ∧ t.playback.GoesOn v.playback :=
        ⟨(loadRunning_loads t).trans hnot, hload.goesOn t⟩
      refine hloaded.bind fun running v hends => ?_
      obtain ⟨hstopped, hv⟩ := hends
      rw [hstopped]
      exact hv.trans (hfinished.goesOn v)
    exact hwake

/-- What a round leaves of the frame that it handled. -/
theorem goesOn_of_taken {w : WorkerState} {r : Env × Option Frame} {f : Frame} (h : w.takes r = some f) :
    (w.loaded.handled r.1 config f).playback.GoesOn (w.step r.1 config r.2).playback := by
  obtain ⟨env, frame⟩ := r
  unfold WorkerState.takes at h
  split at h
  · rename_i hopen
    simp only [Bool.and_eq_true, Bool.not_eq_true'] at hopen
    obtain ⟨⟨hrunning, hfinished⟩, hreader⟩ := hopen
    have hframe : frame = some f := h
    rw [hframe, step_some hrunning hfinished hreader]
    exact (plays_afterFrame _).goesOn _
  · cases h

/-- The log knows what is pending after the round, whose session is over or goes on. -/
theorem Records.tracks {past events : List SeekEvent} {w u v : WorkerState} (hw : Tracks past w)
    (hrecords : Records past events w u) (hgoes : u.playback.GoesOn v.playback) (hanchored : v.playback.Anchored) :
    Tracks (past ++ (events ++ if v.sessionActive && v.sessionId = w.sessionId then [] else [.ended])) v := by
  cases hgoing : v.sessionActive && decide (v.sessionId = w.sessionId) with
  | false =>
    rw [if_neg Bool.false_ne_true, ← List.append_assoc]
    have hended : suppressed (past ++ events ++ [.ended]) = false := by
      rw [suppressed_append]
      rfl
    refine ⟨hanchored, fun hactive => ?_, fun _ => hended⟩
    rw [hended]
    obtain ⟨hwas, hid, hpending⟩ := hgoes hactive
    rw [hactive, Bool.true_and, decide_eq_false_iff_not] at hgoing
    cases hrecords with
    | goes h => exact (hgoing (hid.trans (h hwas).2.1)).elim
    | begins hevents hnone hfresh => exact hpending.trans hnone
  | true =>
    rw [if_pos rfl, List.append_nil]
    obtain ⟨hactive, hsame⟩ := Bool.and_eq_true_iff.mp hgoing
    refine ⟨hanchored, fun _ => ?_, fun hover => ?_⟩
    · obtain ⟨hwas, hid, hpending⟩ := hgoes hactive
      cases hrecords with
      | goes h => exact hpending.trans (h hwas).2.2
      | begins hevents hnone hfresh =>
        -- a new session with the same id: there was none before
        have hno : w.sessionActive = false := by
          by_contra hyes
          refine hfresh ⟨Bool.eq_true_of_not_eq_false hyes, ?_⟩
          exact (of_decide_eq_true hsame).symm.trans hid
        rw [hevents, List.append_nil, hw.inactive hno]
        exact hpending.trans hnone
    · rw [hactive] at hover
      cases hover

theorem round_records {past : List SeekEvent} {w : WorkerState} {r : Env × Option Frame} (hw : Tracks past w)
    (hclear : w.resumesPending r = false) :
    AllDue past (roundEvents config w r) ∧ Tracks (past ++ roundEvents config w r) (w.step r.1 config r.2) := by
  have hanchored : (w.step r.1 config r.2).playback.Anchored := anchored_wake r.2 w hw.anchored
  have hended (past : List SeekEvent) (c : Bool) : AllDue past (if c then [] else [SeekEvent.ended]) := by
    cases c with
    | false => exact ⟨trivial, trivial⟩
    | true => trivial
  unfold roundEvents
  dsimp only
  cases htakes : w.takes r with
  | none =>
    have hnone : Records past [] w w := .goes fun hactive => ⟨hactive, rfl, (List.append_nil past).symm ▸ hw.active hactive⟩
    exact ⟨hended _ _, hnone.tracks hw (goesOn_of_untaken htakes) hanchored⟩
  | some f =>
    have hloaded : Tracks past w.loaded := ⟨hw.anchored, hw.active, hw.inactive⟩
    have hsilent (p : Payload) (hp : f.request = some p) (hresumes : resumesSource w.loaded p = true)
        (hpending : w.loaded.seekFailedPending = true) : r.1.seekSource w.loaded.tick = false := by
      rw [WorkerState.resumesPending, htakes, Option.bind_some, hp] at hclear
      have hpending : w.seekFailedPending = true := hpending
      rw [Option.any_some, hresumes, hpending] at hclear
      exact hclear
    obtain ⟨hdue, hrecords⟩ := @frame_records r.1 config _ _ _ hloaded hsilent
    have htracks := hrecords.tracks hloaded (goesOn_of_taken htakes) hanchored
    exact ⟨allDue_append hdue (hended _ _), htracks⟩

/-! ## Runs -/

theorem allDue_seekLog {past : List SeekEvent} {w : WorkerState} {rounds : List (Env × Option Frame)} (hw : Tracks past w)
    (hclear : Along (fun w r => w.step r.1 config r.2) (fun w r => w.resumesPending r = false) w rounds) :
    AllDue past (seekLog config w rounds) := by
  induction rounds generalizing past w with
  | nil => trivial
  | cons r rounds ih =>
    obtain ⟨hdue, htracks⟩ := @round_records config _ _ _ hw hclear.1
    exact allDue_append hdue (ih htracks hclear.2)

/-- **A failed implicit seek is not repeated, and nothing else keeps the source from being sought.** -/
theorem seeks_lawful (config : Config) (engine translator : Bool) {rounds : List (Env × Option Frame)}
    (hclear : Along (fun w r => w.step r.1 config r.2) (fun w r => w.resumesPending r = false)
      (WorkerState.start engine translator) rounds) :
    Lawful (seekLog config (WorkerState.start engine translator) rounds) :=
  allDue_seekLog ⟨nofun, nofun, fun _ => rfl⟩ hclear

/-- An implicit seek fails, is not repeated, and then the client asks for one. -/
def stuckRounds : List (Env × Option Frame) :=
  oneCueRounds ++ [(.stuck, some jumpFrame), (.stuck, some jumpFrame),
    (.oneCue .again, some (QueueLog.frameOf (.position { jumpPosition with flags := positionFlagSeek })))]

theorem seeks_lawful_stuck : Lawful (seekLog downloader (WorkerState.start true true) stuckRounds) :=
  seeks_lawful downloader true true (by decide +kernel)

/-- An implicit seek fails, the client pauses and resumes, which seeks the source, and the position drifts again. -/
def resumedRounds : List (Env × Option Frame) :=
  oneCueRounds ++ [(.stuck, some jumpFrame), (.stuck, some pauseFrame),
    (.oneCue .again, some (QueueLog.frameOf (.resume ⟨.zero _, ctrlReasonUserPause⟩))), (.oneCue .again, some jumpFrame)]

/-- Drift stays uncorrected though a seek succeeded. -/
theorem not_seeks_lawful : ¬ ∀ (config : Config) (engine translator : Bool) (rounds : List (Env × Option Frame)),
    Lawful (seekLog config (WorkerState.start engine translator) rounds) := by
  intro h
  have hlog : ¬ Lawful (seekLog downloader (WorkerState.start true true) resumedRounds) := by decide +kernel
  exact hlog (h downloader true true resumedRounds)

end VlcWhisper.Worker
