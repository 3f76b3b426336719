import VlcWhisper.Worker.Epochs
import VlcWhisper.Worker.AudioBound

/-!
# A new session inherits nothing (`vw_worker.c`)

What an accepted START leaves is a function of the START and of the decoder's answers (`newSession`): whatever was
before it, all that belongs to a session is set anew. Main result: `fresh_start`, on two runs that end in the same
START.
-/

namespace VlcWhisper.Worker

open VlcWhisper.Lib VlcWhisper.Protocol SegmentBuilder Relation

variable {env : Env} {config : Config}

/-! ## What belongs to a session -/

/-- All that the main loop keeps for its session. Not among it are the counters of segments and frames, the metrics, the
settings of the translation, and what belongs to the worker itself. -/
structure Session where
  sessionId : SessionId
  sessionActive : Bool
  paused : Bool
  liveProgressiveMode : Bool
  liveNextInferenceSamples : Nat
  currentPlaybackPtsUs : Int
  lastPlaybackPtsUs : Int
  decodedPtsUs : Int
  samples : List SessionId
  startPtsUs : Int
  startPtsFracUs : Nat
  queue : List Cue
  history : List HistoryEntry
  coveredEndUs : Int
  vad : List (List SessionId)
  sourceDecoder : Option SessionId
  sourceMode : Bool
  sourceEof : Bool
  seekFailedPending : Bool
  jobs : List Job
  results : List Completion
  activeTranslationCount : Nat

def WorkerState.session (w : WorkerState) : Session where
  sessionId := w.sessionId
  sessionActive := w.sessionActive
  paused := w.paused
  liveProgressiveMode := w.liveProgressiveMode
  liveNextInferenceSamples := w.liveNextInferenceSamples
  currentPlaybackPtsUs := w.currentPlaybackPtsUs
  lastPlaybackPtsUs := w.lastPlaybackPtsUs
  decodedPtsUs := w.decodedPtsUs
  samples := w.audioBuf.toList
  startPtsUs := w.audioBuf.startPtsUs
  startPtsFracUs := w.audioBuf.startPtsFracUs
  queue := w.builder.queue.toList
  history := w.builder.history.toList
  coveredEndUs := w.builder.coveredEndUs
  vad := w.vad
  sourceDecoder := w.sourceDecoder
  sourceMode := w.sourceMode
  sourceEof := w.sourceEof
  seekFailedPending := w.seekFailedPending
  jobs := w.translator.elim [] fun t => t.jobs.toList
  results := w.translator.elim [] fun t => t.results.toList
  activeTranslationCount := w.translator.elim 0 TranslateAsync.activeTranslationCount

/-- The START names a source. -/
def hasSource (p : Start) : Bool := 0 < p.sourceUrlLen && p.sourceUrl.str != []

/-- The session of an accepted START, before its source is opened. -/
def plainSession (p : Start) : Session :=
  let live := p.sourceKind = sourceLiveAudio
  { sessionId := p.sessionId, sessionActive := true, paused := false, liveProgressiveMode := live
    liveNextInferenceSamples := if live then liveStartupSamples else windowSamples
    currentPlaybackPtsUs := p.timelineOriginPtsUs.toInt, lastPlaybackPtsUs := -1
    decodedPtsUs := p.timelineOriginPtsUs.toInt
    samples := [], startPtsUs := -1, startPtsFracUs := 0
    queue := [], history := [], coveredEndUs := -1, vad := []
    sourceDecoder := none, sourceMode := false, sourceEof := false, seekFailedPending := false
    jobs := [], results := [], activeTranslationCount := 0 }

/-- The session of an accepted START, from the answers to opening its source and to the first seek. -/
def newSession (p : Start) (opened seeked : Bool) : Session :=
  if hasSource p && opened then
    let open_ := p.timelineOriginPtsUs.toInt ≤ 0 || seeked
    { plainSession p with lastPlaybackPtsUs := p.timelineOriginPtsUs.toInt
                          sourceDecoder := if open_ then some p.sessionId else none, sourceMode := open_ }
  else plainSession p

/-! ## START_SESSION -/

/-- The worker begins a session with this START. -/
structure Accepts (env : Env) (w : WorkerState) (p : Start) : Prop where
  authenticated : w.authenticated = true
  fresh : ¬ (w.sessionActive = true ∧ w.sessionId = p.sessionId)
  sampleRate : p.sampleRate = 16000
  engine : w.engine = true
  language : setLanguage env p.language.str = true

theorem session_beginSession (p : Start) (w : WorkerState) :
    (w.beginSession p).session = { plainSession p with sourceMode := (w.beginSession p).sourceMode } := by
  unfold WorkerState.session WorkerState.beginSession plainSession
  dsimp only
  cases w.translator <;> rfl

theorem session_of_sent {α : Type} {m : Loop α} (h : Spares WorkerState.unsent m) (w : WorkerState) :
    Ends m w fun _ v => v.session = w.session :=
  (h.comp WorkerState.session).eq w

/-- The session whose source was opened. -/
def sourceSession (p : Start) : Session :=
  { plainSession p with lastPlaybackPtsUs := p.timelineOriginPtsUs.toInt
                        sourceDecoder := some p.sessionId, sourceMode := true }

theorem newSession_of_open {p : Start} (hsource : hasSource p = true) {seeked : Bool}
    (h : p.timelineOriginPtsUs.toInt ≤ 0 ∨ seeked = true) : newSession p true seeked = sourceSession p := by
  have hopen : (decide (p.timelineOriginPtsUs.toInt ≤ 0) || seeked) = true := by simpa using h
  rw [newSession, hsource, Bool.and_self, if_pos rfl]
  dsimp only
  rw [hopen]
  rfl

theorem session_openSource {p : Start} {w : WorkerState} {mode : Bool}
    (hw : w.session = { plainSession p with sourceMode := mode }) :
    Ends (openSource env p) w fun _ v =>
      v.session = newSession p (env.openSource w.tick) (env.seekSource (w.tick + 1)) := by
  have hplain {v : WorkerState} (hv : v.session = w.session) :
      ({ v with sourceMode := false, sourceEof := false } : WorkerState).session = plainSession p := by
    show { v.session with sourceMode := false, sourceEof := false } = plainSession p
    rw [hv, hw]
    rfl
  refine Ends.ite (fun hsource => ?_) fun hnone => ?_
  · have hsource : hasSource p = true := hsource
    refine Ends.bind (m := call .openSource env.openSource) (P := fun opened t => opened = env.openSource w.tick ∧
      t.session = w.session ∧ t.tick = w.tick + 1) ⟨rfl, rfl, rfl⟩ fun opened t ⟨hopened, ht, htick⟩ => ?_
    refine Ends.ite (fun hopen => ?_) fun hfailed => ?_
    · rw [← hopened, hopen]
      have hsession : ({ t with sourceDecoder := some p.sessionId, sourceMode := true, sourceEof := false
                                currentPlaybackPtsUs := p.timelineOriginPtsUs.toInt
                                lastPlaybackPtsUs := p.timelineOriginPtsUs.toInt
                                decodedPtsUs := p.timelineOriginPtsUs.toInt } : WorkerState).session =
          sourceSession p := by
        show { t.session with sourceDecoder := some p.sessionId, sourceMode := true, sourceEof := false
                              currentPlaybackPtsUs := p.timelineOriginPtsUs.toInt
                              lastPlaybackPtsUs := p.timelineOriginPtsUs.toInt
                              decodedPtsUs := p.timelineOriginPtsUs.toInt } = _
        rw [ht, hw]
        rfl
      refine Ends.modify_bind (Ends.bind (P := fun _ (v : WorkerState) =>
        v.session = newSession p true (env.seekSource (w.tick + 1))) ?_ fun _ _ hv => hv)
      refine Ends.onlyIf (fun hpos => ?_) fun hzero => ?_
      · refine Ends.bind (m := ask env.seekSource) (P := fun seeked u => seeked = env.seekSource (w.tick + 1) ∧
          u.session = sourceSession p) ⟨congrArg env.seekSource htick, hsession⟩ fun seeked u ⟨hseeked, hu⟩ => ?_
        rw [← hseeked]
        refine Ends.onlyIf (fun hnot => ?_) fun hok => ?_
        · show { u.session with sourceDecoder := none, sourceMode := false } = _
          have hclosed : (decide (p.timelineOriginPtsUs.toInt ≤ 0) || seeked) = false := by
            simp only [decide_eq_true_eq, Bool.not_eq_true'] at hpos hnot
            rw [hnot, Bool.or_false, decide_eq_false_iff_not]
            omega
          rw [newSession, hsource, Bool.and_self, if_pos rfl, hu]
          dsimp only
          rw [hclosed]
          rfl
        · rw [newSession_of_open hsource (.inr (by simpa using hok))]
          exact hu
      · rw [newSession_of_open hsource (.inl (by simpa using hzero))]
        exact hsession
    · rw [newSession, ← hopened, Bool.eq_false_of_not_eq_true hfailed, Bool.and_false, if_neg Bool.false_ne_true]
      refine Ends.modify_bind ((session_of_sent (spares_sendError _ _ _ _) _).bind fun sent u hu => ?_)
      refine Ends.bind (P := fun _ (v : WorkerState) => v.session = plainSession p) ?_ fun _ _ hv => hv
      have hstop : Spares WorkerState.unsent (onlyIf (!sent) (stopRunning true)) := Steps.onlyIf (spares_stopRunning true)
      exact (session_of_sent hstop u).trans (hu.trans (hplain ht))
  · refine Ends.modify_bind ?_
    have hnone : hasSource p = false := Bool.eq_false_of_not_eq_true hnone
    rw [newSession, hnone, Bool.false_and, if_neg Bool.false_ne_true]
    exact hplain rfl

theorem session_handleStart {p : Start} {w : WorkerState} (h : Accepts env w p) :
    Ends (handleStart env config p) w fun _ v =>
      v.session = newSession p (env.openSource w.tick) (env.seekSource (w.tick + 1)) := by
  refine Ends.get_bind ?_
  rw [if_neg (by simpa using h.fresh)]
  have hreplaced : Ends (onlyIf w.sessionActive (modify WorkerState.replaceSession)) w fun _ t => t.tick = w.tick :=
    Ends.onlyIf (fun _ => rfl) fun _ => rfl
  refine hreplaced.bind fun _ t htick => ?_
  rw [if_neg (by rw [h.sampleRate]; exact fun hne => hne rfl), if_neg (by rw [h.engine]; decide),
    if_neg (by rw [h.language]; decide)]
  have htick' : (t.beginSession p).tick = w.tick := htick
  have hopened := @session_openSource env _ _ _ (session_beginSession p t)
  rw [htick'] at hopened
  refine Ends.modify_bind (hopened.bind fun goOn u hu => Ends.onlyIf (fun _ => Ends.get_bind ?_) fun _ => hu)
  refine (session_of_sent (spares_sendPayload _ _) u).bind fun started v hv => ?_
  refine Ends.ite (fun _ => ?_) fun _ => ?_
  · exact (session_of_sent spares_reportStatus v).mono fun _ x hx => hx.trans (hv.trans hu)
  · exact (session_of_sent (spares_stopRunning true) v).mono fun _ x hx => hx.trans (hv.trans hu)

/-! ## The translator -/

theorem translator_openSource (p : Start) : Spares WorkerState.translator (openSource env p) := by
  have hcall : Spares WorkerState.translator (call .openSource env.openSource) := fun _ => .of_eq rfl
  have hset {f : WorkerState → WorkerState} (hf : ∀ w, (f w).translator = w.translator ∧ (f w).running = w.running) :
      Spares WorkerState.translator (modify f) := .modify_of_eq fun w => Prod.ext (hf w).1 (hf w).2
  refine .ite (hcall.bind fun opened => .ite ?_ ?_) ?_
  · refine .bind (hset fun _ => ⟨by rfl, by rfl⟩) fun _ => .bind (.onlyIf ?_) fun _ => .pure _
    refine ((spares_ask _).comp WorkerState.translator).bind fun seeked => .onlyIf (hset fun _ => ⟨by rfl, by rfl⟩)
  · refine .bind (hset fun _ => ⟨by rfl, by rfl⟩) fun _ => ((spares_sendError _ _ _ _).comp WorkerState.translator).bind fun _ => ?_
    exact .bind (.onlyIf ((spares_stopRunning true).comp WorkerState.translator)) fun _ => .pure _
  · exact .bind (hset fun _ => ⟨by rfl, by rfl⟩) fun _ => .pure _

/-- An accepted START begins a new epoch, and nothing else happens to the translator. -/
theorem translator_handleStart {p : Start} {w : WorkerState} (h : Accepts env w p) :
    Ends (handleStart env config p) w fun _ v => v.translator = w.translator.map TranslateAsync.invalidate := by
  have hsent {α : Type} {m : Loop α} (hm : Spares WorkerState.unsent m) (u : WorkerState) :
      Ends m u fun _ v => v.translator = u.translator := (hm.comp WorkerState.translator).eq u
  refine Ends.get_bind ?_
  rw [if_neg (by simpa using h.fresh)]
  have hreplaced : Ends (onlyIf w.sessionActive (modify WorkerState.replaceSession)) w fun _ t =>
      t.translator = w.translator := Ends.onlyIf (fun _ => rfl) fun _ => rfl
  refine hreplaced.bind fun _ t ht => ?_
  rw [if_neg (by rw [h.sampleRate]; exact fun hne => hne rfl), if_neg (by rw [h.engine]; decide),
    if_neg (by rw [h.language]; decide)]
  have hbegun : (t.beginSession p).translator = w.translator.map TranslateAsync.invalidate :=
    congrArg (Option.map TranslateAsync.invalidate) ht
  have hopened : Ends (openSource env p) (t.beginSession p) fun _ u =>
      u.translator = w.translator.map TranslateAsync.invalidate := ((translator_openSource p).eq _).trans hbegun
  refine Ends.modify_bind (hopened.bind fun goOn u hu => Ends.onlyIf (fun _ => Ends.get_bind ?_) fun _ => hu)
  refine (hsent (spares_sendPayload _ _) u).bind fun started v hv => ?_
  refine Ends.ite (fun _ => ?_) fun _ => ?_
  · exact (hsent spares_reportStatus v).mono fun _ x hx => hx.trans (hv.trans hu)
  · exact (hsent (spares_stopRunning true) v).mono fun _ x hx => hx.trans (hv.trans hu)

/-- Until the epoch numbers run out, no thread has a translation of the new epoch either. -/
theorem entries_handleStart {p : Start} {w : WorkerState} (h : Accepts env w p) (hw : w.core.Tracked)
    (hlt : resets w.trace + 1 < uint64Max) :
    Ends (handleStart env config p) w fun _ v => ∀ t ∈ v.translator, t.entries = [] := by
  refine (translator_handleStart h).mono fun _ v hv t ht => ?_
  rw [hv] at ht
  obtain ⟨t, htold, rfl⟩ := Option.map_eq_some_iff.mp ht
  exact (hw (Nat.lt_of_succ_lt hlt) t htold).entries_invalidate hlt

/-! ## Two runs -/

/-- The state after the handler of a frame. -/
def WorkerState.handled (env : Env) (config : Config) (f : Frame) (w : WorkerState) : WorkerState :=
  ((handleFrame env config f).run w).2

/-- The translator has nothing of its epoch: no job, no result, no active translation; and until the epoch numbers run
out, what a thread still holds is of another epoch. -/
structure NoTranslations (w v : WorkerState) : Prop where
  jobs : ∀ t ∈ v.translator, t.jobs.toList = []
  results : ∀ t ∈ v.translator, t.results.toList = []
  active : ∀ t ∈ v.translator, t.activeTranslationCount = 0
  entries : resets w.trace + 1 < uint64Max → ∀ t ∈ v.translator, t.entries = []

theorem handled_start {f : Frame} {p : Start} (hf : f.request = some (.startSession p)) {w : WorkerState}
    (h : Accepts env w p) (hw : w.core.Tracked) :
    (w.handled env config f).session = newSession p (env.openSource w.tick) (env.seekSource (w.tick + 1)) ∧
      NoTranslations w (w.handled env config f) := by
  have hstart : w.handled env config f = ((handleStart env config p).run w).2 := by
    have hauth : ¬ (!w.authenticated) = true := by
      rw [h.authenticated]
      decide
    have hdispatch : Ends (dispatch env config (.startSession p)) w fun _ v => v = ((handleStart env config p).run w).2 := by
      refine Ends.get_bind ?_
      rw [if_neg hauth]
      exact rfl
    rw [WorkerState.handled, handleFrame_eq, hf]
    exact hdispatch
  rw [hstart]
  have htranslator : ((handleStart env config p).run w).2.translator = w.translator.map TranslateAsync.invalidate :=
    translator_handleStart h
  refine ⟨session_handleStart h, ?_, ?_, ?_, fun hlt => entries_handleStart h hw hlt⟩ <;>
  · intro t ht
    rw [htranslator] at ht
    obtain ⟨t, -, rfl⟩ := Option.map_eq_some_iff.mp ht
    rfl

/-- The state in which the main loop handles a frame that it took after these rounds. -/
def atFrame (config : Config) (engine translator : Bool) (rounds : List (Env × Option Frame)) (env : Env) : WorkerState :=
  ((loadRunning env).run (roundsRun config engine translator rounds)).2

theorem tracked_atFrame (config : Config) (engine translator : Bool) (rounds : List (Env × Option Frame)) (env : Env) :
    (atFrame config engine translator rounds env).core.Tracked :=
  steps_invariant Core.tracked_step (steps_loadRunning _) (tracked_run config engine translator rounds)

/-- **A fresh session inherits nothing.** Two workers, after any two runs, that accept the same START and whose decoders
give the same answers, are left with the same session, and with no translations. -/
theorem fresh_start {config config' : Config} {engine engine' translator translator' : Bool}
    {rounds rounds' : List (Env × Option Frame)} {env env' : Env} {w w' : WorkerState}
    (hrun : w = atFrame config engine translator rounds env)
    (hrun' : w' = atFrame config' engine' translator' rounds' env') {f : Frame} {p : Start}
    (hf : f.request = some (.startSession p)) (h : Accepts env w p) (h' : Accepts env' w' p)
    (hopen : env.openSource w.tick = env'.openSource w'.tick)
    (hseek : env.seekSource (w.tick + 1) = env'.seekSource (w'.tick + 1)) :
    (w.handled env config f).session = (w'.handled env' config' f).session ∧
      NoTranslations w (w.handled env config f) ∧ NoTranslations w' (w'.handled env' config' f) := by
  subst hrun hrun'
  obtain ⟨hsession, hnone⟩ := @handled_start _ config _ _ hf _ h (tracked_atFrame _ _ _ _ _)
  obtain ⟨hsession', hnone'⟩ := @handled_start _ config' _ _ hf _ h' (tracked_atFrame _ _ _ _ _)
  refine ⟨?_, hnone, hnone'⟩
  rw [hsession, hsession', hopen, hseek]

/-- The START of a live session with another id. -/
def liveStart : Start := { QueueLog.sampleStart with sessionId := .pad _ [7] }

def isStartOf (s : Start) : Payload → Bool
  | .startSession p => p = s
  | _ => false

theorem request_liveStart : (QueueLog.frameOf (.startSession liveStart)).request = some (.startSession liveStart) := by
  have hsame : (QueueLog.frameOf (.startSession liveStart)).request.any (isStartOf liveStart) = true := by
    decide +kernel
  obtain ⟨p, hp, hasks⟩ := (Option.any_eq_true _ _).mp hsame
  cases p with
  | startSession p =>
    have heq : p = liveStart := of_decide_eq_true hasks
    exact hp.trans (congrArg (fun q => some (Payload.startSession q)) heq)
  | _ => cases hasks

/-- A worker with a live session. -/
def liveRounds : List (Env × Option Frame) :=
  [(.quiet, some hello), (.quiet, some (QueueLog.frameOf (.startSession QueueLog.sampleStart)))]

/-- A worker that did nothing yet, and one with a session of its own. -/
theorem fresh_start_live :
    ((atFrame downloader true true [(.quiet, some hello)] .quiet).handled .quiet downloader
        (QueueLog.frameOf (.startSession liveStart))).session =
      ((atFrame downloader true true liveRounds .quiet).handled .quiet downloader
        (QueueLog.frameOf (.startSession liveStart))).session := by
  have hopen (n : Nat) : Env.quiet.openSource n = Env.quiet.openSource 0 := by rfl
  have hseek (n : Nat) : Env.quiet.seekSource n = Env.quiet.seekSource 0 := by rfl
  have h : Accepts .quiet (atFrame downloader true true [(.quiet, some hello)] .quiet) liveStart := by
    refine ⟨?_, ?_, ?_, ?_, ?_⟩ <;> decide +kernel
  have h' : Accepts .quiet (atFrame downloader true true liveRounds .quiet) liveStart := by
    refine ⟨?_, ?_, ?_, ?_, ?_⟩ <;> decide +kernel
  exact (fresh_start rfl rfl request_liveStart h h' ((hopen _).trans (hopen _).symm) ((hseek _).trans (hseek _).symm)).1

end VlcWhisper.Worker
