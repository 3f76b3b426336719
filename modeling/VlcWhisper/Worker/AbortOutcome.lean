import VlcWhisper.Worker.SingleFlight

/-!
# What comes of an abort (`vw_model_download.c`, `vw_worker.c`)

An abort only sets a flag; the thread of the download looks at it before it starts, around a transfer and before the
rename. The worker finds out that the thread gave up from two stages, the one it saw last and the one it sees now.

Main results:

* `abort_is_last_word`: the abort is the last word on the stage unless the thread was between the end of its transfer
  and the rename.
* `abort_concludes`: the worker frees the download of a thread that gave up, and tells the client, exactly if it had
  seen the transfer before.
-/

namespace VlcWhisper.Worker

open VlcWhisper.Lib VlcWhisper.Protocol

/-! ## The thread -/

/-- From here the thread writes, or may write, its stage before it looks at the flag. -/
def ThreadPoint.overwrites : ThreadPoint → Bool
  | .sized _ | .verify _ | .hash _ | .discard _ | .reset _ | .oversize | .fail _ => true
  | _ => false

namespace ModelDownload

/-- The stages of an aborted download. -/
def isAbortStage (stage : UInt8) : Bool := stage = modelStageAborting || stage = modelStageIdle

/-- The download is aborted, and its thread finds out before it writes another stage. -/
structure GivenUp (d : ModelDownload) : Prop where
  abortRequested : d.abortRequested = true
  stage : isAbortStage d.progress.stage = true
  point : d.point.overwrites = false

theorem abort_of_goes {d : ModelDownload} (hdone : d.progress.stage ≠ modelStageDone)
    (hfailed : d.progress.stage ≠ modelStageFailed) : d.abort.abortRequested = true ∧
      isAbortStage d.abort.progress.stage = true ∧ d.abort.point = d.point ∧ d.abort.partFile = d.partFile := by
  unfold abort
  rw [if_neg (by simp [hdone, hfailed])]
  dsimp only
  split
  · exact ⟨rfl, rfl, rfl, rfl⟩
  · rename_i hidle
    refine ⟨rfl, ?_, rfl, rfl⟩
    unfold isAbortStage
    rw [not_not.mp hidle]
    rfl

theorem givenUp_abort {d : ModelDownload} (hd : d.GivenUp) : d.abort.GivenUp := by
  have hstage := hd.stage
  unfold isAbortStage at hstage
  have hdone : d.progress.stage ≠ modelStageDone := by
    intro h
    rw [h] at hstage
    exact absurd hstage (by decide)
  have hfailed : d.progress.stage ≠ modelStageFailed := by
    intro h
    rw [h] at hstage
    exact absurd hstage (by decide)
  obtain ⟨hflag, hstage, hpoint, -⟩ := abort_of_goes hdone hfailed
  exact ⟨hflag, hstage, by rw [hpoint, hd.point]⟩

/-- The thread of an aborted download goes on to where it gives up. -/
theorem givenUp_threadStep {d : ModelDownload} (hd : d.GivenUp) (a : ThreadAnswer) : (d.threadStep a).GivenUp := by
  obtain ⟨hflag, hstage, hpoint⟩ := hd
  unfold threadStep
  cases hat : d.point with
  | sized | verify | hash | discard | reset | oversize | fail =>
    rw [hat] at hpoint
    cases hpoint
  | enter =>
    dsimp only
    rw [if_pos hflag]
    exact ⟨hflag, rfl, rfl⟩
  | attempt n =>
    dsimp only
    rw [hflag, Bool.not_true, Bool.and_false, if_neg nofun]
    exact ⟨hflag, hstage, rfl⟩
  | transferred n ok =>
    dsimp only
    rw [if_pos hflag]
    exact ⟨hflag, hstage, rfl⟩
  | connected n =>
    dsimp only
    rw [if_pos hflag]
    exact ⟨hflag, hstage, rfl⟩
  | store n total chunk =>
    dsimp only
    unfold storeStep
    rw [if_pos hflag]
    exact ⟨hflag, hstage, rfl⟩
  | publish n =>
    dsimp only
    unfold publishStep
    rw [if_pos hflag]
    exact ⟨hflag, rfl, rfl⟩
  | conclude =>
    dsimp only
    rw [if_pos hflag]
    exact ⟨hflag, rfl, rfl⟩
  | wait n =>
    dsimp only
    split <;> exact ⟨hflag, hstage, rfl⟩
  | abortMark | abortIdle => exact ⟨hflag, rfl, rfl⟩
  | exited | recheck | close => exact ⟨hflag, hstage, rfl⟩
  | stopped => exact ⟨hflag, hstage, by rw [hat]; rfl⟩
  | _ =>
    dsimp only [goto, unlink, reap, report]
    split_ifs <;> exact ⟨hflag, hstage, rfl⟩

theorem givenUp_step (d : ModelDownload) (m : DownloadMove) (hd : d.GivenUp) : (d.step m).GivenUp := by
  cases m with
  | thread a => exact givenUp_threadStep hd a
  | child content =>
    show (if d.child then { d with partFile := content } else d).GivenUp
    split
    · exact ⟨hd.abortRequested, hd.stage, hd.point⟩
    · exact hd
  | abort => exact givenUp_abort hd
  | poll => exact hd

/-- Nothing works. -/
def badAnswer : ThreadAnswer := ⟨false, .failed, [], 0, []⟩

/-- Where nothing works, the thread goes on to another attempt or fails. -/
theorem discard_overwrites {d : ModelDownload} {n : Nat} (h : d.point = .discard n) :
    isAbortStage (run step d [.thread badAnswer, .thread badAnswer]).progress.stage = false := by
  have hfirst : d.threadStep badAnswer = d.goto (if n = 0 then .reset n else .fail (some 0)) := by
    rw [threadStep, h]
    rfl
  show isAbortStage ((d.threadStep badAnswer).threadStep badAnswer).progress.stage = false
  rw [hfirst]
  by_cases hn : n = 0
  · rw [if_pos hn]
    rfl
  · rw [if_neg hn]
    rfl

/-- At these points the thread can write a stage without a look at the flag. -/
theorem overwritten {d : ModelDownload} (h : d.point.overwrites = true) :
    ∃ later : List DownloadMove, isAbortStage (run step d later).progress.stage = false := by
  cases hat : d.point with
  | sized n =>
    by_cases hsize : d.entry.bytes.toNat < d.partSize
    · refine ⟨[.thread badAnswer, .thread badAnswer, .thread badAnswer], ?_⟩
      have hfirst : d.threadStep badAnswer = d.goto .oversize := by
        rw [threadStep, hat]
        dsimp only
        rw [if_pos hsize]
      show isAbortStage (((d.threadStep badAnswer).threadStep badAnswer).threadStep badAnswer).progress.stage = false
      rw [hfirst]
      rfl
    · refine ⟨[.thread badAnswer, .thread badAnswer], ?_⟩
      have hfirst : d.threadStep badAnswer = d.goto (.verify n) := by
        rw [threadStep, hat]
        dsimp only
        rw [if_neg hsize]
      show isAbortStage ((d.threadStep badAnswer).threadStep badAnswer).progress.stage = false
      rw [hfirst]
      rfl
  | verify n =>
    refine ⟨[.thread badAnswer], ?_⟩
    show isAbortStage (d.threadStep badAnswer).progress.stage = false
    rw [threadStep, hat]
    rfl
  | hash n =>
    refine ⟨[.thread badAnswer, .thread badAnswer, .thread badAnswer], ?_⟩
    have hfirst : d.threadStep badAnswer = d.goto (.discard n) := by
      rw [threadStep, hat]
      rfl
    have hrest := @discard_overwrites (d.goto (.discard n)) n rfl
    rw [← hfirst] at hrest
    exact hrest
  | discard n => exact ⟨_, discard_overwrites hat⟩
  | reset n =>
    refine ⟨[.thread badAnswer], ?_⟩
    show isAbortStage (d.threadStep badAnswer).progress.stage = false
    rw [threadStep, hat]
    rfl
  | oversize =>
    refine ⟨[.thread badAnswer, .thread badAnswer], ?_⟩
    have hfirst : d.threadStep badAnswer = d.goto (.fail none) := by
      rw [threadStep, hat]
      rfl
    show isAbortStage ((d.threadStep badAnswer).threadStep badAnswer).progress.stage = false
    rw [hfirst]
    rfl
  | fail pct =>
    refine ⟨[.thread badAnswer], ?_⟩
    show isAbortStage (d.threadStep badAnswer).progress.stage = false
    rw [threadStep, hat]
    rfl
  | _ =>
    rw [hat] at h
    cases h

/-- **The last word.** Whatever the thread, its child and the callers do after an accepted abort, the download is aborting
or idle: exactly if the thread was not between the end of a transfer and the rename. -/
theorem abort_is_last_word {d : ModelDownload} (hdone : d.progress.stage ≠ modelStageDone)
    (hfailed : d.progress.stage ≠ modelStageFailed) :
    (∀ later : List DownloadMove, isAbortStage (run step d.abort later).progress.stage = true) ↔
      d.point.overwrites = false := by
  obtain ⟨hflag, hstage, hpoint, -⟩ := abort_of_goes hdone hfailed
  constructor
  · intro hall
    by_contra hbad
    have hbad : d.abort.point.overwrites = true := by
      rw [hpoint]
      exact Bool.eq_true_of_not_eq_false hbad
    obtain ⟨later, hlater⟩ := overwritten hbad
    rw [hall later] at hlater
    cases hlater
  · intro hpast later
    have hgiven : d.abort.GivenUp := ⟨hflag, hstage, by rw [hpoint]; exact hpast⟩
    exact (run_invariant' givenUp_step later hgiven).stage

/-- The abort comes while the child runs. -/
theorem abort_is_last_word_watch :
    (∀ later : List DownloadMove, isAbortStage (run step
      (run step (start abcEntry false none none) (List.replicate 3 (.thread goodAnswer))).abort later).progress.stage = true) ↔
      (run step (start abcEntry false none none) (List.replicate 3 (.thread goodAnswer))).point.overwrites = false :=
  abort_is_last_word (by decide +kernel) (by decide +kernel)

/-- The abort comes between the end of the transfer and the comparison of the hash. -/
theorem not_abort_is_last_word : ¬ ∀ (entry : CatalogEntry) (windows : Bool) (partFile finalFile : Option Bytes)
    (moves later : List DownloadMove),
    (run step (start entry windows partFile finalFile) moves).progress.stage ≠ modelStageDone →
    (run step (start entry windows partFile finalFile) moves).progress.stage ≠ modelStageFailed →
    isAbortStage (run step (run step (start entry windows partFile finalFile) moves).abort later).progress.stage = true := by
  intro h
  have hlater := h abcEntry false none none (abcMoves.take 10) [.thread goodAnswer] (by decide +kernel) (by decide +kernel)
  have hnot : isAbortStage (run step (run step (start abcEntry false none none) (abcMoves.take 10)).abort
      [.thread goodAnswer]).progress.stage = false := by decide +kernel
  rw [hnot] at hlater
  cases hlater

end ModelDownload

/-! ## The worker -/

namespace Downloads

variable {env : Env} {config : Config}

theorem Held.map {s : Downloads} (hs : s.Held) (f : ModelDownload → ModelDownload) :
    Held { s with current := s.current.map f } := by
  have hs : s.worker.modelDl = s.current.isSome := hs
  show s.worker.modelDl = (s.current.map f).isSome
  rw [hs, Option.isSome_map]

theorem held_poll {s : Downloads} (hs : s.Held) (env : Env) : (s.poll env).Held := by
  cases hd : s.current with
  | none =>
    rw [poll_none hs hd]
    exact hs
  | some d =>
    show (s.poll env).worker.modelDl = (s.poll env).current.isSome
    rw [poll_current, hd]
    cases (s.poll env).worker.modelDl <;> rfl

theorem held_control {s : Downloads} (hs : s.Held) (p : ModelCtrl) (windows : Bool) (partFile finalFile : Option Bytes) :
    (s.control config env p windows partFile finalFile).Held := by
  have hcase := @controlCase_control env config s hs p windows partFile finalFile
  have hs : s.worker.modelDl = s.current.isSome := hs
  generalize s.control config env p windows partFile finalFile = t at hcase
  cases hcase with
  | refused _ _ hleaves _ h =>
    rw [h]
    exact hleaves.1.trans hs
  | begun _ _ _ _ entry hmodel _ _ h =>
    rw [h]
    exact hmodel
  | failed _ _ _ _ hmodel _ _ h =>
    rw [h]
    exact hmodel
  | abort _ hleaves h =>
    rw [h]
    exact Held.map (s := { s with worker := t.worker }) (hleaves.1.trans hs) ModelDownload.abort
  | other _ hleaves h =>
    rw [h]
    exact hleaves.1.trans hs

theorem held_step (config : Config) (s : Downloads) (m : DownloadsMove) (hs : s.Held) : (s.step config m).Held := by
  cases m with
  | control env p windows partFile finalFile => exact held_control hs p windows partFile finalFile
  | poll env => exact held_poll hs env
  | thread a => exact hs.map _
  | child content => exact hs.map _
  | other w =>
    show Held (if Leaves s.worker w then { s with worker := w } else s)
    split
    · rename_i hleaves
      exact hleaves.1.trans hs
    · exact hs

theorem held_run (config : Config) (engine translator : Bool) (moves : List DownloadsMove) :
    (run (step config) (start engine translator) moves).Held :=
  run_invariant' (held_step config) moves rfl

theorem reports_step (config : Config) (s : Downloads) (m : DownloadsMove) :
    s.reports.length ≤ (s.step config m).reports.length := by
  cases m with
  | control env p windows partFile finalFile =>
    show s.reports.length ≤ (s.control config env p windows partFile finalFile).reports.length
    unfold control
    dsimp only
    split_ifs <;> exact Nat.le_refl _
  | poll env =>
    show s.reports.length ≤ (s.poll env).reports.length
    rw [poll_reports, List.length_append]
    exact Nat.le_add_right _ _
  | thread a => exact Nat.le_refl _
  | child content => exact Nat.le_refl _
  | other w =>
    show s.reports.length ≤ (if Leaves s.worker w then { s with worker := w } else s).reports.length
    split <;> exact Nat.le_refl _

theorem reports_run (config : Config) (s : Downloads) (moves : List DownloadsMove) :
    s.reports.length ≤ (run (step config) s moves).reports.length := by
  have hstep : ∀ (t : Downloads) (m : DownloadsMove), s.reports.length ≤ t.reports.length →
      s.reports.length ≤ (t.step config m).reports.length := fun t m ht => ht.trans (reports_step config t m)
  exact run_invariant' hstep moves (Nat.le_refl _)

/-- The abort is concluded: the download is freed, and since then the client was told that it is idle, unless that
failed, which ends the worker. -/
def Concluded (since t : Downloads) : Prop :=
  t.current = none ∧
    ((since.accepted, modelStageIdle) ∈ t.reports.drop since.reports.length ∨ t.worker.fatalExit = true)

theorem downloadEnded_idle (previous : Option UInt8) :
    downloadEnded previous modelStageIdle = true ↔ ∃ stage, previous = some stage ∧ isTransferStage stage = true := by
  have hidle : downloadEnded previous modelStageIdle = true ↔ previous = some modelStageAborting ∨
      previous = some modelStageDownloading ∨ previous = some modelStageVerifying := by
    have hdone : modelStageIdle ≠ modelStageDone := by decide
    have hfailed : modelStageIdle ≠ modelStageFailed := by decide
    simp [downloadEnded, hdone, hfailed, or_assoc]
  have hstage (stage : UInt8) : isTransferStage stage = true ↔ stage = modelStageDownloading ∨
      stage = modelStageVerifying ∨ stage = modelStageAborting := by
    simp [isTransferStage, or_assoc]
  rw [hidle]
  constructor
  · rintro (h | h | h)
    · exact ⟨_, h, rfl⟩
    · exact ⟨_, h, rfl⟩
    · exact ⟨_, h, rfl⟩
  · rintro ⟨stage, rfl, h⟩
    rcases (hstage stage).mp h with rfl | rfl | rfl
    · exact .inr (.inl rfl)
    · exact .inr (.inr rfl)
    · exact .inl rfl

/-- The download that `s` holds takes notice of an ABORT, and in `t` its thread has stopped in the idle stage. -/
structure GaveUp (config : Config) (s t : Downloads) : Prop where
  taken : ∃ d, s.current = some d ∧ isEnded d.progress.stage = false
  later : ∃ env p windows partFile finalFile after, p.action = modelActionAbort ∧
    t = run (step config) (s.step config (.control env p windows partFile finalFile)) after
  same : t.accepted = s.accepted
  stopped : ∃ d, t.current = some d ∧ d.point = .stopped ∧ d.progress.stage = modelStageIdle

/-- **Aborts conclude.** After any frames, polls and steps of the thread, a download is aborted, and after any more of
them its thread has stopped in the idle stage. The next poll concludes the abort exactly if an earlier one saw the
download in a stage of its transfer, as the last it saw of it. -/
theorem abort_concludes (config : Config) (engine translator : Bool) (before : List DownloadsMove) {s t : Downloads}
    (hs : s = run (step config) (start engine translator) before) (hgave : GaveUp config s t) (env : Env) :
    Concluded s (t.poll env) ↔ ∃ stage, t.worker.lastStage = some stage ∧ isTransferStage stage = true := by
  have hheld : s.Held := by
    rw [hs]
    exact held_run config engine translator before
  obtain ⟨d, hd, -, hidle⟩ := hgave.stopped
  obtain ⟨envc, p, windows, partFile, finalFile, after, -, ht⟩ := hgave.later
  have hlength : s.reports.length ≤ t.reports.length := by
    rw [ht]
    exact (reports_step config s _).trans (reports_run config _ after)
  have hheld : t.Held := by
    rw [ht]
    exact run_invariant' (held_step config) after (held_step config s _ hheld)
  have hpolled := @poll_polled env t hheld d hd
  have hmodel := hpolled.modelDl
  rw [hidle] at hmodel
  rw [← downloadEnded_idle]
  constructor
  · rintro ⟨hfreed, -⟩
    rw [poll_current, hd] at hfreed
    by_contra hnot
    rw [hmodel, Bool.eq_false_of_not_eq_true hnot] at hfreed
    cases hfreed
  · intro hended
    rw [hended] at hmodel
    refine ⟨?_, ?_⟩
    · rw [poll_current, hmodel]
      rfl
    · rcases hpolled.told with htold | ⟨hseen, -, -⟩
      · rcases htold.stages with hstages | ⟨hfatal, -⟩
        · left
          rw [poll_reports, hstages, hidle, hgave.same, List.drop_append_of_le_length hlength]
          exact List.mem_append_right _ (List.mem_singleton_self _)
        · exact .inr hfatal
      · rw [hseen, hidle] at hended
        exact absurd hended (by decide)

/-- The model is not wanted any more. -/
def abortTiny : DownloadsMove := .control .quiet ⟨.zero _, modelActionAbort, .ofStr 32 []⟩ false none none

def seenMoves : List DownloadsMove := [askTiny, .thread ModelDownload.goodAnswer, .poll .quiet]

def giveUpMoves : List DownloadsMove := List.replicate 5 (.thread ModelDownload.goodAnswer)

/-- The thread of the download has stopped in the idle stage. -/
def atRest (d : ModelDownload) : Bool := d.point = .stopped && d.progress.stage = modelStageIdle

theorem gaveUp_of {s t : Downloads} {env : Env} {p : ModelCtrl} {windows : Bool} {partFile finalFile : Option Bytes}
    (after : List DownloadsMove) (habort : p.action = modelActionAbort)
    (ht : t = run (step config) (s.step config (.control env p windows partFile finalFile)) after)
    (htaken : s.current.any (fun d => !isEnded d.progress.stage) = true) (hsame : t.accepted = s.accepted)
    (hstopped : t.current.any atRest = true) : GaveUp config s t := by
  obtain ⟨d, hd, hgoes⟩ := (Option.any_eq_true _ _).mp htaken
  obtain ⟨d', hd', hrest⟩ := (Option.any_eq_true _ _).mp hstopped
  obtain ⟨hpoint, hidle⟩ := Bool.and_eq_true_iff.mp hrest
  refine ⟨⟨d, hd, by simpa using hgoes⟩, ⟨env, p, windows, partFile, finalFile, after, habort, ht⟩, hsame, ?_⟩
  exact ⟨d', hd', of_decide_eq_true hpoint, of_decide_eq_true hidle⟩

/-- The worker saw that the download began before the abort. -/
theorem abort_concludes_seen :
    let s := run (step downloader) (start true true) seenMoves
    Concluded s ((run (step downloader) (s.step downloader abortTiny) giveUpMoves).poll .quiet) := by
  intro s
  have hgave : GaveUp downloader s (run (step downloader) (s.step downloader abortTiny) giveUpMoves) :=
    gaveUp_of giveUpMoves rfl rfl (by decide +kernel) (by decide +kernel) (by decide +kernel)
  refine (abort_concludes downloader true true seenMoves rfl hgave .quiet).mpr ⟨modelStageDownloading, ?_, rfl⟩
  decide +kernel

/-- The worker saw the download before its thread began, and not again until the thread had stopped. -/
theorem not_abort_concludes : ¬ ∀ (config : Config) (engine translator : Bool) (before : List DownloadsMove) (t : Downloads)
    (env : Env), GaveUp config (run (step config) (start engine translator) before) t →
    Concluded (run (step config) (start engine translator) before) (t.poll env) := by
  intro h
  have hgave : GaveUp downloader (run (step downloader) (start true true) [askTiny, .poll .quiet])
      (run (step downloader) (start true true) [askTiny, .poll .quiet, abortTiny, .thread ModelDownload.goodAnswer]) :=
    gaveUp_of [.thread ModelDownload.goodAnswer] rfl rfl (by decide +kernel) (by decide +kernel) (by decide +kernel)
  have hconcluded := h downloader true true _ _ .quiet hgave
  have hheld : ((run (step downloader) (start true true)
      [askTiny, .poll .quiet, abortTiny, .thread ModelDownload.goodAnswer]).poll .quiet).current.isSome = true := by
    decide +kernel
  rw [hconcluded.1] at hheld
  cases hheld

end Downloads

end VlcWhisper.Worker
