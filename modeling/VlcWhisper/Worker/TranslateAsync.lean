import VlcWhisper.Lib.Sequence
import VlcWhisper.Worker.SegmentBuilder

/-!
# The asynchronous translator (`vw_translate_async.c`)

The state under the mutex, and one function for each locked section: the public calls, and the two steps a pool
thread makes (`take` a job, `complete` it with whatever the translation gave). A job that a thread holds is in
`inflight`; it survives an invalidation, everything else is dropped by one.
-/

namespace VlcWhisper.Worker

open VlcWhisper.Lib VlcWhisper.Protocol

def queueCapacity : Nat := 32
def resultCapacity : Nat := queueCapacity + 2
def activeBudget : Nat := 4
def uint64Max : Nat := 2 ^ 64 - 1

/-! ## Captions -/

/-- `vw_caption_segment_t` inside the worker. Its texts are strings, so their lengths need no fields. -/
structure Caption where
  sessionId : SessionId
  cue : Cue
  translatedText : Option Bytes
  translationAttempted : Bool
  translationLatencyUs : UInt32
  translationTier : UInt8

/-- The cue of a caption with its session: what a translation leaves alone. -/
def Caption.origin (c : Caption) : SessionId × Cue := (c.sessionId, c.cue)

def tierNone : UInt8 := 0
def failureNone : UInt8 := 0
def failureLocal : UInt8 := 5

/-- `vw_translate_failure_t`. -/
structure Failure where
  cause : UInt8
  terminalTier : UInt8
  attemptedTiers : UInt8
  providerStatus : UInt16
  deriving DecidableEq

def Failure.zero : Failure := ⟨failureNone, tierNone, 0, 0⟩

/-- What `vw_translate_text_detailed` gives for a cue. -/
structure Outcome where
  success : Bool
  translatedText : Bytes
  tier : UInt8
  latencyUs : UInt32
  failure : Failure

/-- `vw_translate_job_t`; the source text is the segment's. -/
structure Job where
  epoch : Nat
  ordinal : Nat
  segment : Caption
  sourceLang : Bytes
  targetLang : Bytes
  skipTranslation : Bool

/-- `vw_translate_async_result_t`; the source text is the segment's. -/
structure TranslateResult where
  epoch : Nat
  segment : Caption
  translatedText : Bytes
  failure : Failure
  attempted : Bool
  success : Bool

/-- `vw_translate_async_completion_t`. -/
structure Completion where
  ordinal : Nat
  result : TranslateResult

/-- `vw_translate_async_bind_result_text`. -/
def bindResultText (r : TranslateResult) : TranslateResult :=
  { r with segment :=
    if r.success && r.translatedText != [] then
      { r.segment with translationAttempted := r.attempted, translatedText := some r.translatedText }
    else
      { r.segment with translationAttempted := r.attempted, translatedText := none, translationTier := tierNone } }

@[simp] theorem bindResultText_origin (r : TranslateResult) :
    (bindResultText r).segment.origin = r.segment.origin := by
  rw [bindResultText]
  split <;> rfl

@[simp] theorem bindResultText_epoch (r : TranslateResult) : (bindResultText r).epoch = r.epoch := rfl

/-- What a thread makes of its job, before it is bound: the translation, or none if the job skips it. -/
def translateJob (j : Job) (o : Outcome) : TranslateResult :=
  if j.skipTranslation then
    { epoch := j.epoch, translatedText := [], failure := { Failure.zero with cause := failureLocal }
      attempted := true, success := false
      segment := { j.segment with translatedText := none, translationTier := tierNone, translationLatencyUs := 0 } }
  else
    { epoch := j.epoch, translatedText := o.translatedText, failure := o.failure
      attempted := true, success := o.success
      segment := { j.segment with translatedText := none, translationLatencyUs := o.latencyUs
                                  translationTier := if o.success then o.tier else tierNone } }

/-- A job that made room for a newer one. -/
def evictJob (j : Job) : TranslateResult where
  epoch := j.epoch
  segment := j.segment
  translatedText := []
  failure := { Failure.zero with cause := failureLocal }
  attempted := true
  success := false

@[simp] theorem translateJob_origin (j : Job) (o : Outcome) :
    (translateJob j o).segment.origin = j.segment.origin := by
  rw [translateJob]
  split <;> rfl

@[simp] theorem translateJob_epoch (j : Job) (o : Outcome) : (translateJob j o).epoch = j.epoch := by
  rw [translateJob]
  split <;> rfl

/-! ## The state -/

/-- `vw_translate_async_t`; `inflight` are the jobs that threads hold. -/
structure TranslateAsync where
  stopping : Bool
  epoch : Nat
  nextSubmitOrdinal : Nat
  nextResultOrdinal : Nat
  jobs : Ring Job queueCapacity
  inflight : List Job
  activeTranslationCount : Nat
  results : Ring Completion resultCapacity

namespace TranslateAsync

/-- `vw_translate_async_next_ordinal`. -/
def nextOrdinal (ordinal : Nat) : Nat := nextSerial uint64Max ordinal

/-- A cleared slot. -/
def noCaption : Caption := ⟨.zero _, ⟨0, 0, 0, []⟩, none, false, 0, tierNone⟩

def noJob : Job := ⟨0, 0, noCaption, [], [], false⟩

/-- `vw_translate_async_create`. -/
def create : TranslateAsync where
  stopping := false
  epoch := 1
  nextSubmitOrdinal := 1
  nextResultOrdinal := 1
  jobs := .empty _ (by decide) noJob
  inflight := []
  activeTranslationCount := 0
  results := .empty _ (by decide) ⟨0, evictJob noJob⟩

/-- `vw_translate_async_push_result_locked`: nothing happens if the ring is full. -/
def pushResult (s : TranslateAsync) (ordinal : Nat) (r : TranslateResult) : TranslateAsync :=
  if h : s.results.count < resultCapacity then { s with results := s.results.push ⟨ordinal, r⟩ h } else s

/-- `vw_translate_async_find_next_result_locked`: the place of the oldest completion with the next ordinal. -/
def findNextResult (s : TranslateAsync) : Option (Fin s.results.count) :=
  (List.finRange s.results.count).find? fun i => (s.results.get i).ordinal = s.nextResultOrdinal

/-- `vw_translate_async_remove_result_locked`. -/
def removeResult (s : TranslateAsync) (i : Fin s.results.count) : TranslateAsync :=
  { s with results := s.results.removeAt i i.isLt, nextResultOrdinal := nextOrdinal s.nextResultOrdinal }

/-- The first locked section of `vw_translate_async_thread_main`, by a thread that holds no job. -/
def take (s : TranslateAsync) : TranslateAsync :=
  if s.inflight.length < activeBudget then
    match s.jobs.pop with
    | none => s
    | some (j, jobs) => { s with jobs, inflight := s.inflight ++ [j] }
  else s

/-- The last locked section of `vw_translate_async_thread_main`, by the thread that holds the `i`-th job. -/
def complete (s : TranslateAsync) (i : Nat) (o : Outcome) : TranslateAsync :=
  match s.inflight[i]? with
  | none => s
  | some j =>
    let s := if !j.skipTranslation && j.epoch = s.epoch && 0 < s.activeTranslationCount then
      { s with activeTranslationCount := s.activeTranslationCount - 1 } else s
    let s := if !s.stopping && j.epoch = s.epoch then s.pushResult j.ordinal (bindResultText (translateJob j o))
      else s
    { s with inflight := s.inflight.eraseIdx i }

/-- The locked section of `vw_translate_async_destroy`. -/
def destroy (s : TranslateAsync) : TranslateAsync :=
  { s with stopping := true, jobs := s.jobs.clear, activeTranslationCount := 0, results := s.results.clear }

/-- `vw_translate_async_invalidate`. -/
def invalidate (s : TranslateAsync) : TranslateAsync :=
  { s with epoch := nextSerial uint64Max s.epoch, nextSubmitOrdinal := 1, nextResultOrdinal := 1
           jobs := s.jobs.clear, results := s.results.clear, activeTranslationCount := 0 }

/-- `snprintf` into a language field: at most 15 bytes, the default for an empty string. -/
def languageField (lang dflt : Bytes) : Bytes := (if lang = [] then dflt else lang).take 15

/-- How many cues are waiting, translated or done. -/
def load (s : TranslateAsync) : Nat := s.jobs.count + s.inflight.length + s.results.count

/-- The cues that wait: queued, held by a thread for the current epoch, or done. -/
def waiting (s : TranslateAsync) : List Cue :=
  (s.jobs.toList ++ s.inflight.filter fun j => j.epoch = s.epoch).map (·.segment.cue) ++
    s.results.toList.map (·.result.segment.cue)

/-- The oldest job becomes a result without a translation if the queue is full. -/
def evictOldest (s : TranslateAsync) : TranslateAsync :=
  if s.jobs.count < queueCapacity then s
  else match s.jobs.pop with
    | none => s
    | some (j, jobs) =>
      let s := { s with jobs, activeTranslationCount :=
        if !j.skipTranslation && 0 < s.activeTranslationCount then s.activeTranslationCount - 1
        else s.activeTranslationCount }
      s.pushResult j.ordinal (bindResultText (evictJob j))

theorem pushResult_jobs (s : TranslateAsync) (ordinal : Nat) (r : TranslateResult) :
    (s.pushResult ordinal r).jobs = s.jobs := by
  rw [pushResult]
  split <;> rfl

theorem evictOldest_jobs_lt (s : TranslateAsync) : s.evictOldest.jobs.count < queueCapacity := by
  rw [evictOldest]
  split
  · assumption
  · rename_i hfull
    have hpos : s.jobs.count ≠ 0 := by
      simp only [queueCapacity] at hfull
      omega
    simp only [Ring.pop, if_neg hpos, pushResult_jobs]
    have hle := s.jobs.count_le
    simp only [queueCapacity] at hfull hle ⊢
    change s.jobs.count - 1 < 32
    omega

/-- The job of an accepted cue. -/
def newJob (s : TranslateAsync) (segment : Caption) (sourceLang targetLang : Bytes) : Job where
  epoch := s.epoch
  ordinal := s.nextSubmitOrdinal
  segment := { segment with translatedText := none }
  sourceLang := languageField sourceLang (ascii "auto")
  targetLang := languageField targetLang (ascii "en")
  skipTranslation := activeBudget ≤ s.activeTranslationCount

/-- `vw_translate_async_submit`; whether to skip is decided before the eviction. -/
def submit (s : TranslateAsync) (segment : Caption) (sourceLang targetLang : Bytes) : TranslateAsync × Bool :=
  if segment.cue.text = [] || maxTextBytes < segment.cue.text.length then (s, false)
  else if s.stopping then (s, false)
  else if resultCapacity ≤ s.load then (s, false)
  else
    let job := s.newJob segment sourceLang targetLang
    let t := s.evictOldest
    ({ t with jobs := t.jobs.push job s.evictOldest_jobs_lt
              nextSubmitOrdinal := nextOrdinal t.nextSubmitOrdinal
              activeTranslationCount := t.activeTranslationCount + if job.skipTranslation then 0 else 1 }, true)

/-- `vw_translate_async_has_result`. -/
def hasResult (s : TranslateAsync) : Bool := s.findNextResult.isSome

/-- `vw_translate_async_has_pending`. -/
def hasPending (s : TranslateAsync) : Bool := s.jobs.count != 0 || s.inflight.length != 0 || s.results.count != 0

/-- `vw_translate_async_try_pop`. -/
def tryPop (s : TranslateAsync) : TranslateAsync × Option TranslateResult :=
  if s.results.count = 0 then (s, none)
  else match s.findNextResult with
    | none => (s, none)
    | some i => (s.removeResult i, some (bindResultText (s.results.get i).result))

/-- `vw_translate_async_try_deliver`: the result to deliver, a result of another epoch being dropped. -/
def tryDeliver (s : TranslateAsync) : TranslateAsync × Option TranslateResult :=
  match s.findNextResult with
  | none => (s, none)
  | some i =>
    if (s.results.get i).result.epoch ≠ s.epoch then (s.removeResult i, none)
    else (s.removeResult i, some (bindResultText (s.results.get i).result))

end TranslateAsync

end VlcWhisper.Worker
