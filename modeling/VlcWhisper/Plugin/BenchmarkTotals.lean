import VlcWhisper.Lib.Counter
import VlcWhisper.Plugin.CueTimes
import VlcWhisper.Plugin.SenderLoop

/-!
# The benchmark of a session (`vw_benchmark.c`)

The benchmark outlives the workers: it begins with the first session, and a respawn begins another one only where none
is active. Each worker counts its inference and its dropped audio from 0. The benchmark is not told of restarts; it
takes a counter that falls for one.

Main result: `totals_eq_sum_iff`. The totals are the sums of the lives' last counters if and only if these sums fit and
every restart shows, as `ShowsAll` says.
-/

namespace VlcWhisper.Plugin

open VlcWhisper.Lib VlcWhisper.Protocol

namespace Benchmark

/-- The length of a cue is added up. -/
def addDuration (segment : CaptionSegment) (b : Benchmark) : Benchmark :=
  if segment.startPtsUs < segment.endPtsUs then
    { b with segmentAudioDurationUs := b.segmentAudioDurationUs + (segment.endPtsUs - segment.startPtsUs).toUInt64 }
  else b

/-- How late a live cue is. -/
def addLatency (segment : CaptionSegment) (nowUs : Int64) (b : Benchmark) : Benchmark :=
  let segmentEndMonotonicUs := segment.endPtsUs + b.livePtsToMonotonicUs
  if b.latencySamples.length < maxLatencySamples then
    { b with latencySamples := b.latencySamples ++ [nowUs - segmentEndMonotonicUs] }
  else { b with latencySamplesDropped := b.latencySamplesDropped + 1 }

/-- `vw_benchmark_record_caption_received`. -/
def recordCaptionReceived (segment : CaptionSegment) (nowUs : Int64) (sourceMode : Bool) (b : Benchmark) : Benchmark :=
  let b := { b with
    lastSegmentId := segment.segmentId
    lastSegmentStartPtsUs := segment.startPtsUs
    lastSegmentEndPtsUs := segment.endPtsUs }
  if !b.active then b
  else
    let b := { b with captionsReceived := b.captionsReceived + 1 }.addDuration segment
    let b := { b with segmentTextBytes := b.segmentTextBytes + segment.text.length.toUInt64 }
    if !sourceMode && b.liveClockValid then b.addLatency segment nowUs else b

variable {segment : CaptionSegment} {nowUs : Int64} {sourceMode : Bool} {b b' : Benchmark}

theorem addDuration_of_checked (h : b.addDurationChecked segment = some b') : b.addDuration segment = b' := by
  unfold addDurationChecked at h
  unfold addDuration
  split at h
  · obtain ⟨durationUs, hduration, h⟩ := Option.bind_eq_some_iff.mp h
    obtain rfl := eq_of_subChecked hduration
    rw [if_pos ‹_›]
    exact Option.some.inj h
  · rw [if_neg ‹_›]
    exact Option.some.inj h

theorem addLatency_of_checked (h : b.addLatencyChecked segment nowUs = some b') : b.addLatency segment nowUs = b' := by
  obtain ⟨endUs, hend, h⟩ := Option.bind_eq_some_iff.mp h
  obtain rfl := eq_of_addChecked hend
  unfold addLatency
  dsimp only
  split at h
  · obtain ⟨latencyUs, hlatency, h⟩ := Option.bind_eq_some_iff.mp h
    obtain rfl := eq_of_subChecked hlatency
    rw [if_pos ‹_›]
    exact Option.some.inj h
  · rw [if_neg ‹_›]
    exact Option.some.inj h

/-- Where no sum overflows, the checked sums are those of the code. -/
theorem recordCaptionReceived_of_checked (h : b.recordCaptionReceivedChecked segment nowUs sourceMode = some b') :
    b.recordCaptionReceived segment nowUs sourceMode = b' := by
  unfold recordCaptionReceivedChecked at h
  unfold recordCaptionReceived
  dsimp only at h ⊢
  split at h
  · rw [if_pos ‹_›]
    exact Option.some.inj h
  · obtain ⟨c, hduration, h⟩ := Option.bind_eq_some_iff.mp h
    rw [if_neg ‹_›, addDuration_of_checked hduration]
    split at h
    · rw [if_pos ‹_›]
      exact addLatency_of_checked h
    · rw [if_neg ‹_›]
      exact Option.some.inj h

end Benchmark

/-! ## All of the benchmark -/

/-- `vw_benchmark_t`, without the path of the report. -/
structure BenchmarkTotals extends Benchmark where
  finalized : Bool
  endedUs : Int64
  lastFlushUs : Int64
  modelId : CString
  backend : CString
  workerFramesReceived : UInt64
  captionsSent : UInt64
  captionsFiltered : UInt64
  captionsPaused : UInt64
  captionsStale : UInt64
  captionsPresenterRejected : UInt64
  inferenceUs : UInt64
  droppedAudioUs : UInt64
  lastWorkerInferenceUs : UInt64
  lastWorkerDroppedAudioUs : UInt64
  firstCaptionElapsedUs : Int64
  translationRequestsSent : UInt64
  translationSuccessCount : UInt64
  translationTier1Count : UInt64
  translationTier2Count : UInt64
  translationTier3Count : UInt64
  translationFailureCount : UInt64
  translationProviderFailureCount : UInt64
  translationTransportFailureCount : UInt64
  translationParseFailureCount : UInt64
  translationTimeoutCount : UInt64
  translationDurationUs : UInt64
  translationLatencySamples : List Int64
  firstCaptionRecorded : Bool

/-- What a call of `vw_benchmark_begin` meets: whether the first report can be written, and the time. -/
structure BeginReading where
  written : Bool
  nowUs : Int64

namespace BenchmarkTotals

def zero : BenchmarkTotals where
  toBenchmark := .zero
  finalized := false
  endedUs := 0
  lastFlushUs := 0
  modelId := .empty
  backend := .empty
  workerFramesReceived := 0
  captionsSent := 0
  captionsFiltered := 0
  captionsPaused := 0
  captionsStale := 0
  captionsPresenterRejected := 0
  inferenceUs := 0
  droppedAudioUs := 0
  lastWorkerInferenceUs := 0
  lastWorkerDroppedAudioUs := 0
  firstCaptionElapsedUs := 0
  translationRequestsSent := 0
  translationSuccessCount := 0
  translationTier1Count := 0
  translationTier2Count := 0
  translationTier3Count := 0
  translationFailureCount := 0
  translationProviderFailureCount := 0
  translationTransportFailureCount := 0
  translationParseFailureCount := 0
  translationTimeoutCount := 0
  translationDurationUs := 0
  translationLatencySamples := []
  firstCaptionRecorded := false

/-- `vw_benchmark_begin`. -/
def begin (modelId backend : CString) (reading : BeginReading) (b : BenchmarkTotals) : BenchmarkTotals :=
  if reading.nowUs < 0 then b
  else if reading.written then
    { zero with
      toBenchmark := b.toBenchmark.begin true reading.nowUs
      modelId := modelId.truncated maxModelIdBytes
      backend := backend.truncated 16
      lastFlushUs := reading.nowUs }
  else zero

/-- What a respawn does to it. -/
def beginIfInactive (modelId backend : CString) (reading : BeginReading) (b : BenchmarkTotals) : BenchmarkTotals :=
  if b.active then b else b.begin modelId backend reading

/-- `vw_benchmark_record_audio`. -/
def recordAudio (startPtsUs durationUs nowUs : Int64) (b : BenchmarkTotals) : BenchmarkTotals :=
  { b with toBenchmark := b.toBenchmark.recordAudio startPtsUs durationUs nowUs }

/-- `vw_benchmark_reset_live_clock`. -/
def resetLiveClock (b : BenchmarkTotals) : BenchmarkTotals := { b with toBenchmark := b.toBenchmark.resetLiveClock }

/-- `vw_benchmark_record_frame`. -/
def recordFrame (b : BenchmarkTotals) : BenchmarkTotals :=
  if b.active then { b with workerFramesReceived := b.workerFramesReceived + 1 } else b

/-- `vw_benchmark_record_caption_received`. -/
def recordCaptionReceived (segment : CaptionSegment) (nowUs : Int64) (sourceMode : Bool) (b : BenchmarkTotals) :
    BenchmarkTotals :=
  { b with toBenchmark := b.toBenchmark.recordCaptionReceived segment nowUs sourceMode }

/-- `vw_benchmark_record_caption_filtered`. -/
def recordCaptionFiltered (paused stale presenterRejected : Bool) (b : BenchmarkTotals) : BenchmarkTotals :=
  if !b.active then b
  else { b with
    captionsFiltered := b.captionsFiltered + 1
    captionsPaused := if paused then b.captionsPaused + 1 else b.captionsPaused
    captionsStale := if stale then b.captionsStale + 1 else b.captionsStale
    captionsPresenterRejected :=
      if presenterRejected then b.captionsPresenterRejected + 1 else b.captionsPresenterRejected }

/-- A caption is translated by a tier, or not at all. -/
def countTranslation (tier : UInt8) (success : Bool) (b : BenchmarkTotals) : BenchmarkTotals :=
  if !success then { b with translationFailureCount := b.translationFailureCount + 1 }
  else
    let b := { b with translationSuccessCount := b.translationSuccessCount + 1 }
    if tier = 1 then { b with translationTier1Count := b.translationTier1Count + 1 }
    else if tier = 2 then { b with translationTier2Count := b.translationTier2Count + 1 }
    else if tier = 3 then { b with translationTier3Count := b.translationTier3Count + 1 }
    else b

/-- `vw_benchmark_record_translation`. -/
def recordTranslation (tier : UInt8) (latencyUs : UInt32) (success : Bool) (b : BenchmarkTotals) : BenchmarkTotals :=
  if !b.active then b
  else
    { b with
      translationRequestsSent := b.translationRequestsSent + 1
      translationDurationUs := b.translationDurationUs + latencyUs.toUInt64
      translationLatencySamples :=
        if 0 < latencyUs && b.translationLatencySamples.length < maxLatencySamples then
          b.translationLatencySamples ++ [latencyUs.toUInt64.toInt64]
        else b.translationLatencySamples }.countTranslation tier success

/-- `vw_benchmark_record_translation_failure`. -/
def recordTranslationFailure (errorCode : UInt32) (b : BenchmarkTotals) : BenchmarkTotals :=
  if !b.active then b
  else if errorCode = eTranslationProvider then
    { b with translationProviderFailureCount := b.translationProviderFailureCount + 1 }
  else if errorCode = eTranslationTransport then
    { b with translationTransportFailureCount := b.translationTransportFailureCount + 1 }
  else if errorCode = eTranslationParse then
    { b with translationParseFailureCount := b.translationParseFailureCount + 1 }
  else if errorCode = eTranslationDeadline then
    { b with translationTimeoutCount := b.translationTimeoutCount + 1 }
  else b

/-- `vw_benchmark_record_caption_sent`. -/
def recordCaptionSent (nowUs : Int64) (b : BenchmarkTotals) : BenchmarkTotals :=
  if !b.active then b
  else
    let b := { b with captionsSent := b.captionsSent + 1 }
    if b.firstCaptionRecorded then b
    else { b with firstCaptionRecorded := true, firstCaptionElapsedUs := nowUs - b.startedUs }

/-- A counter that the worker has reported, added to its total: with it goes the counter that was reported last. -/
def addCounter (reported : Int64) (held : UInt64 × UInt64) : UInt64 × UInt64 :=
  if 0 ≤ reported then
    let current := reported.toUInt64
    (held.1 + if held.2 ≤ current then current - held.2 else current, current)
  else held

/-- `vw_benchmark_update_status`. -/
def updateStatus (status : Status) (b : BenchmarkTotals) : BenchmarkTotals :=
  if !b.active then b
  else
    let inference := addCounter status.inferenceUs (b.inferenceUs, b.lastWorkerInferenceUs)
    let droppedAudio := addCounter status.droppedAudioUs (b.droppedAudioUs, b.lastWorkerDroppedAudioUs)
    let backend := CString.ofArray status.resolvedBackend
    { b with
      inferenceUs := inference.1
      lastWorkerInferenceUs := inference.2
      droppedAudioUs := droppedAudio.1
      lastWorkerDroppedAudioUs := droppedAudio.2
      backend := if backend.val = [] then b.backend else backend.truncated 16 }

/-- `vw_benchmark_finalize`. -/
def finalize (written : Bool) (nowUs : Int64) (b : BenchmarkTotals) : BenchmarkTotals :=
  if !b.active || b.finalized then b else { b with endedUs := nowUs, finalized := written }

/-- `vw_benchmark_flush_if_due`. -/
def flushIfDue (written : Bool) (nowUs : Int64) (b : BenchmarkTotals) : BenchmarkTotals :=
  if !b.active || b.finalized || nowUs - b.lastFlushUs < 1000000 then b
  else if written then { b with lastFlushUs := nowUs }
  else b

end BenchmarkTotals

/-! ## Lives of workers -/

/-- A call of the benchmark in a worker's life. -/
inductive BenchmarkCall where
  | audio (startPtsUs durationUs nowUs : Int64)
  | resetLiveClock
  | frame
  | received (segment : CaptionSegment) (nowUs : Int64) (sourceMode : Bool)
  | filtered (paused stale presenterRejected : Bool)
  | translation (tier : UInt8) (latencyUs : UInt32) (success : Bool)
  | translationFailure (errorCode : UInt32)
  | sent (nowUs : Int64)
  | status (status : Status)
  | flush (written : Bool) (nowUs : Int64)

/-- A worker's life: what the respawn before it passes to the benchmark, and the calls until the next one. -/
structure WorkerLife where
  modelId : CString
  backend : CString
  begin : BeginReading
  calls : List BenchmarkCall

namespace BenchmarkTotals

def call (b : BenchmarkTotals) : BenchmarkCall → BenchmarkTotals
  | .audio startPtsUs durationUs nowUs => b.recordAudio startPtsUs durationUs nowUs
  | .resetLiveClock => b.resetLiveClock
  | .frame => b.recordFrame
  | .received segment nowUs sourceMode => b.recordCaptionReceived segment nowUs sourceMode
  | .filtered paused stale presenterRejected => b.recordCaptionFiltered paused stale presenterRejected
  | .translation tier latencyUs success => b.recordTranslation tier latencyUs success
  | .translationFailure errorCode => b.recordTranslationFailure errorCode
  | .sent nowUs => b.recordCaptionSent nowUs
  | .status status => b.updateStatus status
  | .flush written nowUs => b.flushIfDue written nowUs

/-- The benchmark after a worker's life. -/
def live (b : BenchmarkTotals) (life : WorkerLife) : BenchmarkTotals :=
  life.calls.foldl call (b.beginIfInactive life.modelId life.backend life.begin)

end BenchmarkTotals

/-- What the workers count. -/
inductive WorkerCounter where
  | inference
  | droppedAudio

namespace WorkerCounter

def counter (k : WorkerCounter) (status : Status) : Int64 :=
  match k with
  | inference => status.inferenceUs
  | droppedAudio => status.droppedAudioUs

/-- A negative counter is none. -/
def reported (k : WorkerCounter) (status : Status) : Option Nat :=
  if 0 ≤ k.counter status then some (k.counter status).toUInt64.toNat else none

/-- The counter that a call reports. -/
def reading (k : WorkerCounter) : BenchmarkCall → Option Nat
  | .status status => k.reported status
  | _ => none

/-- The counters that a worker reports. -/
def readings (k : WorkerCounter) (life : WorkerLife) : List Nat := life.calls.filterMap k.reading

/-- The total that the benchmark holds, and the counter that was reported last. -/
def held (k : WorkerCounter) (b : BenchmarkTotals) : UInt64 × UInt64 :=
  match k with
  | inference => (b.inferenceUs, b.lastWorkerInferenceUs)
  | droppedAudio => (b.droppedAudioUs, b.lastWorkerDroppedAudioUs)

/-- What the total should be. -/
def sum (k : WorkerCounter) (lives : List WorkerLife) : Nat := (lives.map fun life => (k.readings life).getLastD 0).sum

end WorkerCounter

/-! ## The calls -/

namespace Benchmark

theorem recordAudio_active (startPtsUs durationUs nowUs : Int64) (b : Benchmark) :
    (b.recordAudio startPtsUs durationUs nowUs).active = b.active := by
  unfold recordAudio
  split
  · rfl
  dsimp only
  split <;> rfl

/-- Whether it is active, and how many cues it has received. -/
def cueCount (b : Benchmark) : Bool × UInt64 := (b.active, b.captionsReceived)

theorem addDuration_cueCount (segment : CaptionSegment) (b : Benchmark) :
    (b.addDuration segment).cueCount = b.cueCount := by
  unfold addDuration
  split <;> rfl

theorem addLatency_cueCount (segment : CaptionSegment) (nowUs : Int64) (b : Benchmark) :
    (b.addLatency segment nowUs).cueCount = b.cueCount := by
  unfold addLatency
  dsimp only
  split <;> rfl

theorem recordCaptionReceived_cueCount (segment : CaptionSegment) (nowUs : Int64) (sourceMode : Bool) (b : Benchmark) :
    (b.recordCaptionReceived segment nowUs sourceMode).cueCount =
      (b.active, b.captionsReceived + if b.active then 1 else 0) := by
  unfold recordCaptionReceived
  dsimp only
  cases hactive : b.active with
  | false => exact congrArg (Prod.mk false) (UInt64.add_zero _).symm
  | true =>
    rw [if_neg (by simp)]
    split
    · rw [addLatency_cueCount]
      exact addDuration_cueCount ..
    · exact addDuration_cueCount ..

theorem recordCaptionReceived_active (segment : CaptionSegment) (nowUs : Int64) (sourceMode : Bool) (b : Benchmark) :
    (b.recordCaptionReceived segment nowUs sourceMode).active = b.active :=
  congrArg Prod.fst (recordCaptionReceived_cueCount ..)

end Benchmark

namespace BenchmarkTotals

variable {b : BenchmarkTotals}

/-- Whether it is active, and what it holds of the workers' counters. -/
def counters (b : BenchmarkTotals) : Bool × UInt64 × UInt64 × UInt64 × UInt64 :=
  (b.active, b.inferenceUs, b.lastWorkerInferenceUs, b.droppedAudioUs, b.lastWorkerDroppedAudioUs)

theorem recordAudio_counters (startPtsUs durationUs nowUs : Int64) :
    (b.recordAudio startPtsUs durationUs nowUs).counters = b.counters := by
  simp only [recordAudio, counters, Benchmark.recordAudio_active]

theorem recordFrame_counters : b.recordFrame.counters = b.counters := by
  unfold recordFrame
  split <;> rfl

theorem recordCaptionReceived_counters (segment : CaptionSegment) (nowUs : Int64) (sourceMode : Bool) :
    (b.recordCaptionReceived segment nowUs sourceMode).counters = b.counters := by
  simp only [recordCaptionReceived, counters, Benchmark.recordCaptionReceived_active]

theorem recordCaptionFiltered_counters (paused stale presenterRejected : Bool) :
    (b.recordCaptionFiltered paused stale presenterRejected).counters = b.counters := by
  unfold recordCaptionFiltered
  split <;> rfl

theorem recordTranslation_counters (tier : UInt8) (latencyUs : UInt32) (success : Bool) :
    (b.recordTranslation tier latencyUs success).counters = b.counters := by
  unfold recordTranslation countTranslation
  dsimp only
  split_ifs <;> rfl

theorem recordTranslationFailure_counters (errorCode : UInt32) :
    (b.recordTranslationFailure errorCode).counters = b.counters := by
  unfold recordTranslationFailure
  split_ifs <;> rfl

theorem recordCaptionSent_counters (nowUs : Int64) : (b.recordCaptionSent nowUs).counters = b.counters := by
  unfold recordCaptionSent
  dsimp only
  split_ifs <;> rfl

theorem flushIfDue_counters (written : Bool) (nowUs : Int64) : (b.flushIfDue written nowUs).counters = b.counters := by
  unfold flushIfDue
  split_ifs <;> rfl

theorem call_counters {c : BenchmarkCall} (hc : ∀ status, c ≠ .status status) : (b.call c).counters = b.counters := by
  cases c with
  | audio => exact recordAudio_counters ..
  | resetLiveClock => rfl
  | frame => exact recordFrame_counters
  | received => exact recordCaptionReceived_counters ..
  | filtered => exact recordCaptionFiltered_counters ..
  | translation => exact recordTranslation_counters ..
  | translationFailure => exact recordTranslationFailure_counters ..
  | sent => exact recordCaptionSent_counters ..
  | status status => exact absurd rfl (hc status)
  | flush => exact flushIfDue_counters ..

end BenchmarkTotals

namespace WorkerCounter

open BenchmarkTotals

variable {k : WorkerCounter} {b : BenchmarkTotals}

theorem held_eq_of_counters {b' : BenchmarkTotals} (h : b'.counters = b.counters) : k.held b' = k.held b := by
  simp only [counters, Prod.mk.injEq] at h
  obtain ⟨-, hinference, hlastInference, hdropped, hlastDropped⟩ := h
  cases k with
  | inference => exact Prod.ext hinference hlastInference
  | droppedAudio => exact Prod.ext hdropped hlastDropped

/-- What becomes of a total and the counter before it. -/
def Adds (held held' : UInt64 × UInt64) (readings : List Nat) : Prop :=
  held'.1 = held.1 + .ofNat (counted held.2.toNat readings) ∧ held'.2.toNat = readings.getLastD held.2.toNat

theorem Adds.nil (held : UInt64 × UInt64) : Adds held held [] := ⟨(UInt64.add_zero _).symm, rfl⟩

theorem Adds.append {held held' held'' : UInt64 × UInt64} {l m : List Nat} (hl : Adds held held' l)
    (hm : Adds held' held'' m) : Adds held held'' (l ++ m) := by
  obtain ⟨htotal, hlast⟩ := hl
  obtain ⟨htotal', hlast'⟩ := hm
  rw [hlast] at htotal' hlast'
  constructor
  · rw [counted_append, htotal', htotal, UInt64.ofNat_add, UInt64.add_assoc]
  · rw [hlast', getLastD_append]

theorem adds_addCounter {reported : Int64} (h : 0 ≤ reported) (held : UInt64 × UInt64) :
    Adds held (addCounter reported held) [reported.toUInt64.toNat] := by
  unfold addCounter
  rw [if_pos h]
  refine ⟨?_, rfl⟩
  show held.1 + _ = held.1 + _
  congr 1
  rw [counted, counted, growth, Nat.add_zero]
  split
  · rename_i hle
    rw [if_pos (UInt64.le_iff_toNat_le.mp hle), ← UInt64.toNat_sub_of_le _ _ hle, UInt64.ofNat_toNat]
  · rename_i hlt
    rw [if_neg (mt UInt64.le_iff_toNat_le.mpr hlt), UInt64.ofNat_toNat]

theorem held_updateStatus (k : WorkerCounter) (hactive : b.active = true) (status : Status) :
    k.held (b.updateStatus status) = addCounter (k.counter status) (k.held b) := by
  rw [updateStatus, hactive]
  cases k <;> rfl

theorem adds_call (k : WorkerCounter) (hactive : b.active = true) (c : BenchmarkCall) :
    (b.call c).active = true ∧ Adds (k.held b) (k.held (b.call c)) (k.reading c).toList := by
  by_cases hc : ∃ status, c = .status status
  · obtain ⟨status, rfl⟩ := hc
    refine ⟨?_, ?_⟩
    · rw [call, updateStatus, hactive]
      exact hactive
    · rw [call, held_updateStatus k hactive, reading, reported]
      split
      · exact adds_addCounter ‹_› _
      · rename_i hneg
        rw [addCounter, if_neg hneg]
        exact .nil _
  · have hcounters := call_counters (b := b) fun status h => hc ⟨status, h⟩
    have hreading : k.reading c = none := by
      cases c with
      | status status => exact absurd ⟨status, rfl⟩ hc
      | _ => rfl
    rw [held_eq_of_counters hcounters, hreading]
    exact ⟨(congrArg Prod.fst hcounters).trans hactive, .nil _⟩

theorem adds_calls (k : WorkerCounter) (hactive : b.active = true) (calls : List BenchmarkCall) :
    (calls.foldl call b).active = true ∧ Adds (k.held b) (k.held (calls.foldl call b)) (calls.filterMap k.reading) := by
  induction calls generalizing b with
  | nil => exact ⟨hactive, .nil _⟩
  | cons c calls ih =>
    obtain ⟨hcall, hadds⟩ := adds_call k hactive c
    obtain ⟨hcalls, hrest⟩ := ih hcall
    refine ⟨hcalls, ?_⟩
    have hreadings : (c :: calls).filterMap k.reading = (k.reading c).toList ++ calls.filterMap k.reading := by
      cases hc : k.reading c <;> simp [hc]
    rw [hreadings]
    exact hadds.append hrest

/-- In a session that is active, a respawn does nothing to the benchmark. -/
theorem adds_live (k : WorkerCounter) (hactive : b.active = true) (life : WorkerLife) :
    (b.live life).active = true ∧ Adds (k.held b) (k.held (b.live life)) (k.readings life) := by
  rw [live, beginIfInactive, if_pos hactive]
  exact adds_calls k hactive life.calls

theorem adds_lives (k : WorkerCounter) (hactive : b.active = true) (lives : List WorkerLife) :
    Adds (k.held b) (k.held (lives.foldl live b)) (lives.map k.readings).flatten := by
  induction lives generalizing b with
  | nil => exact .nil _
  | cons life lives ih =>
    obtain ⟨hlive, hadds⟩ := adds_live k hactive life
    exact hadds.append (ih hlive)

theorem total_eq_sum_iff (k : WorkerCounter) (hactive : b.active = true) (hzero : k.held b = (0, 0))
    {lives : List WorkerLife} (hmono : ∀ life ∈ lives, (k.readings life).Pairwise (· ≤ ·)) :
    (k.held (lives.foldl live b)).1.toNat = k.sum lives ↔
      k.sum lives < 2 ^ 64 ∧ ShowsAll 0 (lives.map k.readings) := by
  obtain ⟨htotal, -⟩ := adds_lives k hactive lives
  have hsorted : ∀ life ∈ lives.map k.readings, life.Pairwise (· ≤ ·) := by
    intro life hlife
    obtain ⟨worker, hworker, rfl⟩ := List.mem_map.mp hlife
    exact hmono worker hworker
  obtain ⟨hle, hiff⟩ := counted_flatten_eq_iff hsorted 0
  have hsum : ((lives.map k.readings).map (·.getLastD 0)).sum = k.sum lives := by rw [List.map_map]; rfl
  rw [hsum] at hle hiff
  rw [htotal, hzero, ← hiff]
  show (0 + UInt64.ofNat (counted 0 _)).toNat = _ ↔ _
  rw [UInt64.zero_add, UInt64.toNat_ofNat']
  constructor
  · intro heq
    have hfits : k.sum lives < 2 ^ 64 := heq ▸ Nat.mod_lt _ (by decide)
    rw [Nat.mod_eq_of_lt (by omega)] at heq
    exact ⟨hfits, heq⟩
  · rintro ⟨hfits, heq⟩
    rw [heq, Nat.mod_eq_of_lt hfits]

end WorkerCounter

/-! ## Sessions -/

namespace BenchmarkTotals

variable {b : BenchmarkTotals} {modelId backend : CString} {nowUs : Int64} {lives : List WorkerLife}

theorem begin_active (hnow : 0 ≤ nowUs) : (b.begin modelId backend ⟨true, nowUs⟩).active = true := by
  unfold begin Benchmark.begin
  rw [if_neg (Int64.not_lt.mpr hnow)]
  simp [Int64.not_lt.mpr hnow]

theorem held_begin (k : WorkerCounter) (hnow : 0 ≤ nowUs) :
    k.held (b.begin modelId backend ⟨true, nowUs⟩) = (0, 0) := by
  unfold begin
  rw [if_neg (Int64.not_lt.mpr hnow)]
  cases k <;> rfl

/-- **The totals of a session are the sums of its workers' last counters, if and only if these sums fit and every
restart shows.** -/
theorem totals_eq_sum_iff (b : BenchmarkTotals) (modelId backend : CString) (nowUs : Int64) (lives : List WorkerLife)
    (hnow : 0 ≤ nowUs) (hmono : ∀ k : WorkerCounter, ∀ life ∈ lives, (k.readings life).Pairwise (· ≤ ·)) :
    (lives.foldl live (b.begin modelId backend ⟨true, nowUs⟩)).inferenceUs.toNat = WorkerCounter.inference.sum lives ∧
      (lives.foldl live (b.begin modelId backend ⟨true, nowUs⟩)).droppedAudioUs.toNat =
        WorkerCounter.droppedAudio.sum lives ↔
    ∀ k : WorkerCounter, k.sum lives < 2 ^ 64 ∧ ShowsAll 0 (lives.map k.readings) := by
  have hactive : (b.begin modelId backend ⟨true, nowUs⟩).active = true := begin_active hnow
  have hone (k : WorkerCounter) := k.total_eq_sum_iff hactive (held_begin k hnow) (hmono k)
  constructor
  · rintro ⟨hinference, hdropped⟩ k
    cases k with
    | inference => exact (hone .inference).mp hinference
    | droppedAudio => exact (hone .droppedAudio).mp hdropped
  · intro h
    exact ⟨(hone .inference).mpr (h .inference), (hone .droppedAudio).mpr (h .droppedAudio)⟩

/-- A worker that reports once. -/
def reportingLife (inferenceUs : Int64) : WorkerLife :=
  ⟨.empty, .empty, ⟨true, 0⟩, [.status ⟨.zero _, 0, 0, inferenceUs, 0, .zero _⟩]⟩

theorem totals_eq_sum_iff_falling :
    (([reportingLife 100, reportingLife 50].foldl live (zero.begin .empty .empty ⟨true, 0⟩)).inferenceUs.toNat =
        WorkerCounter.inference.sum [reportingLife 100, reportingLife 50] ∧
      ([reportingLife 100, reportingLife 50].foldl live (zero.begin .empty .empty ⟨true, 0⟩)).droppedAudioUs.toNat =
        WorkerCounter.droppedAudio.sum [reportingLife 100, reportingLife 50] ↔
    ∀ k : WorkerCounter, k.sum [reportingLife 100, reportingLife 50] < 2 ^ 64 ∧
      ShowsAll 0 ([reportingLife 100, reportingLife 50].map k.readings)) := by
  apply totals_eq_sum_iff zero .empty .empty 0 _ (by decide)
  intro k life hlife
  rcases List.mem_pair.mp hlife with rfl | rfl <;> cases k <;> exact List.pairwise_singleton _ _

/-- The second worker starts with more than the first one ended with: of 250 µs, 150 are counted. -/
theorem not_totals_eq_sum : ¬ ∀ lives : List WorkerLife,
    (∀ k : WorkerCounter, ∀ life ∈ lives, (k.readings life).Pairwise (· ≤ ·)) →
    (lives.foldl live (zero.begin .empty .empty ⟨true, 0⟩)).inferenceUs.toNat = WorkerCounter.inference.sum lives := by
  intro h
  have hmono : ∀ k : WorkerCounter, ∀ life ∈ [reportingLife 100, reportingLife 150],
      (k.readings life).Pairwise (· ≤ ·) := by
    intro k life hlife
    rcases List.mem_pair.mp hlife with rfl | rfl <;> cases k <;> exact List.pairwise_singleton _ _
  have htotal := h _ hmono
  revert htotal
  decide

/-- A worker reports zero counters with each session that it starts. Where the first of these reports of every life
comes in, nothing is lost. -/
theorem totals_eq_sum_of_zero (k : WorkerCounter) (hnow : 0 ≤ nowUs)
    (hmono : ∀ life ∈ lives, (k.readings life).Pairwise (· ≤ ·)) (hfits : k.sum lives < 2 ^ 64)
    (hzero : ∀ life ∈ lives, ∀ first ∈ (k.readings life).head?, first = 0) :
    (k.held (lives.foldl live (b.begin modelId backend ⟨true, nowUs⟩))).1.toNat = k.sum lives := by
  refine (k.total_eq_sum_iff (begin_active hnow) (held_begin k hnow) hmono).mpr ⟨hfits, showsAll_of_zero ?_ 0⟩
  intro life hlife
  obtain ⟨worker, hworker, rfl⟩ := List.mem_map.mp hlife
  exact hzero worker hworker

end BenchmarkTotals

end VlcWhisper.Plugin
