import VlcWhisper.Plugin.CueDisplay

/-!
# The sums of cues' times (`vw_caption_presenter.c`, `vw_benchmark.c`)

The client takes any cue that ends after it starts; nothing bounds its times. Here the functions that compute with
them are written with checked sums: they give nothing where a sum overflows, and what the code gives where none does.

Main result: `run_isSome_iff`. No sum overflows in a run if and only if each of its steps meets `CueEvent.Fits`.
-/

namespace VlcWhisper.Plugin

open VlcWhisper.Lib VlcWhisper.Protocol

/-! ## The presenter -/

namespace CaptionPresenter

/-- `targetDuration`, of a length that is known. -/
def targetOf (minMediaFloorUs rawDurationUs : Int64) : Int64 :=
  if rawDurationUs ≤ 0 then 2000000
  else if rawDurationUs < minMediaFloorUs then minMediaFloorUs
  else rawDurationUs

/-- `targetDuration`. -/
def targetDurationChecked (minMediaFloorUs : Int64) (segment : CaptionSegment) : Option Int64 := do
  let rawDurationUs ← subChecked segment.endPtsUs segment.startPtsUs
  pure (targetOf minMediaFloorUs rawDurationUs)

/-- The end of a cue that another one follows. -/
def clippedEndChecked (minMediaFloorUs targetEndUs : Int64) (pending next : CaptionSegment) : Option Int64 :=
  if pending.startPtsUs < next.startPtsUs && next.startPtsUs < targetEndUs then do
    let gapUs ← subChecked next.startPtsUs pending.startPtsUs
    if minMediaFloorUs ≤ gapUs then pure next.startPtsUs else addChecked pending.startPtsUs minMediaFloorUs
  else pure targetEndUs

/-- `clippedDuration`. -/
def clippedDurationChecked (minMediaFloorUs : Int64) (pending next : CaptionSegment) : Option Int64 := do
  let rawDurationUs ← subChecked pending.endPtsUs pending.startPtsUs
  let targetEndUs ← addChecked pending.startPtsUs (targetOf minMediaFloorUs rawDurationUs)
  let clippedEndUs ← clippedEndChecked minMediaFloorUs targetEndUs pending next
  let durationUs ← subChecked clippedEndUs pending.startPtsUs
  let durationUs := if durationUs ≤ 0 then (if 0 < rawDurationUs then rawDurationUs else 2000000) else durationUs
  pure (if durationUs < minMediaFloorUs then minMediaFloorUs else durationUs)

/-- `vw_caption_presenter_show_segment`. -/
def showSegmentChecked (minMediaFloorUs : Int64) (segment : CaptionSegment) (inputTimeUs : Int64) (mediaTimeline : Bool)
    (p : CaptionPresenter) : Option (List Render × CaptionPresenter) :=
  if segment.text.data.isNone then some ([], p)
  else match p.pending with
    | none => some ([], ⟨some (.buffered segment)⟩)
    | some cue => do
      let durationUs ← clippedDurationChecked minMediaFloorUs cue.segment segment
      pure ([⟨cue, durationUs, inputTimeUs, mediaTimeline, false⟩], ⟨some (.buffered segment)⟩)

/-- `vw_caption_presenter_flush`. -/
def flushChecked (minMediaFloorUs : Int64) (inputTimeUs : Int64) (mediaTimeline : Bool) (p : CaptionPresenter) :
    Option (List Render × CaptionPresenter) :=
  match p.pending with
  | none => some ([], p.blank)
  | some cue => do
    let durationUs ← targetDurationChecked minMediaFloorUs cue.segment
    pure ([⟨cue, durationUs, inputTimeUs, mediaTimeline, false⟩], p.blank)

/-- `vw_caption_presenter_show_paused`. -/
def showPausedChecked (segment : CaptionSegment) (p : CaptionPresenter) : Option (List Render × CaptionPresenter) :=
  if segment.text.data.isNone then some ([], p)
  else do
    let durationUs ← subChecked segment.endPtsUs segment.startPtsUs
    let durationUs := if durationUs < 1000000 then 1000000 else durationUs
    pure ([⟨.direct segment, durationUs, -1, false, true⟩], p.blank)

end CaptionPresenter

/-! ## The benchmark -/

def maxLatencySamples : Nat := 1024

/-- `vw_benchmark_t`, as far as it is about audio and cues. -/
structure Benchmark where
  active : Bool
  startedUs : Int64
  audioChunksSent : UInt64
  audioDurationUs : UInt64
  captionsReceived : UInt64
  segmentAudioDurationUs : UInt64
  segmentTextBytes : UInt64
  latencySamplesDropped : UInt64
  lastSegmentId : UInt64
  lastSegmentStartPtsUs : Int64
  lastSegmentEndPtsUs : Int64
  livePtsToMonotonicUs : Int64
  latencySamples : List Int64
  liveClockValid : Bool

namespace Benchmark

def zero : Benchmark := ⟨false, 0, 0, 0, 0, 0, 0, 0, 0, 0, 0, 0, [], false⟩

/-- `vw_benchmark_begin`; `written` is whether the first report can be written. -/
def begin (written : Bool) (nowUs : Int64) (b : Benchmark) : Benchmark :=
  if nowUs < 0 then b
  else if written then { zero with active := true, startedUs := nowUs }
  else zero

/-- `vw_benchmark_record_audio`. -/
def recordAudio (startPtsUs durationUs nowUs : Int64) (b : Benchmark) : Benchmark :=
  if !b.active || durationUs ≤ 0 then b
  else
    let b := { b with
      audioChunksSent := b.audioChunksSent + 1
      audioDurationUs := b.audioDurationUs + durationUs.toUInt64 }
    if b.liveClockValid then b else { b with livePtsToMonotonicUs := nowUs - startPtsUs, liveClockValid := true }

/-- `vw_benchmark_reset_live_clock`. -/
def resetLiveClock (b : Benchmark) : Benchmark := { b with liveClockValid := false }

/-- The length of a cue is added up. -/
def addDurationChecked (segment : CaptionSegment) (b : Benchmark) : Option Benchmark :=
  if segment.startPtsUs < segment.endPtsUs then do
    let durationUs ← subChecked segment.endPtsUs segment.startPtsUs
    pure { b with segmentAudioDurationUs := b.segmentAudioDurationUs + durationUs.toUInt64 }
  else pure b

/-- How late a live cue is. -/
def addLatencyChecked (segment : CaptionSegment) (nowUs : Int64) (b : Benchmark) : Option Benchmark := do
  let segmentEndMonotonicUs ← addChecked segment.endPtsUs b.livePtsToMonotonicUs
  if b.latencySamples.length < maxLatencySamples then do
    let latencyUs ← subChecked nowUs segmentEndMonotonicUs
    pure { b with latencySamples := b.latencySamples ++ [latencyUs] }
  else pure { b with latencySamplesDropped := b.latencySamplesDropped + 1 }

/-- `vw_benchmark_record_caption_received`. -/
def recordCaptionReceivedChecked (segment : CaptionSegment) (nowUs : Int64) (sourceMode : Bool) (b : Benchmark) :
    Option Benchmark :=
  let b := { b with
    lastSegmentId := segment.segmentId
    lastSegmentStartPtsUs := segment.startPtsUs
    lastSegmentEndPtsUs := segment.endPtsUs }
  if !b.active then some b
  else do
    let b ← addDurationChecked segment { b with captionsReceived := b.captionsReceived + 1 }
    let b := { b with segmentTextBytes := b.segmentTextBytes + segment.text.length.toUInt64 }
    if !sourceMode && b.liveClockValid then addLatencyChecked segment nowUs b else pure b

end Benchmark

/-! ## Runs -/

/-- The presenter and the benchmark of a client. -/
structure CueState where
  presenter : CaptionPresenter
  benchmark : Benchmark

/-- A call of the client. -/
inductive CueEvent where
  | begin (written : Bool) (nowUs : Int64)
  | audio (startPtsUs durationUs nowUs : Int64)
  | resetLiveClock
  | received (segment : CaptionSegment) (nowUs : Int64) (sourceMode : Bool)
  | show (rates : List Binary32) (segment : CaptionSegment) (inputTimeUs : Int64) (mediaTimeline : Bool)
  | showPaused (segment : CaptionSegment)
  | flush (rates : List Binary32) (inputTimeUs : Int64) (mediaTimeline : Bool)
  | blank

namespace CueState

/-- Nothing is held back, and no benchmark runs. -/
def start : CueState := ⟨⟨none⟩, .zero⟩

/-- What becomes of the state, unless a sum overflows. -/
def step (s : CueState) : CueEvent → Option CueState
  | .begin written nowUs => some { s with benchmark := s.benchmark.begin written nowUs }
  | .audio startPtsUs durationUs nowUs =>
    some { s with benchmark := s.benchmark.recordAudio startPtsUs durationUs nowUs }
  | .resetLiveClock => some { s with benchmark := s.benchmark.resetLiveClock }
  | .received segment nowUs sourceMode =>
    (s.benchmark.recordCaptionReceivedChecked segment nowUs sourceMode).map fun b => { s with benchmark := b }
  | .show rates segment inputTimeUs mediaTimeline =>
    (s.presenter.showSegmentChecked (minMediaFloorUs rates) segment inputTimeUs mediaTimeline).map
      fun r => { s with presenter := r.2 }
  | .showPaused segment => (s.presenter.showPausedChecked segment).map fun r => { s with presenter := r.2 }
  | .flush rates inputTimeUs mediaTimeline =>
    (s.presenter.flushChecked (minMediaFloorUs rates) inputTimeUs mediaTimeline).map fun r =>
      { s with presenter := r.2 }
  | .blank => some { s with presenter := s.presenter.blank }

/-- What becomes of the state in some calls. -/
def run : CueState → List CueEvent → Option CueState
  | s, [] => some s
  | s, e :: es => (s.step e).bind (run · es)

end CueState

/-! ## The checked sums are the code's -/

namespace CaptionPresenter

variable {minMediaFloorUs inputTimeUs : Int64} {mediaTimeline : Bool} {segment pending next : CaptionSegment}
  {p : CaptionPresenter}

theorem clippedEnd_of_checked {targetEndUs clippedEndUs : Int64}
    (h : clippedEndChecked minMediaFloorUs targetEndUs pending next = some clippedEndUs) :
    clippedEndUs = if pending.startPtsUs < next.startPtsUs && next.startPtsUs < targetEndUs then
        if minMediaFloorUs ≤ next.startPtsUs - pending.startPtsUs then next.startPtsUs
        else pending.startPtsUs + minMediaFloorUs
      else targetEndUs := by
  unfold clippedEndChecked at h
  split at h
  · rename_i hcut
    rw [if_pos hcut]
    obtain ⟨gapUs, hgap, h⟩ := Option.bind_eq_some_iff.mp h
    obtain rfl := eq_of_subChecked hgap
    split at h
    · rename_i hroom
      rw [if_pos hroom]
      exact (Option.some.inj h).symm
    · rename_i hroom
      rw [if_neg hroom]
      exact eq_of_addChecked h
  · rename_i hcut
    rw [if_neg hcut]
    exact (Option.some.inj h).symm

theorem clippedDuration_of_checked {durationUs : Int64}
    (h : clippedDurationChecked minMediaFloorUs pending next = some durationUs) :
    clippedDuration minMediaFloorUs pending next = durationUs := by
  obtain ⟨rawDurationUs, hraw, h⟩ := Option.bind_eq_some_iff.mp h
  obtain ⟨targetEndUs, htarget, h⟩ := Option.bind_eq_some_iff.mp h
  obtain ⟨clippedEndUs, hclipped, h⟩ := Option.bind_eq_some_iff.mp h
  obtain ⟨lengthUs, hlength, h⟩ := Option.bind_eq_some_iff.mp h
  obtain rfl := eq_of_subChecked hraw
  obtain rfl := eq_of_addChecked htarget
  obtain rfl := clippedEnd_of_checked hclipped
  obtain rfl := eq_of_subChecked hlength
  exact Option.some.inj h

theorem showSegment_of_checked {r : List Render × CaptionPresenter}
    (h : p.showSegmentChecked minMediaFloorUs segment inputTimeUs mediaTimeline = some r) :
    p.showSegment minMediaFloorUs segment inputTimeUs mediaTimeline = r := by
  obtain ⟨pending⟩ := p
  unfold showSegmentChecked at h
  unfold showSegment
  split at h
  · rename_i htext
    rw [if_pos htext]
    exact Option.some.inj h
  · rename_i htext
    rw [if_neg htext]
    cases pending with
    | none => exact Option.some.inj h
    | some cue =>
      obtain ⟨durationUs, hduration, h⟩ := Option.bind_eq_some_iff.mp h
      obtain rfl := clippedDuration_of_checked hduration
      exact Option.some.inj h

theorem flush_of_checked {r : List Render × CaptionPresenter}
    (h : p.flushChecked minMediaFloorUs inputTimeUs mediaTimeline = some r) :
    p.flush minMediaFloorUs inputTimeUs mediaTimeline = r := by
  obtain ⟨pending⟩ := p
  cases pending with
  | none => exact Option.some.inj h
  | some cue =>
    obtain ⟨durationUs, hduration, h⟩ := Option.bind_eq_some_iff.mp h
    obtain ⟨rawDurationUs, hraw, htarget⟩ := Option.bind_eq_some_iff.mp hduration
    obtain rfl := eq_of_subChecked hraw
    obtain rfl := Option.some.inj htarget
    exact Option.some.inj h

theorem showPaused_of_checked {r : List Render × CaptionPresenter} (h : p.showPausedChecked segment = some r) :
    p.showPaused segment = r := by
  unfold showPausedChecked at h
  unfold showPaused
  split at h
  · rename_i htext
    rw [if_pos htext]
    exact Option.some.inj h
  · rename_i htext
    rw [if_neg htext]
    obtain ⟨durationUs, hduration, h⟩ := Option.bind_eq_some_iff.mp h
    obtain rfl := eq_of_subChecked hduration
    exact Option.some.inj h

end CaptionPresenter

/-! ## Where no sum overflows -/

/-- The exact length of a cue. -/
def exactLength (segment : CaptionSegment) : Int := segment.endPtsUs.toInt - segment.startPtsUs.toInt

/-- A cue can be dispatched: its length fits, and so does the end of the floor if that is longer. -/
def DispatchFits (minMediaFloorUs : Int64) (segment : CaptionSegment) : Prop :=
  FitsInt64 (exactLength segment) ∧
    (exactLength segment < minMediaFloorUs.toInt → FitsInt64 (segment.startPtsUs.toInt + minMediaFloorUs.toInt))

/-- What is to be met for a call to compute without overflow. -/
def CueEvent.Fits (s : CueState) : CueEvent → Prop
  | .received segment nowUs sourceMode => s.benchmark.active = true → FitsInt64 (exactLength segment) ∧
      (sourceMode = false → s.benchmark.liveClockValid = true →
        FitsInt64 (segment.endPtsUs.toInt + s.benchmark.livePtsToMonotonicUs.toInt) ∧
          (s.benchmark.latencySamples.length < maxLatencySamples →
            FitsInt64 (nowUs.toInt - (segment.endPtsUs.toInt + s.benchmark.livePtsToMonotonicUs.toInt))))
  | .show rates _ _ _ => ∀ cue ∈ s.presenter.pending, DispatchFits (minMediaFloorUs rates) cue.segment
  | .showPaused segment => FitsInt64 (exactLength segment)
  | .flush _ _ _ => ∀ cue ∈ s.presenter.pending, FitsInt64 (exactLength cue.segment)
  | _ => True

theorem isCue_of_validate {segment : CaptionSegment} (h : validateCaptionSegment segment = true) : IsCue segment := by
  obtain ⟨hlt, htext, -⟩ := validateCaptionSegment_iff.mp h
  constructor
  · have hbytes := (validateText_iff.mp htext).2.2.1
    by_contra hnone
    rw [Bool.not_eq_true, Option.isSome_eq_false_iff, Option.isNone_iff_eq_none] at hnone
    rw [Slice.bytes, hnone, Option.getD_none, List.take_nil] at hbytes
    cases hbytes
  · exact Int64.lt_iff_toInt_lt.mp hlt

namespace CaptionPresenter

variable {minMediaFloorUs inputTimeUs : Int64} {mediaTimeline : Bool} {segment pending next : CaptionSegment}
  {p : CaptionPresenter}

theorem targetOf_toInt {rawDurationUs : Int64} (h : 0 < rawDurationUs.toInt) :
    (targetOf minMediaFloorUs rawDurationUs).toInt = max rawDurationUs.toInt minMediaFloorUs.toInt := by
  simp only [targetOf, toInt_ite, Int64.le_iff_toInt_le, Int64.lt_iff_toInt_lt, Int64.toInt_zero]
  rw [if_neg (by omega)]
  split <;> omega

theorem clippedDurationChecked_isSome (hcue : IsCue pending) :
    (clippedDurationChecked minMediaFloorUs pending next).isSome ↔ DispatchFits minMediaFloorUs pending := by
  have hlt := hcue.start_lt_end
  have hstart := fitsInt64_toInt pending.startPtsUs
  have hend := fitsInt64_toInt pending.endPtsUs
  have hfloor := fitsInt64_toInt minMediaFloorUs
  dsimp only [FitsInt64] at hstart hend hfloor
  constructor
  · intro h
    obtain ⟨durationUs, h⟩ := Option.isSome_iff_exists.mp h
    obtain ⟨rawDurationUs, hraw, h⟩ := Option.bind_eq_some_iff.mp h
    obtain ⟨targetEndUs, htarget, -⟩ := Option.bind_eq_some_iff.mp h
    have hlength := subChecked_eq_some.mp hraw
    refine ⟨fits_of_subChecked hraw, fun hshort => ?_⟩
    have hfits := fits_of_addChecked htarget
    rw [targetOf_toInt (by omega), hlength, max_eq_right (by unfold exactLength at hshort; omega)] at hfits
    exact hfits
  · rintro ⟨hlength, hshort⟩
    have hraw := subChecked_of_fits hlength
    have hrawInt := subChecked_eq_some.mp hraw
    have htargetInt := @targetOf_toInt minMediaFloorUs (pending.endPtsUs - pending.startPtsUs) (by omega)
    dsimp only [FitsInt64, exactLength] at hlength hshort
    have htarget : FitsInt64 (pending.startPtsUs.toInt +
        (targetOf minMediaFloorUs (pending.endPtsUs - pending.startPtsUs)).toInt) := by
      constructor <;> omega
    have htargetEnd := toInt_add_of_fits htarget
    generalize hT : targetOf minMediaFloorUs (pending.endPtsUs - pending.startPtsUs) = target at *
    have hclipped : ∃ clippedEndUs, clippedEndChecked minMediaFloorUs (pending.startPtsUs + target) pending next =
        some clippedEndUs ∧ FitsInt64 (clippedEndUs.toInt - pending.startPtsUs.toInt) := by
      unfold clippedEndChecked
      by_cases hcut : (pending.startPtsUs < next.startPtsUs && next.startPtsUs < pending.startPtsUs + target) = true
      · rw [if_pos hcut]
        simp only [Bool.and_eq_true, decide_eq_true_eq, Int64.lt_iff_toInt_lt, htargetEnd] at hcut
        have hgap : FitsInt64 (next.startPtsUs.toInt - pending.startPtsUs.toInt) := by constructor <;> omega
        have hgapInt := toInt_sub_of_fits hgap
        rw [subChecked_of_fits hgap, Option.bind_eq_bind, Option.bind_some]
        by_cases hroom : minMediaFloorUs ≤ next.startPtsUs - pending.startPtsUs
        · rw [if_pos hroom]
          exact ⟨_, rfl, hgap⟩
        · rw [if_neg hroom]
          rw [Int64.le_iff_toInt_le] at hroom
          have hfloorEnd : FitsInt64 (pending.startPtsUs.toInt + minMediaFloorUs.toInt) := by constructor <;> omega
          refine ⟨_, addChecked_of_fits hfloorEnd, ?_⟩
          rw [toInt_add_of_fits hfloorEnd]
          constructor <;> omega
      · rw [if_neg hcut]
        refine ⟨_, rfl, ?_⟩
        rw [htargetEnd]
        constructor <;> omega
    obtain ⟨clippedEndUs, hclipped, hduration⟩ := hclipped
    unfold clippedDurationChecked
    simp only [hraw, Option.bind_eq_bind, Option.bind_some, hT, addChecked_of_fits htarget, hclipped,
      subChecked_of_fits hduration]
    rfl

theorem targetDurationChecked_isSome :
    (targetDurationChecked minMediaFloorUs segment).isSome ↔ FitsInt64 (exactLength segment) := by
  unfold targetDurationChecked
  rw [isSome_subChecked_bind]
  exact and_iff_left rfl

theorem showSegmentChecked_isSome (hsegment : IsCue segment) (hpending : ∀ cue ∈ p.pending, IsCue cue.segment) :
    (p.showSegmentChecked minMediaFloorUs segment inputTimeUs mediaTimeline).isSome ↔
      ∀ cue ∈ p.pending, DispatchFits minMediaFloorUs cue.segment := by
  obtain ⟨pending⟩ := p
  unfold showSegmentChecked
  rw [if_neg (by simp [hsegment.isNone])]
  cases pending with
  | none => exact iff_of_true rfl (fun cue hcue => absurd hcue (by simp))
  | some cue =>
    have hcue := @clippedDurationChecked_isSome minMediaFloorUs _ segment (hpending cue rfl)
    dsimp only
    rw [Option.bind_eq_bind, Option.isSome_bind]
    simp [← hcue]

theorem flushChecked_isSome : (p.flushChecked minMediaFloorUs inputTimeUs mediaTimeline).isSome ↔
    ∀ cue ∈ p.pending, FitsInt64 (exactLength cue.segment) := by
  obtain ⟨pending⟩ := p
  unfold flushChecked
  cases pending with
  | none => exact iff_of_true rfl (fun cue hcue => absurd hcue (by simp))
  | some cue =>
    dsimp only
    rw [Option.bind_eq_bind, Option.isSome_bind]
    simp [← @targetDurationChecked_isSome minMediaFloorUs]

theorem showPausedChecked_isSome (hsegment : IsCue segment) :
    (p.showPausedChecked segment).isSome ↔ FitsInt64 (exactLength segment) := by
  unfold showPausedChecked
  rw [if_neg (by simp [hsegment.isNone]), isSome_subChecked_bind]
  exact and_iff_left rfl

end CaptionPresenter

namespace Benchmark

variable {segment : CaptionSegment} {b : Benchmark} {nowUs : Int64} {sourceMode : Bool}

theorem addLatencyChecked_isSome : (b.addLatencyChecked segment nowUs).isSome ↔
    FitsInt64 (segment.endPtsUs.toInt + b.livePtsToMonotonicUs.toInt) ∧
      (b.latencySamples.length < maxLatencySamples →
        FitsInt64 (nowUs.toInt - (segment.endPtsUs.toInt + b.livePtsToMonotonicUs.toInt))) := by
  unfold addLatencyChecked
  rw [isSome_addChecked_bind]
  apply and_congr_right
  intro hfits
  by_cases hroom : b.latencySamples.length < maxLatencySamples
  · rw [if_pos hroom, isSome_subChecked_bind, toInt_add_of_fits hfits]
    simp [hroom]
  · rw [if_neg hroom]
    exact iff_of_true rfl (fun h => absurd h hroom)

theorem recordCaptionReceivedChecked_isSome (hsegment : IsCue segment) :
    (b.recordCaptionReceivedChecked segment nowUs sourceMode).isSome ↔
      (b.active = true → FitsInt64 (exactLength segment) ∧ (sourceMode = false → b.liveClockValid = true →
        FitsInt64 (segment.endPtsUs.toInt + b.livePtsToMonotonicUs.toInt) ∧
          (b.latencySamples.length < maxLatencySamples →
            FitsInt64 (nowUs.toInt - (segment.endPtsUs.toInt + b.livePtsToMonotonicUs.toInt))))) := by
  unfold recordCaptionReceivedChecked
  cases hactive : b.active with
  | false => simp
  | true =>
    have hlt : segment.startPtsUs < segment.endPtsUs := Int64.lt_iff_toInt_lt.mpr hsegment.start_lt_end
    simp only [Bool.not_true, Bool.false_eq_true, if_false, addDurationChecked, if_pos hlt, bind_assoc, true_imp_iff]
    rw [isSome_subChecked_bind]
    apply and_congr_right
    intro _
    cases sourceMode <;> cases hclock : b.liveClockValid <;> simp [addLatencyChecked_isSome]

end Benchmark

/-- The cues of a call passed `vw_protocol_validate_payload`. -/
def CueEvent.Accepted : CueEvent → Prop
  | .received segment _ _ => validateCaptionSegment segment = true
  | .show _ segment _ _ => validateCaptionSegment segment = true
  | .showPaused segment => validateCaptionSegment segment = true
  | _ => True

namespace CueState

/-- What is held back is such a cue. -/
def HoldsCue (s : CueState) : Prop := ∀ cue ∈ s.presenter.pending, IsCue cue.segment

variable {s t : CueState} {e : CueEvent}

/-- A call computes without overflow if and only if its condition is met. -/
theorem step_isSome (hs : s.HoldsCue) (he : e.Accepted) : (s.step e).isSome ↔ e.Fits s := by
  cases e with
  | received segment nowUs sourceMode =>
    rw [step, Option.isSome_map]
    exact Benchmark.recordCaptionReceivedChecked_isSome (isCue_of_validate he)
  | «show» rates segment inputTimeUs mediaTimeline =>
    rw [step, Option.isSome_map]
    exact CaptionPresenter.showSegmentChecked_isSome (isCue_of_validate he) hs
  | showPaused segment =>
    rw [step, Option.isSome_map]
    exact CaptionPresenter.showPausedChecked_isSome (isCue_of_validate he)
  | flush rates inputTimeUs mediaTimeline =>
    rw [step, Option.isSome_map]
    exact CaptionPresenter.flushChecked_isSome
  | _ => exact iff_of_true rfl trivial

theorem holdsCue_of_pending_none (h : t.presenter.pending = none) : t.HoldsCue := by
  intro cue hcue
  rw [h] at hcue
  cases hcue

theorem step_holdsCue (hs : s.HoldsCue) (he : e.Accepted) (h : s.step e = some t) : t.HoldsCue := by
  cases e with
  | received segment nowUs sourceMode =>
    obtain ⟨b, -, rfl⟩ := Option.map_eq_some_iff.mp h
    exact hs
  | «show» rates segment inputTimeUs mediaTimeline =>
    obtain ⟨r, hr, rfl⟩ := Option.map_eq_some_iff.mp h
    have hcue := isCue_of_validate he
    rw [← CaptionPresenter.showSegment_of_checked hr, CaptionPresenter.showSegment, hcue.isNone]
    intro cue hcue'
    obtain rfl := Option.some.inj hcue'
    exact ⟨hcue.text, hcue.start_lt_end⟩
  | showPaused segment =>
    obtain ⟨r, hr, rfl⟩ := Option.map_eq_some_iff.mp h
    rw [← CaptionPresenter.showPaused_of_checked hr, CaptionPresenter.showPaused, (isCue_of_validate he).isNone]
    exact holdsCue_of_pending_none rfl
  | flush rates inputTimeUs mediaTimeline =>
    obtain ⟨r, hr, rfl⟩ := Option.map_eq_some_iff.mp h
    rw [← CaptionPresenter.flush_of_checked hr]
    exact holdsCue_of_pending_none rfl
  | blank =>
    obtain rfl := Option.some.inj h
    exact holdsCue_of_pending_none rfl
  | _ =>
    obtain rfl := Option.some.inj h
    exact hs

/-- Every call of a run meets its condition, in the state that the calls before it led to. -/
def AllFit : CueState → List CueEvent → Prop
  | _, [] => True
  | s, e :: es => e.Fits s ∧ ∀ t, s.step e = some t → AllFit t es

theorem isSome_run_iff {events : List CueEvent} (hs : s.HoldsCue) (haccepted : ∀ e ∈ events, e.Accepted) :
    (s.run events).isSome ↔ s.AllFit events := by
  induction events generalizing s with
  | nil => exact iff_of_true rfl trivial
  | cons e es ih =>
    have he := haccepted e List.mem_cons_self
    have hes : ∀ e ∈ es, e.Accepted := fun e he => haccepted e (List.mem_cons_of_mem _ he)
    rw [run, AllFit, ← step_isSome hs he]
    cases hstep : s.step e with
    | none => exact iff_of_false Bool.false_ne_true (Bool.false_ne_true ∘ And.left)
    | some t =>
      rw [Option.bind_some, ih (step_holdsCue hs he hstep) hes]
      simp

/-- **No sum of a run overflows, if and only if each of its calls meets its condition.** -/
theorem run_isSome_iff {events : List CueEvent} (haccepted : ∀ e ∈ events, e.Accepted) :
    (start.run events).isSome ↔ start.AllFit events := by
  apply isSome_run_iff _ haccepted
  exact holdsCue_of_pending_none rfl

/-- A cue of five seconds that is shown and flushed. -/
theorem run_isSome_iff_letter :
    (start.run [.show [] (letterCue 0 5000000) 0 true, .flush [] 0 true]).isSome ↔
      start.AllFit [.show [] (letterCue 0 5000000) 0 true, .flush [] 0 true] := by
  apply run_isSome_iff
  intro e he
  rcases List.mem_pair.mp he with rfl | rfl
  · exact show validateCaptionSegment (letterCue 0 5000000) = true by decide
  · trivial

/-- The longest cue of all cannot be flushed. -/
theorem not_run_isSome : ¬ ∀ events : List CueEvent, (∀ e ∈ events, e.Accepted) → (start.run events).isSome := by
  intro h
  have hrun := h [.show [] (letterCue Int64.minValue Int64.maxValue) 0 true, .flush [] 0 true] (by
    intro e he
    rcases List.mem_pair.mp he with rfl | rfl
    · exact show validateCaptionSegment (letterCue Int64.minValue Int64.maxValue) = true by decide
    · trivial)
  revert hrun
  decide

end CueState

end VlcWhisper.Plugin
