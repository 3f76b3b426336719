import VlcWhisper.Lib.Checked
import VlcWhisper.Plugin.CaptionPresenter

/-!
# How long cues are shown (`vw_caption_presenter_show_segment`, `vw_caption_presenter_flush`)

A run of cues ends with a flush. Each cue is drawn when the next one comes, or the flush, and the rate of that moment
decides the shortest time it is shown.

Main result: `presentAll_dispatched`. The cues are drawn once each and in order, for at least that time, and up to
their successor at most where that leaves them that time.
-/

namespace VlcWhisper.Plugin

open VlcWhisper.Lib VlcWhisper.Protocol

/-! ## The rate -/

/-- `vw_caption_presenter_get_rate`: the first of the rates that can be read, up from the filter, which is more than
`minRate`. -/
def getRate (rates : List Binary32) : Binary32 := (rates.find? minRate.lt).getD .one

/-- `VW_CAPTION_MIN_DISPLAY_DURATION_US` at a rate, exactly. -/
def displayFloor (rates : List Binary32) : Nat := (getRate rates).truncMul 1000000

/-- `min_media_floor_us`. -/
def minMediaFloorUs (rates : List Binary32) : Int64 := .ofNat (displayFloor rates)

theorem lt_getRate (rates : List Binary32) : minRate.lt (getRate rates) = true := by
  unfold getRate
  cases hfind : rates.find? minRate.lt with
  | none => decide
  | some rate => exact List.find?_some hfind

theorem displayFloor_pos (rates : List Binary32) : 0 < displayFloor rates := by
  have hlt := lt_getRate rates
  simp only [Binary32.lt, Bool.and_eq_true, decide_eq_true_eq] at hlt
  have hkey := hlt.2
  have hmin : minRate.key = 0x3D4CCCCD := by decide
  rw [hmin, Binary32.key] at hkey
  apply Binary32.truncMul_pos (by omega)
  split at hkey <;> omega

theorem minMediaFloorUs_toInt {rates : List Binary32} (h : FitsInt64 (displayFloor rates)) :
    (minMediaFloorUs rates).toInt = displayFloor rates := by
  exact Int64.toInt_ofNat_of_lt (by exact_mod_cast h.2)

/-! ## Runs -/

/-- A call of `vw_caption_presenter_show_segment`. -/
structure ShowCall where
  rates : List Binary32
  segment : CaptionSegment
  inputTimeUs : Int64
  mediaTimeline : Bool

/-- What is drawn in some calls. -/
def showAll : List ShowCall → CaptionPresenter → List Render × CaptionPresenter
  | [], p => ([], p)
  | call :: calls, p =>
    let (renders, p) := p.showSegment (minMediaFloorUs call.rates) call.segment call.inputTimeUs call.mediaTimeline
    let (others, p) := showAll calls p
    (renders ++ others, p)

/-- What is drawn in some calls and a flush. -/
def presentAll (calls : List ShowCall) (flushRates : List Binary32) (inputTimeUs : Int64) (mediaTimeline : Bool)
    (p : CaptionPresenter) : List Render × CaptionPresenter :=
  let (renders, p) := showAll calls p
  let (others, p) := p.flush (minMediaFloorUs flushRates) inputTimeUs mediaTimeline
  (renders ++ others, p)

/-! ## What should be drawn -/

/-- A cue with the rates of its dispatch, and its successor if that is what dispatches it. -/
structure Dispatch where
  segment : CaptionSegment
  rates : List Binary32
  next : Option CaptionSegment

/-- Each cue is dispatched by the call after it, and the last one by the flush. -/
def dispatches : List ShowCall → List Binary32 → List Dispatch
  | [], _ => []
  | [call], flushRates => [⟨call.segment, flushRates, none⟩]
  | call :: next :: calls, flushRates =>
    ⟨call.segment, next.rates, some next.segment⟩ :: dispatches (next :: calls) flushRates

/-- A cue with a text, and with an end after its start. -/
structure IsCue (segment : CaptionSegment) : Prop where
  text : segment.text.data.isSome = true
  start_lt_end : segment.startPtsUs.toInt < segment.endPtsUs.toInt

theorem IsCue.isNone {segment : CaptionSegment} (h : IsCue segment) :
    segment.text.data.isNone = false := by
  rw [← Option.not_isSome, h.text]
  rfl

/-- Neither the length of the cue nor the end of the shortest time it is shown overflows. -/
structure Dispatch.Bounded (d : Dispatch) : Prop where
  floor : FitsInt64 (displayFloor d.rates)
  length : FitsInt64 (d.segment.endPtsUs.toInt - d.segment.startPtsUs.toInt)
  floorEnd : FitsInt64 (d.segment.startPtsUs.toInt + displayFloor d.rates)

/-- How a cue should be drawn. -/
structure Dispatch.DrawnAs (d : Dispatch) (r : Render) : Prop where
  cue : r.cue = .buffered d.segment
  floor_le : displayFloor d.rates ≤ r.durationUs.toInt
  end_le : ∀ next ∈ d.next, d.segment.startPtsUs.toInt + displayFloor d.rates ≤ next.startPtsUs.toInt →
    d.segment.startPtsUs.toInt + r.durationUs.toInt ≤ next.startPtsUs.toInt

/-! ## Durations -/

variable {rates : List Binary32} {segment next : CaptionSegment}

theorem toInt_ite (c : Prop) [Decidable c] (a b : Int64) :
    (if c then a else b).toInt = if c then a.toInt else b.toInt :=
  apply_ite _ _ _ _

theorem targetDuration_toInt (hcue : IsCue segment) (hbounded : Dispatch.Bounded ⟨segment, rates, next?⟩) :
    (CaptionPresenter.targetDuration (minMediaFloorUs rates) segment).toInt =
      max (segment.endPtsUs.toInt - segment.startPtsUs.toInt) (displayFloor rates) := by
  have hlength := toInt_sub_of_fits hbounded.length
  have hfloor := minMediaFloorUs_toInt hbounded.floor
  have hlt := hcue.start_lt_end
  dsimp only at hlength hfloor
  simp only [CaptionPresenter.targetDuration, toInt_ite, Int64.le_iff_toInt_le, Int64.lt_iff_toInt_lt, hlength, hfloor,
    Int64.toInt_zero]
  rw [if_neg (by omega)]
  split <;> omega

theorem clippedDuration_eq {pending : CaptionSegment} {clippedEndUs : Int64} (hfloor : FitsInt64 (displayFloor rates))
    (hend : (if pending.startPtsUs < next.startPtsUs &&
        next.startPtsUs < pending.startPtsUs + CaptionPresenter.targetDuration (minMediaFloorUs rates) pending then
        if minMediaFloorUs rates ≤ next.startPtsUs - pending.startPtsUs then next.startPtsUs
        else pending.startPtsUs + minMediaFloorUs rates
      else pending.startPtsUs + CaptionPresenter.targetDuration (minMediaFloorUs rates) pending) = clippedEndUs)
    (hle : displayFloor rates ≤ (clippedEndUs - pending.startPtsUs).toInt) :
    CaptionPresenter.clippedDuration (minMediaFloorUs rates) pending next = clippedEndUs - pending.startPtsUs := by
  have hpos := displayFloor_pos rates
  have hfloor := minMediaFloorUs_toInt hfloor
  have hpositive : ¬ clippedEndUs - pending.startPtsUs ≤ 0 := by
    rw [Int64.le_iff_toInt_le, Int64.toInt_zero]
    omega
  have hlong : ¬ clippedEndUs - pending.startPtsUs < minMediaFloorUs rates := by
    rw [Int64.lt_iff_toInt_lt]
    omega
  unfold CaptionPresenter.clippedDuration
  simp only [hend, if_neg hpositive, if_neg hlong]

theorem clippedDuration_toInt (hcue : IsCue segment)
    (hbounded : Dispatch.Bounded ⟨segment, rates, some next⟩) :
    let start := segment.startPtsUs.toInt
    let target := max (segment.endPtsUs.toInt - start) (displayFloor rates)
    (CaptionPresenter.clippedDuration (minMediaFloorUs rates) segment next).toInt =
      if start < next.startPtsUs.toInt ∧ next.startPtsUs.toInt < start + target then
        max (next.startPtsUs.toInt - start) (displayFloor rates)
      else target := by
  intro start target
  have htarget := targetDuration_toInt hcue hbounded
  have hfloor := minMediaFloorUs_toInt hbounded.floor
  have hpos := displayFloor_pos rates
  obtain ⟨hfitsFloor, hlength, hfloorEnd⟩ := hbounded
  have hlt := hcue.start_lt_end
  have hstart := fitsInt64_toInt segment.startPtsUs
  have hendFits := fitsInt64_toInt segment.endPtsUs
  dsimp only [FitsInt64] at hfloor hfitsFloor hlength hfloorEnd hstart hendFits
  have htargetEnd : (segment.startPtsUs + CaptionPresenter.targetDuration (minMediaFloorUs rates) segment).toInt =
      start + target := by
    rw [toInt_add_of_fits (by rw [htarget]; constructor <;> omega), htarget]
  have hcut : (segment.startPtsUs < next.startPtsUs && next.startPtsUs <
      segment.startPtsUs + CaptionPresenter.targetDuration (minMediaFloorUs rates) segment) = true ↔
        start < next.startPtsUs.toInt ∧ next.startPtsUs.toInt < start + target := by
    simp only [Bool.and_eq_true, decide_eq_true_eq, Int64.lt_iff_toInt_lt, htargetEnd, start]
  by_cases hclip : start < next.startPtsUs.toInt ∧ next.startPtsUs.toInt < start + target
  · rw [if_pos hclip]
    have hgap : (next.startPtsUs - segment.startPtsUs).toInt = next.startPtsUs.toInt - start :=
      toInt_sub_of_fits (by constructor <;> omega)
    by_cases hroom : displayFloor rates ≤ next.startPtsUs.toInt - start
    · rw [@clippedDuration_eq _ _ _ next.startPtsUs hfitsFloor _ (by omega), hgap]
      · omega
      · rw [if_pos (hcut.mpr hclip), if_pos (by rw [Int64.le_iff_toInt_le]; omega)]
    · have hend : (segment.startPtsUs + minMediaFloorUs rates).toInt = start + displayFloor rates := by
        rw [toInt_add_of_fits (by rw [hfloor]; constructor <;> omega), hfloor]
      have hduration : (segment.startPtsUs + minMediaFloorUs rates - segment.startPtsUs).toInt =
          displayFloor rates := by
        rw [toInt_sub_of_fits (by rw [hend]; constructor <;> omega), hend]
        omega
      rw [@clippedDuration_eq _ _ _ (segment.startPtsUs + minMediaFloorUs rates) hfitsFloor _ (by omega),
        hduration]
      · omega
      · rw [if_pos (hcut.mpr hclip), if_neg (by rw [Int64.le_iff_toInt_le]; omega)]
  · rw [if_neg hclip]
    have hduration : (segment.startPtsUs + CaptionPresenter.targetDuration (minMediaFloorUs rates) segment -
        segment.startPtsUs).toInt = target := by
      rw [toInt_sub_of_fits (by rw [htargetEnd]; constructor <;> omega), htargetEnd]
      omega
    rw [clippedDuration_eq hfitsFloor (if_neg (hclip ∘ hcut.mp)) (by omega), hduration]

theorem drawnAs_flush {inputTimeUs : Int64} {mediaTimeline : Bool} (hcue : IsCue segment)
    (hbounded : Dispatch.Bounded ⟨segment, rates, none⟩) :
    Dispatch.DrawnAs ⟨segment, rates, none⟩ ⟨.buffered segment,
      CaptionPresenter.targetDuration (minMediaFloorUs rates) segment, inputTimeUs, mediaTimeline, false⟩ := by
  constructor
  · rfl
  · dsimp only
    rw [targetDuration_toInt hcue hbounded]
    omega
  · intro next hnext
    cases hnext

theorem drawnAs_next {inputTimeUs : Int64} {mediaTimeline : Bool} (hcue : IsCue segment)
    (hbounded : Dispatch.Bounded ⟨segment, rates, some next⟩) :
    Dispatch.DrawnAs ⟨segment, rates, some next⟩ ⟨.buffered segment,
      CaptionPresenter.clippedDuration (minMediaFloorUs rates) segment next, inputTimeUs, mediaTimeline, false⟩ := by
  have hpos := displayFloor_pos rates
  have hduration := clippedDuration_toInt hcue hbounded
  dsimp only at hduration
  constructor
  · rfl
  · dsimp only
    rw [hduration]
    split <;> omega
  · intro next' hnext hroom
    obtain rfl := Option.some.inj hnext
    dsimp only at hroom ⊢
    rw [hduration]
    split <;> omega

/-! ## Runs of the code -/

theorem showAll_dispatched {call : ShowCall} {calls : List ShowCall} {flushRates : List Binary32} {inputTimeUs : Int64}
    {mediaTimeline : Bool} (hcues : ∀ c ∈ call :: calls, IsCue c.segment)
    (hbounded : ∀ d ∈ dispatches (call :: calls) flushRates, d.Bounded) :
    List.Forall₂ Dispatch.DrawnAs (dispatches (call :: calls) flushRates)
      (presentAll calls flushRates inputTimeUs mediaTimeline ⟨some (.buffered call.segment)⟩).1 := by
  induction calls generalizing call with
  | nil =>
    have hdrawn := @drawnAs_flush _ _ inputTimeUs mediaTimeline (hcues call (by simp))
      (hbounded _ (List.mem_singleton.mpr rfl))
    exact .cons hdrawn .nil
  | cons next calls ih =>
    have hnext := @ih next (fun c hc => hcues c (List.mem_cons_of_mem _ hc))
      (fun d hd => hbounded d (List.mem_cons_of_mem _ hd))
    have hdrawn := @drawnAs_next _ _ _ next.inputTimeUs next.mediaTimeline
      (hcues call (by simp)) (hbounded _ (List.mem_cons_self))
    have htext := (hcues next (by simp)).isNone
    have hpresent :
        (presentAll (next :: calls) flushRates inputTimeUs mediaTimeline ⟨some (.buffered call.segment)⟩).1 =
        ⟨.buffered call.segment,
        CaptionPresenter.clippedDuration (minMediaFloorUs next.rates) call.segment next.segment,
            next.inputTimeUs, next.mediaTimeline, false⟩ ::
          (presentAll calls flushRates inputTimeUs mediaTimeline ⟨some (.buffered next.segment)⟩).1 := by
      simp only [presentAll, showAll, CaptionPresenter.showSegment, htext]
      rfl
    rw [hpresent]
    exact .cons hdrawn hnext

/-- **The cues of a run are drawn once each and in order, for the floor at least and up to their successor at most.** -/
theorem presentAll_dispatched (calls : List ShowCall) (flushRates : List Binary32) (inputTimeUs : Int64)
    (mediaTimeline : Bool) (hcues : ∀ call ∈ calls, IsCue call.segment)
    (hbounded : ∀ d ∈ dispatches calls flushRates, d.Bounded) :
    List.Forall₂ Dispatch.DrawnAs (dispatches calls flushRates)
        (presentAll calls flushRates inputTimeUs mediaTimeline ⟨none⟩).1 ∧
      (presentAll calls flushRates inputTimeUs mediaTimeline ⟨none⟩).2.pending = none := by
  constructor
  · cases calls with
    | nil => exact .nil
    | cons call calls =>
      have hdispatched := @showAll_dispatched _ _ _ inputTimeUs mediaTimeline hcues hbounded
      have htext := (hcues call (by simp)).isNone
      have hfirst : presentAll (call :: calls) flushRates inputTimeUs mediaTimeline ⟨none⟩ =
          presentAll calls flushRates inputTimeUs mediaTimeline ⟨some (.buffered call.segment)⟩ := by
        simp only [presentAll, showAll, CaptionPresenter.showSegment, htext]
        rfl
      rw [hfirst]
      exact hdispatched
  · rfl

/-- A cue of one letter. -/
def letterCue (startPtsUs endPtsUs : Int64) : CaptionSegment where
  sessionId := ⟨List.replicate 16 0x61, rfl⟩
  segmentId := 1
  startPtsUs := startPtsUs
  endPtsUs := endPtsUs
  isFinal := 1
  text := .ofBytes 1 [0x61] rfl
  translatedText := .null 0
  translationAttempted := false
  translationLatencyUs := 0
  translationTier := 0

/-- Two cues that overlap, the first of them dispatched at double speed. -/
def overlappingCalls : List ShowCall :=
  [⟨[], letterCue 0 5000000, 0, true⟩, ⟨[⟨0x40000000⟩], letterCue 3000000 3000001, 0, true⟩]

theorem presentAll_dispatched_overlapping :
    List.Forall₂ Dispatch.DrawnAs (dispatches overlappingCalls [])
      (presentAll overlappingCalls [] 0 true ⟨none⟩).1 := by
  have hcues : ∀ call ∈ overlappingCalls, IsCue call.segment := by
    intro call hcall
    have hshape : call.segment.text.data.isSome = true ∧
        call.segment.startPtsUs.toInt < call.segment.endPtsUs.toInt := by
      revert call
      decide
    exact ⟨hshape.1, hshape.2⟩
  have hbounded : ∀ d ∈ dispatches overlappingCalls [], d.Bounded := by
    intro d hd
    have hfits : FitsInt64 (displayFloor d.rates) ∧ FitsInt64 (d.segment.endPtsUs.toInt - d.segment.startPtsUs.toInt) ∧
        FitsInt64 (d.segment.startPtsUs.toInt + displayFloor d.rates) := by
      revert d
      decide
    exact ⟨hfits.1, hfits.2.1, hfits.2.2⟩
  exact (presentAll_dispatched overlappingCalls [] 0 true hcues hbounded).1

end VlcWhisper.Plugin
