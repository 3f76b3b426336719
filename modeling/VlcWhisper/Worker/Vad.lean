import Mathlib.Tactic.Common

/-!
# Chunk boundaries (`vw_vad.c`)

Where to cut the buffered audio: `findChunkBoundary` is a function of the number of samples and of what the detector
says about them. The Silero model gives the speech it hears in sample indices; without a model, or if it fails, there
is only whether the audio is loud (`Speech`).
-/

namespace VlcWhisper.Worker

def chunkMinSamples : Nat := 96000
def chunkMaxSamples : Nat := 384000
def chunkPadSamples : Nat := 2400
def chunkMinSilenceGap : Nat := 4800
def vadMaxTrailingSilenceSamples : Nat := 4800

/-- What the detector says: the first and last sample of each stretch of speech, or whether the energy is above the
threshold. -/
inductive Speech where
  | segments (segs : List (Nat × Nat))
  | energy (loud : Bool)

/-- A decided boundary: the samples to transcribe, or the silent ones to drop. -/
structure Boundary where
  cutSamples : Nat
  silenceDrain : Nat
  deriving DecidableEq

/-- The end of a stretch of speech is a place to cut. -/
def isCutEnd (last : Nat) : Bool := chunkMinSamples ≤ last + chunkPadSamples && last + chunkPadSamples ≤ chunkMaxSamples

/-- The middle of the gap before the next stretch of speech. -/
def cutBefore (last next : Nat) : Nat :=
  let paddedStart := if chunkPadSamples < next then next - chunkPadSamples else next
  max ((last + chunkPadSamples + paddedStart) / 2) (last + chunkPadSamples)

/-- The middle of the silence at the end, but not much of it. -/
def cutAfterLast (sampleCount last : Nat) : Nat :=
  max (min (min ((last + chunkPadSamples + sampleCount) / 2) (last + vadMaxTrailingSilenceSamples)) sampleCount)
    (last + chunkPadSamples)

/-- The first pause that ends a chunk of allowed length; 0 if there is none. -/
def chooseCut (sampleCount : Nat) (isEof : Bool) : List (Nat × Nat) → Nat
  | [] => 0
  | [(_, last)] =>
    if isCutEnd last && (last + chunkMinSilenceGap ≤ sampleCount || isEof) then cutAfterLast sampleCount last else 0
  | (_, last) :: (next, last') :: segs =>
    if isCutEnd last && last + chunkMinSilenceGap ≤ next then cutBefore last next
    else chooseCut sampleCount isEof ((next, last') :: segs)

/-- The latest end of speech of a full chunk, or its maximal length. -/
def forcedCut (segs : List (Nat × Nat)) : Nat :=
  match segs.reverse.find? fun s => isCutEnd s.2 with
  | some s => s.2 + chunkPadSamples
  | none => chunkMaxSamples

/-- How much of a silent window to drop, once there is enough of it. -/
def silenceBoundary (sampleCount : Nat) (isEof : Bool) : Option Boundary :=
  if chunkMinSamples ≤ sampleCount || isEof then
    some ⟨0, if isEof || sampleCount ≤ chunkPadSamples then sampleCount else sampleCount - chunkPadSamples⟩
  else none

/-- The cut of a window with speech in it; 0 if it has to grow. -/
def speechCut (sampleCount : Nat) (isEof : Bool) (segs : List (Nat × Nat)) : Nat :=
  let chosen := chooseCut sampleCount isEof segs
  if chosen = 0 && chunkMaxSamples ≤ sampleCount then forcedCut segs
  else if chosen = 0 && isEof then sampleCount
  else chosen

/-- `vw_vad_find_chunk_boundary`: `none` while there is nothing to decide. -/
def findChunkBoundary (sampleCount : Nat) (isEof : Bool) (speech : Speech) : Option Boundary :=
  if sampleCount = 0 then none
  else match speech with
    | .segments [] => silenceBoundary sampleCount isEof
    | .segments ((first, last) :: segs) =>
      if 16000 + chunkPadSamples < first then some ⟨0, first - chunkPadSamples⟩
      else
        let cut := speechCut sampleCount isEof ((first, last) :: segs)
        if 0 < cut then some ⟨min cut sampleCount, 0⟩ else none
    | .energy false => silenceBoundary sampleCount isEof
    | .energy true =>
      let target := (chunkMinSamples + chunkMaxSamples) / 2
      if target ≤ sampleCount || isEof then some ⟨min target sampleCount, 0⟩ else none

/-- A boundary is one thing or the other: a cut within the window, or some silence. -/
inductive Boundary.Valid (sampleCount : Nat) : Boundary → Prop
  | cut (n : Nat) : 0 < n → n ≤ sampleCount → Valid sampleCount ⟨n, 0⟩
  | silence (n : Nat) : 0 < n → Valid sampleCount ⟨0, n⟩

theorem silenceBoundary_valid {sampleCount : Nat} {isEof : Bool} {b : Boundary} (hpos : 0 < sampleCount)
    (h : silenceBoundary sampleCount isEof = some b) : b.Valid sampleCount := by
  rw [silenceBoundary] at h
  split at h
  · obtain rfl := Option.some.inj h
    refine .silence _ ?_
    split
    · exact hpos
    · rename_i hpad
      simp only [Bool.or_eq_true, decide_eq_true_eq, not_or] at hpad
      omega
  · cases h

theorem findChunkBoundary_valid {sampleCount : Nat} {isEof : Bool} {speech : Speech} {b : Boundary}
    (h : findChunkBoundary sampleCount isEof speech = some b) : b.Valid sampleCount := by
  unfold findChunkBoundary at h
  split at h
  · cases h
  rename_i hne
  have hpos : 0 < sampleCount := Nat.pos_of_ne_zero hne
  split at h
  · exact silenceBoundary_valid hpos h
  · split at h
    · rename_i hfirst
      obtain rfl := Option.some.inj h
      exact .silence _ (by omega)
    · dsimp only at h
      split at h
      · obtain rfl := Option.some.inj h
        exact .cut _ (by omega) (Nat.min_le_right _ _)
      · cases h
  · exact silenceBoundary_valid hpos h
  · dsimp only at h
    split at h
    · obtain rfl := Option.some.inj h
      refine .cut _ ?_ (Nat.min_le_right _ _)
      simp only [chunkMinSamples, chunkMaxSamples]
      omega
    · cases h

theorem findChunkBoundary_isSome {sampleCount : Nat} {isEof : Bool} (hpos : 0 < sampleCount)
    (hfull : isEof = true ∨ chunkMaxSamples ≤ sampleCount) (speech : Speech) :
    (findChunkBoundary sampleCount isEof speech).isSome = true := by
  have hmin : isEof = true ∨ chunkMinSamples ≤ sampleCount :=
    hfull.imp_right fun h => Nat.le_trans (by decide : chunkMinSamples ≤ chunkMaxSamples) h
  have hsilence : (silenceBoundary sampleCount isEof).isSome = true := by
    rw [silenceBoundary, if_pos (by simpa using hmin.symm)]
    rfl
  have hcut (segs : List (Nat × Nat)) : 0 < speechCut sampleCount isEof segs := by
    unfold speechCut
    dsimp only
    split
    · unfold forcedCut
      split
      · exact Nat.succ_pos _
      · decide
    · rename_i hnot
      simp only [Bool.and_eq_true, decide_eq_true_eq, not_and] at hnot
      split
      · exact hpos
      · rename_i hnot'
        simp only [Bool.and_eq_true, decide_eq_true_eq, not_and] at hnot'
        by_contra hzero
        have hzero : chooseCut sampleCount isEof segs = 0 := by omega
        exact hfull.elim (hnot' hzero) (hnot hzero)
  unfold findChunkBoundary
  rw [if_neg (by omega)]
  cases speech with
  | segments segs =>
    cases segs with
    | nil => exact hsilence
    | cons s segs =>
      dsimp only
      split
      · rfl
      · rw [if_pos (hcut _)]
        rfl
  | energy loud =>
    cases loud with
    | false => exact hsilence
    | true =>
      have htarget : (chunkMinSamples + chunkMaxSamples) / 2 ≤ chunkMaxSamples := by decide
      dsimp only
      rw [if_pos]
      · rfl
      · simp only [Bool.or_eq_true, decide_eq_true_eq]
        exact hfull.symm.imp_left fun h => Nat.le_trans htarget h

end VlcWhisper.Worker
