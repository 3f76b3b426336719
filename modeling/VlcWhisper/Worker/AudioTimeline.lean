import VlcWhisper.Plugin.AudioCapture
import VlcWhisper.Worker.AudioBuffer

/-!
# From the callback to the audio buffer

The audio buffer measures the time of every append against the end of what it holds. Here the chunks of the capture are
appended to it, with drains at any point in between. Main results:

* `run_continuous`: chunks whose skews are at most 126 half microseconds apart never clear the buffer.
* `capture_continuous`: contiguous blocks of any rate give such chunks.
-/

namespace VlcWhisper.Worker

open VlcWhisper.Lib VlcWhisper.Plugin

/-! ## The end of the buffer -/

namespace AudioBuffer

variable {α : Type} {maxSamples : Nat}

/-- Where the buffer ends, in half microseconds. -/
def endHalfUs (b : AudioBuffer α maxSamples) : Int := 2 * b.startPtsUs + b.startPtsFracUs + 125 * b.count

theorem expectedPtsUs_eq (b : AudioBuffer α maxSamples) : b.expectedPtsUs = b.endHalfUs / 2 := by
  unfold expectedPtsUs endHalfUs
  omega

theorem startHalfUs_advancePts (b : AudioBuffer α maxSamples) (samples : Nat) :
    2 * (b.advancePts samples).startPtsUs + (b.advancePts samples).startPtsFracUs =
      2 * b.startPtsUs + b.startPtsFracUs + 125 * samples := by
  unfold advancePts
  dsimp only
  omega

theorem count_overwrite (b : AudioBuffer α maxSamples) (x : α) :
    (b.samples.overwrite x).count = if b.count < maxSamples then b.count + 1 else b.count := by
  have hlen := congrArg List.length (Ring.toList_overwrite b.samples x)
  rw [Ring.length_toList, List.length_append, List.length_singleton] at hlen
  have hpos := Nat.zero_lt_of_lt b.samples.head_lt
  rw [hlen]
  unfold count
  split
  · rw [Ring.length_toList]
  · rw [List.length_tail, Ring.length_toList]
    omega

theorem endHalfUs_write (b : AudioBuffer α maxSamples) (x : α) : (b.write x).endHalfUs = b.endHalfUs + 125 := by
  have hcount := count_overwrite b x
  unfold write
  dsimp only
  split
  · rename_i hroom
    rw [if_pos hroom] at hcount
    show 2 * b.startPtsUs + b.startPtsFracUs + 125 * ((b.samples.overwrite x).count : Int) = _
    rw [hcount]
    unfold endHalfUs
    omega
  · rename_i hfull
    rw [if_neg hfull] at hcount
    have hstart := startHalfUs_advancePts
      { b with samples := b.samples.overwrite x, droppedSamples := b.droppedSamples + 1 } 1
    unfold endHalfUs
    rw [hstart]
    show 2 * b.startPtsUs + b.startPtsFracUs + 125 * ((1 : Nat) : Int) + 125 * ((b.samples.overwrite x).count : Int) = _
    rw [hcount]
    omega

theorem endHalfUs_foldl_write (pcm : List α) (b : AudioBuffer α maxSamples) :
    (pcm.foldl write b).endHalfUs = b.endHalfUs + 125 * pcm.length := by
  induction pcm generalizing b with
  | nil => simp
  | cons x pcm ih =>
    rw [List.foldl_cons, ih, endHalfUs_write, List.length_cons]
    omega

theorem endHalfUs_append_empty {b : AudioBuffer α maxSamples} (h : b.count = 0) {pcm : List α} (hpcm : pcm ≠ [])
    (ptsUs : Int) : (b.append pcm ptsUs).endHalfUs = 2 * ptsUs + 125 * pcm.length := by
  have hprepare : b.prepare ptsUs = { b with startPtsUs := ptsUs, startPtsFracUs := 0 } := by
    unfold prepare isDiscontinuity anchor
    rw [h, if_neg (by simp), if_pos rfl]
  unfold append
  rw [if_neg hpcm, endHalfUs_foldl_write, hprepare]
  show 2 * ptsUs + ((0 : Nat) : Int) + 125 * (b.count : Int) + _ = _
  rw [h]
  omega

theorem endHalfUs_append {b : AudioBuffer α maxSamples} (h : 0 < b.count) {ptsUs : Int}
    (hcont : b.isDiscontinuity ptsUs = false) (pcm : List α) :
    (b.append pcm ptsUs).endHalfUs = b.endHalfUs + 125 * pcm.length := by
  have hprepare : b.prepare ptsUs = b := by
    unfold prepare anchor
    rw [hcont, if_neg (Nat.ne_of_gt h)]
    rfl
  unfold append
  split
  · rename_i hnil
    simp [hnil]
  · rw [endHalfUs_foldl_write, hprepare]

theorem endHalfUs_drain (b : AudioBuffer α maxSamples) (sampleCount : Nat) :
    (b.drain sampleCount).count = 0 ∨ (b.drain sampleCount).endHalfUs = b.endHalfUs := by
  unfold drain
  split
  · exact .inr rfl
  · dsimp only
    split
    · exact .inl rfl
    · right
      have hcount : (b.samples.drop (min sampleCount b.count)).count = b.count - min sampleCount b.count := by
        rw [← Ring.length_toList, Ring.toList_drop, List.length_drop, Ring.length_toList]
        rfl
      have hstart := startHalfUs_advancePts { b with samples := b.samples.drop (min sampleCount b.count) }
        (min sampleCount b.count)
      unfold endHalfUs
      rw [hstart]
      show 2 * b.startPtsUs + b.startPtsFracUs + 125 * ((min sampleCount b.count : Nat) : Int) +
        125 * ((b.samples.drop (min sampleCount b.count)).count : Int) = _
      rw [hcount]
      omega

/-! ## Runs of the buffer -/

/-- What the worker does with the buffer: it appends a chunk or drains samples. -/
inductive Op where
  | append (chunk : CapturedChunk)
  | drain (sampleCount : Nat)

/-- The chunks that are appended, in order. -/
def Op.appended : List Op → List CapturedChunk
  | [] => []
  | .append chunk :: ops => chunk :: appended ops
  | .drain _ :: ops => appended ops

theorem Op.appended_map (chunks : List CapturedChunk) : appended (chunks.map .append) = chunks := by
  induction chunks with
  | nil => rfl
  | cons chunk chunks ih => exact congrArg (chunk :: ·) ih

/-- One operation; `norm` makes a stored sample of a PCM sample. -/
def apply (norm : Int → α) (b : AudioBuffer α maxSamples) : Op → AudioBuffer α maxSamples
  | .append chunk => b.append (chunk.pcm.map norm) chunk.startPtsUs
  | .drain sampleCount => b.drain sampleCount

/-- The operation is no append that clears the buffer for a discontinuity. -/
def Continues (b : AudioBuffer α maxSamples) : Op → Prop
  | .append chunk => b.isDiscontinuity chunk.startPtsUs = false
  | .drain _ => True

/-- The buffer ends where the sample `i` starts, if a chunk of a skew in `P` started the count. -/
def EndsAt (P : Int → Prop) (i : Nat) (b : AudioBuffer α maxSamples) : Prop :=
  b.count = 0 ∨ ∃ z, P z ∧ b.endHalfUs = z + 125 * i

variable {P : Int → Prop}

/-- The tolerance of 63 µs takes two skews that are 126 half microseconds apart. -/
theorem EndsAt.continues {i : Nat} {b : AudioBuffer α maxSamples} (hends : b.EndsAt P i)
    (hclose : ∀ y z, P y → P z → y - z ≤ 126) {chunk : CapturedChunk} (hskew : P (chunk.skew i)) :
    b.isDiscontinuity chunk.startPtsUs = false := by
  unfold isDiscontinuity
  rcases hends with hempty | ⟨z, hz, hend⟩
  · simp [hempty]
  · have h1 := hclose _ _ hskew hz
    have h2 := hclose _ _ hz hskew
    have hwithin : ¬ (chunk.startPtsUs - b.expectedPtsUs < -63 ∨ 63 < chunk.startPtsUs - b.expectedPtsUs) := by
      rw [expectedPtsUs_eq, hend]
      unfold CapturedChunk.skew at h1 h2
      omega
    simp only [Bool.and_eq_false_imp, decide_eq_true_eq]
    intro _
    simpa using hwithin

theorem EndsAt.append {i : Nat} {b : AudioBuffer α maxSamples} (hends : b.EndsAt P i)
    (hclose : ∀ y z, P y → P z → y - z ≤ 126) {chunk : CapturedChunk} (hskew : P (chunk.skew i)) (norm : Int → α) :
    (b.apply norm (.append chunk)).EndsAt P (i + chunk.pcm.length) := by
  have hcont := hends.continues hclose hskew
  by_cases hnil : chunk.pcm = []
  · have hsame : b.apply norm (.append chunk) = b := by
      show b.append (chunk.pcm.map norm) chunk.startPtsUs = b
      rw [hnil]
      rfl
    rw [hsame, hnil]
    exact hends
  · right
    rcases Nat.eq_zero_or_pos b.count with hempty | hpos
    · refine ⟨_, hskew, ?_⟩
      show (b.append (chunk.pcm.map norm) chunk.startPtsUs).endHalfUs = _
      rw [endHalfUs_append_empty hempty (by simpa using hnil), List.length_map]
      unfold CapturedChunk.skew
      omega
    · rcases hends with hempty | ⟨z, hz, hend⟩
      · omega
      · refine ⟨z, hz, ?_⟩
        show (b.append (chunk.pcm.map norm) chunk.startPtsUs).endHalfUs = _
        rw [endHalfUs_append hpos hcont, hend, List.length_map]
        omega

theorem EndsAt.drain {i : Nat} {b : AudioBuffer α maxSamples} (hends : b.EndsAt P i) (sampleCount : Nat) :
    (b.drain sampleCount).EndsAt P i := by
  rcases hends with hempty | ⟨z, hz, hend⟩
  · left
    rw [count_drain, hempty]
    omega
  · rcases endHalfUs_drain b sampleCount with hempty | hsame
    · exact .inl hempty
    · exact .inr ⟨z, hz, hsame.trans hend⟩

/-- **Continuity.** Chunks whose skews are within 126 half microseconds of each other never clear the buffer. -/
theorem run_continuous (norm : Int → α) (hclose : ∀ y z, P y → P z → y - z ≤ 126) {ops : List Op} {i : Nat}
    {b : AudioBuffer α maxSamples} (hends : b.EndsAt P i) (hskew : AtSkew P i (Op.appended ops)) :
    Along (apply norm) Continues b ops := by
  induction ops generalizing i b with
  | nil => trivial
  | cons op ops ih =>
    cases op with
    | append chunk => exact ⟨hends.continues hclose hskew.1, ih (hends.append hclose hskew.1 norm) hskew.2⟩
    | drain sampleCount => exact ⟨trivial, ih (hends.drain sampleCount) hskew⟩

end AudioBuffer

/-! ## The capture's chunks in the buffer -/

/-- The skews of one timeline differ by less than a sample and a microsecond. -/
theorem onGrid_close {rate : Nat} (hrate : 0 < rate) {origin : Int} {phase : Nat} {y z : Int}
    (hy : OnGrid rate origin phase y) (hz : OnGrid rate origin phase z) : y - z ≤ 126 := by
  have hlt : (rate : Int) * (y - z) < rate * 127 := by
    have hsub : (rate : Int) * (y - z) = rate * (y - 2 * origin) - rate * (z - 2 * origin) := by ring
    have h1 := hy.2
    have h2 := hz.1
    omega
  have := lt_of_mul_lt_mul_left hlt (by omega)
  omega

/-- **PCM timeline continuity.** After any callbacks, the chunks that contiguous blocks of any rate and channel count
give are appended, from any one of them on and with drains in between, to an empty buffer of any size: none of them
is a discontinuity. -/
theorem capture_continuous {α : Type} {maxSamples : Nat} (norm : Int → α) (before : List Callback) {rate : Nat}
    (hrate : 0 < rate) {origin : Int} {callbacks : List Callback} (hcontiguous : Contiguous rate origin 0 callbacks)
    (k : Nat) {b : AudioBuffer α maxSamples} (hempty : b.count = 0) {ops : List AudioBuffer.Op}
    (happended : AudioBuffer.Op.appended ops =
      ((run AudioCapture.step (.create audioTargetRate) before).chunksOf callbacks).drop k) :
    Along (AudioBuffer.apply norm) AudioBuffer.Continues b ops := by
  obtain ⟨hphased, htarget⟩ := AudioCapture.reachable audioTargetRate before
  generalize run AudioCapture.step (.create audioTargetRate) before = cap at hphased htarget happended
  have htarget' : cap.targetRate = audioTargetRate := by
    unfold AudioCapture.targetRate
    rw [htarget]
    rfl
  have hstart : rate * 0 + cap.phase rate = cap.phase rate + audioTargetRate * 0 := by omega
  have hskew := AudioCapture.atSkew_chunksOf hrate hphased htarget' hstart hcontiguous
  have hrest := hskew.drop k
  rw [← happended] at hrest
  exact AudioBuffer.run_continuous norm (fun _ _ hy hz => onGrid_close hrate hy hz) (.inl hempty) hrest

/-- The 10 ms of a 44.1 kHz stereo stream after `frames` frames. -/
def tenMilliseconds (frames : Nat) : Callback where
  input := { sample := fun _ => .s16 0, frameCount := 441, ptsUs := 7 + (frames * 1000000 / 44100 : Nat)
             sampleRate := 44100, channels := 2 }
  resetPending := false
  playbackRate := .one

theorem capture_continuous_stream :
    Along (AudioBuffer.apply id) AudioBuffer.Continues (AudioBuffer.create 16000 (by decide) 0)
      (((AudioCapture.create audioTargetRate).chunksOf
        [tenMilliseconds 0, tenMilliseconds 441, tenMilliseconds 882]).map .append) := by
  have hcontiguous : Contiguous 44100 7 0 [tenMilliseconds 0, tenMilliseconds 441, tenMilliseconds 882] :=
    ⟨⟨rfl, by decide, rfl⟩, ⟨rfl, rfl⟩, ⟨rfl, by decide, rfl⟩, ⟨rfl, rfl⟩, ⟨rfl, by decide, rfl⟩, ⟨rfl, rfl⟩, trivial⟩
  exact capture_continuous id [] (by decide) hcontiguous 0 rfl (AudioBuffer.Op.appended_map _)

end VlcWhisper.Worker
