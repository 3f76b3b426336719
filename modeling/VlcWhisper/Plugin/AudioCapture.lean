import VlcWhisper.Lib.Binary32
import VlcWhisper.Lib.Machine
import Mathlib.Tactic.LinearCombination

/-!
# The audio capture (`vw_audio_capture.c`)

VLC's audio blocks are mixed down to one channel and resampled to 16 kHz by an accumulator that carries the phase from
block to block, and are cut into chunks of at most 8192 samples. A chunk's time is the time of its block and the
duration of the chunks before it in the block, so that only a block's own time is ever rounded.

Main result: `atSkew_chunksOf`. If the blocks follow each other on one timeline, the time of every chunk lies in a
window around the time a 16 kHz clock would give to its first sample, and the window does not grow with the run.

Times are integers: the presentation times VLC gives are far from the ends of `int64_t`.
-/

namespace VlcWhisper.Plugin

open VlcWhisper.Lib

/-- `VW_AUDIO_TARGET_RATE`. -/
def audioTargetRate : Nat := 16000

/-- `VW_AUDIO_CHUNK_MAX_PCM_BYTES / sizeof(int16_t)`. -/
def maxOutFramesPerChunk : Nat := 16384 / 2

/-- One sample of `pcm_data`, by the format of the block. -/
inductive PcmSample where
  | s16 (value : Int)
  | s32 (value : Int)
  | fl32 (value : Binary32)

/-- `(int32_t)(x * 32767.0f)` for `x` between -1 and 1: the product is rounded to 24 bits, then truncated. -/
def scaleFl32 (x : Binary32) : Int :=
  let exponent := x.magnitude / 2 ^ 23
  let product := (x.magnitude % 2 ^ 23 + if exponent = 0 then 0 else 2 ^ 23) * 32767
  let shift := product.log2 + 1 - 24
  let (q, r) := (product / 2 ^ shift, product % 2 ^ shift)
  let rounded := if 2 ^ shift < 2 * r ∨ 2 * r = 2 ^ shift ∧ q % 2 = 1 then q + 1 else q
  let value : Nat := rounded * 2 ^ (shift + max exponent 1) / 2 ^ 150
  if x.isNegative then -(value : Int) else value

example : scaleFl32 ⟨0x3F000000⟩ = 16383 ∧ scaleFl32 ⟨0xBF800000⟩ = -32767 := by decide +kernel

/-- What a sample adds to the sum of its frame. -/
def PcmSample.toSum : PcmSample → Int
  | .s16 value => value
  | .s32 value => value / 2 ^ 16
  | .fl32 value =>
    let minusOne : Binary32 := ⟨0xBF800000⟩
    let value := if Binary32.lt .one value then .one else value
    scaleFl32 (if Binary32.lt value minusOne then minusOne else value)

/-- `vw_audio_input_t`. -/
structure AudioInput where
  sample : Nat → PcmSample
  frameCount : Nat
  ptsUs : Int
  sampleRate : Nat
  channels : Nat

/-- The mean of a frame's channels, as 16 bits. -/
def AudioInput.monoSample (input : AudioInput) (inIdx : Nat) : Int :=
  let sum := ((List.range input.channels).map fun ch => (input.sample (inIdx * input.channels + ch)).toSum).sum
  max (-32768) (min 32767 (sum.tdiv input.channels))

/-- `vw_audio_chunk_t` with its samples; its bytes are two a sample. -/
structure CapturedChunk where
  startPtsUs : Int
  durationUs : Int
  sampleRate : Nat
  channels : Nat
  pcm : List Int
deriving DecidableEq

/-- The loop's variables: the open chunk starts at `currentPtsUs`. -/
structure Emitter where
  acc : Nat
  currentPtsUs : Int
  pcm : List Int
  pushed : List CapturedChunk
  totalEmitted : Nat

namespace Emitter

/-- Close the open chunk and push it. -/
def push (targetRate : Nat) (e : Emitter) : Emitter :=
  let durationUs : Int := ((e.pcm.length * 1000000 + targetRate - 1) / targetRate : Nat)
  { e with
    pushed := e.pushed ++ [{ startPtsUs := e.currentPtsUs, durationUs, sampleRate := targetRate, channels := 1, pcm := e.pcm }]
    currentPtsUs := e.currentPtsUs + durationUs
    pcm := [] }

def emit (targetRate : Nat) (mono : Int) (e : Emitter) : Emitter :=
  let e := { e with pcm := e.pcm ++ [mono], totalEmitted := e.totalEmitted + 1 }
  if e.pcm.length = maxOutFramesPerChunk then e.push targetRate else e

@[simp] theorem emit_acc (targetRate : Nat) (mono : Int) (e : Emitter) : (e.emit targetRate mono).acc = e.acc := by
  unfold emit
  dsimp only
  split <;> rfl

/-- `while (acc >= input->sample_rate)`. -/
def emitWhile (targetRate rate : Nat) (mono : Int) (e : Emitter) : Emitter :=
  if 0 < rate ∧ rate ≤ e.acc then emitWhile targetRate rate mono ({ e with acc := e.acc - rate }.emit targetRate mono)
  else e
termination_by e.acc
decreasing_by
  rw [emit_acc]
  show e.acc - rate < e.acc
  omega

/-- One turn of the loop over the input frames. -/
def frame (targetRate : Nat) (input : AudioInput) (e : Emitter) (inIdx : Nat) : Emitter :=
  { e with acc := e.acc + targetRate }.emitWhile targetRate input.sampleRate (input.monoSample inIdx)

def flush (targetRate : Nat) (e : Emitter) : Emitter := if 0 < e.pcm.length then e.push targetRate else e

end Emitter

/-- `vw_audio_capture_t`; the flags other threads write are in `Callback`, and the pushed chunks are returned. -/
structure AudioCapture where
  targetSampleRate : Nat
  sampleRemainder : Nat
  lastPtsUs : Int
  totalSamplesProcessed : UInt64
  totalInputFrames : UInt64
  resampleAcc : Nat
  resampleSourceRate : Nat

/-- A call of the audio callback, with what it reads of the sender's atomics. -/
structure Callback where
  input : AudioInput
  resetPending : Bool
  playbackRate : Binary32

namespace AudioCapture

/-- As the plugin initialises it. -/
def create (targetSampleRate : Nat) : AudioCapture where
  targetSampleRate := targetSampleRate
  sampleRemainder := 0
  lastPtsUs := 0
  totalSamplesProcessed := 0
  totalInputFrames := 0
  resampleAcc := 0
  resampleSourceRate := 0

def targetRate (cap : AudioCapture) : Nat := if cap.targetSampleRate ≠ 0 then cap.targetSampleRate else audioTargetRate

/-- The reset the sender asks for. -/
def reset (cap : AudioCapture) : AudioCapture :=
  { cap with resampleAcc := 0, sampleRemainder := 0, totalInputFrames := 0, resampleSourceRate := 0, lastPtsUs := 0 }

/-- A change of the source rate starts a new phase. -/
def startPhase (cap : AudioCapture) (rate : Nat) : AudioCapture :=
  if cap.resampleSourceRate ≠ rate then
    { cap with resampleSourceRate := rate, resampleAcc := if cap.targetRate < rate then rate - cap.targetRate else 0 }
  else cap

/-- Resample one block. -/
def resample (cap : AudioCapture) (input : AudioInput) : AudioCapture × List CapturedChunk :=
  let e := (List.range input.frameCount).foldl (Emitter.frame cap.targetRate input)
    { acc := cap.resampleAcc, currentPtsUs := input.ptsUs, pcm := [], pushed := [], totalEmitted := 0 }
  let done := e.flush cap.targetRate
  -- `acc` is below the rate, so `(uint32_t)acc` keeps it
  ({ cap with
     resampleAcc := done.acc
     sampleRemainder := done.acc
     totalInputFrames := cap.totalInputFrames + .ofNat input.frameCount
     lastPtsUs := done.currentPtsUs
     totalSamplesProcessed := cap.totalSamplesProcessed + .ofNat done.totalEmitted }, done.pushed)

/-- `4.0f`, above which audio is dropped. -/
def maxPlaybackRate : Binary32 := ⟨0x40800000⟩

/-- `vw_audio_capture_process_block`: the capture and the chunks it pushes, or `none` for a refused block. -/
def processBlock (cap : AudioCapture) (cb : Callback) : Option (AudioCapture × List CapturedChunk) :=
  if cb.input.frameCount = 0 ∨ cb.input.sampleRate = 0 ∨ cb.input.channels = 0 then none
  else
    let cap := if cb.resetPending then cap.reset else cap
    if Binary32.lt maxPlaybackRate cb.playbackRate then
      some ({ cap with totalInputFrames := cap.totalInputFrames + .ofNat cb.input.frameCount
                       lastPtsUs := cb.input.ptsUs }, [])
    else some ((cap.startPhase cb.input.sampleRate).resample cb.input)

/-- The capture after a callback. -/
def step (cap : AudioCapture) (cb : Callback) : AudioCapture := ((cap.processBlock cb).getD (cap, [])).1

/-- The chunks of one callback. -/
def chunks (cap : AudioCapture) (cb : Callback) : List CapturedChunk := ((cap.processBlock cb).getD (cap, [])).2

/-- The chunks of a run of callbacks, in the order they are pushed. -/
def chunksOf : AudioCapture → List Callback → List CapturedChunk
  | _, [] => []
  | cap, cb :: rest => cap.chunks cb ++ chunksOf (cap.step cb) rest

end AudioCapture

/-! ## The chunks of one block -/

/-- How many samples chunks hold. -/
def sampleCount (chunks : List CapturedChunk) : Nat := (chunks.map (·.pcm.length)).sum

@[simp] theorem sampleCount_nil : sampleCount [] = 0 := rfl

@[simp] theorem sampleCount_cons (c : CapturedChunk) (chunks : List CapturedChunk) :
    sampleCount (c :: chunks) = c.pcm.length + sampleCount chunks := rfl

@[simp] theorem sampleCount_append (l m : List CapturedChunk) : sampleCount (l ++ m) = sampleCount l + sampleCount m := by
  simp [sampleCount]

/-- How far a chunk that starts with sample `i` is from a 16 kHz clock, in half microseconds. -/
def CapturedChunk.skew (c : CapturedChunk) (i : Nat) : Int := 2 * c.startPtsUs - 125 * i

/-- The skews of consecutive chunks, the first of which starts with sample `i`, satisfy `P`. -/
def AtSkew (P : Int → Prop) : Nat → List CapturedChunk → Prop
  | _, [] => True
  | i, c :: rest => P (c.skew i) ∧ AtSkew P (i + c.pcm.length) rest

theorem AtSkew.mono {P Q : Int → Prop} (hPQ : ∀ z, P z → Q z) {i : Nat} {chunks : List CapturedChunk}
    (h : AtSkew P i chunks) : AtSkew Q i chunks := by
  induction chunks generalizing i with
  | nil => trivial
  | cons c rest ih => exact ⟨hPQ _ h.1, ih h.2⟩

theorem atSkew_append {P : Int → Prop} {i : Nat} {l m : List CapturedChunk} :
    AtSkew P i (l ++ m) ↔ AtSkew P i l ∧ AtSkew P (i + sampleCount l) m := by
  induction l generalizing i with
  | nil => simp [AtSkew]
  | cons c l ih => simp [AtSkew, ih, and_assoc, Nat.add_assoc]

theorem AtSkew.drop {P : Int → Prop} {i : Nat} {chunks : List CapturedChunk} (h : AtSkew P i chunks) (k : Nat) :
    AtSkew P (i + sampleCount (chunks.take k)) (chunks.drop k) := by
  rw [← List.take_append_drop k chunks, atSkew_append] at h
  exact h.2

namespace Emitter

/-- All samples of the block so far. -/
def samples (e : Emitter) : Nat := sampleCount e.pushed + e.pcm.length

/-- In a block that starts with sample `i`, all chunks have the skew `z` of the block. -/
structure Even (i : Nat) (z : Int) (e : Emitter) : Prop where
  pushed : AtSkew (· = z) i e.pushed
  opened : 2 * e.currentPtsUs - 125 * (i + sampleCount e.pushed : Nat) = z
  short : e.pcm.length < maxOutFramesPerChunk

variable {i : Nat} {z : Int} {e : Emitter}

theorem pushed_push (h : AtSkew (· = z) i e.pushed)
    (hopened : 2 * e.currentPtsUs - 125 * (i + sampleCount e.pushed : Nat) = z) (targetRate : Nat) :
    AtSkew (· = z) i (e.push targetRate).pushed := by
  unfold push
  exact atSkew_append.mpr ⟨h, hopened, trivial⟩

theorem samples_push (e : Emitter) (targetRate : Nat) : (e.push targetRate).samples = e.samples := by
  simp [push, samples]

/-- A full chunk lasts 512 ms, so the next one has the same skew. -/
theorem Even.emit (h : e.Even i z) (mono : Int) : (e.emit audioTargetRate mono).Even i z := by
  have hshort := h.short
  unfold Emitter.emit
  dsimp only
  split
  · rename_i hfull
    have hopened := h.opened
    refine ⟨atSkew_append.mpr ⟨h.pushed, hopened, trivial⟩, ?_, show 0 < maxOutFramesPerChunk by decide⟩
    simp only [maxOutFramesPerChunk] at hfull
    simp only [push, sampleCount_append, sampleCount_cons, sampleCount_nil, hfull, audioTargetRate]
    push_cast at hopened ⊢
    omega
  · rename_i hfull
    refine ⟨h.pushed, h.opened, ?_⟩
    simp only [List.length_append, List.length_singleton] at hfull ⊢
    omega

theorem samples_emit (e : Emitter) (targetRate : Nat) (mono : Int) :
    (e.emit targetRate mono).samples = e.samples + 1 := by
  unfold emit
  dsimp only
  split
  · rw [samples_push]
    simp [samples, Nat.add_assoc]
  · simp [samples, Nat.add_assoc]

theorem emitWhile_spec {rate : Nat} (hrate : 0 < rate) (mono : Int) (h : e.Even i z) :
    (e.emitWhile audioTargetRate rate mono).Even i z ∧ (e.emitWhile audioTargetRate rate mono).acc < rate ∧
      rate * (e.emitWhile audioTargetRate rate mono).samples + (e.emitWhile audioTargetRate rate mono).acc =
        rate * e.samples + e.acc := by
  induction e using emitWhile.induct audioTargetRate rate mono with
  | case1 e hle ih =>
    have hless : ({ e with acc := e.acc - rate } : Emitter).Even i z := ⟨h.pushed, h.opened, h.short⟩
    rw [emitWhile, if_pos hle]
    obtain ⟨heven, hacc, hsum⟩ := ih (hless.emit mono)
    refine ⟨heven, hacc, hsum.trans ?_⟩
    rw [samples_emit, emit_acc, Nat.mul_add]
    show rate * e.samples + rate * 1 + (e.acc - rate) = _
    omega
  | case2 e hle =>
    rw [emitWhile, if_neg hle]
    exact ⟨h, by omega, rfl⟩

theorem frames_spec {input : AudioInput} (hrate : 0 < input.sampleRate) (h : e.Even i z) (hacc : e.acc < input.sampleRate)
    (frames : List Nat) :
    (frames.foldl (frame audioTargetRate input) e).Even i z ∧
      (frames.foldl (frame audioTargetRate input) e).acc < input.sampleRate ∧
      input.sampleRate * (frames.foldl (frame audioTargetRate input) e).samples +
          (frames.foldl (frame audioTargetRate input) e).acc =
        input.sampleRate * e.samples + e.acc + audioTargetRate * frames.length := by
  induction frames generalizing e with
  | nil => exact ⟨h, hacc, rfl⟩
  | cons inIdx frames ih =>
    have hadd : ({ e with acc := e.acc + audioTargetRate } : Emitter).Even i z := ⟨h.pushed, h.opened, h.short⟩
    obtain ⟨heven, hlt, hsum⟩ := emitWhile_spec hrate (input.monoSample inIdx) hadd
    obtain ⟨heven', hlt', hsum'⟩ := ih heven hlt
    refine ⟨heven', hlt', hsum'.trans ?_⟩
    rw [hsum, List.length_cons, Nat.mul_add]
    show input.sampleRate * e.samples + (e.acc + audioTargetRate) + _ = _
    omega

theorem pushed_flush (h : e.Even i z) (targetRate : Nat) : AtSkew (· = z) i (e.flush targetRate).pushed := by
  unfold flush
  split
  · exact pushed_push h.pushed h.opened targetRate
  · exact h.pushed

theorem sampleCount_flush (e : Emitter) (targetRate : Nat) : sampleCount (e.flush targetRate).pushed = e.samples := by
  unfold flush
  split
  · simp [push, samples]
  · have hnil : e.pcm.length = 0 := by omega
    simp [samples, hnil]

theorem acc_flush (e : Emitter) (targetRate : Nat) : (e.flush targetRate).acc = e.acc := by
  unfold flush
  split <;> rfl

end Emitter

/-! ## The chunks of a run -/

namespace AudioCapture

/-- The accumulator is a phase of the source rate. -/
def Phased (cap : AudioCapture) : Prop := cap.resampleSourceRate ≠ 0 → cap.resampleAcc < cap.resampleSourceRate

/-- The phase a block of this rate starts with. -/
def phase (cap : AudioCapture) (rate : Nat) : Nat := (cap.startPhase rate).resampleAcc

theorem targetRate_pos (cap : AudioCapture) : 0 < cap.targetRate := by
  unfold targetRate
  split
  · omega
  · decide

theorem startPhase_targetRate (cap : AudioCapture) (rate : Nat) : (cap.startPhase rate).targetRate = cap.targetRate := by
  unfold startPhase
  split <;> rfl

theorem startPhase_sourceRate (cap : AudioCapture) (rate : Nat) : (cap.startPhase rate).resampleSourceRate = rate := by
  unfold startPhase
  split
  · rfl
  · rename_i h
    exact not_not.mp h

theorem phase_lt {cap : AudioCapture} (h : cap.Phased) {rate : Nat} (hrate : 0 < rate) : cap.phase rate < rate := by
  have htarget := cap.targetRate_pos
  unfold phase startPhase
  split
  · dsimp only
    split <;> omega
  · rename_i hsame
    rw [← not_not.mp hsame] at hrate ⊢
    exact h (by omega)

/-- A block's chunks have the skew of its presentation time, and the next phase goes on from this one. -/
theorem resample_spec {cap : AudioCapture} (htarget : cap.targetRate = audioTargetRate) (input : AudioInput)
    (hrate : 0 < input.sampleRate) (hacc : cap.resampleAcc < input.sampleRate) (i : Nat) :
    AtSkew (· = 2 * input.ptsUs - 125 * i) i (cap.resample input).2 ∧
      (cap.resample input).1.resampleAcc < input.sampleRate ∧
      input.sampleRate * sampleCount (cap.resample input).2 + (cap.resample input).1.resampleAcc =
        cap.resampleAcc + audioTargetRate * input.frameCount := by
  have hstart : Emitter.Even i (2 * input.ptsUs - 125 * i)
      { acc := cap.resampleAcc, currentPtsUs := input.ptsUs, pcm := [], pushed := [], totalEmitted := 0 } := by
    refine ⟨trivial, ?_, show 0 < maxOutFramesPerChunk by decide⟩
    simp only [sampleCount_nil, Nat.add_zero]
  obtain ⟨heven, hlt, hsum⟩ := Emitter.frames_spec hrate hstart hacc (List.range input.frameCount)
  unfold resample
  rw [htarget]
  refine ⟨Emitter.pushed_flush heven _, ?_, ?_⟩
  · dsimp only
    rw [Emitter.acc_flush]
    exact hlt
  · dsimp only
    rw [Emitter.acc_flush, Emitter.sampleCount_flush, hsum, List.length_range]
    show input.sampleRate * 0 + cap.resampleAcc + audioTargetRate * input.frameCount = _
    omega

/-! ### Any callbacks -/

theorem phased_create (targetSampleRate : Nat) : (create targetSampleRate).Phased := fun h => absurd rfl h

theorem acc_emitWhile (targetRate : Nat) {rate : Nat} (hrate : 0 < rate) (mono : Int) (e : Emitter) :
    (e.emitWhile targetRate rate mono).acc < rate := by
  induction e using Emitter.emitWhile.induct targetRate rate mono with
  | case1 e hle ih =>
    rw [Emitter.emitWhile, if_pos hle]
    exact ih
  | case2 e hle =>
    rw [Emitter.emitWhile, if_neg hle]
    omega

theorem acc_frames (targetRate : Nat) {input : AudioInput} (hrate : 0 < input.sampleRate) (frames : List Nat) {e : Emitter}
    (hacc : e.acc < input.sampleRate) : (frames.foldl (Emitter.frame targetRate input) e).acc < input.sampleRate := by
  induction frames generalizing e with
  | nil => exact hacc
  | cons inIdx frames ih => exact ih (acc_emitWhile targetRate hrate _ _)

theorem phased_step {cap : AudioCapture} (h : cap.Phased) (cb : Callback) : (cap.step cb).Phased := by
  have hreset : (if cb.resetPending then cap.reset else cap).Phased := by
    split
    · exact fun h => absurd rfl h
    · exact h
  unfold step processBlock
  split
  · exact h
  · rename_i hok
    dsimp only
    split
    · exact hreset
    · have hpos : 0 < cb.input.sampleRate := by omega
      have hacc := phase_lt hreset hpos
      intro _
      show (Emitter.flush _ _).acc < (AudioCapture.startPhase _ _).resampleSourceRate
      rw [Emitter.acc_flush, startPhase_sourceRate]
      exact acc_frames _ hpos _ hacc

theorem targetSampleRate_step (cap : AudioCapture) (cb : Callback) :
    (cap.step cb).targetSampleRate = cap.targetSampleRate := by
  unfold step processBlock
  split
  · rfl
  · dsimp only
    split
    · show (if cb.resetPending then cap.reset else cap).targetSampleRate = _
      split <;> rfl
    · show (AudioCapture.startPhase _ _).targetSampleRate = _
      unfold startPhase
      split <;> split <;> rfl

/-- What callbacks of any kind keep: the accumulator is a phase and the target rate is the one chosen first. -/
theorem reachable (targetSampleRate : Nat) (callbacks : List Callback) :
    (run step (create targetSampleRate) callbacks).Phased ∧
      (run step (create targetSampleRate) callbacks).targetSampleRate = targetSampleRate := by
  have hstep (cap : AudioCapture) (cb : Callback) (h : cap.Phased ∧ cap.targetSampleRate = targetSampleRate) :
      (cap.step cb).Phased ∧ (cap.step cb).targetSampleRate = targetSampleRate :=
    ⟨phased_step h.1 cb, (targetSampleRate_step cap cb).trans h.2⟩
  exact run_invariant' hstep callbacks ⟨phased_create _, rfl⟩

end AudioCapture

/-! ## The chunks' form -/

/-- A sample is an `int16_t`. -/
def IsInt16 (x : Int) : Prop := -32768 ≤ x ∧ x ≤ 32767

/-- What every pushed chunk is like: it is not empty, fits `pcm_data`, and lasts as long as its samples, rounded up. -/
structure CapturedChunk.Formed (targetRate : Nat) (c : CapturedChunk) : Prop where
  nonempty : 0 < c.pcm.length
  short : c.pcm.length ≤ maxOutFramesPerChunk
  duration : c.durationUs = ((c.pcm.length * 1000000 + targetRate - 1) / targetRate : Nat)
  sampleRate : c.sampleRate = targetRate
  mono : c.channels = 1
  int16 : ∀ x ∈ c.pcm, IsInt16 x

theorem AudioInput.isInt16_monoSample (input : AudioInput) (inIdx : Nat) : IsInt16 (input.monoSample inIdx) := by
  unfold monoSample IsInt16
  dsimp only
  omega

namespace Emitter

/-- The pushed chunks are formed and the open one has room. -/
structure Forming (targetRate : Nat) (e : Emitter) : Prop where
  pushed : ∀ c ∈ e.pushed, c.Formed targetRate
  short : e.pcm.length < maxOutFramesPerChunk
  int16 : ∀ x ∈ e.pcm, IsInt16 x

variable {targetRate : Nat} {e : Emitter}

theorem formed_push (hpushed : ∀ c ∈ e.pushed, c.Formed targetRate) (hpos : 0 < e.pcm.length)
    (hshort : e.pcm.length ≤ maxOutFramesPerChunk) (hint : ∀ x ∈ e.pcm, IsInt16 x) :
    ∀ c ∈ (e.push targetRate).pushed, c.Formed targetRate := by
  intro c hc
  rcases List.mem_append.mp hc with hc | hc
  · exact hpushed c hc
  · rw [List.mem_singleton.mp hc]
    exact ⟨hpos, hshort, rfl, rfl, rfl, hint⟩

theorem Forming.emit (h : e.Forming targetRate) {mono : Int} (hmono : IsInt16 mono) :
    (e.emit targetRate mono).Forming targetRate := by
  have hint : ∀ x ∈ e.pcm ++ [mono], IsInt16 x := by
    intro x hx
    rcases List.mem_append.mp hx with hx | hx
    · exact h.int16 x hx
    · rw [List.mem_singleton.mp hx]
      exact hmono
  have hshort := h.short
  unfold Emitter.emit
  dsimp only
  split
  · rename_i hfull
    refine ⟨formed_push h.pushed ?_ hfull.le hint, show 0 < maxOutFramesPerChunk by decide, fun _ hx => nomatch hx⟩
    simp
  · rename_i hroom
    refine ⟨h.pushed, ?_, hint⟩
    simp only [List.length_append, List.length_singleton] at hroom ⊢
    omega

theorem Forming.emitWhile {rate : Nat} {mono : Int} (hmono : IsInt16 mono) (h : e.Forming targetRate) :
    (e.emitWhile targetRate rate mono).Forming targetRate := by
  induction e using emitWhile.induct targetRate rate mono with
  | case1 e hle ih =>
    have hless : ({ e with acc := e.acc - rate } : Emitter).Forming targetRate := ⟨h.pushed, h.short, h.int16⟩
    rw [Emitter.emitWhile, if_pos hle]
    exact ih (hless.emit hmono)
  | case2 e hle =>
    rw [Emitter.emitWhile, if_neg hle]
    exact h

theorem Forming.frames (h : e.Forming targetRate) (input : AudioInput) (frames : List Nat) :
    (frames.foldl (frame targetRate input) e).Forming targetRate := by
  induction frames generalizing e with
  | nil => exact h
  | cons inIdx frames ih =>
    have hadd : ({ e with acc := e.acc + targetRate } : Emitter).Forming targetRate := ⟨h.pushed, h.short, h.int16⟩
    exact ih (hadd.emitWhile (input.isInt16_monoSample inIdx))

theorem Forming.flush (h : e.Forming targetRate) : ∀ c ∈ (e.flush targetRate).pushed, c.Formed targetRate := by
  unfold Emitter.flush
  split
  · rename_i hpos
    exact formed_push h.pushed hpos h.short.le h.int16
  · exact h.pushed

end Emitter

namespace AudioCapture

theorem targetRate_step (cap : AudioCapture) (cb : Callback) : (cap.step cb).targetRate = cap.targetRate := by
  unfold targetRate
  rw [targetSampleRate_step]

/-- **The form of a chunk.** Whatever block a callback brings, in any phase, it pushes formed chunks only. -/
theorem formed_chunks (cap : AudioCapture) (cb : Callback) : ∀ c ∈ cap.chunks cb, c.Formed cap.targetRate := by
  have hreset : (if cb.resetPending then cap.reset else cap).targetRate = cap.targetRate := by
    split <;> rfl
  unfold chunks processBlock
  split
  · exact fun _ hc => nomatch hc
  · dsimp only
    split
    · exact fun _ hc => nomatch hc
    · rw [← hreset, ← startPhase_targetRate _ cb.input.sampleRate]
      have hstart : Emitter.Forming (AudioCapture.targetRate (AudioCapture.startPhase
          (if cb.resetPending then cap.reset else cap) cb.input.sampleRate))
          { acc := (AudioCapture.startPhase (if cb.resetPending then cap.reset else cap) cb.input.sampleRate).resampleAcc
            currentPtsUs := cb.input.ptsUs, pcm := [], pushed := [], totalEmitted := 0 } :=
        ⟨(fun _ hc => nomatch hc), show 0 < maxOutFramesPerChunk by decide, fun _ hx => nomatch hx⟩
      exact (hstart.frames cb.input _).flush

theorem formed_chunksOf (cap : AudioCapture) (callbacks : List Callback) :
    ∀ c ∈ cap.chunksOf callbacks, c.Formed cap.targetRate := by
  induction callbacks generalizing cap with
  | nil => exact fun _ hc => nomatch hc
  | cons cb rest ih =>
    intro c hc
    rcases List.mem_append.mp hc with hc | hc
    · exact cap.formed_chunks cb c hc
    · rw [← targetRate_step cap cb]
      exact ih (cap.step cb) c hc

end AudioCapture

/-! ## Contiguous blocks -/

/-- Blocks of one rate that the capture accepts and does not drop, each with the time its first frame has on a clock
that starts at `origin`; `frames` frames came before them. -/
def Contiguous (rate : Nat) (origin : Int) : Nat → List Callback → Prop
  | _, [] => True
  | frames, cb :: rest =>
    (cb.input.sampleRate = rate ∧ 0 < cb.input.channels ∧ cb.input.ptsUs = origin + (frames * 1000000 / rate : Nat)) ∧
      (cb.resetPending = false ∧ Binary32.lt AudioCapture.maxPlaybackRate cb.playbackRate = false) ∧
      Contiguous rate origin (frames + cb.input.frameCount) rest

/-- The skews a timeline's chunks can have: `phase` is the phase of the resampler where the timeline starts. -/
def OnGrid (rate : Nat) (origin : Int) (phase : Nat) (z : Int) : Prop :=
  -2 * (rate : Int) < rate * (z - 2 * origin) + 125 * phase ∧ rate * (z - 2 * origin) + 125 * phase < 125 * rate

/-- The time of a block is rounded down by less than a microsecond, the resampler is ahead by less than a sample. -/
theorem onGrid_block {rate : Nat} (hrate : 0 < rate) (origin : Int) {phase acc i frames : Nat} (hacc : acc < rate)
    (hsum : rate * i + acc = phase + audioTargetRate * frames) :
    OnGrid rate origin phase (2 * (origin + (frames * 1000000 / rate : Nat)) - 125 * i) := by
  have hmod := Nat.mod_lt (frames * 1000000) hrate
  have hdiv := Nat.div_add_mod (frames * 1000000) rate
  generalize frames * 1000000 / rate = q at hdiv ⊢
  generalize frames * 1000000 % rate = r at hdiv hmod
  have hskew : (rate : Int) * (2 * (origin + q) - 125 * i - 2 * origin) + 125 * phase = 125 * acc - 2 * r := by
    have hdiv' : (rate : Int) * q + r = frames * 1000000 := by exact_mod_cast hdiv
    have hsum' : (rate : Int) * i + acc = phase + 16000 * frames := by exact_mod_cast hsum
    linear_combination 2 * hdiv' - 125 * hsum'
  unfold OnGrid
  rw [hskew]
  omega

namespace AudioCapture

/-- **The timeline of a run.** Over contiguous blocks the chunks stay on the grid of the phase the capture had. -/
theorem atSkew_chunksOf {rate : Nat} (hrate : 0 < rate) {origin : Int} {cap : AudioCapture} (hphased : cap.Phased)
    (htarget : cap.targetRate = audioTargetRate) {phase₀ frames i : Nat}
    (hsum : rate * i + cap.phase rate = phase₀ + audioTargetRate * frames) {callbacks : List Callback}
    (h : Contiguous rate origin frames callbacks) : AtSkew (OnGrid rate origin phase₀) i (cap.chunksOf callbacks) := by
  induction callbacks generalizing cap frames i with
  | nil => trivial
  | cons cb rest ih =>
    obtain ⟨⟨hsame, hchannels, hpts⟩, ⟨hreset, hrateok⟩, hrest⟩ := h
    have htarget' : (cap.step cb).targetRate = audioTargetRate := (cap.targetRate_step cb).trans htarget
    rw [chunksOf, atSkew_append]
    by_cases hframes : cb.input.frameCount = 0
    · -- an empty block is refused
      have hnone : cap.processBlock cb = none := if_pos (.inl hframes)
      have hstep : cap.step cb = cap := by rw [step, hnone]; rfl
      have hchunks : cap.chunks cb = [] := by rw [chunks, hnone]; rfl
      rw [hframes, Nat.add_zero] at hrest
      rw [hstep, hchunks]
      exact ⟨trivial, ih hphased htarget hsum hrest⟩
    · have hsome : cap.processBlock cb = some ((cap.startPhase rate).resample cb.input) := by
        unfold processBlock
        rw [if_neg (by omega), hreset, hrateok, hsame]
        rfl
      have hstep : cap.step cb = ((cap.startPhase rate).resample cb.input).1 := by rw [step, hsome]; rfl
      have hchunks : cap.chunks cb = ((cap.startPhase rate).resample cb.input).2 := by rw [chunks, hsome]; rfl
      have hlt := phase_lt hphased hrate
      obtain ⟨hskew, hacc, hcount⟩ := resample_spec ((cap.startPhase_targetRate rate).trans htarget) cb.input
        (by omega) (by rw [hsame]; exact hlt) i
      rw [hsame] at hacc hcount
      rw [hchunks]
      refine ⟨hskew.mono fun z hz => ?_, ih (phased_step hphased cb) htarget' ?_ hrest⟩
      · rw [hz, hpts]
        exact onGrid_block hrate origin hlt hsum
      · have hphase : (cap.step cb).phase rate = ((cap.startPhase rate).resample cb.input).1.resampleAcc := by
          have hsource : (cap.step cb).resampleSourceRate = rate := by
            rw [hstep]
            exact startPhase_sourceRate cap rate
          rw [phase, startPhase, if_neg (not_not.mpr hsource), hstep]
        rw [hphase, Nat.mul_add, Nat.add_assoc, hcount, Nat.mul_add, ← Nat.add_assoc, ← Nat.add_assoc, ← hsum]
        rfl

end AudioCapture

end VlcWhisper.Plugin
