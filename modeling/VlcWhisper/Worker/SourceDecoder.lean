import Mathlib.Data.List.Basic
import Mathlib.Algebra.Order.Group.Unbundled.Int
import Mathlib.Algebra.Order.Group.Abs
import Mathlib.Tactic.Ring

/-!
# Reading a source (`vw_source_decoder_ffmpeg.c`)

The decoder reads decoded frames into the caller's buffer, keeps what does not fit for the next read, and reports one
time for the samples of a read. What the codec gives is a list of answers; a frame comes with the time of its first
sample, in microseconds of the media and less the resampler's delay.

Main result: `read_timeline`. At 16 kHz a sample lasts 62.5 us. The samples of a read lie where its time says, to
within 63 us, in every run whose reads join only frames that follow each other and do not lose too many half
microseconds.
-/

namespace VlcWhisper.Worker

/-! ## The decoder -/

/-- The samples that `resample_buf` and `leftover_buffer` hold. -/
def resampleCapacity : Nat := 4096

/-- What `vw_source_decoder_process_frame` makes of a frame: the time that it sets, if the frame has one, and the
samples. -/
structure DecodedFrame (α : Type) where
  ptsUs : Option Int
  samples : List α
  length_le : samples.length ≤ resampleCapacity

/-- What the demuxer and the codec give next: a frame, nothing yet, the end, or an error, which a frame's time may
precede. -/
inductive CodecAnswer (α : Type) where
  | frame (f : DecodedFrame α)
  | again
  | eof
  | error (ptsUs : Option Int)

/-- `vw_source_decoder_read_status_t`. -/
inductive ReadStatus where
  | ok
  | again
  | eof
  | error
  deriving DecidableEq

/-- What a read gives: `out_pcm` up to `out_sample_count`, and `out_pts_us` where it is written. -/
structure ReadResult (α : Type) where
  status : ReadStatus
  samples : List α
  ptsUs : Option Int

/-- `vw_source_decoder`; there is no `seek_target_us` where it is `INT64_MIN`. -/
structure SourceDecoder (α : Type) where
  currentPtsUs : Int
  seekTargetUs : Option Int
  leftover : List α
  eofReached : Bool

/-- The samples that fill at least `deltaUs` microseconds. -/
def skipFor (deltaUs : Nat) : Nat := deltaUs / 125 * 2 + (deltaUs % 125 * 2 + 124) / 125

namespace SourceDecoder

variable {α : Type}

/-- After `vw_source_decoder_open`. -/
def opened : SourceDecoder α := ⟨0, none, [], false⟩

/-- `vw_source_decoder_seek`, where the demuxer can seek. -/
def seek (targetPtsUs : Int) (_ : SourceDecoder α) : SourceDecoder α := ⟨targetPtsUs, some targetPtsUs, [], false⟩

/-- The first half of `vw_source_decoder_copy_samples`: what lies before the target of a seek is dropped. -/
def trim (samples : List α) (d : SourceDecoder α) : List α × SourceDecoder α :=
  match d.seekTargetUs with
  | none => (samples, d)
  | some target =>
    if d.currentPtsUs < target then
      let trimmed := min (skipFor (target - d.currentPtsUs).toNat) samples.length
      let currentPtsUs := d.currentPtsUs + (trimmed * 125 / 2 : Nat)
      (samples.drop trimmed,
        { d with currentPtsUs := currentPtsUs, seekTargetUs := if target ≤ currentPtsUs then none else some target })
    else (samples, d)

/-- `vw_source_decoder_copy_samples`. -/
def copySamples (maxSamples : Nat) (samples out : List α) (d : SourceDecoder α) : List α × SourceDecoder α :=
  let (samples, d) := d.trim samples
  let toCopy := min samples.length (maxSamples - out.length)
  let d := { d with currentPtsUs := d.currentPtsUs + (toCopy * 1000000 / 16000 : Nat) }
  (out ++ samples.take toCopy,
    if toCopy < samples.length then { d with leftover := (samples.drop toCopy).take resampleCapacity } else d)

/-- `vw_source_decoder_process_frame`, and `vw_source_decoder_drain_swr` for a frame without a time. -/
def processFrame (maxSamples : Nat) (f : DecodedFrame α) (out : List α) (ptsUs : Option Int) (d : SourceDecoder α) :
    List α × Option Int × SourceDecoder α :=
  let d := { d with currentPtsUs := f.ptsUs.getD d.currentPtsUs }
  if f.samples.isEmpty then (out, ptsUs, d)
  else
    let (copied, d) := d.copySamples maxSamples f.samples out
    (copied,
      if out.isEmpty && !copied.isEmpty then some (d.currentPtsUs - (copied.length * 125 / 2 : Nat)) else ptsUs, d)

/-- The status of a read that ends with these samples. -/
def statusOf (out : List α) (otherwise : ReadStatus) : ReadStatus := if out.isEmpty then otherwise else .ok

/-- The loop of `vw_source_decoder_read_s16le`. -/
def readLoop (maxSamples : Nat) : List (CodecAnswer α) → List α → Option Int → SourceDecoder α →
    ReadResult α × SourceDecoder α × List (CodecAnswer α)
  | [], out, ptsUs, d => (⟨statusOf out .again, out, ptsUs⟩, d, [])
  | answer :: answers, out, ptsUs, d =>
    if maxSamples ≤ out.length then (⟨.ok, out, ptsUs⟩, d, answer :: answers)
    else match answer with
      | .frame f =>
        let (out, ptsUs, d) := d.processFrame maxSamples f out ptsUs
        readLoop maxSamples answers out ptsUs d
      | .again => (⟨statusOf out .again, out, ptsUs⟩, d, answers)
      | .eof => (⟨statusOf out .eof, out, ptsUs⟩, { d with eofReached := true }, answers)
      | .error framePtsUs => (⟨.error, [], ptsUs⟩, { d with currentPtsUs := framePtsUs.getD d.currentPtsUs }, answers)

/-- `vw_source_decoder_read_s16le`. -/
def read (maxSamples : Nat) (answers : List (CodecAnswer α)) (d : SourceDecoder α) :
    ReadResult α × SourceDecoder α × List (CodecAnswer α) :=
  if maxSamples = 0 then (⟨.error, [], none⟩, d, answers)
  else if d.eofReached then (⟨.eof, [], none⟩, d, answers)
  else if d.leftover.isEmpty then readLoop maxSamples answers [] none d
  else
    let out := d.leftover.take maxSamples
    let ptsUs := some d.currentPtsUs
    let d := { d with
      currentPtsUs := d.currentPtsUs + (out.length * 1000000 / 16000 : Nat)
      leftover := d.leftover.drop maxSamples }
    if d.leftover.isEmpty then readLoop maxSamples answers out ptsUs d
    else (⟨.ok, out, ptsUs⟩, d, answers)

end SourceDecoder

/-! ## Runs -/

/-- A call of the worker. A seek that succeeds leads to other answers. -/
inductive SourceCall (α : Type) where
  | read (maxSamples : Nat)
  | seek (targetPtsUs : Int) (found : Bool) (answers : List (CodecAnswer α))

namespace SourceDecoder

variable {α : Type}

/-- What the reads of some calls give. -/
def run : SourceDecoder α → List (CodecAnswer α) → List (SourceCall α) → List (ReadResult α)
  | _, _, [] => []
  | d, answers, .read maxSamples :: calls =>
    let (result, d, answers) := d.read maxSamples answers
    result :: run d answers calls
  | d, answers, .seek targetPtsUs found later :: calls =>
    if found then run (d.seek targetPtsUs) later calls else run d answers calls

end SourceDecoder

/-! ## Times of samples -/

variable {α : Type} (time : α → Int)

/-- The samples lie 62.5 us apart, from `start` on; both are in half microseconds. -/
def Line : Int → List α → Prop
  | _, [] => True
  | start, a :: samples => time a = start ∧ Line (start + 125) samples

/-- The samples lie within 1 us of such a line. -/
def NearLine (start : Int) (samples : List α) : Prop :=
  ∀ (i : Nat) (a : α), samples[i]? = some a → |time a - (start + 125 * i)| ≤ 2

variable {time} {start : Int} {samples others out : List α}

theorem line_append : Line time start (samples ++ others) ↔
    Line time start samples ∧ Line time (start + 125 * samples.length) others := by
  induction samples generalizing start with
  | nil => simp [Line]
  | cons a samples ih =>
    have hstart : start + 125 + 125 * samples.length = start + 125 * (a :: samples).length := by
      rw [List.length_cons]
      push_cast
      ring
    rw [List.cons_append, Line, Line, ih, hstart, and_assoc]

theorem Line.take (h : Line time start samples) (n : Nat) : Line time start (samples.take n) := by
  rw [← List.take_append_drop n samples, line_append] at h
  exact h.1

theorem Line.drop (h : Line time start samples) {n : Nat} (hn : n ≤ samples.length) :
    Line time (start + 125 * n) (samples.drop n) := by
  rw [← List.take_append_drop n samples, line_append, List.length_take, min_eq_left hn] at h
  exact h.2

theorem Line.time_eq (h : Line time start samples) {i : Nat} {a : α} (ha : samples[i]? = some a) :
    time a = start + 125 * i := by
  induction samples generalizing start i with
  | nil => cases ha
  | cons b samples ih =>
    cases i with
    | zero =>
      obtain rfl := Option.some.inj ha
      rw [h.1]
      simp
    | succ i =>
      rw [ih h.2 ha]
      push_cast
      ring

theorem Line.le_time (h : Line time start samples) {a : α} (ha : a ∈ samples) : start ≤ time a := by
  obtain ⟨i, hi⟩ := List.mem_iff_getElem?.mp ha
  rw [h.time_eq hi]
  omega

theorem Line.near (h : Line time start samples) : NearLine time start samples := by
  intro i a ha
  rw [h.time_eq ha]
  simp

theorem NearLine.append {later : Int} (h : NearLine time start out) (hline : Line time later samples)
    (hnear : |later - (start + 125 * out.length)| ≤ 2) : NearLine time start (out ++ samples) := by
  intro i a ha
  by_cases hi : i < out.length
  · rw [List.getElem?_append_left hi] at ha
    exact h i a ha
  · rw [List.getElem?_append_right (by omega)] at ha
    rw [hline.time_eq ha]
    rw [abs_le] at hnear ⊢
    omega

/-! ## Timed frames -/

variable (time)

/-- The frame has a time, and its samples lie from there on. -/
def DecodedFrame.Timed (f : DecodedFrame α) : Prop := ∃ ptsUs, f.ptsUs = some ptsUs ∧ Line time (2 * ptsUs) f.samples

/-- All frames have their times. -/
def AllTimed (answers : List (CodecAnswer α)) : Prop := ∀ f, .frame f ∈ answers → f.Timed time

/-- So have the frames after a seek. -/
def SourceCall.Timed : SourceCall α → Prop
  | .read _ => True
  | .seek _ _ answers => AllTimed time answers

/-- The frame begins, to 1 us, where the samples that are there end. -/
def Adjoins (out : List α) (f : DecodedFrame α) : Prop :=
  ∀ first ∈ out.head?, ∀ ptsUs ∈ f.ptsUs, f.samples ≠ [] → |2 * ptsUs - (time first + 125 * out.length)| ≤ 2

namespace SourceDecoder

/-- The frames that a read joins to samples adjoin these. -/
def LoopJoins (maxSamples : Nat) : List (CodecAnswer α) → List α → Option Int → SourceDecoder α → Prop
  | .frame f :: answers, out, ptsUs, d =>
    out.length < maxSamples → Adjoins time out f ∧
      let (out, ptsUs, d) := d.processFrame maxSamples f out ptsUs
      LoopJoins maxSamples answers out ptsUs d
  | _, _, _, _ => True

/-- What is to be met for a read: the frames that it joins adjoin, and at most 122 odd-sized reads in a row were served
from what was left over. -/
structure ReadMeets (odd maxSamples : Nat) (answers : List (CodecAnswer α)) (d : SourceDecoder α) : Prop where
  odd_le : odd ≤ 122
  joins : d.leftover.length ≤ maxSamples →
    LoopJoins time maxSamples answers (d.leftover.take maxSamples)
      (if d.leftover.isEmpty then none else some d.currentPtsUs)
      { d with
        currentPtsUs := d.currentPtsUs + ((d.leftover.take maxSamples).length * 1000000 / 16000 : Nat)
        leftover := d.leftover.drop maxSamples }

/-- The odd-sized reads that were served from the same frame. -/
def oddReads (odd maxSamples : Nat) (d : SourceDecoder α) : Nat :=
  if maxSamples < d.leftover.length then odd + maxSamples % 2 else 0

/-- Every read of a run meets its condition. -/
def RunMeets : Nat → SourceDecoder α → List (CodecAnswer α) → List (SourceCall α) → Prop
  | _, _, _, [] => True
  | odd, d, answers, .read maxSamples :: calls =>
    ReadMeets time odd maxSamples answers d ∧
      let (_, d', answers) := d.read maxSamples answers
      RunMeets (d.oddReads odd maxSamples) d' answers calls
  | odd, d, answers, .seek targetPtsUs found later :: calls =>
    if found then RunMeets 0 (d.seek targetPtsUs) later calls else RunMeets odd d answers calls

/-! ## What a read preserves -/

/-- What is left over lies on a line from the current time, but for half a microsecond for each odd-sized read and
two more, and not before the target of a seek. -/
structure Holds (odd : Nat) (d : SourceDecoder α) : Prop where
  line : ∃ lag : Int, 0 ≤ lag ∧ lag ≤ odd + 2 ∧ Line time (2 * d.currentPtsUs + lag) d.leftover
  kept : ∀ target ∈ d.seekTargetUs, ∀ a ∈ d.leftover, 2 * target ≤ time a
  eof : d.eofReached = true → d.leftover = []

/-- The samples lie on a line from a time that was reported, but for half a microsecond for each odd-sized read and
two more. -/
def Reported (odd : Nat) (out : List α) (ptsUs : Option Int) : Prop :=
  ∃ p lag : Int, ptsUs = some p ∧ 0 ≤ lag ∧ lag ≤ odd + 2 ∧ NearLine time (2 * p + lag) out ∧
    ∀ first ∈ out.head?, time first = 2 * p + lag

/-- What the loop of a read preserves. -/
structure Reading (odd maxSamples : Nat) (out : List α) (ptsUs : Option Int) (d : SourceDecoder α) : Prop where
  holds : Holds time 0 d
  live : d.eofReached = false
  full : d.leftover ≠ [] → maxSamples ≤ out.length
  reported : out ≠ [] → Reported time odd out ptsUs
  kept : ∀ target ∈ d.seekTargetUs, ∀ a ∈ out, 2 * target ≤ time a

variable {time} {odd maxSamples : Nat} {d : SourceDecoder α} {f : DecodedFrame α} {ptsUs : Option Int}

theorem holds_of_leftover_nil (h : d.leftover = []) : Holds time odd d := by
  constructor
  · refine ⟨0, le_rfl, by omega, ?_⟩
    rw [h]
    trivial
  · intro target _ a ha
    rw [h] at ha
    cases ha
  · intro _
    exact h

theorem skipFor_spec (deltaUs : Nat) :
    2 * deltaUs ≤ 125 * skipFor deltaUs ∧ 125 * skipFor deltaUs ≤ 2 * deltaUs + 124 := by
  unfold skipFor
  omega

/-- What is kept of a frame lies on a line from the current time, up to half a microsecond, and not before the
target. -/
theorem trim_spec (h : Line time (2 * d.currentPtsUs) samples) :
    (∃ lag : Int, 0 ≤ lag ∧ lag ≤ 1 ∧ Line time (2 * (d.trim samples).2.currentPtsUs + lag) (d.trim samples).1) ∧
      (∀ target ∈ (d.trim samples).2.seekTargetUs, ∀ a ∈ (d.trim samples).1, 2 * target ≤ time a) ∧
      (∀ target ∈ (d.trim samples).2.seekTargetUs, target ∈ d.seekTargetUs) ∧
      (d.trim samples).2.leftover = d.leftover ∧ (d.trim samples).2.eofReached = d.eofReached := by
  unfold trim
  cases htarget : d.seekTargetUs with
  | none =>
    refine ⟨⟨0, le_rfl, by omega, by simpa using h⟩, ?_, ?_, rfl, rfl⟩
    · intro target hmem
      rw [htarget] at hmem
      cases hmem
    · intro target hmem
      rw [htarget] at hmem
      exact hmem
  | some target =>
    dsimp only
    by_cases hbefore : d.currentPtsUs < target
    · rw [if_pos hbefore]
      have hskip := skipFor_spec (target - d.currentPtsUs).toNat
      generalize htrimmed : min (skipFor (target - d.currentPtsUs).toNat) samples.length = trimmed
      have hline := h.drop (n := trimmed) (by omega)
      refine ⟨⟨(125 * trimmed % 2 : Nat), by omega, by omega, ?_⟩, ?_, ?_, rfl, rfl⟩
      · have hstart : 2 * (d.currentPtsUs + (trimmed * 125 / 2 : Nat)) + (125 * trimmed % 2 : Nat) =
            2 * d.currentPtsUs + 125 * trimmed := by omega
        dsimp only
        rw [hstart]
        exact hline
      · intro armed harmed a ha
        dsimp only at harmed ha
        split at harmed
        · cases harmed
        rename_i hleft
        -- the target is still ahead, so nothing of the frame is kept
        rw [List.drop_of_length_le (by omega)] at ha
        cases ha
      · intro armed harmed
        dsimp only at harmed
        split at harmed
        · cases harmed
        · exact harmed
    · rw [if_neg hbefore]
      refine ⟨⟨0, le_rfl, by omega, by simpa using h⟩, ?_, ?_, rfl, rfl⟩
      · intro armed harmed a ha
        rw [htarget] at harmed
        obtain rfl := Option.some.inj harmed
        have hle := h.le_time ha
        omega
      · intro armed harmed
        rw [htarget] at harmed
        exact harmed

theorem trim_eq_self (h : ∀ target ∈ d.seekTargetUs, target ≤ d.currentPtsUs) : d.trim samples = (samples, d) := by
  unfold trim
  cases htarget : d.seekTargetUs with
  | none => rfl
  | some target =>
    have hle := h target htarget
    dsimp only
    rw [if_neg (by omega)]

theorem copySamples_eq (maxSamples : Nat) (samples out : List α) (d : SourceDecoder α)
    (hlength : samples.length ≤ resampleCapacity) :
    (d.copySamples maxSamples samples out).1 = out ++ (d.trim samples).1.take (maxSamples - out.length) ∧
      (d.copySamples maxSamples samples out).2.currentPtsUs = (d.trim samples).2.currentPtsUs +
        (((d.trim samples).1.take (maxSamples - out.length)).length * 125 / 2 : Nat) ∧
      (d.copySamples maxSamples samples out).2.seekTargetUs = (d.trim samples).2.seekTargetUs ∧
      (d.copySamples maxSamples samples out).2.eofReached = (d.trim samples).2.eofReached ∧
      (d.copySamples maxSamples samples out).2.leftover =
        if maxSamples - out.length < (d.trim samples).1.length then (d.trim samples).1.drop (maxSamples - out.length)
        else (d.trim samples).2.leftover := by
  have htrim : (d.trim samples).1.length ≤ samples.length := by
    unfold trim
    split
    · exact le_rfl
    · split
      · rw [List.length_drop]
        omega
      · exact le_rfl
  unfold copySamples
  generalize d.trim samples = r at htrim ⊢
  obtain ⟨kept, d'⟩ := r
  dsimp only at htrim ⊢
  have htake : kept.take (min kept.length (maxSamples - out.length)) = kept.take (maxSamples - out.length) := by
    rw [List.take_eq_take_iff]
    omega
  have hlen : (kept.take (maxSamples - out.length)).length = min kept.length (maxSamples - out.length) := by
    rw [List.length_take, min_comm]
  by_cases hroom : maxSamples - out.length < kept.length
  · have hmin : min kept.length (maxSamples - out.length) = maxSamples - out.length := by omega
    rw [hlen, hmin, if_pos hroom, if_pos hroom]
    refine ⟨rfl, ?_, rfl, rfl, ?_⟩
    · dsimp only
      congr 2
      omega
    · apply List.take_of_length_le
      rw [List.length_drop]
      omega
  · have hmin : min kept.length (maxSamples - out.length) = kept.length := by omega
    rw [hlen, ← htake, hmin, if_neg (by omega), if_neg hroom]
    refine ⟨rfl, ?_, rfl, rfl, rfl⟩
    dsimp only
    congr 2
    omega

theorem Reading.target_le {p : Int} (h : Reading time odd maxSamples out ptsUs d) (hout : out ≠ [])
    (hadjoins : Adjoins time out f) (hp : f.ptsUs = some p) (hsamples : f.samples ≠ []) :
    ∀ target ∈ d.seekTargetUs, target ≤ p := by
  intro target htarget
  obtain ⟨first, rest, rfl⟩ := List.exists_cons_of_ne_nil hout
  have hkept := h.kept target htarget first List.mem_cons_self
  have hnear := hadjoins first rfl p hp hsamples
  rw [abs_le, List.length_cons] at hnear
  omega

theorem holds_of_copied {d' d'' : SourceDecoder α} {kept : List α} {lag : Int} {n : Nat} (hlag : 0 ≤ lag)
    (hlag' : lag ≤ 1) (hline : Line time (2 * d'.currentPtsUs + lag) kept)
    (hkept : ∀ target ∈ d'.seekTargetUs, ∀ a ∈ kept, 2 * target ≤ time a) (hnil : d'.leftover = [])
    (hcurrent : d''.currentPtsUs = d'.currentPtsUs + ((kept.take n).length * 125 / 2 : Nat))
    (htarget : d''.seekTargetUs = d'.seekTargetUs)
    (hleftover : d''.leftover = if n < kept.length then kept.drop n else d'.leftover)
    (hlive : d''.eofReached = false) : Holds time 0 d'' := by
  by_cases hn : n < kept.length
  · rw [if_pos hn] at hleftover
    rw [List.length_take, min_eq_left hn.le] at hcurrent
    constructor
    · have hdrop := hline.drop hn.le
      refine ⟨lag + (125 * n % 2 : Nat), by omega, by omega, ?_⟩
      rw [hleftover, hcurrent]
      have hstart : 2 * (d'.currentPtsUs + (n * 125 / 2 : Nat)) + (lag + (125 * n % 2 : Nat)) =
          2 * d'.currentPtsUs + lag + 125 * n := by omega
      rw [hstart]
      exact hdrop
    · intro target hmem a ha
      rw [hleftover] at ha
      rw [htarget] at hmem
      exact hkept target hmem a (List.mem_of_mem_drop ha)
    · intro heof
      rw [hlive] at heof
      cases heof
  · rw [if_neg hn, hnil] at hleftover
    exact holds_of_leftover_nil hleftover

theorem Reading.processFrame (h : Reading time odd maxSamples out ptsUs d) (hroom : out.length < maxSamples)
    (htimed : f.Timed time) (hadjoins : Adjoins time out f) :
    let r := d.processFrame maxSamples f out ptsUs
    Reading time odd maxSamples r.1 r.2.1 r.2.2 := by
  obtain ⟨p, hp, hline⟩ := htimed
  have hnil : d.leftover = [] := by
    by_contra hne
    exact absurd (h.full hne) (by omega)
  unfold SourceDecoder.processFrame
  simp only [hp, Option.getD_some]
  by_cases hsamples : f.samples = []
  · rw [if_pos (by simp [hsamples])]
    exact ⟨holds_of_leftover_nil hnil, h.live, h.full, h.reported, h.kept⟩
  rw [if_neg (by simp [hsamples])]
  dsimp only
  -- the decoder as the frame's time finds it
  generalize hd' : ({ d with currentPtsUs := p } : SourceDecoder α) = d'
  have hcurrent : d'.currentPtsUs = p := by rw [← hd']
  have htarget : d'.seekTargetUs = d.seekTargetUs := by rw [← hd']
  have hstartNil : d'.leftover = [] := by rw [← hd', hnil]
  have hstartLive : d'.eofReached = false := by rw [← hd', h.live]
  rw [← hcurrent] at hline
  obtain ⟨⟨lag, hlag, hlag', hkeptLine⟩, hkept, hsub, hleftover, heof⟩ := trim_spec hline
  obtain ⟨hout, hcopied, hseek, hlive, hleft⟩ := copySamples_eq maxSamples f.samples out d' f.length_le
  rw [hstartLive] at heof
  rw [hstartNil] at hleftover
  have hholds : Holds time 0 (d'.copySamples maxSamples f.samples out).2 :=
    holds_of_copied hlag hlag' hkeptLine hkept hleftover hcopied hseek hleft (hlive.trans heof)
  refine ⟨hholds, hlive.trans heof, ?_, ?_, ?_⟩
  · intro hne
    rw [hleft] at hne
    split at hne
    · rw [hout, List.length_append, List.length_take]
      omega
    · exact absurd hleftover hne
  · intro hne
    by_cases hempty : out = []
    · subst hempty
      rw [List.nil_append] at hout
      rw [if_pos (by simp [hne]), hcopied, hout]
      refine ⟨(d'.trim f.samples).2.currentPtsUs, lag, ?_, hlag, by omega, (hkeptLine.take _).near, ?_⟩
      · rw [add_sub_cancel_right]
      · intro first hfirst
        rw [List.head?_eq_getElem?] at hfirst
        rw [(hkeptLine.take _).time_eq hfirst]
        simp
    · have hself : d'.trim f.samples = (f.samples, d') := by
        apply trim_eq_self
        intro target hmem
        rw [hcurrent]
        rw [htarget] at hmem
        exact h.target_le hempty hadjoins hp hsamples target hmem
      rw [if_neg (by simp [hempty]), hout, hself]
      obtain ⟨p₀, lag₀, hp₀, hlag₀, hlag₀', hnear, hfirst⟩ := h.reported hempty
      refine ⟨p₀, lag₀, hp₀, hlag₀, hlag₀', ?_, ?_⟩
      · obtain ⟨first, rest, rfl⟩ := List.exists_cons_of_ne_nil hempty
        have hadjoin := hadjoins first rfl p hp hsamples
        rw [hfirst first rfl] at hadjoin
        rw [← hcurrent] at hadjoin
        exact hnear.append (hline.take _) hadjoin
      · intro first hmem
        obtain ⟨head, rest, rfl⟩ := List.exists_cons_of_ne_nil hempty
        exact hfirst first hmem
  · intro target hmem a ha
    rw [hseek] at hmem
    rw [hout, List.mem_append] at ha
    rcases ha with ha | ha
    · have harmed := hsub target hmem
      rw [htarget] at harmed
      exact h.kept target harmed a ha
    · exact hkept target hmem a (List.mem_of_mem_take ha)

variable {answers : List (CodecAnswer α)} {calls : List (SourceCall α)}

theorem ne_nil_of_statusOf {otherwise : ReadStatus} (hne : otherwise ≠ .ok) (h : statusOf out otherwise = .ok) :
    out ≠ [] := by
  rintro rfl
  exact hne h

/-- What a read gives where it succeeds, and what it leaves. -/
structure ReadGives (odd : Nat) (answers : List (CodecAnswer α))
    (r : ReadResult α × SourceDecoder α × List (CodecAnswer α)) : Prop where
  reported : r.1.status = .ok → Reported time odd r.1.samples r.1.ptsUs
  holds : Holds time 0 r.2.1
  rest : r.2.2 <:+ answers

theorem readLoop_gives (hmax : 0 < maxSamples) (h : Reading time odd maxSamples out ptsUs d)
    (htimed : AllTimed time answers) (hjoins : LoopJoins time maxSamples answers out ptsUs d) :
    @ReadGives _ time odd answers (readLoop maxSamples answers out ptsUs d) := by
  induction answers generalizing out ptsUs d with
  | nil => exact ⟨fun hok => h.reported (ne_nil_of_statusOf (by decide) hok), h.holds, List.suffix_refl _⟩
  | cons answer answers ih =>
    unfold readLoop
    by_cases hfull : maxSamples ≤ out.length
    · rw [if_pos hfull]
      refine ⟨fun _ => h.reported ?_, h.holds, List.suffix_refl _⟩
      rintro rfl
      simp at hfull
      omega
    · rw [if_neg hfull]
      cases answer with
      | frame f =>
        obtain ⟨hadjoins, hrest⟩ := hjoins (by omega)
        have hnext := h.processFrame (by omega) (htimed f List.mem_cons_self) hadjoins
        have hgives := ih hnext (fun g hg => htimed g (List.mem_cons_of_mem _ hg)) hrest
        exact ⟨hgives.reported, hgives.holds, hgives.rest.trans (List.suffix_cons _ _)⟩
      | again =>
        exact ⟨fun hok => h.reported (ne_nil_of_statusOf (by decide) hok), h.holds, List.suffix_cons _ _⟩
      | eof =>
        have hnil : d.leftover = [] := by
          by_contra hne
          exact hfull (h.full hne)
        exact ⟨fun hok => h.reported (ne_nil_of_statusOf (by decide) hok), holds_of_leftover_nil hnil,
          List.suffix_cons _ _⟩
      | error framePtsUs =>
        have hnil : d.leftover = [] := by
          by_contra hne
          exact hfull (h.full hne)
        exact ⟨fun hok => (by cases hok), holds_of_leftover_nil hnil, List.suffix_cons _ _⟩

/-- A read keeps the state; only one that is served from what is left over adds to what may be lost. -/
theorem read_gives (h : Holds time odd d) (htimed : AllTimed time answers)
    (hmeets : ReadMeets time odd maxSamples answers d) : ((d.read maxSamples answers).1.status = .ok →
        Reported time odd (d.read maxSamples answers).1.samples (d.read maxSamples answers).1.ptsUs) ∧
      Holds time (d.oddReads odd maxSamples) (d.read maxSamples answers).2.1 ∧
      (d.read maxSamples answers).2.2 <:+ answers := by
  obtain ⟨lag, hlag, hlag', hline⟩ := h.line
  unfold read oddReads
  by_cases hmax : maxSamples = 0
  · rw [if_pos hmax]
    refine ⟨fun hok => (by cases hok), ?_, List.suffix_refl _⟩
    by_cases hnil : d.leftover = []
    · exact holds_of_leftover_nil hnil
    · rw [if_pos (by rw [hmax]; exact List.length_pos_of_ne_nil hnil), hmax]
      exact h
  rw [if_neg hmax]
  by_cases heof : d.eofReached = true
  · rw [if_pos heof]
    exact ⟨fun hok => (by cases hok), holds_of_leftover_nil (h.eof heof), List.suffix_refl _⟩
  rw [if_neg heof]
  rw [Bool.not_eq_true] at heof
  by_cases hempty : d.leftover = []
  · rw [if_pos (by simp [hempty]), if_neg (by simp [hempty])]
    have hreading : Reading time odd maxSamples [] none d :=
      ⟨holds_of_leftover_nil hempty, heof, fun hne => absurd hempty hne, fun hne => absurd rfl hne, by simp⟩
    have hjoins : LoopJoins time maxSamples answers [] none d := by
      obtain ⟨currentPtsUs, seekTargetUs, leftover, eofReached⟩ := d
      subst hempty
      simpa using hmeets.joins (Nat.zero_le _)
    have hgives := readLoop_gives (by omega) hreading htimed hjoins
    exact ⟨hgives.reported, hgives.holds, hgives.rest⟩
  rw [if_neg (by simp [hempty])]
  dsimp only
  have hreported : Reported time odd (d.leftover.take maxSamples) (some d.currentPtsUs) := by
    refine ⟨d.currentPtsUs, lag, rfl, hlag, hlag', (hline.take _).near, ?_⟩
    intro first hfirst
    rw [List.head?_eq_getElem?] at hfirst
    rw [(hline.take _).time_eq hfirst]
    simp
  by_cases hshort : d.leftover.length ≤ maxSamples
  · have hjoins := hmeets.joins hshort
    rw [if_neg (by simp [hempty]), List.drop_of_length_le hshort] at hjoins
    rw [if_pos (by simp [hshort]), if_neg (by omega), List.drop_of_length_le hshort]
    have hreading : Reading time odd maxSamples (d.leftover.take maxSamples) (some d.currentPtsUs) { d with
        currentPtsUs := d.currentPtsUs + ((d.leftover.take maxSamples).length * 1000000 / 16000 : Nat),
        leftover := [] } := by
      refine ⟨holds_of_leftover_nil rfl, heof, fun hne => absurd rfl hne, fun _ => hreported, ?_⟩
      intro target htarget a ha
      exact h.kept target htarget a (List.mem_of_mem_take ha)
    have hgives := readLoop_gives (by omega) hreading htimed hjoins
    exact ⟨hgives.reported, hgives.holds, hgives.rest⟩
  · rw [not_le] at hshort
    rw [if_neg (by simp [hshort]), if_pos hshort]
    refine ⟨fun _ => hreported, ?_, List.suffix_refl _⟩
    have hdrop := hline.drop hshort.le
    rw [List.length_take, min_eq_left hshort.le]
    constructor
    · refine ⟨lag + (125 * maxSamples % 2 : Nat), by omega, by omega, ?_⟩
      dsimp only
      have hstart : 2 * (d.currentPtsUs + (maxSamples * 1000000 / 16000 : Nat)) + (lag + (125 * maxSamples % 2 : Nat)) =
          2 * d.currentPtsUs + lag + 125 * maxSamples := by omega
      rw [hstart]
      exact hdrop
    · intro target htarget a ha
      exact h.kept target htarget a (List.mem_of_mem_drop ha)
    · intro heof'
      rw [heof] at heof'
      cases heof'

/-! ## Runs -/

/-- A reported time is right to within one sample, if not too much was lost. -/
theorem Reported.close (h : Reported time odd out ptsUs) (hodd : odd ≤ 122) :
    ∃ p ∈ ptsUs, ∀ (i : Nat) (a : α), out[i]? = some a → |time a - (2 * p + 125 * i)| ≤ 126 := by
  obtain ⟨p, lag, hp, hlag, hlag', hnear, -⟩ := h
  refine ⟨p, hp, ?_⟩
  intro i a ha
  have hclose := hnear i a ha
  rw [abs_le] at hclose ⊢
  omega

theorem run_timeline (hd : Holds time odd d) (hanswers : AllTimed time answers)
    (hcalls : ∀ call ∈ calls, call.Timed time) (hmeets : RunMeets time odd d answers calls) :
    ∀ result ∈ d.run answers calls, result.status = .ok →
      ∃ p ∈ result.ptsUs, ∀ (i : Nat) (a : α), result.samples[i]? = some a → |time a - (2 * p + 125 * i)| ≤ 126 := by
  induction calls generalizing odd d answers with
  | nil =>
    intro result hresult
    cases hresult
  | cons call calls ih =>
    have hothers : ∀ call ∈ calls, call.Timed time := fun c hc => hcalls c (List.mem_cons_of_mem _ hc)
    cases call with
    | read maxSamples =>
      obtain ⟨hread, hrest⟩ := hmeets
      obtain ⟨hreported, hholds, hsuffix⟩ := read_gives hd hanswers hread
      have hleft : AllTimed time (d.read maxSamples answers).2.2 := fun f hf => hanswers f (hsuffix.subset hf)
      intro result hresult hok
      rcases List.mem_cons.mp hresult with rfl | hresult
      · exact (hreported hok).close hread.odd_le
      · exact ih hholds hleft hothers hrest result hresult hok
    | seek targetPtsUs found later =>
      rw [RunMeets] at hmeets
      rw [run]
      cases found with
      | true =>
        have hlater : AllTimed time later := hcalls _ List.mem_cons_self
        exact ih (holds_of_leftover_nil rfl) hlater hothers hmeets
      | false => exact ih hd hanswers hothers hmeets

/-- **The samples of a read lie where its time says, to within one sample, in every run whose reads meet their
condition.** -/
theorem read_timeline (hanswers : AllTimed time answers) (hcalls : ∀ call ∈ calls, call.Timed time)
    (hmeets : RunMeets time 0 opened answers calls) :
    ∀ result ∈ opened.run answers calls, result.status = .ok →
      ∃ p ∈ result.ptsUs, ∀ (i : Nat) (a : α), result.samples[i]? = some a → |time a - (2 * p + 125 * i)| ≤ 126 := by
  apply run_timeline _ hanswers hcalls hmeets
  exact holds_of_leftover_nil rfl

/-- A frame of samples that are their own times. -/
def plainFrame (ptsUs : Int) (n : Nat) (h : n ≤ resampleCapacity) : DecodedFrame Int :=
  ⟨some ptsUs, (List.range n).map fun i : Nat => 2 * ptsUs + 125 * (i : Int), by simpa using h⟩

theorem plainFrame_timed (ptsUs : Int) (n : Nat) (h : n ≤ resampleCapacity) : (plainFrame ptsUs n h).Timed id := by
  refine ⟨ptsUs, rfl, ?_⟩
  have hline (k m : Nat) :
      Line id (2 * ptsUs + 125 * m) ((List.range' m k).map fun i : Nat => 2 * ptsUs + 125 * (i : Int)) := by
    induction k generalizing m with
    | zero => trivial
    | succ k ih =>
      have hnext := ih (m + 1)
      push_cast at hnext
      refine ⟨rfl, ?_⟩
      rwa [mul_add, mul_one, ← add_assoc] at hnext
  have hzero := hline n 0
  rw [← List.range_eq_range'] at hzero
  simpa [plainFrame] using hzero

/-- Three samples, and two that follow on them. -/
def twoFrames : List (CodecAnswer Int) := [.frame (plainFrame 0 3 (by decide)), .frame (plainFrame 187 2 (by decide))]

theorem read_timeline_two : ∃ result ∈ opened.run twoFrames [.read 4], result.status = .ok ∧
    ∃ p ∈ result.ptsUs, ∀ (i : Nat) (a : Int), result.samples[i]? = some a → |a - (2 * p + 125 * i)| ≤ 126 := by
  have htimed : AllTimed id twoFrames := by
    intro f hf
    rcases List.mem_pair.mp hf with h | h <;> cases h <;> exact plainFrame_timed _ _ _
  have hcalls : ∀ call ∈ [SourceCall.read 4], call.Timed id := by
    intro call hcall
    obtain rfl := List.mem_singleton.mp hcall
    trivial
  have hmeets : RunMeets id 0 opened twoFrames [.read 4] := by
    refine ⟨⟨by decide, fun _ => ?_⟩, trivial⟩
    intro _
    refine ⟨fun first hfirst => (by cases hfirst), fun _ => ⟨fun first hfirst ptsUs hpts _ => ?_, trivial⟩⟩
    obtain rfl := Option.some.inj hfirst
    obtain rfl := Option.some.inj hpts
    decide
  have hmem := List.head_mem (l := opened.run twoFrames [.read 4]) (by decide)
  exact ⟨_, hmem, by decide, read_timeline htimed hcalls hmeets _ hmem (by decide)⟩

/-- A read joins frames that are apart, and small reads of one frame lose half a microsecond each. -/
theorem not_read_timeline :
    (¬ ∀ (answers : List (CodecAnswer Int)) (calls : List (SourceCall Int)), AllTimed id answers →
      (∀ call ∈ calls, call.Timed id) →
      ∀ result ∈ opened.run answers calls, result.status = .ok →
        ∃ p ∈ result.ptsUs, ∀ (i : Nat) (a : Int), result.samples[i]? = some a → |a - (2 * p + 125 * i)| ≤ 126) ∧
      ¬ ∀ (f : DecodedFrame Int) (sizes : List Nat), f.Timed id →
        ∀ result ∈ opened.run [.frame f] (sizes.map .read), result.status = .ok →
          ∃ p ∈ result.ptsUs, ∀ (i : Nat) (a : Int), result.samples[i]? = some a → |a - (2 * p + 125 * i)| ≤ 126 := by
  constructor
  · intro h
    have htimed : AllTimed id [.frame (plainFrame 0 1 (by decide)), .frame (plainFrame 1000 1 (by decide))] := by
      intro f hf
      rcases List.mem_pair.mp hf with h | h <;> cases h <;> exact plainFrame_timed _ _ _
    obtain ⟨p, hp, hclose⟩ := h _ [.read 2] htimed (by simp [SourceCall.Timed]) _ List.mem_cons_self (by decide)
    obtain rfl := Option.some.inj hp
    exact absurd (hclose 1 2000 (by decide)) (by decide)
  · intro h
    have hlast : ∃ result ∈ opened.run [.frame (plainFrame 0 140 (by decide))] (List.replicate 130 (.read 1)),
        result.status = .ok ∧ result.samples = [129 * 125] ∧ result.ptsUs = some (129 * 62) := by
      decide +kernel
    obtain ⟨result, hresult, hok, hsamples, hpts⟩ := hlast
    obtain ⟨p, hp, hclose⟩ := h _ (List.replicate 130 1) (plainFrame_timed 0 140 (by decide)) result
      (by simpa using hresult) hok
    rw [hpts] at hp
    obtain rfl := Option.some.inj hp
    have hfar := hclose 0 (129 * 125) (by rw [hsamples]; rfl)
    revert hfar
    decide

end SourceDecoder

end VlcWhisper.Worker
