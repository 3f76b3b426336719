import Mathlib.Data.Rat.Floor
import Mathlib.Tactic.Linarith
import VlcWhisper.Worker.SourceDecoder

/-!
# What is dropped after a seek (`vw_source_decoder_ffmpeg.c`, `vw_source_decoder_mf.c`)

After a seek to `t` the first frames begin before `t`, and both decoders drop samples of them by their timestamps,
which are the exact times rounded down to microseconds. FFmpeg's decoder then forgets the target, the other one keeps
it.

Main result: `seek_trims`. What both return is the stream of all samples from some sample on: the first within 63 us
behind `t`, no dropped one as much as 1 us behind `t`. Both drop as many samples of a frame.
-/

namespace VlcWhisper.Worker

/-! ## The decoder for Media Foundation -/

/-- A sample of the source reader: its `llTimestamp`, in units of 100 ns, and the audio samples in its buffer. -/
structure MfSample (α : Type) where
  timestamp : Int
  samples : List α

/-- What `ReadSample` gives next: a sample, none yet, the end, or an error. -/
inductive MfAnswer (α : Type) where
  | sample (s : MfSample α)
  | again
  | eof
  | error

/-- `vw_source_decoder`; there is memory for what is left over. -/
structure MfDecoder (α : Type) where
  currentPtsUs : Int
  seekTargetUs : Int
  leftover : List α
  eofReached : Bool

namespace MfDecoder

variable {α : Type}

/-- `vw_source_decoder_seek`, where the reader can seek. -/
def seek (targetPtsUs : Int) (_ : MfDecoder α) : MfDecoder α := ⟨targetPtsUs, targetPtsUs, [], false⟩

/-- What lies before the target of a seek is dropped; the time of the rest comes with it. -/
def trim (seekTargetUs samplePtsUs : Int) (samples : List α) : List α × Int :=
  if samplePtsUs < seekTargetUs then
    let trimmed := min (skipFor (seekTargetUs - samplePtsUs).toNat) samples.length
    (samples.drop trimmed, samplePtsUs + (trimmed * 125 / 2 : Nat))
  else (samples, samplePtsUs)

/-- The body of the loop, for a sample. -/
def processSample (maxSamples : Nat) (s : MfSample α) (out : List α) (ptsUs : Option Int) (d : MfDecoder α) :
    List α × Option Int × MfDecoder α :=
  if s.samples.isEmpty then (out, ptsUs, d)
  else
    let (samples, samplePtsUs) := trim d.seekTargetUs (s.timestamp.tdiv 10) s.samples
    let first := out.isEmpty && !samples.isEmpty
    let ptsUs := if first then some samplePtsUs else ptsUs
    let d := if first then { d with currentPtsUs := samplePtsUs } else d
    let needed := maxSamples - out.length
    if samples.length ≤ needed then
      (out ++ samples, ptsUs, { d with currentPtsUs := d.currentPtsUs + (samples.length * 1000000 / 16000 : Nat) })
    else
      (out ++ samples.take needed, ptsUs,
        { d with currentPtsUs := d.currentPtsUs + (needed * 1000000 / 16000 : Nat), leftover := samples.drop needed })

/-- The loop of `vw_source_decoder_read_s16le`. -/
def readLoop (maxSamples : Nat) : List (MfAnswer α) → List α → Option Int → MfDecoder α →
    ReadResult α × MfDecoder α × List (MfAnswer α)
  | [], out, ptsUs, d => (⟨SourceDecoder.statusOf out .again, out, ptsUs⟩, d, [])
  | answer :: answers, out, ptsUs, d =>
    if maxSamples ≤ out.length then (⟨.ok, out, ptsUs⟩, d, answer :: answers)
    else match answer with
      | .sample s =>
        let (out, ptsUs, d) := d.processSample maxSamples s out ptsUs
        readLoop maxSamples answers out ptsUs d
      | .again => (⟨SourceDecoder.statusOf out .again, out, ptsUs⟩, d, answers)
      | .eof => (⟨SourceDecoder.statusOf out .eof, out, ptsUs⟩, { d with eofReached := true }, answers)
      | .error => (⟨.error, [], ptsUs⟩, d, answers)

/-- `vw_source_decoder_read_s16le`. -/
def read (maxSamples : Nat) (answers : List (MfAnswer α)) (d : MfDecoder α) :
    ReadResult α × MfDecoder α × List (MfAnswer α) :=
  if maxSamples = 0 then (⟨.error, [], none⟩, d, answers)
  else if d.eofReached then (⟨.eof, [], none⟩, d, answers)
  else if d.leftover.isEmpty then readLoop maxSamples answers [] none d
  else
    let out := d.leftover.take maxSamples
    let ptsUs := some d.currentPtsUs
    let d := { d with
      currentPtsUs := d.currentPtsUs + (out.length * 1000000 / 16000 : Nat)
      leftover := d.leftover.drop maxSamples }
    if d.leftover.isEmpty then readLoop maxSamples answers out ptsUs d
    else (⟨.ok, out, ptsUs⟩, d, answers)

/-- What reads of these sizes give. -/
def run : MfDecoder α → List (MfAnswer α) → List Nat → List (ReadResult α)
  | _, _, [] => []
  | d, answers, maxSamples :: sizes =>
    let (result, d, answers) := d.read maxSamples answers
    result :: run d answers sizes

end MfDecoder

/-! ## Abut frames -/

variable {α : Type}

/-- Some samples with the timestamp of the first. -/
abbrev Stamped (α : Type) : Type := Int × List α

/-- The frames follow each other from an exact time on, and carry theirs rounded down. -/
def Abut : ℚ → List (Stamped α) → Prop
  | _, [] => True
  | start, (ptsUs, samples) :: frames => ptsUs = ⌊start⌋ ∧ Abut (start + 125 / 2 * samples.length) frames

/-- How many samples of a frame a seek to `t` drops. -/
def trimCount (t ptsUs : Int) (length : Nat) : Nat := if ptsUs < t then min (skipFor (t - ptsUs).toNat) length else 0

/-- What it keeps of the frame. -/
def kept (t : Int) (frame : Stamped α) : List α := frame.2.drop (trimCount t frame.1 frame.2.length)

/-- What should come of samples from `start` on: the first sample that is kept lies within 63 us behind `t`, and none
is lost that lies as much as 1 us behind `t`. -/
structure StartsAt (t : Int) (start : ℚ) (total K : Nat) : Prop where
  le_total : K ≤ total
  lost : ∀ i < K, start + 125 / 2 * i < t + 1
  first : K < total → t ≤ start + 125 / 2 * K ∧ start + 125 / 2 * K < t + 63

/-- The samples of some frames. -/
def allSamples (frames : List (Stamped α)) : List α := frames.flatMap Prod.snd

theorem trimCount_of_le {t ptsUs : Int} (h : t ≤ ptsUs) (length : Nat) : trimCount t ptsUs length = 0 :=
  if_neg (by omega)

theorem kept_of_le {t : Int} {frame : Stamped α} (h : t ≤ frame.1) : kept t frame = frame.2 := by
  rw [kept, trimCount_of_le h, List.drop_zero]

theorem flatMap_kept_of_le {t : Int} {start : ℚ} {frames : List (Stamped α)} (h : Abut start frames)
    (ht : (t : ℚ) ≤ start) : frames.flatMap (kept t) = allSamples frames := by
  induction frames generalizing start with
  | nil => rfl
  | cons frame frames ih =>
    obtain ⟨ptsUs, samples⟩ := frame
    obtain ⟨rfl, hrest⟩ := h
    have hlength : (0 : ℚ) ≤ samples.length := Nat.cast_nonneg _
    have hlater := ih hrest (by linarith)
    have hkept : kept t (⌊start⌋, samples) = samples := kept_of_le (Int.le_floor.mpr ht)
    rw [List.flatMap_cons, hlater, hkept]
    rfl

/-- What is kept of contiguous frames is their stream from the right sample on. -/
theorem flatMap_kept {t : Int} {start : ℚ} {frames : List (Stamped α)} (h : Abut start frames) (ht : start < t) :
    ∃ K, StartsAt t start (allSamples frames).length K ∧ frames.flatMap (kept t) = (allSamples frames).drop K := by
  induction frames generalizing start with
  | nil => exact ⟨0, ⟨le_rfl, nofun, nofun⟩, rfl⟩
  | cons frame frames ih =>
    obtain ⟨ptsUs, samples⟩ := frame
    obtain ⟨rfl, hrest⟩ := h
    have hfloor := Int.floor_le start
    have hceil := Int.lt_floor_add_one start
    have hbefore : ⌊start⌋ < t := Int.floor_lt.mpr ht
    have hskip := SourceDecoder.skipFor_spec (t - ⌊start⌋).toNat
    have hall : allSamples ((⌊start⌋, samples) :: frames) = samples ++ allSamples frames := rfl
    have hcount : trimCount t ⌊start⌋ samples.length = min (skipFor (t - ⌊start⌋).toNat) samples.length :=
      if_pos hbefore
    generalize skipFor (t - ⌊start⌋).toNat = skip at hskip hcount
    -- the samples up to the last that is skipped lie before the target by the frame's timestamp
    have hlost (i : Nat) (hi : i < skip) : start + 125 / 2 * i < t + 1 := by
      have hnat : 125 * (i : Int) + 1 ≤ 2 * (t - ⌊start⌋) := by omega
      have hrat : 125 * (i : ℚ) + 1 ≤ 2 * (t - ⌊start⌋) := by exact_mod_cast hnat
      linarith
    have hlow : 2 * ((t : ℚ) - ⌊start⌋) ≤ 125 * skip := by
      have hint : 2 * (t - ⌊start⌋) ≤ 125 * (skip : Int) := by omega
      exact_mod_cast hint
    have hhigh : 125 * (skip : ℚ) ≤ 2 * (t - ⌊start⌋) + 124 := by
      have hint : 125 * (skip : Int) ≤ 2 * (t - ⌊start⌋) + 124 := by omega
      exact_mod_cast hint
    rw [hall, List.flatMap_cons, kept, hcount, List.length_append]
    by_cases hfits : skip ≤ samples.length
    · have hlength : (skip : ℚ) ≤ samples.length := by exact_mod_cast hfits
      rw [min_eq_left hfits, flatMap_kept_of_le hrest (by linarith)]
      refine ⟨skip, ⟨by omega, hlost, fun _ => ⟨by linarith, by linarith⟩⟩, ?_⟩
      rw [List.drop_append_of_le_length hfits]
    · rw [not_le] at hfits
      rw [min_eq_right hfits.le, List.drop_of_length_le le_rfl, List.nil_append]
      by_cases hlater : start + 125 / 2 * samples.length < t
      · obtain ⟨K, hstarts, hdrop⟩ := ih hrest hlater
        have htime (i : Nat) :
            start + 125 / 2 * samples.length + 125 / 2 * i = start + 125 / 2 * (samples.length + i : Nat) := by
          push_cast
          ring
        refine ⟨samples.length + K, ⟨by have := hstarts.le_total; omega, ?_, ?_⟩, ?_⟩
        · intro i hi
          by_cases hin : i < samples.length
          · exact hlost i (by omega)
          · have hi' := hstarts.lost (i - samples.length) (by omega)
            rw [htime, Nat.add_sub_cancel' (by omega)] at hi'
            exact hi'
        · intro hK
          have hfirst := hstarts.first (by omega)
          rw [htime] at hfirst
          exact hfirst
        · rw [hdrop, ← List.drop_drop, List.drop_left]
      · rw [not_lt] at hlater
        have hend := hlost samples.length hfits
        rw [flatMap_kept_of_le hrest hlater]
        refine ⟨samples.length, ⟨by omega, fun i hi => hlost i (by omega), fun _ => ⟨hlater, by linarith⟩⟩, ?_⟩
        rw [List.drop_left]

/-! ## Filling a buffer -/

/-- What is copied to a buffer of `maxSamples` and what is left over, which is something only once the buffer is
full. -/
structure Filled (maxSamples : Nat) (out leftover : List α) : Prop where
  short : out.length ≤ maxSamples
  full : leftover ≠ [] → out.length = maxSamples

namespace Filled
variable {maxSamples : Nat} {out leftover : List α}

theorem take_stream (h : Filled maxSamples out leftover) : (out ++ leftover).take maxSamples = out := by
  by_cases hnil : leftover = []
  · rw [hnil, List.append_nil, List.take_of_length_le h.short]
  · rw [← h.full hnil, List.take_left]

theorem drop_stream (h : Filled maxSamples out leftover) : (out ++ leftover).drop maxSamples = leftover := by
  by_cases hnil : leftover = []
  · rw [hnil, List.append_nil, List.drop_of_length_le h.short]
  · rw [← h.full hnil, List.drop_left]

theorem nil_of_room (h : Filled maxSamples out leftover) (hroom : ¬ maxSamples ≤ out.length) : leftover = [] := by
  by_contra hne
  exact hroom (h.full hne).ge

theorem copy (hout : out.length ≤ maxSamples) (samples : List α) :
    Filled maxSamples (out ++ samples.take (maxSamples - out.length)) (samples.drop (maxSamples - out.length)) := by
  constructor
  · rw [List.length_append, List.length_take]
    omega
  · intro hne
    have hlong := List.length_pos_of_ne_nil hne
    rw [List.length_drop] at hlong
    rw [List.length_append, List.length_take]
    omega

end Filled

theorem copy_stream (n : Nat) (out samples rest : List α) :
    out ++ samples.take n ++ (samples.drop n ++ rest) = out ++ (samples ++ rest) := by
  rw [List.append_assoc, ← List.append_assoc (samples.take n), List.take_append_drop]

/-! ## Reads of FFmpeg's decoder -/

namespace SourceDecoder

variable {t : Int} {start : ℚ} {maxSamples : Nat} {d : SourceDecoder α} {out : List α} {ptsUs : Option Int}

/-- The target is set, or what comes does not begin before it. -/
def ArmedFor (t : Int) (start : ℚ) (d : SourceDecoder α) : Prop :=
  d.seekTargetUs = some t ∨ (d.seekTargetUs = none ∧ (t : ℚ) ≤ start)

/-- A frame with its timestamp. -/
def stampOf (f : DecodedFrame α) : Stamped α := (f.ptsUs.getD 0, f.samples)

/-- Frames with timestamps that follow each other. -/
def Follow (start : ℚ) (frames : List (DecodedFrame α)) : Prop :=
  (∀ f ∈ frames, f.ptsUs.isSome = true) ∧ Abut start (frames.map stampOf)

/-- What a seek keeps of the frames. -/
def keptOf (t : Int) (frames : List (DecodedFrame α)) : List α := (frames.map stampOf).flatMap (kept t)

/-- Of the next frame as much is dropped as its timestamp tells, and what comes after it finds the target set, or
does not begin before it. -/
theorem trim_armed {samples : List α} (hd : ArmedFor t start d) (hcurrent : d.currentPtsUs = ⌊start⌋) :
    (d.trim samples).1 = kept t (⌊start⌋, samples) ∧ ArmedFor t (start + 125 / 2 * samples.length) (d.trim samples).2 ∧
      (d.trim samples).2.leftover = d.leftover ∧ (d.trim samples).2.eofReached = d.eofReached := by
  have hfloor := Int.floor_le start
  have hlength : (0 : ℚ) ≤ samples.length := Nat.cast_nonneg _
  rcases hd with htarget | ⟨htarget, hle⟩
  · unfold trim
    rw [htarget]
    dsimp only
    by_cases hbefore : d.currentPtsUs < t
    · rw [if_pos hbefore]
      rw [hcurrent] at hbefore ⊢
      refine ⟨?_, ?_, rfl, rfl⟩
      · rw [kept, trimCount, if_pos hbefore]
      · generalize htrimmed : min (skipFor (t - ⌊start⌋).toNat) samples.length = trimmed
        have hle : (trimmed : ℚ) ≤ samples.length := by exact_mod_cast (by omega : trimmed ≤ samples.length)
        by_cases hreached : t ≤ ⌊start⌋ + (trimmed * 125 / 2 : Nat)
        · refine .inr ⟨if_pos hreached, ?_⟩
          have hint : 2 * t ≤ 2 * ⌊start⌋ + 125 * (trimmed : Int) := by omega
          have hrat : 2 * (t : ℚ) ≤ 2 * ⌊start⌋ + 125 * (trimmed : ℚ) := by exact_mod_cast hint
          linarith
        · exact .inl (if_neg hreached)
    · rw [if_neg hbefore]
      rw [hcurrent] at hbefore
      refine ⟨?_, .inl htarget, rfl, rfl⟩
      rw [kept, trimCount, if_neg hbefore]
      rfl
  · unfold trim
    rw [htarget]
    have hnot : ¬ ⌊start⌋ < t := not_lt.mpr (Int.le_floor.mpr hle)
    refine ⟨?_, .inr ⟨htarget, by linarith⟩, rfl, rfl⟩
    rw [kept, trimCount, if_neg hnot]
    rfl

theorem processFrame_armed {f : DecodedFrame α} (hd : ArmedFor t start d) (hnil : d.leftover = [])
    (hlive : d.eofReached = false) (hpts : f.ptsUs = some ⌊start⌋) :
    let r := d.processFrame maxSamples f out ptsUs
    r.1 = out ++ (kept t (⌊start⌋, f.samples)).take (maxSamples - out.length) ∧
      r.2.2.leftover = (kept t (⌊start⌋, f.samples)).drop (maxSamples - out.length) ∧
      ArmedFor t (start + 125 / 2 * f.samples.length) r.2.2 ∧ r.2.2.eofReached = false := by
  unfold processFrame
  simp only [hpts, Option.getD_some]
  by_cases hempty : f.samples = []
  · have hkept : kept t (⌊start⌋, f.samples) = [] := by rw [kept, hempty, List.drop_nil]
    rw [if_pos (by simp [hempty]), hkept, List.take_nil, List.drop_nil, List.append_nil]
    refine ⟨rfl, hnil, ?_, hlive⟩
    rw [hempty, List.length_nil, Nat.cast_zero, mul_zero, add_zero]
    exact hd
  · rw [if_neg (by simp [hempty])]
    dsimp only
    generalize hd' : ({ d with currentPtsUs := ⌊start⌋ } : SourceDecoder α) = d'
    have hcurrent : d'.currentPtsUs = ⌊start⌋ := by rw [← hd']
    have harmed : ArmedFor t start d' := by
      rw [← hd']
      exact hd
    have hstartNil : d'.leftover = [] := by rw [← hd', hnil]
    have hstartLive : d'.eofReached = false := by rw [← hd', hlive]
    obtain ⟨hkept, hnext, hleftover, heof⟩ := @trim_armed _ _ _ _ f.samples harmed hcurrent
    obtain ⟨hout, -, hseek, hend, hleft⟩ := copySamples_eq maxSamples f.samples out d' f.length_le
    rw [hkept] at hout hleft
    refine ⟨hout, ?_, ?_, by rw [hend, heof, hstartLive]⟩
    · rw [hleft, hleftover, hstartNil]
      split
      · rfl
      · rename_i hshort
        rw [List.drop_of_length_le (by omega)]
    · unfold ArmedFor
      rw [hseek]
      exact hnext

/-- What is still to be read: the frames follow each other, and the decoder knows the target as long as they begin
before it. -/
structure Ahead (t : Int) (frames : List (DecodedFrame α)) (d : SourceDecoder α) : Prop where
  follow : ∃ start, Follow start frames ∧ ArmedFor t start d
  live : d.eofReached = false

/-- What a read gives of a stream of samples, and what it leaves of it. -/
structure Serves (t : Int) (maxSamples : Nat) (stream : List α)
    (r : ReadResult α × SourceDecoder α × List (CodecAnswer α)) : Prop where
  given : r.1.samples = stream.take maxSamples
  left : ∃ frames, r.2.2 = frames.map .frame ∧ Ahead t frames r.2.1 ∧
    r.2.1.leftover ++ keptOf t frames = stream.drop maxSamples

theorem readLoop_serves {frames : List (DecodedFrame α)} (h : Ahead t frames d)
    (hfilled : Filled maxSamples out d.leftover) :
    Serves t maxSamples (out ++ (d.leftover ++ keptOf t frames))
      (readLoop maxSamples (frames.map .frame) out ptsUs d) := by
  induction frames generalizing out ptsUs d with
  | nil =>
    have hkept : keptOf t ([] : List (DecodedFrame α)) = [] := rfl
    rw [hkept, List.append_nil]
    refine ⟨hfilled.take_stream.symm, [], rfl, h, ?_⟩
    rw [hkept, List.append_nil]
    exact hfilled.drop_stream.symm
  | cons f frames ih =>
    rw [List.map_cons]
    unfold readLoop
    by_cases hle : maxSamples ≤ out.length
    · have heq : out.length = maxSamples := le_antisymm hfilled.short hle
      rw [if_pos hle, ← heq]
      exact ⟨List.take_left.symm, f :: frames, rfl, h, List.drop_left.symm⟩
    · rw [if_neg hle]
      have hnil := hfilled.nil_of_room hle
      obtain ⟨⟨start, ⟨hsome, hcontiguous⟩, harmed⟩, hlive⟩ := h
      obtain ⟨ptsUs', hpts⟩ := Option.isSome_iff_exists.mp (hsome f List.mem_cons_self)
      rw [List.map_cons] at hcontiguous
      obtain ⟨hfloor, hcontiguous⟩ := hcontiguous
      rw [hpts, Option.getD_some] at hfloor
      subst hfloor
      obtain ⟨hcopied, hleft, hnext, hnextLive⟩ := @processFrame_armed _ _ _ maxSamples _ out ptsUs _
        harmed hnil hlive hpts
      have hkept : keptOf t (f :: frames) = kept t (⌊start⌋, f.samples) ++ keptOf t frames := by
        rw [keptOf, List.map_cons, List.flatMap_cons, stampOf, hpts, Option.getD_some]
        rfl
      have hahead : Ahead t frames (d.processFrame maxSamples f out ptsUs).2.2 :=
        ⟨⟨_, ⟨fun g hg => hsome g (List.mem_cons_of_mem _ hg), hcontiguous⟩, hnext⟩, hnextLive⟩
      have hserves := @ih _ _ (d.processFrame maxSamples f out ptsUs).2.1 hahead
        (by rw [hleft]; exact Filled.copy hfilled.short _)
      rw [hleft, copy_stream, ← hkept, ← hcopied] at hserves
      rw [hnil, List.nil_append]
      exact hserves

/-- A read gives the next samples of the stream, and leaves the others. -/
theorem read_serves {frames : List (DecodedFrame α)} (h : Ahead t frames d) (maxSamples : Nat) :
    Serves t maxSamples (d.leftover ++ keptOf t frames) (d.read maxSamples (frames.map .frame)) := by
  unfold read
  by_cases hmax : maxSamples = 0
  · rw [if_pos hmax, hmax]
    exact ⟨rfl, frames, rfl, h, rfl⟩
  rw [if_neg hmax, if_neg (by simp [h.live])]
  by_cases hempty : d.leftover = []
  · rw [if_pos (by simp [hempty])]
    exact @readLoop_serves _ _ _ _ [] none _ h ⟨Nat.zero_le _, fun hne => absurd hempty hne⟩
  rw [if_neg (by simp [hempty])]
  dsimp only
  have hahead (currentPtsUs : Int) (leftover : List α) :
      Ahead t frames { d with currentPtsUs := currentPtsUs, leftover := leftover } := ⟨h.follow, h.live⟩
  by_cases hshort : d.leftover.length ≤ maxSamples
  · rw [if_pos (by simp [hshort]), List.drop_of_length_le hshort, List.take_of_length_le hshort]
    exact readLoop_serves (hahead _ []) ⟨hshort, fun hne => absurd rfl hne⟩
  · rw [not_le] at hshort
    rw [if_neg (by simp [hshort])]
    refine ⟨(List.take_append_of_le_length hshort.le).symm, frames, rfl, hahead _ _, ?_⟩
    rw [List.drop_append_of_le_length hshort.le]

theorem run_serves {frames : List (DecodedFrame α)} (h : Ahead t frames d) (sizes : List Nat) :
    (d.run (frames.map .frame) (sizes.map .read)).flatMap (·.samples) =
      (d.leftover ++ keptOf t frames).take sizes.sum := by
  induction sizes generalizing d frames with
  | nil => rfl
  | cons maxSamples sizes ih =>
    obtain ⟨hgiven, others, hothers, hahead, hleft⟩ := read_serves h maxSamples
    rw [List.map_cons, run, List.flatMap_cons, hothers, ih hahead, hleft, hgiven, List.sum_cons, List.take_add]

end SourceDecoder

/-! ## Reads of the other decoder -/

namespace MfDecoder

variable {t : Int} {start : ℚ} {maxSamples : Nat} {d : MfDecoder α} {out : List α} {ptsUs : Option Int}

/-- A sample with its time in microseconds. -/
def stampOf (s : MfSample α) : Stamped α := (s.timestamp.tdiv 10, s.samples)

/-- What a seek keeps of the samples. -/
def keptOf (t : Int) (samples : List (MfSample α)) : List α := (samples.map stampOf).flatMap (kept t)

theorem trim_eq (t samplePtsUs : Int) (samples : List α) :
    (trim t samplePtsUs samples).1 = kept t (samplePtsUs, samples) := by
  unfold trim
  by_cases hbefore : samplePtsUs < t
  · rw [if_pos hbefore, kept, trimCount, if_pos hbefore]
  · rw [if_neg hbefore, kept, trimCount, if_neg hbefore]
    rfl

/-- A sample is copied behind what is there, and what is left over follows on it. -/
theorem processSample_spec {s : MfSample α} (htarget : d.seekTargetUs = t) (hnil : d.leftover = [])
    (hlive : d.eofReached = false) : let r := d.processSample maxSamples s out ptsUs
    r.1 = out ++ (kept t (stampOf s)).take (maxSamples - out.length) ∧
      r.2.2.leftover = (kept t (stampOf s)).drop (maxSamples - out.length) ∧ r.2.2.seekTargetUs = t ∧
      r.2.2.eofReached = false := by
  unfold processSample
  by_cases hempty : s.samples = []
  · have hkept : kept t (stampOf s) = [] := by rw [kept, stampOf, hempty, List.drop_nil]
    rw [if_pos (by simp [hempty]), hkept, List.take_nil, List.drop_nil, List.append_nil]
    exact ⟨rfl, hnil, htarget, hlive⟩
  · have hkept : (trim t (s.timestamp.tdiv 10) s.samples).1 = kept t (stampOf s) := trim_eq _ _ _
    rw [if_neg (by simp [hempty]), htarget, ← hkept]
    generalize trim t (s.timestamp.tdiv 10) s.samples = r
    obtain ⟨samples, samplePtsUs⟩ := r
    dsimp only
    generalize (out.isEmpty && !samples.isEmpty) = first
    by_cases hfits : samples.length ≤ maxSamples - out.length
    · rw [if_pos hfits, List.take_of_length_le hfits, List.drop_of_length_le hfits]
      cases first with
      | true => exact ⟨rfl, hnil, rfl, hlive⟩
      | false => exact ⟨rfl, hnil, htarget, hlive⟩
    · rw [if_neg hfits]
      cases first with
      | true => exact ⟨rfl, rfl, rfl, hlive⟩
      | false => exact ⟨rfl, rfl, htarget, hlive⟩

/-- A decoder that knows the target of a seek. -/
structure Armed (t : Int) (d : MfDecoder α) : Prop where
  target : d.seekTargetUs = t
  live : d.eofReached = false

/-- What a read gives of a stream of samples, and what it leaves of it. -/
structure Serves (t : Int) (maxSamples : Nat) (stream : List α) (r : ReadResult α × MfDecoder α × List (MfAnswer α)) :
    Prop where
  given : r.1.samples = stream.take maxSamples
  left : ∃ samples, r.2.2 = samples.map .sample ∧ Armed t r.2.1 ∧
    r.2.1.leftover ++ keptOf t samples = stream.drop maxSamples

theorem readLoop_serves {samples : List (MfSample α)} (h : Armed t d) (hfilled : Filled maxSamples out d.leftover) :
    Serves t maxSamples (out ++ (d.leftover ++ keptOf t samples))
      (readLoop maxSamples (samples.map .sample) out ptsUs d) := by
  induction samples generalizing out ptsUs d with
  | nil =>
    have hkept : keptOf t ([] : List (MfSample α)) = [] := rfl
    rw [hkept, List.append_nil]
    refine ⟨hfilled.take_stream.symm, [], rfl, h, ?_⟩
    rw [hkept, List.append_nil]
    exact hfilled.drop_stream.symm
  | cons s samples ih =>
    rw [List.map_cons]
    unfold readLoop
    by_cases hle : maxSamples ≤ out.length
    · have heq : out.length = maxSamples := le_antisymm hfilled.short hle
      rw [if_pos hle, ← heq]
      exact ⟨List.take_left.symm, s :: samples, rfl, h, List.drop_left.symm⟩
    · rw [if_neg hle]
      have hnil := hfilled.nil_of_room hle
      obtain ⟨hcopied, hleft, htarget, hlive⟩ := @processSample_spec _ _ maxSamples _ out ptsUs s
        h.target hnil h.live
      have hkept : keptOf t (s :: samples) = kept t (stampOf s) ++ keptOf t samples := rfl
      have hserves := @ih _ _ (d.processSample maxSamples s out ptsUs).2.1 ⟨htarget, hlive⟩
        (by rw [hleft]; exact Filled.copy hfilled.short _)
      rw [hleft, copy_stream, ← hkept, ← hcopied] at hserves
      rw [hnil, List.nil_append]
      exact hserves

theorem read_serves {samples : List (MfSample α)} (h : Armed t d) (maxSamples : Nat) :
    Serves t maxSamples (d.leftover ++ keptOf t samples) (d.read maxSamples (samples.map .sample)) := by
  unfold read
  by_cases hmax : maxSamples = 0
  · rw [if_pos hmax, hmax]
    exact ⟨rfl, samples, rfl, h, rfl⟩
  rw [if_neg hmax, if_neg (by simp [h.live])]
  by_cases hempty : d.leftover = []
  · rw [if_pos (by simp [hempty])]
    exact @readLoop_serves _ _ _ _ [] none _ h ⟨Nat.zero_le _, fun hne => absurd hempty hne⟩
  rw [if_neg (by simp [hempty])]
  dsimp only
  have harmed (currentPtsUs : Int) (leftover : List α) :
      Armed t { d with currentPtsUs := currentPtsUs, leftover := leftover } := ⟨h.target, h.live⟩
  by_cases hshort : d.leftover.length ≤ maxSamples
  · rw [if_pos (by simp [hshort]), List.drop_of_length_le hshort, List.take_of_length_le hshort]
    exact readLoop_serves (harmed _ []) ⟨hshort, fun hne => absurd rfl hne⟩
  · rw [not_le] at hshort
    rw [if_neg (by simp [hshort])]
    refine ⟨(List.take_append_of_le_length hshort.le).symm, samples, rfl, harmed _ _, ?_⟩
    rw [List.drop_append_of_le_length hshort.le]

theorem run_serves {samples : List (MfSample α)} (h : Armed t d) (sizes : List Nat) :
    (d.run (samples.map .sample) sizes).flatMap (·.samples) = (d.leftover ++ keptOf t samples).take sizes.sum := by
  induction sizes generalizing d samples with
  | nil => rfl
  | cons maxSamples sizes ih =>
    obtain ⟨hgiven, others, hothers, harmed, hleft⟩ := @read_serves _ _ _ samples h maxSamples
    rw [run, List.flatMap_cons, hothers, ih harmed, hleft, hgiven, List.sum_cons, List.take_add]

end MfDecoder

/-! ## Both decoders -/

theorem SourceDecoder.ahead_seek {t : Int} {start : ℚ} {frames : List (DecodedFrame α)}
    (h : SourceDecoder.Follow start frames)
    (d : SourceDecoder α) : SourceDecoder.Ahead t frames (d.seek t) := ⟨⟨start, h, .inl rfl⟩, rfl⟩

/-- **After a seek both decoders return the stream from the right sample on, and drop as much of a frame.** FFmpeg's
forgets the target once nothing more lies before it. -/
theorem seek_trims (t : Int) (start : ℚ) (hbefore : start < t) :
    (∀ (d : SourceDecoder α) (frames : List (DecodedFrame α)), SourceDecoder.Follow start frames →
      ∃ K, StartsAt t start (frames.flatMap (·.samples)).length K ∧ ∀ sizes : List Nat,
        ((d.seek t).run (frames.map .frame) (sizes.map .read)).flatMap (·.samples) =
          ((frames.flatMap (·.samples)).drop K).take sizes.sum) ∧
    (∀ (d : MfDecoder α) (samples : List (MfSample α)), Abut start (samples.map MfDecoder.stampOf) →
      ∃ K, StartsAt t start (samples.flatMap (·.samples)).length K ∧ ∀ sizes : List Nat,
        ((d.seek t).run (samples.map .sample) sizes).flatMap (·.samples) =
          ((samples.flatMap (·.samples)).drop K).take sizes.sum) ∧
    ∀ (d : SourceDecoder α) (samples : List α), d.seekTargetUs = some t ∨ d.seekTargetUs = none ∧ t ≤ d.currentPtsUs →
      (d.trim samples).1 = (MfDecoder.trim t d.currentPtsUs samples).1 := by
  refine ⟨?_, ?_, ?_⟩
  · intro d frames hfollow
    have hall : allSamples (frames.map SourceDecoder.stampOf) = frames.flatMap (·.samples) := by
      rw [allSamples, List.flatMap_map]
      rfl
    obtain ⟨K, hstarts, hkept⟩ := flatMap_kept hfollow.2 hbefore
    rw [hall] at hstarts hkept
    refine ⟨K, hstarts, fun sizes => ?_⟩
    rw [SourceDecoder.run_serves (SourceDecoder.ahead_seek hfollow d), SourceDecoder.keptOf, hkept]
    rfl
  · intro d samples hcontiguous
    have hall : allSamples (samples.map MfDecoder.stampOf) = samples.flatMap (·.samples) := by
      rw [allSamples, List.flatMap_map]
      rfl
    obtain ⟨K, hstarts, hkept⟩ := flatMap_kept hcontiguous hbefore
    rw [hall] at hstarts hkept
    refine ⟨K, hstarts, fun sizes => ?_⟩
    rw [MfDecoder.run_serves (t := t) ⟨rfl, rfl⟩, MfDecoder.keptOf, hkept]
    rfl
  · rintro d samples (htarget | ⟨hnone, hpast⟩)
    · unfold SourceDecoder.trim MfDecoder.trim
      rw [htarget]
      dsimp only
      split <;> rfl
    · unfold SourceDecoder.trim MfDecoder.trim
      rw [hnone, if_neg (not_lt.mpr hpast)]

/-- Four samples from 62.5 us on, with 62 us for their timestamp. -/
def halfFrame : DecodedFrame Nat := ⟨some 62, [0, 1, 2, 3], by decide⟩

theorem halfFrame_follow : SourceDecoder.Follow (125 / 2) [halfFrame] := by
  have hfloor : ⌊(125 / 2 : ℚ)⌋ = 62 := Int.floor_eq_iff.mpr ⟨by norm_num, by norm_num⟩
  constructor
  · intro f hf
    obtain rfl := List.mem_singleton.mp hf
    rfl
  · exact ⟨hfloor.symm, trivial⟩

theorem seek_trims_half : ∃ K, StartsAt 125 (125 / 2) 4 K ∧ ∀ sizes : List Nat,
    ((SourceDecoder.opened.seek 125).run [.frame halfFrame] (sizes.map .read)).flatMap (·.samples) =
      ([0, 1, 2, 3].drop K).take sizes.sum :=
  (seek_trims 125 (125 / 2) (by norm_num)).1 SourceDecoder.opened [halfFrame] halfFrame_follow

/-- The second sample of that frame lies at 125 us, and a seek to there drops it. -/
theorem not_seek_trims : ¬ ∀ (t : Int) (start : ℚ) (frames : List (DecodedFrame Nat)), start < t →
    (t : ℚ) < start + 125 / 2 * (frames.flatMap (·.samples)).length → SourceDecoder.Follow start frames →
      ∃ K : Nat, (∀ i : Nat, i < K → start + 125 / 2 * i < t) ∧ ∀ sizes : List Nat,
        ((SourceDecoder.opened.seek t).run (frames.map .frame) (sizes.map .read)).flatMap (·.samples) =
          ((frames.flatMap (·.samples)).drop K).take sizes.sum := by
  intro h
  have hend : ((125 : Int) : ℚ) < 125 / 2 + 125 / 2 * ([halfFrame].flatMap (·.samples)).length := by
    norm_num [halfFrame]
  obtain ⟨K, hlost, hrun⟩ := h 125 (125 / 2) [halfFrame] (by norm_num) hend halfFrame_follow
  have hdrop : [2, 3] = ([0, 1, 2, 3].drop K).take 9 := hrun [9]
  have hK : 2 ≤ K := by
    by_contra hlt
    have hsmall : K = 0 ∨ K = 1 := by omega
    rcases hsmall with rfl | rfl <;> exact absurd hdrop (by decide)
  have hsecond := hlost 1 (by omega)
  norm_num at hsecond

end VlcWhisper.Worker
