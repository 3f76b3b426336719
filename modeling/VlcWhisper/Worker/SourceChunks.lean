import Mathlib.Algebra.Order.Floor.Ring
import Mathlib.Data.Rat.Floor
import VlcWhisper.Worker.SourceDecoder

/-!
# The chunks of a source (`vw_source_decoder_read_s16le`)

What the reads of a source give where nothing was sought: its samples, in order and without a gap, each chunk with the
time that the decoder has for its first sample. That is the time of the frame which the sample is of, moved on by the
reads that were served from what is left of the frame.

Main results: `read_plays`, and `read_within` on how far the times are off where the frames carry a container's ticks.
-/

namespace VlcWhisper.Worker

variable {α : Type}

/-! ## The next chunk -/

/-- The samples that are to come. -/
def decodedSamples : List (CodecAnswer α) → List α
  | [] => []
  | .frame f :: answers => f.samples ++ decodedSamples answers
  | _ :: answers => decodedSamples answers

/-- The codec gives frames, and at last perhaps the end. -/
def Playable : List (CodecAnswer α) → Prop
  | [] => True
  | .frame _ :: answers | .again :: answers => Playable answers
  | .eof :: answers => answers = []
  | .error _ :: _ => False

/-- The time of the next frame with samples; a frame without a time has the one that is set. -/
def frameTime (currentPtsUs : Int) : List (CodecAnswer α) → Option Int
  | .frame f :: answers =>
    if f.samples.isEmpty then frameTime (f.ptsUs.getD currentPtsUs) answers else some (f.ptsUs.getD currentPtsUs)
  | _ => none

namespace SourceDecoder

/-- The time of the next sample, if the next read gives one. -/
def nextPtsUs (answers : List (CodecAnswer α)) (d : SourceDecoder α) : Option Int :=
  if d.leftover.isEmpty then frameTime d.currentPtsUs answers else some d.currentPtsUs

/-- Nothing is sought, and nothing is left at the end. -/
structure Plays (answers : List (CodecAnswer α)) (d : SourceDecoder α) : Prop where
  straight : d.seekTargetUs = none
  playable : Playable answers
  ended : d.eofReached = true → d.leftover = [] ∧ answers = []

/-- A read gives samples with the time that is expected, or none where none is expected. -/
structure Gives (expected : Option Int) (r : ReadResult α × SourceDecoder α × List (CodecAnswer α)) : Prop where
  plays : r.2.1.Plays r.2.2
  outcome : (∃ p, expected = some p ∧ r.1.ptsUs = some p ∧ r.1.status = .ok ∧ r.1.samples ≠ []) ∨
    (expected = none ∧ r.1.samples = [] ∧
      (r.1.status = .again ∨ r.1.status = .eof ∧ r.2.1.leftover = [] ∧ r.2.2 = []))

variable {maxSamples : Nat} {answers : List (CodecAnswer α)} {out : List α} {ptsUs : Option Int} {d : SourceDecoder α}

theorem processFrame_plays (hstraight : d.seekTargetUs = none) (hnil : d.leftover = []) (f : DecodedFrame α) :
    let now := f.ptsUs.getD d.currentPtsUs
    let r := d.processFrame maxSamples f out ptsUs
    r.1 = out ++ f.samples.take (maxSamples - out.length) ∧
      r.2.1 = (if out.isEmpty && !r.1.isEmpty then some now else ptsUs) ∧
      r.2.2.leftover = f.samples.drop (maxSamples - out.length) ∧
      r.2.2.currentPtsUs = now + ((f.samples.take (maxSamples - out.length)).length * 125 / 2 : Nat) ∧
      r.2.2.seekTargetUs = none ∧ r.2.2.eofReached = d.eofReached := by
  dsimp only
  unfold processFrame
  dsimp only
  by_cases hsamples : f.samples = []
  · rw [if_pos (by simp [hsamples]), hsamples, List.take_nil, List.drop_nil, List.append_nil]
    refine ⟨rfl, ?_, hnil, by simp, hstraight, rfl⟩
    cases out <;> rfl
  rw [if_neg (by simp [hsamples])]
  generalize hd' : ({ d with currentPtsUs := f.ptsUs.getD d.currentPtsUs } : SourceDecoder α) = d'
  have hcurrent : d'.currentPtsUs = f.ptsUs.getD d.currentPtsUs := by rw [← hd']
  have htarget : d'.seekTargetUs = none := by rw [← hd', hstraight]
  have hleftNil : d'.leftover = [] := by rw [← hd', hnil]
  have hsame : d'.eofReached = d.eofReached := by rw [← hd']
  have hself : d'.trim f.samples = (f.samples, d') := trim_eq_self (by simp [htarget])
  obtain ⟨hout, hcopied, hseek, hlive, hleft⟩ := copySamples_eq maxSamples f.samples out d' f.length_le
  rw [hself] at hout hcopied hseek hlive hleft
  dsimp only at hout hcopied hseek hlive hleft
  refine ⟨hout, ?_, ?_, ?_, hseek.trans htarget, hlive.trans hsame⟩
  · dsimp only
    by_cases hempty : out = []
    · rw [hcopied, hout, hempty, List.nil_append, add_sub_cancel_right, hcurrent]
    · simp [hempty]
  · rw [hleft]
    split
    · rfl
    · rename_i hshort
      rw [List.drop_of_length_le (by omega), hleftNil]
  · rw [hcopied, hcurrent]

theorem readLoop_plays (hmax : 0 < maxSamples) (h : d.Plays answers) (hfull : d.leftover ≠ [] → maxSamples ≤ out.length)
    (hpts : out ≠ [] → ∃ p, ptsUs = some p) :
    let r := readLoop maxSamples answers out ptsUs d
    Gives (if out.isEmpty then frameTime d.currentPtsUs answers else ptsUs) r ∧
      r.1.samples ++ (r.2.1.leftover ++ decodedSamples r.2.2) = out ++ (d.leftover ++ decodedSamples answers) := by
  dsimp only
  induction answers generalizing out ptsUs d with
  | nil =>
    refine ⟨⟨h, ?_⟩, rfl⟩
    cases out with
    | nil => exact .inr ⟨rfl, rfl, .inl rfl⟩
    | cons a out =>
      obtain ⟨p, hp⟩ := hpts (List.cons_ne_nil a out)
      exact .inl ⟨p, hp, hp, rfl, List.cons_ne_nil a out⟩
  | cons answer answers ih =>
    unfold readLoop
    by_cases hroom : maxSamples ≤ out.length
    · have hne : out ≠ [] := List.ne_nil_of_length_pos (by omega)
      obtain ⟨p, hp⟩ := hpts hne
      rw [if_pos hroom]
      exact ⟨⟨h, .inl ⟨p, by simp [hne, hp], hp, rfl, hne⟩⟩, rfl⟩
    have hnil : d.leftover = [] := by
      by_contra hne
      exact hroom (hfull hne)
    have hlive : d.eofReached = false := by
      rw [← Bool.not_eq_true]
      intro heof
      exact absurd (h.ended heof).2 (List.cons_ne_nil _ _)
    rw [if_neg hroom]
    cases answer with
    | frame f =>
      obtain ⟨hout, hset, hleft, hcurrent, hstraight, hsame⟩ :=
        @processFrame_plays α maxSamples out ptsUs d h.straight hnil f
      dsimp only
      generalize d.processFrame maxSamples f out ptsUs = r at hout hset hleft hcurrent hstraight hsame
      obtain ⟨out', ptsUs', d'⟩ := r
      dsimp only at hout hset hleft hcurrent hstraight hsame ⊢
      have hplays : d'.Plays answers := by
        refine ⟨hstraight, h.playable, ?_⟩
        intro heof
        rw [hsame, hlive] at heof
        cases heof
      have hfull' : d'.leftover ≠ [] → maxSamples ≤ out'.length := by
        intro hne
        rw [hleft, ne_eq, List.drop_eq_nil_iff, not_le] at hne
        rw [hout, List.length_append, List.length_take]
        omega
      have hpts' : out' ≠ [] → ∃ p, ptsUs' = some p := by
        intro hne
        rw [hset]
        by_cases hempty : out = []
        · exact ⟨_, if_pos (by simp [hempty, hne])⟩
        · rw [if_neg (by simp [hempty])]
          exact hpts hempty
      obtain ⟨hgives, hkept⟩ := ih hplays hfull' hpts'
      have hexpected : (if out'.isEmpty then frameTime d'.currentPtsUs answers else ptsUs') =
          if out.isEmpty then frameTime d.currentPtsUs (.frame f :: answers) else ptsUs := by
        by_cases hempty : out = []
        · subst hempty
          rw [if_pos List.isEmpty_nil]
          by_cases hsamples : f.samples = []
          · rw [hout, hcurrent, hsamples]
            simp [frameTime, hsamples]
          · have hne : out' ≠ [] := by
              rw [hout, List.nil_append, ne_eq, List.take_eq_nil_iff]
              simp only [List.length_nil, Nat.sub_zero, hsamples, or_false]
              omega
            rw [hset]
            simp [frameTime, hsamples, hne]
        · have hne : out' ≠ [] := by
            rw [hout]
            simp [hempty]
          rw [hset]
          simp [hempty, hne]
      rw [hexpected] at hgives
      refine ⟨hgives, ?_⟩
      rw [hkept, hout, hleft, hnil, decodedSamples, List.nil_append, List.append_assoc,
        ← List.append_assoc (f.samples.take _), List.take_append_drop]
    | again =>
      have hplays : d.Plays answers := ⟨h.straight, h.playable, fun heof => by rw [hlive] at heof; cases heof⟩
      refine ⟨⟨hplays, ?_⟩, rfl⟩
      cases out with
      | nil => exact .inr ⟨rfl, rfl, .inl rfl⟩
      | cons a out =>
        obtain ⟨p, hp⟩ := hpts (List.cons_ne_nil a out)
        exact .inl ⟨p, hp, hp, rfl, List.cons_ne_nil a out⟩
    | eof =>
      have hend : answers = [] := h.playable
      refine ⟨⟨⟨h.straight, ?_, fun _ => ⟨hnil, hend⟩⟩, ?_⟩, rfl⟩
      · rw [hend]
        trivial
      cases out with
      | nil => exact .inr ⟨rfl, rfl, .inr ⟨rfl, hnil, hend⟩⟩
      | cons a out =>
        obtain ⟨p, hp⟩ := hpts (List.cons_ne_nil a out)
        exact .inl ⟨p, hp, hp, rfl, List.cons_ne_nil a out⟩
    | error framePtsUs => exact h.playable.elim

/-- **A read gives the next samples of the source, with the time of the first one.** -/
theorem read_plays (hmax : 0 < maxSamples) (h : d.Plays answers) :
    let r := d.read maxSamples answers
    Gives (d.nextPtsUs answers) r ∧
      r.1.samples ++ (r.2.1.leftover ++ decodedSamples r.2.2) = d.leftover ++ decodedSamples answers := by
  dsimp only
  unfold read
  rw [if_neg (by omega)]
  by_cases heof : d.eofReached = true
  · obtain ⟨hnil, hend⟩ := h.ended heof
    have hnext : d.nextPtsUs answers = none := by
      unfold nextPtsUs
      rw [if_pos (by simp [hnil]), hend]
      rfl
    rw [if_pos heof]
    exact ⟨⟨h, .inr ⟨hnext, rfl, .inr ⟨rfl, hnil, hend⟩⟩⟩, rfl⟩
  rw [if_neg heof]
  by_cases hempty : d.leftover = []
  · have hnext : d.nextPtsUs answers = frameTime d.currentPtsUs answers := if_pos (by simp [hempty])
    rw [if_pos (by simp [hempty]), hnext]
    exact @readLoop_plays α maxSamples answers [] none d hmax h (fun hne => absurd hempty hne) (fun hne => absurd rfl hne)
  have hnext : d.nextPtsUs answers = some d.currentPtsUs := if_neg (by simp [hempty])
  rw [if_neg (by simp [hempty]), hnext]
  dsimp only
  have htaken : d.leftover.take maxSamples ≠ [] := by
    rw [ne_eq, List.take_eq_nil_iff]
    simp only [hempty, or_false]
    omega
  split
  · rename_i hrest
    rw [List.isEmpty_iff] at hrest
    have hall : d.leftover.take maxSamples = d.leftover := List.take_of_length_le (List.drop_eq_nil_iff.mp hrest)
    have hplays : Plays answers { d with
        currentPtsUs := d.currentPtsUs + ((d.leftover.take maxSamples).length * 1000000 / 16000 : Nat)
        leftover := d.leftover.drop maxSamples } := by
      refine ⟨h.straight, h.playable, ?_⟩
      intro hend
      exact absurd hend heof
    obtain ⟨hgives, hkept⟩ := @readLoop_plays α maxSamples answers (d.leftover.take maxSamples) (some d.currentPtsUs) _
      hmax hplays (fun hne => absurd hrest hne) (fun _ => ⟨_, rfl⟩)
    rw [if_neg (by simp [htaken])] at hgives
    refine ⟨hgives, ?_⟩
    rw [hkept, hall]
    dsimp only
    rw [hrest, List.nil_append]
  · refine ⟨⟨⟨h.straight, h.playable, fun hend => absurd hend heof⟩, ?_⟩, ?_⟩
    · exact .inl ⟨_, rfl, rfl, rfl, htaken⟩
    · rw [← List.append_assoc, List.take_append_drop]

theorem length_processFrame (hout : out.length ≤ maxSamples) (f : DecodedFrame α) :
    (d.processFrame maxSamples f out ptsUs).1.length ≤ maxSamples := by
  unfold processFrame copySamples
  dsimp only
  split
  · exact hout
  · rw [List.length_append, List.length_take]
    omega

theorem length_readLoop (hout : out.length ≤ maxSamples) :
    (readLoop maxSamples answers out ptsUs d).1.samples.length ≤ maxSamples := by
  induction answers generalizing out ptsUs d with
  | nil => exact hout
  | cons answer answers ih =>
    unfold readLoop
    split
    · exact hout
    · cases answer with
      | frame f => exact ih (length_processFrame hout f)
      | again => exact hout
      | eof => exact hout
      | error framePtsUs => exact Nat.zero_le _

theorem length_read (maxSamples : Nat) (answers : List (CodecAnswer α)) (d : SourceDecoder α) :
    (d.read maxSamples answers).1.samples.length ≤ maxSamples := by
  have htaken : (d.leftover.take maxSamples).length ≤ maxSamples := List.length_take_le _ _
  unfold read
  split
  · exact Nat.zero_le _
  split
  · exact Nat.zero_le _
  split
  · exact length_readLoop (Nat.zero_le _)
  dsimp only
  split
  · exact length_readLoop htaken
  · exact htaken

end SourceDecoder

/-! ## How far the times are off -/

/-- From sample `n` on, the frames' times are off by `lo` to `hi` half microseconds from 62.5 us for each sample. -/
def StampsWithin (lo hi : Int) : Nat → List (CodecAnswer α) → Prop
  | _, [] => True
  | n, .frame f :: answers =>
    (f.samples ≠ [] → ∃ p, f.ptsUs = some p ∧ 0 ≤ p ∧ lo ≤ 2 * p - 125 * n ∧ 2 * p - 125 * n ≤ hi) ∧
      StampsWithin lo hi (n + f.samples.length) answers
  | n, _ :: answers => StampsWithin lo hi n answers

namespace SourceDecoder

/-- After `n` samples: what is left over has a time that is off so far, but for half a microsecond. -/
structure Within (lo hi : Int) (n : Nat) (answers : List (CodecAnswer α)) (d : SourceDecoder α) : Prop where
  left : d.leftover ≠ [] → 0 ≤ d.currentPtsUs ∧ lo - 1 ≤ 2 * d.currentPtsUs - 125 * n ∧ 2 * d.currentPtsUs - 125 * n ≤ hi
  stamps : StampsWithin lo hi (n + d.leftover.length) answers

variable {lo hi : Int} {n maxSamples : Nat} {answers : List (CodecAnswer α)} {out : List α} {ptsUs : Option Int}
  {d : SourceDecoder α}

theorem frameTime_within (h : StampsWithin lo hi n answers) {currentPtsUs : Int} :
    ∀ p ∈ frameTime currentPtsUs answers, 0 ≤ p ∧ lo ≤ 2 * p - 125 * n ∧ 2 * p - 125 * n ≤ hi := by
  induction answers generalizing n currentPtsUs with
  | nil =>
    intro p hp
    cases hp
  | cons answer answers ih =>
    cases answer with
    | frame f =>
      obtain ⟨hstamp, hrest⟩ := h
      intro p hp
      unfold frameTime at hp
      by_cases hsamples : f.samples = []
      · rw [if_pos (by simp [hsamples])] at hp
        rw [hsamples, List.length_nil, Nat.add_zero] at hrest
        exact ih hrest p hp
      · obtain ⟨q, hq, hwithin⟩ := hstamp hsamples
        rw [if_neg (by simp [hsamples]), hq] at hp
        obtain rfl := Option.some.inj hp
        exact hwithin
    | again | eof | error framePtsUs =>
      intro p hp
      cases hp

/-- The time of the next sample is off no further. -/
theorem Within.next (h : d.Within lo hi n answers) :
    ∀ p ∈ d.nextPtsUs answers, 0 ≤ p ∧ lo - 1 ≤ 2 * p - 125 * n ∧ 2 * p - 125 * n ≤ hi := by
  intro p hp
  unfold nextPtsUs at hp
  by_cases hempty : d.leftover = []
  · rw [if_pos (by simp [hempty])] at hp
    have hstamps := h.stamps
    rw [hempty, List.length_nil, Nat.add_zero] at hstamps
    have hwithin := frameTime_within hstamps p hp
    omega
  · rw [if_neg (by simp [hempty])] at hp
    obtain rfl := Option.some.inj hp
    exact h.left hempty

theorem readLoop_within (hplays : d.Plays answers) (hfull : d.leftover ≠ [] → maxSamples ≤ out.length)
    (h : d.Within lo hi (n + out.length) answers) :
    let r := readLoop maxSamples answers out ptsUs d
    r.2.1.Within lo hi (n + r.1.samples.length) r.2.2 := by
  dsimp only
  induction answers generalizing out ptsUs d with
  | nil => exact h
  | cons answer answers ih =>
    unfold readLoop
    by_cases hroom : maxSamples ≤ out.length
    · rw [if_pos hroom]
      exact h
    have hnil : d.leftover = [] := by
      by_contra hne
      exact hroom (hfull hne)
    have hlive : d.eofReached = false := by
      rw [← Bool.not_eq_true]
      intro heof
      exact absurd (hplays.ended heof).2 (List.cons_ne_nil _ _)
    rw [if_neg hroom]
    cases answer with
    | frame f =>
      obtain ⟨hstamp, hrest⟩ := h.stamps
      rw [hnil, List.length_nil, Nat.add_zero] at hstamp hrest
      obtain ⟨hout, -, hleft, hcurrent, hstraight, hsame⟩ :=
        @processFrame_plays α maxSamples out ptsUs d hplays.straight hnil f
      dsimp only
      generalize d.processFrame maxSamples f out ptsUs = r at hout hleft hcurrent hstraight hsame
      obtain ⟨out', ptsUs', d'⟩ := r
      dsimp only at hout hleft hcurrent hstraight hsame ⊢
      have hnext : d'.Plays answers := ⟨hstraight, hplays.playable, fun heof => by rw [hsame, hlive] at heof; cases heof⟩
      have hlength : out'.length = out.length + min (maxSamples - out.length) f.samples.length := by
        rw [hout, List.length_append, List.length_take]
      have hleftLength : d'.leftover.length = f.samples.length - (maxSamples - out.length) := by
        rw [hleft, List.length_drop]
      refine ih hnext ?_ ⟨?_, ?_⟩
      · intro hne
        have hpos := List.length_pos_of_ne_nil hne
        omega
      · intro hne
        have hpos := List.length_pos_of_ne_nil hne
        have hsamples : f.samples ≠ [] := List.ne_nil_of_length_pos (by omega)
        obtain ⟨p, hp, hstart, hlo, hhi⟩ := hstamp hsamples
        rw [hp, Option.getD_some, List.length_take] at hcurrent
        rw [hcurrent, hlength]
        push_cast at hlo hhi ⊢
        omega
      · have htotal : n + out'.length + d'.leftover.length = n + out.length + f.samples.length := by omega
        rw [htotal]
        exact hrest
    | again => exact ⟨h.left, h.stamps⟩
    | eof => exact ⟨h.left, h.stamps⟩
    | error framePtsUs => exact hplays.playable.elim

/-- **Reads of an even size keep the times as near as the frames' are.** -/
theorem read_within (heven : maxSamples % 2 = 0) (hplays : d.Plays answers) (h : d.Within lo hi n answers) :
    let r := d.read maxSamples answers
    r.2.1.Within lo hi (n + r.1.samples.length) r.2.2 := by
  dsimp only
  unfold read
  split
  · exact h
  split
  · exact h
  rename_i hlive
  by_cases hempty : d.leftover = []
  · rw [if_pos (by simp [hempty])]
    exact @readLoop_within α lo hi n maxSamples answers [] _ d hplays (fun hne => absurd hempty hne) h
  rw [if_neg (by simp [hempty])]
  dsimp only
  have hlength : (d.leftover.take maxSamples).length + (d.leftover.drop maxSamples).length = d.leftover.length := by
    rw [List.length_take, List.length_drop]
    omega
  have hstamps : StampsWithin lo hi (n + (d.leftover.take maxSamples).length + (d.leftover.drop maxSamples).length)
      answers := by
    rw [Nat.add_assoc, hlength]
    exact h.stamps
  split
  · rename_i hrest
    rw [List.isEmpty_iff] at hrest
    have hnone {p : Prop} (hne : d.leftover.drop maxSamples ≠ []) : p := absurd hrest hne
    exact readLoop_within ⟨hplays.straight, hplays.playable, fun heof => absurd heof hlive⟩ hnone ⟨hnone, hstamps⟩
  · rename_i hrest
    refine ⟨fun _ => ?_, hstamps⟩
    rw [List.isEmpty_iff, List.drop_eq_nil_iff] at hrest
    obtain ⟨hstart, hlo, hhi⟩ := h.left hempty
    rw [List.length_take]
    dsimp only
    push_cast
    omega

end SourceDecoder

/-! ## The ticks of a container -/

/-- `av_rescale_q` from ticks to microseconds: the nearest one, away from zero if it lies between two. -/
def avRescale (tick : Int) (tickUs : ℚ) : Int :=
  if 0 ≤ tick then ⌊tick * tickUs + 1 / 2⌋ else ⌈tick * tickUs - 1 / 2⌉

/-- The frame's first sample is at `startUs`, so what was decoded for it starts by the resampler's delay later: its
timestamp is the nearest tick to that, and the delay is taken off again to the nearest microsecond. -/
def DecodedFrame.Stamped (tickUs startUs : ℚ) (f : DecodedFrame α) : Prop :=
  ∃ (tick delayUs : Int) (delay : ℚ), |tick * tickUs - (startUs + delay)| ≤ tickUs / 2 ∧ |delayUs - delay| ≤ 1 / 2 ∧
    f.ptsUs = some (avRescale tick tickUs - delayUs)

/-- The frames follow each other from `startUs` on, 62.5 us for each sample, and carry timestamps of a container with
such ticks. -/
def ContainerSource (tickUs : ℚ) : ℚ → List (CodecAnswer α) → Prop
  | _, [] => True
  | startUs, .frame f :: answers =>
    (f.samples ≠ [] → f.Stamped tickUs startUs) ∧ ContainerSource tickUs (startUs + 125 / 2 * f.samples.length) answers
  | startUs, _ :: answers => ContainerSource tickUs startUs answers

theorem abs_avRescale_sub (tick : Int) (tickUs : ℚ) : |avRescale tick tickUs - tick * tickUs| ≤ 1 / 2 := by
  unfold avRescale
  split
  · have hle := Int.floor_le (tick * tickUs + 1 / 2)
    have hlt := Int.lt_floor_add_one (tick * tickUs + 1 / 2)
    rw [abs_le]
    constructor <;> linarith
  · have hle := Int.le_ceil (tick * tickUs - 1 / 2)
    have hlt := Int.ceil_lt_add_one (tick * tickUs - 1 / 2)
    rw [abs_le]
    constructor <;> linarith

/-- A tick of whole microseconds is not rounded. -/
theorem avRescale_intCast (tick us : Int) : avRescale tick us = tick * us := by
  unfold avRescale
  split
  · rw [Int.floor_eq_iff]
    push_cast
    constructor <;> linarith
  · rw [Int.ceil_eq_iff]
    push_cast
    constructor <;> linarith

/-- The times are off by half a tick and a microsecond at most. -/
theorem DecodedFrame.Stamped.near {tickUs startUs : ℚ} {f : DecodedFrame α} (h : f.Stamped tickUs startUs) :
    ∃ p, f.ptsUs = some p ∧ |p - startUs| ≤ tickUs / 2 + 1 := by
  obtain ⟨tick, delayUs, delay, htick, hdelay, hp⟩ := h
  refine ⟨_, hp, ?_⟩
  have hrescale := abs_avRescale_sub tick tickUs
  push_cast
  rw [abs_le] at htick hdelay hrescale ⊢
  constructor <;> linarith

theorem stampsWithin_of_container {tickUs startUs : ℚ} {n : Nat} {answers : List (CodecAnswer α)}
    (h : ContainerSource tickUs (startUs + 125 / 2 * n) answers)
    (hpos : ∀ f, .frame f ∈ answers → ∀ p ∈ f.ptsUs, 0 ≤ p) :
    StampsWithin ⌈2 * startUs - tickUs - 2⌉ ⌊2 * startUs + tickUs + 2⌋ n answers := by
  induction answers generalizing n with
  | nil => trivial
  | cons answer answers ih =>
    have hrest : ∀ f, .frame f ∈ answers → ∀ p ∈ f.ptsUs, 0 ≤ p := fun f hf => hpos f (List.mem_cons_of_mem answer hf)
    cases answer with
    | frame f =>
      obtain ⟨hstamp, hnext⟩ := h
      refine ⟨fun hsamples => ?_, ih ?_ hrest⟩
      · obtain ⟨p, hp, hnear⟩ := (hstamp hsamples).near
        rw [abs_le] at hnear
        refine ⟨p, hp, hpos f List.mem_cons_self p hp, ?_, ?_⟩
        · rw [Int.ceil_le]
          push_cast
          linarith
        · rw [Int.le_floor]
          push_cast
          linarith
      · push_cast
        rw [mul_add, ← add_assoc]
        exact hnext
    | again => exact ih h hrest
    | eof => exact ih h hrest
    | error framePtsUs => exact ih h hrest

/-- Ticks of at most 60 us keep the times within 124 half microseconds of each other. -/
theorem width_of_tick {tickUs startUs : ℚ} (htick : tickUs ≤ 60) :
    ⌊2 * startUs + tickUs + 2⌋ - ⌈2 * startUs - tickUs - 2⌉ ≤ 124 := by
  have hlo := Int.le_ceil (2 * startUs - tickUs - 2)
  have hhi := Int.floor_le (2 * startUs + tickUs + 2)
  have hwidth : ((⌊2 * startUs + tickUs + 2⌋ - ⌈2 * startUs - tickUs - 2⌉ : Int) : ℚ) ≤ (124 : Int) := by
    push_cast
    linarith
  exact_mod_cast hwidth

end VlcWhisper.Worker
