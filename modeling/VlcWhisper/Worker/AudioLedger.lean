import VlcWhisper.Lib.Machine
import VlcWhisper.Worker.AudioTimeline
import Mathlib.Data.List.DropRight

/-!
# What the audio buffer holds, and since when

A ledger beside the audio buffer: the time of the append that anchored it, the samples appended since and how many of
them are gone, by drains and by overflows. The buffer has two fields for the time of its oldest sample and moves them on
both paths; the ledger only counts.

Main result: `buffer_exact`, after any calls the buffer's time is the anchor's and 62.5 µs for each removed sample.
-/

namespace VlcWhisper.Worker

open VlcWhisper.Lib

namespace AudioBuffer

variable {α : Type} {maxSamples : Nat}

/-- The calls that change the buffer. -/
inductive Call (α : Type) where
  | append (pcm : List α) (ptsUs : Int)
  | drain (sampleCount : Nat)
  | clear

def call (b : AudioBuffer α maxSamples) : Call α → AudioBuffer α maxSamples
  | .append pcm ptsUs => b.append pcm ptsUs
  | .drain sampleCount => b.drain sampleCount
  | .clear => b.clear

/-- What happened since the buffer was last anchored. -/
structure Ledger (α : Type) where
  anchorPtsUs : Int
  appended : List α
  removed : Nat

/-- The ledger of an append: a new one if the append anchors the buffer. The samples it overwrites are those the buffer
counts as dropped. -/
def Ledger.append (l : Ledger α) (b : AudioBuffer α maxSamples) (pcm : List α) (ptsUs : Int) : Ledger α :=
  let start := if b.count = 0 || b.isDiscontinuity ptsUs then { anchorPtsUs := ptsUs, appended := [], removed := 0 } else l
  { start with appended := start.appended ++ pcm
               removed := start.removed + ((b.append pcm ptsUs).droppedSamples - b.droppedSamples) }

/-- The ledger of a call to the buffer `b`. -/
def Ledger.record (l : Ledger α) (b : AudioBuffer α maxSamples) : Call α → Ledger α
  | .append pcm ptsUs => if pcm = [] then l else l.append b pcm ptsUs
  | .drain sampleCount => { l with removed := l.removed + min sampleCount b.count }
  | .clear => { l with removed := l.removed + b.count }

/-- A call to a buffer with its ledger. -/
def callRecorded (s : AudioBuffer α maxSamples × Ledger α) (c : Call α) : AudioBuffer α maxSamples × Ledger α :=
  (s.1.call c, s.2.record s.1 c)

/-! ## The invariant -/

/-- The buffer is what the ledger says. -/
structure Exact (b : AudioBuffer α maxSamples) (l : Ledger α) : Prop where
  contents : b.toList = l.appended.drop l.removed
  length : l.appended.length = l.removed + b.count
  start : 2 * b.startPtsUs + b.startPtsFracUs = 2 * l.anchorPtsUs + 125 * l.removed

/-- An empty buffer has no time; the next append anchors it. -/
def Tracked (b : AudioBuffer α maxSamples) (l : Ledger α) : Prop :=
  b.startPtsFracUs < 2 ∧ (b.count = 0 ∨ Exact b l)

theorem droppedSamples_write (b : AudioBuffer α maxSamples) (x : α) :
    (b.write x).droppedSamples = if b.count < maxSamples then b.droppedSamples else b.droppedSamples + 1 := by
  unfold write
  dsimp only
  split <;> rfl

theorem count_write (b : AudioBuffer α maxSamples) (x : α) :
    (b.write x).count = if b.count < maxSamples then b.count + 1 else b.count := by
  have hcount := count_overwrite b x
  unfold write
  dsimp only
  split
  · rename_i hroom
    rw [if_pos hroom] at hcount
    exact hcount
  · rename_i hfull
    rw [if_neg hfull] at hcount
    exact hcount

theorem frac_write {b : AudioBuffer α maxSamples} (h : b.startPtsFracUs < 2) (x : α) : (b.write x).startPtsFracUs < 2 := by
  unfold write
  dsimp only
  split
  · exact h
  · exact Nat.mod_lt _ (by decide)

theorem Exact.write {b : AudioBuffer α maxSamples} {l : Ledger α} (h : Exact b l) (x : α) :
    Exact (b.write x) { l with appended := l.appended ++ [x]
                               removed := l.removed + ((b.write x).droppedSamples - b.droppedSamples) } := by
  have hlength := h.length
  have hend := endHalfUs_write b x
  have hpos := Nat.zero_lt_of_lt b.samples.head_lt
  have hcount := count_write b x
  have hdropped := droppedSamples_write b x
  have hcontents := toList_write b x
  have hstart := h.start
  unfold endHalfUs at hend
  by_cases hroom : b.count < maxSamples
  · rw [if_pos hroom] at hcount hdropped hcontents
    rw [hcount] at hend
    rw [hdropped, Nat.sub_self, Nat.add_zero]
    refine ⟨?_, ?_, ?_⟩
    · have hle : l.removed ≤ l.appended.length := by omega
      rw [hcontents, h.contents, List.drop_append_of_le_length hle]
    · rw [List.length_append, List.length_singleton, hcount]
      dsimp only
      omega
    · dsimp only
      omega
  · rw [if_neg hroom] at hcount hdropped hcontents
    rw [hcount] at hend
    have hfull : b.count = maxSamples := le_antisymm b.samples.count_le (Nat.le_of_not_lt hroom)
    have hone : b.droppedSamples + 1 - b.droppedSamples = 1 := by omega
    rw [hdropped, hone]
    refine ⟨?_, ?_, ?_⟩
    · have hle : l.removed + 1 ≤ l.appended.length := by omega
      rw [hcontents, h.contents, List.tail_drop, List.drop_append_of_le_length hle]
    · rw [List.length_append, List.length_singleton, hcount]
      dsimp only
      omega
    · dsimp only
      omega

theorem droppedSamples_foldl_write (pcm : List α) (b : AudioBuffer α maxSamples) :
    b.droppedSamples ≤ (pcm.foldl AudioBuffer.write b).droppedSamples := by
  induction pcm generalizing b with
  | nil => exact Nat.le_refl _
  | cons x pcm ih =>
    have hwrite := droppedSamples_write b x
    have hrest := ih (b.write x)
    rw [List.foldl_cons]
    split at hwrite <;> omega

theorem Exact.foldl_write {b : AudioBuffer α maxSamples} {l : Ledger α} (h : Exact b l) (pcm : List α) :
    let written := pcm.foldl AudioBuffer.write b
    Exact written { l with appended := l.appended ++ pcm
                           removed := l.removed + (written.droppedSamples - b.droppedSamples) } := by
  dsimp only
  induction pcm generalizing b l with
  | nil =>
    rw [List.append_nil, List.foldl_nil, Nat.sub_self]
    exact h
  | cons x pcm ih =>
    have hrest := ih (h.write x)
    have hfirst := droppedSamples_write b x
    have hmono := droppedSamples_foldl_write pcm (b.write x)
    have hsum : l.removed + ((b.write x).droppedSamples - b.droppedSamples) +
        ((pcm.foldl AudioBuffer.write (b.write x)).droppedSamples - (b.write x).droppedSamples) =
        l.removed + ((pcm.foldl AudioBuffer.write (b.write x)).droppedSamples - b.droppedSamples) := by
      split at hfirst <;> omega
    dsimp only at hrest
    rw [hsum, List.append_assoc] at hrest
    exact hrest

theorem frac_foldl_write {b : AudioBuffer α maxSamples} (h : b.startPtsFracUs < 2) (pcm : List α) :
    (pcm.foldl AudioBuffer.write b).startPtsFracUs < 2 := by
  induction pcm generalizing b with
  | nil => exact h
  | cons x pcm ih => exact ih (frac_write h x)

/-! ## The calls -/

theorem Tracked.append {b : AudioBuffer α maxSamples} {l : Ledger α} (h : Tracked b l) {pcm : List α} (hpcm : pcm ≠ [])
    (ptsUs : Int) : Tracked (b.append pcm ptsUs) (l.append b pcm ptsUs) := by
  obtain ⟨hfrac, hexact⟩ := h
  have happend : b.append pcm ptsUs = pcm.foldl AudioBuffer.write (b.prepare ptsUs) := by
    unfold AudioBuffer.append
    rw [if_neg hpcm]
  by_cases hstart : (b.count = 0 || b.isDiscontinuity ptsUs) = true
  · -- the append anchors the buffer: an empty ledger from its time
    have hprepare : (b.prepare ptsUs).count = 0 ∧ (b.prepare ptsUs).startPtsUs = ptsUs ∧
        (b.prepare ptsUs).startPtsFracUs = 0 ∧ (b.prepare ptsUs).droppedSamples = b.droppedSamples := by
      unfold prepare anchor
      by_cases hbreak : b.isDiscontinuity ptsUs = true
      · rw [if_pos hbreak, if_pos (count_clear b)]
        exact ⟨count_clear b, rfl, rfl, rfl⟩
      · have hempty : b.count = 0 := by simpa [hbreak] using hstart
        rw [if_neg hbreak, if_pos hempty]
        exact ⟨hempty, rfl, rfl, rfl⟩
    obtain ⟨hcount, hpts, hzero, hdropped⟩ := hprepare
    have hanchored : Exact (b.prepare ptsUs) { anchorPtsUs := ptsUs, appended := [], removed := 0 } := by
      refine ⟨List.length_eq_zero_iff.mp ((length_toList _).trans hcount), ?_, ?_⟩
      · rw [hcount, List.length_nil]
      · rw [hpts, hzero]
        rfl
    have hwritten := hanchored.foldl_write pcm
    rw [hdropped, ← happend] at hwritten
    refine ⟨?_, .inr ?_⟩
    · rw [happend]
      exact frac_foldl_write (by rw [hzero]; decide) pcm
    · unfold Ledger.append
      rw [if_pos hstart]
      exact hwritten
  · have hnot : b.count ≠ 0 ∧ b.isDiscontinuity ptsUs = false := by simpa using hstart
    have hprepare : b.prepare ptsUs = b := by
      unfold prepare anchor
      rw [hnot.2, if_neg hnot.1]
      rfl
    rw [hprepare] at happend
    have hexact := hexact.resolve_left hnot.1
    have hwritten := hexact.foldl_write pcm
    rw [← happend] at hwritten
    refine ⟨?_, .inr ?_⟩
    · rw [happend]
      exact frac_foldl_write hfrac pcm
    · unfold Ledger.append
      rw [if_neg hstart]
      exact hwritten

theorem frac_drain {b : AudioBuffer α maxSamples} (h : b.startPtsFracUs < 2) (sampleCount : Nat) :
    (b.drain sampleCount).startPtsFracUs < 2 := by
  unfold AudioBuffer.drain
  split
  · exact h
  · dsimp only
    split
    · exact Nat.zero_lt_two
    · exact Nat.mod_lt _ (by decide)

theorem Tracked.drain {b : AudioBuffer α maxSamples} {l : Ledger α} (h : Tracked b l) (sampleCount : Nat) :
    Tracked (b.drain sampleCount) { l with removed := l.removed + min sampleCount b.count } := by
  obtain ⟨hfrac, hexact⟩ := h
  refine ⟨frac_drain hfrac sampleCount, ?_⟩
  have hcount := count_drain b sampleCount
  rcases hexact with hempty | hexact
  · left
    omega
  · rcases endHalfUs_drain b sampleCount with hempty | hend
    · exact .inl hempty
    · have hlength := hexact.length
      have hstart := hexact.start
      have hcontents : l.appended.drop (l.removed + min sampleCount b.count) =
          (l.appended.drop l.removed).drop sampleCount := by
        rw [List.drop_drop]
        by_cases hle : sampleCount ≤ b.count
        · rw [min_eq_left hle]
        · rw [min_eq_right (by omega), List.drop_eq_nil_of_le (by omega), List.drop_eq_nil_of_le (by omega)]
      unfold endHalfUs at hend
      right
      refine ⟨?_, ?_, ?_⟩
      · rw [toList_drain, hexact.contents, hcontents]
      · rw [hcount]
        dsimp only
        omega
      · dsimp only
        omega

theorem Tracked.call {b : AudioBuffer α maxSamples} {l : Ledger α} (h : Tracked b l) (c : Call α) :
    Tracked (b.call c) (l.record b c) := by
  cases c with
  | append pcm ptsUs =>
    by_cases hpcm : pcm = []
    · have hsame : b.call (.append pcm ptsUs) = b := if_pos hpcm
      have hrecord : l.record b (.append pcm ptsUs) = l := if_pos hpcm
      rw [hsame, hrecord]
      exact h
    · have hrecord : l.record b (.append pcm ptsUs) = l.append b pcm ptsUs := if_neg hpcm
      rw [hrecord]
      exact h.append hpcm ptsUs
  | drain sampleCount => exact h.drain sampleCount
  | clear => exact ⟨Nat.zero_lt_two, .inl (count_clear b)⟩

/-! ## Reading -/

theorem getSamples_snd {b : AudioBuffer α maxSamples} {maxOut : Nat} (hmax : 0 < maxOut) (hcount : 0 < b.count) :
    (b.getSamples maxOut).2 = b.startPtsUs := by
  unfold getSamples
  rw [if_neg (by simp; omega)]

/-- **Audio buffer exactness.** After any calls to a new buffer, while it is not empty: it starts 62.5 µs after its
anchor for each sample removed since, it holds the last samples appended since, in order, and a read of any length gives
the oldest of them and that start. -/
theorem buffer_exact (hmax : 0 < maxSamples) (zero : α) (l : Ledger α) (calls : List (Call α)) :
    let s : AudioBuffer α maxSamples × Ledger α := run callRecorded (create maxSamples hmax zero, l) calls
    0 < s.1.count →
      2 * s.1.startPtsUs + s.1.startPtsFracUs = 2 * s.2.anchorPtsUs + 125 * s.2.removed ∧ s.1.startPtsFracUs < 2 ∧
      s.2.appended.length = s.2.removed + s.1.count ∧ s.1.toList = s.2.appended.rtake s.1.count ∧
      ∀ maxOut, (s.1.getSamples maxOut).1 = (s.2.appended.rtake s.1.count).take maxOut ∧
        (0 < maxOut → (s.1.getSamples maxOut).2 = s.1.startPtsUs) := by
  intro s hcount
  have hstep : ∀ (s : AudioBuffer α maxSamples × Ledger α) (c : Call α), Tracked s.1 s.2 →
      Tracked (callRecorded s c).1 (callRecorded s c).2 := fun s c h => h.call c
  have htracked : Tracked s.1 s.2 := run_invariant' hstep calls ⟨Nat.zero_lt_two, .inl rfl⟩
  have hexact := htracked.2.resolve_left (Nat.ne_of_gt hcount)
  have hlength := hexact.length
  have hcontents : s.1.toList = s.2.appended.rtake s.1.count := by
    rw [hexact.contents, List.rtake]
    congr 1
    omega
  refine ⟨hexact.start, htracked.1, hlength, hcontents, fun maxOut => ⟨?_, fun hpos => getSamples_snd hpos hcount⟩⟩
  rw [getSamples_fst, hcontents]

/-- A wrap, an overflow of three samples and two drains: the oldest of six samples is `3`, five samples after the anchor. -/
theorem buffer_exact_overflow :
    let s := run callRecorded (create 4 (by decide) 0, ⟨0, [], 0⟩)
      [.append [1, 2, 3] 1000, .drain 1, .append [4, 5, 6, 7] 1187, .drain 1]
    2 * s.1.startPtsUs + s.1.startPtsFracUs = 2 * s.2.anchorPtsUs + 125 * s.2.removed :=
  (buffer_exact (by decide) 0 ⟨0, [], 0⟩ [.append [1, 2, 3] 1000, .drain 1, .append [4, 5, 6, 7] 1187, .drain 1]
    (by decide)).1

end AudioBuffer

end VlcWhisper.Worker
