import VlcWhisper.Lib.Ring

/-!
# The audio buffer (`vw_audio_buffer.c`)

A ring of 16 kHz samples with the presentation time of the oldest one. A sample lasts 62.5 µs, so the time is kept
as whole microseconds and a number of halves. An append that does not go on where the buffer ends, give or take one
sample, is a discontinuity and clears it.

The samples' values are only read by the VAD and the speech model, so the buffer is generic in them.
-/

namespace VlcWhisper.Worker

open VlcWhisper.Lib

def sampleRate : Nat := 16000

/-- `vw_audio_buffer_t`. -/
structure AudioBuffer (α : Type) (maxSamples : Nat) where
  samples : Ring α maxSamples
  startPtsUs : Int
  startPtsFracUs : Nat
  droppedSamples : Nat

namespace AudioBuffer

variable {α : Type} {maxSamples : Nat}

/-- `vw_audio_buffer_create`; `zero` fills the cleared slots. -/
def create (maxSamples : Nat) (h : 0 < maxSamples) (zero : α) : AudioBuffer α maxSamples where
  samples := .empty _ h zero
  startPtsUs := -1
  startPtsFracUs := 0
  droppedSamples := 0

/-- `vw_audio_buffer_get_count`. -/
def count (b : AudioBuffer α maxSamples) : Nat := b.samples.count

/-- The buffered samples, oldest first. -/
def toList (b : AudioBuffer α maxSamples) : List α := b.samples.toList

@[simp] theorem length_toList (b : AudioBuffer α maxSamples) : b.toList.length = b.count := Ring.length_toList _

/-- `vw_audio_buffer_clear`. -/
def clear (b : AudioBuffer α maxSamples) : AudioBuffer α maxSamples :=
  { b with samples := b.samples.clear, startPtsUs := -1, startPtsFracUs := 0 }

/-- `vw_audio_buffer_advance_pts`. -/
def advancePts (b : AudioBuffer α maxSamples) (samples : Nat) : AudioBuffer α maxSamples :=
  { b with startPtsUs := b.startPtsUs + samples * 62 + ((b.startPtsFracUs + samples) / 2 : Nat)
           startPtsFracUs := (b.startPtsFracUs + samples) % 2 }

/-- Where the buffer ends: the time an append should have. -/
def expectedPtsUs (b : AudioBuffer α maxSamples) : Int := b.startPtsUs + ((b.count * 125 + b.startPtsFracUs) / 2 : Nat)

/-- The append would not go on where the buffer ends. -/
def isDiscontinuity (b : AudioBuffer α maxSamples) (ptsUs : Int) : Bool :=
  0 < b.count && (ptsUs - b.expectedPtsUs < -63 || 63 < ptsUs - b.expectedPtsUs)

/-- Write one sample, over the oldest if the ring is full. -/
def write (b : AudioBuffer α maxSamples) (x : α) : AudioBuffer α maxSamples :=
  let written := { b with samples := b.samples.overwrite x }
  if b.count < maxSamples then written
  else { written with droppedSamples := b.droppedSamples + 1 }.advancePts 1

/-- An empty buffer starts at the time of the first append. -/
def anchor (b : AudioBuffer α maxSamples) (ptsUs : Int) : AudioBuffer α maxSamples :=
  if b.count = 0 then { b with startPtsUs := ptsUs, startPtsFracUs := 0 } else b

/-- The buffer an append writes to: cleared by a discontinuity, anchored if it is empty. -/
def prepare (b : AudioBuffer α maxSamples) (ptsUs : Int) : AudioBuffer α maxSamples :=
  if b.isDiscontinuity ptsUs then b.clear.anchor ptsUs else b.anchor ptsUs

/-- `vw_audio_buffer_append_s16le`. -/
def append (b : AudioBuffer α maxSamples) (pcm : List α) (ptsUs : Int) : AudioBuffer α maxSamples :=
  if pcm = [] then b else pcm.foldl write (b.prepare ptsUs)

/-- `vw_audio_buffer_get_samples`: the oldest samples with the time of the first. -/
def getSamples (b : AudioBuffer α maxSamples) (maxOut : Nat) : List α × Int :=
  if maxOut = 0 || b.count = 0 then ([], 0) else (b.toList.take maxOut, b.startPtsUs)

/-- `vw_audio_buffer_drain`. -/
def drain (b : AudioBuffer α maxSamples) (sampleCount : Nat) : AudioBuffer α maxSamples :=
  if sampleCount = 0 || b.count = 0 then b
  else
    let drained := min sampleCount b.count
    let rest := { b with samples := b.samples.drop drained }.advancePts drained
    if rest.count = 0 then rest.clear else rest

/-! ## The samples -/

@[simp] theorem toList_clear (b : AudioBuffer α maxSamples) : b.clear.toList = [] := Ring.toList_clear _

@[simp] theorem count_clear (b : AudioBuffer α maxSamples) : b.clear.count = 0 := rfl

theorem toList_write (b : AudioBuffer α maxSamples) (x : α) :
    (b.write x).toList = (if b.count < maxSamples then b.toList else b.toList.tail) ++ [x] := by
  have hring := Ring.toList_overwrite b.samples x
  simp only [write]
  split
  · exact hring.trans (by rw [if_pos (show b.samples.count < maxSamples by assumption)]; rfl)
  · exact hring.trans (by rw [if_neg (show ¬ b.samples.count < maxSamples by assumption)]; rfl)

@[simp] theorem toList_anchor (b : AudioBuffer α maxSamples) (ptsUs : Int) : (b.anchor ptsUs).toList = b.toList := by
  rw [anchor]
  split <;> rfl

theorem toList_prepare (b : AudioBuffer α maxSamples) (ptsUs : Int) :
    (b.prepare ptsUs).toList = if b.isDiscontinuity ptsUs then [] else b.toList := by
  rw [prepare]
  split <;> simp

theorem getSamples_fst (b : AudioBuffer α maxSamples) (maxOut : Nat) :
    (b.getSamples maxOut).1 = b.toList.take maxOut := by
  unfold getSamples
  split
  · rename_i h
    simp only [Bool.or_eq_true, decide_eq_true_eq] at h
    rcases h with h | h
    · rw [h, List.take_zero]
    · rw [List.length_eq_zero_iff.mp ((length_toList b).trans h), List.take_nil]
  · rfl

theorem toList_drain (b : AudioBuffer α maxSamples) (sampleCount : Nat) :
    (b.drain sampleCount).toList = b.toList.drop sampleCount := by
  rw [drain]
  split
  · rename_i h
    simp only [Bool.or_eq_true, decide_eq_true_eq] at h
    rcases h with rfl | h
    · rfl
    · rw [List.length_eq_zero_iff.mp ((length_toList b).trans h), List.drop_nil]
  · dsimp only
    have hdrop (k : Nat) : ({ b with samples := b.samples.drop k }.advancePts k).toList = b.toList.drop k :=
      Ring.toList_drop _ _
    have hmin : b.toList.drop (min sampleCount b.count) = b.toList.drop sampleCount := by
      rcases le_total sampleCount b.count with h | h
      · rw [min_eq_left h]
      · rw [min_eq_right h, List.drop_eq_nil_of_le (by simp), List.drop_eq_nil_of_le (by simpa using h)]
    split
    · rename_i h0
      have hnil := List.length_eq_zero_iff.mp ((length_toList _).trans h0)
      rw [toList_clear, ← hmin, ← hdrop, hnil]
    · rw [hdrop, hmin]

theorem count_drain (b : AudioBuffer α maxSamples) (sampleCount : Nat) : (b.drain sampleCount).count = b.count - sampleCount := by
  rw [← length_toList, toList_drain, List.length_drop, length_toList]

theorem toList_append_subset (b : AudioBuffer α maxSamples) (pcm : List α) (ptsUs : Int) :
    ∀ x ∈ (b.append pcm ptsUs).toList, x ∈ b.toList ∨ x ∈ pcm := by
  have hfold (pcm : List α) (b : AudioBuffer α maxSamples) : ∀ x ∈ (pcm.foldl write b).toList, x ∈ b.toList ∨ x ∈ pcm := by
    induction pcm generalizing b with
    | nil => exact fun x hx => .inl hx
    | cons y pcm ih =>
      intro x hx
      rcases ih (b.write y) x hx with hx | hx
      · rw [toList_write] at hx
        rcases List.mem_append.mp hx with hx | hx
        · split at hx
          · exact .inl hx
          · exact .inl (List.mem_of_mem_tail hx)
        · exact .inr (by simp [List.mem_singleton.mp hx])
      · exact .inr (List.mem_cons_of_mem _ hx)
  intro x hx
  rw [append] at hx
  split at hx
  · exact .inl hx
  · rcases hfold pcm _ x hx with hx | hx
    · rw [toList_prepare] at hx
      split at hx
      · cases hx
      · exact .inl hx
    · exact .inr hx

/-! ## Room -/

theorem write_of_room {b : AudioBuffer α maxSamples} (hroom : b.count < maxSamples) (x : α) :
    (b.write x).count = b.count + 1 ∧ (b.write x).droppedSamples = b.droppedSamples := by
  have hlen := congrArg List.length (toList_write b x)
  rw [if_pos hroom, List.length_append, List.length_singleton, length_toList, length_toList] at hlen
  refine ⟨hlen, ?_⟩
  rw [write, if_pos hroom]

theorem foldl_write_of_room {pcm : List α} {b : AudioBuffer α maxSamples} (hroom : b.count + pcm.length ≤ maxSamples) :
    (pcm.foldl write b).count = b.count + pcm.length ∧ (pcm.foldl write b).droppedSamples = b.droppedSamples := by
  induction pcm generalizing b with
  | nil => exact ⟨rfl, rfl⟩
  | cons x pcm ih =>
    rw [List.length_cons] at hroom ⊢
    obtain ⟨hcount, hdropped⟩ := write_of_room (b := b) (by omega) x
    obtain ⟨hcount', hdropped'⟩ := ih (b := b.write x) (by omega)
    exact ⟨by rw [List.foldl_cons, hcount', hcount]; omega, hdropped'.trans hdropped⟩

theorem append_of_room {pcm : List α} {b : AudioBuffer α maxSamples} (hroom : b.count + pcm.length ≤ maxSamples)
    (ptsUs : Int) :
    (b.append pcm ptsUs).count ≤ b.count + pcm.length ∧ (b.append pcm ptsUs).droppedSamples = b.droppedSamples := by
  have hprepare : (b.prepare ptsUs).count ≤ b.count ∧ (b.prepare ptsUs).droppedSamples = b.droppedSamples := by
    have hanchor (b : AudioBuffer α maxSamples) :
        (b.anchor ptsUs).count = b.count ∧ (b.anchor ptsUs).droppedSamples = b.droppedSamples := by
      unfold anchor
      split <;> exact ⟨rfl, rfl⟩
    unfold prepare
    split
    · exact ⟨(hanchor b.clear).1.trans_le (Nat.zero_le _), (hanchor b.clear).2⟩
    · exact ⟨(hanchor b).1.le, (hanchor b).2⟩
  unfold append
  split
  · exact ⟨Nat.le_add_right _ _, rfl⟩
  · obtain ⟨hcount, hdropped⟩ := @foldl_write_of_room _ _ pcm (b.prepare ptsUs) (by omega)
    exact ⟨by omega, hdropped.trans hprepare.2⟩

theorem toList_append_of_room {pcm : List α} {b : AudioBuffer α maxSamples} (hroom : b.count + pcm.length ≤ maxSamples)
    {ptsUs : Int} (hgoesOn : b.isDiscontinuity ptsUs = false) : (b.append pcm ptsUs).toList = b.toList ++ pcm := by
  have hfold (pcm : List α) (b : AudioBuffer α maxSamples) (hroom : b.count + pcm.length ≤ maxSamples) :
      (pcm.foldl write b).toList = b.toList ++ pcm := by
    induction pcm generalizing b with
    | nil => rw [List.foldl_nil, List.append_nil]
    | cons x pcm ih =>
      rw [List.length_cons] at hroom
      have hcount := (write_of_room (b := b) (by omega) x).1
      rw [List.foldl_cons, ih _ (by omega), toList_write, if_pos (by omega), List.append_assoc, List.singleton_append]
  have hprepare : (b.prepare ptsUs).toList = b.toList := by
    rw [toList_prepare, hgoesOn, if_neg Bool.false_ne_true]
  unfold append
  split
  · rename_i hnil
    rw [hnil, List.append_nil]
  · have hcount : (b.prepare ptsUs).count = b.count := by
      rw [← length_toList, hprepare, length_toList]
    rw [hfold _ _ (by omega), hprepare]

/-- An empty buffer takes all that fits. -/
theorem count_append_empty {pcm : List α} {b : AudioBuffer α maxSamples} (h : b.count = 0) (hroom : pcm.length ≤ maxSamples)
    (ptsUs : Int) : (b.append pcm ptsUs).count = pcm.length := by
  have hprepare : (b.prepare ptsUs).count = 0 := by
    unfold prepare isDiscontinuity anchor
    rw [h, if_neg (by simp), if_pos rfl]
    exact h
  unfold append
  split
  · rename_i hnil
    rw [hnil, h, List.length_nil]
  · rw [(foldl_write_of_room (by omega)).1, hprepare, Nat.zero_add]

theorem droppedSamples_drain (b : AudioBuffer α maxSamples) (sampleCount : Nat) :
    (b.drain sampleCount).droppedSamples = b.droppedSamples := by
  unfold drain
  split
  · rfl
  · dsimp only
    split <;> rfl

end AudioBuffer

end VlcWhisper.Worker
