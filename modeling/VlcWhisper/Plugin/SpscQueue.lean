import VlcWhisper.Lib.Ring
import VlcWhisper.Plugin.AudioCapture

/-!
# The audio queue (`vw_queue.c`)

VLC's audio callback pushes chunks and the sender pops them, each with an index of its own. A push looks at the
consumer's index once and a pop at the producer's once, so each takes effect at one moment and a run of both threads
is an interleaving of whole pushes and pops.

The queue has one slot more than its capacity, and is full when the producer's index would meet the consumer's: a
full queue refuses the new chunk and counts its duration. `ring` is the queue as a ring buffer with a count.
-/

namespace VlcWhisper.Plugin

open VlcWhisper.Lib

/-- `vw_spsc_queue_t`. -/
structure SpscQueue (capacityChunks : Nat) where
  ringBuffer : Nat → CapturedChunk
  /-- Where the producer writes. -/
  head : Nat
  /-- Where the consumer reads. -/
  tail : Nat
  audioDroppedUs : UInt64
  head_lt : head < capacityChunks + 1
  tail_lt : tail < capacityChunks + 1

namespace SpscQueue

variable {capacityChunks : Nat}

/-- `vw_spsc_queue_create`, with zeroed slots. -/
def create (capacityChunks : Nat) : SpscQueue capacityChunks where
  ringBuffer _ := { startPtsUs := 0, durationUs := 0, sampleRate := 0, channels := 0, pcm := [] }
  head := 0
  tail := 0
  audioDroppedUs := 0
  head_lt := Nat.succ_pos _
  tail_lt := Nat.succ_pos _

/-- `vw_spsc_queue_push`: a full queue drops the new chunk. -/
def push (q : SpscQueue capacityChunks) (chunk : CapturedChunk) : SpscQueue capacityChunks × Bool :=
  let nextHead := (q.head + 1) % (capacityChunks + 1)
  if nextHead = q.tail then ({ q with audioDroppedUs := q.audioDroppedUs + .ofInt chunk.durationUs }, false)
  else
    ({ q with ringBuffer := setSlot q.ringBuffer q.head chunk
              head := nextHead
              head_lt := Nat.mod_lt _ (Nat.succ_pos _) }, true)

/-- `vw_spsc_queue_pop`. -/
def pop (q : SpscQueue capacityChunks) : Option (CapturedChunk × SpscQueue capacityChunks) :=
  if q.tail = q.head then none
  else some (q.ringBuffer q.tail, { q with tail := (q.tail + 1) % (capacityChunks + 1)
                                           tail_lt := Nat.mod_lt _ (Nat.succ_pos _) })

/-! ## The queue as a ring -/

/-- How many of `n` slots lie between two indices. -/
def slotsBetween (n tail head : Nat) : Nat := (head + n - tail) % n

theorem slotsBetween_eq {n tail head : Nat} (hhead : head < n) (htail : tail < n) :
    slotsBetween n tail head = if tail ≤ head then head - tail else head + n - tail := by
  unfold slotsBetween
  rw [wrap_eq (by omega)]
  split <;> split <;> omega

theorem slotsBetween_head_succ {n tail head : Nat} (hhead : head < n) (htail : tail < n) (hroom : (head + 1) % n ≠ tail) :
    slotsBetween n tail ((head + 1) % n) = slotsBetween n tail head + 1 := by
  rw [slotsBetween_eq (Nat.mod_lt _ (by omega)) htail, slotsBetween_eq hhead htail]
  rw [wrap_eq (by omega)] at hroom ⊢
  split at hroom <;> rename_i hwrap <;> simp only [hwrap, if_true, if_false] <;> split <;> split <;> omega

theorem slotsBetween_tail_succ {n tail head : Nat} (hhead : head < n) (htail : tail < n) (hsome : tail ≠ head) :
    slotsBetween n ((tail + 1) % n) head = slotsBetween n tail head - 1 := by
  rw [slotsBetween_eq hhead (Nat.mod_lt _ (by omega)), slotsBetween_eq hhead htail, wrap_eq (by omega)]
  split <;> split <;> split <;> omega

/-- The entries from the consumer's index to the producer's. -/
def ring (q : SpscQueue capacityChunks) : Ring CapturedChunk (capacityChunks + 1) where
  slots := q.ringBuffer
  head := q.head
  count := slotsBetween (capacityChunks + 1) q.tail q.head
  head_lt := q.head_lt
  count_le := (Nat.mod_lt _ (Nat.succ_pos _)).le

/-- The queued chunks, oldest first. -/
def toList (q : SpscQueue capacityChunks) : List CapturedChunk := q.ring.toList

variable (q : SpscQueue capacityChunks)

theorem count_ring :
    q.ring.count = if q.tail ≤ q.head then q.head - q.tail else q.head + (capacityChunks + 1) - q.tail := by
  exact slotsBetween_eq q.head_lt q.tail_lt

theorem tail_ring : q.ring.tail = q.tail := by
  have h1 := q.head_lt
  have h2 := q.tail_lt
  have hhead : q.ring.head = q.head := rfl
  rw [Ring.tail_eq, count_ring, hhead]
  split <;> split <;> omega

@[simp] theorem toList_create : (create capacityChunks).toList = [] := by
  rw [toList, ← Ring.count_eq_zero_iff, count_ring]
  rfl

theorem full_iff : (q.head + 1) % (capacityChunks + 1) = q.tail ↔ capacityChunks ≤ q.toList.length := by
  have h1 := q.head_lt
  have h2 := q.tail_lt
  rw [wrap_eq (by omega), toList, Ring.length_toList, count_ring]
  constructor
  · intro h
    split <;> split at h <;> omega
  · intro h
    split <;> split at h <;> omega

theorem push_full {chunk : CapturedChunk} (h : capacityChunks ≤ q.toList.length) :
    q.push chunk = ({ q with audioDroppedUs := q.audioDroppedUs + .ofInt chunk.durationUs }, false) :=
  if_pos (q.full_iff.mpr h)

theorem push_room {chunk : CapturedChunk} (h : q.toList.length < capacityChunks) :
    (q.push chunk).2 = true ∧ (q.push chunk).1.toList = q.toList ++ [chunk] := by
  have hroom := mt q.full_iff.mp (Nat.not_le.mpr h)
  rw [toList, Ring.length_toList] at h
  unfold push
  dsimp only
  rw [if_neg hroom]
  refine ⟨rfl, ?_⟩
  rw [toList, toList, ← Ring.toList_push q.ring chunk (by omega)]
  congr 1
  unfold Ring.push
  rw [Ring.mk.injEq]
  exact ⟨rfl, rfl, slotsBetween_head_succ q.head_lt q.tail_lt hroom⟩

/-- **Push.** The chunk goes to the end of the queue, or is refused and leaves the queue as it is. -/
theorem toList_push (chunk : CapturedChunk) :
    (q.push chunk).1.toList = if (q.push chunk).2 then q.toList ++ [chunk] else q.toList := by
  rcases Nat.lt_or_ge q.toList.length capacityChunks with hroom | hfull
  · obtain ⟨haccepted, hlist⟩ := @push_room _ q chunk hroom
    rw [if_pos haccepted, hlist]
  · rw [q.push_full hfull]
    rfl

/-- **Pop.** The oldest chunk leaves the queue. -/
theorem toList_of_pop_eq_some {q rest : SpscQueue capacityChunks} {chunk : CapturedChunk}
    (h : q.pop = some (chunk, rest)) : q.toList = chunk :: rest.toList := by
  have h1 := q.head_lt
  have h2 := q.tail_lt
  unfold pop at h
  split at h
  · cases h
  · rename_i hne
    rw [Option.some.injEq, Prod.mk.injEq] at h
    obtain ⟨rfl, rfl⟩ := h
    have hpop : q.ring.pop = some (q.ring.get 0, q.ring.dropOldest) := by
      unfold Ring.pop
      rw [if_neg]
      rw [count_ring]
      split <;> omega
    have hfirst : q.ring.get 0 = q.ringBuffer q.tail := by
      show q.ringBuffer ((q.ring.tail + 0) % (capacityChunks + 1)) = _
      rw [tail_ring, Nat.add_zero, Nat.mod_eq_of_lt h2]
    rw [toList, Ring.toList_of_pop_eq_some hpop, hfirst]
    show _ :: _ = _ :: Ring.toList _
    congr 2
    unfold Ring.dropOldest
    rw [ring, Ring.mk.injEq]
    exact ⟨rfl, rfl, (slotsBetween_tail_succ q.head_lt q.tail_lt hne).symm⟩

theorem toList_of_pop_eq_none (h : q.pop = none) : q.toList = [] := by
  unfold pop at h
  split at h
  · rename_i hempty
    rw [toList, ← Ring.count_eq_zero_iff, count_ring, hempty]
    simp
  · cases h

end SpscQueue

end VlcWhisper.Plugin
