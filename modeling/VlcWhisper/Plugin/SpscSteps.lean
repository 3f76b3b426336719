import Mathlib.Data.UInt
import VlcWhisper.Lib.Machine
import VlcWhisper.Plugin.SpscQueue

/-!
# The audio queue, step by step (`vw_queue.c`)

The producer and the consumer share two indices, each of which only one of them stores, and the slots. Here every load
and store of an index and every word of a chunk that is copied is a step of its own, and a schedule interleaves the
two threads in any way. Main results:

* `spsc_run`: what was pushed is what was popped and what is held, in order; a slot is only written while it holds
  nothing; a push is only refused while the queue holds its capacity; and the dropped time is that of the refused
  chunks.
* `publish_eq_push`, `advance_eq_pop`: where an index is stored the whole push or pop takes effect.

Proof. `Sound` relates the indices, the slots and the program points of both threads.
-/

namespace VlcWhisper.Plugin

open VlcWhisper.Lib

/-! ## Copies -/

/-- How a value is assigned: word after word, and then it is the source. -/
structure Copy (α : Type) where
  words : Nat
  copyWord : Nat → α → α → α
  complete : ∀ source target, (List.range words).foldl (fun x k => copyWord k source x) target = source

/-- The target after the first `k` words. -/
def Copy.copied {α : Type} (copy : Copy α) (k : Nat) (source target : α) : α :=
  (List.range k).foldl (fun x i => copy.copyWord i source x) target

theorem Copy.copied_succ {α : Type} (copy : Copy α) (k : Nat) (source target : α) :
    copy.copied (k + 1) source target = copy.copyWord k source (copy.copied k source target) := by
  unfold copied
  rw [List.range_succ, List.foldl_append]
  rfl

/-- Field after field. -/
def fieldCopy : Copy CapturedChunk where
  words := 5
  copyWord k source target :=
    if k = 0 then { target with startPtsUs := source.startPtsUs }
    else if k = 1 then { target with durationUs := source.durationUs }
    else if k = 2 then { target with sampleRate := source.sampleRate }
    else if k = 3 then { target with channels := source.channels }
    else { target with pcm := source.pcm }
  complete _ _ := rfl

/-! ## The threads -/

/-- Where `vw_spsc_queue_push` is. -/
inductive Producer where
  | idle
  | loadedHead (chunk : CapturedChunk) (currHead : Nat)
  /-- The queue was full when the producer looked. -/
  | full (chunk : CapturedChunk)
  | writing (chunk : CapturedChunk) (currHead written : Nat)

/-- Where `vw_spsc_queue_pop` is, with the caller's chunk. -/
inductive Consumer where
  | idle
  | loadedTail (out : CapturedChunk) (currTail : Nat)
  | reading (out : CapturedChunk) (currTail read : Nat)

/-- The queue, both threads, and what came of their calls so far. -/
structure Spsc (capacityChunks : Nat) where
  queue : SpscQueue capacityChunks
  producer : Producer
  consumer : Consumer
  pushed : List CapturedChunk
  popped : List CapturedChunk
  rejected : List CapturedChunk

/-- Who goes on; an idle thread begins a call with the given chunk. -/
inductive SpscMove where
  | producer (chunk : CapturedChunk)
  | consumer (out : CapturedChunk)

namespace Spsc

variable {capacityChunks : Nat}

def start (capacityChunks : Nat) : Spsc capacityChunks := ⟨.create capacityChunks, .idle, .idle, [], [], []⟩

/-- The next step of the producer. -/
def produce (copy : Copy CapturedChunk) (s : Spsc capacityChunks) (chunk : CapturedChunk) : Spsc capacityChunks :=
  match s.producer with
  | .idle => { s with producer := .loadedHead chunk s.queue.head }
  | .loadedHead chunk currHead =>
    if (currHead + 1) % (capacityChunks + 1) = s.queue.tail then { s with producer := .full chunk }
    else { s with producer := .writing chunk currHead 0 }
  | .full chunk =>
    { s with queue := { s.queue with audioDroppedUs := s.queue.audioDroppedUs + .ofInt chunk.durationUs }
             producer := .idle, rejected := s.rejected ++ [chunk] }
  | .writing chunk currHead written =>
    if written < copy.words then
      let slot := copy.copyWord written chunk (s.queue.ringBuffer currHead)
      { s with queue := { s.queue with ringBuffer := setSlot s.queue.ringBuffer currHead slot }
               producer := .writing chunk currHead (written + 1) }
    else
      { s with queue := { s.queue with head := (currHead + 1) % (capacityChunks + 1)
                                       head_lt := Nat.mod_lt _ (Nat.succ_pos _) }
               producer := .idle, pushed := s.pushed ++ [chunk] }

/-- The next step of the consumer. -/
def consume (copy : Copy CapturedChunk) (s : Spsc capacityChunks) (out : CapturedChunk) : Spsc capacityChunks :=
  match s.consumer with
  | .idle => { s with consumer := .loadedTail out s.queue.tail }
  | .loadedTail out currTail =>
    if currTail = s.queue.head then { s with consumer := .idle }
    else { s with consumer := .reading out currTail 0 }
  | .reading out currTail read =>
    if read < copy.words then
      { s with consumer := .reading (copy.copyWord read (s.queue.ringBuffer currTail) out) currTail (read + 1) }
    else
      { s with queue := { s.queue with tail := (currTail + 1) % (capacityChunks + 1)
                                       tail_lt := Nat.mod_lt _ (Nat.succ_pos _) }
               consumer := .idle, popped := s.popped ++ [out] }

def step (copy : Copy CapturedChunk) (s : Spsc capacityChunks) : SpscMove → Spsc capacityChunks
  | .producer chunk => s.produce copy chunk
  | .consumer out => s.consume copy out

end Spsc

/-! ## The slots -/

namespace SpscQueue

variable {capacityChunks : Nat} (q : SpscQueue capacityChunks)

theorem length_toList : q.toList.length = q.ring.count := Ring.length_toList _

theorem length_toList_lt : q.toList.length < capacityChunks + 1 := by
  rw [length_toList]
  exact Nat.mod_lt _ (Nat.succ_pos _)

/-- The slot the producer writes holds no chunk. -/
theorem slot_ne_head {i : Nat} (hi : i < q.toList.length) : (q.tail + i) % (capacityChunks + 1) ≠ q.head := by
  have hless := q.length_toList_lt
  rw [length_toList] at hi hless
  have hhead : q.ring.index q.ring.count = q.head := q.ring.index_count
  have hslot : q.ring.index i = (q.tail + i) % (capacityChunks + 1) := by rw [Ring.index, tail_ring]
  rw [← hslot, ← hhead, Ne, Ring.index_inj _ (by omega) hless]
  omega

/-- Writing it changes nothing that is held. -/
theorem toList_setSlot_head (x : CapturedChunk) :
    toList { q with ringBuffer := setSlot q.ringBuffer q.head x } = q.toList := by
  refine Ring.toList_eq ?_ fun i hi => ?_
  · exact q.length_toList
  · have hi : i < q.ring.count := hi
    have hslot : q.ring.index i = (q.tail + i) % (capacityChunks + 1) := by rw [Ring.index, tail_ring]
    have hne : q.ring.index i ≠ q.head := by
      rw [hslot]
      exact q.slot_ne_head (by rw [length_toList]; exact hi)
    rw [toList, Ring.toList_getElem?, if_pos hi]
    show some (q.ringBuffer (q.ring.index i)) = some (setSlot q.ringBuffer q.head x (q.ring.index i))
    rw [setSlot_of_ne x hne]

end SpscQueue

namespace Spsc

variable {capacityChunks : Nat} {copy : Copy CapturedChunk}

/-! ## The invariant -/

/-- The producer's point: its index is the stored one, there is room, and the slot is written so far. -/
def ProducerAt (copy : Copy CapturedChunk) (q : SpscQueue capacityChunks) : Producer → Prop
  | .idle | .full _ => True
  | .loadedHead _ currHead => currHead = q.head
  | .writing chunk currHead written =>
    currHead = q.head ∧ (currHead + 1) % (capacityChunks + 1) ≠ q.tail ∧ written ≤ copy.words ∧
      ∃ before, q.ringBuffer currHead = copy.copied written chunk before

/-- The consumer's point: its index is the stored one, something is held, and the slot is read so far. -/
def ConsumerAt (copy : Copy CapturedChunk) (q : SpscQueue capacityChunks) : Consumer → Prop
  | .idle => True
  | .loadedTail _ currTail => currTail = q.tail
  | .reading out currTail read =>
    currTail = q.tail ∧ currTail ≠ q.head ∧ read ≤ copy.words ∧
      ∃ before, out = copy.copied read (q.ringBuffer currTail) before

/-- Indices, slots, program points and history agree. -/
structure Sound (copy : Copy CapturedChunk) (s : Spsc capacityChunks) : Prop where
  history : s.popped ++ s.queue.toList = s.pushed
  producer : ProducerAt copy s.queue s.producer
  consumer : ConsumerAt copy s.queue s.consumer
  dropped : s.queue.audioDroppedUs = (s.rejected.map fun chunk => UInt64.ofInt chunk.durationUs).sum

/-! ### Where a call takes effect -/

/-- The producer stores its index: the push of the chunk it has written. -/
theorem publish_eq_push {s : Spsc capacityChunks} (hs : Sound copy s) {chunk : CapturedChunk} {currHead written : Nat}
    (hat : s.producer = .writing chunk currHead written) (hall : ¬ written < copy.words) :
    { s.queue with head := (currHead + 1) % (capacityChunks + 1), head_lt := Nat.mod_lt _ (Nat.succ_pos _) } =
      (s.queue.push chunk).1 ∧ (s.queue.push chunk).2 = true := by
  have hpoint := hs.producer
  rw [hat] at hpoint
  obtain ⟨rfl, hroom, hwritten, before, hslot⟩ := hpoint
  have hwhole : s.queue.ringBuffer s.queue.head = chunk := by
    rw [hslot, show written = copy.words by omega]
    exact copy.complete chunk before
  have hsame : setSlot s.queue.ringBuffer s.queue.head chunk = s.queue.ringBuffer := by
    funext i
    by_cases hi : i = s.queue.head
    · rw [hi, setSlot_self, hwhole]
    · exact setSlot_of_ne chunk hi
  unfold SpscQueue.push
  dsimp only
  rw [if_neg hroom]
  refine ⟨?_, rfl⟩
  dsimp only
  rw [SpscQueue.mk.injEq]
  exact ⟨hsame.symm, rfl, rfl, rfl⟩

/-- The consumer stores its index: the pop of the chunk it has read. -/
theorem advance_eq_pop {s : Spsc capacityChunks} (hs : Sound copy s) {out : CapturedChunk} {currTail read : Nat}
    (hat : s.consumer = .reading out currTail read) (hall : ¬ read < copy.words) :
    s.queue.pop = some (out, { s.queue with tail := (currTail + 1) % (capacityChunks + 1)
                                            tail_lt := Nat.mod_lt _ (Nat.succ_pos _) }) := by
  have hpoint := hs.consumer
  rw [hat] at hpoint
  obtain ⟨rfl, hsome, hread, before, hout⟩ := hpoint
  have hwhole : out = s.queue.ringBuffer s.queue.tail := by
    rw [hout, show read = copy.words by omega]
    exact copy.complete _ before
  unfold SpscQueue.pop
  rw [if_neg hsome, hwhole]

/-! ### Steps -/

theorem sound_produce {s : Spsc capacityChunks} (hs : Sound copy s) (chunk : CapturedChunk) :
    Sound copy (s.produce copy chunk) := by
  obtain ⟨hhistory, hproducer, hconsumer, hdropped⟩ := hs
  unfold produce
  split
  · exact ⟨hhistory, rfl, hconsumer, hdropped⟩
  · rename_i c currHead hat
    rw [hat] at hproducer
    split
    · exact ⟨hhistory, trivial, hconsumer, hdropped⟩
    · rename_i hroom
      exact ⟨hhistory, ⟨hproducer, hroom, Nat.zero_le _, s.queue.ringBuffer currHead, rfl⟩, hconsumer, hdropped⟩
  · refine ⟨hhistory, trivial, ?_, ?_⟩
    · exact hconsumer
    · show s.queue.audioDroppedUs + _ = _
      rw [hdropped, List.map_append, List.sum_append, List.map_singleton, List.sum_singleton]
  · rename_i c currHead written hat
    have hpoint := hproducer
    rw [hat] at hpoint
    obtain ⟨rfl, hroom, hwritten, before, hslot⟩ := hpoint
    split
    · rename_i hmore
      refine ⟨?_, ⟨rfl, hroom, hmore, before, ?_⟩, ?_, hdropped⟩
      · show s.popped ++ SpscQueue.toList { s.queue with ringBuffer := setSlot s.queue.ringBuffer s.queue.head _ } = _
        rw [SpscQueue.toList_setSlot_head]
        exact hhistory
      · show setSlot s.queue.ringBuffer s.queue.head _ s.queue.head = _
        rw [setSlot_self, hslot, copy.copied_succ]
      · -- the consumer reads another slot
        show ConsumerAt copy { s.queue with ringBuffer := _ } s.consumer
        cases hat' : s.consumer with
        | idle => trivial
        | loadedTail out currTail =>
          rw [hat'] at hconsumer
          exact hconsumer
        | reading out currTail read =>
          rw [hat'] at hconsumer
          obtain ⟨htail, hsome, hread, before', hout⟩ := hconsumer
          refine ⟨htail, hsome, hread, before', ?_⟩
          show out = copy.copied read (setSlot s.queue.ringBuffer s.queue.head _ currTail) before'
          rw [setSlot_of_ne _ hsome]
          exact hout
    · rename_i hall
      obtain ⟨hpush, haccepted⟩ := publish_eq_push ⟨hhistory, hproducer, hconsumer, hdropped⟩ hat hall
      refine ⟨?_, trivial, ?_, hdropped⟩
      · have hlist := s.queue.toList_push c
        rw [haccepted, if_pos rfl] at hlist
        show s.popped ++ SpscQueue.toList { s.queue with head := _, head_lt := _ } = s.pushed ++ [c]
        rw [hpush, hlist, ← hhistory, List.append_assoc]
      · show ConsumerAt copy { s.queue with head := _, head_lt := _ } s.consumer
        cases hat' : s.consumer with
        | idle => trivial
        | loadedTail out currTail =>
          rw [hat'] at hconsumer
          exact hconsumer
        | reading out currTail read =>
          rw [hat'] at hconsumer
          obtain ⟨rfl, hsome, hread, before', hout⟩ := hconsumer
          exact ⟨rfl, fun h => hroom h.symm, hread, before', hout⟩

theorem sound_consume {s : Spsc capacityChunks} (hs : Sound copy s) (out : CapturedChunk) :
    Sound copy (s.consume copy out) := by
  obtain ⟨hhistory, hproducer, hconsumer, hdropped⟩ := hs
  unfold consume
  split
  · exact ⟨hhistory, hproducer, rfl, hdropped⟩
  · rename_i buffer currTail hat
    rw [hat] at hconsumer
    split
    · exact ⟨hhistory, hproducer, trivial, hdropped⟩
    · rename_i hsome
      exact ⟨hhistory, hproducer, ⟨hconsumer, hsome, Nat.zero_le _, buffer, rfl⟩, hdropped⟩
  · rename_i buffer currTail read hat
    have hpoint := hconsumer
    rw [hat] at hpoint
    obtain ⟨rfl, hsome, hread, before, hout⟩ := hpoint
    split
    · rename_i hmore
      refine ⟨hhistory, hproducer, ⟨rfl, hsome, hmore, before, ?_⟩, hdropped⟩
      rw [copy.copied_succ, ← hout]
    · rename_i hall
      have hpop := advance_eq_pop ⟨hhistory, hproducer, hconsumer, hdropped⟩ hat hall
      have hlist := SpscQueue.toList_of_pop_eq_some hpop
      refine ⟨?_, ?_, trivial, hdropped⟩
      · show s.popped ++ [buffer] ++ SpscQueue.toList { s.queue with tail := _, tail_lt := _ } = s.pushed
        rw [← hhistory, hlist, List.append_assoc]
        rfl
      · show ProducerAt copy { s.queue with tail := _, tail_lt := _ } s.producer
        cases hat' : s.producer with
        | idle => trivial
        | full c => trivial
        | loadedHead c currHead =>
          rw [hat'] at hproducer
          exact hproducer
        | writing c currHead written =>
          rw [hat'] at hproducer
          obtain ⟨rfl, hroom, hwritten, before', hslot⟩ := hproducer
          refine ⟨rfl, fun (h : (s.queue.head + 1) % (capacityChunks + 1) = (s.queue.tail + 1) % (capacityChunks + 1)) =>
            hsome ?_, hwritten, before', hslot⟩
          -- the next indices are only equal if the indices are
          have h1 := s.queue.head_lt
          have h2 := s.queue.tail_lt
          rw [wrap_eq (by omega), wrap_eq (by omega)] at h
          split at h <;> split at h <;> omega

theorem producer_consume (s : Spsc capacityChunks) (out : CapturedChunk) :
    (s.consume copy out).producer = s.producer := by
  unfold consume
  split
  · rfl
  · split <;> rfl
  · split <;> rfl

theorem sound_step (s : Spsc capacityChunks) (m : SpscMove) (hs : Sound copy s) : Sound copy (s.step copy m) := by
  cases m with
  | producer chunk => exact sound_produce hs chunk
  | consumer out => exact sound_consume hs out

theorem sound_start (copy : Copy CapturedChunk) (capacityChunks : Nat) : Sound copy (start capacityChunks) := by
  refine ⟨?_, trivial, trivial, rfl⟩
  show [] ++ SpscQueue.toList (.create capacityChunks) = []
  rw [SpscQueue.toList_create]
  rfl

/-! ## Runs -/

/-- What a queue promises: it is first in, first out, and as large as it says. -/
structure Fifo (copy : Copy CapturedChunk) (s : Spsc capacityChunks) : Prop where
  /-- What was popped is what was pushed but for what is held. -/
  order : s.popped ++ s.queue.toList = s.pushed
  held : s.queue.toList.length ≤ capacityChunks
  /-- A slot that is written holds no chunk, and the consumer does not read it. -/
  overwrites : ∀ chunk currHead written, s.producer = .writing chunk currHead written →
    (∀ i < s.queue.toList.length, (s.queue.tail + i) % (capacityChunks + 1) ≠ currHead) ∧
      ∀ out currTail read, s.consumer = .reading out currTail read → currTail ≠ currHead
  /-- A push that will fail has found the queue full. -/
  refuses : ∀ m chunk, (s.step copy m).producer = .full chunk → s.producer = .full chunk ∨ s.queue.toList.length = capacityChunks
  /-- The dropped time is that of the refused chunks, modulo 2^64. -/
  dropped : s.queue.audioDroppedUs = (s.rejected.map fun chunk => UInt64.ofInt chunk.durationUs).sum

theorem Sound.fifo {s : Spsc capacityChunks} (hs : Sound copy s) : Fifo copy s := by
  refine ⟨hs.history, Nat.le_of_lt_succ s.queue.length_toList_lt, fun chunk currHead written hat => ?_,
    fun m chunk hfull => ?_, hs.dropped⟩
  · have hpoint := hs.producer
    rw [hat] at hpoint
    obtain ⟨rfl, -⟩ := hpoint
    refine ⟨fun i hi => s.queue.slot_ne_head hi, fun out currTail read hat' => ?_⟩
    have hpoint' := hs.consumer
    rw [hat'] at hpoint'
    exact hpoint'.2.1
  · cases m with
    | consumer out => exact .inl ((s.producer_consume out).symm.trans hfull)
    | producer next =>
      unfold step produce at hfull
      dsimp only at hfull
      split at hfull
      · cases hfull
      · rename_i c currHead hat
        split at hfull
        · rename_i hmeets
          right
          have hpoint := hs.producer
          rw [hat] at hpoint
          rw [show currHead = s.queue.head from hpoint] at hmeets
          exact Nat.le_antisymm (Nat.le_of_lt_succ s.queue.length_toList_lt) (s.queue.full_iff.mp hmeets)
        · cases hfull
      · cases hfull
      · split at hfull <;> cases hfull

/-- **The queue.** For every capacity, every way to copy a chunk word by word, and every schedule of the steps of one
producer and one consumer. -/
theorem spsc_run (copy : Copy CapturedChunk) (capacityChunks : Nat) (schedule : List SpscMove) :
    Fifo copy (run (Spsc.step copy) (start capacityChunks) schedule) :=
  (run_invariant' sound_step schedule (sound_start copy capacityChunks)).fifo

/-- A chunk that is written but not published is not seen; the one after it finds the queue full. -/
example : let chunk : CapturedChunk := ⟨0, 125, 16000, 1, [3, -4]⟩
    let pushes := List.replicate 8 (SpscMove.producer chunk)
    let pops := List.replicate 2 (SpscMove.consumer chunk)
    let s := run (Spsc.step fieldCopy) (start 1) (pushes.take 7 ++ pops ++ pushes.take 4)
    s.pushed = [chunk] ∧ s.popped = [] ∧ s.rejected = [chunk] ∧ s.queue.audioDroppedUs = 125 := by
  decide +kernel

end Spsc

end VlcWhisper.Plugin
