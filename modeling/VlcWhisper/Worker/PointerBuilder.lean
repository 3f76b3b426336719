import VlcWhisper.Lib.Heap
import VlcWhisper.Worker.SegmentBuilder

/-!
# The builder with its texts behind pointers (`vw_segment_builder.c`)

`SegmentBuilder` has the texts of its cues in place. Here a slot of the queue has a pointer to an allocated text, as in
the source: a push copies the text before it has a slot for it, and frees the copy when the queue cannot grow; a trim
allocates the rest of the hypothesis first and frees it in any case; a pop hands the text over and zeroes the slot; a
clear frees what the slots have.

`Represents` says that such a builder stands for a `SegmentBuilder`: its slots in use have the cues' texts, the others
have none, and every live text is owned by one slot or was handed over. Main results: each operation does what it does
in `SegmentBuilder`, and keeps to this (`pushHypothesis_represents`, `pop_represents`, `clear_represents`).
-/

namespace VlcWhisper.Worker

open VlcWhisper.Lib VlcWhisper.Protocol SegmentBuilder

/-- What the builder writes of a `vw_caption_segment_t`. -/
structure Slot where
  segmentId : Nat
  startPtsUs : Int
  endPtsUs : Int
  isFinal : Bool
  textUtf8 : Option Nat
  textBytes : Nat

/-- A slot of zeros. -/
def Slot.zero : Slot := ⟨0, 0, 0, false, none, 0⟩

/-- `vw_segment_builder_t` and the memory its texts are in. -/
structure PointerBuilder where
  nextSegmentId : Nat
  capacity : Nat
  segmentQueue : Ring Slot capacity
  history : Ring HistoryEntry historyCapacity
  coveredEndUs : Int
  heap : Heap Bytes

namespace PointerBuilder

theorem initialCapacity_pos : 0 < initialCapacity := by decide

theorem historyCapacity_pos : 0 < historyCapacity := by decide

/-- `vw_segment_builder_create`. -/
def create : PointerBuilder where
  nextSegmentId := 1
  capacity := initialCapacity
  segmentQueue := .empty _ initialCapacity_pos .zero
  history := .empty _ historyCapacity_pos ⟨0, 0, []⟩
  coveredEndUs := -1
  heap := .empty

/-- The text that each slot of the queue points to. -/
def texts (m : PointerBuilder) (j : Nat) : Option Nat := (m.segmentQueue.slots j).textUtf8

/-- `vw_segment_builder_free`: what is left of the memory. -/
def free (m : PointerBuilder) : Heap Bytes := m.heap.freeAll m.texts m.capacity

/-- `vw_segment_builder_clear`. -/
def clear (m : PointerBuilder) : PointerBuilder :=
  { m with
    heap := m.heap.freeAll m.texts m.capacity
    segmentQueue := { m.segmentQueue.clear with
      slots := fun j => if j < m.capacity then { m.segmentQueue.slots j with textUtf8 := none }
        else m.segmentQueue.slots j }
    history := m.history.clear
    coveredEndUs := -1 }

/-- `vw_segment_builder_pop`. -/
def pop (m : PointerBuilder) : Option (Slot × PointerBuilder) :=
  if m.segmentQueue.count = 0 then none
  else some (m.segmentQueue.get 0, { m with segmentQueue := m.segmentQueue.vacate .zero })

/-! ## Emitting a cue -/

theorem capacity_pos (m : PointerBuilder) : 0 < m.capacity := Nat.zero_lt_of_lt m.segmentQueue.head_lt

theorem capacity_lt (m : PointerBuilder) : m.capacity < 2 * m.capacity := by
  have hpos := m.capacity_pos
  omega

/-- The slot of the next cue, with its text in the block `copy`. -/
def nextSlot (m : PointerBuilder) (text : Bytes) (start stop : Int) (copy : Nat) : Slot :=
  ⟨m.nextSegmentId, start, stop, true, some copy, text.length % 65536⟩

/-- `vw_segment_builder_enqueue`. -/
def enqueue (a : Alloc) (m : PointerBuilder) (text : Bytes) (start stop : Int) : PointerBuilder × Bool :=
  if !a.copy then (m, false)
  else
    let heap := m.heap.malloc text
    let slot := m.nextSlot text start stop m.heap.next
    if h : m.segmentQueue.count < m.capacity then
      ({ m with heap, nextSegmentId := m.nextSegmentId + 1, segmentQueue := m.segmentQueue.push slot h }, true)
    else if !a.grow then ({ m with heap := heap.free (some m.heap.next) }, false)
    else
      ({ m with heap, nextSegmentId := m.nextSegmentId + 1, capacity := 2 * m.capacity,
                segmentQueue := (m.segmentQueue.growWith (2 * m.capacity) m.capacity_lt .zero).push slot
                  (Nat.lt_of_le_of_lt m.segmentQueue.count_le m.capacity_lt) }, true)

/-- `vw_segment_builder_commit_history`. -/
def commitHistory (m : PointerBuilder) (text : Bytes) (start stop : Int) : PointerBuilder :=
  { m with history := m.history.overwrite ⟨start, stop, text.take (utf8SafeLen text (builderMaxTextBytes - 1))⟩
           coveredEndUs := if m.coveredEndUs < stop then stop else m.coveredEndUs }

/-! ## Deduplication -/

/-- `vw_segment_builder_apply_tail_trim`: `none` if it does not apply, else whether a cue was queued. -/
def applyTailTrim (a : Alloc) (m : PointerBuilder) (text : Bytes) (start stop : Int) (e : HistoryEntry) :
    PointerBuilder × Option Bool :=
  if !nearCue start stop e then (m, none)
  else if tailPrefixLen e.text text = 0 then (m, none)
  else if tailPrefixLen e.text text = text.length || stop ≤ e.endPtsUs then (m, some false)
  else if remainder text e = [] then (m, some false)
  else if !a.trimmed then (m, none)
  else
    let trimmed := m.heap.next
    let r := enqueue a { m with heap := m.heap.malloc (remainder text e) } (remainder text e) e.endPtsUs stop
    if !r.2 then ({ r.1 with heap := r.1.heap.free (some trimmed) }, none)
    else
      let m := commitHistory r.1 (remainder text e) e.endPtsUs stop
      ({ m with heap := m.heap.free (some trimmed) }, some true)

/-- The checks made against one earlier cue. -/
def dedupAgainst (a : Alloc) (m : PointerBuilder) (text : Bytes) (start stop : Int) (e : HistoryEntry) :
    PointerBuilder × Option Bool :=
  if timeMatches start stop e && (e.text = text || contains e.text text) then (m, some false)
  else
    let r := applyTailTrim a m text start stop e
    if r.2.isSome then r
    else if timeMatches start stop e && contains text e.text then (r.1, some false)
    else (r.1, none)

/-- The committed history from its `i`-th newest entry on. -/
def dedupHistory (mem : Site → Alloc) (text : Bytes) (start stop : Int) :
    Nat → PointerBuilder → List HistoryEntry → PointerBuilder × Option Bool
  | _, m, [] => (m, none)
  | i, m, e :: older =>
    if !timeMatches start stop e then dedupHistory mem text start stop (i + 1) m older
    else
      let r := dedupAgainst (mem (.history i)) m text start stop e
      if r.2.isSome then r else dedupHistory mem text start stop (i + 1) r.1 older

/-- The pending cue; its text is read through the pointer. -/
def dedupPending (mem : Site → Alloc) (m : PointerBuilder) (text : Bytes) (start stop : Int) :
    PointerBuilder × Option Bool :=
  match m.segmentQueue.newestFirst.head? with
  | none => (m, none)
  | some last =>
    match last.textUtf8 with
    | none => (m, none)
    | some p =>
      match m.heap.block p with
      | none => ({ m with heap := { m.heap with misused := true } }, some false)
      | some cueText => dedupAgainst (mem .pending) m text start stop ⟨last.startPtsUs, last.endPtsUs, cueText⟩

/-- The pending cue, then the history. -/
def dedup (mem : Site → Alloc) (m : PointerBuilder) (text : Bytes) (start stop : Int) : PointerBuilder × Option Bool :=
  let r := dedupPending mem m text start stop
  if r.2.isSome then r else dedupHistory mem text start stop 0 r.1 r.1.history.newestFirst

/-- The candidate starts inside covered audio and does not reach past the frontier's tolerance. -/
def isCovered (m : PointerBuilder) (start stop : Int) : Bool :=
  0 ≤ m.coveredEndUs && start < m.coveredEndUs && stop ≤ m.coveredEndUs + dedupToleranceUs

/-- The candidate is a phrase worth deduplicating. -/
def isCandidate (m : PointerBuilder) (text : Bytes) (start stop : Int) : Bool :=
  0 ≤ start && start < stop && trimText text != [] && (trimText text).length < builderMaxTextBytes &&
    !isPhantomText (trimText text) && !m.isCovered start stop

/-- Where a candidate that repeats nothing starts. -/
def emitStart (m : PointerBuilder) (start : Int) : Int := if start < m.coveredEndUs then m.coveredEndUs else start

/-- `vw_segment_builder_push_hypothesis`. -/
def pushHypothesis (mem : Site → Alloc) (m : PointerBuilder) (text : Bytes) (start stop : Int) : PointerBuilder × Bool :=
  if !m.isCandidate text start stop then (m, false)
  else
    let r := dedup mem m (trimText text) start stop
    match r.2 with
    | some queued => (r.1, queued)
    | none =>
      if stop ≤ r.1.emitStart start then (r.1, false)
      else
        let q := enqueue (mem .whole) r.1 (trimText text) (r.1.emitStart start) stop
        if !q.2 then (q.1, false)
        else (commitHistory q.1 (trimText text) (r.1.emitStart start) stop, true)

/-! ## What it stands for -/

/-- The slot has the cue, with its text in a block. -/
structure Holds (h : Heap Bytes) (slot : Slot) (c : Cue) : Prop where
  segmentId : slot.segmentId = c.segmentId
  startPtsUs : slot.startPtsUs = c.startPtsUs
  endPtsUs : slot.endPtsUs = c.endPtsUs
  isFinal : slot.isFinal = true
  textBytes : slot.textBytes = c.text.length % 65536
  text : ∃ p, slot.textUtf8 = some p ∧ h.block p = some c.text

/-- The builder stands for `b`; the texts in `loans` are with somebody else. -/
structure Represents (loans : List Nat) (m : PointerBuilder) (b : SegmentBuilder) : Prop where
  nextSegmentId : m.nextSegmentId = b.nextSegmentId
  capacity : m.capacity = b.capacity
  history : m.history = b.history
  coveredEndUs : m.coveredEndUs = b.coveredEndUs
  queue : List.Forall₂ (Holds m.heap) m.segmentQueue.toList b.queue.toList
  inUse : ∀ j < m.capacity, (m.texts j).isSome = true ↔ m.segmentQueue.InUse j
  owned : m.heap.OwnedBy m.texts m.capacity loans

variable {loans : List Nat} {m : PointerBuilder} {b : SegmentBuilder}

theorem represents_create : Represents [] create .create where
  nextSegmentId := rfl
  capacity := rfl
  history := rfl
  coveredEndUs := rfl
  queue := .nil
  inUse := by
    intro j _
    constructor
    · intro hj
      cases hj
    · rintro ⟨i, hi, -⟩
      cases hi
  owned := Heap.ownedBy_empty fun _ _ => rfl

theorem Represents.count (h : Represents loans m b) : m.segmentQueue.count = b.queue.count := by
  have hlen := h.queue.length_eq
  rwa [Ring.length_toList, Ring.length_toList] at hlen

theorem Holds.mono {heap heap' : Heap Bytes} {slot : Slot} {c : Cue} (h : Holds heap slot c)
    (hsame : ∀ p, slot.textUtf8 = some p → heap'.block p = heap.block p) : Holds heap' slot c := by
  obtain ⟨p, hp, htext⟩ := h.text
  exact ⟨h.segmentId, h.startPtsUs, h.endPtsUs, h.isFinal, h.textBytes, p, hp, (hsame p hp).trans htext⟩

/-- The memory may change, but for what the slots have. -/
theorem Represents.reheap {loans' : List Nat} {heap : Heap Bytes} (h : Represents loans m b)
    (howned : heap.OwnedBy m.texts m.capacity loans')
    (hsame : ∀ j < m.capacity, ∀ p, m.texts j = some p → heap.block p = m.heap.block p) :
    Represents loans' { m with heap } b := by
  refine ⟨h.nextSegmentId, h.capacity, h.history, h.coveredEndUs, ?_, h.inUse, howned⟩
  refine List.forall₂_iff_get.mpr ⟨h.queue.length_eq, fun i hi hi' => ?_⟩
  have hholds := (List.forall₂_iff_get.mp h.queue).2 i hi hi'
  obtain ⟨j, hj, -, hslot⟩ := Ring.mem_toList (List.get_mem m.segmentQueue.toList ⟨i, hi⟩)
  refine hholds.mono fun p hp => hsame j hj p ?_
  rw [texts, hslot]
  exact hp

theorem Represents.malloc (h : Represents loans m b) (text : Bytes) :
    Represents (m.heap.next :: loans) { m with heap := m.heap.malloc text } b := by
  refine h.reheap (h.owned.malloc text) fun j hj p hp => Heap.block_malloc_of_ne text ?_
  have hlt := h.owned.fresh p ((h.owned.live p).mpr (.inr ⟨j, hj, hp⟩))
  exact Nat.ne_of_lt hlt

theorem Represents.freeLoan {p : Nat} (h : Represents (p :: loans) m b) :
    Represents loans { m with heap := m.heap.free (some p) } b := by
  refine h.reheap h.owned.free fun j hj q hq => Heap.block_free_of_ne ?_
  rintro rfl
  exact h.owned.apart j hj q hq List.mem_cons_self

theorem Represents.release (h : Represents loans m b) {p : Nat} (hp : p ∈ loans) :
    Represents (loans.erase p) { m with heap := m.heap.free (some p) } b := by
  have hperm := List.perm_cons_erase hp
  have hfirst := h.reheap (h.owned.perm hperm) fun _ _ _ _ => rfl
  exact hfirst.freeLoan

theorem Represents.push {p : Nat} {text : Bytes} (h : Represents (p :: loans) m b) (htext : m.heap.block p = some text)
    (start stop : Int) (hroom : m.segmentQueue.count < m.capacity) (hroom' : b.queue.count < b.capacity) :
    Represents loans
      { m with nextSegmentId := m.nextSegmentId + 1
               segmentQueue := m.segmentQueue.push (m.nextSlot text start stop p) hroom }
      { b with nextSegmentId := b.nextSegmentId + 1
               queue := b.queue.push ⟨b.nextSegmentId, start, stop, text⟩ hroom' } := by
  have hhead : m.segmentQueue.head < m.capacity := m.segmentQueue.head_lt
  have hnone : m.texts m.segmentQueue.head = none := by
    rw [← Option.not_isSome_iff_eq_none, h.inUse _ hhead]
    exact Ring.not_inUse_head hroom
  have htexts : (fun j => ((m.segmentQueue.push (m.nextSlot text start stop p) hroom).slots j).textUtf8) =
      setSlot m.texts m.segmentQueue.head (some p) := by
    funext j
    show (setSlot m.segmentQueue.slots m.segmentQueue.head (m.nextSlot text start stop p) j).textUtf8 = _
    unfold setSlot
    split <;> rfl
  refine ⟨congrArg (· + 1) h.nextSegmentId, h.capacity, h.history, h.coveredEndUs, ?_, ?_, ?_⟩
  · dsimp only
    rw [Ring.toList_push, Ring.toList_push]
    refine List.rel_append h.queue (.cons ?_ .nil)
    exact ⟨h.nextSegmentId, rfl, rfl, rfl, rfl, p, rfl, htext⟩
  · intro j hj
    show ((fun j => ((m.segmentQueue.push (m.nextSlot text start stop p) hroom).slots j).textUtf8) j).isSome = true ↔ _
    rw [htexts, Ring.inUse_push, ← h.inUse j hj]
    unfold setSlot
    by_cases hhere : j = m.segmentQueue.head
    · rw [if_pos hhere]
      exact ⟨fun _ => .inr hhere, fun _ => rfl⟩
    · rw [if_neg hhere]
      exact ⟨.inl, fun hor => hor.resolve_right hhere⟩
  · show m.heap.OwnedBy (fun j => ((m.segmentQueue.push (m.nextSlot text start stop p) hroom).slots j).textUtf8) _ _
    rw [htexts]
    exact h.owned.give hhead hnone

theorem Represents.grow (h : Represents loans m b) (hgrow : m.capacity < 2 * m.capacity)
    (hgrow' : b.capacity < 2 * b.capacity) :
    Represents loans
      { m with capacity := 2 * m.capacity, segmentQueue := m.segmentQueue.growWith (2 * m.capacity) hgrow .zero }
      { b with capacity := 2 * b.capacity, queue := b.queue.grow (2 * b.capacity) hgrow' } := by
  have hcount := m.segmentQueue.count_le
  have htexts {j : Nat} : (if j < m.segmentQueue.count then m.segmentQueue.get j else Slot.zero).textUtf8 =
      if j < m.segmentQueue.count then m.texts (m.segmentQueue.index j) else none := by
    split <;> rfl
  have hcases {j p : Nat} (hp : (if j < m.segmentQueue.count then m.segmentQueue.get j else Slot.zero).textUtf8 = some p) :
      j < m.segmentQueue.count ∧ m.texts (m.segmentQueue.index j) = some p := by
    rw [htexts] at hp
    split at hp
    · rename_i hj
      exact ⟨hj, hp⟩
    · cases hp
  refine ⟨h.nextSegmentId, congrArg (2 * ·) h.capacity, h.history, h.coveredEndUs, ?_, ?_, ?_⟩
  · dsimp only
    rw [Ring.toList_growWith, Ring.toList_grow]
    exact h.queue
  · intro j _
    show (if j < m.segmentQueue.count then m.segmentQueue.get j else Slot.zero).textUtf8.isSome = true ↔ _
    rw [Ring.inUse_growWith, htexts]
    by_cases hj : j < m.segmentQueue.count
    · rw [if_pos hj, h.inUse _ (m.segmentQueue.index_lt j)]
      exact ⟨fun _ => hj, fun _ => ⟨j, hj, rfl⟩⟩
    · rw [if_neg hj]
      exact ⟨fun hp => (by cases hp), fun hlt => absurd hlt hj⟩
  · refine h.owned.regroup (fun p => ?_) fun i _ j _ p hi hj => ?_
    · constructor
      · rintro ⟨i, -, hp⟩
        exact ⟨_, m.segmentQueue.index_lt i, (hcases hp).2⟩
      · rintro ⟨i, hi, hp⟩
        obtain ⟨k, hk, rfl⟩ := (h.inUse i hi).mp (by rw [hp]; rfl)
        refine ⟨k, Nat.lt_of_lt_of_le hk (hcount.trans hgrow.le), ?_⟩
        show (if k < m.segmentQueue.count then m.segmentQueue.get k else Slot.zero).textUtf8 = some p
        rw [htexts, if_pos hk]
        exact hp
    · obtain ⟨hi', hp⟩ := hcases hi
      obtain ⟨hj', hq⟩ := hcases hj
      have hsame := h.owned.alone _ (m.segmentQueue.index_lt i) _ (m.segmentQueue.index_lt j) p hp hq
      exact (Ring.index_inj m.segmentQueue (by omega) (by omega)).mp hsame

theorem Represents.commitHistory (h : Represents loans m b) (text : Bytes) (start stop : Int) :
    Represents loans (m.commitHistory text start stop) (b.commitHistory text start stop) where
  nextSegmentId := h.nextSegmentId
  capacity := h.capacity
  history := by
    unfold PointerBuilder.commitHistory SegmentBuilder.commitHistory
    dsimp only
    rw [h.history]
  coveredEndUs := by
    unfold PointerBuilder.commitHistory SegmentBuilder.commitHistory
    dsimp only
    rw [h.coveredEndUs]
  queue := h.queue
  inUse := h.inUse
  owned := h.owned

/-! ## The operations -/

theorem enqueue_represents (a : Alloc) (h : Represents loans m b) (text : Bytes) (start stop : Int) :
    (enqueue a m text start stop).2 = (SegmentBuilder.enqueue a b text start stop).isSome ∧
      Represents loans (enqueue a m text start stop).1 ((SegmentBuilder.enqueue a b text start stop).getD b) := by
  have hcount := h.count
  have hcapacity := h.capacity
  have hpos := b.capacity_pos
  have hmalloc := h.malloc text
  have hcopy : (m.heap.malloc text).block m.heap.next = some text := Heap.block_malloc_self _ _
  unfold enqueue SegmentBuilder.enqueue
  by_cases hmem : a.copy = true
  · rw [if_neg (by simp [hmem]), if_neg (by simp [hmem])]
    by_cases hroom : m.segmentQueue.count < m.capacity
    · have hroom' : b.queue.count < b.capacity := by omega
      rw [dif_pos hroom, dif_pos hroom']
      exact ⟨rfl, hmalloc.push hcopy start stop hroom hroom'⟩
    · have hroom' : ¬ b.queue.count < b.capacity := by omega
      rw [dif_neg hroom, dif_neg hroom']
      by_cases hgrow : a.grow = true
      · rw [if_neg (by simp [hgrow]), if_neg (by simp [hgrow])]
        refine ⟨rfl, ?_⟩
        have hgrown := hmalloc.grow m.capacity_lt (by omega)
        exact hgrown.push hcopy start stop _ _
      · rw [if_pos (by simp [hgrow]), if_pos (by simp [hgrow])]
        exact ⟨rfl, hmalloc.freeLoan⟩
  · rw [if_pos (by simp [hmem]), if_pos (by simp [hmem])]
    exact ⟨rfl, h⟩

/-- The two levels decide alike, and the one still stands for the other. -/
def Agrees (loans : List Nat) (b : SegmentBuilder) (r : PointerBuilder × Option Bool) (o : Option (SegmentBuilder × Bool)) :
    Prop :=
  r.2 = o.map Prod.snd ∧ Represents loans r.1 ((o.map Prod.fst).getD b)

theorem Agrees.decided {r : PointerBuilder × Option Bool} {d : SegmentBuilder × Bool} (h : Agrees loans b r (some d)) :
    r.2 = some d.2 ∧ Represents loans r.1 d.1 := h

theorem Agrees.undecided {r : PointerBuilder × Option Bool} (h : Agrees loans b r none) :
    r.2 = none ∧ Represents loans r.1 b := h

theorem applyTailTrim_agrees (a : Alloc) (h : Represents loans m b) (text : Bytes) (start stop : Int) (e : HistoryEntry) :
    Agrees loans b (applyTailTrim a m text start stop e) (SegmentBuilder.applyTailTrim a b text start stop e) := by
  unfold applyTailTrim SegmentBuilder.applyTailTrim
  split
  · exact ⟨rfl, h⟩
  split
  · exact ⟨rfl, h⟩
  split
  · exact ⟨rfl, h⟩
  split
  · exact ⟨rfl, h⟩
  split
  · exact ⟨rfl, h⟩
  dsimp only
  obtain ⟨hqueued, hrepresents⟩ := enqueue_represents a (h.malloc (remainder text e)) (remainder text e) e.endPtsUs stop
  cases henq : SegmentBuilder.enqueue a b (remainder text e) e.endPtsUs stop with
  | none =>
    rw [henq] at hqueued hrepresents
    rw [hqueued]
    exact ⟨rfl, hrepresents.freeLoan⟩
  | some b' =>
    rw [henq] at hqueued hrepresents
    rw [hqueued]
    exact ⟨rfl, (hrepresents.commitHistory (remainder text e) e.endPtsUs stop).freeLoan⟩

theorem dedupAgainst_agrees (a : Alloc) (h : Represents loans m b) (text : Bytes) (start stop : Int) (e : HistoryEntry) :
    Agrees loans b (dedupAgainst a m text start stop e) (SegmentBuilder.dedupAgainst a b text start stop e) := by
  unfold dedupAgainst SegmentBuilder.dedupAgainst
  split
  · exact ⟨rfl, h⟩
  have hagrees := applyTailTrim_agrees a h text start stop e
  dsimp only
  cases htrim : SegmentBuilder.applyTailTrim a b text start stop e with
  | some r =>
    rw [htrim] at hagrees
    obtain ⟨hdecides, hrepresents⟩ := hagrees.decided
    rw [hdecides, Option.isSome_some, if_pos rfl]
    exact ⟨hdecides, hrepresents⟩
  | none =>
    rw [htrim] at hagrees
    obtain ⟨hdecides, hrepresents⟩ := hagrees.undecided
    rw [hdecides, Option.isSome_none, if_neg Bool.false_ne_true]
    dsimp only
    split
    · exact ⟨rfl, hrepresents⟩
    · exact ⟨rfl, hrepresents⟩

theorem dedupHistory_agrees (mem : Site → Alloc) (h : Represents loans m b) (text : Bytes) (start stop : Int) (i : Nat)
    (l : List HistoryEntry) :
    Agrees loans b (dedupHistory mem text start stop i m l) (SegmentBuilder.dedupHistory mem b text start stop i l) := by
  induction l generalizing i m with
  | nil => exact ⟨rfl, h⟩
  | cons e older ih =>
    unfold dedupHistory SegmentBuilder.dedupHistory
    split
    · exact ih h (i + 1)
    have hagrees := dedupAgainst_agrees (mem (.history i)) h text start stop e
    dsimp only
    cases hagainst : SegmentBuilder.dedupAgainst (mem (.history i)) b text start stop e with
    | some r =>
      rw [hagainst] at hagrees
      obtain ⟨hdecides, hrepresents⟩ := hagrees.decided
      rw [hdecides, Option.isSome_some, if_pos rfl]
      exact ⟨hdecides, hrepresents⟩
    | none =>
      rw [hagainst] at hagrees
      obtain ⟨hdecides, hrepresents⟩ := hagrees.undecided
      rw [hdecides, Option.isSome_none, if_neg Bool.false_ne_true]
      exact ih hrepresents (i + 1)

theorem dedupPending_agrees (mem : Site → Alloc) (h : Represents loans m b) (text : Bytes) (start stop : Int) :
    Agrees loans b (dedupPending mem m text start stop)
      (b.lastSegment.bind fun last => SegmentBuilder.dedupAgainst (mem .pending) b text start stop last.entry) := by
  have hreverse := List.forall₂_reverse_iff.mpr h.queue
  unfold dedupPending SegmentBuilder.lastSegment
  rw [Ring.newestFirst_eq, Ring.newestFirst_eq]
  generalize m.segmentQueue.toList.reverse = slots at hreverse ⊢
  generalize b.queue.toList.reverse = cues at hreverse ⊢
  cases hreverse with
  | nil => exact ⟨rfl, h⟩
  | cons hholds _ =>
    obtain ⟨p, hp, hread⟩ := hholds.text
    dsimp only [List.head?_cons, Option.bind_some]
    rw [hp]
    dsimp only
    rw [hread]
    dsimp only
    rw [hholds.startPtsUs, hholds.endPtsUs]
    exact dedupAgainst_agrees (mem .pending) h text start stop _

theorem dedup_agrees (mem : Site → Alloc) (h : Represents loans m b) (text : Bytes) (start stop : Int) :
    Agrees loans b (dedup mem m text start stop) (SegmentBuilder.dedup mem b text start stop) := by
  unfold dedup SegmentBuilder.dedup
  have hagrees := dedupPending_agrees mem h text start stop
  dsimp only
  cases hpending : b.lastSegment.bind fun last =>
      SegmentBuilder.dedupAgainst (mem .pending) b text start stop last.entry with
  | some r =>
    rw [hpending] at hagrees
    obtain ⟨hdecides, hrepresents⟩ := hagrees.decided
    rw [hdecides, Option.isSome_some, if_pos rfl]
    exact ⟨hdecides, hrepresents⟩
  | none =>
    rw [hpending] at hagrees
    obtain ⟨hdecides, hrepresents⟩ := hagrees.undecided
    rw [hdecides, Option.isSome_none, if_neg Bool.false_ne_true, hrepresents.history]
    exact dedupHistory_agrees mem hrepresents text start stop 0 _

/-- **A push** does what it does to the builder it stands for. -/
theorem pushHypothesis_represents (mem : Site → Alloc) (h : Represents loans m b) (text : Bytes) (start stop : Int) :
    (pushHypothesis mem m text start stop).2 = (SegmentBuilder.pushHypothesis mem b text start stop).2 ∧
      Represents loans (pushHypothesis mem m text start stop).1
        (SegmentBuilder.pushHypothesis mem b text start stop).1 := by
  have hcandidate : m.isCandidate text start stop = SegmentBuilder.isCandidate b text start stop := by
    unfold isCandidate SegmentBuilder.isCandidate isCovered SegmentBuilder.isCovered
    rw [h.coveredEndUs]
  unfold pushHypothesis SegmentBuilder.pushHypothesis
  rw [hcandidate]
  split
  · exact ⟨rfl, h⟩
  have hagrees := dedup_agrees mem h (trimText text) start stop
  dsimp only
  cases hdedup : SegmentBuilder.dedup mem b (trimText text) start stop with
  | some r =>
    rw [hdedup] at hagrees
    obtain ⟨hdecides, hrepresents⟩ := hagrees.decided
    rw [hdecides]
    exact ⟨rfl, hrepresents⟩
  | none =>
    rw [hdedup] at hagrees
    obtain ⟨hdecides, hrepresents⟩ := hagrees.undecided
    rw [hdecides]
    have hstart : (dedup mem m (trimText text) start stop).1.emitStart start = SegmentBuilder.emitStart b start := by
      unfold emitStart SegmentBuilder.emitStart
      rw [hrepresents.coveredEndUs]
    dsimp only
    rw [hstart]
    split
    · exact ⟨rfl, hrepresents⟩
    obtain ⟨hqueued, hqueue⟩ :=
      enqueue_represents (mem .whole) hrepresents (trimText text) (SegmentBuilder.emitStart b start) stop
    change _ = (SegmentBuilder.enqueue (mem .whole) b _ _ _).isSome at hqueued
    change Represents loans _ ((SegmentBuilder.enqueue (mem .whole) b _ _ _).getD b) at hqueue
    cases henq : SegmentBuilder.enqueue (mem .whole) b (trimText text) (SegmentBuilder.emitStart b start) stop with
    | none =>
      rw [henq] at hqueued hqueue
      rw [hqueued]
      exact ⟨rfl, hqueue⟩
    | some b' =>
      rw [henq] at hqueued hqueue
      rw [hqueued]
      exact ⟨rfl, hqueue.commitHistory _ _ _⟩

/-- **A pop** hands the text of the oldest cue over. -/
theorem pop_represents (h : Represents loans m b) :
    (m.pop = none ∧ b.pop = none) ∨
      ∃ slot m' c b' p, m.pop = some (slot, m') ∧ b.pop = some (c, b') ∧ Holds m.heap slot c ∧
        slot.textUtf8 = some p ∧ m'.heap = m.heap ∧ Represents (p :: loans) m' b' := by
  have hcount := h.count
  unfold pop SegmentBuilder.pop
  by_cases hnone : m.segmentQueue.count = 0
  · rw [if_pos hnone, Ring.pop, if_pos (by omega)]
    exact .inl ⟨rfl, rfl⟩
  · rw [if_neg hnone, Ring.pop, if_neg (by omega)]
    have hpos : 0 < m.segmentQueue.count := by omega
    have htail : m.segmentQueue.get 0 = m.segmentQueue.slots m.segmentQueue.tail := by
      rw [Ring.get, Ring.index, Nat.add_zero, Nat.mod_eq_of_lt m.segmentQueue.tail_lt]
    have hfirst : Holds m.heap (m.segmentQueue.get 0) (b.queue.get 0) := by
      have hslots := Ring.toList_getElem? m.segmentQueue 0
      have hcues := Ring.toList_getElem? b.queue 0
      rw [if_pos hpos] at hslots
      rw [if_pos (by omega)] at hcues
      have hqueue := h.queue
      generalize m.segmentQueue.toList = slots at hslots hqueue
      generalize b.queue.toList = cues at hcues hqueue
      cases hqueue with
      | nil => cases hslots
      | cons hholds _ =>
        rw [← Option.some.inj hslots, ← Option.some.inj hcues]
        exact hholds
    obtain ⟨p, hp, -⟩ := hfirst.text
    have htexts : (fun j => ((m.segmentQueue.vacate .zero).slots j).textUtf8) =
        setSlot m.texts m.segmentQueue.tail none := by
      funext j
      show (setSlot m.segmentQueue.slots m.segmentQueue.tail .zero j).textUtf8 = _
      unfold setSlot
      split <;> rfl
    refine .inr ⟨_, _, _, _, p, rfl, rfl, hfirst, hp, rfl, ?_⟩
    refine ⟨h.nextSegmentId, h.capacity, h.history, h.coveredEndUs, ?_, ?_, ?_⟩
    · dsimp only
      rw [Ring.toList_vacate, Ring.toList_dropOldest]
      have hqueue := h.queue
      generalize m.segmentQueue.toList = slots at hqueue
      generalize b.queue.toList = cues at hqueue
      cases hqueue with
      | nil => exact .nil
      | cons _ hrest => exact hrest
    · intro j hj
      show ((fun j => ((m.segmentQueue.vacate .zero).slots j).textUtf8) j).isSome = true ↔ _
      rw [htexts, Ring.inUse_vacate _ _ hpos, ← h.inUse j hj]
      unfold setSlot
      by_cases hhere : j = m.segmentQueue.tail
      · rw [if_pos hhere]
        exact ⟨fun hsome => (by cases hsome), fun hand => absurd hhere hand.2⟩
      · rw [if_neg hhere]
        exact ⟨fun hsome => ⟨hsome, hhere⟩, And.left⟩
    · show m.heap.OwnedBy (fun j => ((m.segmentQueue.vacate .zero).slots j).textUtf8) _ _
      rw [htexts]
      exact h.owned.take m.segmentQueue.tail_lt (by rw [texts, ← htail, hp])

/-- **A clear** frees the texts of the queue. -/
theorem clear_represents (h : Represents loans m b) : Represents loans m.clear b.clear := by
  have htexts : m.clear.texts = fun j => if j < m.capacity then none else m.texts j := by
    funext j
    show (if j < m.capacity then { m.segmentQueue.slots j with textUtf8 := none } else m.segmentQueue.slots j).textUtf8 = _
    split <;> rfl
  refine ⟨h.nextSegmentId, h.capacity, congrArg Ring.clear h.history, rfl, .nil, ?_, ?_⟩
  · intro j hj
    have hj' : j < m.capacity := hj
    rw [htexts]
    dsimp only
    rw [if_pos hj']
    constructor
    · intro hsome
      cases hsome
    · rintro ⟨i, hi, -⟩
      cases hi
  · rw [htexts]
    exact h.owned.freeAll (Nat.le_refl _)

/-! ## What a refused push leaves -/

/-- Of the builder only the memory may differ. -/
def OnlyHeap (m m' : PointerBuilder) : Prop := ∃ heap, m' = { m with heap }

theorem OnlyHeap.refl (m : PointerBuilder) : OnlyHeap m m := ⟨m.heap, rfl⟩

theorem OnlyHeap.trans {m m' m'' : PointerBuilder} (h : OnlyHeap m m') (h' : OnlyHeap m' m'') : OnlyHeap m m'' := by
  obtain ⟨_, rfl⟩ := h
  obtain ⟨heap, rfl⟩ := h'
  exact ⟨heap, rfl⟩

theorem enqueue_onlyHeap {a : Alloc} {text : Bytes} {start stop : Int} (h : (enqueue a m text start stop).2 = false) :
    OnlyHeap m (enqueue a m text start stop).1 := by
  unfold enqueue at h ⊢
  split
  · exact .refl m
  rename_i hcopy
  rw [if_neg hcopy] at h
  dsimp only at h ⊢
  split
  · rename_i hroom
    rw [dif_pos hroom] at h
    cases h
  rename_i hroom
  rw [dif_neg hroom] at h
  split
  · exact ⟨_, rfl⟩
  · rename_i hgrow
    rw [if_neg hgrow] at h
    cases h

theorem applyTailTrim_onlyHeap {a : Alloc} {text : Bytes} {start stop : Int} {e : HistoryEntry}
    (h : (applyTailTrim a m text start stop e).2 ≠ some true) : OnlyHeap m (applyTailTrim a m text start stop e).1 := by
  unfold applyTailTrim at h ⊢
  split
  · exact .refl m
  split
  · exact .refl m
  split
  · exact .refl m
  split
  · exact .refl m
  split
  · exact .refl m
  rename_i hnear hoverlap hshorter hrest hmem
  rw [if_neg hnear, if_neg hoverlap, if_neg hshorter, if_neg hrest, if_neg hmem] at h
  dsimp only at h ⊢
  split
  · rename_i hfull
    have hsame := enqueue_onlyHeap (Bool.not_eq_true' _ ▸ hfull)
    have hboth := OnlyHeap.trans ⟨_, rfl⟩ hsame
    exact hboth.trans ⟨_, rfl⟩
  · rename_i hqueued
    rw [if_neg hqueued] at h
    exact absurd rfl h

theorem dedupAgainst_onlyHeap {a : Alloc} {text : Bytes} {start stop : Int} {e : HistoryEntry}
    (h : (dedupAgainst a m text start stop e).2 ≠ some true) : OnlyHeap m (dedupAgainst a m text start stop e).1 := by
  unfold dedupAgainst at h ⊢
  split
  · exact .refl m
  rename_i hrepeats
  rw [if_neg hrepeats] at h
  dsimp only at h ⊢
  split
  · rename_i htrims
    rw [if_pos htrims] at h
    exact applyTailTrim_onlyHeap h
  rename_i htrims
  have hsame : OnlyHeap m (applyTailTrim a m text start stop e).1 := by
    apply applyTailTrim_onlyHeap
    rw [Option.not_isSome_iff_eq_none.mp htrims]
    exact fun hsome => (by cases hsome)
  split
  · exact hsame
  · exact hsame

theorem dedupHistory_onlyHeap {mem : Site → Alloc} {text : Bytes} {start stop : Int} {i : Nat} {l : List HistoryEntry}
    (h : (dedupHistory mem text start stop i m l).2 ≠ some true) :
    OnlyHeap m (dedupHistory mem text start stop i m l).1 := by
  induction l generalizing i m with
  | nil => exact .refl m
  | cons e older ih =>
    unfold dedupHistory at h ⊢
    split
    · rename_i htime
      rw [if_pos htime] at h
      exact ih h
    rename_i htime
    rw [if_neg htime] at h
    dsimp only at h ⊢
    split
    · rename_i hdecides
      rw [if_pos hdecides] at h
      exact dedupAgainst_onlyHeap h
    · rename_i hpasses
      rw [if_neg hpasses] at h
      have hsame : OnlyHeap m (dedupAgainst (mem (.history i)) m text start stop e).1 := by
        apply dedupAgainst_onlyHeap
        rw [Option.not_isSome_iff_eq_none.mp hpasses]
        exact fun hsome => (by cases hsome)
      exact hsame.trans (ih h)

theorem dedupPending_onlyHeap {mem : Site → Alloc} {text : Bytes} {start stop : Int}
    (h : (dedupPending mem m text start stop).2 ≠ some true) : OnlyHeap m (dedupPending mem m text start stop).1 := by
  unfold dedupPending at h ⊢
  split
  · exact .refl m
  rename_i last hlast
  rw [hlast] at h
  dsimp only at h
  split
  · exact .refl m
  rename_i p hp
  rw [hp] at h
  dsimp only at h
  split
  · exact ⟨_, rfl⟩
  · rename_i cueText hread
    rw [hread] at h
    exact dedupAgainst_onlyHeap h

theorem dedup_onlyHeap {mem : Site → Alloc} {text : Bytes} {start stop : Int}
    (h : (dedup mem m text start stop).2 ≠ some true) : OnlyHeap m (dedup mem m text start stop).1 := by
  unfold dedup at h ⊢
  dsimp only at h ⊢
  split
  · rename_i hdecides
    rw [if_pos hdecides] at h
    exact dedupPending_onlyHeap h
  · rename_i hpasses
    rw [if_neg hpasses] at h
    have hsame : OnlyHeap m (dedupPending mem m text start stop).1 := by
      apply dedupPending_onlyHeap
      rw [Option.not_isSome_iff_eq_none.mp hpasses]
      exact fun hsome => (by cases hsome)
    exact hsame.trans (dedupHistory_onlyHeap h)

/-- **A refused push** leaves every slot of both rings, the frontier and the counter as they were. -/
theorem pushHypothesis_onlyHeap {mem : Site → Alloc} {text : Bytes} {start stop : Int}
    (h : (pushHypothesis mem m text start stop).2 = false) : OnlyHeap m (pushHypothesis mem m text start stop).1 := by
  unfold pushHypothesis at h ⊢
  split
  · exact .refl m
  rename_i hcand
  rw [if_neg hcand] at h
  dsimp only at h ⊢
  split
  · rename_i queued hdecides
    rw [hdecides] at h
    have hqueued : queued = false := h
    apply dedup_onlyHeap
    rw [hdecides, hqueued]
    exact fun hsome => (by cases hsome)
  rename_i hnone
  rw [hnone] at h
  have hsame : OnlyHeap m (dedup mem m (trimText text) start stop).1 := by
    apply dedup_onlyHeap
    rw [hnone]
    exact fun hsome => (by cases hsome)
  dsimp only at h
  split
  · exact hsame
  rename_i hlate
  rw [if_neg hlate] at h
  split
  · rename_i hfull
    exact hsame.trans (enqueue_onlyHeap (Bool.not_eq_true' _ ▸ hfull))
  · rename_i hroom
    rw [if_neg hroom] at h
    cases h

end PointerBuilder

end VlcWhisper.Worker
