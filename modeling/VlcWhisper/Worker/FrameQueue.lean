import VlcWhisper.Lib.Machine
import VlcWhisper.Lib.Ring
import VlcWhisper.Protocol.Codec

/-!
# The worker's frame queue (`vw_worker_queue.c`)

The bounded queue between the reader thread and the main loop. A push into a full queue makes room: it evicts the
oldest AUDIO, or, if there is none, a control frame that the incoming one supersedes; if there is none of these either,
the incoming frame is the one that is lost. `push_cases` is everything a push can do.

Main results: `accounted`, no frame is lost track of in any run, and `retained`, what a push may evict.
-/

namespace VlcWhisper.Worker

open VlcWhisper.Lib VlcWhisper.Protocol

/-- `vw_worker_frame_t`. -/
structure Frame where
  type : MessageType
  payload : Option Bytes
  deriving DecidableEq

/-- `vw_worker_queue_audio_duration_us`. -/
def audioDurationUs (payload : Option Bytes) : Nat :=
  match decodePayload .audioPcm payload with
  | some (.audioPcm audio) => if 0 < audio.durationUs then audio.durationUs.toInt.toNat else 0
  | _ => 0

namespace Frame

/-- `vw_worker_queue_frame_audio_duration_us`. -/
def audioUs (f : Frame) : Nat := if f.type = .audioPcm then audioDurationUs f.payload else 0

def isAudio (f : Frame) : Bool := f.type = .audioPcm

def isShutdown (f : Frame) : Bool := f.type = .shutdown

/-- A directive that the queue must not lose. -/
def isRequired (f : Frame) : Bool := f.type = .startSession || f.type = .stopSession

/-- What a control frame of the given type takes the place of. -/
def isSuperseded (type : MessageType) (f : Frame) : Bool := f.type = .pause || f.type = .resume || f.type = type

end Frame

/-- `vw_worker_queue_t`; `head` and `tail` of the source are the ring's. -/
structure FrameQueue (capacity : Nat) where
  slots : Ring Frame capacity
  droppedAudioUs : UInt64
  queuedAudioUs : UInt64

namespace FrameQueue

variable {capacity : Nat}

/-- `vw_worker_queue_create`, which takes no capacity 0. -/
def create (capacity : Nat) (h : 0 < capacity) : FrameQueue capacity where
  slots := .empty _ h ⟨.hello, none⟩
  droppedAudioUs := 0
  queuedAudioUs := 0

/-- The queued frames, oldest first. -/
def toList (q : FrameQueue capacity) : List Frame := q.slots.toList

/-- The oldest frame of a kind. -/
def oldest (q : FrameQueue capacity) (kind : Frame → Bool) : Option (Fin q.slots.count) :=
  (List.finRange q.slots.count).find? fun i => kind (q.slots.get i)

/-- The control frame that makes room for a control frame of the given type. -/
def controlVictim (q : FrameQueue capacity) (type : MessageType) : Option (Fin q.slots.count) :=
  if type = .shutdown then q.oldest fun _ => true
  else match q.oldest (Frame.isSuperseded type) with
    | some i => some i
    | none =>
      if type = .startSession || type = .stopSession then q.oldest fun f => !f.isShutdown else none

/-- Store a frame behind the others; `us` is what is accounted for it. -/
def store (q : FrameQueue capacity) (f : Frame) (us : Nat) (h : q.slots.count < capacity) : FrameQueue capacity :=
  { q with slots := q.slots.push f h, queuedAudioUs := q.queuedAudioUs + .ofNat us }

/-- Take a frame out; `us` is what is accounted for it. -/
def evict (q : FrameQueue capacity) (i : Fin q.slots.count) (us : Nat) : FrameQueue capacity where
  slots := q.slots.removeAt i i.isLt
  droppedAudioUs := q.droppedAudioUs + .ofNat us
  queuedAudioUs := q.queuedAudioUs - .ofNat us

theorem evict_count_lt (q : FrameQueue capacity) (i : Fin q.slots.count) (us : Nat) :
    (q.evict i us).slots.count < capacity := by
  have hi := i.isLt
  have hle := q.slots.count_le
  change q.slots.count - 1 < capacity
  omega

/-- What a push does: the queue, the frame whose payload it frees, and whether the incoming one is stored. -/
structure Push (capacity : Nat) where
  queue : FrameQueue capacity
  lost : Option Frame
  accepted : Bool

/-- `vw_worker_queue_push`. -/
def push (q : FrameQueue capacity) (f : Frame) : Push capacity :=
  if h : q.slots.count < capacity then ⟨q.store f f.audioUs h, none, true⟩
  else match q.oldest Frame.isAudio with
    | some i =>
      let victim := q.slots.get i
      let us := audioDurationUs victim.payload
      ⟨(q.evict i us).store f f.audioUs (q.evict_count_lt i us), some victim, true⟩
    | none =>
      if f.type = .audioPcm then ⟨{ q with droppedAudioUs := q.droppedAudioUs + .ofNat f.audioUs }, some f, false⟩
      else match q.controlVictim f.type with
        | none => ⟨q, some f, false⟩
        | some i =>
          let victim := q.slots.get i
          ⟨(q.evict i victim.audioUs).store f 0 (q.evict_count_lt i _), some victim, true⟩

/-- `vw_worker_queue_pop`. -/
def pop (q : FrameQueue capacity) : Option (Frame × FrameQueue capacity) :=
  match q.slots.pop with
  | none => none
  | some (f, slots) => some (f, { q with slots, queuedAudioUs := q.queuedAudioUs - .ofNat f.audioUs })

/-! ## What a push does -/

theorem toList_split (q : FrameQueue capacity) (i : Fin q.slots.count) :
    q.toList = q.toList.take i ++ q.slots.get i :: q.toList.drop (i + 1) := by
  obtain ⟨hlt, hget⟩ := List.getElem?_eq_some_iff.mp (show q.toList[i.val]? = some (q.slots.get i) by
    rw [toList, Ring.toList_getElem?, if_pos i.isLt])
  conv_lhs => rw [← List.take_append_drop i q.toList, List.drop_eq_getElem_cons hlt, hget]

theorem toList_eraseIdx (q : FrameQueue capacity) (i : Fin q.slots.count) :
    q.toList.eraseIdx i = q.toList.take i ++ q.toList.drop (i + 1) :=
  List.eraseIdx_eq_take_drop_succ _ _

theorem oldest_eq_some {q : FrameQueue capacity} {kind : Frame → Bool} {i : Fin q.slots.count}
    (h : q.oldest kind = some i) : kind (q.slots.get i) = true ∧ ∀ f ∈ q.toList.take i, kind f = false := by
  obtain ⟨hkind, pre, post, hsplit, hpre⟩ := List.find?_eq_some_iff_append.mp h
  refine ⟨hkind, ?_⟩
  have hlist : q.toList = (List.finRange q.slots.count).map fun j : Fin q.slots.count => q.slots.get j := by
    rw [toList, Ring.toList, ← List.map_coe_finRange_eq_range, List.map_map]
    rfl
  have hlen : pre.length = i := by
    have hget : (List.finRange q.slots.count)[pre.length]? = some i := by simp [hsplit]
    obtain ⟨hlt, hget⟩ := List.getElem?_eq_some_iff.mp hget
    rw [List.getElem_finRange] at hget
    simp [← hget]
  rw [hlist, hsplit, List.map_append, List.take_left' (by simpa using hlen)]
  intro f hf
  obtain ⟨j, hj, rfl⟩ := List.mem_map.mp hf
  simpa using hpre j hj

theorem oldest_eq_none {q : FrameQueue capacity} {kind : Frame → Bool} (h : q.oldest kind = none) :
    ∀ f ∈ q.toList, kind f = false := by
  intro f hf
  obtain ⟨i, hi, rfl⟩ := List.mem_map.mp hf
  have := List.find?_eq_none.mp h ⟨i, List.mem_range.mp hi⟩ (List.mem_finRange _)
  simpa using this

/-- Why the incoming frame takes the place of a queued one, with these before it. -/
inductive Yields (queued : List Frame) (f : Frame) (before : List Frame) (victim : Frame) : Prop
  | audio : victim.isAudio = true → Yields queued f before victim
  | shutdown : (∀ g ∈ queued, g.isAudio = false) → f.isAudio = false → f.isShutdown = true → before = [] →
      Yields queued f before victim
  | superseded : (∀ g ∈ queued, g.isAudio = false) → f.isAudio = false → f.isShutdown = false →
      victim.isSuperseded f.type = true → Yields queued f before victim
  | required : (∀ g ∈ queued, g.isAudio = false) → f.isRequired = true → victim.isShutdown = false →
      Yields queued f before victim

/-- Why the incoming frame is lost itself. -/
inductive Rejects (queued : List Frame) (f : Frame) : Prop
  | audio : f.isAudio = true → Rejects queued f
  | soft : f.isRequired = false → f.isShutdown = false → (∀ g ∈ queued, g.isSuperseded f.type = false) →
      Rejects queued f
  | allShutdown : f.isRequired = true → (∀ g ∈ queued, g.isShutdown = true) → Rejects queued f

theorem controlVictim_eq_some {q : FrameQueue capacity} {f : Frame} {i : Fin q.slots.count}
    (haudio : ∀ g ∈ q.toList, g.isAudio = false) (hf : f.isAudio = false) (h : q.controlVictim f.type = some i) :
    Yields q.toList f (q.toList.take i) (q.slots.get i) := by
  rw [controlVictim] at h
  split at h
  · rename_i hshut
    obtain ⟨-, hbefore⟩ := oldest_eq_some h
    refine .shutdown haudio hf (by simpa [Frame.isShutdown] using hshut) ?_
    rw [List.eq_nil_iff_forall_not_mem]
    exact fun g hg => absurd (hbefore g hg) (by simp)
  rename_i hshut
  split at h
  · rename_i j hj
    obtain rfl := Option.some.inj h
    exact .superseded haudio hf (by simpa [Frame.isShutdown] using hshut) (oldest_eq_some hj).1
  split at h
  · rename_i hreq
    exact .required haudio hreq (by simpa using (oldest_eq_some h).1)
  · cases h

theorem controlVictim_eq_none {q : FrameQueue capacity} {f : Frame} (hpos : 0 < q.slots.count)
    (h : q.controlVictim f.type = none) : Rejects q.toList f := by
  rw [controlVictim] at h
  split at h
  · have hne : q.toList ≠ [] := List.ne_nil_of_length_pos (by simpa [toList] using hpos)
    obtain ⟨g, hg⟩ := List.exists_mem_of_ne_nil _ hne
    exact absurd (oldest_eq_none h g hg) (by simp)
  rename_i hshut
  split at h
  · cases h
  rename_i hsup
  split at h
  · rename_i hreq
    exact .allShutdown hreq fun g hg => by simpa using oldest_eq_none h g hg
  · rename_i hreq
    exact .soft (Bool.not_eq_true _ |>.mp hreq) (by simpa [Frame.isShutdown] using hshut) (oldest_eq_none hsup)

/-- Everything a push can do to the frames. -/
inductive Pushes (q : FrameQueue capacity) (f : Frame) : Push capacity → Prop
  | stored (r : Push capacity) : q.slots.count < capacity → r.lost = none → r.accepted = true →
      r.queue.toList = q.toList ++ [f] → r.queue.droppedAudioUs = q.droppedAudioUs →
      r.queue.queuedAudioUs = q.queuedAudioUs + .ofNat f.audioUs → Pushes q f r
  | evicted (r : Push capacity) (before after : List Frame) (victim : Frame) : q.slots.count = capacity →
      r.lost = some victim → r.accepted = true → q.toList = before ++ victim :: after →
      r.queue.toList = before ++ after ++ [f] → Yields q.toList f before victim →
      r.queue.droppedAudioUs = q.droppedAudioUs + .ofNat victim.audioUs →
      r.queue.queuedAudioUs = q.queuedAudioUs - .ofNat victim.audioUs + .ofNat f.audioUs → Pushes q f r
  | rejected (r : Push capacity) : q.slots.count = capacity → r.lost = some f → r.accepted = false →
      r.queue.toList = q.toList → Rejects q.toList f →
      r.queue.droppedAudioUs = q.droppedAudioUs + .ofNat f.audioUs →
      r.queue.queuedAudioUs = q.queuedAudioUs → Pushes q f r

theorem toList_store_evict (q : FrameQueue capacity) (i : Fin q.slots.count) (evicted stored : Nat) (f : Frame) :
    ((q.evict i evicted).store f stored (q.evict_count_lt i evicted)).toList = q.toList.eraseIdx i ++ [f] := by
  rw [store, toList, Ring.toList_push, evict, Ring.toList_removeAt]
  rfl

theorem push_cases (q : FrameQueue capacity) (f : Frame) : Pushes q f (q.push f) := by
  rw [push]
  split
  · rename_i hroom
    exact .stored _ hroom rfl rfl (Ring.toList_push _ _ _) rfl rfl
  rename_i hfull
  have hcount : q.slots.count = capacity := by have := q.slots.count_le; omega
  split
  · rename_i i hi
    have haudio := (oldest_eq_some hi).1
    have hus : audioDurationUs (q.slots.get i).payload = (q.slots.get i).audioUs := by
      rw [Frame.audioUs, if_pos (by simpa [Frame.isAudio] using haudio)]
    refine .evicted _ _ _ _ hcount rfl rfl (q.toList_split i) ?_ (.audio haudio) (by simp only [store, evict, hus])
      (by simp only [store, evict, hus])
    rw [toList_store_evict, toList_eraseIdx]
  rename_i hnone
  have haudio := oldest_eq_none hnone
  split
  · rename_i hf
    exact .rejected _ hcount rfl rfl rfl (.audio (by simpa [Frame.isAudio] using hf)) rfl rfl
  rename_i hf
  have hus : f.audioUs = 0 := by rw [Frame.audioUs, if_neg hf]
  split
  · rename_i hvictim
    have hpos : 0 < q.slots.count := by have := q.slots.head_lt; omega
    exact .rejected _ hcount rfl rfl rfl (controlVictim_eq_none hpos hvictim) (by simp [hus]) rfl
  · rename_i i hi
    have hyields := controlVictim_eq_some haudio (by simpa [Frame.isAudio] using hf) hi
    refine .evicted _ _ _ _ hcount rfl rfl (q.toList_split i) ?_ hyields rfl ?_
    · rw [toList_store_evict, toList_eraseIdx]
    · simp only [store, evict, hus]

theorem pop_eq_some {q r : FrameQueue capacity} {f : Frame} (h : q.pop = some (f, r)) :
    q.toList = f :: r.toList ∧ r.droppedAudioUs = q.droppedAudioUs ∧
      r.queuedAudioUs = q.queuedAudioUs - .ofNat f.audioUs := by
  rw [pop] at h
  split at h
  · cases h
  · rename_i g slots hpop
    obtain ⟨rfl, rfl⟩ := Prod.mk.inj (Option.some.inj h)
    exact ⟨Ring.toList_of_pop_eq_some hpop, rfl, rfl⟩

end FrameQueue

/-! ## Runs -/

inductive QueueOp where
  | push (f : Frame)
  | pop

/-- A queue with what happened to the frames since it was created. -/
structure QueueLog (capacity : Nat) where
  queue : FrameQueue capacity
  pushed : List Frame
  popped : List Frame
  freed : List Frame

namespace QueueLog

variable {capacity : Nat}

def start (capacity : Nat) (h : 0 < capacity) : QueueLog capacity := ⟨.create capacity h, [], [], []⟩

def step (s : QueueLog capacity) : QueueOp → QueueLog capacity
  | .push f =>
    let r := s.queue.push f
    { s with queue := r.queue, pushed := s.pushed ++ [f], freed := s.freed ++ r.lost.toList }
  | .pop =>
    match s.queue.pop with
    | none => s
    | some (f, queue) => { s with queue, popped := s.popped ++ [f] }

/-- The durations of some frames, added up. -/
def totalUs (fs : List Frame) : Nat := (fs.map Frame.audioUs).sum

theorem totalUs_append (fs gs : List Frame) : totalUs (fs ++ gs) = totalUs fs + totalUs gs := by
  simp [totalUs]

/-- No frame is lost track of: the queue holds the surviving pushes in their order, a payload is queued, popped or
freed, and the two counters are right modulo 2⁶⁴. -/
structure Accounted (s : QueueLog capacity) : Prop where
  bounded : s.queue.toList.length ≤ capacity
  order : (s.popped ++ s.queue.toList).Sublist s.pushed
  payloads : s.pushed.Perm (s.popped ++ s.queue.toList ++ s.freed)
  queued : s.queue.queuedAudioUs = .ofNat (totalUs s.queue.toList)
  dropped : s.queue.droppedAudioUs = .ofNat (totalUs s.freed)

theorem accounted_start (h : 0 < capacity) : (start capacity h).Accounted := by
  have hnil : (FrameQueue.create capacity h).toList = [] := Ring.toList_empty _ _
  refine ⟨?_, ?_, ?_, ?_, rfl⟩ <;> simp only [start, hnil]
  · exact Nat.zero_le _
  · exact .refl []
  · exact .refl []
  · rfl

theorem accounted_push {s : QueueLog capacity} (f : Frame) (h : s.Accounted) : (s.step (.push f)).Accounted := by
  obtain ⟨-, horder, hpayloads, hqueued, hdropped⟩ := h
  have hbounded : (s.queue.push f).queue.toList.length ≤ capacity :=
    (Ring.length_toList _).trans_le (s.queue.push f).queue.slots.count_le
  cases s.queue.push_cases f with
  | stored hroom hlost _ hlist hdrop hqueue =>
    refine ⟨hbounded, ?_, ?_, ?_, ?_⟩
    · simp only [step, hlist, ← List.append_assoc]
      exact horder.append_right [f]
    · rw [List.perm_iff_count] at hpayloads ⊢
      intro g
      have hcount := hpayloads g
      simp only [step, hlist, hlost, Option.toList_none, List.count_append, List.count_nil] at hcount ⊢
      omega
    · simp only [step, hqueue, hlist, totalUs_append, hqueued, UInt64.ofNat_add]
      simp [totalUs]
    · simp only [step, hdrop, hlost, Option.toList_none, List.append_nil, hdropped]
  | evicted before after victim _ hlost _ hsplit hlist _ hdrop hqueue =>
    rw [hsplit] at horder hpayloads hqueued
    refine ⟨hbounded, ?_, ?_, ?_, ?_⟩
    · simp only [step, hlist, ← List.append_assoc]
      refine List.Sublist.append_right ?_ [f]
      refine List.Sublist.trans ?_ horder
      simp only [List.append_assoc]
      exact (List.Sublist.append_left (List.sublist_cons_self victim after) before).append_left _
    · -- the victim moves over to the freed ones, the incoming frame to the queue
      rw [List.perm_iff_count] at hpayloads ⊢
      intro g
      have hcount := hpayloads g
      simp only [step, hlist, hlost, Option.toList_some, List.count_append, List.count_cons, List.count_nil]
        at hcount ⊢
      omega
    · simp only [step, hqueue, hlist, hqueued, totalUs_append]
      have hvictim : totalUs (victim :: after) = totalUs after + victim.audioUs := by simp [totalUs, Nat.add_comm]
      rw [hvictim, ← Nat.add_assoc, UInt64.ofNat_add _ victim.audioUs, UInt64.add_sub_cancel, UInt64.ofNat_add _ (totalUs [f])]
      simp [totalUs]
    · simp only [step, hdrop, hlost, Option.toList_some, totalUs_append, hdropped, UInt64.ofNat_add]
      simp [totalUs]
  | rejected _ hlost _ hlist _ hdrop hqueue =>
    refine ⟨hbounded, ?_, ?_, ?_, ?_⟩
    · simp only [step, hlist]
      exact horder.trans (List.sublist_append_left _ _)
    · simp only [step, hlist, hlost, Option.toList_some, ← List.append_assoc]
      exact hpayloads.append_right [f]
    · simp only [step, hqueue, hlist, hqueued]
    · simp only [step, hdrop, hlost, Option.toList_some, totalUs_append, hdropped, UInt64.ofNat_add]
      simp [totalUs]

theorem accounted_pop {s : QueueLog capacity} (h : s.Accounted) : (s.step .pop).Accounted := by
  rw [step]
  split
  · exact h
  · rename_i f queue hpop
    obtain ⟨hsplit, hdrop, hqueue⟩ := FrameQueue.pop_eq_some hpop
    obtain ⟨hbounded, horder, hpayloads, hqueued, hdropped⟩ := h
    rw [hsplit] at hbounded horder hpayloads hqueued
    refine ⟨by simp at hbounded; simp only; omega, ?_, ?_, ?_, hdrop.trans hdropped⟩
    · simpa using horder
    · simpa using hpayloads
    · have hhead : totalUs (f :: queue.toList) = totalUs queue.toList + f.audioUs := by simp [totalUs, Nat.add_comm]
      simp only [hqueue, hqueued, hhead, UInt64.ofNat_add, UInt64.add_sub_cancel]

theorem accounted_step {s : QueueLog capacity} (op : QueueOp) (h : s.Accounted) : (s.step op).Accounted := by
  cases op with
  | push f => exact accounted_push f h
  | pop => exact accounted_pop h

/-- **Accounting.** In every run of pushes and pops every frame is accounted for, and the audio that was pushed is the
audio popped, dropped and still queued. -/
theorem accounted {capacity : Nat} (h : 0 < capacity) (ops : List QueueOp) :
    (run step (start capacity h) ops).Accounted ∧
      UInt64.ofNat (totalUs (run step (start capacity h) ops).pushed) =
        .ofNat (totalUs (run step (start capacity h) ops).popped) +
          (run step (start capacity h) ops).queue.droppedAudioUs +
          (run step (start capacity h) ops).queue.queuedAudioUs := by
  have hall : (run step (start capacity h) ops).Accounted :=
    run_invariant' (fun _ op hs => accounted_step op hs) ops (accounted_start h)
  refine ⟨hall, ?_⟩
  have htotal := (hall.payloads.map Frame.audioUs).sum_nat
  rw [hall.queued, hall.dropped, totalUs, htotal]
  simp only [List.map_append, List.sum_append, UInt64.ofNat_add, totalUs]
  rw [UInt64.add_assoc, UInt64.add_comm (.ofNat _) (.ofNat _), ← UInt64.add_assoc]

/-- An AUDIO frame without samples that claims to last as long as possible. -/
def endlessAudio : Frame :=
  ⟨.audioPcm, some (List.replicate 24 0 ++ List.replicate 7 0xFF ++ [0x7F] ++ List.replicate 4 0)⟩

theorem accounted_endless : (run step (start 2 (by decide)) [.push endlessAudio, .push endlessAudio, .push endlessAudio,
    .pop]).Accounted :=
  (accounted (by decide) _).1

/-- The counter of the queued audio is a sum modulo 2⁶⁴ only. -/
theorem not_forall_queued_exact : ¬ ∀ (capacity : Nat) (h : 0 < capacity) (ops : List QueueOp),
    (run step (start capacity h) ops).queue.queuedAudioUs.toNat =
      totalUs (run step (start capacity h) ops).queue.toList := by
  intro h
  have h3 := h 3 (by decide) (List.replicate 3 (.push endlessAudio))
  revert h3
  decide

/-! ## What is retained -/

/-- What a push leaves in the queue: a START or STOP is stored unless there is nothing but SHUTDOWN; only a SHUTDOWN
evicts a SHUTDOWN; AUDIO evicts no control frame; other control frames evict no START or STOP. -/
structure Retains (q : FrameQueue capacity) (f : Frame) (r : FrameQueue.Push capacity) : Prop where
  required : f.isRequired = true → ¬ (q.toList.length = capacity ∧ ∀ g ∈ q.toList, g.isShutdown = true) →
    r.accepted = true ∧ ∃ kept, r.queue.toList = kept ++ [f]
  shutdowns : f.isShutdown = false → r.queue.toList.filter Frame.isShutdown = q.toList.filter Frame.isShutdown
  controls : f.isAudio = true →
    r.queue.toList.filter (fun g => !g.isAudio) = q.toList.filter fun g => !g.isAudio
  directives : f.isRequired = false → f.isShutdown = false →
    r.queue.toList.filter Frame.isRequired = q.toList.filter Frame.isRequired

theorem filter_evicted {kind : Frame → Bool} {before after : List Frame} {victim f : Frame}
    (hvictim : kind victim = false) (hf : kind f = false) :
    (before ++ after ++ [f]).filter kind = (before ++ victim :: after).filter kind := by
  simp [List.filter_append, hvictim, hf]

theorem push_retains (q : FrameQueue capacity) (f : Frame) : Retains q f (q.push f) := by
  have hlen : q.toList.length = q.slots.count := Ring.length_toList _
  cases q.push_cases f with
  | stored hroom _ haccepted hlist _ _ =>
    refine ⟨fun _ _ => ⟨haccepted, _, hlist⟩, ?_, ?_, ?_⟩
    · intro hf
      simp [hlist, List.filter_append, hf]
    · intro hf
      simp [hlist, List.filter_append, hf]
    · intro hf _
      simp [hlist, List.filter_append, hf]
  | evicted before after victim _ _ haccepted hsplit hlist hyields _ _ =>
    refine ⟨fun _ _ => ⟨haccepted, _, hlist⟩, ?_, ?_, ?_⟩
    · intro hf
      rw [hlist, hsplit]
      refine filter_evicted ?_ hf
      cases hyields with
      | audio h => simp [Frame.isAudio, Frame.isShutdown] at h ⊢; simp [h]
      | shutdown _ _ h _ => rw [hf] at h; cases h
      | superseded _ _ _ h =>
        simp only [Frame.isSuperseded, Frame.isShutdown, Bool.or_eq_true, decide_eq_true_eq, decide_eq_false_iff_not]
          at h hf ⊢
        rcases h with (h | h) | h <;> simp [h, hf]
      | required _ _ h => exact h
    · intro hf
      rw [hlist, hsplit]
      refine filter_evicted ?_ (by simp [hf])
      cases hyields with
      | audio h => simp [h]
      | shutdown _ h _ _ => rw [hf] at h; cases h
      | superseded _ h _ _ => rw [hf] at h; cases h
      | required _ h _ => simp [Frame.isAudio, Frame.isRequired] at h hf; simp [hf] at h
    · intro hf hshut
      rw [hlist, hsplit]
      refine filter_evicted ?_ hf
      cases hyields with
      | audio h => simp [Frame.isAudio, Frame.isRequired] at h ⊢; simp [h]
      | shutdown _ _ h _ => rw [hshut] at h; cases h
      | superseded _ _ _ h =>
        simp only [Frame.isSuperseded, Frame.isRequired, Bool.or_eq_true, Bool.or_eq_false_iff, decide_eq_true_eq,
          decide_eq_false_iff_not] at h hf ⊢
        rcases h with (h | h) | h <;> simp [h, hf]
      | required _ h _ => rw [hf] at h; cases h
  | rejected hcount _ _ hlist hrejects _ _ =>
    refine ⟨?_, fun _ => by rw [hlist], fun _ => by rw [hlist], fun _ _ => by rw [hlist]⟩
    intro hreq hunless
    cases hrejects with
    | audio h => simp [Frame.isAudio, Frame.isRequired] at h hreq; simp [h] at hreq
    | soft h _ _ => rw [hreq] at h; cases h
    | allShutdown _ h => exact absurd ⟨hlen.trans hcount, h⟩ hunless

/-- A SHUTDOWN is always stored. -/
theorem mem_push_of_isShutdown (q : FrameQueue capacity) {f : Frame} (hf : f.isShutdown = true) :
    f ∈ (q.push f).queue.toList := by
  cases q.push_cases f with
  | stored _ _ _ hlist _ _ => simp [hlist]
  | evicted _ _ _ _ _ _ _ hlist _ _ _ => simp [hlist]
  | rejected _ _ _ _ hrejects _ _ =>
    cases hrejects with
    | audio h => simp [Frame.isAudio, Frame.isShutdown] at h hf; simp [h] at hf
    | soft _ h _ => rw [hf] at h; cases h
    | allShutdown h _ => simp [Frame.isRequired, Frame.isShutdown] at h hf; simp [hf] at h

/-- Since a time when `popped` had been popped, a SHUTDOWN was popped, or there is one in the queue. -/
def ShutdownSince (popped : List Frame) (s : QueueLog capacity) : Prop :=
  ∃ since, s.popped = popped ++ since ∧ ∃ g ∈ since ++ s.queue.toList, g.isShutdown = true

theorem shutdownSince_step {popped : List Frame} {s : QueueLog capacity} (op : QueueOp) (h : s.ShutdownSince popped) :
    (s.step op).ShutdownSince popped := by
  obtain ⟨since, hpopped, g, hg, hshut⟩ := h
  cases op with
  | pop =>
    rw [step]
    split
    · exact ⟨since, hpopped, g, hg, hshut⟩
    · rename_i f queue hpop
      refine ⟨since ++ [f], by simp [hpopped], g, ?_, hshut⟩
      rw [(FrameQueue.pop_eq_some hpop).1] at hg
      simpa using hg
  | push f =>
    refine ⟨since, hpopped, ?_⟩
    rcases List.mem_append.mp hg with hg | hg
    · exact ⟨g, List.mem_append_left _ hg, hshut⟩
    by_cases hf : f.isShutdown = true
    · exact ⟨f, List.mem_append_right _ (mem_push_of_isShutdown s.queue hf), hf⟩
    · have hkeep := (push_retains s.queue f).shutdowns (Bool.not_eq_true _ |>.mp hf)
      have hmem : g ∈ (s.queue.push f).queue.toList.filter Frame.isShutdown := by
        rw [hkeep]
        exact List.mem_filter.mpr ⟨hg, hshut⟩
      exact ⟨g, List.mem_append_right _ (List.mem_filter.mp hmem).1, hshut⟩

/-- **Retention.** In every reachable queue a push keeps what it must, and a SHUTDOWN that was pushed is followed by
one in the queue until one is popped. -/
theorem retained {capacity : Nat} (h : 0 < capacity) (ops : List QueueOp) (f : Frame) (later : List QueueOp) :
    Retains (run step (start capacity h) ops).queue f ((run step (start capacity h) ops).queue.push f) ∧
      (f.isShutdown = true → (run step (start capacity h) (ops ++ .push f :: later)).ShutdownSince
        (run step (start capacity h) ops).popped) := by
  refine ⟨push_retains _ f, ?_⟩
  intro hf
  rw [run_append]
  generalize run step (start capacity h) ops = s
  refine run_invariant' (fun _ op hs => shutdownSince_step op hs) later ?_
  exact ⟨[], by simp [step], f, mem_push_of_isShutdown s.queue hf, hf⟩

theorem retained_shutdown_pause : (run step (start 1 (by decide))
    ([.push ⟨.pause, none⟩] ++ .push ⟨.shutdown, none⟩ :: [.push ⟨.pause, none⟩])).ShutdownSince [] :=
  (retained (by decide) [.push ⟨.pause, none⟩] ⟨.shutdown, none⟩ [.push ⟨.pause, none⟩]).2 rfl

end QueueLog

end VlcWhisper.Worker
