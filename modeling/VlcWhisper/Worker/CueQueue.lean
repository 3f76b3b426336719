import VlcWhisper.Worker.CueDedup
import VlcWhisper.Worker.PointerBuilder

/-!
# The cues over a builder's life (`vw_segment_builder.c`)

A builder is pushed hypotheses, popped and cleared in any order, while whoever pops a cue frees its text some time
later; every allocation may fail. `CueLog` remembers which cues were accepted, which were popped and which were cleared
away. It is followed by a `Log`, which starts anew at every clear.

Main result: `queue_atomic`, in every state the log and the builder agree (`CueLog.Sound`), and a push either adds one
cue or leaves all but the memory alone.
-/

namespace VlcWhisper.Worker

open VlcWhisper.Lib VlcWhisper.Protocol
open SegmentBuilder (Site Alloc)

namespace PointerBuilder

/-- The cue in a slot, its text read through the pointer. -/
def cueOf (m : PointerBuilder) (slot : Slot) : Cue :=
  ⟨slot.segmentId, slot.startPtsUs, slot.endPtsUs, (slot.textUtf8.bind m.heap.block).getD []⟩

/-- The pending cues, oldest first. -/
def cues (m : PointerBuilder) : List Cue := m.segmentQueue.toList.map m.cueOf

variable {loans : List Nat} {m : PointerBuilder} {b : SegmentBuilder}

theorem Holds.cueOf {slot : Slot} {c : Cue} (h : Holds m.heap slot c) : m.cueOf slot = c := by
  obtain ⟨p, hp, hread⟩ := h.text
  unfold PointerBuilder.cueOf
  rw [h.segmentId, h.startPtsUs, h.endPtsUs, hp, Option.bind_some, hread, Option.getD_some]

theorem Represents.cues (h : Represents loans m b) : m.cues = b.queue.toList := by
  have hqueue := h.queue
  unfold PointerBuilder.cues
  generalize m.segmentQueue.toList = slots at hqueue
  generalize b.queue.toList = pending at hqueue
  induction hqueue with
  | nil => rfl
  | cons hholds _ ih => rw [List.map_cons, hholds.cueOf, ih]

end PointerBuilder

/-- A push of `m` that is refused leaves all but the memory alone; one that is not adds one cue, with the next number. -/
structure PointerBuilder.Atomic (m : PointerBuilder) (r : PointerBuilder × Bool) : Prop where
  refused : r.2 = false → OnlyHeap m r.1 ∧ r.1.cues = m.cues
  accepted : r.2 = true → ∃ c, r.1.cues = m.cues ++ [c] ∧ c.segmentId = m.nextSegmentId ∧
    r.1.nextSegmentId = m.nextSegmentId + 1

/-! ## Runs -/

inductive CueOp where
  | push (mem : Site → Alloc) (text : Bytes) (start stop : Int)
  | pop
  | clear
  /-- Free a text that a pop handed over. -/
  | release (p : Nat)

/-- A builder with what happened to it. -/
structure CueLog where
  builder : PointerBuilder
  /-- The cues accepted before the last clear. -/
  before : List Cue
  /-- Those of them that were popped. -/
  earlier : List Cue
  /-- Those of them that were cleared away. -/
  cleared : List Cue
  /-- The cues accepted since. -/
  accepted : List Cue
  popped : List Cue
  /-- The texts that were handed over and are not freed yet. -/
  loans : List Nat

namespace CueLog

def start : CueLog := ⟨.create, [], [], [], [], [], []⟩

def step (s : CueLog) : CueOp → CueLog
  | .push mem text start stop =>
    let r := s.builder.pushHypothesis mem text start stop
    { s with builder := r.1, accepted := s.accepted ++ if r.2 then r.1.cues.getLast?.toList else [] }
  | .pop =>
    match s.builder.pop with
    | none => s
    | some (slot, builder) =>
      { s with builder, popped := s.popped ++ [s.builder.cueOf slot], loans := slot.textUtf8.toList ++ s.loans }
  | .clear =>
    { s with builder := s.builder.clear
             before := s.before ++ s.accepted, earlier := s.earlier ++ s.popped
             cleared := s.cleared ++ s.builder.cues, accepted := [], popped := [] }
  | .release p =>
    if p ∈ s.loans then
      { s with builder := { s.builder with heap := s.builder.heap.free (some p) }, loans := s.loans.erase p }
    else s

/-- What the builder and the log say of each other. -/
structure Sound (s : CueLog) : Prop where
  /-- First in, first out: what is popped and what is pending are the accepted cues, in order. -/
  order : s.popped ++ s.builder.cues = s.accepted
  /-- Over the builder's life, pops return accepted cues in order, -/
  inOrder : (s.earlier ++ s.popped).Sublist (s.before ++ s.accepted)
  /-- and every accepted cue is popped once, cleared away once, or pending. -/
  once : (s.earlier ++ s.popped ++ (s.cleared ++ s.builder.cues)).Perm (s.before ++ s.accepted)
  ids : ((s.before ++ s.accepted).map Cue.segmentId).Pairwise (· < ·)
  nextId : ∀ c ∈ s.before ++ s.accepted, c.segmentId < s.builder.nextSegmentId
  /-- The slots in use have a text, and no other slot has. -/
  texts : ∀ j < s.builder.capacity, (s.builder.texts j).isSome = true ↔ s.builder.segmentQueue.InUse j
  /-- A live text is that of one slot or was handed over; none is freed twice or read after it is freed. -/
  owned : s.builder.heap.OwnedBy s.builder.texts s.builder.capacity s.loans
  /-- When the builder is freed, only what was handed over is live. -/
  freed : s.builder.free.misused = false ∧ ∀ p, (s.builder.free.block p).isSome = true ↔ p ∈ s.loans
  history : s.builder.history.toList = (s.accepted.rtake historyCapacity).map Cue.stored
  frontier : if s.accepted = [] then s.builder.coveredEndUs = -1
    else IsGreatest {e | ∃ c ∈ s.accepted, c.endPtsUs = e} s.builder.coveredEndUs

/-! ## The invariant -/

/-- The log since the last clear is `t`, whose builder is the one that this one stands for. -/
structure Follows (s : CueLog) (t : Log) : Prop where
  known : t.Known
  represents : s.builder.Represents s.loans t.builder
  accepted : s.accepted = t.cues
  popped : s.popped = t.popped
  earlier : s.earlier.Sublist s.before
  once : (s.earlier ++ s.cleared).Perm s.before
  ids : ((s.before ++ s.accepted).map Cue.segmentId).Pairwise (· < ·)
  nextId : ∀ c ∈ s.before ++ s.accepted, c.segmentId < s.builder.nextSegmentId

theorem follows_start : start.Follows (Log.start .create) where
  known := ⟨Log.inv_start _, Log.recalls_start _⟩
  represents := PointerBuilder.represents_create
  accepted := rfl
  popped := rfl
  earlier := .slnil
  once := .nil
  ids := .nil
  nextId := by
    intro c hc
    cases hc

variable {s : CueLog} {t : Log}

theorem Follows.order (h : s.Follows t) : s.popped ++ s.builder.cues = s.accepted := by
  rw [h.popped, h.represents.cues, h.accepted]
  exact h.known.inv.order

/-- A push accepts nothing, and changes the memory at most; or it accepts one cue, with the next number. -/
theorem Follows.push_cases (h : s.Follows t) (mem : Site → Alloc) (text : Bytes) (start stop : Int) :
    ((s.builder.pushHypothesis mem text start stop).2 = false ∧
      PointerBuilder.OnlyHeap s.builder (s.builder.pushHypothesis mem text start stop).1 ∧
      (s.builder.pushHypothesis mem text start stop).1.cues = s.builder.cues ∧
      (t.step (.push mem text start stop)).cues = t.cues) ∨
    ∃ c, (s.builder.pushHypothesis mem text start stop).2 = true ∧ c.segmentId = s.builder.nextSegmentId ∧
      (s.builder.pushHypothesis mem text start stop).1.nextSegmentId = s.builder.nextSegmentId + 1 ∧
      (s.builder.pushHypothesis mem text start stop).1.cues = s.builder.cues ++ [c] ∧
      (t.step (.push mem text start stop)).cues = t.cues ++ [c] := by
  obtain ⟨hqueued, hrepresents⟩ :=
    PointerBuilder.pushHypothesis_represents mem h.represents text start stop
  have honly : (s.builder.pushHypothesis mem text start stop).2 = false →
      PointerBuilder.OnlyHeap s.builder (s.builder.pushHypothesis mem text start stop).1 :=
    PointerBuilder.pushHypothesis_onlyHeap
  have hcues := hrepresents.cues
  have hnext := hrepresents.nextSegmentId
  rw [h.represents.cues, h.represents.nextSegmentId]
  unfold Log.step
  dsimp only
  cases hpush : SegmentBuilder.pushHypothesis mem t.builder text start stop with
  | mk b' r =>
    rw [hpush] at hqueued hcues hnext
    rw [hqueued] at honly ⊢
    rw [hcues, hnext]
    rcases SegmentBuilder.pushHypothesis_cases hpush with ⟨rfl, rfl⟩ | ⟨rfl, -, out, start', -, -, hemit⟩
    · refine .inl ⟨rfl, honly rfl, rfl, ?_⟩
      exact congrArg (List.map Prod.snd) (List.append_nil t.accepted)
    · refine .inr ⟨_, rfl, rfl, hemit.nextSegmentId, hemit.queue, ?_⟩
      unfold Log.cues
      dsimp only
      rw [if_pos rfl, Log.lastSegment_of_emitted hemit]
      exact List.map_append

/-- What pops return over the builder's life is in order. -/
theorem Follows.inOrder (h : s.Follows t) : (s.earlier ++ s.popped).Sublist (s.before ++ s.accepted) := by
  have hpopped : s.popped.Sublist s.accepted := by
    rw [← h.order]
    exact List.sublist_append_left _ _
  exact h.earlier.append hpopped

theorem Follows.onceNow (h : s.Follows t) :
    (s.earlier ++ s.popped ++ (s.cleared ++ s.builder.cues)).Perm (s.before ++ s.accepted) := by
  rw [← h.order, List.append_assoc]
  have hswap := List.perm_append_comm_assoc s.popped s.cleared s.builder.cues
  refine (hswap.append_left s.earlier).trans ?_
  rw [← List.append_assoc]
  exact h.once.append_right _

theorem follows_step (op : CueOp) (h : s.Follows t) : ∃ t', (s.step op).Follows t' := by
  cases op with
  | push mem text start stop =>
    have hknown : (t.step (.push mem text start stop)).Known :=
      ⟨Log.step_inv _ h.known.inv, Log.recalls_step _ h.known.recalls⟩
    have hrepresents := (PointerBuilder.pushHypothesis_represents mem h.represents text start stop).2
    refine ⟨t.step (.push mem text start stop), ?_⟩
    rcases h.push_cases mem text start stop with ⟨hrefused, ⟨heap, honly⟩, -, hlog⟩ | ⟨c, hqueued, hid, hnext, hcues, hlog⟩
    · have hstep : s.step (.push mem text start stop) =
          { s with builder := (s.builder.pushHypothesis mem text start stop).1 } := by
        unfold step
        dsimp only
        rw [hrefused, if_neg Bool.false_ne_true, List.append_nil]
      rw [hstep]
      refine ⟨hknown, hrepresents, h.accepted.trans hlog.symm, h.popped, h.earlier, h.once, h.ids, ?_⟩
      rw [honly]
      exact h.nextId
    · have hstep : s.step (.push mem text start stop) =
          { s with builder := (s.builder.pushHypothesis mem text start stop).1, accepted := s.accepted ++ [c] } := by
        unfold step
        dsimp only
        rw [hqueued, hcues, if_pos rfl, List.getLast?_concat, Option.toList_some]
      rw [hstep]
      refine ⟨hknown, hrepresents, ?_, h.popped, h.earlier, h.once, ?_, ?_⟩
      · rw [hlog, ← h.accepted]
      · dsimp only
        rw [← List.append_assoc, List.map_append, List.pairwise_append]
        refine ⟨h.ids, List.pairwise_singleton _ _, ?_⟩
        intro i hi j hj
        obtain ⟨d, hd, rfl⟩ := List.mem_map.mp hi
        rw [List.mem_singleton.mp hj, hid]
        exact h.nextId d hd
      · dsimp only
        rw [← List.append_assoc, hnext]
        intro d hd
        rcases List.mem_append.mp hd with hd | hd
        · have hlt := h.nextId d hd
          omega
        · rw [List.mem_singleton.mp hd, hid]
          omega
  | pop =>
    have hknown : (t.step .pop).Known := ⟨Log.step_inv _ h.known.inv, Log.recalls_step _ h.known.recalls⟩
    refine ⟨t.step .pop, ?_⟩
    rcases PointerBuilder.pop_represents h.represents with
      ⟨hnone, hnone'⟩ | ⟨slot, m', c, b', p, hpop, hpop', hholds, hp, hheap, hrepresents⟩
    · have ht : t.step .pop = t := by
        unfold Log.step
        rw [hnone']
      unfold step
      rw [hnone, ht]
      exact h
    · have ht : t.step .pop = { t with builder := b', popped := t.popped ++ [c] } := by
        unfold Log.step
        rw [hpop']
      have hid : m'.nextSegmentId = s.builder.nextSegmentId := by
        unfold PointerBuilder.pop at hpop
        split at hpop
        · cases hpop
        · rw [← (Prod.mk.inj (Option.some.inj hpop)).2]
      rw [ht] at hknown ⊢
      unfold step
      rw [hpop]
      dsimp only
      rw [hp, hholds.cueOf]
      refine ⟨hknown, hrepresents, h.accepted, congrArg (· ++ [c]) h.popped, h.earlier, h.once, h.ids, ?_⟩
      dsimp only
      rw [hid]
      exact h.nextId
  | clear =>
    have hknown : (Log.start t.builder).Known := ⟨Log.inv_start _, Log.recalls_start _⟩
    have hrepresents := PointerBuilder.clear_represents h.represents
    refine ⟨Log.start t.builder, hknown, hrepresents, rfl, rfl, h.inOrder, h.onceNow, ?_, ?_⟩
    · show ((s.before ++ s.accepted ++ []).map Cue.segmentId).Pairwise (· < ·)
      rw [List.append_nil]
      exact h.ids
    · show ∀ c ∈ s.before ++ s.accepted ++ [], c.segmentId < s.builder.nextSegmentId
      rw [List.append_nil]
      exact h.nextId
  | release p =>
    refine ⟨t, ?_⟩
    unfold step
    dsimp only
    split
    · rename_i hp
      exact ⟨h.known, h.represents.release hp, h.accepted, h.popped, h.earlier, h.once, h.ids, h.nextId⟩
    · exact h

theorem follows_run (ops : List CueOp) : ∃ t, (run step start ops).Follows t := by
  have hstep (s : CueLog) (op : CueOp) (h : ∃ t, s.Follows t) : ∃ t, (s.step op).Follows t := by
    obtain ⟨t, ht⟩ := h
    exact follows_step op ht
  exact run_invariant' hstep ops ⟨_, follows_start⟩

/-! ## What follows -/

theorem Follows.frontier (h : s.Follows t) : if s.accepted = [] then s.builder.coveredEndUs = -1
    else IsGreatest {e | ∃ c ∈ s.accepted, c.endPtsUs = e} s.builder.coveredEndUs := by
  rw [h.accepted, h.represents.coveredEndUs]
  have hcovered := h.known.inv.covered
  split
  · rename_i hnone
    have hends : t.ends = [] := by
      have haccepted : t.accepted = [] := List.map_eq_nil_iff.mp hnone
      unfold Log.ends
      rw [haccepted, List.map_nil]
    rw [hcovered, hends]
    rfl
  · rename_i hsome
    constructor
    · have hne : t.ends ≠ [] := by
        intro hnil
        have haccepted : t.accepted = [] := List.map_eq_nil_iff.mp hnil
        exact hsome (by rw [Log.cues, haccepted, List.map_nil])
      rw [hcovered, List.getLast?_eq_some_getLast hne, Option.getD_some]
      obtain ⟨a, ha, hend⟩ := List.mem_map.mp (List.getLast_mem hne)
      exact ⟨a.2, List.mem_map_of_mem ha, hend⟩
    · rintro e ⟨c, hc, rfl⟩
      exact (h.known.cue_bounds hc).2

theorem Follows.sound (h : s.Follows t) : s.Sound where
  order := h.order
  inOrder := h.inOrder
  once := h.onceNow
  ids := h.ids
  nextId := h.nextId
  texts := h.represents.inUse
  owned := h.represents.owned
  freed := h.represents.owned.live_freeAll
  history := by
    rw [h.represents.history, h.accepted]
    exact h.known.recalls.history
  frontier := h.frontier

/-- **The queue of a builder** is sound in every state, and the next push is atomic. -/
theorem queue_atomic (ops : List CueOp) :
    (run step start ops).Sound ∧ ∀ mem text start stop,
      let m := (run step CueLog.start ops).builder
      PointerBuilder.Atomic m (m.pushHypothesis mem text start stop) := by
  obtain ⟨t, ht⟩ := follows_run ops
  refine ⟨ht.sound, ?_⟩
  intro mem text start stop
  rcases ht.push_cases mem text start stop with ⟨hrefused, honly, hcues, -⟩ | ⟨c, hqueued, hid, hnext, hcues, -⟩
  · refine ⟨fun _ => ⟨honly, hcues⟩, ?_⟩
    intro h
    rw [hrefused] at h
    cases h
  · refine ⟨?_, fun _ => ⟨c, hcues, hid, hnext⟩⟩
    intro h
    rw [hqueued] at h
    cases h

end CueLog

end VlcWhisper.Worker
