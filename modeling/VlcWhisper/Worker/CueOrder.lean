import VlcWhisper.Lib.Machine
import VlcWhisper.Worker.SegmentBuilder

/-!
# The cues of a segment builder, in order

From a clear on, a builder is pushed hypotheses and popped. `Log` remembers every accepted cue with the frontier
`coveredEndUs` it met, and every popped one. The ends of accepted cues strictly increase (`Inv.ends`), so the
frontier is the end of the newest one, and a cue can start before it in one way only: it was trimmed against a
history entry that is not the newest.

Main result: `noOverlap_iff`, the cues of a run do not overlap exactly if no push of it is such a trim.
-/

namespace VlcWhisper.Worker

open VlcWhisper.Lib VlcWhisper.Protocol SegmentBuilder

/-! ## Runs -/

inductive BuilderOp where
  | push (mem : Site → Alloc) (text : Bytes) (start stop : Int)
  | pop

/-- A builder with what happened to it since its last clear. -/
structure Log where
  builder : SegmentBuilder
  /-- The accepted cues, each with the frontier before its push. -/
  accepted : List (Int × Cue)
  popped : List Cue

namespace Log

/-- Right after a clear. -/
def start (b : SegmentBuilder) : Log := ⟨b.clear, [], []⟩

def step (s : Log) : BuilderOp → Log
  | .push mem text start stop =>
    let r := pushHypothesis mem s.builder text start stop
    { s with builder := r.1
             accepted := s.accepted ++
               if r.2 then (r.1.lastSegment.map fun c => (s.builder.coveredEndUs, c)).toList else [] }
  | .pop =>
    match s.builder.pop with
    | none => s
    | some (c, builder) => { s with builder, popped := s.popped ++ [c] }

/-- Accepted cues start at or after the frontier they met; popped cues are in order and do not overlap. -/
structure NoOverlap (s : Log) : Prop where
  frontier : ∀ a ∈ s.accepted, a.1 ≤ a.2.startPtsUs
  disjoint : s.popped.Pairwise fun c d => c.endPtsUs ≤ d.startPtsUs
  starts : s.popped.Pairwise fun c d => c.startPtsUs ≤ d.startPtsUs

/-- The input is a phrase that is trimmed against a history entry with newer ones before it. -/
def OlderTrim (s : Log) : BuilderOp → Prop
  | .push mem text start stop =>
    isCandidate s.builder text start stop = true ∧ ∃ newer e older, newer ≠ [] ∧
      TrimsHistory mem s.builder (trimText text) start stop newer e older
  | .pop => False

/-! ## The invariant -/

/-- The ends of the accepted cues. -/
def ends (s : Log) : List Int := s.accepted.map fun a => a.2.endPtsUs

/-- The builder's queue, history and frontier in terms of the accepted cues. -/
structure Inv (s : Log) : Prop where
  order : s.popped ++ s.builder.queue.toList = s.accepted.map Prod.snd
  covered : s.builder.coveredEndUs = s.ends.getLast?.getD (-1)
  history : s.builder.history.toList.map HistoryEntry.endPtsUs <:+ s.ends
  frontiers : s.accepted.Pairwise fun a b => a.2.endPtsUs ≤ b.1
  reaches : ∀ a ∈ s.accepted, a.1 < a.2.endPtsUs
  nonempty : ∀ a ∈ s.accepted, a.2.startPtsUs < a.2.endPtsUs

theorem inv_start (b : SegmentBuilder) : (start b).Inv where
  order := rfl
  covered := rfl
  history := List.suffix_rfl
  frontiers := .nil
  reaches := by simp [start]
  nonempty := by simp [start]

theorem Inv.ends {s : Log} (h : s.Inv) : s.ends.Pairwise (· < ·) := by
  rw [Log.ends, List.pairwise_map]
  refine h.frontiers.imp_of_mem ?_
  intro a b _ hb hab
  exact lt_of_le_of_lt hab (h.reaches b hb)

theorem Inv.le_covered {s : Log} (h : s.Inv) {a : Int × Cue} (ha : a ∈ s.accepted) :
    a.2.endPtsUs ≤ s.builder.coveredEndUs := by
  have hmem : a.2.endPtsUs ∈ s.ends := List.mem_map_of_mem ha
  obtain ⟨pre, hpre⟩ : ∃ pre, s.ends = pre ++ [s.builder.coveredEndUs] := by
    rw [h.covered, List.getLast?_eq_some_getLast (List.ne_nil_of_mem hmem)]
    exact ⟨_, (List.dropLast_append_getLast (List.ne_nil_of_mem hmem)).symm⟩
  have hpair := h.ends
  rw [hpre] at hmem hpair
  rcases List.mem_append.mp hmem with hmem | hmem
  · exact ((List.pairwise_append.mp hpair).2.2 _ hmem _ (by simp)).le
  · exact (List.mem_singleton.mp hmem).le

theorem Inv.lastSegment {s : Log} (h : s.Inv) {last : Cue} (hlast : s.builder.lastSegment = some last) :
    last.endPtsUs = s.builder.coveredEndUs := by
  rw [SegmentBuilder.lastSegment, Ring.newestFirst_eq, List.head?_reverse] at hlast
  have hend : s.ends.getLast? = some last.endPtsUs := by
    have hmap : s.ends = (s.popped ++ s.builder.queue.toList).map Cue.endPtsUs := by
      rw [h.order, Log.ends, List.map_map]
      rfl
    rw [hmap, List.getLast?_map, List.getLast?_append, hlast]
    rfl
  rw [h.covered, hend]
  rfl

theorem Inv.history_entry {s : Log} (h : s.Inv) {newer older : List HistoryEntry} {e : HistoryEntry}
    (hsplit : s.builder.history.newestFirst = newer ++ e :: older) :
    if newer = [] then e.endPtsUs = s.builder.coveredEndUs else e.endPtsUs < s.builder.coveredEndUs := by
  rw [Ring.newestFirst_eq, List.reverse_eq_iff, List.reverse_append, List.reverse_cons] at hsplit
  obtain ⟨pre, hpre⟩ := h.history
  rw [hsplit] at hpre
  rw [h.covered, ← hpre]
  have hpair := h.ends
  rw [← hpre] at hpair
  cases newer with
  | nil => simp
  | cons x newer =>
    obtain ⟨l, hmem, hl⟩ : ∃ l, e.endPtsUs ∈ l ∧
        pre ++ (older.reverse ++ [e] ++ (x :: newer).reverse).map HistoryEntry.endPtsUs = l ++ [x.endPtsUs] :=
      ⟨pre ++ (older.reverse ++ [e] ++ newer.reverse).map HistoryEntry.endPtsUs, by simp, by simp⟩
    rw [hl, List.pairwise_append] at hpair
    rw [if_neg (by simp), hl, List.getLast?_concat]
    exact hpair.2.2 _ hmem x.endPtsUs (by simp)

/-! ## One step -/

theorem covered_lt_of_isCandidate {b : SegmentBuilder} {text : Bytes} {start stop : Int}
    (h : isCandidate b text start stop = true) : b.coveredEndUs < stop := by
  simp only [isCandidate, isCovered, Bool.and_eq_true, decide_eq_true_eq, Bool.not_eq_true',
    Bool.and_eq_false_iff, decide_eq_false_iff_not] at h
  simp only [dedupToleranceUs] at h
  omega

/-- Where an accepted cue starts: before the frontier exactly after an older trim. -/
theorem start_of_accepts {s : Log} (h : s.Inv) {mem : Site → Alloc} {text out : Bytes} {start stop start' : Int}
    (hcand : isCandidate s.builder text start stop = true)
    (hacc : Accepts mem s.builder (trimText text) start stop out start')
    (holder : ¬ s.OlderTrim (.push mem text start stop)) : s.builder.coveredEndUs ≤ start' := by
  cases hacc with
  | whole _ _ =>
    rw [emitStart]
    split <;> omega
  | pending last hlast _ => exact (h.lastSegment hlast).ge
  | history newer e older htrims =>
    have hnewer : newer = [] := by
      by_contra hne
      exact holder ⟨hcand, newer, e, older, hne, htrims⟩
    have hend := h.history_entry htrims.split
    rw [if_pos hnewer] at hend
    exact hend.ge

theorem lastSegment_of_emitted {b b' : SegmentBuilder} {text : Bytes} {start stop : Int}
    (h : Emitted b text start stop b') : b'.lastSegment = some ⟨b.nextSegmentId, start, stop, text⟩ := by
  rw [SegmentBuilder.lastSegment, Ring.newestFirst_eq, h.queue]
  simp

theorem step_cases (s : Log) (op : BuilderOp) :
    ((s.step op).accepted = s.accepted ∧ (s.step op).builder.coveredEndUs = s.builder.coveredEndUs ∧
      (s.step op).builder.history = s.builder.history ∧
      (s.step op).popped ++ (s.step op).builder.queue.toList = s.popped ++ s.builder.queue.toList) ∨
    ∃ mem text start stop out start' b', op = .push mem text start stop ∧
      isCandidate s.builder text start stop = true ∧ start' < stop ∧
      Accepts mem s.builder (trimText text) start stop out start' ∧ Emitted s.builder out start' stop b' ∧
      s.step op = { s with builder := b', accepted := s.accepted ++
        [(s.builder.coveredEndUs, ⟨s.builder.nextSegmentId, start', stop, out⟩)] } := by
  cases op with
  | push mem text start stop =>
    simp only [step]
    cases hpush : pushHypothesis mem s.builder text start stop with
    | mk b' r =>
      rcases pushHypothesis_cases hpush with ⟨rfl, rfl⟩ | ⟨rfl, hcand, out, start', hlt, hacc, hemit⟩
      · exact .inl ⟨by simp, rfl, rfl, rfl⟩
      · refine .inr ⟨mem, text, start, stop, out, start', b', rfl, hcand, hlt, hacc, hemit, ?_⟩
        simp [lastSegment_of_emitted hemit]
  | pop =>
    refine .inl ?_
    simp only [step, SegmentBuilder.pop]
    cases hpop : s.builder.queue.pop with
    | none => exact ⟨rfl, rfl, rfl, rfl⟩
    | some r =>
      obtain ⟨c, queue⟩ := r
      refine ⟨rfl, rfl, rfl, ?_⟩
      simp [Ring.toList_of_pop_eq_some hpop]

theorem step_inv {s : Log} (op : BuilderOp) (h : s.Inv) : (s.step op).Inv := by
  rcases step_cases s op with ⟨hacc, hcov, hhist, hqueue⟩ | ⟨mem, text, start, stop, out, start', b', -, hcand,
    hlt, -, hemit, hs⟩
  · have hends : (s.step op).ends = s.ends := by rw [Log.ends, hacc, Log.ends]
    refine ⟨?_, ?_, ?_, ?_, ?_, ?_⟩
    · rw [hqueue, hacc, h.order]
    · rw [hcov, hends, h.covered]
    · rw [hhist, hends]
      exact h.history
    · rw [hacc]
      exact h.frontiers
    · rw [hacc]
      exact h.reaches
    · rw [hacc]
      exact h.nonempty
  · have hpast := covered_lt_of_isCandidate hcand
    rw [hs]
    refine ⟨?_, ?_, ?_, ?_, ?_, ?_⟩
    · rw [hemit.queue, ← List.append_assoc, h.order]
      simp
    · rw [hemit.coveredEndUs, if_pos hpast]
      simp [Log.ends]
    · have hkeep : (if s.builder.history.count < historyCapacity then s.builder.history.toList
          else s.builder.history.toList.tail) <:+ s.builder.history.toList := by
        split
        · exact List.suffix_rfl
        · exact List.tail_suffix _
      obtain ⟨pre, hpre⟩ := (hkeep.map HistoryEntry.endPtsUs).trans h.history
      refine ⟨pre, ?_⟩
      rw [hemit.history, List.map_append, ← List.append_assoc, hpre]
      simp [Log.ends]
    · rw [List.pairwise_append]
      refine ⟨h.frontiers, by simp, ?_⟩
      intro a ha b hb
      obtain rfl := List.mem_singleton.mp hb
      exact h.le_covered ha
    · intro a ha
      rcases List.mem_append.mp ha with ha | ha
      · exact h.reaches a ha
      · obtain rfl := List.mem_singleton.mp ha
        exact hpast
    · intro a ha
      rcases List.mem_append.mp ha with ha | ha
      · exact h.nonempty a ha
      · obtain rfl := List.mem_singleton.mp ha
        exact hlt

/-- A step keeps to the frontier exactly if it is no older trim. -/
theorem step_frontier {s : Log} (op : BuilderOp) (h : s.Inv) :
    (∀ a ∈ (s.step op).accepted, a.1 ≤ a.2.startPtsUs) ↔
      (∀ a ∈ s.accepted, a.1 ≤ a.2.startPtsUs) ∧ ¬ s.OlderTrim op := by
  constructor
  · intro hall
    constructor
    · intro a ha
      rcases step_cases s op with ⟨hacc, -⟩ | ⟨mem, text, start, stop, out, start', b', -, -, -, -, -, hs⟩
      · exact hall a (by rwa [hacc])
      · exact hall a (by rw [hs]; exact List.mem_append_left _ ha)
    · intro holder
      cases op with
      | pop => exact holder
      | push mem text start stop =>
        obtain ⟨hcand, newer, e, older, hne, htrims⟩ := holder
        obtain ⟨b', hpush, hemit⟩ := pushHypothesis_of_trimsHistory hcand htrims
        have hend := h.history_entry htrims.split
        rw [if_neg hne] at hend
        have hstart := hall (s.builder.coveredEndUs,
          ⟨s.builder.nextSegmentId, e.endPtsUs, stop, remainder (trimText text) e⟩)
          (by simp [step, hpush, lastSegment_of_emitted hemit])
        exact absurd hend (not_lt.mpr hstart)
  · rintro ⟨hall, holder⟩ a ha
    rcases step_cases s op with ⟨hacc, -⟩ | ⟨mem, text, start, stop, out, start', b', rfl, hcand, -, hacc, -, hs⟩
    · exact hall a (by rwa [hacc] at ha)
    · rw [hs] at ha
      rcases List.mem_append.mp ha with ha | ha
      · exact hall a ha
      · obtain rfl := List.mem_singleton.mp ha
        exact start_of_accepts h hcand hacc holder

/-! ## Whole runs -/

theorem run_frontier {s : Log} (ops : List BuilderOp) (h : s.Inv) :
    (∀ a ∈ (run step s ops).accepted, a.1 ≤ a.2.startPtsUs) ↔
      (∀ a ∈ s.accepted, a.1 ≤ a.2.startPtsUs) ∧ Along step (fun s op => ¬ s.OlderTrim op) s ops := by
  induction ops generalizing s with
  | nil => simp [run, Along]
  | cons op ops ih => rw [run, ih (step_inv op h), step_frontier op h, Along, and_assoc]

/-- Cues that keep to the frontier do not overlap. -/
theorem Inv.noOverlap {s : Log} (h : s.Inv) (hall : ∀ a ∈ s.accepted, a.1 ≤ a.2.startPtsUs) : s.NoOverlap := by
  have hcues : (s.accepted.map Prod.snd).Pairwise fun c d =>
      c.endPtsUs ≤ d.startPtsUs ∧ c.startPtsUs ≤ d.startPtsUs := by
    rw [List.pairwise_map]
    refine h.frontiers.imp_of_mem ?_
    intro a b ha hb hab
    have h1 := hall b hb
    have h2 := h.nonempty a ha
    omega
  rw [← h.order] at hcues
  have hpopped := (List.pairwise_append.mp hcues).1
  exact ⟨hall, hpopped.imp And.left, hpopped.imp And.right⟩

/-- **No overlapping cues.** From any clear on, through any pushes and pops, every accepted cue starts at or
after the frontier and the popped cues are disjoint and in order, exactly if no push trims its phrase against an
entry of the history that is not the newest. -/
theorem noOverlap_iff (b : SegmentBuilder) (ops : List BuilderOp) :
    (run step (start b) ops).NoOverlap ↔ Along step (fun s op => ¬ s.OlderTrim op) (start b) ops := by
  have hinv := run_invariant' (fun s op => step_inv op) ops (inv_start b)
  have hrun := run_frontier ops (inv_start b)
  constructor
  · intro h
    exact (hrun.mp h.frontier).2
  · intro h
    exact hinv.noOverlap (hrun.mpr ⟨by simp [start], h⟩)

/-- The second cue moves the frontier to 8 s; the third repeats the end of the first, which ends at 5 s. -/
def olderTail : List BuilderOp :=
  [.push plenty (ascii "we will go to the old house") 0 5000000,
    .push plenty (ascii "nobody lives there") 5000000 8000000,
    .push plenty (ascii "the old house is empty") 4000000 9000000, .pop, .pop, .pop]

theorem not_forall_noOverlap : ¬ ∀ b ops, (run step (start b) ops).NoOverlap := by
  intro h
  have hover := (h create olderTail).frontier
  revert hover
  decide +kernel

end Log

end VlcWhisper.Worker
