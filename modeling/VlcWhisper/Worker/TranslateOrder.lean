import VlcWhisper.Lib.Machine
import VlcWhisper.Worker.TranslateAsync

/-!
# The asynchronous translator as a queue

However the threads interleave, the translator is a first-in first-out queue of bounded size: `Holds s k pending`
says that `s` holds exactly the cues `pending` of the current epoch, scattered over the job queue, the threads and
the result ring, after the epoch's first `k` were delivered. A submission appends to `pending`, a thread's step
leaves it alone, a delivery takes its head, an invalidation clears it.

The one thing that can break this is an epoch number that comes back while a thread still holds a job of its first
use: the numbers run over 1, …, 2⁶⁴ - 1. Main result: `ordered_of_invalidations_lt`.
-/

namespace VlcWhisper.Worker

open VlcWhisper.Lib VlcWhisper.Protocol

abbrev Origin : Type := SessionId × Cue

def Job.key (j : Job) : Nat × Origin := (j.ordinal, j.segment.origin)

def Completion.key (c : Completion) : Nat × Origin := (c.ordinal, c.result.segment.origin)

namespace TranslateAsync

/-- The keys held for the current epoch: queued, in flight, completed. -/
def entries (s : TranslateAsync) : List (Nat × Origin) :=
  (s.jobs.toList ++ s.inflight.filter fun j => j.epoch = s.epoch).map Job.key ++ s.results.toList.map Completion.key

/-- The translator holds the cues `pending`, `k` cues of the epoch having been delivered. -/
structure Holds (s : TranslateAsync) (k : Nat) (pending : List Origin) : Prop where
  running : s.stopping = false
  bounded : s.load ≤ resultCapacity
  jobs : ∀ j ∈ s.jobs.toList, j.epoch = s.epoch
  inflight : ∀ j ∈ s.inflight, j.epoch ≤ s.epoch
  results : ∀ c ∈ s.results.toList, c.result.epoch = s.epoch
  entries : s.entries.Perm (numbered uint64Max k pending)
  nextSubmit : s.nextSubmitOrdinal = serial uint64Max (k + pending.length)
  nextResult : s.nextResultOrdinal = serial uint64Max k

theorem uint64Max_pos : 0 < uint64Max := by decide

theorem holds_create : create.Holds 0 [] :=
  ⟨rfl, by decide, by simp [create], by simp [create], by simp [create], by simp [entries, create, numbered],
    rfl, rfl⟩

theorem Holds.length_le {s : TranslateAsync} {k : Nat} {pending : List Origin} (h : s.Holds k pending) :
    pending.length ≤ resultCapacity := by
  have hlen := h.entries.length_eq
  have hfilter := List.length_filter_le (fun j : Job => decide (j.epoch = s.epoch)) s.inflight
  have hload := h.bounded
  simp only [TranslateAsync.entries, List.length_append, List.length_map, Ring.length_toList,
    length_numbered] at hlen
  simp only [load] at hload
  omega

/-! ## Threads -/

theorem take_holds {s : TranslateAsync} {k : Nat} {pending : List Origin} (h : s.Holds k pending) :
    s.take.Holds k pending := by
  rw [take]
  split
  · split
    · exact h
    · rename_i j jobs hpop
      have hlist := Ring.toList_of_pop_eq_some hpop
      have hj : j.epoch = s.epoch := h.jobs j (by simp [hlist])
      refine ⟨h.running, ?_, ?_, ?_, h.results, ?_, h.nextSubmit, h.nextResult⟩
      · have hload := h.bounded
        have hcount := congrArg List.length hlist
        simp only [Ring.length_toList, List.length_cons] at hcount
        simp only [load, List.length_append, List.length_singleton] at hload ⊢
        omega
      · intro x hx
        exact h.jobs x (by simp [hlist, hx])
      · intro x hx
        rcases List.mem_append.mp hx with hx | hx
        · exact h.inflight x hx
        · exact (List.mem_singleton.mp hx ▸ hj).le
      · refine List.Perm.trans ?_ h.entries
        have hmove : (jobs.toList ++ ((s.inflight ++ [j]).filter fun j => j.epoch = s.epoch)).Perm
            (s.jobs.toList ++ s.inflight.filter fun j => j.epoch = s.epoch) := by
          rw [List.filter_append, ← List.append_assoc, hlist]
          simp only [List.filter_cons, hj, decide_true, if_true, List.filter_nil]
          exact List.perm_append_singleton j _
        exact (hmove.map Job.key).append_right _
  · exact h

theorem perm_complete {jobs jobs' : List Job} {results : List Completion} {j : Job} {c : Completion}
    (hkey : c.key = j.key) (hjobs : (j :: jobs).Perm jobs') :
    (jobs.map Job.key ++ (results ++ [c]).map Completion.key).Perm
      (jobs'.map Job.key ++ results.map Completion.key) := by
  rw [List.map_append, ← List.append_assoc, List.map_singleton, hkey]
  exact (List.perm_append_singleton _ _).trans ((hjobs.map Job.key).append_right _)

theorem complete_fields {s : TranslateAsync} {i : Nat} {j : Job} (o : Outcome) (hrun : s.stopping = false)
    (hroom : s.results.count < resultCapacity) (hi : s.inflight[i]? = some j) :
    (s.complete i o).stopping = false ∧ (s.complete i o).epoch = s.epoch ∧
      (s.complete i o).nextSubmitOrdinal = s.nextSubmitOrdinal ∧
      (s.complete i o).nextResultOrdinal = s.nextResultOrdinal ∧ (s.complete i o).jobs = s.jobs ∧
      (s.complete i o).inflight = s.inflight.eraseIdx i ∧
      (s.complete i o).results.toList = s.results.toList ++
        if j.epoch = s.epoch then [⟨j.ordinal, bindResultText (translateJob j o)⟩] else [] := by
  simp only [complete, hi]
  by_cases hepoch : j.epoch = s.epoch
  · split <;> simp [pushResult, hrun, hepoch, hroom]
  · simp [hrun, hepoch]

theorem complete_epoch (s : TranslateAsync) (i : Nat) (o : Outcome) : (s.complete i o).epoch = s.epoch := by
  simp only [complete]
  split
  · rfl
  · rename_i j _
    by_cases hepoch : j.epoch = s.epoch
    · split <;> simp only [pushResult] <;> split <;> (try split) <;> rfl
    · simp [hepoch]

theorem load_eq (s : TranslateAsync) :
    s.load = s.jobs.toList.length + s.inflight.length + s.results.toList.length := by
  simp [load]

theorem complete_holds {s : TranslateAsync} {k : Nat} {pending : List Origin} (h : s.Holds k pending) (i : Nat)
    (o : Outcome) : (s.complete i o).Holds k pending := by
  cases hi : s.inflight[i]? with
  | none =>
    rw [complete, hi]
    exact h
  | some j =>
    obtain ⟨hlt, hget⟩ := List.getElem?_eq_some_iff.mp hi
    have hload := h.bounded
    have hroom : s.results.count < resultCapacity := by
      simp only [load] at hload
      omega
    obtain ⟨hstop, hep, hsub, hres, hjobs, hinfl, hring⟩ := complete_fields o h.running hroom hi
    have herase : (j :: s.inflight.eraseIdx i).Perm s.inflight := by
      rw [← hget]
      exact List.getElem_cons_eraseIdx_perm hlt
    refine ⟨hstop, ?_, ?_, ?_, ?_, ?_, by rw [hsub, h.nextSubmit], by rw [hres, h.nextResult]⟩
    · have hlen := herase.length_eq
      rw [load_eq] at hload ⊢
      simp only [hjobs, hinfl, hring, List.length_append, List.length_cons] at hlen ⊢
      split <;> simp only [List.length_singleton, List.length_nil] <;> omega
    · rw [hjobs, hep]
      exact h.jobs
    · rw [hinfl, hep]
      exact fun x hx => h.inflight x (List.mem_of_mem_eraseIdx hx)
    · rw [hring, hep]
      intro c hc
      rcases List.mem_append.mp hc with hc | hc
      · exact h.results c hc
      · split at hc
        · rename_i hj
          obtain rfl := List.mem_singleton.mp hc
          simpa using hj
        · cases hc
    · refine List.Perm.trans ?_ h.entries
      have hfilter := herase.filter fun j => decide (j.epoch = s.epoch)
      rw [TranslateAsync.entries, TranslateAsync.entries, hjobs, hinfl, hring, hep]
      by_cases hj : j.epoch = s.epoch
      · rw [List.filter_cons_of_pos (by simpa using hj)] at hfilter
        rw [if_pos hj]
        exact perm_complete (by simp [Completion.key, Job.key])
          (List.perm_middle.symm.trans (hfilter.append_left _))
      · rw [List.filter_cons_of_neg (by simpa using hj)] at hfilter
        rw [if_neg hj, List.append_nil]
        exact ((hfilter.append_left _).map Job.key).append_right _

/-! ## Submissions -/

theorem evictOldest_cases (s : TranslateAsync) (hload : s.load ≤ resultCapacity) :
    s.evictOldest = s ∨ ∃ j, s.jobs.toList = j :: s.evictOldest.jobs.toList ∧
      s.evictOldest.results.toList = s.results.toList ++ [⟨j.ordinal, bindResultText (evictJob j)⟩] ∧
      s.evictOldest.stopping = s.stopping ∧ s.evictOldest.epoch = s.epoch ∧
      s.evictOldest.nextSubmitOrdinal = s.nextSubmitOrdinal ∧
      s.evictOldest.nextResultOrdinal = s.nextResultOrdinal ∧ s.evictOldest.inflight = s.inflight := by
  rw [evictOldest]
  split
  · exact .inl rfl
  · rename_i hfull
    split
    · exact .inl rfl
    · rename_i j jobs hpop
      have hroom : s.results.count < resultCapacity := by
        simp only [load, resultCapacity, queueCapacity] at hload hfull ⊢
        omega
      exact .inr ⟨j, by simp [pushResult, hroom, Ring.toList_of_pop_eq_some hpop], by simp [pushResult, hroom],
        by simp [pushResult, hroom], by simp [pushResult, hroom], by simp [pushResult, hroom],
        by simp [pushResult, hroom], by simp [pushResult, hroom]⟩

theorem evictOldest_holds {s : TranslateAsync} {k : Nat} {pending : List Origin} (h : s.Holds k pending) :
    s.evictOldest.Holds k pending ∧ s.evictOldest.epoch = s.epoch ∧ s.evictOldest.load = s.load := by
  rcases evictOldest_cases s h.bounded with heq | ⟨j, hjobs, hring, hstop, hep, hsub, hres, hinfl⟩
  · rw [heq]
    exact ⟨h, rfl, rfl⟩
  · have hload : s.evictOldest.load = s.load := by
      rw [load_eq, load_eq, hjobs, hring, hinfl]
      simp only [List.length_append, List.length_cons, List.length_nil]
      omega
    refine ⟨⟨by rw [hstop, h.running], hload ▸ h.bounded, ?_, ?_, ?_, ?_, by rw [hsub, h.nextSubmit],
      by rw [hres, h.nextResult]⟩, hep, hload⟩
    · rw [hep]
      exact fun x hx => h.jobs x (by simp [hjobs, hx])
    · rw [hep, hinfl]
      exact h.inflight
    · rw [hep, hring]
      intro c hc
      rcases List.mem_append.mp hc with hc | hc
      · exact h.results c hc
      · obtain rfl := List.mem_singleton.mp hc
        exact h.jobs j (by simp [hjobs])
    · refine List.Perm.trans ?_ h.entries
      rw [TranslateAsync.entries, TranslateAsync.entries, hinfl, hring, hep, hjobs, List.cons_append]
      exact perm_complete (by simp [Completion.key, Job.key, evictJob]) (.refl _)

/-- A submission is refused without a trace, or appends its cue. -/
theorem submit_holds {s : TranslateAsync} {k : Nat} {pending : List Origin} (h : s.Holds k pending)
    (segment : Caption) (sourceLang targetLang : Bytes) :
    s.submit segment sourceLang targetLang = (s, false) ∨
      ((s.submit segment sourceLang targetLang).2 = true ∧
        (s.submit segment sourceLang targetLang).1.epoch = s.epoch ∧
        (s.submit segment sourceLang targetLang).1.Holds k (pending ++ [segment.origin])) := by
  rw [submit]
  split
  · exact .inl rfl
  split
  · exact .inl rfl
  split
  · exact .inl rfl
  rename_i hroom
  obtain ⟨ht, hep, hload⟩ := evictOldest_holds h
  refine .inr ⟨rfl, hep, ht.running, ?_, ?_, ht.inflight, ht.results, ?_, ?_, ht.nextResult⟩
  · rw [not_le, ← hload, load_eq] at hroom
    rw [load_eq]
    simp only [Ring.toList_push, List.length_append, List.length_singleton]
    omega
  · intro j hj
    rw [Ring.toList_push] at hj
    rcases List.mem_append.mp hj with hj | hj
    · exact ht.jobs j hj
    · obtain rfl := List.mem_singleton.mp hj
      exact hep.symm
  · have hkey : (s.newJob segment sourceLang targetLang).key =
        (serial uint64Max (k + pending.length), segment.origin) := by
      rw [← h.nextSubmit]
      rfl
    rw [numbered_append, numbered, numbered, ← hkey]
    refine List.Perm.trans ?_ (ht.entries.append_right _)
    simp only [TranslateAsync.entries, Ring.toList_push, List.map_append, List.map_cons, List.map_nil]
    simp only [List.append_assoc]
    rw [← List.append_assoc (List.map Job.key (List.filter _ _))]
    exact (List.perm_append_singleton _ _).symm.append_left _
  · simp only [nextOrdinal, ht.nextSubmit, nextSerial_serial uint64Max_pos, List.length_append,
      List.length_singleton, Nat.add_assoc]

/-! ## Deliveries -/

theorem findNextResult_eq_some {s : TranslateAsync} {i : Fin s.results.count} (h : s.findNextResult = some i) :
    (s.results.get i).ordinal = s.nextResultOrdinal := by
  simpa using List.find?_some h

theorem removeResult_holds {s : TranslateAsync} {k : Nat} {pending : List Origin} (h : s.Holds k pending)
    {i : Fin s.results.count} (hi : s.findNextResult = some i) :
    (s.results.get i).result.epoch = s.epoch ∧ (s.removeResult i).epoch = s.epoch ∧
      ∃ pending', pending = (s.results.get i).result.segment.origin :: pending' ∧
        (s.removeResult i).Holds (k + 1) pending' := by
  have hmem : s.results.toList[i.val]? = some (s.results.get i) := by
    rw [Ring.toList_getElem?, if_pos i.isLt]
  obtain ⟨hlt, hget⟩ := List.getElem?_eq_some_iff.mp hmem
  have herase : (s.results.get i :: s.results.toList.eraseIdx i).Perm s.results.toList := by
    have := List.getElem_cons_eraseIdx_perm hlt
    rwa [hget] at this
  have hring : (s.removeResult i).results.toList = s.results.toList.eraseIdx i := Ring.toList_removeAt _ _ i.isLt
  have hkey : (s.results.get i).key = (serial uint64Max k, (s.results.get i).result.segment.origin) := by
    rw [Completion.key, findNextResult_eq_some hi, h.nextResult]
  have hperm : ((s.results.get i).key :: (s.removeResult i).entries).Perm (numbered uint64Max k pending) := by
    refine List.Perm.trans ?_ h.entries
    rw [TranslateAsync.entries, TranslateAsync.entries, hring]
    exact List.perm_middle.symm.trans ((herase.map Completion.key).append_left _)
  rw [hkey] at hperm
  have hlen := h.length_le
  obtain ⟨pending', rfl, hrest⟩ := next_of_perm (hlen.trans (by decide)) hperm
  refine ⟨h.results _ (List.mem_of_getElem? hmem), rfl, pending', rfl, h.running, ?_, h.jobs, h.inflight, ?_, hrest,
    ?_, ?_⟩
  · have hload := h.bounded
    have hlen' := herase.length_eq
    rw [load_eq] at hload ⊢
    rw [hring]
    simp only [List.length_cons] at hlen'
    change s.jobs.toList.length + s.inflight.length + _ ≤ _
    omega
  · rw [hring]
    exact fun c hc => h.results c (List.mem_of_mem_eraseIdx hc)
  · change s.nextSubmitOrdinal = _
    rw [h.nextSubmit, List.length_cons, Nat.add_assoc, Nat.add_comm 1]
  · change nextOrdinal s.nextResultOrdinal = _
    rw [h.nextResult, nextOrdinal, nextSerial_serial uint64Max_pos]

/-- What a delivery gives: nothing, or the head of the queue. -/
def Delivers (s : TranslateAsync) (k : Nat) (pending : List Origin) (r : TranslateAsync × Option TranslateResult) :
    Prop :=
  r.1.epoch = s.epoch ∧ match r.2 with
    | none => r.1.Holds k pending
    | some d => d.epoch = s.epoch ∧ ∃ pending', pending = d.segment.origin :: pending' ∧ r.1.Holds (k + 1) pending'

theorem tryDeliver_holds {s : TranslateAsync} {k : Nat} {pending : List Origin} (h : s.Holds k pending) :
    s.Delivers k pending s.tryDeliver := by
  rw [tryDeliver]
  split
  · exact ⟨rfl, h⟩
  · rename_i i hi
    obtain ⟨hep, hep', pending', hpending, hholds⟩ := removeResult_holds h hi
    rw [if_neg (not_not.mpr hep)]
    exact ⟨hep', hep, pending', by simpa using hpending, hholds⟩

theorem tryPop_holds {s : TranslateAsync} {k : Nat} {pending : List Origin} (h : s.Holds k pending) :
    s.Delivers k pending s.tryPop := by
  rw [tryPop]
  split
  · exact ⟨rfl, h⟩
  split
  · exact ⟨rfl, h⟩
  · rename_i i hi
    obtain ⟨hep, hep', pending', hpending, hholds⟩ := removeResult_holds h hi
    exact ⟨hep', hep, pending', by simpa using hpending, hholds⟩

/-- Until the epoch numbers run out, no thread holds a job of the new epoch. -/
theorem invalidate_holds {s : TranslateAsync} {k : Nat} {pending : List Origin} (h : s.Holds k pending)
    (hepoch : s.epoch < uint64Max) : s.invalidate.epoch = s.epoch + 1 ∧ s.invalidate.Holds 0 [] := by
  have hnext : s.invalidate.epoch = s.epoch + 1 := by
    change nextSerial uint64Max s.epoch = _
    rw [nextSerial, if_neg (by omega)]
  have hold : s.inflight.filter (fun j => j.epoch = s.invalidate.epoch) = [] := by
    rw [List.filter_eq_nil_iff]
    intro j hj
    have := h.inflight j hj
    simp only [hnext, decide_eq_true_eq]
    omega
  refine ⟨hnext, h.running, ?_, by simp [invalidate], ?_, by simp [invalidate], ?_, rfl, rfl⟩
  · have hload := h.bounded
    simp only [load] at hload ⊢
    simp only [invalidate, Ring.count_clear]
    omega
  · intro j hj
    have := h.inflight j hj
    omega
  · have hentries : s.invalidate.entries = [] := by
      rw [TranslateAsync.entries]
      change (s.jobs.clear.toList ++ s.inflight.filter _).map Job.key ++ s.results.clear.toList.map _ = []
      rw [hold]
      simp
    rw [hentries]
    exact .refl _

end TranslateAsync

/-! ## Runs -/

/-- What the worker loop and the pool's threads do to the translator. -/
inductive TranslateOp where
  | submit (segment : Caption) (sourceLang targetLang : Bytes)
  | take
  | complete (i : Nat) (o : Outcome)
  | invalidate
  | tryDeliver
  | tryPop

def TranslateOp.isInvalidate : TranslateOp → Bool
  | .invalidate => true
  | _ => false

/-- What happened between two invalidations. -/
structure EpochLog where
  epoch : Nat
  accepted : List Origin
  delivered : List TranslateResult

/-- The cues that were delivered, in order. -/
def EpochLog.origins (e : EpochLog) : List Origin := e.delivered.map fun r => r.segment.origin

/-- The translator with what was accepted and delivered in each epoch, the past ones newest first. -/
structure TranslateLog where
  async : TranslateAsync
  current : EpochLog
  past : List EpochLog

namespace TranslateLog

open TranslateAsync

def start : TranslateLog := ⟨.create, ⟨1, [], []⟩, []⟩

def deliver (s : TranslateLog) (r : TranslateAsync × Option TranslateResult) : TranslateLog :=
  { s with async := r.1, current := { s.current with delivered := s.current.delivered ++ r.2.toList } }

def step (s : TranslateLog) : TranslateOp → TranslateLog
  | .submit segment sourceLang targetLang =>
    let r := s.async.submit segment sourceLang targetLang
    { s with async := r.1, current := { s.current with accepted := s.current.accepted ++
      if r.2 then [segment.origin] else [] } }
  | .take => { s with async := s.async.take }
  | .complete i o => { s with async := s.async.complete i o }
  | .invalidate => ⟨s.async.invalidate, ⟨s.async.invalidate.epoch, [], []⟩, s.current :: s.past⟩
  | .tryDeliver => s.deliver s.async.tryDeliver
  | .tryPop => s.deliver s.async.tryPop

/-- The epochs, newest first. -/
def epochs (s : TranslateLog) : List EpochLog := s.current :: s.past

/-- The cues the translator holds for the current epoch. -/
def held (s : TranslateLog) : List Origin := s.async.entries.map Prod.snd

/-- In each epoch, the deliveries are a first part of the accepted cues, in order and all of that epoch; what is not
delivered of the current one is still held. -/
structure Ordered (s : TranslateLog) : Prop where
  inOrder : ∀ e ∈ s.epochs, e.origins <+: e.accepted
  own : ∀ e ∈ s.epochs, ∀ r ∈ e.delivered, r.epoch = e.epoch
  distinct : s.epochs.Pairwise fun e f => e.epoch ≠ f.epoch
  conserved : s.held.Perm (s.current.accepted.drop s.current.delivered.length)

/-- A result of the current epoch is to be pushed, but the ring is full. -/
def Overflows (s : TranslateLog) : TranslateOp → Prop
  | .submit segment _ _ => segment.cue.text ≠ [] ∧ segment.cue.text.length ≤ maxTextBytes ∧
      s.async.load < resultCapacity ∧ queueCapacity ≤ s.async.jobs.count ∧
      s.async.results.count = resultCapacity
  | .complete i _ => ∃ j, s.async.inflight[i]? = some j ∧ j.epoch = s.async.epoch ∧
      s.async.results.count = resultCapacity
  | _ => False

/-- The translator is the queue of the accepted cues that were not delivered. -/
structure Inv (s : TranslateLog) : Prop where
  holds : ∃ pending, s.async.Holds s.current.delivered.length pending ∧
    s.current.origins ++ pending = s.current.accepted
  epoch : s.current.epoch = s.async.epoch
  count : s.async.epoch = s.past.length + 1
  own : ∀ e ∈ s.epochs, ∀ r ∈ e.delivered, r.epoch = e.epoch
  past : ∀ e ∈ s.past, e.origins <+: e.accepted
  numbers : s.epochs.Pairwise fun e f => f.epoch < e.epoch

theorem inv_start : start.Inv where
  holds := ⟨[], holds_create, rfl⟩
  epoch := rfl
  count := rfl
  own := by simp [epochs, start]
  past := by simp [start]
  numbers := by simp [epochs, start]

theorem Inv.of_current {s : TranslateLog} (h : s.Inv) {async : TranslateAsync} {accepted : List Origin}
    {delivered : List TranslateResult} (hepoch : async.epoch = s.async.epoch)
    (hholds : ∃ pending, async.Holds delivered.length pending ∧
      (delivered.map fun r => r.segment.origin) ++ pending = accepted)
    (hown : ∀ r ∈ delivered, r.epoch = s.async.epoch) :
    Inv ⟨async, ⟨s.current.epoch, accepted, delivered⟩, s.past⟩ := by
  refine ⟨hholds, h.epoch.trans hepoch.symm, hepoch.trans h.count, ?_, h.past, ?_⟩
  · intro e he
    rcases List.mem_cons.mp he with rfl | he
    · exact fun r hr => (hown r hr).trans h.epoch.symm
    · exact h.own e (List.mem_cons_of_mem _ he)
  · exact List.pairwise_cons.mpr (List.pairwise_cons.mp h.numbers)

theorem deliver_inv {s : TranslateLog} (h : s.Inv) {r : TranslateAsync × Option TranslateResult}
    (hr : ∀ k pending, s.async.Holds k pending → s.async.Delivers k pending r) : (s.deliver r).Inv := by
  obtain ⟨pending, hholds, hsplit⟩ := h.holds
  have hown : ∀ r ∈ s.current.delivered, r.epoch = s.async.epoch :=
    fun r hr => (h.own _ (List.mem_cons_self ..) r hr).trans h.epoch
  obtain ⟨hep, hcase⟩ := hr _ _ hholds
  obtain ⟨async, d⟩ := r
  cases d with
  | none =>
    refine h.of_current hep ⟨pending, ?_, ?_⟩ ?_
    · simpa using hcase
    · simpa [EpochLog.origins] using hsplit
    · simpa using hown
  | some d =>
    obtain ⟨hd, pending', rfl, hholds'⟩ := hcase
    refine h.of_current hep ⟨pending', ?_, ?_⟩ ?_
    · simpa using hholds'
    · rw [← hsplit]
      simp [EpochLog.origins]
    · intro r hr
      rcases List.mem_append.mp hr with hr | hr
      · exact hown r hr
      · obtain rfl : r = d := by simpa using hr
        exact hd

theorem step_inv {s : TranslateLog} (op : TranslateOp) (h : s.Inv)
    (hepoch : op.isInvalidate = true → s.async.epoch < uint64Max) : (s.step op).Inv := by
  obtain ⟨pending, hholds, hsplit⟩ := h.holds
  have hown : ∀ r ∈ s.current.delivered, r.epoch = s.async.epoch :=
    fun r hr => (h.own _ (List.mem_cons_self ..) r hr).trans h.epoch
  cases op with
  | submit segment sourceLang targetLang =>
    simp only [step]
    rcases submit_holds hholds segment sourceLang targetLang with heq | ⟨htrue, hep, hholds'⟩
    · rw [heq]
      exact h.of_current rfl ⟨pending, hholds, by simpa [EpochLog.origins] using hsplit⟩ hown
    · rw [htrue]
      refine h.of_current hep ⟨pending ++ [segment.origin], hholds', ?_⟩ hown
      rw [← List.append_assoc]
      exact congrArg (· ++ [segment.origin]) hsplit
  | take =>
    have hep : s.async.take.epoch = s.async.epoch := by
      rw [take]
      split
      · split <;> rfl
      · rfl
    exact h.of_current hep ⟨pending, take_holds hholds, hsplit⟩ hown
  | complete i o =>
    have hep : (s.async.complete i o).epoch = s.async.epoch := complete_epoch _ _ _
    exact h.of_current hep ⟨pending, complete_holds hholds i o, hsplit⟩ hown
  | invalidate =>
    obtain ⟨hnext, hholds'⟩ := invalidate_holds hholds (hepoch rfl)
    refine ⟨⟨[], hholds', rfl⟩, rfl, ?_, ?_, ?_, ?_⟩
    · change s.async.invalidate.epoch = s.past.length + 1 + 1
      rw [hnext, h.count]
    · intro e he
      rcases List.mem_cons.mp he with rfl | he
      · exact fun r hr => absurd hr List.not_mem_nil
      · exact h.own e he
    · intro e he
      rcases List.mem_cons.mp he with rfl | he
      · exact ⟨pending, hsplit⟩
      · exact h.past e he
    · refine List.pairwise_cons.mpr ⟨?_, h.numbers⟩
      intro e he
      change e.epoch < s.async.invalidate.epoch
      rw [hnext, ← h.epoch]
      rcases List.mem_cons.mp he with rfl | he
      · exact Nat.lt_succ_self _
      · exact Nat.lt_succ_of_lt ((List.pairwise_cons.mp h.numbers).1 e he)
  | tryDeliver => exact deliver_inv h fun _ _ => tryDeliver_holds
  | tryPop => exact deliver_inv h fun _ _ => tryPop_holds

theorem Inv.ordered {s : TranslateLog} (h : s.Inv) : s.Ordered := by
  obtain ⟨pending, hholds, hsplit⟩ := h.holds
  refine ⟨?_, h.own, ?_, ?_⟩
  · intro e he
    rcases List.mem_cons.mp he with rfl | he
    · exact ⟨pending, hsplit⟩
    · exact h.past e he
  · exact h.numbers.imp fun hlt => (Nat.ne_of_lt hlt).symm
  · have hdrop : s.current.accepted.drop s.current.delivered.length = pending := by
      rw [← hsplit, List.drop_left' (by simp [EpochLog.origins])]
    rw [hdrop, ← map_snd_numbered uint64Max s.current.delivered.length pending]
    exact hholds.entries.map Prod.snd

/-- The bound on the load leaves room for every result. -/
theorem Inv.not_overflows {s : TranslateLog} (h : s.Inv) (op : TranslateOp) : ¬ s.Overflows op := by
  obtain ⟨pending, hholds, -⟩ := h.holds
  have hload := hholds.bounded
  simp only [load] at hload
  cases op with
  | submit segment _ _ =>
    rintro ⟨-, -, hroom, hfull, hresults⟩
    simp only [load, queueCapacity] at hroom hfull
    omega
  | complete i o =>
    rintro ⟨j, hj, -, hresults⟩
    have := (List.getElem?_eq_some_iff.mp hj).1
    omega
  | take => exact id
  | invalidate => exact id
  | tryDeliver => exact id
  | tryPop => exact id

theorem length_past (s : TranslateLog) (ops : List TranslateOp) :
    (run step s ops).past.length = s.past.length + ops.countP TranslateOp.isInvalidate := by
  induction ops generalizing s with
  | nil => rfl
  | cons op ops ih =>
    rw [run, ih, List.countP_cons]
    cases op <;> simp [step, deliver, TranslateOp.isInvalidate]
    omega

/-- Before each invalidation of a run the epoch number can still grow. -/
theorem along_epoch {ops : List TranslateOp} (h : ops.countP TranslateOp.isInvalidate < uint64Max) :
    Along step (fun s op => op.isInvalidate = true → s.past.length + 1 < uint64Max) start ops := by
  rw [along_iff]
  rintro pre op post rfl hop
  rw [length_past]
  simp only [List.countP_append, List.countP_cons, hop, if_true] at h
  change 0 + _ + 1 < _
  omega

/-- What a run keeps to: order and conservation after it, and no lost completion on the way. -/
def KeepsOrder (ops : List TranslateOp) : Prop :=
  (run step start ops).Ordered ∧ Along step (fun s op => ¬ s.Overflows op) start ops

/-- **Order of the asynchronous translations.** In every interleaving with fewer invalidations than there are epoch
numbers, the cues accepted within an epoch are delivered in their order, none twice and none skipped, none is
delivered in another epoch, and no completion of the current epoch is lost. -/
theorem ordered_of_invalidations_lt (ops : List TranslateOp)
    (h : ops.countP TranslateOp.isInvalidate < uint64Max) : KeepsOrder ops := by
  have hstep : ∀ s op, Inv s → (op.isInvalidate = true → s.past.length + 1 < uint64Max) → Inv (step s op) := by
    intro s op hinv hop
    refine step_inv op hinv fun hi => ?_
    rw [hinv.count]
    exact hop hi
  have halong := along_epoch h
  exact ⟨(run_invariant hstep inv_start halong).ordered,
    Along.of_invariant hstep (fun s op hinv _ => hinv.not_overflows op) inv_start halong⟩

/-! ## The epoch numbers run out -/

/-- A cue with a text. -/
def sampleCaption : Caption := { noCaption with cue := ⟨1, 0, 1000000, ascii "hello"⟩ }

def noOutcome : Outcome := ⟨false, [], tierNone, 0, .zero⟩

theorem ordered_of_invalidations_lt_hello :
    KeepsOrder [.submit sampleCaption (ascii "en") (ascii "fr"), .take, .complete 0 noOutcome, .tryDeliver] :=
  ordered_of_invalidations_lt _ (by decide)

/-- A job of the first epoch is still in flight, and everything else is as new. -/
structure Stale (s : TranslateLog) (n : Nat) : Prop where
  running : s.async.stopping = false
  epoch : s.async.epoch = serial uint64Max n
  nextResult : s.async.nextResultOrdinal = 1
  results : s.async.results.toList = []
  inflight : ∃ j, s.async.inflight = [j] ∧ j.epoch = 1 ∧ j.ordinal = 1
  current : s.current.accepted = [] ∧ s.current.delivered = []

theorem stale_invalidate {s : TranslateLog} {n : Nat} (h : s.Stale n) : (s.step .invalidate).Stale (n + 1) where
  running := h.running
  epoch := by
    change nextSerial uint64Max s.async.epoch = _
    rw [h.epoch, nextSerial_serial uint64Max_pos]
  nextResult := rfl
  results := rfl
  inflight := h.inflight
  current := ⟨rfl, rfl⟩

theorem stale_replicate {s : TranslateLog} {n : Nat} (h : s.Stale n) (k : Nat) :
    (run step s (List.replicate k .invalidate)).Stale (n + k) := by
  induction k generalizing s n with
  | zero => exact h
  | succ k ih =>
    rw [List.replicate_succ, run, show n + (k + 1) = n + 1 + k by omega]
    exact ih (stale_invalidate h)

/-- When its epoch number is back, the stale job is delivered. -/
theorem stale_delivered {s : TranslateLog} {n : Nat} (h : s.Stale n) (hn : n % uint64Max = 0) :
    ∃ r, (run step s [.complete 0 noOutcome, .tryDeliver]).current.delivered = [r] ∧
      (run step s [.complete 0 noOutcome, .tryDeliver]).current.accepted = [] := by
  obtain ⟨j, hj, hepoch, hordinal⟩ := h.inflight
  have hroom : s.async.results.count < resultCapacity := by
    have := congrArg List.length h.results
    simp only [Ring.length_toList, List.length_nil] at this
    rw [this]
    decide
  obtain ⟨-, hep, -, hnext, -, -, hring⟩ := complete_fields noOutcome h.running hroom (i := 0) (j := j) (by simp [hj])
  have hsame : j.epoch = s.async.epoch := by rw [hepoch, h.epoch, serial, hn]
  rw [h.results, if_pos hsame, List.nil_append] at hring
  generalize hc : s.async.complete 0 noOutcome = async at hep hnext hring
  have hget : async.results.toList[0]? = some (async.results.get 0) := by
    have hcount := congrArg List.length hring
    simp only [Ring.length_toList, List.length_singleton] at hcount
    rw [Ring.toList_getElem?, if_pos (by omega)]
  have hcount : 0 < async.results.count := by
    rw [← Ring.length_toList, hring]
    exact Nat.one_pos
  rw [hring] at hget
  obtain ⟨i, hi⟩ : ∃ i, async.findNextResult = some i := by
    rw [← Option.isSome_iff_exists, findNextResult, List.find?_isSome]
    refine ⟨⟨0, hcount⟩, List.mem_finRange _, ?_⟩
    have hfirst : (async.results.get 0).ordinal = j.ordinal := by
      rw [← Option.some.inj hget]
    simp [hfirst, hordinal, hnext, h.nextResult]
  have hmem : async.results.get i ∈ async.results.toList :=
    List.mem_of_getElem? (by rw [Ring.toList_getElem?, if_pos i.isLt])
  have hresult : (async.results.get i).result.epoch = async.epoch := by
    rw [hring] at hmem
    rw [List.mem_singleton.mp hmem, hep]
    simpa using hsame
  have hdeliver : async.tryDeliver.2 = some (bindResultText (async.results.get i).result) := by
    simp [tryDeliver, hi, hresult]
  refine ⟨bindResultText (async.results.get i).result, ?_, h.current.1⟩
  simp [run, step, deliver, hc, hdeliver, h.current.2]

/-- A thread keeps the first job while the epoch number goes once around. -/
def aroundTheClock : List TranslateOp :=
  [.submit sampleCaption (ascii "en") (ascii "fr"), .take, .invalidate] ++
    (List.replicate (uint64Max - 1) .invalidate ++ [.complete 0 noOutcome, .tryDeliver])

theorem stale_first : (run step start
    [.submit sampleCaption (ascii "en") (ascii "fr"), .take, .invalidate]).Stale 1 where
  running := rfl
  epoch := by decide
  nextResult := rfl
  results := rfl
  inflight := ⟨_, rfl, rfl, rfl⟩
  current := ⟨rfl, rfl⟩

theorem not_forall_ordered : ¬ ∀ ops : List TranslateOp,
    ops.countP TranslateOp.isInvalidate < 2 ^ 64 → KeepsOrder ops := by
  intro h
  have hcount : aroundTheClock.countP TranslateOp.isInvalidate < 2 ^ 64 := by
    simp only [aroundTheClock, List.countP_append, List.countP_replicate]
    decide
  have hstale := stale_replicate stale_first (uint64Max - 1)
  obtain ⟨r, hdelivered, haccepted⟩ := stale_delivered hstale (by decide)
  have hprefix := (h aroundTheClock hcount).1.inOrder _ (List.mem_cons_self ..)
  rw [aroundTheClock, run_append, run_append, EpochLog.origins, hdelivered, haccepted] at hprefix
  exact absurd (List.prefix_nil.mp hprefix) (by simp)

end TranslateLog

end VlcWhisper.Worker
