import VlcWhisper.Worker.TranslateOrder

/-!
# The translator's budget (`vw_translate_async.c`)

No more than `activeBudget` cues of an epoch are to be translated at a time; the others keep their source text. The
translator counts them: a submission that is within the budget counts up, the end of a translation and an eviction count
down, an invalidation starts over, and a job of an earlier epoch no longer counts when its thread is done with it.

Main result: `budget_of_invalidations_lt`. The count is the number of those jobs, queued or with a thread, and it is not
zero where it is counted down, as long as no epoch number comes back.
-/

namespace VlcWhisper.Worker

open VlcWhisper.Lib VlcWhisper.Protocol

/-- The job is to be translated for the epoch. -/
def Job.counts (epoch : Nat) (j : Job) : Bool := j.epoch = epoch && !j.skipTranslation

namespace TranslateAsync

/-- The count is right, and within the budget. -/
structure Budgeted (s : TranslateAsync) : Prop where
  counted : s.activeTranslationCount =
    s.jobs.toList.countP (Job.counts s.epoch) + s.inflight.countP (Job.counts s.epoch)
  bounded : s.activeTranslationCount ≤ activeBudget

theorem budgeted_create : create.Budgeted := ⟨rfl, by decide⟩

/-- What the count depends on. -/
def ledger (s : TranslateAsync) : Nat × List Job × List Job × Nat :=
  (s.epoch, s.jobs.toList, s.inflight, s.activeTranslationCount)

theorem Budgeted.of_ledger {s t : TranslateAsync} (h : s.Budgeted) (ht : t.ledger = s.ledger) : t.Budgeted := by
  obtain ⟨hepoch, hjobs, hinflight, hcount⟩ : _ ∧ _ ∧ _ ∧ _ := by simpa only [ledger, Prod.mk.injEq] using ht
  refine ⟨?_, hcount ▸ h.bounded⟩
  rw [hepoch, hjobs, hinflight, hcount]
  exact h.counted

theorem pushResult_ledger (s : TranslateAsync) (ordinal : Nat) (r : TranslateResult) :
    (s.pushResult ordinal r).ledger = s.ledger := by
  rw [pushResult]
  split <;> rfl

/-! ## Threads -/

theorem take_budgeted {s : TranslateAsync} (h : s.Budgeted) : s.take.Budgeted := by
  rw [take]
  split
  · split
    · exact h
    · rename_i j jobs hpop
      have hlist := Ring.toList_of_pop_eq_some hpop
      have hcounted := h.counted
      rw [hlist, List.countP_cons] at hcounted
      refine ⟨?_, h.bounded⟩
      show s.activeTranslationCount =
        jobs.toList.countP (Job.counts s.epoch) + (s.inflight ++ [j]).countP (Job.counts s.epoch)
      rw [List.countP_append, List.countP_singleton]
      omega
  · exact h

theorem decrement_ledger (s : TranslateAsync) (j : Job) :
    (if !j.skipTranslation && j.epoch = s.epoch && 0 < s.activeTranslationCount then
      { s with activeTranslationCount := s.activeTranslationCount - 1 } else s).ledger =
    (s.epoch, s.jobs.toList, s.inflight, s.activeTranslationCount - if j.counts s.epoch then 1 else 0) := by
  by_cases hcounts : j.counts s.epoch = true
  · rw [if_pos hcounts]
    simp only [Job.counts, Bool.and_eq_true, decide_eq_true_eq, Bool.not_eq_true'] at hcounts
    split
    · rfl
    · rename_i hzero
      have hzero : s.activeTranslationCount = 0 := by simpa [hcounts] using hzero
      rw [hzero]
      exact congrArg (s.epoch, s.jobs.toList, s.inflight, ·) hzero
  · rw [if_neg hcounts, if_neg]
    · rfl
    · simp only [Job.counts, Bool.and_eq_true, decide_eq_true_eq, Bool.not_eq_true'] at hcounts ⊢
      rintro ⟨⟨hskip, hepoch⟩, -⟩
      exact hcounts ⟨hepoch, hskip⟩

theorem complete_ledger {s : TranslateAsync} {i : Nat} {j : Job} (hi : s.inflight[i]? = some j) (o : Outcome) :
    (s.complete i o).ledger = (s.epoch, s.jobs.toList, s.inflight.eraseIdx i,
      s.activeTranslationCount - if j.counts s.epoch then 1 else 0) := by
  have hpush (t : TranslateAsync) : (if !t.stopping && j.epoch = t.epoch then
      t.pushResult j.ordinal (bindResultText (translateJob j o)) else t).ledger = t.ledger := by
    split
    · exact pushResult_ledger ..
    · rfl
  rw [complete, hi]
  exact congrArg (fun l => (l.1, l.2.1, l.2.2.1.eraseIdx i, l.2.2.2)) ((hpush _).trans (decrement_ledger s j))

theorem countP_eraseIdx {α : Type*} {p : α → Bool} {l : List α} {i : Nat} {x : α} (h : l[i]? = some x) :
    l.countP p = (l.eraseIdx i).countP p + if p x then 1 else 0 := by
  obtain ⟨hlt, rfl⟩ := List.getElem?_eq_some_iff.mp h
  rw [← (List.getElem_cons_eraseIdx_perm hlt).countP_eq, List.countP_cons]

theorem complete_budgeted {s : TranslateAsync} (h : s.Budgeted) (i : Nat) (o : Outcome) :
    (s.complete i o).Budgeted := by
  cases hi : s.inflight[i]? with
  | none =>
    rw [complete, hi]
    exact h
  | some j =>
    obtain ⟨hepoch, hjobs, hinflight, hcount⟩ : _ ∧ _ ∧ _ ∧ _ := by
      simpa only [ledger, Prod.mk.injEq] using complete_ledger hi o
    have hcounted := h.counted
    have hbounded := h.bounded
    rw [countP_eraseIdx hi] at hcounted
    refine ⟨?_, ?_⟩
    · rw [hepoch, hjobs, hinflight, hcount]
      omega
    · omega

theorem Budgeted.pos_of_inflight {s : TranslateAsync} (h : s.Budgeted) {i : Nat} {j : Job}
    (hi : s.inflight[i]? = some j) (hcounts : j.counts s.epoch = true) : 0 < s.activeTranslationCount := by
  have hpos := List.countP_pos_iff.mpr ⟨j, List.mem_of_getElem? hi, hcounts⟩
  have hcounted := h.counted
  omega

/-! ## Submissions -/

theorem evictOldest_ledger (s : TranslateAsync) : s.evictOldest.ledger = s.ledger ∨
    ∃ j jobs, s.jobs.toList = j :: jobs ∧ s.evictOldest.ledger = (s.epoch, jobs, s.inflight,
      s.activeTranslationCount - if j.skipTranslation then 0 else 1) := by
  rw [evictOldest]
  split
  · exact .inl rfl
  split
  · exact .inl rfl
  · rename_i j jobs hpop
    refine .inr ⟨j, jobs.toList, Ring.toList_of_pop_eq_some hpop, ?_⟩
    rw [pushResult_ledger]
    show (s.epoch, jobs.toList, s.inflight, _) = _
    cases j.skipTranslation
    · by_cases hzero : s.activeTranslationCount = 0
      · simp [hzero]
      · simp [Nat.pos_of_ne_zero hzero]
    · simp

theorem evictOldest_budgeted {s : TranslateAsync} (h : s.Budgeted) (hjobs : ∀ j ∈ s.jobs.toList, j.epoch = s.epoch) :
    s.evictOldest.Budgeted ∧ s.evictOldest.epoch = s.epoch ∧
      s.evictOldest.activeTranslationCount ≤ s.activeTranslationCount := by
  rcases evictOldest_ledger s with hsame | ⟨j, jobs, hlist, hledger⟩
  · exact ⟨h.of_ledger hsame, congrArg (·.1) hsame, (congrArg (·.2.2.2) hsame).le⟩
  · obtain ⟨hepoch, hrest, hinflight, hcount⟩ : _ ∧ _ ∧ _ ∧ _ := by simpa only [ledger, Prod.mk.injEq] using hledger
    have hcounts : j.counts s.epoch = !j.skipTranslation := by simp [Job.counts, hjobs j (by simp [hlist])]
    have hcounted := h.counted
    have hbounded := h.bounded
    rw [hlist, List.countP_cons, hcounts] at hcounted
    refine ⟨⟨?_, by omega⟩, hepoch, by omega⟩
    rw [hepoch, hrest, hinflight, hcount]
    cases hskip : j.skipTranslation with
    | false =>
      rw [hskip, Bool.not_false, if_pos rfl] at hcounted
      rw [if_neg Bool.false_ne_true]
      omega
    | true =>
      rw [hskip, Bool.not_true, if_neg Bool.false_ne_true] at hcounted
      rw [if_pos rfl]
      omega

theorem Budgeted.pos_of_head {s : TranslateAsync} (h : s.Budgeted) (hjobs : ∀ j ∈ s.jobs.toList, j.epoch = s.epoch)
    {j : Job} (hj : j ∈ s.jobs.toList.head?) (hskip : j.skipTranslation = false) : 0 < s.activeTranslationCount := by
  have hmem := List.mem_of_head? hj
  have hcounts : j.counts s.epoch = true := by simp [Job.counts, hjobs j hmem, hskip]
  have hpos := List.countP_pos_iff.mpr ⟨j, hmem, hcounts⟩
  have hcounted := h.counted
  omega

theorem submit_budgeted {s : TranslateAsync} (h : s.Budgeted) (hjobs : ∀ j ∈ s.jobs.toList, j.epoch = s.epoch)
    (segment : Caption) (sourceLang targetLang : Bytes) : (s.submit segment sourceLang targetLang).1.Budgeted := by
  rw [submit]
  split
  · exact h
  split
  · exact h
  split
  · exact h
  obtain ⟨ht, hepoch, hle⟩ := evictOldest_budgeted h hjobs
  have hcounted := ht.counted
  have hbounded := h.bounded
  have hskip : (s.newJob segment sourceLang targetLang).skipTranslation =
      decide (activeBudget ≤ s.activeTranslationCount) := rfl
  have hnew : (s.newJob segment sourceLang targetLang).counts s.evictOldest.epoch =
      !(s.newJob segment sourceLang targetLang).skipTranslation := by
    rw [Job.counts, hepoch]
    simp [newJob]
  refine ⟨?_, ?_⟩
  · show s.evictOldest.activeTranslationCount +
        (if (s.newJob segment sourceLang targetLang).skipTranslation then 0 else 1) =
      (s.evictOldest.jobs.push (s.newJob segment sourceLang targetLang) _).toList.countP
          (Job.counts s.evictOldest.epoch) + s.evictOldest.inflight.countP (Job.counts s.evictOldest.epoch)
    rw [Ring.toList_push, List.countP_append, List.countP_singleton, hnew, hcounted]
    cases (s.newJob segment sourceLang targetLang).skipTranslation with
    | false =>
      rw [if_neg Bool.false_ne_true, Bool.not_false, if_pos rfl]
      omega
    | true =>
      rw [if_pos rfl, Bool.not_true, if_neg Bool.false_ne_true]
      omega
  · show s.evictOldest.activeTranslationCount +
      (if (s.newJob segment sourceLang targetLang).skipTranslation then 0 else 1) ≤ activeBudget
    rw [hskip]
    by_cases hfull : activeBudget ≤ s.activeTranslationCount
    · rw [if_pos (decide_eq_true hfull)]
      omega
    · rw [if_neg (by simpa using hfull)]
      omega

/-! ## Invalidations and deliveries -/

/-- Nothing of the new epoch is queued, and no thread has a job of it. -/
theorem invalidate_budgeted {s : TranslateAsync} (hinflight : ∀ j ∈ s.inflight, j.epoch ≤ s.epoch)
    (hepoch : s.epoch < uint64Max) : s.invalidate.Budgeted := by
  refine ⟨?_, Nat.zero_le _⟩
  show 0 = s.jobs.clear.toList.countP _ + s.inflight.countP (Job.counts (nextSerial uint64Max s.epoch))
  have hnone : s.inflight.countP (Job.counts (nextSerial uint64Max s.epoch)) = 0 := by
    rw [List.countP_eq_zero]
    intro j hj
    have hle := hinflight j hj
    rw [nextSerial, if_neg (by omega)]
    simp only [Job.counts, Bool.and_eq_true, decide_eq_true_eq]
    omega
  rw [hnone, Ring.toList_clear]
  rfl

theorem tryDeliver_ledger (s : TranslateAsync) : s.tryDeliver.1.ledger = s.ledger := by
  rw [tryDeliver]
  split
  · rfl
  · split <;> rfl

theorem tryPop_ledger (s : TranslateAsync) : s.tryPop.1.ledger = s.ledger := by
  rw [tryPop]
  split
  · rfl
  · split <;> rfl

end TranslateAsync

/-! ## Runs -/

namespace TranslateLog

open TranslateAsync

/-- The count is to be counted down, but it is zero. -/
def Underflows (s : TranslateLog) : TranslateOp → Prop
  | .submit segment _ _ => segment.cue.text ≠ [] ∧ segment.cue.text.length ≤ maxTextBytes ∧
      s.async.load < resultCapacity ∧ queueCapacity ≤ s.async.jobs.count ∧
      (∃ j ∈ s.async.jobs.toList.head?, j.skipTranslation = false) ∧ s.async.activeTranslationCount = 0
  | .complete i _ => (∃ j, s.async.inflight[i]? = some j ∧ j.counts s.async.epoch = true) ∧
      s.async.activeTranslationCount = 0
  | _ => False

/-- What a run keeps to: the count after it, and no underflow on the way. -/
def KeepsBudget (ops : List TranslateOp) : Prop :=
  (run step start ops).async.Budgeted ∧ Along step (fun s op => ¬ s.Underflows op) start ops

/-- The translator is a queue, and its count is right. -/
structure InvBudget (s : TranslateLog) : Prop extends Inv s where
  budgeted : s.async.Budgeted

theorem Inv.jobs_epoch {s : TranslateLog} (h : s.Inv) : ∀ j ∈ s.async.jobs.toList, j.epoch = s.async.epoch := by
  obtain ⟨pending, hholds, -⟩ := h.holds
  exact hholds.jobs

theorem step_budgeted {s : TranslateLog} (h : s.InvBudget) (op : TranslateOp)
    (hepoch : op.isInvalidate = true → s.async.epoch < uint64Max) : (s.step op).async.Budgeted := by
  cases op with
  | submit segment sourceLang targetLang => exact submit_budgeted h.budgeted h.jobs_epoch segment sourceLang targetLang
  | take => exact take_budgeted h.budgeted
  | complete i o => exact complete_budgeted h.budgeted i o
  | invalidate =>
    obtain ⟨pending, hholds, -⟩ := h.holds
    exact invalidate_budgeted hholds.inflight (hepoch rfl)
  | tryDeliver => exact h.budgeted.of_ledger (tryDeliver_ledger _)
  | tryPop => exact h.budgeted.of_ledger (tryPop_ledger _)

theorem InvBudget.not_underflows {s : TranslateLog} (h : s.InvBudget) (op : TranslateOp) : ¬ s.Underflows op := by
  cases op with
  | submit segment sourceLang targetLang =>
    rintro ⟨-, -, -, -, ⟨j, hj, hskip⟩, hzero⟩
    exact (h.budgeted.pos_of_head h.jobs_epoch hj hskip).ne' hzero
  | complete i o =>
    rintro ⟨⟨j, hi, hcounts⟩, hzero⟩
    exact (h.budgeted.pos_of_inflight hi hcounts).ne' hzero
  | take => exact id
  | invalidate => exact id
  | tryDeliver => exact id
  | tryPop => exact id

/-- **The translator's budget.** In every interleaving with fewer invalidations than there are epoch numbers, the count
is the number of jobs that are to be translated for the current epoch and is within the budget, and it is not zero
where it is counted down. -/
theorem budget_of_invalidations_lt (ops : List TranslateOp)
    (h : ops.countP TranslateOp.isInvalidate < uint64Max) : KeepsBudget ops := by
  have hstep : ∀ s op, InvBudget s → (op.isInvalidate = true → s.past.length + 1 < uint64Max) →
      InvBudget (step s op) := by
    intro s op hinv hop
    have hepoch : op.isInvalidate = true → s.async.epoch < uint64Max := by
      intro hi
      rw [hinv.count]
      exact hop hi
    exact ⟨step_inv op hinv.toInv hepoch, step_budgeted hinv op hepoch⟩
  have hstart : InvBudget start := ⟨inv_start, budgeted_create⟩
  have halong := along_epoch h
  exact ⟨(run_invariant hstep hstart halong).budgeted,
    Along.of_invariant hstep (fun s op hinv _ => hinv.not_underflows op) hstart halong⟩

theorem budget_of_invalidations_lt_hello :
    KeepsBudget [.submit sampleCaption (ascii "en") (ascii "fr"), .take, .invalidate, .complete 0 noOutcome] :=
  budget_of_invalidations_lt _ (by decide)

/-! ## The epoch numbers run out -/

/-- A thread has a job of the first epoch, and nothing is counted. -/
structure Uncounted (s : TranslateLog) (n : Nat) : Prop where
  epoch : s.async.epoch = serial uint64Max n
  inflight : ∃ j, s.async.inflight = [j] ∧ j.epoch = 1 ∧ j.skipTranslation = false
  count : s.async.activeTranslationCount = 0

theorem uncounted_replicate {s : TranslateLog} {n : Nat} (h : s.Uncounted n) (k : Nat) :
    (run step s (List.replicate k .invalidate)).Uncounted (n + k) := by
  induction k generalizing s n with
  | zero => exact h
  | succ k ih =>
    have hnext : (s.step .invalidate).Uncounted (n + 1) := by
      refine ⟨?_, h.inflight, rfl⟩
      change nextSerial uint64Max s.async.epoch = _
      rw [h.epoch, nextSerial_serial uint64Max_pos]
    rw [List.replicate_succ, run, show n + (k + 1) = n + 1 + k by omega]
    exact ih hnext

theorem uncounted_first : (run step start
    [.submit sampleCaption (ascii "en") (ascii "fr"), .take, .invalidate]).Uncounted 1 where
  epoch := by decide
  inflight := ⟨_, rfl, rfl, rfl⟩
  count := rfl

/-- When its epoch number is back, the job of the thread is one that was not counted. -/
theorem not_forall_budget : ¬ ∀ ops : List TranslateOp,
    ops.countP TranslateOp.isInvalidate < 2 ^ 64 → KeepsBudget ops := by
  intro h
  have hops := h ([.submit sampleCaption (ascii "en") (ascii "fr"), .take, .invalidate] ++
    List.replicate (uint64Max - 1) .invalidate) (by
      simp only [List.countP_append, List.countP_replicate]
      decide)
  obtain ⟨hepoch, ⟨j, hj, hfirst, hskip⟩, hcount⟩ := uncounted_replicate uncounted_first (uint64Max - 1)
  have hcounted := hops.1.counted
  rw [run_append] at hcounted
  have hback : serial uint64Max (1 + (uint64Max - 1)) = 1 := by decide
  have hcounts : j.counts 1 = true := by simp [Job.counts, hfirst, hskip]
  rw [hepoch, hback, hcount, hj, List.countP_singleton, if_pos hcounts] at hcounted
  omega

end TranslateLog

end VlcWhisper.Worker
