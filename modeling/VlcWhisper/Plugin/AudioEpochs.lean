import VlcWhisper.Plugin.AudioFilter

/-!
# No audio of before a jump (`vw_whisper_module.c`)

The filter flags a jump before it pushes what follows it, the sender clears the flag before it empties the queue. Main
results, for every interleaving of the two threads:

* `sent_epoch`: no chunk is sent that was pushed before a jump that the sender has acknowledged, and where no jump is
  flagged the chunk is of after the last one. The same holds of what was queued when the sender last emptied the queue
  for a stretch without valid times.
* `sent_resumed`: that flag is cleared after the queue was emptied. If no such stretch ends in between, a chunk that is
  sent while the flag is down is of after the last one.

Proof. `Kept` is the invariant: between the clearing of the flag and the empty queue there is old audio in the queue,
and at all other points there is none.
-/

namespace VlcWhisper.Plugin

open VlcWhisper.Lib

/-- The sender has cleared `discontinuity_pending` and has not yet seen the queue empty. -/
def SenderPoint.emptying : SenderPoint → Bool
  | .modeOf | .discard _ => true
  | _ => false

/-- The filter is about to store `invalid_pts_pending`. -/
def FilterPoint.resuming : FilterPoint → Bool
  | .resume => true
  | _ => false

/-- Flagged by then, and not before what the sender had noted. -/
structure SentChunk.Current (x : SentChunk) : Prop where
  jumps_le : x.epoch.jumps ≤ x.flagged.jumps
  resumes_le : x.epoch.resumes ≤ x.flagged.resumes
  noted_jumps : x.noted.jumps ≤ x.epoch.jumps
  noted_resumes : x.noted.resumes ≤ x.epoch.resumes
  newest : x.discontinuityPending = false → x.epoch.jumps = x.flagged.jumps

/-- Of after the last stretch without valid times, where none is flagged. -/
def SentChunk.Resumed (x : SentChunk) : Prop := x.invalidPtsPending = false → x.epoch.resumes = x.flagged.resumes

namespace AudioPath

variable {capacityChunks : Nat} {s t : AudioPath capacityChunks}

/-! ## The invariant -/

structure Kept (s : AudioPath capacityChunks) : Prop where
  chunks : s.history.queued.map (·.1) = s.queue.toList
  jumps_le : ∀ x ∈ s.history.queued, x.2.jumps ≤ s.history.flagged.jumps
  resumes_le : ∀ x ∈ s.history.queued, x.2.resumes ≤ s.history.flagged.resumes
  noted_le : s.history.noted.jumps ≤ s.history.flagged.jumps
  fresh : s.sender.point.emptying = false → ∀ x ∈ s.history.queued, s.history.noted.jumps ≤ x.2.jumps
  resumed : ∀ x ∈ s.history.queued, s.history.noted.resumes ≤ x.2.resumes
  resumed_le : s.history.noted.resumes ≤ s.history.flagged.resumes
  answered : s.discontinuityPending = false → s.history.noted.jumps = s.history.flagged.jumps
  sent : ∀ x ∈ s.history.sent, x.Current

theorem kept_start : (start capacityChunks).Kept := by
  constructor <;> simp [start]

theorem Kept.frame (h : s.Kept) (hqueue : t.queue = s.queue) (hhistory : t.history = s.history)
    (hpoint : t.sender.point.emptying = false → s.sender.point.emptying = false)
    (hflag : t.discontinuityPending = false → s.discontinuityPending = false) : t.Kept where
  chunks := by rw [hqueue, hhistory]; exact h.chunks
  jumps_le := by rw [hhistory]; exact h.jumps_le
  resumes_le := by rw [hhistory]; exact h.resumes_le
  noted_le := by rw [hhistory]; exact h.noted_le
  fresh := fun hnot => by rw [hhistory]; exact h.fresh (hpoint hnot)
  resumed := by rw [hhistory]; exact h.resumed
  resumed_le := by rw [hhistory]; exact h.resumed_le
  answered := fun hdown => by rw [hhistory]; exact h.answered (hflag hdown)
  sent := by rw [hhistory]; exact h.sent

theorem Kept.filterAt (h : s.Kept) (point : FilterPoint) : (s.filterAt point).Kept := h.frame rfl rfl id id

theorem Kept.senderAt (h : s.Kept) {point : SenderPoint}
    (hpoint : point.emptying = false → s.sender.point.emptying = false) : (s.senderAt point).Kept :=
  h.frame rfl rfl hpoint id

theorem Kept.senderAt_of_empty (h : s.Kept) (hempty : s.history.queued = []) (point : SenderPoint) :
    (s.senderAt point).Kept :=
  { h with fresh := fun _ x hx => by
             have hx : x ∈ s.history.queued := hx
             simp [hempty] at hx }

/-! ## Flags -/

theorem Kept.flagJump (h : s.Kept) : s.flagJump.Kept where
  chunks := h.chunks
  jumps_le := fun x hx => Nat.le_succ_of_le (h.jumps_le x hx)
  resumes_le := h.resumes_le
  noted_le := Nat.le_succ_of_le h.noted_le
  fresh := h.fresh
  resumed := h.resumed
  resumed_le := h.resumed_le
  answered := by simp [AudioPath.flagJump]
  sent := h.sent

theorem Kept.flagResume (h : s.Kept) : s.flagResume.Kept where
  chunks := h.chunks
  jumps_le := h.jumps_le
  resumes_le := fun x hx => Nat.le_succ_of_le (h.resumes_le x hx)
  noted_le := h.noted_le
  fresh := h.fresh
  resumed := h.resumed
  resumed_le := Nat.le_succ_of_le h.resumed_le
  answered := h.answered
  sent := h.sent

/-- The flag is cleared before the queue is emptied: what is queued now may be old. -/
theorem Kept.clearJump (h : s.Kept) : (s.clearJump.senderAt .modeOf).Kept where
  chunks := h.chunks
  jumps_le := h.jumps_le
  resumes_le := h.resumes_le
  noted_le := by simp [AudioPath.clearJump, AudioPath.senderAt]
  fresh := by simp [AudioPath.senderAt, SenderPoint.emptying]
  resumed := h.resumed
  resumed_le := h.resumed_le
  answered := by simp [AudioPath.clearJump, AudioPath.senderAt]
  sent := h.sent

theorem Kept.noteResume (h : s.Kept) (hempty : s.history.queued = []) : s.noteResume.Kept where
  chunks := h.chunks
  jumps_le := h.jumps_le
  resumes_le := h.resumes_le
  noted_le := h.noted_le
  fresh := h.fresh
  resumed := by simp [AudioPath.noteResume, hempty]
  resumed_le := by simp [AudioPath.noteResume]
  answered := h.answered
  sent := h.sent

/-! ## The queue -/

theorem Kept.pushChunk (h : s.Kept) (chunk : CapturedChunk) : (s.pushChunk chunk).Kept := by
  have hlist := s.queue.toList_push chunk
  cases hpushed : (s.queue.push chunk).2 with
  | false =>
    simp only [hpushed, Bool.false_eq_true, if_false] at hlist
    have hhistory : (s.pushChunk chunk).history = s.history := by simp [AudioPath.pushChunk, hpushed]
    constructor <;> rw [hhistory]
    · simpa [AudioPath.pushChunk, hlist] using h.chunks
    · exact h.jumps_le
    · exact h.resumes_le
    · exact h.noted_le
    · exact h.fresh
    · exact h.resumed
    · exact h.resumed_le
    · exact h.answered
    · exact h.sent
  | true =>
    simp only [hpushed, if_true] at hlist
    have hqueued : (s.pushChunk chunk).history.queued = s.history.queued ++ [(chunk, s.history.flagged)] := by
      simp [AudioPath.pushChunk, hpushed]
    constructor
    · rw [hqueued, List.map_append, h.chunks]
      exact hlist.symm
    · intro x hx
      rw [hqueued, List.mem_append, List.mem_singleton] at hx
      rcases hx with hx | rfl
      · exact h.jumps_le x hx
      · exact le_rfl
    · intro x hx
      rw [hqueued, List.mem_append, List.mem_singleton] at hx
      rcases hx with hx | rfl
      · exact h.resumes_le x hx
      · exact le_rfl
    · exact h.noted_le
    · intro hnot x hx
      rw [hqueued, List.mem_append, List.mem_singleton] at hx
      rcases hx with hx | rfl
      · exact h.fresh hnot x hx
      · exact h.noted_le
    · intro x hx
      rw [hqueued, List.mem_append, List.mem_singleton] at hx
      rcases hx with hx | rfl
      · exact h.resumed x hx
      · exact h.resumed_le
    · exact h.resumed_le
    · exact h.answered
    · exact h.sent

/-- A pop that finds nothing has seen the queue empty. -/
theorem Kept.queued_eq_nil (h : s.Kept) (hpop : s.popChunk = none) : s.history.queued = [] := by
  have hnone : s.queue.pop = none := by
    unfold popChunk at hpop
    split at hpop <;> simp_all
  have hempty := SpscQueue.toList_of_pop_eq_none _ hnone
  rwa [← h.chunks, List.map_eq_nil_iff] at hempty

theorem Kept.popChunk_spec (h : s.Kept) {chunk : CapturedChunk} (hpop : s.popChunk = some (chunk, t)) :
    ∃ epoch queue, s.history.queued = (chunk, epoch) :: s.history.queued.tail ∧
      queue.toList = s.queue.toList.tail ∧
      t = { s with queue, history := { s.history with queued := s.history.queued.tail } } := by
  unfold popChunk at hpop
  cases hqueue : s.queue.pop with
  | none => simp [hqueue] at hpop
  | some taken =>
    obtain ⟨first, queue⟩ := taken
    simp only [hqueue, Option.some.injEq, Prod.mk.injEq] at hpop
    obtain ⟨rfl, rfl⟩ := hpop
    have hlist := SpscQueue.toList_of_pop_eq_some hqueue
    have hchunks := h.chunks
    rw [hlist] at hchunks
    obtain ⟨⟨c, epoch⟩, rest, hqueued, rfl, -⟩ := List.map_eq_cons_iff.mp hchunks
    exact ⟨epoch, queue, by rw [hqueued, List.tail_cons], by rw [hlist, List.tail_cons], rfl⟩

theorem Kept.popChunk (h : s.Kept) {chunk : CapturedChunk} (hpop : s.popChunk = some (chunk, t)) : t.Kept := by
  obtain ⟨epoch, queue, hqueued, hlist, rfl⟩ := h.popChunk_spec hpop
  have hmem : ∀ x ∈ s.history.queued.tail, x ∈ s.history.queued := fun x => List.mem_of_mem_tail
  exact
    { chunks := by rw [hlist, ← h.chunks, List.map_tail]
      jumps_le := fun x hx => h.jumps_le x (hmem x hx)
      resumes_le := fun x hx => h.resumes_le x (hmem x hx)
      noted_le := h.noted_le
      fresh := fun hnot x hx => h.fresh hnot x (hmem x hx)
      resumed := fun x hx => h.resumed x (hmem x hx)
      resumed_le := h.resumed_le
      answered := h.answered
      sent := h.sent }

theorem Kept.sent_logSent (h : s.Kept) {chunk : CapturedChunk} (hpop : s.popChunk = some (chunk, t)) {x : SentChunk}
    (hx : x ∈ (s.logSent chunk t).history.sent) :
    x ∈ s.history.sent ∨
      (x.flagged = s.history.flagged ∧ x.noted = s.history.noted ∧
        x.discontinuityPending = s.discontinuityPending ∧ x.invalidPtsPending = s.invalidPtsPending ∧
        (chunk, x.epoch) ∈ s.history.queued) := by
  obtain ⟨epoch, queue, hqueued, -, rfl⟩ := h.popChunk_spec hpop
  simp only [logSent, List.mem_append, List.mem_singleton] at hx
  rcases hx with hx | rfl
  · exact Or.inl hx
  · refine Or.inr ⟨rfl, rfl, rfl, rfl, ?_⟩
    rw [hqueued]
    simp

/-- The chunk at the head of the queue is current when the sender is not emptying the queue. -/
theorem Kept.logSent (h : s.Kept) (hnot : s.sender.point.emptying = false) {chunk : CapturedChunk}
    (hpop : s.popChunk = some (chunk, t)) : (s.logSent chunk t).Kept := by
  refine { h.popChunk hpop with sent := fun x hx => ?_ }
  rcases h.sent_logSent hpop hx with hx | ⟨hflagged, hnoted, hjump, -, hmem⟩
  · exact h.sent x hx
  · have hfresh := h.fresh hnot _ hmem
    have hle := h.jumps_le _ hmem
    refine ⟨?_, ?_, ?_, ?_, ?_⟩
    · rw [hflagged]
      exact hle
    · rw [hflagged]
      exact h.resumes_le _ hmem
    · rw [hnoted]
      exact hfresh
    · rw [hnoted]
      exact h.resumed _ hmem
    · intro hdown
      have hanswered := h.answered (hjump ▸ hdown)
      rw [hflagged]
      dsimp only at hfresh hle
      omega

/-! ## Steps -/

theorem Kept.beginFilter (h : s.Kept) (b : AudioBlock) : (s.beginFilter b).Kept := by
  unfold AudioPath.beginFilter
  split
  · exact h
  · dsimp only
    split
    · exact h.frame rfl rfl id id
    · split <;> exact h.frame rfl rfl id id

theorem Kept.filterStep (h : s.Kept) : s.filterStep.Kept := by
  unfold AudioPath.filterStep
  split
  · exact h
  · exact h.flagResume.filterAt _
  · exact h.flagJump.filterAt _
  · exact h.filterAt _
  · exact h.filterAt _
  · split <;> exact h.filterAt _
  · exact h.frame rfl rfl id id
  · split
    · exact h.filterAt _
    · exact h.frame rfl rfl id id
  · exact h.filterAt _
  · exact (h.pushChunk _).filterAt _

theorem Kept.roundStep (h : s.Kept) (hround : s.sender.point.emptying = false) (work : RoundWork) :
    (s.roundStep work).Kept := by
  cases work with
  | setRate playbackRate => exact h.frame rfl rfl id id
  | setSession active source => exact h.frame rfl rfl id id
  | setPaused paused => exact h.frame rfl rfl id id
  | seek => exact h.frame rfl rfl id (by simp [AudioPath.roundStep])
  | discardOne =>
    unfold AudioPath.roundStep
    dsimp only
    split
    · exact h
    · rename_i hpop
      exact h.popChunk hpop
  | proceed => exact h.senderAt fun _ => hround

theorem Kept.senderStep (h : s.Kept) (work : RoundWork) (ok source : Bool) : (s.senderStep work ok source).Kept := by
  unfold AudioPath.senderStep
  split <;> rename_i hpoint
  · exact h.roundStep (by simp [hpoint, SenderPoint.emptying]) work
  · exact h.clearJump
  · exact h.senderAt (by simp [SenderPoint.emptying])
  · split
    · rename_i hpop
      exact h.senderAt_of_empty (h.queued_eq_nil hpop) _
    · rename_i hpop
      exact h.popChunk hpop
  · exact h.frame rfl rfl (by simp [hpoint, SenderPoint.emptying]) id
  · exact (h.roundStep (by simp [hpoint, SenderPoint.emptying]) _).senderAt
      (by simp [AudioPath.roundStep, hpoint, SenderPoint.emptying])
  · exact h.senderAt (by simp [hpoint, SenderPoint.emptying])
  · split
    · rename_i hpop
      exact (h.noteResume (h.queued_eq_nil hpop)).senderAt_of_empty (h.queued_eq_nil hpop) _
    · rename_i hpop
      exact h.popChunk hpop
  · exact h.frame rfl rfl (by simp [hpoint, SenderPoint.emptying]) id
  · exact h.senderAt (by simp [hpoint, SenderPoint.emptying])
  · have hnot : s.sender.point.emptying = false := by simp [hpoint, SenderPoint.emptying]
    split
    · exact h.senderAt (by simp [hpoint, SenderPoint.emptying])
    · rename_i hpop
      split
      · exact h.popChunk hpop
      · split
        · exact h.logSent hnot hpop
        · obtain ⟨_, _, -, -, rfl⟩ := h.popChunk_spec hpop
          exact (h.logSent hnot hpop).senderAt fun _ => hnot

theorem Kept.step (h : s.Kept) (move : Move) : (s.step move).Kept := by
  cases move with
  | block b =>
    unfold AudioPath.step
    dsimp only
    split
    · exact h.beginFilter b
    · exact h
  | filter => exact h.filterStep
  | sender work ok source => exact h.senderStep work ok source

theorem kept_run (moves : List Move) : (run step (start capacityChunks) moves).Kept :=
  run_invariant' (fun _ move h => h.step move) moves kept_start

/-- **Epochs of the audio.** In every interleaving, the queue holds the chunks that the history says, no chunk was sent
that had been pushed before a jump that the sender had acknowledged, a chunk that was sent while no jump was flagged is
of after the last one, and a jump that is not flagged any more was acknowledged. -/
theorem sent_epoch (capacityChunks : Nat) (moves : List Move) :
    let s := run step (start capacityChunks) moves
    s.history.queued.map (·.1) = s.queue.toList ∧
      (∀ x ∈ s.history.sent, x.noted.jumps ≤ x.epoch.jumps ∧ x.noted.resumes ≤ x.epoch.resumes ∧
        (x.discontinuityPending = false → x.epoch.jumps = x.flagged.jumps)) ∧
      (s.discontinuityPending = false → s.history.noted.jumps = s.history.flagged.jumps) := by
  have h : (run step (start capacityChunks) moves).Kept := kept_run moves
  exact ⟨h.chunks, fun x hx => ⟨(h.sent x hx).noted_jumps, (h.sent x hx).noted_resumes, (h.sent x hx).newest⟩, h.answered⟩

/-! ## Stretches without valid times -/

/-- The filter does not store `invalid_pts_pending` between the sender's last look at the queue and its own store. -/
def Undisturbed (s : AudioPath capacityChunks) : Move → Prop
  | .filter => s.sender.point = .lower → s.filter.point.resuming = false
  | _ => True

instance (s : AudioPath capacityChunks) : ∀ move, Decidable (s.Undisturbed move)
  | .filter => inferInstanceAs (Decidable (_ → _))
  | .block _ | .sender _ _ _ => .isTrue trivial

structure Lowered (s : AudioPath capacityChunks) : Prop where
  kept : s.Kept
  lowered : s.invalidPtsPending = false → s.history.noted.resumes = s.history.flagged.resumes
  lowering : s.sender.point = .lower → s.history.noted.resumes = s.history.flagged.resumes
  sent : ∀ x ∈ s.history.sent, x.Resumed

theorem lowered_start : (start capacityChunks).Lowered where
  kept := kept_start
  lowered := by simp [start]
  lowering := by simp [start]
  sent := by simp [start]

theorem Lowered.frame (h : s.Lowered) (hkept : t.Kept)
    (hflagged : t.history.flagged.resumes = s.history.flagged.resumes)
    (hnoted : t.history.noted.resumes = s.history.noted.resumes) (hsent : t.history.sent = s.history.sent)
    (hpending : t.invalidPtsPending = s.invalidPtsPending)
    (hpoint : t.sender.point = .lower → s.sender.point = .lower) : t.Lowered where
  kept := hkept
  lowered := by rw [hpending, hflagged, hnoted]; exact h.lowered
  lowering := fun hlower => by rw [hflagged, hnoted]; exact h.lowering (hpoint hlower)
  sent := by rw [hsent]; exact h.sent

theorem Lowered.senderAt (h : s.Lowered) {point : SenderPoint} (hkept : (s.senderAt point).Kept) (hpoint : point ≠ .lower) :
    (s.senderAt point).Lowered :=
  h.frame hkept rfl rfl rfl rfl fun hlower => absurd hlower hpoint

theorem Lowered.popChunk (h : s.Lowered) {chunk : CapturedChunk} (hpop : s.popChunk = some (chunk, t)) : t.Lowered := by
  have hkept := h.kept.popChunk hpop
  obtain ⟨_, _, -, -, rfl⟩ := h.kept.popChunk_spec hpop
  exact h.frame hkept rfl rfl rfl rfl id

theorem Lowered.logSent (h : s.Lowered) (hnot : s.sender.point.emptying = false) {chunk : CapturedChunk}
    (hpop : s.popChunk = some (chunk, t)) : (s.logSent chunk t).Lowered := by
  refine { h.popChunk hpop with kept := h.kept.logSent hnot hpop, sent := fun x hx => ?_ }
  rcases h.kept.sent_logSent hpop hx with hx | ⟨hflagged, -, -, hpending, hmem⟩
  · exact h.sent x hx
  · intro hdown
    have hlowered := h.lowered (hpending ▸ hdown)
    have hle := h.kept.resumes_le _ hmem
    have hresumed := h.kept.resumed _ hmem
    rw [hflagged]
    dsimp only at hle hresumed
    omega

theorem Lowered.filterStep (h : s.Lowered) (hp : s.Undisturbed .filter) : s.filterStep.Lowered := by
  have hkept := h.kept.filterStep
  unfold AudioPath.filterStep at hkept ⊢
  cases hpoint : s.filter.point with
  | resume =>
    have hnot : s.sender.point ≠ .lower := fun hlower => by simpa [hpoint, FilterPoint.resuming] using hp hlower
    simp only [hpoint] at hkept
    exact
      { kept := hkept
        lowered := by simp [AudioPath.flagResume, AudioPath.filterAt]
        lowering := fun hlower => absurd hlower hnot
        sent := h.sent }
  | enter input =>
    simp only [hpoint] at hkept ⊢
    split
    · exact h.frame (h.kept.filterAt _) rfl rfl rfl rfl id
    · exact h.frame (h.kept.filterAt _) rfl rfl rfl rfl id
  | resample input wasReset =>
    simp only [hpoint] at hkept ⊢
    split
    · exact h.frame (h.kept.filterAt _) rfl rfl rfl rfl id
    · exact h.frame (h.kept.frame rfl rfl id id) rfl rfl rfl rfl id
  | push chunks =>
    cases chunks with
    | nil => exact h.frame (h.kept.filterAt _) rfl rfl rfl rfl id
    | cons chunk chunks => exact h.frame ((h.kept.pushChunk chunk).filterAt _) rfl rfl rfl rfl id
  | _ =>
    simp only [hpoint] at hkept ⊢
    exact h.frame hkept rfl rfl rfl rfl id

theorem Lowered.roundStep (h : s.Lowered) (hround : s.sender.point.emptying = false) (work : RoundWork) :
    (s.roundStep work).Lowered := by
  have hkept := h.kept.roundStep hround work
  cases work with
  | discardOne =>
    unfold AudioPath.roundStep
    dsimp only
    split
    · exact h
    · rename_i hpop
      exact h.popChunk hpop
  | proceed =>
    apply h.senderAt hkept
    split <;> simp
  | _ => exact h.frame hkept rfl rfl rfl rfl id

theorem Lowered.senderStep (h : s.Lowered) (work : RoundWork) (ok source : Bool) :
    (s.senderStep work ok source).Lowered := by
  have hkept := h.kept.senderStep work ok source
  unfold AudioPath.senderStep at hkept ⊢
  cases hpoint : s.sender.point with
  | round => exact h.roundStep (by simp [hpoint, SenderPoint.emptying]) work
  | discard isSourceMode =>
    simp only [hpoint] at hkept ⊢
    split
    · rename_i hpop
      exact h.senderAt (h.kept.senderAt_of_empty (h.kept.queued_eq_nil hpop) _) (by simp)
    · rename_i hpop
      exact h.popChunk hpop
  | drain =>
    simp only [hpoint] at hkept ⊢
    split
    · rename_i hpop
      have hempty := h.kept.queued_eq_nil hpop
      exact
        { kept := (h.kept.noteResume hempty).senderAt_of_empty hempty _
          lowered := fun _ => rfl
          lowering := fun _ => rfl
          sent := h.sent }
    · rename_i hpop
      exact h.popChunk hpop
  | lower =>
    simp only [hpoint] at hkept ⊢
    exact
      { kept := hkept
        lowered := fun _ => h.lowering hpoint
        lowering := by simp [AudioPath.senderAt]
        sent := h.sent }
  | burst isSourceMode =>
    have hnot : s.sender.point.emptying = false := by simp [hpoint, SenderPoint.emptying]
    simp only [hpoint] at hkept ⊢
    split
    · exact h.senderAt (h.kept.senderAt fun _ => hnot) (by simp)
    · rename_i hpop
      split
      · exact h.popChunk hpop
      · split
        · exact h.logSent hnot hpop
        · have hsent := h.logSent hnot hpop
          obtain ⟨_, _, -, -, rfl⟩ := h.kept.popChunk_spec hpop
          exact hsent.senderAt (hsent.kept.senderAt fun _ => hnot) (by simp)
  | acknowledge =>
    simp only [hpoint] at hkept ⊢
    exact h.frame hkept rfl rfl rfl rfl (by simp [AudioPath.senderAt])
  | restart =>
    simp only [hpoint] at hkept ⊢
    exact h.frame hkept rfl rfl rfl rfl (by simp [AudioPath.senderAt])
  | modeOf =>
    simp only [hpoint] at hkept ⊢
    exact h.senderAt hkept (by simp)
  | askReset isSourceMode =>
    simp only [hpoint] at hkept ⊢
    refine h.frame hkept rfl rfl rfl rfl ?_
    cases isSourceMode <;> simp [AudioPath.senderAt]
  | checkInvalid =>
    simp only [hpoint] at hkept ⊢
    apply h.senderAt hkept
    split <;> simp
  | look =>
    simp only [hpoint] at hkept ⊢
    exact h.senderAt hkept (by simp)

theorem Lowered.beginFilter (h : s.Lowered) (b : AudioBlock) : (s.beginFilter b).Lowered := by
  have hkept := h.kept.beginFilter b
  unfold AudioPath.beginFilter at hkept ⊢
  cases hinput : b.input with
  | none => exact h
  | some input =>
    simp only [hinput] at hkept ⊢
    refine h.frame hkept ?_ ?_ ?_ ?_ ?_
    all_goals split
    all_goals first | rfl | exact id | (split <;> first | rfl | exact id)

theorem Lowered.step (h : s.Lowered) (move : Move) (hp : s.Undisturbed move) : (s.step move).Lowered := by
  cases move with
  | block b =>
    unfold AudioPath.step
    dsimp only
    split
    · exact h.beginFilter b
    · exact h
  | filter => exact h.filterStep hp
  | sender work ok source => exact h.senderStep work ok source

/-- **After a stretch without valid times.** If no such stretch ends while the sender is about to lower the flag, a chunk
that is sent while the flag is down is of after the last one. -/
theorem sent_resumed (capacityChunks : Nat) (moves : List Move)
    (h : Along step Undisturbed (start capacityChunks) moves) :
    ∀ x ∈ (run step (start capacityChunks) moves).history.sent,
      x.invalidPtsPending = false → x.epoch.resumes = x.flagged.resumes :=
  (run_invariant (fun _ move h hp => h.step move hp) lowered_start h).sent

/-- A block of one sample. -/
def oneSample (pts : Int) : AudioBlock where
  iFormat := .s16n
  asFl32 _ := .one
  asS16 _ := 7
  asS32 _ := 0
  nbSamples := 1
  pts := pts
  rate := audioTargetRate
  channels := 1
  discontinuity := false

/-- The filter's whole call for such a block. -/
def filtered (pts : Int) : List Move := .block (oneSample pts) :: List.replicate 6 .filter

def senderSteps (n : Nat) : List Move := List.replicate n (.sender .proceed true false)

/-- A session, a stretch without valid times, and then a chunk that the sender sends. -/
def afterStretch : List Move :=
  .sender (.setSession true false) true false :: filtered 0 ++ filtered 2000 ++ senderSteps 5 ++ filtered 3000 ++ senderSteps 5

theorem sent_resumed_afterStretch :
    (∀ x ∈ (run step (start 16) afterStretch).history.sent,
      x.invalidPtsPending = false → x.epoch.resumes = x.flagged.resumes) ∧
    (run step (start 16) afterStretch).history.sent.map (·.chunk.startPtsUs) = [3000] :=
  ⟨sent_resumed 16 afterStretch (by decide +kernel), by decide +kernel⟩

/-- The second stretch ends while the sender is about to lower the flag of the first: the chunk of before it is sent. -/
example :
    (run step (start 16) (.sender (.setSession true false) true false :: filtered 0 ++ filtered 2000 ++ senderSteps 3 ++
      filtered 3000 ++ filtered 0 ++ filtered 4000 ++ senderSteps 3)).history.sent.map
        (fun x => (x.invalidPtsPending, x.epoch.resumes, x.flagged.resumes)) = [(false, 1, 2)] := by
  decide +kernel

end AudioPath

end VlcWhisper.Plugin
