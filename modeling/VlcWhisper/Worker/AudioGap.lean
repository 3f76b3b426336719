import VlcWhisper.Plugin.SpscQueue
import VlcWhisper.Worker.AudioTimeline

/-!
# From a full queue to the audio buffer

The callback pushes the capture's chunks while the sender pops them and the worker appends them to its audio buffer,
with drains at any point in between. A full queue refuses chunks, and the next delivered one then comes later than the
buffer's end. Main result: `capture_gap_reanchors`. What the queue refused between two delivered chunks is either at
most twice the buffer's tolerance long, or the second chunk starts the buffer anew at its own time.

Small gaps may be spliced, which leaves the end of the buffer earlier than the timeline has it, never later: the
invariant `TrailsAt` bounds it from above only, and this is the side on which a gap is seen.
-/

namespace VlcWhisper.Worker

open VlcWhisper.Lib VlcWhisper.Plugin

/-! ## The end of the buffer after gaps -/

namespace AudioBuffer

variable {α : Type} {maxSamples : Nat} {P : Int → Prop}

/-- The buffer does not end later than where the sample `i` starts, by more than two skews differ. -/
def TrailsAt (P : Int → Prop) (i : Nat) (b : AudioBuffer α maxSamples) : Prop :=
  b.count = 0 ∨ ∃ z, (∀ y, P y → z - y ≤ 126) ∧ b.endHalfUs = z + 125 * i

theorem TrailsAt.skip {i : Nat} {b : AudioBuffer α maxSamples} (h : b.TrailsAt P i) (n : Nat) : b.TrailsAt P (i + n) := by
  rcases h with hempty | ⟨z, hz, hend⟩
  · exact .inl hempty
  · refine .inr ⟨z - 125 * n, fun y hy => ?_, ?_⟩
    · have := hz y hy
      omega
    · rw [hend]
      push_cast
      omega

theorem TrailsAt.drain {i : Nat} {b : AudioBuffer α maxSamples} (h : b.TrailsAt P i) (sampleCount : Nat) :
    (b.drain sampleCount).TrailsAt P i := by
  rcases h with hempty | ⟨z, hz, hend⟩
  · left
    rw [count_drain, hempty]
    omega
  · rcases endHalfUs_drain b sampleCount with hempty | hsame
    · exact .inl hempty
    · exact .inr ⟨z, hz, hsame.trans hend⟩

theorem endHalfUs_append_discontinuity {b : AudioBuffer α maxSamples} {ptsUs : Int}
    (hbreak : b.isDiscontinuity ptsUs = true) {pcm : List α} (hpcm : pcm ≠ []) :
    (b.append pcm ptsUs).endHalfUs = 2 * ptsUs + 125 * pcm.length := by
  have hclear : b.append pcm ptsUs = b.clear.append pcm ptsUs := by
    have hcalm : b.clear.isDiscontinuity ptsUs = false := rfl
    unfold append prepare
    rw [if_neg hpcm, if_neg hpcm, if_pos hbreak, hcalm]
    rfl
  rw [hclear]
  exact endHalfUs_append_empty b.count_clear hpcm ptsUs

theorem TrailsAt.append {i : Nat} {b : AudioBuffer α maxSamples} (h : b.TrailsAt P i)
    (hclose : ∀ y z, P y → P z → y - z ≤ 126) {chunk : CapturedChunk} (hskew : P (chunk.skew i))
    (hpcm : 0 < chunk.pcm.length) (norm : Int → α) :
    (b.append (chunk.pcm.map norm) chunk.startPtsUs).TrailsAt P (i + chunk.pcm.length) := by
  have hnil : chunk.pcm.map norm ≠ [] := List.ne_nil_of_length_pos (by rw [List.length_map]; exact hpcm)
  have hanew (hend : (b.append (chunk.pcm.map norm) chunk.startPtsUs).endHalfUs =
      2 * chunk.startPtsUs + 125 * (chunk.pcm.map norm).length) :
      (b.append (chunk.pcm.map norm) chunk.startPtsUs).TrailsAt P (i + chunk.pcm.length) := by
    refine .inr ⟨chunk.skew i, fun y hy => hclose _ _ hskew hy, ?_⟩
    rw [hend, List.length_map]
    unfold CapturedChunk.skew
    omega
  by_cases hempty : b.count = 0
  · exact hanew (endHalfUs_append_empty hempty hnil _)
  · by_cases hbreak : b.isDiscontinuity chunk.startPtsUs = true
    · exact hanew (endHalfUs_append_discontinuity hbreak hnil)
    · obtain ⟨z, hz, hend⟩ := h.resolve_left hempty
      refine .inr ⟨z, hz, ?_⟩
      rw [endHalfUs_append (by omega) (Bool.eq_false_of_not_eq_true hbreak), hend, List.length_map]
      omega

/-- The append starts the buffer anew at the chunk's time: nothing from before is left. -/
def Reanchors (norm : Int → α) (b : AudioBuffer α maxSamples) (chunk : CapturedChunk) : Prop :=
  let fresh := b.prepare chunk.startPtsUs
  (fresh.toList = [] ∧ fresh.startPtsUs = chunk.startPtsUs ∧ fresh.startPtsFracUs = 0) ∧
    b.append (chunk.pcm.map norm) chunk.startPtsUs = (chunk.pcm.map norm).foldl write fresh

theorem reanchors_of_empty {norm : Int → α} {b : AudioBuffer α maxSamples} {chunk : CapturedChunk}
    (hpcm : 0 < chunk.pcm.length) (h : b.count = 0 ∨ b.isDiscontinuity chunk.startPtsUs = true) :
    b.Reanchors norm chunk := by
  have hnil : chunk.pcm.map norm ≠ [] := List.ne_nil_of_length_pos (by rw [List.length_map]; exact hpcm)
  refine ⟨?_, if_neg hnil⟩
  unfold prepare
  by_cases hbreak : b.isDiscontinuity chunk.startPtsUs = true
  · rw [if_pos hbreak]
    exact ⟨rfl, rfl, rfl⟩
  · have hempty := h.resolve_right hbreak
    rw [if_neg hbreak]
    refine ⟨?_, ?_⟩
    · rw [toList_anchor]
      exact List.length_eq_zero_iff.mp ((length_toList b).trans hempty)
    · unfold anchor
      rw [if_pos hempty]
      exact ⟨rfl, rfl⟩

/-- A gap of three samples is seen: the append comes more than 63 µs after the end of what is buffered. -/
theorem TrailsAt.reanchors {i : Nat} {b : AudioBuffer α maxSamples} (h : b.TrailsAt P i) {n : Nat} (hgap : 3 ≤ n)
    {chunk : CapturedChunk} (hskew : P (chunk.skew (i + n))) (hpcm : 0 < chunk.pcm.length) (norm : Int → α) :
    b.Reanchors norm chunk := by
  refine reanchors_of_empty hpcm ?_
  rcases h with hempty | ⟨z, hz, hend⟩
  · exact .inl hempty
  · rcases Nat.eq_zero_or_pos b.count with hempty | hpos
    · exact .inl hempty
    · right
      have hlate := hz _ hskew
      have hdelta : 63 < chunk.startPtsUs - b.expectedPtsUs := by
        rw [expectedPtsUs_eq, hend]
        unfold CapturedChunk.skew at hlate
        push_cast at hlate
        omega
      unfold isDiscontinuity
      simp [hpos, hdelta]

end AudioBuffer

/-! ## The pipeline -/

/-- The plugin's queue and the worker's buffer, with what was pushed after the last delivered chunk and whether the
queue took it. -/
structure Pipeline (α : Type) (capacityChunks maxSamples : Nat) where
  queue : SpscQueue capacityChunks
  buffer : AudioBuffer α maxSamples
  undelivered : List (CapturedChunk × Bool)

/-- What the two sides do. -/
inductive Pipeline.Move where
  | push (chunk : CapturedChunk)
  | deliver
  | drain (sampleCount : Nat)

namespace Pipeline

variable {α : Type} {capacityChunks maxSamples : Nat}

/-- An empty queue before a buffer. -/
def start (capacityChunks : Nat) (buffer : AudioBuffer α maxSamples) : Pipeline α capacityChunks maxSamples where
  queue := .create capacityChunks
  buffer := buffer
  undelivered := []

/-- The callback pushes a chunk; the sender pops one, which the worker appends; the worker drains its buffer. -/
def step (norm : Int → α) (w : Pipeline α capacityChunks maxSamples) : Move → Pipeline α capacityChunks maxSamples
  | .push chunk =>
    let (queue, accepted) := w.queue.push chunk
    { w with queue, undelivered := w.undelivered ++ [(chunk, accepted)] }
  | .deliver =>
    match w.queue.pop with
    | none => w
    | some (chunk, queue) =>
      { queue, buffer := w.buffer.append (chunk.pcm.map norm) chunk.startPtsUs
        undelivered := (w.undelivered.dropWhile fun p => !p.2).tail }
  | .drain sampleCount => { w with buffer := w.buffer.drain sampleCount }

/-- What the queue refused between the last delivered chunk and the next. -/
def lost (w : Pipeline α capacityChunks maxSamples) : List CapturedChunk :=
  (w.undelivered.takeWhile fun p => !p.2).map Prod.fst

def lostUs (w : Pipeline α capacityChunks maxSamples) : Int := (w.lost.map (·.durationUs)).sum

/-- The chunk a move pushes. -/
def Move.pushes : Move → Option CapturedChunk
  | .push chunk => some chunk
  | _ => none

/-- The chunks that are pushed, in order. -/
def pushed (moves : List Move) : List CapturedChunk := moves.filterMap Move.pushes

/-- A chunk delivered after a loss of more than 126 µs starts the buffer anew. -/
def GapShown (norm : Int → α) (w : Pipeline α capacityChunks maxSamples) : Move → Prop
  | .deliver => ∀ chunk queue, w.queue.pop = some (chunk, queue) → 126 < w.lostUs → w.buffer.Reanchors norm chunk
  | _ => True

/-! ### The invariant -/

/-- Where the pipeline stands on a timeline: the sample `i` is the first after the last delivered chunk, and `rest` is
still to be pushed. -/
structure Trailing (P : Int → Prop) (i : Nat) (rest : List CapturedChunk) (w : Pipeline α capacityChunks maxSamples) :
    Prop where
  queued : (w.undelivered.filter (·.2)).map Prod.fst = w.queue.toList
  formed : ∀ c ∈ w.undelivered.map Prod.fst ++ rest, c.Formed audioTargetRate
  skew : AtSkew P i (w.undelivered.map Prod.fst ++ rest)
  trails : w.buffer.TrailsAt P i

/-- The first chunk the queue took comes after those it refused before. -/
theorem dropWhile_eq {l : List (CapturedChunk × Bool)} {chunk : CapturedChunk} {rest : List CapturedChunk}
    (h : (l.filter (·.2)).map Prod.fst = chunk :: rest) :
    ∃ later, (l.dropWhile fun p => !p.2) = (chunk, true) :: later ∧ (later.filter (·.2)).map Prod.fst = rest := by
  induction l with
  | nil => cases h
  | cons p l ih =>
    obtain ⟨first, accepted⟩ := p
    cases accepted with
    | false => exact ih h
    | true =>
      rw [List.filter_cons_of_pos rfl, List.map_cons, List.cons.injEq] at h
      obtain ⟨rfl, hrest⟩ := h
      exact ⟨l, rfl, hrest⟩

theorem duration_le {chunks : List CapturedChunk} (h : ∀ c ∈ chunks, c.Formed audioTargetRate) :
    (chunks.map (·.durationUs)).sum ≤ 63 * sampleCount chunks := by
  induction chunks with
  | nil => exact le_refl 0
  | cons c chunks ih =>
    have hformed := h c (List.mem_cons_self ..)
    have hrest := ih fun d hd => h d (List.mem_cons_of_mem _ hd)
    have hpos := hformed.nonempty
    rw [List.map_cons, List.sum_cons, sampleCount_cons, hformed.duration]
    unfold audioTargetRate
    omega

variable {P : Int → Prop} {i : Nat} {rest : List CapturedChunk} {w : Pipeline α capacityChunks maxSamples}

/-- What a delivery finds: the refused chunks, then the delivered one, then what was pushed after it. -/
theorem Trailing.split (h : w.Trailing P i rest) {chunk : CapturedChunk} {queue : SpscQueue capacityChunks}
    (hpop : w.queue.pop = some (chunk, queue)) :
    ∃ later, (w.undelivered.dropWhile fun p => !p.2) = (chunk, true) :: later ∧
      (later.filter (·.2)).map Prod.fst = queue.toList ∧
      w.undelivered.map Prod.fst = w.lost ++ chunk :: later.map Prod.fst := by
  have hqueued := h.queued.trans (SpscQueue.toList_of_pop_eq_some hpop)
  obtain ⟨later, hdrop, hlater⟩ := dropWhile_eq hqueued
  refine ⟨later, hdrop, hlater, ?_⟩
  have htake := List.takeWhile_append_dropWhile (p := fun p : CapturedChunk × Bool => !p.2) (l := w.undelivered)
  rw [hdrop] at htake
  unfold lost
  conv_lhs => rw [← htake]
  rw [List.map_append, List.map_cons]

theorem Trailing.push {chunk : CapturedChunk} (h : w.Trailing P i (chunk :: rest)) (norm : Int → α) :
    (w.step norm (.push chunk)).Trailing P i rest := by
  have hlist : (w.undelivered ++ [(chunk, (w.queue.push chunk).2)]).map Prod.fst ++ rest =
      w.undelivered.map Prod.fst ++ chunk :: rest := by simp
  refine ⟨?_, ?_, ?_, h.trails⟩
  · show ((w.undelivered ++ [(chunk, (w.queue.push chunk).2)]).filter (·.2)).map Prod.fst = (w.queue.push chunk).1.toList
    rw [SpscQueue.toList_push, List.filter_append, List.map_append, h.queued]
    cases (w.queue.push chunk).2 <;> simp
  · show ∀ c ∈ (w.undelivered ++ [(chunk, (w.queue.push chunk).2)]).map Prod.fst ++ rest, _
    rw [hlist]
    exact h.formed
  · show AtSkew P i ((w.undelivered ++ [(chunk, (w.queue.push chunk).2)]).map Prod.fst ++ rest)
    rw [hlist]
    exact h.skew

/-- A delivery puts the buffer's end after the delivered chunk. -/
theorem Trailing.deliver (h : w.Trailing P i rest) (hclose : ∀ y z, P y → P z → y - z ≤ 126) (norm : Int → α) :
    ∃ j, (w.step norm .deliver).Trailing P j rest := by
  unfold step
  cases hpop : w.queue.pop with
  | none => exact ⟨i, h⟩
  | some taken =>
    obtain ⟨chunk, queue⟩ := taken
    obtain ⟨later, hdrop, hlater, hsplit⟩ := h.split hpop
    have hskew := h.skew
    have hformed := h.formed
    rw [hsplit, List.append_assoc] at hskew hformed
    obtain ⟨-, hchunk, hafter⟩ := atSkew_append.mp hskew
    refine ⟨i + sampleCount w.lost + chunk.pcm.length, ?_, ?_, ?_, ?_⟩
    · show (((w.undelivered.dropWhile fun p => !p.2).tail.filter (·.2)).map Prod.fst) = queue.toList
      rw [hdrop]
      exact hlater
    · show ∀ c ∈ (w.undelivered.dropWhile fun p => !p.2).tail.map Prod.fst ++ rest, _
      rw [hdrop]
      intro c hc
      exact hformed c (List.mem_append_right _ (List.mem_cons_of_mem _ hc))
    · show AtSkew P _ ((w.undelivered.dropWhile fun p => !p.2).tail.map Prod.fst ++ rest)
      rw [hdrop]
      exact hafter
    · have hpcm := (hformed chunk (List.mem_append_right _ (List.mem_cons_self ..))).nonempty
      exact (h.trails.skip (sampleCount w.lost)).append hclose hchunk hpcm norm

/-- A loss of more than 126 µs is a gap of three samples at least. -/
theorem Trailing.gapShown (h : w.Trailing P i rest) (norm : Int → α) (move : Move) : w.GapShown norm move := by
  cases move with
  | push chunk => trivial
  | drain sampleCount => trivial
  | deliver =>
    intro chunk queue hpop hlost
    obtain ⟨later, -, -, hsplit⟩ := h.split hpop
    have hskew := h.skew
    have hformed := h.formed
    rw [hsplit, List.append_assoc] at hskew hformed
    obtain ⟨-, hchunk, -⟩ := atSkew_append.mp hskew
    have hduration : w.lostUs ≤ _ := duration_le fun c hc => hformed c (List.mem_append_left _ hc)
    have hpcm := (hformed chunk (List.mem_append_right _ (List.mem_cons_self ..))).nonempty
    exact h.trails.reanchors (n := sampleCount w.lost) (by omega) hchunk hpcm norm

theorem along_gapShown (hclose : ∀ y z, P y → P z → y - z ≤ 126) (norm : Int → α) {moves : List Move}
    (h : w.Trailing P i (pushed moves)) : Along (step norm) (GapShown norm) w moves := by
  induction moves generalizing i w with
  | nil => trivial
  | cons move moves ih =>
    refine ⟨h.gapShown norm move, ?_⟩
    cases move with
    | push chunk => exact ih (h.push norm)
    | deliver =>
      obtain ⟨j, hj⟩ := h.deliver hclose norm
      exact ih hj
    | drain sampleCount => exact ih ⟨h.queued, h.formed, h.skew, h.trails.drain sampleCount⟩

end Pipeline

/-- **Dropped audio is observable.** After any callbacks, the chunks that contiguous blocks of any rate and channel
count give are pushed to an empty queue of any capacity, in any interleaving with deliveries to an empty buffer of any
size and with drains of it. Each chunk delivered after a loss of more than 126 µs starts the buffer anew at its own
time. -/
theorem capture_gap_reanchors {α : Type} {maxSamples : Nat} (norm : Int → α) (before : List Callback) {rate : Nat}
    (hrate : 0 < rate) {origin : Int} {callbacks : List Callback} (hcontiguous : Contiguous rate origin 0 callbacks)
    (capacityChunks : Nat) {b : AudioBuffer α maxSamples} (hempty : b.count = 0) {moves : List Pipeline.Move}
    (hpushed : Pipeline.pushed moves <+:
      (run AudioCapture.step (.create audioTargetRate) before).chunksOf callbacks) :
    Along (Pipeline.step norm) (Pipeline.GapShown norm) (.start capacityChunks b) moves := by
  obtain ⟨hphased, htarget⟩ := AudioCapture.reachable audioTargetRate before
  generalize run AudioCapture.step (.create audioTargetRate) before = cap at hphased htarget hpushed
  have htarget' : cap.targetRate = audioTargetRate := by
    unfold AudioCapture.targetRate
    rw [htarget]
    rfl
  have hstart : rate * 0 + cap.phase rate = cap.phase rate + audioTargetRate * 0 := by omega
  have hskew := AudioCapture.atSkew_chunksOf hrate hphased htarget' hstart hcontiguous
  have hformed := cap.formed_chunksOf callbacks
  obtain ⟨post, hpost⟩ := hpushed
  rw [← hpost] at hskew hformed
  rw [htarget'] at hformed
  have htrailing : (Pipeline.start capacityChunks b).Trailing (OnGrid rate origin (cap.phase rate)) 0
      (Pipeline.pushed moves) :=
    ⟨SpscQueue.toList_create.symm, fun c hc => hformed c (List.mem_append_left _ hc), (atSkew_append.mp hskew).1,
      .inl hempty⟩
  exact Pipeline.along_gapShown (fun _ _ hy hz => onGrid_close hrate hy hz) norm htrailing

/-- A queue with room for one chunk refuses the second of these. -/
def lossyMoves (chunks : List CapturedChunk) : List Pipeline.Move :=
  (chunks.take 2).map .push ++ .deliver :: (chunks.drop 2).map .push ++ [.drain 7, .deliver]

theorem pushed_lossyMoves (chunks : List CapturedChunk) : Pipeline.pushed (lossyMoves chunks) = chunks := by
  have hpush (l : List CapturedChunk) : (l.map Pipeline.Move.push).filterMap Pipeline.Move.pushes = l := by
    rw [List.filterMap_map]
    exact List.filterMap_some
  unfold Pipeline.pushed lossyMoves
  rw [List.filterMap_append, List.filterMap_append, hpush, List.filterMap_cons_none rfl, hpush]
  simp [Pipeline.Move.pushes]

/-- The chunks of 30 ms. -/
def threeChunks : List CapturedChunk :=
  (AudioCapture.create audioTargetRate).chunksOf [tenMilliseconds 0, tenMilliseconds 441, tenMilliseconds 882]

theorem capture_gap_reanchors_lossy :
    (run (Pipeline.step id) (.start 1 (AudioBuffer.create 16000 (by decide) 0))
      ((lossyMoves threeChunks).take 5)).lostUs = 10000 ∧
      Along (Pipeline.step id) (Pipeline.GapShown id) (.start 1 (AudioBuffer.create 16000 (by decide) 0))
        (lossyMoves threeChunks) := by
  have hcontiguous : Contiguous 44100 7 0 [tenMilliseconds 0, tenMilliseconds 441, tenMilliseconds 882] :=
    ⟨⟨rfl, by decide, rfl⟩, ⟨rfl, rfl⟩, ⟨rfl, by decide, rfl⟩, ⟨rfl, rfl⟩, ⟨rfl, by decide, rfl⟩, ⟨rfl, rfl⟩, trivial⟩
  refine ⟨by decide +kernel, capture_gap_reanchors id [] (by decide) hcontiguous 1 rfl ?_⟩
  rw [pushed_lossyMoves]
  exact List.prefix_rfl

end VlcWhisper.Worker
