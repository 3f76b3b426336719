import VlcWhisper.Lib.Ring
import VlcWhisper.Worker.CueText

/-!
# The segment builder (`vw_segment_builder.c`)

Hypotheses are pushed in, deduplicated against the pending cues and the committed history, and queued as final
cues; the caller pops them in order. Each allocation may fail: `Alloc` says which of those made at one place
succeed, and a push is given one for every place (`Site`) at which it can allocate.

`pushHypothesis_cases` says everything a push can do: nothing, or emit one cue (`Emitted`) for one of the
reasons listed in `Accepts`.
-/

namespace VlcWhisper.Worker

open VlcWhisper.Lib VlcWhisper.Protocol

def historyCapacity : Nat := 16
def initialCapacity : Nat := 32
def builderMaxTextBytes : Nat := 1024
def dedupToleranceUs : Int := 500000

/-! ## State -/

/-- A final cue; its text is owned by whoever holds it. -/
structure Cue where
  segmentId : Nat
  startPtsUs : Int
  endPtsUs : Int
  text : Bytes
  deriving DecidableEq, Repr

/-- `vw_history_entry_t`. -/
structure HistoryEntry where
  startPtsUs : Int
  endPtsUs : Int
  text : Bytes
  deriving DecidableEq, Repr

def Cue.entry (c : Cue) : HistoryEntry := ⟨c.startPtsUs, c.endPtsUs, c.text⟩

/-- `vw_segment_builder_t`; a frontier of -1 says that nothing was committed yet. -/
structure SegmentBuilder where
  nextSegmentId : Nat
  capacity : Nat
  queue : Ring Cue capacity
  history : Ring HistoryEntry historyCapacity
  coveredEndUs : Int

namespace SegmentBuilder

/-- `vw_segment_builder_create`. -/
def create : SegmentBuilder where
  nextSegmentId := 1
  capacity := initialCapacity
  queue := .empty _ (by decide) ⟨0, 0, 0, []⟩
  history := .empty _ (by decide) ⟨0, 0, []⟩
  coveredEndUs := -1

/-- `vw_segment_builder_clear`. -/
def clear (b : SegmentBuilder) : SegmentBuilder :=
  { b with queue := b.queue.clear, history := b.history.clear, coveredEndUs := -1 }

/-- `vw_segment_builder_get_last_segment`. -/
def lastSegment (b : SegmentBuilder) : Option Cue := b.queue.newestFirst.head?

/-- `vw_segment_builder_pop`. -/
def pop (b : SegmentBuilder) : Option (Cue × SegmentBuilder) :=
  match b.queue.pop with
  | none => none
  | some (c, queue) => some (c, { b with queue })

/-! ## Emitting a cue -/

/-- Which allocations succeed: the trimmed text, the cue's copy of its text, the larger queue. -/
structure Alloc where
  trimmed : Bool
  copy : Bool
  grow : Bool

/-- The places of a push that allocate: the trims against the pending cue and against the `i`-th newest
history entry, and the whole candidate. -/
inductive Site where
  | pending
  | history (i : Nat)
  | whole

/-- There is memory for everything. -/
def plenty : Site → Alloc := fun _ => ⟨true, true, true⟩

theorem capacity_pos (b : SegmentBuilder) : 0 < b.capacity := Nat.zero_lt_of_lt b.queue.head_lt

/-- `vw_segment_builder_enqueue`. -/
def enqueue (a : Alloc) (b : SegmentBuilder) (text : Bytes) (start stop : Int) : Option SegmentBuilder :=
  let cue : Cue := ⟨b.nextSegmentId, start, stop, text⟩
  if !a.copy then none
  else if h : b.queue.count < b.capacity then
    some { b with nextSegmentId := b.nextSegmentId + 1, queue := b.queue.push cue h }
  else if !a.grow then none
  else
    have hgrow : b.capacity < 2 * b.capacity := by have := b.capacity_pos; omega
    some { b with nextSegmentId := b.nextSegmentId + 1, capacity := 2 * b.capacity,
                  queue := (b.queue.grow (2 * b.capacity) hgrow).push cue
                    (Nat.lt_of_le_of_lt b.queue.count_le hgrow) }

/-- `vw_segment_builder_commit_history`. -/
def commitHistory (b : SegmentBuilder) (text : Bytes) (start stop : Int) : SegmentBuilder :=
  { b with history := b.history.overwrite ⟨start, stop, text.take (utf8SafeLen text (builderMaxTextBytes - 1))⟩,
           coveredEndUs := if b.coveredEndUs < stop then stop else b.coveredEndUs }

/-! ## Deduplication -/

/-- The candidate starts within the tolerance of an entry's start, or their intervals overlap. -/
def timeMatches (start stop : Int) (e : HistoryEntry) : Bool :=
  let startDiff := if e.startPtsUs ≤ start then start - e.startPtsUs else e.startPtsUs - start
  startDiff ≤ dedupToleranceUs || (e.startPtsUs < stop && start < e.endPtsUs)

/-- The candidate overlaps an entry, or starts within the tolerance of its end. -/
def nearCue (start stop : Int) (e : HistoryEntry) : Bool :=
  (e.startPtsUs < stop && start < e.endPtsUs) ||
    (e.endPtsUs - dedupToleranceUs ≤ start && start ≤ e.endPtsUs + dedupToleranceUs)

/-- What a trim against an entry leaves of the candidate. -/
def remainder (text : Bytes) (e : HistoryEntry) : Bytes :=
  (text.drop (tailPrefixLen e.text text)).dropWhile isWhitespace

/-- `vw_segment_builder_apply_tail_trim`: `none` if it does not apply, else the builder and whether a cue was
queued. -/
def applyTailTrim (a : Alloc) (b : SegmentBuilder) (text : Bytes) (start stop : Int) (e : HistoryEntry) :
    Option (SegmentBuilder × Bool) :=
  if !nearCue start stop e then none
  else if tailPrefixLen e.text text = 0 then none
  else if tailPrefixLen e.text text = text.length || stop ≤ e.endPtsUs then some (b, false)
  else if remainder text e = [] then some (b, false)
  else if !a.trimmed then none
  else match enqueue a b (remainder text e) e.endPtsUs stop with
    | none => none
    | some b => some (commitHistory b (remainder text e) e.endPtsUs stop, true)

/-- The checks made against one earlier cue, the textual ones only if the times match: `none` if they leave
the candidate undecided. -/
def dedupAgainst (a : Alloc) (b : SegmentBuilder) (text : Bytes) (start stop : Int) (e : HistoryEntry) :
    Option (SegmentBuilder × Bool) :=
  if timeMatches start stop e && (e.text = text || contains e.text text) then some (b, false)
  else match applyTailTrim a b text start stop e with
    | some r => some r
    | none => if timeMatches start stop e && contains text e.text then some (b, false) else none

/-- The committed history from its `i`-th newest entry on; only entries whose times match are looked at. -/
def dedupHistory (mem : Site → Alloc) (b : SegmentBuilder) (text : Bytes) (start stop : Int) :
    Nat → List HistoryEntry → Option (SegmentBuilder × Bool)
  | _, [] => none
  | i, e :: older =>
    if !timeMatches start stop e then dedupHistory mem b text start stop (i + 1) older
    else match dedupAgainst (mem (.history i)) b text start stop e with
      | some r => some r
      | none => dedupHistory mem b text start stop (i + 1) older

/-- The pending cue, then the history. -/
def dedup (mem : Site → Alloc) (b : SegmentBuilder) (text : Bytes) (start stop : Int) :
    Option (SegmentBuilder × Bool) :=
  match b.lastSegment.bind fun last => dedupAgainst (mem .pending) b text start stop last.entry with
  | some r => some r
  | none => dedupHistory mem b text start stop 0 b.history.newestFirst

/-- The candidate starts inside covered audio and does not reach past the frontier's tolerance. -/
def isCovered (b : SegmentBuilder) (start stop : Int) : Bool :=
  0 ≤ b.coveredEndUs && start < b.coveredEndUs && stop ≤ b.coveredEndUs + dedupToleranceUs

/-- The candidate is a phrase worth deduplicating. -/
def isCandidate (b : SegmentBuilder) (text : Bytes) (start stop : Int) : Bool :=
  0 ≤ start && start < stop && trimText text != [] && (trimText text).length < builderMaxTextBytes &&
    !isPhantomText (trimText text) && !isCovered b start stop

/-- Where a candidate that repeats nothing starts: not before the frontier. -/
def emitStart (b : SegmentBuilder) (start : Int) : Int := if start < b.coveredEndUs then b.coveredEndUs else start

/-- `vw_segment_builder_push_hypothesis`. -/
def pushHypothesis (mem : Site → Alloc) (b : SegmentBuilder) (text : Bytes) (start stop : Int) :
    SegmentBuilder × Bool :=
  if !isCandidate b text start stop then (b, false)
  else match dedup mem b (trimText text) start stop with
    | some r => r
    | none =>
      if stop ≤ emitStart b start then (b, false)
      else match enqueue (mem .whole) b (trimText text) (emitStart b start) stop with
        | none => (b, false)
        | some b' => (commitHistory b' (trimText text) (emitStart b start) stop, true)

/-! ## What a push can do -/

/-- There is memory for a cue. -/
def hasRoom (a : Alloc) (b : SegmentBuilder) : Bool := a.copy && (b.queue.count < b.capacity || a.grow)

/-- `b'` is `b` with one more cue, remembered in the history. -/
structure Emitted (b : SegmentBuilder) (text : Bytes) (start stop : Int) (b' : SegmentBuilder) : Prop where
  queue : b'.queue.toList = b.queue.toList ++ [⟨b.nextSegmentId, start, stop, text⟩]
  nextSegmentId : b'.nextSegmentId = b.nextSegmentId + 1
  history : b'.history.toList =
    (if b.history.count < historyCapacity then b.history.toList else b.history.toList.tail) ++
      [⟨start, stop, text.take (utf8SafeLen text (builderMaxTextBytes - 1))⟩]
  coveredEndUs : b'.coveredEndUs = if b.coveredEndUs < stop then stop else b.coveredEndUs

theorem enqueue_isSome (a : Alloc) (b : SegmentBuilder) (text : Bytes) (start stop : Int) :
    (enqueue a b text start stop).isSome = hasRoom a b := by
  simp only [enqueue, hasRoom]
  cases a.copy
  · simp
  · by_cases hroom : b.queue.count < b.capacity
    · simp [hroom]
    · cases a.grow <;> simp [hroom]

theorem emitted_of_enqueue {a : Alloc} {b b' : SegmentBuilder} {text : Bytes} {start stop : Int}
    (h : enqueue a b text start stop = some b') : Emitted b text start stop (commitHistory b' text start stop) := by
  simp only [enqueue] at h
  split at h
  · cases h
  split at h
  · obtain rfl := Option.some.inj h
    exact ⟨Ring.toList_push _ _ _, rfl, Ring.toList_overwrite _ _, rfl⟩
  split at h
  · cases h
  · obtain rfl := Option.some.inj h
    refine ⟨?_, rfl, Ring.toList_overwrite _ _, rfl⟩
    simp only [commitHistory, Ring.toList_push, Ring.toList_grow]

/-- The candidate repeats the tail of an entry near it, and goes on after it. -/
structure Trims (text : Bytes) (start stop : Int) (e : HistoryEntry) : Prop where
  near : nearCue start stop e = true
  overlap : tailPrefixLen e.text text ≠ 0
  shorter : tailPrefixLen e.text text ≠ text.length
  ends : e.endPtsUs < stop
  rest : remainder text e ≠ []

/-- There is memory for a trimmed cue. -/
def hasTrimRoom (a : Alloc) (b : SegmentBuilder) : Bool := a.trimmed && hasRoom a b

/-- The trim applies, and takes the candidate or drops it. -/
def trimDecides (a : Alloc) (b : SegmentBuilder) (text : Bytes) (start stop : Int) (e : HistoryEntry) : Bool :=
  nearCue start stop e && tailPrefixLen e.text text != 0 &&
    (tailPrefixLen e.text text == text.length || stop ≤ e.endPtsUs || remainder text e == [] || hasTrimRoom a b)

theorem applyTailTrim_eq_none {a : Alloc} {b : SegmentBuilder} {text : Bytes} {start stop : Int}
    {e : HistoryEntry} :
    applyTailTrim a b text start stop e = none ↔ trimDecides a b text start stop e = false := by
  have hroom := enqueue_isSome a b (remainder text e) e.endPtsUs stop
  simp only [applyTailTrim, trimDecides, hasTrimRoom, ← hroom]
  split
  · rename_i h
    simp at h
    simp [h]
  rename_i hnear
  split
  · rename_i h
    simp [h]
  rename_i hoverlap
  split
  · rename_i h
    simp at h hnear
    rcases h with h | h
    · have hne : text ≠ [] := by
        rintro rfl
        exact hoverlap (by simpa using h)
      simp [h, hnear, hne]
    · simp [h, hnear, hoverlap]
  rename_i hends
  split
  · rename_i h
    simp at hnear
    simp [h, hnear, hoverlap]
  rename_i hrest
  simp only [Bool.or_eq_true, decide_eq_true_eq, not_or] at hends
  simp only [Bool.not_eq_true, Bool.not_eq_false'] at hnear
  split
  · rename_i h
    simp at h
    simp [h, hnear, hoverlap, hends, hrest]
  rename_i halloc
  simp at halloc
  split
  · rename_i henq
    simp [henq, hnear, hoverlap, hends, hrest]
  · rename_i henq
    simp [henq, hnear, hoverlap, halloc]

/-- A trim that decides without a cue drops the candidate. -/
theorem applyTailTrim_eq_false {a : Alloc} {b b' : SegmentBuilder} {text : Bytes} {start stop : Int}
    {e : HistoryEntry} (h : applyTailTrim a b text start stop e = some (b', false)) : b' = b := by
  simp only [applyTailTrim] at h
  split at h
  · cases h
  split at h
  · cases h
  split at h
  · simpa using h.symm
  split at h
  · simpa using h.symm
  split at h
  · cases h
  split at h
  · cases h
  · simp at h

/-- A trim queues a cue exactly if it applies, leaves something and there is memory. -/
theorem applyTailTrim_eq_true {a : Alloc} {b : SegmentBuilder} {text : Bytes} {start stop : Int}
    {e : HistoryEntry} :
    (∃ b', applyTailTrim a b text start stop e = some (b', true)) ↔
      Trims text start stop e ∧ hasTrimRoom a b = true := by
  have hroom := enqueue_isSome a b (remainder text e) e.endPtsUs stop
  simp only [applyTailTrim, hasTrimRoom, ← hroom]
  constructor
  · rintro ⟨b', h⟩
    split at h
    · cases h
    rename_i hnear
    split at h
    · cases h
    rename_i hoverlap
    split at h
    · cases h
    rename_i hends
    split at h
    · cases h
    rename_i hrest
    split at h
    · cases h
    rename_i halloc
    split at h
    · cases h
    rename_i henq
    simp only [Bool.or_eq_true, decide_eq_true_eq, not_or, not_le] at hends
    refine ⟨⟨by simpa using hnear, hoverlap, hends.1, hends.2, hrest⟩, ?_⟩
    simpa [henq] using halloc
  · rintro ⟨⟨hnear, hoverlap, hshort, hends, hrest⟩, hmem⟩
    simp only [Bool.and_eq_true] at hmem
    obtain ⟨b', henq⟩ := Option.isSome_iff_exists.mp hmem.2
    refine ⟨commitHistory b' (remainder text e) e.endPtsUs stop, ?_⟩
    simp [hnear, hoverlap, hshort, hends, hrest, hmem.1, henq]

theorem emitted_of_applyTailTrim {a : Alloc} {b b' : SegmentBuilder} {text : Bytes} {start stop : Int}
    {e : HistoryEntry} (h : applyTailTrim a b text start stop e = some (b', true)) :
    Emitted b (remainder text e) e.endPtsUs stop b' := by
  simp only [applyTailTrim] at h
  split at h
  · cases h
  split at h
  · cases h
  split at h
  · simp at h
  split at h
  · simp at h
  split at h
  · cases h
  split at h
  · cases h
  rename_i b'' henq
  obtain rfl : commitHistory b'' (remainder text e) e.endPtsUs stop = b' := by simpa using h
  exact emitted_of_enqueue henq

/-- The check against an earlier cue leaves the candidate undecided. -/
def passes (a : Alloc) (b : SegmentBuilder) (text : Bytes) (start stop : Int) (e : HistoryEntry) : Bool :=
  !(timeMatches start stop e && (e.text = text || contains e.text text || contains text e.text)) &&
    !trimDecides a b text start stop e

/-- The check queues a cue: the times do not match or the texts differ, and the trim applies. -/
def TrimsAgainst (a : Alloc) (b : SegmentBuilder) (text : Bytes) (start stop : Int) (e : HistoryEntry) : Prop :=
  ¬ (timeMatches start stop e = true ∧ (e.text = text ∨ contains e.text text = true)) ∧
    Trims text start stop e ∧ hasTrimRoom a b = true

theorem dedupAgainst_eq_none {a : Alloc} {b : SegmentBuilder} {text : Bytes} {start stop : Int}
    {e : HistoryEntry} :
    dedupAgainst a b text start stop e = none ↔ passes a b text start stop e = true := by
  simp only [dedupAgainst, passes]
  split
  · rename_i h
    simp only [Bool.and_eq_true, Bool.or_eq_true, decide_eq_true_eq] at h
    rcases h with ⟨htime, htext | htext⟩ <;> simp [htime, htext]
  rename_i hfirst
  cases htrim : applyTailTrim a b text start stop e with
  | some r =>
    have hdec : trimDecides a b text start stop e = true := by
      by_contra hne
      rw [Bool.not_eq_true] at hne
      rw [applyTailTrim_eq_none.mpr hne] at htrim
      cases htrim
    simp [hdec]
  | none =>
    rw [applyTailTrim_eq_none] at htrim
    simp only [Bool.and_eq_true, Bool.or_eq_true, decide_eq_true_eq, not_and, not_or] at hfirst
    by_cases htime : timeMatches start stop e = true
    · simp [htime, htrim, hfirst htime]
    · simp [htime, htrim]

theorem dedupAgainst_eq_false {a : Alloc} {b b' : SegmentBuilder} {text : Bytes} {start stop : Int}
    {e : HistoryEntry} (h : dedupAgainst a b text start stop e = some (b', false)) : b' = b := by
  simp only [dedupAgainst] at h
  split at h
  · simpa using h.symm
  split at h
  · rename_i r htrim
    obtain rfl := Option.some.inj h
    exact applyTailTrim_eq_false htrim
  split at h
  · simpa using h.symm
  · cases h

theorem dedupAgainst_eq_true {a : Alloc} {b : SegmentBuilder} {text : Bytes} {start stop : Int}
    {e : HistoryEntry} :
    (∃ b', dedupAgainst a b text start stop e = some (b', true)) ↔ TrimsAgainst a b text start stop e := by
  rw [TrimsAgainst, ← applyTailTrim_eq_true]
  simp only [dedupAgainst]
  split
  · rename_i h
    simp only [Bool.and_eq_true, Bool.or_eq_true, decide_eq_true_eq] at h
    simp [h]
  rename_i hfirst
  simp only [Bool.and_eq_true, Bool.or_eq_true, decide_eq_true_eq] at hfirst
  split
  · rename_i r htrim
    simp [htrim, hfirst]
  · rename_i htrim
    simp only [htrim]
    split <;> simp

theorem emitted_of_dedupAgainst {a : Alloc} {b b' : SegmentBuilder} {text : Bytes} {start stop : Int}
    {e : HistoryEntry} (h : dedupAgainst a b text start stop e = some (b', true)) :
    Emitted b (remainder text e) e.endPtsUs stop b' := by
  simp only [dedupAgainst] at h
  split at h
  · simp at h
  split at h
  · rename_i r htrim
    obtain rfl := Option.some.inj h
    exact emitted_of_applyTailTrim htrim
  split at h
  · simp at h
  · cases h

/-- An entry of the history that the candidate gets past. -/
def Skips (mem : Site → Alloc) (b : SegmentBuilder) (text : Bytes) (start stop : Int) (i : Nat)
    (e : HistoryEntry) : Prop :=
  timeMatches start stop e = true → passes (mem (.history i)) b text start stop e = true

theorem dedupHistory_cons {mem : Site → Alloc} {b : SegmentBuilder} {text : Bytes} {start stop : Int} {i : Nat}
    {e : HistoryEntry} {older : List HistoryEntry} (h : Skips mem b text start stop i e) :
    dedupHistory mem b text start stop i (e :: older) = dedupHistory mem b text start stop (i + 1) older := by
  rw [dedupHistory]
  split
  · rfl
  · rename_i htime
    rw [dedupAgainst_eq_none.mpr (h (by simpa using htime))]

theorem dedupHistory_append {mem : Site → Alloc} {b : SegmentBuilder} {text : Bytes} {start stop : Int} {i : Nat}
    {newer older : List HistoryEntry} (h : ∀ k e, newer[k]? = some e → Skips mem b text start stop (i + k) e) :
    dedupHistory mem b text start stop i (newer ++ older) =
      dedupHistory mem b text start stop (i + newer.length) older := by
  induction newer generalizing i with
  | nil => rfl
  | cons e newer ih =>
    rw [List.cons_append, dedupHistory_cons (by simpa using h 0 e rfl), ih]
    · rw [List.length_cons, Nat.add_assoc, Nat.add_comm 1]
    · intro k e' hk
      have := h (k + 1) e' (by simpa using hk)
      rwa [Nat.add_assoc, Nat.add_comm 1]

theorem dedupHistory_eq_some {mem : Site → Alloc} {b : SegmentBuilder} {text : Bytes} {start stop : Int} {i : Nat}
    {l : List HistoryEntry} {r : SegmentBuilder × Bool} (h : dedupHistory mem b text start stop i l = some r) :
    ∃ newer e older, l = newer ++ e :: older ∧
      (∀ k e, newer[k]? = some e → Skips mem b text start stop (i + k) e) ∧
      timeMatches start stop e = true ∧
      dedupAgainst (mem (.history (i + newer.length))) b text start stop e = some r := by
  induction l generalizing i with
  | nil => cases h
  | cons e l ih =>
    by_cases hskip : Skips mem b text start stop i e
    · rw [dedupHistory_cons hskip] at h
      obtain ⟨newer, e', older, rfl, hnewer, htime, hr⟩ := ih h
      refine ⟨e :: newer, e', older, rfl, ?_, htime, ?_⟩
      · intro k x hk
        cases k with
        | zero =>
          obtain rfl : e = x := by simpa using hk
          exact hskip
        | succ k =>
          have := hnewer k x (by simpa using hk)
          rwa [Nat.add_assoc, Nat.add_comm 1] at this
      · rwa [List.length_cons, Nat.add_comm newer.length 1, ← Nat.add_assoc]
    · simp only [Skips, not_forall] at hskip
      obtain ⟨htime, hpass⟩ := hskip
      rw [dedupHistory, if_neg (by simpa using htime)] at h
      split at h
      · rename_i r' hr
        obtain rfl := Option.some.inj h
        exact ⟨[], e, l, rfl, by simp, htime, hr⟩
      · rename_i hnone
        exact absurd (dedupAgainst_eq_none.mp hnone) hpass

theorem dedupHistory_eq_none {mem : Site → Alloc} {b : SegmentBuilder} {text : Bytes} {start stop : Int} {i : Nat}
    {l : List HistoryEntry} (h : dedupHistory mem b text start stop i l = none) :
    ∀ k e, l[k]? = some e → Skips mem b text start stop (i + k) e := by
  induction l generalizing i with
  | nil => simp
  | cons e l ih =>
    by_cases hskip : Skips mem b text start stop i e
    · rw [dedupHistory_cons hskip] at h
      intro k x hk
      cases k with
      | zero =>
        obtain rfl : e = x := by simpa using hk
        exact hskip
      | succ k =>
        have := ih h k x (by simpa using hk)
        rwa [Nat.add_assoc, Nat.add_comm 1] at this
    · simp only [Skips, not_forall] at hskip
      obtain ⟨htime, hpass⟩ := hskip
      rw [dedupHistory, if_neg (by simpa using htime)] at h
      split at h
      · cases h
      · rename_i hnone
        exact absurd (dedupAgainst_eq_none.mp hnone) hpass

/-- The pending cue, if there is one, leaves the candidate undecided. -/
def PassesPending (mem : Site → Alloc) (b : SegmentBuilder) (text : Bytes) (start stop : Int) : Prop :=
  ∀ last, b.lastSegment = some last → passes (mem .pending) b text start stop last.entry = true

/-- The candidate goes on after the history entry `e` that stands behind the `newer` ones. -/
structure TrimsHistory (mem : Site → Alloc) (b : SegmentBuilder) (text : Bytes) (start stop : Int)
    (newer : List HistoryEntry) (e : HistoryEntry) (older : List HistoryEntry) : Prop where
  split : b.history.newestFirst = newer ++ e :: older
  pending : PassesPending mem b text start stop
  skips : ∀ k x, newer[k]? = some x → Skips mem b text start stop k x
  time : timeMatches start stop e = true
  trims : TrimsAgainst (mem (.history newer.length)) b text start stop e

/-- The candidate gets past the whole history. -/
def PassesHistory (mem : Site → Alloc) (b : SegmentBuilder) (text : Bytes) (start stop : Int) : Prop :=
  ∀ k x, b.history.newestFirst[k]? = some x → Skips mem b text start stop k x

/-- Why a push emits a cue, with which text and start. -/
inductive Accepts (mem : Site → Alloc) (b : SegmentBuilder) (text : Bytes) (start stop : Int) :
    Bytes → Int → Prop
  /-- Nothing repeats, so the whole candidate is shown from the frontier on. -/
  | whole : PassesPending mem b text start stop → PassesHistory mem b text start stop →
      Accepts mem b text start stop text (emitStart b start)
  /-- The candidate goes on after the pending cue. -/
  | pending (last : Cue) : b.lastSegment = some last →
      TrimsAgainst (mem .pending) b text start stop last.entry →
      Accepts mem b text start stop (remainder text last.entry) last.endPtsUs
  /-- The candidate goes on after a committed cue. -/
  | history (newer : List HistoryEntry) (e : HistoryEntry) (older : List HistoryEntry) :
      TrimsHistory mem b text start stop newer e older →
      Accepts mem b text start stop (remainder text e) e.endPtsUs

theorem dedup_of_passesPending {mem : Site → Alloc} {b : SegmentBuilder} {text : Bytes} {start stop : Int}
    (h : PassesPending mem b text start stop) :
    dedup mem b text start stop = dedupHistory mem b text start stop 0 b.history.newestFirst := by
  have hnone : (b.lastSegment.bind fun last => dedupAgainst (mem .pending) b text start stop last.entry) = none := by
    rw [Option.bind_eq_none_iff]
    intro last hlast
    exact dedupAgainst_eq_none.mpr (h last hlast)
  rw [dedup, hnone]

/-- A decision of the deduplication: nothing changes, or a cue is trimmed. -/
theorem dedup_cases {mem : Site → Alloc} {b b' : SegmentBuilder} {text : Bytes} {start stop : Int} {r : Bool}
    (h : dedup mem b text start stop = some (b', r)) :
    (r = false ∧ b' = b) ∨
      (r = true ∧ ∃ out s, s < stop ∧ Accepts mem b text start stop out s ∧ Emitted b out s stop b') := by
  cases hpend : b.lastSegment.bind fun last => dedupAgainst (mem .pending) b text start stop last.entry with
  | some r' =>
    rw [dedup, hpend] at h
    obtain rfl := Option.some.inj h
    obtain ⟨last, hlast, hdec⟩ := Option.bind_eq_some_iff.mp hpend
    cases r with
    | false => exact .inl ⟨rfl, dedupAgainst_eq_false hdec⟩
    | true =>
      have htrims := dedupAgainst_eq_true.mp ⟨b', hdec⟩
      exact .inr ⟨rfl, _, _, htrims.2.1.ends, .pending last hlast htrims, emitted_of_dedupAgainst hdec⟩
  | none =>
    have hpass : PassesPending mem b text start stop := by
      intro last hlast
      rw [Option.bind_eq_none_iff] at hpend
      exact dedupAgainst_eq_none.mp (hpend last hlast)
    rw [dedup_of_passesPending hpass] at h
    obtain ⟨newer, e, older, hsplit, hskips, htime, hdec⟩ := dedupHistory_eq_some h
    simp only [Nat.zero_add] at hskips hdec
    cases r with
    | false => exact .inl ⟨rfl, dedupAgainst_eq_false hdec⟩
    | true =>
      have htrims := dedupAgainst_eq_true.mp ⟨b', hdec⟩
      exact .inr ⟨rfl, _, _, htrims.2.1.ends, .history newer e older ⟨hsplit, hpass, hskips, htime, htrims⟩,
        emitted_of_dedupAgainst hdec⟩

theorem dedup_eq_none {mem : Site → Alloc} {b : SegmentBuilder} {text : Bytes} {start stop : Int}
    (h : dedup mem b text start stop = none) :
    PassesPending mem b text start stop ∧ PassesHistory mem b text start stop := by
  have hpass : PassesPending mem b text start stop := by
    intro last hlast
    rw [dedup] at h
    split at h
    · cases h
    · rename_i hnone
      rw [Option.bind_eq_none_iff] at hnone
      exact dedupAgainst_eq_none.mp (hnone last hlast)
  rw [dedup_of_passesPending hpass] at h
  exact ⟨hpass, by simpa [PassesHistory] using dedupHistory_eq_none h⟩

theorem pushHypothesis_cases {mem : Site → Alloc} {b b' : SegmentBuilder} {text : Bytes} {start stop : Int}
    {r : Bool} (h : pushHypothesis mem b text start stop = (b', r)) :
    (r = false ∧ b' = b) ∨ (r = true ∧ isCandidate b text start stop = true ∧ ∃ out s,
      s < stop ∧ Accepts mem b (trimText text) start stop out s ∧ Emitted b out s stop b') := by
  rw [pushHypothesis] at h
  split at h
  · simp only [Prod.mk.injEq] at h
    exact .inl ⟨h.2.symm, h.1.symm⟩
  rename_i hcand
  rw [Bool.not_eq_true', Bool.not_eq_false] at hcand
  split at h
  · rename_i hdec
    obtain rfl := h
    rcases dedup_cases hdec with h | ⟨hr, hemit⟩
    · exact .inl h
    · exact .inr ⟨hr, hcand, hemit⟩
  split at h
  · simp only [Prod.mk.injEq] at h
    exact .inl ⟨h.2.symm, h.1.symm⟩
  rename_i hroom
  split at h
  · simp only [Prod.mk.injEq] at h
    exact .inl ⟨h.2.symm, h.1.symm⟩
  · rename_i henq
    simp only [Prod.mk.injEq] at h
    obtain ⟨rfl, rfl⟩ := h
    rename_i hnone _ _
    have hpass := dedup_eq_none hnone
    exact .inr ⟨rfl, hcand, _, _, not_le.mp hroom, .whole hpass.1 hpass.2, emitted_of_enqueue henq⟩

theorem dedup_of_pending {mem : Site → Alloc} {b : SegmentBuilder} {text : Bytes} {start stop : Int} {last : Cue}
    (hlast : b.lastSegment = some last) (h : TrimsAgainst (mem .pending) b text start stop last.entry) :
    ∃ b', dedup mem b text start stop = some (b', true) ∧ Emitted b (remainder text last.entry) last.endPtsUs stop b' := by
  obtain ⟨b', hdec⟩ := dedupAgainst_eq_true.mpr h
  exact ⟨b', by simp [dedup, hlast, hdec], emitted_of_dedupAgainst hdec⟩

/-- A trim against the history decides, once the newer cues are passed. -/
theorem dedup_of_trimsHistory {mem : Site → Alloc} {b : SegmentBuilder} {text : Bytes} {start stop : Int}
    {newer older : List HistoryEntry} {e : HistoryEntry} (h : TrimsHistory mem b text start stop newer e older) :
    ∃ b', dedup mem b text start stop = some (b', true) ∧ Emitted b (remainder text e) e.endPtsUs stop b' := by
  obtain ⟨b', hdec⟩ := dedupAgainst_eq_true.mpr h.trims
  refine ⟨b', ?_, emitted_of_dedupAgainst hdec⟩
  rw [dedup_of_passesPending h.pending, h.split, dedupHistory_append (by simpa using h.skips), dedupHistory,
    if_neg (by simpa using h.time)]
  simp [hdec]

theorem pushHypothesis_of_trimsHistory {mem : Site → Alloc} {b : SegmentBuilder} {text : Bytes}
    {start stop : Int} {newer older : List HistoryEntry} {e : HistoryEntry}
    (hcand : isCandidate b text start stop = true)
    (h : TrimsHistory mem b (trimText text) start stop newer e older) :
    ∃ b', pushHypothesis mem b text start stop = (b', true) ∧
      Emitted b (remainder (trimText text) e) e.endPtsUs stop b' := by
  obtain ⟨b', hdedup, hemit⟩ := dedup_of_trimsHistory h
  exact ⟨b', by simp [pushHypothesis, hcand, hdedup], hemit⟩

/-- The reason for an accepted cue is the only one that applies. -/
theorem emitted_of_accepts {mem : Site → Alloc} {b b' : SegmentBuilder} {text out : Bytes} {start stop s : Int}
    (h : pushHypothesis mem b text start stop = (b', true))
    (hacc : Accepts mem b (trimText text) start stop out s) : Emitted b out s stop b' := by
  rw [pushHypothesis] at h
  split at h
  · simp at h
  cases hacc with
  | pending last hlast htrims =>
    obtain ⟨b'', hdedup, hemit⟩ := dedup_of_pending hlast htrims
    rw [hdedup] at h
    obtain rfl : b'' = b' := congrArg Prod.fst h
    exact hemit
  | history newer e older htrims =>
    obtain ⟨b'', hdedup, hemit⟩ := dedup_of_trimsHistory htrims
    rw [hdedup] at h
    obtain rfl : b'' = b' := congrArg Prod.fst h
    exact hemit
  | whole hpending hhistory =>
    have hnone : dedup mem b (trimText text) start stop = none := by
      rw [dedup_of_passesPending hpending, ← List.append_nil b.history.newestFirst,
        dedupHistory_append (by simpa [PassesHistory] using hhistory), dedupHistory]
    rw [hnone] at h
    dsimp only at h
    split at h
    · simp at h
    split at h
    · simp at h
    · rename_i b'' henq
      obtain rfl : commitHistory b'' (trimText text) (emitStart b start) stop = b' := congrArg Prod.fst h
      exact emitted_of_enqueue henq

end SegmentBuilder

end VlcWhisper.Worker
