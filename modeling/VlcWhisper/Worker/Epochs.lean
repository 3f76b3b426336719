import VlcWhisper.Worker.Attribution
import VlcWhisper.Worker.WriteFinality

/-!
# The epochs of a running worker

Every reset of the main loop begins a new epoch of the translator, and the trace records it. Main result: `tracked_run`.
In every run with fewer than 2^64 - 1 resets the epoch is their number, and the translator's jobs, results and threads
hold cues of the current epoch as `TranslateAsync.Holds` says; what a thread still has of an older epoch is older by
its number, too.
-/

namespace VlcWhisper.Worker

open VlcWhisper.Lib VlcWhisper.Protocol SegmentBuilder

/-- The event begins a new epoch. -/
def Event.isReset : Event → Bool
  | .invalidated _ => true
  | _ => false

/-- How often the translator was invalidated. -/
def resets (trace : List Event) : Nat := trace.countP Event.isReset

theorem resets_append_of_none {trace later : List Event} (h : ∀ e ∈ later, e.isReset = false) :
    resets (trace ++ later) = resets trace := by
  have hnone : later.countP Event.isReset = 0 := by
    rw [List.countP_eq_zero]
    exact fun e he => by rw [h e he]; exact Bool.false_ne_true
  rw [resets, List.countP_append, hnone]
  rfl

theorem isReset_of_isQuiet {e : Event} (h : e.isQuiet = true) : e.isReset = false := by
  cases e <;> first | rfl | cases h

theorem isReset_of_sends {e : Event} {o : Origin} (h : e.Sends o) : e.isReset = false := by
  cases e <;> first | rfl | cases h

/-- Quiet events and what is sent after them begin no epoch. -/
theorem resets_send {trace before : List Event} {last : Event} {o : Origin} (hbefore : ∀ e ∈ before, e.isQuiet = true)
    (hlast : last.Sends o) : resets (trace ++ (before ++ [last])) = resets trace := by
  refine resets_append_of_none fun e he => ?_
  rcases List.mem_append.mp he with he | he
  · exact isReset_of_isQuiet (hbefore e he)
  · obtain rfl := List.mem_singleton.mp he
    exact isReset_of_sends hlast

/-- The translator is in the epoch of the given number, and it holds cues of that one. -/
def TranslateAsync.InEpoch (t : TranslateAsync) (epoch : Nat) : Prop := t.epoch = epoch ∧ ∃ k pending, t.Holds k pending

namespace TranslateAsync

variable {t : TranslateAsync} {epoch : Nat}

theorem InEpoch.threadStep (h : t.InEpoch epoch) (s : ThreadStep) : (t.threadStep s).InEpoch epoch := by
  obtain ⟨hepoch, k, pending, hholds⟩ := h
  cases s with
  | take =>
    refine ⟨?_, k, pending, take_holds hholds⟩
    rw [← hepoch, TranslateAsync.threadStep, take]
    split
    · split <;> rfl
    · rfl
  | complete i o => exact ⟨(complete_epoch t i o).trans hepoch, k, pending, complete_holds hholds i o⟩

theorem InEpoch.submit (h : t.InEpoch epoch) {segment : Caption} {sourceLang targetLang : Bytes}
    (haccepted : (t.submit segment sourceLang targetLang).2 = true) :
    (t.submit segment sourceLang targetLang).1.InEpoch epoch := by
  obtain ⟨hepoch, k, pending, hholds⟩ := h
  rcases submit_holds hholds segment sourceLang targetLang with heq | ⟨-, hepoch', hholds'⟩
  · rw [heq] at haccepted
    cases haccepted
  · exact ⟨hepoch'.trans hepoch, k, _, hholds'⟩

theorem InEpoch.tryDeliver (h : t.InEpoch epoch) : t.tryDeliver.1.InEpoch epoch := by
  obtain ⟨hepoch, k, pending, hholds⟩ := h
  obtain ⟨hepoch', hdelivers⟩ := tryDeliver_holds hholds
  refine ⟨hepoch'.trans hepoch, ?_⟩
  split at hdelivers
  · exact ⟨k, pending, hdelivers⟩
  · obtain ⟨-, pending', -, hholds'⟩ := hdelivers
    exact ⟨k + 1, pending', hholds'⟩

theorem InEpoch.invalidate (h : t.InEpoch epoch) (hlt : epoch < uint64Max) : t.invalidate.InEpoch (epoch + 1) := by
  obtain ⟨hepoch, k, pending, hholds⟩ := h
  obtain ⟨hnext, hholds'⟩ := invalidate_holds hholds (hepoch ▸ hlt)
  exact ⟨hnext.trans (congrArg (· + 1) hepoch), 0, [], hholds'⟩

theorem InEpoch.entries_invalidate (h : t.InEpoch epoch) (hlt : epoch < uint64Max) : t.invalidate.entries = [] := by
  obtain ⟨hepoch, k, pending, hholds⟩ := h
  exact (invalidate_holds hholds (hepoch ▸ hlt)).2.entries.eq_nil

end TranslateAsync

/-- Until the epoch numbers run out, the translator is in the epoch that the resets of the history began. -/
def Core.Tracked (c : Core) : Prop :=
  resets c.trace < uint64Max → ∀ t ∈ c.translator, t.InEpoch (resets c.trace + 1)

namespace Core

variable {c : Core}

theorem Tracked.record (h : c.Tracked) {events : List Event} (hevents : resets (c.trace ++ events) = resets c.trace) :
    (c.record events).Tracked := by
  intro hlt t ht
  rw [Core.record, hevents] at hlt ⊢
  exact h hlt t ht

theorem Tracked.set (h : c.Tracked) {translator : Option TranslateAsync}
    (hnext : ∀ t' ∈ translator, ∃ t ∈ c.translator, ∀ epoch, t.InEpoch epoch → t'.InEpoch epoch) :
    ({ c with translator } : Core).Tracked := by
  intro hlt t' ht'
  obtain ⟨t, ht, hkept⟩ := hnext t' ht'
  exact hkept _ (h hlt t ht)

/-- A reset begins the next epoch. -/
theorem Tracked.reset (h : c.Tracked) {events : List Event} (hevents : resets (c.trace ++ events) = resets c.trace + 1) :
    ({ c with translator := c.translator.map TranslateAsync.invalidate }.record events : Core).Tracked := by
  intro hlt t' ht'
  obtain ⟨t, ht, rfl⟩ := Option.map_eq_some_iff.mp ht'
  rw [Core.record, hevents] at hlt ⊢
  exact (h (by omega) t ht).invalidate hlt

theorem tracked_step (c d : Core) (h : c.Tracked) (hstep : Step c d) : d.Tracked := by
  have hsame (e : Event) (he : e.isReset = false) (trace : List Event) : resets (trace ++ [e]) = resets trace :=
    resets_append_of_none fun e' he' => (List.mem_singleton.mp he') ▸ he
  have hreset (why : Reset) : resets (c.trace ++ [.invalidated why]) = resets c.trace + 1 := by
    rw [resets, List.countP_append]
    rfl
  cases hstep with
  | frame sequence p => exact h.record (hsame _ rfl _)
  | buffer | openSource | closeSource | clearBuilder => exact h
  | hear window cues b => exact Tracked.record (c := { c with builder := b }) h (hsame _ rfl _)
  | invalidate why => exact h.reset (hreset why)
  | configure enabled => exact Tracked.reset (c := { c with translateEnabled := enabled }) h (hreset _)
  | start id =>
    refine Tracked.reset (c := { c with sessionId := id, sessionActive := true, buffer := [], builder := c.builder.clear
                                        decoder := none }) h ?_
    rw [resets, List.countP_append]
    rfl
  | stop => exact Tracked.record (c := { c with sessionActive := false }) h (hsame _ rfl _)
  | thread s =>
    refine h.set fun t' ht' => ?_
    obtain ⟨t, ht, rfl⟩ := Option.map_eq_some_iff.mp ht'
    exact ⟨t, ht, fun _ hin => hin.threadStep s⟩
  | submit cue b t sourceLang targetLang hpop henabled ht haccepted =>
    refine Tracked.record (Tracked.record ?_ (hsame _ rfl _)) (hsame _ rfl _)
    refine Tracked.set (c := { c with builder := b }) h fun t' ht' => ⟨t, ht, fun _ hin => ?_⟩
    obtain rfl := Option.some.inj ht'
    exact hin.submit haccepted
  | emit cue b before last hpop hbefore hlast _ =>
    refine Tracked.record (Tracked.record (c := { c with builder := b }) h (hsame _ rfl _)) ?_
    exact resets_send hbefore hlast
  | deliver t r before last ht hr _ _ hbefore hlast =>
    refine Tracked.record ?_ (resets_send hbefore hlast)
    refine h.set fun t' ht' => ⟨t, ht, fun _ hin => ?_⟩
    obtain rfl := Option.some.inj ht'
    exact hin.tryDeliver
  | discard t ht _ =>
    refine h.set fun t' ht' => ⟨t, ht, fun _ hin => ?_⟩
    obtain rfl := Option.some.inj ht'
    exact hin.tryDeliver
  | drained _ => exact h.record (hsame _ rfl _)

theorem tracked_start (engine translator : Bool) : (WorkerState.start engine translator).core.Tracked := by
  intro _ t ht
  cases translator with
  | false => cases ht
  | true =>
    obtain rfl := Option.some.inj ht
    exact ⟨rfl, 0, [], TranslateAsync.holds_create⟩

end Core

theorem tracked_run (config : Config) (engine translator : Bool) (rounds : List (Env × Option Frame)) :
    (roundsRun config engine translator rounds).core.Tracked := by
  have hround (w : WorkerState) (r : Env × Option Frame) (hw : w.core.Tracked) : (w.step r.1 config r.2).core.Tracked :=
    steps_invariant Core.tracked_step (step_steps w r.2) hw
  exact run_invariant' hround rounds (Core.tracked_start engine translator)

end VlcWhisper.Worker
