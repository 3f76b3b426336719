import VlcWhisper.Worker.AudioBound
import VlcWhisper.Worker.PoppedOnce

/-!
# The order of the captions

A cue that is popped waits in the translator for its turn, or is written at once. A cue that the translator refuses is
written at once too, although others wait: the comment in `vw_translate_async_submit` says that a newer caption is never
exposed ahead of older work.

`Waits` says which cues the translator has; it is kept by every step while the numbers of the translator's epochs last.
Main result: `captions_ordered`, without a refusal the captions are written in the order of their ids.
-/

namespace VlcWhisper.Worker

open VlcWhisper.Lib VlcWhisper.Protocol SegmentBuilder Relation

/-- The cue of a caption that is written. -/
def Event.writes : Event → Option Cue
  | .caption _ c => some c.cue
  | _ => none

/-- The cues of the captions that were written. -/
def writtenCues (trace : List Event) : List Cue := trace.filterMap Event.writes

def Event.invalidates : Event → Bool
  | .invalidated _ => true
  | _ => false

/-- How often the translator was invalidated. -/
def invalidations (trace : List Event) : Nat := trace.countP Event.invalidates

/-- A cue is offered to a translator that is full. -/
def Event.isRefusal : Event → Bool
  | .offered load _ => resultCapacity ≤ load
  | _ => false

/-- No caption is written, and the translator is not invalidated. -/
def Event.isIdle (e : Event) : Bool := e.writes.isNone && !e.invalidates

theorem writtenCues_append (trace later : List Event) : writtenCues (trace ++ later) = writtenCues trace ++ writtenCues later :=
  List.filterMap_append ..

theorem invalidations_append (trace later : List Event) :
    invalidations (trace ++ later) = invalidations trace + invalidations later :=
  List.countP_append

theorem writtenCues_idle {events : List Event} (h : ∀ e ∈ events, e.isIdle = true) : writtenCues events = [] := by
  refine List.filterMap_eq_nil_iff.mpr fun e he => ?_
  have hidle := h e he
  unfold Event.isIdle at hidle
  rw [Bool.and_eq_true, Option.isNone_iff_eq_none] at hidle
  exact hidle.1

theorem invalidations_idle {events : List Event} (h : ∀ e ∈ events, e.isIdle = true) : invalidations events = 0 := by
  refine List.countP_eq_zero.mpr fun e he => ?_
  have hidle := h e he
  unfold Event.isIdle at hidle
  rw [Bool.and_eq_true, Bool.not_eq_true'] at hidle
  rw [hidle.2]
  exact Bool.false_ne_true

theorem isIdle_of_isQuiet {e : Event} (h : e.isQuiet = true) : e.isIdle = true := by
  cases e with
  | caption sequence c => cases h
  | invalidated why => cases h
  | _ => rfl

theorem writes_of_sends {e : Event} {o : Origin} (h : e.Sends o) :
    (e.writes = some o.2 ∨ e.writes = none) ∧ e.invalidates = false := by
  cases e with
  | caption sequence c =>
    obtain rfl : c.origin = o := h
    exact ⟨.inl rfl, rfl⟩
  | lost c => exact ⟨.inr rfl, rfl⟩
  | _ => exact h.elim

namespace TranslateAsync

theorem threadStep_holds {t : TranslateAsync} {k : Nat} {pending : List Origin} (h : t.Holds k pending) (s : ThreadStep) :
    (t.threadStep s).epoch = t.epoch ∧ (t.threadStep s).Holds k pending := by
  cases s with
  | take =>
    refine ⟨?_, take_holds h⟩
    show t.take.epoch = t.epoch
    unfold take
    split
    · split <;> rfl
    · rfl
  | complete i o => exact ⟨complete_epoch t i o, complete_holds h i o⟩

/-- A running translator refuses a cue with a text only if it is full. -/
theorem full_of_refused {t : TranslateAsync} {k : Nat} {pending : List Origin} (h : t.Holds k pending) {c : Caption}
    (htext : c.cue.text ≠ []) (hlength : c.cue.text.length ≤ maxTextBytes) {sourceLang targetLang : Bytes}
    (hrefused : (t.submit c sourceLang targetLang).2 = false) : resultCapacity ≤ t.load := by
  unfold submit at hrefused
  have hrunning := h.running
  split at hrefused
  · rename_i hbad
    rw [Bool.or_eq_true, decide_eq_true_eq, decide_eq_true_eq] at hbad
    rcases hbad with hbad | hbad
    · exact absurd hbad htext
    · omega
  split at hrefused
  · rename_i hstopping
    rw [hrunning] at hstopping
    cases hstopping
  split at hrefused
  · assumption
  · cases hrefused

end TranslateAsync

namespace Core

/-! ## What waits -/

/-- The translator, if there is one, has the cues `pending`, and was invalidated as often as the history says. -/
def Waits (c : Core) (pending : List Origin) : Prop :=
  match c.translator with
  | none => pending = []
  | some t => t.epoch = invalidations c.trace + 1 ∧ ∃ k, t.Holds k pending

variable {c d : Core} {pending : List Origin}

theorem Waits.none (h : c.Waits pending) (hnone : c.translator = none) : pending = [] := by
  unfold Waits at h
  rwa [hnone] at h

theorem Waits.some (h : c.Waits pending) {t : TranslateAsync} (ht : c.translator = some t) :
    t.epoch = invalidations c.trace + 1 ∧ ∃ k, t.Holds k pending := by
  unfold Waits at h
  rwa [ht] at h

theorem waits_some {t : TranslateAsync} {k : Nat} (ht : c.translator = some t)
    (hepoch : t.epoch = invalidations c.trace + 1) (hholds : t.Holds k pending) : c.Waits pending := by
  unfold Waits
  rw [ht]
  exact ⟨hepoch, k, hholds⟩

theorem Waits.of_same (h : c.Waits pending) (htranslator : d.translator = c.translator)
    (htrace : invalidations d.trace = invalidations c.trace) : d.Waits pending := by
  unfold Waits at h ⊢
  rwa [htranslator, htrace]

theorem invalidations_record {events : List Event} (hidle : ∀ e ∈ events, e.isIdle = true) :
    invalidations (c.record events).trace = invalidations c.trace := by
  show invalidations (c.trace ++ events) = _
  rw [invalidations_append, invalidations_idle hidle, Nat.add_zero]

theorem Waits.record (h : c.Waits pending) {events : List Event} (hidle : ∀ e ∈ events, e.isIdle = true) :
    (c.record events).Waits pending :=
  h.of_same rfl (invalidations_record hidle)

theorem Waits.invalidate (h : c.Waits pending) (htranslator : d.translator = c.translator.map TranslateAsync.invalidate)
    (htrace : invalidations d.trace = invalidations c.trace + 1) (hlast : invalidations d.trace < uint64Max) : d.Waits [] := by
  cases ht : c.translator with
  | none =>
    unfold Waits
    rw [htranslator, ht]
    rfl
  | some t =>
    obtain ⟨hepoch, k, hholds⟩ := h.some ht
    obtain ⟨hnext, hempty⟩ := TranslateAsync.invalidate_holds hholds (by omega)
    exact waits_some (by rw [htranslator, ht, Option.map_some]) (by omega) hempty

theorem Waits.thread (h : c.Waits pending) (s : ThreadStep) :
    ({ c with translator := c.translator.map (·.threadStep s) } : Core).Waits pending := by
  cases ht : c.translator with
  | none => exact h.none ht
  | some t =>
    obtain ⟨hepoch, k, hholds⟩ := h.some ht
    obtain ⟨hsame, hholds'⟩ := TranslateAsync.threadStep_holds hholds s
    exact waits_some rfl (hsame.trans hepoch) hholds'

theorem Waits.tryDeliver (h : c.Waits pending) {t : TranslateAsync} (ht : c.translator = Option.some t) :
    match t.tryDeliver.2 with
    | .none => ({ c with translator := t.tryDeliver.1 } : Core).Waits pending
    | .some r => ∃ pending', pending = r.segment.origin :: pending' ∧
        ({ c with translator := t.tryDeliver.1 } : Core).Waits pending' := by
  obtain ⟨hepoch, k, hholds⟩ := h.some ht
  obtain ⟨hsame, hdelivers⟩ := TranslateAsync.tryDeliver_holds hholds
  cases hr : t.tryDeliver.2 with
  | none =>
    rw [hr] at hdelivers
    exact waits_some rfl (hsame.trans hepoch) hdelivers
  | some r =>
    rw [hr] at hdelivers
    obtain ⟨-, pending', hpending, hholds'⟩ := hdelivers
    exact ⟨pending', hpending, waits_some rfl (hsame.trans hepoch) hholds'⟩

theorem Waits.submit (h : c.Waits pending) {t : TranslateAsync} (ht : c.translator = Option.some t) {x : Caption}
    {sourceLang targetLang : Bytes} (hsubmit : (t.submit x sourceLang targetLang).2 = true) :
    ({ c with translator := (t.submit x sourceLang targetLang).1 } : Core).Waits (pending ++ [x.origin]) := by
  obtain ⟨hepoch, k, hholds⟩ := h.some ht
  rcases TranslateAsync.submit_holds hholds x sourceLang targetLang with hrefused | ⟨-, hsame, hholds'⟩
  · rw [hrefused] at hsubmit
    cases hsubmit
  · exact waits_some rfl (hsame.trans hepoch) hholds'

/-! ## The line -/

/-- The cues in the order they should be written: those that were, those that wait, those that were not popped. -/
def line (c : Core) (pending : List Origin) : List Cue :=
  writtenCues c.trace ++ pending.map Prod.snd ++ c.builder.queue.toList

/-- The line is in order. -/
structure InLine (c : Core) (pending : List Origin) : Prop where
  waits : c.Waits pending
  off : c.translateEnabled = false → pending = []
  texts : ∀ cue ∈ c.builder.queue.toList, cue.text ≠ [] ∧ cue.text.length ≤ maxTextBytes
  ids : ((c.line pending).map Cue.segmentId).Pairwise (· < ·)
  next : ∀ cue ∈ c.line pending, cue.segmentId < c.builder.nextSegmentId

variable {pending' : List Origin}

theorem line_record {events : List Event} (hidle : ∀ e ∈ events, e.isIdle = true) :
    (c.record events).line pending = c.line pending := by
  unfold line record
  dsimp only
  rw [writtenCues_append, writtenCues_idle hidle, List.append_nil]

theorem InLine.of_sublist (h : c.InLine pending) (hwaits : d.Waits pending')
    (hoff : d.translateEnabled = false → pending' = []) (hline : (d.line pending').Sublist (c.line pending))
    (hqueue : d.builder.queue.toList ⊆ c.builder.queue.toList)
    (hnext : d.builder.nextSegmentId = c.builder.nextSegmentId) : d.InLine pending' where
  waits := hwaits
  off := hoff
  texts := fun cue hcue => h.texts cue (hqueue hcue)
  ids := h.ids.sublist (hline.map Cue.segmentId)
  next := by
    intro cue hcue
    rw [hnext]
    exact h.next cue (hline.subset hcue)

theorem InLine.record (h : c.InLine pending) {events : List Event} (hidle : ∀ e ∈ events, e.isIdle = true) :
    (c.record events).InLine pending :=
  h.of_sublist (h.waits.record hidle) h.off (by rw [line_record hidle]) (fun _ hcue => hcue) rfl

theorem InLine.hear (h : c.InLine pending) {cues : List Cue} {b : SegmentBuilder} (hheard : Heard c.builder cues b) :
    ({ c with builder := b } : Core).InLine pending := by
  have hline : ({ c with builder := b } : Core).line pending = c.line pending ++ cues := by
    unfold line
    dsimp only
    rw [hheard.queue, List.append_assoc, List.append_assoc, List.append_assoc]
  obtain ⟨hids, hnext⟩ := hheard.after h.ids h.next
  rw [← hline] at hids hnext
  refine ⟨h.waits.of_same rfl rfl, h.off, ?_, hids, hnext⟩
  intro cue hcue
  rw [hheard.queue] at hcue
  rcases List.mem_append.mp hcue with hcue | hcue
  · exact h.texts cue hcue
  · exact hheard.texts cue hcue

theorem InLine.drop (h : c.InLine pending) (hwaits : d.Waits []) (hwritten : writtenCues d.trace = writtenCues c.trace)
    (hqueue : d.builder.queue.toList.Sublist c.builder.queue.toList)
    (hnext : d.builder.nextSegmentId = c.builder.nextSegmentId) : d.InLine [] := by
  refine h.of_sublist hwaits (fun _ => rfl) ?_ hqueue.subset hnext
  unfold line
  rw [hwritten, List.map_nil, List.append_nil]
  exact (List.sublist_append_left _ _).append hqueue

/-- The first of the line that waits is written, or lost. -/
theorem line_send {events : List Event} {last : Event} {o : Origin} (hidle : ∀ e ∈ events, e.isIdle = true)
    (hlast : last.Sends o) :
    ((c.record (events ++ [last])).line pending).Sublist (writtenCues c.trace ++ o.2 :: pending.map Prod.snd ++
      c.builder.queue.toList) := by
  unfold line record
  dsimp only
  rw [writtenCues_append, writtenCues_append, writtenCues_idle hidle, List.nil_append, List.append_cons]
  refine List.Sublist.append (List.Sublist.append (List.Sublist.append (.refl _) ?_) (.refl _)) (.refl _)
  unfold writtenCues
  rcases (writes_of_sends hlast).1 with hwrites | hwrites
  · rw [List.filterMap_cons_some hwrites]
    exact .refl _
  · rw [List.filterMap_cons_none hwrites]
    exact List.nil_sublist _

theorem invalidations_send {events : List Event} {last : Event} {o : Origin} (hidle : ∀ e ∈ events, e.isIdle = true)
    (hlast : last.Sends o) : invalidations (c.record (events ++ [last])).trace = invalidations c.trace := by
  show invalidations (c.trace ++ (events ++ [last])) = _
  have hnone : invalidations [last] = 0 := by
    unfold invalidations
    rw [List.countP_singleton, (writes_of_sends hlast).2]
    rfl
  rw [invalidations_append, invalidations_append, invalidations_idle hidle, hnone, Nat.add_zero]

theorem line_pop {cue : Cue} {b : SegmentBuilder} (hpop : c.builder.pop = some (cue, b)) :
    c.builder.queue.toList = cue :: b.queue.toList ∧ b.nextSegmentId = c.builder.nextSegmentId := by
  unfold SegmentBuilder.pop at hpop
  split at hpop
  · cases hpop
  rename_i queue hqueue
  obtain ⟨rfl, rfl⟩ := Prod.mk.inj (Option.some.inj hpop)
  exact ⟨Ring.toList_of_pop_eq_some hqueue, rfl⟩

/-- A history in which the translator is never full, and does not run out of epochs. -/
structure Smooth (trace : List Event) : Prop where
  roomy : ∀ e ∈ trace, e.isRefusal = false
  epochs : invalidations trace < uint64Max

theorem Smooth.of_prefix {trace later : List Event} (h : Smooth later) (hbefore : trace <+: later) : Smooth trace where
  roomy := fun e he => h.roomy e (hbefore.subset he)
  epochs := Nat.lt_of_le_of_lt hbefore.sublist.countP_le h.epochs

/-- A cue that is written before it waits goes past nothing. -/
theorem InLine.emits (h : c.InLine pending) {cue : Cue} {b : SegmentBuilder} {before : List Event} {last : Event}
    (hpop : c.builder.pop = some (cue, b)) (hbefore : ∀ e ∈ before, e.isQuiet = true) (hlast : last.Sends (c.sessionId, cue))
    (hbypass : Bypass c cue before last) (hroomy : ∀ e ∈ before, e.isRefusal = false) :
    (({ c with builder := b } : Core).record (.popped cue :: (before ++ [last]))).InLine pending := by
  obtain ⟨hqueue, hnext⟩ := line_pop hpop
  have hidle : ∀ e ∈ .popped cue :: before, e.isIdle = true := by
    intro e he
    rcases List.mem_cons.mp he with rfl | he
    · rfl
    · exact isIdle_of_isQuiet (hbefore e he)
  have hwaits : (({ c with builder := b } : Core).record (.popped cue :: before ++ [last])).Waits pending :=
    h.waits.of_same rfl (invalidations_send hidle hlast)
  have hsub : b.queue.toList ⊆ c.builder.queue.toList := by
    rw [hqueue]
    exact List.subset_cons_self _ _
  by_cases hlost : ∃ x, last = .lost x
  · obtain ⟨x, rfl⟩ := hlost
    have hnone : ∀ e ∈ .popped cue :: before ++ [.lost x], e.isIdle = true := by
      intro e he
      rcases List.mem_append.mp he with he | he
      · exact hidle e he
      · rw [List.mem_singleton.mp he]
        rfl
    refine h.of_sublist hwaits h.off ?_ hsub hnext
    rw [show (.popped cue :: (before ++ [Event.lost x])) = .popped cue :: before ++ [.lost x] from rfl, line_record hnone]
    unfold line
    dsimp only
    rw [hqueue]
    exact (List.Sublist.refl _).append (List.sublist_cons_self _ _)
  · have hnil : pending = [] := by
      cases hbypass with
      | disabled hoff => exact h.off hoff
      | noTranslator hnone => exact h.waits.none hnone
      | noText hempty => exact absurd hempty (h.texts cue (by rw [hqueue]; exact List.mem_cons_self)).1
      | refused t sourceLang targetLang ht hoffered hrefused =>
        obtain ⟨-, k, hholds⟩ := h.waits.some ht
        obtain ⟨htext, hlength⟩ := h.texts cue (by rw [hqueue]; exact List.mem_cons_self)
        have hfull := TranslateAsync.full_of_refused hholds (c := popped c.sessionId cue) htext hlength hrefused
        have hroom := hroomy _ hoffered
        unfold Event.isRefusal at hroom
        rw [decide_eq_false_iff_not] at hroom
        exact absurd hfull hroom
      | lost x hx => exact absurd ⟨x, hx⟩ hlost
    subst hnil
    refine h.of_sublist hwaits h.off ?_ hsub hnext
    refine (line_send hidle hlast).trans ?_
    unfold line
    dsimp only
    rw [hqueue, List.map_nil, List.append_nil, List.append_assoc]
    exact .refl _

/-- **A step** keeps the line in order. -/
theorem inLine_step (c d : Core) (h : Smooth c.trace → ∃ pending, c.InLine pending) (hstep : Step c d) (hsmooth : Smooth d.trace) :
    ∃ pending, d.InLine pending := by
  obtain ⟨pending, h⟩ := h (hsmooth.of_prefix (trace_step c d hstep))
  have hone {x : Event} (hx : x.isIdle = true) : ∀ y ∈ [x], y.isIdle = true := fun y hy => List.mem_singleton.mp hy ▸ hx
  have hsame {d : Core} (htranslator : d.translator = c.translator) (htrace : d.trace = c.trace)
      (hqueue : d.builder = c.builder) (hoff : d.translateEnabled = c.translateEnabled) : d.InLine pending := by
    refine h.of_sublist (h.waits.of_same htranslator (by rw [htrace])) (by rw [hoff]; exact h.off) ?_ ?_ (by rw [hqueue])
    · unfold line
      rw [htrace, hqueue]
    · rw [hqueue]
      exact fun _ hcue => hcue
  have hdropped {why : Reset} : invalidations (c.trace ++ [.invalidated why]) = invalidations c.trace + 1 :=
    invalidations_append _ _
  have hunwritten {why : Reset} : writtenCues (c.trace ++ [.invalidated why]) = writtenCues c.trace :=
    (writtenCues_append _ _).trans (List.append_nil _)
  cases hstep with
  | frame sequence p => exact ⟨pending, h.record (hone rfl)⟩
  | buffer | openSource | closeSource => exact ⟨pending, hsame rfl rfl rfl rfl⟩
  | clearBuilder b hempty hnext =>
    refine ⟨pending, h.of_sublist (h.waits.of_same rfl rfl) h.off ?_ ?_ hnext⟩
    · unfold line
      dsimp only
      rw [hempty, List.append_nil]
      exact List.sublist_append_left _ _
    · dsimp only
      rw [hempty]
      exact List.nil_subset _
  | hear window cues b hne hsub hheard => exact ⟨pending, (h.hear hheard).record (hone rfl)⟩
  | invalidate why =>
    exact ⟨[], h.drop (h.waits.invalidate rfl hdropped hsmooth.epochs) hunwritten (.refl _) rfl⟩
  | configure enabled =>
    exact ⟨[], h.drop (h.waits.invalidate rfl hdropped hsmooth.epochs) hunwritten (.refl _) rfl⟩
  | start id =>
    have htrace : invalidations (c.trace ++ [.invalidated .start, .started id]) = invalidations c.trace + 1 :=
      invalidations_append _ _
    have hwritten : writtenCues (c.trace ++ [.invalidated .start, .started id]) = writtenCues c.trace :=
      (writtenCues_append _ _).trans (List.append_nil _)
    exact ⟨[], h.drop (h.waits.invalidate rfl htrace hsmooth.epochs) hwritten (List.nil_sublist _) rfl⟩
  | stop =>
    have hstopped : ({ c with sessionActive := false } : Core).InLine pending := hsame rfl rfl rfl rfl
    exact ⟨pending, hstopped.record (hone rfl)⟩
  | thread s => exact ⟨pending, h.of_sublist (h.waits.thread s) h.off (.refl _) (fun _ hcue => hcue) rfl⟩
  | submit cue b t sourceLang targetLang hpop henabled ht hsubmit =>
    obtain ⟨hqueue, hnext⟩ := line_pop hpop
    have hwaits := h.waits.submit ht hsubmit
    have hsubmitted : ({ c with builder := b, translator := some (t.submit (popped c.sessionId cue) sourceLang targetLang).1
                                } : Core).InLine (pending ++ [(c.sessionId, cue)]) := by
      refine h.of_sublist (hwaits.of_same rfl rfl) ?_ ?_ ?_ hnext
      · intro hoff
        rw [henabled] at hoff
        cases hoff
      · unfold line
        dsimp only
        rw [hqueue, List.map_append, List.map_singleton, ← List.append_assoc, List.append_assoc _ [cue]]
        exact .refl _
      · dsimp only
        rw [hqueue]
        exact List.subset_cons_self _ _
    exact ⟨_, (hsubmitted.record (hone rfl)).record (hone rfl)⟩
  | emit cue b before last hpop hbefore hlast hbypass =>
    refine ⟨pending, ?_⟩
    rw [record_record]
    refine h.emits hpop hbefore hlast hbypass fun e he => hsmooth.roomy e ?_
    exact List.mem_append_right _ (List.mem_append_left _ he)
  | deliver t r before last ht hr hactive hid hbefore hlast =>
    have hdelivers := h.waits.tryDeliver ht
    rw [hr] at hdelivers
    obtain ⟨pending', rfl, hwaits⟩ := hdelivers
    have hidle : ∀ e ∈ before, e.isIdle = true := fun e he => isIdle_of_isQuiet (hbefore e he)
    refine ⟨pending', h.of_sublist (hwaits.of_same rfl (invalidations_send hidle hlast)) ?_ (line_send hidle hlast)
      (fun _ hcue => hcue) rfl⟩
    intro hoff
    cases h.off hoff
  | discard t ht hstale =>
    have hdelivers := h.waits.tryDeliver ht
    cases hr : t.tryDeliver.2 with
    | none =>
      rw [hr] at hdelivers
      exact ⟨pending, h.of_sublist hdelivers h.off (.refl _) (fun _ hcue => hcue) rfl⟩
    | some r =>
      rw [hr] at hdelivers
      obtain ⟨pending', rfl, hwaits⟩ := hdelivers
      refine ⟨pending', h.of_sublist hwaits ?_ ?_ (fun _ hcue => hcue) rfl⟩
      · intro hoff
        cases h.off hoff
      · unfold line
        dsimp only
        rw [List.map_cons]
        exact ((List.Sublist.refl _).append (List.sublist_cons_self _ _)).append (.refl _)
  | drained hpending => exact ⟨pending, h.record (hone rfl)⟩

theorem inLine_start (engine translator : Bool) : (WorkerState.start engine translator).core.InLine [] where
  waits := by
    cases translator with
    | false => rfl
    | true => exact waits_some rfl rfl TranslateAsync.holds_create
  off := fun _ => rfl
  texts := by
    intro cue hcue
    cases hcue
  ids := .nil
  next := by
    intro cue hcue
    cases hcue

end Core

/-! ## Runs -/

/-- **Order.** While the translator is never offered a cue that it has no room for, and its epochs last, captions are
written in the order of their ids. -/
theorem captions_ordered (config : Config) (engine translator : Bool) (rounds : List (Env × Option Frame))
    (hroomy : ∀ e ∈ (roundsRun config engine translator rounds).trace, e.isRefusal = false)
    (hepochs : invalidations (roundsRun config engine translator rounds).trace < uint64Max) :
    ((writtenCues (roundsRun config engine translator rounds).trace).map Cue.segmentId).Pairwise (· < ·) := by
  have hkeeps (c d : Core) (h : Core.Smooth c.trace → ∃ pending, c.InLine pending) (hstep : Core.Step c d) :
      Core.Smooth d.trace → ∃ pending, d.InLine pending := Core.inLine_step c d h hstep
  have hround (w : WorkerState) (r : Env × Option Frame)
      (hw : Core.Smooth w.core.trace → ∃ pending, w.core.InLine pending) :
      Core.Smooth (w.step r.1 config r.2).core.trace → ∃ pending, (w.step r.1 config r.2).core.InLine pending :=
    steps_invariant hkeeps (step_steps w r.2) hw
  obtain ⟨pending, h⟩ := run_invariant' hround rounds (fun _ => ⟨[], Core.inLine_start engine translator⟩) ⟨hroomy, hepochs⟩
  refine h.ids.sublist (List.Sublist.map Cue.segmentId ?_)
  unfold Core.line
  rw [List.append_assoc]
  exact List.sublist_append_left _ _

/-- `n` cues are heard at once. -/
def Env.crowd (n : Nat) (read : SourceRead) : Env :=
  { Env.quiet with
    openSource _ := true
    readSource _ := read
    speech _ := .energy true
    transcribe _ := some ((List.range n).map fun i => ⟨2000000 * i, 2000000 * i + 1000000, false, ascii "Hi"⟩) }

/-- The client asks for translations, and then for a file, of which the decoder has one sample. -/
def crowdRounds (n : Nat) : List (Env × Option Frame) :=
  [(.quiet, some hello),
    (.quiet, some (QueueLog.frameOf (.translateCtrl ⟨.zero _, 1, .ofStr _ (ascii "en"), .ofStr _ (ascii "fr"), 1⟩))),
    (.crowd n (.ok 1 0), some (QueueLog.frameOf (.startSession fileStart))), (.crowd n .eof, none)]

/-- Whenever the worker looks, another cue has been translated. -/
def Env.translating : Env :=
  { Env.quiet with
    threads _ := [.take, .complete 0 TranslateLog.noOutcome]
    drainPolls _ := 4 }

/-- Three cues wait for their translations. -/
theorem captions_ordered_crowd :
    (writtenCues (roundsRun downloader true true (crowdRounds 3 ++ [(.translating, none)])).trace).length = 3 ∧
      ((writtenCues (roundsRun downloader true true (crowdRounds 3 ++ [(.translating, none)])).trace).map
        Cue.segmentId).Pairwise (· < ·) :=
  ⟨by decide +kernel, captions_ordered downloader true true _ (by decide +kernel) (by decide +kernel)⟩

/-- The translator has room for 34 cues. It gives two of them back when its queue is full, and refuses the next one, which
goes ahead of them. -/
theorem not_captions_ordered :
    ¬ ∀ (config : Config) (engine translator : Bool) (rounds : List (Env × Option Frame)),
      ((writtenCues (roundsRun config engine translator rounds).trace).map Cue.segmentId).Pairwise (· < ·) := by
  intro h
  have hordered := h downloader true true (crowdRounds 35)
  have hids : (writtenCues (roundsRun downloader true true (crowdRounds 35)).trace).map Cue.segmentId = [35, 1, 2] := by
    decide +kernel
  rw [hids] at hordered
  exact absurd hordered (by decide)

end VlcWhisper.Worker
