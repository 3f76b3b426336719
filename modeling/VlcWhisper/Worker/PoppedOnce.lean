import VlcWhisper.Worker.LoopSteps

/-!
# Cues are popped once

Main result: `popsOnce_step`. The ids of the cues that were popped and of those that wait, in this order, increase, whatever
the main loop does; so no cue is popped twice.
-/

namespace VlcWhisper.Worker

open VlcWhisper.Lib SegmentBuilder Relation

def Event.pops : Event → Option Cue
  | .popped cue => some cue
  | _ => none

/-- The cues that were popped. -/
def poppedCues (trace : List Event) : List Cue := trace.filterMap Event.pops

theorem poppedCues_append (trace later : List Event) : poppedCues (trace ++ later) = poppedCues trace ++ poppedCues later :=
  List.filterMap_append ..

theorem mem_poppedCues {trace : List Event} {cue : Cue} : cue ∈ poppedCues trace ↔ .popped cue ∈ trace := by
  unfold poppedCues
  rw [List.mem_filterMap]
  constructor
  · intro ⟨x, hx, hpops⟩
    cases x with
    | popped c =>
      obtain rfl : c = cue := Option.some.inj hpops
      exact hx
    | _ => cases hpops
  · exact fun h => ⟨.popped cue, h, rfl⟩

theorem Heard.after {b b' : SegmentBuilder} {cues : List Cue} (hheard : Heard b cues b') {l : List Cue}
    (hordered : (l.map Cue.segmentId).Pairwise (· < ·)) (hnext : ∀ cue ∈ l, cue.segmentId < b.nextSegmentId) :
    ((l ++ cues).map Cue.segmentId).Pairwise (· < ·) ∧ ∀ cue ∈ l ++ cues, cue.segmentId < b'.nextSegmentId := by
  have hids (cue : Cue) (hcue : cue ∈ cues) :
      b.nextSegmentId ≤ cue.segmentId ∧ cue.segmentId < b.nextSegmentId + cues.length := by
    have hmem := List.mem_map_of_mem (f := Cue.segmentId) hcue
    rw [hheard.ids] at hmem
    exact List.mem_range'_1.mp hmem
  constructor
  · rw [List.map_append, List.pairwise_append]
    refine ⟨hordered, by rw [hheard.ids]; exact List.pairwise_lt_range', fun x hx y hy => ?_⟩
    obtain ⟨old, hold, rfl⟩ := List.mem_map.mp hx
    obtain ⟨new, hnew, rfl⟩ := List.mem_map.mp hy
    have hlt := hnext old hold
    have hle := (hids new hnew).1
    omega
  · intro cue hcue
    rw [hheard.next]
    rcases List.mem_append.mp hcue with hcue | hcue
    · have hlt := hnext cue hcue
      omega
    · exact (hids cue hcue).2

namespace Core

/-- The popped cues, and those that will be. -/
def cues (c : Core) : List Cue := poppedCues c.trace ++ c.builder.queue.toList

structure PopsOnce (c : Core) : Prop where
  ordered : (c.cues.map Cue.segmentId).Pairwise (· < ·)
  next : ∀ cue ∈ c.cues, cue.segmentId < c.builder.nextSegmentId

theorem PopsOnce.of_sublist {c d : Core} (h : c.PopsOnce) (hcues : d.cues.Sublist c.cues)
    (hnext : d.builder.nextSegmentId = c.builder.nextSegmentId) : d.PopsOnce where
  ordered := h.ordered.sublist (hcues.map Cue.segmentId)
  next := fun cue hcue => hnext ▸ h.next cue (hcues.subset hcue)

theorem cues_record (c : Core) {events : List Event} (hnone : ∀ x ∈ events, x.pops = none) : (c.record events).cues = c.cues := by
  have hnil : poppedCues events = [] := List.filterMap_eq_nil_iff.mpr hnone
  unfold cues record
  rw [poppedCues_append, hnil, List.append_nil]

theorem PopsOnce.record {c : Core} (h : c.PopsOnce) {events : List Event} (hnone : ∀ x ∈ events, x.pops = none) :
    (c.record events).PopsOnce :=
  h.of_sublist (by rw [cues_record c hnone]) rfl

theorem PopsOnce.pop {c : Core} (h : c.PopsOnce) {cue : Cue} {b : SegmentBuilder} (hpop : c.builder.pop = some (cue, b)) :
    (({ c with builder := b } : Core).record [.popped cue]).PopsOnce := by
  rw [SegmentBuilder.pop] at hpop
  split at hpop
  · cases hpop
  rename_i queue hqueue
  obtain ⟨rfl, rfl⟩ := Prod.mk.inj (Option.some.inj hpop)
  have hlist := Ring.toList_of_pop_eq_some hqueue
  refine h.of_sublist ?_ rfl
  unfold cues Core.record
  dsimp only
  rw [poppedCues_append, hlist, List.append_assoc]
  exact List.Sublist.refl _

theorem PopsOnce.hear {c : Core} (h : c.PopsOnce) {cues : List Cue} {b : SegmentBuilder} (hheard : Heard c.builder cues b) :
    ({ c with builder := b } : Core).PopsOnce := by
  have hcues : ({ c with builder := b } : Core).cues = c.cues ++ cues := by
    unfold Core.cues
    dsimp only
    rw [hheard.queue, List.append_assoc]
  obtain ⟨hids, hnext⟩ := hheard.after h.ordered h.next
  rw [← hcues] at hids hnext
  exact ⟨hids, hnext⟩

theorem pops_of_isQuiet {x : Event} (h : x.isQuiet = true) : x.pops = none := by
  cases x with
  | popped cue => cases h
  | _ => rfl

theorem pops_of_sends {x : Event} {o : Origin} (h : x.Sends o) : x.pops = none := by
  cases x with
  | popped cue => cases h
  | _ => rfl

theorem PopsOnce.send {c : Core} (h : c.PopsOnce) {before : List Event} {last : Event} {o : Origin}
    (hbefore : ∀ e ∈ before, e.isQuiet = true) (hlast : last.Sends o) : (c.record (before ++ [last])).PopsOnce := by
  refine h.record fun x hx => ?_
  rcases List.mem_append.mp hx with hx | hx
  · exact pops_of_isQuiet (hbefore x hx)
  · exact pops_of_sends (List.mem_singleton.mp hx ▸ hlast)

/-- **Once.** Whatever happens, no cue is popped that was popped before. -/
theorem popsOnce_step (c d : Core) (h : c.PopsOnce) (hstep : Step c d) : d.PopsOnce := by
  have hone (x : Event) (hx : x.pops = none) : ∀ y ∈ [x], y.pops = none := fun y hy => List.mem_singleton.mp hy ▸ hx
  have hsame {d : Core} (hcues : d.cues = c.cues) (hnext : d.builder.nextSegmentId = c.builder.nextSegmentId) : d.PopsOnce :=
    h.of_sublist (by rw [hcues]) hnext
  have hcleared {b : SegmentBuilder} (hempty : b.queue.toList = []) (hnext : b.nextSegmentId = c.builder.nextSegmentId) :
      ({ c with builder := b } : Core).PopsOnce := by
    refine h.of_sublist ?_ hnext
    unfold cues
    dsimp only
    rw [hempty, List.append_nil]
    exact List.sublist_append_left _ _
  cases hstep with
  | frame sequence p => exact h.record (hone (.frame sequence p) rfl)
  | buffer | openSource | closeSource | thread | discard => exact hsame rfl rfl
  | clearBuilder b hempty hnext => exact hcleared hempty hnext
  | hear window cues b hne hsub hheard => exact (h.hear hheard).record (hone (.heard window cues) rfl)
  | invalidate why => exact hsame (cues_record _ (hone (.invalidated why) rfl)) rfl
  | configure enabled => exact hsame (cues_record _ (hone (.invalidated (.translateCtrl _)) rfl)) rfl
  | start id =>
    have hbegun : ({ c with sessionId := id, sessionActive := true, buffer := [], builder := c.builder.clear
                            translator := c.translator.map TranslateAsync.invalidate
                            decoder := none } : Core).PopsOnce :=
      (hcleared (toList_clear_queue c.builder) rfl).of_sublist (.refl _) rfl
    refine hbegun.record fun x hx => ?_
    rcases List.mem_pair.mp hx with rfl | rfl <;> rfl
  | stop => exact hsame (cues_record _ (hone .ended rfl)) rfl
  | submit cue b t sourceLang targetLang hpop henabled ht hsubmit =>
    have hoffered := cues_record (({ c with builder := b, translator := some (t.submit (popped c.sessionId cue) sourceLang targetLang).1
                                            } : Core).record [.popped cue]) (hone (.offered t.load cue) rfl)
    exact (h.pop hpop).of_sublist (by rw [hoffered]; exact .refl _) rfl
  | emit cue b before last hpop hbefore hlast hbypass => exact (h.pop hpop).send hbefore hlast
  | deliver t r before last ht hr hactive hid hbefore hlast =>
    exact PopsOnce.send (c := { c with translator := some t.tryDeliver.1 }) (hsame rfl rfl) hbefore hlast
  | drained hpending => exact h.record (hone .drained rfl)

theorem trace_step (c d : Core) (hstep : Step c d) : c.trace <+: d.trace := by
  cases hstep with
  | buffer | openSource | closeSource | clearBuilder | thread | discard => exact List.prefix_rfl
  | submit | emit =>
    unfold Core.record
    dsimp only
    rw [List.append_assoc]
    exact List.prefix_append _ _
  | _ => exact List.prefix_append _ _

end Core

theorem Core.PopsOnce.nodup {c : Core} (h : c.PopsOnce) : (poppedCues c.trace).Nodup := by
  have hcues : c.cues.Nodup := h.ordered.of_map Cue.segmentId fun a b hlt heq => Nat.ne_of_lt hlt (congrArg Cue.segmentId heq)
  exact hcues.sublist (List.sublist_append_left _ _)

/-! ## Rounds -/

variable {env : Env} {config : Config}

theorem popsOnce_start (engine translator : Bool) : (WorkerState.start engine translator).core.PopsOnce where
  ordered := .nil
  next := fun cue hcue => nomatch (show cue ∈ ([] : List Cue) from hcue)

theorem popsOnce_round {w : WorkerState} (hw : w.core.PopsOnce) (frame : Option Frame) :
    (w.step env config frame).core.PopsOnce :=
  steps_invariant Core.popsOnce_step (step_steps w frame) hw

theorem trace_steps {c d : Core} (h : ReflTransGen Core.Step c d) : c.trace <+: d.trace := by
  have hstep (d d' : Core) (hd : c.trace <+: d.trace) (hdd' : Core.Step d d') : c.trace <+: d'.trace :=
    hd.trans (Core.trace_step d d' hdd')
  exact steps_invariant hstep h List.prefix_rfl

theorem trace_round (w : WorkerState) (frame : Option Frame) : w.trace <+: (w.step env config frame).trace :=
  trace_steps (step_steps w frame)

end VlcWhisper.Worker
