import VlcWhisper.Worker.CaptionOrder

/-!
# No popped cue is lost

A popped cue is written, or waits in the translator until it is; the drain at the end of a session waits for all of them.
New translation settings drop what waits (`vw_translate_async_invalidate`: "called immediately upon seek, session reset, or
config change").

Main result: `cues_conserved`, when the drain of a session completes, every popped cue was written once, but for those that
waited when the settings changed, which are not written at all.
-/

namespace VlcWhisper.Worker

open VlcWhisper.Lib VlcWhisper.Protocol SegmentBuilder Relation
open scoped List

/-! ## Sessions -/

def Event.isStarted : Event → Bool
  | .started _ => true
  | _ => false

/-- What happened since the last START, if there was one. -/
def session (trace : List Event) : Option (List Event) :=
  trace.foldl (fun s e => if e.isStarted then some [] else s.map (· ++ [e])) none

/-- A session ends or another begins, the translator is invalidated for another reason than new settings, or a caption is
lost. -/
def Event.disturbs : Event → Bool
  | .started _ | .ended | .lost _ => true
  | .invalidated (.translateCtrl _) => false
  | .invalidated _ => true
  | _ => false

/-- No pause, seek, new session, read error or failed write. -/
def Undisturbed (mid : List Event) : Prop := ∀ e ∈ mid, e.disturbs = false

instance (mid : List Event) : Decidable (Undisturbed mid) := by
  unfold Undisturbed
  infer_instance

def Event.drops : Event → List Cue
  | .invalidated (.translateCtrl waiting) => waiting
  | _ => []

/-- The cues that new settings have dropped. -/
def droppedCues (mid : List Event) : List Cue := mid.flatMap Event.drops

/-- Every popped cue was written, waits, or was dropped by new settings. -/
def Accounted (mid : List Event) (waiting : List Cue) : Prop :=
  (writtenCues mid ++ waiting ++ droppedCues mid).Perm (poppedCues mid)

theorem droppedCues_append (mid later : List Event) : droppedCues (mid ++ later) = droppedCues mid ++ droppedCues later :=
  List.flatMap_append

theorem session_append {trace events : List Event} (h : ∀ e ∈ events, e.isStarted = false) :
    session (trace ++ events) = (session trace).map (· ++ events) := by
  induction events using List.reverseRecOn with
  | nil =>
    rw [List.append_nil]
    cases session trace with
    | none => rfl
    | some mid => rw [Option.map_some, List.append_nil]
  | append_singleton events e ih =>
    have hbefore := ih fun x hx => h x (List.mem_append_left _ hx)
    have hlast := h e (by simp)
    unfold session at hbefore ⊢
    rw [← List.append_assoc, List.foldl_append, hbefore]
    show (if e.isStarted then some [] else _) = _
    rw [hlast, if_neg Bool.false_ne_true, Option.map_map]
    congr 1
    funext mid
    exact List.append_assoc ..

theorem session_started (trace : List Event) (id : SessionId) : session (trace ++ [.started id]) = some [] := by
  unfold session
  rw [List.foldl_append]
  rfl

theorem session_of_started {pre mid : List Event} {id : SessionId} (h : Undisturbed mid) :
    session (pre ++ .started id :: mid) = some mid := by
  have hstarted : ∀ e ∈ mid, e.isStarted = false := by
    intro e he
    have hquiet := h e he
    cases e with
    | started id => cases hquiet
    | _ => rfl
  rw [List.append_cons, session_append hstarted, session_started, Option.map_some, List.nil_append]

theorem Accounted.move {mid events : List Event} {waiting waiting' : List Cue} (h : Accounted mid waiting)
    (hnone : droppedCues events = []) (hmove : (writtenCues events ++ waiting').Perm (waiting ++ poppedCues events)) :
    Accounted (mid ++ events) waiting' := by
  unfold Accounted at h ⊢
  rw [writtenCues_append, poppedCues_append, droppedCues_append, hnone, List.append_nil,
    List.append_assoc (writtenCues mid)]
  calc writtenCues mid ++ (writtenCues events ++ waiting') ++ droppedCues mid
      _ ~ writtenCues mid ++ (waiting ++ poppedCues events) ++ droppedCues mid := (hmove.append_left _).append_right _
      _ = writtenCues mid ++ waiting ++ (poppedCues events ++ droppedCues mid) := by simp only [List.append_assoc]
      _ ~ writtenCues mid ++ waiting ++ (droppedCues mid ++ poppedCues events) := List.perm_append_comm.append_left _
      _ = writtenCues mid ++ waiting ++ droppedCues mid ++ poppedCues events := by simp only [List.append_assoc]
      _ ~ poppedCues mid ++ poppedCues events := h.append_right _

theorem Accounted.change {mid : List Event} {waiting : List Cue} (h : Accounted mid waiting) :
    Accounted (mid ++ [.invalidated (.translateCtrl waiting)]) [] := by
  unfold Accounted at h ⊢
  rw [writtenCues_append, poppedCues_append, droppedCues_append]
  show (writtenCues mid ++ [] ++ [] ++ (droppedCues mid ++ (waiting ++ []))) ~ poppedCues mid ++ []
  rw [List.append_nil, List.append_nil, List.append_nil, List.append_nil]
  calc writtenCues mid ++ (droppedCues mid ++ waiting)
      _ ~ writtenCues mid ++ (waiting ++ droppedCues mid) := List.perm_append_comm.append_left _
      _ = writtenCues mid ++ waiting ++ droppedCues mid := (List.append_assoc ..).symm
      _ ~ poppedCues mid := h

theorem Accounted.perm {mid : List Event} {waiting waiting' : List Cue} (h : Accounted mid waiting)
    (hperm : waiting'.Perm waiting) : Accounted mid waiting' :=
  ((hperm.append_left _).append_right _).trans h

namespace Core

/-! ## The invariant -/

/-- What waits, where an event says so: nothing when a drain ends, and what new settings drop. -/
def tells : Event → Option (List Cue)
  | .drained => some []
  | .invalidated (.translateCtrl waiting) => some waiting
  | _ => none

/-- There, the cues of the session are accounted for. -/
def AccountedAt (before : List Event) (e : Event) : Prop :=
  ∀ waiting, tells e = some waiting → ∀ mid, session before = some mid → Undisturbed mid → Accounted mid waiting

/-- The popped cues of an undisturbed session are accounted for, now and wherever an event says what waits. -/
structure Conserving (c : Core) (pending : List Origin) : Prop where
  waits : c.Waits pending
  own : ∀ o ∈ pending, o.1 = c.sessionId
  kept : ∀ mid, session c.trace = some mid → Undisturbed mid →
    c.sessionActive = true ∧ Accounted mid (pending.map Prod.snd)
  told : Explained AccountedAt c.trace

variable {c d : Core} {pending pending' : List Origin} {events : List Event}

theorem told_append {trace : List Event} (h : Explained AccountedAt trace) (hnone : ∀ e ∈ events, tells e = none) :
    Explained AccountedAt (trace ++ events) := by
  refine explained_append.mpr ⟨h, along_iff.mpr ?_⟩
  rintro pre e post rfl waiting hwaiting
  rw [hnone e (by simp)] at hwaiting
  cases hwaiting

theorem droppedCues_of_tells (h : ∀ e ∈ events, tells e = none) : droppedCues events = [] := by
  refine List.flatMap_eq_nil_iff.mpr fun e he => ?_
  have hnone := h e he
  unfold tells at hnone
  unfold Event.drops
  split at hnone
  · cases hnone
  · cases hnone
  · rename_i hother
    split
    · exact (hother _ rfl).elim
    · rfl

theorem Waits.waiting (h : c.Waits pending) : (waitingCues c.translator).Perm (pending.map Prod.snd) := by
  cases ht : c.translator with
  | none =>
    rw [h.none ht]
    exact .refl _
  | some t =>
    obtain ⟨-, k, hholds⟩ := h.some ht
    have horigins : (t.entries.map Prod.snd).Perm pending := by
      rw [← map_snd_numbered uint64Max k pending]
      exact hholds.entries.map Prod.snd
    have hcues : t.waiting = (t.entries.map Prod.snd).map Prod.snd := by
      unfold TranslateAsync.waiting TranslateAsync.entries
      simp only [List.map_append, List.map_map]
      rfl
    show t.waiting.Perm _
    rw [hcues]
    exact horigins.map Prod.snd

theorem Conserving.move (h : c.Conserving pending) (htrace : d.trace = c.trace ++ events) (hwaits : d.Waits pending')
    (hown : ∀ o ∈ pending', o.1 = d.sessionId) (hnone : ∀ e ∈ events, e.isStarted = false ∧ tells e = none)
    (hmove : Undisturbed events → c.sessionActive = true → d.sessionActive = true ∧
      (writtenCues events ++ pending'.map Prod.snd).Perm (pending.map Prod.snd ++ poppedCues events)) :
    d.Conserving pending' where
  waits := hwaits
  own := hown
  kept := by
    intro mid hmid hquiet
    rw [htrace, session_append fun e he => (hnone e he).1, Option.map_eq_some_iff] at hmid
    obtain ⟨mid, hmid, rfl⟩ := hmid
    obtain ⟨hactive, haccounted⟩ := h.kept mid hmid fun e he => hquiet e (List.mem_append_left _ he)
    obtain ⟨hactive', hperm⟩ := hmove (fun e he => hquiet e (List.mem_append_right _ he)) hactive
    exact ⟨hactive', haccounted.move (droppedCues_of_tells fun e he => (hnone e he).2) hperm⟩
  told := by
    rw [htrace]
    exact told_append h.told fun e he => (hnone e he).2

theorem Conserving.rest (h : c.Conserving pending) (htrace : d.trace = c.trace ++ events) (hwaits : d.Waits pending)
    (hid : d.sessionId = c.sessionId) (hactive : Undisturbed events → d.sessionActive = c.sessionActive)
    (hnone : ∀ e ∈ events, e.isIdle = true ∧ e.pops = none ∧ e.isStarted = false ∧ tells e = none) : d.Conserving pending := by
  refine h.move htrace hwaits (by rw [hid]; exact h.own) (fun e he => (hnone e he).2.2) fun hquiet hbefore => ?_
  have hpopped : poppedCues events = [] := List.filterMap_eq_nil_iff.mpr fun e he => (hnone e he).2.1
  rw [hactive hquiet, hpopped, writtenCues_idle fun e he => (hnone e he).1, List.append_nil]
  exact ⟨hbefore, .refl _⟩

/-- The translator is invalidated: by new settings, or in a session that is disturbed. -/
theorem Conserving.drop (h : c.Conserving pending) {why : Reset} (htrace : d.trace = c.trace ++ [.invalidated why])
    (hwaits : d.Waits []) (hactive : d.sessionActive = c.sessionActive)
    (hwhy : ∀ waiting, why = .translateCtrl waiting → waiting.Perm (pending.map Prod.snd)) : d.Conserving [] where
  waits := hwaits
  own := by
    intro o ho
    cases ho
  kept := by
    intro mid hmid hquiet
    have hnone : ∀ e ∈ [Event.invalidated why], e.isStarted = false := by
      intro e he
      rw [List.mem_singleton.mp he]
      rfl
    rw [htrace, session_append hnone, Option.map_eq_some_iff] at hmid
    obtain ⟨mid, hmid, rfl⟩ := hmid
    obtain ⟨hbefore, haccounted⟩ := h.kept mid hmid fun e he => hquiet e (List.mem_append_left _ he)
    have hlast := hquiet (.invalidated why) (by simp)
    cases why with
    | translateCtrl waiting => exact ⟨hactive.trans hbefore, (haccounted.perm (hwhy waiting rfl)).change⟩
    | _ => cases hlast
  told := by
    rw [htrace]
    refine explained_append_one h.told fun waiting htells mid hmid hquiet => ?_
    cases why with
    | translateCtrl dropped =>
      obtain rfl := Option.some.inj htells
      exact (h.kept mid hmid hquiet).2.perm (hwhy dropped rfl)
    | _ => cases htells

/-- If nothing is pending, nothing waits. -/
theorem Waits.nil_of_not_pending (h : c.Waits pending) (hnone : c.translator.any TranslateAsync.hasPending = false) :
    pending = [] := by
  cases ht : c.translator with
  | none => exact h.none ht
  | some t =>
    obtain ⟨-, k, hholds⟩ := h.some ht
    rw [ht, Option.any_some] at hnone
    unfold TranslateAsync.hasPending at hnone
    simp only [Bool.or_eq_false_iff, bne_eq_false_iff_eq] at hnone
    obtain ⟨⟨hjobs, hinflight⟩, hresults⟩ := hnone
    have hjobs : t.jobs.toList = [] := (Ring.count_eq_zero_iff _).mp hjobs
    have hresults : t.results.toList = [] := (Ring.count_eq_zero_iff _).mp hresults
    have hlength := hholds.entries.length_eq
    unfold TranslateAsync.entries at hlength
    rw [hjobs, hresults, List.length_eq_zero_iff.mp hinflight, length_numbered] at hlength
    exact List.length_eq_zero_iff.mp hlength.symm

theorem sending {before : List Event} {last : Event} {o : Origin} (hbefore : ∀ e ∈ before, e.isQuiet = true)
    (hlast : last.Sends o) :
    (∀ e ∈ before ++ [last], e.isStarted = false ∧ tells e = none) ∧ poppedCues (before ++ [last]) = [] ∧
      (Undisturbed (before ++ [last]) → writtenCues (before ++ [last]) = [o.2]) := by
  refine ⟨?_, List.filterMap_eq_nil_iff.mpr ?_, ?_⟩
  · intro e he
    rcases List.mem_append.mp he with he | he
    · have hquiet := hbefore e he
      cases e with
      | frame | offered => exact ⟨rfl, rfl⟩
      | _ => cases hquiet
    · obtain rfl := List.mem_singleton.mp he
      cases e with
      | caption | lost => exact ⟨rfl, rfl⟩
      | _ => exact hlast.elim
  · intro e he
    rcases List.mem_append.mp he with he | he
    · exact pops_of_isQuiet (hbefore e he)
    · rw [List.mem_singleton.mp he]
      exact pops_of_sends hlast
  · intro hquiet
    have hidle : ∀ e ∈ before, e.isIdle = true := fun e he => isIdle_of_isQuiet (hbefore e he)
    rw [writtenCues_append, writtenCues_idle hidle, List.nil_append]
    have hkept := hquiet last (by simp)
    cases last with
    | caption sequence x =>
      obtain rfl : x.origin = o := hlast
      rfl
    | lost x => cases hkept
    | _ => exact hlast.elim

/-- A session begins with nothing that waits. -/
theorem Conserving.begin (h : c.Conserving pending) {id : SessionId}
    (htrace : d.trace = c.trace ++ [.invalidated .start, .started id]) (hwaits : d.Waits []) (hactive : d.sessionActive = true) :
    d.Conserving [] where
  waits := hwaits
  own := by
    intro o ho
    cases ho
  kept := by
    intro mid hmid hquiet
    have hbegun : session (c.trace ++ [.invalidated .start] ++ [.started id]) = some mid := by
      rw [List.append_assoc, ← hmid, htrace]
      rfl
    rw [session_started] at hbegun
    obtain rfl := Option.some.inj hbegun
    exact ⟨hactive, .nil⟩
  told := by
    rw [htrace]
    refine told_append h.told fun e he => ?_
    rcases List.mem_pair.mp he with rfl | rfl
    · rfl
    · rfl

theorem Conserving.submit (h : c.Conserving pending) {cue : Cue} {load : Nat}
    (htrace : d.trace = c.trace ++ [.popped cue, .offered load cue]) (hwaits : d.Waits (pending ++ [(c.sessionId, cue)]))
    (hid : d.sessionId = c.sessionId) (hactive : d.sessionActive = c.sessionActive) :
    d.Conserving (pending ++ [(c.sessionId, cue)]) := by
  have hidle : ∀ e ∈ [Event.popped cue, .offered load cue], e.isIdle = true := by
    intro e he
    rcases List.mem_pair.mp he with rfl | rfl
    · rfl
    · rfl
  refine h.move htrace hwaits ?_ ?_ fun _ hbefore => ⟨hactive.trans hbefore, ?_⟩
  · intro o ho
    rw [hid]
    rcases List.mem_append.mp ho with ho | ho
    · exact h.own o ho
    · rw [List.mem_singleton.mp ho]
  · intro e he
    rcases List.mem_pair.mp he with rfl | rfl
    · exact ⟨rfl, rfl⟩
    · exact ⟨rfl, rfl⟩
  · rw [writtenCues_idle hidle, List.nil_append, List.map_append]
    exact .refl _

theorem Conserving.emit (h : c.Conserving pending) {cue : Cue} {before : List Event} {last : Event}
    (htrace : d.trace = c.trace ++ .popped cue :: (before ++ [last])) (hwaits : d.Waits pending)
    (hid : d.sessionId = c.sessionId) (hactive : d.sessionActive = c.sessionActive)
    (hbefore : ∀ e ∈ before, e.isQuiet = true) (hlast : last.Sends (c.sessionId, cue)) : d.Conserving pending := by
  obtain ⟨hnone, hpopped, hwritten⟩ := sending hbefore hlast
  refine h.move htrace hwaits (by rw [hid]; exact h.own) ?_ fun hquiet hsession => ⟨hactive.trans hsession, ?_⟩
  · intro e he
    rcases List.mem_cons.mp he with rfl | he
    · exact ⟨rfl, rfl⟩
    · exact hnone e he
  · have hsent : writtenCues (.popped cue :: (before ++ [last])) = [cue] :=
      hwritten fun e he => hquiet e (List.mem_cons_of_mem _ he)
    have hcue : poppedCues (.popped cue :: (before ++ [last])) = [cue] := congrArg (cue :: ·) hpopped
    rw [hsent, hcue]
    exact List.perm_append_comm

theorem Conserving.deliver {o : Origin} (h : c.Conserving (o :: pending)) {before : List Event} {last : Event}
    (htrace : d.trace = c.trace ++ (before ++ [last])) (hwaits : d.Waits pending) (hid : d.sessionId = c.sessionId)
    (hactive : d.sessionActive = c.sessionActive) (hbefore : ∀ e ∈ before, e.isQuiet = true) (hlast : last.Sends o) :
    d.Conserving pending := by
  obtain ⟨hnone, hpopped, hwritten⟩ := sending hbefore hlast
  have hown : ∀ o ∈ pending, o.1 = d.sessionId := by
    rw [hid]
    exact fun o ho => h.own o (List.mem_cons_of_mem _ ho)
  refine h.move htrace hwaits hown hnone fun hquiet hsession => ⟨hactive.trans hsession, ?_⟩
  rw [hwritten hquiet, hpopped, List.append_nil]
  exact .refl _

/-- Where nothing waits, a drain may end. -/
theorem Conserving.drained (h : c.Conserving []) : (c.record [.drained]).Conserving [] where
  waits := h.waits.record fun e he => List.mem_singleton.mp he ▸ rfl
  own := h.own
  kept := by
    intro mid hmid hquiet
    have hnone : ∀ e ∈ [Event.drained], e.isStarted = false := fun e he => List.mem_singleton.mp he ▸ rfl
    unfold Core.record at hmid
    rw [session_append hnone, Option.map_eq_some_iff] at hmid
    obtain ⟨mid, hmid, rfl⟩ := hmid
    obtain ⟨hactive, haccounted⟩ := h.kept mid hmid fun e he => hquiet e (List.mem_append_left _ he)
    exact ⟨hactive, haccounted.move rfl (.refl _)⟩
  told := by
    refine explained_append_one h.told fun waiting htells mid hmid hquiet => ?_
    obtain rfl := Option.some.inj htells
    exact (h.kept mid hmid hquiet).2

/-- **A step** accounts for every cue. -/
theorem conserving_step (c d : Core) (h : invalidations c.trace < uint64Max → ∃ pending, c.Conserving pending)
    (hstep : Step c d) (hepochs : invalidations d.trace < uint64Max) : ∃ pending, d.Conserving pending := by
  obtain ⟨pending, h⟩ := h (Nat.lt_of_le_of_lt (trace_step c d hstep).sublist.countP_le hepochs)
  have hnothing : c.trace = c.trace ++ [] := (List.append_nil _).symm
  have hnone : ∀ e ∈ ([] : List Event), e.isIdle = true ∧ e.pops = none ∧ e.isStarted = false ∧ tells e = none := by
    intro e he
    cases he
  have hone {x : Event} (hx : x.isIdle = true ∧ x.pops = none ∧ x.isStarted = false ∧ tells x = none) :
      ∀ e ∈ [x], e.isIdle = true ∧ e.pops = none ∧ e.isStarted = false ∧ tells e = none := by
    intro e he
    rw [List.mem_singleton.mp he]
    exact hx
  have hdropped {why : Reset} : invalidations (c.trace ++ [.invalidated why]) = invalidations c.trace + 1 :=
    invalidations_append _ _
  cases hstep with
  | frame sequence p =>
    have hidle : (Event.frame sequence p).isIdle = true := rfl
    have hwaits : (c.record [.frame sequence p]).Waits pending := h.waits.record fun e he => List.mem_singleton.mp he ▸ hidle
    exact ⟨pending, h.rest rfl hwaits rfl (fun _ => rfl) (hone ⟨rfl, rfl, rfl, rfl⟩)⟩
  | buffer | openSource | closeSource | clearBuilder =>
    exact ⟨pending, h.rest hnothing (h.waits.of_same rfl rfl) rfl (fun _ => rfl) hnone⟩
  | hear window cues b hne hsub hheard =>
    have hidle : (Event.heard window cues).isIdle = true := rfl
    have hwaits : (c.record [.heard window cues]).Waits pending := h.waits.record fun e he => List.mem_singleton.mp he ▸ hidle
    exact ⟨pending, h.rest rfl (hwaits.of_same rfl rfl) rfl (fun _ => rfl) (hone ⟨rfl, rfl, rfl, rfl⟩)⟩
  | invalidate why hwhy =>
    exact ⟨[], h.drop rfl (h.waits.invalidate rfl hdropped hepochs) rfl fun waiting heq => absurd heq (hwhy waiting)⟩
  | configure enabled =>
    refine ⟨[], h.drop rfl (h.waits.invalidate rfl hdropped hepochs) rfl fun waiting heq => ?_⟩
    obtain rfl := Reset.translateCtrl.inj heq
    exact h.waits.waiting
  | start id =>
    have htrace : invalidations (c.trace ++ [.invalidated .start, .started id]) = invalidations c.trace + 1 :=
      invalidations_append _ _
    exact ⟨[], h.begin rfl (h.waits.invalidate rfl htrace hepochs) rfl⟩
  | stop =>
    have hwaits : (c.record [.ended]).Waits pending := h.waits.record fun e he => List.mem_singleton.mp he ▸ rfl
    refine ⟨pending, h.rest rfl (hwaits.of_same rfl rfl) rfl (fun hquiet => ?_) (hone ⟨rfl, rfl, rfl, rfl⟩)⟩
    have hended := hquiet .ended (by simp)
    cases hended
  | thread s => exact ⟨pending, h.rest hnothing (h.waits.thread s) rfl (fun _ => rfl) hnone⟩
  | submit cue b t sourceLang targetLang hpop henabled ht hsubmit =>
    rw [record_record]
    have hidle : ∀ e ∈ [Event.popped cue] ++ [Event.offered t.load cue], e.isIdle = true := by
      intro e he
      rcases List.mem_pair.mp he with rfl | rfl
      · rfl
      · rfl
    have hwaits := h.waits.submit ht hsubmit
    exact ⟨pending ++ [(c.sessionId, cue)], h.submit rfl ((hwaits.of_same rfl rfl).record hidle) rfl rfl⟩
  | emit cue b before last hpop hbefore hlast hbypass =>
    rw [record_record]
    have hidle : ∀ e ∈ .popped cue :: before, e.isIdle = true := by
      intro e he
      rcases List.mem_cons.mp he with rfl | he
      · rfl
      · exact isIdle_of_isQuiet (hbefore e he)
    have hwaits : (({ c with builder := b } : Core).record (.popped cue :: before ++ [last])).Waits pending :=
      h.waits.of_same rfl (invalidations_send hidle hlast)
    exact ⟨pending, h.emit rfl hwaits rfl rfl hbefore hlast⟩
  | deliver t r before last ht hr hactive hid hbefore hlast =>
    have hdelivers := h.waits.tryDeliver ht
    rw [hr] at hdelivers
    obtain ⟨pending', rfl, hwaits⟩ := hdelivers
    have hidle : ∀ e ∈ before, e.isIdle = true := fun e he => isIdle_of_isQuiet (hbefore e he)
    exact ⟨pending', h.deliver rfl (hwaits.of_same rfl (invalidations_send hidle hlast)) rfl rfl hbefore hlast⟩
  | discard t ht hstale =>
    have hdelivers := h.waits.tryDeliver ht
    cases hr : t.tryDeliver.2 with
    | none =>
      rw [hr] at hdelivers
      exact ⟨pending, h.rest hnothing hdelivers rfl (fun _ => rfl) hnone⟩
    | some r =>
      rw [hr] at hdelivers
      obtain ⟨pending', rfl, hwaits⟩ := hdelivers
      refine ⟨pending', h.move hnothing hwaits (fun o ho => h.own o (List.mem_cons_of_mem _ ho)) ?_ ?_⟩
      · intro e he
        cases he
      · intro _ hactive
        have hid := h.own _ List.mem_cons_self
        exact absurd ⟨hactive, hid⟩ (hstale r hr)
  | drained hpending =>
    obtain rfl := h.waits.nil_of_not_pending hpending
    exact ⟨[], h.drained⟩

theorem conserving_start (engine translator : Bool) : (WorkerState.start engine translator).core.Conserving [] where
  waits := (inLine_start engine translator).waits
  own := by
    intro o ho
    cases ho
  kept := by
    intro mid hmid
    cases hmid
  told := trivial

end Core

/-! ## Drains -/

variable {env : Env}

/-- A drain that ends while the worker runs has found nothing more to wait for. -/
theorem drainTranslation_drains (w : WorkerState) :
    Ends (drainTranslation env) w fun ended v => ended = true → v.running = true →
      ∃ before, v.trace = w.trace ++ (before ++ [.drained]) := by
  refine Ends.bind (m := ask env.drainPolls) (P := fun _ u => u.trace = w.trace) rfl fun polls u hu => ?_
  have hbody (s : WorkerState) (hs : w.trace <+: s.trace) : Ends (do
      let running ← loadRunning env
      if !running then pure (some ())
      else do
        runThreads env
        let w ← get
        if w.hasPending then do
          let _ ← tryDeliverScoped env
          pure none
        else do
          record [.drained]
          pure (some ())) s fun r v =>
      (∀ a : Unit, r = some a → v.running = true → ∃ before, v.trace = w.trace ++ (before ++ [.drained])) ∧
        (r = none → w.trace <+: v.trace) := by
    have hsteps : CoreStepsAt s (loadRunning env) := steps_loadRunning s
    have hload : Ends (loadRunning env) s fun running v => w.trace <+: v.trace ∧ running = v.running :=
      ⟨hs.trans (trace_steps hsteps), (loadRunning_ends s).2⟩
    refine hload.bind fun running v ⟨hv, hrunning⟩ => ?_
    cases running with
    | false => exact ⟨fun _ _ hstill => absurd (hrunning.trans hstill) Bool.false_ne_true, fun hr => (by cases hr)⟩
    | true =>
      have hsteps : CoreStepsAt v (runThreads env) := steps_runThreads v
      have hthreads : Ends (runThreads env) v fun _ x => w.trace <+: x.trace := hv.trans (trace_steps hsteps)
      refine hthreads.bind fun _ x hx => Ends.get_bind ?_
      split
      · have hsteps : CoreStepsAt x (tryDeliverScoped env) := steps_tryDeliverScoped x
        have hdeliver : Ends (tryDeliverScoped env) x fun _ y => w.trace <+: y.trace := hx.trans (trace_steps hsteps)
        refine hdeliver.bind fun _ y hy => ⟨fun a ha => (by cases ha), fun _ => hy⟩
      · obtain ⟨before, hbefore⟩ := hx
        refine ⟨fun _ _ _ => ⟨before, ?_⟩, fun hr => (by cases hr)⟩
        show x.trace ++ [.drained] = _
        rw [← hbefore, List.append_assoc]
  refine (ends_loop_some hbody polls (by rw [hu])).bind fun r v hv => ?_
  intro hended
  obtain ⟨a, ha⟩ := Option.isSome_iff_exists.mp hended
  exact hv a ha

/-! ## Runs -/

theorem conserving_run (config : Config) (engine translator : Bool) (rounds : List (Env × Option Frame))
    (hepochs : invalidations (roundsRun config engine translator rounds).trace < uint64Max) :
    ∃ pending, (roundsRun config engine translator rounds).core.Conserving pending := by
  have hkeeps (c d : Core) (h : invalidations c.trace < uint64Max → ∃ pending, c.Conserving pending) (hstep : Core.Step c d) :
      invalidations d.trace < uint64Max → ∃ pending, d.Conserving pending := Core.conserving_step c d h hstep
  have hround (w : WorkerState) (r : Env × Option Frame)
      (hw : invalidations w.core.trace < uint64Max → ∃ pending, w.core.Conserving pending) :
      invalidations (w.step r.1 config r.2).core.trace < uint64Max → ∃ pending, (w.step r.1 config r.2).core.Conserving pending :=
    steps_invariant hkeeps (step_steps w r.2) hw
  exact run_invariant' hround rounds (fun _ => ⟨[], Core.conserving_start engine translator⟩) hepochs

theorem popsOnce_run (config : Config) (engine translator : Bool) (rounds : List (Env × Option Frame)) :
    (roundsRun config engine translator rounds).core.PopsOnce := by
  have hround (w : WorkerState) (r : Env × Option Frame) (hw : w.core.PopsOnce) : (w.step r.1 config r.2).core.PopsOnce :=
    popsOnce_round hw r.2
  exact run_invariant' hround rounds (popsOnce_start engine translator)

/-- What has become of the cues that were popped in a session. -/
structure Conserved (mid : List Event) : Prop where
  /-- Each was written, or dropped by new settings. -/
  all : (writtenCues mid ++ droppedCues mid).Perm (poppedCues mid)
  /-- None was written or dropped twice, and what was dropped was not written. -/
  once : (writtenCues mid ++ droppedCues mid).Nodup
  /-- The cues that new settings drop are recorded as what the translator holds then (`waitingCues`). They are those
  that were popped by then and neither written nor dropped. -/
  waited : ∀ before waiting after, mid = before ++ .invalidated (.translateCtrl waiting) :: after →
    (writtenCues before ++ waiting ++ droppedCues before).Perm (poppedCues before)

/-- **Conservation.** When a drain ends in a session that was not disturbed, every cue that was popped in it was written
exactly once, but for the cues that waited when the settings changed, which were not written. -/
theorem cues_conserved (config : Config) (engine translator : Bool) (rounds : List (Env × Option Frame))
    (hepochs : invalidations (roundsRun config engine translator rounds).trace < uint64Max)
    (pre mid post : List Event) (id : SessionId)
    (htrace : (roundsRun config engine translator rounds).trace = pre ++ .started id :: (mid ++ .drained :: post))
    (hquiet : Undisturbed mid) : Conserved mid := by
  obtain ⟨pending, h⟩ := conserving_run config engine translator rounds hepochs
  have htold (before after : List Event) (e : Event) (waiting : List Cue) (hwaiting : Core.tells e = some waiting)
      (hsplit : mid ++ .drained :: post = before ++ e :: after) (hbefore : Undisturbed before) : Accounted before waiting := by
    refine explained_iff.mp h.told (pre ++ .started id :: before) e after ?_ waiting hwaiting before
      (session_of_started hbefore) hbefore
    rw [List.append_assoc, List.cons_append, ← hsplit]
    exact htrace
  have haccounted : Accounted mid [] := htold mid post .drained [] rfl rfl hquiet
  have hall : (writtenCues mid ++ droppedCues mid).Perm (poppedCues mid) := by
    unfold Accounted at haccounted
    rwa [List.append_nil] at haccounted
  have hnodup : (poppedCues mid).Nodup := by
    have hnodup := (popsOnce_run config engine translator rounds).nodup
    change (poppedCues (roundsRun config engine translator rounds).trace).Nodup at hnodup
    rw [htrace] at hnodup
    refine hnodup.sublist (List.Sublist.filterMap _ ?_)
    exact ((List.sublist_append_left mid _).cons _).trans (List.sublist_append_right pre _)
  refine ⟨hall, hall.nodup_iff.mpr hnodup, ?_⟩
  rintro before waiting after rfl
  exact htold before (after ++ .drained :: post) (.invalidated (.translateCtrl waiting)) waiting rfl (by simp)
    fun e he => hquiet e (List.mem_append_left _ he)

def Event.isDrained : Event → Bool
  | .drained => true
  | _ => false

theorem exists_session {history : List Event} (i k : Nat) (hi : (history[i]?).any Event.isStarted = true)
    (hk : ((history.drop (i + 1))[k]?).any Event.isDrained = true) :
    ∃ pre id post, history = pre ++ .started id :: ((history.drop (i + 1)).take k ++ .drained :: post) := by
  obtain ⟨e, he, hstarted⟩ := (Option.any_eq_true _ _).mp hi
  obtain ⟨x, hx, hdrained⟩ := (Option.any_eq_true _ _).mp hk
  obtain ⟨hlt, hget⟩ := List.getElem?_eq_some_iff.mp he
  obtain ⟨hlt', hget'⟩ := List.getElem?_eq_some_iff.mp hx
  cases e with
  | started id =>
    cases x with
    | drained =>
      refine ⟨history.take i, id, (history.drop (i + 1)).drop (k + 1), ?_⟩
      rw [← hget', List.getElem_cons_drop, List.take_append_drop, ← hget, List.getElem_cons_drop, List.take_append_drop]
    | _ => cases hdrained
  | _ => cases hstarted

/-- The client stops the session. -/
def stopRound (env : Env) : Env × Option Frame :=
  (env, some (QueueLog.frameOf (.stopSession ⟨.zero _, ctrlReasonUserStop⟩)))

theorem cues_conserved_stop :
    (poppedCues (((roundsRun downloader true true (crowdRounds 3 ++ [stopRound .translating])).trace.drop 4).take 13)).length = 3 ∧
      Conserved (((roundsRun downloader true true (crowdRounds 3 ++ [stopRound .translating])).trace.drop 4).take 13) := by
  refine ⟨by decide +kernel, ?_⟩
  obtain ⟨pre, id, post, htrace⟩ := @exists_session (roundsRun downloader true true
    (crowdRounds 3 ++ [stopRound .translating])).trace 3 13 (by decide +kernel) (by decide +kernel)
  exact cues_conserved downloader true true _ (by decide +kernel) pre _ post id htrace (by decide +kernel)

/-- The settings change while a cue waits for its translation. -/
def changedRounds : List (Env × Option Frame) :=
  crowdRounds 1 ++
    [(.quiet, some (QueueLog.frameOf (.translateCtrl ⟨.zero _, 1, .ofStr _ (ascii "en"), .ofStr _ (ascii "de"), 1⟩))),
      stopRound .quiet]

theorem not_cues_conserved :
    ¬ ∀ (config : Config) (engine translator : Bool) (rounds : List (Env × Option Frame)) (pre mid post : List Event)
      (id : SessionId), (roundsRun config engine translator rounds).trace = pre ++ .started id :: (mid ++ .drained :: post) →
      Undisturbed mid → ∀ cue ∈ poppedCues mid, cue ∈ writtenCues mid := by
  intro h
  obtain ⟨pre, id, post, htrace⟩ :=
    @exists_session (roundsRun downloader true true changedRounds).trace 3 7 (by decide +kernel) (by decide +kernel)
  have hwritten := h downloader true true changedRounds pre _ post id htrace (by decide +kernel)
  have hcue : (poppedCues (((roundsRun downloader true true changedRounds).trace.drop 4).take 7)).length = 1 := by
    decide +kernel
  have hnone : (writtenCues (((roundsRun downloader true true changedRounds).trace.drop 4).take 7)).length = 0 := by
    decide +kernel
  obtain ⟨cue, hcue⟩ := List.length_eq_one_iff.mp hcue
  have hmem := hwritten cue (by rw [hcue]; exact List.mem_singleton_self cue)
  rw [List.length_eq_zero_iff.mp hnone] at hmem
  cases hmem

end VlcWhisper.Worker
