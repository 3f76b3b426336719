import VlcWhisper.Worker.LoopSteps

/-!
# Captions belong to the session whose audio they were heard in

A sample carries the session whose audio it is. What is heard in a window of samples stays with that session in the
builder's queue, in the translator and on the wire: `Inv` says so of everything the worker holds, `inv_step` that no
step breaks it.

Main result: `attributed`, for every run of the main loop.
-/

namespace VlcWhisper.Worker

open VlcWhisper.Lib VlcWhisper.Protocol SegmentBuilder Relation

/-! ## What the translator holds -/

namespace TranslateAsync

variable {p : Origin → Prop}

/-- All cues that the translator holds, of whatever epoch. -/
structure All (p : Origin → Prop) (s : TranslateAsync) : Prop where
  jobs : ∀ j ∈ s.jobs.toList, p j.segment.origin
  inflight : ∀ j ∈ s.inflight, p j.segment.origin
  results : ∀ c ∈ s.results.toList, p c.result.segment.origin

theorem all_create : create.All p := ⟨by simp [create], by simp [create], by simp [create]⟩

theorem All.mono {q : Origin → Prop} {s : TranslateAsync} (h : s.All p) (hpq : ∀ o, p o → q o) : s.All q :=
  ⟨fun j hj => hpq _ (h.jobs j hj), fun j hj => hpq _ (h.inflight j hj), fun c hc => hpq _ (h.results c hc)⟩

theorem all_pushResult {s : TranslateAsync} (h : s.All p) (ordinal : Nat) {r : TranslateResult}
    (hr : p r.segment.origin) : (s.pushResult ordinal r).All p := by
  rw [pushResult]
  split
  · refine ⟨h.jobs, h.inflight, ?_⟩
    intro c hc
    simp only [Ring.toList_push, List.mem_append, List.mem_singleton] at hc
    rcases hc with hc | rfl
    · exact h.results c hc
    · exact hr
  · exact h

theorem all_take {s : TranslateAsync} (h : s.All p) : s.take.All p := by
  rw [take]
  split
  · split
    · exact h
    · rename_i j jobs hpop
      have hlist := Ring.toList_of_pop_eq_some hpop
      refine ⟨fun k hk => h.jobs k (by simp [hlist, hk]), ?_, h.results⟩
      intro k hk
      rcases List.mem_append.mp hk with hk | hk
      · exact h.inflight k hk
      · exact h.jobs k (by simp [hlist, List.mem_singleton.mp hk])
  · exact h

theorem all_complete {s : TranslateAsync} (h : s.All p) (i : Nat) (o : Outcome) : (s.complete i o).All p := by
  rw [complete]
  split
  · exact h
  rename_i j hj
  have hkey : p (bindResultText (translateJob j o)).segment.origin := by
    rw [bindResultText_origin, translateJob_origin]
    exact h.inflight j (List.mem_of_getElem? hj)
  have hleave {t : TranslateAsync} (ht : t.All p) : ({ t with inflight := t.inflight.eraseIdx i } : TranslateAsync).All p :=
    ⟨ht.jobs, fun k hk => ht.inflight k (List.mem_of_mem_eraseIdx hk), ht.results⟩
  have hcount (n : Nat) : ({ s with activeTranslationCount := n } : TranslateAsync).All p := ⟨h.jobs, h.inflight, h.results⟩
  dsimp only
  apply hleave
  split
  · split
    · exact all_pushResult (hcount _) _ hkey
    · exact hcount _
  · split
    · exact all_pushResult h _ hkey
    · exact h

theorem all_threadStep {s : TranslateAsync} (h : s.All p) (t : ThreadStep) : (s.threadStep t).All p := by
  cases t with
  | take => exact all_take h
  | complete i o => exact all_complete h i o

theorem all_invalidate {s : TranslateAsync} (h : s.All p) : s.invalidate.All p :=
  ⟨by simp [invalidate], h.inflight, by simp [invalidate]⟩

theorem all_evictOldest {s : TranslateAsync} (h : s.All p) : s.evictOldest.All p := by
  rw [evictOldest]
  split
  · exact h
  split
  · exact h
  · rename_i j jobs hpop
    have hlist := Ring.toList_of_pop_eq_some hpop
    refine all_pushResult ?_ _ ?_
    · exact ⟨fun k hk => h.jobs k (hlist ▸ List.mem_cons_of_mem j hk), h.inflight, h.results⟩
    · rw [bindResultText_origin]
      exact h.jobs j (by simp [hlist])

theorem all_submit {s : TranslateAsync} (h : s.All p) {c : Caption} (hc : p c.origin) (sourceLang targetLang : Bytes) :
    (s.submit c sourceLang targetLang).1.All p := by
  rw [submit]
  split
  · exact h
  split
  · exact h
  split
  · exact h
  · have hevict := all_evictOldest h
    refine ⟨?_, hevict.inflight, hevict.results⟩
    intro j hj
    simp only [Ring.toList_push, List.mem_append, List.mem_singleton] at hj
    rcases hj with hj | rfl
    · exact hevict.jobs j hj
    · exact hc

theorem all_tryDeliver {s : TranslateAsync} (h : s.All p) :
    s.tryDeliver.1.All p ∧ ∀ r, s.tryDeliver.2 = some r → p r.segment.origin := by
  rw [tryDeliver]
  split
  · exact ⟨h, by simp⟩
  rename_i i hi
  have hmem : s.results.get i ∈ s.results.toList :=
    List.mem_map_of_mem (f := s.results.get) (List.mem_range.mpr i.isLt)
  have hremove : (s.removeResult i).All p := by
    refine ⟨h.jobs, h.inflight, ?_⟩
    intro c hc
    rw [removeResult, Ring.toList_removeAt] at hc
    exact h.results c (List.mem_of_mem_eraseIdx hc)
  split
  · exact ⟨hremove, by simp⟩
  · refine ⟨hremove, ?_⟩
    rintro r hr
    obtain rfl := Option.some.inj hr
    rw [bindResultText_origin]
    exact h.results _ hmem

end TranslateAsync

/-! ## Histories -/

/-- The session that was started last. -/
def current (trace : List Event) : Option SessionId :=
  trace.foldl (fun last e => match e with | .started id => some id | _ => last) none

/-- The cue was heard in audio of the session only. -/
def HeardIn (trace : List Event) (id : SessionId) (cue : Cue) : Prop :=
  ∃ window cues, .heard window cues ∈ trace ∧ cue ∈ cues ∧ ∀ t ∈ window, t = id

/-- What the events before it say about an event: a window is audio of the current session, a caption was heard in audio
of the session that it names. -/
def Event.Justified (before : List Event) : Event → Prop
  | .heard window _ => window ≠ [] ∧ ∃ id, current before = some id ∧ ∀ t ∈ window, t = id
  | .caption _ c => HeardIn before c.sessionId c.cue
  | _ => True

def Event.cues : Event → List Cue
  | .heard _ cues => cues
  | _ => []

/-- The cues that were heard. -/
def heardCues (trace : List Event) : List Cue := trace.flatMap Event.cues

/-- Neither a session starts nor is anything heard. -/
def Event.isPlain : Event → Bool
  | .started _ => false
  | .heard _ _ => false
  | _ => true

theorem HeardIn.mono {trace : List Event} {id : SessionId} {cue : Cue} (h : HeardIn trace id cue) (later : List Event) :
    HeardIn (trace ++ later) id cue := by
  obtain ⟨window, cues, hmem, hcue, htags⟩ := h
  exact ⟨window, cues, List.mem_append_left _ hmem, hcue, htags⟩

theorem current_append_plain {trace later : List Event} (h : ∀ e ∈ later, e.isPlain = true) :
    current (trace ++ later) = current trace := by
  induction later generalizing trace with
  | nil => rw [List.append_nil]
  | cons e later ih =>
    have he := h e (by simp)
    rw [List.append_cons, ih fun x hx => h x (by simp [hx]), current, List.foldl_append]
    cases e <;> first | rfl | cases he

theorem heardCues_append_plain {trace later : List Event} (h : ∀ e ∈ later, e.isPlain = true) :
    heardCues (trace ++ later) = heardCues trace := by
  have hnil : heardCues later = [] := by
    rw [heardCues, List.flatMap_eq_nil_iff]
    intro e he
    have := h e he
    cases e <;> first | rfl | cases this
  rw [heardCues, List.flatMap_append]
  exact (congrArg _ hnil).trans (List.append_nil _)

/-- A cue is heard once. -/
theorem heard_unique {trace : List Event} (h : ((heardCues trace).map Cue.segmentId).Pairwise (· < ·))
    {window window' : List SessionId} {cues cues' : List Cue} {cue : Cue} (hmem : .heard window cues ∈ trace)
    (hmem' : .heard window' cues' ∈ trace) (hcue : cue ∈ cues) (hcue' : cue ∈ cues') : window = window' := by
  obtain ⟨pre, post, rfl⟩ := List.append_of_mem hmem
  simp only [heardCues, List.flatMap_append, List.flatMap_cons, List.map_append, List.pairwise_append,
    List.mem_map, List.mem_append] at h
  have hid {l : List Event} (hl : .heard window' cues' ∈ l) : ∃ a ∈ heardCues l, a.segmentId = cue.segmentId :=
    ⟨cue, List.mem_flatMap.mpr ⟨.heard window' cues', hl, hcue'⟩, rfl⟩
  rcases List.mem_append.mp hmem' with hpre | hpost
  · have hlt := h.2.2 _ (hid hpre) _ (.inl ⟨cue, hcue, rfl⟩)
    omega
  rcases List.mem_cons.mp hpost with heq | hpost
  · exact (Event.heard.inj heq).1.symm
  · have hlt := h.2.1.2.2 _ ⟨cue, hcue, rfl⟩ _ (hid hpost)
    omega

/-! ## The invariant -/

namespace Core

/-- All that the worker holds is the current session's, but the translations under way, which know their own. -/
structure Inv (c : Core) : Prop where
  session : ∀ id, current c.trace = some id → id = c.sessionId
  idle : current c.trace = none → c.sessionActive = false ∧ c.buffer = [] ∧ c.decoder = none
  buffer : ∀ t ∈ c.buffer, t = c.sessionId
  decoder : ∀ t, c.decoder = some t → t = c.sessionId
  queue : ∀ cue ∈ c.builder.queue.toList, HeardIn c.trace c.sessionId cue
  held : ∀ t, c.translator = some t → t.All fun o => HeardIn c.trace o.1 o.2
  explained : Explained Event.Justified c.trace
  ids : ((heardCues c.trace).map Cue.segmentId).Pairwise (· < ·)
  next : ∀ cue ∈ heardCues c.trace, cue.segmentId < c.builder.nextSegmentId

theorem Inv.record {c : Core} (h : c.Inv) {events : List Event} (hplain : ∀ e ∈ events, e.isPlain = true)
    (hcaption : ∀ sequence x, .caption sequence x ∈ events → HeardIn c.trace x.sessionId x.cue) :
    (c.record events).Inv where
  session := by
    rw [Core.record, current_append_plain hplain]
    exact h.session
  idle := by
    rw [Core.record, current_append_plain hplain]
    exact h.idle
  buffer := h.buffer
  decoder := h.decoder
  queue := fun cue hcue => (h.queue cue hcue).mono events
  held := fun t ht => (h.held t ht).mono fun _ ho => ho.mono events
  explained := by
    refine explained_append.mpr ⟨h.explained, along_iff.mpr ?_⟩
    rintro pre e post heq
    rw [run_snoc]
    have hmem : e ∈ events := heq ▸ by simp
    cases e with
    | caption sequence x => exact (hcaption sequence x hmem).mono pre
    | heard => cases hplain _ hmem
    | _ => trivial
  ids := by
    rw [Core.record, heardCues_append_plain hplain]
    exact h.ids
  next := by
    rw [Core.record, heardCues_append_plain hplain]
    exact h.next

theorem Inv.record_one {c : Core} (h : c.Inv) {e : Event} (hplain : e.isPlain = true)
    (hcaption : ∀ sequence x, e ≠ .caption sequence x) : (c.record [e]).Inv := by
  refine h.record (fun x hx => List.mem_singleton.mp hx ▸ hplain) ?_
  intro sequence x hx
  exact absurd (List.mem_singleton.mp hx).symm (hcaption sequence x)

theorem Inv.set_translator {c : Core} (h : c.Inv) {translator : Option TranslateAsync}
    (hall : ∀ t, translator = some t → t.All fun o => HeardIn c.trace o.1 o.2) :
    ({ c with translator := translator } : Core).Inv :=
  ⟨h.session, h.idle, h.buffer, h.decoder, h.queue, hall, h.explained, h.ids, h.next⟩

theorem Inv.map_translator {c : Core} (h : c.Inv) {f : TranslateAsync → TranslateAsync}
    (hf : ∀ t, t.All (fun o => HeardIn c.trace o.1 o.2) → (f t).All fun o => HeardIn c.trace o.1 o.2) :
    ({ c with translator := c.translator.map f } : Core).Inv := by
  refine h.set_translator ?_
  intro t ht
  obtain ⟨u, hu, rfl⟩ := Option.map_eq_some_iff.mp ht
  exact hf u (h.held u hu)

theorem Inv.set_builder {c : Core} (h : c.Inv) {b : SegmentBuilder}
    (hqueue : ∀ cue ∈ b.queue.toList, HeardIn c.trace c.sessionId cue)
    (hnext : b.nextSegmentId = c.builder.nextSegmentId) : ({ c with builder := b } : Core).Inv :=
  ⟨h.session, h.idle, h.buffer, h.decoder, hqueue, h.held, h.explained, h.ids, hnext ▸ h.next⟩

theorem Inv.pop {c : Core} (h : c.Inv) {cue : Cue} {b : SegmentBuilder} (hpop : c.builder.pop = some (cue, b)) :
    (({ c with builder := b } : Core).record [.popped cue]).Inv ∧
      HeardIn (c.trace ++ [.popped cue]) c.sessionId cue := by
  rw [SegmentBuilder.pop] at hpop
  split at hpop
  · cases hpop
  · rename_i queue hqueue
    obtain ⟨rfl, rfl⟩ := Prod.mk.inj (Option.some.inj hpop)
    have hlist := Ring.toList_of_pop_eq_some hqueue
    refine ⟨Inv.record_one ?_ rfl (by simp), (h.queue _ (by simp [hlist])).mono _⟩
    exact h.set_builder (fun x hx => h.queue x (by simp [hlist, show x ∈ queue.toList from hx])) rfl

theorem Inv.send {c : Core} (h : c.Inv) {before : List Event} {last : Event} {o : Origin}
    (hbefore : ∀ e ∈ before, e.isQuiet = true) (hlast : last.Sends o) (ho : HeardIn c.trace o.1 o.2) :
    (c.record (before ++ [last])).Inv := by
  refine h.record ?_ ?_
  · intro e he
    rcases List.mem_append.mp he with he | he
    · have := hbefore e he
      cases e <;> first | rfl | cases this
    · obtain rfl := List.mem_singleton.mp he
      cases e <;> first | rfl | cases hlast
  · intro sequence x hx
    rcases List.mem_append.mp hx with hx | hx
    · exact nomatch hbefore _ hx
    · obtain rfl := List.mem_singleton.mp hx
      obtain rfl : x.origin = o := hlast
      exact ho

/-- A window of the current session is transcribed. -/
theorem Inv.hear {c : Core} (h : c.Inv) {window : List SessionId} {cues : List Cue} {b : SegmentBuilder}
    (hne : window ≠ []) (hsub : ∀ t ∈ window, t ∈ c.buffer) (hheard : Heard c.builder cues b) :
    (({ c with builder := b } : Core).record [.heard window cues]).Inv := by
  have htags : ∀ t ∈ window, t = c.sessionId := fun t ht => h.buffer t (hsub t ht)
  have hcurrent : current c.trace = some c.sessionId := by
    cases hcur : current c.trace with
    | some id => rw [h.session id hcur]
    | none =>
      obtain ⟨t, ht⟩ := List.exists_mem_of_ne_nil _ hne
      have hbuf := hsub t ht
      rw [(h.idle hcur).2.1] at hbuf
      cases hbuf
  have hkeep : current (c.trace ++ [.heard window cues]) = current c.trace := by
    rw [current, List.foldl_append]
    rfl
  have hcues : heardCues (c.trace ++ [.heard window cues]) = heardCues c.trace ++ cues := by
    simp [heardCues, Event.cues]
  have hids : ∀ cue ∈ cues, c.builder.nextSegmentId ≤ cue.segmentId ∧ cue.segmentId < b.nextSegmentId := by
    intro cue hcue
    have hmem : cue.segmentId ∈ List.range' c.builder.nextSegmentId cues.length :=
      hheard.ids ▸ List.mem_map_of_mem hcue
    rw [List.mem_range'_1] at hmem
    rw [hheard.next]
    exact hmem
  have hnew : ∀ cue ∈ cues, HeardIn (c.trace ++ [.heard window cues]) c.sessionId cue :=
    fun cue hcue => ⟨window, cues, by simp, hcue, htags⟩
  refine ⟨?_, ?_, h.buffer, h.decoder, ?_, ?_, ?_, ?_, ?_⟩
  · exact fun id hid => h.session id (hkeep ▸ hid)
  · exact fun hid => h.idle (hkeep ▸ hid)
  · intro cue hcue
    rw [Core.record, hheard.queue] at hcue
    rcases List.mem_append.mp hcue with hcue | hcue
    · exact (h.queue cue hcue).mono _
    · exact hnew cue hcue
  · exact fun t ht => (h.held t ht).mono fun _ ho => ho.mono _
  · refine explained_append.mpr ⟨h.explained, ⟨hne, c.sessionId, hcurrent, htags⟩, trivial⟩
  · rw [Core.record, hcues, List.map_append, List.pairwise_append, hheard.ids]
    refine ⟨h.ids, List.pairwise_lt_range', ?_⟩
    intro i hi j hj
    obtain ⟨cue, hcue, rfl⟩ := List.mem_map.mp hi
    exact (h.next cue hcue).trans_le (List.mem_range'_1.mp hj).1
  · rw [Core.record, hcues]
    intro cue hcue
    rcases List.mem_append.mp hcue with hcue | hcue
    · refine (h.next cue hcue).trans_le ?_
      rw [hheard.next]
      omega
    · exact (hids cue hcue).2

theorem Inv.start {c : Core} (h : c.Inv) (id : SessionId) :
    (({ c with sessionId := id, sessionActive := true, buffer := [], builder := c.builder.clear
               translator := c.translator.map TranslateAsync.invalidate
               decoder := none } : Core).record [.invalidated .start, .started id]).Inv := by
  have hcurrent : current (c.trace ++ [.invalidated .start, .started id]) = some id := by
    rw [current, List.foldl_append]
    rfl
  have hcues : heardCues (c.trace ++ [.invalidated .start, .started id]) = heardCues c.trace := by
    simp [heardCues, Event.cues]
  refine ⟨?_, ?_, by simp [Core.record], by simp [Core.record], ?_, ?_, ?_, ?_, ?_⟩
  · intro id' hid
    exact (Option.some.inj (hcurrent.symm.trans hid)).symm
  · intro hid
    exact absurd (hcurrent.symm.trans hid) (by simp)
  · intro cue hcue
    rw [Core.record, toList_clear_queue] at hcue
    cases hcue
  · intro t ht
    obtain ⟨u, hu, rfl⟩ := Option.map_eq_some_iff.mp ht
    exact (TranslateAsync.all_invalidate (h.held u hu)).mono fun _ ho => ho.mono _
  · exact explained_append.mpr ⟨h.explained, trivial, trivial, trivial⟩
  · rw [Core.record, hcues]
    exact h.ids
  · rw [Core.record, hcues]
    exact h.next

theorem inv_step (c d : Core) (h : c.Inv) (hstep : Step c d) : d.Inv := by
  cases hstep with
  | frame sequence p => exact h.record_one rfl (by simp)
  | buffer samples hsamples =>
    refine ⟨h.session, ?_, ?_, h.decoder, h.queue, h.held, h.explained, h.ids, h.next⟩
    · intro hcur
      obtain ⟨hactive, hbuffer, hdecoder⟩ := h.idle hcur
      refine ⟨hactive, ?_, hdecoder⟩
      rw [List.eq_nil_iff_forall_not_mem]
      intro t ht
      rcases hsamples t ht with hin | ⟨-, hact⟩ | hdec
      · rw [hbuffer] at hin
        cases hin
      · rw [hactive] at hact
        cases hact
      · rw [hdecoder] at hdec
        cases hdec
    · intro t ht
      rcases hsamples t ht with hin | ⟨rfl, -⟩ | hdec
      · exact h.buffer t hin
      · rfl
      · exact h.decoder t hdec
  | openSource hactive =>
    refine ⟨h.session, ?_, h.buffer, ?_, h.queue, h.held, h.explained, h.ids, h.next⟩
    · intro hcur
      rw [(h.idle hcur).1] at hactive
      cases hactive
    · exact fun t ht => (Option.some.inj ht).symm
  | closeSource =>
    refine ⟨h.session, ?_, h.buffer, by simp, h.queue, h.held, h.explained, h.ids, h.next⟩
    exact fun hcur => ⟨(h.idle hcur).1, (h.idle hcur).2.1, rfl⟩
  | clearBuilder b hqueue hnext => exact h.set_builder (by simp [hqueue]) hnext
  | hear window cues b hne hsub hheard => exact h.hear hne hsub hheard
  | invalidate why =>
    exact (h.map_translator fun _ => TranslateAsync.all_invalidate).record_one rfl (by simp)
  | configure enabled =>
    have hinv : ({ c with translateEnabled := enabled } : Core).Inv :=
      ⟨h.session, h.idle, h.buffer, h.decoder, h.queue, h.held, h.explained, h.ids, h.next⟩
    exact (hinv.map_translator fun _ => TranslateAsync.all_invalidate).record_one rfl (by simp)
  | start id => exact h.start id
  | stop =>
    have hinv : ({ c with sessionActive := false } : Core).Inv :=
      ⟨h.session, fun hcur => ⟨rfl, (h.idle hcur).2⟩, h.buffer, h.decoder, h.queue, h.held, h.explained, h.ids,
        h.next⟩
    exact hinv.record_one rfl (by simp)
  | thread s => exact h.map_translator fun _ ht => TranslateAsync.all_threadStep ht s
  | submit cue b t sourceLang targetLang hpop henabled ht haccepted =>
    obtain ⟨hpopped, hheard⟩ := h.pop hpop
    have hheld := TranslateAsync.all_submit (c := popped c.sessionId cue) (hpopped.held t ht) hheard sourceLang targetLang
    refine Inv.record_one ?_ rfl (by simp)
    exact hpopped.set_translator fun u hu => Option.some.inj hu ▸ hheld
  | emit cue b before last hpop hbefore hlast _ =>
    obtain ⟨hpopped, hheard⟩ := h.pop hpop
    exact hpopped.send hbefore hlast hheard
  | deliver t r before last ht hr _ _ hbefore hlast =>
    obtain ⟨hall, hresult⟩ := TranslateAsync.all_tryDeliver (h.held t ht)
    refine Inv.send ?_ hbefore hlast (hresult r hr)
    exact h.set_translator fun u hu => Option.some.inj hu ▸ hall
  | discard t ht _ =>
    exact h.set_translator fun u hu => Option.some.inj hu ▸ (TranslateAsync.all_tryDeliver (h.held t ht)).1
  | drained _ => exact h.record_one rfl (by simp)

end Core

/-! ## Runs -/

theorem inv_start (engine translator : Bool) : (WorkerState.start engine translator).core.Inv where
  session := by simp [WorkerState.core, WorkerState.start, current]
  idle := fun _ => ⟨rfl, rfl, rfl⟩
  buffer := fun t ht => nomatch (show t ∈ ([] : List SessionId) from ht)
  decoder := fun t ht => nomatch (show (none : Option SessionId) = some t from ht)
  queue := fun cue hcue => nomatch (show cue ∈ ([] : List Cue) from hcue)
  held := by
    intro t ht
    cases translator with
    | false => cases ht
    | true =>
      obtain rfl := Option.some.inj ht
      exact TranslateAsync.all_create
  explained := trivial
  ids := .nil
  next := fun cue hcue => nomatch (show cue ∈ ([] : List Cue) from hcue)

/-- The run of the main loop over the frames it takes, `none` where something else woke it. -/
abbrev workerRun (env : Env) (config : Config) (engine translator : Bool) (frames : List (Option Frame)) :
    WorkerState :=
  run (WorkerState.step env config) (.start engine translator) frames

/-- Invariants of the core hold after every run. -/
theorem core_invariant {inv : Core → Prop} (hstep : ∀ c d, inv c → Core.Step c d → inv d) (env : Env)
    (config : Config) {w : WorkerState} (hw : inv w.core) (frames : List (Option Frame)) :
    inv (run (WorkerState.step env config) w frames).core := by
  have hround (v : WorkerState) (frame : Option Frame) (hv : inv v.core) : inv (v.step env config frame).core :=
    steps_invariant hstep (step_steps v frame) hv
  exact run_invariant' hround frames hw

/-- The captions of a history are attributed right: each was heard before, only in audio of the session that it names,
and never in audio of a session before that. -/
structure Attributed (trace : List Event) : Prop where
  heard : ∀ pre sequence x post, trace = pre ++ .caption sequence x :: post →
    ∃ window cues, .heard window cues ∈ pre ∧ x.cue ∈ cues
  session : ∀ sequence x window cues, .caption sequence x ∈ trace → .heard window cues ∈ trace → x.cue ∈ cues →
    window ≠ [] ∧ ∀ t ∈ window, t = x.payload.sessionId
  later : ∀ pre id post, trace = pre ++ .started id :: post → .started id ∉ pre →
    ∀ sequence x window cues, .caption sequence x ∈ trace → .heard window cues ∈ pre → x.cue ∈ cues →
      x.payload.sessionId ≠ id

theorem started_of_current {trace : List Event} {id : SessionId} (h : current trace = some id) : .started id ∈ trace := by
  induction trace using List.reverseRecOn with
  | nil => cases h
  | append_singleton trace e ih =>
    rw [current, List.foldl_append] at h
    cases e with
    | started id' =>
      obtain rfl : id' = id := Option.some.inj h
      simp
    | _ => exact List.mem_append_left _ (ih h)

theorem Core.Inv.attribution {c : Core} (h : c.Inv) : Attributed c.trace := by
  have hexplained := explained_iff.mp h.explained
  have hsession : ∀ sequence x window cues, .caption sequence x ∈ c.trace → .heard window cues ∈ c.trace →
      x.cue ∈ cues → window ≠ [] ∧ ∀ t ∈ window, t = x.payload.sessionId := by
    intro sequence x window cues hx hheard hcue
    obtain ⟨pre, post, hsplit⟩ := List.append_of_mem hx
    obtain ⟨window', cues', hmem', hcue', htags⟩ := hexplained _ _ _ hsplit
    obtain rfl := heard_unique h.ids hheard (hsplit ▸ List.mem_append_left _ hmem') hcue hcue'
    obtain ⟨pre', post', hsplit'⟩ := List.append_of_mem hheard
    exact ⟨(hexplained _ _ _ hsplit').1, htags⟩
  refine ⟨?_, hsession, ?_⟩
  · intro pre sequence x post hsplit
    obtain ⟨window, cues, hmem, hcue, -⟩ := hexplained _ _ _ hsplit
    exact ⟨window, cues, hmem, hcue⟩
  · intro pre id post hsplit hfresh sequence x window cues hx hheard hcue heq
    obtain ⟨hne, htags⟩ := hsession sequence x window cues hx (hsplit ▸ List.mem_append_left _ hheard) hcue
    obtain ⟨t, ht⟩ := List.exists_mem_of_ne_nil _ hne
    obtain ⟨pre', post', rfl⟩ := List.append_of_mem hheard
    -- the window's session was started before the window was heard
    obtain ⟨-, id', hcur, htags'⟩ := hexplained pre' (.heard window cues) (post' ++ .started id :: post) (by simp [hsplit])
    obtain rfl : id' = id := by rw [← htags' t ht, htags t ht, heq]
    exact hfresh (List.mem_append_left _ (started_of_current hcur))

/-- **Attribution.** In every run, whatever the frames, the transcriptions and the translations, every caption belongs to
the session whose audio it was heard in. -/
theorem attributed (env : Env) (config : Config) (engine translator : Bool) (frames : List (Option Frame)) :
    Attributed (workerRun env config engine translator frames).trace :=
  (core_invariant Core.inv_step env config (inv_start engine translator) frames).attribution

end VlcWhisper.Worker
