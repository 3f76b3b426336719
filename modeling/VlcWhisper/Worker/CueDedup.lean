import VlcWhisper.Worker.CueOrder

/-!
# What deduplication drops (`vw_segment_builder.c`)

A hypothesis is compared with the pending cue and with the committed history, newest entry first; the first of them that
decides drops it or is continued by it. The history holds copies of the last 16 accepted cues, whose texts end where
they are no valid UTF-8 any more.

Main results:

* `new_audio_kept`: a hypothesis from the frontier on is accepted exactly if no earlier cue swallows it.
* `dedup_complete`: an accepted cue repeats no overlapping entry exactly if it was not trimmed against an older one.
* `dedup_sound`: a hypothesis is only dropped as a repetition exactly if it is not lost to a copy that was cut, or for
  want of memory.
-/

namespace VlcWhisper.Worker

open VlcWhisper.Lib VlcWhisper.Protocol SegmentBuilder

/-- What the history keeps of a cue. -/
def Cue.stored (c : Cue) : HistoryEntry :=
  ⟨c.startPtsUs, c.endPtsUs, c.text.take (utf8SafeLen c.text (builderMaxTextBytes - 1))⟩

namespace Log

/-- The accepted cues. -/
def cues (s : Log) : List Cue := s.accepted.map Prod.snd

/-- The history is a copy of the last accepted cues, and no cue is empty. -/
structure Recalls (s : Log) : Prop where
  history : s.builder.history.toList = (s.cues.rtake historyCapacity).map Cue.stored
  text : ∀ c ∈ s.cues, c.text ≠ []

theorem recalls_start (b : SegmentBuilder) : (start b).Recalls where
  history := rfl
  text := nofun

theorem trimText_ne_nil {b : SegmentBuilder} {text : Bytes} {start stop : Int} (h : isCandidate b text start stop = true) :
    trimText text ≠ [] := by
  unfold isCandidate at h
  simp only [Bool.and_eq_true, bne_iff_ne] at h
  exact h.1.1.1.2

theorem text_of_accepts {mem : Site → Alloc} {b : SegmentBuilder} {text out : Bytes} {start stop start' : Int}
    (htext : text ≠ []) (h : Accepts mem b text start stop out start') : out ≠ [] := by
  cases h with
  | whole _ _ => exact htext
  | pending last _ htrims => exact htrims.2.1.rest
  | history newer e older htrims => exact htrims.trims.2.1.rest

theorem recalls_step {s : Log} (op : BuilderOp) (h : s.Recalls) : (s.step op).Recalls := by
  rcases step_cases s op with ⟨hacc, -, hhist, -⟩ | ⟨mem, text, start, stop, out, start', b', -, hcand, -, hacc, hemit, hs⟩
  · have hcues : (s.step op).cues = s.cues := congrArg (List.map Prod.snd) hacc
    refine ⟨?_, ?_⟩
    · rw [hhist, hcues]
      exact h.history
    · rw [hcues]
      exact h.text
  · have hcues : (s.step op).cues = s.cues ++ [⟨s.builder.nextSegmentId, start', stop, out⟩] := by
      rw [hs]
      exact List.map_append
    have hbuilder : (s.step op).builder = b' := by rw [hs]
    have hcount : s.builder.history.count = min historyCapacity s.cues.length := by
      have hlen := congrArg List.length h.history
      rw [Ring.length_toList, List.length_map, List.rtake, List.length_drop] at hlen
      omega
    refine ⟨?_, ?_⟩
    · rw [hbuilder, hcues, hemit.history, Ring.rtake_concat (by decide), h.history, List.map_append]
      congr 1
      by_cases hroom : s.cues.length < historyCapacity
      · rw [if_pos hroom, if_pos (by omega)]
      · rw [if_neg hroom, if_neg (by omega), List.map_tail]
    · rw [hcues]
      intro c hc
      rcases List.mem_append.mp hc with hc | hc
      · exact h.text c hc
      · rw [List.mem_singleton.mp hc]
        exact text_of_accepts (trimText_ne_nil hcand) hacc

/-- What is known of the state after any operations since a clear. -/
structure Known (s : Log) : Prop where
  inv : s.Inv
  recalls : s.Recalls

theorem known_run (b : SegmentBuilder) (ops : List BuilderOp) : (run step (start b) ops).Known :=
  run_invariant' (fun _ op h => ⟨step_inv op h.inv, recalls_step op h.recalls⟩) ops ⟨inv_start b, recalls_start b⟩

variable {s : Log}

theorem Known.history_cue (h : s.Known) {e : HistoryEntry} (he : e ∈ s.builder.history.newestFirst) :
    ∃ c ∈ s.cues, e = c.stored := by
  rw [Ring.newestFirst_eq, List.mem_reverse, h.recalls.history] at he
  obtain ⟨c, hc, rfl⟩ := List.mem_map.mp he
  exact ⟨c, List.mem_of_mem_drop hc, rfl⟩

theorem Known.last_cue (h : s.Known) {last : Cue} (hlast : s.builder.lastSegment = some last) : last ∈ s.cues := by
  have hmem : last ∈ s.builder.queue.toList := by
    rw [SegmentBuilder.lastSegment, Ring.newestFirst_eq, List.head?_reverse] at hlast
    exact List.mem_of_getLast? hlast
  have horder := h.inv.order
  show last ∈ s.accepted.map Prod.snd
  rw [← horder]
  exact List.mem_append_right _ hmem

theorem Known.cue_bounds (h : s.Known) {c : Cue} (hc : c ∈ s.cues) :
    c.startPtsUs < c.endPtsUs ∧ c.endPtsUs ≤ s.builder.coveredEndUs := by
  obtain ⟨a, ha, rfl⟩ := List.mem_map.mp hc
  exact ⟨h.inv.nonempty a ha, h.inv.le_covered ha⟩

theorem Known.newer_ends (h : s.Known) {newer older : List HistoryEntry} {e : HistoryEntry}
    (hsplit : s.builder.history.newestFirst = newer ++ e :: older) :
    (∀ x ∈ newer, e.endPtsUs < x.endPtsUs) ∧ ∀ x ∈ older, x.endPtsUs < e.endPtsUs := by
  have hends : (s.builder.history.toList.map HistoryEntry.endPtsUs).Pairwise (· < ·) :=
    h.inv.ends.sublist h.inv.history.sublist
  rw [Ring.newestFirst_eq, List.reverse_eq_iff] at hsplit
  rw [hsplit, List.pairwise_map, List.pairwise_reverse, List.pairwise_append, List.pairwise_cons] at hends
  obtain ⟨-, ⟨holder, -⟩, hnewer⟩ := hends
  exact ⟨fun x hx => hnewer x hx e List.mem_cons_self, holder⟩

/-! ## Completeness -/

/-- A trim against an entry leaves of the hypothesis what a newer entry says. -/
def LeavesRepetition (mem : Site → Alloc) (b : SegmentBuilder) (text : Bytes) (start stop : Int) : Prop :=
  ∃ newer e older, TrimsHistory mem b text start stop newer e older ∧
    ∃ x ∈ newer, contains x.text (remainder text e) = true

/-- **Dedup completeness.** The cue that a push emits is neither equal to nor contained in an entry of the history that it
overlaps, exactly if it is not what a trim against an older entry left. -/
theorem dedup_complete (b : SegmentBuilder) (ops : List BuilderOp) {mem : Site → Alloc} {text : Bytes} {start stop : Int}
    {b' : SegmentBuilder}
    (hpush : pushHypothesis mem (run step (Log.start b) ops).builder text start stop = (b', true)) :
    (∀ c, b'.lastSegment = some c → ∀ e ∈ (run step (Log.start b) ops).builder.history.toList,
        e.startPtsUs < c.endPtsUs → c.startPtsUs < e.endPtsUs → ¬ (c.text = e.text ∨ contains e.text c.text = true)) ↔
      ¬ LeavesRepetition mem (run step (Log.start b) ops).builder (trimText text) start stop := by
  have hknown := known_run b ops
  generalize run step (Log.start b) ops = s at hpush hknown
  obtain ⟨h, -⟩ | ⟨-, hcand, out, start', hlt, hacc, hemit⟩ := pushHypothesis_cases hpush
  · cases h
  have hpast := covered_lt_of_isCandidate hcand
  have hmem (e : HistoryEntry) : e ∈ s.builder.history.toList ↔ e ∈ s.builder.history.newestFirst := by
    rw [Ring.newestFirst_eq, List.mem_reverse]
  have hbounds {e : HistoryEntry} (he : e ∈ s.builder.history.newestFirst) :
      e.startPtsUs < e.endPtsUs ∧ e.endPtsUs ≤ s.builder.coveredEndUs := by
    obtain ⟨c, hc, rfl⟩ := hknown.history_cue he
    exact hknown.cue_bounds hc
  constructor
  · rintro hall ⟨newer, e, older, htrims, x, hx, hrepeats⟩
    have hx' : x ∈ s.builder.history.newestFirst := by
      rw [htrims.split]
      exact List.mem_append_left _ hx
    have hcue := lastSegment_of_emitted (emitted_of_accepts hpush (.history newer e older htrims))
    have hnewer := (hknown.newer_ends htrims.split).1 x hx
    have hx'' := hbounds hx'
    exact hall _ hcue x ((hmem x).mpr hx') (by dsimp only; omega) (by dsimp only; omega) (.inr hrepeats)
  · intro hnot c hc e he hbefore hafter hsays
    obtain rfl := Option.some.inj ((lastSegment_of_emitted hemit).symm.trans hc)
    have he' := hbounds ((hmem e).mp he)
    have hpart : contains e.text out = true := by
      rcases hsays with hsame | hpart
      · rw [show out = e.text from hsame]
        exact contains_iff.mpr List.infix_rfl
      · exact hpart
    dsimp only at hafter
    -- the cue starts at the frontier, unless it was trimmed against an older entry
    cases hacc with
    | whole _ _ =>
      rw [emitStart] at hafter
      split at hafter <;> omega
    | pending last hlast _ =>
      have hend := hknown.inv.lastSegment hlast
      omega
    | history newer x older htrims =>
      obtain ⟨hnewer, holder⟩ := hknown.newer_ends htrims.split
      have he'' := (hmem e).mp he
      rw [htrims.split] at he''
      rcases List.mem_append.mp he'' with he'' | he''
      · exact hnot ⟨newer, x, older, htrims, e, he'', hpart⟩
      · rcases List.mem_cons.mp he'' with rfl | he''
        · omega
        · have hless := holder e he''
          omega

/-- Between the two texts of the last hypothesis, which its trim joins, "Bob was" is already shown. -/
def repeatedRest : List BuilderOp :=
  [.push plenty (ascii "we went to the big market") 0 4000000, .push plenty (ascii "then Bob was there") 4000000 6000000]

theorem dedup_complete_next :
    (∀ c, (pushHypothesis plenty (run step (start create) repeatedRest).builder (ascii "then Bob was there again")
        5000000 7000000).1.lastSegment = some c →
      ∀ e ∈ (run step (start create) repeatedRest).builder.history.toList,
        e.startPtsUs < c.endPtsUs → c.startPtsUs < e.endPtsUs → ¬ (c.text = e.text ∨ contains e.text c.text = true)) ↔
      ¬ LeavesRepetition plenty (run step (start create) repeatedRest).builder
        (trimText (ascii "then Bob was there again")) 5000000 7000000 :=
  dedup_complete create repeatedRest (Prod.ext rfl (by decide +kernel))

theorem not_dedup_complete :
    ¬ ∀ (b : SegmentBuilder) (ops : List BuilderOp) (mem : Site → Alloc) (text : Bytes) (start stop : Int)
      (b' : SegmentBuilder), pushHypothesis mem (run step (Log.start b) ops).builder text start stop = (b', true) →
      ∀ c, b'.lastSegment = some c → ∀ e ∈ (run step (Log.start b) ops).builder.history.toList,
        e.startPtsUs < c.endPtsUs → c.startPtsUs < e.endPtsUs →
          ¬ (c.text = e.text ∨ contains e.text c.text = true) := by
  intro h
  have hbob := h create repeatedRest plenty (ascii "the big market Bob was") 3900000 7000000 _
    (Prod.ext rfl (by decide +kernel)) ⟨3, 4000000, 7000000, ascii "Bob was"⟩ (by decide +kernel)
    ⟨4000000, 6000000, ascii "then Bob was there"⟩ (by decide +kernel) (by decide) (by decide)
  exact hbob (.inr (by decide +kernel))

/-! ## New audio -/

/-- A hypothesis from the entry's end on starts within the tolerance of its start. -/
def StartsClose (start : Int) (e : HistoryEntry) : Prop := start ≤ e.startPtsUs + dedupToleranceUs

/-- And within the tolerance of its end. -/
def EndsClose (start : Int) (e : HistoryEntry) : Prop := start ≤ e.endPtsUs + dedupToleranceUs

instance (start : Int) (e : HistoryEntry) : Decidable (StartsClose start e) := by
  unfold StartsClose
  infer_instance

/-- The hypothesis says nothing that the entry does not say. -/
def Swallows (text : Bytes) (start : Int) (e : HistoryEntry) : Prop :=
  (StartsClose start e ∧ contains e.text text = true) ∨
    (EndsClose start e ∧ tailPrefixLen e.text text = text.length) ∨
    (StartsClose start e ∧ tailPrefixLen e.text text = 0 ∧ contains text e.text = true)

/-- The hypothesis begins with what the entry ends with, and goes on. -/
def Continues (text : Bytes) (start : Int) (e : HistoryEntry) : Prop :=
  EndsClose start e ∧ tailPrefixLen e.text text ≠ 0 ∧ tailPrefixLen e.text text ≠ text.length ∧
    ¬ (StartsClose start e ∧ contains e.text text = true)

/-- One of the entries swallows the hypothesis, and it continues none of those before. -/
def SwallowedBy (text : Bytes) (start : Int) : List HistoryEntry → Prop
  | [] => False
  | e :: older => Swallows text start e ∨ (¬ Continues text start e ∧ SwallowedBy text start older)

/-- What a hypothesis from the frontier on is compared with: the pending cue and what began just before. -/
def earlier (b : SegmentBuilder) (start : Int) : List HistoryEntry :=
  (b.lastSegment.map Cue.entry).toList ++ b.history.newestFirst.filter (StartsClose start ·)

/-- An entry that is over when the hypothesis starts. -/
structure Over (start : Int) (e : HistoryEntry) : Prop where
  nonempty : e.startPtsUs < e.endPtsUs
  le : e.endPtsUs ≤ start

variable {text : Bytes} {start stop : Int} {e : HistoryEntry}

theorem timeMatches_over (stop : Int) (h : Over start e) : timeMatches start stop e = true ↔ StartsClose start e := by
  have hnonempty := h.nonempty
  have hle := h.le
  simp only [timeMatches, StartsClose, Bool.or_eq_true, Bool.and_eq_true, decide_eq_true_eq]
  split <;> omega

theorem nearCue_over (stop : Int) (h : Over start e) : nearCue start stop e = true ↔ EndsClose start e := by
  have hnonempty := h.nonempty
  have hle := h.le
  simp only [nearCue, EndsClose, Bool.or_eq_true, Bool.and_eq_true, decide_eq_true_eq]
  simp only [dedupToleranceUs]
  omega

theorem endsClose_of_startsClose (h : Over start e) (hclose : StartsClose start e) : EndsClose start e := by
  have hnonempty := h.nonempty
  simp only [StartsClose, EndsClose, dedupToleranceUs] at hclose ⊢
  omega

theorem tailPrefixLen_le (cue cand : Bytes) : tailPrefixLen cue cand ≤ cand.length := by
  by_cases h : longestOverlap cue cand cand.length = 0
  · rw [tailPrefixLen, h]
    exact Nat.zero_le _
  · exact (longestOverlap_spec h).1

theorem remainder_ne_nil {raw : Bytes} (h : tailPrefixLen e.text (trimText raw) ≠ (trimText raw).length) :
    remainder (trimText raw) e ≠ [] := by
  intro hnil
  have hle := tailPrefixLen_le e.text (trimText raw)
  rw [remainder, List.dropWhile_eq_nil_iff] at hnil
  generalize tailPrefixLen e.text (trimText raw) = m at h hle hnil
  have hne : trimText raw ≠ [] := by
    intro h0
    rw [h0, List.length_nil] at h hle
    omega
  have hlast := List.rdropWhile_last_not isWhitespace (raw.dropWhile isWhitespace) hne
  have hdrop : (trimText raw).drop m ≠ [] := by
    rw [ne_eq, List.drop_eq_nil_iff]
    omega
  have hmem := List.getLast_mem hdrop
  rw [List.getLast_drop] at hmem
  exact hlast (hnil _ hmem)

/-! ### One entry -/

section

variable {raw : Bytes} {b : SegmentBuilder}

theorem hasTrimRoom_plenty (site : Site) : hasTrimRoom (plenty site) b = true := by
  simp [hasTrimRoom, hasRoom, plenty]

theorem trimsAgainst_iff (site : Site) (h : Over start e) (hstop : start < stop) :
    TrimsAgainst (plenty site) b (trimText raw) start stop e ↔ Continues (trimText raw) start e := by
  have htime := timeMatches_over stop h
  have hnear := nearCue_over stop h
  have hends : e.endPtsUs < stop := by
    have hle := h.le
    omega
  constructor
  · rintro ⟨htext, htrims, -⟩
    exact ⟨hnear.mp htrims.near, htrims.overlap, htrims.shorter, fun hc => htext ⟨htime.mpr hc.1, .inr hc.2⟩⟩
  · rintro ⟨hclose, hoverlap, hshorter, htext⟩
    refine ⟨?_, ⟨hnear.mpr hclose, hoverlap, hshorter, hends, remainder_ne_nil hshorter⟩, hasTrimRoom_plenty site⟩
    rintro ⟨htimes, hsame | hpart⟩
    · exact htext ⟨htime.mp htimes, contains_iff.mpr (hsame ▸ List.infix_rfl)⟩
    · exact htext ⟨htime.mp htimes, hpart⟩

theorem dedupAgainst_swallows (site : Site) (h : Over start e) (hne : trimText raw ≠ [])
    (hs : Swallows (trimText raw) start e) :
    dedupAgainst (plenty site) b (trimText raw) start stop e = some (b, false) := by
  have htime := timeMatches_over stop h
  have hnear := nearCue_over stop h
  unfold dedupAgainst
  split
  · rfl
  rename_i hfirst
  simp only [Bool.and_eq_true, Bool.or_eq_true, decide_eq_true_eq, not_and, not_or] at hfirst
  rcases hs with ⟨hclose, hpart⟩ | ⟨hclose, hwhole⟩ | ⟨hclose, hnone, hpart⟩
  · exact absurd hpart (hfirst (htime.mpr hclose)).2
  · have hlen : (trimText raw).length ≠ 0 := by simpa using hne
    have htrim : applyTailTrim (plenty site) b (trimText raw) start stop e = some (b, false) := by
      simp [applyTailTrim, hnear.mpr hclose, hwhole, hne]
    rw [htrim]
  · have htrim : applyTailTrim (plenty site) b (trimText raw) start stop e = none := by
      simp [applyTailTrim, hnone]
    rw [htrim]
    simp [htime.mpr hclose, hpart]

theorem dedupAgainst_passes (site : Site) (h : Over start e)
    (hs : ¬ Swallows (trimText raw) start e) (hc : ¬ Continues (trimText raw) start e) :
    dedupAgainst (plenty site) b (trimText raw) start stop e = none := by
  have htime := timeMatches_over stop h
  have hnear := nearCue_over stop h
  simp only [Swallows, not_or, not_and] at hs
  obtain ⟨hpart, hwhole, hmiddle⟩ := hs
  have hfirst : ¬ (StartsClose start e ∧ contains e.text (trimText raw) = true) := fun hb => hpart hb.1 hb.2
  have hnone : EndsClose start e → tailPrefixLen e.text (trimText raw) = 0 := by
    intro hclose
    by_contra hne
    exact hc ⟨hclose, hne, hwhole hclose, hfirst⟩
  have htrim : applyTailTrim (plenty site) b (trimText raw) start stop e = none := by
    rw [applyTailTrim]
    by_cases hclose : nearCue start stop e = true
    · rw [if_neg (by simp [hclose]), if_pos (hnone (hnear.mp hclose))]
    · rw [if_pos (by simpa using hclose)]
  unfold dedupAgainst
  rw [htrim]
  split
  · rename_i hdrop
    simp only [Bool.and_eq_true, Bool.or_eq_true, decide_eq_true_eq] at hdrop
    obtain ⟨htimes, hsame | hpart'⟩ := hdrop
    · exact absurd (contains_iff.mpr (hsame ▸ List.infix_rfl)) (hpart (htime.mp htimes))
    · exact absurd hpart' (hpart (htime.mp htimes))
  · dsimp only
    split
    · rename_i hdrop
      simp only [Bool.and_eq_true] at hdrop
      have hclose := htime.mp hdrop.1
      exact absurd hdrop.2 (hmiddle hclose (hnone (endsClose_of_startsClose h hclose)))
    · rfl

/-! ### All entries -/

/-- What the deduplication decides of a hypothesis. -/
structure Decides (b : SegmentBuilder) (text : Bytes) (start : Int) (l : List HistoryEntry)
    (r : Option (SegmentBuilder × Bool)) : Prop where
  dropped : SwallowedBy text start l → r = some (b, false)
  kept : ¬ SwallowedBy text start l → r = none ∨ ∃ b', r = some (b', true)

theorem decides_cons (site : Site) (h : Over start e) (hstop : start < stop) (hne : trimText raw ≠ [])
    {l : List HistoryEntry} {r : Option (SegmentBuilder × Bool)} (hr : Decides b (trimText raw) start l r) :
    Decides b (trimText raw) start (e :: l)
      (match dedupAgainst (plenty site) b (trimText raw) start stop e with
        | some d => some d
        | none => r) := by
  by_cases hs : Swallows (trimText raw) start e
  · rw [dedupAgainst_swallows site h hne hs]
    exact ⟨fun _ => rfl, fun hnot => absurd (.inl hs) hnot⟩
  by_cases hc : Continues (trimText raw) start e
  · obtain ⟨b', hdec⟩ := dedupAgainst_eq_true.mpr ((trimsAgainst_iff (b := b) site h hstop).mpr hc)
    rw [hdec]
    refine ⟨?_, fun _ => .inr ⟨b', rfl⟩⟩
    rintro (hs' | ⟨hnot, -⟩)
    · exact absurd hs' hs
    · exact absurd hc hnot
  · rw [dedupAgainst_passes site h hs hc]
    refine ⟨?_, ?_⟩
    · rintro (hs' | ⟨-, hrest⟩)
      · exact absurd hs' hs
      · exact hr.dropped hrest
    · intro hnot
      exact hr.kept fun hrest => hnot (.inr ⟨hc, hrest⟩)

theorem decides_history (hstop : start < stop) (hne : trimText raw ≠ []) {i : Nat} {l : List HistoryEntry}
    (h : ∀ e ∈ l, Over start e) :
    Decides b (trimText raw) start (l.filter (StartsClose start ·))
      (dedupHistory plenty b (trimText raw) start stop i l) := by
  induction l generalizing i with
  | nil => exact ⟨fun h => h.elim, fun _ => .inl rfl⟩
  | cons e l ih =>
    have he := h e List.mem_cons_self
    have hl := ih (i := i + 1) fun x hx => h x (List.mem_cons_of_mem e hx)
    have htime := timeMatches_over stop he
    rw [dedupHistory]
    by_cases hclose : StartsClose start e
    · rw [List.filter_cons_of_pos (by simpa using hclose), if_neg (by simp [htime.mpr hclose])]
      exact decides_cons (.history i) he hstop hne hl
    · have hnot : timeMatches start stop e = false := by
        rw [← Bool.not_eq_true, htime]
        exact hclose
      rw [List.filter_cons_of_neg (by simpa using hclose), if_pos (by simp [hnot])]
      exact hl

theorem decides_dedup (hstop : start < stop) (hne : trimText raw ≠ [])
    (hpending : ∀ last, b.lastSegment = some last → Over start last.entry)
    (hhistory : ∀ e ∈ b.history.newestFirst, Over start e) :
    Decides b (trimText raw) start (earlier b start) (dedup plenty b (trimText raw) start stop) := by
  have hdec := decides_history (b := b) hstop hne (i := 0) hhistory
  unfold dedup earlier
  cases hlast : b.lastSegment with
  | none => exact hdec
  | some last => exact decides_cons .pending (hpending last hlast) hstop hne hdec

end

/-- **New audio.** With memory for everything, a hypothesis that starts at or after the frontier is accepted, as a cue
that ends where it ends, exactly if no earlier cue swallows it. -/
theorem new_audio_kept (b : SegmentBuilder) (ops : List BuilderOp) {raw : Bytes} (hstart : 0 ≤ start)
    (hstop : start < stop) (hne : trimText raw ≠ []) (hlen : (trimText raw).length < builderMaxTextBytes)
    (hphantom : isPhantomText (trimText raw) = false)
    (hnew : (run step (Log.start b) ops).builder.coveredEndUs ≤ start) :
    (∃ b', pushHypothesis plenty (run step (Log.start b) ops).builder raw start stop = (b', true) ∧
        ∃ c, b'.lastSegment = some c ∧ c.endPtsUs = stop) ↔
      ¬ SwallowedBy (trimText raw) start (earlier (run step (Log.start b) ops).builder start) := by
  have hknown := known_run b ops
  generalize run step (Log.start b) ops = s at hnew hknown
  have hover {c : Cue} (hc : c ∈ s.cues) : Over start c.entry := by
    obtain ⟨hlt, hle⟩ := hknown.cue_bounds hc
    exact ⟨hlt, hle.trans hnew⟩
  have hdec : Decides s.builder (trimText raw) start (earlier s.builder start)
      (dedup plenty s.builder (trimText raw) start stop) := by
    refine decides_dedup hstop hne ?_ ?_
    · intro last hlast
      exact hover (hknown.last_cue hlast)
    · intro e he
      obtain ⟨c, hc, rfl⟩ := hknown.history_cue he
      exact ⟨(hover hc).nonempty, (hover hc).le⟩
  have hcand : isCandidate s.builder raw start stop = true := by
    have hcovered : isCovered s.builder start stop = false := by
      simp [isCovered, not_lt.mpr hnew]
    simp [isCandidate, hstart, hstop, hne, hlen, hphantom, hcovered]
  constructor
  · rintro ⟨b', hpush, -⟩ hswallowed
    simp [pushHypothesis, hcand, hdec.dropped hswallowed] at hpush
  · intro hnot
    have haccepted : ∃ b', pushHypothesis plenty s.builder raw start stop = (b', true) := by
      rcases hdec.kept hnot with hnone | ⟨b', htrim⟩
      · have hend : ¬ stop ≤ emitStart s.builder start := by
          rw [emitStart, if_neg (not_lt.mpr hnew)]
          exact not_le.mpr hstop
        have hroom := enqueue_isSome (plenty .whole) s.builder (trimText raw) (emitStart s.builder start) stop
        obtain ⟨b', henq⟩ := Option.isSome_iff_exists.mp (hroom.trans (by simp [hasRoom, plenty]))
        exact ⟨_, by simp [pushHypothesis, hcand, hnone, hend, henq]; rfl⟩
      · exact ⟨b', by simp [pushHypothesis, hcand, htrim]⟩
    obtain ⟨b', hpush⟩ := haccepted
    refine ⟨b', hpush, ?_⟩
    obtain ⟨h, -⟩ | ⟨-, -, out, start', -, -, hemit⟩ := pushHypothesis_cases hpush
    · cases h
    · exact ⟨_, lastSegment_of_emitted hemit, rfl⟩

/-- A cue of four words that ends at 1 s and is still pending. -/
def thanks : List BuilderOp := [.push plenty (ascii "thank you very much") 0 1000000]

theorem new_audio_kept_indeed :
    (∃ b', pushHypothesis plenty (run step (Log.start create) thanks).builder (ascii "very much indeed") 1000000 2000000 =
        (b', true) ∧ ∃ c, b'.lastSegment = some c ∧ c.endPtsUs = 2000000) ↔
      ¬ SwallowedBy (trimText (ascii "very much indeed")) 1000000
        (earlier (run step (Log.start create) thanks).builder 1000000) :=
  new_audio_kept create thanks (by decide) (by decide) (by decide +kernel) (by decide +kernel) (by decide +kernel)
    (by decide +kernel)

theorem not_new_audio_kept :
    ¬ ∀ (b : SegmentBuilder) (ops : List BuilderOp) (raw : Bytes) (start stop : Int), 0 ≤ start → start < stop →
      trimText raw ≠ [] → (trimText raw).length < builderMaxTextBytes → isPhantomText (trimText raw) = false →
      (run step (Log.start b) ops).builder.coveredEndUs ≤ start →
      ∃ b', pushHypothesis plenty (run step (Log.start b) ops).builder raw start stop = (b', true) ∧
        ∃ c, b'.lastSegment = some c ∧ c.endPtsUs = stop := by
  intro h
  obtain ⟨b', hpush, -⟩ := h create thanks (ascii "very much") 1000000 2000000 (by decide) (by decide)
    (by decide +kernel) (by decide +kernel) (by decide +kernel) (by decide +kernel)
  have hdrop : (pushHypothesis plenty (run step (Log.start create) thanks).builder (ascii "very much")
      1000000 2000000).2 = false := by decide +kernel
  rw [hpush] at hdrop
  cases hdrop

/-! ## Soundness -/

/-- The hypothesis repeats a cue that it overlaps, or that is at most the tolerance away. -/
structure Repeats (text : Bytes) (start stop : Int) (c : Cue) : Prop where
  nonempty : c.text ≠ []
  after : start ≤ c.endPtsUs + dedupToleranceUs
  before : c.startPtsUs ≤ stop + dedupToleranceUs
  words : c.text = text ∨ contains c.text text = true ∨ contains text c.text = true ∨
    tailPrefixLen c.text text = text.length

/-- The first copy in the history that decides is one that the hypothesis contains. -/
structure ContainsCopy (mem : Site → Alloc) (b : SegmentBuilder) (text : Bytes) (start stop : Int)
    (newer : List HistoryEntry) (e : HistoryEntry) (older : List HistoryEntry) : Prop where
  split : b.history.newestFirst = newer ++ e :: older
  pending : PassesPending mem b text start stop
  skips : ∀ k x, newer[k]? = some x → Skips mem b text start stop k x
  time : timeMatches start stop e = true
  differs : ¬ (e.text = text ∨ contains e.text text = true)
  trim : trimDecides (mem (.history newer.length)) b text start stop e = false
  inside : contains text e.text = true

/-- Nothing decides, and there is no memory for the cue. -/
structure NoMemory (mem : Site → Alloc) (b : SegmentBuilder) (text : Bytes) (start stop : Int) : Prop where
  pending : PassesPending mem b text start stop
  history : PassesHistory mem b text start stop
  full : hasRoom (mem .whole) b = false

/-- The hypothesis goes on past the frontier and repeats no cue, but it contains what a copy kept of one, or there is no
memory for it. -/
structure Lost (s : Log) (mem : Site → Alloc) (text : Bytes) (start stop : Int) : Prop where
  past : isCovered s.builder start stop = false
  new : ¬ ∃ c ∈ s.cues, Repeats text start stop c
  reason : (∃ newer e older, ContainsCopy mem s.builder text start stop newer e older) ∨
    NoMemory mem s.builder text start stop

section

variable {raw : Bytes} {b : SegmentBuilder} {mem : Site → Alloc}

theorem dedupAgainst_drops {a : Alloc} {b' : SegmentBuilder}
    (h : dedupAgainst a b text start stop e = some (b', false)) :
    (timeMatches start stop e = true ∧ (e.text = text ∨ contains e.text text = true)) ∨
      (nearCue start stop e = true ∧ tailPrefixLen e.text text ≠ 0 ∧
        (tailPrefixLen e.text text = text.length ∨ stop ≤ e.endPtsUs ∨ remainder text e = [])) ∨
      (timeMatches start stop e = true ∧ ¬ (e.text = text ∨ contains e.text text = true) ∧
        trimDecides a b text start stop e = false ∧ contains text e.text = true) := by
  unfold dedupAgainst at h
  split at h
  · rename_i hfirst
    exact .inl (by simpa using hfirst)
  rename_i hfirst
  simp only [Bool.and_eq_true, Bool.or_eq_true, decide_eq_true_eq, not_and] at hfirst
  split at h
  · rename_i r htrim
    obtain rfl := Option.some.inj h
    have hnot : ¬ (Trims text start stop e ∧ hasTrimRoom a b = true) := by
      rw [← applyTailTrim_eq_true]
      rintro ⟨b'', htrue⟩
      rw [htrim] at htrue
      cases htrue
    have hdec : trimDecides a b text start stop e = true := by
      rw [← Bool.not_eq_false, ← applyTailTrim_eq_none, htrim]
      exact fun hn => by cases hn
    simp only [trimDecides, Bool.and_eq_true, Bool.or_eq_true, bne_iff_ne, beq_iff_eq, decide_eq_true_eq] at hdec
    obtain ⟨⟨hnear, hoverlap⟩, hwhy⟩ := hdec
    refine .inr (.inl ⟨hnear, hoverlap, ?_⟩)
    by_contra hnone
    simp only [not_or] at hnone
    obtain ⟨hshorter, hends, hrest⟩ := hnone
    refine hnot ⟨⟨hnear, hoverlap, hshorter, not_le.mp hends, hrest⟩, ?_⟩
    simpa [hshorter, hends, hrest] using hwhy
  · rename_i hnone
    split at h
    · rename_i hmiddle
      simp only [Bool.and_eq_true] at hmiddle
      exact .inr (.inr ⟨hmiddle.1, hfirst hmiddle.1, applyTailTrim_eq_none.mp hnone, hmiddle.2⟩)
    · cases h

/-- A hypothesis that the tail of a cue exhausts is part of it. -/
theorem contains_of_exhausted {cue : Bytes} (h : tailPrefixLen cue text = text.length) (hne : tailPrefixLen cue text ≠ 0) :
    contains cue text = true := by
  have hspec := (longestOverlap_spec hne).2
  change isWordOverlap cue text (tailPrefixLen cue text) = true at hspec
  rw [h] at hspec
  simp only [isWordOverlap, Bool.and_eq_true, decide_eq_true_eq] at hspec
  have htail := hspec.1.1.2
  rw [List.take_length] at htail
  rw [contains_iff, ← htail]
  exact (List.drop_suffix _ _).isInfix

theorem near_of_timeMatches (hstop : start < stop) (hnonempty : e.startPtsUs < e.endPtsUs)
    (h : timeMatches start stop e = true) :
    start ≤ e.endPtsUs + dedupToleranceUs ∧ e.startPtsUs ≤ stop + dedupToleranceUs := by
  simp only [timeMatches, Bool.or_eq_true, Bool.and_eq_true, decide_eq_true_eq] at h
  simp only [dedupToleranceUs] at h ⊢
  split at h <;> omega

theorem near_of_nearCue (hstop : start < stop) (hnonempty : e.startPtsUs < e.endPtsUs)
    (h : nearCue start stop e = true) :
    start ≤ e.endPtsUs + dedupToleranceUs ∧ e.startPtsUs ≤ stop + dedupToleranceUs := by
  simp only [nearCue, Bool.or_eq_true, Bool.and_eq_true, decide_eq_true_eq] at h
  simp only [dedupToleranceUs] at h ⊢
  omega

/-- What the check against a copy of a cue drops repeats the cue, unless it only contains the copy. -/
theorem repeats_of_drops {a : Alloc} {b' : SegmentBuilder} {c : Cue} (hstop : start < stop)
    (hpast : c.endPtsUs < stop) (hcue : c.startPtsUs < c.endPtsUs) (hne : c.text ≠ [])
    (hstart : e.startPtsUs = c.startPtsUs) (hend : e.endPtsUs = c.endPtsUs) (hcut : e.text <+: c.text)
    (h : dedupAgainst a b (trimText raw) start stop e = some (b', false)) :
    Repeats (trimText raw) start stop c ∨
      (timeMatches start stop e = true ∧ ¬ (e.text = trimText raw ∨ contains e.text (trimText raw) = true) ∧
        trimDecides a b (trimText raw) start stop e = false ∧ contains (trimText raw) e.text = true) := by
  have hlonger : contains e.text (trimText raw) = true → contains c.text (trimText raw) = true := by
    rw [contains_iff, contains_iff]
    exact fun hpart => hpart.trans hcut.isInfix
  have hnonempty : e.startPtsUs < e.endPtsUs := by omega
  rcases dedupAgainst_drops h with ⟨htime, hwords⟩ | ⟨hnear, hoverlap, hwhy⟩ | hinside
  · obtain ⟨hafter, hbefore⟩ := near_of_timeMatches hstop hnonempty htime
    refine .inl ⟨hne, by omega, by omega, .inr (.inl (hlonger ?_))⟩
    rcases hwords with hsame | hpart
    · exact contains_iff.mpr (hsame ▸ List.infix_rfl)
    · exact hpart
  · obtain ⟨hafter, hbefore⟩ := near_of_nearCue hstop hnonempty hnear
    have hwhole : tailPrefixLen e.text (trimText raw) = (trimText raw).length := by
      by_contra hshorter
      rcases hwhy with hwhole | hends | hrest
      · exact hshorter hwhole
      · omega
      · exact remainder_ne_nil hshorter hrest
    exact .inl ⟨hne, by omega, by omega, .inr (.inl (hlonger (contains_of_exhausted hwhole hoverlap)))⟩
  · exact .inr hinside

/-- What a drop of a candidate means. -/
theorem push_drops (hcand : isCandidate b raw start stop = true) (h : (pushHypothesis mem b raw start stop).2 = false) :
    (∃ last b', b.lastSegment = some last ∧
        dedupAgainst (mem .pending) b (trimText raw) start stop last.entry = some (b', false)) ∨
      (∃ newer e older b', b.history.newestFirst = newer ++ e :: older ∧ PassesPending mem b (trimText raw) start stop ∧
        (∀ k x, newer[k]? = some x → Skips mem b (trimText raw) start stop k x) ∧
        dedupAgainst (mem (.history newer.length)) b (trimText raw) start stop e = some (b', false)) ∨
      NoMemory mem b (trimText raw) start stop := by
  have hpast := covered_lt_of_isCandidate hcand
  have hspan : start < stop := by
    simp only [isCandidate, Bool.and_eq_true, decide_eq_true_eq] at hcand
    exact hcand.1.1.1.1.2
  rw [pushHypothesis, if_neg (by simp [hcand])] at h
  split at h
  · rename_i r hdec
    obtain ⟨b', r⟩ := r
    obtain rfl : r = false := h
    cases hpend : b.lastSegment.bind fun last => dedupAgainst (mem .pending) b (trimText raw) start stop last.entry with
    | some d =>
      obtain ⟨last, hlast, hagainst⟩ := Option.bind_eq_some_iff.mp hpend
      rw [dedup, hpend] at hdec
      obtain rfl := Option.some.inj hdec
      exact .inl ⟨last, b', hlast, hagainst⟩
    | none =>
      have hpass : PassesPending mem b (trimText raw) start stop := by
        intro last hlast
        rw [Option.bind_eq_none_iff] at hpend
        exact dedupAgainst_eq_none.mp (hpend last hlast)
      rw [dedup_of_passesPending hpass] at hdec
      obtain ⟨newer, e, older, hsplit, hskips, -, hagainst⟩ := dedupHistory_eq_some hdec
      simp only [Nat.zero_add] at hskips hagainst
      exact .inr (.inl ⟨newer, e, older, b', hsplit, hpass, hskips, hagainst⟩)
  · rename_i hnone
    have hpass := dedup_eq_none hnone
    have hroom : ¬ stop ≤ emitStart b start := by
      rw [emitStart]
      split <;> omega
    rw [if_neg hroom] at h
    have hfull := enqueue_isSome (mem .whole) b (trimText raw) (emitStart b start) stop
    split at h
    · rename_i henq
      rw [henq] at hfull
      exact .inr (.inr ⟨hpass.1, hpass.2, hfull.symm⟩)
    · cases h

theorem drops_of_containsCopy {newer older : List HistoryEntry}
    (h : ContainsCopy mem b (trimText raw) start stop newer e older) :
    (pushHypothesis mem b raw start stop).2 = false := by
  have hagainst : dedupAgainst (mem (.history newer.length)) b (trimText raw) start stop e = some (b, false) := by
    have htrim := applyTailTrim_eq_none.mpr h.trim
    unfold dedupAgainst
    rw [htrim, if_neg (by simpa [h.time] using h.differs)]
    simp [h.time, h.inside]
  have hdec : dedup mem b (trimText raw) start stop = some (b, false) := by
    rw [dedup_of_passesPending h.pending, h.split, dedupHistory_append (by simpa using h.skips), dedupHistory,
      if_neg (by simpa using h.time)]
    simp [hagainst]
  rw [pushHypothesis, hdec]
  split <;> rfl

theorem drops_of_noMemory (h : NoMemory mem b (trimText raw) start stop) :
    (pushHypothesis mem b raw start stop).2 = false := by
  have hdec : dedup mem b (trimText raw) start stop = none := by
    rw [dedup_of_passesPending h.pending, ← List.append_nil b.history.newestFirst,
      dedupHistory_append (by simpa [PassesHistory] using h.history), dedupHistory]
  have hfull := enqueue_isSome (mem .whole) b (trimText raw) (emitStart b start) stop
  rw [h.full, Option.isSome_eq_false_iff, Option.isNone_iff_eq_none] at hfull
  rw [pushHypothesis, hdec]
  dsimp only
  rw [hfull]
  split
  · rfl
  · split <;> rfl

end

/-- **Dedup soundness.** A phrase is dropped only because it does not reach past the frontier or repeats a cue near it,
exactly if it is not lost. -/
theorem dedup_sound (b : SegmentBuilder) (ops : List BuilderOp) (mem : Site → Alloc) {raw : Bytes} (hstart : 0 ≤ start)
    (hstop : start < stop) (hne : trimText raw ≠ []) (hlen : (trimText raw).length < builderMaxTextBytes)
    (hphantom : isPhantomText (trimText raw) = false) :
    ((pushHypothesis mem (run step (Log.start b) ops).builder raw start stop).2 = false →
        isCovered (run step (Log.start b) ops).builder start stop = true ∨
          ∃ c ∈ (run step (Log.start b) ops).cues, Repeats (trimText raw) start stop c) ↔
      ¬ (run step (Log.start b) ops).Lost mem (trimText raw) start stop := by
  have hknown := known_run b ops
  generalize run step (Log.start b) ops = s at hknown
  constructor
  · rintro honly ⟨hpast, hnew, hreason⟩
    have hdrop : (pushHypothesis mem s.builder raw start stop).2 = false := by
      rcases hreason with ⟨newer, e, older, hcopy⟩ | hfull
      · exact drops_of_containsCopy hcopy
      · exact drops_of_noMemory hfull
    rcases honly hdrop with hcovered | hrepeats
    · rw [hpast] at hcovered
      cases hcovered
    · exact hnew hrepeats
  · intro hnot hdrop
    by_contra hneither
    rw [not_or] at hneither
    obtain ⟨hpast, hnew⟩ := hneither
    rw [Bool.not_eq_true] at hpast
    have hcand : isCandidate s.builder raw start stop = true := by
      simp [isCandidate, hstart, hstop, hne, hlen, hphantom, hpast]
    have hreach := covered_lt_of_isCandidate hcand
    have hcue {c : Cue} (hc : c ∈ s.cues) : c.startPtsUs < c.endPtsUs ∧ c.endPtsUs < stop :=
      ⟨(hknown.cue_bounds hc).1, lt_of_le_of_lt (hknown.cue_bounds hc).2 hreach⟩
    rcases push_drops hcand hdrop with ⟨last, b', hlast, hagainst⟩ | ⟨newer, e, older, b', hsplit, hpending, hskips,
      hagainst⟩ | hfull
    · have hc := hknown.last_cue hlast
      refine hnew ⟨last, hc, ?_⟩
      obtain ⟨hlt, hend⟩ := hcue hc
      have htext := hknown.recalls.text last hc
      rcases repeats_of_drops hstop hend hlt htext rfl rfl List.prefix_rfl hagainst with hrepeats | ⟨htime, -, -, hinside⟩
      · exact hrepeats
      · obtain ⟨hafter, hbefore⟩ := near_of_timeMatches hstop hlt htime
        exact ⟨htext, hafter, hbefore, .inr (.inr (.inl hinside))⟩
    · have he : e ∈ s.builder.history.newestFirst := by
        rw [hsplit]
        exact List.mem_append_right _ List.mem_cons_self
      obtain ⟨c, hc, rfl⟩ := hknown.history_cue he
      obtain ⟨hlt, hend⟩ := hcue hc
      rcases repeats_of_drops hstop hend hlt (hknown.recalls.text c hc) rfl rfl (List.take_prefix _ _) hagainst with
        hrepeats | ⟨htime, hwords, htrim, hinside⟩
      · exact hnew ⟨c, hc, hrepeats⟩
      · exact hnot ⟨hpast, hnew, .inl ⟨newer, c.stored, older, hsplit, hpending, hskips, htime, hwords, htrim, hinside⟩⟩
    · exact hnot ⟨hpast, hnew, .inr hfull⟩

/-- A cue that begins with a byte that no text begins with; the history's copy of it is empty. -/
def cutToNothing : List BuilderOp := [.push plenty (0xFF :: ascii "abc") 0 300000, .pop]

theorem dedup_sound_abc :
    ((pushHypothesis plenty (run step (Log.start create) cutToNothing).builder (ascii "abc") 400000 2000000).2 = false →
        isCovered (run step (Log.start create) cutToNothing).builder 400000 2000000 = true ∨
          ∃ c ∈ (run step (Log.start create) cutToNothing).cues, Repeats (trimText (ascii "abc")) 400000 2000000 c) ↔
      ¬ (run step (Log.start create) cutToNothing).Lost plenty (trimText (ascii "abc")) 400000 2000000 :=
  dedup_sound create cutToNothing plenty (by decide) (by decide) (by decide +kernel) (by decide +kernel)
    (by decide +kernel)

theorem not_dedup_sound :
    ¬ ∀ (b : SegmentBuilder) (ops : List BuilderOp) (mem : Site → Alloc) (raw : Bytes) (start stop : Int), 0 ≤ start →
      start < stop → trimText raw ≠ [] → (trimText raw).length < builderMaxTextBytes →
      isPhantomText (trimText raw) = false →
      (pushHypothesis mem (run step (Log.start b) ops).builder raw start stop).2 = false →
      isCovered (run step (Log.start b) ops).builder start stop = true ∨
        ∃ c ∈ (run step (Log.start b) ops).cues, Repeats (trimText raw) start stop c := by
  intro h
  have hlost := h create cutToNothing plenty (ascii "hello") 400000 2000000 (by decide) (by decide) (by decide +kernel)
    (by decide +kernel) (by decide +kernel) (by decide +kernel)
  have hcues : (run step (Log.start create) cutToNothing).cues = [⟨1, 0, 300000, 0xFF :: ascii "abc"⟩] := by
    decide +kernel
  rw [hcues] at hlost
  rcases hlost with hcovered | ⟨c, hc, hrepeats⟩
  · revert hcovered
    decide +kernel
  · obtain rfl := List.mem_singleton.mp hc
    have hwords := hrepeats.words
    revert hwords
    decide +kernel

end Log

end VlcWhisper.Worker
