import VlcWhisper.Worker.Vad

/-!
# Cuts and speech (`vw_vad.c`)

The stretches of speech in a window are sorted and disjoint. A cut in a pause lies between two of them. A cut that is
forced, as the window is full and has no pause, is made some way behind the end of a stretch, wherever that is.

Main results:

* `cuts_respect_speech`: when a boundary respects the speech in the window.
* `boundary_within`: at the end of the input, or when the window is full, there is a boundary within the window.
-/

namespace VlcWhisper.Worker

/-- The stretches of speech in a window: sorted and disjoint. -/
structure Segmented (sampleCount : Nat) (segs : List (Nat × Nat)) : Prop where
  sorted : segs.Pairwise fun s t => s.2 ≤ t.1
  inside : ∀ s ∈ segs, s.1 ≤ s.2 ∧ s.2 ≤ sampleCount

/-- The point is strictly inside a stretch of speech. -/
def InSpeech (cut : Nat) (segs : List (Nat × Nat)) : Prop := ∃ s ∈ segs, s.1 < cut ∧ cut < s.2

/-- No speech ends between the minimal and the maximal length, and the cut is the latter. -/
def CutAtMax (cut : Nat) (segs : List (Nat × Nat)) : Prop :=
  cut = chunkMaxSamples ∧ ∀ s ∈ segs, ¬ (chunkMinSamples ≤ s.2 ∧ s.2 ≤ chunkMaxSamples)

/-- The boundary that is decided cuts no speech, unless it has to, and drops none. -/
def RespectsSpeech (sampleCount : Nat) (isEof : Bool) (segs : List (Nat × Nat)) : Prop :=
  ∀ b, findChunkBoundary sampleCount isEof (.segments segs) = some b →
    (InSpeech b.cutSamples segs → CutAtMax b.cutSamples segs) ∧ ∀ s ∈ segs, b.silenceDrain ≤ s.1

/-! ## Pauses -/

/-- After one of the stretches there is a pause to cut in. -/
def HasPause (sampleCount : Nat) (isEof : Bool) : List (Nat × Nat) → Prop
  | [] => False
  | [(_, last)] => isCutEnd last = true ∧ (last + chunkMinSilenceGap ≤ sampleCount ∨ isEof = true)
  | (_, last) :: (next, last') :: segs =>
    (isCutEnd last = true ∧ last + chunkMinSilenceGap ≤ next) ∨ HasPause sampleCount isEof ((next, last') :: segs)

/-- The cut is behind a stretch and not behind the start of the next one. -/
def Between (cut : Nat) (segs : List (Nat × Nat)) : Prop :=
  ∃ before s after, segs = before ++ s :: after ∧ s.2 ≤ cut ∧ ∀ t ∈ after, cut ≤ t.1

theorem Between.not_inSpeech {sampleCount cut : Nat} {segs : List (Nat × Nat)} (h : Between cut segs)
    (hsegs : Segmented sampleCount segs) : ¬ InSpeech cut segs := by
  obtain ⟨before, s, after, rfl, hend, hnext⟩ := h
  rintro ⟨t, ht, hstart, hlast⟩
  obtain ⟨-, hsorted, hbefore⟩ := List.pairwise_append.mp hsegs.sorted
  rcases List.mem_append.mp ht with ht | ht
  · have hle := hbefore t ht s List.mem_cons_self
    have hs := (hsegs.inside s (List.mem_append_right _ List.mem_cons_self)).1
    omega
  · rcases List.mem_cons.mp ht with rfl | ht
    · omega
    · have hle := hnext t ht
      omega

theorem cutBefore_between {last next : Nat} (hgap : last + chunkMinSilenceGap ≤ next) :
    last < cutBefore last next ∧ cutBefore last next ≤ next := by
  simp only [chunkMinSilenceGap] at hgap
  unfold cutBefore
  rw [if_pos (by simp only [chunkPadSamples]; omega)]
  simp only [chunkPadSamples]
  omega

theorem cutAfterLast_pos (sampleCount last : Nat) : last < cutAfterLast sampleCount last := by
  unfold cutAfterLast
  simp only [chunkPadSamples]
  omega

theorem chooseCut_between {sampleCount : Nat} (isEof : Bool) {segs : List (Nat × Nat)} (hsegs : Segmented sampleCount segs) :
    (HasPause sampleCount isEof segs ∧ chooseCut sampleCount isEof segs ≠ 0 ∧
        Between (min (chooseCut sampleCount isEof segs) sampleCount) segs) ∨
      (¬ HasPause sampleCount isEof segs ∧ chooseCut sampleCount isEof segs = 0) := by
  fun_induction chooseCut sampleCount isEof segs with
  | case1 => exact .inr ⟨id, rfl⟩
  | case2 first last hcut =>
    simp only [Bool.and_eq_true, Bool.or_eq_true, decide_eq_true_eq] at hcut
    have hpos := cutAfterLast_pos sampleCount last
    have hinside := (hsegs.inside _ List.mem_cons_self).2
    exact .inl ⟨hcut, by omega, [], (first, last), [], rfl, by dsimp only at hinside ⊢; omega, nofun⟩
  | case3 first last hcut =>
    simp only [Bool.and_eq_true, Bool.or_eq_true, decide_eq_true_eq] at hcut
    exact .inr ⟨hcut, rfl⟩
  | case4 first last next last' segs hcut =>
    simp only [Bool.and_eq_true, decide_eq_true_eq] at hcut
    obtain ⟨hpos, hnext⟩ := cutBefore_between hcut.2
    obtain ⟨-, hsorted⟩ := List.pairwise_cons.mp hsegs.sorted
    obtain ⟨hrest, -⟩ := List.pairwise_cons.mp hsorted
    have hinside := hsegs.inside (next, last') (by simp)
    have hfirst := (hsegs.inside (first, last) List.mem_cons_self).2
    refine .inl ⟨.inl hcut, by omega, [], (first, last), _, rfl, by dsimp only at hfirst ⊢; omega, fun t ht => ?_⟩
    rcases List.mem_cons.mp ht with rfl | ht
    · exact Nat.le_trans (Nat.min_le_left _ _) hnext
    · have hlast := hrest t ht
      dsimp only at hlast hinside
      omega
  | case5 first last next last' segs hcut ih =>
    simp only [Bool.and_eq_true, decide_eq_true_eq] at hcut
    have htail : Segmented sampleCount ((next, last') :: segs) :=
      ⟨(List.pairwise_cons.mp hsegs.sorted).2, fun s hs => hsegs.inside s (List.mem_cons_of_mem _ hs)⟩
    rcases ih htail with ⟨hpause, hpos, before, s, after, hsplit, hend, hnext⟩ | ⟨hpause, hzero⟩
    · exact .inl ⟨.inr hpause, hpos, (first, last) :: before, s, after, by rw [hsplit]; rfl, hend, hnext⟩
    · exact .inr ⟨fun h => h.elim hcut hpause, hzero⟩

/-! ## Forced cuts -/

/-- The padding behind the last end of speech to cut at reaches into a later stretch. -/
def PadsIntoSpeech (segs : List (Nat × Nat)) : Prop :=
  ∃ before s after, segs = before ++ s :: after ∧ isCutEnd s.2 = true ∧ (∀ t ∈ after, isCutEnd t.2 = false) ∧
    ∃ t ∈ after, t.1 < s.2 + chunkPadSamples ∧ s.2 + chunkPadSamples < t.2

/-- There is no end of speech to cut at, as there is no room for the padding behind the one there is, and speech goes on at
the maximal length. -/
def PadsOverMax (segs : List (Nat × Nat)) : Prop :=
  (∀ s ∈ segs, isCutEnd s.2 = false) ∧ (∃ s ∈ segs, chunkMaxSamples < s.2 + chunkPadSamples ∧ s.2 ≤ chunkMaxSamples) ∧
    InSpeech chunkMaxSamples segs

/-- A full window that starts with speech and has no pause is cut in speech. -/
def ForcedIntoSpeech (sampleCount : Nat) (isEof : Bool) (segs : List (Nat × Nat)) : Prop :=
  chunkMaxSamples ≤ sampleCount ∧ (∀ s ∈ segs.head?, s.1 ≤ 16000 + chunkPadSamples) ∧
    ¬ HasPause sampleCount isEof segs ∧ (PadsIntoSpeech segs ∨ PadsOverMax segs)

/-- The forced cut is behind the last end of speech that leaves a chunk of allowed length, or at the maximal length. -/
theorem forcedCut_cases (segs : List (Nat × Nat)) :
    (∃ before s after, segs = before ++ s :: after ∧ isCutEnd s.2 = true ∧ (∀ t ∈ after, isCutEnd t.2 = false) ∧
        forcedCut segs = s.2 + chunkPadSamples) ∨
      ((∀ s ∈ segs, isCutEnd s.2 = false) ∧ forcedCut segs = chunkMaxSamples) := by
  unfold forcedCut
  split
  · rename_i s hfind
    obtain ⟨hs, before, after, hsplit, hnot⟩ := List.find?_eq_some_iff_append.mp hfind
    have hsegs : segs = after.reverse ++ s :: before.reverse := by
      have h := congrArg List.reverse hsplit
      simpa using h
    refine .inl ⟨after.reverse, s, before.reverse, hsegs, hs, fun t ht => ?_, rfl⟩
    simpa using hnot t (List.mem_reverse.mp ht)
  · rename_i hfind
    refine .inr ⟨fun s hs => ?_, rfl⟩
    simpa using List.find?_eq_none.mp hfind s (List.mem_reverse.mpr hs)

theorem isCutEnd_iff (last : Nat) : isCutEnd last = true ↔
    chunkMinSamples ≤ last + chunkPadSamples ∧ last + chunkPadSamples ≤ chunkMaxSamples := by
  unfold isCutEnd
  rw [Bool.and_eq_true, decide_eq_true_eq, decide_eq_true_eq]

theorem forcedCut_of_end {before after : List (Nat × Nat)} {s : Nat × Nat} (hs : isCutEnd s.2 = true)
    (hafter : ∀ t ∈ after, isCutEnd t.2 = false) : forcedCut (before ++ s :: after) = s.2 + chunkPadSamples := by
  have hnone : after.reverse.find? (fun s => isCutEnd s.2) = none := by
    refine List.find?_eq_none.mpr fun t ht => ?_
    rw [hafter t (List.mem_reverse.mp ht)]
    nofun
  unfold forcedCut
  rw [List.reverse_append, List.reverse_cons, List.append_assoc, List.find?_append, hnone, Option.none_or,
    List.singleton_append, List.find?_cons_of_pos (p := fun s : Nat × Nat => isCutEnd s.2) hs]

theorem forcedCut_of_none {segs : List (Nat × Nat)} (h : ∀ s ∈ segs, isCutEnd s.2 = false) :
    forcedCut segs = chunkMaxSamples := by
  rcases forcedCut_cases segs with ⟨before, s, after, rfl, hs, -, -⟩ | ⟨-, hcut⟩
  · rw [h s (List.mem_append_right _ List.mem_cons_self)] at hs
    cases hs
  · exact hcut

theorem forcedCut_le (segs : List (Nat × Nat)) : 0 < forcedCut segs ∧ forcedCut segs ≤ chunkMaxSamples := by
  rcases forcedCut_cases segs with ⟨before, s, after, -, hs, -, hcut⟩ | ⟨-, hcut⟩
  · rw [hcut]
    exact ⟨Nat.succ_pos _, ((isCutEnd_iff s.2).mp hs).2⟩
  · rw [hcut]
    exact ⟨by decide, Nat.le_refl _⟩

/-- Which forced cuts are in speech without need. -/
theorem forcedCut_respects {sampleCount : Nat} {segs : List (Nat × Nat)} (hsegs : Segmented sampleCount segs) :
    (InSpeech (forcedCut segs) segs → CutAtMax (forcedCut segs) segs) ↔ ¬ (PadsIntoSpeech segs ∨ PadsOverMax segs) := by
  constructor
  · rintro hrespects (⟨before, s, after, rfl, hs, hafter, t, ht, hstart, hlast⟩ | ⟨hnone, ⟨s, hs, hover, hmax⟩, hspeech⟩)
    · have hbounds := (isCutEnd_iff s.2).mp hs
      rw [forcedCut_of_end hs hafter] at hrespects
      obtain ⟨hcut, hnoend⟩ := hrespects ⟨t, List.mem_append_right _ (List.mem_cons_of_mem _ ht), hstart, hlast⟩
      refine hnoend s (List.mem_append_right _ List.mem_cons_self) ?_
      simp only [chunkPadSamples, chunkMinSamples, chunkMaxSamples] at hcut ⊢
      omega
    · rw [forcedCut_of_none hnone] at hrespects
      refine (hrespects hspeech).2 s hs ⟨?_, hmax⟩
      simp only [chunkPadSamples, chunkMinSamples, chunkMaxSamples] at hover ⊢
      omega
  · intro hnot hspeech
    obtain ⟨hpads, hover⟩ := not_or.mp hnot
    rcases forcedCut_cases segs with ⟨before, s, after, rfl, hs, hafter, hcut⟩ | ⟨hnone, hcut⟩
    · rw [hcut] at hspeech
      obtain ⟨t, ht, hstart, hlast⟩ := hspeech
      obtain ⟨-, -, hbefore⟩ := List.pairwise_append.mp hsegs.sorted
      have hs' := (hsegs.inside s (List.mem_append_right _ List.mem_cons_self)).1
      rcases List.mem_append.mp ht with ht | ht
      · have hle := hbefore t ht s List.mem_cons_self
        omega
      · rcases List.mem_cons.mp ht with rfl | ht
        · omega
        · exact (hpads ⟨before, s, after, rfl, hs, hafter, t, ht, hstart, hlast⟩).elim
    · rw [hcut] at hspeech ⊢
      refine ⟨rfl, fun s hs hbounds => hover ⟨hnone, ⟨s, hs, ?_, hbounds.2⟩, hspeech⟩⟩
      have hend := hnone s hs
      by_contra hroom
      rw [(isCutEnd_iff s.2).mpr ⟨by omega, by omega⟩] at hend
      cases hend

/-! ## Boundaries -/

theorem respects_of_cut {sampleCount : Nat} {isEof : Bool} {segs : List (Nat × Nat)} {cut : Nat}
    (h : findChunkBoundary sampleCount isEof (.segments segs) = some ⟨cut, 0⟩) :
    RespectsSpeech sampleCount isEof segs ↔ (InSpeech cut segs → CutAtMax cut segs) := by
  unfold RespectsSpeech
  rw [h]
  constructor
  · intro hall
    exact (hall _ rfl).1
  · rintro hcut b hb
    obtain rfl := Option.some.inj hb
    exact ⟨hcut, fun s _ => Nat.zero_le _⟩

theorem not_inSpeech_zero (segs : List (Nat × Nat)) : ¬ InSpeech 0 segs := by
  rintro ⟨s, -, hstart, -⟩
  exact Nat.not_lt_zero _ hstart

variable {sampleCount : Nat} {isEof : Bool} {segs : List (Nat × Nat)}

theorem speechCut_of_pause (h : chooseCut sampleCount isEof segs ≠ 0) :
    speechCut sampleCount isEof segs = chooseCut sampleCount isEof segs := by
  unfold speechCut
  rw [if_neg (by simp [h]), if_neg (by simp [h])]

theorem speechCut_of_full (h : chooseCut sampleCount isEof segs = 0) (hfull : chunkMaxSamples ≤ sampleCount) :
    speechCut sampleCount isEof segs = forcedCut segs := by
  unfold speechCut
  rw [if_pos (by simp [h, hfull])]

theorem speechCut_of_room (h : chooseCut sampleCount isEof segs = 0) (hroom : ¬ chunkMaxSamples ≤ sampleCount) :
    speechCut sampleCount isEof segs = if isEof then sampleCount else 0 := by
  unfold speechCut
  rw [if_neg (by simp [hroom])]
  cases isEof with
  | true => rw [if_pos (by simp [h]), if_pos rfl]
  | false => rw [if_neg (by simp), if_neg nofun, h]

/-- The window starts with speech: it is cut, or it has to grow. -/
theorem findChunkBoundary_speech (hpos : 0 < sampleCount) (isEof : Bool) {s : Nat × Nat} (hfirst : s.1 ≤ 16000 + chunkPadSamples) :
    findChunkBoundary sampleCount isEof (.segments (s :: segs)) = if 0 < speechCut sampleCount isEof (s :: segs) then
      some ⟨min (speechCut sampleCount isEof (s :: segs)) sampleCount, 0⟩ else none := by
  unfold findChunkBoundary
  rw [if_neg (Nat.ne_of_gt hpos)]
  dsimp only
  rw [if_neg (Nat.not_lt.mpr hfirst)]

/-- **Cuts respect speech.** A boundary cuts no stretch of speech, unless none ends between the minimal and the maximal
length and the cut is made at the latter, and drops no speech: exactly if no full window without a pause is cut in
speech for its padding. -/
theorem cuts_respect_speech (hsegs : Segmented sampleCount segs) (isEof : Bool) :
    RespectsSpeech sampleCount isEof segs ↔ ¬ ForcedIntoSpeech sampleCount isEof segs := by
  by_cases hzero : sampleCount = 0
  · refine ⟨fun _ hforced => ?_, fun _ b hb => ?_⟩
    · have hmax := hforced.1
      rw [hzero] at hmax
      exact absurd hmax (by decide)
    · have hnone : findChunkBoundary sampleCount isEof (.segments segs) = none := if_pos hzero
      cases hnone.symm.trans hb
  have hpos : 0 < sampleCount := Nat.pos_of_ne_zero hzero
  cases segs with
  | nil =>
    refine ⟨?_, fun _ b hb => ⟨fun ⟨s, hs, _⟩ => (List.not_mem_nil hs).elim, nofun⟩⟩
    rintro - ⟨-, -, -, ⟨before, s, after, hsplit, -⟩ | ⟨-, ⟨s, hs, -⟩, -⟩⟩
    · simp at hsplit
    · cases hs
  | cons s segs =>
    by_cases hlead : 16000 + chunkPadSamples < s.1
    · -- the silence before the first stretch is dropped
      have hdrain : findChunkBoundary sampleCount isEof (.segments (s :: segs)) = some ⟨0, s.1 - chunkPadSamples⟩ := by
        unfold findChunkBoundary
        rw [if_neg hzero]
        dsimp only
        rw [if_pos hlead]
      refine ⟨fun _ hforced => ?_, fun _ b hb => ?_⟩
      · have hhead := hforced.2.1 s rfl
        omega
      · obtain rfl := Option.some.inj (hdrain.symm.trans hb)
        refine ⟨fun hspeech => (not_inSpeech_zero _ hspeech).elim, fun t ht => ?_⟩
        have hs := (hsegs.inside s List.mem_cons_self).1
        dsimp only
        rcases List.mem_cons.mp ht with rfl | ht
        · omega
        · have hle := (List.pairwise_cons.mp hsegs.sorted).1 t ht
          omega
    · have hfirst : s.1 ≤ 16000 + chunkPadSamples := Nat.le_of_not_lt hlead
      have hboundary : findChunkBoundary sampleCount isEof (.segments (s :: segs)) = _ :=
        findChunkBoundary_speech hpos isEof hfirst
      rcases chooseCut_between isEof hsegs with ⟨hpause, hchosen, hbetween⟩ | ⟨hpause, hnone⟩
      · rw [speechCut_of_pause hchosen, if_pos (Nat.pos_of_ne_zero hchosen)] at hboundary
        rw [respects_of_cut hboundary]
        refine ⟨fun _ hforced => hforced.2.2.1 hpause, fun _ hspeech => ?_⟩
        exact (hbetween.not_inSpeech hsegs hspeech).elim
      · by_cases hfull : chunkMaxSamples ≤ sampleCount
        · obtain ⟨hcut, hle⟩ := forcedCut_le (s :: segs)
          rw [speechCut_of_full hnone hfull, if_pos hcut, Nat.min_eq_left (Nat.le_trans hle hfull)] at hboundary
          rw [respects_of_cut hboundary, forcedCut_respects hsegs]
          refine not_congr ⟨fun hpads => ⟨hfull, fun t ht => ?_, hpause, hpads⟩, fun hforced => hforced.2.2.2⟩
          obtain rfl := Option.some.inj ht
          exact hfirst
        · -- the rest of the input, whose end is no stretch's inside
          refine ⟨fun _ hforced => hfull hforced.1, fun _ b hb => ?_⟩
          rw [hboundary, speechCut_of_room hnone hfull] at hb
          cases isEof with
          | true =>
            rw [if_pos rfl, if_pos hpos, Nat.min_self] at hb
            obtain rfl := Option.some.inj hb
            refine ⟨?_, fun t _ => Nat.zero_le _⟩
            rintro ⟨t, ht, -, hlast⟩
            have hinside := (hsegs.inside t ht).2
            dsimp only at hlast
            omega
          | false =>
            rw [if_neg nofun] at hb
            cases hb

/-- The speech goes on 1000 samples after it ended, and the padding is 2400. -/
theorem not_cuts_respect_speech : ¬ ∀ (sampleCount : Nat) (isEof : Bool) (segs : List (Nat × Nat)),
    Segmented sampleCount segs → RespectsSpeech sampleCount isEof segs := by
  intro h
  have hsegs : Segmented 390000 [(0, 100000), (101000, 390000)] := by
    refine ⟨by decide, fun s hs => ?_⟩
    rcases List.mem_cons.mp hs with rfl | hs
    · decide
    · rw [List.mem_singleton.mp hs]
      decide
  have hcut : findChunkBoundary 390000 false (.segments [(0, 100000), (101000, 390000)]) = some ⟨102400, 0⟩ := by
    decide +kernel
  have hspeech : InSpeech 102400 [(0, 100000), (101000, 390000)] := ⟨(101000, 390000), by decide, by decide, by decide⟩
  exact absurd ((h 390000 false _ hsegs _ hcut).1 hspeech).1 (by decide)

/-- A pause of a second before the window is full. -/
theorem cuts_respect_speech_pause : RespectsSpeech 200000 false [(0, 100000), (116000, 200000)] := by
  have hsegs : Segmented 200000 [(0, 100000), (116000, 200000)] := by
    refine ⟨by decide, fun s hs => ?_⟩
    rcases List.mem_cons.mp hs with rfl | hs
    · decide
    · rw [List.mem_singleton.mp hs]
      decide
  exact (cuts_respect_speech hsegs false).mpr fun hforced => absurd hforced.1 (by decide)

/-! ## Progress -/

/-- What the detector can say about a window. -/
def Speech.InWindow (sampleCount : Nat) : Speech → Prop
  | .segments segs => Segmented sampleCount segs
  | .energy _ => True

/-- A boundary within the window: a cut, or some silence. -/
structure Boundary.Within (sampleCount : Nat) (b : Boundary) : Prop where
  one : (0 < b.cutSamples ∧ b.silenceDrain = 0) ∨ (b.cutSamples = 0 ∧ 0 < b.silenceDrain)
  cut : b.cutSamples ≤ sampleCount
  drain : b.silenceDrain ≤ sampleCount

theorem silenceBoundary_drain {b : Boundary} (h : silenceBoundary sampleCount isEof = some b) :
    b.silenceDrain ≤ sampleCount := by
  unfold silenceBoundary at h
  split at h
  · obtain rfl := Option.some.inj h
    dsimp only
    split
    · exact Nat.le_refl _
    · exact Nat.sub_le _ _
  · cases h

theorem findChunkBoundary_drain {speech : Speech} (hspeech : speech.InWindow sampleCount) {b : Boundary}
    (h : findChunkBoundary sampleCount isEof speech = some b) : b.silenceDrain ≤ sampleCount := by
  unfold findChunkBoundary at h
  split at h
  · cases h
  split at h
  · exact silenceBoundary_drain h
  · rename_i first last segs
    have hinside := hspeech.inside (first, last) List.mem_cons_self
    split at h
    · obtain rfl := Option.some.inj h
      dsimp only at hinside ⊢
      omega
    · dsimp only at h
      split at h
      · obtain rfl := Option.some.inj h
        exact Nat.zero_le _
      · cases h
  · exact silenceBoundary_drain h
  · dsimp only at h
    split at h
    · obtain rfl := Option.some.inj h
      exact Nat.zero_le _
    · cases h

/-- At the end of the input, or when the window is full, there is a boundary within the window. -/
theorem boundary_within (hpos : 0 < sampleCount) {speech : Speech} (hspeech : speech.InWindow sampleCount)
    (hfull : isEof = true ∨ chunkMaxSamples ≤ sampleCount) :
    ∃ b, findChunkBoundary sampleCount isEof speech = some b ∧ b.Within sampleCount := by
  obtain ⟨b, hb⟩ := Option.isSome_iff_exists.mp (findChunkBoundary_isSome hpos hfull speech)
  refine ⟨b, hb, ?_⟩
  have hdrain := findChunkBoundary_drain hspeech hb
  cases findChunkBoundary_valid hb with
  | cut n hn hle => exact ⟨.inl ⟨hn, rfl⟩, hle, hdrain⟩
  | silence n hn => exact ⟨.inr ⟨rfl, hn⟩, Nat.zero_le _, hdrain⟩

end VlcWhisper.Worker
