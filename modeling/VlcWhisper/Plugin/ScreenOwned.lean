import VlcWhisper.Plugin.Screen

/-!
# The presenter gives back what it takes (`vw_caption_presenter.c`)

Main results:

* `screen_owned`: in every run of the presenter's calls, while VLC destroys and creates video outputs, no video output
  is used without a reference, no channel is used that the video output has not given, nothing that a call allocates
  outlives it, and a picture without an end is on the channel that the presenter keeps.
* `closed_owned`: after the filter is closed the presenter references nothing, and every picture has an end.
-/

namespace VlcWhisper.Plugin

open VlcWhisper.Lib VlcWhisper.Protocol

namespace Screen

/-! ## What is owned -/

/-- The references that the presenter keeps between its calls. -/
def kept (s : Screen) : List Nat := s.heldVout.toList ++ s.modelProgressHeldVout.toList

/-- A kept video output has given the channel that is kept with it. -/
structure Channel (given : Nat → List Int) (vout : Option Nat) (channelId : Int) (registered : Bool) : Prop where
  given : ∀ v, vout = some v → registered = true ∧ 0 ≤ channelId ∧ channelId ∈ given v
  registered : registered = true → vout.isSome = true

/-- Beside what it keeps, a running call has these references and these allocations. Pictures may be without an end if
`endless`; they are on the channel for the captions then. -/
structure Owned (endless ctx : Bool) (inHand : List Nat) (temps : List VlcTemp) (s : Screen) : Prop where
  filterCtx : s.filterCtx = ctx
  vouts : References.Counts s.vlc.vouts (kept s ++ inHand)
  temps : Handles.Holds s.vlc.temps temps
  strayed : s.vlc.strayed = false
  captions : Channel s.vlc.given s.heldVout s.spuChannelId s.spuChannelRegistered
  progress : Channel s.vlc.given s.modelProgressHeldVout s.modelProgressChannelId s.modelProgressChannelRegistered
  alone : ctx = false → kept s = []
  pictures : ∀ p ∈ s.vlc.pictures, p.persistent = true →
    endless = true ∧ s.heldVout = some p.vout ∧ s.spuChannelId = p.channel

variable {endless ctx : Bool} {inHand : List Nat} {temps : List VlcTemp} {s t : Screen} {vout : Nat} {channelId : Int}

theorem owned_start : Owned true true [] [] start where
  filterCtx := rfl
  vouts := References.counts_empty
  temps := Handles.holds_empty
  strayed := rfl
  captions := ⟨by simp [start], by simp [start]⟩
  progress := ⟨by simp [start], by simp [start]⟩
  alone := by simp
  pictures := by simp [start, Vlc.start]

theorem Owned.onVlc (h : Owned endless ctx inHand temps s) {w : Vlc} {inHand' : List Nat} {temps' : List VlcTemp}
    (hvouts : References.Counts w.vouts (kept s ++ inHand')) (htemps : Handles.Holds w.temps temps')
    (hstrayed : w.strayed = false) (hgiven : ∀ v ∈ kept s, ∀ c ∈ s.vlc.given v, c ∈ w.given v)
    (hpictures : ∀ p ∈ w.pictures, p.persistent = true → p ∈ s.vlc.pictures) :
    Owned endless ctx inHand' temps' { s with vlc := w } where
  filterCtx := h.filterCtx
  vouts := hvouts
  temps := htemps
  strayed := hstrayed
  captions := by
    refine ⟨fun v hv => ?_, h.captions.registered⟩
    obtain ⟨hregistered, hpos, hmem⟩ := h.captions.given v hv
    exact ⟨hregistered, hpos, hgiven v (by simp [kept, show s.heldVout = some v from hv]) _ hmem⟩
  progress := by
    refine ⟨fun v hv => ?_, h.progress.registered⟩
    obtain ⟨hregistered, hpos, hmem⟩ := h.progress.given v hv
    exact ⟨hregistered, hpos, hgiven v (by simp [kept, show s.modelProgressHeldVout = some v from hv]) _ hmem⟩
  alone := h.alone
  pictures := fun p hp hpersistent => h.pictures p (hpictures p hp hpersistent) hpersistent

/-! ## Calls to VLC -/

theorem Owned.held (h : Owned endless ctx inHand temps s) (vout : Nat) :
    Owned endless ctx (vout :: inHand) temps { s with vlc := { s.vlc with vouts := s.vlc.vouts.hold vout } } :=
  h.onVlc ((h.vouts.hold vout).perm List.perm_middle.symm) h.temps h.strayed (fun _ _ _ hc => hc) fun _ hp _ => hp

theorem Owned.hold (h : Owned endless ctx inHand temps s) (vout : Nat) :
    Ends (hold vout) s fun _ t => Owned endless ctx (vout :: inHand) temps t := h.held vout

theorem Owned.release (h : Owned endless ctx (vout :: inHand) temps s) :
    Ends (release vout) s fun _ t => Owned endless ctx inHand temps t :=
  h.onVlc (h.vouts.perm List.perm_middle).release h.temps h.strayed (fun _ _ _ hc => hc) fun _ hp _ => hp

theorem Owned.allocate (h : Owned endless ctx inHand temps s) {x : VlcTemp} (hx : x ∉ temps) :
    Ends (allocate x) s fun _ t => Owned endless ctx inHand (x :: temps) t :=
  h.onVlc h.vouts (h.temps.acquire hx) h.strayed (fun _ _ _ hc => hc) fun _ hp _ => hp

theorem Owned.deallocate {x : VlcTemp} (h : Owned endless ctx inHand (x :: temps) s) (hx : x ∉ temps) :
    Ends (deallocate x) s fun _ t => Owned endless ctx inHand temps t := by
  refine h.onVlc h.vouts ((h.temps.release List.mem_cons_self).congr ?_) h.strayed (fun _ _ _ hc => hc) fun _ hp _ => hp
  intro y
  have hne : y ∈ temps → y ≠ x := fun hy heq => hx (heq ▸ hy)
  simp only [List.mem_filter, List.mem_cons, decide_eq_true_eq]
  tauto

theorem Owned.flushChannel (h : Owned endless ctx inHand temps s) (hvout : vout ∈ kept s ++ inHand)
    (hgiven : channelId ∈ s.vlc.given vout) :
    Owned endless ctx inHand temps { s with vlc := s.vlc.flushChannel vout channelId } := by
  have huse := h.vouts.use hvout
  refine h.onVlc ?_ h.temps ?_ (fun _ _ _ hc => hc) fun p hp _ => (List.mem_filter.mp hp).1
  · simpa [Vlc.flushChannel, Vlc.useChannel, Vlc.unpicture, huse] using h.vouts
  · simp [Vlc.flushChannel, Vlc.useChannel, Vlc.unpicture, h.strayed, hgiven]

theorem Owned.osdText (h : Owned endless ctx inHand temps s) (hvout : vout ∈ kept s ++ inHand)
    (durationUs nowTick : Int) (text : Bytes) :
    Owned endless ctx inHand temps { s with vlc := s.vlc.osdText vout durationUs nowTick text } := by
  have huse := h.vouts.use hvout
  refine h.onVlc ?_ h.temps h.strayed (fun _ _ _ hc => hc) fun p hp hpersistent => ?_
  · simpa [Vlc.osdText, Vlc.unpicture, huse] using h.vouts
  · rcases List.mem_append.mp hp with hp | hp
    · exact (List.mem_filter.mp hp).1
    · obtain rfl := List.mem_singleton.mp hp
      cases hpersistent

theorem Owned.flushOsd (h : Owned endless ctx inHand temps s) (hvout : vout ∈ kept s ++ inHand) :
    Owned endless ctx inHand temps { s with vlc := s.vlc.flushOsd vout } := by
  have huse := h.vouts.use hvout
  refine h.onVlc ?_ h.temps h.strayed (fun _ _ _ hc => hc) fun p hp _ => (List.mem_filter.mp hp).1
  simpa [Vlc.flushOsd, Vlc.unpicture, huse] using h.vouts

theorem Owned.putSubpicture (h : Owned endless ctx inHand (.subpicture :: temps) s) (hfresh : .subpicture ∉ temps)
    {p : Picture} (hvout : p.vout ∈ kept s ++ inHand) (hgiven : p.channel ∈ s.vlc.given p.vout)
    (hpersistent : p.persistent = true → endless = true ∧ s.heldVout = some p.vout ∧ s.spuChannelId = p.channel) :
    Owned endless ctx inHand temps { s with vlc := s.vlc.putSubpicture p } := by
  have huse := h.vouts.use hvout
  have htemps : Handles.Holds (s.vlc.temps.release .subpicture) temps := by
    refine (h.temps.release List.mem_cons_self).congr fun y => ?_
    have hne : y ∈ temps → y ≠ .subpicture := fun hy heq => hfresh (heq ▸ hy)
    simp only [List.mem_filter, List.mem_cons, decide_eq_true_eq]
    tauto
  have hvouts : References.Counts (s.vlc.putSubpicture p).vouts (kept s ++ inHand) := by
    simpa [Vlc.putSubpicture, Vlc.useChannel, huse] using h.vouts
  exact {
    filterCtx := h.filterCtx
    vouts := hvouts
    temps := htemps
    strayed := by simp [Vlc.putSubpicture, Vlc.useChannel, h.strayed, hgiven]
    captions := h.captions
    progress := h.progress
    alone := h.alone
    pictures := by
      intro q hq hpersistent'
      rcases List.mem_append.mp hq with hq | hq
      · exact h.pictures q hq hpersistent'
      · obtain rfl := List.mem_singleton.mp hq
        exact hpersistent hpersistent' }

theorem Owned.registerChannel (h : Owned endless ctx inHand temps s) (hvout : vout ∈ kept s ++ inHand)
    (channelId : Int) :
    Owned endless ctx inHand temps { s with vlc := s.vlc.registerChannel vout channelId } := by
  have huse := h.vouts.use hvout
  refine h.onVlc ?_ h.temps h.strayed (fun v _ c hc => ?_) fun _ hp _ => hp
  · simpa [Vlc.registerChannel, huse] using h.vouts
  · by_cases hv : v = vout
    · subst hv
      unfold Vlc.registerChannel
      split <;> simp [hc]
    · unfold Vlc.registerChannel
      split <;> simp [hv, hc]

/-! ## Finding a video output -/

theorem owned_askObject (h : Owned endless ctx inHand temps s) (o : Option VlcObjectType) :
    Ends (askObject o) s fun found t => Owned endless ctx (found.toList ++ inHand) temps t := by
  unfold askObject
  cases o.bind VlcObjectType.vout? with
  | none => exact h
  | some vout => exact (h.hold vout).bind fun _ _ ht => ht

theorem owned_askChildren (h : Owned endless ctx inHand temps s) (children : List (Option VlcObjectType)) :
    Ends (askChildren children) s fun found t => Owned endless ctx (found.toList ++ inHand) temps t := by
  induction children generalizing s with
  | nil => exact h
  | cons child rest ih =>
    refine (owned_askObject h child).bind fun found t ht => ?_
    cases found with
    | none => exact ih ht
    | some vout => exact ht

theorem owned_askNode (h : Owned endless ctx inHand [] s) (node : VlcNode) :
    Ends (askNode node) s fun found t => Owned endless ctx (found.toList ++ inHand) [] t := by
  refine (owned_askObject h node.objectType).bind fun found t ht => ?_
  cases found with
  | some vout => exact ht
  | none =>
    cases node.children with
    | none => exact ht
    | some children =>
      refine (Owned.allocate ht (by simp)).bind fun _ u hu => ?_
      refine (owned_askChildren hu children).bind fun found v hv => ?_
      exact (hv.deallocate (by simp)).bind fun _ _ hw => hw

theorem owned_findVout (h : Owned endless ctx inHand [] s) (chain : List VlcNode) :
    Ends (findVout chain) s fun found t => Owned endless ctx (found.toList ++ inHand) [] t := by
  induction chain generalizing s with
  | nil => exact h
  | cons node parents ih =>
    unfold findVout
    apply Ends.ite
    · intro _
      exact ih h
    · intro _
      refine (owned_askNode h node).bind fun found t ht => ?_
      cases found with
      | some vout => exact ht
      | none => exact ih ht

/-! ## Drawing -/

theorem owned_placeSubpicture {text : Bytes} {startTick stopTick : Int} {replaceExisting persistent : Bool}
    (h : Owned endless ctx inHand [.region, .subpicture] s) (hvout : vout ∈ kept s ++ inHand)
    (hgiven : channelId ∈ s.vlc.given vout)
    (hpersistent : persistent = true → endless = true ∧ s.heldVout = some vout ∧ s.spuChannelId = channelId) :
    Ends (placeSubpicture vout channelId text startTick stopTick replaceExisting persistent) s
      fun _ t => Owned endless ctx inHand [] t := by
  have hregion := h.deallocate (by simp)
  apply Ends.modify_bind
  generalize hstop : (if stopTick ≤ startTick then saturatingAddI64 startTick 1000000 else stopTick) = stopTick'
  cases replaceExisting with
  | true =>
    have hflushed := Owned.flushChannel hregion hvout hgiven
    apply Ends.modify_bind
    exact hflushed.putSubpicture (by simp) hvout hgiven hpersistent
  | false => exact Owned.putSubpicture hregion (by simp) hvout hgiven hpersistent

theorem owned_renderSpu {r : ScreenReading} {text : Bytes} {startTick stopTick : Int}
    {replaceExisting persistent : Bool} (h : Owned endless ctx inHand [] s) (hvout : vout ∈ kept s ++ inHand)
    (hgiven : 0 ≤ channelId → channelId ∈ s.vlc.given vout)
    (hpersistent : persistent = true → endless = true ∧ s.heldVout = some vout ∧ s.spuChannelId = channelId) :
    Ends (renderSpu r vout channelId text startTick stopTick replaceExisting persistent) s
      fun _ t => Owned endless ctx inHand [] t := by
  unfold renderSpu
  apply Ends.ite
  · intro _
    exact h
  intro hneg
  have hpos : 0 ≤ channelId := by
    simp only [Bool.or_eq_true, decide_eq_true_eq, not_or] at hneg
    omega
  have hsubpicture := h.allocate (x := .subpicture) (by simp)
  apply Ends.modify_bind
  apply Ends.ite
  · intro _
    exact (Owned.deallocate hsubpicture (by simp)).bind fun _ _ ht => ht
  intro _
  have hregion := Owned.allocate (x := .region) hsubpicture (by simp)
  apply Ends.modify_bind
  apply Ends.ite
  · intro _
    refine (Owned.deallocate hregion (by simp)).bind fun _ t ht => ?_
    exact (ht.deallocate (by simp)).bind fun _ _ hu => hu
  · intro _
    exact (owned_placeSubpicture hregion hvout (hgiven hpos) hpersistent).bind fun _ _ ht => ht

/-- What is left once the presenter has given up its video output: no picture is without an end. -/
structure Left (endless : Bool) (inHand : List Nat) (s : Screen) : Prop where
  heldVout : s.heldVout = none
  owned : Owned endless true inHand [] { s with spuChannelId := -1, spuChannelRegistered := false }

theorem left_leaveVout (h : Owned endless true inHand [] s) : Ends leaveVout s fun _ t => Left endless inHand t := by
  apply Ends.get_bind
  cases hheld : s.heldVout with
  | none =>
    show Left endless inHand s
    refine ⟨hheld, { h with captions := ⟨?_, by simp⟩, pictures := ?_ }⟩
    · intro v hv
      rw [hheld] at hv
      cases hv
    · intro p hp hpersistent
      obtain ⟨-, hvout, -⟩ := h.pictures p hp hpersistent
      rw [hheld] at hvout
      cases hvout
  | some old =>
    obtain ⟨hregistered, hpos, hgiven⟩ := h.captions.given old hheld
    have hmem : old ∈ kept s ++ inHand := by simp [kept, hheld]
    have hflushed := h.flushChannel hmem hgiven
    simp only [hpos, decide_true, onlyIf, if_true]
    apply Ends.modify_bind
    apply Ends.modify_bind
    have hvouts : References.Counts (s.vlc.flushChannel old s.spuChannelId).vouts
        (old :: (s.modelProgressHeldVout.toList ++ inHand)) := by
      have hall := hflushed.vouts
      simp only [kept, hheld] at hall
      simpa using hall
    refine ⟨rfl, ?_⟩
    exact {
      filterCtx := h.filterCtx
      vouts := hvouts.release
      temps := hflushed.temps
      strayed := hflushed.strayed
      captions := ⟨by simp, by simp⟩
      progress := hflushed.progress
      alone := by simp
      pictures := by
        -- What had no end was on the channel that was flushed.
        intro p hp hpersistent
        obtain ⟨hp, hother⟩ := List.mem_filter.mp hp
        obtain ⟨-, hvout, hchannel⟩ := h.pictures p hp hpersistent
        have hsame : p.vout = old := by
          rw [hheld] at hvout
          exact (Option.some.inj hvout).symm
        simp [hsame, hchannel] at hother }

theorem Owned.keepVout (h : Owned endless true (vout :: inHand) [] s) (hheld : s.heldVout = none)
    (hpos : 0 ≤ channelId) (hgiven : channelId ∈ s.vlc.given vout) :
    Owned endless true inHand []
      { s with heldVout := some vout, spuChannelId := channelId, spuChannelRegistered := true } where
  filterCtx := h.filterCtx
  vouts := by
    have hall := h.vouts
    simp only [kept, hheld] at hall
    exact hall.perm List.perm_middle
  temps := h.temps
  strayed := h.strayed
  captions := by
    refine ⟨?_, by simp⟩
    rintro v hv
    obtain rfl := Option.some.inj hv
    exact ⟨rfl, hpos, hgiven⟩
  progress := h.progress
  alone := by simp
  pictures := by
    intro p hp hpersistent
    obtain ⟨-, hvout, -⟩ := h.pictures p hp hpersistent
    rw [hheld] at hvout
    cases hvout

theorem mem_given_registerChannel (w : Vlc) (hpos : 0 ≤ channelId) :
    channelId ∈ (w.registerChannel vout channelId).given vout := by
  simp [Vlc.registerChannel, hpos]

theorem owned_registerSpu (r : ScreenReading) (h : Owned endless true inHand [] s) (hvout : vout ∈ inHand) :
    Ends (registerSpu r vout) s fun _ t => Owned endless true inHand [] t ∧
      (t.spuChannelRegistered = true → t.heldVout = some vout) := by
  apply Ends.get_bind
  apply Ends.ite
  · intro _
    refine (left_leaveVout h).bind fun _ t ht => ?_
    have hregistered := ht.owned.registerChannel (List.mem_append_right _ hvout) r.channel
    apply Ends.modify_bind
    apply Ends.ite
    · intro hpos
      apply Ends.modify_bind
      exact ⟨(hregistered.held vout).keepVout ht.heldVout hpos (mem_given_registerChannel _ hpos), fun _ => rfl⟩
    · intro _
      refine ⟨?_, nofun⟩
      have hnone : ({ t with vlc := t.vlc.registerChannel vout r.channel } : Screen).heldVout = none := ht.heldVout
      rw [← hnone]
      exact hregistered
  · intro hsame
    simp only [Bool.or_eq_true, Bool.not_eq_true', decide_eq_true_eq, not_or, Bool.not_eq_false, not_not] at hsame
    exact ⟨h, fun _ => hsame.1.2⟩

theorem owned_renderCue (r : ScreenReading) {cue : Render} (h : Owned endless true inHand [] s)
    (hheld : s.spuChannelRegistered = true → s.heldVout = some vout)
    (hpersistent : cue.persistent = true → endless = true) :
    Ends (renderCue r vout cue) s fun _ t => Owned endless true inHand [] t := by
  apply Ends.get_bind
  apply Ends.ite
  · intro hchannel
    simp only [Bool.and_eq_true, decide_eq_true_eq] at hchannel
    have hvout := hheld hchannel.1
    obtain ⟨-, -, hgiven⟩ := h.captions.given vout hvout
    exact owned_renderSpu h (by simp [kept, hvout]) (fun _ => hgiven) fun hp => ⟨hpersistent hp, hvout, rfl⟩
  · intro _
    exact h

theorem owned_render (r : ScreenReading) {cue : Render} (h : Owned endless ctx [] [] s)
    (hpersistent : cue.persistent = true → endless = true) :
    Ends (render r cue) s fun _ t => Owned endless ctx [] [] t := by
  apply Ends.get_bind
  apply Ends.ite
  · intro _
    exact h
  intro hctx
  obtain rfl : ctx = true := by
    rw [← h.filterCtx]
    simpa using hctx
  refine (owned_findVout h r.chain).bind fun found t ht => ?_
  cases found with
  | none => exact ht
  | some vout =>
    have hin : vout ∈ [vout] := List.mem_singleton_self vout
    refine (owned_registerSpu r ht hin).bind fun _ u ⟨hu, hheld⟩ => ?_
    refine (owned_renderCue r hu hheld hpersistent).bind fun rendered v hv => ?_
    have hdrawn : Ends (onlyIf (!rendered)
        (onVlc (·.osdText vout (r.atRate cue.durationUs.toInt) r.nowTick (textToRender r.translateMode cue.cue)))) v
        fun _ w => Owned endless true [vout] [] w := by
      apply Ends.onlyIf
      · intro _
        exact hv.osdText (List.mem_append_right _ hin) _ _ _
      · intro _
        exact hv
    exact hdrawn.bind fun _ w hw => hw.release.bind fun _ _ hx => hx

/-! ## The calls -/

theorem owned_renderAll (r : ScreenReading) {cues : List Render} (h : Owned endless ctx [] [] s)
    (hcues : ∀ cue ∈ cues, cue.persistent = true → endless = true) :
    Ends (renderAll r cues) s fun _ t => Owned endless ctx [] [] t := by
  induction cues generalizing s with
  | nil => exact h
  | cons cue cues ih =>
    refine (owned_render r h (hcues cue (by simp))).bind fun _ t ht => ?_
    exact ih ht fun other hother => hcues other (by simp [hother])

theorem Owned.withPresenter (h : Owned endless ctx inHand temps s) (presenter : CaptionPresenter) :
    Owned endless ctx inHand temps { s with presenter } :=
  ⟨h.filterCtx, h.vouts, h.temps, h.strayed, h.captions, h.progress, h.alone, h.pictures⟩

theorem owned_present (r : ScreenReading) {f : CaptionPresenter → List Render × CaptionPresenter}
    (h : Owned endless ctx [] [] s) (hf : ∀ p, ∀ cue ∈ (f p).1, cue.persistent = true → endless = true) :
    Ends (present r f) s fun _ t => Owned endless ctx [] [] t := by
  apply Ends.get_bind
  exact (owned_renderAll r h (hf s.presenter)).bind fun _ t ht => ht.withPresenter _

theorem showSegment_persistent {minMediaFloorUs : Int64} {segment : CaptionSegment} {inputTimeUs : Int64}
    {mediaTimeline : Bool} (p : CaptionPresenter) :
    ∀ cue ∈ (p.showSegment minMediaFloorUs segment inputTimeUs mediaTimeline).1, cue.persistent = false := by
  unfold CaptionPresenter.showSegment
  split
  · simp
  · cases p.pending <;> simp

theorem flush_persistent {minMediaFloorUs inputTimeUs : Int64} {mediaTimeline : Bool} (p : CaptionPresenter) :
    ∀ cue ∈ (p.flush minMediaFloorUs inputTimeUs mediaTimeline).1, cue.persistent = false := by
  unfold CaptionPresenter.flush
  cases p.pending <;> simp

/-- What is left once the channel for the progress is given up. -/
structure LeftProgress (endless ctx : Bool) (inHand : List Nat) (s : Screen) : Prop where
  heldVout : s.modelProgressHeldVout = none
  owned : Owned endless ctx inHand [] { s with modelProgressChannelId := -1, modelProgressChannelRegistered := false }

theorem left_leaveModelProgressVout (h : Owned endless ctx inHand [] s) :
    Ends leaveModelProgressVout s fun _ t => LeftProgress endless ctx inHand t := by
  apply Ends.get_bind
  cases hheld : s.modelProgressHeldVout with
  | none =>
    show LeftProgress endless ctx inHand s
    refine ⟨hheld, { h with progress := ⟨?_, by simp⟩ }⟩
    intro v hv
    rw [hheld] at hv
    cases hv
  | some old =>
    obtain ⟨hregistered, hpos, hgiven⟩ := h.progress.given old hheld
    have hmem : old ∈ kept s ++ inHand := by simp [kept, hheld]
    have hflushed := h.flushChannel hmem hgiven
    simp only [hregistered, hpos, decide_true, Bool.and_self, onlyIf, if_true]
    apply Ends.modify_bind
    apply Ends.modify_bind
    have hvouts : References.Counts (s.vlc.flushChannel old s.modelProgressChannelId).vouts
        (old :: (s.heldVout.toList ++ inHand)) := by
      have hall := hflushed.vouts
      simp only [kept, hheld] at hall
      refine hall.perm ?_
      simp
    have hrest : kept { s with modelProgressHeldVout := none } = s.heldVout.toList := by simp [kept]
    refine ⟨rfl, ?_⟩
    exact {
      filterCtx := h.filterCtx
      vouts := by
        have hreleased := hvouts.release
        rw [← hrest] at hreleased
        exact hreleased
      temps := hflushed.temps
      strayed := hflushed.strayed
      captions := hflushed.captions
      progress := ⟨by simp, by simp⟩
      alone := by
        intro hctx
        have hnone := h.alone hctx
        simp [kept, hheld] at hnone
      pictures := hflushed.pictures }

theorem owned_clearModelProgress (h : Owned endless ctx inHand [] s) :
    Ends clearModelProgress s fun _ t => Owned endless ctx inHand [] t ∧ t.modelProgressHeldVout = none := by
  refine (left_leaveModelProgressVout h).bind fun _ t ht => ⟨?_, rfl⟩
  have howned := ht.owned
  have hnone : t.modelProgressHeldVout = none := ht.heldVout
  rw [← hnone]
  exact howned

theorem Owned.keepModelProgressVout (h : Owned endless true (vout :: inHand) [] s)
    (hheld : s.modelProgressHeldVout = none) (hpos : 0 ≤ channelId) (hgiven : channelId ∈ s.vlc.given vout) :
    Owned endless true inHand [] { s with
      modelProgressHeldVout := some vout, modelProgressChannelId := channelId, modelProgressChannelRegistered := true } where
  filterCtx := h.filterCtx
  vouts := by
    have hall := h.vouts
    simp only [kept, hheld] at hall
    refine hall.perm ?_
    simp [kept]
  temps := h.temps
  strayed := h.strayed
  captions := h.captions
  progress := by
    refine ⟨?_, by simp⟩
    rintro v hv
    obtain rfl := Option.some.inj hv
    exact ⟨rfl, hpos, hgiven⟩
  alone := by simp
  pictures := h.pictures

theorem owned_registerModelProgressChannel (r : ScreenReading) (h : Owned endless true inHand [] s)
    (hvout : vout ∈ inHand) :
    Ends (registerModelProgressChannel r vout) s fun registered t => Owned endless true inHand [] t ∧
      (registered = true → t.modelProgressHeldVout = some vout) := by
  apply Ends.get_bind
  apply Ends.ite
  · intro hsame
    simp only [Bool.and_eq_true, decide_eq_true_eq] at hsame
    exact ⟨h, fun _ => hsame.2⟩
  · intro _
    refine (left_leaveModelProgressVout h).bind fun _ t ht => ?_
    have hregistered := ht.owned.registerChannel (List.mem_append_right _ hvout) r.channel
    apply Ends.modify_bind
    apply Ends.ite
    · intro _
      exact ⟨hregistered, nofun⟩
    · intro hpos
      have hpos : 0 ≤ r.channel := Int.not_lt.mp hpos
      apply Ends.modify_bind
      exact ⟨(hregistered.held vout).keepModelProgressVout ht.heldVout hpos (mem_given_registerChannel _ hpos),
        fun _ => rfl⟩

theorem owned_showModelProgress (r : ScreenReading) (progress : ModelProgress) (h : Owned endless ctx [] [] s) :
    Ends (showModelProgress r progress) s fun _ t => Owned endless ctx [] [] t := by
  apply Ends.get_bind
  apply Ends.ite
  · intro _
    exact h
  intro hctx
  obtain rfl : ctx = true := by
    rw [← h.filterCtx]
    simpa using hctx
  refine (owned_findVout h r.chain).bind fun found t ht => ?_
  cases found with
  | none => exact ht
  | some vout =>
    have hin : vout ∈ [vout] := List.mem_singleton_self vout
    refine (owned_registerModelProgressChannel r ht hin).bind fun registered u ⟨hu, hheld⟩ => ?_
    cases registered with
    | false => exact hu.release.bind fun _ _ hv => hv
    | true =>
      obtain ⟨-, -, hgiven⟩ := hu.progress.given vout (hheld rfl)
      apply Ends.get_bind
      refine Ends.bind (owned_renderSpu hu (List.mem_append_right _ hin) (fun _ => hgiven) ?_) fun _ v hv => ?_
      · simp
      · exact hv.release.bind fun _ _ hw => hw

/-! ## Blanking -/

/-- No picture is without an end if the presenter keeps no video output. -/
theorem Owned.ended (h : Owned endless ctx inHand temps s) (hheld : s.heldVout = none) :
    Owned false ctx inHand temps s := by
  refine { h with pictures := fun p hp hpersistent => ?_ }
  obtain ⟨-, hvout, -⟩ := h.pictures p hp hpersistent
  rw [hheld] at hvout
  cases hvout

theorem Owned.weaken (h : Owned false ctx inHand temps s) : Owned endless ctx inHand temps s := by
  refine { h with pictures := fun p hp hpersistent => ?_ }
  have hfalse := (h.pictures p hp hpersistent).1
  cases hfalse

theorem owned_blankFound (r : ScreenReading) (h : Owned endless ctx [] [] s) (hheld : s.heldVout = none) :
    Ends (blankFound r) s fun _ t => Owned false ctx [] [] t := by
  have hregistered : s.spuChannelRegistered = false := by
    have hsome := h.captions.registered
    rw [hheld] at hsome
    simpa using hsome
  apply Ends.get_bind
  refine (owned_findVout (h.ended hheld) r.chain).bind fun found t ht => ?_
  cases found with
  | none => exact ht
  | some vout =>
    have hin : vout ∈ kept t ++ [vout] := List.mem_append_right _ (List.mem_singleton_self vout)
    have hflushed := Owned.flushOsd ht hin
    have hblank := Owned.osdText hflushed hin 1000 r.nowTick []
    apply Ends.ite
    · intro hchannel
      simp [hregistered] at hchannel
    · intro _
      apply Ends.modify_bind
      apply Ends.modify_bind
      exact hblank.release

theorem owned_blankVout (r : ScreenReading) (h : Owned endless ctx [] [] s) :
    Ends (blankVout r) s fun _ t => Owned false ctx [] [] t := by
  apply Ends.get_bind
  cases hheld : s.heldVout with
  | none => exact owned_blankFound r h hheld
  | some vout =>
    obtain ⟨hregistered, hpos, hgiven⟩ := h.captions.given vout hheld
    have hflushed := h.flushChannel (by simp [kept, hheld] : vout ∈ kept s ++ []) hgiven
    simp only [hregistered, hpos, decide_true, Bool.and_self, if_true]
    refine { hflushed with pictures := ?_ }
    intro p hp hpersistent
    obtain ⟨hp, hother⟩ := List.mem_filter.mp hp
    obtain ⟨-, hvout, hchannel⟩ := h.pictures p hp hpersistent
    have hsame : p.vout = vout := by
      rw [hheld] at hvout
      exact (Option.some.inj hvout).symm
    simp [hsame, hchannel] at hother

theorem owned_blank (r : ScreenReading) (h : Owned endless ctx [] [] s) :
    Ends (blank r) s fun _ t => Owned false ctx [] [] t := by
  have hpresenter := h.withPresenter s.presenter.blank
  apply Ends.modify_bind
  apply Ends.get_bind
  apply Ends.onlyIf
  · intro _
    exact owned_blankVout r hpresenter
  · intro hctx
    have hkept : kept s = [] := h.alone (h.filterCtx.symm.trans hctx)
    have hheld : s.heldVout = none := by
      simpa using (List.append_eq_nil_iff.mp hkept).1
    exact hpresenter.ended hheld

/-! ## Closing -/

theorem keeps_findVout (chain : List VlcNode) : Keeps Screen.modelProgressHeldVout (findVout chain) := by
  have honVlc (f : Vlc → Vlc) : Keeps Screen.modelProgressHeldVout (onVlc f) := .modify_of_eq fun _ => rfl
  have haskObject (o : Option VlcObjectType) : Keeps Screen.modelProgressHeldVout (askObject o) := by
    unfold askObject
    cases o.bind VlcObjectType.vout? with
    | none => exact .pure none
    | some vout => exact (honVlc _).bind fun _ => .pure _
  have haskChildren (children : List (Option VlcObjectType)) :
      Keeps Screen.modelProgressHeldVout (askChildren children) := by
    induction children with
    | nil => exact .pure none
    | cons child rest ih =>
      refine (haskObject child).bind fun found => ?_
      cases found with
      | none => exact ih
      | some vout => exact .pure _
  induction chain with
  | nil => exact .pure none
  | cons node parents ih =>
    refine .ite ih (Steps.bind ?_ fun found => ?_)
    · refine (haskObject _).bind fun found => ?_
      cases found with
      | some vout => exact .pure _
      | none =>
        cases node.children with
        | none => exact .pure _
        | some children => exact (honVlc _).bind fun _ => (haskChildren children).bind fun _ => (honVlc _).bind fun _ => .pure _
    · cases found with
      | some vout => exact .pure _
      | none => exact ih

theorem keeps_blank (r : ScreenReading) : Keeps Screen.modelProgressHeldVout (blank r) := by
  have honVlc (f : Vlc → Vlc) : Keeps Screen.modelProgressHeldVout (onVlc f) := .modify_of_eq fun _ => rfl
  have hfound : Keeps Screen.modelProgressHeldVout (blankFound r) := by
    refine .get_bind fun s => Steps.bind (keeps_findVout r.chain) (fun found => ?_) s
    cases found with
    | none => exact .pure ()
    | some vout => exact .ite ((honVlc _).bind fun _ => honVlc _) ((honVlc _).bind fun _ => (honVlc _).bind fun _ => honVlc _)
  refine .modify_bind (fun _ => .refl) (.get_bind fun s => ?_)
  refine Steps.onlyIf (m := blankVout r) (.get_bind fun s => ?_) s
  cases s.heldVout with
  | none => exact hfound s
  | some vout => exact Steps.ite (honVlc _) hfound s

theorem Owned.alone_of_released (h : Owned false ctx [] [] s) (hprogress : s.modelProgressHeldVout = none) {w : Vlc}
    (hvouts : References.Counts w.vouts []) (hrest : { w with vouts := s.vlc.vouts } = s.vlc) :
    Owned false false [] []
      { s with filterCtx := false, heldVout := none, spuChannelId := -1, spuChannelRegistered := false, vlc := w } where
  filterCtx := rfl
  vouts := by simpa [kept, hprogress] using hvouts
  temps := by
    have htemps := h.temps
    rw [← hrest] at htemps
    exact htemps
  strayed := by
    have hstrayed := h.strayed
    rw [← hrest] at hstrayed
    exact hstrayed
  captions := ⟨by simp, by simp⟩
  progress := by
    have hgiven := h.progress
    rw [← hrest] at hgiven
    exact hgiven
  alone := by simp [kept, hprogress]
  pictures := by
    intro p hp hpersistent
    have hpictures := h.pictures
    rw [← hrest] at hpictures
    have hfalse := (hpictures p hp hpersistent).1
    cases hfalse

theorem owned_letGo (h : Owned false ctx [] [] s) (hprogress : s.modelProgressHeldVout = none) :
    Ends letGo s fun _ t => Owned false false [] [] t ∧ kept t = [] := by
  have hpresenter := h.withPresenter s.presenter.blank
  have hends : Ends releaseHeld { s with presenter := s.presenter.blank } fun _ t =>
      Owned false false [] [] { t with filterCtx := false, spuChannelId := -1, spuChannelRegistered := false } ∧
        t.heldVout = none ∧ t.modelProgressHeldVout = none := by
    apply Ends.get_bind
    have hvouts := h.vouts
    cases hheld : s.heldVout with
    | none =>
      have hnone : References.Counts s.vlc.vouts [] := by simpa [kept, hheld, hprogress] using hvouts
      have hreleased := hpresenter.alone_of_released hprogress hnone rfl
      exact ⟨hreleased, rfl, hprogress⟩
    | some vout =>
      have hone : References.Counts s.vlc.vouts [vout] := by simpa [kept, hheld, hprogress] using hvouts
      apply Ends.modify_bind
      exact ⟨hpresenter.alone_of_released hprogress hone.release rfl, rfl, hprogress⟩
  apply Ends.modify_bind
  refine hends.bind fun _ t ⟨ht, hheld, hnone⟩ => ?_
  have hkept : kept t = [] := by simp [kept, hheld, hnone]
  exact ⟨ht, hkept⟩

theorem owned_clear (r : ScreenReading) (h : Owned endless ctx [] [] s) :
    Ends (clear r) s fun _ t => Owned false false [] [] t ∧ kept t = [] := by
  refine (owned_clearModelProgress h).bind fun _ t ⟨ht, hprogress⟩ => ?_
  have hblank := owned_blank r ht
  have hkeeps := (keeps_blank r).ends t
  have hboth : Ends (blank r) t fun _ u => Owned false ctx [] [] u ∧ u.modelProgressHeldVout = none :=
    ⟨hblank, hkeeps.trans hprogress⟩
  exact hboth.bind fun _ u ⟨hu, hnone⟩ => owned_letGo hu hnone

theorem owned_releasePreservingCaption (h : Owned false ctx [] [] s) :
    Ends releasePreservingCaption s fun _ t => Owned false false [] [] t ∧ kept t = [] :=
  (owned_clearModelProgress h).bind fun _ _ ⟨ht, hprogress⟩ => owned_letGo ht hprogress

theorem Owned.restore (h : Owned endless ctx inHand temps s) :
    Owned endless true inHand temps { s with filterCtx := true } :=
  ⟨rfl, h.vouts, h.temps, h.strayed, h.captions, h.progress, by simp, h.pictures⟩

theorem owned_drainCues (late : List DrainedCue) (h : Owned false ctx [] [] s) :
    Ends (drainCues late) s fun _ t => Owned false (ctx || !late.isEmpty) [] [] t := by
  induction late generalizing s ctx with
  | nil =>
    have hctx : (ctx || !([] : List DrainedCue).isEmpty) = ctx := by simp
    rw [hctx]
    exact h
  | cons d ds ih =>
    apply Ends.modify_bind
    refine Ends.bind (owned_present d.reading h.restore ?_) fun _ t ht => ?_
    · intro p cue hcue hpersistent
      simp [showSegment_persistent p cue hcue] at hpersistent
    · simpa using ih ht

theorem drainCues_textless {late : List DrainedCue} (htext : receivedTail late = false) (s : Screen) :
    Ends (drainCues late) s fun _ t => kept t = kept s := by
  induction late generalizing s with
  | nil => exact rfl
  | cons d ds ih =>
    obtain ⟨hnone, hrest⟩ := Bool.or_eq_false_iff.mp (htext : (d.segment.text.data.isSome || receivedTail ds) = false)
    have hshows (p : CaptionPresenter) : p.showSegment d.minMediaFloorUs d.segment (-1) false = ([], p) :=
      if_pos (by simpa using hnone)
    apply Ends.modify_bind
    refine Ends.bind (P := fun _ t => kept t = kept s) ?_ fun _ t ht => (ih hrest t).mono fun _ _ hu => hu.trans ht
    apply Ends.get_bind
    dsimp only
    rw [hshows]
    exact rfl

/-- The filter is closed: what comes late is left with an end, and nothing is kept. -/
theorem owned_close (r : ScreenReading) (late : List DrainedCue) (minMediaFloorUs : Int64) (last : ScreenReading)
    (h : Owned endless ctx [] [] s) :
    Ends (close r late minMediaFloorUs last) s fun _ t => ∃ ctx', Owned false ctx' [] [] t ∧ kept t = [] := by
  refine (owned_clear r h).bind fun _ t ⟨ht, hkept⟩ => ?_
  cases htail : receivedTail late with
  | false =>
    have hdrained : Ends (drainCues late) t fun _ u => Owned false (false || !late.isEmpty) [] [] u ∧ kept u = kept t :=
      ⟨owned_drainCues late ht, drainCues_textless htail t⟩
    exact hdrained.bind fun _ u ⟨hu, hsame⟩ => ⟨_, hu, hsame.trans hkept⟩
  | true =>
    refine (owned_drainCues late ht).bind fun _ u hu => ?_
    apply Ends.modify_bind
    refine (owned_present last hu.restore ?_).bind fun _ v hv => (owned_releasePreservingCaption hv).mono fun _ _ hw => ⟨_, hw⟩
    intro p cue hcue hpersistent
    simp [flush_persistent p cue hcue] at hpersistent

/-! ## Runs -/

theorem owned_act (i : ScreenStep) (h : Owned true ctx [] [] s) :
    Ends (act i) s fun _ t => ∃ ctx', Owned true ctx' [] [] t := by
  have hsome {t : Screen} {ctx' : Bool} (ht : Owned true ctx' [] [] t) : ∃ ctx', Owned true ctx' [] [] t := ⟨ctx', ht⟩
  cases i with
  | showSegment minMediaFloorUs segment inputTimeUs mediaTimeline r =>
    exact (owned_present r h fun _ _ _ _ => rfl).mono fun _ _ => hsome
  | flush minMediaFloorUs inputTimeUs mediaTimeline r =>
    exact (owned_present r h fun _ _ _ _ => rfl).mono fun _ _ => hsome
  | showPaused segment r => exact (owned_present r h fun _ _ _ _ => rfl).mono fun _ _ => hsome
  | showModelProgress progress r => exact (owned_showModelProgress r progress h).bind fun _ _ => hsome
  | clearModelProgress => exact (owned_clearModelProgress h).mono fun _ _ ht => hsome ht.1
  | blank r => exact (owned_blank r h).mono fun _ _ ht => hsome ht.weaken
  | close r late minMediaFloorUs last =>
    exact (owned_close r late minMediaFloorUs last h).mono fun _ _ ⟨_, ht, _⟩ => hsome ht.weaken
  | replaced vout =>
    suffices hreplaced : Owned true ctx [] [] { s with vlc := s.vlc.replaced vout } from hsome hreplaced
    unfold Vlc.replaced
    split
    · rename_i hunused
      have hother : ∀ v ∈ kept s, v ≠ vout := by
        rintro v hv rfl
        exact h.vouts.notMem hunused (List.mem_append_left _ hv)
      refine h.onVlc h.vouts h.temps h.strayed (fun v hv c hc => ?_) fun p hp _ => (List.mem_filter.mp hp).1
      simpa [hother v hv] using hc
    · exact h
  | expire ended =>
    refine hsome (h.onVlc h.vouts h.temps h.strayed (fun _ _ _ hc => hc) fun p hp _ => ?_)
    exact (List.mem_filter.mp hp).1

theorem owned_run (steps : List ScreenStep) : ∃ ctx, Owned true ctx [] [] (run step start steps) := by
  have hstep (s : Screen) (i : ScreenStep) (h : ∃ ctx, Owned true ctx [] [] s) :
      ∃ ctx, Owned true ctx [] [] (step s i) := by
    obtain ⟨ctx, h⟩ := h
    exact owned_act i h
  exact run_invariant' hstep steps ⟨true, owned_start⟩

/-- **The presenter and VLC.** In every run, whatever VLC answers and whichever video outputs it destroys between the
calls: each is used only with a reference, and each channel only where it was given; the references are the kept ones;
nothing allocated is left over; and a picture without an end is on the captions' channel. -/
theorem screen_owned (steps : List ScreenStep) :
    let s := run step start steps
    s.vlc.vouts.misused = false ∧ s.vlc.strayed = false ∧ s.vlc.temps.misused = false ∧
      (∀ v, s.vlc.vouts.count v = (kept s).count v) ∧ (∀ x, s.vlc.temps.live x = false) ∧
      ∀ p ∈ s.vlc.pictures, p.persistent = true → s.heldVout = some p.vout ∧ s.spuChannelId = p.channel := by
  obtain ⟨ctx, h⟩ := owned_run steps
  have hcount := h.vouts.count
  rw [List.append_nil] at hcount
  refine ⟨h.vouts.sound, h.strayed, h.temps.sound, hcount, fun x => ?_, fun p hp hpersistent => ?_⟩
  · simpa using mt (h.temps.live x).mp (by simp)
  · exact (h.pictures p hp hpersistent).2

/-- **Closing.** After any run, when the filter is closed, and whatever comes late, the presenter references nothing,
and every picture has an end. -/
theorem closed_owned (steps : List ScreenStep) (r : ScreenReading) (late : List DrainedCue) (minMediaFloorUs : Int64)
    (last : ScreenReading) :
    let s := run step start (steps ++ [.close r late minMediaFloorUs last])
    (∀ v, s.vlc.vouts.count v = 0) ∧ ∀ p ∈ s.vlc.pictures, p.persistent = false := by
  obtain ⟨ctx, h⟩ := owned_run steps
  intro s
  have hs : s = step (run step start steps) (.close r late minMediaFloorUs last) := run_append _ _ _
  obtain ⟨_, hclosed, hkept⟩ := owned_close r late minMediaFloorUs last h
  rw [hs]
  constructor
  · intro v
    have hcount := hclosed.vouts.count v
    rw [hkept] at hcount
    exact hcount
  · intro p hp
    have hend := mt (hclosed.pictures p hp) (by simp)
    simpa using hend

end Screen

end VlcWhisper.Plugin
