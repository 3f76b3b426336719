import VlcWhisper.Lib.Handles
import VlcWhisper.Lib.Machine
import VlcWhisper.Lib.Program
import VlcWhisper.Lib.References
import VlcWhisper.Plugin.CaptionPresenter
import VlcWhisper.Worker.WorkerActions

/-!
# Where the captions go (`vw_caption_presenter.c`, `vw_plugin_log_scope_override.h`)

`CaptionPresenter` says which cues are drawn; here they are drawn. VLC's video outputs are counted references, found
anew for each cue, and a video output gives out the channels on which pictures are put. The presenter keeps a reference
to the one that it has a channel of, and another for the progress of downloads.

Between two calls a video output that nobody references may be destroyed, and another one may be created at its
address; it has given out no channels then. What the objects around the filter are is VLC's choice, as is what can be
allocated. The presenter asks VLC for the playback rate, too; its answer is part of `ScreenReading`, and the list of
children that is looked through for it is not modelled.
-/

namespace VlcWhisper.Plugin

open VlcWhisper.Lib VlcWhisper.Protocol VlcWhisper.Worker

/-! ## VLC -/

/-- A picture on the screen. -/
structure Picture where
  vout : Nat
  channel : Int
  startTick : Int
  stopTick : Int
  text : Bytes
  /-- `b_ephemer`: it stays until its channel is flushed. -/
  persistent : Bool
deriving DecidableEq

/-- What a call allocates. -/
inductive VlcTemp where
  | children
  | subpicture
  | region
deriving DecidableEq

structure Vlc where
  /-- The presenter's references, by the address of the video output. -/
  vouts : References Nat
  /-- The channels that the video outputs have given to the presenter. -/
  given : Nat → List Int
  temps : Handles VlcTemp
  pictures : List Picture
  /-- Whether a channel was used that its video output has not given. -/
  strayed : Bool

namespace Vlc

def start : Vlc where
  vouts := .empty
  given := fun _ => []
  temps := .empty
  pictures := []
  strayed := false

/-- A channel of a video output is used. -/
def useChannel (vout : Nat) (channel : Int) (w : Vlc) : Vlc :=
  { w with vouts := w.vouts.use vout, strayed := w.strayed || decide (channel ∉ w.given vout) }

def unpicture (vout : Nat) (channel : Int) (w : Vlc) : Vlc :=
  { w with pictures := w.pictures.filter fun p => ¬ (p.vout = vout ∧ p.channel = channel) }

/-- `vout_FlushSubpictureChannel`. -/
def flushChannel (vout : Nat) (channel : Int) (w : Vlc) : Vlc := (w.useChannel vout channel).unpicture vout channel

/-- `vout_PutSubpicture`, which takes the picture. -/
def putSubpicture (p : Picture) (w : Vlc) : Vlc :=
  let w := w.useChannel p.vout p.channel
  { w with temps := w.temps.release .subpicture, pictures := w.pictures ++ [p] }

/-- `vout_RegisterSubpictureChannel`. -/
def registerChannel (vout : Nat) (channel : Int) (w : Vlc) : Vlc :=
  { w with
    vouts := w.vouts.use vout
    given := if 0 ≤ channel then Function.update w.given vout (channel :: w.given vout) else w.given }

/-- `SPU_DEFAULT_CHANNEL`, VLC's own, for texts with a duration. -/
def osdChannel : Int := 1

/-- `vout_OSDText`, which replaces the text on the channel. -/
def osdText (vout : Nat) (durationUs nowTick : Int) (text : Bytes) (w : Vlc) : Vlc :=
  let w := { w with vouts := w.vouts.use vout }.unpicture vout osdChannel
  { w with pictures := w.pictures ++ [⟨vout, osdChannel, nowTick, nowTick + durationUs, text, false⟩] }

/-- `vout_FlushSubpictureChannel` of VLC's own channel. -/
def flushOsd (vout : Nat) (w : Vlc) : Vlc := { w with vouts := w.vouts.use vout }.unpicture vout osdChannel

/-- A video output that nobody references is replaced by another one at its address. -/
def replaced (vout : Nat) (w : Vlc) : Vlc :=
  if w.vouts.count vout = 0 then
    { w with given := Function.update w.given vout [], pictures := w.pictures.filter (·.vout ≠ vout) }
  else w

/-- Pictures whose time is over. -/
def expire (ended : Picture → Bool) (w : Vlc) : Vlc :=
  { w with pictures := w.pictures.filter fun p => p.persistent || !ended p }

end Vlc

/-! ## The presenter -/

/-- What an object is, as far as it is looked at: an input may have a video output. -/
inductive VlcObjectType where
  | input (vout : Option Nat)
  | vout (address : Nat)
  | other

/-- An object on the way up from the filter; what has no type is `none`. -/
structure VlcNode where
  objectType : Option VlcObjectType
  children : Option (List (Option VlcObjectType))

/-- What a call meets. -/
structure ScreenReading where
  chain : List VlcNode
  /-- What `vout_RegisterSubpictureChannel` gives. -/
  channel : Int
  subpicture : Bool
  region : Bool
  text : Bool
  /-- `mdate()`. -/
  nowTick : Int
  /-- `whisper-translate-mode`. -/
  translateMode : Int
  /-- The division by the playback rate, in `double`. -/
  atRate : Int → Int

/-- `vw_caption_presenter_t`. -/
structure Screen where
  presenter : CaptionPresenter
  /-- Whether there is a `p_filter_ctx`. -/
  filterCtx : Bool
  heldVout : Option Nat
  spuChannelId : Int
  spuChannelRegistered : Bool
  modelProgressHeldVout : Option Nat
  modelProgressChannelId : Int
  modelProgressChannelRegistered : Bool
  vlc : Vlc

abbrev ScreenM := StateM Screen

namespace Screen

/-- As `vw_plugin_open` leaves it. -/
def start : Screen where
  presenter := ⟨none⟩
  filterCtx := true
  heldVout := none
  spuChannelId := -1
  spuChannelRegistered := false
  modelProgressHeldVout := none
  modelProgressChannelId := -1
  modelProgressChannelRegistered := false
  vlc := .start

def onVlc (f : Vlc → Vlc) : ScreenM Unit := modify fun s => { s with vlc := f s.vlc }

/-- `vlc_object_hold`, and what `input_GetVout` does to its result. -/
def hold (vout : Nat) : ScreenM Unit := onVlc fun w => { w with vouts := w.vouts.hold vout }

/-- `vlc_object_release`. -/
def release (vout : Nat) : ScreenM Unit := onVlc fun w => { w with vouts := w.vouts.release vout }

def allocate (t : VlcTemp) : ScreenM Unit := onVlc fun w => { w with temps := w.temps.acquire t }

def deallocate (t : VlcTemp) : ScreenM Unit := onVlc fun w => { w with temps := w.temps.release t }

/-! ## Finding a video output -/

def VlcObjectType.vout? : VlcObjectType → Option Nat
  | .input vout => vout
  | .vout address => some address
  | .other => none

/-- An object is asked for a video output, which is held then. -/
def askObject (t : Option VlcObjectType) : ScreenM (Option Nat) := do
  match t.bind VlcObjectType.vout? with
  | none => pure none
  | some vout => do
    hold vout
    pure (some vout)

/-- The loop over the children. -/
def askChildren : List (Option VlcObjectType) → ScreenM (Option Nat)
  | [] => pure none
  | child :: rest => do
    match ← askObject child with
    | some vout => pure (some vout)
    | none => askChildren rest

/-- An object with a type is asked, and then its children. -/
def askNode (node : VlcNode) : ScreenM (Option Nat) := do
  match ← askObject node.objectType with
  | some vout => pure (some vout)
  | none =>
    match node.children with
    | none => pure none
    | some children => do
      allocate .children
      let found ← askChildren children
      deallocate .children
      pure found

/-- `vw_caption_presenter_find_vout`. -/
def findVout : List VlcNode → ScreenM (Option Nat)
  | [] => pure none
  | node :: parents =>
    if node.objectType.isNone then findVout parents
    else do
      match ← askNode node with
      | some vout => pure (some vout)
      | none => findVout parents

/-! ## Drawing -/

/-- The last part of `vw_caption_presenter_render_spu`. -/
def placeSubpicture (vout : Nat) (channelId : Int) (text : Bytes) (startTick stopTick : Int)
    (replaceExisting persistent : Bool) : ScreenM Unit := do
  deallocate .region
  let stopTick := if stopTick ≤ startTick then saturatingAddI64 startTick 1000000 else stopTick
  onlyIf replaceExisting (onVlc (·.flushChannel vout channelId))
  onVlc (·.putSubpicture ⟨vout, channelId, startTick, stopTick, text, persistent⟩)

/-- `vw_caption_presenter_render_spu`. The region, once it has its text, belongs to the picture. -/
def renderSpu (r : ScreenReading) (vout : Nat) (channelId : Int) (text : Bytes) (startTick stopTick : Int)
    (replaceExisting persistent : Bool) : ScreenM Bool := do
  if channelId < 0 || !r.subpicture then pure false
  else do
    allocate .subpicture
    if !r.region then do
      deallocate .subpicture
      pure false
    else do
      allocate .region
      if !r.text then do
        deallocate .region
        deallocate .subpicture
        pure false
      else do
        placeSubpicture vout channelId text startTick stopTick replaceExisting persistent
        pure true

/-- The text that is drawn for a cue. -/
def textToRender (translateMode : Int) (cue : Cue) : Bytes :=
  match cue.translatedText.map cstr with
  | none => cstr cue.text
  | some [] => cstr cue.text
  | some translated =>
    if translateMode = 0 then translated
    else (cstr cue.text ++ 0x0A :: translated).take ((maxTextBytes + 1) * 2 + 7)

/-- The channel of another video output is given up. -/
def leaveVout : ScreenM Unit := do
  let s ← get
  match s.heldVout with
  | none => pure ()
  | some old => do
    onlyIf (0 ≤ s.spuChannelId) (onVlc (·.flushChannel old s.spuChannelId))
    release old
    modify fun s => { s with heldVout := none }

/-- A channel is registered, if there is none on this video output. -/
def registerSpu (r : ScreenReading) (vout : Nat) : ScreenM Unit := do
  let s ← get
  if !s.spuChannelRegistered || s.heldVout ≠ some vout || s.spuChannelId < 0 then do
    leaveVout
    onVlc (·.registerChannel vout r.channel)
    if 0 ≤ r.channel then do
      hold vout
      modify fun s => { s with heldVout := some vout, spuChannelId := r.channel, spuChannelRegistered := true }
    else modify fun s => { s with heldVout := none, spuChannelId := -1, spuChannelRegistered := false }

/-- `lead_us`. -/
def leadUs (r : ScreenReading) (cue : Render) : Int :=
  if cue.mediaTimeline && 0 ≤ cue.inputTimeUs && cue.inputTimeUs < cue.cue.segment.startPtsUs then
    min (r.atRate (saturatingSubI64 cue.cue.segment.startPtsUs.toInt cue.inputTimeUs.toInt)) 60000000
  else 0

/-- The picture of a cue, where there is a channel. -/
def renderCue (r : ScreenReading) (vout : Nat) (cue : Render) : ScreenM Bool := do
  let s ← get
  if s.spuChannelRegistered && 0 ≤ s.spuChannelId then do
    let startTick := saturatingAddI64 r.nowTick (leadUs r cue)
    let stopTick := saturatingAddI64 startTick (r.atRate cue.durationUs.toInt)
    renderSpu r vout s.spuChannelId (textToRender r.translateMode cue.cue) startTick stopTick
      (!cue.mediaTimeline || cue.persistent) cue.persistent
  else pure false

/-- `vw_render`; without a context nothing is drawn. -/
def render (r : ScreenReading) (cue : Render) : ScreenM Bool := do
  let s ← get
  if !s.filterCtx then pure true
  else do
    match ← findVout r.chain with
    | none => pure false
    | some vout => do
      registerSpu r vout
      let rendered ← renderCue r vout cue
      onlyIf (!rendered)
        (onVlc (·.osdText vout (r.atRate cue.durationUs.toInt) r.nowTick (textToRender r.translateMode cue.cue)))
      release vout
      pure true

/-! ## The calls -/

/-- The calls of `vw_render` that a function of the presenter makes. -/
def renderAll (r : ScreenReading) : List Render → ScreenM Unit
  | [] => pure ()
  | cue :: cues => do
    let _ ← render r cue
    renderAll r cues

/-- A call of `CaptionPresenter`, with what it draws. -/
def present (r : ScreenReading) (f : CaptionPresenter → List Render × CaptionPresenter) : ScreenM Unit := do
  let s ← get
  let (renders, presenter) := f s.presenter
  renderAll r renders
  modify fun s => { s with presenter }

/-- The channel for the progress is given up. -/
def leaveModelProgressVout : ScreenM Unit := do
  let s ← get
  match s.modelProgressHeldVout with
  | none => pure ()
  | some old => do
    onlyIf (s.modelProgressChannelRegistered && 0 ≤ s.modelProgressChannelId)
      (onVlc (·.flushChannel old s.modelProgressChannelId))
    release old
    modify fun s => { s with modelProgressHeldVout := none }

/-- `vw_caption_presenter_clear_model_progress`. -/
def clearModelProgress : ScreenM Unit := do
  leaveModelProgressVout
  modify fun s =>
    { s with modelProgressHeldVout := none, modelProgressChannelId := -1, modelProgressChannelRegistered := false }

/-- `vw_caption_presenter_register_model_progress_channel`. -/
def registerModelProgressChannel (r : ScreenReading) (vout : Nat) : ScreenM Bool := do
  let s ← get
  if s.modelProgressChannelRegistered && s.modelProgressHeldVout = some vout then pure true
  else do
    leaveModelProgressVout
    onVlc (·.registerChannel vout r.channel)
    if r.channel < 0 then do
      modify fun s => { s with modelProgressChannelId := -1, modelProgressChannelRegistered := false }
      pure false
    else do
      hold vout
      modify fun s => { s with
        modelProgressHeldVout := some vout, modelProgressChannelId := r.channel, modelProgressChannelRegistered := true }
      pure true

/-- The name of a stage. -/
def stageName (stage : UInt8) : Bytes :=
  if stage = modelStageDownloading then ascii "downloading"
  else if stage = modelStageVerifying then ascii "verifying"
  else if stage = modelStageDone then ascii "done"
  else if stage = modelStageFailed then ascii "failed"
  else if stage = modelStageAborting then ascii "aborting"
  else ascii "idle"

/-- `progress_text`. -/
def progressText (progress : ModelProgress) : Bytes :=
  (ascii "Model " ++ progress.modelId.str ++ ascii ": " ++ stageName progress.stage ++ ascii " (" ++
    digits 10 1 (min progress.pct.toNat 100) ++ ascii "%)").take 127

/-- `vw_caption_presenter_show_model_progress`. -/
def showModelProgress (r : ScreenReading) (progress : ModelProgress) : ScreenM Bool := do
  let s ← get
  if !s.filterCtx then pure false
  else do
    match ← findVout r.chain with
    | none => pure false
    | some vout => do
      if ← registerModelProgressChannel r vout then do
        let s ← get
        let rendered ← renderSpu r vout s.modelProgressChannelId (progressText progress) r.nowTick
          (saturatingAddI64 r.nowTick 2000000) true false
        release vout
        pure rendered
      else do
        release vout
        pure false

/-- The text on VLC's own channel is taken away, unless the presenter has a channel. -/
def blankFound (r : ScreenReading) : ScreenM Unit := do
  let s ← get
  match ← findVout r.chain with
  | none => pure ()
  | some vout =>
    if s.spuChannelRegistered && 0 ≤ s.spuChannelId then do
      onVlc (·.flushChannel vout s.spuChannelId)
      release vout
    else do
      onVlc (·.flushOsd vout)
      onVlc (·.osdText vout 1000 r.nowTick [])
      release vout

/-- The captions are taken away. -/
def blankVout (r : ScreenReading) : ScreenM Unit := do
  let s ← get
  match s.heldVout with
  | none => blankFound r
  | some vout =>
    if s.spuChannelRegistered && 0 ≤ s.spuChannelId then onVlc (·.flushChannel vout s.spuChannelId)
    else blankFound r

/-- `vw_caption_presenter_blank`. -/
def blank (r : ScreenReading) : ScreenM Unit := do
  modify fun s => { s with presenter := s.presenter.blank }
  let s ← get
  onlyIf s.filterCtx (blankVout r)

/-- The reference for the captions is released. -/
def releaseHeld : ScreenM Unit := do
  let s ← get
  match s.heldVout with
  | none => pure ()
  | some vout => do
    release vout
    modify fun s => { s with heldVout := none }

/-- What the presenter keeps is let go: the end of `vw_caption_presenter_clear`, and of
`vw_plugin_presenter_release_preserving_caption`. -/
def letGo : ScreenM Unit := do
  modify fun s => { s with presenter := s.presenter.blank }
  releaseHeld
  modify fun s => { s with filterCtx := false, spuChannelId := -1, spuChannelRegistered := false }

/-- `vw_caption_presenter_clear`. -/
def clear (r : ScreenReading) : ScreenM Unit := do
  clearModelProgress
  blank r
  letGo

/-- `vw_plugin_presenter_release_preserving_caption`. -/
def releasePreservingCaption : ScreenM Unit := do
  clearModelProgress
  letGo

/-! ## Steps -/

/-- A cue that comes while the worker is drained. -/
structure DrainedCue where
  segment : CaptionSegment
  minMediaFloorUs : Int64
  reading : ScreenReading

/-- The loop of `vw_plugin_stop_session_scoped`, as far as the presenter is concerned. -/
def drainCues : List DrainedCue → ScreenM Unit
  | [] => pure ()
  | d :: ds => do
    modify fun s => { s with filterCtx := true }
    present d.reading (·.showSegment d.minMediaFloorUs d.segment (-1) false)
    drainCues ds

/-- `received_tail`: the presenter took a cue, as it does with every one that has a text. -/
def receivedTail (late : List DrainedCue) : Bool := late.any fun d => d.segment.text.data.isSome

/-- `vw_plugin_close`, as far as the presenter is concerned: the cues that come late are shown, and left on the screen
for their time. -/
def close (r : ScreenReading) (late : List DrainedCue) (minMediaFloorUs : Int64) (last : ScreenReading) :
    ScreenM Unit := do
  clear r
  drainCues late
  onlyIf (receivedTail late) do
    modify fun s => { s with filterCtx := true }
    present last (·.flush minMediaFloorUs (-1) false)
    releasePreservingCaption

/-- The calls of the sender thread and of the close path, and what VLC does meanwhile. -/
inductive ScreenStep where
  | showSegment (minMediaFloorUs : Int64) (segment : CaptionSegment) (inputTimeUs : Int64) (mediaTimeline : Bool)
      (r : ScreenReading)
  | flush (minMediaFloorUs inputTimeUs : Int64) (mediaTimeline : Bool) (r : ScreenReading)
  | showPaused (segment : CaptionSegment) (r : ScreenReading)
  | showModelProgress (progress : ModelProgress) (r : ScreenReading)
  | clearModelProgress
  | blank (r : ScreenReading)
  | close (r : ScreenReading) (late : List DrainedCue) (minMediaFloorUs : Int64) (last : ScreenReading)
  | replaced (vout : Nat)
  | expire (ended : Picture → Bool)

def act : ScreenStep → ScreenM Unit
  | .showSegment minMediaFloorUs segment inputTimeUs mediaTimeline r =>
    present r (·.showSegment minMediaFloorUs segment inputTimeUs mediaTimeline)
  | .flush minMediaFloorUs inputTimeUs mediaTimeline r => present r (·.flush minMediaFloorUs inputTimeUs mediaTimeline)
  | .showPaused segment r => present r (·.showPaused segment)
  | .showModelProgress progress r => do
    let _ ← showModelProgress r progress
    pure ()
  | .clearModelProgress => clearModelProgress
  | .blank r => blank r
  | .close r late minMediaFloorUs last => close r late minMediaFloorUs last
  | .replaced vout => onVlc (·.replaced vout)
  | .expire ended => onVlc (·.expire ended)

def step (s : Screen) (i : ScreenStep) : Screen := ((act i).run s).2

end Screen

end VlcWhisper.Plugin
