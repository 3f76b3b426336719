import VlcWhisper.Plugin.WorkerClient

/-!
# The caption presenter (`vw_caption_presenter.c`)

The presenter holds back one cue until its successor comes or the loop flushes it. Its functions give the cues that
they hand to `vw_render`, with how long each is to be shown; where on the screen they go is left out. The shortest time a
cue is shown is one second of media time at VLC's rate, which is for VLC to say.
-/

namespace VlcWhisper.Plugin

open VlcWhisper.Lib VlcWhisper.Protocol

/-- A cue with the texts that are drawn. -/
structure Cue where
  segment : CaptionSegment
  text : Bytes
  translatedText : Option Bytes

/-- `strlen` of what a slice points to, unless it has a length. -/
def rawLength (s : Slice UInt16) : Nat := if s.length ≠ 0 then s.length.toNat else (cstr (s.data.getD [])).length

/-- The text of a slice in a buffer of the presenter. -/
def bufferedText (s : Slice UInt16) (length : Nat) : Bytes :=
  let text := s.data.getD []
  text.take (utf8SafeLen text (min length maxTextBytes))

/-- The copy of a cue that is held back. -/
def Cue.buffered (segment : CaptionSegment) : Cue where
  segment := segment
  text := bufferedText segment.text (rawLength segment.text)
  translatedText :=
    if segment.translatedText.data.isSome && 0 < segment.translatedText.length then
      some (bufferedText segment.translatedText segment.translatedText.length.toNat)
    else none

/-- A cue as the caller has it. -/
def Cue.direct (segment : CaptionSegment) : Cue where
  segment := segment
  text := cstr (segment.text.data.getD [])
  translatedText := if 0 < segment.translatedText.length then segment.translatedText.data.map cstr else none

/-- A call of `vw_render`. -/
structure Render where
  cue : Cue
  durationUs : Int64
  inputTimeUs : Int64
  mediaTimeline : Bool
  persistent : Bool

/-- `vw_caption_presenter_t`: `pending` is `pending_segment` where `has_pending`. -/
structure CaptionPresenter where
  pending : Option Cue

namespace CaptionPresenter

/-- `vw_caption_presenter_blank`. -/
def blank (_ : CaptionPresenter) : CaptionPresenter := ⟨none⟩

/-- How long a cue is shown that nothing cuts short. -/
def targetDuration (minMediaFloorUs : Int64) (segment : CaptionSegment) : Int64 :=
  let rawDurationUs := segment.endPtsUs - segment.startPtsUs
  if rawDurationUs ≤ 0 then 2000000
  else if rawDurationUs < minMediaFloorUs then minMediaFloorUs
  else rawDurationUs

/-- How long a cue is shown before the next one. -/
def clippedDuration (minMediaFloorUs : Int64) (pending next : CaptionSegment) : Int64 :=
  let rawDurationUs := pending.endPtsUs - pending.startPtsUs
  let targetEndUs := pending.startPtsUs + targetDuration minMediaFloorUs pending
  let clippedEndUs :=
    if pending.startPtsUs < next.startPtsUs && next.startPtsUs < targetEndUs then
      if minMediaFloorUs ≤ next.startPtsUs - pending.startPtsUs then next.startPtsUs
      else pending.startPtsUs + minMediaFloorUs
    else targetEndUs
  let durationUs := clippedEndUs - pending.startPtsUs
  let durationUs := if durationUs ≤ 0 then (if 0 < rawDurationUs then rawDurationUs else 2000000) else durationUs
  if durationUs < minMediaFloorUs then minMediaFloorUs else durationUs

/-- `vw_caption_presenter_show_segment`: the cue that is held back is drawn, and this one is held back. -/
def showSegment (minMediaFloorUs : Int64) (segment : CaptionSegment) (inputTimeUs : Int64) (mediaTimeline : Bool)
    (p : CaptionPresenter) : List Render × CaptionPresenter :=
  if segment.text.data.isNone then ([], p)
  else
    let renders := p.pending.toList.map fun cue =>
      ⟨cue, clippedDuration minMediaFloorUs cue.segment segment, inputTimeUs, mediaTimeline, false⟩
    (renders, ⟨some (.buffered segment)⟩)

/-- `vw_caption_presenter_flush`. -/
def flush (minMediaFloorUs : Int64) (inputTimeUs : Int64) (mediaTimeline : Bool) (p : CaptionPresenter) :
    List Render × CaptionPresenter :=
  let renders := p.pending.toList.map fun cue =>
    ⟨cue, targetDuration minMediaFloorUs cue.segment, inputTimeUs, mediaTimeline, false⟩
  (renders, p.blank)

/-- `vw_caption_presenter_show_paused`. -/
def showPaused (segment : CaptionSegment) (p : CaptionPresenter) : List Render × CaptionPresenter :=
  if segment.text.data.isNone then ([], p)
  else
    let durationUs := segment.endPtsUs - segment.startPtsUs
    let durationUs := if durationUs < 1000000 then 1000000 else durationUs
    ([⟨.direct segment, durationUs, -1, false, true⟩], p.blank)

end CaptionPresenter

end VlcWhisper.Plugin
