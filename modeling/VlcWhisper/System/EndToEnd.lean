import VlcWhisper.System.CaptionPath
import VlcWhisper.Worker.Attribution
import VlcWhisper.Worker.CaptionOrder

/-!
# From the speech to the presenter

A cue that a worker has heard is written in a CAPTION_SEGMENT, arrives in the stream of that worker's frames, and is
handed to the presenter by the plugin. Here the runs of all workers that the plugin may have launched are put together
with its own. Main result: `handed_heard`. What the presenter is given comes worker by worker, each caption once and in
the order of writing, shows the session, the times and the texts that its worker wrote, and was heard in audio of the
session that it names.
-/

namespace VlcWhisper.Worker

open VlcWhisper.Lib VlcWhisper.Protocol SegmentBuilder

/-! ## What a worker wrote -/

/-- A worker's process: its configuration, what was loaded, and its rounds. -/
structure Life where
  config : Config
  engine : Bool
  translator : Bool
  rounds : List (Env × Option Frame)

def Life.trace (life : Life) : List Event :=
  (roundsRun life.config life.engine life.translator life.rounds).trace

def captionWritten : Event → Option Caption
  | .caption _ c => some c
  | _ => none

/-- The captions that were written. -/
def captionsWritten (trace : List Event) : List Caption := trace.filterMap captionWritten

theorem exists_of_captionsWritten {trace : List Event} {c : Caption} (h : c ∈ captionsWritten trace) :
    ∃ sequence, .caption sequence c ∈ trace := by
  obtain ⟨e, he, hc⟩ := List.mem_filterMap.mp h
  cases e with
  | caption sequence x =>
    obtain rfl : x = c := by simpa [captionWritten] using hc
    exact ⟨sequence, he⟩
  | _ => simp [captionWritten] at hc

/-- The texts that were heard fit into a caption. -/
def Fitting (c : Core) : Prop := ∀ e ∈ c.trace, ∀ cue ∈ e.cues, cue.text.length ≤ maxTextBytes

theorem Fitting.record {c d : Core} (h : Fitting c) {events : List Event} (htrace : d.trace = c.trace ++ events)
    (hevents : ∀ e ∈ events, e.cues = []) : Fitting d := by
  intro e he cue hcue
  rw [htrace] at he
  rcases List.mem_append.mp he with he | he
  · exact h e he cue hcue
  · simp [hevents e he] at hcue

theorem cues_of_isQuiet {e : Event} (h : e.isQuiet = true) : e.cues = [] := by
  cases e <;> simp_all [Event.isQuiet, Event.cues]

theorem cues_of_sends {e : Event} {o : Origin} (h : e.Sends o) : e.cues = [] := by
  cases e <;> simp_all [Event.Sends, Event.cues]

theorem fitting_step (c d : Core) (h : Fitting c) (hstep : Core.Step c d) : Fitting d := by
  have hsent {before : List Event} {last : Event} {o : Origin} (hbefore : ∀ e ∈ before, e.isQuiet = true)
      (hlast : last.Sends o) : ∀ e ∈ before ++ [last], e.cues = [] := by
    intro e he
    rcases List.mem_append.mp he with he | he
    · exact cues_of_isQuiet (hbefore e he)
    · exact List.mem_singleton.mp he ▸ cues_of_sends hlast
  cases hstep with
  | buffer | openSource | closeSource | clearBuilder | thread | discard => exact h
  | frame | invalidate | configure | start | stop | drained =>
    apply h.record rfl
    simp [Event.cues]
  | hear window cues b _ _ hheard =>
    intro e he cue hcue
    rcases List.mem_append.mp he with he | he
    · exact h e he cue hcue
    · obtain rfl := List.mem_singleton.mp he
      exact (hheard.texts cue hcue).2
  | submit =>
    rw [Core.record_record]
    apply h.record rfl
    simp [Event.cues]
  | emit cue b before last _ hbefore hlast _ =>
    have hpopped : Fitting (({ c with builder := b } : Core).record [.popped cue]) := by
      apply h.record rfl
      simp [Event.cues]
    exact hpopped.record rfl (hsent hbefore hlast)
  | deliver t r before last _ _ _ _ hbefore hlast => exact h.record rfl (hsent hbefore hlast)

/-- A caption that was written was heard in the session that it names, and its text fits. -/
theorem heard_of_written {life : Life} {c : Caption} (h : c ∈ captionsWritten life.trace) :
    HeardIn life.trace c.sessionId c.cue ∧ c.cue.text.length ≤ maxTextBytes := by
  have hkeeps (c d : Core) (h : c.Inv ∧ Fitting c) (hstep : Core.Step c d) : d.Inv ∧ Fitting d :=
    ⟨Core.inv_step c d h.1 hstep, fitting_step c d h.2 hstep⟩
  have hround (w : WorkerState) (r : Env × Option Frame) (hw : w.core.Inv ∧ Fitting w.core) :
      (w.step r.1 life.config r.2).core.Inv ∧ Fitting (w.step r.1 life.config r.2).core :=
    steps_invariant hkeeps (step_steps w r.2) hw
  have hstart : Fitting (WorkerState.start life.engine life.translator).core := by
    simp [Fitting, WorkerState.core, WorkerState.start]
  obtain ⟨hinv, hfitting⟩ := run_invariant' hround life.rounds ⟨inv_start life.engine life.translator, hstart⟩
  obtain ⟨sequence, hmem⟩ := exists_of_captionsWritten h
  obtain ⟨before, after, htrace⟩ := List.append_of_mem hmem
  have hjustified : HeardIn before c.sessionId c.cue := explained_iff.mp hinv.explained before _ after htrace
  have hheard : HeardIn life.trace c.sessionId c.cue := by
    rw [htrace]
    exact hjustified.mono _
  refine ⟨hheard, ?_⟩
  obtain ⟨window, cues, hwindow, hcue, -⟩ := hheard
  exact hfitting _ hwindow _ hcue

end VlcWhisper.Worker

namespace VlcWhisper.System

open VlcWhisper.Lib VlcWhisper.Protocol VlcWhisper.Plugin VlcWhisper.Plugin.Sender VlcWhisper.Worker

/-! ## A caption on the wire -/

/-- What a reader sees of two captions is the same. -/
structure Agree (p q : CaptionSegment) : Prop where
  sessionId : q.sessionId = p.sessionId
  segmentId : q.segmentId = p.segmentId
  startPtsUs : q.startPtsUs = p.startPtsUs
  endPtsUs : q.endPtsUs = p.endPtsUs
  text : q.text.bytes = p.text.bytes
  translatedText : q.translatedText.bytes = p.translatedText.bytes

theorem flatten_of_writeAll {size : Nat} {chunks : List Bytes} {out buffer : Bytes}
    (h : writeAll size out chunks = some buffer) : buffer = out ++ chunks.flatten := by
  induction chunks generalizing out with
  | nil => simpa [writeAll] using h.symm
  | cons chunk chunks ih =>
    rw [writeAll] at h
    split at h
    · cases h
    · simpa using ih h

/-- What is decoded of an encoded caption agrees with it, valid or not. -/
theorem agree_of_decode {p : CaptionSegment} {size : Nat} {buffer : Bytes} {q : Payload}
    (hencode : encodePayload (.captionSegment p) size = some buffer)
    (hdecode : decodePayload .captionSegment (some buffer) = some q) :
    ∃ segment, q = .captionSegment segment ∧ Agree p segment := by
  obtain ⟨segment, hread, rfl⟩ := run_map_eq_some.mp (decodePayload_eq_some.mp hdecode).2
  refine ⟨segment, rfl, ?_⟩
  unfold encodePayload encodeFields at hencode
  by_cases htext : p.text.Dangling
  · simp [htext] at hencode
  by_cases htranslated : p.translatedText.Dangling
  · simp [htext, htranslated] at hencode
  simp only [htext, htranslated, if_false] at hencode
  have hbuffer := flatten_of_writeAll hencode
  obtain ⟨u, hexact, hlength, hbytes⟩ := exists_textExact htranslated
  by_cases htail : hasTranslationTail p = true
  · have hexpected : readCaptionSegment.run buffer =
        some ({ p with text := p.text.copy htext, translatedText := u, translationAttempted := true }, []) := by
      apply read_captionSegment.mpr
      refine ⟨Slice.exact_copy _ htext, rfl, Or.inr ⟨rfl, hexact, ?_⟩⟩
      simp [hbuffer, htail, captionHead, hlength, hbytes]
    obtain ⟨rfl, -⟩ := Prod.mk.inj (Option.some.inj (hread.symm.trans hexpected))
    exact ⟨rfl, rfl, rfl, rfl, Slice.bytes_copy _ htext, hbytes.symm⟩
  · have hempty : p.translatedText.bytes = [] := by
      have hzero : p.translatedText.length = 0 := by
        apply not_pos_uint16.mp
        simp_all [hasTranslationTail]
      apply List.length_eq_zero_iff.mp
      rw [Slice.length_bytes htranslated, hzero]
      rfl
    have hexpected : readCaptionSegment.run buffer =
        some ({ p with text := p.text.copy htext, translatedText := .null 0, translationAttempted := false
                       translationLatencyUs := 0, translationTier := 0 }, []) := by
      apply read_captionSegment.mpr
      refine ⟨Slice.exact_copy _ htext, rfl, Or.inl ⟨?_, rfl, rfl, rfl, rfl⟩⟩
      simp [hbuffer, htail, captionHead]
    obtain ⟨rfl, -⟩ := Prod.mk.inj (Option.some.inj (hread.symm.trans hexpected))
    exact ⟨rfl, rfl, rfl, rfl, Slice.bytes_copy _ htext, by simp [hempty]⟩

theorem bytes_ownTexts (p : CaptionSegment) : (Conn.ownTexts p).translatedText.bytes = p.translatedText.bytes := by
  unfold Conn.ownTexts
  dsimp only
  split
  · rfl
  · rename_i hnone
    rw [Slice.bytes_null]
    cases hdata : p.translatedText.data with
    | none => simp [Slice.bytes, hdata]
    | some bs =>
      have hzero : p.translatedText.length = 0 := not_pos_uint16.mp (by simpa [hdata] using hnone)
      have hnat : WireWord.toNat p.translatedText.length = 0 := by
        rw [hzero]
        rfl
      simp [Slice.bytes, hnat]

theorem agree_of_captionOf {f : WireFrame} {p segment : CaptionSegment} (hf : Carries f (.captionSegment p))
    (h : captionOf f = some segment) : Agree p segment := by
  obtain ⟨htype, size, hencode⟩ := hf
  have htype : f.type = .captionSegment := htype
  unfold captionOf at h
  rw [htype] at h
  unfold Conn.delivered at h
  by_cases hempty : f.payload = []
  · simp [hempty, decodePayload] at h
  simp only [hempty, if_false] at h
  cases hdecode : decodePayload .captionSegment (some f.payload) with
  | none => simp [hdecode] at h
  | some q =>
    obtain ⟨decoded, rfl, hagree⟩ := agree_of_decode hencode hdecode
    by_cases hvalid : validatePayload (.captionSegment decoded) = true
    · simp only [hdecode, hvalid, if_true] at h
      obtain rfl := Option.some.inj h
      refine ⟨hagree.sessionId, hagree.segmentId, hagree.startPtsUs, hagree.endPtsUs, hagree.text, ?_⟩
      rw [← hagree.translatedText]
      exact bytes_ownTexts decoded
    · simp [hdecode, hvalid] at h

theorem type_of_captionOf {f : WireFrame} {segment : CaptionSegment} (h : captionOf f = some segment) :
    f.type = .captionSegment := by
  unfold captionOf Conn.delivered at h
  cases htype : f.type with
  | captionSegment => rfl
  | status | error | modelProgress =>
    simp only [htype] at h
    cases hdecode : decodePayload f.type (if f.payload = [] then none else some f.payload) with
    | none => simp [← htype, hdecode] at h
    | some p =>
      have hp := type_of_decodePayload hdecode
      rw [htype] at hp hdecode
      cases p <;> simp_all [Payload.type]
  | _ => simp [htype] at h

/-! ## The captions of a stream -/

/-- As far as captions go, these frames are the first ones of a worker with this history. -/
def Streams (trace : List Worker.Event) (frames : List WireFrame) : Prop :=
  ∃ arrived, arrived <+: captionsWritten trace ∧
    List.Forall₂ (fun f (c : Caption) => Carries f (.captionSegment c.payload))
      (frames.filter fun f => f.type = .captionSegment) arrived

theorem accepted_of_arrived {frames : List WireFrame} {arrived : List Caption}
    (h : List.Forall₂ (fun f (c : Caption) => Carries f (.captionSegment c.payload))
      (frames.filter fun f => f.type = .captionSegment) arrived) :
    ∃ accepted : List (CaptionSegment × Caption), captions frames = accepted.map Prod.fst ∧
      (accepted.map Prod.snd).Sublist arrived ∧ ∀ x ∈ accepted, Agree x.2.payload x.1 := by
  induction frames generalizing arrived with
  | nil => exact ⟨[], rfl, List.nil_sublist _, by simp⟩
  | cons f frames ih =>
    by_cases htype : f.type = .captionSegment
    · rw [List.filter_cons_of_pos (by simpa using htype)] at h
      cases h with
      | cons hf hrest =>
        rename_i c arrived
        obtain ⟨accepted, hcaptions, hsublist, hagree⟩ := ih hrest
        cases hcaption : captionOf f with
        | none =>
          refine ⟨accepted, ?_, hsublist.trans (List.sublist_cons_self _ _), hagree⟩
          rw [← hcaptions]
          exact List.filterMap_cons_none hcaption
        | some segment =>
          refine ⟨(segment, c) :: accepted, ?_, hsublist.cons_cons c, ?_⟩
          · rw [List.map_cons, ← hcaptions]
            exact List.filterMap_cons_some hcaption
          · simpa using ⟨agree_of_captionOf hf hcaption, fun a b hab => hagree (a, b) hab⟩
    · rw [List.filter_cons_of_neg (by simpa using htype)] at h
      obtain ⟨accepted, hcaptions, hrest⟩ := ih h
      have hnone : captionOf f = none := by
        by_contra hsome
        obtain ⟨segment, hsegment⟩ := Option.ne_none_iff_exists'.mp hsome
        exact htype (type_of_captionOf hsegment)
      refine ⟨accepted, ?_, hrest⟩
      rw [← hcaptions]
      exact List.filterMap_cons_none hnone

/-! ## Runs -/

/-- The presenter is given a caption of a worker with this history. -/
structure Shows (trace : List Worker.Event) (segment : CaptionSegment) (c : Caption) : Prop where
  sessionId : segment.sessionId = c.sessionId
  segmentId : segment.segmentId = .ofNat c.cue.segmentId
  startPtsUs : segment.startPtsUs = .ofInt c.cue.startPtsUs
  endPtsUs : segment.endPtsUs = .ofInt c.cue.endPtsUs
  text : segment.text.bytes = c.cue.text
  translatedText : segment.translatedText.bytes = c.payload.translatedText.bytes
  heard : HeardIn trace segment.sessionId c.cue

theorem shows_of_agree {life : Life} {segment : CaptionSegment} {c : Caption} (hc : c ∈ captionsWritten life.trace)
    (h : Agree c.payload segment) : Shows life.trace segment c := by
  obtain ⟨hheard, hfits⟩ := heard_of_written hc
  have hsession : segment.sessionId = c.sessionId := h.sessionId
  refine ⟨hsession, h.segmentId, h.startPtsUs, h.endPtsUs, ?_, h.translatedText, ?_⟩
  · rw [h.text]
    exact bytes_stringSlice hfits
  · rw [hsession]
    exact hheard

/-- The share of one worker in what the presenter is given. -/
structure Share (life : Life) (share : List (CaptionSegment × Caption)) : Prop where
  written : (share.map Prod.snd).Sublist (captionsWritten life.trace)
  shows : ∀ x ∈ share, Shows life.trace x.1 x.2

theorem share_of_stream {life : Life} {frames : List WireFrame} (h : Streams life.trace frames)
    {given : List CaptionSegment} (hgiven : given.Sublist (captions frames)) :
    ∃ share : List (CaptionSegment × Caption), given = share.map Prod.fst ∧ Share life share := by
  obtain ⟨arrived, hprefix, hcarries⟩ := h
  obtain ⟨accepted, hcaptions, hsublist, hagree⟩ := accepted_of_arrived hcarries
  rw [hcaptions] at hgiven
  obtain ⟨share, hshare, rfl⟩ := List.sublist_map_iff.mp hgiven
  have hwritten : (share.map Prod.snd).Sublist (captionsWritten life.trace) :=
    (hshare.map Prod.snd).trans (hsublist.trans hprefix.sublist)
  refine ⟨share, rfl, hwritten, fun x hx => ?_⟩
  exact shows_of_agree (hwritten.subset (List.mem_map_of_mem hx)) (hagree x (hshare.subset hx))

/-- What is given of the captions of several workers comes of one worker after the other. -/
theorem shares_of_told {life : Conn → Life} {sent : Conn → List WireFrame} {conns : List Conn}
    (hstreams : ∀ c ∈ conns, Streams (life c).trace (sent c)) {given : List CaptionSegment}
    (h : given.Sublist (toldBy sent conns)) :
    ∃ shares : List (List (CaptionSegment × Caption)), given = shares.flatten.map Prod.fst ∧
      List.Forall₂ (fun c share => Share (life c) share) conns shares := by
  induction conns generalizing given with
  | nil =>
    obtain rfl : given = [] := by simpa [toldBy] using h
    exact ⟨[], rfl, .nil⟩
  | cons c conns ih =>
    have h : given.Sublist (captions (sent c) ++ toldBy sent conns) := by simpa [toldBy] using h
    obtain ⟨first, later, rfl, hfirst, hlater⟩ := List.sublist_append_iff.mp h
    obtain ⟨share, rfl, hshare⟩ := share_of_stream (hstreams c (by simp)) hfirst
    obtain ⟨shares, rfl, hshares⟩ := ih (fun d hd => hstreams d (by simp [hd])) hlater
    exact ⟨share :: shares, by simp, .cons hshare hshares⟩

/-- **From the speech to the presenter.** If behind each endpoint there is a worker, of whose frames the plugin reads
what arrives, then what the presenter is given in a run comes of one worker after the other, in the order in which each
wrote it. It shows what that worker heard in audio of the session that it names. -/
theorem handed_heard (life : Conn → Life) (sent : Conn → List WireFrame) (launch : Launch) (modelPath : CString)
    (authToken : CArray authTokenBytes) (rounds : List Round)
    (hawaits : ∀ c ∈ runEndpoints launch rounds, Awaits c (sent c))
    (hstreams : ∀ c ∈ runEndpoints launch rounds, Streams (life c).trace (sent c)) :
    ∃ shares : List (List (CaptionSegment × Caption)),
      handed (run Sender.step (start launch modelPath authToken) rounds).log = shares.flatten.map Prod.fst ∧
        List.Forall₂ (fun c share => Share (life c) share) (runEndpoints launch rounds) shares :=
  shares_of_told hstreams (told_run hawaits modelPath authToken).past

/-! ## A worker that hears three cues -/

def hearing : Life := ⟨downloader, true, true, crowdRounds 3 ++ [(.translating, none)]⟩

/-- A caption with the text "Hi". -/
def heardFrame (sequence : UInt64) (segmentId : UInt8) (times : Bytes) (h : times.length = 16) : WireFrame where
  type := .captionSegment
  sequence := sequence
  payload := List.replicate 16 0 ++ [segmentId, 0, 0, 0, 0, 0, 0, 0] ++ times ++ [1, 2, 0, 0x48, 0x69] ++
    List.replicate 7 0
  fits := by simp [h, maxPayloadBytes]

/-- The worker dies after its second caption. -/
def hearingFrames : List WireFrame :=
  [helloAckFrame 1, startedFrame 2,
    heardFrame 3 1 [0, 0, 0, 0, 0, 0, 0, 0, 0x40, 0x42, 0x0F, 0, 0, 0, 0, 0] rfl,
    heardFrame 4 2 [0x80, 0x84, 0x1E, 0, 0, 0, 0, 0, 0xC0, 0xC6, 0x2D, 0, 0, 0, 0, 0] rfl]

def hearingLaunch : Launch := launchOf (some (endpoint hearingFrames [.broken]))

def hearingRounds : List Round := List.replicate 5 (quietRound none hearingLaunch)

theorem streams_hearing : Streams hearing.trace hearingFrames := by
  refine ⟨(captionsWritten hearing.trace).take 2, List.take_prefix _ _, ?_⟩
  have hall : (hearingFrames.filter fun f => f.type = .captionSegment).map (fun f => (f.type, some f.payload)) =
      ((captionsWritten hearing.trace).take 2).map fun c =>
        (.captionSegment, encodePayload (.captionSegment c.payload) captionBufferBytes) := by
    decide +kernel
  rw [← List.forall₂_eq_eq_eq, List.forall₂_map_left_iff, List.forall₂_map_right_iff] at hall
  refine hall.imp fun f c hf => ?_
  obtain ⟨htype, hpayload⟩ := Prod.mk.inj hf
  exact ⟨htype, captionBufferBytes, hpayload.symm⟩

theorem handed_heard_hearing :
    (handed (run Sender.step (start hearingLaunch .empty (.zero 32)) hearingRounds).log).map (·.segmentId) = [1, 2, 1] ∧
    ∃ shares : List (List (CaptionSegment × Caption)),
      handed (run Sender.step (start hearingLaunch .empty (.zero 32)) hearingRounds).log = shares.flatten.map Prod.fst ∧
        List.Forall₂ (fun _ share => Share hearing share) (runEndpoints hearingLaunch hearingRounds) shares := by
  have hendpoint (c : Conn) (hc : c ∈ runEndpoints hearingLaunch hearingRounds) :
      c = endpoint hearingFrames [.broken] := by
    simpa [runEndpoints, hearingRounds, roundEndpoints, endpoints, hearingLaunch, launchOf, quietRound] using hc
  refine ⟨by decide +kernel, handed_heard (fun _ => hearing) (fun _ => hearingFrames) hearingLaunch .empty (.zero 32)
    hearingRounds (fun c hc => ?_) fun c hc => streams_hearing⟩
  rw [hendpoint c hc]
  simp [Awaits, endpoint, hearingFrames, WireFrame.bytes]

end VlcWhisper.System
