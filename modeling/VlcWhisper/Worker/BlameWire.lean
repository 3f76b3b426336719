import VlcWhisper.Worker.BlameLine
import VlcWhisper.Worker.Sending

/-!
# Blame lines on the wire

Captions are written in two places: where a popped cue is emitted (`emitSegment_told`) and where a translation is delivered
(`tells_tryDeliverScoped`). Both leave the wire `AllTold` if it was: every event is as `Told` asks, and no blame line waits
for its cue. In between, the cue of a blame line that was just written is owed (`Owing`).
-/

namespace VlcWhisper.Worker

open VlcWhisper.Lib VlcWhisper.Protocol SegmentBuilder Relation

/-! ## Histories -/

/-- What blame lines depend on. -/
structure BlameView where
  translateEnabled : Bool
  builder : SegmentBuilder
  translator : Option TranslateAsync
  trace : List Event
  writes : List Write

def WorkerState.blameView (w : WorkerState) : BlameView where
  translateEnabled := w.translateEnabled
  builder := w.builder
  translator := w.translator
  trace := w.trace
  writes := w.writes

def BlameView.wrote (v : BlameView) (writes : List Write) : BlameView := { v with writes := v.writes ++ writes }

def BlameView.happened (v : BlameView) (x : Event) : BlameView := { v with trace := v.trace ++ [x] }

theorem BlameView.wrote_wrote (v : BlameView) (writes later : List Write) :
    (v.wrote writes).wrote later = v.wrote (writes ++ later) := by
  unfold wrote
  rw [List.append_assoc]

/-- The cue needs no translation: so it was said, or it was popped since the `n`-th event while translation was off. -/
def BlameView.plain (v : BlameView) (plain : Cue → Prop) (n : Nat) (cue : Cue) : Prop :=
  plain cue ∨ v.translateEnabled = false ∧ .popped cue ∈ v.trace.drop n

/-- The wire so far is as it should be, and so is what will be sent. -/
structure Telling (translator : Bool) (plain : Cue → Prop) (n : Nat) (v : BlameView) : Prop where
  present : v.translator.isSome = translator
  held : ∀ t, v.translator = some t → t.Blamable
  queue : ∀ cue ∈ v.builder.queue.toList, cue.text ≠ [] ∧ cue.text.length ≤ maxTextBytes
  start : n ≤ v.trace.length
  told : Explained (Told translator (v.plain plain n) (.failed ∈ v.writes)) (wire v.trace)

/-- And no blame line waits for its cue. -/
structure AllTold (translator : Bool) (plain : Cue → Prop) (n : Nat) (v : BlameView) : Prop
    extends Telling translator plain n v where
  settled : ∀ e, ¬ EndsInBlame (wire v.trace) e

/-- Neither a caption nor a blame line. -/
def Event.isSilent : Event → Bool
  | .frame _ p => !Worker.isBlame p
  | .caption _ _ => false
  | _ => true

theorem wire_concat (trace : List Event) (x : Event) :
    wire (trace ++ [x]) = if x.isWire then wire trace ++ [x] else wire trace := by
  unfold wire
  rw [List.filter_append, List.filter_singleton]
  cases x.isWire with
  | true => rfl
  | false => exact List.append_nil _

section

variable {translator : Bool} {plain : Cue → Prop} {n : Nat} {v : BlameView}

theorem Telling.set_translator (h : Telling translator plain n v) {t : Option TranslateAsync} (hsome : t.isSome = translator)
    (hheld : ∀ u, t = some u → u.Blamable) : Telling translator plain n { v with translator := t } :=
  ⟨hsome, hheld, h.queue, h.start, h.told⟩

theorem Telling.set_builder (h : Telling translator plain n v) {b : SegmentBuilder}
    (hqueue : ∀ cue ∈ b.queue.toList, cue.text ≠ [] ∧ cue.text.length ≤ maxTextBytes) :
    Telling translator plain n { v with builder := b } :=
  ⟨h.present, h.held, hqueue, h.start, h.told⟩

theorem Telling.write (h : Telling translator plain n v) (writes : List Write) :
    Telling translator plain n (v.wrote writes) :=
  ⟨h.present, h.held, h.queue, h.start,
    h.told.mono fun _ _ hx => hx.mono (fun _ hcue => hcue) fun hfailed => List.mem_append_left _ hfailed⟩

theorem AllTold.write (h : AllTold translator plain n v) (writes : List Write) : AllTold translator plain n (v.wrote writes) :=
  ⟨h.toTelling.write writes, h.settled⟩

theorem Telling.record (h : Telling translator plain n v) {x : Event}
    (htold : x.isWire = true → Told translator (v.plain plain n) (.failed ∈ v.writes) (wire v.trace) x) :
    Telling translator plain n (v.happened x) := by
  have hplain (cue : Cue) (hcue : v.plain plain n cue) : (v.happened x).plain plain n cue :=
    hcue.imp id fun ⟨hoff, hmem⟩ => ⟨hoff, List.drop_append_of_le_length h.start ▸ List.mem_append_left _ hmem⟩
  have hbefore := h.told.mono fun _ _ hy => hy.mono hplain id
  refine ⟨h.present, h.held, h.queue, ?_, ?_⟩
  · show n ≤ (v.trace ++ [x]).length
    rw [List.length_append]
    exact Nat.le_add_right_of_le h.start
  · show Explained _ (wire (v.trace ++ [x]))
    rw [wire_concat]
    split
    · rename_i hx
      exact explained_append.mpr ⟨hbefore, (htold hx).mono hplain id, trivial⟩
    · exact hbefore

theorem endsInBlame_append {before : List Event} {x : Event} {e : Error} :
    EndsInBlame (before ++ [x]) e ↔ isBlame (.error e) = true ∧ ∃ sequence, x = .frame sequence (.error e) := by
  unfold EndsInBlame
  rw [List.getLast?_concat]
  simp only [Option.some.injEq]

theorem Telling.settle (h : Telling translator plain n v) {x : Event} (hx : x.isBlame = false)
    (htold : x.isWire = true → Told translator (v.plain plain n) (.failed ∈ v.writes) (wire v.trace) x)
    (hsettled : x.isWire = false → ∀ e, ¬ EndsInBlame (wire v.trace) e) : AllTold translator plain n (v.happened x) := by
  refine ⟨h.record htold, fun e he => ?_⟩
  have he : EndsInBlame (wire (v.trace ++ [x])) e := he
  rw [wire_concat] at he
  by_cases hwire : x.isWire = true
  · rw [if_pos hwire] at he
    obtain ⟨hblame, sequence, rfl⟩ := endsInBlame_append.mp he
    rw [Event.isBlame, hblame] at hx
    cases hx
  · rw [if_neg hwire] at he
    exact hsettled (Bool.eq_false_of_not_eq_true hwire) e he

theorem AllTold.record (h : AllTold translator plain n v) {x : Event} (hx : x.isSilent = true) :
    AllTold translator plain n (v.happened x) := by
  have hblame : x.isBlame = false := by
    cases x with
    | frame sequence p => exact Bool.not_eq_true' _ ▸ hx
    | _ => rfl
  have hcaption (sequence : UInt64) (c : Caption) (hc : x = .caption sequence c) : False := by
    rw [hc] at hx
    cases hx
  refine h.toTelling.settle hblame (fun _ => ⟨fun e he => (h.settled e he).elim, ?_, fun _ => ⟨hblame, ?_⟩⟩) fun _ => h.settled
  · exact fun _ sequence c hc => (hcaption sequence c hc).elim
  · exact fun sequence c hc => (hcaption sequence c hc).elim

end

/-! ## Sending -/

variable {env : Env} {α : Type}

/-- Nothing more is written. -/
def Transport.closed (t : Transport) : Bool := t.registered && t.failed

theorem guardedIpcSend_view (w : WorkerState) : Ends (guardedIpcSend env) w fun sent v =>
    v.unsent = w.unsent ∧ ∃ writes, v.blameView = w.blameView.wrote writes ∧
      (if sent then w.transport.closed = false else w.transport.closed = false → .failed ∈ writes) := by
  refine Ends.get_bind (Ends.ite (fun hclosed => ?_) fun hopen => ?_)
  · refine ⟨rfl, [], ?_, fun hopen => ?_⟩
    · unfold BlameView.wrote
      rw [List.append_nil]
      rfl
    · rw [Transport.closed, hclosed] at hopen
      cases hopen
  · refine ⟨rfl, [if env.ipcSend w.tick then .sent else .failed], rfl, ?_⟩
    show if env.ipcSend w.tick = true then _ else _
    split
    · exact Bool.eq_false_of_not_eq_true hopen
    · exact fun _ => List.mem_singleton_self _

theorem sendFrame_view (bufferSize : Nat) (p : Payload) (event : UInt64 → Event) (w : WorkerState) :
    Ends (sendFrame env bufferSize p event) w fun sent v => v.unsent = w.unsent ∧ ∃ writes,
      if sent then w.transport.closed = false ∧
        ∃ sequence, v.blameView = (w.blameView.wrote writes).happened (event sequence)
      else v.blameView = w.blameView.wrote writes ∧
        (encodePayload p bufferSize ≠ none → w.transport.closed = false → .failed ∈ writes) := by
  unfold sendFrame
  split
  · rename_i hnone
    exact ⟨rfl, [.unencoded], rfl, fun hsome => (hsome hnone).elim⟩
  · refine Ends.modify_bind ((guardedIpcSend_view _).bind fun header t ⟨ht, writes, hview, hheader⟩ => ?_)
    have ht : t.unsent = w.unsent := ht
    cases header with
    | false => exact ⟨ht, writes, hview, fun _ => hheader⟩
    | true =>
      refine (guardedIpcSend_view t).bind fun payload u ⟨hu, later, hview', hpayload⟩ => Ends.get_bind ?_
      have hboth : u.blameView = w.blameView.wrote (writes ++ later) := by
        rw [hview', hview, BlameView.wrote_wrote]
        rfl
      cases payload with
      | false =>
        refine ⟨hu.trans ht, writes ++ later, hboth, fun _ hopen => ?_⟩
        have hsame : t.transport = w.transport := field_of_unsent ht (·.transport) fun _ => by rfl
        exact List.mem_append_right _ (hpayload (hsame ▸ hopen))
      | true =>
        refine ⟨hu.trans ht, writes ++ later, hheader, u.sequence, ?_⟩
        rw [← hboth]
        rfl

/-- The program keeps the wire as it should be. -/
abbrev Tells (translator : Bool) (plain : Cue → Prop) (n : Nat) (m : Loop α) : Prop :=
  Preserves (fun w => AllTold translator plain n w.blameView) m

variable {translator : Bool} {plain : Cue → Prop} {n : Nat}

theorem tells_sendPayload (bufferSize : Nat) {p : Payload} (hp : isBlame p = false) :
    Tells translator plain n (sendPayload env bufferSize p) := by
  intro w hw
  refine (sendFrame_view bufferSize p _ w).mono fun sent v ⟨_, writes, hv⟩ => ?_
  cases sent with
  | true =>
    obtain ⟨-, sequence, hview⟩ := hv
    rw [hview]
    refine (hw.write writes).record ?_
    rw [Event.isSilent, hp]
    rfl
  | false =>
    rw [hv.1]
    exact hw.write writes

/-- A blame line was written, and its cue has to follow. -/
structure Owing (translator : Bool) (plain : Cue → Prop) (n : Nat) (e : Error) (w : WorkerState) : Prop
    extends Telling translator plain n w.blameView where
  owes : EndsInBlame (wire w.trace) e
  opened : w.transport.closed = false

theorem sendPayload_owing {w : WorkerState} (hw : AllTold true plain n w.blameView) (bufferSize : Nat) {e : Error}
    (he : isBlame (.error e) = true) :
    Ends (sendPayload env bufferSize (.error e)) w fun sent v => v.unsent = w.unsent ∧
      if sent then Owing true plain n e v else AllTold true plain n v.blameView := by
  refine (sendFrame_view bufferSize (.error e) _ w).mono fun sent v ⟨hsame, writes, hv⟩ => ⟨hsame, ?_⟩
  cases sent with
  | false =>
    rw [if_neg Bool.false_ne_true] at hv ⊢
    rw [hv.1]
    exact hw.write writes
  | true =>
    rw [if_pos rfl] at hv ⊢
    obtain ⟨hopen, sequence, hview⟩ := hv
    have htold : Telling true plain n ((w.blameView.wrote writes).happened (.frame sequence (.error e))) := by
      refine (hw.toTelling.write writes).record fun _ => ⟨fun e he => (hw.settled e he).elim, fun _ _ _ hc => ?_, nofun⟩
      cases hc
    have htransport : v.transport = w.transport := field_of_unsent hsame (·.transport) fun _ => by rfl
    refine ⟨by rw [hview]; exact htold, ?_, htransport ▸ hopen⟩
    have htrace : v.trace = w.trace ++ [.frame sequence (.error e)] := congrArg BlameView.trace hview
    rw [htrace, wire_concat]
    exact endsInBlame_append.mpr ⟨he, sequence, rfl⟩

theorem encodes_source {c : Caption} (hlen : c.cue.text.length ≤ maxTextBytes) (hnone : c.translatedText = none)
    (hattempted : c.translationAttempted = true) : encodePayload (.captionSegment c.payload) captionBufferBytes ≠ none := by
  have hslice : c.payload.translatedText = .null 0 := by
    unfold Caption.payload
    rw [hnone]
    rfl
  have hwell : (Payload.captionSegment c.payload).WellFormed := by
    refine ⟨not_dangling_stringSlice _, ?_, fun _ => by rw [hslice]; rfl, fun hnot => ?_⟩
    · rw [hslice]
      decide
    · have hattempted : c.payload.translationAttempted = true := hattempted
      rw [hattempted] at hnot
      cases hnot
  have hsize : encodedSize (.captionSegment c.payload) ≤ captionBufferBytes := by
    have htext : c.payload.text.length.toNat = c.cue.text.length := toNat_length_stringSlice hlen
    unfold maxTextBytes at hlen
    unfold encodedSize captionBufferBytes maxTextBytes
    dsimp only
    rw [hslice, htext]
    have hzero : (Slice.null (0 : UInt16)).length.toNat = 0 := rfl
    rw [hzero]
    split
    · omega
    · omega
  obtain ⟨buffer, q, henc, -⟩ := encodePayload_of_wellFormed hwell hsize
  rw [henc]
  exact Option.some_ne_none buffer

theorem sendCaptionSegment_answers {w : WorkerState} {e : Error} (hw : Owing translator plain n e w) {c : Caption}
    (hblames : Blames e c) (hnone : c.translatedText = none) (hattempted : c.translationAttempted = true)
    (hlen : c.cue.text.length ≤ maxTextBytes) :
    Ends (sendCaptionSegment env c) w fun _ v => AllTold translator plain n v.blameView := by
  have honly {e' : Error} (he' : EndsInBlame (wire w.trace) e') : e' = e := by
    obtain ⟨-, sequence, hlast⟩ := hw.owes
    obtain ⟨-, sequence', hlast'⟩ := he'
    simp only [hlast, Option.some.injEq, Event.frame.injEq, Payload.error.injEq] at hlast'
    exact hlast'.2.symm
  unfold sendCaptionSegment
  refine (sendFrame_view captionBufferBytes (.captionSegment c.payload) _ w).bind fun sent v ⟨_, writes, hv⟩ => ?_
  have htold := hw.toTelling.write writes
  cases sent with
  | true =>
    obtain ⟨-, sequence, hview⟩ := hv
    show AllTold translator plain n v.blameView
    rw [hview]
    refine htold.settle rfl (fun _ => ⟨fun e' he' => ?_, fun _ _ _ _ _ => .inr ⟨e, hw.owes⟩, fun _ => ⟨rfl, ?_⟩⟩) nofun
    · rw [honly he']
      exact ⟨hblames, hnone, hattempted⟩
    · rintro sequence' c' hc
      rw [← (Event.caption.inj hc).2]
      exact hnone
  | false =>
    have hfailed : Write.failed ∈ w.writes ++ writes :=
      List.mem_append_right _ (hv.2 (encodes_source hlen hnone hattempted) hw.opened)
    show AllTold translator plain n (v.blameView.happened (.lost c))
    rw [hv.1]
    refine htold.settle rfl (fun _ => ⟨fun e' he' => ?_, nofun, fun _ => ⟨rfl, nofun⟩⟩) nofun
    rw [honly he']
    exact ⟨hblames, hfailed⟩

theorem sendCaptionSegment_told {w : WorkerState} (hw : AllTold translator plain n w.blameView) {c : Caption}
    (hplain : translator = true → c.translatedText = none → w.blameView.plain plain n c.cue)
    (hdegraded : translator = false → c.translatedText = none) :
    Ends (sendCaptionSegment env c) w fun _ v => AllTold translator plain n v.blameView := by
  unfold sendCaptionSegment
  refine (sendFrame_view captionBufferBytes (.captionSegment c.payload) _ w).bind fun sent v ⟨_, writes, hv⟩ => ?_
  have htold := hw.write writes
  cases sent with
  | true =>
    obtain ⟨-, sequence, hview⟩ := hv
    show AllTold translator plain n v.blameView
    rw [hview]
    refine htold.toTelling.settle rfl (fun _ => ⟨fun e he => (hw.settled e he).elim, ?_, fun hnot => ⟨rfl, ?_⟩⟩) nofun
    · intro htranslator sequence' c' hc hnone
      obtain ⟨-, rfl⟩ := Event.caption.inj hc
      exact .inl (hplain htranslator hnone)
    · intro sequence' c' hc
      obtain ⟨-, rfl⟩ := Event.caption.inj hc
      exact hdegraded hnot
  | false =>
    show AllTold translator plain n (v.blameView.happened (.lost c))
    rw [hv.1]
    exact htold.record rfl

/-! ## The translator -/

theorem tells_record {x : Event} (hx : x.isSilent = true) : Tells translator plain n (record [x]) :=
  .modify fun _ hw => hw.record hx

theorem tells_runThreads (henv : env.Translates) : Tells translator plain n (runThreads env) := by
  intro w hw
  refine ⟨hw.toTelling.set_translator ?_ ?_, hw.settled⟩
  · show (w.translator.map _).isSome = translator
    rw [Option.isSome_map]
    exact hw.present
  · intro u hu
    obtain ⟨t, ht, rfl⟩ := Option.map_eq_some_iff.mp hu
    exact (hw.held t ht).threads fun s hs => henv.explained hs

theorem tells_stopRunning (fatal : Bool) : Tells translator plain n (stopRunning fatal) := fun _ hw => hw

theorem tells_orFatal {send : Loop Bool} (h : Tells translator plain n send) : Tells translator plain n (orFatal send) :=
  h.bind fun _ => .onlyIf (tells_stopRunning true)

theorem tells_markTransportFailed : Tells translator plain n markTransportFailed :=
  .bind (.modify fun _ hw => hw) fun _ => .get_bind fun w hw => Preserves.onlyIf (tells_stopRunning true) w hw

theorem reportLocalRejection_told {w : WorkerState} (hw : AllTold true plain n w.blameView) {c : Caption}
    (hc : c.sessionId = w.sessionId) : Ends (reportLocalRejection env c) w fun reported v =>
      (reported = true → ∃ e, Blames e c ∧ Owing true plain n e v) ∧ (reported = false → AllTold true plain n v.blameView) := by
  refine Ends.get_bind ?_
  split
  · exact ⟨nofun, fun _ => hw.write [.unencoded]⟩
  · rename_i code detail hline
    obtain ⟨hblame, hblames⟩ := blames_of_diagBuild hline (show c.cue = _ from rfl)
    rw [hc] at hblame hblames
    refine (sendPayload_owing hw 512 hblame).mono fun reported v ⟨_, hv⟩ => ?_
    cases reported with
    | true => exact ⟨fun _ => ⟨_, hblames, hv⟩, nofun⟩
    | false => exact ⟨nofun, fun _ => hv⟩

theorem blameRefusal_told {w : WorkerState} (hw : AllTold true plain n w.blameView) {c : Caption}
    (hc : c.sessionId = w.sessionId) : Ends (blameRefusal env c) w fun lost v =>
      (lost = true → AllTold true plain n v.blameView) ∧ (lost = false → ∃ e, Blames e c ∧ Owing true plain n e v) := by
  refine (reportLocalRejection_told hw hc).bind fun reported v ⟨hreported, hnot⟩ => ?_
  cases reported with
  | true => exact ⟨nofun, fun _ => hreported rfl⟩
  | false =>
    refine (tells_markTransportFailed v (hnot rfl)).bind fun _ u hu => ?_
    exact (tells_record rfl u hu).bind fun _ x hx => ⟨fun _ => hx, nofun⟩

theorem submitScoped_told (henv : env.Translates) {w : WorkerState} (hw : AllTold true plain n w.blameView) {c : Caption}
    (hc : c.sessionId = w.sessionId) (hlen : c.cue.text.length ≤ maxTextBytes) :
    Ends (submitScoped env c) w fun taken v =>
      (taken = true → AllTold true plain n v.blameView) ∧ (taken = false → ∃ e, Blames e c ∧ Owing true plain n e v) := by
  refine Ends.get_bind (Ends.ite (fun _ => ?_) fun _ => ?_)
  · exact (tells_record rfl w hw).bind fun _ v hv => ⟨fun _ => hv, nofun⟩
  have hthreads : Ends (runThreads env) w fun _ v => AllTold true plain n v.blameView ∧ v.sessionId = w.sessionId :=
    ⟨tells_runThreads henv w hw, rfl⟩
  refine hthreads.bind fun _ v ⟨hv, hid⟩ => Ends.get_bind ?_
  split
  · rename_i hnone
    have hpresent := hv.present
    rw [show v.blameView.translator = none from hnone] at hpresent
    cases hpresent
  rename_i t ht
  dsimp only
  have htaken := hv.toTelling.set_translator (t := some (t.submit c v.translateSrcLang v.translateDstLang).1) rfl
    fun u hu => Option.some.inj hu ▸ (hv.held t ht).submit hlen _ _
  have hoffered := AllTold.record ⟨htaken, hv.settled⟩ (x := .offered t.load c.cue) rfl
  refine Ends.modify_bind (Ends.ite (fun _ => ⟨fun _ => hoffered, nofun⟩) fun _ => ?_)
  exact blameRefusal_told hoffered (hc.trans hid.symm)

/-! ## The two ways to the wire -/

theorem emitSegment_told (henv : env.Translates) {w : WorkerState} (hw : AllTold translator plain n w.blameView) {cue : Cue}
    (hpopped : .popped cue ∈ w.trace.drop n) (htext : cue.text ≠ []) (hlen : cue.text.length ≤ maxTextBytes)
    (attempted : Bool) : Ends (emitSegment env cue attempted) w fun _ v => AllTold translator plain n v.blameView := by
  refine Ends.get_bind ?_
  dsimp only
  refine Ends.ite (fun hoffer => ?_) fun hskip => ?_
  · simp only [Bool.and_eq_true] at hoffer
    obtain rfl : true = translator := hoffer.1.2.symm.trans hw.present
    refine (submitScoped_told henv hw (show (popped w.sessionId cue).sessionId = _ from rfl) hlen).bind
      fun taken v ⟨htaken, hnot⟩ => ?_
    cases taken with
    | true => exact htaken rfl
    | false =>
      obtain ⟨e, hblames, howing⟩ := hnot rfl
      exact sendCaptionSegment_answers howing (c := { popped w.sessionId cue with translationAttempted := true })
        ⟨hblames.recoverable, hblames.session, hblames.names⟩ rfl rfl hlen
  · refine sendCaptionSegment_told hw (fun htranslator _ => .inr ⟨?_, hpopped⟩) fun _ => rfl
    have hsome : w.translator.isSome = true := hw.present.trans htranslator
    show w.translateEnabled = false
    simpa [hsome, htext] using hskip

theorem popSegment_told {w : WorkerState} (hw : AllTold translator plain n w.blameView) :
    Ends popSegment w fun r v => AllTold translator plain n v.blameView ∧
      ∀ cue, r = some cue → .popped cue ∈ v.trace.drop n ∧ cue.text ≠ [] ∧ cue.text.length ≤ maxTextBytes := by
  refine (popSegment_ends w).mono fun r v hv => ?_
  cases r with
  | none =>
    obtain rfl : v = w := hv
    exact ⟨hw, nofun⟩
  | some cue =>
    obtain ⟨b, hpop, rfl⟩ := hv
    rw [SegmentBuilder.pop] at hpop
    split at hpop
    · cases hpop
    rename_i c queue hqueue
    obtain ⟨rfl, rfl⟩ := Prod.mk.inj (Option.some.inj hpop)
    have hlist := Ring.toList_of_pop_eq_some hqueue
    have hin (x : Cue) (hx : x ∈ c :: queue.toList) : x ∈ w.blameView.builder.queue.toList := by
      rw [show w.blameView.builder.queue.toList = c :: queue.toList from hlist]
      exact hx
    have htold : AllTold translator plain n { w.blameView with builder := { w.builder with queue := queue } } :=
      ⟨hw.toTelling.set_builder fun x hx => hw.queue x (hin x (List.mem_cons_of_mem c hx)), hw.settled⟩
    refine ⟨htold.record (x := .popped c) rfl, ?_⟩
    rintro cue hcue
    obtain rfl := Option.some.inj hcue
    refine ⟨?_, hw.queue c (hin c List.mem_cons_self)⟩
    have hstart : n ≤ w.trace.length := hw.start
    show Event.popped c ∈ (w.trace ++ [Event.popped c]).drop n
    rw [List.drop_append_of_le_length hstart]
    exact List.mem_append_right _ (List.mem_singleton_self _)

theorem tells_emitSegments (henv : env.Translates) : Tells translator plain n (emitSegments env) := by
  refine .get_bind fun w hw => ?_
  refine Preserves.bind (.loop (fun v hv => ?_) _) (fun _ => .pure _) w hw
  refine (popSegment_told hv).bind fun r u ⟨hu, hcue⟩ => ?_
  cases r with
  | none => exact hu
  | some cue =>
    obtain ⟨hpopped, htext, hlen⟩ := hcue cue rfl
    have hsent : Ends (orFatal (emitSegment env cue false)) u fun _ x => AllTold translator plain n x.blameView :=
      (emitSegment_told henv hu hpopped htext hlen false).bind fun sent x hx => Preserves.onlyIf (tells_stopRunning true) x hx
    exact hsent.bind fun _ x hx => hx

theorem tells_emitTailSegments (henv : env.Translates) : Tells translator plain n (emitTailSegments env) := by
  refine .get_bind fun w hw => ?_
  refine Preserves.bind (.loop (fun v hv => ?_) _) (fun _ => .pure _) w hw
  refine (popSegment_told hv).bind fun r u ⟨hu, hcue⟩ => ?_
  cases r with
  | none => exact hu
  | some cue =>
    obtain ⟨hpopped, htext, hlen⟩ := hcue cue rfl
    exact (emitSegment_told henv hu hpopped htext hlen _).bind fun sent x hx => hx

/-- A result of the current session is sent, after its blame line if it has no text. -/
theorem diagDeliver_told {w : WorkerState} (hw : AllTold true plain n w.blameView) {r : TranslateResult} (hr : r.Deliverable)
    (hlen : r.segment.cue.text.length ≤ maxTextBytes) :
    Ends (diagDeliver env r) w fun _ v => AllTold true plain n v.blameView := by
  have hfatal {u : WorkerState} (hu : Ends (sendCaptionSegment env r.segment) u fun _ v => AllTold true plain n v.blameView) :
      Ends (orFatal (sendCaptionSegment env r.segment)) u fun _ v => AllTold true plain n v.blameView :=
    hu.bind fun sent v hv => Preserves.onlyIf (tells_stopRunning true) v hv
  refine Ends.get_bind ?_
  split
  · rename_i code detail hline
    obtain ⟨hnone, hattempted⟩ := hr.blamed (by rw [hline]; exact Option.some_ne_none _)
    refine Ends.ite (fun hactive => ?_) fun hactive => ?_
    · obtain ⟨hblame, hblames⟩ := blames_of_diagBuild hline (show r.segment.cue = _ from rfl)
      have hid : r.segment.sessionId = w.sessionId := by simpa using (Bool.and_eq_true_iff.mp hactive).2
      rw [hid] at hblame hblames
      refine (sendPayload_owing hw 512 hblame).bind fun sent v ⟨hsame, hv⟩ => ?_
      have hsession : (v.sessionActive && decide (r.segment.sessionId = v.sessionId)) = true := by
        rw [show v.sessionActive = w.sessionActive from field_of_unsent hsame (·.sessionActive) fun _ => by rfl,
          show v.sessionId = w.sessionId from field_of_unsent hsame (·.sessionId) fun _ => by rfl]
        exact hactive
      cases sent with
      | true =>
        refine Ends.get_bind (Ends.onlyIf (fun _ => ?_) fun hnot => ?_)
        · exact hfatal (sendCaptionSegment_answers hv hblames hnone hattempted hlen)
        · rw [hsession] at hnot
          cases hnot
      | false =>
        refine (tells_markTransportFailed v hv).bind fun _ u hu => ?_
        exact (tells_stopRunning true u hu).bind fun _ x hx => tells_record rfl x hx
    · refine Ends.get_bind (Ends.onlyIf (fun hnot => (hactive hnot).elim) fun _ => hw)
  · rename_i hline
    refine Ends.get_bind (Ends.onlyIf (fun _ => hfatal ?_) fun _ => hw)
    exact sendCaptionSegment_told hw (fun _ hnone => (hr.unblamed hline hnone).elim) nofun

theorem tells_tryDeliverScoped (henv : env.Translates) : Tells translator plain n (tryDeliverScoped env) := by
  refine .bind (.modify fun _ hw => hw) fun _ => .get_bind fun w hw => ?_
  refine Ends.ite (fun _ => (tells_stopRunning true w hw).bind fun _ _ hv => hv) fun _ => ?_
  refine (tells_runThreads henv w hw).bind fun _ v hv => Ends.get_bind ?_
  split
  · exact hv
  rename_i t ht
  obtain rfl : true = translator := by
    rw [← hv.present, show v.blameView.translator = some t from ht]
    rfl
  obtain ⟨hheld, hresult⟩ := (hv.held t ht).tryDeliver
  have htaken : AllTold true plain n { v.blameView with translator := some t.tryDeliver.1 } :=
    ⟨hv.toTelling.set_translator rfl fun u hu => Option.some.inj hu ▸ hheld, hv.settled⟩
  refine Ends.modify_bind ?_
  split
  · exact htaken
  · rename_i r hr
    obtain ⟨hdeliverable, hlen⟩ := hresult r hr
    exact (diagDeliver_told htaken hdeliverable hlen).bind fun _ x hx => hx

theorem tells_deliverResults (henv : env.Translates) : Tells translator plain n (deliverResults env) := by
  refine .get_bind fun w hw => ?_
  split
  · exact hw
  · refine Preserves.bind (.loop ((tells_tryDeliverScoped henv).bind fun _ => .pure _) _) (fun _ => .pure _) w hw

end VlcWhisper.Worker
