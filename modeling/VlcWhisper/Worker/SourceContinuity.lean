import VlcWhisper.Worker.AudioBound
import VlcWhisper.Worker.AudioTimeline
import VlcWhisper.Worker.SourceChunks
import VlcWhisper.Worker.TailFlush

/-!
# Source mode without a gap (`vw_worker.c`)

The look-ahead appends the chunks of a source to the audio buffer and takes them off its front again, piece by piece, to
transcribe or drop them. The buffer clears itself if a chunk's time is more than a sample off the end of what it holds,
and what is lost so is never heard.

Main result: `source_continuity`. It never happens in a run exactly if every chunk's time agrees with the buffer, and
then every sample that was decoded is in one piece, or still buffered. Containers whose ticks are at most 60 us have
such times, if the reads are of an even size; those of 1 ms have not.
-/

namespace VlcWhisper.Worker

open VlcWhisper.Lib VlcWhisper.Protocol Relation

variable {α : Type} {env : Env} {config : Config}

/-! ## What was heard -/

/-- The windows that were transcribed. -/
def windowsHeard (trace : List Event) : List (List SessionId) :=
  trace.filterMap fun e => match e with
    | .heard window _ => some window
    | _ => none

theorem windowsHeard_append (trace later : List Event) :
    windowsHeard (trace ++ later) = windowsHeard trace ++ windowsHeard later :=
  List.filterMap_append

theorem windowsHeard_quiet {events : List Event} (h : ∀ e ∈ events, e.isQuiet = true) : windowsHeard events = [] := by
  unfold windowsHeard
  rw [List.filterMap_eq_nil_iff]
  intro e he
  have hquiet := h e he
  cases e <;> first | rfl | cases hquiet

/-- What of the state has to do with the pieces. -/
structure Audible where
  audioBuf : AudioBuffer SessionId lookaheadBufferSamples
  heard : List (List SessionId)
  vad : List (List SessionId)
  eof : Bool

def WorkerState.audible (w : WorkerState) : Audible := ⟨w.audioBuf, windowsHeard w.trace, w.vad, w.sourceEof⟩

theorem keeps_sendPayload (bufferSize : Nat) (p : Payload) :
    Keeps WorkerState.audible (sendPayload env bufferSize p) := by
  intro w
  refine .of_eq ?_
  have hspares : Spares WorkerState.unsent (sendPayload env bufferSize p) := spares_sendPayload bufferSize p
  have hunsent := hspares.eq w
  have hbuf := field_of_unsent hunsent WorkerState.audioBuf fun _ => rfl
  have hvad := field_of_unsent hunsent WorkerState.vad fun _ => rfl
  have heof := field_of_unsent hunsent WorkerState.sourceEof fun _ => rfl
  obtain ⟨events, hcore, hquiet⟩ : Ends (sendPayload env bufferSize p) w fun _ v =>
      ∃ events, v.core = w.core.record events ∧ ∀ e ∈ events, e.isQuiet = true := sendPayload_ends bufferSize p w
  have htrace : ((sendPayload env bufferSize p).run w).2.trace = w.trace ++ events := congrArg Core.trace hcore
  unfold WorkerState.audible
  rw [hbuf, hvad, heof, htrace, windowsHeard_append, windowsHeard_quiet hquiet, List.append_nil]

theorem keeps_ask (answer : Nat → α) : Keeps WorkerState.audible (ask answer) := fun _ => .of_eq rfl

theorem keeps_stopRunning (fatal : Bool) : Keeps WorkerState.audible (stopRunning fatal) := .modify_of_eq fun _ => rfl

theorem keeps_sendError (sessionId : SessionId) (code : UInt32) (recoverable : UInt8) (message : Bytes) :
    Keeps WorkerState.audible (sendError env sessionId code recoverable message) :=
  keeps_sendPayload _ _

theorem keeps_reportStatus : Keeps WorkerState.audible (reportStatus env config) := by
  refine .get_bind fun w => Steps.bind ?_ (fun _ => .onlyIf (keeps_stopRunning true)) w
  exact (keeps_ask _).bind fun _ => (keeps_ask _).bind fun _ => (keeps_ask _).bind fun _ => .get_bind fun v =>
    keeps_sendPayload _ _ v

theorem keeps_loadRunning : Keeps WorkerState.audible (loadRunning env) :=
  (keeps_ask _).bind fun _ => (Steps.onlyIf (keeps_stopRunning true)).bind fun _ => .get_bind fun _ => .refl

theorem detect_audible (window : List SessionId) (w : WorkerState) :
    Ends (detect window env.speech) w fun speech t => (∃ tick, speech = env.speech tick) ∧
      t.audible = { w.audible with vad := w.audible.vad ++ [window] } :=
  ⟨⟨w.tick, rfl⟩, rfl⟩

theorem transcribeWindow_audible (window : List SessionId) (windowPtsUs : Int) (limitUs : Option Int) (w : WorkerState) :
    Ends (transcribeWindow env window windowPtsUs limitUs) w fun ok v =>
      v.audible = if ok then { w.audible with heard := w.audible.heard ++ [window] } else w.audible := by
  have hcall : Ends (call .whisper env.transcribe) w fun _ t => t.audible = w.audible := rfl
  refine hcall.bind fun segs t ht => ?_
  cases segs with
  | none => exact ht
  | some segs =>
    refine ((keeps_ask env.memory).ends t).bind fun memory u hu => Ends.modify_bind ?_
    have hsame := hu.trans ht
    show Audible.mk u.audioBuf (windowsHeard (u.trace ++ [_])) u.vad u.sourceEof =
      { w.audible with heard := w.audible.heard ++ [window] }
    rw [windowsHeard_append, ← hsame]
    rfl

/-! ## Pieces -/

/-- What is heard of a piece. -/
def Piece.transcribed : Piece → Option (List SessionId)
  | .handed window => some window
  | .dropped _ => none

/-- A detector may decide on this boundary in a window of so many samples. -/
def Env.Decides (env : Env) (sampleCount : Nat) (b : Boundary) : Prop :=
  ∃ isEof tick, findChunkBoundary sampleCount isEof (env.speech tick) = some b

/-- The piece is what was decided in the window: a cut of it, or as much as is silent. -/
def Piece.CutFrom (decides : Nat → Boundary → Prop) (p : Piece) (window : List SessionId) : Prop :=
  ∃ b, decides window.length b ∧ match p with
    | .handed chunk => 0 < b.cutSamples ∧ chunk = window.take b.cutSamples
    | .dropped silence => 0 < b.silenceDrain ∧ silence.length ≤ b.silenceDrain

/-- These pieces are taken off the front of the buffer, each as it was decided in a window that the detector was given. -/
structure Hands (decides : Nat → Boundary → Prop) (c : Audible) (pieces : List Piece) (d : Audible) : Prop where
  nonempty : ∀ p ∈ pieces, p.samples ≠ []
  buffer : c.audioBuf.toList = (pieces.map Piece.samples).flatten ++ d.audioBuf.toList
  heard : d.heard = c.heard ++ pieces.filterMap Piece.transcribed
  offered : ∃ windows cut, d.vad = c.vad ++ windows ∧ cut.Sublist windows ∧
    List.Forall₂ (Piece.CutFrom decides) pieces cut
  ends : d.audioBuf.count = 0 ∨ d.audioBuf.endHalfUs = c.audioBuf.endHalfUs
  eof : d.eof = c.eof

variable {decides : Nat → Boundary → Prop} {c d : Audible} {pieces : List Piece}

theorem Hands.refl (c : Audible) : Hands decides c [] c :=
  ⟨nofun, rfl, (List.append_nil _).symm, ⟨[], [], (List.append_nil _).symm, .slnil, .nil⟩, .inr rfl, rfl⟩

theorem Hands.of_eq (h : d = c) : Hands decides c [] d := h ▸ .refl d

theorem Hands.detected (c : Audible) (window : List SessionId) : Hands decides c [] { c with vad := c.vad ++ [window] } :=
  ⟨nofun, rfl, (List.append_nil _).symm, ⟨[window], [], rfl, List.nil_sublist _, .nil⟩, .inr rfl, rfl⟩

theorem Hands.trans {e : Audible} {later : List Piece} (h : Hands decides c pieces d) (h' : Hands decides d later e) :
    Hands decides c (pieces ++ later) e := by
  refine ⟨?_, ?_, ?_, ?_, ?_, h'.eof.trans h.eof⟩
  · intro p hp
    rcases List.mem_append.mp hp with hp | hp
    · exact h.nonempty p hp
    · exact h'.nonempty p hp
  · rw [h.buffer, h'.buffer, List.map_append, List.flatten_append, List.append_assoc]
  · rw [h'.heard, h.heard, List.filterMap_append, List.append_assoc]
  · obtain ⟨windows, cut, hvad, hsub, hcut⟩ := h.offered
    obtain ⟨windows', cut', hvad', hsub', hcut'⟩ := h'.offered
    refine ⟨windows ++ windows', cut ++ cut', ?_, hsub.append hsub', List.rel_append hcut hcut'⟩
    rw [hvad', hvad, List.append_assoc]
  · rcases h'.ends with hempty | hsame
    · exact .inl hempty
    · rcases h.ends with hempty' | hsame'
      · left
        have hlen := congrArg List.length h'.buffer
        rw [List.length_append, AudioBuffer.length_toList, AudioBuffer.length_toList] at hlen
        omega
      · exact .inr (hsame.trans hsame')

theorem Hands.mono {decides' : Nat → Boundary → Prop} (h : Hands decides c pieces d)
    (hdecides : ∀ n b, decides n b → decides' n b) : Hands decides' c pieces d := by
  refine ⟨h.nonempty, h.buffer, h.heard, ?_, h.ends, h.eof⟩
  obtain ⟨windows, cut, hvad, hsub, hcut⟩ := h.offered
  refine ⟨windows, cut, hvad, hsub, hcut.imp ?_⟩
  rintro p window ⟨b, hb, hp⟩
  exact ⟨b, hdecides _ _ hb, hp⟩

/-- A drain takes a piece of the window that the detector was given before. -/
theorem Hands.drain {e : Audible} {window : List SessionId} {p : Piece} {n : Nat} (hn : 0 < n)
    (hcount : c.audioBuf.count ≠ 0) (hp : p.samples = c.audioBuf.toList.take n) (hcut : p.CutFrom decides window)
    (he : e = { c with heard := c.heard ++ p.transcribed.toList, vad := c.vad ++ [window] })
    (hd : d = { e with audioBuf := e.audioBuf.drain n }) : Hands decides c [p] d := by
  subst he hd
  refine ⟨?_, ?_, ?_, ⟨[window], [window], rfl, List.Sublist.refl _, .cons hcut .nil⟩, ?_, rfl⟩
  · intro q hq
    rw [List.mem_singleton.mp hq, hp, ne_eq, List.take_eq_nil_iff, ← List.length_eq_zero_iff, AudioBuffer.length_toList]
    omega
  · rw [AudioBuffer.toList_drain, List.map_singleton, List.flatten_singleton, hp, List.take_append_drop]
  · cases p <;> rfl
  · exact AudioBuffer.endHalfUs_drain _ _

theorem Hands.endsAt (h : Hands decides c pieces d) {P : Int → Prop} {i : Nat} (hends : c.audioBuf.EndsAt P i) :
    d.audioBuf.EndsAt P i := by
  rcases h.ends with hempty | hsame
  · exact .inl hempty
  · rcases hends with hempty | ⟨z, hz, hend⟩
    · left
      have hlen := congrArg List.length h.buffer
      rw [List.length_append, AudioBuffer.length_toList, AudioBuffer.length_toList] at hlen
      omega
    · exact .inr ⟨z, hz, hsame.trans hend⟩

theorem Hands.count_lt {p : Piece} (h : Hands decides c [p] d) : d.audioBuf.count < c.audioBuf.count := by
  have hlen := congrArg List.length h.buffer
  have hpos := List.length_pos_of_ne_nil (h.nonempty p List.mem_cons_self)
  rw [List.map_singleton, List.flatten_singleton, List.length_append, AudioBuffer.length_toList,
    AudioBuffer.length_toList] at hlen
  omega

/-! ## The loops that take them -/

theorem take_getSamples {b : AudioBuffer SessionId lookaheadBufferSamples} {n : Nat}
    (hn : n ≤ (b.getSamples chunkMaxSamples).1.length) : (b.getSamples chunkMaxSamples).1.take n = b.toList.take n := by
  rw [AudioBuffer.getSamples_fst, List.length_take] at hn
  rw [AudioBuffer.getSamples_fst, List.take_take, Nat.min_eq_left (by omega)]

/-- **A round of the chunk loop** takes one piece, or it is the last. -/
theorem chunkRound_hands (w : WorkerState) : Ends (chunkRound env config) w fun r v =>
    (r = none → ∃ p, Hands env.Decides w.audible [p] v.audible) ∧
      (r ≠ none → v.running = true → Hands env.Decides w.audible [] v.audible) := by
  refine Ends.get_bind (Ends.ite (fun _ => ⟨nofun, fun _ _ => .refl _⟩) fun hmore => ?_)
  have hcount : w.audioBuf.count ≠ 0 := by
    simp only [Bool.not_eq_true', Bool.not_eq_false, Bool.or_eq_true, Bool.and_eq_true, decide_eq_true_eq] at hmore
    rcases hmore with h | h
    · exact Nat.ne_of_gt (Nat.lt_of_lt_of_le (by decide) h)
    · omega
  have htake (n : Nat) := @take_getSamples w.audioBuf n
  generalize w.audioBuf.getSamples chunkMaxSamples = samples at htake ⊢
  obtain ⟨window, boundaryPtsUs⟩ := samples
  refine (detect_audible window w).bind fun speech t ⟨⟨tick, hspeech⟩, ht⟩ => ?_
  subst hspeech
  split
  · exact ⟨nofun, fun _ _ => ht ▸ .detected _ window⟩
  rename_i b hb
  refine Ends.ite (fun hsilence => Ends.modify_bind ?_) fun hnot => Ends.ite (fun hcut => ?_) fun _ => ?_
  · refine ⟨fun _ => ⟨.dropped (w.audioBuf.toList.take b.silenceDrain), ?_⟩, nofun⟩
    refine .drain hsilence hcount rfl ⟨b, ⟨_, tick, hb⟩, hsilence, List.length_take_le _ _⟩ (ht.trans ?_) rfl
    rw [Piece.transcribed, Option.toList_none, List.append_nil]
  · have hwithin : b.cutSamples ≤ window.length := by
      cases findChunkBoundary_valid hb with
      | cut n _ hle => exact hle
      | silence n hn => exact (hnot hn).elim
    have hchunk : Ends (transcribeChunk env (window.take b.cutSamples) boundaryPtsUs) t fun ok v =>
        v.audible = if ok then { t.audible with heard := t.audible.heard ++ [window.take b.cutSamples] } else t.audible :=
      Ends.get_bind (Ends.ite (fun _ => transcribeWindow_audible _ _ _ t) fun _ => rfl)
    refine hchunk.bind fun ok u hu => ?_
    cases ok with
    | false =>
      refine ((keeps_sendError w.sessionId eInternal 0 (ascii "Whisper inference failed")).ends u).bind fun _ v _ => ?_
      exact Ends.modify_bind ⟨nofun, fun _ hrunning => by cases hrunning⟩
    | true =>
      have hload : Ends (loadRunning env) u fun running v => v.audible = u.audible ∧ running = v.running :=
        ⟨keeps_loadRunning.ends u, (loadRunning_ends u).2⟩
      refine hload.bind fun running v ⟨hv, hrunning⟩ => Ends.ite (fun hstopped => ⟨nofun, fun _ hgo => ?_⟩) fun _ => ?_
      · have hgo : v.running = true := hgo
        rw [hrunning, hgo] at hstopped
        cases hstopped
      have hchunkHeard := hv.trans hu
      rw [if_pos rfl, ht] at hchunkHeard
      refine Ends.modify_bind ((keeps_reportStatus.ends _).bind fun _ x hx => ?_)
      refine ⟨fun _ => ⟨.handed (window.take b.cutSamples), ?_⟩, nofun⟩
      exact .drain hcut hcount (htake _ hwithin) ⟨b, ⟨_, tick, hb⟩, hcut, rfl⟩ hchunkHeard hx
  · exact ⟨nofun, fun _ _ => ht ▸ .detected _ window⟩

theorem flushRound_hands (w : WorkerState) : Ends (flushRound env) w fun r v =>
    (r = none → ∃ p, Hands env.Decides w.audible [p] v.audible) ∧
      (r ≠ none → Hands env.Decides w.audible [] v.audible) ∧ (r = some true → v.audioBuf.count = 0) := by
  refine Ends.get_bind (Ends.ite (fun hempty => ⟨nofun, fun _ => .refl _, fun _ => hempty⟩) fun hcount => ?_)
  have htake (n : Nat) := @take_getSamples w.audioBuf n
  generalize w.audioBuf.getSamples chunkMaxSamples = samples at htake ⊢
  obtain ⟨window, windowPtsUs⟩ := samples
  refine (detect_audible window w).bind fun speech t ⟨⟨tick, hspeech⟩, ht⟩ => ?_
  subst hspeech
  split
  · exact ⟨nofun, fun _ => ht ▸ .detected _ window, nofun⟩
  rename_i b hb
  refine Ends.ite (fun _ => ⟨nofun, fun _ => ht ▸ .detected _ window, nofun⟩) fun _ => ?_
  refine Ends.ite (fun hsilence => Ends.modify_bind ?_) fun hnot => ?_
  · refine ⟨fun _ => ⟨.dropped (w.audioBuf.toList.take b.silenceDrain), ?_⟩, fun hne => absurd rfl hne, nofun⟩
    refine .drain hsilence hcount rfl ⟨b, ⟨_, tick, hb⟩, hsilence, List.length_take_le _ _⟩ (ht.trans ?_) rfl
    rw [Piece.transcribed, Option.toList_none, List.append_nil]
  · have hwithin : 0 < b.cutSamples ∧ b.cutSamples ≤ window.length := by
      cases findChunkBoundary_valid hb with
      | cut n hn hle => exact ⟨hn, hle⟩
      | silence n hn => exact (hnot hn).elim
    refine (transcribeWindow_audible (window.take b.cutSamples) windowPtsUs none t).bind fun ok u hu => ?_
    cases ok with
    | false => exact ⟨nofun, fun _ => (hu.trans ht) ▸ .detected _ window, nofun⟩
    | true =>
      rw [if_pos rfl, ht] at hu
      refine Ends.modify_bind ⟨fun _ => ?_, fun hne => absurd rfl hne, nofun⟩
      refine ⟨.handed (window.take b.cutSamples), ?_⟩
      exact .drain hwithin.1 hcount (htake _ hwithin.2) ⟨b, ⟨_, tick, hb⟩, hwithin.1, rfl⟩ hu rfl

/-- The chunk loop takes pieces. -/
theorem chunkLoop_hands (w : WorkerState) : Ends (loop (w.audioBuf.count + 1) (chunkRound env config)) w fun _ v =>
    v.running = true → ∃ pieces, Hands env.Decides w.audible pieces v.audible := by
  have hround : ∀ u : WorkerState, (∃ pieces, Hands env.Decides w.audible pieces u.audible) →
      Ends (chunkRound env config) u fun r v =>
        (∀ a, r = some a → v.running = true → ∃ pieces, Hands env.Decides w.audible pieces v.audible) ∧
          (r = none →
            (∃ pieces, Hands env.Decides w.audible pieces v.audible) ∧ v.audioBuf.count < u.audioBuf.count) := by
    rintro u ⟨pieces, hpieces⟩
    refine (chunkRound_hands u).mono fun r v ⟨htakes, hlast⟩ => ⟨?_, ?_⟩
    · rintro a rfl hrunning
      exact ⟨_, hpieces.trans (hlast (Option.some_ne_none a) hrunning)⟩
    · intro hnone
      obtain ⟨p, hp⟩ := htakes hnone
      exact ⟨⟨_, hpieces.trans hp⟩, hp.count_lt⟩
  have hloop := Ends.loop (fun u : WorkerState => u.audioBuf.count) hround ⟨[], .refl _⟩ (Nat.lt_succ_self _)
  exact hloop.mono fun r v ⟨_, _, hv⟩ => hv

/-- The tail flush takes pieces, all of them if it succeeds. -/
theorem flushAudioTail_hands (w : WorkerState) : Ends (flushAudioTail env) w fun flushed v =>
    (∃ pieces, Hands env.Decides w.audible pieces v.audible) ∧ (flushed = true → v.audioBuf.count = 0) := by
  refine Ends.get_bind (Ends.ite (fun _ => ⟨⟨[], .refl _⟩, nofun⟩) fun _ => ?_)
  have hround : ∀ u : WorkerState, (∃ pieces, Hands env.Decides w.audible pieces u.audible) →
      Ends (flushRound env) u fun r v =>
        (∀ a, r = some a → (∃ pieces, Hands env.Decides w.audible pieces v.audible) ∧
          (a = true → v.audioBuf.count = 0)) ∧
          (r = none →
            (∃ pieces, Hands env.Decides w.audible pieces v.audible) ∧ v.audioBuf.count < u.audioBuf.count) := by
    rintro u ⟨pieces, hpieces⟩
    refine (flushRound_hands u).mono fun r v ⟨htakes, hlast, hdone⟩ => ⟨?_, ?_⟩
    · rintro a rfl
      exact ⟨⟨_, hpieces.trans (hlast (Option.some_ne_none a))⟩, fun ha => hdone (congrArg some ha)⟩
    · intro hnone
      obtain ⟨p, hp⟩ := htakes hnone
      exact ⟨⟨_, hpieces.trans hp⟩, hp.count_lt⟩
  have hloop := Ends.loop (fun u : WorkerState => u.audioBuf.count) hround ⟨[], .refl _⟩ (Nat.lt_succ_self _)
  refine hloop.bind fun r v ⟨a, hr, hpieces, hdone⟩ => ⟨hpieces, fun hflushed => hdone ?_⟩
  rw [hr] at hflushed
  exact hflushed

/-! ## The look-ahead -/

theorem call_readSource {read : SourceRead} (hread : ∀ n, env.readSource n = read) (w : WorkerState) :
    Ends (call .readSource env.readSource) w fun answer t =>
      answer = read ∧ t = { w with tick := t.tick, calls := t.calls } :=
  ⟨hread _, rfl⟩

/-- **A chunk is appended, and pieces are taken.** -/
theorem lookahead_ok {w : WorkerState} {samples : Nat} {ptsUs : Int} (hread : ∀ n, env.readSource n = .ok samples ptsUs)
    (hpos : 0 < samples) (hwants : w.wantsLookahead = true) : Ends (lookahead env config) w fun _ v =>
      v.running = true → ∃ pieces, Hands env.Decides (appendDecoded samples ptsUs w).audible pieces v.audible := by
  refine Ends.get_bind (Ends.ite (fun hnot => absurd hwants (by simpa using hnot)) fun _ => ?_)
  refine (call_readSource hread w).bind fun read t ⟨hanswer, ht⟩ => ?_
  subst hanswer
  refine Ends.ite (fun _ => Ends.modify_bind (Ends.get_bind ?_)) fun hnot => absurd hpos hnot
  refine (chunkLoop_hands _).bind fun _ v hv hrunning => ?_
  have hsame : (appendDecoded samples ptsUs t).audible = (appendDecoded samples ptsUs w).audible := by
    rw [ht]
    rfl
  rw [← hsame]
  exact hv hrunning

theorem lookahead_few {w : WorkerState} {samples : Nat} {ptsUs : Int} (hread : ∀ n, env.readSource n = .ok samples ptsUs)
    (hpos : 0 < samples) (hwants : w.wantsLookahead = true) (heof : w.sourceEof = false)
    (hfew : (appendDecoded samples ptsUs w).audioBuf.count < chunkMinSamples) :
    Ends (lookahead env config) w fun _ v =>
      ∃ tick calls, v = { appendDecoded samples ptsUs w with tick := tick, calls := calls } := by
  refine Ends.get_bind (Ends.ite (fun hnot => absurd hwants (by simpa using hnot)) fun _ => ?_)
  refine (call_readSource hread w).bind fun read t ⟨hanswer, ht⟩ => ?_
  subst hanswer
  refine Ends.ite (fun _ => Ends.modify_bind (Ends.get_bind ?_)) fun hnot => absurd hpos hnot
  have hsame : appendDecoded samples ptsUs t =
      { appendDecoded samples ptsUs w with tick := t.tick, calls := t.calls } := by
    rw [ht]
    rfl
  have hround : Ends (chunkRound env config) (appendDecoded samples ptsUs t) fun r v =>
      r = some () ∧ v = appendDecoded samples ptsUs t := by
    refine Ends.get_bind (Ends.ite (fun _ => ⟨rfl, rfl⟩) fun hmore => ?_)
    have hshort : (appendDecoded samples ptsUs t).audioBuf.count < chunkMinSamples := by
      rw [hsame]
      exact hfew
    have hgoing : (appendDecoded samples ptsUs t).sourceEof = false := by
      rw [hsame]
      exact heof
    rw [hgoing] at hmore
    simp only [Bool.not_eq_true', Bool.not_eq_false, Bool.or_eq_true, Bool.false_and, Bool.false_eq_true, or_false,
      decide_eq_true_eq] at hmore
    omega
  have hloop : Ends (loop ((appendDecoded samples ptsUs t).audioBuf.count + 1) (chunkRound env config))
      (appendDecoded samples ptsUs t) fun _ v => v = appendDecoded samples ptsUs t := by
    refine hround.bind fun r v ⟨hr, hv⟩ => ?_
    subst hr
    exact hv
  exact hloop.bind fun _ v hv => ⟨t.tick, t.calls, hv.trans hsame⟩

theorem lookahead_eof {w : WorkerState} (hread : ∀ n, env.readSource n = .eof) (hwants : w.wantsLookahead = true) :
    Ends (lookahead env config) w fun _ v => v.running = true →
      v.audioBuf.count = 0 ∧ ∃ pieces, Hands env.Decides { w.audible with eof := true } pieces v.audible := by
  refine Ends.get_bind (Ends.ite (fun hnot => absurd hwants (by simpa using hnot)) fun _ => ?_)
  refine (call_readSource hread w).bind fun read t ⟨hanswer, ht⟩ => ?_
  subst hanswer
  refine Ends.modify_bind ((flushAudioTail_hands _).bind fun flushed u hu => Ends.ite (fun _ => ?_) fun hflushed => ?_)
  · refine ((keeps_sendError w.sessionId eInternal 0 (ascii "Source tail inference failed")).ends u).bind fun _ v _ => ?_
    exact Ends.modify_bind fun hrunning => by cases hrunning
  · obtain ⟨⟨pieces, hpieces⟩, hdone⟩ := hu
    refine (keeps_reportStatus.ends u).bind fun _ v hv => fun _ => ?_
    have hstart : WorkerState.audible { t with sourceEof := true } = { w.audible with eof := true } := by
      rw [ht]
      rfl
    rw [hstart, ← hv] at hpieces
    refine ⟨?_, pieces, hpieces⟩
    show v.audible.audioBuf.count = 0
    rw [hv]
    exact hdone (by simpa using hflushed)

theorem lookahead_again {w : WorkerState} (hread : ∀ n, env.readSource n = .again) (hwants : w.wantsLookahead = true) :
    Ends (lookahead env config) w fun _ v => v.audible = w.audible := by
  refine Ends.get_bind (Ends.ite (fun hnot => absurd hwants (by simpa using hnot)) fun _ => ?_)
  refine (call_readSource hread w).bind fun read t ⟨hanswer, ht⟩ => ?_
  subst hanswer
  show t.audible = w.audible
  rw [ht]
  rfl

/-! ## Runs of a source -/

/-- What the worker sees of a read. -/
def ReadResult.sourceRead (r : ReadResult α) : SourceRead :=
  match r.status with
  | .ok => .ok r.samples.length (r.ptsUs.getD (-1))
  | .again => .again
  | .eof => .eof
  | .error => .error

/-- A round of the main loop: where the playback is by then, and how much is read ahead. -/
structure SourceRound where
  env : Env
  playbackPtsUs : Int
  maxSamples : Nat
  positive : 0 < maxSamples
  fits : maxSamples ≤ lookaheadChunkSamples

/-- The worker and the source it reads; `decoded` are the samples that were read. -/
structure SourceRun (α : Type) where
  worker : WorkerState
  decoder : SourceDecoder α
  answers : List (CodecAnswer α)
  decoded : List α

/-- The worker has just opened the source. -/
structure SourceReady (w : WorkerState) : Prop where
  below : BelowRunning w
  empty : w.audioBuf.count = 0
  eof : w.sourceEof = false

namespace SourceRun

def opened (w : WorkerState) (answers : List (CodecAnswer α)) : SourceRun α := ⟨w, .opened, answers, []⟩

/-- The worker as a round finds it. -/
def found (s : SourceRun α) (r : SourceRound) : WorkerState := { s.worker with currentPlaybackPtsUs := r.playbackPtsUs }

/-- The round reads ahead. -/
def reads (s : SourceRun α) (r : SourceRound) : Bool := (s.found r).running && (s.found r).wantsLookahead

def step (config : Config) (s : SourceRun α) (r : SourceRound) : SourceRun α :=
  if s.reads r then
    let (read, decoder, answers) := s.decoder.read r.maxSamples s.answers
    let env := { r.env with readSource := fun _ => read.sourceRead }
    { worker := ((lookahead env config).run (s.found r)).2, decoder, answers, decoded := s.decoded ++ read.samples }
  else { s with worker := s.found r }

/-- An append at that time does not clear the buffer; one without a time goes on where the last chunk ended. -/
def GoesOn (w : WorkerState) (ptsUs : Int) : Prop :=
  w.audioBuf.isDiscontinuity (if 0 ≤ ptsUs then ptsUs else w.decodedPtsUs) = false

/-- The chunk of the round, if there is one, does not clear the buffer. -/
def Continues (s : SourceRun α) (r : SourceRound) : Prop :=
  s.reads r = true → ∀ samples ptsUs, (s.decoder.read r.maxSamples s.answers).1.sourceRead = .ok samples ptsUs →
    GoesOn s.worker ptsUs

/-- The next sample's time agrees with the buffer: it is the decoder's, if something is left over, or the next frame's. -/
def Agrees (s : SourceRun α) (r : SourceRound) : Prop :=
  s.reads r = true → ∀ p ∈ s.decoder.nextPtsUs s.answers, GoesOn s.worker p

/-- The samples that were decoded are those of the pieces, in order, and those that are still buffered. Each piece is as
it was decided in a window that the detector was given. -/
structure Accounts (decides : Nat → Boundary → Prop) (before : Audible) (s : SourceRun α)
    (pieces : List (Piece × List α)) (rest : List α) : Prop where
  decoded : s.decoded = pieces.flatMap Prod.snd ++ rest
  matched : ∀ p ∈ pieces, p.2.length = p.1.samples.length ∧ p.2 ≠ []
  buffered : rest.length = s.worker.audioBuf.count
  heard : windowsHeard s.worker.trace = before.heard ++ (pieces.map Prod.fst).filterMap Piece.transcribed
  offered : ∃ windows cut, s.worker.vad = before.vad ++ windows ∧ cut.Sublist windows ∧
    List.Forall₂ (Piece.CutFrom decides) (pieces.map Prod.fst) cut

/-- Nothing of the source is lost: what is not decoded yet is still to come, and a worker that runs accounts for what is,
at the end for all of it. -/
structure NothingLost (decides : Nat → Boundary → Prop) (w : WorkerState) (answers : List (CodecAnswer α))
    (s : SourceRun α) : Prop where
  source : s.decoded ++ (s.decoder.leftover ++ decodedSamples s.answers) = decodedSamples answers
  handled : s.worker.running = true → ∃ pieces rest, Accounts decides w.audible s pieces rest ∧
    (s.worker.sourceEof = true → rest = [] ∧ s.decoded = decodedSamples answers)

variable {s : SourceRun α} {r : SourceRound}

theorem step_of_reads (h : s.reads r = true) :
    let read := s.decoder.read r.maxSamples s.answers
    let env := { r.env with readSource := fun _ => read.1.sourceRead }
    s.step config r = ⟨((lookahead env config).run (s.found r)).2, read.2.1, read.2.2, s.decoded ++ read.1.samples⟩ := by
  dsimp only
  unfold step
  rw [if_pos h]

theorem step_of_not_reads (h : ¬ s.reads r = true) : s.step config r = { s with worker := s.found r } := if_neg h

theorem plays_step (h : s.decoder.Plays s.answers) : (s.step config r).decoder.Plays (s.step config r).answers := by
  by_cases hreads : s.reads r = true
  · rw [step_of_reads hreads]
    exact (SourceDecoder.read_plays r.positive h).1.plays
  · rw [step_of_not_reads hreads]
    exact h

theorem step_decoder (h : s.reads r = true) :
    (s.step config r).decoder = (s.decoder.read r.maxSamples s.answers).2.1 :=
  congrArg decoder (step_of_reads h)

theorem step_answers (h : s.reads r = true) :
    (s.step config r).answers = (s.decoder.read r.maxSamples s.answers).2.2 :=
  congrArg SourceRun.answers (step_of_reads h)

/-- The chunk's time is that of the next sample. -/
theorem continues_iff_agrees (h : s.decoder.Plays s.answers) : s.Continues r ↔ s.Agrees r := by
  obtain ⟨⟨-, houtcome⟩, -⟩ := SourceDecoder.read_plays r.positive h
  unfold Continues Agrees
  generalize s.decoder.read r.maxSamples s.answers = read at houtcome ⊢
  obtain ⟨⟨status, chunk, chunkPts⟩, d, later⟩ := read
  dsimp only at houtcome
  rcases houtcome with ⟨p, hnext, rfl, rfl, -⟩ | ⟨hnext, -, rfl | ⟨rfl, -⟩⟩
  · rw [hnext]
    simp [ReadResult.sourceRead]
  · rw [hnext]
    simp [ReadResult.sourceRead]
  · rw [hnext]
    simp [ReadResult.sourceRead]

/-! ## Samples of pieces -/

theorem exists_matched {pieces : List Piece} (hne : ∀ p ∈ pieces, p.samples ≠ []) {l : List α}
    (hlen : ((pieces.map Piece.samples).flatten).length ≤ l.length) :
    ∃ (matched : List (Piece × List α)) (rest : List α), matched.map Prod.fst = pieces ∧
      (∀ p ∈ matched, p.2.length = p.1.samples.length ∧ p.2 ≠ []) ∧ l = matched.flatMap Prod.snd ++ rest ∧
      ((pieces.map Piece.samples).flatten).length + rest.length = l.length := by
  induction pieces generalizing l with
  | nil => exact ⟨[], l, rfl, nofun, rfl, Nat.zero_add _⟩
  | cons piece pieces ih =>
    rw [List.map_cons, List.flatten_cons, List.length_append] at hlen
    obtain ⟨matched, rest, hfst, hmatched, hl, hrest⟩ :=
      ih (fun p hp => hne p (List.mem_cons_of_mem _ hp)) (l := l.drop piece.samples.length)
        (by rw [List.length_drop]; omega)
    have htaken : (l.take piece.samples.length).length = piece.samples.length := by
      rw [List.length_take]
      omega
    refine ⟨(piece, l.take piece.samples.length) :: matched, rest, ?_, ?_, ?_, ?_⟩
    · rw [List.map_cons, hfst]
    · intro p hp
      rcases List.mem_cons.mp hp with rfl | hp
      · refine ⟨htaken, List.ne_nil_of_length_pos ?_⟩
        rw [htaken]
        exact List.length_pos_of_ne_nil (hne _ List.mem_cons_self)
      · exact hmatched p hp
    · rw [List.flatMap_cons, List.append_assoc, ← hl, List.take_append_drop]
    · rw [List.length_drop] at hrest
      rw [List.map_cons, List.flatten_cons, List.length_append]
      omega

/-- What was decoded comes behind what is buffered, and pieces are taken off the front. -/
theorem Accounts.hands {before t : Audible} {pieces : List (Piece × List α)} {rest samples : List α}
    (h : Accounts decides before s pieces rest) {later : List Piece} {s' : SourceRun α}
    (hcount : t.audioBuf.count = s.worker.audioBuf.count + samples.length)
    (hheard : t.heard = windowsHeard s.worker.trace) (hvad : t.vad = s.worker.vad)
    (hhands : Hands decides t later s'.worker.audible) (hdecoded : s'.decoded = s.decoded ++ samples) :
    ∃ pieces' rest', Accounts decides before s' pieces' rest' := by
  have hlen := congrArg List.length hhands.buffer
  have hbuffered := h.buffered
  rw [List.length_append, AudioBuffer.length_toList, AudioBuffer.length_toList] at hlen
  obtain ⟨matched, rest', hfst, hmatched, hl, hrest⟩ :=
    exists_matched hhands.nonempty (l := rest ++ samples) (by rw [List.length_append]; omega)
  rw [List.length_append] at hrest
  have hheard' : windowsHeard s'.worker.trace = t.heard ++ later.filterMap Piece.transcribed := hhands.heard
  have hleft : s'.worker.audible.audioBuf.count = s'.worker.audioBuf.count := rfl
  refine ⟨pieces ++ matched, rest', ?_, ?_, ?_, ?_, ?_⟩
  · rw [hdecoded, h.decoded, List.append_assoc, hl, List.flatMap_append, List.append_assoc]
  · intro p hp
    rcases List.mem_append.mp hp with hp | hp
    · exact h.matched p hp
    · exact hmatched p hp
  · omega
  · rw [hheard', hheard, h.heard, List.map_append, List.filterMap_append, hfst, List.append_assoc]
  · obtain ⟨windows, cut, hbefore, hsub, hcut⟩ := h.offered
    obtain ⟨windows', cut', hlater, hsub', hcut'⟩ := hhands.offered
    refine ⟨windows ++ windows', cut ++ cut', ?_, hsub.append hsub', ?_⟩
    · have hvad' : s'.worker.vad = t.vad ++ windows' := hlater
      rw [hvad', hvad, hbefore, List.append_assoc]
    · rw [List.map_append, hfst]
      exact List.rel_append hcut hcut'

/-! ## A step that reads -/

theorem wants_of_reads (h : s.reads r = true) : s.worker.running = true ∧ (s.found r).wantsLookahead = true :=
  Bool.and_eq_true_iff.mp h

theorem source_of_wants {w : WorkerState} (h : w.wantsLookahead = true) :
    w.sourceMode = true ∧ (∃ id, w.sourceDecoder = some id) ∧ w.sourceEof = false := by
  simp only [WorkerState.wantsLookahead, Bool.and_eq_true, Bool.not_eq_true'] at h
  exact ⟨h.1.1.1.1.2, Option.isSome_iff_exists.mp h.1.1.1.2, h.1.2⟩

theorem audioBuf_appendDecoded {w : WorkerState} {id : SessionId} (hid : w.sourceDecoder = some id) (samples : Nat)
    (ptsUs : Int) : (appendDecoded samples ptsUs w).audioBuf =
      w.audioBuf.append (List.replicate samples id) (if 0 ≤ ptsUs then ptsUs else w.decodedPtsUs) := by
  unfold appendDecoded
  rw [hid]
  simp

theorem appendDecoded_empty {w : WorkerState} {id : SessionId} (hid : w.sourceDecoder = some id)
    (hempty : w.audioBuf.count = 0) {samples : Nat} (hpos : 0 < samples) (hroom : samples ≤ lookaheadBufferSamples)
    {p : Int} (hp : 0 ≤ p) : (appendDecoded samples p w).audioBuf.count = samples ∧
      (appendDecoded samples p w).audioBuf.endHalfUs = 2 * p + 125 * samples := by
  have hlen : (List.replicate samples id).length = samples := List.length_replicate
  rw [audioBuf_appendDecoded hid, if_pos hp]
  constructor
  · rw [AudioBuffer.count_append_empty hempty (by rw [hlen]; exact hroom), hlen]
  · rw [AudioBuffer.endHalfUs_append_empty hempty (List.ne_nil_of_length_pos (by omega)), hlen]

theorem endsAt_appendDecoded {w : WorkerState} {id : SessionId} (hid : w.sourceDecoder = some id) {samples i : Nat}
    (hpos : 0 < samples) {p : Int} (hp : 0 ≤ p) (hgoesOn : GoesOn w p) {P : Int → Prop} (hskew : P (2 * p - 125 * i))
    (hends : w.audioBuf.EndsAt P i) : (appendDecoded samples p w).audioBuf.EndsAt P (i + samples) := by
  have hchunk : List.replicate samples id ≠ [] := List.ne_nil_of_length_pos (by rw [List.length_replicate]; exact hpos)
  unfold GoesOn at hgoesOn
  rw [if_pos hp] at hgoesOn
  rw [audioBuf_appendDecoded hid, if_pos hp]
  right
  rcases Nat.eq_zero_or_pos w.audioBuf.count with hempty | hsome
  · refine ⟨_, hskew, ?_⟩
    rw [AudioBuffer.endHalfUs_append_empty hempty hchunk, List.length_replicate]
    push_cast
    omega
  · rcases hends with hempty | ⟨z, hz, hend⟩
    · omega
    · refine ⟨z, hz, ?_⟩
      rw [AudioBuffer.endHalfUs_append hsome hgoesOn, hend, List.length_replicate]
      push_cast
      omega

theorem below_found {w : WorkerState} (h : BelowRunning w) (hrunning : w.running = true) (hmode : w.sourceMode = true) :
    w.audioBuf.count < chunkMaxSamples := by
  have hbelow := h.below hrunning
  rwa [WorkerState.limit, if_pos hmode] at hbelow

theorem below_step (h : BelowRunning s.worker) : BelowRunning (s.step config r).worker := by
  have hfound : BelowRunning (s.found r) := ⟨⟨h.dropped, h.positive, h.threshold⟩, h.below⟩
  by_cases hreads : s.reads r = true
  · rw [step_of_reads hreads]
    obtain ⟨hrunning, -⟩ := wants_of_reads hreads
    refine below_lookahead (fun n samples ptsUs hread => ?_) ⟨hfound, fun hmode => below_found hfound hrunning hmode⟩
    have hlen := SourceDecoder.length_read r.maxSamples s.answers s.decoder
    have hfits := r.fits
    generalize s.decoder.read r.maxSamples s.answers = read at hread hlen
    obtain ⟨⟨status, chunk, chunkPts⟩, d, answers⟩ := read
    dsimp only [ReadResult.sourceRead] at hread hlen
    cases status with
    | ok =>
      obtain ⟨rfl, -⟩ := SourceRead.ok.inj hread
      omega
    | again | eof | error => cases hread
  · rw [step_of_not_reads hreads]
    exact hfound

theorem step_few (hreads : s.reads r = true) {samples : Nat} {ptsUs : Int} (hpos : 0 < samples)
    (hok : (s.decoder.read r.maxSamples s.answers).1.sourceRead = .ok samples ptsUs)
    (hfew : (appendDecoded samples ptsUs (s.found r)).audioBuf.count < chunkMinSamples) :
    ∃ tick calls, (s.step config r).worker =
      { appendDecoded samples ptsUs (s.found r) with tick := tick, calls := calls } := by
  obtain ⟨-, hwants⟩ := wants_of_reads hreads
  obtain ⟨-, -, heof⟩ := source_of_wants hwants
  rw [step_of_reads hreads]
  generalize (s.decoder.read r.maxSamples s.answers).1.sourceRead = read at hok
  subst hok
  exact lookahead_few (fun _ => rfl) hpos hwants heof hfew

/-- The step lemma: a round whose chunk agrees keeps everything. -/
theorem NothingLost.step {w : WorkerState} {answers : List (CodecAnswer α)} (h : NothingLost decides w answers s)
    (hdecides : ∀ n b, r.env.Decides n b → decides n b) (hplays : s.decoder.Plays s.answers)
    (hbelow : BelowRunning s.worker) (hagrees : s.Agrees r) : NothingLost decides w answers (s.step config r) := by
  by_cases hreads : s.reads r = true
  · obtain ⟨hrunning, hwants⟩ := wants_of_reads hreads
    obtain ⟨hmode, ⟨id, hid⟩, heof⟩ := source_of_wants hwants
    obtain ⟨pieces, rest, haccounts, -⟩ := h.handled hrunning
    obtain ⟨⟨hplays', houtcome⟩, hkept⟩ := SourceDecoder.read_plays r.positive hplays
    have hsource : (s.step config r).decoded ++ ((s.step config r).decoder.leftover ++
        decodedSamples (s.step config r).answers) = decodedSamples answers := by
      rw [step_of_reads hreads, ← h.source, ← hkept, List.append_assoc]
    have hlen := SourceDecoder.length_read r.maxSamples s.answers s.decoder
    have hfits := r.fits
    refine ⟨hsource, ?_⟩
    have hworker : (s.step config r).worker = _ := congrArg worker (step_of_reads hreads)
    have hdecoded : (s.step config r).decoded = _ := congrArg decoded (step_of_reads hreads)
    have hagree := hagrees hreads
    have hdecoder : (s.step config r).decoder = _ := step_decoder hreads
    have hanswers : (s.step config r).answers = _ := step_answers hreads
    generalize s.step config r = s' at hsource hworker hdecoded hdecoder hanswers
    generalize s.decoder.read r.maxSamples s.answers = read at houtcome hlen hworker hdecoded hdecoder hanswers
    obtain ⟨⟨status, chunk, chunkPts⟩, d, later⟩ := read
    dsimp only at houtcome hlen hworker hdecoded hdecoder hanswers
    rcases houtcome with ⟨p, hnext, rfl, rfl, hne⟩ | ⟨-, rfl, rfl | ⟨rfl, hnil, hend⟩⟩
    · have hgoesOn : GoesOn s.worker p := hagree p hnext
      have hread : Ends (lookahead { r.env with readSource := fun _ => .ok chunk.length p } config) (s.found r) fun _ v =>
          v.running = true →
            ∃ pieces, Hands r.env.Decides (appendDecoded chunk.length p (s.found r)).audible pieces v.audible :=
        lookahead_ok (fun _ => rfl) (List.length_pos_of_ne_nil hne) hwants
      intro hrunning'
      rw [hworker] at hrunning'
      obtain ⟨taken, htaken⟩ := hread hrunning'
      have hroom : s.worker.audioBuf.count + (List.replicate chunk.length id).length ≤ lookaheadBufferSamples := by
        have hless := below_found hbelow hrunning hmode
        have hcapacity : chunkMaxSamples + lookaheadChunkSamples ≤ lookaheadBufferSamples := by decide
        rw [List.length_replicate]
        omega
      have hcount : (appendDecoded chunk.length p (s.found r)).audioBuf.count =
          s.worker.audioBuf.count + chunk.length := by
        have happended := congrArg List.length (AudioBuffer.toList_append_of_room hroom hgoesOn)
        rw [List.length_append, AudioBuffer.length_toList, AudioBuffer.length_toList, List.length_replicate] at happended
        rw [audioBuf_appendDecoded hid]
        exact happended
      have hhands : Hands decides (appendDecoded chunk.length p (s.found r)).audible taken s'.worker.audible := by
        rw [hworker]
        exact htaken.mono hdecides
      obtain ⟨pieces', rest', haccounts'⟩ := haccounts.hands hcount rfl rfl hhands hdecoded
      refine ⟨pieces', rest', haccounts', fun hend => ?_⟩
      have hgoing : s'.worker.sourceEof = false := hhands.eof.trans heof
      rw [hgoing] at hend
      cases hend
    · have hidle : Ends (lookahead { r.env with readSource := fun _ => .again } config) (s.found r) fun _ v =>
          v.audible = (s.found r).audible := lookahead_again (fun _ => rfl) hwants
      intro _
      have hhands : Hands decides (s.found r).audible [] s'.worker.audible := by
        rw [hworker]
        exact .of_eq hidle
      obtain ⟨pieces', rest', haccounts'⟩ := haccounts.hands rfl rfl rfl hhands hdecoded
      refine ⟨pieces', rest', haccounts', fun hend => ?_⟩
      have hgoing : s'.worker.sourceEof = false := hhands.eof.trans heof
      rw [hgoing] at hend
      cases hend
    · have hlast : Ends (lookahead { r.env with readSource := fun _ => .eof } config) (s.found r) fun _ v =>
          v.running = true → v.audioBuf.count = 0 ∧
            ∃ pieces, Hands r.env.Decides { (s.found r).audible with eof := true } pieces v.audible :=
        lookahead_eof (fun _ => rfl) hwants
      intro hrunning'
      rw [hworker] at hrunning'
      obtain ⟨hempty, taken, htaken⟩ := hlast hrunning'
      have hhands : Hands decides { (s.found r).audible with eof := true } taken s'.worker.audible := by
        rw [hworker]
        exact htaken.mono hdecides
      obtain ⟨pieces', rest', haccounts'⟩ := haccounts.hands rfl rfl rfl hhands hdecoded
      refine ⟨pieces', rest', haccounts', fun _ => ⟨?_, ?_⟩⟩
      · have hbuffered := haccounts'.buffered
        rw [hworker] at hbuffered
        exact List.length_eq_zero_iff.mp (hbuffered.trans hempty)
      · rw [hdecoder, hanswers, hnil, hend] at hsource
        simpa [decodedSamples] using hsource
  · rw [step_of_not_reads hreads]
    refine ⟨h.source, fun hrunning => ?_⟩
    obtain ⟨pieces, rest, haccounts, hend⟩ := h.handled hrunning
    exact ⟨pieces, rest, ⟨haccounts.decoded, haccounts.matched, haccounts.buffered, haccounts.heard, haccounts.offered⟩,
      hend⟩

/-! ## Times that agree -/

/-- The decoder's times are off by `lo` to `hi` half microseconds, and the buffer ends no further off. -/
structure Near (lo hi : Int) (s : SourceRun α) : Prop where
  plays : s.decoder.Plays s.answers
  within : s.decoder.Within lo hi s.decoded.length s.answers
  ends : s.worker.running = true →
    s.worker.audioBuf.EndsAt (fun z => lo - 1 ≤ z ∧ z ≤ hi) s.decoded.length

theorem Near.agrees {lo hi : Int} (hwidth : hi - lo ≤ 125) (h : Near lo hi s) : s.Agrees r := by
  intro hreads p hp
  obtain ⟨hstart, hlo, hhi⟩ := h.within.next p hp
  unfold GoesOn AudioBuffer.isDiscontinuity
  rw [if_pos hstart]
  rcases h.ends (wants_of_reads hreads).1 with hempty | ⟨z, ⟨hzlo, hzhi⟩, hend⟩
  · simp [hempty]
  · have hnear : ¬ (p - s.worker.audioBuf.expectedPtsUs < -63 ∨ 63 < p - s.worker.audioBuf.expectedPtsUs) := by
      rw [AudioBuffer.expectedPtsUs_eq, hend]
      omega
    simp only [Bool.and_eq_false_imp, decide_eq_true_eq]
    intro _
    simpa using hnear

theorem Near.step {lo hi : Int} (hwidth : hi - lo ≤ 125) (h : Near lo hi s) (heven : r.maxSamples % 2 = 0) :
    Near lo hi (s.step config r) := by
  have hagrees : s.Agrees r := h.agrees hwidth
  have hplays : (s.step config r).decoder.Plays (s.step config r).answers := plays_step h.plays
  by_cases hreads : s.reads r = true
  · obtain ⟨hrunning, hwants⟩ := wants_of_reads hreads
    obtain ⟨-, ⟨id, hid⟩, -⟩ := source_of_wants hwants
    obtain ⟨⟨-, houtcome⟩, -⟩ := SourceDecoder.read_plays r.positive h.plays
    have hwithin := SourceDecoder.read_within heven h.plays h.within
    have hagree := hagrees hreads
    have hnear := h.within.next
    have hends := h.ends hrunning
    rw [step_of_reads hreads] at hplays ⊢
    dsimp only at hplays hwithin ⊢
    generalize s.decoder.read r.maxSamples s.answers = read at houtcome hwithin hplays ⊢
    obtain ⟨⟨status, chunk, chunkPts⟩, d, later⟩ := read
    dsimp only at houtcome hwithin hplays ⊢
    rw [← List.length_append] at hwithin
    refine ⟨hplays, hwithin, fun hrunning' => ?_⟩
    rcases houtcome with ⟨p, hnext, rfl, rfl, hne⟩ | ⟨-, rfl, rfl | ⟨rfl, -, -⟩⟩
    · have hread : Ends (lookahead { r.env with readSource := fun _ => .ok chunk.length p } config) (s.found r) fun _ v =>
          v.running = true →
            ∃ pieces, Hands r.env.Decides (appendDecoded chunk.length p (s.found r)).audible pieces v.audible :=
        lookahead_ok (fun _ => rfl) (List.length_pos_of_ne_nil hne) hwants
      obtain ⟨pieces, hpieces⟩ := hread hrunning'
      obtain ⟨hstart, hwithin'⟩ := hnear p hnext
      rw [List.length_append]
      exact hpieces.endsAt
        (endsAt_appendDecoded hid (List.length_pos_of_ne_nil hne) hstart (hagree p hnext) hwithin' hends)
    · have hidle : Ends (lookahead { r.env with readSource := fun _ => .again } config) (s.found r) fun _ v =>
          v.audible = (s.found r).audible := lookahead_again (fun _ => rfl) hwants
      have hhands : Hands r.env.Decides (s.found r).audible [] _ := .of_eq hidle
      rw [List.append_nil]
      exact hhands.endsAt hends
    · have hlast : Ends (lookahead { r.env with readSource := fun _ => .eof } config) (s.found r) fun _ v =>
          v.running = true → v.audioBuf.count = 0 ∧
            ∃ pieces, Hands r.env.Decides { (s.found r).audible with eof := true } pieces v.audible :=
        lookahead_eof (fun _ => rfl) hwants
      exact .inl (hlast hrunning').1
  · rw [step_of_not_reads hreads]
    exact ⟨h.plays, h.within, h.ends⟩

/-! ## Runs -/

theorem along_continues_iff {rounds : List SourceRound} (h : s.decoder.Plays s.answers) :
    Along (step config) Continues s rounds ↔ Along (step config) Agrees s rounds := by
  have hstep (s : SourceRun α) (r : SourceRound) (hs : s.decoder.Plays s.answers) :
      (s.step config r).decoder.Plays (s.step config r).answers := plays_step hs
  constructor
  · intro hrun
    exact Along.of_invariant (fun s r hs _ => hstep s r hs) (fun s r hs hr => (continues_iff_agrees hs).mp hr) h hrun
  · intro hrun
    exact Along.of_invariant (fun s r hs _ => hstep s r hs) (fun s r hs hr => (continues_iff_agrees hs).mpr hr) h hrun

theorem plays_opened {answers : List (CodecAnswer α)} (h : Playable answers) :
    (SourceDecoder.opened : SourceDecoder α).Plays answers :=
  ⟨rfl, h, fun heof => by cases heof⟩

/-- A detector of one of the rounds may decide so. -/
def DecidedIn (rounds : List SourceRound) (sampleCount : Nat) (b : Boundary) : Prop :=
  ∃ r ∈ rounds, r.env.Decides sampleCount b

/-- A run whose chunks agree keeps everything. -/
theorem complete_run {w : WorkerState} (hw : SourceReady w) {answers : List (CodecAnswer α)}
    (hplayable : Playable answers) {rounds : List SourceRound}
    (hagrees : Along (step config) Agrees (.opened w answers) rounds) :
    NothingLost (DecidedIn rounds) w answers (run (step config) (.opened w answers) rounds) := by
  have hstart : NothingLost (DecidedIn rounds) w answers (.opened w answers) := by
    refine ⟨rfl, fun _ => ⟨[], [], ?_, fun heof => ?_⟩⟩
    · exact ⟨rfl, nofun, hw.empty.symm, (List.append_nil _).symm, [], [], (List.append_nil _).symm, .slnil, .nil⟩
    · have heof : w.sourceEof = true := heof
      rw [hw.eof] at heof
      cases heof
  have hrounds : Along (step config) (fun s r => Agrees s r ∧ r ∈ rounds) (SourceRun.opened w answers) rounds := by
    refine along_iff.mpr fun pre r post h => ⟨along_iff.mp hagrees pre r post h, ?_⟩
    rw [h]
    exact List.mem_append_right _ List.mem_cons_self
  have hstep (s : SourceRun α) (r : SourceRound)
      (hs : s.decoder.Plays s.answers ∧ BelowRunning s.worker ∧ NothingLost (DecidedIn rounds) w answers s)
      (hr : Agrees s r ∧ r ∈ rounds) : (s.step config r).decoder.Plays (s.step config r).answers ∧
        BelowRunning (s.step config r).worker ∧ NothingLost (DecidedIn rounds) w answers (s.step config r) := by
    obtain ⟨hplays, hbelow, hcomplete⟩ := hs
    exact ⟨plays_step hplays, below_step hbelow, hcomplete.step (fun _ _ hb => ⟨r, hr.2, hb⟩) hplays hbelow hr.1⟩
  exact (run_invariant hstep ⟨plays_opened hplayable, hw.below, hstart⟩ hrounds).2.2

end SourceRun

open SourceRun

/-- **Source mode without a gap.** In a run from a source that was just opened, no chunk clears the buffer exactly if
every chunk's time agrees with what is buffered. Then nothing of the source is lost. So it is for containers whose ticks
are at most 60 us, where the reads are of an even size. -/
theorem source_continuity (config : Config) {w : WorkerState} (hw : SourceReady w) {answers : List (CodecAnswer α)}
    (hplayable : Playable answers) (rounds : List SourceRound) :
    (Along (SourceRun.step config) Continues (.opened w answers) rounds ↔
      Along (SourceRun.step config) Agrees (.opened w answers) rounds) ∧
    (Along (SourceRun.step config) Agrees (.opened w answers) rounds →
      NothingLost (DecidedIn rounds) w answers (run (SourceRun.step config) (.opened w answers) rounds)) ∧
    ∀ tickUs startUs : ℚ, tickUs ≤ 60 → ContainerSource tickUs startUs answers →
      (∀ f, .frame f ∈ answers → ∀ p ∈ f.ptsUs, 0 ≤ p) → (∀ r ∈ rounds, r.maxSamples % 2 = 0) →
      Along (SourceRun.step config) Agrees (.opened w answers) rounds := by
  have hplays : (SourceDecoder.opened : SourceDecoder α).Plays answers := plays_opened hplayable
  refine ⟨along_continues_iff hplays, complete_run hw hplayable, fun tickUs startUs htick hsource hpos heven => ?_⟩
  have hwidth : ⌊2 * startUs + tickUs + 2⌋ - ⌈2 * startUs - tickUs - 2⌉ ≤ 125 := by
    have h124 : ⌊2 * startUs + tickUs + 2⌋ - ⌈2 * startUs - tickUs - 2⌉ ≤ 124 := width_of_tick htick
    omega
  have hstamps : StampsWithin ⌈2 * startUs - tickUs - 2⌉ ⌊2 * startUs + tickUs + 2⌋ 0 answers := by
    refine stampsWithin_of_container ?_ hpos
    rw [Nat.cast_zero, mul_zero, add_zero]
    exact hsource
  have hnear : Near ⌈2 * startUs - tickUs - 2⌉ ⌊2 * startUs + tickUs + 2⌋ (.opened w answers) :=
    ⟨hplays, ⟨fun hne => absurd rfl hne, hstamps⟩, fun _ => .inl hw.empty⟩
  have hsizes : Along (SourceRun.step config) (fun _ r => r.maxSamples % 2 = 0) (SourceRun.opened w answers) rounds := by
    refine along_iff.mpr fun pre r post h => ?_
    exact heven r (by simp [h])
  exact Along.of_invariant (fun s r hs hr => hs.step hwidth hr) (fun s r hs _ => hs.agrees hwidth) hnear hsizes

/-- A worker that has just opened a source. -/
def sourceOpened : WorkerState :=
  { WorkerState.start true true with sessionActive := true, sourceMode := true, sourceDecoder := some (.zero _) }

theorem sourceReady_opened : SourceReady sourceOpened := by
  have hstart := belowRunning_start true true
  refine ⟨⟨⟨hstart.dropped, hstart.positive, hstart.threshold⟩, fun _ => ?_⟩, rfl, rfl⟩
  show 0 < chunkMaxSamples
  decide

/-- A round that reads that much. -/
def quietRound (maxSamples : Nat) (positive : 0 < maxSamples) (fits : maxSamples ≤ lookaheadChunkSamples) : SourceRound :=
  ⟨.quiet, 0, maxSamples, positive, fits⟩

/-- Two frames of four samples each, and the end. -/
def eightSamples : List (CodecAnswer Int) :=
  [.frame (SourceDecoder.plainFrame 0 4 (by decide)), .frame (SourceDecoder.plainFrame 250 4 (by decide)), .eof]

theorem source_continuity_eight :
    let rounds := List.replicate 3 (quietRound 4 (by decide) (by decide))
    Along (SourceRun.step downloader) Continues (.opened sourceOpened eightSamples) rounds ∧
      NothingLost (DecidedIn rounds) sourceOpened eightSamples
        (run (SourceRun.step downloader) (.opened sourceOpened eightSamples) rounds) := by
  intro rounds
  have hplayable : Playable eightSamples := rfl
  obtain ⟨hiff, hcomplete, hticks⟩ := source_continuity downloader sourceReady_opened hplayable rounds
  have hagrees := hticks 1 0 (by norm_num) ?_ ?_ ?_
  · exact ⟨hiff.mpr hagrees, hcomplete hagrees⟩
  · have hstamp (tick : Int) : some tick = some (avRescale tick 1 - 0) := by
      have hwhole := avRescale_intCast tick 1
      push_cast at hwhole
      rw [hwhole]
      simp
    refine ⟨fun _ => ⟨0, 0, 0, ?_, ?_, hstamp 0⟩, fun _ => ⟨250, 0, 0, ?_, ?_, hstamp 250⟩, trivial⟩ <;>
      norm_num [SourceDecoder.plainFrame]
  · intro f hf p hp
    simp only [eightSamples, List.mem_cons, CodecAnswer.frame.injEq, reduceCtorEq, List.not_mem_nil, or_false] at hf
    rcases hf with rfl | rfl <;> obtain rfl := Option.some.inj hp <;> decide
  · intro r hr
    rw [List.eq_of_mem_replicate hr]
    rfl

/-- The first frames of a 48 kHz stream, 1024 samples each, in a container with ticks of 1 ms. The second one starts at
21333.3 us, which is 21 ms there, and the resampler holds back 20.8 us of the first. -/
def millisecondFrames : List (CodecAnswer Int) :=
  [.frame (SourceDecoder.plainFrame 0 341 (by decide)), .again, .frame (SourceDecoder.plainFrame 20979 341 (by decide)),
    .again]

/-- A round that fills the worker's chunk, if the decoder has so much. -/
def wholeRound : SourceRound := quietRound lookaheadChunkSamples (by decide) (by decide)

def millisecondRun : SourceRun Int := .opened sourceOpened millisecondFrames

theorem read_millisecondFrames :
    (millisecondRun.decoder.read wholeRound.maxSamples millisecondRun.answers).1.sourceRead = .ok 341 0 ∧
      ((millisecondRun.decoder.read wholeRound.maxSamples millisecondRun.answers).2.1.read wholeRound.maxSamples
        (millisecondRun.decoder.read wholeRound.maxSamples millisecondRun.answers).2.2).1.sourceRead = .ok 341 20979 := by
  generalize hfirst : millisecondRun.decoder.read wholeRound.maxSamples millisecondRun.answers = first
  generalize hsecond : first.2.1.read wholeRound.maxSamples first.2.2 = second
  have hok : first.1.status = .ok ∧ first.1.samples.length = 341 ∧ first.1.ptsUs = some 0 := by
    rw [← hfirst]
    decide +kernel
  have hnext : second.1.status = .ok ∧ second.1.samples.length = 341 ∧ second.1.ptsUs = some 20979 := by
    rw [← hsecond, ← hfirst]
    decide +kernel
  unfold ReadResult.sourceRead
  rw [hok.1, hok.2.1, hok.2.2, hnext.1, hnext.2.1, hnext.2.2]
  exact ⟨rfl, rfl⟩

theorem container_milliseconds : ContainerSource 1000 0 millisecondFrames := by
  have hstamp (tick delayUs : Int) : some (tick * 1000 - delayUs) = some (avRescale tick 1000 - delayUs) := by
    have hwhole := avRescale_intCast tick 1000
    push_cast at hwhole
    rw [hwhole]
  refine ⟨fun _ => ⟨0, 0, 0, ?_, ?_, hstamp 0 0⟩, fun _ => ⟨21, 21, 125 / 6, ?_, ?_, hstamp 21 21⟩, trivial⟩
  · norm_num
  · norm_num
  · norm_num [SourceDecoder.plainFrame, abs_le]
  · norm_num [abs_le]

/-- The second frame is 333 us off the end of the first. -/
theorem not_source_continuity :
    ¬ ∀ (config : Config) (w : WorkerState) (answers : List (CodecAnswer Int)) (tickUs startUs : ℚ)
      (rounds : List SourceRound), SourceReady w → Playable answers → 0 < tickUs → tickUs ≤ 1000 →
      ContainerSource tickUs startUs answers →
      Along (SourceRun.step config) Continues (.opened w answers) rounds := by
  intro h
  have hrun : Along (SourceRun.step downloader) Continues millisecondRun [wholeRound, wholeRound] :=
    h downloader sourceOpened millisecondFrames 1000 0 _ sourceReady_opened trivial (by norm_num) (by norm_num)
      container_milliseconds
  obtain ⟨-, hsecond, -⟩ := hrun
  have hreads : millisecondRun.reads wholeRound = true := by decide
  obtain ⟨hfirst, hlast⟩ := read_millisecondFrames
  have hid : (millisecondRun.found wholeRound).sourceDecoder = some (.zero _) := rfl
  obtain ⟨hcount, hend⟩ := appendDecoded_empty hid rfl (by decide : 0 < 341) (by decide) (le_refl 0)
  obtain ⟨tick, calls, hworker⟩ : ∃ tick calls, (millisecondRun.step downloader wholeRound).worker =
      { appendDecoded 341 0 (millisecondRun.found wholeRound) with tick := tick, calls := calls } :=
    step_few hreads (by decide) hfirst (by rw [hcount]; decide)
  have hagain : (millisecondRun.step downloader wholeRound).reads wholeRound = true := by
    unfold SourceRun.reads SourceRun.found
    rw [hworker]
    rfl
  have hgoesOn := hsecond hagain 341 20979
  rw [step_decoder hreads, step_answers hreads] at hgoesOn
  have hgoesOn := hgoesOn hlast
  have hfar (b : AudioBuffer SessionId lookaheadBufferSamples) (hcount : b.count = 341)
      (hend : b.endHalfUs = 2 * 0 + 125 * 341) : b.isDiscontinuity 20979 = true := by
    unfold AudioBuffer.isDiscontinuity
    rw [AudioBuffer.expectedPtsUs_eq, hcount, hend]
    decide
  have hbuf : (millisecondRun.step downloader wholeRound).worker.audioBuf =
      (appendDecoded 341 0 (millisecondRun.found wholeRound)).audioBuf := by rw [hworker]
  unfold GoesOn at hgoesOn
  rw [hbuf, if_pos (by decide), hfar _ hcount hend] at hgoesOn
  cases hgoesOn

end VlcWhisper.Worker
