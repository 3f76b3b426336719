import VlcWhisper.Worker.HealthSteps
import VlcWhisper.Worker.VadCuts
import VlcWhisper.Worker.WriteFinality

/-!
# The tail flush (`vw_worker_flush_audio_tail`)

At the end of a session what is left in the audio buffer is taken off piece by piece: a boundary is asked for with the end
of input signalled, and the samples before it are transcribed or, if they are silent, dropped.

Main result: `tail_progress`. There is a boundary for every window, so the flush ends, and if no transcription fails each
sample that was left is in exactly one piece.
-/

namespace VlcWhisper.Worker

open VlcWhisper.Lib VlcWhisper.Protocol

/-- What a round takes off the buffer: samples that are transcribed, or dropped as silence. -/
inductive Piece where
  | handed (window : List SessionId)
  | dropped (window : List SessionId)

namespace Piece

def samples : Piece → List SessionId
  | handed window | dropped window => window

/-- What is told of a piece: only one that is transcribed is heard. -/
def Tells : Piece → List Event → Prop
  | handed window, events => ∃ cues, events = [.heard window cues]
  | dropped _, events => events = []

end Piece

/-- A round takes a piece off the front of the buffer. -/
structure Takes (w v : WorkerState) (p : Piece) : Prop where
  nonempty : p.samples ≠ []
  buffer : w.audioBuf.toList = p.samples ++ v.audioBuf.toList
  told : ∃ events, p.Tells events ∧ v.trace = w.trace ++ events

/-- The rounds of a flush, piece by piece. -/
inductive Flushes : WorkerState → List Piece → WorkerState → Prop
  | nil (w : WorkerState) : Flushes w [] w
  | snoc {w u v : WorkerState} {pieces : List Piece} {p : Piece} (hrest : Flushes w pieces u) (hlast : Takes u v p) :
      Flushes w (pieces ++ [p]) v

/-- Every sample is in exactly one piece, or still buffered. -/
theorem Flushes.buffer {w v : WorkerState} {pieces : List Piece} (h : Flushes w pieces v) :
    w.audioBuf.toList = (pieces.map Piece.samples).flatten ++ v.audioBuf.toList := by
  induction h with
  | nil => rfl
  | snoc hrest hlast ih =>
    rw [ih, hlast.buffer, List.map_append, List.flatten_append, List.append_assoc]
    simp

theorem Takes.count_lt {w v : WorkerState} {p : Piece} (h : Takes w v p) : v.audioBuf.count < w.audioBuf.count := by
  have hlen := congrArg List.length h.buffer
  have hpos := List.length_pos_of_ne_nil h.nonempty
  rw [List.length_append, AudioBuffer.length_toList, AudioBuffer.length_toList] at hlen
  omega

variable {env : Env}

theorem takes_drain {w t v : WorkerState} {n : Nat} {p : Piece} (hpos : 0 < n) (hcount : w.audioBuf.count ≠ 0)
    (hsame : t.audioBuf = w.audioBuf) (hv : v.audioBuf = t.audioBuf.drain n) (hp : p.samples = w.audioBuf.toList.take n)
    (htold : ∃ events, p.Tells events ∧ v.trace = w.trace ++ events) : Takes w v p := by
  refine ⟨?_, ?_, htold⟩
  · intro hnil
    have hlen := congrArg List.length (hp.symm.trans hnil)
    rw [List.length_take, AudioBuffer.length_toList, List.length_nil] at hlen
    omega
  · rw [hp, hv, hsame, AudioBuffer.toList_drain, List.take_append_drop]

theorem transcribeWindow_heard (htranscribes : ∀ n, (env.transcribe n).isSome = true) (window : List SessionId)
    (windowPtsUs : Int) (w : WorkerState) : Ends (transcribeWindow env window windowPtsUs none) w fun ok v =>
      ok = true ∧ v.audioBuf = w.audioBuf ∧ ∃ cues, v.trace = w.trace ++ [.heard window cues] := by
  obtain ⟨segs, hsegs⟩ := Option.isSome_iff_exists.mp (htranscribes w.tick)
  have hcall : Ends (call .whisper env.transcribe) w fun a t => a = some segs ∧ t.audioBuf = w.audioBuf ∧ t.trace = w.trace :=
    ⟨hsegs, rfl, rfl⟩
  refine hcall.bind fun a t ⟨ha, hbuf, htrace⟩ => ?_
  subst ha
  have hask : Ends (ask env.memory) t fun _ u => u.audioBuf = t.audioBuf ∧ u.trace = t.trace := ⟨rfl, rfl⟩
  dsimp only
  refine hask.bind fun memory u ⟨hbuf', htrace'⟩ => Ends.modify_bind ⟨rfl, hbuf'.trans hbuf, ?_⟩
  rw [← htrace, ← htrace']
  exact ⟨_, rfl⟩

/-- **A round of the flush.** It finds nothing left, or it takes a piece off the buffer. -/
theorem flushRound_takes (htranscribes : ∀ n, (env.transcribe n).isSome = true) (w : WorkerState) :
    Ends (flushRound env) w fun r v =>
      (r = some true ∧ v = w ∧ w.audioBuf.count = 0) ∨ (r = none ∧ ∃ p, Takes w v p) := by
  refine Ends.get_bind ?_
  by_cases hcount : w.audioBuf.count = 0
  · rw [if_pos hcount]
    exact .inl ⟨rfl, rfl, hcount⟩
  · rw [if_neg hcount]
    have hwindow : (w.audioBuf.getSamples chunkMaxSamples).1 = w.audioBuf.toList.take chunkMaxSamples := by
      unfold AudioBuffer.getSamples
      rw [if_neg (by simpa [chunkMaxSamples] using hcount)]
    have htail := boundary_of_tail hcount
    generalize w.audioBuf.getSamples chunkMaxSamples = got at hwindow htail
    obtain ⟨window, windowPtsUs⟩ := got
    dsimp only at hwindow htail ⊢
    have hdetect : Ends (detect window env.speech) w fun _ t => t.audioBuf = w.audioBuf ∧ t.trace = w.trace := ⟨rfl, rfl⟩
    refine hdetect.bind fun speech t ht => ?_
    obtain ⟨hbuf, htrace⟩ := ht
    obtain ⟨b, hb, hpos⟩ := htail speech
    rw [hb]
    dsimp only
    rw [if_neg (by simp; omega)]
    by_cases hsilence : 0 < b.silenceDrain
    · rw [if_pos hsilence]
      refine Ends.modify_bind (.inr ⟨rfl, .dropped (w.audioBuf.toList.take b.silenceDrain), ?_⟩)
      exact takes_drain hsilence hcount hbuf rfl rfl ⟨[], rfl, by rw [List.append_nil]; exact htrace⟩
    · rw [if_neg hsilence]
      have hcut : 0 < b.cutSamples ∧ b.cutSamples ≤ window.length := by
        cases findChunkBoundary_valid hb with
        | cut n hn hle => exact ⟨hn, hle⟩
        | silence n hn => exact (hsilence hn).elim
      have htaken : window.take b.cutSamples = w.audioBuf.toList.take b.cutSamples := by
        have hle := hcut.2
        rw [hwindow, List.length_take] at hle
        rw [hwindow, List.take_take, Nat.min_eq_left (by omega)]
      rw [htaken]
      refine (transcribeWindow_heard htranscribes _ _ t).bind fun ok u hu => ?_
      obtain ⟨hok, hbuf', cues, htrace'⟩ := hu
      rw [if_pos hok]
      refine Ends.modify_bind (.inr ⟨rfl, .handed (w.audioBuf.toList.take b.cutSamples), ?_⟩)
      refine takes_drain hcut.1 hcount (hbuf'.trans hbuf) rfl rfl ⟨_, ⟨cues, rfl⟩, ?_⟩
      rw [← htrace]
      exact htrace'

/-- **The tail flush makes progress.** With the end of input signalled, or a full window, every window has a boundary within
it, whatever the detector says, that is a cut or some silence. So the flush ends; and if no transcription fails it ends
with an empty buffer, after it took the samples that were left off its front, in pieces that were each transcribed or
dropped. -/
theorem tail_progress (env : Env) (w : WorkerState) (hengine : w.engine = true) :
    (∀ (sampleCount : Nat) (isEof : Bool) (speech : Speech), 0 < sampleCount → speech.InWindow sampleCount →
      (isEof = true ∨ chunkMaxSamples ≤ sampleCount) →
      ∃ b, findChunkBoundary sampleCount isEof speech = some b ∧ b.Within sampleCount) ∧
    ((loop (w.audioBuf.count + 1) (flushRound env)).run w).1.isSome = true ∧
    ((∀ n, (env.transcribe n).isSome = true) → Ends (flushAudioTail env) w fun flushed v =>
      flushed = true ∧ v.audioBuf.count = 0 ∧ ∃ pieces, Flushes w pieces v ∧
        w.audioBuf.toList = (pieces.map Piece.samples).flatten) := by
  refine ⟨fun n isEof speech hpos hspeech hfull => boundary_within hpos hspeech hfull, flushAudioTail_isSome w, ?_⟩
  intro htranscribes
  have hround : ∀ u, (∃ pieces, Flushes w pieces u) → Ends (flushRound env) u fun r v =>
      (∀ a, r = some a → a = true ∧ v.audioBuf.count = 0 ∧ ∃ pieces, Flushes w pieces v) ∧
        (r = none → (∃ pieces, Flushes w pieces v) ∧ v.audioBuf.count < u.audioBuf.count) := by
    rintro u ⟨pieces, hpieces⟩
    refine (flushRound_takes htranscribes u).mono fun r v hround => ?_
    rcases hround with ⟨rfl, rfl, hcount⟩ | ⟨rfl, p, htakes⟩
    · refine ⟨fun a ha => ⟨(Option.some.inj ha).symm, hcount, pieces, hpieces⟩, fun hr => by cases hr⟩
    · exact ⟨fun a ha => (by cases ha), fun _ => ⟨⟨pieces ++ [p], .snoc hpieces htakes⟩, htakes.count_lt⟩⟩
  have hloop : Ends (loop (w.audioBuf.count + 1) (flushRound env)) w fun r v => ∃ a, r = some a ∧
      (a = true ∧ v.audioBuf.count = 0 ∧ ∃ pieces, Flushes w pieces v) :=
    Ends.loop (fun u => u.audioBuf.count) hround ⟨[], .nil w⟩ (Nat.lt_succ_self _)
  refine Ends.get_bind (Ends.ite (fun hno => ?_) fun _ => ?_)
  · rw [hengine] at hno
    cases hno
  · refine hloop.bind fun r v ⟨a, hr, htrue, hcount, pieces, hpieces⟩ => ?_
    refine ⟨?_, hcount, pieces, hpieces, ?_⟩
    · rw [hr, htrue]
      rfl
    · have hbuffer := hpieces.buffer
      rw [List.length_eq_zero_iff.mp ((AudioBuffer.length_toList v.audioBuf).trans hcount), List.append_nil] at hbuffer
      exact hbuffer

/-- The audio is loud, and every transcription works. -/
def loudEnv : Env := { Env.quiet with speech := fun _ => .energy true }

/-- Three samples are left. -/
def threeLeft : WorkerState :=
  let w := WorkerState.start true true
  { w with audioBuf := w.audioBuf.append [w.sessionId, w.sessionId, w.sessionId] 0 }

theorem tail_progress_three : Ends (flushAudioTail loudEnv) threeLeft fun flushed v =>
    flushed = true ∧ v.audioBuf.count = 0 ∧ ∃ pieces, Flushes threeLeft pieces v ∧
      threeLeft.audioBuf.toList = (pieces.map Piece.samples).flatten :=
  (tail_progress loudEnv threeLeft rfl).2.2 fun _ => rfl

end VlcWhisper.Worker
