import VlcWhisper.Worker.Reader

/-!
# What the reader thread consumes (`vw_worker_reader_main`)

The same thread on any bytes whatever, cut in pieces in any way: a receive call takes at most what it asked for.
Main result: `tapped_run`. What was consumed is a list of whole frames and a rest that is not one yet; the frames that
are pushed are those of them that are not stale; and while a header is read the rest is what there is of it, so a
frame that was discarded took exactly the payload that its header announces.
-/

namespace VlcWhisper.Worker

open VlcWhisper.Lib VlcWhisper.Protocol

/-! ## Sequence numbers that are pushed -/

theorem isStale_eq_false {last : Option UInt64} {sequence : UInt64} :
    isStale last sequence = false ↔ ∀ n ∈ last, n < sequence := by
  unfold isStale
  cases last with
  | none => simp
  | some n => simp

/-- The frames that are not stale have increasing sequence numbers, all above the last one before them. -/
theorem freshFrames_increasing (last : Option UInt64) (frames : List WireFrame) :
    Increasing (freshFrames last frames) ∧ ∀ n ∈ last, ∀ f ∈ freshFrames last frames, n < f.sequence := by
  induction frames generalizing last with
  | nil => exact ⟨List.Pairwise.nil, fun _ _ f hf => absurd hf List.not_mem_nil⟩
  | cons f frames ih =>
    unfold freshFrames
    split
    · exact ih last
    · rename_i hfresh
      obtain ⟨hincreasing, habove⟩ := ih (some f.sequence)
      have hhead : ∀ n ∈ last, n < f.sequence := isStale_eq_false.mp (Bool.eq_false_of_not_eq_true hfresh)
      refine ⟨List.pairwise_cons.mpr ⟨habove f.sequence rfl, hincreasing⟩, ?_⟩
      intro n hn g hg
      rcases List.mem_cons.mp hg with rfl | hg
      · exact hhead n hn
      · exact UInt64.lt_trans (hhead n hn) (habove f.sequence rfl g hg)

/-! ## The thread and what it took -/

/-- The reader thread with the bytes it consumed. -/
structure Tap where
  reader : Reader
  consumed : Bytes

namespace Tap

def start (running : Bool) : Tap := ⟨.start running, []⟩

/-- One receive call: `running` is the flag where it is looked at, and the bytes are at most those asked for. -/
def step (s : Tap) (i : Bool × Protocol.Received) : Tap :=
  if s.reader.isReading then
    match i.2 with
    | .bytes bs => ⟨s.reader.step i.1 (.bytes (bs.take s.reader.capacity)), s.consumed ++ bs.take s.reader.capacity⟩
    | .timeout => ⟨s.reader.step i.1 .timeout, s.consumed⟩
    | .fatal => ⟨s.reader.step i.1 .fatal, s.consumed⟩
  else s

end Tap

/-- No whole frame: nothing, a part of a frame, or a header that is none. -/
def Cut (rest : Bytes) : Prop := rest = [] ∨ WireFrame.Incomplete rest

/-- The reader has done with the frames `done`, and has consumed `rest` of the next one. -/
def Within (done : List WireFrame) (rest : Bytes) (r : Reader) : Prop :=
  match r.phase with
  | .header got => rest = got ∧ got.length < headerBytes ∧ r.lastPluginSequence = lastSequence none done
  | .discard header drained =>
    ∃ skipped, rest = encodeHeader header ++ skipped ∧ validateHeader header = true ∧ skipped.length = drained ∧
      drained < header.payloadLength.toNat ∧ isStale (lastSequence none done) header.sequence = true ∧
      r.lastPluginSequence = lastSequence none done
  | .payload header got =>
    rest = encodeHeader header ++ got ∧ validateHeader header = true ∧ got.length < header.payloadLength.toNat ∧
      isStale (lastSequence none done) header.sequence = false ∧ r.lastPluginSequence = some header.sequence
  | .returned | .fatal => Cut rest

/-- What was consumed are frames, those of them that are not stale were pushed, and the reader is within the next. -/
def Tapped (s : Tap) : Prop :=
  ∃ done rest, s.consumed = done.flatMap WireFrame.bytes ++ rest ∧
    s.reader.pushed = (freshFrames none done).map WireFrame.delivered ∧ Within done rest s.reader

/-! ## Steps -/

theorem cut_of_short {rest : Bytes} (h : rest.length < headerBytes) : Cut rest := by
  by_cases hnil : rest = []
  · exact .inl hnil
  · refine .inr ?_
    unfold WireFrame.Incomplete
    rw [if_pos h]
    exact hnil

theorem cut_of_header {header : FrameHeader} (hvalid : validateHeader header = true) {got : Bytes}
    (h : got.length < header.payloadLength.toNat) : Cut (encodeHeader header ++ got) := by
  have hlen := length_encodeHeader header
  have hdecode : decodeHeader (encodeHeader header) = some header := (decodeHeader_eq_some hlen).mpr ⟨rfl, hvalid⟩
  refine .inr ?_
  unfold WireFrame.Incomplete
  rw [List.length_append, hlen, if_neg (by omega), List.take_left' hlen, hdecode]
  dsimp only
  omega

/-- The reader never stands at the end of a frame that it has not done with. -/
theorem Within.cut {done : List WireFrame} {rest : Bytes} {r : Reader} (h : Within done rest r) : Cut rest := by
  unfold Within at h
  split at h
  · obtain ⟨rfl, hshort, -⟩ := h
    exact cut_of_short hshort
  · obtain ⟨skipped, rfl, hvalid, hlen, hless, -⟩ := h
    exact cut_of_header hvalid (by omega)
  · obtain ⟨rfl, hvalid, hless, -⟩ := h
    exact cut_of_header hvalid hless
  · exact h
  · exact h

theorem tapped_end {s : Tap} (h : Tapped s) {phase : ReaderPhase} (hphase : phase = .returned ∨ phase = .fatal) :
    Tapped ⟨{ s.reader with phase := phase }, s.consumed⟩ := by
  obtain ⟨done, rest, hconsumed, hpushed, hwithin⟩ := h
  refine ⟨done, rest, hconsumed, hpushed, ?_⟩
  unfold Within
  rcases hphase with rfl | rfl
  · exact hwithin.cut
  · exact hwithin.cut

theorem tapped_nextFrame {done : List WireFrame} {f : WireFrame} {r : Reader} {consumed : Bytes}
    (hconsumed : consumed = done.flatMap WireFrame.bytes ++ f.bytes)
    (hpushed : r.pushed = (freshFrames none (done ++ [f])).map WireFrame.delivered)
    (hlast : r.lastPluginSequence = lastSequence none (done ++ [f])) (running : Bool) :
    Tapped ⟨r.nextFrame running, consumed⟩ := by
  refine ⟨done ++ [f], [], ?_, hpushed, ?_⟩
  · rw [hconsumed, List.flatMap_append, List.flatMap_singleton, List.append_nil]
  · unfold Within Reader.nextFrame
    cases running with
    | true => exact ⟨rfl, Nat.zero_lt_succ _, hlast⟩
    | false => exact .inl rfl

theorem tapped_onHeader {done : List WireFrame} {r : Reader} {consumed got : Bytes}
    (hconsumed : consumed = done.flatMap WireFrame.bytes ++ got) (hlen : got.length = headerBytes)
    (hpushed : r.pushed = (freshFrames none done).map WireFrame.delivered)
    (hlast : r.lastPluginSequence = lastSequence none done) (running : Bool) :
    Tapped ⟨r.onHeader running got, consumed⟩ := by
  unfold Reader.onHeader
  cases hdecode : decodeHeader got with
  | none =>
    refine ⟨done, got, hconsumed, hpushed, .inr ?_⟩
    unfold WireFrame.Incomplete
    rw [if_neg (by omega), List.take_of_length_le (by omega), hdecode]
    trivial
  | some header =>
    obtain ⟨rfl, hvalid⟩ := (decodeHeader_eq_some hlen).mp hdecode
    have hempty (h : ¬ 0 < header.payloadLength.toNat) : ∃ f : WireFrame, f.header = header ∧ f.payload = [] :=
      WireFrame.exists_of_validateHeader hvalid (by rw [List.length_nil]; omega)
    dsimp only
    rw [hlast]
    split
    · rename_i hstale
      split
      · rename_i hpos
        exact ⟨done, encodeHeader header, hconsumed, hpushed, [], (List.append_nil _).symm, hvalid, rfl, hpos, hstale, rfl⟩
      · rename_i hpos
        obtain ⟨f, rfl, hpayload⟩ := hempty hpos
        obtain ⟨hfresh, hseq⟩ := freshFrames_snoc_stale (f := f) hstale
        refine tapped_nextFrame ?_ (by rw [hfresh, hpushed]) (by rw [hseq, hlast]) running
        rw [hconsumed, WireFrame.bytes, hpayload, List.append_nil]
    · rename_i hstale
      rw [Bool.not_eq_true] at hstale
      split
      · rename_i hpos
        exact ⟨done, encodeHeader header, hconsumed, hpushed, (List.append_nil _).symm, hvalid, hpos, hstale, rfl⟩
      · rename_i hpos
        obtain ⟨f, rfl, hpayload⟩ := hempty hpos
        obtain ⟨hfresh, hseq⟩ := freshFrames_snoc_fresh (f := f) hstale
        refine tapped_nextFrame ?_ ?_ hseq.symm running
        · rw [hconsumed, WireFrame.bytes, hpayload, List.append_nil]
        · rw [hfresh, List.map_append, ← hpushed, List.map_singleton, WireFrame.delivered, hpayload]
          rfl

theorem tapped_onBytes {s : Tap} (h : Tapped s) (running : Bool) {bs : Bytes} (hfits : bs.length ≤ s.reader.capacity) :
    Tapped ⟨s.reader.onBytes running bs, s.consumed ++ bs⟩ := by
  obtain ⟨done, rest, hconsumed, hpushed, hwithin⟩ := h
  unfold Within at hwithin
  split at hwithin
  · rename_i got hphase
    obtain ⟨rfl, hshort, hlast⟩ := hwithin
    rw [Reader.capacity, hphase] at hfits
    rw [Reader.onBytes, hphase]
    dsimp only at hfits ⊢
    have hmore : s.consumed ++ bs = done.flatMap WireFrame.bytes ++ (rest ++ bs) := by
      rw [hconsumed, List.append_assoc]
    split
    · rename_i hless
      exact ⟨done, rest ++ bs, hmore, hpushed, rfl, hless, hlast⟩
    · rename_i hwhole
      rw [List.length_append] at hwhole
      exact tapped_onHeader hmore (by rw [List.length_append]; omega) hpushed hlast running
  · rename_i header drained hphase
    obtain ⟨skipped, rfl, hvalid, rfl, hless, hstale, hlast⟩ := hwithin
    rw [Reader.capacity, hphase] at hfits
    rw [Reader.onBytes, hphase]
    dsimp only at hfits ⊢
    have hmore : s.consumed ++ bs = done.flatMap WireFrame.bytes ++ (encodeHeader header ++ (skipped ++ bs)) := by
      rw [hconsumed, List.append_assoc, List.append_assoc]
    split
    · rename_i hless'
      exact ⟨done, _, hmore, hpushed, skipped ++ bs, rfl, hvalid, List.length_append, hless', hstale, hlast⟩
    · rename_i hwhole
      -- the last piece ends where the announced payload does
      obtain ⟨f, rfl, hpayload⟩ := @WireFrame.exists_of_validateHeader _ hvalid (skipped ++ bs)
        (by rw [List.length_append]; omega)
      obtain ⟨hfresh, hseq⟩ := freshFrames_snoc_stale (f := f) hstale
      refine tapped_nextFrame ?_ (by rw [hfresh, hpushed]) (by rw [hseq, hlast]) running
      rw [hmore, WireFrame.bytes, hpayload]
  · rename_i header got hphase
    obtain ⟨rfl, hvalid, hless, hstale, hlast⟩ := hwithin
    rw [Reader.capacity, hphase] at hfits
    rw [Reader.onBytes, hphase]
    dsimp only at hfits ⊢
    have hmore : s.consumed ++ bs = done.flatMap WireFrame.bytes ++ (encodeHeader header ++ (got ++ bs)) := by
      rw [hconsumed, List.append_assoc, List.append_assoc]
    split
    · rename_i hless'
      exact ⟨done, _, hmore, hpushed, rfl, hvalid, hless', hstale, hlast⟩
    · rename_i hwhole
      rw [List.length_append] at hwhole
      obtain ⟨f, rfl, hpayload⟩ := @WireFrame.exists_of_validateHeader _ hvalid (got ++ bs)
        (by rw [List.length_append]; omega)
      obtain ⟨hfresh, hseq⟩ := freshFrames_snoc_fresh (f := f) hstale
      refine tapped_nextFrame (r := s.reader.push f.header (got ++ bs)) ?_ ?_ (hlast.trans hseq.symm) running
      · rw [hmore, WireFrame.bytes, hpayload]
      · rw [hfresh, List.map_append, ← hpushed, List.map_singleton, WireFrame.delivered, hpayload]
        rfl
  · rename_i hphase
    rw [Reader.capacity, hphase] at hfits
    have hnone : bs = [] := List.length_eq_zero_iff.mp (Nat.le_zero.mp hfits)
    rw [Reader.onBytes, hphase, hnone, List.append_nil]
    refine ⟨done, rest, hconsumed, hpushed, ?_⟩
    unfold Within
    rw [hphase]
    exact hwithin
  · rename_i hphase
    rw [Reader.capacity, hphase] at hfits
    have hnone : bs = [] := List.length_eq_zero_iff.mp (Nat.le_zero.mp hfits)
    rw [Reader.onBytes, hphase, hnone, List.append_nil]
    refine ⟨done, rest, hconsumed, hpushed, ?_⟩
    unfold Within
    rw [hphase]
    exact hwithin

theorem tapped_step (s : Tap) (i : Bool × Protocol.Received) (h : Tapped s) : Tapped (s.step i) := by
  unfold Tap.step
  split
  · split
    · exact tapped_onBytes h i.1 (List.length_take_le _ _)
    · unfold Reader.step
      dsimp only
      split
      · exact tapped_end h (.inl rfl)
      · exact h
    · unfold Reader.step
      dsimp only
      rw [if_pos (by assumption)]
      exact tapped_end h (.inr rfl)
  · exact h

theorem tapped_start (running : Bool) : Tapped (.start running) := by
  refine ⟨[], [], rfl, rfl, ?_⟩
  unfold Within Tap.start Reader.start
  cases running with
  | true => exact ⟨rfl, Nat.zero_lt_succ _, rfl⟩
  | false => exact .inl rfl

/-- **The stream.** Whatever comes, in whatever pieces. -/
theorem tapped_run (running : Bool) (received : List (Bool × Protocol.Received)) :
    Tapped (run Tap.step (.start running) received) :=
  run_invariant' tapped_step received (tapped_start running)

end VlcWhisper.Worker
