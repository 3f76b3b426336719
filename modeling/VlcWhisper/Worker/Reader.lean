import VlcWhisper.Lib.Machine
import VlcWhisper.Protocol.Transport

/-!
# The worker's reader thread (`vw_worker_reader_main`)

The reader is a machine whose step is one `vw_ipc_receive`: its phase says how many bytes it asks for. A time-out lets
it look at the `running` flag and go on; a frame that is complete is pushed, or discarded if its sequence number is not
above the last one.

Main results: `aligned_run` and `Aligned.all_pushed`. Over a pipe that holds the records of any frames, with time-outs
anywhere, the reader never asks for less than the next record holds, is always at the place in the frames where the
records end, and has pushed them all when none is left.
-/

namespace VlcWhisper.Worker

open VlcWhisper.Lib VlcWhisper.Protocol

/-! ## The machine -/

/-- Where the reader is: what it has of a header, or of the payload of a header. -/
inductive ReaderPhase where
  | header (got : Bytes)
  | discard (header : FrameHeader) (drained : Nat)
  | payload (header : FrameHeader) (got : Bytes)
  | returned
  | fatal

/-- `vw_worker_reader_main`'s state, with what it has pushed to the frame queue. -/
structure Reader where
  phase : ReaderPhase
  lastPluginSequence : Option UInt64
  pushed : List (FrameHeader × Bytes)

namespace Reader

/-- The thread starts; `running` is the flag as it finds it. -/
def start (running : Bool) : Reader := ⟨if running then .header [] else .returned, none, []⟩

/-- The buffer of the next receive call. -/
def capacity (r : Reader) : Nat :=
  match r.phase with
  | .header got => headerBytes - got.length
  | .discard header drained => header.payloadLength.toNat - drained
  | .payload header got => header.payloadLength.toNat - got.length
  | .returned | .fatal => 0

/-- The head of the outer loop. -/
def nextFrame (running : Bool) (r : Reader) : Reader := { r with phase := if running then .header [] else .returned }

def push (header : FrameHeader) (payload : Bytes) (r : Reader) : Reader :=
  { r with pushed := r.pushed ++ [(header, payload)] }

/-- A header is complete. -/
def onHeader (running : Bool) (buffer : Bytes) (r : Reader) : Reader :=
  match decodeHeader buffer with
  | none => { r with phase := .fatal }
  | some header =>
    if isStale r.lastPluginSequence header.sequence then
      if 0 < header.payloadLength.toNat then { r with phase := .discard header 0 } else r.nextFrame running
    else
      let r := { r with lastPluginSequence := some header.sequence }
      if 0 < header.payloadLength.toNat then { r with phase := .payload header [] }
      else (r.push header []).nextFrame running

/-- Bytes were received. -/
def onBytes (running : Bool) (bs : Bytes) (r : Reader) : Reader :=
  match r.phase with
  | .header got =>
    let got := got ++ bs
    if got.length < headerBytes then { r with phase := .header got } else r.onHeader running got
  | .discard header drained =>
    let drained := drained + bs.length
    if drained < header.payloadLength.toNat then { r with phase := .discard header drained } else r.nextFrame running
  | .payload header got =>
    let got := got ++ bs
    if got.length < header.payloadLength.toNat then { r with phase := .payload header got }
    else (r.push header got).nextFrame running
  | .returned | .fatal => r

/-- The thread has not ended. -/
def isReading (r : Reader) : Bool :=
  match r.phase with
  | .returned | .fatal => false
  | _ => true

/-- What the reader does with the result of a receive; `running` is the flag where it is looked at. -/
def step (running : Bool) (r : Reader) : Received → Reader
  | .bytes bs => r.onBytes running bs
  | .timeout => if r.isReading && !running then { r with phase := .returned } else r
  | .fatal => if r.isReading then { r with phase := .fatal } else r

end Reader

/-! ## The frames that are pushed -/

/-- The frames of a stream that are not stale; `last` is the last sequence number before them. -/
def freshFrames : Option UInt64 → List WireFrame → List WireFrame
  | _, [] => []
  | last, f :: rest =>
    if isStale last f.sequence then freshFrames last rest else f :: freshFrames (some f.sequence) rest

/-- The last sequence number after a stream. -/
def lastSequence : Option UInt64 → List WireFrame → Option UInt64
  | last, [] => last
  | last, f :: rest => if isStale last f.sequence then lastSequence last rest else lastSequence (some f.sequence) rest

theorem freshFrames_append (last : Option UInt64) (l m : List WireFrame) :
    freshFrames last (l ++ m) = freshFrames last l ++ freshFrames (lastSequence last l) m := by
  induction l generalizing last with
  | nil => rfl
  | cons f l ih =>
    simp only [List.cons_append, freshFrames, lastSequence]
    split
    · exact ih last
    · rw [ih, List.cons_append]

theorem lastSequence_append (last : Option UInt64) (l m : List WireFrame) :
    lastSequence last (l ++ m) = lastSequence (lastSequence last l) m := by
  induction l generalizing last with
  | nil => rfl
  | cons f l ih =>
    simp only [List.cons_append, lastSequence]
    split
    · exact ih last
    · exact ih _

/-- Every sequence number is above the one before, as the protocol asks of a sender. -/
def Increasing (frames : List WireFrame) : Prop := frames.Pairwise fun f g => f.sequence < g.sequence

theorem freshFrames_of_increasing {frames : List WireFrame} (h : Increasing frames) : freshFrames none frames = frames := by
  have hfrom (last : Option UInt64) (h : Increasing frames) (hlast : ∀ n ∈ last, ∀ f ∈ frames, n < f.sequence) :
      freshFrames last frames = frames := by
    induction frames generalizing last with
    | nil => rfl
    | cons f rest ih =>
      obtain ⟨hhead, htail⟩ := List.pairwise_cons.mp h
      have hfresh : isStale last f.sequence = false := by
        cases last with
        | none => rfl
        | some n =>
          have hlt := hlast n rfl f (List.mem_cons_self ..)
          simpa [isStale] using hlt
      rw [freshFrames, hfresh]
      refine congrArg (f :: ·) (ih htail _ htail fun n hn g hg => ?_)
      obtain rfl := Option.some.inj hn
      exact hhead g hg
  exact hfrom none h fun n hn => by cases hn

/-- What the queue gets of a frame. -/
def WireFrame.delivered (f : WireFrame) : FrameHeader × Bytes := (f.header, f.payload)

/-! ## The reader on a pipe -/

/-- The reader and its end of the connection. -/
structure Inbox where
  pipe : Pipe
  reader : Reader

/-- What the environment chooses for one receive: whether the next record is there in time, and the flag. -/
structure Turn where
  arrived : Bool
  running : Bool

/-- One receive call. -/
def Inbox.step (s : Inbox) (t : Turn) : Inbox :=
  if s.reader.isReading then
    let res := s.pipe.recv s.reader.capacity (if t.arrived then .record else .timeout)
    ⟨res.2, s.reader.step t.running (ipcReceive res.1)⟩
  else s

/-- The reader has done with the frames `done`; `inflight` is what the transport holds of the others. -/
def StandsAt (done rest : List WireFrame) (r : Reader) (inflight : List Bytes) : Prop :=
  match r.phase with
  | .header got => got = [] ∧ r.lastPluginSequence = lastSequence none done ∧ inflight = rest.flatMap WireFrame.records
  | .discard header drained =>
    ∃ f later left, rest = f :: later ∧ header = f.header ∧ isStale (lastSequence none done) f.sequence = true ∧
      r.lastPluginSequence = lastSequence none done ∧ left ≠ [] ∧ drained + left.length = f.payload.length ∧
      inflight = records maxRecordBytes left ++ later.flatMap WireFrame.records
  | .payload header got =>
    ∃ f later left, rest = f :: later ∧ header = f.header ∧ isStale (lastSequence none done) f.sequence = false ∧
      r.lastPluginSequence = some f.sequence ∧ left ≠ [] ∧ got ++ left = f.payload ∧
      inflight = records maxRecordBytes left ++ later.flatMap WireFrame.records
  | .returned => True
  | .fatal => False

/-- The reader is where the records end. -/
def Aligned (frames : List WireFrame) (s : Inbox) : Prop :=
  ∃ done rest, frames = done ++ rest ∧ s.reader.pushed = (freshFrames none done).map WireFrame.delivered ∧
    StandsAt done rest s.reader s.pipe.inflight

theorem Aligned.next_fits {frames : List WireFrame} {s : Inbox} (h : Aligned frames s) (hreading : s.reader.isReading = true)
    {record : Bytes} {rest : List Bytes} (hnext : s.pipe.inflight = record :: rest) :
    record ≠ [] ∧ record.length ≤ s.reader.capacity := by
  have hpayload {left : Bytes} (hleft : left ≠ []) {more : List Bytes}
      (hrecords : record :: rest = records maxRecordBytes left ++ more) :
      record ≠ [] ∧ record.length ≤ left.length := by
    rw [records_cons (by decide) hleft] at hrecords
    obtain ⟨rfl, -⟩ := List.cons.inj hrecords
    have hpos := List.length_pos_of_ne_nil hleft
    refine ⟨List.ne_nil_of_length_pos ?_, ?_⟩ <;> rw [List.length_take, maxRecordBytes] <;> omega
  obtain ⟨done, todo, -, -, hpos⟩ := h
  rw [hnext] at hpos
  unfold StandsAt at hpos
  unfold Reader.capacity
  unfold Reader.isReading at hreading
  split at hpos
  · rename_i got hphase
    obtain ⟨rfl, -, hrecords⟩ := hpos
    cases todo with
    | nil => cases hrecords
    | cons f later =>
      rw [List.flatMap_cons, f.records_eq] at hrecords
      obtain ⟨rfl, -⟩ := List.cons.inj hrecords
      refine ⟨List.ne_nil_of_length_pos ?_, ?_⟩ <;> rw [length_encodeHeader] <;> decide
  · rename_i header drained hphase
    obtain ⟨f, later, left, -, rfl, -, -, hleft, hlen, hrecords⟩ := hpos
    have hfits := hpayload hleft hrecords
    rw [f.payloadLength_header]
    exact ⟨hfits.1, by omega⟩
  · rename_i header got hphase
    obtain ⟨f, later, left, -, rfl, -, -, hleft, hsplit, hrecords⟩ := hpos
    have hfits := hpayload hleft hrecords
    rw [f.payloadLength_header, ← hsplit, List.length_append]
    exact ⟨hfits.1, by omega⟩
  · rename_i hphase
    rw [hphase] at hreading
    cases hreading
  · exact hpos.elim

theorem aligned_nextFrame {frames done later : List WireFrame} {f : WireFrame} (hframes : frames = done ++ f :: later)
    {r : Reader} (hpushed : r.pushed = (freshFrames none (done ++ [f])).map WireFrame.delivered)
    (hlast : r.lastPluginSequence = lastSequence none (done ++ [f])) {p : Pipe}
    (hinflight : p.inflight = later.flatMap WireFrame.records) (running : Bool) : Aligned frames ⟨p, r.nextFrame running⟩ := by
  refine ⟨done ++ [f], later, by rw [hframes, List.append_assoc]; rfl, hpushed, ?_⟩
  unfold StandsAt Reader.nextFrame
  cases running with
  | true => exact ⟨rfl, hlast, hinflight⟩
  | false => trivial

theorem freshFrames_snoc_stale {done : List WireFrame} {f : WireFrame}
    (h : isStale (lastSequence none done) f.sequence = true) :
    freshFrames none (done ++ [f]) = freshFrames none done ∧ lastSequence none (done ++ [f]) = lastSequence none done := by
  constructor
  · rw [freshFrames_append, freshFrames, if_pos h, freshFrames, List.append_nil]
  · rw [lastSequence_append, lastSequence, if_pos h, lastSequence]

theorem freshFrames_snoc_fresh {done : List WireFrame} {f : WireFrame}
    (h : isStale (lastSequence none done) f.sequence = false) :
    freshFrames none (done ++ [f]) = freshFrames none done ++ [f] ∧ lastSequence none (done ++ [f]) = some f.sequence := by
  constructor
  · rw [freshFrames_append, freshFrames, h]
    rfl
  · rw [lastSequence_append, lastSequence, h]
    rfl

theorem aligned_onHeader {frames done later : List WireFrame} {f : WireFrame} (hframes : frames = done ++ f :: later)
    {r : Reader} (hpushed : r.pushed = (freshFrames none done).map WireFrame.delivered)
    (hlast : r.lastPluginSequence = lastSequence none done) {p : Pipe}
    (hinflight : p.inflight = records maxRecordBytes f.payload ++ later.flatMap WireFrame.records) (running : Bool) :
    Aligned frames ⟨p, r.onHeader running (encodeHeader f.header)⟩ := by
  have hempty (h : ¬ 0 < f.header.payloadLength.toNat) : f.payload = [] := by
    rw [f.payloadLength_header] at h
    exact List.length_eq_zero_iff.mp (by omega)
  have hnonempty (h : 0 < f.header.payloadLength.toNat) : f.payload ≠ [] := by
    rw [f.payloadLength_header] at h
    exact List.ne_nil_of_length_pos h
  have hnone (h : f.payload = []) : p.inflight = later.flatMap WireFrame.records := by
    rw [hinflight, h, records_nil]
    rfl
  unfold Reader.onHeader
  rw [f.decode_header]
  dsimp only
  rw [hlast]
  split
  · rename_i hstale
    obtain ⟨hfresh, hseq⟩ := freshFrames_snoc_stale hstale
    split
    · rename_i hpos
      exact ⟨done, f :: later, hframes, hpushed, f, later, f.payload, rfl, rfl, hstale, rfl, hnonempty hpos,
        Nat.zero_add _, hinflight⟩
    · rename_i hpos
      exact aligned_nextFrame hframes (by rw [hpushed, hfresh]) (by rw [hlast, hseq]) (hnone (hempty hpos)) running
  · rename_i hstale
    rw [Bool.not_eq_true] at hstale
    obtain ⟨hfresh, hseq⟩ := freshFrames_snoc_fresh hstale
    split
    · rename_i hpos
      exact ⟨done, f :: later, hframes, hpushed, f, later, f.payload, rfl, rfl, hstale, rfl, hnonempty hpos,
        rfl, hinflight⟩
    · rename_i hpos
      refine aligned_nextFrame hframes ?_ ?_ (hnone (hempty hpos)) running
      · rw [hfresh, List.map_append, ← hpushed]
        show r.pushed ++ [(f.header, [])] = r.pushed ++ [(f.header, f.payload)]
        rw [hempty hpos]
      · exact hseq.symm

theorem aligned_onBytes {frames : List WireFrame} {s : Inbox} (h : Aligned frames s) (hreading : s.reader.isReading = true)
    {record : Bytes} {rest : List Bytes} (hnext : s.pipe.inflight = record :: rest) (running : Bool) :
    Aligned frames ⟨{ s.pipe with inflight := rest }, s.reader.onBytes running record⟩ := by
  have htake {left : Bytes} (hleft : left ≠ []) {more : List Bytes}
      (hrecords : record :: rest = records maxRecordBytes left ++ more) :
      record = left.take maxRecordBytes ∧ rest = records maxRecordBytes (left.drop maxRecordBytes) ++ more := by
    rw [records_cons (by decide) hleft] at hrecords
    exact List.cons.inj hrecords
  obtain ⟨done, todo, hframes, hpushed, hpos⟩ := h
  rw [hnext] at hpos
  unfold StandsAt at hpos
  unfold Reader.isReading at hreading
  unfold Reader.onBytes
  split at hpos
  · rename_i got hphase
    obtain ⟨rfl, hlast, hrecords⟩ := hpos
    cases todo with
    | nil => cases hrecords
    | cons f later =>
      rw [List.flatMap_cons, f.records_eq] at hrecords
      obtain ⟨rfl, hrest⟩ := List.cons.inj hrecords
      dsimp only
      rw [List.nil_append, if_neg (by rw [length_encodeHeader]; decide)]
      exact aligned_onHeader hframes hpushed hlast hrest running
  · rename_i header drained hphase
    obtain ⟨f, later, left, rfl, rfl, hstale, hlast, hleft, hlen, hrecords⟩ := hpos
    obtain ⟨rfl, hrest⟩ := htake hleft hrecords
    have hdrop := List.length_drop (i := maxRecordBytes) (l := left)
    dsimp only
    rw [f.payloadLength_header, List.length_take]
    split
    · rename_i hmore
      refine ⟨done, f :: later, hframes, hpushed, f, later, left.drop maxRecordBytes, rfl, rfl, hstale, hlast,
        List.ne_nil_of_length_pos ?_, ?_, hrest⟩ <;> omega
    · rename_i hmore
      have hall : left.drop maxRecordBytes = [] := List.length_eq_zero_iff.mp (by omega)
      obtain ⟨hfresh, hseq⟩ := freshFrames_snoc_stale hstale
      rw [hall, records_nil] at hrest
      exact aligned_nextFrame hframes (by rw [hpushed, hfresh]) (by rw [hlast, hseq]) hrest running
  · rename_i header got hphase
    obtain ⟨f, later, left, rfl, rfl, hfresh, hlast, hleft, hsplit, hrecords⟩ := hpos
    obtain ⟨rfl, hrest⟩ := htake hleft hrecords
    have hdrop := List.length_drop (i := maxRecordBytes) (l := left)
    have hlen := congrArg List.length hsplit
    rw [List.length_append] at hlen
    dsimp only
    rw [f.payloadLength_header, List.length_append, List.length_take]
    split
    · rename_i hmore
      refine ⟨done, f :: later, hframes, hpushed, f, later, left.drop maxRecordBytes, rfl, rfl, hfresh, hlast,
        List.ne_nil_of_length_pos ?_, ?_, hrest⟩
      · omega
      · rw [List.append_assoc, List.take_append_drop, hsplit]
    · rename_i hmore
      have hall : left.drop maxRecordBytes = [] := List.length_eq_zero_iff.mp (by omega)
      have hwhole : got ++ left.take maxRecordBytes = f.payload := by
        rw [← hsplit, ← List.take_append_drop maxRecordBytes left, hall, List.append_nil, List.take_take, min_self]
      obtain ⟨hpush, hseq⟩ := freshFrames_snoc_fresh hfresh
      rw [hall, records_nil] at hrest
      refine aligned_nextFrame hframes ?_ ?_ hrest running
      · rw [hpush, List.map_append, ← hpushed, hwhole]
        rfl
      · rw [hseq, ← hlast]
        rfl
  · rename_i hphase
    rw [hphase] at hreading
    cases hreading
  · exact hpos.elim

/-! ## Runs -/

/-- The thread starts on a connection over which the frames are sent. -/
def Inbox.start (frames : List WireFrame) (running : Bool) : Inbox where
  pipe := { inflight := frames.flatMap WireFrame.records, closed := false }
  reader := .start running

theorem Inbox.closed_step (s : Inbox) (t : Turn) : (s.step t).pipe.closed = s.pipe.closed := by
  unfold step
  split
  · dsimp only
    unfold Pipe.recv
    cases t.arrived with
    | false => rfl
    | true =>
      cases s.pipe.inflight <;> rfl
  · rfl

/-- The turn does not meet the end of a closed stream. -/
def Inbox.Open (s : Inbox) (t : Turn) : Prop := t.arrived = true → s.pipe.inflight = [] → s.pipe.closed = false

/-- A turn of a thread that reads: it waits in vain, or takes the next record. -/
theorem Inbox.step_cases {frames : List WireFrame} {s : Inbox} {t : Turn} (h : Aligned frames s) (hopen : s.Open t)
    (hreading : s.reader.isReading = true) :
    (t.arrived = true → s.pipe.inflight = []) ∧ s.step t = ⟨s.pipe, s.reader.step t.running .timeout⟩ ∨
      ∃ record rest, t.arrived = true ∧ s.pipe.inflight = record :: rest ∧
        s.step t = ⟨{ s.pipe with inflight := rest }, s.reader.onBytes t.running record⟩ := by
  unfold step
  rw [if_pos hreading]
  cases harrived : t.arrived with
  | false => exact .inl ⟨fun h => (Bool.false_ne_true h).elim, rfl⟩
  | true =>
    rcases hin : s.pipe.inflight with _ | ⟨record, rest⟩
    · left
      refine ⟨fun _ => rfl, ?_⟩
      have hrecv : s.pipe.recv s.reader.capacity .record = (.again, s.pipe) := by
        unfold Pipe.recv
        rw [hin, hopen harrived hin]
        rfl
      show Inbox.mk (s.pipe.recv s.reader.capacity .record).2
        (s.reader.step t.running (ipcReceive (s.pipe.recv s.reader.capacity .record).1)) = _
      rw [hrecv]
      rfl
    · right
      obtain ⟨hne, hfits⟩ := h.next_fits hreading hin
      refine ⟨record, rest, rfl, rfl, ?_⟩
      show Inbox.mk (s.pipe.recv s.reader.capacity .record).2
        (s.reader.step t.running (ipcReceive (s.pipe.recv s.reader.capacity .record).1)) = _
      rw [Pipe.recv_record hin hfits hne]
      rfl

theorem aligned_step {frames : List WireFrame} {s : Inbox} {t : Turn} (h : Aligned frames s) (hopen : s.Open t) :
    Aligned frames (s.step t) := by
  by_cases hreading : s.reader.isReading = true
  · rcases Inbox.step_cases h hopen hreading with ⟨-, hstep⟩ | ⟨record, rest, -, hin, hstep⟩
    · rw [hstep]
      unfold Reader.step
      dsimp only
      split
      · obtain ⟨done, todo, hframes, hpushed, -⟩ := h
        exact ⟨done, todo, hframes, hpushed, trivial⟩
      · exact h
    · rw [hstep]
      exact aligned_onBytes h hreading hin t.running
  · have hsame : s.step t = s := if_neg hreading
    rw [hsame]
    exact h

theorem aligned_start (frames : List WireFrame) (running : Bool) : Aligned frames (.start frames running) := by
  refine ⟨[], frames, rfl, rfl, ?_⟩
  unfold StandsAt Inbox.start Reader.start
  cases running with
  | true => exact ⟨rfl, rfl, rfl⟩
  | false => trivial

theorem aligned_run (frames : List WireFrame) (running : Bool) (schedule : List Turn) :
    Aligned frames (run Inbox.step (.start frames running) schedule) ∧
      (run Inbox.step (.start frames running) schedule).pipe.closed = false := by
  have hstep (s : Inbox) (t : Turn) (h : Aligned frames s ∧ s.pipe.closed = false) :
      Aligned frames (s.step t) ∧ (s.step t).pipe.closed = false :=
    ⟨aligned_step h.1 fun _ _ => h.2, (s.closed_step t).trans h.2⟩
  exact run_invariant' hstep schedule ⟨aligned_start frames running, rfl⟩

/-! ### Everything arrives -/

/-- A thread that is not told to stop only ends for a bad header. -/
theorem Reader.onBytes_running {r : Reader} (hreading : r.isReading = true) (bs : Bytes) :
    (r.onBytes true bs).isReading = true ∨ (r.onBytes true bs).phase = .fatal := by
  unfold onBytes
  split
  · dsimp only
    split
    · exact .inl rfl
    · unfold onHeader
      split
      · exact .inr rfl
      · left
        split
        · split <;> rfl
        · dsimp only
          split <;> rfl
  · dsimp only
    split <;> exact .inl rfl
  · dsimp only
    split <;> exact .inl rfl
  · exact .inl hreading
  · exact .inl hreading

theorem reading_step {frames : List WireFrame} {s : Inbox} {t : Turn} (h : Aligned frames s) (hopen : s.Open t)
    (hreading : s.reader.isReading = true) (hrunning : t.running = true) :
    (s.step t).reader.isReading = true := by
  rcases Inbox.step_cases h hopen hreading with ⟨-, hstep⟩ | ⟨record, rest, -, hin, hstep⟩
  · rw [hstep]
    unfold Reader.step
    rw [hrunning]
    simpa using hreading
  · have hafter := aligned_onBytes h hreading hin t.running
    rw [hstep]
    rw [hrunning] at hafter ⊢
    rcases Reader.onBytes_running hreading record with hgo | hfatal
    · exact hgo
    · obtain ⟨done, todo, -, -, hpos⟩ := hafter
      unfold StandsAt at hpos
      rw [hfatal] at hpos
      exact hpos.elim

theorem inflight_step {frames : List WireFrame} {s : Inbox} {t : Turn} (h : Aligned frames s) (hopen : s.Open t)
    (hreading : s.reader.isReading = true) :
    (s.step t).pipe.inflight.length = s.pipe.inflight.length - (if t.arrived then 1 else 0) := by
  rcases Inbox.step_cases h hopen hreading with ⟨hnone, hstep⟩ | ⟨record, rest, harrived, hin, hstep⟩
  · rw [hstep]
    split
    · rw [hnone (by assumption)]
      rfl
    · rfl
  · rw [hstep, hin, harrived]
    rfl

theorem inflight_run {frames : List WireFrame} {s : Inbox} (h : Aligned frames s) (hopen : s.pipe.closed = false)
    (hreading : s.reader.isReading = true) {schedule : List Turn} (hrunning : ∀ t ∈ schedule, t.running = true) :
    (run Inbox.step s schedule).reader.isReading = true ∧
      (run Inbox.step s schedule).pipe.inflight.length = s.pipe.inflight.length - schedule.countP (·.arrived) := by
  induction schedule generalizing s with
  | nil => exact ⟨hreading, rfl⟩
  | cons t schedule ih =>
    have hturn : s.Open t := fun _ _ => hopen
    have hcount := inflight_step h hturn hreading
    obtain ⟨hread, hlen⟩ := ih (aligned_step h hturn) ((s.closed_step t).trans hopen)
      (reading_step h hturn hreading (hrunning t (List.mem_cons_self ..)))
      fun u hu => hrunning u (List.mem_cons_of_mem _ hu)
    refine ⟨hread, hlen.trans ?_⟩
    rw [hcount, List.countP_cons]
    split <;> omega

/-- A thread that reads and has nothing in flight has pushed every frame that is not stale. -/
theorem Aligned.all_pushed {frames : List WireFrame} {s : Inbox} (h : Aligned frames s)
    (hreading : s.reader.isReading = true) (hnone : s.pipe.inflight = []) :
    s.reader.pushed = (freshFrames none frames).map WireFrame.delivered := by
  have hleft {left : Bytes} (hleft : left ≠ []) {more : List Bytes} : [] ≠ records maxRecordBytes left ++ more := by
    intro hnil
    exact hleft ((records_eq_nil_iff (by decide)).mp (List.append_eq_nil_iff.mp hnil.symm).1)
  obtain ⟨done, todo, hframes, hpushed, hpos⟩ := h
  rw [hnone] at hpos
  unfold StandsAt at hpos
  split at hpos
  · obtain ⟨-, -, hrecords⟩ := hpos
    cases todo with
    | nil => rw [hpushed, hframes, List.append_nil]
    | cons f later =>
      rw [List.flatMap_cons, f.records_eq] at hrecords
      cases hrecords
  · obtain ⟨f, later, left, -, -, -, -, hne, -, hrecords⟩ := hpos
    exact (hleft hne hrecords).elim
  · obtain ⟨f, later, left, -, -, -, -, hne, -, hrecords⟩ := hpos
    exact (hleft hne hrecords).elim
  · rename_i hphase
    unfold Reader.isReading at hreading
    rw [hphase] at hreading
    cases hreading
  · exact hpos.elim

end VlcWhisper.Worker
