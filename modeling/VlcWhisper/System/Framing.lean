import VlcWhisper.Plugin.Link
import VlcWhisper.Worker.Reader

/-!
# Framing between the two processes

One side sends each frame as a header and a payload, cut into records; the other reads records into buffers of its own
choice. Main result: `framing`. Whatever frames are sent and whenever receives time out, neither reader asks for less
than the next record, and both get the sent frames.
-/

namespace VlcWhisper.System

open VlcWhisper.Lib VlcWhisper.Protocol VlcWhisper.Plugin VlcWhisper.Worker

/-! ## The client's calls in a row -/

/-- The two buffers that are sent for each frame. -/
def sentBuffers (frames : List WireFrame) : List Bytes := frames.flatMap fun f => [encodeHeader f.header, f.payload]

/-- One `receive_all` after the other, each for a whole buffer and with a deadline of its own, up to the first that does not
complete: the buffers, whether all calls completed, and the link. -/
def receiveEach : List (Nat × Int) → Link → List Bytes × Bool × Link
  | [], l => ([], true, l)
  | (len, deadlineUs) :: calls, l =>
    let res := receiveAll len deadlineUs [] l
    if res.1 = .ok then
      let rest := receiveEach calls res.2.2
      (res.2.1 :: rest.1, rest.2)
    else ([], false, res.2.2)

theorem receiveEach_sent {buffers : List Bytes} (deadlines : List Int) {more : List Bytes} {l : Link}
    (hin : l.pipe.inflight = buffers.flatMap (records maxRecordBytes) ++ more) (hlen : deadlines.length = buffers.length) :
    (∃ events, (receiveEach ((buffers.map List.length).zip deadlines) l).2.2.log = l.log ++ events ∧ NoneCut events) ∧
      (receiveEach ((buffers.map List.length).zip deadlines) l).1 <+: buffers ∧
      ((receiveEach ((buffers.map List.length).zip deadlines) l).2.1 = true →
        (receiveEach ((buffers.map List.length).zip deadlines) l).1 = buffers ∧
          (receiveEach ((buffers.map List.length).zip deadlines) l).2.2.pipe.inflight = more) := by
  induction buffers generalizing deadlines l with
  | nil => exact ⟨noneCut_same rfl, List.nil_prefix, fun _ => ⟨rfl, hin⟩⟩
  | cons buffer buffers ih =>
    rcases deadlines with _ | ⟨deadlineUs, deadlines⟩
    · cases hlen
    · rw [List.flatMap_cons, List.append_assoc] at hin
      obtain ⟨⟨events, hlog, hcut⟩, hok⟩ :=
        receiveAll_records deadlineUs [] hin (Nat.zero_add _)
      rw [List.map_cons, List.zip_cons_cons]
      unfold receiveEach
      dsimp only
      split
      · rename_i hcode
        obtain ⟨hbuffer, hrest⟩ := hok hcode
        obtain ⟨⟨later, hlater, hcut'⟩, hprefix, hall⟩ := ih deadlines hrest (Nat.succ.inj hlen)
        rw [hbuffer, List.nil_append]
        refine ⟨⟨events ++ later, by rw [hlater, hlog, List.append_assoc], hcut.append hcut'⟩, ?_, fun h => ?_⟩
        · exact (List.prefix_cons_inj buffer).mpr hprefix
        · obtain ⟨heq, hinflight⟩ := hall h
          exact ⟨congrArg (buffer :: ·) heq, hinflight⟩
      · exact ⟨⟨events, hlog, hcut⟩, List.nil_prefix, nofun⟩

theorem flatMap_sentBuffers (frames : List WireFrame) :
    (sentBuffers frames).flatMap (records maxRecordBytes) = frames.flatMap WireFrame.records := by
  induction frames with
  | nil => rfl
  | cons f frames ih =>
    have hframe : f.records = records maxRecordBytes (encodeHeader f.header) ++ records maxRecordBytes f.payload := by
      unfold WireFrame.records
      rw [ipcSend_of_never, ipcSend_of_never]
    have hsplit : sentBuffers (f :: frames) = encodeHeader f.header :: f.payload :: sentBuffers frames := rfl
    rw [hsplit, List.flatMap_cons, List.flatMap_cons, List.flatMap_cons, ih, hframe, List.append_assoc]

/-! ## Both readers -/

/-- **Framing.** For all frames, the worker's reader is never cut short by a record, never fails, and at every moment is
aligned: what it has pushed are the frames it has passed (but for stale ones). When nothing is in flight that is all
frames, and that is so after enough arrivals. The client's receive calls get the buffers that were sent, and all of
them if all calls complete. -/
theorem framing (frames : List WireFrame) :
    (∀ running schedule, ∃ s, s = run Inbox.step (.start frames running) schedule ∧ Aligned frames s ∧
      s.reader.phase ≠ .fatal ∧
      (s.reader.isReading = true → ∀ record rest, s.pipe.inflight = record :: rest → record.length ≤ s.reader.capacity) ∧
      (s.reader.isReading = true → s.pipe.inflight = [] →
        s.reader.pushed = (freshFrames none frames).map WireFrame.delivered)) ∧
    (∀ schedule, (∀ t ∈ schedule, t.running = true) →
      (frames.flatMap WireFrame.records).length ≤ schedule.countP (·.arrived) →
      (run Inbox.step (.start frames true) schedule).reader.pushed = (freshFrames none frames).map WireFrame.delivered) ∧
    (Increasing frames → freshFrames none frames = frames) ∧
    (∀ l more deadlines, l.pipe.inflight = frames.flatMap WireFrame.records ++ more →
      deadlines.length = (sentBuffers frames).length →
      ∃ res, res = receiveEach (((sentBuffers frames).map List.length).zip deadlines) l ∧
        (∃ events, res.2.2.log = l.log ++ events ∧ NoneCut events) ∧ res.1 <+: sentBuffers frames ∧
        (res.2.1 = true → res.1 = sentBuffers frames ∧ res.2.2.pipe.inflight = more)) := by
  refine ⟨fun running schedule => ?_, fun schedule hrunning henough => ?_, freshFrames_of_increasing,
    fun l more deadlines hin hlen => ?_⟩
  · obtain ⟨haligned, -⟩ := aligned_run frames running schedule
    refine ⟨_, rfl, haligned, fun hfatal => ?_, fun hreading record rest hnext => ?_, haligned.all_pushed⟩
    · obtain ⟨done, todo, -, -, hpos⟩ := haligned
      unfold StandsAt at hpos
      rw [hfatal] at hpos
      exact hpos.elim
    · exact (haligned.next_fits hreading hnext).2
  · obtain ⟨haligned, -⟩ := aligned_run frames true schedule
    obtain ⟨hreading, hleft⟩ := inflight_run (aligned_start frames true) rfl rfl hrunning
    refine haligned.all_pushed hreading (List.length_eq_zero_iff.mp ?_)
    rw [hleft]
    exact Nat.sub_eq_zero_of_le henough
  · rw [← flatMap_sentBuffers] at hin
    exact ⟨_, rfl, receiveEach_sent deadlines hin hlen⟩

end VlcWhisper.System
