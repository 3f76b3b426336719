import VlcWhisper.Plugin.AudioCapture
import VlcWhisper.Plugin.Producers

/-!
# Captured chunks are valid frames

The capture rounds a chunk's duration up to whole microseconds, the validator rounds the bytes it expects of a
duration down, and the chunk's byte count comes from its samples alone. At 16 kHz the roundings cancel: a sample is two
bytes and the expected bytes of `n` samples are `2 * n` exactly. Main result: `captured_delivered`.
-/

namespace VlcWhisper.Plugin

open VlcWhisper.Lib VlcWhisper.Protocol

/-- The bytes of `out_pcm`: 16-bit samples, little-endian. -/
def pcmBytes (pcm : List Int) : Bytes := pcm.flatMap fun x => leBytes 2 (x % 65536).toNat

@[simp] theorem length_pcmBytes (pcm : List Int) : (pcmBytes pcm).length = 2 * pcm.length := by
  unfold pcmBytes
  rw [List.length_flatMap]
  simp [Nat.mul_comm]

/-- The chunk is in memory as `vw_audio_chunk_t`; behind its samples the array may hold anything. -/
structure CapturedChunk.StoredAs (c : CapturedChunk) (chunk : AudioChunk) : Prop where
  startPts : chunk.startPtsUs = .ofInt c.startPtsUs
  duration : chunk.durationUs = .ofInt c.durationUs
  bytes : chunk.bytes = .ofNat (2 * c.pcm.length)
  pcm : pcmBytes c.pcm <+: chunk.pcmData.bytes

theorem expectedBytes_eq (n : Nat) :
    (n * 1000000 + audioTargetRate - 1) / audioTargetRate * 32 / 1000 = 2 * n := by
  unfold audioTargetRate
  omega

namespace CapturedChunk.Formed

variable {c : CapturedChunk} {chunk : AudioChunk}

theorem bytes_toNat (h : c.Formed audioTargetRate) (hstored : c.StoredAs chunk) :
    chunk.bytes.toNat = 2 * c.pcm.length := by
  have hshort := h.short
  unfold maxOutFramesPerChunk at hshort
  rw [hstored.bytes, UInt32.toNat_ofNat', Nat.mod_eq_of_lt (by omega)]

theorem duration_toInt (h : c.Formed audioTargetRate) (hstored : c.StoredAs chunk) :
    chunk.durationUs.toInt = c.durationUs ∧ 0 < c.durationUs ∧ c.durationUs ≤ 512000 := by
  have hpos := h.nonempty
  have hshort := h.short
  have hduration := h.duration
  unfold maxOutFramesPerChunk at hshort
  unfold audioTargetRate at hduration
  have hbounds : 0 < c.durationUs ∧ c.durationUs ≤ 512000 := by omega
  refine ⟨?_, hbounds⟩
  rw [hstored.duration, Int64.toInt_ofInt_of_le (by omega) (by omega)]

/-- **The AUDIO rules.** A formed chunk satisfies what the worker asks of an AUDIO payload. -/
theorem audioAccepted (h : c.Formed audioTargetRate) (hstored : c.StoredAs chunk) : AudioAccepted chunk := by
  have hbytes := h.bytes_toNat hstored
  obtain ⟨hduration, hpos, hmax⟩ := h.duration_toInt hstored
  have hexpected : chunk.durationUs.toInt.toNat * 32 / 1000 = 2 * c.pcm.length := by
    rw [hduration, h.duration, Int.toNat_natCast]
    exact expectedBytes_eq _
  refine ⟨?_, ?_, ?_, ?_, ?_⟩
  · rw [Int64.lt_iff_toInt_lt, hduration]
    exact hpos
  · rw [Int64.le_iff_toInt_le, hduration]
    exact hmax.trans (by decide)
  · apply UInt32.toNat_inj.mp
    rw [UInt32.toNat_mod, hbytes]
    exact Nat.mul_mod_right 2 _
  · rw [hexpected, hbytes]
    omega
  · rw [hexpected, hbytes]
    omega

end CapturedChunk.Formed

/-- The message `sendAudio` encodes. -/
def audioMessage (client : Client) (chunk : AudioChunk) : Payload :=
  .audioPcm { sessionId := client.sessionId, startPtsUs := chunk.startPtsUs, durationUs := chunk.durationUs,
              pcm := chunk.pcm }

/-- The chunk's payload fits the client's buffer, and the worker decodes and accepts it with the samples captured. -/
def CapturedChunk.Delivered (c : CapturedChunk) (chunk : AudioChunk) (client : Client) : Prop :=
  ∃ payload audio, encodePayload (audioMessage client chunk) (2 * audioChunkMaxPcmBytes) = some payload ∧
    decodePayload .audioPcm (some payload) = some (.audioPcm audio) ∧ validateAudio audio = true ∧
    audio.startPtsUs = .ofInt c.startPtsUs ∧ audio.pcm.bytes = pcmBytes c.pcm ∧
    ∀ env, client.connected = true → client.sessionActive = true → env.sent (client.sequence + 1) = true →
      (sendAudio env client chunk).frames = [⟨.audioPcm, client.sequence + 1, payload⟩]

theorem CapturedChunk.Formed.delivered {c : CapturedChunk} {chunk : AudioChunk} (h : c.Formed audioTargetRate)
    (hstored : c.StoredAs chunk) (client : Client) : c.Delivered chunk client := by
  have hwell : (audioMessage client chunk).WellFormed := by
    show ¬ chunk.pcm.Dangling
    simp [Slice.Dangling, AudioChunk.pcm]
  have hsize : encodedSize (audioMessage client chunk) ≤ 2 * audioChunkMaxPcmBytes := by
    have hfits := chunk.fits
    show 36 + chunk.bytes.toNat ≤ _
    unfold audioChunkMaxPcmBytes at hfits ⊢
    omega
  have hvalid : validatePayload (audioMessage client chunk) = true := validate_audio.mpr (h.audioAccepted hstored)
  obtain ⟨payload, q, hencode, -, hdecode, hsame, hvalid'⟩ := encodePayload_of_wellFormed hwell hsize
  rw [hvalid] at hvalid'
  cases q with
  | audioPcm audio =>
    obtain ⟨-, hpts, -, -, hbytes⟩ := hsame
    refine ⟨payload, audio, hencode, hdecode, hvalid', hpts.symm.trans hstored.startPts, ?_, ?_⟩
    · rw [← hbytes]
      show (chunk.pcmData.bytes).take chunk.bytes.toNat = _
      obtain ⟨junk, hjunk⟩ := hstored.pcm
      rw [h.bytes_toNat hstored, ← hjunk, ← length_pcmBytes, List.take_left]
    · intro env hconnected hactive hsent
      unfold sendAudio
      rw [hconnected, hactive]
      show (sendFrame env client (audioMessage client chunk) _).frames = _
      unfold sendFrame
      rw [hencode]
      dsimp only
      rw [hsent]
      rfl
  | _ => exact hsame.elim

/-- **Captured chunks are valid frames.** Whatever block a callback brings, in any phase of the resampler, every chunk
the capture pushes at 16 kHz fits the client's buffer and the worker accepts it. -/
theorem captured_delivered {cap : AudioCapture} (htarget : cap.targetRate = audioTargetRate) (cb : Callback)
    {c : CapturedChunk} (hc : c ∈ cap.chunks cb) {chunk : AudioChunk} (hstored : c.StoredAs chunk) (client : Client) :
    AudioAccepted chunk ∧ c.Delivered chunk client ∧ ∀ env, (sendAudio env client chunk).Accepted := by
  have hformed := cap.formed_chunks cb c hc
  rw [htarget] at hformed
  have haccepted := hformed.audioAccepted hstored
  refine ⟨haccepted, hformed.delivered hstored client, fun env => ?_⟩
  rw [accepted_sendAudio]
  exact fun _ _ _ => haccepted

/-- Two samples in a block of their own. -/
def twoSamples : Callback where
  input := { sample := fun i => .s16 (if i = 0 then 3 else -4), frameCount := 2, ptsUs := 250, sampleRate := 16000
             channels := 1 }
  resetPending := false
  playbackRate := .one

def twoSampleChunk : CapturedChunk where
  startPtsUs := 250
  durationUs := 125
  sampleRate := 16000
  channels := 1
  pcm := [3, -4]

/-- The chunk in memory. -/
def storedTwoSamples : AudioChunk where
  startPtsUs := 250
  durationUs := 125
  bytes := 4
  pcmData := .pad _ [3, 0, 0xFC, 0xFF]
  fits := by decide

theorem captured_delivered_twoSamples :
    AudioAccepted storedTwoSamples ∧ twoSampleChunk.Delivered storedTwoSamples liveClient ∧
      ∀ env, (sendAudio env liveClient storedTwoSamples).Accepted := by
  refine @captured_delivered (.create audioTargetRate) rfl twoSamples _ (by decide +kernel) _ ⟨rfl, rfl, rfl, ?_⟩ _
  show pcmBytes [3, -4] <+: (CArray.pad _ _).bytes
  rw [CArray.bytes_pad_of_le (by decide)]
  exact List.prefix_append _ _

end VlcWhisper.Plugin
