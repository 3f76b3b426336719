import VlcWhisper.Lib.Records
import VlcWhisper.Protocol.Codec

/-!
# Frames on the transport (`vw_ipc_socket_linux.c`, `vw_protocol_codec.c`)

A frame is a header of 20 bytes and a payload, each given to `vw_ipc_send` on its own. The socket keeps record
boundaries, so `vw_ipc_send` cuts what it is given into records of at most 64 KiB, and `vw_ipc_receive` takes one
record.
-/

namespace VlcWhisper.Protocol

open VlcWhisper.Lib

/-! ## Sending and receiving -/

/-- `VW_IPC_MAX_RECORD_BYTES`. -/
def maxRecordBytes : Nat := 65536

/-- `vw_ipc_send`: whether all was sent, and the records that were; `fails i` says that the `i`-th is not. -/
def ipcSend (fails : Nat → Bool) (i : Nat) (bs : Bytes) : Bool × List Bytes :=
  if bs = [] then (true, [])
  else if fails i then (false, [])
  else
    let rest := ipcSend fails (i + 1) (bs.drop maxRecordBytes)
    (rest.1, bs.take maxRecordBytes :: rest.2)
termination_by bs.length
decreasing_by
  rename_i h _
  have hpos := List.length_pos_of_ne_nil h
  rw [List.length_drop, maxRecordBytes]
  omega

/-- What `vw_ipc_receive` and `vw_ipc_receive_timeout` return. -/
inductive Received where
  | bytes (bs : Bytes)
  | timeout
  | fatal

def ipcReceive : RecvRecord → Received
  | .bytes bs => .bytes bs
  | .again => .timeout
  | .eof | .tooLong | .broken => .fatal

theorem records_of_ipcSend {fails : Nat → Bool} {i : Nat} {bs : Bytes} (h : (ipcSend fails i bs).1 = true) :
    (ipcSend fails i bs).2 = records maxRecordBytes bs := by
  induction i, bs using ipcSend.induct fails with
  | case1 i => rw [ipcSend, if_pos rfl, records_nil]
  | case2 i bs hne hfails =>
    rw [ipcSend, if_neg hne, if_pos hfails] at h
    cases h
  | case3 i bs hne hfails ih =>
    rw [ipcSend, if_neg hne, if_neg hfails] at h ⊢
    rw [records_cons (by decide) hne, ← ih h]

theorem ipcSend_of_never (i : Nat) (bs : Bytes) : (ipcSend (fun _ => false) i bs).2 = records maxRecordBytes bs := by
  refine records_of_ipcSend ?_
  induction i, bs using ipcSend.induct fun _ => false with
  | case1 i => rw [ipcSend, if_pos rfl]
  | case2 i bs hne hfails => cases hfails
  | case3 i bs hne hfails ih =>
    rw [ipcSend, if_neg hne, if_neg hfails]
    exact ih

/-! ## Headers -/

/-- `vw_frame_header_t`. -/
structure FrameHeader where
  magic : UInt32
  major : UInt16
  type : UInt16
  payloadLength : UInt32
  sequence : UInt64
  deriving DecidableEq

def protocolMagic : UInt32 := 0x564C4357

/-- `sizeof(vw_frame_header_t)`. -/
def headerBytes : Nat := 20

/-- The number of a message type on the wire. -/
def MessageType.code : MessageType → UInt16
  | .hello => 1
  | .helloAck => 2
  | .startSession => 3
  | .audioPcm => 4
  | .pause => 5
  | .resume => 6
  | .stopSession => 7
  | .captionSegment => 8
  | .status => 9
  | .error => 10
  | .shutdown => 11
  | .started => 12
  | .position => 13
  | .modelCtrl => 14
  | .modelProgress => 15
  | .translateCtrl => 16

/-- The message types in the order of their numbers, from 1 on. -/
def MessageType.all : List MessageType :=
  [.hello, .helloAck, .startSession, .audioPcm, .pause, .resume, .stopSession, .captionSegment, .status, .error,
   .shutdown, .started, .position, .modelCtrl, .modelProgress, .translateCtrl]

/-- The message type of a number. -/
def MessageType.ofCode (n : UInt16) : Option MessageType := if n = 0 then none else MessageType.all[n.toNat - 1]?

/-- `vw_protocol_validate_header`. -/
def validateHeader (h : FrameHeader) : Bool :=
  h.magic = protocolMagic && h.major = versionMajor && h.payloadLength.toNat ≤ maxPayloadBytes &&
    !(h.type < MessageType.hello.code || MessageType.translateCtrl.code < h.type)

/-- `vw_protocol_encode_header`. -/
def encodeHeader (h : FrameHeader) : Bytes :=
  WireWord.bytes h.magic ++ WireWord.bytes h.major ++ WireWord.bytes h.type ++ WireWord.bytes h.payloadLength ++
    WireWord.bytes h.sequence

def readHeader : Reader FrameHeader := do
  let magic ← .word UInt32
  let major ← .word UInt16
  let type ← .word UInt16
  let payloadLength ← .word UInt32
  let sequence ← .word UInt64
  pure { magic, major, type, payloadLength, sequence }

/-- `vw_protocol_decode_header`. -/
def decodeHeader (buffer : Bytes) : Option FrameHeader :=
  match readHeader.run buffer with
  | none => none
  | some (h, _) => if validateHeader h then some h else none

@[simp] theorem length_encodeHeader (h : FrameHeader) : (encodeHeader h).length = headerBytes := by
  simp [encodeHeader, headerBytes]

theorem readHeader_run_eq_some {bs rest : Bytes} {h : FrameHeader} :
    readHeader.run bs = some (h, rest) ↔ bs = encodeHeader h ++ rest := by
  simp only [readHeader, Reader.run_bind_eq_some, Reader.word_run_eq_some, Reader.run_pure_eq_some, encodeHeader]
  constructor
  · rintro ⟨magic, r1, rfl, major, r2, rfl, type, r3, rfl, length, r4, rfl, sequence, r5, rfl, rfl, rfl⟩
    simp
  · rintro rfl
    exact ⟨_, _, by simp, _, _, rfl, _, _, rfl, _, _, rfl, _, _, rfl, rfl, rfl⟩

theorem decodeHeader_eq_some {bs : Bytes} (hlen : bs.length = headerBytes) {h : FrameHeader} :
    decodeHeader bs = some h ↔ bs = encodeHeader h ∧ validateHeader h = true := by
  have hrun (g : FrameHeader) (rest : Bytes) : readHeader.run bs = some (g, rest) → bs = encodeHeader g ∧ rest = [] := by
    intro hg
    have heq := readHeader_run_eq_some.mp hg
    have hrest : rest.length = 0 := by
      have := congrArg List.length heq
      rw [List.length_append, length_encodeHeader, hlen] at this
      omega
    rw [List.length_eq_zero_iff.mp hrest, List.append_nil] at heq
    exact ⟨heq, List.length_eq_zero_iff.mp hrest⟩
  unfold decodeHeader
  constructor
  · intro hdec
    split at hdec
    · cases hdec
    · rename_i g rest hg
      split at hdec
      · obtain rfl := Option.some.inj hdec
        exact ⟨(hrun _ _ hg).1, by assumption⟩
      · cases hdec
  · rintro ⟨rfl, hvalid⟩
    have hread : readHeader.run (encodeHeader h) = some (h, []) := readHeader_run_eq_some.mpr (by simp)
    rw [hread]
    dsimp only
    rw [if_pos hvalid]

/-- The sequence number of a duplicate or reordered frame: it is not above the last one. -/
def isStale (last : Option UInt64) (sequence : UInt64) : Bool := last.any fun n => sequence ≤ n

/-! ## Frames -/

/-- A frame of the protocol. -/
structure WireFrame where
  type : MessageType
  sequence : UInt64
  payload : Bytes
  fits : payload.length ≤ maxPayloadBytes

namespace WireFrame

def header (f : WireFrame) : FrameHeader where
  magic := protocolMagic
  major := versionMajor
  type := f.type.code
  payloadLength := .ofNat f.payload.length
  sequence := f.sequence

/-- The bytes of a frame. -/
def bytes (f : WireFrame) : Bytes := encodeHeader f.header ++ f.payload

/-- The records of a frame: its header is sent, then its payload, and no send fails. -/
def records (f : WireFrame) : List Bytes :=
  (ipcSend (fun _ => false) 0 (encodeHeader f.header)).2 ++ (ipcSend (fun _ => false) 0 f.payload).2

theorem payloadLength_header (f : WireFrame) : f.header.payloadLength.toNat = f.payload.length := by
  have hfits := f.fits
  rw [maxPayloadBytes] at hfits
  show (UInt32.ofNat f.payload.length).toNat = _
  rw [UInt32.toNat_ofNat', Nat.mod_eq_of_lt (by omega)]

theorem ofCode_code (t : MessageType) : MessageType.ofCode t.code = some t := by
  cases t <;> rfl

theorem validate_header (f : WireFrame) : validateHeader f.header = true := by
  have hlen := f.payloadLength_header
  have hfits := f.fits
  have htype : (!(f.type.code < MessageType.hello.code || MessageType.translateCtrl.code < f.type.code)) = true := by
    cases f.type <;> rfl
  unfold validateHeader
  rw [Bool.and_eq_true, Bool.and_eq_true, Bool.and_eq_true]
  refine ⟨⟨⟨decide_eq_true rfl, decide_eq_true rfl⟩, decide_eq_true ?_⟩, htype⟩
  omega

theorem decode_header (f : WireFrame) : decodeHeader (encodeHeader f.header) = some f.header :=
  (decodeHeader_eq_some (length_encodeHeader _)).mpr ⟨rfl, f.validate_header⟩

theorem exists_of_validateHeader {h : FrameHeader} (hvalid : validateHeader h = true) {payload : Bytes}
    (hlen : payload.length = h.payloadLength.toNat) : ∃ f : WireFrame, f.header = h ∧ f.payload = payload := by
  unfold validateHeader at hvalid
  simp only [Bool.and_eq_true, decide_eq_true_eq, Bool.not_eq_true', Bool.or_eq_false_iff, decide_eq_false_iff_not,
    UInt16.not_lt] at hvalid
  obtain ⟨⟨⟨hmagic, hmajor⟩, hmax⟩, hlow, hhigh⟩ := hvalid
  have hcode : ∃ t : MessageType, t.code = h.type := by
    rw [UInt16.le_iff_toNat_le] at hlow hhigh
    have hlow' : 1 ≤ h.type.toNat := hlow
    have hhigh' : h.type.toNat ≤ 16 := hhigh
    have hmem : h.type.toNat - 1 < MessageType.all.length := by
      show _ < 16
      omega
    have hall : ∀ i : Fin 16, (MessageType.all.get i).code.toNat = i + 1 := by decide
    refine ⟨MessageType.all.get ⟨h.type.toNat - 1, hmem⟩, UInt16.toNat_inj.mp ?_⟩
    refine (hall ⟨h.type.toNat - 1, hmem⟩).trans ?_
    show h.type.toNat - 1 + 1 = _
    omega
  obtain ⟨t, ht⟩ := hcode
  refine ⟨⟨t, h.sequence, payload, by omega⟩, ?_, rfl⟩
  show (⟨protocolMagic, versionMajor, t.code, UInt32.ofNat payload.length, h.sequence⟩ : FrameHeader) = h
  rw [hlen, ht, UInt32.ofNat_toNat, ← hmagic, ← hmajor]

theorem records_eq (f : WireFrame) :
    f.records = encodeHeader f.header :: Lib.records maxRecordBytes f.payload := by
  have hlen := length_encodeHeader f.header
  have hne : encodeHeader f.header ≠ [] := by
    intro h
    rw [h] at hlen
    cases hlen
  unfold records
  rw [ipcSend_of_never, ipcSend_of_never, records_of_length_le (by decide) hne (by rw [hlen]; decide)]
  rfl

/-! ## Streams of frames -/

theorem bytes_append_inj {f g : WireFrame} {x y : Bytes} (h : f.bytes ++ x = g.bytes ++ y) : f = g ∧ x = y := by
  unfold bytes at h
  rw [List.append_assoc, List.append_assoc] at h
  obtain ⟨hheader, hrest⟩ := List.append_inj h (by rw [length_encodeHeader, length_encodeHeader])
  have hsame : f.header = g.header := by
    have hdecode := f.decode_header
    rw [hheader, g.decode_header] at hdecode
    exact (Option.some.inj hdecode).symm
  have htype : f.type = g.type := by
    have hcode : MessageType.ofCode f.type.code = MessageType.ofCode g.type.code :=
      congrArg (fun h => MessageType.ofCode h.type) hsame
    rw [ofCode_code, ofCode_code] at hcode
    exact Option.some.inj hcode
  have hseq : f.sequence = g.sequence := congrArg FrameHeader.sequence hsame
  obtain ⟨hpayload, htail⟩ := List.append_inj hrest (by rw [← f.payloadLength_header, ← g.payloadLength_header, hsame])
  refine ⟨?_, htail⟩
  cases f
  cases g
  obtain ⟨rfl, rfl, rfl⟩ : _ ∧ _ ∧ _ := ⟨htype, hseq, hpayload⟩
  rfl

/-- The bytes say which frames they are. -/
theorem flatMap_bytes_inj {frames others : List WireFrame} (h : frames.flatMap bytes = others.flatMap bytes) :
    frames = others := by
  have hnonempty (f : WireFrame) (x : Bytes) : f.bytes ++ x ≠ [] := by
    intro h
    have hlen := congrArg List.length h
    rw [bytes, List.length_append, List.length_append, length_encodeHeader, List.length_nil, headerBytes] at hlen
    omega
  induction frames generalizing others with
  | nil =>
    cases others with
    | nil => rfl
    | cons g others => exact (hnonempty g _ h.symm).elim
  | cons f frames ih =>
    cases others with
    | nil => exact (hnonempty f _ h).elim
    | cons g others =>
      obtain ⟨rfl, htail⟩ := bytes_append_inj h
      rw [ih htail]

/-- The bytes end within a frame, or start with a header that is none. -/
def Incomplete (bs : Bytes) : Prop :=
  if bs.length < headerBytes then bs ≠ []
  else
    match decodeHeader (bs.take headerBytes) with
    | none => True
    | some h => bs.length < headerBytes + h.payloadLength.toNat

theorem not_incomplete_flatMap (frames : List WireFrame) : ¬ Incomplete (frames.flatMap bytes) := by
  unfold Incomplete
  cases frames with
  | nil =>
    rw [List.flatMap_nil, if_pos (by decide)]
    exact fun h => h rfl
  | cons f rest =>
    have hheader := length_encodeHeader f.header
    rw [List.flatMap_cons, bytes, List.append_assoc, if_neg (by rw [List.length_append, hheader]; omega),
      List.take_left' hheader, f.decode_header]
    dsimp only
    rw [List.length_append, List.length_append, hheader, f.payloadLength_header]
    omega

/-- Whole frames with something incomplete after them are not whole frames. -/
theorem ne_flatMap_of_incomplete {whole : List WireFrame} {rest : Bytes} (hrest : Incomplete rest)
    (frames : List WireFrame) : whole.flatMap bytes ++ rest ≠ frames.flatMap bytes := by
  induction whole generalizing frames with
  | nil =>
    intro h
    rw [List.flatMap_nil, List.nil_append] at h
    rw [h] at hrest
    exact not_incomplete_flatMap frames hrest
  | cons f whole ih =>
    intro h
    rw [List.flatMap_cons, List.append_assoc] at h
    cases frames with
    | nil =>
      have hlen := congrArg List.length h
      rw [List.length_append, bytes, List.length_append, length_encodeHeader, headerBytes] at hlen
      rw [List.flatMap_nil, List.length_nil] at hlen
      omega
    | cons g frames =>
      rw [List.flatMap_cons] at h
      exact ih frames (bytes_append_inj h).2

end WireFrame

end VlcWhisper.Protocol
