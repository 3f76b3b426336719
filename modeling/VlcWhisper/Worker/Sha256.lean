import VlcWhisper.Worker.CueText

/-!
# SHA-256 (`vw_sha256.c`)

The context of a running hash, and the hash of a file that is read piece by piece (`vw_sha256_file`). Main result:
`sha256File_eq`. However a file is split into pieces, its hash is that of its whole content.
-/

namespace VlcWhisper.Worker

open VlcWhisper.Lib

/-! ## The compression function -/

/-- `ctx->state`. -/
structure HashState where
  a : UInt32
  b : UInt32
  c : UInt32
  d : UInt32
  e : UInt32
  f : UInt32
  g : UInt32
  h : UInt32
  deriving DecidableEq

def roundConstants : List UInt32 :=
  [0x428a2f98, 0x71374491, 0xb5c0fbcf, 0xe9b5dba5, 0x3956c25b, 0x59f111f1, 0x923f82a4, 0xab1c5ed5,
   0xd807aa98, 0x12835b01, 0x243185be, 0x550c7dc3, 0x72be5d74, 0x80deb1fe, 0x9bdc06a7, 0xc19bf174,
   0xe49b69c1, 0xefbe4786, 0x0fc19dc6, 0x240ca1cc, 0x2de92c6f, 0x4a7484aa, 0x5cb0a9dc, 0x76f988da,
   0x983e5152, 0xa831c66d, 0xb00327c8, 0xbf597fc7, 0xc6e00bf3, 0xd5a79147, 0x06ca6351, 0x14292967,
   0x27b70a85, 0x2e1b2138, 0x4d2c6dfc, 0x53380d13, 0x650a7354, 0x766a0abb, 0x81c2c92e, 0x92722c85,
   0xa2bfe8a1, 0xa81a664b, 0xc24b8b70, 0xc76c51a3, 0xd192e819, 0xd6990624, 0xf40e3585, 0x106aa070,
   0x19a4c116, 0x1e376c08, 0x2748774c, 0x34b0bcb5, 0x391c0cb3, 0x4ed8aa4a, 0x5b9cca4f, 0x682e6ff3,
   0x748f82ee, 0x78a5636f, 0x84c87814, 0x8cc70208, 0x90befffa, 0xa4506ceb, 0xbef9a3f7, 0xc67178f2]

/-- `VW_SHA256_ROTR`. -/
def rotr (x n : UInt32) : UInt32 := (x >>> n) ||| (x <<< (32 - n))

/-- Word `i` of a block, most significant byte first. -/
def blockWord (data : Bytes) (i : Nat) : UInt32 :=
  ((data.getD (i * 4) 0).toUInt32 <<< 24) ||| ((data.getD (i * 4 + 1) 0).toUInt32 <<< 16) |||
    ((data.getD (i * 4 + 2) 0).toUInt32 <<< 8) ||| (data.getD (i * 4 + 3) 0).toUInt32

/-- Some more words of the schedule. -/
def extendSchedule : Nat → List UInt32 → List UInt32
  | 0, w => w
  | n + 1, w =>
    let i := w.length
    let x := w.getD (i - 15) 0
    let y := w.getD (i - 2) 0
    let s0 := rotr x 7 ^^^ rotr x 18 ^^^ (x >>> 3)
    let s1 := rotr y 17 ^^^ rotr y 19 ^^^ (y >>> 10)
    extendSchedule n (w ++ [w.getD (i - 16) 0 + s0 + w.getD (i - 7) 0 + s1])

/-- The 64 words of a block's schedule. -/
def schedule (data : Bytes) : List UInt32 := extendSchedule 48 ((List.range 16).map (blockWord data))

/-- A round, with its constant and its word. -/
def HashState.round (s : HashState) (kw : UInt32 × UInt32) : HashState :=
  let s1 := rotr s.e 6 ^^^ rotr s.e 11 ^^^ rotr s.e 25
  let ch := (s.e &&& s.f) ^^^ (~~~s.e &&& s.g)
  let temp1 := s.h + s1 + ch + kw.1 + kw.2
  let s0 := rotr s.a 2 ^^^ rotr s.a 13 ^^^ rotr s.a 22
  let maj := (s.a &&& s.b) ^^^ (s.a &&& s.c) ^^^ (s.b &&& s.c)
  let temp2 := s0 + maj
  ⟨temp1 + temp2, s.a, s.b, s.c, s.d + temp1, s.e, s.f, s.g⟩

def HashState.add (s t : HashState) : HashState :=
  ⟨s.a + t.a, s.b + t.b, s.c + t.c, s.d + t.d, s.e + t.e, s.f + t.f, s.g + t.g, s.h + t.h⟩

/-- `vw_sha256_transform`, on a block of 64 bytes. -/
def sha256Transform (s : HashState) (data : Bytes) : HashState :=
  s.add ((roundConstants.zip (schedule data)).foldl HashState.round s)

/-! ## The running hash -/

/-- `vw_sha256_context_t`; `data` holds the bytes below `datalen`. -/
structure Sha256Context where
  data : Bytes
  bitlen : UInt64
  state : HashState

/-- `vw_sha256_init`. -/
def sha256Init : Sha256Context where
  data := []
  bitlen := 0
  state := ⟨0x6a09e667, 0xbb67ae85, 0x3c6ef372, 0xa54ff53a, 0x510e527f, 0x9b05688c, 0x1f83d9ab, 0x5be0cd19⟩

/-- One more byte; a block that is full is hashed. -/
def Sha256Context.push (ctx : Sha256Context) (byte : UInt8) : Sha256Context :=
  let data := ctx.data ++ [byte]
  if data.length = 64 then { data := [], bitlen := ctx.bitlen + 512, state := sha256Transform ctx.state data }
  else { ctx with data }

/-- `vw_sha256_update`. -/
def sha256Update (ctx : Sha256Context) (data : Bytes) : Sha256Context := data.foldl Sha256Context.push ctx

/-- The bytes of a word, most significant first. -/
def bigEndian32 (w : UInt32) : Bytes := [(w >>> 24).toUInt8, (w >>> 16).toUInt8, (w >>> 8).toUInt8, w.toUInt8]

def bigEndian64 (w : UInt64) : Bytes :=
  bigEndian32 (w >>> 32).toUInt32 ++ bigEndian32 w.toUInt32

/-- `vw_sha256_final`: what is left is padded, over two blocks if it does not fit, and the length goes last. -/
def sha256Final (ctx : Sha256Context) : Bytes :=
  let datalen := ctx.data.length
  let rest := ctx.data ++ [0x80]
  let padded : HashState × Bytes :=
    if datalen < 56 then (ctx.state, rest ++ List.replicate (55 - datalen) 0)
    else (sha256Transform ctx.state (rest ++ List.replicate (63 - datalen) 0), List.replicate 56 0)
  let bitlen := ctx.bitlen + .ofNat datalen * 8
  let s := sha256Transform padded.1 (padded.2 ++ bigEndian64 bitlen)
  [s.a, s.b, s.c, s.d, s.e, s.f, s.g, s.h].flatMap bigEndian32

/-- `vw_sha256`. -/
def sha256 (data : Bytes) : Bytes := sha256Final (sha256Update sha256Init data)

def hexDigit (n : UInt8) : UInt8 := if n < 10 then 0x30 + n else 0x61 + (n - 10)

/-- `vw_sha256_to_hex`. -/
def sha256ToHex (hash : Bytes) : Bytes := hash.flatMap fun (byte : UInt8) => [hexDigit (byte >>> 4), hexDigit (byte &&& 0xf)]

def hexLower (c : UInt8) : UInt8 := if 0x41 ≤ c && c ≤ 0x46 then c - 0x41 + 0x61 else c

/-- `vw_hex_equal_ci`. -/
def hexEqualCi (a b : Bytes) : Bool := a.map hexLower = b.map hexLower

/-! ## Files -/

/-- The pieces in which a file is read, if each read gets as much as `sizes` says and the last one the rest. -/
def readPieces : List Nat → Bytes → List Bytes
  | [], content => [content]
  | n :: sizes, content => content.take n :: readPieces sizes (content.drop n)

/-- `vw_sha256_file`, of a file that can be read. -/
def sha256File (sizes : List Nat) (content : Bytes) : Bytes :=
  sha256Final ((readPieces sizes content).foldl sha256Update sha256Init)

theorem flatten_readPieces (sizes : List Nat) (content : Bytes) : (readPieces sizes content).flatten = content := by
  induction sizes generalizing content with
  | nil => simp [readPieces]
  | cons n sizes ih => rw [readPieces, List.flatten_cons, ih, List.take_append_drop]

theorem foldl_sha256Update (ctx : Sha256Context) (pieces : List Bytes) :
    pieces.foldl sha256Update ctx = sha256Update ctx pieces.flatten := by
  unfold sha256Update
  rw [List.foldl_flatten]

/-- **The hash of a file is that of its content.** -/
theorem sha256File_eq (sizes : List Nat) (content : Bytes) : sha256File sizes content = sha256 content := by
  rw [sha256File, foldl_sha256Update, flatten_readPieces]
  rfl

/-- The vector of the standard, in two pieces. -/
example : hexEqualCi (sha256ToHex (sha256File [1] (ascii "abc")))
    (ascii "BA7816BF8F01CFEA414140DE5DAE2223B00361A396177A9CB410FF61F20015AD") = true := by
  decide +kernel

end VlcWhisper.Worker
