import VlcWhisper.Lib.SecureHash
import VlcWhisper.Worker.Sha256

/-!
# SHA-256 by the standard

Main result: `sha256_standard`. However a string is split into updates, the hash is the digest that FIPS 180-4 gives
it.

A running hash has absorbed the whole blocks of what it was given and holds the rest (`Absorbed`). The final padding
is the standard's, over one block or two.
-/

namespace VlcWhisper.Worker

open VlcWhisper.Lib SecureHash

/-! ## Words -/

/-- The bits of a string. -/
def bitsOfBytes (bs : Bytes) : List Bool := bs.flatMap fun c => bitsOf c.toBitVec

def HashState.value (s : HashState) : Hash :=
  ⟨s.a.toBitVec, s.b.toBitVec, s.c.toBitVec, s.d.toBitVec, s.e.toBitVec, s.f.toBitVec, s.g.toBitVec, s.h.toBitVec⟩

theorem bitsOfBytes_append (xs ys : Bytes) : bitsOfBytes (xs ++ ys) = bitsOfBytes xs ++ bitsOfBytes ys := by
  simp [bitsOfBytes]

theorem bitsOfBytes_flatten (pieces : List Bytes) : bitsOfBytes pieces.flatten = (pieces.map bitsOfBytes).flatten := by
  induction pieces with
  | nil => rfl
  | cons x pieces ih => rw [List.flatten_cons, bitsOfBytes_append, ih, List.map_cons, List.flatten_cons]

theorem length_bitsOfBytes (bs : Bytes) : (bitsOfBytes bs).length = 8 * bs.length := by
  induction bs with
  | nil => rfl
  | cons c bs ih =>
    have hcons : bitsOfBytes (c :: bs) = bitsOf c.toBitVec ++ bitsOfBytes bs := by simp [bitsOfBytes]
    rw [hcons, List.length_append, ih, length_bitsOf, List.length_cons]
    ring

theorem value_bitsOfBytes_cons (c : UInt8) (bs : Bytes) :
    value (bitsOfBytes (c :: bs)) = c.toNat * 256 ^ bs.length + value (bitsOfBytes bs) := by
  have hcons : bitsOfBytes (c :: bs) = bitsOf c.toBitVec ++ bitsOfBytes bs := by simp [bitsOfBytes]
  rw [hcons, value_append, value_bitsOf, length_bitsOfBytes, pow_mul]
  rfl

theorem toBitVec_rotr (x n : UInt32) (hpos : 0 < n.toNat) (hn : n.toNat < 32) :
    (rotr x n).toBitVec = x.toBitVec.rotateRight n.toNat := by
  simp [rotr, UInt32.toBitVec_shiftRight, UInt32.toBitVec_shiftLeft, BitVec.rotateRight_def, Nat.mod_eq_of_lt hn]
  congr 2
  omega

theorem bitsOfBytes_bigEndian32 (w : UInt32) : bitsOfBytes (bigEndian32 w) = bitsOf w.toBitVec := by
  apply eq_of_value_eq
  · rw [length_bitsOfBytes, length_bitsOf]
    rfl
  · have hw := w.toNat_lt
    have hnil : value (bitsOfBytes []) = 0 := rfl
    simp [bigEndian32, value_bitsOfBytes_cons, value_bitsOf, hnil, UInt32.toNat_shiftRight, Nat.shiftRight_eq_div_pow]
    omega

theorem bitsOfBytes_bigEndian64 (w : UInt64) : bitsOfBytes (bigEndian64 w) = bitsOf w.toBitVec := by
  apply eq_of_value_eq
  · rw [length_bitsOfBytes, length_bitsOf]
    rfl
  · have hw := w.toNat_lt
    rw [bigEndian64, bitsOfBytes_append, bitsOfBytes_bigEndian32, bitsOfBytes_bigEndian32, value_append, length_bitsOf]
    simp [value_bitsOf, Nat.shiftRight_eq_div_pow]
    omega

theorem shiftLeft_or (x : Nat) {y k : Nat} (h : y < 2 ^ k) : x <<< k ||| y = x * 2 ^ k + y := by
  rw [← Nat.shiftLeft_add_eq_or_of_lt h, Nat.shiftLeft_eq]

theorem shiftLeft_mod {x k n : Nat} (hx : x < 2 ^ 8) (hk : k + 8 ≤ n) : x <<< k % 2 ^ n = x <<< k := by
  apply Nat.mod_eq_of_lt
  rw [Nat.shiftLeft_eq]
  calc x * 2 ^ k < 2 ^ 8 * 2 ^ k := Nat.mul_lt_mul_of_pos_right hx (Nat.two_pow_pos k)
    _ = 2 ^ (k + 8) := by ring
    _ ≤ 2 ^ n := Nat.pow_le_pow_right (by decide) hk

theorem toBitVec_blockWord {data : Bytes} {i : Nat} (hi : 4 * i + 4 ≤ data.length) :
    (blockWord data i).toBitVec = word (bitsOfBytes ((data.drop (4 * i)).take 4)) := by
  obtain ⟨a, b, c, d, rest, hrest⟩ : ∃ a b c d rest, data.drop (4 * i) = a :: b :: c :: d :: rest := by
    have hlen : 4 ≤ (data.drop (4 * i)).length := by rw [List.length_drop]; omega
    match hdrop : data.drop (4 * i) with
    | a :: b :: c :: d :: rest => exact ⟨a, b, c, d, rest, rfl⟩
    | [] | [_] | [_, _] | [_, _, _] => simp [hdrop] at hlen
  have hget (j : Nat) : data.getD (i * 4 + j) 0 = (a :: b :: c :: d :: rest).getD j 0 := by
    rw [← hrest, List.getD_eq_getElem?_getD, List.getD_eq_getElem?_getD, List.getElem?_drop, Nat.mul_comm]
  have hfirst : data.getD (i * 4) 0 = a := hget 0
  have ha := a.toNat_lt
  have hb := b.toNat_lt
  have hc := c.toNat_lt
  have hd := d.toNat_lt
  have hword : (blockWord data i).toNat = a.toNat * 2 ^ 24 + (b.toNat * 2 ^ 16 + (c.toNat * 2 ^ 8 + d.toNat)) := by
    rw [blockWord, hfirst, hget 1, hget 2, hget 3]
    simp only [List.getD_cons_succ, List.getD_cons_zero, UInt32.toNat_or, UInt32.toNat_shiftLeft, UInt8.toNat_toUInt32]
    show ((a.toNat <<< 24 % 2 ^ 32 ||| b.toNat <<< 16 % 2 ^ 32) ||| c.toNat <<< 8 % 2 ^ 32) ||| d.toNat = _
    rw [shiftLeft_mod ha (by omega), shiftLeft_mod hb (by omega), shiftLeft_mod hc (by omega), Nat.or_assoc,
      Nat.or_assoc,
      shiftLeft_or c.toNat hd, shiftLeft_or b.toNat (k := 16) (by omega), shiftLeft_or a.toNat (k := 24) (by omega)]
  have hvalue : value (bitsOfBytes [a, b, c, d]) =
      a.toNat * 2 ^ 24 + (b.toNat * 2 ^ 16 + (c.toNat * 2 ^ 8 + d.toNat)) := by
    have hnil : value (bitsOfBytes []) = 0 := rfl
    simp only [value_bitsOfBytes_cons, hnil, List.length_cons, List.length_nil]
    ring
  have htake : (a :: b :: c :: d :: rest).take 4 = [a, b, c, d] := rfl
  apply BitVec.eq_of_toNat_eq
  rw [hrest, htake, word, hvalue, BitVec.toNat_ofNat, UInt32.toNat_toBitVec, hword]
  omega

/-! ## Blocks -/

/-- The words of a block. -/
def words (data : Bytes) : List Word := (parse 32 (bitsOfBytes data)).map word

/-- The hash value after another block. -/
def absorb (x : Hash) (data : Bytes) : Hash := compress x (words data)

theorem words_eq {data : Bytes} (h : data.length = 64) :
    words data = (List.range 16).map fun i => (blockWord data i).toBitVec := by
  have hbits : bitsOfBytes data = ((parse 4 data).map bitsOfBytes).flatten := by
    rw [← bitsOfBytes_flatten, flatten_parse (by decide) (by omega)]
  have hlen : ∀ x ∈ (parse 4 data).map bitsOfBytes, x.length = 32 := by
    intro x hx
    obtain ⟨y, hy, rfl⟩ := List.mem_map.mp hx
    rw [length_bitsOfBytes, length_of_mem_parse hy]
  have hcount : data.length / 4 = 16 := by omega
  rw [words, hbits, parse_flatten (by decide) hlen, parse, hcount, List.map_map, List.map_map]
  apply List.map_congr_left
  intro i hi
  have hlt := List.mem_range.mp hi
  exact (toBitVec_blockWord (by omega)).symm

theorem extendSchedule_eq (block : List Word) {k : Nat} (hk : 16 ≤ k) {w : List UInt32} (n : Nat)
    (hw : w.map UInt32.toBitVec = (List.range k).map (SecureHash.schedule block)) :
    (extendSchedule n w).map UInt32.toBitVec = (List.range (k + n)).map (SecureHash.schedule block) := by
  induction n generalizing k w with
  | zero => exact hw
  | succ n ih =>
    have hlen : w.length = k := by simpa using congrArg List.length hw
    have hget {j : Nat} (hj : j < k) : (w.getD j 0).toBitVec = SecureHash.schedule block j := by
      have hat : (w.map UInt32.toBitVec)[j]? = ((List.range k).map (SecureHash.schedule block))[j]? := by rw [hw]
      have hw' : j < w.length := by omega
      simpa [hw', hj, List.getD_eq_getElem?_getD] using hat
    have hcount : k + (n + 1) = k + 1 + n := by omega
    have hswap (x y z u : Word) : x + y + z + u = u + z + y + x := by ac_rfl
    rw [extendSchedule, hcount]
    apply ih (by omega)
    rw [List.map_append, hw, List.range_succ, List.map_append]
    simp only [List.map_cons, List.map_nil, hlen, UInt32.toBitVec_add, UInt32.toBitVec_xor]
    rw [SecureHash.schedule, if_neg (by omega), hget (by omega), hget (by omega), SecureHash.sigma0, SecureHash.sigma1,
      toBitVec_rotr _ 7 (by decide) (by decide), toBitVec_rotr _ 18 (by decide) (by decide),
      toBitVec_rotr _ 17 (by decide) (by decide), toBitVec_rotr _ 19 (by decide) (by decide),
      UInt32.toBitVec_shiftRight, UInt32.toBitVec_shiftRight, hget (by omega), hget (by omega)]
    exact congrArg (fun x => (List.range k).map (SecureHash.schedule block) ++ [x]) (hswap _ _ _ _)

theorem value_round (s : HashState) (k w : UInt32) :
    (s.round (k, w)).value = SecureHash.round k.toBitVec w.toBitVec s.value := by
  simp only [HashState.round, HashState.value, SecureHash.round, UInt32.toBitVec_add, UInt32.toBitVec_xor,
    UInt32.toBitVec_and,
    UInt32.toBitVec_not, SecureHash.bigSigma0, SecureHash.bigSigma1, SecureHash.ch, SecureHash.maj]
  rw [toBitVec_rotr _ 6 (by decide) (by decide), toBitVec_rotr _ 11 (by decide) (by decide),
    toBitVec_rotr _ 25 (by decide) (by decide), toBitVec_rotr _ 2 (by decide) (by decide),
    toBitVec_rotr _ 13 (by decide) (by decide), toBitVec_rotr _ 22 (by decide) (by decide)]
  rfl

theorem roundConstants_eq : roundConstants.map UInt32.toBitVec = (List.range 64).map constant := by decide +kernel

theorem sha256Init_eq : sha256Init.state.value = initial := by decide +kernel

theorem sha256Transform_eq (s : HashState) {data : Bytes} (h : data.length = 64) :
    (sha256Transform s data).value = absorb s.value data := by
  have hschedule : (schedule data).map UInt32.toBitVec = (List.range 64).map (SecureHash.schedule (words data)) := by
    apply extendSchedule_eq (words data) (le_refl 16)
    rw [words_eq h, List.map_map]
    apply List.map_congr_left
    intro i hi
    have hlt := List.mem_range.mp hi
    rw [SecureHash.schedule, if_pos hlt]
    simp [List.getD_eq_getElem?_getD, hlt]
  have hrounds (l : List (UInt32 × UInt32)) (s : HashState) : (l.foldl HashState.round s).value =
      (l.map fun kw => (kw.1.toBitVec, kw.2.toBitVec)).foldl (fun v kw => SecureHash.round kw.1 kw.2 v) s.value := by
    induction l generalizing s with
    | nil => rfl
    | cons kw l ih => rw [List.foldl_cons, ih, value_round, List.map_cons, List.foldl_cons]
  have hzip : (roundConstants.zip (schedule data)).map (fun kw => (kw.1.toBitVec, kw.2.toBitVec)) =
      (List.range 64).map fun t => (constant t, SecureHash.schedule (words data) t) := by
    have hmap : (roundConstants.map UInt32.toBitVec).zip ((schedule data).map UInt32.toBitVec) =
        (roundConstants.zip (schedule data)).map (Prod.map UInt32.toBitVec UInt32.toBitVec) := List.zip_map
    rw [roundConstants_eq, hschedule, List.zip_map'] at hmap
    exact hmap.symm
  have hadd (s t : HashState) : (s.add t).value = s.value.add t.value := rfl
  rw [sha256Transform, hadd, hrounds, hzip, List.foldl_map]
  rfl

/-! ## Updates -/

/-- What a running hash has been given: whole blocks that it has absorbed, and a rest that it holds. -/
structure Absorbed (bs : Bytes) (blocks : List Bytes) (ctx : Sha256Context) : Prop where
  whole : ∀ x ∈ blocks, x.length = 64
  split : bs = blocks.flatten ++ ctx.data
  rest : ctx.data.length < 64
  bitlen : ctx.bitlen = .ofNat (512 * blocks.length)
  state : ctx.state.value = blocks.foldl absorb initial

theorem absorbed_init : Absorbed [] [] sha256Init where
  whole x hx := by cases hx
  split := rfl
  rest := by decide
  bitlen := rfl
  state := sha256Init_eq

theorem Absorbed.push {bs : Bytes} {blocks : List Bytes} {ctx : Sha256Context} (h : Absorbed bs blocks ctx)
    (byte : UInt8) : ∃ blocks', Absorbed (bs ++ [byte]) blocks' (ctx.push byte) := by
  have hrest := h.rest
  by_cases hfull : (ctx.data ++ [byte]).length = 64
  · refine ⟨blocks ++ [ctx.data ++ [byte]], ?_⟩
    simp only [Sha256Context.push, if_pos hfull]
    constructor
    · intro x hx
      rcases List.mem_append.mp hx with hx | hx
      · exact h.whole x hx
      · rw [List.mem_singleton.mp hx, hfull]
    · simp [h.split]
    · simp
    · rw [h.bitlen, List.length_append, List.length_singleton, Nat.mul_succ, UInt64.ofNat_add]
      rfl
    · rw [sha256Transform_eq _ hfull, h.state, List.foldl_append, List.foldl_cons, List.foldl_nil]
  · refine ⟨blocks, ?_⟩
    simp only [Sha256Context.push, if_neg hfull]
    constructor
    · exact h.whole
    · simp [h.split]
    · simp only [List.length_append, List.length_singleton] at hfull ⊢
      omega
    · exact h.bitlen
    · exact h.state

theorem Absorbed.update {bs : Bytes} {blocks : List Bytes} {ctx : Sha256Context} (h : Absorbed bs blocks ctx)
    (data : Bytes) : ∃ blocks', Absorbed (bs ++ data) blocks' (sha256Update ctx data) := by
  induction data generalizing bs blocks ctx with
  | nil => exact ⟨blocks, by simpa [sha256Update] using h⟩
  | cons byte data ih =>
    obtain ⟨blocks', hpush⟩ := h.push byte
    obtain ⟨blocks'', hupdate⟩ := ih hpush
    exact ⟨blocks'', by simpa [sha256Update] using hupdate⟩

/-! ## The end of a message -/

theorem bitsOfBytes_zeros (n : Nat) : bitsOfBytes (List.replicate n 0) = List.replicate (8 * n) false := by
  induction n with
  | zero => rfl
  | succ n ih =>
    have hzero : bitsOf (0 : UInt8).toBitVec = List.replicate 8 false := by decide
    have hcons : bitsOfBytes (0 :: List.replicate n 0) =
        bitsOf (0 : UInt8).toBitVec ++ bitsOfBytes (List.replicate n 0) := by
      simp [bitsOfBytes]
    rw [List.replicate_succ, hcons, ih, hzero, ← List.replicate_add]
    congr 1
    ring

/-- The padded message in bytes: the mark, `k` zeros and the length. -/
theorem pad_bytes {bs : Bytes} {k : Nat} (hk : k < 64) (hmod : (bs.length + 9 + k) % 64 = 0) :
    pad (bitsOfBytes bs) =
      bitsOfBytes (bs ++ [0x80] ++ List.replicate k 0 ++ bigEndian64 (.ofNat (8 * bs.length))) := by
  have hmark : bitsOfBytes [0x80] = [true] ++ List.replicate 7 false := by decide
  have hzeros : zeros (8 * bs.length) = 7 + 8 * k := zeros_eq (by omega) (by omega)
  have hword : (UInt64.ofNat (8 * bs.length)).toBitVec = BitVec.ofNat 64 (8 * bs.length) := rfl
  rw [pad, length_bitsOfBytes, hzeros, bitsOfBytes_append, bitsOfBytes_append, bitsOfBytes_append,
    bitsOfBytes_bigEndian64, hmark, bitsOfBytes_zeros, hword, List.replicate_add]
  simp [List.append_assoc]

/-- The digest of a message whose padding fills some blocks. -/
theorem digest_bytes {bs : Bytes} {blocks : List Bytes} (hwhole : ∀ x ∈ blocks, x.length = 64)
    (hpad : pad (bitsOfBytes bs) = bitsOfBytes blocks.flatten) {s : HashState}
    (hs : s.value = blocks.foldl absorb initial) :
    digest (bitsOfBytes bs) = bitsOfBytes ([s.a, s.b, s.c, s.d, s.e, s.f, s.g, s.h].flatMap bigEndian32) := by
  have hlen : ∀ x ∈ blocks.map bitsOfBytes, x.length = 512 := by
    intro x hx
    obtain ⟨y, hy, rfl⟩ := List.mem_map.mp hx
    rw [length_bitsOfBytes, hwhole y hy]
  have hfold :
      (blocks.map bitsOfBytes).foldl (fun x block => compress x ((parse 32 block).map word)) initial = s.value := by
    rw [List.foldl_map, hs]
    rfl
  have hwords : bitsOfBytes ([s.a, s.b, s.c, s.d, s.e, s.f, s.g, s.h].flatMap bigEndian32) =
      [s.value.a, s.value.b, s.value.c, s.value.d, s.value.e, s.value.f, s.value.g, s.value.h].flatMap bitsOf := by
    simp [bitsOfBytes_append, bitsOfBytes_bigEndian32, HashState.value]
  rw [digest, hpad, bitsOfBytes_flatten, parse_flatten (by decide) hlen, hfold, hwords]

theorem length_flatten_whole {blocks : List Bytes} (h : ∀ x ∈ blocks, x.length = 64) :
    blocks.flatten.length = 64 * blocks.length := by
  induction blocks with
  | nil => rfl
  | cons x blocks ih =>
    rw [List.flatten_cons, List.length_append, h x List.mem_cons_self, ih fun y hy => h y (List.mem_cons_of_mem x hy),
      List.length_cons]
    ring

theorem sha256Final_eq {bs : Bytes} {blocks : List Bytes} {ctx : Sha256Context} (h : Absorbed bs blocks ctx) :
    bitsOfBytes (sha256Final ctx) = digest (bitsOfBytes bs) := by
  have hrest := h.rest
  have hbytes : bs.length = 64 * blocks.length + ctx.data.length := by
    rw [h.split, List.length_append, length_flatten_whole h.whole]
  have hbitlen : ctx.bitlen + .ofNat ctx.data.length * 8 = .ofNat (8 * bs.length) := by
    have height : (8 : UInt64) = .ofNat 8 := rfl
    rw [h.bitlen, height, ← UInt64.ofNat_mul, ← UInt64.ofNat_add, hbytes]
    congr 1
    ring
  have hbig : (bigEndian64 (.ofNat (8 * bs.length))).length = 8 := rfl
  rw [sha256Final, hbitlen]
  by_cases hshort : ctx.data.length < 56
  · -- the length fits the block of the rest
    let last := ctx.data ++ [0x80] ++ List.replicate (55 - ctx.data.length) 0 ++ bigEndian64 (.ofNat (8 * bs.length))
    have hlast : last.length = 64 := by
      simp only [last, List.length_append, List.length_singleton, List.length_replicate, hbig]
      omega
    have hwhole : ∀ x ∈ blocks ++ [last], x.length = 64 := by
      intro x hx
      rcases List.mem_append.mp hx with hx | hx
      · exact h.whole x hx
      · rw [List.mem_singleton.mp hx, hlast]
    have hjoin (ending : Bytes) : bs ++ [0x80] ++ List.replicate (55 - ctx.data.length) 0 ++ ending =
        (blocks ++ [ctx.data ++ [0x80] ++ List.replicate (55 - ctx.data.length) 0 ++ ending]).flatten := by
      rw [h.split]
      simp
    have hpad : pad (bitsOfBytes bs) = bitsOfBytes (blocks ++ [last]).flatten := by
      rw [pad_bytes (k := 55 - ctx.data.length) (by omega) (by omega), hjoin]
    have hstate : (sha256Transform ctx.state last).value = (blocks ++ [last]).foldl absorb initial := by
      rw [sha256Transform_eq _ hlast, h.state, List.foldl_append, List.foldl_cons, List.foldl_nil]
    simp only [if_pos hshort]
    exact (digest_bytes hwhole hpad hstate).symm
  · -- the rest fills a block, and the length goes into another
    let first := ctx.data ++ [0x80] ++ List.replicate (63 - ctx.data.length) 0
    let last := List.replicate 56 0 ++ bigEndian64 (.ofNat (8 * bs.length))
    have hfirst : first.length = 64 := by
      simp only [first, List.length_append, List.length_singleton, List.length_replicate]
      omega
    have hlast : last.length = 64 := by
      simp only [last, List.length_append, List.length_replicate, hbig]
    have hwhole : ∀ x ∈ blocks ++ [first, last], x.length = 64 := by
      intro x hx
      rcases List.mem_append.mp hx with hx | hx
      · exact h.whole x hx
      · rcases List.mem_cons.mp hx with rfl | hx
        · exact hfirst
        · rw [List.mem_singleton.mp hx, hlast]
    have hcount : 119 - ctx.data.length = 63 - ctx.data.length + 56 := by omega
    have hjoin (ending : Bytes) : bs ++ [0x80] ++ List.replicate (119 - ctx.data.length) 0 ++ ending =
        (blocks ++ [ctx.data ++ [0x80] ++ List.replicate (63 - ctx.data.length) 0,
          List.replicate 56 0 ++ ending]).flatten := by
      rw [h.split, hcount, List.replicate_add]
      simp
    have hpad : pad (bitsOfBytes bs) = bitsOfBytes (blocks ++ [first, last]).flatten := by
      rw [pad_bytes (k := 119 - ctx.data.length) (by omega) (by omega), hjoin]
    have hstate : (sha256Transform (sha256Transform ctx.state first) last).value =
        (blocks ++ [first, last]).foldl absorb initial := by
      rw [sha256Transform_eq _ hlast, sha256Transform_eq _ hfirst, h.state, List.foldl_append, List.foldl_cons,
        List.foldl_cons, List.foldl_nil]
    simp only [if_neg hshort]
    exact (digest_bytes hwhole hpad hstate).symm

/-- **However a string is split into updates, its hash is the standard's digest.** -/
theorem sha256_standard (updates : List Bytes) :
    bitsOfBytes (sha256Final (updates.foldl sha256Update sha256Init)) = digest (bitsOfBytes updates.flatten) := by
  obtain ⟨blocks, h⟩ := absorbed_init.update updates.flatten
  rw [foldl_sha256Update]
  exact sha256Final_eq h

end VlcWhisper.Worker
