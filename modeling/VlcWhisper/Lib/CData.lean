import VlcWhisper.Lib.Wire

/-!
# C arrays, strings and slices

`CArray n` is a `char[n]`, its bytes with their count. `cstr` is the string it holds (up to the first
NUL, or all of it). `Slice α` is a pointer with an `α`-typed length whose memory holds at least that
many bytes; `bytes` is what it denotes. The readers of both are characterised by an equivalence.
-/

namespace VlcWhisper.Lib

theorem forall_mem_of_all {α : Type*} {p : α → Prop} [DecidablePred p] {s : List α} (h : s.all (p ·) = true) :
    ∀ x ∈ s, p x := by
  simpa using h

/-- What a pass over the 256 bytes finds holds of every byte. The pass goes by halves, so that it nests no deeper than
they do. -/
theorem forall_byte {p : UInt8 → Prop} [DecidablePred p]
    (h : (List.range 16).all fun high => (List.range 16).all fun low => p (.ofNat (16 * high + low))) (c : UInt8) :
    p c := by
  simp only [List.all_eq_true, List.mem_range, decide_eq_true_eq] at h
  have hbyte := h (c.toNat / 16) (by have := c.toNat_lt; omega) (c.toNat % 16) (Nat.mod_lt _ (by decide))
  rwa [Nat.div_add_mod, UInt8.ofNat_toNat] at hbyte

/-! ## Strings -/

/-- The bytes before the first NUL. -/
def cstr (bs : Bytes) : Bytes := bs.takeWhile (· ≠ 0)

/-- `strnlen`: the length of the string in `bs`, looking at no more than `cap` bytes. -/
def strnlen (bs : Bytes) (cap : Nat) : Nat := (cstr (bs.take cap)).length

theorem cstr_length_le (bs : Bytes) : (cstr bs).length ≤ bs.length := by
  exact (List.takeWhile_prefix _).length_le

theorem zero_notMem_cstr (bs : Bytes) : (0 : UInt8) ∉ cstr bs := by
  intro h
  have hall := List.all_takeWhile (p := fun b : UInt8 => decide (b ≠ 0)) (l := bs)
  have := List.all_eq_true.mp hall 0 h
  simp at this

theorem cstr_eq_self {bs : Bytes} (h : (0 : UInt8) ∉ bs) : cstr bs = bs := by
  rw [cstr, ← List.append_nil bs, List.takeWhile_append_of_pos, List.takeWhile_nil]
  intro b hb
  simp only [ne_eq, decide_eq_true_eq]
  rintro rfl
  exact h hb

theorem cstr_append_zero {bs : Bytes} (h : (0 : UInt8) ∉ bs) (rest : Bytes) :
    cstr (bs ++ 0 :: rest) = bs := by
  rw [cstr, List.takeWhile_append_of_pos]
  · simp
  · intro b hb
    simp only [ne_eq, decide_eq_true_eq]
    rintro rfl
    exact h hb

theorem cstr_length_lt_iff {bs : Bytes} : (cstr bs).length < bs.length ↔ (0 : UInt8) ∈ bs := by
  constructor
  · intro h
    by_contra hz
    rw [cstr_eq_self hz] at h
    omega
  · intro h
    obtain ⟨pre, post, rfl, hpre⟩ := List.eq_append_cons_of_mem h
    rw [cstr_append_zero hpre]
    simp

theorem strnlen_of_length {bs : Bytes} {cap : Nat} (h : bs.length = cap) :
    strnlen bs cap = (cstr bs).length := by
  rw [strnlen, ← h, List.take_length]

theorem take_cstr_length (bs : Bytes) : bs.take (cstr bs).length = cstr bs := by
  have h : cstr bs <+: bs := List.takeWhile_prefix _
  exact (List.prefix_iff_eq_take.mp h).symm

/-! ## Arrays -/

/-- A C array of `n` bytes. -/
structure CArray (n : Nat) where
  bytes : Bytes
  length_bytes : bytes.length = n
  deriving DecidableEq

namespace CArray

variable {n : Nat}

attribute [simp] length_bytes

theorem ext_bytes {a b : CArray n} (h : a.bytes = b.bytes) : a = b := by
  cases a
  cases b
  simpa using h

/-- The string an array holds. -/
def str (a : CArray n) : Bytes := cstr a.bytes

/-- The array holds a terminator. -/
def Terminated (a : CArray n) : Prop := (0 : UInt8) ∈ a.bytes

instance (a : CArray n) : Decidable a.Terminated := inferInstanceAs (Decidable (_ ∈ _))

theorem str_length_lt_iff (a : CArray n) : a.str.length < n ↔ a.Terminated := by
  have h : (cstr a.bytes).length < a.bytes.length ↔ (0 : UInt8) ∈ a.bytes := cstr_length_lt_iff
  rwa [a.length_bytes] at h

theorem str_length_le (a : CArray n) : a.str.length ≤ n := by
  have h := cstr_length_le a.bytes
  rwa [a.length_bytes] at h

/-- All zeros: `memset(a, 0, n)`. -/
def zero (n : Nat) : CArray n := ⟨List.replicate n 0, by simp⟩

/-- A zeroed array whose front was overwritten by (at most `n` bytes of) `bs`. -/
def pad (n : Nat) (bs : Bytes) : CArray n :=
  ⟨bs.take n ++ List.replicate (n - (bs.take n).length) 0, by simp⟩

/-- `snprintf(a, n, "%s", s)` into a zeroed array: at most `n - 1` bytes, then a terminator. -/
def ofStr (n : Nat) (s : Bytes) : CArray n := pad n (s.take (n - 1))

/-- `a[n - 1] = '\0'`. -/
def terminate (a : CArray n) : CArray n := ⟨a.bytes.set (n - 1) 0, by simp⟩

theorem bytes_pad_of_le {bs : Bytes} (h : bs.length ≤ n) :
    (pad n bs).bytes = bs ++ List.replicate (n - bs.length) 0 := by
  simp only [pad, List.take_of_length_le h]

theorem str_pad {bs : Bytes} (h : bs.length < n) (hz : (0 : UInt8) ∉ bs) : (pad n bs).str = bs := by
  have hsplit : n - bs.length = (n - bs.length - 1) + 1 := by omega
  rw [str, bytes_pad_of_le h.le, hsplit, List.replicate_succ, cstr_append_zero hz]

theorem pad_terminated {bs : Bytes} (h : bs.length < n) : (pad n bs).Terminated := by
  rw [Terminated, bytes_pad_of_le h.le]
  exact List.mem_append_right _ (List.mem_replicate.mpr ⟨by omega, rfl⟩)

theorem str_ofStr {s : Bytes} (h : 0 < n) (hz : (0 : UInt8) ∉ s) : (ofStr n s).str = s.take (n - 1) := by
  rw [ofStr, str_pad (by simp; omega)]
  exact fun hmem => hz (List.mem_of_mem_take hmem)

theorem terminate_terminated (a : CArray n) (h : 0 < n) : a.terminate.Terminated := by
  have hlen : n - 1 < a.bytes.length := by rw [a.length_bytes]; omega
  exact List.mem_set hlen 0

theorem str_terminate (a : CArray n) (h : a.Terminated) : a.terminate.str = a.str := by
  obtain ⟨pre, post, hbytes, hpre⟩ := List.eq_append_cons_of_mem h
  have hlen : pre.length + post.length + 1 = n := by
    have := a.length_bytes
    rw [hbytes] at this
    simp at this
    omega
  simp only [str, terminate, hbytes]
  rcases Nat.eq_zero_or_pos post.length with hp | hp
  · have : post = [] := List.length_eq_zero_iff.mp hp
    subst this
    have hset : (pre ++ [(0 : UInt8)]).set (n - 1) 0 = pre ++ [0] := by
      rw [List.set_append_right _ _ (by simp at hlen; omega)]
      simp at hlen
      simp [show n - 1 - pre.length = 0 by omega]
    rw [hset]
  · rw [List.set_append_right _ _ (by omega)]
    obtain ⟨k, hk⟩ : ∃ k, n - 1 - pre.length = k + 1 := ⟨n - 2 - pre.length, by omega⟩
    rw [hk, List.set_cons_succ, cstr_append_zero hpre, cstr_append_zero hpre]

theorem terminate_eq_self_iff (a : CArray n) (h : 0 < n) :
    a.terminate = a ↔ a.bytes[n - 1]? = some 0 := by
  have hlen : n - 1 < a.bytes.length := by rw [a.length_bytes]; omega
  constructor
  · intro he
    have hb : a.bytes.set (n - 1) 0 = a.bytes := congrArg CArray.bytes he
    rw [← hb, List.getElem?_set_self hlen]
  · intro hz
    apply ext_bytes
    rw [List.getElem?_eq_getElem hlen, Option.some.injEq] at hz
    calc a.bytes.set (n - 1) 0 = a.bytes.set (n - 1) a.bytes[n - 1] := by rw [hz]
      _ = a.bytes := List.set_getElem_self hlen

end CArray

/-! ## Slices -/

/-- A pointer (`none` is NULL) with its length, the memory behind it at least that long. -/
structure Slice (α : Type) [WireWord α] where
  length : α
  data : Option Bytes
  readable : ∀ bs ∈ data, WireWord.toNat length ≤ bs.length

namespace Slice

variable {α : Type} [WireWord α]

/-- The bytes a slice denotes. -/
def bytes (s : Slice α) : Bytes := (s.data.getD []).take (WireWord.toNat s.length)

/-- The slice over exactly `bs`, where its length fits. -/
def ofBytes (len : α) (bs : Bytes) (h : WireWord.toNat len = bs.length) : Slice α where
  length := len
  data := some bs
  readable := by
    intro b hb
    obtain rfl : bs = b := by simpa using hb
    omega

/-! The lengths of short literals, as `ofBytes` asks for them. -/

theorem toNat_two : WireWord.toNat (2 : UInt32) = 2 := rfl

theorem toNat_five : WireWord.toNat (5 : UInt16) = 5 := rfl

/-- NULL with a zero length. -/
def null (zero : α) : Slice α where
  length := zero
  data := none
  readable := by simp

/-- The pointer is NULL although the length is positive. -/
def Dangling (s : Slice α) : Prop := 0 < WireWord.toNat s.length ∧ s.data = none

instance (s : Slice α) : Decidable s.Dangling := inferInstanceAs (Decidable (_ ∧ _))

theorem length_bytes {s : Slice α} (h : ¬ s.Dangling) : s.bytes.length = WireWord.toNat s.length := by
  rw [bytes, List.length_take]
  cases hd : s.data with
  | none =>
    have : ¬ 0 < WireWord.toNat s.length := fun hpos => h ⟨hpos, hd⟩
    simp
    omega
  | some bs =>
    have := s.readable bs hd
    simp only [Option.getD_some]
    omega

@[simp] theorem bytes_ofBytes (len : α) (bs : Bytes) (h : WireWord.toNat len = bs.length) :
    (ofBytes len bs h).bytes = bs := by
  simp [ofBytes, bytes, h]

@[simp] theorem length_ofBytes (len : α) (bs : Bytes) (h : WireWord.toNat len = bs.length) :
    (ofBytes len bs h).length = len := rfl

/-- The memory behind a slice is its bytes and no more, as after decoding. -/
def Exact (s : Slice α) : Prop := s.data = some s.bytes ∧ s.bytes.length = WireWord.toNat s.length

theorem exact_ofBytes (len : α) (bs : Bytes) (h : WireWord.toNat len = bs.length) :
    (ofBytes len bs h).Exact := by
  constructor
  · rw [bytes_ofBytes]
    rfl
  · rw [bytes_ofBytes, length_ofBytes, h]

theorem Exact.eq_ofBytes {s : Slice α} (h : s.Exact) : ofBytes s.length s.bytes h.2.symm = s := by
  have hd := h.1
  cases s
  simp only [ofBytes, mk.injEq, true_and]
  exact hd.symm

theorem Exact.not_dangling {s : Slice α} (h : s.Exact) : ¬ s.Dangling := by
  rintro ⟨-, hd⟩
  rw [h.1] at hd
  cases hd

/-- The slice of the same length over a copy of the bytes. -/
def copy (s : Slice α) (h : ¬ s.Dangling) : Slice α := ofBytes s.length s.bytes (length_bytes h).symm

theorem exact_copy (s : Slice α) (h : ¬ s.Dangling) : (s.copy h).Exact := exact_ofBytes _ _ _

@[simp] theorem bytes_copy (s : Slice α) (h : ¬ s.Dangling) : (s.copy h).bytes = s.bytes := bytes_ofBytes _ _ _

@[simp] theorem length_copy (s : Slice α) (h : ¬ s.Dangling) : (s.copy h).length = s.length := rfl

@[simp] theorem bytes_null (z : α) : (null z).bytes = [] := by
  simp [null, bytes]

end Slice

/-! ## Readers of arrays and slices -/

namespace Reader

variable {α : Type} [WireWord α]

/-- Read a fixed-size array. -/
def array (n : Nat) : Reader (CArray n) := fun bs =>
  if h : bs.length < n then none else some (⟨bs.take n, by simp; omega⟩, bs.drop n)

/-- Point a slice of the given length into the input. -/
def slice (len : α) : Reader (Slice α) := fun bs =>
  if h : bs.length < WireWord.toNat len then none
  else some (.ofBytes len (bs.take (WireWord.toNat len)) (by simp; omega), bs.drop (WireWord.toNat len))

/-- How many bytes are left. -/
def remaining : Reader Nat := fun bs => some (bs.length, bs)

theorem array_run_eq_some {n : Nat} {bs rest : Bytes} {a : CArray n} :
    (array n).run bs = some (a, rest) ↔ bs = a.bytes ++ rest := by
  simp only [array, StateT.run]
  split
  · rename_i h
    constructor
    · intro h'; cases h'
    · rintro rfl
      simp at h
  · rename_i h
    simp only [Option.some.injEq, Prod.mk.injEq]
    constructor
    · rintro ⟨rfl, rfl⟩
      exact (List.take_append_drop n bs).symm
    · rintro rfl
      refine ⟨CArray.ext_bytes ?_, ?_⟩
      · simp only [List.take_left' a.length_bytes]
      · rw [List.drop_left' a.length_bytes]

theorem slice_run_eq_some {len : α} {bs rest : Bytes} {s : Slice α} :
    (slice len).run bs = some (s, rest) ↔ s.length = len ∧ s.Exact ∧ bs = s.bytes ++ rest := by
  simp only [slice, StateT.run]
  split
  · rename_i h
    constructor
    · intro h'; cases h'
    · rintro ⟨rfl, ⟨hd, hlen⟩, rfl⟩
      simp at h
      omega
  · rename_i h
    simp only [Option.some.injEq, Prod.mk.injEq]
    constructor
    · rintro ⟨rfl, rfl⟩
      refine ⟨rfl, Slice.exact_ofBytes _ _ _, ?_⟩
      rw [Slice.bytes_ofBytes]
      exact (List.take_append_drop _ bs).symm
    · rintro ⟨rfl, hex, rfl⟩
      refine ⟨?_, List.drop_left' hex.2⟩
      refine Eq.trans ?_ hex.eq_ofBytes
      simp only [Slice.ofBytes, List.take_left' hex.2]

theorem remaining_run_eq_some {bs rest : Bytes} {n : Nat} :
    remaining.run bs = some (n, rest) ↔ n = bs.length ∧ bs = rest := by
  simp only [remaining, StateT.run, Option.some.injEq, Prod.mk.injEq]
  exact ⟨fun ⟨h1, h2⟩ => ⟨h1.symm, h2⟩, fun ⟨h1, h2⟩ => ⟨h1.symm, h2⟩⟩

end Reader

end VlcWhisper.Lib
