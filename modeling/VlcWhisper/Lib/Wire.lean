import Mathlib.Tactic.Common
import Mathlib.Tactic.Ring
import Mathlib.Data.List.Basic

/-!
# Little-endian words and byte readers

Generic wire tooling, independent of any message set.

* `WireWord` : a fixed-width type with its little-endian bytes (`bytes`), and `ofBytes` back.
* `Reader` : a partial function that consumes a prefix of a byte list. `Reads d ok enc` says that `d`
  accepts exactly the lists starting with the encoding of a value satisfying `ok`. A sequence of readers is
  taken apart by `run_bind_eq_some`, so the accepted inputs of a decoder are read off its definition.
* `writeAll` : the bounded writer, which appends chunks as long as they fit.
-/

namespace VlcWhisper.Lib

abbrev Bytes := List UInt8

/-! ## Little-endian words -/

/-- The `n` low bytes of `v`, least significant first. -/
def leBytes : Nat → Nat → Bytes
  | 0, _ => []
  | n + 1, v => UInt8.ofNat v :: leBytes n (v / 256)

/-- The number whose little-endian bytes are given. -/
def leNat : Bytes → Nat
  | [] => 0
  | b :: bs => b.toNat + 256 * leNat bs

@[simp] theorem length_leBytes (n v : Nat) : (leBytes n v).length = n := by
  induction n generalizing v with
  | zero => rfl
  | succ n ih => simp [leBytes, ih]

theorem leNat_lt (bs : Bytes) : leNat bs < 256 ^ bs.length := by
  induction bs with
  | nil => simp [leNat]
  | cons b bs ih =>
    have hb := b.toNat_lt
    simp only [leNat, List.length_cons, pow_succ]
    omega

theorem leNat_leBytes (n v : Nat) : leNat (leBytes n v) = v % 256 ^ n := by
  induction n generalizing v with
  | zero => simp [leBytes, leNat, Nat.mod_one]
  | succ n ih =>
    rw [leBytes, leNat, ih, UInt8.toNat_ofNat', pow_succ' 256, Nat.mod_mul]

theorem leBytes_leNat (bs : Bytes) : leBytes bs.length (leNat bs) = bs := by
  induction bs with
  | nil => rfl
  | cons b bs ih =>
    have hb := b.toNat_lt
    have hdiv : (b.toNat + 256 * leNat bs) / 256 = leNat bs := by omega
    simp only [List.length_cons, leBytes, leNat, hdiv, ih]
    congr 1
    apply UInt8.toNat_inj.mp
    simp only [UInt8.toNat_ofNat']
    omega

/-- A fixed-width machine word: `size` bytes, exchanged with a number below `256 ^ size`. -/
class WireWord (α : Type) where
  size : Nat
  toNat : α → Nat
  ofNat : Nat → α
  toNat_lt : ∀ a, toNat a < 256 ^ size
  ofNat_toNat : ∀ a, ofNat (toNat a) = a
  toNat_ofNat : ∀ n, n < 256 ^ size → toNat (ofNat n) = n

namespace WireWord

instance : WireWord UInt8 where
  size := 1
  toNat := UInt8.toNat
  ofNat := UInt8.ofNat
  toNat_lt a := a.toNat_lt
  ofNat_toNat a := by simp
  toNat_ofNat n h := by simp only [UInt8.toNat_ofNat']; omega

instance : WireWord UInt16 where
  size := 2
  toNat := UInt16.toNat
  ofNat := UInt16.ofNat
  toNat_lt a := a.toNat_lt
  ofNat_toNat a := by simp
  toNat_ofNat n h := by simp only [UInt16.toNat_ofNat']; omega

instance : WireWord UInt32 where
  size := 4
  toNat := UInt32.toNat
  ofNat := UInt32.ofNat
  toNat_lt a := a.toNat_lt
  ofNat_toNat a := by simp
  toNat_ofNat n h := by simp only [UInt32.toNat_ofNat']; omega

instance : WireWord UInt64 where
  size := 8
  toNat := UInt64.toNat
  ofNat := UInt64.ofNat
  toNat_lt a := a.toNat_lt
  ofNat_toNat a := by simp
  toNat_ofNat n h := by simp only [UInt64.toNat_ofNat']; omega

/-- Signed words travel as their two's complement. -/
instance : WireWord Int64 where
  size := 8
  toNat a := a.toUInt64.toNat
  ofNat n := (UInt64.ofNat n).toInt64
  toNat_lt a := a.toUInt64.toNat_lt
  ofNat_toNat a := by simp
  toNat_ofNat n h := by simp only [UInt64.toUInt64_toInt64, UInt64.toNat_ofNat']; omega

variable {α : Type} [WireWord α]

/-- The little-endian bytes of a word. -/
def bytes (a : α) : Bytes := leBytes (size α) (toNat a)

/-- The word with the given bytes. -/
def ofBytes (bs : Bytes) : α := ofNat (leNat bs)

@[simp] theorem length_bytes (a : α) : (bytes a).length = size α := length_leBytes _ _

@[simp] theorem ofBytes_bytes (a : α) : ofBytes (bytes a) = a := by
  rw [ofBytes, bytes, leNat_leBytes, Nat.mod_eq_of_lt (toNat_lt a), ofNat_toNat]

theorem bytes_ofBytes (bs : Bytes) (h : bs.length = size α) : bytes (ofBytes bs : α) = bs := by
  have hlt : leNat bs < 256 ^ size α := h ▸ leNat_lt bs
  rw [bytes, ofBytes, toNat_ofNat _ hlt, ← h, leBytes_leNat]

@[simp] theorem size_uint8 : size UInt8 = 1 := rfl
@[simp] theorem size_uint16 : size UInt16 = 2 := rfl
@[simp] theorem size_uint32 : size UInt32 = 4 := rfl
@[simp] theorem size_uint64 : size UInt64 = 8 := rfl
@[simp] theorem size_int64 : size Int64 = 8 := rfl

end WireWord

/-! ## Readers -/

/-- A reader takes a value off the front of the input, or fails. -/
abbrev Reader := StateT Bytes Option

namespace Reader

variable {α β : Type}

theorem run_bind_eq_some {d : Reader α} {f : α → Reader β} {bs rest : Bytes} {b : β} :
    (d >>= f).run bs = some (b, rest) ↔
      ∃ a mid, d.run bs = some (a, mid) ∧ (f a).run mid = some (b, rest) := by
  rw [StateT.run_bind]
  constructor
  · intro h
    obtain ⟨⟨a, mid⟩, h1, h2⟩ := Option.bind_eq_some_iff.mp h
    exact ⟨a, mid, h1, h2⟩
  · rintro ⟨a, mid, h1, h2⟩
    exact Option.bind_eq_some_iff.mpr ⟨(a, mid), h1, h2⟩

theorem run_pure_eq_some {a b : α} {bs rest : Bytes} :
    (pure a : Reader α).run bs = some (b, rest) ↔ a = b ∧ bs = rest := by
  simp [StateT.run_pure]

/-- Take exactly `n` bytes. -/
def take (n : Nat) : Reader Bytes := fun bs =>
  if bs.length < n then none else some (bs.take n, bs.drop n)

/-- Take one word. -/
def word (α : Type) [WireWord α] : Reader α := do
  let bs ← take (WireWord.size α)
  pure (WireWord.ofBytes bs)

/-- `d` accepts exactly the inputs that start with the encoding of a value satisfying `ok`. -/
def Reads (d : Reader α) (ok : α → Prop) (enc : α → Bytes) : Prop :=
  ∀ bs a rest, d.run bs = some (a, rest) ↔ ok a ∧ bs = enc a ++ rest

theorem take_reads (n : Nat) : Reads (take n) (fun a => a.length = n) id := by
  intro bs a rest
  simp only [take, StateT.run, id_eq]
  split
  · rename_i h
    constructor
    · intro h'; cases h'
    · rintro ⟨hlen, rfl⟩
      simp at h; omega
  · rename_i h
    simp only [Option.some.injEq, Prod.mk.injEq]
    constructor
    · rintro ⟨rfl, rfl⟩
      exact ⟨by simp; omega, (List.take_append_drop n bs).symm⟩
    · rintro ⟨hlen, rfl⟩
      exact ⟨by rw [← hlen, List.take_left], by rw [← hlen, List.drop_left]⟩

theorem take_run_eq_some {n : Nat} {bs a rest : Bytes} :
    (take n).run bs = some (a, rest) ↔ a.length = n ∧ bs = a ++ rest := take_reads n bs a rest

theorem word_run_eq_some {α : Type} [WireWord α] {bs rest : Bytes} {a : α} :
    (word α).run bs = some (a, rest) ↔ bs = WireWord.bytes a ++ rest := by
  simp only [word, run_bind_eq_some, take_run_eq_some, run_pure_eq_some]
  constructor
  · rintro ⟨x, mid, ⟨hlen, rfl⟩, rfl, rfl⟩
    rw [WireWord.bytes_ofBytes x hlen]
  · rintro rfl
    exact ⟨WireWord.bytes a, rest, ⟨by simp, rfl⟩, by simp⟩

end Reader

/-! ## Bounded writers -/

/-- Append the chunks one by one; fail at the first one that would pass `size` bytes. -/
def writeAll (size : Nat) : Bytes → List Bytes → Option Bytes
  | out, [] => some out
  | out, chunk :: rest =>
    if out.length + chunk.length > size then none else writeAll size (out ++ chunk) rest

theorem writeAll_of_le {size : Nat} {chunks : List Bytes} {out : Bytes}
    (h : out.length + chunks.flatten.length ≤ size) :
    writeAll size out chunks = some (out ++ chunks.flatten) := by
  induction chunks generalizing out with
  | nil => simp [writeAll]
  | cons c cs ih =>
    simp only [List.flatten_cons, List.length_append] at h
    rw [writeAll, if_neg (by omega), ih (by simp only [List.length_append]; omega)]
    simp

theorem length_writeAll_le {size : Nat} {chunks : List Bytes} {out bs : Bytes} (hout : out.length ≤ size)
    (h : writeAll size out chunks = some bs) : bs.length ≤ size := by
  induction chunks generalizing out with
  | nil => exact Option.some.inj h ▸ hout
  | cons c cs ih =>
    rw [writeAll] at h
    split at h
    · cases h
    · exact ih (by rw [List.length_append]; omega) h

end VlcWhisper.Lib
