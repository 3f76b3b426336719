import Mathlib.Data.List.Induction
import Mathlib.Data.Nat.Find
import Mathlib.Data.Nat.NthRoot.Defs
import Mathlib.Data.Nat.Prime.Defs
import Mathlib.Tactic.Ring

/-!
# SHA-256 (FIPS 180-4)

Messages, blocks and digests are lists of bits, the most significant bit first. The constants are computed from the
primes they stand for.

* `pad`, `parse` : the padded message and its blocks (5.1.1, 5.2.1).
* `compress` : the hash computation for one block (6.2.2).
* `digest` : the hash of a message of fewer than `2 ^ 64` bits.
-/

namespace VlcWhisper.Lib.SecureHash

abbrev Word := BitVec 32

/-! ## Functions (4.1.2) -/

def ch (x y z : Word) : Word := (x &&& y) ^^^ (~~~x &&& z)

def maj (x y z : Word) : Word := (x &&& y) ^^^ (x &&& z) ^^^ (y &&& z)

/-- `Σ₀`. -/
def bigSigma0 (x : Word) : Word := x.rotateRight 2 ^^^ x.rotateRight 13 ^^^ x.rotateRight 22

/-- `Σ₁`. -/
def bigSigma1 (x : Word) : Word := x.rotateRight 6 ^^^ x.rotateRight 11 ^^^ x.rotateRight 25

/-- `σ₀`. -/
def sigma0 (x : Word) : Word := x.rotateRight 7 ^^^ x.rotateRight 18 ^^^ (x >>> 3)

/-- `σ₁`. -/
def sigma1 (x : Word) : Word := x.rotateRight 17 ^^^ x.rotateRight 19 ^^^ (x >>> 10)

/-! ## Constants (4.2.2, 5.3.3) -/

/-- The first 32 bits of the fractional part of the `k`-th root of `n`. -/
def rootFraction (k n : Nat) : Word := .ofNat 32 (Nat.nthRoot k (n * 2 ^ (32 * k)))

/-- The first sixty-four primes. -/
def primes : List Nat := (List.range 312).filter fun p => 2 ≤ p && (List.range p).all fun d => d < 2 || p % d ≠ 0

theorem mem_primes {p : Nat} : p ∈ primes ↔ p < 312 ∧ p.Prime := by
  simp only [primes, List.mem_filter, List.mem_range, Bool.and_eq_true, decide_eq_true_eq, List.all_eq_true,
    Bool.or_eq_true, Nat.prime_def_lt']
  apply and_congr_right
  intro _
  apply and_congr_right
  intro _
  constructor
  · intro h d hd hlt hdvd
    have hcase := h d hlt
    have hmod := Nat.mod_eq_zero_of_dvd hdvd
    omega
  · intro h d hlt
    by_cases hd : d < 2
    · exact .inl hd
    · refine .inr fun hmod => h d (by omega) hlt (Nat.dvd_of_mod_eq_zero hmod)

theorem length_primes : primes.length = 64 := by decide +kernel

/-- Word `t` of `K`, from the cube root of a prime. -/
def constant (t : Nat) : Word := rootFraction 3 (primes.getD t 0)

/-- The working variables and the intermediate hash values. -/
structure Hash where
  a : Word
  b : Word
  c : Word
  d : Word
  e : Word
  f : Word
  g : Word
  h : Word
  deriving DecidableEq

/-- `H⁽⁰⁾`, from the square roots of the first eight primes. -/
def initial : Hash :=
  let root i := rootFraction 2 (primes.getD i 0)
  ⟨root 0, root 1, root 2, root 3, root 4, root 5, root 6, root 7⟩

/-! ## Compression (6.2.2) -/

/-- Word `t` of the message schedule of a block. -/
def schedule (block : List Word) (t : Nat) : Word :=
  if t < 16 then block.getD t 0
  else sigma1 (schedule block (t - 2)) + schedule block (t - 7) + sigma0 (schedule block (t - 15)) +
    schedule block (t - 16)
termination_by t

/-- A round, with its constant and its word of the schedule. -/
def round (k w : Word) (v : Hash) : Hash :=
  let t1 := v.h + bigSigma1 v.e + ch v.e v.f v.g + k + w
  let t2 := bigSigma0 v.a + maj v.a v.b v.c
  ⟨t1 + t2, v.a, v.b, v.c, v.d + t1, v.e, v.f, v.g⟩

def Hash.add (x y : Hash) : Hash :=
  ⟨x.a + y.a, x.b + y.b, x.c + y.c, x.d + y.d, x.e + y.e, x.f + y.f, x.g + y.g, x.h + y.h⟩

def compress (x : Hash) (block : List Word) : Hash :=
  x.add ((List.range 64).foldl (fun v t => round (constant t) (schedule block t) v) x)

/-! ## Bits -/

/-- The number that some bits stand for. -/
def value (bits : List Bool) : Nat := bits.foldl (fun n b => 2 * n + b.toNat) 0

def word (bits : List Bool) : Word := .ofNat 32 (value bits)

def bitsOf {n : Nat} (x : BitVec n) : List Bool := (List.range n).map x.getMsbD

theorem length_bitsOf {n : Nat} (x : BitVec n) : (bitsOf x).length = n := by simp [bitsOf]

theorem value_append (xs ys : List Bool) : value (xs ++ ys) = value xs * 2 ^ ys.length + value ys := by
  induction ys using List.reverseRecOn with
  | nil => simp [value]
  | append_singleton ys y ih =>
    have hsnoc (zs : List Bool) : value (zs ++ [y]) = 2 * value zs + y.toNat := by simp [value]
    rw [← List.append_assoc, hsnoc, ih, hsnoc, List.length_append, List.length_singleton, pow_succ]
    ring

theorem value_testBits (n v : Nat) : value ((List.range n).map fun i => v.testBit (n - 1 - i)) = v % 2 ^ n := by
  induction n generalizing v with
  | zero => simp [value, Nat.mod_one]
  | succ n ih =>
    have hfront : (List.range n).map (fun i => v.testBit (n + 1 - 1 - i)) =
        (List.range n).map fun i => (v / 2).testBit (n - 1 - i) := by
      apply List.map_congr_left
      intro i hi
      have hlt := List.mem_range.mp hi
      rw [Nat.testBit_div_two]
      congr 1
      omega
    have hlast : ((v.testBit 0).toNat : Nat) = v % 2 := by
      rw [Nat.testBit_zero]
      rcases Nat.mod_two_eq_zero_or_one v with h | h <;> simp [h]
    rw [List.range_succ, List.map_append, value_append, hfront, ih]
    simp only [List.map_cons, List.map_nil, List.length_singleton, Nat.add_sub_cancel, Nat.sub_self]
    have hone : value [v.testBit 0] = (v.testBit 0).toNat := by simp [value]
    rw [hone, hlast, pow_succ' 2 n, pow_one]
    have hsplit : v % (2 * 2 ^ n) = v % 2 + 2 * (v / 2 % 2 ^ n) := Nat.mod_mul
    omega

theorem value_bitsOf {n : Nat} (x : BitVec n) : value (bitsOf x) = x.toNat := by
  have hbits : bitsOf x = (List.range n).map fun i => x.toNat.testBit (n - 1 - i) := by
    apply List.map_congr_left
    intro i hi
    simp [BitVec.getMsbD, List.mem_range.mp hi, BitVec.testBit_toNat]
  rw [hbits, value_testBits, Nat.mod_eq_of_lt x.isLt]

theorem eq_of_value_eq {xs ys : List Bool} (hlen : xs.length = ys.length) (h : value xs = value ys) : xs = ys := by
  induction xs using List.reverseRecOn generalizing ys with
  | nil => exact (List.eq_nil_of_length_eq_zero hlen.symm).symm
  | append_singleton xs x ih =>
    cases ys using List.reverseRecOn with
    | nil => simp at hlen
    | append_singleton ys y =>
      have hone (b : Bool) : value [b] = b.toNat := by simp [value]
      simp only [value_append, List.length_singleton, hone, pow_one] at h
      have hx := Bool.toNat_le x
      have hy := Bool.toNat_le y
      have hbit : x.toNat = y.toNat := by omega
      have hlast : x = y := by revert hbit; cases x <;> cases y <;> simp
      rw [ih (by simpa using hlen) (by omega), hlast]

/-! ## Messages (5.1.1, 5.2.1) -/

/-- The list, `n` at a time. -/
def parse {α : Type} (n : Nat) (l : List α) : List (List α) :=
  (List.range (l.length / n)).map fun i => (l.drop (n * i)).take n

theorem exists_zeros (l : Nat) : ∃ k, (l + 1 + k) % 512 = 448 := ⟨(959 - l % 512) % 512, by omega⟩

/-- The number of zeros of the padding: the smallest that lets the length end a block. -/
def zeros (l : Nat) : Nat := Nat.find (exists_zeros l)

def pad (m : List Bool) : List Bool :=
  m ++ [true] ++ List.replicate (zeros m.length) false ++ bitsOf (BitVec.ofNat 64 m.length)

/-- The digest of a message. -/
def digest (m : List Bool) : List Bool :=
  let x := (parse 512 (pad m)).foldl (fun x block => compress x ((parse 32 block).map word)) initial
  [x.a, x.b, x.c, x.d, x.e, x.f, x.g, x.h].flatMap bitsOf

theorem zeros_eq {l k : Nat} (hk : k < 512) (h : (l + 1 + k) % 512 = 448) : zeros l = k := by
  apply (Nat.find_eq_iff (exists_zeros l)).mpr
  refine ⟨h, ?_⟩
  intro j hj hmod
  omega

theorem parse_cons {α : Type} {n : Nat} (hn : 0 < n) {x : List α} (hx : x.length = n) (l : List α) :
    parse n (x ++ l) = x :: parse n l := by
  have hlen : (x ++ l).length / n = l.length / n + 1 := by
    rw [List.length_append, hx, Nat.add_div_left _ hn]
  simp only [parse, hlen, List.range_succ_eq_map, List.map_cons, List.map_map]
  congr 1
  · simp [← hx]
  · apply List.map_congr_left
    intro i _
    have hdrop : n * (i + 1) = x.length + n * i := by rw [hx]; ring
    simp only [Function.comp_apply, hdrop, ← List.drop_drop, List.drop_left]

theorem parse_flatten {α : Type} {n : Nat} (hn : 0 < n) {pieces : List (List α)} (h : ∀ x ∈ pieces, x.length = n) :
    parse n pieces.flatten = pieces := by
  induction pieces with
  | nil => simp [parse]
  | cons x pieces ih =>
    rw [List.flatten_cons, parse_cons hn (h x List.mem_cons_self), ih]
    intro y hy
    exact h y (List.mem_cons_of_mem x hy)

theorem length_of_mem_parse {α : Type} {n : Nat} {l x : List α} (h : x ∈ parse n l) : x.length = n := by
  obtain ⟨i, hi, rfl⟩ := List.mem_map.mp h
  have hlt := List.mem_range.mp hi
  have hle : n * (i + 1) ≤ l.length :=
    calc n * (i + 1) ≤ n * (l.length / n) := Nat.mul_le_mul_left n hlt
      _ ≤ l.length := Nat.mul_div_le l.length n
  rw [List.length_take, List.length_drop]
  rw [Nat.mul_succ] at hle
  omega

theorem flatten_parse {α : Type} {n : Nat} (hn : 0 < n) {l : List α} (h : n ∣ l.length) : (parse n l).flatten = l := by
  obtain ⟨k, hk⟩ := h
  induction k generalizing l with
  | zero =>
    obtain rfl := List.eq_nil_of_length_eq_zero hk
    simp [parse]
  | succ k ih =>
    rw [Nat.mul_succ] at hk
    have htake : (l.take n).length = n := by rw [List.length_take]; omega
    have hdrop : (l.drop n).length = n * k := by rw [List.length_drop]; omega
    have hparse : parse n l = l.take n :: parse n (l.drop n) := by
      conv_lhs => rw [← List.take_append_drop n l]
      exact parse_cons hn htake _
    rw [hparse, List.flatten_cons, ih hdrop, List.take_append_drop]

end VlcWhisper.Lib.SecureHash
