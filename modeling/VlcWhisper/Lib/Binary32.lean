import VlcWhisper.Lib.Wire

/-!
# IEEE 754 binary32 by its bits

Enough of `float` to compare and classify: a value is its bit pattern, its order is that of the signed
magnitude (so the two zeros are equal), and a NaN compares false with everything.
-/

namespace VlcWhisper.Lib

/-- A `float`, as the 32 bits that represent it. -/
structure Binary32 where
  bits : UInt32
  deriving DecidableEq, Repr

namespace Binary32

/-- Exponent and fraction: the bits below the sign. -/
def magnitude (x : Binary32) : Nat := x.bits.toNat % 2 ^ 31

def isNegative (x : Binary32) : Bool := 2 ^ 31 ≤ x.bits.toNat

def isNaN (x : Binary32) : Bool := 0x7F800000 < x.magnitude

def isFinite (x : Binary32) : Bool := x.magnitude < 0x7F800000

/-- The signed magnitude, ordered as the values are. -/
def key (x : Binary32) : Int := if x.isNegative then -(x.magnitude : Int) else x.magnitude

/-- `x < y`. -/
def lt (x y : Binary32) : Bool := !x.isNaN && !y.isNaN && decide (x.key < y.key)

/-- `x <= y`. -/
def le (x y : Binary32) : Bool := !x.isNaN && !y.isNaN && decide (x.key ≤ y.key)

/-- The integer part of `k * x`, for an `x` that is positive and finite. A `k` below `2 ^ 29` times the 24 bits of a
significand is exact in a `double`. -/
def truncMul (k : Nat) (x : Binary32) : Nat :=
  let exponent := x.magnitude / 2 ^ 23
  let significand := if exponent = 0 then x.magnitude else 2 ^ 23 + x.magnitude % 2 ^ 23
  let exponent := max exponent 1
  if exponent < 150 then k * significand / 2 ^ (150 - exponent) else k * significand * 2 ^ (exponent - 150)

def zero : Binary32 := ⟨0⟩
def one : Binary32 := ⟨0x3F800000⟩
def sixteen : Binary32 := ⟨0x41800000⟩

theorem not_isNaN_of_isFinite {x : Binary32} (h : x.isFinite = true) : x.isNaN = false := by
  simp only [isFinite, isNaN, decide_eq_true_eq, decide_eq_false_iff_not] at *
  omega

theorem not_lt_iff_le {x y : Binary32} (hx : x.isNaN = false) (hy : y.isNaN = false) :
    lt x y = false ↔ le y x = true := by
  simp [lt, le, hx, hy]

theorem isFinite_of_between {a x b : Binary32} (ha : a.isFinite = true) (hb : b.isFinite = true)
    (h1 : lt x a = false) (h2 : lt b x = false) (hx : x.isNaN = false) : x.isFinite = true := by
  have ha' := not_isNaN_of_isFinite ha
  have hb' := not_isNaN_of_isFinite hb
  rw [not_lt_iff_le hx ha'] at h1
  rw [not_lt_iff_le hb' hx] at h2
  simp only [le, ha', hb', hx, Bool.not_false, Bool.true_and, key] at h1 h2
  simp only [isFinite, decide_eq_true_eq] at *
  split at h1 <;> split at h2 <;> simp_all <;> omega

theorem truncMul_pos {k : Nat} {x : Binary32} (hk : 32 ≤ k) (hx : 122 ≤ x.magnitude / 2 ^ 23) : 0 < truncMul k x := by
  unfold truncMul
  have hmax : max (x.magnitude / 2 ^ 23) 1 = x.magnitude / 2 ^ 23 := by omega
  have hlarge : 32 * 2 ^ 23 ≤ k * (2 ^ 23 + x.magnitude % 2 ^ 23) := Nat.mul_le_mul hk (by omega)
  simp only [hmax, if_neg (show ¬ x.magnitude / 2 ^ 23 = 0 by omega)]
  split
  · apply Nat.div_pos
    · calc 2 ^ (150 - x.magnitude / 2 ^ 23) ≤ 2 ^ 28 := Nat.pow_le_pow_right (by omega) (by omega)
        _ ≤ k * (2 ^ 23 + x.magnitude % 2 ^ 23) := hlarge
    · exact Nat.two_pow_pos _
  · exact Nat.mul_pos (by omega) (Nat.two_pow_pos _)

end Binary32

instance : WireWord Binary32 where
  size := 4
  toNat x := x.bits.toNat
  ofNat n := ⟨UInt32.ofNat n⟩
  toNat_lt x := x.bits.toNat_lt
  ofNat_toNat _ := congrArg Binary32.mk UInt32.ofNat_toNat
  toNat_ofNat _ h := UInt32.toNat_ofNat_of_lt h

@[simp] theorem size_binary32 : WireWord.size Binary32 = 4 := rfl

end VlcWhisper.Lib
