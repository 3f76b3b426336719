import Mathlib.Algebra.Ring.Int.Defs
import Mathlib.Algebra.Ring.Nat
import Mathlib.Data.List.Forall2

/-!
# Signed sums that may not overflow

In C a sum of two `int64_t` has no meaning unless the exact sum is an `int64_t`. `addChecked` and `subChecked` give a
sum where it has one, and then its value is the exact one (`addChecked_eq_some`, `subChecked_eq_some`).
-/

namespace VlcWhisper.Lib

/-- The exact number is an `int64_t`. -/
def FitsInt64 (n : Int) : Prop := -2 ^ 63 ≤ n ∧ n < 2 ^ 63

instance (n : Int) : Decidable (FitsInt64 n) := inferInstanceAs (Decidable (_ ∧ _))

/-- `a + b`, if it does not overflow. -/
def addChecked (a b : Int64) : Option Int64 := if FitsInt64 (a.toInt + b.toInt) then some (a + b) else none

/-- `a - b`, if it does not overflow. -/
def subChecked (a b : Int64) : Option Int64 := if FitsInt64 (a.toInt - b.toInt) then some (a - b) else none

theorem FitsInt64.bmod_eq {n : Int} (h : FitsInt64 n) : n.bmod (2 ^ 64) = n := by
  obtain ⟨hlow, hhigh⟩ := h
  apply Int.bmod_eq_of_le <;> omega

theorem fitsInt64_toInt (a : Int64) : FitsInt64 a.toInt := by
  have hlow := a.le_toInt
  have hhigh := a.toInt_lt
  exact ⟨hlow, hhigh⟩

theorem toInt_add_of_fits {a b : Int64} (h : FitsInt64 (a.toInt + b.toInt)) : (a + b).toInt = a.toInt + b.toInt := by
  rw [Int64.toInt_add, h.bmod_eq]

theorem toInt_sub_of_fits {a b : Int64} (h : FitsInt64 (a.toInt - b.toInt)) : (a - b).toInt = a.toInt - b.toInt := by
  rw [Int64.toInt_sub, h.bmod_eq]

theorem addChecked_eq_some {a b c : Int64} : addChecked a b = some c ↔ c.toInt = a.toInt + b.toInt := by
  unfold addChecked
  constructor
  · intro h
    split at h
    · rename_i hfits
      obtain rfl := Option.some.inj h
      exact toInt_add_of_fits hfits
    · cases h
  · intro h
    have hfits : FitsInt64 (a.toInt + b.toInt) := h ▸ fitsInt64_toInt c
    rw [if_pos hfits, ← Int64.toInt_inj.mp (h.trans (toInt_add_of_fits hfits).symm)]

theorem subChecked_eq_some {a b c : Int64} : subChecked a b = some c ↔ c.toInt = a.toInt - b.toInt := by
  unfold subChecked
  constructor
  · intro h
    split at h
    · rename_i hfits
      obtain rfl := Option.some.inj h
      exact toInt_sub_of_fits hfits
    · cases h
  · intro h
    have hfits : FitsInt64 (a.toInt - b.toInt) := h ▸ fitsInt64_toInt c
    rw [if_pos hfits, ← Int64.toInt_inj.mp (h.trans (toInt_sub_of_fits hfits).symm)]

theorem addChecked_of_fits {a b : Int64} (h : FitsInt64 (a.toInt + b.toInt)) : addChecked a b = some (a + b) := if_pos h

theorem subChecked_of_fits {a b : Int64} (h : FitsInt64 (a.toInt - b.toInt)) : subChecked a b = some (a - b) := if_pos h

theorem eq_of_addChecked {a b c : Int64} (h : addChecked a b = some c) : c = a + b := by
  unfold addChecked at h
  split at h
  · exact (Option.some.inj h).symm
  · cases h

theorem eq_of_subChecked {a b c : Int64} (h : subChecked a b = some c) : c = a - b := by
  unfold subChecked at h
  split at h
  · exact (Option.some.inj h).symm
  · cases h

theorem fits_of_subChecked {a b c : Int64} (h : subChecked a b = some c) : FitsInt64 (a.toInt - b.toInt) := by
  rw [← subChecked_eq_some.mp h]
  exact fitsInt64_toInt c

theorem fits_of_addChecked {a b c : Int64} (h : addChecked a b = some c) : FitsInt64 (a.toInt + b.toInt) := by
  rw [← addChecked_eq_some.mp h]
  exact fitsInt64_toInt c

variable {β : Type}

theorem isSome_addChecked_bind {a b : Int64} {f : Int64 → Option β} :
    (addChecked a b >>= f).isSome ↔ FitsInt64 (a.toInt + b.toInt) ∧ (f (a + b)).isSome := by
  by_cases hfits : FitsInt64 (a.toInt + b.toInt)
  · rw [addChecked_of_fits hfits, Option.bind_eq_bind, Option.bind_some, and_iff_right hfits]
  · rw [addChecked, if_neg hfits]
    exact iff_of_false Bool.false_ne_true (hfits ∘ And.left)

theorem isSome_subChecked_bind {a b : Int64} {f : Int64 → Option β} :
    (subChecked a b >>= f).isSome ↔ FitsInt64 (a.toInt - b.toInt) ∧ (f (a - b)).isSome := by
  by_cases hfits : FitsInt64 (a.toInt - b.toInt)
  · rw [subChecked_of_fits hfits, Option.bind_eq_bind, Option.bind_some, and_iff_right hfits]
  · rw [subChecked, if_neg hfits]
    exact iff_of_false Bool.false_ne_true (hfits ∘ And.left)

end VlcWhisper.Lib
