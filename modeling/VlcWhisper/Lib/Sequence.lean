import Mathlib.Tactic.Common
import Mathlib.Data.List.Perm.Basic
import Mathlib.Data.List.Count

/-!
# Serial numbers that start over

Items get the serial numbers 1, 2, …, `n` and then 1 again. As long as no more than `n` of them are around, the one
with the next number is the next item, in whatever order they lie (`next_of_perm`).
-/

namespace VlcWhisper.Lib

/-- The number of the `k`-th item. -/
def serial (n k : Nat) : Nat := k % n + 1

/-- The number after `s`. -/
def nextSerial (n s : Nat) : Nat := if s = n then 1 else s + 1

theorem nextSerial_serial {n : Nat} (h : 0 < n) (k : Nat) : nextSerial n (serial n k) = serial n (k + 1) := by
  have hlt := Nat.mod_lt k h
  have hsucc : serial n (k + 1) = serial n k % n + 1 := by rw [serial, serial, Nat.mod_add_mod]
  rw [nextSerial, hsucc]
  by_cases heq : serial n k = n
  · rw [if_pos heq, heq, Nat.mod_self]
  · rw [if_neg heq, Nat.mod_eq_of_lt]
    rw [serial] at heq ⊢
    omega

/-- Numbers repeat after `n` items, not before. -/
theorem serial_inj {n j k : Nat} (hjk : j ≤ k) (hlt : k < j + n) (h : serial n j = serial n k) : j = k := by
  simp only [serial, Nat.add_right_cancel_iff] at h
  have hzero : (k - j) % n = 0 := Nat.sub_mod_eq_zero_of_mod_eq h.symm
  rw [Nat.mod_eq_of_lt (by omega)] at hzero
  omega

variable {α : Type*}

/-- The items numbered from the `k`-th number on. -/
def numbered (n : Nat) : Nat → List α → List (Nat × α)
  | _, [] => []
  | k, x :: l => (serial n k, x) :: numbered n (k + 1) l

@[simp] theorem length_numbered (n k : Nat) (l : List α) : (numbered n k l).length = l.length := by
  induction l generalizing k with
  | nil => rfl
  | cons x l ih => simp [numbered, ih]

theorem numbered_append (n k : Nat) (l m : List α) :
    numbered n k (l ++ m) = numbered n k l ++ numbered n (k + l.length) m := by
  induction l generalizing k with
  | nil => rfl
  | cons x l ih => simp [numbered, ih, Nat.add_assoc, Nat.add_comm 1]

theorem map_snd_numbered (n k : Nat) (l : List α) : (numbered n k l).map Prod.snd = l := by
  induction l generalizing k with
  | nil => rfl
  | cons x l ih => simp [numbered, ih]

theorem mem_numbered {n k s : Nat} {x : α} {l : List α} (h : (s, x) ∈ numbered n k l) :
    ∃ i, i < l.length ∧ s = serial n (k + i) := by
  induction l generalizing k with
  | nil => cases h
  | cons y l ih =>
    rcases List.mem_cons.mp h with heq | hmem
    · exact ⟨0, by simp, congrArg Prod.fst heq⟩
    · obtain ⟨i, hi, hs⟩ := ih hmem
      exact ⟨i + 1, by simpa using hi, by rw [hs, Nat.add_assoc, Nat.add_comm 1]⟩

/-- **The next item.** Of at most `n` items in any order, the one with the first number is the first. -/
theorem next_of_perm {n k : Nat} {x : α} {l : List α} {rest : List (Nat × α)} (hlen : l.length ≤ n)
    (h : ((serial n k, x) :: rest).Perm (numbered n k l)) :
    ∃ l', l = x :: l' ∧ rest.Perm (numbered n (k + 1) l') := by
  cases l with
  | nil => simpa [numbered] using h.length_eq
  | cons y l =>
    have hmem : (serial n k, x) ∈ numbered n k (y :: l) := h.subset (by simp)
    rcases List.mem_cons.mp hmem with heq | hmem
    · obtain rfl : x = y := congrArg Prod.snd heq
      exact ⟨l, rfl, h.cons_inv⟩
    · obtain ⟨i, hi, hs⟩ := mem_numbered hmem
      have hk := serial_inj (by omega) (by simp at hlen; omega) hs
      omega

end VlcWhisper.Lib
