import Mathlib.Data.List.Count
import Mathlib.Data.List.Perm.Basic
import Mathlib.Logic.Function.Basic
import Mathlib.Tactic.Common

/-!
# Counted references

A ledger counts the references that somebody holds to each object. To use or to release an object takes a reference;
the ledger remembers that somebody had none.

`Counts` lists the references, as often as they are held, after nothing but proper use. While an object is referenced
it is not given up by its owner, so that its name means the same object.
-/

namespace VlcWhisper.Lib

structure References (ι : Type) where
  count : ι → Nat
  misused : Bool

namespace References

variable {ι : Type} {r : References ι} {held : List ι} {i : ι}

def empty : References ι := ⟨fun _ => 0, false⟩

def use (r : References ι) (i : ι) : References ι := { r with misused := r.misused || r.count i == 0 }

variable [DecidableEq ι]

def hold (r : References ι) (i : ι) : References ι := { r with count := Function.update r.count i (r.count i + 1) }

def release (r : References ι) (i : ι) : References ι :=
  ⟨Function.update r.count i (r.count i - 1), r.misused || r.count i == 0⟩

/-- These references are held. -/
structure Counts (r : References ι) (held : List ι) : Prop where
  sound : r.misused = false
  count : ∀ i, r.count i = held.count i

theorem counts_empty : Counts (empty : References ι) [] := ⟨rfl, by simp [empty]⟩

theorem Counts.perm (h : Counts r held) {held' : List ι} (hperm : held.Perm held') : Counts r held' :=
  ⟨h.sound, fun i => (h.count i).trans (hperm.count_eq i)⟩

theorem Counts.pos (h : Counts r held) (hi : i ∈ held) : 0 < r.count i := by
  rw [h.count]
  exact List.count_pos_iff.mpr hi

theorem Counts.use (h : Counts r held) (hi : i ∈ held) : r.use i = r := by
  have hpos := h.pos hi
  have hne : (r.count i == 0) = false := by simp; omega
  simp [References.use, hne]

theorem Counts.hold (h : Counts r held) (i : ι) : Counts (r.hold i) (i :: held) where
  sound := h.sound
  count := by
    intro j
    by_cases hj : j = i
    · subst hj
      simp [References.hold, h.count]
    · simp [References.hold, hj, h.count, List.count_cons_of_ne (Ne.symm hj)]

theorem Counts.release (h : Counts r (i :: held)) : Counts (r.release i) held where
  sound := by
    have hpos := h.pos List.mem_cons_self
    have hne : (r.count i == 0) = false := by simp; omega
    simp [References.release, h.sound, hne]
  count := by
    intro j
    by_cases hj : j = i
    · subst hj
      simp [References.release, h.count]
    · simp [References.release, hj, h.count, List.count_cons_of_ne (Ne.symm hj)]

theorem Counts.notMem (h : Counts r held) (hi : r.count i = 0) : i ∉ held := by
  rw [h.count] at hi
  exact List.count_eq_zero.mp hi

end References

end VlcWhisper.Lib
