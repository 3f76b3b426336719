import Mathlib.Algebra.Ring.Nat
import Mathlib.Data.List.Basic
import Mathlib.Tactic.Common

/-!
# Counters that start anew

A source counts up, and from 0 again in its next life. Who reads its counter and does not see the restarts takes a
reading below the last one for a restart, and adds up what the readings have grown by. Main result:
`counted_flatten_eq_iff`. That is the sum of the lives' last readings if and only if every life that reads anything
starts below the reading before it, or that one is 0.
-/

namespace VlcWhisper.Lib

/-- What a reading adds to the total. -/
def growth (last reading : Nat) : Nat := if last ≤ reading then reading - last else reading

/-- What some readings add to the total. -/
def counted : Nat → List Nat → Nat
  | _, [] => 0
  | last, reading :: readings => growth last reading + counted reading readings

/-- The restart before a life shows in its first reading. -/
def Shows (last : Nat) (life : List Nat) : Prop := ∀ first ∈ life.head?, first < last ∨ last = 0

instance (last : Nat) (life : List Nat) : Decidable (Shows last life) := inferInstanceAs (Decidable (∀ _ ∈ _, _))

/-- Every restart does. -/
def ShowsAll : Nat → List (List Nat) → Prop
  | _, [] => True
  | last, life :: lives => Shows last life ∧ ShowsAll (life.getLastD last) lives

instance decidableShowsAll : (last : Nat) → (lives : List (List Nat)) → Decidable (ShowsAll last lives)
  | _, [] => .isTrue trivial
  | last, life :: lives => @instDecidableAnd _ _ inferInstance (decidableShowsAll (life.getLastD last) lives)

theorem showsAll_of_zero {lives : List (List Nat)} (h : ∀ life ∈ lives, ∀ first ∈ life.head?, first = 0) (last : Nat) :
    ShowsAll last lives := by
  induction lives generalizing last with
  | nil => trivial
  | cons life lives ih =>
    refine ⟨fun first hfirst => ?_, ih (fun other hother => h other (List.mem_cons_of_mem _ hother)) _⟩
    have hzero := h life (List.mem_cons_self ..) first hfirst
    omega

theorem counted_append (last : Nat) (l m : List Nat) :
    counted last (l ++ m) = counted last l + counted (l.getLastD last) m := by
  induction l generalizing last with
  | nil => rw [List.nil_append, counted, Nat.zero_add, List.getLastD_nil]
  | cons reading l ih => rw [List.cons_append, counted, counted, ih, List.getLastD_cons, Nat.add_assoc]

theorem getLastD_append (last : Nat) (l m : List Nat) : (l ++ m).getLastD last = m.getLastD (l.getLastD last) := by
  induction l generalizing last with
  | nil => rfl
  | cons reading l ih => rw [List.cons_append, List.getLastD_cons, List.getLastD_cons, ih]

/-- The readings of one life add up to what they have grown by. -/
theorem counted_of_pairwise {last : Nat} {life : List Nat} (h : (last :: life).Pairwise (· ≤ ·)) :
    last ≤ life.getLastD last ∧ counted last life = life.getLastD last - last := by
  induction life generalizing last with
  | nil => exact ⟨Nat.le_refl _, (Nat.sub_self _).symm⟩
  | cons reading life ih =>
    obtain ⟨hle, hcounted⟩ := ih (List.pairwise_cons.mp h).2
    have hfirst : last ≤ reading := (List.pairwise_cons.mp h).1 reading (List.mem_cons_self ..)
    rw [List.getLastD_cons, counted, growth, if_pos hfirst, hcounted]
    omega

/-- A life adds its last reading if its restart shows, and less otherwise. -/
theorem counted_life (last : Nat) {life : List Nat} (h : life.Pairwise (· ≤ ·)) :
    counted last life ≤ life.getLastD 0 ∧ (counted last life = life.getLastD 0 ↔ Shows last life) := by
  cases life with
  | nil =>
    have hshows : Shows last [] := fun first hfirst => by cases hfirst
    exact ⟨Nat.le_refl _, fun _ => hshows, fun _ => rfl⟩
  | cons first life =>
    obtain ⟨hle, hcounted⟩ := counted_of_pairwise h
    have hshows : Shows last (first :: life) ↔ first < last ∨ last = 0 := by simp [Shows]
    rw [hshows, List.getLastD_cons, counted, growth, hcounted]
    split <;> omega

/-- **The total is the sum of the lives' last readings if and only if every restart shows.** It is never more. -/
theorem counted_flatten_eq_iff {lives : List (List Nat)} (h : ∀ life ∈ lives, life.Pairwise (· ≤ ·)) (last : Nat) :
    counted last lives.flatten ≤ (lives.map (·.getLastD 0)).sum ∧
      (counted last lives.flatten = (lives.map (·.getLastD 0)).sum ↔ ShowsAll last lives) := by
  induction lives generalizing last with
  | nil => exact ⟨Nat.le_refl _, fun _ => trivial, fun _ => rfl⟩
  | cons life lives ih =>
    obtain ⟨hle, hiff⟩ := counted_life last (h life (List.mem_cons_self ..))
    obtain ⟨hles, hiffs⟩ := ih (fun other hother => h other (List.mem_cons_of_mem _ hother)) (life.getLastD last)
    rw [List.flatten_cons, counted_append, List.map_cons, List.sum_cons, ShowsAll, ← hiff, ← hiffs]
    omega

end VlcWhisper.Lib
