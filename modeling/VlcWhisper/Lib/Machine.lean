import Mathlib.Tactic.Common
import Mathlib.Data.List.Basic

/-!
# Deterministic machines and their runs

A machine is a step function on states and inputs; what the environment chooses is part of the input, so every
behaviour of a system is the run of one list of inputs. A step predicate relates an input to the state it is
given in. Invariants are shown for one step, from the step predicate if need be, and then hold along the run.
-/

namespace VlcWhisper.Lib

variable {σ τ ι : Type*}

/-- The state after a list of inputs. -/
def run (step : σ → ι → σ) : σ → List ι → σ
  | s, [] => s
  | s, i :: rest => run step (step s i) rest

/-- Every step of the run satisfies `p`. -/
def Along (step : σ → ι → σ) (p : σ → ι → Prop) : σ → List ι → Prop
  | _, [] => True
  | s, i :: rest => p s i ∧ Along step p (step s i) rest

variable {step : σ → ι → σ} {p q : σ → ι → Prop}

theorem run_append (s : σ) (l m : List ι) : run step s (l ++ m) = run step (run step s l) m := by
  induction l generalizing s with
  | nil => rfl
  | cons i l ih => exact ih (step s i)

theorem along_append {s : σ} {l m : List ι} :
    Along step p s (l ++ m) ↔ Along step p s l ∧ Along step p (run step s l) m := by
  induction l generalizing s with
  | nil => simp [Along, run]
  | cons i l ih => simp [Along, run, ih, and_assoc]

theorem along_iff {s : σ} {l : List ι} :
    Along step p s l ↔ ∀ pre i post, l = pre ++ i :: post → p (run step s pre) i := by
  constructor
  · rintro h pre i post rfl
    rw [along_append] at h
    exact h.2.1
  · intro h
    induction l generalizing s with
    | nil => trivial
    | cons i l ih =>
      refine ⟨h [] i l rfl, ih ?_⟩
      rintro pre j post rfl
      exact h (i :: pre) j post rfl

/-- Whether all steps satisfy a decidable predicate can be decided. -/
instance instDecidableAlong [∀ s i, Decidable (p s i)] : ∀ s l, Decidable (Along step p s l)
  | _, [] => .isTrue trivial
  | s, i :: rest =>
    haveI := instDecidableAlong (step s i) rest
    inferInstanceAs (Decidable (p s i ∧ Along step p (step s i) rest))

theorem Along.mono {s : σ} {l : List ι} (h : Along step p s l) (hpq : ∀ s i, p s i → q s i) :
    Along step q s l := by
  rw [along_iff] at h ⊢
  exact fun pre i post heq => hpq _ _ (h pre i post heq)

/-- **Invariants.** What every step from an admissible input preserves holds after every admissible run. -/
theorem run_invariant {inv : σ → Prop} (hstep : ∀ s i, inv s → p s i → inv (step s i)) {s : σ} {l : List ι}
    (hinv : inv s) (hp : Along step p s l) : inv (run step s l) := by
  induction l generalizing s with
  | nil => exact hinv
  | cons i l ih => exact ih (hstep s i hinv hp.1) hp.2

theorem run_invariant' {inv : σ → Prop} (hstep : ∀ s i, inv s → inv (step s i)) {s : σ} (l : List ι)
    (hinv : inv s) : inv (run step s l) := by
  induction l generalizing s with
  | nil => exact hinv
  | cons i l ih => exact ih (hstep s i hinv)

theorem Along.of_invariant {inv : σ → Prop} (hstep : ∀ s i, inv s → p s i → inv (step s i))
    (hq : ∀ s i, inv s → p s i → q s i) {s : σ} {l : List ι} (hinv : inv s) (hp : Along step p s l) :
    Along step q s l := by
  induction l generalizing s with
  | nil => trivial
  | cons i l ih => exact ⟨hq s i hinv hp.1, ih (hstep s i hinv hp.1) hp.2⟩

/-- **Exact conditions.** If the step predicate says exactly which steps keep the invariant, the steps of a run satisfy
it exactly if the invariant holds after every prefix. -/
theorem forall_prefix_iff_along {inv : σ → Prop} (hstep : ∀ s i, inv s → (inv (step s i) ↔ p s i)) {s : σ} {l : List ι}
    (hinv : inv s) : (∀ pre, pre <+: l → inv (run step s pre)) ↔ Along step p s l := by
  induction l generalizing s with
  | nil => simp [run, hinv, Along]
  | cons i l ih =>
    constructor
    · intro h
      have hnext : inv (step s i) := h [i] (by simp)
      refine ⟨(hstep s i hinv).mp hnext, (ih hnext).mp fun pre hpre => ?_⟩
      exact h (i :: pre) (by simpa using hpre)
    · rintro ⟨hp, hrest⟩ pre hpre
      have hnext : inv (step s i) := (hstep s i hinv).mpr hp
      rcases List.prefix_cons_iff.mp hpre with rfl | ⟨pre, rfl, hrest'⟩
      · exact hinv
      · exact (ih hnext).mpr hrest pre hrest'

/-! ## Histories -/

/-- Each event of a history is explained by those before it. -/
def Explained (P : List ι → ι → Prop) (h : List ι) : Prop := Along (fun h e => h ++ [e]) P [] h

variable {P : List ι → ι → Prop}

instance [∀ h e, Decidable (P h e)] (h : List ι) : Decidable (Explained P h) :=
  inferInstanceAs (Decidable (Along (fun h e => h ++ [e]) P [] h))

theorem run_snoc (h l : List ι) : run (fun h e => h ++ [e]) h l = h ++ l := by
  induction l generalizing h with
  | nil => simp [run]
  | cons e l ih => simp [run, ih]

theorem explained_append {h l : List ι} :
    Explained P (h ++ l) ↔ Explained P h ∧ Along (fun h e => h ++ [e]) P h l := by
  rw [Explained, along_append, run_snoc]
  rfl

theorem explained_append_one {h : List ι} {e : ι} (hh : Explained P h) (he : P h e) : Explained P (h ++ [e]) :=
  explained_append.mpr ⟨hh, he, trivial⟩

theorem explained_iff {h : List ι} : Explained P h ↔ ∀ pre e post, h = pre ++ e :: post → P pre e := by
  rw [Explained, along_iff]
  simp only [run_snoc, List.nil_append]

end VlcWhisper.Lib
