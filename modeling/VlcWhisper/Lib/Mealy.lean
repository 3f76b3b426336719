import VlcWhisper.Lib.Machine

/-!
# What a machine puts out

`outputs` is what a machine puts out in a run, input by input. A simulation takes the outputs of one machine to those
of another (`outputs_eq_of_simulates`).
-/

namespace VlcWhisper.Lib

variable {σ τ ι ο : Type*}

/-- The outputs in a run. -/
def outputs (step : σ → ι → σ) (out : σ → ι → ο) : σ → List ι → List ο
  | _, [] => []
  | s, i :: rest => out s i :: outputs step out (step s i) rest

variable {step : σ → ι → σ} {step' : τ → ι → τ} {out : σ → ι → ο} {out' : τ → ι → ο}

/-- A relation that the steps of both keep while the second satisfies `p`, and that makes their outputs agree. -/
structure Simulates (step : σ → ι → σ) (out : σ → ι → ο) (step' : τ → ι → τ) (out' : τ → ι → ο)
    (p : τ → ι → Prop) (R : σ → τ → Prop) : Prop where
  step : ∀ {s t i}, R s t → p t i → R (step s i) (step' t i)
  out : ∀ {s t i}, R s t → p t i → out s i = out' t i

variable {p : τ → ι → Prop} {R : σ → τ → Prop} {s : σ} {t : τ} {l : List ι}

/-- **Simulations.** The machines put out the same. -/
theorem outputs_eq_of_simulates (h : Simulates step out step' out' p R) (hR : R s t) (hp : Along step' p t l) :
    outputs step out s l = outputs step' out' t l := by
  induction l generalizing s t with
  | nil => rfl
  | cons i l ih =>
    rw [outputs, outputs, h.out hR hp.1, ih (h.step hR hp.1) hp.2]

end VlcWhisper.Lib
