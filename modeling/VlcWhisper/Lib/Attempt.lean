import Mathlib.Tactic.Common

/-!
# Programs that wait

A program that repeats something until the system lets it go on may be looked at before it has ended. An `Attempt` has
a result, or is still running in the state it has reached. `Meets` says what holds of either; `Returns` says that the
program has ended.

Main results: the rules for loops, `Meets.repeatUntil` and `Returns.repeatUntil`.
-/

namespace VlcWhisper.Lib

variable {σ α β : Type}

/-- A program that may still be running. -/
abbrev Attempt (σ α : Type) : Type := OptionT (StateM σ) α

namespace Attempt

/-- The result, if there is one yet, and the state. -/
def exec (m : Attempt σ α) (s : σ) : Option α × σ := m.run.run s

/-- Repeat `body` until it says that it is done; after so many rounds the program is still running. -/
def repeatUntil : Nat → Attempt σ Bool → Attempt σ Unit
  | 0, _ => failure
  | rounds + 1, body => do
    if ← body then pure () else repeatUntil rounds body

/-- A conditional without an alternative. -/
def when (c : Bool) (m : Attempt σ Unit) : Attempt σ Unit := if c then m else pure ()

theorem exec_bind (m : Attempt σ α) (f : α → Attempt σ β) (s : σ) :
    (m >>= f).exec s = match m.exec s with
      | (some a, t) => (f a).exec t
      | (none, t) => (none, t) := by
  unfold exec
  rw [OptionT.run_bind, Option.elimM, StateT.run_bind]
  dsimp only [bind]
  cases h : m.run.run s with
  | mk x t => cases x <;> rfl

/-! ## What holds, now or in the end -/

/-- From `s`, the program ends as `Q` says, or is still running in a state as `inv` says. -/
def Meets (inv : σ → Prop) (m : Attempt σ α) (s : σ) (Q : α → σ → Prop) : Prop :=
  match m.exec s with
  | (some a, t) => Q a t
  | (none, t) => inv t

variable {inv : σ → Prop} {s : σ} {Q : α → σ → Prop} {P : β → σ → Prop}

theorem Meets.pure {a : α} (h : Q a s) : Meets inv (pure a) s Q := h

theorem Meets.bind {m : Attempt σ α} {f : α → Attempt σ β} (hm : Meets inv m s Q)
    (hf : ∀ a t, Q a t → Meets inv (f a) t P) : Meets inv (m >>= f) s P := by
  unfold Meets at hm ⊢
  rw [exec_bind]
  cases h : m.exec s with
  | mk x t =>
    rw [h] at hm
    cases x with
    | none => exact hm
    | some a => exact hf a t hm

theorem Meets.change {g : σ → σ} {Q : PUnit → σ → Prop} (h : Q ⟨⟩ (g s)) : Meets inv (modify g) s Q := h

theorem Meets.change_bind {g : σ → σ} {f : PUnit → Attempt σ β} (h : Meets inv (f ⟨⟩) (g s) P) :
    Meets inv (modify g >>= f) s P := Meets.bind (Q := fun _ t => t = g s) rfl fun _ _ ht => ht ▸ h

theorem Meets.get_bind {f : σ → Attempt σ β} (h : Meets inv (f s) s P) : Meets inv (get >>= f) s P :=
  Meets.bind (Q := fun a t => a = s ∧ t = s) ⟨rfl, rfl⟩ fun _ _ ⟨ha, ht⟩ => ha ▸ ht ▸ h

theorem Meets.ite {c : Prop} [Decidable c] {m n : Attempt σ α} (hm : c → Meets inv m s Q) (hn : ¬ c → Meets inv n s Q) :
    Meets inv (if c then m else n) s Q := by
  split
  · exact hm ‹_›
  · exact hn ‹_›

theorem Meets.when {c : Bool} {m : Attempt σ Unit} {Q : Unit → σ → Prop} (hm : c = true → Meets inv m s Q)
    (hskip : c = false → Q () s) : Meets inv (when c m) s Q := by
  cases c with
  | false => exact hskip rfl
  | true => exact hm rfl

theorem Meets.mono {m : Attempt σ α} {Q' : α → σ → Prop} (h : Meets inv m s Q) (hQ : ∀ a t, Q a t → Q' a t) :
    Meets inv m s Q' := by
  unfold Meets at h ⊢
  cases hx : m.exec s with
  | mk x t =>
    rw [hx] at h
    cases x with
    | none => exact h
    | some a => exact hQ a t h

theorem Meets.and {m : Attempt σ α} {inv' : σ → Prop} {Q' : α → σ → Prop} (h : Meets inv m s Q) (h' : Meets inv' m s Q') :
    Meets (fun t => inv t ∧ inv' t) m s fun a t => Q a t ∧ Q' a t := by
  unfold Meets at h h' ⊢
  cases hx : m.exec s with
  | mk x t =>
    rw [hx] at h h'
    cases x with
    | none => exact ⟨h, h'⟩
    | some a => exact ⟨h, h'⟩

/-- **Loops.** Rounds that are not the last keep `R`, after which the program may be looked at. -/
theorem Meets.repeatUntil {body : Attempt σ Bool} {R : σ → Prop} {Q : Unit → σ → Prop}
    (hbody : ∀ s, R s → Meets inv body s fun done t => if done then Q () t else R t)
    (hround : ∀ s, R s → inv s) (rounds : Nat) (hs : R s) : Meets inv (repeatUntil rounds body) s Q := by
  induction rounds generalizing s with
  | zero => exact hround s hs
  | succ rounds ih =>
    apply (hbody s hs).bind
    intro done t ht
    cases done with
    | true => exact ht
    | false => exact ih ht

/-! ## Programs that have ended -/

/-- From `s`, the program has ended as `Q` says. -/
def Returns (m : Attempt σ α) (s : σ) (Q : α → σ → Prop) : Prop := Meets (fun _ => False) m s Q

/-- **Loops that end.** Rounds that are not the last use up a measure. -/
theorem Returns.repeatUntil {body : Attempt σ Bool} {R : σ → Prop} {Q : Unit → σ → Prop} (size : σ → Nat)
    (hbody : ∀ s, R s → Returns body s fun done t => if done then Q () t else R t ∧ size t < size s)
    {rounds : Nat} (hs : R s) (hrounds : size s < rounds) : Returns (repeatUntil rounds body) s Q := by
  induction rounds generalizing s with
  | zero => omega
  | succ rounds ih =>
    apply Meets.bind (hbody s hs)
    intro done t ht
    cases done with
    | true => exact ht
    | false => exact ih ht.1 (by have := ht.2; omega)

end Attempt

end VlcWhisper.Lib
