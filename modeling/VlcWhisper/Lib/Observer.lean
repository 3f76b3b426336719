import VlcWhisper.Lib.Program

/-!
# Programs with an observer

An observer is a state beside the program's own. The program tells it of what it does, and never asks it. So the
program does the same without the observer (`Erases`), and what the observer makes of what it is told can be followed
without the program's state (`Passes`). The rules take programs apart along their statements.
-/

namespace VlcWhisper.Lib

variable {σ τ α β : Type}

/-- What the observer does not see. -/
def unseen (m : StateM σ α) : StateM (σ × τ) α := fun s => ((m.run s.1).1, (m.run s.1).2, s.2)

/-- The observer is told something. -/
def tell (f : τ → τ) : StateM (σ × τ) Unit := modify fun s => (s.1, f s.2)

/-! ## Without the observer -/

/-- Without the observer, `m` is `n`. -/
def Erases (m : StateM (σ × τ) α) (n : StateM σ α) : Prop := ∀ s, n.run s.1 = ((m.run s).1, (m.run s).2.1)

theorem Erases.pure (a : α) : Erases (pure a : StateM (σ × τ) α) (pure a) := fun _ => rfl

theorem Erases.unseen (n : StateM σ α) : Erases (unseen n : StateM (σ × τ) α) n := fun _ => rfl

theorem Erases.bind {m : StateM (σ × τ) α} {n : StateM σ α} {f : α → StateM (σ × τ) β} {g : α → StateM σ β}
    (hm : Erases m n) (hf : ∀ a, Erases (f a) (g a)) : Erases (m >>= f) (n >>= g) := by
  intro s
  show (g (n.run s.1).1).run (n.run s.1).2 = _
  rw [hm s]
  exact hf _ _

theorem Erases.tell (f : τ → τ) : Erases (tell f : StateM (σ × τ) Unit) (Pure.pure ()) := fun _ => rfl

theorem Erases.tell_bind {f : τ → τ} {m : Unit → StateM (σ × τ) α} {n : StateM σ α} (h : Erases (m ()) n) :
    Erases (Lib.tell f >>= m) n :=
  fun s => h (s.1, f s.2)

theorem Erases.get_bind {m : σ → StateM (σ × τ) α} {n : StateM σ α} (h : ∀ s, Erases (m s) n) :
    Erases (Lib.unseen get >>= m) n :=
  fun s => h s.1 s

theorem Erases.bind_told {m : StateM (σ × τ) α} {n : StateM σ α} {f : α → StateM (σ × τ) α} (hm : Erases m n)
    (hf : ∀ a, Erases (f a) (Pure.pure a)) : Erases (m >>= f) n :=
  hm.bind hf

theorem Erases.ite {c : Prop} [Decidable c] {m m' : StateM (σ × τ) α} {n n' : StateM σ α} (h : Erases m n)
    (h' : Erases m' n') : Erases (if c then m else m') (if c then n else n') := by
  split
  · exact h
  · exact h'

theorem Erases.onlyIf {c : Bool} {m : StateM (σ × τ) Unit} {n : StateM σ Unit} (h : Erases m n) :
    Erases (onlyIf c m) (onlyIf c n) :=
  .ite h (.pure ())

/-! ## What the observer makes of it -/

/-- The program takes the observer from `P` to `Q`. -/
def Passes (P Q : τ → Prop) (m : StateM (σ × τ) α) : Prop := ∀ s, P s.2 → Ends m s fun _ t => Q t.2

variable {P Q R : τ → Prop}

theorem Passes.pure (a : α) : Passes P P (pure a : StateM (σ × τ) α) := fun _ hs => hs

theorem Passes.unseen (n : StateM σ α) : Passes P P (unseen n) := fun _ hs => hs

theorem Passes.tell {f : τ → τ} (h : ∀ t, P t → Q (f t)) : Passes P Q (tell f : StateM (σ × τ) Unit) :=
  fun s hs => h s.2 hs

theorem Passes.bind {m : StateM (σ × τ) α} {f : α → StateM (σ × τ) β} (hm : Passes P Q m)
    (hf : ∀ a, Passes Q R (f a)) : Passes P R (m >>= f) :=
  fun s hs => (hm s hs).bind fun a t ht => hf a t ht

theorem Passes.unseen_bind {n : StateM σ α} {f : α → StateM (σ × τ) β} (hf : ∀ a, Passes P Q (f a)) :
    Passes P Q (Lib.unseen n >>= f) :=
  (Passes.unseen n).bind hf

theorem Passes.ite {c : Prop} [Decidable c] {m n : StateM (σ × τ) α} (hm : Passes P Q m) (hn : Passes P Q n) :
    Passes P Q (if c then m else n) := by
  split
  · exact hm
  · exact hn

theorem Passes.onlyIf {c : Bool} {m : StateM (σ × τ) Unit} (h : Passes P P m) : Passes P P (onlyIf c m) :=
  .ite h (.pure ())

end VlcWhisper.Lib
