import Mathlib.Logic.Relation
import Mathlib.Tactic.Common

/-!
# Stateful programs as runs of a transition system

A program over a state `σ` is a `StateM σ`. A transition system `R` on views of the state says what each of its
actions can do; `StepsAt view R s m` says that all `m` does from `s` is a sequence of such steps, as far as the view
shows. The rules take a program apart along its statements, so a step is only looked at where the program makes it,
and what every step preserves holds after the program (`steps_invariant`).
-/

namespace VlcWhisper.Lib

open Relation

variable {σ κ α β : Type}

/-! ## Statements -/

/-- A conditional without an alternative. -/
def onlyIf (c : Bool) (m : StateM σ Unit) : StateM σ Unit := if c then m else pure ()

/-- Repeat `body` until it gives a result; `none` if that takes more than `fuel` rounds. -/
def loop : Nat → StateM σ (Option α) → StateM σ (Option α)
  | 0, _ => pure none
  | fuel + 1, body => do
    match ← body with
    | some a => pure (some a)
    | none => loop fuel body

/-! ## Outcomes -/

/-- From `s`, the program ends with a result and in a state that satisfy `P`. -/
def Ends (m : StateM σ α) (s : σ) (P : α → σ → Prop) : Prop := P (m.run s).1 (m.run s).2

theorem Ends.bind {m : StateM σ α} {f : α → StateM σ β} {s : σ} {P : α → σ → Prop} {Q : β → σ → Prop}
    (hm : Ends m s P) (hf : ∀ a t, P a t → Ends (f a) t Q) : Ends (m >>= f) s Q :=
  hf _ _ hm

theorem Ends.get_bind {f : σ → StateM σ β} {s : σ} {Q : β → σ → Prop} (h : Ends (f s) s Q) :
    Ends (get >>= f) s Q :=
  h

theorem Ends.modify_bind {g : σ → σ} {f : PUnit → StateM σ β} {s : σ} {Q : β → σ → Prop} (h : Ends (f ⟨⟩) (g s) Q) :
    Ends (modify g >>= f) s Q :=
  h

theorem Ends.mono {m : StateM σ α} {s : σ} {P Q : α → σ → Prop} (h : Ends m s P) (hPQ : ∀ a t, P a t → Q a t) :
    Ends m s Q :=
  hPQ _ _ h

/-! ## Steps -/

/-- From `s`, the program only makes steps of `R`. -/
def StepsAt (view : σ → κ) (R : κ → κ → Prop) (s : σ) (m : StateM σ α) : Prop :=
  Ends m s fun _ t => ReflTransGen R (view s) (view t)

/-- From everywhere. -/
def Steps (view : σ → κ) (R : κ → κ → Prop) (m : StateM σ α) : Prop := ∀ s, StepsAt view R s m

variable {view : σ → κ} {R : κ → κ → Prop}

theorem Ends.stepsAt {s : σ} {m : StateM σ α} (h : Ends m s fun _ t => ReflTransGen R (view s) (view t)) :
    StepsAt view R s m :=
  h

theorem StepsAt.of_eq {s : σ} {m : StateM σ α} (h : view (m.run s).2 = view s) : StepsAt view R s m := by
  rw [StepsAt, Ends, h]

theorem StepsAt.of_step {s : σ} {m : StateM σ α} (h : R (view s) (view (m.run s).2)) : StepsAt view R s m :=
  .single h

theorem StepsAt.bind {s : σ} {m : StateM σ α} {f : α → StateM σ β} (hm : StepsAt view R s m)
    (hf : StepsAt view R (m.run s).2 (f (m.run s).1)) : StepsAt view R s (m >>= f) :=
  ReflTransGen.trans hm hf

theorem Steps.pure (a : α) : Steps view R (pure a : StateM σ α) := fun _ => .refl

theorem Steps.bind {m : StateM σ α} {f : α → StateM σ β} (hm : Steps view R m) (hf : ∀ a, Steps view R (f a)) :
    Steps view R (m >>= f) :=
  fun s => (hm s).bind (hf _ _)

theorem StepsAt.modify_bind {s : σ} {g : σ → σ} {f : PUnit → StateM σ β} (hg : ReflTransGen R (view s) (view (g s)))
    (hf : StepsAt view R (g s) (f ⟨⟩)) : StepsAt view R s (modify g >>= f) :=
  StepsAt.bind (m := modify g) hg hf

theorem Steps.modify_bind {g : σ → σ} {f : PUnit → StateM σ β} (hg : ∀ s, ReflTransGen R (view s) (view (g s)))
    (hf : Steps view R (f ⟨⟩)) : Steps view R (modify g >>= f) :=
  fun s => .modify_bind (hg s) (hf (g s))

theorem StepsAt.get_bind {s : σ} {f : σ → StateM σ β} (hf : StepsAt view R s (f s)) :
    StepsAt view R s (get >>= f) :=
  hf

theorem Steps.get_bind {f : σ → StateM σ β} (hf : ∀ s, StepsAt view R s (f s)) : Steps view R (get >>= f) := hf

theorem Steps.ite {c : Prop} [Decidable c] {m n : StateM σ α} (hm : Steps view R m) (hn : Steps view R n) :
    Steps view R (if c then m else n) := by
  split
  · exact hm
  · exact hn

theorem Steps.onlyIf {c : Bool} {m : StateM σ Unit} (hm : Steps view R m) : Steps view R (onlyIf c m) :=
  .ite hm (.pure ())

theorem Steps.modify_of_eq {f : σ → σ} (h : ∀ s, view (f s) = view s) : Steps view R (modify f) :=
  fun s => .of_eq (h s)

theorem Steps.modify {f : σ → σ} (h : ∀ s, ReflTransGen R (view s) (view (f s))) : Steps view R (modify f) := h

theorem Steps.loop {body : StateM σ (Option α)} (h : Steps view R body) (fuel : Nat) :
    Steps view R (loop fuel body) := by
  induction fuel with
  | zero => exact .pure none
  | succ fuel ih =>
    refine Steps.bind h fun r => ?_
    cases r with
    | some a => exact .pure _
    | none => exact ih

/-- What every step preserves holds after any number of them. -/
theorem steps_invariant {inv : κ → Prop} (hstep : ∀ c d, inv c → R c d → inv d) {c d : κ} (h : ReflTransGen R c d)
    (hc : inv c) : inv d := by
  induction h with
  | refl => exact hc
  | tail _ hlast ih => exact hstep _ _ ih hlast

/-! ## What does not change -/

/-- The program does not change what the view shows. -/
abbrev Keeps (view : σ → κ) (m : StateM σ α) : Prop := Steps view (fun _ _ => False) m

theorem Keeps.eq {m : StateM σ α} (h : Keeps view m) (s : σ) : view (m.run s).2 = view s := by
  have hsteps : ReflTransGen (fun _ _ => False) (view s) (view (m.run s).2) := h s
  exact steps_invariant (fun c d (_ : c = view s) (hstep : False) => hstep.elim) hsteps rfl

theorem Steps.keeps {m : StateM σ α} (h : Steps view R m) (f : κ → β) (hf : ∀ x y, R x y → f y = f x) :
    Keeps (fun s => f (view s)) m :=
  fun s => .of_eq (steps_invariant (fun x y (hx : f x = f (view s)) hxy => (hf x y hxy).trans hx) (h s) rfl)

theorem Keeps.ends {m : StateM σ α} (h : Keeps view m) (s : σ) : Ends m s fun _ t => view t = view s := h.eq s

/-! ## Loops that end -/

/-- A loop whose rounds keep an invariant and use up a measure ends as its last round does. -/
theorem Ends.loop {body : StateM σ (Option α)} {inv : σ → Prop} {post : α → σ → Prop} (size : σ → Nat)
    (hbody : ∀ s, inv s → Ends body s fun r t => (∀ a, r = some a → post a t) ∧ (r = none → inv t ∧ size t < size s))
    {fuel : Nat} {s : σ} (hs : inv s) (hfuel : size s < fuel) :
    Ends (loop fuel body) s fun r t => ∃ a, r = some a ∧ post a t := by
  induction fuel generalizing s with
  | zero => omega
  | succ fuel ih =>
    refine (hbody s hs).bind fun r t ⟨hsome, hnone⟩ => ?_
    cases r with
    | some a => exact ⟨a, rfl, hsome a rfl⟩
    | none =>
      obtain ⟨ht, hless⟩ := hnone rfl
      exact ih ht (by omega)

theorem ends_loop_some {body : StateM σ (Option α)} {inv : σ → Prop} {post : α → σ → Prop}
    (hbody : ∀ s, inv s → Ends body s fun r t => (∀ a, r = some a → post a t) ∧ (r = none → inv t)) (fuel : Nat) {s : σ}
    (hs : inv s) : Ends (loop fuel body) s fun r t => ∀ a, r = some a → post a t := by
  induction fuel generalizing s with
  | zero =>
    intro a ha
    cases ha
  | succ fuel ih =>
    refine (hbody s hs).bind fun r t ⟨hsome, hnone⟩ => ?_
    cases r with
    | some a => exact hsome
    | none => exact ih (hnone rfl)

theorem loop_isSome {body : StateM σ (Option α)} (size : σ → Nat)
    (hbody : ∀ s, (body.run s).1 = none → size (body.run s).2 < size s) {fuel : Nat} {s : σ} (h : size s < fuel) :
    ((loop fuel body).run s).1.isSome = true := by
  have hends : Ends (loop fuel body) s fun r _ => ∃ a, r = some a ∧ True :=
    Ends.loop size (fun s (_ : True) => ⟨fun _ _ => trivial, fun hr => ⟨trivial, hbody s hr⟩⟩) trivial h
  obtain ⟨a, ha, -⟩ := hends
  rw [ha]
  rfl

/-! ## Rounds of a loop -/

/-- The states in which the rounds of a loop begin. -/
def heads : Nat → StateM σ (Option α) → σ → List σ
  | 0, _, _ => []
  | fuel + 1, body, s => s :: match (body.run s).1 with
    | some _ => []
    | none => heads fuel body (body.run s).2

/-- A loop makes the steps of its rounds, each of which begins where the loop is then. -/
theorem StepsAt.loop_of_heads {body : StateM σ (Option α)} {inv : σ → Prop} (hinv : ∀ s, inv s → inv (body.run s).2)
    {fuel : Nat} {s : σ} (hs : inv s) (hbody : ∀ t ∈ heads fuel body s, inv t → StepsAt view R t body) :
    StepsAt view R s (loop fuel body) := by
  induction fuel generalizing s with
  | zero => exact .refl
  | succ fuel ih =>
    refine StepsAt.bind (hbody s List.mem_cons_self hs) ?_
    cases hr : (body.run s).1 with
    | some a => exact .refl
    | none =>
      refine ih (hinv s hs) fun t ht => hbody t (List.mem_cons_of_mem _ ?_)
      rw [hr]
      exact ht

/-! ## Invariants -/

theorem Ends.ite {c : Prop} [Decidable c] {m n : StateM σ α} {s : σ} {P : α → σ → Prop} (hm : c → Ends m s P)
    (hn : ¬ c → Ends n s P) : Ends (if c then m else n) s P := by
  split
  · exact hm ‹_›
  · exact hn ‹_›

theorem Ends.onlyIf {c : Bool} {m : StateM σ Unit} {s : σ} {P : Unit → σ → Prop} (hm : c = true → Ends m s P)
    (hskip : c = false → P () s) : Ends (onlyIf c m) s P := by
  cases c with
  | false => exact hskip rfl
  | true => exact hm rfl

/-- What holds before the program holds after it. -/
def Preserves (inv : σ → Prop) (m : StateM σ α) : Prop := ∀ s, inv s → Ends m s fun _ t => inv t

variable {inv : σ → Prop}

theorem Preserves.pure (a : α) : Preserves inv (pure a : StateM σ α) := fun _ hs => hs

theorem Preserves.bind {m : StateM σ α} {f : α → StateM σ β} (hm : Preserves inv m) (hf : ∀ a, Preserves inv (f a)) :
    Preserves inv (m >>= f) :=
  fun s hs => (hm s hs).bind fun a t ht => hf a t ht

theorem Preserves.get_bind {f : σ → StateM σ β} (hf : ∀ s, inv s → Ends (f s) s fun _ t => inv t) :
    Preserves inv (get >>= f) :=
  hf

theorem Preserves.modify {g : σ → σ} (h : ∀ s, inv s → inv (g s)) : Preserves inv (modify g) := h

theorem Preserves.ite {c : Prop} [Decidable c] {m n : StateM σ α} (hm : Preserves inv m) (hn : Preserves inv n) :
    Preserves inv (if c then m else n) :=
  fun s hs => .ite (fun _ => hm s hs) fun _ => hn s hs

theorem Preserves.onlyIf {c : Bool} {m : StateM σ Unit} (hm : Preserves inv m) : Preserves inv (onlyIf c m) :=
  .ite hm (.pure ())

theorem Preserves.loop {body : StateM σ (Option α)} (h : Preserves inv body) (fuel : Nat) :
    Preserves inv (loop fuel body) := by
  induction fuel with
  | zero => exact .pure none
  | succ fuel ih =>
    refine Preserves.bind h fun r => ?_
    cases r with
    | some a => exact .pure _
    | none => exact ih

/-! ## Programs on a resource -/

/-- From `s`, the program only makes steps of `R`, and a result in `P` means that the resource is still `ok`. -/
def Serves (view : σ → κ) (R : κ → κ → Prop) (ok : σ → Prop) (s : σ) (m : StateM σ α) (P : α → Prop) : Prop :=
  Ends m s fun a t => ReflTransGen R (view s) (view t) ∧ (P a → ok t)

/-- From every state in which the resource is `ok`. -/
def ServesAll (view : σ → κ) (R : κ → κ → Prop) (ok : σ → Prop) (m : StateM σ α) (P : α → Prop) : Prop :=
  ∀ s, ok s → Serves view R ok s m P

/-- The program does nothing and its result is not in `P`. -/
def Gives (view : σ → κ) (m : StateM σ α) (P : α → Prop) : Prop := ∀ s, Ends m s fun a t => view t = view s ∧ ¬ P a

variable {ok : σ → Prop} {P : α → Prop} {Q : β → Prop}

theorem Gives.pure {a : α} (h : ¬ P a) : Gives view (pure a : StateM σ α) P := fun _ => ⟨rfl, h⟩

theorem Serves.steps {s : σ} {m : StateM σ α} (h : Serves view R ok s m P) : StepsAt view R s m := h.1

/-- The second program is only run on a resource that is `ok`; otherwise nothing more is done. -/
theorem Serves.bind {s : σ} {m : StateM σ α} {f : α → StateM σ β} (hm : Serves view R ok s m P)
    (hf : ∀ a, P a → ServesAll view R ok (f a) Q) (hstop : ∀ a, ¬ P a → Gives view (f a) Q) :
    Serves view R ok s (m >>= f) Q := by
  by_cases ha : P (m.run s).1
  · have hnext := hf _ ha (m.run s).2 (hm.2 ha)
    exact ⟨hm.1.trans hnext.1, hnext.2⟩
  · have hnext := hstop _ ha (m.run s).2
    refine ⟨?_, fun hq => (hnext.2 hq).elim⟩
    show ReflTransGen R (view s) (view ((f (m.run s).1).run (m.run s).2).2)
    rw [hnext.1]
    exact hm.1

theorem ServesAll.bind {m : StateM σ α} {f : α → StateM σ β} (hm : ServesAll view R ok m P)
    (hf : ∀ a, P a → ServesAll view R ok (f a) Q) (hstop : ∀ a, ¬ P a → Gives view (f a) Q) :
    ServesAll view R ok (m >>= f) Q :=
  fun s hs => (hm s hs).bind hf hstop

theorem ServesAll.andThen {m : StateM σ α} {f : α → StateM σ β} (hm : ServesAll view R ok m fun _ => True)
    (hf : ∀ a, ServesAll view R ok (f a) Q) : ServesAll view R ok (m >>= f) Q :=
  hm.bind (fun a _ => hf a) fun _ h => (h trivial).elim

theorem ServesAll.pure (a : α) : ServesAll view R ok (pure a : StateM σ α) P := fun _ hs => ⟨.refl, fun _ => hs⟩

theorem ServesAll.get_bind {f : σ → StateM σ β} (hf : ∀ s, ServesAll view R ok (f s) Q) :
    ServesAll view R ok (get >>= f) Q :=
  fun s hs => hf s s hs

theorem ServesAll.ite {c : Prop} [Decidable c] {m n : StateM σ α} (hm : ServesAll view R ok m P)
    (hn : ServesAll view R ok n P) : ServesAll view R ok (if c then m else n) P := by
  split
  · exact hm
  · exact hn

theorem ServesAll.modify_of_eq {f : σ → σ} (hview : ∀ s, view (f s) = view s) (hok : ∀ s, ok s → ok (f s))
    {P : PUnit → Prop} : ServesAll view R ok (modify f) P :=
  fun s hs => ⟨StepsAt.of_eq (m := modify f) (hview s), fun _ => hok s hs⟩

theorem ServesAll.loop {body : StateM σ (Option α)} {P : Option α → Prop} (h : ServesAll view R ok body P) (hnone : P none)
    (fuel : Nat) : ServesAll view R ok (loop fuel body) P := by
  induction fuel with
  | zero => exact .pure none
  | succ fuel ih =>
    refine h.bind (fun r hr => ?_) fun r hr => ?_
    · cases r with
      | some a => exact .pure _
      | none => exact ih
    · cases r with
      | some a => exact .pure hr
      | none => exact (hr hnone).elim

/-! ## Programs that fail -/

/-- From `s`, the program only makes steps of `R`; a result in `P` leaves the state `ok`, any other one leaves it
`bad`. -/
def Settles (view : σ → κ) (R : κ → κ → Prop) (ok bad : σ → Prop) (s : σ) (m : StateM σ α) (P : α → Prop) : Prop :=
  Ends m s fun a t => ReflTransGen R (view s) (view t) ∧ (P a → ok t) ∧ (¬ P a → bad t)

/-- From every state that is `ok`. -/
def SettlesAll (view : σ → κ) (R : κ → κ → Prop) (ok bad : σ → Prop) (m : StateM σ α) (P : α → Prop) : Prop :=
  ∀ s, ok s → Settles view R ok bad s m P

variable {bad : σ → Prop}

theorem Settles.mono {bad' : σ → Prop} {s : σ} {m : StateM σ α} (h : Settles view R ok bad s m P)
    (hbad : ∀ t, bad t → bad' t) : Settles view R ok bad' s m P :=
  ⟨h.1, h.2.1, fun hp => hbad _ (h.2.2 hp)⟩

theorem Settles.pure {s : σ} {a : α} (hs : ok s) (ha : P a) : Settles view R ok bad s (pure a : StateM σ α) P :=
  ⟨.refl, fun _ => hs, fun hp => (hp ha).elim⟩

theorem Settles.bind_ends {s : σ} {m : StateM σ α} {f : α → StateM σ β} {E : α → σ → Prop}
    (hm : Settles view R ok bad s m P) (hE : Ends m s E)
    (hf : ∀ a t, E a t → P a → ok t → Settles view R ok bad t (f a) Q)
    (hfail : ∀ a t, E a t → ¬ P a → bad t → Settles view R ok bad t (f a) Q) :
    Settles view R ok bad s (m >>= f) Q := by
  obtain ⟨hsteps, hok, hbad⟩ := hm
  have hnext : Settles view R ok bad (m.run s).2 (f (m.run s).1) Q := by
    by_cases ha : P (m.run s).1
    · exact hf _ _ hE ha (hok ha)
    · exact hfail _ _ hE ha (hbad ha)
  exact ⟨hsteps.trans hnext.1, hnext.2⟩

theorem Settles.bind {s : σ} {m : StateM σ α} {f : α → StateM σ β} (hm : Settles view R ok bad s m P)
    (hf : ∀ a t, P a → ok t → Settles view R ok bad t (f a) Q)
    (hfail : ∀ a t, ¬ P a → bad t → Settles view R ok bad t (f a) Q) : Settles view R ok bad s (m >>= f) Q :=
  hm.bind_ends (E := fun _ _ => True) trivial (fun a t _ => hf a t) fun a t _ => hfail a t

/-- A result that the program does not give may be counted either way. -/
theorem Settles.sharpen {s : σ} {m : StateM σ α} {P' : α → Prop} (h : Settles view R ok bad s m P)
    (hP : Ends m s fun a _ => P a ↔ P' a) : Settles view R ok bad s m P' :=
  ⟨h.1, fun hp => h.2.1 (hP.mpr hp), fun hp => h.2.2 fun hp' => hp (hP.mp hp')⟩

theorem Settles.total {bad' : σ → Prop} {s : σ} {m : StateM σ α} (h : Settles view R ok bad s m fun _ => True) :
    Settles view R ok bad' s m fun _ => True :=
  h.imp_right fun h => ⟨h.1, fun hp => (hp trivial).elim⟩

theorem Settles.andThen {s : σ} {m : StateM σ α} {f : α → StateM σ β}
    (hm : Settles view R ok bad s m fun _ => True) (hf : ∀ a t, ok t → Settles view R ok bad t (f a) Q) :
    Settles view R ok bad s (m >>= f) Q :=
  hm.bind (fun a t _ => hf a t) fun _ _ h => (h trivial).elim

theorem Settles.get_bind {s : σ} {f : σ → StateM σ β} (hf : Settles view R ok bad s (f s) Q) :
    Settles view R ok bad s (get >>= f) Q :=
  hf

theorem Settles.ite {s : σ} {c : Prop} [Decidable c] {m n : StateM σ α} (hm : Settles view R ok bad s m P)
    (hn : Settles view R ok bad s n P) : Settles view R ok bad s (if c then m else n) P := by
  split
  · exact hm
  · exact hn

theorem Settles.ite_pos {s : σ} {c : Prop} [Decidable c] {m n : StateM σ α} (hc : c) (hm : Settles view R ok bad s m P) :
    Settles view R ok bad s (if c then m else n) P := by
  rw [if_pos hc]
  exact hm

theorem Settles.ite_neg {s : σ} {c : Prop} [Decidable c] {m n : StateM σ α} (hc : ¬ c) (hn : Settles view R ok bad s n P) :
    Settles view R ok bad s (if c then m else n) P := by
  rw [if_neg hc]
  exact hn

theorem Settles.onlyIf {s : σ} {c : Bool} {m : StateM σ Unit} (hs : ok s)
    (hm : c = true → Settles view R ok bad s m fun _ => True) : Settles view R ok bad s (onlyIf c m) fun _ => True := by
  cases c with
  | false => exact .pure hs trivial
  | true => exact hm rfl

theorem SettlesAll.bind {m : StateM σ α} {f : α → StateM σ β} (hm : SettlesAll view R ok bad m P)
    (hf : ∀ a, P a → SettlesAll view R ok bad (f a) Q)
    (hfail : ∀ a t, ¬ P a → bad t → Settles view R ok bad t (f a) Q) : SettlesAll view R ok bad (m >>= f) Q :=
  fun s hs => (hm s hs).bind (fun a t ha ht => hf a ha t ht) hfail

theorem SettlesAll.andThen {m : StateM σ α} {f : α → StateM σ β} (hm : SettlesAll view R ok bad m fun _ => True)
    (hf : ∀ a, SettlesAll view R ok bad (f a) Q) : SettlesAll view R ok bad (m >>= f) Q :=
  hm.bind (fun a _ => hf a) fun _ _ h => (h trivial).elim

theorem SettlesAll.pure {a : α} (ha : P a) : SettlesAll view R ok bad (pure a : StateM σ α) P :=
  fun _ hs => Settles.pure hs ha

theorem SettlesAll.get_bind {f : σ → StateM σ β} (hf : ∀ s, ok s → Settles view R ok bad s (f s) Q) :
    SettlesAll view R ok bad (get >>= f) Q :=
  hf

theorem SettlesAll.ite {c : Prop} [Decidable c] {m n : StateM σ α} (hm : SettlesAll view R ok bad m P)
    (hn : SettlesAll view R ok bad n P) : SettlesAll view R ok bad (if c then m else n) P := by
  split
  · exact hm
  · exact hn

theorem SettlesAll.cases {c : Prop} [Decidable c] {m n : StateM σ α} (hm : c → SettlesAll view R ok bad m P)
    (hn : ¬ c → SettlesAll view R ok bad n P) : SettlesAll view R ok bad (if c then m else n) P := by
  split
  · exact hm ‹_›
  · exact hn ‹_›

theorem SettlesAll.onlyIf {c : Bool} {m : StateM σ Unit} (hm : SettlesAll view R ok bad m fun _ => True) :
    SettlesAll view R ok bad (onlyIf c m) fun _ => True :=
  .ite hm (.pure trivial)

theorem SettlesAll.total {bad' : σ → Prop} {m : StateM σ α} (h : SettlesAll view R ok bad m fun _ => True) :
    SettlesAll view R ok bad' m fun _ => True :=
  fun s hs => (h s hs).total

theorem SettlesAll.mono {bad' : σ → Prop} {m : StateM σ α} (h : SettlesAll view R ok bad m P)
    (hbad : ∀ t, bad t → bad' t) : SettlesAll view R ok bad' m P :=
  fun s hs => (h s hs).mono hbad

/-- A loop goes on only after rounds that do not fail. -/
theorem SettlesAll.loop {body : StateM σ (Option α)} {P : Option α → Prop} (h : SettlesAll view R ok bad body P)
    (hnone : P none) (fuel : Nat) : SettlesAll view R ok bad (loop fuel body) P := by
  induction fuel with
  | zero => exact .pure hnone
  | succ fuel ih =>
    refine h.bind (fun r hr => ?_) fun r t hr ht => ?_
    · cases r with
      | some a => exact .pure hr
      | none => exact ih
    · cases r with
      | some a => exact ⟨.refl, fun hp => (hr hp).elim, fun _ => ht⟩
      | none => exact (hr hnone).elim

end VlcWhisper.Lib
