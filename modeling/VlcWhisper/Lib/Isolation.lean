import VlcWhisper.Lib.Machine
import Mathlib

/-!
# Work under locks

Parties work on one store. Each works at a place, with the lock of the place from its first step to its last one, and on
the keys of the place only. Places with different locks have no key in common.

Main result: `Isolated`, and that it is kept. Whatever the others do, the state of a party and the values at its keys
are those of the party's own inputs, as if it were alone with the store that it found.
-/

namespace VlcWhisper.Lib

/-- How parties work: the lock and the keys of a place, and the step of a party there. -/
structure Discipline (π μ κ ν σ ι : Type*) where
  lock : π → μ
  keys : π → Set κ
  work : π → σ × (κ → ν) → ι → σ × (κ → ν)
  /-- Other keys are not written. -/
  frame : ∀ p c i, Set.EqOn (work p c i).2 c.2 (keys p)ᶜ
  /-- Other keys are not read. -/
  congr : ∀ p st f g i, Set.EqOn f g (keys p) →
    (work p (st, f) i).1 = (work p (st, g) i).1 ∧ Set.EqOn (work p (st, f) i).2 (work p (st, g) i).2 (keys p)
  apart : ∀ p q, lock p ≠ lock q → Disjoint (keys p) (keys q)

/-- A party: where it works, its state, and its history, which is the state and the store that it began with and its
inputs since then. -/
structure Party (π κ ν σ ι : Type*) where
  place : π
  state : σ
  began : σ × (κ → ν)
  inputs : List ι

structure LockedStore (ω π μ κ ν σ ι : Type*) where
  store : κ → ν
  holder : μ → Option ω
  party : ω → Option (Party π κ ν σ ι)

namespace LockedStore

variable {ω π μ κ ν σ ι : Type*} (D : Discipline π μ κ ν σ ι) (s : LockedStore ω π μ κ ν σ ι)

/-- Nobody works. -/
def idle (store : κ → ν) : LockedStore ω π μ κ ν σ ι := ⟨store, fun _ => none, fun _ => none⟩

/-- Take the lock and begin, if nobody has it. -/
def enter [DecidableEq ω] [DecidableEq μ] (who : ω) (p : π) (st : σ) : LockedStore ω π μ κ ν σ ι :=
  if (s.party who).isSome || (s.holder (D.lock p)).isSome then s
  else { s with
    holder := Function.update s.holder (D.lock p) (some who)
    party := Function.update s.party who (some ⟨p, st, (st, s.store), []⟩) }

def work [DecidableEq ω] (who : ω) (i : ι) : LockedStore ω π μ κ ν σ ι :=
  match s.party who with
  | none => s
  | some a =>
    let next := D.work a.place (a.state, s.store) i
    { s with
      store := next.2
      party := Function.update s.party who (some { a with state := next.1, inputs := a.inputs ++ [i] }) }

/-- End, and give the lock back. -/
def leave [DecidableEq ω] [DecidableEq μ] (who : ω) : LockedStore ω π μ κ ν σ ι :=
  match s.party who with
  | none => s
  | some a =>
    { s with holder := Function.update s.holder (D.lock a.place) none, party := Function.update s.party who none }

/-- A key is written without a lock. -/
def write [DecidableEq κ] (k : κ) (v : ν) : LockedStore ω π μ κ ν σ ι := { s with store := Function.update s.store k v }

/-! ## Isolation -/

/-- A party has its lock, and has got to where it is from how it began by its own inputs. -/
structure Alone (Begun : π → σ × (κ → ν) → Prop) (s : LockedStore ω π μ κ ν σ ι) (who : ω) (a : Party π κ ν σ ι) :
    Prop where
  holds : s.holder (D.lock a.place) = some who
  begun : Begun a.place a.began
  state : (run (D.work a.place) a.began a.inputs).1 = a.state
  values : Set.EqOn (run (D.work a.place) a.began a.inputs).2 s.store (D.keys a.place)

def Isolated (Begun : π → σ × (κ → ν) → Prop) (s : LockedStore ω π μ κ ν σ ι) : Prop :=
  ∀ who a, s.party who = some a → Alone D Begun s who a

variable {D} {s} {Begun : π → σ × (κ → ν) → Prop} {who other : ω} {a b : Party π κ ν σ ι}

theorem isolated_idle (store : κ → ν) : Isolated D Begun (idle store : LockedStore ω π μ κ ν σ ι) := nofun

theorem Isolated.lock_ne (h : Isolated D Begun s) (ha : s.party who = some a) (hb : s.party other = some b)
    (hne : who ≠ other) : D.lock a.place ≠ D.lock b.place := by
  intro hlock
  have hholder := (h who a ha).holds
  rw [hlock, (h other b hb).holds] at hholder
  exact hne (Option.some.inj hholder).symm

theorem Isolated.disjoint (h : Isolated D Begun s) (ha : s.party who = some a) (hb : s.party other = some b)
    (hne : who ≠ other) : Disjoint (D.keys a.place) (D.keys b.place) :=
  D.apart _ _ (h.lock_ne ha hb hne)

theorem Isolated.enter [DecidableEq ω] [DecidableEq μ] (h : Isolated D Begun s) {p : π} {st : σ}
    (hbegun : Begun p (st, s.store)) : Isolated D Begun (s.enter D who p st) := by
  unfold LockedStore.enter
  split_ifs with hbusy
  · exact h
  · simp only [Bool.or_eq_true, not_or, Bool.not_eq_true, Option.isSome_eq_false_iff,
      Option.isNone_iff_eq_none] at hbusy
    intro v a ha
    by_cases hv : v = who
    · subst hv
      obtain rfl : ⟨p, st, (st, s.store), []⟩ = a := by simpa using ha
      exact ⟨by simp, hbegun, rfl, Set.eqOn_refl _ _⟩
    · have ha : s.party v = some a := by simpa [hv] using ha
      have hold := h v a ha
      -- nobody else has the lock that was free
      have hlock : D.lock a.place ≠ D.lock p := by
        intro hlock
        have hholder := hold.holds
        simp [hlock, hbusy.2] at hholder
      exact ⟨by simpa [hlock] using hold.holds, hold.begun, hold.state, hold.values⟩

theorem Isolated.work [DecidableEq ω] (h : Isolated D Begun s) (i : ι) : Isolated D Begun (s.work D who i) := by
  unfold LockedStore.work
  split
  · exact h
  · rename_i a ha
    have hold := h who a ha
    -- what the party's step finds is what it would find alone
    have hcongr := D.congr a.place a.state _ _ i hold.values
    have hstep : run (D.work a.place) a.began (a.inputs ++ [i]) =
        D.work a.place (a.state, (run (D.work a.place) a.began a.inputs).2) i := by
      rw [run_append, ← hold.state]
      rfl
    intro v b hb
    by_cases hv : v = who
    · subst hv
      obtain rfl : { a with state := (D.work a.place (a.state, s.store) i).1, inputs := a.inputs ++ [i] } = b := by
        simpa using hb
      refine ⟨hold.holds, hold.begun, ?_, ?_⟩
      · exact (congrArg Prod.fst hstep).trans hcongr.1
      · intro k hk
        exact (congrFun (congrArg Prod.snd hstep) k).trans (hcongr.2 hk)
    · have hb : s.party v = some b := by simpa [hv] using hb
      have hother := h v b hb
      refine ⟨hother.holds, hother.begun, hother.state, fun k hk => ?_⟩
      have hapart : k ∉ D.keys a.place := Set.disjoint_left.mp (h.disjoint hb ha hv) hk
      exact (hother.values hk).trans (D.frame a.place (a.state, s.store) i hapart).symm

theorem Isolated.leave [DecidableEq ω] [DecidableEq μ] (h : Isolated D Begun s) : Isolated D Begun (s.leave D who) := by
  unfold LockedStore.leave
  split
  · exact h
  · rename_i a ha
    intro v b hb
    by_cases hv : v = who
    · simp [hv] at hb
    · have hb : s.party v = some b := by simpa [hv] using hb
      have hother := h v b hb
      have hlock := h.lock_ne hb ha hv
      exact ⟨by simpa [hlock] using hother.holds, hother.begun, hother.state, hother.values⟩

theorem Isolated.write [DecidableEq κ] (h : Isolated D Begun s) {k : κ} (hk : ∀ p, k ∉ D.keys p) (v : ν) :
    Isolated D Begun (s.write k v) := by
  intro who a ha
  have hold := h who a ha
  refine ⟨hold.holds, hold.begun, hold.state, fun k' hk' => ?_⟩
  have hne : k' ≠ k := by
    rintro rfl
    exact hk _ hk'
  simpa [LockedStore.write, hne] using hold.values hk'

/-! ## Values -/

/-- What each party alone keeps of the values at its keys, all of them together keep of the store. -/
theorem Isolated.good_work [DecidableEq ω] {Good : κ → ν → Prop} (h : Isolated D Begun s)
    (hruns : ∀ p began inputs k, Begun p began → k ∈ D.keys p → Good k ((run (D.work p) began inputs).2 k))
    (hs : ∀ k, Good k (s.store k)) (i : ι) (k : κ) : Good k ((s.work D who i).store k) := by
  cases ha : s.party who with
  | none => simpa [LockedStore.work, ha] using hs k
  | some a =>
    by_cases hk : k ∈ D.keys a.place
    · have hparty : (s.work D who i).party who = some { a with
          state := (D.work a.place (a.state, s.store) i).1, inputs := a.inputs ++ [i] } := by
        simp [LockedStore.work, ha]
      have hnext := h.work i who _ hparty
      have hvalue := hnext.values hk
      rw [← hvalue]
      exact hruns _ _ _ _ hnext.begun hk
    · have hsame : (s.work D who i).store k = s.store k := by
        simpa [LockedStore.work, ha] using D.frame a.place (a.state, s.store) i hk
      rw [hsame]
      exact hs k

end LockedStore

end VlcWhisper.Lib
