import VlcWhisper.Lib.Ring

/-!
# Allocated blocks and who owns them

A heap of blocks that are written when they are allocated. A block that is not live cannot be freed; the heap remembers
that somebody tried. Blocks are owned by the places of an array, each by one, or are on loan to somebody else.

`OwnedBy` says that the live blocks are those that are owned or on loan. Allocating lends a block, and a loan is freed,
given to a place or taken from one; `freeAll` frees what all places own.
-/

namespace VlcWhisper.Lib

structure Heap (α : Type) where
  /-- The next block to be allocated. -/
  next : Nat
  block : Nat → Option α
  misused : Bool

namespace Heap

variable {α : Type} {h : Heap α} {place : Nat → Option Nat} {n : Nat} {loans : List Nat}

def empty : Heap α := ⟨0, fun _ => none, false⟩

/-- Allocate a block with this in it; it is the one that was next. -/
def malloc (h : Heap α) (x : α) : Heap α := { h with next := h.next + 1, block := setSlot h.block h.next (some x) }

/-- Free a block, if there is one. -/
def free (h : Heap α) : Option Nat → Heap α
  | none => h
  | some p => if (h.block p).isSome then { h with block := setSlot h.block p none } else { h with misused := true }

theorem block_malloc_self (h : Heap α) (x : α) : (h.malloc x).block h.next = some x := setSlot_self _ _ _

theorem block_malloc_of_ne (x : α) {p : Nat} (hp : p ≠ h.next) : (h.malloc x).block p = h.block p := setSlot_of_ne _ hp

theorem block_free_of_ne {p q : Nat} (hq : q ≠ p) : (h.free (some p)).block q = h.block q := by
  unfold free
  dsimp only
  split
  · exact setSlot_of_ne _ hq
  · rfl

/-- The live blocks are owned by the first `n` places, each by one, or on loan. -/
structure OwnedBy (h : Heap α) (place : Nat → Option Nat) (n : Nat) (loans : List Nat) : Prop where
  sound : h.misused = false
  fresh : ∀ p, (h.block p).isSome = true → p < h.next
  live : ∀ p, (h.block p).isSome = true ↔ p ∈ loans ∨ ∃ i < n, place i = some p
  alone : ∀ i < n, ∀ j < n, ∀ p, place i = some p → place j = some p → i = j
  apart : ∀ i < n, ∀ p, place i = some p → p ∉ loans
  nodup : loans.Nodup

theorem ownedBy_empty (hplace : ∀ i < n, place i = none) : OwnedBy (empty : Heap α) place n [] where
  sound := rfl
  fresh := by
    intro p hp
    cases hp
  live := by
    intro p
    constructor
    · intro hp
      cases hp
    · rintro (hp | ⟨i, hi, hp⟩)
      · cases hp
      · rw [hplace i hi] at hp
        cases hp
  alone := by
    intro i hi j _ p hp
    rw [hplace i hi] at hp
    cases hp
  apart := by
    intro i hi p hp
    rw [hplace i hi] at hp
    cases hp
  nodup := List.nodup_nil

theorem OwnedBy.malloc (hown : OwnedBy h place n loans) (x : α) : OwnedBy (h.malloc x) place n (h.next :: loans) where
  sound := hown.sound
  fresh := by
    intro p hp
    show p < h.next + 1
    by_cases hnew : p = h.next
    · omega
    · rw [block_malloc_of_ne x hnew] at hp
      have hlt := hown.fresh p hp
      omega
  live := by
    intro p
    by_cases hnew : p = h.next
    · rw [hnew, block_malloc_self]
      exact ⟨fun _ => .inl List.mem_cons_self, fun _ => rfl⟩
    · rw [block_malloc_of_ne x hnew, hown.live p, List.mem_cons]
      constructor
      · rintro (hp | hp)
        · exact .inl (.inr hp)
        · exact .inr hp
      · rintro ((hp | hp) | hp)
        · exact absurd hp hnew
        · exact .inl hp
        · exact .inr hp
  alone := hown.alone
  apart := by
    intro i hi p hp hmem
    rcases List.mem_cons.mp hmem with rfl | hmem
    · have hlt := hown.fresh _ ((hown.live _).mpr (.inr ⟨i, hi, hp⟩))
      omega
    · exact hown.apart i hi p hp hmem
  nodup := by
    refine List.nodup_cons.mpr ⟨?_, hown.nodup⟩
    intro hmem
    have hlt := hown.fresh _ ((hown.live _).mpr (.inl hmem))
    omega

theorem OwnedBy.free {p : Nat} (hown : OwnedBy h place n (p :: loans)) : OwnedBy (h.free (some p)) place n loans := by
  have hlive : (h.block p).isSome = true := (hown.live p).mpr (.inl List.mem_cons_self)
  obtain ⟨hnot, hnodup⟩ := List.nodup_cons.mp hown.nodup
  have hfree : h.free (some p) = { h with block := setSlot h.block p none } := if_pos hlive
  have hgone : (h.free (some p)).block p = none := by
    rw [hfree]
    exact setSlot_self _ _ _
  have hother {q : Nat} (hq : q ≠ p) : (h.free (some p)).block q = h.block q := block_free_of_ne hq
  refine ⟨?_, ?_, ?_, hown.alone, ?_, hnodup⟩
  · rw [hfree]
    exact hown.sound
  · intro q hq
    have hne : q ≠ p := by
      rintro rfl
      rw [hgone] at hq
      cases hq
    rw [hother hne] at hq
    rw [hfree]
    exact hown.fresh q hq
  · intro q
    by_cases hq : q = p
    · subst hq
      rw [hgone]
      constructor
      · intro hp
        cases hp
      · rintro (hp | ⟨i, hi, hp⟩)
        · exact absurd hp hnot
        · exact absurd List.mem_cons_self (hown.apart i hi q hp)
    · rw [hother hq, hown.live q, List.mem_cons]
      constructor
      · rintro ((hp | hp) | hp)
        · exact absurd hp hq
        · exact .inl hp
        · exact .inr hp
      · rintro (hp | hp)
        · exact .inl (.inr hp)
        · exact .inr hp
  · exact fun i hi q hq hmem => hown.apart i hi q hq (List.mem_cons_of_mem p hmem)

theorem OwnedBy.regroup (hown : OwnedBy h place n loans) {place' : Nat → Option Nat} {m : Nat}
    (hsame : ∀ p, (∃ i < m, place' i = some p) ↔ ∃ i < n, place i = some p)
    (halone : ∀ i < m, ∀ j < m, ∀ p, place' i = some p → place' j = some p → i = j) : OwnedBy h place' m loans where
  sound := hown.sound
  fresh := hown.fresh
  live := by
    intro p
    rw [hown.live p, hsame p]
  alone := halone
  apart := by
    intro i hi p hp
    obtain ⟨j, hj, hq⟩ := (hsame p).mp ⟨i, hi, hp⟩
    exact hown.apart j hj p hq
  nodup := hown.nodup

theorem OwnedBy.give {p k : Nat} (hown : OwnedBy h place n (p :: loans)) (hk : k < n) (hplace : place k = none) :
    OwnedBy h (setSlot place k (some p)) n loans := by
  obtain ⟨hnot, hnodup⟩ := List.nodup_cons.mp hown.nodup
  have hcases {i q : Nat} (hi : setSlot place k (some p) i = some q) : (i = k ∧ q = p) ∨ place i = some q := by
    by_cases hik : i = k
    · subst hik
      rw [setSlot_self] at hi
      exact .inl ⟨rfl, (Option.some.inj hi).symm⟩
    · rw [setSlot_of_ne _ hik] at hi
      exact .inr hi
  have hnone {i : Nat} (hi : i < n) : place i ≠ some p := by
    intro hp
    exact hown.apart i hi p hp List.mem_cons_self
  refine ⟨hown.sound, hown.fresh, ?_, ?_, ?_, hnodup⟩
  · intro q
    rw [hown.live q, List.mem_cons]
    constructor
    · rintro ((rfl | hq) | ⟨i, hi, hq⟩)
      · exact .inr ⟨k, hk, setSlot_self _ _ _⟩
      · exact .inl hq
      · have hik : i ≠ k := by
          rintro rfl
          rw [hplace] at hq
          cases hq
        exact .inr ⟨i, hi, by rw [setSlot_of_ne _ hik, hq]⟩
    · rintro (hq | ⟨i, hi, hq⟩)
      · exact .inl (.inr hq)
      · rcases hcases hq with ⟨-, rfl⟩ | hq
        · exact .inl (.inl rfl)
        · exact .inr ⟨i, hi, hq⟩
  · intro i hi j hj q hiq hjq
    rcases hcases hiq with ⟨rfl, rfl⟩ | hiq'
    · rcases hcases hjq with ⟨rfl, -⟩ | hjq'
      · rfl
      · exact absurd hjq' (hnone hj)
    · rcases hcases hjq with ⟨rfl, rfl⟩ | hjq'
      · exact absurd hiq' (hnone hi)
      · exact hown.alone i hi j hj q hiq' hjq'
  · intro i hi q hq hmem
    rcases hcases hq with ⟨-, rfl⟩ | hq
    · exact hnot hmem
    · exact hown.apart i hi q hq (List.mem_cons_of_mem p hmem)

theorem OwnedBy.take {p k : Nat} (hown : OwnedBy h place n loans) (hk : k < n) (hplace : place k = some p) :
    OwnedBy h (setSlot place k none) n (p :: loans) := by
  have hcases {i q : Nat} (hi : setSlot place k none i = some q) : i ≠ k ∧ place i = some q := by
    have hik : i ≠ k := by
      rintro rfl
      rw [setSlot_self] at hi
      cases hi
    rw [setSlot_of_ne _ hik] at hi
    exact ⟨hik, hi⟩
  refine ⟨hown.sound, hown.fresh, ?_, ?_, ?_, List.nodup_cons.mpr ⟨hown.apart k hk p hplace, hown.nodup⟩⟩
  · intro q
    rw [hown.live q, List.mem_cons]
    constructor
    · rintro (hq | ⟨i, hi, hq⟩)
      · exact .inl (.inr hq)
      · by_cases hik : i = k
        · subst hik
          exact .inl (.inl (Option.some.inj (hq.symm.trans hplace)))
        · exact .inr ⟨i, hi, by rw [setSlot_of_ne _ hik, hq]⟩
    · rintro ((rfl | hq) | ⟨i, hi, hq⟩)
      · exact .inr ⟨k, hk, hplace⟩
      · exact .inl hq
      · exact .inr ⟨i, hi, (hcases hq).2⟩
  · exact fun i hi j hj q hiq hjq => hown.alone i hi j hj q (hcases hiq).2 (hcases hjq).2
  · intro i hi q hq hmem
    obtain ⟨hik, hq⟩ := hcases hq
    rcases List.mem_cons.mp hmem with rfl | hmem
    · exact hik (hown.alone i hi k hk q hq hplace)
    · exact hown.apart i hi q hq hmem

theorem OwnedBy.perm (hown : OwnedBy h place n loans) {loans' : List Nat} (hperm : loans.Perm loans') :
    OwnedBy h place n loans' where
  sound := hown.sound
  fresh := hown.fresh
  live := by
    intro p
    rw [hown.live p, hperm.mem_iff]
  alone := hown.alone
  apart := by
    intro i hi p hp
    rw [← hperm.mem_iff]
    exact hown.apart i hi p hp
  nodup := hperm.nodup_iff.mp hown.nodup

/-- Free what the first `k` places own. -/
def freeAll (h : Heap α) (place : Nat → Option Nat) : Nat → Heap α
  | 0 => h
  | k + 1 => (h.freeAll place k).free (place k)

theorem OwnedBy.freeAll (hown : OwnedBy h place n loans) {k : Nat} (hk : k ≤ n) :
    OwnedBy (h.freeAll place k) (fun i => if i < k then none else place i) n loans := by
  induction k with
  | zero =>
    have hplace : (fun i => if i < 0 then none else place i) = place := by
      funext i
      exact if_neg (Nat.not_lt_zero i)
    rw [hplace]
    exact hown
  | succ k ih =>
    have hbefore := ih (by omega)
    have hstep : (fun i => if i < k + 1 then none else place i) = setSlot (fun i => if i < k then none else place i) k none := by
      funext i
      unfold setSlot
      dsimp only
      by_cases hi : i = k
      · rw [if_pos hi, if_pos (by omega)]
      · rw [if_neg hi]
        by_cases hlt : i < k
        · rw [if_pos hlt, if_pos (by omega)]
        · rw [if_neg hlt, if_neg (by omega)]
    rw [hstep, Heap.freeAll]
    cases hp : place k with
    | none =>
      have hsame : setSlot (fun i => if i < k then none else place i) k none = fun i => if i < k then none else place i := by
        funext i
        unfold setSlot
        by_cases hi : i = k
        · rw [if_pos hi, hi, if_neg (Nat.lt_irrefl k), hp]
        · rw [if_neg hi]
      rw [hsame]
      exact hbefore
    | some p => exact (hbefore.take (p := p) (by omega) (by rw [if_neg (Nat.lt_irrefl k), hp])).free

theorem OwnedBy.live_freeAll (hown : OwnedBy h place n loans) :
    (h.freeAll place n).misused = false ∧ ∀ p, ((h.freeAll place n).block p).isSome = true ↔ p ∈ loans := by
  have hfreed := hown.freeAll (Nat.le_refl n)
  refine ⟨hfreed.sound, fun p => ?_⟩
  rw [hfreed.live p]
  constructor
  · rintro (hp | ⟨i, hi, hp⟩)
    · exact hp
    · rw [if_pos hi] at hp
      cases hp
  · exact .inl

end Heap

end VlcWhisper.Lib
