import Mathlib.Tactic.Common
import Mathlib.Data.List.Basic

/-!
# Tables of slots

`Slots α n` is an array of `n` slots of which the first `count` are in use, well formed by construction. `toList` is
what is in use, in order, and each operation is the list operation it stands for:

* `push` appends, `put` replaces an entry, `pop` drops the last one and blanks its slot;
* `removeAt` closes the gap by moving the later entries down one slot, as C code does in a loop, and blanks the slot
  that is left over;
* `find` is the search from the first slot on.
-/

namespace VlcWhisper.Lib

variable {α : Type} {n : Nat}

/-- The first `count` slots are in use. -/
structure Slots (α : Type) (n : Nat) where
  slots : Vector α n
  count : Nat
  count_le : count ≤ n
deriving DecidableEq

namespace Slots

/-- The entries, first slot first. -/
def toList (s : Slots α n) : List α := s.slots.toList.take s.count

@[simp] theorem length_toList (s : Slots α n) : s.toList.length = s.count := by
  simp [toList, s.count_le]

theorem getElem?_toList (s : Slots α n) (i : Nat) : s.toList[i]? = if i < s.count then s.slots[i]? else none := by
  simp [toList, List.getElem?_take]

theorem toList_eq {s : Slots α n} {l : List α} (hlen : l.length = s.count)
    (h : ∀ i, i < s.count → s.slots[i]? = l[i]?) : s.toList = l := by
  apply List.ext_getElem?
  intro i
  rw [getElem?_toList]
  split
  · rename_i hi
    exact h i hi
  · rename_i hi
    rw [List.getElem?_eq_none (by omega)]

/-! ## Entries that come and go -/

/-- No slot is in use, and all are blank. -/
def empty (n : Nat) (blank : α) : Slots α n := ⟨Vector.replicate n blank, 0, Nat.zero_le n⟩

@[simp] theorem toList_empty (blank : α) : (empty n blank).toList = [] := by
  simp [empty, toList]

/-- Replace an entry. -/
def put (s : Slots α n) (i : Nat) (x : α) : Slots α n := { s with slots := s.slots.setIfInBounds i x }

@[simp] theorem count_put (s : Slots α n) (i : Nat) (x : α) : (s.put i x).count = s.count := rfl

theorem toList_put (s : Slots α n) (i : Nat) (x : α) : (s.put i x).toList = s.toList.set i x := by
  apply toList_eq
  · simp
  · intro j hj
    have hj' : j < s.count := hj
    have hn := s.count_le
    simp only [put, Vector.getElem?_setIfInBounds, List.getElem?_set, getElem?_toList, length_toList, if_pos hj']
    split
    · rename_i hij
      subst hij
      simp [hj', Nat.lt_of_lt_of_le hj' hn]
    · rfl

/-- Take the next slot. -/
def push (s : Slots α n) (x : α) (h : s.count < n) : Slots α n := ⟨s.slots.setIfInBounds s.count x, s.count + 1, h⟩

@[simp] theorem toList_push (s : Slots α n) (x : α) (h : s.count < n) : (s.push x h).toList = s.toList ++ [x] := by
  apply toList_eq
  · simp [push]
  · intro j hj
    have hj' : j < s.count + 1 := hj
    simp only [push, Vector.getElem?_setIfInBounds, List.getElem?_append, length_toList, getElem?_toList]
    rcases Nat.lt_succ_iff_lt_or_eq.mp hj' with hlt | rfl
    · simp [hlt, Nat.ne_of_gt hlt]
    · simp [h]

/-- Give up the last slot in use. -/
def pop (s : Slots α n) (blank : α) : Slots α n where
  slots := s.slots.setIfInBounds (s.count - 1) blank
  count := s.count - 1
  count_le := Nat.le_trans (Nat.sub_le _ _) s.count_le

@[simp] theorem toList_pop (s : Slots α n) (blank : α) : (s.pop blank).toList = s.toList.dropLast := by
  apply toList_eq
  · simp [pop]
  · intro j hj
    have hj' : j < s.count - 1 := hj
    rw [List.getElem?_dropLast, length_toList, if_pos hj', getElem?_toList, if_pos (by omega)]
    simp [pop, Nat.ne_of_gt hj']

/-! ## Closing a gap -/

/-- `slots[j] = slots[j + 1]`, for so many `j` on from the given one. -/
def shiftDown (slots : Vector α n) : Nat → Nat → Vector α n
  | 0, _ => slots
  | rounds + 1, j =>
    match slots[j + 1]? with
    | none => slots
    | some x => shiftDown (slots.setIfInBounds j x) rounds (j + 1)

theorem getElem?_shiftDown (slots : Vector α n) {rounds j : Nat} (h : j + rounds < n) (m : Nat) :
    (shiftDown slots rounds j)[m]? = if j ≤ m ∧ m < j + rounds then slots[m + 1]? else slots[m]? := by
  induction rounds generalizing slots j with
  | zero =>
    rw [if_neg (by omega)]
    rfl
  | succ rounds ih =>
    have hj : j + 1 < n := by omega
    have hget : slots[j + 1]? = some slots[j + 1] := by simp [hj]
    simp only [shiftDown, hget]
    rw [ih _ (by omega)]
    simp only [Vector.getElem?_setIfInBounds]
    -- Slot `j` is the one this round has written, and no later round does.
    by_cases hm : m = j
    · subst hm
      rw [if_neg (by omega), if_pos rfl, if_pos (by omega), if_pos (by omega), hget]
    · rw [if_neg (Ne.symm hm)]
      by_cases hin : j + 1 ≤ m ∧ m < j + 1 + rounds
      · rw [if_pos hin, if_neg (by omega), if_pos (by omega)]
      · rw [if_neg hin, if_neg (by omega)]

/-- Remove an entry and close the gap. -/
def removeAt (s : Slots α n) (i : Nat) (blank : α) : Slots α n :=
  pop { s with slots := shiftDown s.slots (s.count - 1 - i) i } blank

theorem toList_removeAt (s : Slots α n) {i : Nat} (h : i < s.count) (blank : α) :
    (s.removeAt i blank).toList = s.toList.eraseIdx i := by
  have hn := s.count_le
  rw [removeAt, toList_pop]
  apply List.ext_getElem?
  intro m
  rw [List.getElem?_dropLast, length_toList, List.getElem?_eraseIdx]
  by_cases hm : m < s.count - 1
  · rw [if_pos hm, getElem?_toList, if_pos (by change m < s.count; omega)]
    change (shiftDown s.slots (s.count - 1 - i) i)[m]? = _
    rw [getElem?_shiftDown _ (by omega)]
    by_cases hmi : m < i
    · rw [if_neg (by omega), if_pos hmi, getElem?_toList, if_pos (by omega)]
    · rw [if_pos (by omega), if_neg hmi, getElem?_toList, if_pos (by omega)]
  · rw [if_neg hm]
    split
    · rw [getElem?_toList, if_neg (by omega)]
    · rw [getElem?_toList, if_neg (by omega)]

/-! ## Searching -/

/-- The first slot in use from `i` on that `p` accepts. -/
def findFrom (s : Slots α n) (p : α → Bool) : Nat → Nat → Option Nat
  | 0, _ => none
  | rounds + 1, i =>
    match s.slots[i]? with
    | none => none
    | some x => if p x then some i else findFrom s p rounds (i + 1)

/-- The first slot in use that `p` accepts. -/
def find (s : Slots α n) (p : α → Bool) : Option Nat := findFrom s p s.count 0

theorem findFrom_eq (s : Slots α n) (p : α → Bool) {rounds i : Nat} (h : i + rounds = s.count) :
    findFrom s p rounds i = ((s.toList.drop i).findIdx? p).map (i + ·) := by
  induction rounds generalizing i with
  | zero =>
    have hnil : s.toList.drop i = [] := by simp; omega
    simp [hnil, findFrom]
  | succ rounds ih =>
    have hi : i < s.toList.length := by simp; omega
    have hslot : s.slots[i]? = some s.toList[i] := by
      have hget := getElem?_toList s i
      rw [if_pos (by omega), List.getElem?_eq_getElem hi] at hget
      exact hget.symm
    rw [List.drop_eq_getElem_cons hi, List.findIdx?_cons]
    simp only [findFrom, hslot]
    split
    · simp
    · rw [ih (by omega), Option.map_map]
      congr 1
      funext k
      simp
      omega

theorem find_eq (s : Slots α n) (p : α → Bool) : s.find p = s.toList.findIdx? p := by
  rw [find, findFrom_eq s p (by simp), List.drop_zero]
  cases s.toList.findIdx? p <;> simp

end Slots

end VlcWhisper.Lib
