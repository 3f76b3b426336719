import Mathlib.Tactic.Common
import Mathlib.Data.List.Basic
import Mathlib.Data.List.Range
import Mathlib.Data.List.DropRight

/-!
# Ring buffers and the lists they hold

`Ring α n` is a circular buffer of `n` slots with the next write position and a count, well formed by
construction. `toList` is its contents, oldest first, and each operation is the list operation it stands for:

* `push` appends, `overwrite` appends and forgets the oldest when full, `pop` takes the head;
* `removeAt` closes the gap by moving the newer entries down one slot, as C code does in a loop;
* `grow` copies the contents in order into a larger buffer; `vacate` and `growWith` also say what is left in the slots
  that no entry is in (`InUse`).

A ring that is only overwritten holds the last `n` of what was written (`rtake_concat`).
-/

namespace VlcWhisper.Lib

/-! ## Indices -/

theorem wrap_eq {x n : Nat} (h : x < 2 * n) : x % n = if x < n then x else x - n := by
  split
  · rename_i hlt
    exact Nat.mod_eq_of_lt hlt
  · rename_i hge
    rw [Nat.mod_eq_sub_mod (by omega), Nat.mod_eq_of_lt (by omega)]

/-- An array with one element replaced. -/
def setSlot {α : Type} (slots : Nat → α) (i : Nat) (x : α) : Nat → α := fun j => if j = i then x else slots j

@[simp] theorem setSlot_self {α : Type} (slots : Nat → α) (i : Nat) (x : α) : setSlot slots i x i = x := by
  simp [setSlot]

theorem setSlot_of_ne {α : Type} {slots : Nat → α} {i j : Nat} (x : α) (h : j ≠ i) :
    setSlot slots i x j = slots j := by
  simp [setSlot, h]

structure Ring (α : Type) (n : Nat) where
  slots : Nat → α
  /-- The next write position. -/
  head : Nat
  count : Nat
  head_lt : head < n
  count_le : count ≤ n

namespace Ring

variable {α : Type} {n : Nat}

/-- The slot of the oldest entry. -/
def tail (r : Ring α n) : Nat := (r.head + n - r.count) % n

/-- The slot of the `i`-th oldest entry. -/
def index (r : Ring α n) (i : Nat) : Nat := (r.tail + i) % n

/-- The `i`-th oldest entry. -/
def get (r : Ring α n) (i : Nat) : α := r.slots (r.index i)

/-- The contents, oldest first. -/
def toList (r : Ring α n) : List α := (List.range r.count).map r.get

@[simp] theorem length_toList (r : Ring α n) : r.toList.length = r.count := by
  simp [toList]

theorem toList_getElem? (r : Ring α n) (i : Nat) :
    r.toList[i]? = if i < r.count then some (r.get i) else none := by
  simp only [toList, List.getElem?_map]
  split
  · rename_i h
    simp [List.getElem?_range h]
  · rename_i h
    simp [List.getElem?_eq_none (show (List.range r.count).length ≤ i by simpa using h)]

theorem toList_eq {r : Ring α n} {l : List α} (hlen : l.length = r.count)
    (h : ∀ i, i < r.count → l[i]? = some (r.get i)) : r.toList = l := by
  apply List.ext_getElem?
  intro i
  rw [toList_getElem?]
  split
  · rename_i hi
    exact (h i hi).symm
  · rename_i hi
    exact (List.getElem?_eq_none (by omega)).symm

theorem tail_eq (r : Ring α n) : r.tail = if r.head < r.count then r.head + n - r.count else r.head - r.count := by
  have h1 := r.head_lt
  have h2 := r.count_le
  rw [tail, wrap_eq (by omega)]
  split <;> split <;> omega

theorem tail_lt (r : Ring α n) : r.tail < n := by
  have h1 := r.head_lt
  rw [tail]
  exact Nat.mod_lt _ (by omega)

theorem index_eq (r : Ring α n) {i : Nat} (h : i ≤ n) :
    r.index i = if r.tail + i < n then r.tail + i else r.tail + i - n := by
  have h1 := r.tail_lt
  exact wrap_eq (by omega)

theorem index_inj (r : Ring α n) {i j : Nat} (hi : i < n) (hj : j < n) : r.index i = r.index j ↔ i = j := by
  have h1 := r.tail_lt
  rw [index_eq r hi.le, index_eq r hj.le]
  split <;> split <;> omega

theorem index_count (r : Ring α n) : r.index r.count = r.head := by
  have h1 := r.head_lt
  have h2 := r.count_le
  rw [index_eq r h2, tail_eq]
  split <;> split <;> omega

theorem index_succ (r : Ring α n) (i : Nat) : (r.index i + 1) % n = r.index (i + 1) := by
  rw [index, index, Nat.mod_add_mod, Nat.add_assoc]

/-- The head is no entry's slot, except for the oldest's when the ring is full. -/
theorem index_ne_head (r : Ring α n) {i : Nat} (hpos : 0 < i) (hi : i < r.count) : r.index i ≠ r.head := by
  have h1 := r.tail_lt
  have h2 := r.count_le
  rw [← index_count, index_eq r (by omega), index_eq r h2]
  split <;> split <;> omega

/-- The `i`-th newest entry. -/
def newest (r : Ring α n) (i : Nat) : α := r.slots ((r.head + n - 1 - i) % n)

/-- The contents, newest first. -/
def newestFirst (r : Ring α n) : List α := (List.range r.count).map r.newest

theorem newest_eq (r : Ring α n) {i : Nat} (h : i < r.count) : r.newest i = r.get (r.count - 1 - i) := by
  have h1 := r.head_lt
  have h2 := r.count_le
  rw [newest, get, index_eq r (by omega), wrap_eq (by omega), tail_eq]
  congr 1
  split <;> split <;> split <;> omega

theorem newestFirst_eq (r : Ring α n) : r.newestFirst = r.toList.reverse := by
  apply List.ext_getElem?
  intro i
  by_cases h : i < r.count
  · rw [List.getElem?_reverse (by simpa using h), length_toList, toList_getElem?, if_pos (by omega),
      newestFirst, List.getElem?_map, List.getElem?_range h, Option.map_some, newest_eq r h]
  · rw [List.getElem?_eq_none (by simp [newestFirst]; omega), List.getElem?_eq_none (by simp; omega)]

/-! ## Writing -/

def empty (n : Nat) (h : 0 < n) (x : α) : Ring α n := ⟨fun _ => x, 0, 0, h, Nat.zero_le n⟩

/-- Forget the contents. -/
def clear (r : Ring α n) : Ring α n := ⟨r.slots, 0, 0, Nat.zero_lt_of_lt r.head_lt, Nat.zero_le n⟩

@[simp] theorem toList_empty (h : 0 < n) (x : α) : (empty n h x).toList = [] := rfl

@[simp] theorem toList_clear (r : Ring α n) : r.clear.toList = [] := rfl

@[simp] theorem count_clear (r : Ring α n) : r.clear.count = 0 := rfl

theorem count_eq_zero_iff (r : Ring α n) : r.count = 0 ↔ r.toList = [] := by
  rw [← length_toList, List.length_eq_zero_iff]

/-- Write at the head; the ring must have room. -/
def push (r : Ring α n) (x : α) (h : r.count < n) : Ring α n :=
  ⟨setSlot r.slots r.head x, (r.head + 1) % n, r.count + 1, Nat.mod_lt _ (by omega), h⟩

theorem tail_push (r : Ring α n) (x : α) (h : r.count < n) : (r.push x h).tail = r.tail := by
  have h1 := r.head_lt
  have hhead : (r.push x h).head = if r.head + 1 < n then r.head + 1 else r.head + 1 - n := wrap_eq (by omega)
  have hcount : (r.push x h).count = r.count + 1 := rfl
  rw [tail_eq, tail_eq, hhead, hcount]
  split <;> split <;> split <;> omega

@[simp] theorem toList_push (r : Ring α n) (x : α) (h : r.count < n) :
    (r.push x h).toList = r.toList ++ [x] := by
  have hindex : ∀ i, (r.push x h).index i = r.index i := by
    intro i
    rw [index, index, tail_push]
  apply toList_eq
  · simp [push]
  · intro i hi
    have hi' : i < r.count + 1 := hi
    rw [get, hindex]
    change _ = some (setSlot r.slots r.head x (r.index i))
    rw [← index_count]
    by_cases heq : i = r.count
    · subst heq
      simp
    · rw [setSlot_of_ne]
      · rw [List.getElem?_append_left (by simp; omega), toList_getElem?, if_pos (by omega), get]
      · rw [Ne, index_inj r (by omega) h]
        exact heq

/-- The entries but the oldest. -/
def dropOldest (r : Ring α n) : Ring α n :=
  ⟨r.slots, r.head, r.count - 1, r.head_lt, by have := r.count_le; omega⟩

theorem tail_dropOldest (r : Ring α n) (h : 0 < r.count) : r.dropOldest.tail = r.index 1 := by
  have h1 := r.head_lt
  have h2 := r.count_le
  have hcount : r.dropOldest.count = r.count - 1 := rfl
  have hhead : r.dropOldest.head = r.head := rfl
  rw [index_eq r (by omega), tail_eq, tail_eq, hcount, hhead]
  split <;> split <;> split <;> omega

theorem index_dropOldest (r : Ring α n) (h : 0 < r.count) (i : Nat) :
    r.dropOldest.index i = r.index (i + 1) := by
  rw [index, tail_dropOldest r h, index, index, Nat.mod_add_mod, Nat.add_assoc, Nat.add_comm 1 i]

theorem toList_dropOldest (r : Ring α n) : r.dropOldest.toList = r.toList.tail := by
  apply toList_eq
  · simp [dropOldest]
  · intro i hi
    have hi' : i < r.count - 1 := hi
    rw [List.getElem?_tail, toList_getElem?, if_pos (by omega), get, get, index_dropOldest r (by omega)]
    rfl

/-- The entries but the `k` oldest. -/
def drop (r : Ring α n) (k : Nat) : Ring α n :=
  ⟨r.slots, r.head, r.count - k, r.head_lt, by have := r.count_le; omega⟩

theorem toList_drop (r : Ring α n) (k : Nat) : (r.drop k).toList = r.toList.drop k := by
  induction k with
  | zero => rfl
  | succ k ih =>
    have hstep : r.drop (k + 1) = (r.drop k).dropOldest := by
      simp only [drop, dropOldest, Nat.sub_sub]
    rw [hstep, toList_dropOldest, ih, List.tail_drop]

/-- Take the oldest entry. -/
def pop (r : Ring α n) : Option (α × Ring α n) :=
  if r.count = 0 then none else some (r.get 0, r.dropOldest)

theorem toList_of_pop_eq_none {r : Ring α n} (h : r.pop = none) : r.toList = [] := by
  have h0 : r.count = 0 := by
    by_contra hne
    simp [pop, hne] at h
  exact List.length_eq_zero_iff.mp (by rw [length_toList, h0])

theorem toList_of_pop_eq_some {r s : Ring α n} {x : α} (h : r.pop = some (x, s)) :
    r.toList = x :: s.toList := by
  simp only [pop] at h
  split at h
  · cases h
  · rename_i hne
    obtain ⟨rfl, rfl⟩ : r.get 0 = x ∧ r.dropOldest = s := by simpa using h
    have hhead : r.toList[0]? = some (r.get 0) := by
      rw [toList_getElem?, if_pos (by omega)]
    rw [toList_dropOldest]
    cases hl : r.toList with
    | nil => simp [hl] at hhead
    | cons y ys =>
      simp only [hl, List.getElem?_cons_zero, Option.some.injEq] at hhead
      rw [hhead, List.tail_cons]

/-- Write at the head, over the oldest entry if the ring is full. -/
def overwrite (r : Ring α n) (x : α) : Ring α n :=
  if h : r.count < n then r.push x h
  else ⟨setSlot r.slots r.head x, (r.head + 1) % n, r.count, Nat.mod_lt _ (by have := r.head_lt; omega),
    r.count_le⟩

theorem toList_overwrite (r : Ring α n) (x : α) :
    (r.overwrite x).toList = (if r.count < n then r.toList else r.toList.tail) ++ [x] := by
  rw [overwrite]
  split
  · exact toList_push r x _
  · rename_i hfull
    -- the oldest entry makes room, then this is a push
    have h1 := r.head_lt
    have h2 := r.count_le
    have hroom : r.dropOldest.count < n := by
      change r.count - 1 < n
      omega
    rw [← toList_dropOldest, ← toList_push r.dropOldest x hroom]
    congr 1
    simp only [push, dropOldest, mk.injEq, true_and]
    omega

/-- The last entries of a longer list: one more, and the oldest goes if there were `n`. -/
theorem rtake_concat (hn : 0 < n) (l : List α) (x : α) :
    (l ++ [x]).rtake n = (if l.length < n then l.rtake n else (l.rtake n).tail) ++ [x] := by
  have hle : l.length + 1 - n ≤ l.length := by omega
  rw [List.rtake, List.rtake, List.length_append, List.length_singleton, List.drop_append_of_le_length hle]
  split
  · rename_i hlt
    have h0 : l.length + 1 - n = 0 := by omega
    have h1 : l.length - n = 0 := by omega
    rw [h0, h1]
  · rename_i hge
    have h1 : l.length + 1 - n = l.length - n + 1 := by omega
    rw [h1, List.tail_drop]

/-- Copy the contents, oldest first, to the front of a larger buffer. -/
def grow (r : Ring α n) (m : Nat) (h : n < m) : Ring α m :=
  ⟨fun i => r.get i, r.count, r.count, by have := r.count_le; omega, by have := r.count_le; omega⟩

theorem index_grow (r : Ring α n) (m : Nat) (h : n < m) {i : Nat} (hi : i < r.count) : (r.grow m h).index i = i := by
  have h2 := r.count_le
  have htail : (r.grow m h).tail = 0 := by
    rw [tail_eq]
    simp [grow]
  rw [index, htail, Nat.zero_add, Nat.mod_eq_of_lt (by omega)]

theorem toList_grow (r : Ring α n) (m : Nat) (h : n < m) : (r.grow m h).toList = r.toList := by
  have h2 := r.count_le
  apply toList_eq
  · simp [grow]
  · intro i hi
    have hi' : i < r.count := hi
    rw [toList_getElem?, if_pos hi']
    change some (r.get i) = some (r.get ((r.grow m h).index i))
    rw [index_grow r m h hi']

/-! ## Slots in use -/

theorem index_lt (r : Ring α n) (i : Nat) : r.index i < n := Nat.mod_lt _ (Nat.zero_lt_of_lt r.head_lt)

/-- An entry is in this slot. -/
def InUse (r : Ring α n) (j : Nat) : Prop := ∃ i < r.count, r.index i = j

theorem mem_toList {r : Ring α n} {x : α} (h : x ∈ r.toList) : ∃ j < n, r.InUse j ∧ r.slots j = x := by
  obtain ⟨i, hi, rfl⟩ := List.mem_map.mp h
  exact ⟨r.index i, r.index_lt i, ⟨i, List.mem_range.mp hi, rfl⟩, rfl⟩

theorem not_inUse_head {r : Ring α n} (h : r.count < n) : ¬ r.InUse r.head := by
  rintro ⟨i, hi, hindex⟩
  rw [← index_count, index_inj r (by omega) h] at hindex
  omega

theorem inUse_push (r : Ring α n) (x : α) (h : r.count < n) (j : Nat) :
    (r.push x h).InUse j ↔ r.InUse j ∨ j = r.head := by
  have hindex (i : Nat) : (r.push x h).index i = r.index i := by
    rw [index, index, tail_push]
  have hcount : (r.push x h).count = r.count + 1 := rfl
  constructor
  · rintro ⟨i, hi, rfl⟩
    rw [hindex]
    by_cases hlast : i = r.count
    · rw [hlast, index_count]
      exact .inr rfl
    · exact .inl ⟨i, by omega, rfl⟩
  · rintro (⟨i, hi, rfl⟩ | rfl)
    · exact ⟨i, by omega, hindex i⟩
    · exact ⟨r.count, by omega, (hindex _).trans r.index_count⟩

/-- Drop the oldest entry and write `x` to its slot. -/
def vacate (r : Ring α n) (x : α) : Ring α n := { r.dropOldest with slots := setSlot r.slots r.tail x }

theorem index_vacate (r : Ring α n) (x : α) (h : 0 < r.count) (i : Nat) : (r.vacate x).index i = r.index (i + 1) :=
  index_dropOldest r h i

theorem toList_vacate (r : Ring α n) (x : α) : (r.vacate x).toList = r.toList.tail := by
  have h2 := r.count_le
  rw [← toList_dropOldest]
  refine List.map_congr_left fun i hi => ?_
  have hi' : i < r.count - 1 := List.mem_range.mp hi
  have htail : r.tail = r.index 0 := by
    rw [index, Nat.add_zero, Nat.mod_eq_of_lt r.tail_lt]
  have hne : r.index (i + 1) ≠ r.tail := by
    rw [htail, Ne, index_inj r (by omega) (by omega)]
    omega
  show setSlot r.slots r.tail x (r.dropOldest.index i) = r.slots (r.dropOldest.index i)
  rw [index_dropOldest r (by omega), setSlot_of_ne _ hne]

theorem inUse_vacate (r : Ring α n) (x : α) (h : 0 < r.count) (j : Nat) :
    (r.vacate x).InUse j ↔ r.InUse j ∧ j ≠ r.tail := by
  have h2 := r.count_le
  have hcount : (r.vacate x).count = r.count - 1 := rfl
  have htail : r.tail = r.index 0 := by
    rw [index, Nat.add_zero, Nat.mod_eq_of_lt r.tail_lt]
  constructor
  · rintro ⟨i, hi, rfl⟩
    rw [index_vacate r x h, htail, Ne, index_inj r (by omega) (by omega)]
    exact ⟨⟨i + 1, by omega, rfl⟩, by omega⟩
  · rintro ⟨⟨i, hi, rfl⟩, hne⟩
    have hpos : i ≠ 0 := by
      rintro rfl
      exact hne htail.symm
    refine ⟨i - 1, by omega, ?_⟩
    rw [index_vacate r x h, Nat.sub_add_cancel (by omega)]

/-- Grow, with `x` in the slots that are free. -/
def growWith (r : Ring α n) (m : Nat) (h : n < m) (x : α) : Ring α m :=
  { r.grow m h with slots := fun i => if i < r.count then r.get i else x }

theorem toList_growWith (r : Ring α n) (m : Nat) (h : n < m) (x : α) : (r.growWith m h x).toList = r.toList := by
  rw [← toList_grow r m h]
  refine List.map_congr_left fun i hi => ?_
  have hi' : i < r.count := List.mem_range.mp hi
  show (if (r.grow m h).index i < r.count then r.get ((r.grow m h).index i) else x) = r.get ((r.grow m h).index i)
  rw [index_grow r m h hi', if_pos hi']

theorem inUse_growWith (r : Ring α n) (m : Nat) (h : n < m) (x : α) (j : Nat) :
    (r.growWith m h x).InUse j ↔ j < r.count := by
  have hindex {i : Nat} (hi : i < r.count) : (r.growWith m h x).index i = i := index_grow r m h hi
  constructor
  · rintro ⟨i, hi, rfl⟩
    rw [hindex hi]
    exact hi
  · exact fun hj => ⟨j, hj, hindex hj⟩

/-! ## Removing from the middle -/

/-- Move the entries after slot `move` down one slot, up to the head. -/
def shiftDown (n head : Nat) : Nat → (Nat → α) → Nat → (Nat → α)
  | 0, slots, _ => slots
  | fuel + 1, slots, move =>
    let next := (move + 1) % n
    if next = head then slots else shiftDown n head fuel (setSlot slots move (slots next)) next

/-- Remove the `i`-th oldest entry. -/
def removeAt (r : Ring α n) (i : Nat) (h : i < r.count) : Ring α n :=
  ⟨shiftDown n r.head n r.slots (r.index i), (r.head + n - 1) % n, r.count - 1,
    Nat.mod_lt _ (by have := r.head_lt; omega), by have := r.count_le; omega⟩

theorem shiftDown_get (r : Ring α n) (slots : Nat → α) (fuel : Nat) {i : Nat} (hi : i < r.count)
    (hfuel : r.count ≤ fuel + i) :
    (∀ j, j < i → shiftDown n r.head fuel slots (r.index i) (r.index j) = slots (r.index j)) ∧
      ∀ j, i ≤ j → j + 1 < r.count →
        shiftDown n r.head fuel slots (r.index i) (r.index j) = slots (r.index (j + 1)) := by
  have h2 := r.count_le
  induction fuel generalizing slots i with
  | zero => omega
  | succ fuel ih =>
    simp only [shiftDown, index_succ]
    by_cases hlast : i + 1 = r.count
    · rw [if_pos (by rw [hlast, index_count])]
      refine ⟨fun _ _ => rfl, fun j hij hj => ?_⟩
      omega
    · rw [if_neg (index_ne_head r (by omega) (by omega))]
      obtain ⟨hbelow, habove⟩ := ih (setSlot slots (r.index i) (slots (r.index (i + 1)))) (i := i + 1)
        (by omega) (by omega)
      have hother : ∀ j, j < n → j ≠ i → setSlot slots (r.index i) (slots (r.index (i + 1))) (r.index j) =
          slots (r.index j) := by
        intro j hj hji
        rw [setSlot_of_ne]
        rw [Ne, index_inj r hj (by omega)]
        exact hji
      constructor
      · intro j hj
        rw [hbelow j (by omega), hother j (by omega) (by omega)]
      · intro j hij hj
        rcases Nat.eq_or_lt_of_le hij with rfl | hlt
        · rw [hbelow i (by omega), setSlot_self]
        · rw [habove j (by omega) hj, hother (j + 1) (by omega) (by omega)]

theorem tail_removeAt (r : Ring α n) (i : Nat) (h : i < r.count) : (r.removeAt i h).tail = r.tail := by
  have h1 := r.head_lt
  have h2 := r.count_le
  have hhead : (r.removeAt i h).head = if r.head + n - 1 < n then r.head + n - 1 else r.head + n - 1 - n :=
    wrap_eq (by omega)
  have hcount : (r.removeAt i h).count = r.count - 1 := rfl
  rw [tail_eq, tail_eq, hhead, hcount]
  split <;> split <;> split <;> omega

theorem toList_removeAt (r : Ring α n) (i : Nat) (h : i < r.count) :
    (r.removeAt i h).toList = r.toList.eraseIdx i := by
  have h2 := r.count_le
  have hindex : ∀ j, (r.removeAt i h).index j = r.index j := by
    intro j
    rw [index, index, tail_removeAt]
  obtain ⟨hbelow, habove⟩ := shiftDown_get r r.slots n h (by omega)
  apply toList_eq
  · rw [List.length_eraseIdx_of_lt (by simpa using h), length_toList]
    rfl
  · intro j hj
    have hj' : j < r.count - 1 := hj
    rw [get, hindex]
    change _ = some (shiftDown n r.head n r.slots (r.index i) (r.index j))
    rw [List.getElem?_eraseIdx]
    split
    · rename_i hji
      rw [hbelow j hji, toList_getElem?, if_pos (by omega), get]
    · rename_i hji
      rw [habove j (by omega) (by omega), toList_getElem?, if_pos (by omega), get]

end Ring

end VlcWhisper.Lib
