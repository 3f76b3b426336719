import Mathlib.Data.List.Nodup

/-!
# Keeping the greatest

A list may be cut down to those of its members that are greatest by some key. `KeepsGreatest` says so of some kind of
members, the others being left alone; `leasts` are what a sort finds to be cut.
-/

namespace VlcWhisper.Lib

variable {α κ : Type*}

/-- Of the members of `before` that are of the kind `p`, `after` has the `n` with the greatest keys, or all if there are
fewer; members with equal keys may be preferred in any way. All others are kept. -/
structure KeepsGreatest [LE κ] (p : α → Bool) (key : α → κ) (n : Nat) (before after : List α) : Prop where
  sublist : after.Sublist before
  others : ∀ x ∈ before, p x = false → x ∈ after
  count : after.countP p = min n (before.countP p)
  greatest : ∀ x ∈ before, x ∉ after → ∀ y ∈ after, p y = true → key x ≤ key y

theorem KeepsGreatest.congr [LE κ] {p q : α → Bool} {key lock : α → κ} {n : Nat} {before after : List α}
    (hp : ∀ x ∈ before, q x = p x) (hkey : ∀ x ∈ before, q x = true → lock x = key x)
    (h : KeepsGreatest p key n before after) : KeepsGreatest q lock n before after := by
  have hafter : ∀ x ∈ after, x ∈ before := fun x hx => h.sublist.subset hx
  refine ⟨h.sublist, fun x hx hq => h.others x hx ((hp x hx).symm.trans hq), ?_, fun x hx hgone y hy hq => ?_⟩
  · have hbefore : before.countP q = before.countP p := List.countP_congr fun x hx => by rw [hp x hx]
    have hcount : after.countP q = after.countP p := List.countP_congr fun x hx => by rw [hp x (hafter x hx)]
    rw [hcount, hbefore]
    exact h.count
  · have hx' : q x = true := by
      by_contra hnot
      rw [hp x hx, Bool.not_eq_true] at hnot
      exact hgone (h.others x hx hnot)
    rw [hkey x hx hx', hkey y (hafter y hy) hq]
    exact h.greatest x hx hgone y hy ((hp y (hafter y hy)).symm.trans hq)

/-- The `k` least members. -/
def leasts (le : α → α → Bool) (k : Nat) (l : List α) : List α := (l.mergeSort le).take k

theorem leasts_perm (le : α → α → Bool) (k : Nat) (l : List α) :
    (leasts le k l ++ (l.mergeSort le).drop k).Perm l := by
  rw [leasts, List.take_append_drop]
  exact List.mergeSort_perm l le

theorem le_of_mem_leasts {le : α → α → Bool} (htrans : ∀ a b c, le a b = true → le b c = true → le a c = true)
    (htotal : ∀ a b, (le a b || le b a) = true) {k : Nat} {l : List α} {a b : α} (ha : a ∈ leasts le k l)
    (hb : b ∈ (l.mergeSort le).drop k) : le a b = true := by
  have hsorted := List.pairwise_mergeSort htrans htotal l
  rw [← List.take_append_drop k (l.mergeSort le), List.pairwise_append] at hsorted
  exact hsorted.2.2 a ha b hb

end VlcWhisper.Lib
