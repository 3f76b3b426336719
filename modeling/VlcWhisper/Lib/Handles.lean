import Mathlib.Logic.Function.Basic
import Mathlib.Tactic.Common

/-!
# Resources that are acquired and released

A ledger of resources says of each whether it is live. Something that is live cannot be acquired again, and something
that is not cannot be used or released; the ledger remembers that somebody tried.

`Holds` says which resources are live, after nothing but proper use. So what is held in the end was not released, and
everything else was released as often as it was acquired.
-/

namespace VlcWhisper.Lib

structure Handles (ι : Type) where
  live : ι → Bool
  misused : Bool

namespace Handles

variable {ι : Type} {h : Handles ι} {held : List ι} {i : ι}

def empty : Handles ι := ⟨fun _ => false, false⟩

def use (h : Handles ι) (i : ι) : Handles ι := { h with misused := h.misused || !h.live i }

/-- Exactly these are live. -/
structure Holds (h : Handles ι) (held : List ι) : Prop where
  sound : h.misused = false
  live : ∀ i, h.live i = true ↔ i ∈ held

theorem holds_empty : Holds (empty : Handles ι) [] := ⟨rfl, by simp [empty]⟩

theorem Holds.congr (hh : Holds h held) {held' : List ι} (hsame : ∀ i, i ∈ held ↔ i ∈ held') : Holds h held' :=
  ⟨hh.sound, fun i => (hh.live i).trans (hsame i)⟩

theorem Holds.use (hh : Holds h held) (hi : i ∈ held) : h.use i = h := by
  have hlive : h.live i = true := (hh.live i).mpr hi
  simp [Handles.use, hlive]

variable [DecidableEq ι]

def acquire (h : Handles ι) (i : ι) : Handles ι := ⟨Function.update h.live i true, h.misused || h.live i⟩

def release (h : Handles ι) (i : ι) : Handles ι := ⟨Function.update h.live i false, h.misused || !h.live i⟩

theorem Holds.acquire (hh : Holds h held) (hi : i ∉ held) : Holds (h.acquire i) (i :: held) where
  sound := by
    have hfree : h.live i = false := by simpa using mt (hh.live i).mp hi
    simp [Handles.acquire, hh.sound, hfree]
  live := by
    intro j
    by_cases hj : j = i
    · simp [Handles.acquire, hj]
    · simp [Handles.acquire, hj, hh.live j]

theorem Holds.release (hh : Holds h held) (hi : i ∈ held) : Holds (h.release i) (held.filter (· ≠ i)) where
  sound := by
    have hlive : h.live i = true := (hh.live i).mpr hi
    simp [Handles.release, hh.sound, hlive]
  live := by
    intro j
    by_cases hj : j = i
    · simp [Handles.release, hj]
    · simp [Handles.release, hj, hh.live j]

theorem Holds.releaseAll {released : List ι} (hh : Holds h held) (hnodup : released.Nodup)
    (hmem : ∀ i ∈ released, i ∈ held) :
    Holds (released.foldl Handles.release h) (held.filter (· ∉ released)) := by
  induction released generalizing h held with
  | nil => exact hh.congr (by simp)
  | cons i released ih =>
    obtain ⟨hi, hrest⟩ := List.nodup_cons.mp hnodup
    have hnext := ih (hh.release (hmem i List.mem_cons_self)) hrest (by
      intro j hj
      have hne : j ≠ i := fun hji => hi (hji ▸ hj)
      simp [hne, hmem j (List.mem_cons_of_mem _ hj)])
    apply hnext.congr
    intro j
    simp
    tauto

end Handles

end VlcWhisper.Lib
