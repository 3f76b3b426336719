import VlcWhisper.Lib.Wire
import Mathlib.Logic.Function.Basic

/-!
# Stores to a buffer

What a piece of code writes to a buffer, byte by byte. `KeepsTo`: nothing is written outside of the buffer, and its
last cell takes nothing but a terminator. `HoldsBytes`: a memory has a string of bytes at its start.

A run that may be cut short gives a result with the stores it made. `Stored` says that it was not cut short, and that
the buffer has its result, terminated, where there is one.
-/

namespace VlcWhisper.Lib

/-- An index and the byte it takes. -/
abbrev Store := Nat × UInt8

/-- `memcpy` to an index. -/
def copyAt : Nat → Bytes → List Store
  | _, [] => []
  | idx, b :: bytes => (idx, b) :: copyAt (idx + 1) bytes

/-- The memory behind the stores. -/
def stored (mem : Nat → UInt8) (stores : List Store) : Nat → UInt8 :=
  stores.foldl (fun mem s => Function.update mem s.1 s.2) mem

def KeepsTo (size : Nat) (stores : List Store) : Prop := ∀ s ∈ stores, s.1 < size ∧ (s.1 + 1 = size → s.2 = 0)

def HoldsBytes (mem : Nat → UInt8) (bytes : Bytes) : Prop := ∀ i b, bytes[i]? = some b → mem i = b

section
variable {size idx : Nat} {mem : Nat → UInt8} {stores others : List Store} {bytes dst : Bytes}

theorem keepsTo_nil : KeepsTo size [] := by
  intro s hs
  cases hs

theorem keepsTo_append (h : KeepsTo size stores) (h' : KeepsTo size others) : KeepsTo size (stores ++ others) := by
  intro s hs
  rcases List.mem_append.mp hs with hs | hs
  · exact h s hs
  · exact h' s hs

theorem keepsTo_terminator (h : idx < size) : KeepsTo size [(idx, 0)] := by
  intro s hs
  obtain rfl := List.mem_singleton.mp hs
  exact ⟨h, fun _ => rfl⟩

theorem keepsTo_copyAt (h : idx + bytes.length < size) : KeepsTo size (copyAt idx bytes) := by
  induction bytes generalizing idx with
  | nil => exact keepsTo_nil
  | cons b bytes ih =>
    rw [List.length_cons] at h
    intro s hs
    rcases List.mem_cons.mp hs with rfl | hs
    · exact ⟨by omega, fun heq => by omega⟩
    · exact ih (by omega) s hs

theorem stored_append : stored mem (stores ++ others) = stored (stored mem stores) others := List.foldl_append ..

theorem stored_zeros (mem : Nat → UInt8) (idxs : List Nat) (i : Nat) :
    stored mem (idxs.map (·, 0)) i = if i ∈ idxs then 0 else mem i := by
  induction idxs generalizing mem with
  | nil => rfl
  | cons idx idxs ih =>
    rw [List.map_cons, stored, List.foldl_cons, ← stored, ih]
    by_cases hi : i ∈ idxs
    · rw [if_pos hi, if_pos (List.mem_cons_of_mem _ hi)]
    · rw [if_neg hi, Function.update_apply]
      simp [hi]

theorem holdsBytes_nil : HoldsBytes mem [] := by
  intro i b h
  cases h

theorem HoldsBytes.shorter (h : HoldsBytes mem bytes) (hdst : dst <+: bytes) : HoldsBytes mem dst := by
  obtain ⟨rest, rfl⟩ := hdst
  intro i b hb
  apply h
  rw [List.getElem?_append_left (List.getElem?_eq_some_iff.mp hb).1, hb]

theorem HoldsBytes.snoc (h : HoldsBytes mem dst) (b : UInt8) :
    HoldsBytes (Function.update mem dst.length b) (dst ++ [b]) := by
  intro i c hc
  by_cases hi : i = dst.length
  · subst hi
    simp only [List.getElem?_append_right (le_refl _), Nat.sub_self, List.getElem?_cons_zero, Option.some.injEq] at hc
    rw [Function.update_self, hc]
  · have hlt : i < dst.length := by
      have hlen := (List.getElem?_eq_some_iff.mp hc).1
      rw [List.length_append, List.length_singleton] at hlen
      omega
    rw [List.getElem?_append_left hlt] at hc
    rw [Function.update_of_ne hi]
    exact h i c hc

theorem HoldsBytes.copyAt (h : HoldsBytes mem dst) (bytes : Bytes) :
    HoldsBytes (stored mem (copyAt dst.length bytes)) (dst ++ bytes) := by
  induction bytes generalizing dst mem with
  | nil => rwa [List.append_nil]
  | cons b bytes ih =>
    have hnext := ih (h.snoc b)
    rw [List.length_append, List.append_assoc] at hnext
    exact hnext

theorem HoldsBytes.terminate (h : HoldsBytes mem dst) : HoldsBytes (stored mem [(dst.length, 0)]) (dst ++ [0]) :=
    h.snoc 0

end

/-! ## Runs -/

/-- A result where there is one, with the stores that were made; or nothing, where the run was cut short. -/
abbrev Run := Option (Option Bytes × List Store)

/-- Make these stores first. -/
def Run.behind (stores : List Store) (run : Run) : Run := run.map fun r => (r.1, stores ++ r.2)

/-- Run `second` where `first` has no result. -/
def Run.orElse (first second : Run) : Run := first.bind fun r => if r.1.isSome then some r else second.behind r.2

/-- Started on a memory of this kind, the run comes to its end with this result, and keeps to a buffer of `size`
bytes. -/
def Stored (size : Nat) (before : (Nat → UInt8) → Prop) (run : Run) (result : Option Bytes) : Prop :=
  ∃ stores, run = some (result, stores) ∧ KeepsTo size stores ∧
    ∀ out, result = some out → ∀ mem, before mem → HoldsBytes (stored mem stores) (out ++ [0])

section
variable {size : Nat} {before before' : (Nat → UInt8) → Prop} {run other : Run} {result result' : Option Bytes}
  {stores : List Store}

theorem stored_failed (h : KeepsTo size stores) : Stored size before (some (none, stores)) none :=
  ⟨stores, rfl, h, fun out hout => by cases hout⟩

theorem Stored.mono (h : Stored size before run result) (hmono : ∀ mem, before' mem → before mem) :
    Stored size before' run result := by
  obtain ⟨stores, hrun, hwithin, hholds⟩ := h
  exact ⟨stores, hrun, hwithin, fun out hout mem hmem => hholds out hout mem (hmono mem hmem)⟩

theorem Stored.behind (h : Stored size before run result) (hstores : KeepsTo size stores)
    (hbefore : ∀ mem, before' mem → before (stored mem stores)) : Stored size before' (run.behind stores) result := by
  obtain ⟨others, rfl, hwithin, hholds⟩ := h
  refine ⟨stores ++ others, rfl, keepsTo_append hstores hwithin, fun out hout mem hmem => ?_⟩
  rw [stored_append]
  exact hholds out hout _ (hbefore mem hmem)

theorem Stored.orElse (h : Stored size before run result) (h' : Stored size (fun _ => True) other result') :
    Stored size before (run.orElse other) (result.or result') := by
  obtain ⟨stores, rfl, hwithin, hholds⟩ := h
  cases result with
  | some out => exact ⟨stores, rfl, hwithin, hholds⟩
  | none => exact h'.behind hwithin fun _ _ => trivial

end

end VlcWhisper.Lib
