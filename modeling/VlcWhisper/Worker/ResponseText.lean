import VlcWhisper.Worker.Translate
import Mathlib.Tactic.SplitIfs

/-!
# Text in responses (`vw_translate.c`)

A translation is a list of characters, of which a response has the encoding, and `strstr` and `strchr` find the places
where its parts begin.
-/

namespace VlcWhisper.Worker

open VlcWhisper.Lib

/-! ## Characters -/

/-- The encoding of a text. -/
def utf8 (text : List Char) : Bytes := text.flatMap String.utf8EncodeChar

theorem char_toNat_bounds (c : Char) : c.toNat ≤ 0x10FFFF ∧ (c.toNat < 0xD800 ∨ 0xDFFF < c.toNat) := by
  have hvalid := c.valid
  simp only [UInt32.isValidChar, Nat.isValidChar] at hvalid
  have hval : c.val.toNat = c.toNat := rfl
  omega

/-- The encoder of the code is the standard one. -/
theorem utf8Scalar_char {c : Char} (hc : c.toNat ≠ 0) : utf8Scalar c.toNat = some (String.utf8EncodeChar c) := by
  have hbounds := char_toNat_bounds c
  have hval : c.val.toNat = c.toNat := rfl
  rw [utf8Scalar, if_neg (by simp only [Bool.or_eq_true, Bool.and_eq_true, decide_eq_true_eq]; omega),
    String.utf8EncodeChar]
  simp only [hval]
  generalize c.toNat = v at hbounds hc ⊢
  congr 1
  split_ifs <;> simp only [List.cons.injEq, ← UInt8.toNat_inj, UInt8.toNat_ofNat', and_true] <;> omega

theorem mem_utf8EncodeChar {c : Char} {b : UInt8} (hb : b ∈ String.utf8EncodeChar c) :
    0x80 ≤ b.toNat ∨ b.toNat = c.toNat := by
  have hval : c.val.toNat = c.toNat := rfl
  rw [String.utf8EncodeChar] at hb
  simp only [hval] at hb
  generalize c.toNat = v at hb ⊢
  split_ifs at hb <;> simp only [List.mem_cons, List.not_mem_nil, or_false, ← UInt8.toNat_inj,
    UInt8.toNat_ofNat'] at hb <;> omega

theorem utf8EncodeChar_ascii {c : Char} (hc : c.toNat < 0x80) : String.utf8EncodeChar c = [.ofNat c.toNat] := by
  have hval : c.val.toNat = c.toNat := rfl
  rw [String.utf8EncodeChar]
  simp only [hval]
  rw [if_pos (by omega)]

theorem toNat_ne_zero {c : Char} {text : List Char} (hzero : (0 : UInt8) ∉ utf8 (c :: text)) :
    c.toNat ≠ 0 ∧ (0 : UInt8) ∉ utf8 text := by
  rw [utf8, List.flatMap_cons, List.mem_append, not_or] at hzero
  refine ⟨fun hc => hzero.1 ?_, hzero.2⟩
  rw [utf8EncodeChar_ascii (by omega), hc]
  decide

/-! ## Searching -/

theorem forall_ne_of_notMem {s : Bytes} {c : UInt8} (h : c ∉ s) : ∀ d ∈ s, decide (d ≠ c) = true := by
  intro d hd
  rw [decide_eq_true_eq]
  rintro rfl
  exact h hd

theorem takeWhile_ne {s : Bytes} {c : UInt8} (h : c ∉ s) (rest : Bytes) : (s ++ c :: rest).takeWhile (· ≠ c) = s := by
  rw [List.takeWhile_append_of_pos (forall_ne_of_notMem h)]
  simp

theorem strchr_eq {s : Bytes} {c : UInt8} (h : c ∉ s) (rest : Bytes) :
    strchr (s ++ c :: rest) c = some (c :: rest) := by
  have hskip : (s ++ c :: rest).dropWhile (· ≠ c) = c :: rest := by
    rw [List.dropWhile_append_of_pos (forall_ne_of_notMem h)]
    simp
  rw [strchr, hskip]

/-- `t` does not stand earlier than behind `lead`. -/
def FirstBehind (lead t : Bytes) : Prop := ¬ t <:+: lead ++ t.dropLast

theorem FirstBehind.tail {c : UInt8} {lead t : Bytes} (h : FirstBehind (c :: lead) t) : FirstBehind lead t := by
  intro hinfix
  exact h (List.IsInfix.trans hinfix (List.suffix_cons c _).isInfix)

theorem FirstBehind.not_prefix {c : UInt8} {lead t : Bytes} (h : FirstBehind (c :: lead) t) (rest : Bytes) :
    ¬ t <+: c :: (lead ++ (t ++ rest)) := by
  intro hstart
  apply h
  have hlonger : c :: lead ++ t.dropLast <+: c :: (lead ++ (t ++ rest)) := by
    rw [List.cons_append, List.prefix_cons_inj, List.prefix_append_right_inj]
    exact (List.dropLast_prefix t).trans (List.prefix_append t rest)
  apply List.IsPrefix.isInfix
  apply List.prefix_of_prefix_length_le hstart hlonger
  rw [List.length_append, List.length_cons, List.length_dropLast]
  omega

theorem strstr_eq {lead t : Bytes} (h : FirstBehind lead t) (rest : Bytes) :
    strstr (lead ++ (t ++ rest)) t = some (t ++ rest) := by
  induction lead with
  | nil =>
    rw [List.nil_append, strstr]
    cases htext : t ++ rest with
    | nil => simp_all
    | cons d s => rw [List.tails_cons, List.find?_cons_of_pos (by rw [← htext]; simp)]
  | cons c lead ih =>
    have hnot : ¬ (t.isPrefixOf (c :: (lead ++ (t ++ rest))) = true) := by
      rw [List.isPrefixOf_iff_prefix]
      exact h.not_prefix rest
    have hrest := ih h.tail
    rw [strstr] at hrest ⊢
    rw [List.cons_append, List.tails_cons, List.find?_cons_of_neg hnot, hrest]

theorem firstBehind_of_head {c : UInt8} {lead t : Bytes} (hlead : c ∉ lead) : FirstBehind lead (c :: t) := by
  rintro ⟨a, b, hab⟩
  have hlen := congrArg List.length hab
  simp only [List.length_append, List.length_cons, List.length_dropLast] at hlen
  have hleft : (a ++ c :: t ++ b)[a.length]? = some c := by simp
  have hright : (lead ++ (c :: t).dropLast)[a.length]? = lead[a.length]? := List.getElem?_append_left (by omega)
  rw [hab, hright] at hleft
  exact hlead (List.mem_of_getElem? hleft)

end VlcWhisper.Worker
