import VlcWhisper.Lib.Wire
import Mathlib.Tactic.SplitIfs

/-!
# UTF-8 (RFC 3629)

The octet sequences that the grammar of section 4 derives, by the ranges of their bytes. `wellFormedUtf8_iff_chars`:
they are the encodings of lists of Unicode scalars.
-/

namespace VlcWhisper.Lib.Utf8

/-- `UTF8-tail`. -/
def IsTail (b : UInt8) : Prop := 0x80 ≤ b ∧ b ≤ 0xBF

/-- `UTF8-char`: no overlong form, no surrogate, nothing above U+10FFFF. -/
def IsChar : Bytes → Prop
  | [a] => a ≤ 0x7F
  | [a, b] => 0xC2 ≤ a ∧ a ≤ 0xDF ∧ IsTail b
  | [a, b, c] =>
    (a = 0xE0 ∧ 0xA0 ≤ b ∧ b ≤ 0xBF ∨ 0xE1 ≤ a ∧ a ≤ 0xEC ∧ IsTail b ∨ a = 0xED ∧ 0x80 ≤ b ∧ b ≤ 0x9F ∨
      0xEE ≤ a ∧ a ≤ 0xEF ∧ IsTail b) ∧ IsTail c
  | [a, b, c, d] =>
    (a = 0xF0 ∧ 0x90 ≤ b ∧ b ≤ 0xBF ∨ 0xF1 ≤ a ∧ a ≤ 0xF3 ∧ IsTail b ∨ a = 0xF4 ∧ 0x80 ≤ b ∧ b ≤ 0x8F) ∧
      IsTail c ∧ IsTail d
  | _ => False

/-- `UTF8-octets`. -/
inductive WellFormedUtf8 : Bytes → Prop
  | nil : WellFormedUtf8 []
  | cons {c rest : Bytes} (hchar : IsChar c) (hrest : WellFormedUtf8 rest) : WellFormedUtf8 (c ++ rest)

theorem IsChar.ne_nil {c : Bytes} (h : IsChar c) : c ≠ [] := by
  rintro rfl
  exact h

theorem IsChar.length_pos {c : Bytes} (h : IsChar c) : 0 < c.length := List.length_pos_of_ne_nil h.ne_nil

/-! ## Scalars -/

theorem isChar_utf8EncodeChar (c : Char) : IsChar (String.utf8EncodeChar c) := by
  have hvalid := c.valid
  simp only [UInt32.isValidChar, Nat.isValidChar] at hvalid
  simp only [String.utf8EncodeChar]
  generalize c.val.toNat = v at hvalid ⊢
  split_ifs <;>
    simp only [IsChar, IsTail, UInt8.le_iff_toNat_le, ← UInt8.toNat_inj, UInt8.toNat_ofNat',
      UInt8.toNat_ofNat] <;> omega

theorem exists_char {v : Nat} (h : v < 0xD800 ∨ 0xDFFF < v ∧ v < 0x110000) : ∃ c : Char, c.val.toNat = v :=
  ⟨Char.ofNatAux v h, rfl⟩

theorem exists_utf8EncodeChar {bs : Bytes} (h : IsChar bs) : ∃ c : Char, bs = String.utf8EncodeChar c := by
  match bs, h with
  | [a], h =>
    simp only [IsChar, UInt8.le_iff_toNat_le, UInt8.toNat_ofNat] at h
    obtain ⟨c, hc⟩ := exists_char (v := a.toNat) (by omega)
    refine ⟨c, ?_⟩
    simp only [String.utf8EncodeChar, hc]
    rw [if_pos (by omega), UInt8.ofNat_toNat]
  | [a, b], h =>
    simp only [IsChar, IsTail, UInt8.le_iff_toNat_le, UInt8.toNat_ofNat] at h
    obtain ⟨c, hc⟩ := exists_char (v := (a.toNat - 0xC0) * 64 + (b.toNat - 0x80)) (by omega)
    refine ⟨c, ?_⟩
    simp only [String.utf8EncodeChar, hc]
    rw [if_neg (by omega), if_pos (by omega)]
    simp only [List.cons.injEq, ← UInt8.toNat_inj, UInt8.toNat_ofNat', and_true]
    omega
  | [a, b, c], h =>
    simp only [IsChar, IsTail, UInt8.le_iff_toNat_le, ← UInt8.toNat_inj, UInt8.toNat_ofNat] at h
    obtain ⟨x, hx⟩ := exists_char (v := ((a.toNat - 0xE0) * 64 + (b.toNat - 0x80)) * 64 + (c.toNat - 0x80)) (by omega)
    refine ⟨x, ?_⟩
    simp only [String.utf8EncodeChar, hx]
    rw [if_neg (by omega), if_neg (by omega), if_pos (by omega)]
    simp only [List.cons.injEq, ← UInt8.toNat_inj, UInt8.toNat_ofNat', and_true]
    omega
  | [a, b, c, d], h =>
    simp only [IsChar, IsTail, UInt8.le_iff_toNat_le, ← UInt8.toNat_inj, UInt8.toNat_ofNat] at h
    obtain ⟨x, hx⟩ := exists_char
      (v := (((a.toNat - 0xF0) * 64 + (b.toNat - 0x80)) * 64 + (c.toNat - 0x80)) * 64 + (d.toNat - 0x80)) (by omega)
    refine ⟨x, ?_⟩
    simp only [String.utf8EncodeChar, hx]
    rw [if_neg (by omega), if_neg (by omega), if_neg (by omega)]
    simp only [List.cons.injEq, ← UInt8.toNat_inj, UInt8.toNat_ofNat', and_true]
    omega

theorem wellFormedUtf8_iff_chars {s : Bytes} :
    WellFormedUtf8 s ↔ ∃ cs : List Char, s = cs.flatMap String.utf8EncodeChar := by
  constructor
  · intro h
    induction h with
    | nil => exact ⟨[], rfl⟩
    | cons hchar _ ih =>
      obtain ⟨c, rfl⟩ := exists_utf8EncodeChar hchar
      obtain ⟨cs, rfl⟩ := ih
      exact ⟨c :: cs, rfl⟩
  · rintro ⟨cs, rfl⟩
    induction cs with
    | nil => exact .nil
    | cons c cs ih => exact .cons (isChar_utf8EncodeChar c) ih

end VlcWhisper.Lib.Utf8
