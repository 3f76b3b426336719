import VlcWhisper.Lib.Wire

/-!
# JSON texts (RFC 8259)

Where the parts of a JSON text begin and end, as far as a scanner needs to know it: a string ends at the first quote
that is not escaped, and outside of strings brackets are matched. What the values say plays no part.
-/

namespace VlcWhisper.Lib.Json

/-- The whitespace of section 2. -/
def IsBlank (c : UInt8) : Prop := c = 0x20 ∨ c = 0x09 ∨ c = 0x0A ∨ c = 0x0D

instance (c : UInt8) : Decidable (IsBlank c) := inferInstanceAs (Decidable (_ ∨ _))

/-- `ws`. -/
def Blank (s : Bytes) : Prop := ∀ c ∈ s, IsBlank c

/-! ## Strings -/

/-- What may stand between the quotes: a quote or a backslash only after a backslash that escapes it. -/
inductive StringBody : Bytes → Prop
  | nil : StringBody []
  | plain {c : UInt8} {s : Bytes} (hquote : c ≠ 0x22) (hslash : c ≠ 0x5C) (h : StringBody s) : StringBody (c :: s)
  | escape (c : UInt8) {s : Bytes} (h : StringBody s) : StringBody (0x5C :: c :: s)

theorem StringBody.append {s t : Bytes} (hs : StringBody s) (ht : StringBody t) : StringBody (s ++ t) := by
  induction hs with
  | nil => exact ht
  | plain hquote hslash _ ih => exact .plain hquote hslash ih
  | escape c _ ih => exact .escape c ih

theorem StringBody.of_plain {s : Bytes} (h : ∀ c ∈ s, c ≠ 0x22 ∧ c ≠ 0x5C) : StringBody s := by
  induction s with
  | nil => exact .nil
  | cons c s ih =>
    apply StringBody.plain (h c (by simp)).1 (h c (by simp)).2
    apply ih
    intro d hd
    exact h d (List.mem_cons_of_mem _ hd)

/-! ## Values -/

/-- The bytes that are structure outside of strings. -/
def IsBracket (c : UInt8) : Prop := c = 0x5B ∨ c = 0x5D ∨ c = 0x7B ∨ c = 0x7D

instance (c : UInt8) : Decidable (IsBracket c) := inferInstanceAs (Decidable (_ ∨ _))

/-- Values with what separates them: strings are closed and brackets are matched. -/
inductive JsonText : Bytes → Prop
  | nil : JsonText []
  | byte {c : UInt8} {s : Bytes} (hquote : c ≠ 0x22) (hbracket : ¬ IsBracket c) (h : JsonText s) : JsonText (c :: s)
  | string {body s : Bytes} (hbody : StringBody body) (h : JsonText s) : JsonText (0x22 :: (body ++ 0x22 :: s))
  | array {inner s : Bytes} (hinner : JsonText inner) (h : JsonText s) : JsonText (0x5B :: (inner ++ 0x5D :: s))
  | object {inner s : Bytes} (hinner : JsonText inner) (h : JsonText s) : JsonText (0x7B :: (inner ++ 0x7D :: s))

/-- The bytes of numbers and of the literal names. -/
def IsScalarByte (c : UInt8) : Prop :=
  (0x61 ≤ c ∧ c ≤ 0x7A) ∨ (0x41 ≤ c ∧ c ≤ 0x5A) ∨ (0x30 ≤ c ∧ c ≤ 0x39) ∨ c = 0x2B ∨ c = 0x2D ∨ c = 0x2E

instance (c : UInt8) : Decidable (IsScalarByte c) := inferInstanceAs (Decidable (_ ∨ _))

/-- One value. -/
inductive JsonValue : Bytes → Prop
  | scalar {s : Bytes} (hne : s ≠ []) (h : ∀ c ∈ s, IsScalarByte c) : JsonValue s
  | string {body : Bytes} (h : StringBody body) : JsonValue (0x22 :: (body ++ [0x22]))
  | array {inner : Bytes} (h : JsonText inner) : JsonValue (0x5B :: (inner ++ [0x5D]))
  | object {inner : Bytes} (h : JsonText inner) : JsonValue (0x7B :: (inner ++ [0x7D]))

/-- `n` values, each with the comma behind it. -/
inductive ValuesBefore : Nat → Bytes → Prop
  | zero : ValuesBefore 0 []
  | succ {n : Nat} {before value after rest : Bytes} (hbefore : Blank before) (hvalue : JsonValue value)
      (hafter : Blank after)
    (h : ValuesBefore n rest) : ValuesBefore (n + 1) (before ++ (value ++ (after ++ 0x2C :: rest)))

end VlcWhisper.Lib.Json
