import VlcWhisper.Worker.Translate
import VlcWhisper.Lib.CData
import VlcWhisper.Lib.Json

/-!
# JSON strings (`vw_translate.c`)

What a JSON string spells, escape by escape, whichever escapes its writer chose.

`jsonStringEnd_of_body`: `json_string_end` finds the quote that closes a string. `jsonUnescapeString_escaped`:
`json_unescape_string` gives back what a string spells where that fits the buffer.
-/

namespace VlcWhisper.Worker

open VlcWhisper.Lib VlcWhisper.Lib.Json

/-! ## Where a string ends -/

/-- At the start of every byte or escape of the body, the backslashes standing right before are even in number. -/
theorem stringEndFrom_of_body {s : Bytes} (h : StringBody s) (rest : Bytes) {slashes : Nat} (heven : slashes % 2 = 0) :
    stringEndFrom slashes (s ++ 0x22 :: rest) = some (s, 0x22 :: rest) := by
  induction h generalizing slashes with
  | nil => simp [stringEndFrom, heven]
  | plain hquote hslash _ ih =>
    rw [List.cons_append, stringEndFrom, if_neg (by simp [hquote]), if_neg hslash, ih rfl]
    rfl
  | escape c _ ih =>
    have hodd : (slashes + 1) % 2 ≠ 0 := by omega
    rw [List.cons_append, stringEndFrom, if_neg (by simp), if_pos rfl, List.cons_append, stringEndFrom,
      if_neg (by simp [hodd]), ih (by split <;> omega)]
    rfl

theorem jsonStringEnd_of_body {s : Bytes} (h : StringBody s) (rest : Bytes) :
    jsonStringEnd (s ++ 0x22 :: rest) = some (s, 0x22 :: rest) := stringEndFrom_of_body h rest rfl

theorem skipJsonString_of_body {s : Bytes} (h : StringBody s) (rest : Bytes) :
    skipJsonString (0x22 :: (s ++ 0x22 :: rest)) = some rest := by
  rw [skipJsonString, jsonStringEnd_of_body h]
  rfl

/-! ## What a string spells -/

/-- The four digits of a `\u` escape. -/
structure Hex4 (digits : Bytes) (code : Nat) : Prop where
  length : digits.length = 4
  value : digitsValue 16 digits = some code

/-- One unescaped byte or one escape, and the bytes it stands for. -/
inductive EscapePiece : Bytes → Bytes → Prop
  | plain {c : UInt8} (hc : 0x20 ≤ c) (hquote : c ≠ 0x22) (hslash : c ≠ 0x5C) : EscapePiece [c] [c]
  | letter {e c : UInt8} (he : jsonEscape e = some c) : EscapePiece [c] [0x5C, e]
  | unicode {digits bytes : Bytes} {code : Nat} (hdigits : Hex4 digits code) (hbytes : utf8Scalar code = some bytes) :
    EscapePiece bytes (0x5C :: 0x75 :: digits)
  | surrogates {high low bytes : Bytes} {h l : Nat} (hhigh : Hex4 high h) (hh : 0xD800 ≤ h ∧ h ≤ 0xDBFF)
      (hlow : Hex4 low l)
      (hl : 0xDC00 ≤ l ∧ l ≤ 0xDFFF) (hbytes : utf8Scalar (0x10000 + (h - 0xD800) * 1024 + (l - 0xDC00)) = some bytes) :
    EscapePiece bytes (0x5C :: 0x75 :: (high ++ 0x5C :: 0x75 :: low))

/-- `encoded` is the body of a JSON string that spells `decoded`. -/
inductive JsonEscaped : Bytes → Bytes → Prop
  | nil : JsonEscaped [] []
  | cons {d e decoded encoded : Bytes} (hpiece : EscapePiece d e) (h : JsonEscaped decoded encoded) :
    JsonEscaped (d ++ decoded) (e ++ encoded)

theorem JsonEscaped.append {s t u v : Bytes} (h : JsonEscaped s u) (h' : JsonEscaped t v) :
    JsonEscaped (s ++ t) (u ++ v) := by
  induction h with
  | nil => exact h'
  | cons hpiece _ ih =>
    rw [List.append_assoc, List.append_assoc]
    exact .cons hpiece ih

theorem EscapePiece.escaped {d e : Bytes} (h : EscapePiece d e) : JsonEscaped d e := by
  have hcons := JsonEscaped.cons h .nil
  rwa [List.append_nil, List.append_nil] at hcons

/-! ### Digits -/

theorem digitValue_ne (c : UInt8) : digitValue 16 c ≠ none → c ≠ 0x22 ∧ c ≠ 0x5C := by
  revert c
  apply forall_byte
  decide

theorem mapM_digitValue {base : Nat} {digits : Bytes} {ds : List Nat} (h : digits.mapM (digitValue base) = some ds) :
    ∀ c ∈ digits, digitValue base c ≠ none := by
  induction digits generalizing ds with
  | nil => simp
  | cons c digits ih =>
    rw [List.mapM_cons] at h
    obtain ⟨d, hd, h⟩ := Option.bind_eq_some_iff.mp h
    obtain ⟨ds', hds', -⟩ := Option.bind_eq_some_iff.mp h
    intro x hx
    rcases List.mem_cons.mp hx with rfl | hx
    · simp [hd]
    · exact ih hds' x hx

theorem digitValue_of_digitsValue {base code : Nat} {digits : Bytes} (h : digitsValue base digits = some code) :
    ∀ c ∈ digits, digitValue base c ≠ none := by
  unfold digitsValue at h
  split at h
  · cases h
  obtain ⟨ds, hds, -⟩ := Option.map_eq_some_iff.mp h
  exact mapM_digitValue hds

theorem Hex4.body {digits : Bytes} {code : Nat} (h : Hex4 digits code) : StringBody digits := by
  apply StringBody.of_plain
  intro c hc
  exact digitValue_ne c (digitValue_of_digitsValue h.value c hc)

theorem Hex4.parse {digits : Bytes} {code : Nat} (h : Hex4 digits code) (rest : Bytes) :
    parseHex4 (digits ++ rest) = some code := by
  rw [parseHex4, List.take_left' h.length]
  exact h.value

/-! ### Bounds -/

theorem utf8Scalar_spec {code : Nat} {bytes : Bytes} (h : utf8Scalar code = some bytes) :
    code ≠ 0 ∧ code ≤ 0x10FFFF ∧ (code < 0xD800 ∨ 0xDFFF < code) ∧ 0 < bytes.length ∧ bytes.length ≤ 4 := by
  unfold utf8Scalar at h
  split at h
  · cases h
  · rename_i hcode
    simp only [Bool.or_eq_true, Bool.and_eq_true, decide_eq_true_eq] at hcode
    obtain rfl := Option.some.inj h
    refine ⟨by omega, by omega, by omega, ?_, ?_⟩ <;> split_ifs <;> simp

theorem EscapePiece.length_le {d e : Bytes} (h : EscapePiece d e) : d.length ≤ e.length ∧ 0 < e.length := by
  cases h with
  | plain => simp
  | letter => simp
  | unicode hdigits hbytes =>
    have hlen := (utf8Scalar_spec hbytes).2.2.2.2
    simp only [List.length_cons, hdigits.length]
    omega
  | surrogates hhigh _ _ _ hbytes =>
    have hlen := (utf8Scalar_spec hbytes).2.2.2.2
    simp only [List.length_cons, List.length_append, hhigh.length]
    omega

theorem JsonEscaped.length_le {decoded encoded : Bytes} (h : JsonEscaped decoded encoded) :
    decoded.length ≤ encoded.length := by
  induction h with
  | nil => exact le_refl _
  | cons hpiece _ ih =>
    have hle := hpiece.length_le
    simp only [List.length_append]
    omega

theorem EscapePiece.body {d e : Bytes} (h : EscapePiece d e) : StringBody e := by
  cases h with
  | plain _ hquote hslash => exact .plain hquote hslash .nil
  | letter => exact .escape _ .nil
  | unicode hdigits _ => exact .escape _ hdigits.body
  | surrogates hhigh _ hlow _ _ => exact .escape _ (hhigh.body.append (.escape _ hlow.body))

theorem JsonEscaped.body {decoded encoded : Bytes} (h : JsonEscaped decoded encoded) : StringBody encoded := by
  induction h with
  | nil => exact .nil
  | cons hpiece _ ih => exact hpiece.body.append ih

/-! ### Unescaping -/

theorem append_of_lt {size : Nat} {dst bytes : Bytes} (h : dst.length + bytes.length < size) :
    append size dst bytes = some (dst ++ bytes) := if_neg (not_le.mpr h)

theorem unicodeEscape_of_hex4 {digits : Bytes} {code : Nat} (hdigits : Hex4 digits code)
    (hcode : code < 0xD800 ∨ 0xDFFF < code) (rest : Bytes) : unicodeEscape (digits ++ rest) = some (code, 4) := by
  have hlen := hdigits.length
  unfold unicodeEscape
  rw [if_neg (by rw [List.length_append]; omega), hdigits.parse]
  dsimp only
  rw [if_neg (by simp only [Bool.and_eq_true, decide_eq_true_eq]; omega),
    if_neg (by simp only [Bool.and_eq_true, decide_eq_true_eq]; omega)]

theorem unicodeEscape_of_surrogates {high low : Bytes} {h l : Nat} (hhigh : Hex4 high h) (hh : 0xD800 ≤ h ∧ h ≤ 0xDBFF)
    (hlow : Hex4 low l) (hl : 0xDC00 ≤ l ∧ l ≤ 0xDFFF) (rest : Bytes) :
    unicodeEscape (high ++ 0x5C :: 0x75 :: (low ++ rest)) =
      some (0x10000 + (h - 0xD800) * 1024 + (l - 0xDC00), 10) := by
  have hlen := hhigh.length
  have hlen' := hlow.length
  unfold unicodeEscape
  rw [if_neg (by rw [List.length_append]; omega), hhigh.parse]
  dsimp only
  rw [if_pos (by simp only [Bool.and_eq_true, decide_eq_true_eq]; omega), List.drop_left' hlen,
    if_neg (by simp [ascii, hlen']), List.drop_succ_cons, List.drop_succ_cons, List.drop_zero, hlow.parse]
  dsimp only
  rw [if_neg (by simp only [Bool.or_eq_true, decide_eq_true_eq]; omega)]

theorem jsonUnescapeLoop_plain {c : UInt8} (hc : 0x20 ≤ c) (hslash : c ≠ 0x5C) (size fuel : Nat) (rest dst : Bytes) :
    jsonUnescapeLoop size (fuel + 1) (c :: rest) dst =
      (append size dst [c]).bind (jsonUnescapeLoop size fuel rest) := by
  rw [jsonUnescapeLoop.eq_def]
  dsimp only
  rw [if_neg (UInt8.not_lt.mpr hc), if_pos hslash]

theorem jsonUnescapeLoop_letter {e c : UInt8} (he : jsonEscape e = some c) (size fuel : Nat) (rest dst : Bytes) :
    jsonUnescapeLoop size (fuel + 1) (0x5C :: e :: rest) dst =
      (append size dst [c]).bind (jsonUnescapeLoop size fuel rest) := by
  rw [jsonUnescapeLoop.eq_def]
  dsimp only
  rw [if_neg (by decide), if_neg (by decide), he]

theorem jsonUnescapeLoop_unicode {rest : Bytes} {code len : Nat} (h : unicodeEscape rest = some (code, len))
    (size fuel : Nat) (dst : Bytes) :
    jsonUnescapeLoop size (fuel + 1) (0x5C :: 0x75 :: rest) dst =
      (appendUtf8Scalar size dst code).bind (jsonUnescapeLoop size fuel (rest.drop len)) := by
  rw [jsonUnescapeLoop.eq_def]
  dsimp only
  rw [if_neg (by decide), if_neg (by decide), show jsonEscape 0x75 = none from rfl]
  dsimp only
  rw [if_neg (by decide), h]

theorem jsonUnescapeLoop_piece {d e : Bytes} (h : EscapePiece d e) (size fuel : Nat) (rest dst : Bytes) :
    jsonUnescapeLoop size (fuel + 1) (e ++ rest) dst = (append size dst d).bind (jsonUnescapeLoop size fuel rest) := by
  cases h with
  | plain hc _ hslash => exact jsonUnescapeLoop_plain hc hslash size fuel rest dst
  | letter he => exact jsonUnescapeLoop_letter he size fuel rest dst
  | unicode hdigits hbytes =>
    have hescape := unicodeEscape_of_hex4 hdigits (utf8Scalar_spec hbytes).2.2.1 rest
    rw [List.cons_append, List.cons_append, jsonUnescapeLoop_unicode hescape, appendUtf8Scalar, hbytes,
      Option.bind_some, List.drop_left' hdigits.length]
  | @surrogates high low _ _ _ hhigh hh hlow hl hbytes =>
    have hescape := unicodeEscape_of_surrogates hhigh hh hlow hl rest
    have hdrop : (high ++ 0x5C :: 0x75 :: (low ++ rest)).drop 10 = rest := by
      rw [show high ++ 0x5C :: 0x75 :: (low ++ rest) = (high ++ 0x5C :: 0x75 :: low) ++ rest by simp]
      exact List.drop_left' (by simp [hhigh.length, hlow.length])
    rw [List.cons_append, List.cons_append, List.append_assoc, List.cons_append, List.cons_append,
      jsonUnescapeLoop_unicode hescape, appendUtf8Scalar, hbytes, Option.bind_some, hdrop]

theorem jsonUnescapeLoop_escaped {decoded encoded : Bytes} (h : JsonEscaped decoded encoded) {size fuel : Nat}
    {dst : Bytes} (hfuel : encoded.length ≤ fuel) (hsize : dst.length + decoded.length < size) :
    jsonUnescapeLoop size fuel encoded dst = some (dst ++ decoded) := by
  induction h generalizing fuel dst with
  | nil => cases fuel <;> simp [jsonUnescapeLoop]
  | cons hpiece _ ih =>
    have hpos := hpiece.length_le.2
    simp only [List.length_append] at hfuel hsize
    obtain ⟨fuel, rfl⟩ : ∃ n, fuel = n + 1 := ⟨fuel - 1, by omega⟩
    rw [jsonUnescapeLoop_piece hpiece, append_of_lt (by omega), Option.bind_some,
      ih (by omega) (by rw [List.length_append]; omega), List.append_assoc]

theorem jsonUnescapeString_escaped {decoded encoded : Bytes} (h : JsonEscaped decoded encoded) {size : Nat}
    (hsize : decoded.length < size) : jsonUnescapeString size encoded = some decoded := by
  rw [jsonUnescapeString, if_neg (by omega), jsonUnescapeLoop_escaped h (le_refl _) (by simpa using hsize)]
  rfl

end VlcWhisper.Worker
