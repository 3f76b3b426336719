import VlcWhisper.Lib.Utf8
import VlcWhisper.Protocol.Validate
import Mathlib.Order.Bounds.Basic

/-!
# The two UTF-8 decoders

Main result: `utf8_helpers_agree`. `is_valid_utf8` accepts the UTF-8 of RFC 3629, and `vw_utf8_safe_len` finds the
longest prefix within its limit that has no NUL and that `is_valid_utf8` accepts.

`vw_utf8_safe_len` has its own decoder (`safeLenFrom`): it looks at its limit before it reads continuation bytes, and
what is behind the string is its terminator. `safeLen_eq`: it keeps as much as the shared decoder `utf8Char` lets it.
-/

namespace VlcWhisper.Protocol

open VlcWhisper.Lib Utf8

/-! ## The decoder of `vw_utf8_safe_len` -/

/-- Its continuation bytes: `extra` of them from `s` on. The terminator is none. -/
def safeContinue : Nat → Nat → Bytes → Option Nat
  | 0, codePoint, _ => some codePoint
  | _ + 1, _, [] => none
  | extra + 1, codePoint, next :: s =>
    if next &&& 0xC0 = 0x80 then safeContinue extra (codePoint * 64 + (next &&& 0x3F).toNat) s else none

/-- Its loop: `len` bytes were kept, `s` follows them. -/
def safeLenFrom (maxBytes : Nat) : Nat → Nat → Bytes → Nat
  | 0, len, _ => len
  | _ + 1, len, [] => len
  | fuel + 1, len, c :: rest =>
    if maxBytes ≤ len || c = 0 then len
    else if c ≤ 0x7F then safeLenFrom maxBytes fuel (len + 1) rest
    else match utf8Lead c with
      | none => len
      | some (extra, codePoint, minCp) =>
        if maxBytes < len + 1 + extra then len
        else match safeContinue extra codePoint rest with
          | none => len
          | some codePoint =>
            if codePoint < minCp then len
            else if 0xD800 ≤ codePoint ∧ codePoint ≤ 0xDFFF then len
            else if 0x10FFFF < codePoint then len
            else safeLenFrom maxBytes fuel (len + 1 + extra) (rest.drop extra)

/-- `vw_utf8_safe_len` of the string `s`. -/
def safeLen (s : Bytes) (maxBytes : Nat) : Nat := safeLenFrom maxBytes s.length 0 s

theorem safeContinue_of_le {extra : Nat} {s : Bytes} (h : extra ≤ s.length) (codePoint : Nat) :
    safeContinue extra codePoint s = utf8Continue codePoint (s.take extra) := by
  induction extra generalizing codePoint s with
  | zero => rfl
  | succ extra ih =>
    cases s with
    | nil => simp at h
    | cons next s =>
      rw [List.length_cons] at h
      rw [safeContinue, List.take_succ_cons, utf8Continue, ih (by omega)]

theorem safeContinue_of_lt {extra : Nat} {s : Bytes} (h : s.length < extra) (codePoint : Nat) :
    safeContinue extra codePoint s = none := by
  induction extra generalizing codePoint s with
  | zero => simp at h
  | succ extra ih =>
    cases s with
    | nil => rfl
    | cons next s =>
      rw [List.length_cons] at h
      rw [safeContinue, ih (by omega), ite_self]

theorem safeLenFrom_eq (maxBytes fuel len : Nat) (s : Bytes) :
    safeLenFrom maxBytes fuel len s = safeUtf8 maxBytes fuel len s := by
  induction fuel generalizing len s with
  | zero => rfl
  | succ fuel ih =>
    cases s with
    | nil => simp [safeLenFrom, safeUtf8]
    | cons c rest =>
      rw [safeLenFrom, safeUtf8]
      by_cases hmax : maxBytes ≤ len
      · simp [hmax]
      by_cases hzero : c = 0
      · simp [hzero]
      simp only [hmax, hzero, decide_false, Bool.or_self, Bool.false_eq_true, ite_false, utf8Char]
      by_cases hascii : c ≤ 0x7F
      · rw [if_pos hascii, if_pos hascii]
        dsimp only
        rw [if_neg (by omega), ih]
        rfl
      rw [if_neg hascii, if_neg hascii]
      cases hlead : utf8Lead c with
      | none => simp
      | some lead =>
        obtain ⟨extra, codePoint, minCp⟩ := lead
        have hcount : len + 1 + extra = len + (1 + extra) := by omega
        have hdrop : (c :: rest).drop (1 + extra) = rest.drop extra := by rw [Nat.add_comm, List.drop_succ_cons]
        by_cases hlen : rest.length < extra
        · simp [safeContinue_of_lt hlen, hlen]
        simp only [safeContinue_of_le (not_lt.mp hlen), if_neg hlen, hcount]
        cases utf8Continue codePoint (rest.take extra) with
        | none => simp
        | some scalar =>
          dsimp only
          by_cases hoverlong : scalar < minCp
          · simp [hoverlong]
          by_cases hsurrogate : 0xD800 ≤ scalar ∧ scalar ≤ 0xDFFF
          · simp [hoverlong, hsurrogate]
          by_cases hhigh : 0x10FFFF < scalar
          · simp [hoverlong, hsurrogate, hhigh]
          simp only [if_neg hoverlong, if_neg hsurrogate, if_neg hhigh, ih, hdrop]

theorem safeLen_eq (s : Bytes) (maxBytes : Nat) : safeLen s maxBytes = utf8SafeLen s maxBytes := safeLenFrom_eq ..

/-! ## Characters -/

theorem utf8Lead_eq (c : UInt8) : utf8Lead c =
    if 0xC0 ≤ c.toNat ∧ c.toNat ≤ 0xDF then some (1, c.toNat - 0xC0, 0x80)
    else if 0xE0 ≤ c.toNat ∧ c.toNat ≤ 0xEF then some (2, c.toNat - 0xE0, 0x800)
    else if 0xF0 ≤ c.toNat ∧ c.toNat ≤ 0xF7 then some (3, c.toNat - 0xF0, 0x10000)
    else none := by
  revert c
  apply forall_byte
  decide

theorem tail_mask (c : UInt8) : (c &&& 0xC0 = 0x80 ↔ 0x80 ≤ c.toNat ∧ c.toNat ≤ 0xBF) ∧
    (c &&& 0x3F).toNat = c.toNat % 64 := by
  revert c
  apply forall_byte
  decide

theorem utf8Continue_nil (codePoint : Nat) : utf8Continue codePoint [] = some codePoint := rfl

theorem utf8Continue_cons (codePoint : Nat) (b : UInt8) (bs : Bytes) : utf8Continue codePoint (b :: bs) =
    if 0x80 ≤ b.toNat ∧ b.toNat ≤ 0xBF then utf8Continue (codePoint * 64 + b.toNat % 64) bs else none := by
  rw [utf8Continue]
  simp only [(tail_mask b).1, (tail_mask b).2]

theorem not_ascii {c : UInt8} (h : 0x80 ≤ c.toNat) : ¬ c ≤ 0x7F := by
  intro hle
  have hle' : c.toNat ≤ 0x7F := UInt8.le_iff_toNat_le.mp hle
  omega

theorem utf8Char_lead {c : UInt8} {extra codePoint minCp : Nat} (hlead : utf8Lead c = some (extra, codePoint, minCp))
    (hhigh : ¬ c ≤ 0x7F) (rest : Bytes) (n : Nat) : utf8Char (c :: rest) = some n ↔
      ∃ scalar, extra ≤ rest.length ∧ utf8Continue codePoint (rest.take extra) = some scalar ∧ minCp ≤ scalar ∧
        ¬ (0xD800 ≤ scalar ∧ scalar ≤ 0xDFFF) ∧ scalar ≤ 0x10FFFF ∧ n = 1 + extra := by
  rw [utf8Char, if_neg hhigh, hlead]
  dsimp only
  by_cases hlen : rest.length < extra
  · simp only [if_pos hlen]
    constructor
    · intro h
      cases h
    · rintro ⟨scalar, hle, -⟩
      omega
  simp only [if_neg hlen]
  cases utf8Continue codePoint (rest.take extra) with
  | none => simp
  | some scalar =>
    dsimp only
    constructor
    · intro h
      split_ifs at h with hmin hsurrogate hmax
      exact ⟨scalar, by omega, rfl, by omega, hsurrogate, by omega, (Option.some.inj h).symm⟩
    · rintro ⟨scalar', hle, hscalar, hmin, hsurrogate, hmax, rfl⟩
      obtain rfl := Option.some.inj hscalar
      rw [if_neg (by omega), if_neg hsurrogate, if_neg (by omega)]

theorem isChar_of_utf8Char {s : Bytes} {n : Nat} (h : utf8Char s = some n) :
    ∃ c rest, s = c ++ rest ∧ IsChar c ∧ c.length = n := by
  cases s with
  | nil => cases h
  | cons a rest =>
    by_cases hascii : a ≤ 0x7F
    · rw [utf8Char, if_pos hascii] at h
      exact ⟨[a], rest, rfl, hascii, Option.some.inj h⟩
    have hlead := utf8Lead_eq a
    by_cases htwo : 0xC0 ≤ a.toNat ∧ a.toNat ≤ 0xDF
    · rw [if_pos htwo] at hlead
      obtain ⟨scalar, hlen, hscalar, hmin, hsurrogate, hmax, rfl⟩ := (utf8Char_lead hlead hascii rest n).mp h
      obtain _ | ⟨b, rest⟩ := rest
      · simp at hlen
      simp only [List.take_succ_cons, List.take_zero, utf8Continue_cons, utf8Continue_nil] at hscalar
      split_ifs at hscalar with hb
      refine ⟨[a, b], rest, rfl, ?_, rfl⟩
      simp only [Option.some.injEq] at hscalar
      simp only [IsChar, IsTail, UInt8.le_iff_toNat_le, UInt8.toNat_ofNat]
      omega
    rw [if_neg htwo] at hlead
    by_cases hthree : 0xE0 ≤ a.toNat ∧ a.toNat ≤ 0xEF
    · rw [if_pos hthree] at hlead
      obtain ⟨scalar, hlen, hscalar, hmin, hsurrogate, hmax, rfl⟩ := (utf8Char_lead hlead hascii rest n).mp h
      obtain _ | ⟨b, rest⟩ := rest
      · simp at hlen
      obtain _ | ⟨c, rest⟩ := rest
      · simp at hlen
      simp only [List.take_succ_cons, List.take_zero, utf8Continue_cons, utf8Continue_nil] at hscalar
      split_ifs at hscalar with hb hc
      refine ⟨[a, b, c], rest, rfl, ?_, rfl⟩
      simp only [Option.some.injEq] at hscalar
      simp only [IsChar, IsTail, UInt8.le_iff_toNat_le, ← UInt8.toNat_inj, UInt8.toNat_ofNat]
      omega
    rw [if_neg hthree] at hlead
    by_cases hfour : 0xF0 ≤ a.toNat ∧ a.toNat ≤ 0xF7
    · rw [if_pos hfour] at hlead
      obtain ⟨scalar, hlen, hscalar, hmin, hsurrogate, hmax, rfl⟩ := (utf8Char_lead hlead hascii rest n).mp h
      obtain _ | ⟨b, rest⟩ := rest
      · simp at hlen
      obtain _ | ⟨c, rest⟩ := rest
      · simp at hlen
      obtain _ | ⟨d, rest⟩ := rest
      · simp at hlen
      simp only [List.take_succ_cons, List.take_zero, utf8Continue_cons, utf8Continue_nil] at hscalar
      split_ifs at hscalar with hb hc hd
      refine ⟨[a, b, c, d], rest, rfl, ?_, rfl⟩
      simp only [Option.some.injEq] at hscalar
      simp only [IsChar, IsTail, UInt8.le_iff_toNat_le, ← UInt8.toNat_inj, UInt8.toNat_ofNat]
      omega
    rw [if_neg hfour] at hlead
    rw [utf8Char, if_neg hascii, hlead] at h
    cases h

theorem utf8Char_of_isChar {c : Bytes} (h : IsChar c) (rest : Bytes) : utf8Char (c ++ rest) = some c.length := by
  match c, h with
  | [a], h => exact if_pos h
  | [a, b], h =>
    simp only [IsChar, IsTail, UInt8.le_iff_toNat_le, UInt8.toNat_ofNat] at h
    have hlead := utf8Lead_eq a
    rw [if_pos (by omega)] at hlead
    refine (utf8Char_lead hlead (not_ascii (by omega)) (b :: rest) 2).mpr ?_
    refine ⟨(a.toNat - 0xC0) * 64 + b.toNat % 64, by simp, ?_, by omega, by omega, by omega, rfl⟩
    simp only [List.take_succ_cons, List.take_zero, utf8Continue_cons, utf8Continue_nil]
    rw [if_pos (by omega)]
  | [a, b, c], h =>
    simp only [IsChar, IsTail, UInt8.le_iff_toNat_le, ← UInt8.toNat_inj, UInt8.toNat_ofNat] at h
    have hlead := utf8Lead_eq a
    rw [if_neg (by omega), if_pos (by omega)] at hlead
    refine (utf8Char_lead hlead (not_ascii (by omega)) (b :: c :: rest) 3).mpr ?_
    refine ⟨((a.toNat - 0xE0) * 64 + b.toNat % 64) * 64 + c.toNat % 64, by simp, ?_, by omega, by omega, by omega, rfl⟩
    simp only [List.take_succ_cons, List.take_zero, utf8Continue_cons, utf8Continue_nil]
    rw [if_pos (by omega), if_pos (by omega)]
  | [a, b, c, d], h =>
    simp only [IsChar, IsTail, UInt8.le_iff_toNat_le, ← UInt8.toNat_inj, UInt8.toNat_ofNat] at h
    have hlead := utf8Lead_eq a
    rw [if_neg (by omega), if_neg (by omega), if_pos (by omega)] at hlead
    refine (utf8Char_lead hlead (not_ascii (by omega)) (b :: c :: d :: rest) 4).mpr ?_
    refine ⟨(((a.toNat - 0xF0) * 64 + b.toNat % 64) * 64 + c.toNat % 64) * 64 + d.toNat % 64, by simp, ?_, by omega,
      by omega, by omega, rfl⟩
    simp only [List.take_succ_cons, List.take_zero, utf8Continue_cons, utf8Continue_nil]
    rw [if_pos (by omega), if_pos (by omega), if_pos (by omega)]

/-! ## Strings -/

theorem validUtf8_iff {fuel : Nat} {s : Bytes} (hfuel : s.length ≤ fuel) :
    validUtf8 fuel s = true ↔ WellFormedUtf8 s := by
  constructor
  · intro h
    induction fuel generalizing s with
    | zero =>
      obtain rfl := List.eq_nil_of_length_eq_zero (by omega : s.length = 0)
      exact .nil
    | succ fuel ih =>
      cases s with
      | nil => exact .nil
      | cons a rest =>
        rw [validUtf8] at h
        split at h
        · cases h
        · rename_i n hn
          obtain ⟨c, t, hsplit, hchar, rfl⟩ := isChar_of_utf8Char hn
          have hpos := hchar.length_pos
          have hlen : c.length + t.length = (a :: rest).length := by rw [hsplit, List.length_append]
          rw [hsplit, List.drop_left] at h
          rw [hsplit]
          exact .cons hchar (ih (by omega) h)
  · intro h
    induction h generalizing fuel with
    | nil => cases fuel <;> rfl
    | @cons c rest hchar _ ih =>
      have hpos := hchar.length_pos
      rw [List.length_append] at hfuel
      obtain ⟨a, t, hcons⟩ := List.exists_cons_of_length_pos (l := c ++ rest) (by rw [List.length_append]; omega)
      cases fuel with
      | zero => omega
      | succ fuel =>
        have hlen := utf8Char_of_isChar hchar rest
        rw [hcons] at hlen ⊢
        rw [validUtf8, hlen]
        dsimp only
        rw [← hcons, List.drop_left]
        exact ih (by omega)

theorem isValidUtf8_iff (s : Bytes) : isValidUtf8 s = true ↔ WellFormedUtf8 s := validUtf8_iff (le_refl _)

/-- A prefix that could be kept. -/
def KeptPrefix (s : Bytes) (maxBytes : Nat) (n : Nat) : Prop :=
  n ≤ maxBytes ∧ n ≤ s.length ∧ (0 : UInt8) ∉ s.take n ∧ isValidUtf8 (s.take n) = true

theorem keptPrefix_zero (s : Bytes) (maxBytes : Nat) : KeptPrefix s maxBytes 0 := ⟨by omega, by omega, by simp, rfl⟩

theorem zero_notMem_char {c : Bytes} (h : IsChar c) (hhead : c.head? ≠ some 0) : (0 : UInt8) ∉ c := by
  match c, h with
  | [a], _ =>
    simpa [eq_comm] using hhead
  | [a, b], h =>
    simp only [IsChar, IsTail, UInt8.le_iff_toNat_le, UInt8.toNat_ofNat] at h
    simp only [List.mem_cons, List.not_mem_nil, or_false, ← UInt8.toNat_inj, UInt8.toNat_ofNat]
    omega
  | [a, b, c], h =>
    simp only [IsChar, IsTail, UInt8.le_iff_toNat_le, ← UInt8.toNat_inj, UInt8.toNat_ofNat] at h
    simp only [List.mem_cons, List.not_mem_nil, or_false, ← UInt8.toNat_inj, UInt8.toNat_ofNat]
    omega
  | [a, b, c, d], h =>
    simp only [IsChar, IsTail, UInt8.le_iff_toNat_le, ← UInt8.toNat_inj, UInt8.toNat_ofNat] at h
    simp only [List.mem_cons, List.not_mem_nil, or_false, ← UInt8.toNat_inj, UInt8.toNat_ofNat]
    omega

/-- A prefix that is kept is empty, or it starts with a character. -/
theorem KeptPrefix.first {s : Bytes} {maxBytes n : Nat} (h : KeptPrefix s maxBytes n) (hpos : 0 < n) :
    ∃ k, utf8Char s = some k ∧ k ≤ n ∧ s.head? ≠ some 0 ∧ KeptPrefix (s.drop k) (maxBytes - k) (n - k) := by
  obtain ⟨hmax, hle, hzero, hvalid⟩ := h
  have hwell := (isValidUtf8_iff _).mp hvalid
  have hlen : (s.take n).length = n := by rw [List.length_take]; omega
  generalize htake : s.take n = t at hwell hlen hzero
  cases hwell with
  | nil =>
    rw [List.length_nil] at hlen
    omega
  | @cons c rest hchar hrest =>
    have hsplit : s = c ++ (rest ++ s.drop n) := by rw [← List.append_assoc, ← htake, List.take_append_drop]
    have hcount : c.length + rest.length = n := by rw [← List.length_append, hlen]
    have hdrop : s.drop c.length = rest ++ s.drop n := by
      conv_lhs => rw [hsplit, List.drop_left]
    refine ⟨c.length, ?_, by omega, ?_, by omega, ?_, ?_, ?_⟩
    · rw [hsplit]
      exact utf8Char_of_isChar hchar _
    · intro hhead
      obtain ⟨a, tail, rfl⟩ := List.exists_cons_of_length_pos hchar.length_pos
      rw [hsplit] at hhead
      simp only [List.cons_append, List.head?_cons, Option.some.injEq] at hhead
      simp [hhead] at hzero
    · rw [List.length_drop]
      omega
    · rw [hdrop, List.take_left' (by omega)]
      intro hmem
      exact hzero (List.mem_append_right c hmem)
    · rw [hdrop, List.take_left' (by omega)]
      exact (isValidUtf8_iff _).mpr hrest

theorem keptPrefix_cons {s : Bytes} {maxBytes k n : Nat} (hchar : utf8Char s = some k) (hhead : s.head? ≠ some 0)
    (hmax : k ≤ maxBytes) (h : KeptPrefix (s.drop k) (maxBytes - k) n) : KeptPrefix s maxBytes (k + n) := by
  obtain ⟨hn, hle, hzero, hvalid⟩ := h
  obtain ⟨c, rest, rfl, hisChar, rfl⟩ := isChar_of_utf8Char hchar
  rw [List.drop_left] at hle hzero hvalid
  have hhead' : c.head? ≠ some 0 := by
    obtain ⟨a, tail, rfl⟩ := List.exists_cons_of_length_pos hisChar.length_pos
    simpa using hhead
  have htake : (c ++ rest).take (c.length + n) = c ++ rest.take n := by
    rw [List.take_append, List.take_of_length_le (by omega)]
    simp
  refine ⟨by omega, by rw [List.length_append]; omega, ?_, ?_⟩
  · rw [htake, List.mem_append]
    rintro (hmem | hmem)
    · exact zero_notMem_char hisChar hhead' hmem
    · exact hzero hmem
  · rw [htake, isValidUtf8_iff]
    exact .cons hisChar ((isValidUtf8_iff _).mp hvalid)

theorem isGreatest_zero {s : Bytes} {maxBytes : Nat}
    (h : ∀ k, utf8Char s = some k → k ≤ maxBytes → s.head? = some 0) : IsGreatest {n | KeptPrefix s maxBytes n} 0 := by
  refine ⟨keptPrefix_zero s maxBytes, ?_⟩
  intro n hn
  by_contra hpos
  obtain ⟨k, hchar, hle, hhead, -⟩ := KeptPrefix.first hn (by omega)
  have hmax := hn.1
  exact hhead (h k hchar (by omega))

/-- The loop keeps the longest prefix: character by character, and there is no other way to split a string. -/
theorem isGreatest_safeUtf8 {maxBytes fuel len : Nat} {s : Bytes} (hfuel : s.length ≤ fuel) (hlen : len ≤ maxBytes) :
    ∃ k, safeUtf8 maxBytes fuel len s = len + k ∧ IsGreatest {n | KeptPrefix s (maxBytes - len) n} k := by
  induction fuel generalizing len s with
  | zero =>
    obtain rfl := List.eq_nil_of_length_eq_zero (by omega : s.length = 0)
    refine ⟨0, rfl, isGreatest_zero fun k hk _ => ?_⟩
    cases hk
  | succ fuel ih =>
    cases s with
    | nil =>
      refine ⟨0, by simp [safeUtf8], isGreatest_zero fun k hk _ => ?_⟩
      cases hk
    | cons c rest =>
      rw [safeUtf8]
      by_cases hmax : maxBytes ≤ len
      · refine ⟨0, by rw [if_pos hmax]; rfl, isGreatest_zero fun k hk hle => ?_⟩
        obtain ⟨c', _, _, hchar, rfl⟩ := isChar_of_utf8Char hk
        have hpos := hchar.length_pos
        omega
      rw [if_neg hmax]
      by_cases hzero : c = 0
      · refine ⟨0, by rw [if_pos hzero]; rfl, isGreatest_zero fun k _ _ => ?_⟩
        rw [hzero, List.head?_cons]
      rw [if_neg hzero]
      cases hchar : utf8Char (c :: rest) with
      | none =>
        refine ⟨0, rfl, isGreatest_zero fun k hk _ => ?_⟩
        rw [hchar] at hk
        cases hk
      | some n =>
        dsimp only
        by_cases hover : maxBytes < len + n
        · refine ⟨0, by rw [if_pos hover]; rfl, isGreatest_zero fun k hk hle => ?_⟩
          rw [hchar] at hk
          obtain rfl := Option.some.inj hk
          omega
        rw [if_neg hover]
        obtain ⟨c', t, hsplit, hisChar, hn⟩ := isChar_of_utf8Char hchar
        have hpos := hisChar.length_pos
        have hrest : ((c :: rest).drop n).length ≤ fuel := by
          rw [List.length_drop]
          omega
        obtain ⟨k, hk, hkeeps, hgreatest⟩ := ih hrest (by omega : len + n ≤ maxBytes)
        have hhead : (c :: rest).head? ≠ some 0 := by simpa using hzero
        have hbudget : maxBytes - (len + n) = maxBytes - len - n := by omega
        rw [hbudget] at hkeeps hgreatest
        refine ⟨n + k, by rw [hk]; omega, keptPrefix_cons hchar hhead (by omega) hkeeps, ?_⟩
        intro m hm
        by_cases hmpos : 0 < m
        · obtain ⟨n', hn', hle, -, hdrop⟩ := KeptPrefix.first hm hmpos
          rw [hchar] at hn'
          obtain rfl := Option.some.inj hn'
          have hbound := hgreatest hdrop
          omega
        · omega

/-- **The two decoders accept the same, and it is the UTF-8 of RFC 3629.** -/
theorem utf8_helpers_agree :
    (∀ s maxBytes, IsGreatest {n | KeptPrefix s maxBytes n} (safeLen s maxBytes)) ∧
      ∀ s, isValidUtf8 s = true ↔ WellFormedUtf8 s := by
  refine ⟨fun s maxBytes => ?_, isValidUtf8_iff⟩
  obtain ⟨k, hk, hgreatest⟩ := isGreatest_safeUtf8 (le_refl s.length) (Nat.zero_le maxBytes)
  rw [safeLen_eq, utf8SafeLen, hk, Nat.zero_add]
  exact hgreatest

end VlcWhisper.Protocol
