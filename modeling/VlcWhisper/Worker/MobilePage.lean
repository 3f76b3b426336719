import VlcWhisper.Worker.JsonStrings
import VlcWhisper.Worker.ResponseText

/-!
# The mobile page (`vw_translate.c`)

The page of the mobile service has the translation in the element of class `result-container`, with what is markup
escaped by entities.

`parseMobileResponse_eq`: the parser gives the text of the element.
-/

namespace VlcWhisper.Worker

open VlcWhisper.Lib

/-! ## Escapes -/

/-- The entities that name what is markup. -/
def markupEntities : List (Bytes × Nat) :=
  [(ascii "&amp;", 0x26), (ascii "&lt;", 0x3C), (ascii "&gt;", 0x3E), (ascii "&quot;", 0x22)]

/-- The ways to write a character: itself where it is not markup, a named entity, or its number in up to eight digits
(a code point has seven at most). -/
inductive HtmlEscape (c : Char) : Bytes → Prop
  | raw (hamp : c.toNat ≠ 0x26) (hless : c.toNat ≠ 0x3C) (hgreater : c.toNat ≠ 0x3E) :
      HtmlEscape c (String.utf8EncodeChar c)
  | named {e : Bytes} (he : (e, c.toNat) ∈ markupEntities) : HtmlEscape c e
  | decimal {digits : Bytes} (hlen : digits.length ≤ 8) (hvalue : digitsValue 10 digits = some c.toNat) :
    HtmlEscape c (0x26 :: 0x23 :: (digits ++ [0x3B]))
  | hexadecimal {x : UInt8} {digits : Bytes} (hx : x = 0x78 ∨ x = 0x58) (hlen : digits.length ≤ 8)
      (hvalue : digitsValue 16 digits = some c.toNat) : HtmlEscape c (0x26 :: 0x23 :: x :: (digits ++ [0x3B]))

/-- A text with its characters escaped. -/
inductive HtmlEscaped : List Char → Bytes → Prop
  | nil : HtmlEscaped [] []
  | cons {c : Char} {e : Bytes} {text : List Char} {encoded : Bytes} (hc : HtmlEscape c e)
      (h : HtmlEscaped text encoded) :
    HtmlEscaped (c :: text) (e ++ encoded)

/-! ## Digits -/

/-- A digit is neither blank nor a sign, an `x` or a delimiter. -/
theorem digitValue_spec (c : UInt8) : digitValue 16 c ≠ none → isSpace c = false ∧ c ≠ 0x2D ∧ c ≠ 0x2B ∧ c ≠ 0x78 ∧
    c ≠ 0x58 ∧ c ≠ 0x3B ∧ c ≠ 0x3C := by
  revert c
  apply forall_byte
  decide

theorem digitValue_decimal (c : UInt8) : digitValue 10 c ≠ none → digitValue 16 c ≠ none := by
  revert c
  apply forall_byte
  decide

theorem hexDigits_of_decimal {digits : Bytes} {code : Nat} (h : digitsValue 10 digits = some code) :
    ∀ c ∈ digits, digitValue 16 c ≠ none := by
  intro c hc
  exact digitValue_decimal c (digitValue_of_digitsValue h c hc)

theorem digits_ne_nil {base code : Nat} {digits : Bytes} (h : digitsValue base digits = some code) : digits ≠ [] := by
  rintro rfl
  cases h

theorem strtoul_digits {base code : Nat} {digits : Bytes} (h : digitsValue base digits = some code)
    (hdigits : ∀ c ∈ digits, digitValue 16 c ≠ none) : strtoul base digits = some code := by
  obtain ⟨d, s, rfl⟩ := List.exists_cons_of_ne_nil (digits_ne_nil h)
  have hd := digitValue_spec d (hdigits d (by simp))
  have hskip : skipSpace (d :: s) = d :: s := by simp [skipSpace, hd.1]
  unfold strtoul
  rw [hskip]
  dsimp only
  split
  · rename_i hcons
    exact absurd (List.cons.inj hcons).1 hd.2.1
  · rename_i hcons
    exact absurd (List.cons.inj hcons).1 hd.2.2.1
  simp only [Bool.false_eq_true, if_false, Option.map_id_fun', id_eq]
  split
  · rename_i x t hcons
    obtain ⟨rfl, rfl⟩ := List.cons.inj hcons
    have hx := digitValue_spec x (hdigits x (by simp))
    rw [if_neg (by simp [hx.2.2.2.1, hx.2.2.2.2.1])]
    exact h
  · exact h

/-! ## Entities -/

theorem numericEntity_eq {body digits : Bytes} {hex : Bool} {code : Nat} (hbody : (0x3B : UInt8) ∉ body)
    (hshort : body.length ≤ 9)
    (hhex : (body.head? = some 0x78 || body.head? = some 0x58) = hex)
    (hdigits : (if hex then body.drop 1 else body) = digits)
    (hpos : 0 < digits.length) (hlen : digits.length ≤ 8) (hcode : strtoul (if hex then 16 else 10) digits = some code)
    (hzero : code ≠ 0) (hmax : code ≤ 0x10FFFF) (hsurrogate : code < 0xD800 ∨ 0xDFFF < code) (rest : Bytes) :
    numericEntity (0x26 :: 0x23 :: (body ++ 0x3B :: rest)) = some (code, 3 + body.length) := by
  have hskip : ((body ++ 0x3B :: rest).take 10).takeWhile (· ≠ 0x3B) = body := by
    rw [List.take_append, List.take_of_length_le (by omega), show 10 - body.length = (9 - body.length) + 1 by omega,
      List.take_succ_cons, takeWhile_ne hbody]
  have hend : (0x26 :: 0x23 :: (body ++ 0x3B :: rest))[2 + body.length]? = some 0x3B := by
    rw [Nat.add_comm, List.getElem?_cons_succ, List.getElem?_cons_succ, List.getElem?_append_right (le_refl _),
      Nat.sub_self]
    rfl
  rw [numericEntity, if_neg (by simp [ascii])]
  simp only [List.drop_succ_cons, List.drop_zero, hskip, hend, hhex, hdigits, hcode]
  rw [if_neg (by simp), if_neg (by simp only [Bool.or_eq_true, decide_eq_true_eq]; omega),
    if_neg (by simp only [Bool.or_eq_true, Bool.and_eq_true, decide_eq_true_eq]; omega)]

theorem prefix_iff_eq {s body : Bytes} (hs : (0x3B : UInt8) ∉ s) (hbody : (0x3B : UInt8) ∉ body) (rest : Bytes) :
    s ++ [0x3B] <+: body ++ 0x3B :: rest ↔ s = body := by
  constructor
  · rintro ⟨u, hu⟩
    have hfirst := congrArg (·.takeWhile (· ≠ 0x3B)) hu
    simp only [List.append_assoc, List.singleton_append] at hfirst
    rwa [takeWhile_ne hs, takeWhile_ne hbody] at hfirst
  · rintro rfl
    exact ⟨rest, by simp⟩

theorem find_numeric {body : Bytes} (hbody : (0x3B : UInt8) ∉ body) (rest : Bytes) :
    namedEntities.find? (fun e => e.1.isPrefixOf (0x26 :: 0x23 :: (body ++ 0x3B :: rest))) =
      if body = [0x33, 0x39] then some (ascii "&#39;", 0x27)
      else if body = [0x30, 0x33, 0x39] then some (ascii "&#039;", 0x27)
      else none := by
  have hshort : (ascii "&#39;").isPrefixOf (0x26 :: 0x23 :: (body ++ 0x3B :: rest)) = decide (body = [0x33, 0x39]) := by
    rw [Bool.eq_iff_iff, List.isPrefixOf_iff_prefix, decide_eq_true_eq, eq_comm,
      ← prefix_iff_eq (s := [0x33, 0x39]) (by decide) hbody rest,
      show ascii "&#39;" = 0x26 :: 0x23 :: ([0x33, 0x39] ++ [0x3B]) from rfl,
      List.prefix_cons_inj, List.prefix_cons_inj]
  have hlong : (ascii "&#039;").isPrefixOf (0x26 :: 0x23 :: (body ++ 0x3B :: rest)) =
      decide (body = [0x30, 0x33, 0x39]) := by
    rw [Bool.eq_iff_iff, List.isPrefixOf_iff_prefix, decide_eq_true_eq, eq_comm,
      ← prefix_iff_eq (s := [0x30, 0x33, 0x39]) (by decide) hbody rest,
      show ascii "&#039;" = 0x26 :: 0x23 :: ([0x30, 0x33, 0x39] ++ [0x3B]) from rfl, List.prefix_cons_inj,
      List.prefix_cons_inj]
  have hother (t : Bytes) (c : UInt8) (hc : c ≠ 0x23) :
      (0x26 :: c :: t).isPrefixOf (0x26 :: 0x23 :: (body ++ 0x3B :: rest)) = false := by
    simp [List.isPrefixOf, hc]
  have hquot := hother (ascii "uot;") 0x71 (by decide)
  have hamp := hother (ascii "mp;") 0x61 (by decide)
  have hless := hother (ascii "t;") 0x6C (by decide)
  have hgreater := hother (ascii "t;") 0x67 (by decide)
  have hnbsp := hother (ascii "bsp;") 0x6E (by decide)
  change (ascii "&quot;").isPrefixOf _ = false at hquot
  change (ascii "&amp;").isPrefixOf _ = false at hamp
  change (ascii "&lt;").isPrefixOf _ = false at hless
  change (ascii "&gt;").isPrefixOf _ = false at hgreater
  change (ascii "&nbsp;").isPrefixOf _ = false at hnbsp
  simp only [namedEntities, List.find?_cons, hquot, hshort, hlong, hamp, hless, hgreater, hnbsp, List.find?_nil]
  by_cases h39 : body = [0x33, 0x39]
  · rw [if_pos h39, decide_eq_true h39]
  · rw [if_neg h39, decide_eq_false h39]
    dsimp only
    by_cases h039 : body = [0x30, 0x33, 0x39]
    · rw [if_pos h039, decide_eq_true h039]
    · rw [if_neg h039, decide_eq_false h039]

/-! ## Rounds -/

section
variable {size fuel : Nat} {dst : Bytes}

theorem htmlUnescapeLoop_named {s entity : Bytes} {value : UInt8}
    (hfind : namedEntities.find? (fun e => e.1.isPrefixOf (0x26 :: s)) = some (entity, value)) :
    htmlUnescapeLoop size (fuel + 1) false (0x26 :: s) dst =
      (append size dst [value]).bind (htmlUnescapeLoop size fuel false ((0x26 :: s).drop entity.length)) := by
  rw [htmlUnescapeLoop, if_neg (by decide), if_neg (by decide), if_neg (by decide), hfind]

theorem htmlUnescapeLoop_numeric {s : Bytes} {code len : Nat}
    (hfind : namedEntities.find? (fun e => e.1.isPrefixOf (0x26 :: s)) = none)
    (hnumeric : numericEntity (0x26 :: s) = some (code, len)) :
    htmlUnescapeLoop size (fuel + 1) false (0x26 :: s) dst =
      (appendUtf8Scalar size dst code).bind (htmlUnescapeLoop size fuel false ((0x26 :: s).drop len)) := by
  rw [htmlUnescapeLoop, if_neg (by decide), if_neg (by decide), if_neg (by decide), hfind]
  dsimp only
  rw [hnumeric]

theorem htmlUnescapeLoop_byte {c : UInt8} (hamp : c ≠ 0x26) (hless : c ≠ 0x3C) (hgreater : c ≠ 0x3E) (s : Bytes) :
    htmlUnescapeLoop size (fuel + 1) false (c :: s) dst =
      (append size dst [c]).bind (htmlUnescapeLoop size fuel false s) := by
  have hfind : namedEntities.find? (fun e => e.1.isPrefixOf (c :: s)) = none := by
    rw [List.find?_eq_none]
    intro e he
    have hhead : ∀ e ∈ namedEntities, e.1.head? = some 0x26 := by decide
    have hcons := hhead e he
    obtain ⟨entity, value⟩ := e
    cases entity with
    | nil => cases hcons
    | cons d entity =>
      obtain rfl := Option.some.inj hcons
      simp [List.isPrefixOf, Ne.symm hamp]
  have hnumeric : numericEntity (c :: s) = none := by
    rw [numericEntity, if_pos]
    intro htake
    have hcons : ascii "&#" = [0x26, 0x23] := rfl
    rw [List.take_succ_cons, hcons] at htake
    exact hamp (List.cons.inj htake).1
  rw [htmlUnescapeLoop, if_neg hless, if_neg hgreater, if_neg (by decide), hfind]
  dsimp only
  rw [hnumeric]

theorem htmlUnescapeLoop_bytes {s : Bytes} (h : ∀ c ∈ s, c ≠ 0x26 ∧ c ≠ 0x3C ∧ c ≠ 0x3E)
    (hroom : dst.length + s.length < size)
    (rest : Bytes) : htmlUnescapeLoop size (fuel + s.length) false (s ++ rest) dst =
      htmlUnescapeLoop size fuel false rest (dst ++ s) := by
  induction s generalizing dst with
  | nil => simp
  | cons c s ih =>
    obtain ⟨hamp, hless, hgreater⟩ := h c (by simp)
    rw [List.length_cons] at hroom
    rw [List.length_cons, ← Nat.add_assoc, List.cons_append, htmlUnescapeLoop_byte hamp hless hgreater,
      append_of_lt (by rw [List.length_singleton]; omega), Option.bind_some,
      ih (fun d hd => h d (List.mem_cons_of_mem _ hd)) (by rw [List.length_append, List.length_singleton]; omega),
      List.append_assoc, List.singleton_append]

theorem htmlUnescapeLoop_number {c : Char} {body digits : Bytes} {hex : Bool} (hbody : (0x3B : UInt8) ∉ body)
    (hshort : body.length ≤ 9) (hhex : (body.head? = some 0x78 || body.head? = some 0x58) = hex)
    (hdigits : (if hex then body.drop 1 else body) = digits) (hpos : 0 < digits.length) (hlen : digits.length ≤ 8)
    (hcode : strtoul (if hex then 16 else 10) digits = some c.toNat) (hzero : c.toNat ≠ 0)
    (hroom : dst.length + (String.utf8EncodeChar c).length < size) (rest : Bytes) :
    htmlUnescapeLoop size (fuel + 1) false (0x26 :: 0x23 :: (body ++ 0x3B :: rest)) dst =
      htmlUnescapeLoop size fuel false rest (dst ++ String.utf8EncodeChar c) := by
  have hbounds := char_toNat_bounds c
  have hfind := find_numeric hbody rest
  have hquote (hvalue : c.toNat = 0x27) : String.utf8EncodeChar c = [0x27] := by
    rw [utf8EncodeChar_ascii (by omega), hvalue]
    rfl
  by_cases h39 : body = [0x33, 0x39]
  · subst h39
    obtain rfl : false = hex := hhex
    obtain rfl : [0x33, 0x39] = digits := hdigits
    have hvalue := hquote (Option.some.inj (hcode.symm.trans (by decide)))
    rw [if_pos rfl] at hfind
    rw [htmlUnescapeLoop_named hfind, ← hvalue, append_of_lt hroom]
    rfl
  by_cases h039 : body = [0x30, 0x33, 0x39]
  · subst h039
    obtain rfl : false = hex := hhex
    obtain rfl : [0x30, 0x33, 0x39] = digits := hdigits
    have hvalue := hquote (Option.some.inj (hcode.symm.trans (by decide)))
    rw [if_neg h39, if_pos rfl] at hfind
    rw [htmlUnescapeLoop_named hfind, ← hvalue, append_of_lt hroom]
    rfl
  rw [if_neg h39, if_neg h039] at hfind
  have hnumeric := numericEntity_eq hbody hshort hhex hdigits hpos hlen hcode hzero hbounds.1 hbounds.2 rest
  have hdrop : (0x26 :: 0x23 :: (body ++ 0x3B :: rest)).drop (3 + body.length) = rest := by
    rw [show 3 + body.length = (body.length + 1) + 1 + 1 by omega, List.drop_succ_cons, List.drop_succ_cons,
      ← List.singleton_append, ← List.append_assoc, List.drop_left' (by simp)]
  rw [htmlUnescapeLoop_numeric hfind hnumeric, hdrop, appendUtf8Scalar, utf8Scalar_char hzero, Option.bind_some,
    append_of_lt hroom, Option.bind_some]

theorem markupEntities_spec (rest : Bytes) : ∀ p ∈ markupEntities, p.2 < 0x80 ∧ ∃ s, p.1 = 0x26 :: s ∧
    namedEntities.find? (fun e => e.1.isPrefixOf (0x26 :: s ++ rest)) = some (p.1, .ofNat p.2) := by
  intro p hp
  simp only [markupEntities, List.mem_cons, List.not_mem_nil, or_false] at hp
  rcases hp with rfl | rfl | rfl | rfl
  · exact ⟨by decide, ascii "amp;", rfl, rfl⟩
  · exact ⟨by decide, ascii "lt;", rfl, rfl⟩
  · exact ⟨by decide, ascii "gt;", rfl, rfl⟩
  · exact ⟨by decide, ascii "quot;", rfl, rfl⟩

/-- An escape takes a round, and an unescaped character one for each of its bytes. -/
theorem htmlUnescapeLoop_escape {c : Char} {e : Bytes} (h : HtmlEscape c e) (hzero : c.toNat ≠ 0)
    (hroom : dst.length + (String.utf8EncodeChar c).length < size) :
    ∃ k ≤ e.length, ∀ fuel rest, htmlUnescapeLoop size (fuel + k) false (e ++ rest) dst =
      htmlUnescapeLoop size fuel false rest (dst ++ String.utf8EncodeChar c) := by
  cases h with
  | raw hamp hless hgreater =>
    refine ⟨_, le_refl _, fun fuel rest => htmlUnescapeLoop_bytes ?_ hroom rest⟩
    intro b hb
    have hbyte := mem_utf8EncodeChar hb
    simp only [ne_eq, ← UInt8.toNat_inj, UInt8.toNat_ofNat]
    omega
  | named he =>
    refine ⟨1, ?_, fun fuel rest => ?_⟩
    · obtain ⟨-, s, hs, -⟩ := markupEntities_spec [] _ he
      dsimp only at hs
      rw [hs]
      simp
    · obtain ⟨hascii, s, hs, hfind⟩ := markupEntities_spec rest _ he
      dsimp only at hs hfind
      rw [hs] at hfind ⊢
      rw [utf8EncodeChar_ascii hascii] at hroom ⊢
      rw [List.cons_append] at hfind ⊢
      rw [htmlUnescapeLoop_named hfind, append_of_lt hroom, Option.bind_some, ← List.cons_append, List.drop_left]
  | @decimal digits hlen hvalue =>
    refine ⟨1, by simp, fun fuel rest => ?_⟩
    have hdigits := hexDigits_of_decimal hvalue
    have hsemicolon : (0x3B : UInt8) ∉ digits := fun hmem => (digitValue_spec _ (hdigits _ hmem)).2.2.2.2.2.1 rfl
    have hpos := List.length_pos_of_ne_nil (digits_ne_nil hvalue)
    have hhex : (digits.head? = some 0x78 || digits.head? = some 0x58) = false := by
      rw [Bool.or_eq_false_iff, decide_eq_false_iff_not, decide_eq_false_iff_not]
      constructor <;> intro hhead
      · exact (digitValue_spec _ (hdigits _ (List.mem_of_head? hhead))).2.2.2.1 rfl
      · exact (digitValue_spec _ (hdigits _ (List.mem_of_head? hhead))).2.2.2.2.1 rfl
    rw [List.cons_append, List.cons_append, List.append_assoc, List.singleton_append]
    exact htmlUnescapeLoop_number hsemicolon (by omega) hhex rfl hpos hlen (strtoul_digits hvalue hdigits) hzero hroom
      rest
  | @hexadecimal x digits hx hlen hvalue =>
    refine ⟨1, by simp, fun fuel rest => ?_⟩
    have hdigits := digitValue_of_digitsValue hvalue
    have hsemicolon : (0x3B : UInt8) ∉ x :: digits := by
      rw [List.mem_cons, not_or]
      refine ⟨?_, fun hmem => (digitValue_spec _ (hdigits _ hmem)).2.2.2.2.2.1 rfl⟩
      rcases hx with rfl | rfl <;> decide
    have hpos := List.length_pos_of_ne_nil (digits_ne_nil hvalue)
    have hhex : ((x :: digits).head? = some 0x78 || (x :: digits).head? = some 0x58) = true := by
      rcases hx with rfl | rfl <;> rfl
    rw [List.cons_append, List.cons_append, List.cons_append, List.append_assoc, List.singleton_append,
      ← List.cons_append]
    exact htmlUnescapeLoop_number hsemicolon (by rw [List.length_cons]; omega) hhex rfl hpos hlen
      (strtoul_digits hvalue hdigits) hzero hroom rest

end

theorem htmlUnescapeLoop_escaped {text : List Char} {encoded : Bytes} (h : HtmlEscaped text encoded)
    (hzero : (0 : UInt8) ∉ utf8 text) {size fuel : Nat} {dst : Bytes} (hfuel : encoded.length ≤ fuel)
    (hroom : dst.length + (utf8 text).length < size) :
    htmlUnescapeLoop size fuel false encoded dst = some (dst ++ utf8 text) := by
  induction h generalizing fuel dst with
  | nil => cases fuel <;> simp [htmlUnescapeLoop, utf8]
  | @cons c e text encoded hc _ ih =>
    obtain ⟨hchar, hrest⟩ := toNat_ne_zero hzero
    rw [utf8, List.flatMap_cons, List.length_append, ← utf8] at hroom
    obtain ⟨k, hk, hround⟩ := @htmlUnescapeLoop_escape size dst _ _ hc hchar (by omega)
    rw [List.length_append] at hfuel
    obtain ⟨fuel, rfl⟩ : ∃ n, fuel = n + k := ⟨fuel - k, by omega⟩
    rw [hround, ih hrest (by omega) (by rw [List.length_append]; omega), List.append_assoc]
    rfl

theorem less_notMem {text : List Char} {encoded : Bytes} (h : HtmlEscaped text encoded) : (0x3C : UInt8) ∉ encoded := by
  induction h with
  | nil => simp
  | cons hc _ ih =>
    rw [List.mem_append, not_or]
    refine ⟨fun hmem => ?_, ih⟩
    cases hc with
    | raw _ hless _ =>
      have hbyte := mem_utf8EncodeChar hmem
      rw [show (0x3C : UInt8).toNat = 0x3C from rfl] at hbyte
      omega
    | named he =>
      have hall : ∀ p ∈ markupEntities, (0x3C : UInt8) ∉ p.1 := by decide
      exact hall _ he hmem
    | decimal _ hvalue =>
      simp only [List.mem_cons, List.mem_append, List.not_mem_nil, or_false] at hmem
      rcases hmem with hmem | hmem | hmem | hmem
      · exact absurd hmem (by decide)
      · exact absurd hmem (by decide)
      · exact (digitValue_spec _ (hexDigits_of_decimal hvalue _ hmem)).2.2.2.2.2.2 rfl
      · exact absurd hmem (by decide)
    | hexadecimal hx _ hvalue =>
      simp only [List.mem_cons, List.mem_append, List.not_mem_nil, or_false] at hmem
      rcases hmem with hmem | hmem | hmem | hmem | hmem
      · exact absurd hmem (by decide)
      · exact absurd hmem (by decide)
      · rcases hx with rfl | rfl <;> exact absurd hmem (by decide)
      · exact (digitValue_spec _ (digitValue_of_digitsValue hvalue _ hmem)).2.2.2.2.2.2 rfl
      · exact absurd hmem (by decide)

/-! ## The page -/

/-- The attribute of the result container, in either kind of quotes. -/
def containerMarker (quote : UInt8) : Bytes := ascii "class=" ++ quote :: (ascii "result-container" ++ [quote])

/-- A page with a text in its result container. The container is the first element of the class, and only a page without
one in double quotes has it in single quotes. -/
inductive MobilePage (text : List Char) : Bytes → Prop
  | double {lead attributes encoded tail : Bytes} (hlead : FirstBehind lead (containerMarker 0x22))
      (hattributes : (0x3E : UInt8) ∉ attributes) (h : HtmlEscaped text encoded) :
    MobilePage text (lead ++ (containerMarker 0x22 ++ (attributes ++ 0x3E :: (encoded ++ (ascii "</div>" ++ tail)))))
  | single {lead attributes encoded tail page : Bytes} (hlead : FirstBehind lead (containerMarker 0x27))
      (hattributes : (0x3E : UInt8) ∉ attributes) (h : HtmlEscaped text encoded)
      (hpage : page = lead ++ (containerMarker 0x27 ++ (attributes ++ 0x3E :: (encoded ++ (ascii "</div>" ++ tail)))))
      (hdouble : ¬ containerMarker 0x22 <:+: page) : MobilePage text page

theorem strstr_eq_none {s t : Bytes} (h : ¬ t <:+: s) : strstr s t = none := by
  rw [strstr, List.find?_eq_none]
  intro u hu hstart
  rw [List.isPrefixOf_iff_prefix] at hstart
  exact h (hstart.isInfix.trans ((List.mem_tails _ _).mp hu).isInfix)

theorem container_text {text : List Char} {quote : UInt8} {attributes encoded : Bytes} (hquote : quote ≠ 0x3E)
    (hattributes : (0x3E : UInt8) ∉ attributes) (h : HtmlEscaped text encoded) (tail : Bytes) :
    strchr (containerMarker quote ++ (attributes ++ 0x3E :: (encoded ++ (ascii "</div>" ++ tail)))) 0x3E =
        some (0x3E :: (encoded ++ (ascii "</div>" ++ tail))) ∧
      strstr (encoded ++ (ascii "</div>" ++ tail)) (ascii "</div>") = some (ascii "</div>" ++ tail) := by
  constructor
  · rw [← List.append_assoc]
    apply strchr_eq
    rw [List.mem_append, not_or]
    refine ⟨?_, hattributes⟩
    rw [containerMarker, List.mem_append, List.mem_cons, List.mem_append, List.mem_singleton]
    rintro (hmem | rfl | hmem | rfl)
    · exact absurd hmem (by decide)
    · exact hquote rfl
    · exact absurd hmem (by decide)
    · exact hquote rfl
  · exact strstr_eq (firstBehind_of_head (less_notMem h)) tail

theorem utf8_ne_nil {text : List Char} (h : text ≠ []) : utf8 text ≠ [] := by
  obtain ⟨c, text, rfl⟩ := List.exists_cons_of_ne_nil h
  intro hnil
  rw [utf8, List.flatMap_cons, List.append_eq_nil_iff] at hnil
  exact String.utf8EncodeChar_ne_nil hnil.1

/-- The text is read from the container that the search finds. -/
theorem parseMobileResponse_of_start {text : List Char} {page attributes encoded tail : Bytes} (quote : UInt8)
    (hquote : quote ≠ 0x3E) (hstart : (strstr page (containerMarker 0x22)).or (strstr page (containerMarker 0x27)) =
      some (containerMarker quote ++ (attributes ++ 0x3E :: (encoded ++ (ascii "</div>" ++ tail)))))
    (hattributes : (0x3E : UInt8) ∉ attributes) (h : HtmlEscaped text encoded) (hzero : (0 : UInt8) ∉ utf8 text)
    (hne : text ≠ []) (hlast : ∀ c ∈ (utf8 text).getLast?, isSpace c = false) {outSize : Nat}
    (hroom : (utf8 text).length < outSize) : parseMobileResponse outSize page = some (utf8 text) := by
  obtain ⟨hopen, hclose⟩ := container_text hquote hattributes h tail
  have hlen : (encoded ++ (ascii "</div>" ++ tail)).length - (ascii "</div>" ++ tail).length = encoded.length := by
    rw [List.length_append]
    omega
  have htext : htmlUnescape outSize encoded = some (utf8 text) := by
    rw [htmlUnescape, if_neg (by omega), htmlUnescapeLoop_escaped h hzero (le_refl _) (by simpa using hroom)]
    rfl
  have htrim : (utf8 text).rdropWhile isSpace = utf8 text := by
    rw [List.rdropWhile_eq_self_iff]
    intro hne
    rw [hlast _ (List.getLast?_eq_some_getLast hne)]
    decide
  change
    (strstr page (ascii "class=\"result-container\"")).or (strstr page (ascii "class='result-container'")) = _ at hstart
  simp only [parseMobileResponse, hstart, hopen, hclose, Option.bind_eq_bind, Option.bind_some, List.drop_succ_cons,
    List.drop_zero, hlen, List.take_left, htext, htrim]
  rw [if_neg (utf8_ne_nil hne)]

theorem parseMobileResponse_eq {text : List Char} {page : Bytes} (h : MobilePage text page)
    (hzero : (0 : UInt8) ∉ utf8 text)
    (hne : text ≠ []) (hlast : ∀ c ∈ (utf8 text).getLast?, isSpace c = false) {outSize : Nat}
    (hroom : (utf8 text).length < outSize) : parseMobileResponse outSize page = some (utf8 text) := by
  cases h with
  | @double lead attributes encoded tail hlead hattributes h =>
    have hfound := strstr_eq hlead (attributes ++ 0x3E :: (encoded ++ (ascii "</div>" ++ tail)))
    exact parseMobileResponse_of_start 0x22 (by decide)
      (by rw [hfound, Option.some_or]) hattributes h hzero hne hlast hroom
  | @single lead attributes encoded tail _ hlead hattributes h hpage hdouble =>
    have hfound := strstr_eq hlead (attributes ++ 0x3E :: (encoded ++ (ascii "</div>" ++ tail)))
    rw [← hpage] at hfound
    exact parseMobileResponse_of_start 0x27 (by decide)
      (by rw [strstr_eq_none hdouble, hfound, Option.none_or]) hattributes h hzero hne hlast hroom

end VlcWhisper.Worker
