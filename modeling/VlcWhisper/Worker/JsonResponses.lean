import VlcWhisper.Worker.JsonStrings
import VlcWhisper.Worker.ResponseText

/-!
# The JSON responses (`vw_translate.c`)

What a service answers: a list of segments, each an array whose first element is a chunk of the translation, inside a
GTX response or inside the payload of an RPC envelope. Every character is escaped as its writer likes, in both layers.

`parseGtxResponse_eq`, `parseRpcResponse_eq`: the parsers give the chunks one after the other.
-/

namespace VlcWhisper.Worker

open VlcWhisper.Lib VlcWhisper.Lib.Json

/-! ## Strings that spell a text -/

/-- The letters of the two-byte escapes, and the code points they stand for. -/
def letterEscapes : List (UInt8 × Nat) :=
  [(0x22, 0x22), (0x5C, 0x5C), (0x2F, 0x2F), (0x62, 0x08), (0x66, 0x0C), (0x6E, 0x0A), (0x72, 0x0D), (0x74, 0x09)]

/-- The ways to write a character in a JSON string. -/
inductive CharEscape (c : Char) : Bytes → Prop
  | raw (hcontrol : 0x20 ≤ c.toNat) (hquote : c.toNat ≠ 0x22) (hslash : c.toNat ≠ 0x5C) :
      CharEscape c (String.utf8EncodeChar c)
  | letter {e : UInt8} (he : (e, c.toNat) ∈ letterEscapes) : CharEscape c [0x5C, e]
  | unicode {digits : Bytes} (hdigits : Hex4 digits c.toNat) : CharEscape c (0x5C :: 0x75 :: digits)
  | surrogates {high low : Bytes} (hc : 0x10000 ≤ c.toNat) (hhigh : Hex4 high (0xD800 + (c.toNat - 0x10000) / 1024))
      (hlow : Hex4 low (0xDC00 + (c.toNat - 0x10000) % 1024)) :
      CharEscape c (0x5C :: 0x75 :: (high ++ 0x5C :: 0x75 :: low))

/-- A string that spells a text. -/
inductive TextEscaped : List Char → Bytes → Prop
  | nil : TextEscaped [] []
  | cons {c : Char} {e : Bytes} {text : List Char} {encoded : Bytes} (hc : CharEscape c e)
      (h : TextEscaped text encoded) :
    TextEscaped (c :: text) (e ++ encoded)

theorem jsonEscaped_plain {s : Bytes} (h : ∀ b ∈ s, 0x20 ≤ b ∧ b ≠ 0x22 ∧ b ≠ 0x5C) : JsonEscaped s s := by
  induction s with
  | nil => exact .nil
  | cons b s ih =>
    obtain ⟨hcontrol, hquote, hslash⟩ := h b (by simp)
    apply JsonEscaped.cons (.plain hcontrol hquote hslash)
    apply ih
    intro d hd
    exact h d (List.mem_cons_of_mem _ hd)

theorem letterEscapes_spec : ∀ p ∈ letterEscapes,
    jsonEscape p.1 = some (.ofNat p.2) ∧ p.2 < 0x80 := by decide

theorem CharEscape.jsonEscaped {c : Char} {e : Bytes} (h : CharEscape c e) (hc : c.toNat ≠ 0) :
    JsonEscaped (String.utf8EncodeChar c) e := by
  cases h with
  | raw hcontrol hquote hslash =>
    apply jsonEscaped_plain
    intro b hb
    have hbyte := mem_utf8EncodeChar hb
    simp only [UInt8.le_iff_toNat_le, ne_eq, ← UInt8.toNat_inj, UInt8.toNat_ofNat]
    omega
  | letter he =>
    obtain ⟨hletter, hascii⟩ := letterEscapes_spec _ he
    rw [utf8EncodeChar_ascii hascii]
    exact (EscapePiece.letter hletter).escaped
  | unicode hdigits => exact (EscapePiece.unicode hdigits (utf8Scalar_char hc)).escaped
  | surrogates hc' hhigh hlow =>
    have hbounds := char_toNat_bounds c
    apply EscapePiece.escaped
    apply EscapePiece.surrogates hhigh (by omega) hlow (by omega)
    rw [show 0x10000 + (0xD800 + (c.toNat - 0x10000) / 1024 - 0xD800) * 1024 +
      (0xDC00 + (c.toNat - 0x10000) % 1024 - 0xDC00) = c.toNat by omega]
    exact utf8Scalar_char hc

theorem TextEscaped.jsonEscaped {text : List Char} {encoded : Bytes} (h : TextEscaped text encoded)
    (hzero : (0 : UInt8) ∉ utf8 text) : JsonEscaped (utf8 text) encoded := by
  induction h with
  | nil => exact .nil
  | cons hc _ ih =>
    obtain ⟨hchar, hrest⟩ := toNat_ne_zero hzero
    exact (hc.jsonEscaped hchar).append (ih hrest)

/-! ## Scanning -/

theorem isSpace_of_isBlank (c : UInt8) : IsBlank c → isSpace c = true := by
  revert c
  apply forall_byte
  decide

theorem isScalarByte_spec (c : UInt8) : IsScalarByte c →
    isSpace c = false ∧ c ≠ 0x22 ∧ c ≠ 0x5B ∧ c ≠ 0x7B ∧ c ≠ 0x2C ∧ c ≠ 0x5D ∧ c ≠ 0x7D := by
  revert c
  apply forall_byte
  decide

theorem skipSpace_cons {c : UInt8} (hc : isSpace c = false) (rest : Bytes) : skipSpace (c :: rest) = c :: rest := by
  simp [skipSpace, hc]

theorem skipSpace_blank {blank : Bytes} (h : Blank blank) {c : UInt8} (hc : isSpace c = false) (rest : Bytes) :
    skipSpace (blank ++ c :: rest) = c :: rest := by
  induction blank with
  | nil => exact skipSpace_cons hc rest
  | cons b blank ih =>
    have hb := isSpace_of_isBlank b (h b (by simp))
    have hrest := ih fun d hd => h d (List.mem_cons_of_mem _ hd)
    rw [skipSpace] at hrest ⊢
    rw [List.cons_append, List.dropWhile_cons_of_pos hb, hrest]

/-- `skip_segment_array` starts inside the array that `skip_json_value` starts before. -/
theorem skipSegmentLoop_eq (inString escaped : Bool) (depth : Nat) (s : Bytes) :
    skipSegmentLoop inString escaped depth s = skipNested 0x5B 0x5D inString escaped (depth + 1) s := by
  induction s generalizing inString escaped depth with
  | nil => cases inString <;> cases escaped <;> rfl
  | cons c s ih =>
    cases inString with
    | true => cases escaped <;> exact ih ..
    | false =>
      simp only [skipSegmentLoop, skipNested, ih]
      cases depth <;> simp

section Nested
variable {opened closed : UInt8} {depth : Nat}

theorem skipNested_body {body : Bytes} (h : StringBody body) (rest : Bytes) :
    skipNested opened closed true false depth (body ++ 0x22 :: rest) =
      skipNested opened closed false false depth rest := by
  induction h with
  | nil => simp [skipNested]
  | plain hquote hslash _ ih => simpa [skipNested, hquote, hslash] using ih
  | escape c _ ih => simpa [skipNested] using ih

theorem skipNested_byte {c : UInt8} (hquote : c ≠ 0x22) (hopened : c ≠ opened) (hclosed : c ≠ closed) (rest : Bytes) :
    skipNested opened closed false false depth (c :: rest) = skipNested opened closed false false depth rest := by
  rw [skipNested, if_neg hquote, if_neg hopened, if_neg hclosed]

/-- Inside of the brackets that are counted, a text with matched brackets is passed. -/
theorem skipNested_text {s : Bytes} (h : JsonText s)
    (hpair : opened = 0x5B ∧ closed = 0x5D ∨ opened = 0x7B ∧ closed = 0x7D) (hdepth : 0 < depth) (rest : Bytes) :
    skipNested opened closed false false depth (s ++ rest) = skipNested opened closed false false depth rest := by
  induction h generalizing depth rest with
  | nil => rfl
  | @byte c s hquote hbracket _ ih =>
    simp only [IsBracket, not_or] at hbracket
    have hother : c ≠ opened ∧ c ≠ closed := by
      rcases hpair with ⟨rfl, rfl⟩ | ⟨rfl, rfl⟩
      · exact ⟨hbracket.1, hbracket.2.1⟩
      · exact ⟨hbracket.2.2.1, hbracket.2.2.2⟩
    rw [List.cons_append, skipNested_byte hquote hother.1 hother.2, ih hdepth]
  | string hbody _ ih =>
    rw [List.cons_append, List.append_assoc, List.cons_append, skipNested, if_pos rfl, skipNested_body hbody, ih hdepth]
  | array _ _ ihinner ih =>
    rw [List.cons_append, List.append_assoc, List.cons_append]
    rcases hpair with ⟨rfl, rfl⟩ | ⟨rfl, rfl⟩
    · rw [skipNested, if_neg (by decide), if_pos rfl, ihinner (by omega), skipNested, if_neg (by decide),
        if_neg (by decide), if_pos rfl, if_neg (by omega), Nat.add_sub_cancel, ih hdepth]
    · rw [skipNested_byte (by decide) (by decide) (by decide), ihinner hdepth,
        skipNested_byte (by decide) (by decide) (by decide), ih hdepth]
  | object _ _ ihinner ih =>
    rw [List.cons_append, List.append_assoc, List.cons_append]
    rcases hpair with ⟨rfl, rfl⟩ | ⟨rfl, rfl⟩
    · rw [skipNested_byte (by decide) (by decide) (by decide), ihinner hdepth,
        skipNested_byte (by decide) (by decide) (by decide), ih hdepth]
    · rw [skipNested, if_neg (by decide), if_pos rfl, ihinner (by omega), skipNested, if_neg (by decide),
        if_neg (by decide), if_pos rfl, if_neg (by omega), Nat.add_sub_cancel, ih hdepth]

theorem skipNested_whole {inner : Bytes} (h : JsonText inner)
    (hpair : opened = 0x5B ∧ closed = 0x5D ∨ opened = 0x7B ∧ closed = 0x7D) (rest : Bytes) :
    skipNested opened closed false false 0 (opened :: (inner ++ closed :: rest)) = some rest := by
  have hother : opened ≠ 0x22 ∧ closed ≠ 0x22 ∧ closed ≠ opened := by
    rcases hpair with ⟨rfl, rfl⟩ | ⟨rfl, rfl⟩ <;> decide
  rw [skipNested, if_neg hother.1, if_pos rfl, skipNested_text h hpair (by omega), skipNested, if_neg hother.2.1,
    if_neg hother.2.2, if_pos rfl, if_pos rfl]

end Nested

theorem skipSegmentArray_text {fields : Bytes} (h : JsonText fields) (rest : Bytes) :
    skipSegmentArray (fields ++ 0x5D :: rest) = some rest := by
  rw [skipSegmentArray, skipSegmentLoop_eq, skipNested_text h (.inl ⟨rfl, rfl⟩) (by omega), skipNested,
    if_neg (by decide), if_neg (by decide), if_pos rfl, if_pos rfl]

theorem jsonValue_head {value : Bytes} (h : JsonValue value) :
    ∃ c s, value = c :: s ∧ isSpace c = false ∧ c ≠ 0x5D := by
  cases h with
  | scalar hne h =>
    obtain ⟨c, s, rfl⟩ := List.exists_cons_of_ne_nil hne
    have hc := isScalarByte_spec c (h c (by simp))
    exact ⟨c, s, rfl, hc.1, hc.2.2.2.2.2.1⟩
  | string => exact ⟨_, _, rfl, rfl, by decide⟩
  | array => exact ⟨_, _, rfl, rfl, by decide⟩
  | object => exact ⟨_, _, rfl, rfl, by decide⟩

theorem skipJsonValue_value {value : Bytes} (h : JsonValue value) {after : Bytes} (hafter : Blank after)
    (rest : Bytes) : skipJsonValue (value ++ (after ++ 0x2C :: rest)) = some (after ++ 0x2C :: rest) := by
  obtain ⟨c, s, hvalue, hc, -⟩ := jsonValue_head h
  have hskip : skipSpace (value ++ (after ++ 0x2C :: rest)) = value ++ (after ++ 0x2C :: rest) := by
    rw [hvalue]
    exact skipSpace_cons hc _
  rw [skipJsonValue, hskip]
  cases h with
  | scalar hne h =>
    subst hvalue
    have hbyte := isScalarByte_spec c (h c (by simp))
    rw [List.cons_append]
    dsimp only
    rw [if_neg hbyte.2.1, if_neg hbyte.2.2.1, if_neg hbyte.2.2.2.1, ← List.cons_append, List.dropWhile_append_of_pos]
    · congr 1
      cases after with
      | nil => rfl
      | cons d after => simp [isSpace_of_isBlank d (hafter d (by simp))]
    · intro d hd
      have hd := isScalarByte_spec d (h d hd)
      simp [hd]
  | string hbody =>
    rw [List.cons_append, List.append_assoc]
    dsimp only
    rw [if_pos rfl]
    exact skipJsonString_of_body hbody _
  | array hinner =>
    rw [List.cons_append, List.append_assoc]
    dsimp only
    rw [if_neg (by decide), if_pos rfl]
    exact skipNested_whole hinner (.inl ⟨rfl, rfl⟩) _
  | object hinner =>
    rw [List.cons_append, List.append_assoc]
    dsimp only
    rw [if_neg (by decide), if_neg (by decide), if_pos rfl]
    exact skipNested_whole hinner (.inr ⟨rfl, rfl⟩) _

theorem arrayElementFrom_values {n : Nat} {values before : Bytes} (h : ValuesBefore n values) (hbefore : Blank before)
    {c : UInt8} (hspace : isSpace c = false) (hclosed : c ≠ 0x5D) (rest : Bytes) :
    arrayElementFrom n (values ++ (before ++ c :: rest)) = some (c :: rest) := by
  induction h with
  | zero =>
    rw [arrayElementFrom, List.nil_append, skipSpace_blank hbefore hspace]
    dsimp only
    rw [if_neg hclosed]
  | @succ n blank value after values hblank hvalue hafter _ ih =>
    obtain ⟨d, s, rfl, hd, hne⟩ := jsonValue_head hvalue
    have hskip := skipJsonValue_value hvalue hafter (values ++ (before ++ c :: rest))
    rw [List.cons_append] at hskip
    rw [arrayElementFrom, show blank ++ (d :: s ++ (after ++ 0x2C :: values)) ++ (before ++ c :: rest) =
      blank ++ d :: (s ++ (after ++ 0x2C :: (values ++ (before ++ c :: rest)))) by simp, skipSpace_blank hblank hd]
    dsimp only
    rw [if_neg hne, hskip]
    dsimp only
    rw [skipSpace_blank hafter rfl]
    exact ih

theorem getJsonArrayElement_values {n : Nat} {lead values before : Bytes} (hlead : Blank lead)
    (h : ValuesBefore n values)
    (hbefore : Blank before) {c : UInt8} (hspace : isSpace c = false) (hclosed : c ≠ 0x5D) (rest : Bytes) :
    getJsonArrayElement (lead ++ 0x5B :: (values ++ (before ++ c :: rest))) n = some (c :: rest) := by
  rw [getJsonArrayElement, skipSpace_blank hlead rfl]
  exact arrayElementFrom_values h hbefore hspace hclosed rest

theorem getJsonArrayElement_zero {before : Bytes} (hbefore : Blank before) {c : UInt8} (hspace : isSpace c = false)
    (hclosed : c ≠ 0x5D) (rest : Bytes) : getJsonArrayElement (0x5B :: (before ++ c :: rest)) 0 = some (c :: rest) := by
  have hnone : Blank [] := by simp [Blank]
  exact getJsonArrayElement_values hnone .zero hbefore hspace hclosed rest

/-! ## Segments -/

/-- An array whose first element is a chunk. -/
inductive Segment (chunk : List Char) : Bytes → Prop
  | mk {blank encoded fields : Bytes} (hblank : Blank blank) (hchunk : TextEscaped chunk encoded)
      (hfields : JsonText fields) :
    Segment chunk (0x5B :: (blank ++ 0x22 :: (encoded ++ 0x22 :: (fields ++ [0x5D]))))

/-- Segments with commas between them, and the end of the list. -/
inductive Segments : List (List Char) → Bytes → Prop
  | last {chunk : List Char} {before segment after : Bytes} (hbefore : Blank before) (hsegment : Segment chunk segment)
      (hafter : Blank after) : Segments [chunk] (before ++ (segment ++ (after ++ [0x5D])))
  | more {chunk : List Char} {chunks : List (List Char)} {before segment after rest : Bytes} (hbefore : Blank before)
      (hsegment : Segment chunk segment) (hafter : Blank after) (h : Segments chunks rest) :
    Segments (chunk :: chunks) (before ++ (segment ++ (after ++ 0x2C :: rest)))

/-- The chunks are NUL-free and short, and there is text, which the output holds. -/
structure ChunksFit (outSize : Nat) (chunks : List (List Char)) : Prop where
  noNul : ∀ chunk ∈ chunks, (0 : UInt8) ∉ utf8 chunk
  short : ∀ chunk ∈ chunks, (utf8 chunk).length ≤ translateMaxTextBytes
  nonempty : chunks.flatMap utf8 ≠ []
  room : (chunks.flatMap utf8).length < outSize

theorem segmentsLoop_round {outSize fuel : Nat} {p inside start content stop chunk out out' after next : Bytes}
    {c : UInt8} (hopen : skipSpace p = 0x5B :: inside) (hquote : skipSpace inside = 0x22 :: start)
    (hend : jsonStringEnd start = some (content, stop))
    (hchunk : jsonUnescapeString (translateMaxTextBytes + 1) content = some chunk)
    (hout : append outSize out chunk = some out')
    (hclose : skipSegmentArray (stop.drop 1) = some after) (hnext : skipSpace after = c :: next) :
    segmentsLoop outSize (fuel + 1) p out = if c = 0x2C then segmentsLoop outSize fuel next out' else some out' := by
  simp only [segmentsLoop, hopen, hquote, hend, hchunk, hout, hclose, hnext]
  by_cases hc : c = 0x2C
  · subst hc
    rfl
  · rw [if_neg hc]
    split
    · rename_i heq
      exact absurd (List.cons.inj heq).1 hc
    · rfl

theorem segmentsLoop_segment {chunk : List Char} {before segment after : Bytes} (hbefore : Blank before)
    (h : Segment chunk segment)
    (hafter : Blank after) (hzero : (0 : UInt8) ∉ utf8 chunk) (hshort : (utf8 chunk).length ≤ translateMaxTextBytes)
    {outSize : Nat} {out : Bytes} (hroom : out.length + (utf8 chunk).length < outSize) (fuel : Nat) {c : UInt8}
    (hc : isSpace c = false) (next : Bytes) :
    segmentsLoop outSize (fuel + 1) (before ++ (segment ++ (after ++ c :: next))) out =
      if c = 0x2C then segmentsLoop outSize fuel next (out ++ utf8 chunk) else some (out ++ utf8 chunk) := by
  obtain ⟨hblank, hchunk, hfields⟩ := h
  have hescaped := hchunk.jsonEscaped hzero
  rename_i blank encoded fields
  have hshape : 0x5B :: (blank ++ 0x22 :: (encoded ++ 0x22 :: (fields ++ [0x5D]))) ++ (after ++ c :: next) =
      0x5B :: (blank ++ 0x22 :: (encoded ++ 0x22 :: (fields ++ 0x5D :: (after ++ c :: next)))) := by simp
  rw [hshape]
  apply segmentsLoop_round (skipSpace_blank hbefore rfl _) (skipSpace_blank hblank rfl _)
    (jsonStringEnd_of_body hescaped.body _) (jsonUnescapeString_escaped hescaped (Nat.lt_succ_of_le hshort))
    (append_of_lt hroom)
  · exact skipSegmentArray_text hfields _
  · exact skipSpace_blank hafter hc _

theorem Segments.length_le {chunks : List (List Char)} {s : Bytes} (h : Segments chunks s) :
    chunks.length ≤ s.length := by
  induction h with
  | last =>
    simp only [List.length_cons, List.length_append, List.length_nil]
    omega
  | more =>
    simp only [List.length_cons, List.length_append]
    omega

theorem segmentsLoop_segments {chunks : List (List Char)} {s : Bytes} (h : Segments chunks s)
    (hzero : ∀ chunk ∈ chunks, (0 : UInt8) ∉ utf8 chunk)
    (hshort : ∀ chunk ∈ chunks, (utf8 chunk).length ≤ translateMaxTextBytes)
    {outSize fuel : Nat} {out : Bytes} (hroom : out.length + (chunks.flatMap utf8).length < outSize)
    (hfuel : chunks.length ≤ fuel)
    (tail : Bytes) : segmentsLoop outSize fuel (s ++ tail) out = some (out ++ chunks.flatMap utf8) := by
  induction h generalizing fuel out with
  | last hbefore hsegment hafter =>
    obtain ⟨fuel, rfl⟩ : ∃ n, fuel = n + 1 := ⟨fuel - 1, by simp at hfuel; omega⟩
    rw [List.flatMap_singleton] at hroom ⊢
    rw [List.append_assoc, List.append_assoc, List.append_assoc, List.singleton_append,
      segmentsLoop_segment hbefore hsegment
      hafter (hzero _ (by simp)) (hshort _ (by simp)) hroom fuel rfl, if_neg (by decide)]
  | more hbefore hsegment hafter _ ih =>
    obtain ⟨fuel, rfl⟩ : ∃ n, fuel = n + 1 := ⟨fuel - 1, by simp at hfuel; omega⟩
    rw [List.flatMap_cons, List.length_append] at hroom
    rw [List.length_cons] at hfuel
    rw [List.append_assoc, List.append_assoc, List.append_assoc, List.cons_append,
      segmentsLoop_segment hbefore hsegment hafter
      (hzero _ (by simp)) (hshort _ (by simp)) (by omega) fuel rfl, if_pos rfl,
      ih (fun d hd => hzero d (List.mem_cons_of_mem _ hd)) (fun d hd => hshort d (List.mem_cons_of_mem _ hd))
        (by rw [List.length_append]; omega) (by omega), List.flatMap_cons, List.append_assoc]

theorem parseSegmentsList_segments {chunks : List (List Char)} {s : Bytes} (h : Segments chunks s) {outSize : Nat}
    (hfits : ChunksFit outSize chunks) (tail : Bytes) :
    parseSegmentsList outSize (0x5B :: (s ++ tail)) = some (chunks.flatMap utf8) := by
  have hfuel : chunks.length ≤ (s ++ tail).length + 1 := by
    have hle := h.length_le
    rw [List.length_append]
    omega
  have hopen : skipSpace (0x5B :: (s ++ tail)) = 0x5B :: (s ++ tail) := skipSpace_cons rfl _
  have hloop := @segmentsLoop_segments _ _ h hfits.noNul hfits.short outSize _ [] (by simpa using hfits.room) hfuel tail
  simp only [parseSegmentsList, hopen, hloop]
  simp [hfits.nonempty]

/-! ## The responses -/

/-- A GTX response: the list of segments is the first element of an array. -/
inductive GtxResponse (chunks : List (List Char)) : Bytes → Prop
  | mk {before inside segments tail : Bytes} (hbefore : Blank before) (hinside : Blank inside)
      (h : Segments chunks segments) :
    GtxResponse chunks (before ++ 0x5B :: (inside ++ 0x5B :: (segments ++ tail)))

theorem parseGtxResponse_eq {chunks : List (List Char)} {body : Bytes} (h : GtxResponse chunks body) {outSize : Nat}
    (hfits : ChunksFit outSize chunks) : parseGtxResponse outSize body = some (chunks.flatMap utf8) := by
  obtain ⟨hbefore, hinside, hsegments⟩ := h
  have hroom := hfits.room
  have hsize : outSize ≠ 0 := by omega
  have hopen (rest : Bytes) := skipSpace_blank hbefore (c := 0x5B) rfl rest
  simp only [parseGtxResponse, hsize, if_false, hopen]
  rw [skipSpace_blank hinside rfl]
  exact parseSegmentsList_segments hsegments hfits _

/-- The payload of an RPC response: the list of segments is `result[1][0][0][5]`. -/
inductive RpcResult (chunks : List (List Char)) : Bytes → Prop
  | mk {b₀ b₁ b₂ b₃ b₄ first values segments tail : Bytes} (h₀ : Blank b₀) (h₁ : Blank b₁) (h₂ : Blank b₂)
      (h₃ : Blank b₃)
      (h₄ : Blank b₄) (hfirst : ValuesBefore 1 first) (hvalues : ValuesBefore 5 values) (h : Segments chunks segments) :
    RpcResult chunks (b₀ ++ 0x5B :: (first ++ (b₁ ++ 0x5B :: (b₂ ++ 0x5B :: (b₃ ++ 0x5B :: (values ++
      (b₄ ++ 0x5B :: (segments ++ tail))))))))

theorem rpcSegments_eq {chunks : List (List Char)} {result : Bytes} (h : RpcResult chunks result) {outSize : Nat}
    (hfits : ChunksFit outSize chunks) :
    (rpcSegments result).bind (parseSegmentsList outSize) = some (chunks.flatMap utf8) := by
  obtain ⟨h₀, h₁, h₂, h₃, h₄, hfirst, hvalues, hsegments⟩ := h
  have hnone : Blank [] := by simp [Blank]
  have hsixth := getJsonArrayElement_values hnone hvalues h₄ (c := 0x5B) rfl (by decide)
  rw [rpcSegments, getJsonArrayElement_values h₀ hfirst h₁ rfl (by decide), Option.bind_eq_bind, Option.bind_some,
    getJsonArrayElement_zero h₂ rfl (by decide), Option.bind_some, getJsonArrayElement_zero h₃ rfl (by decide),
    Option.bind_some]
  simp only [List.nil_append] at hsixth
  rw [hsixth, Option.bind_some]
  exact parseSegmentsList_segments hsegments hfits _

/-- `wrb.fr` in quotes. -/
def envelopeMarker : Bytes := ascii "\"wrb.fr\""

/-- An RPC response: an envelope with the id of the call and the payload, a string that spells the result. -/
inductive RpcResponse (chunks : List (List Char)) : Bytes → Prop
  | mk {lead b₀ b₁ b₂ b₃ id payload tail : Bytes} {result : List Char} (hlead : FirstBehind lead envelopeMarker)
      (h₀ : Blank b₀)
      (h₁ : Blank b₁) (h₂ : Blank b₂) (h₃ : Blank b₃) (hid : StringBody id) (hpayload : TextEscaped result payload)
      (hzero : (0 : UInt8) ∉ utf8 result) (h : RpcResult chunks (utf8 result)) :
    RpcResponse chunks (lead ++ (envelopeMarker ++ (b₀ ++ 0x2C :: (b₁ ++ 0x22 :: (id ++ 0x22 :: (b₂ ++ 0x2C ::
      (b₃ ++ 0x22 :: (payload ++ 0x22 :: tail))))))))

theorem comma_notMem {b : Bytes} (h : Blank b) : (0x2C : UInt8) ∉ envelopeMarker ++ b := by
  rw [List.mem_append, not_or]
  refine ⟨by decide, fun hmem => ?_⟩
  exact absurd (h _ hmem) (by decide)

theorem rpcPayload_eq {lead b₀ b₁ b₂ b₃ id payload : Bytes} (hlead : FirstBehind lead envelopeMarker) (h₀ : Blank b₀)
    (h₁ : Blank b₁) (h₂ : Blank b₂) (h₃ : Blank b₃) (hid : StringBody id) (hpayload : StringBody payload)
    (tail : Bytes) :
    rpcPayload (lead ++ (envelopeMarker ++ (b₀ ++ 0x2C :: (b₁ ++ 0x22 :: (id ++ 0x22 :: (b₂ ++ 0x2C ::
      (b₃ ++ 0x22 :: (payload ++ 0x22 :: tail)))))))) = some payload := by
  have hcomma (rest : Bytes) : strchr (envelopeMarker ++ (b₀ ++ 0x2C :: rest)) 0x2C = some (0x2C :: rest) := by
    rw [← List.append_assoc]
    exact strchr_eq (comma_notMem h₀) rest
  have hmarker (rest : Bytes) :
      strstr (lead ++ (envelopeMarker ++ rest)) (ascii "\"wrb.fr\"") = some (envelopeMarker ++ rest) :=
    strstr_eq hlead rest
  have hquote (rest : Bytes) : skipSpace (b₁ ++ 0x22 :: rest) = 0x22 :: rest := skipSpace_blank h₁ rfl rest
  have hid' (rest : Bytes) := skipJsonString_of_body hid rest
  have hcomma' (rest : Bytes) : skipSpace (b₂ ++ 0x2C :: rest) = 0x2C :: rest := skipSpace_blank h₂ rfl rest
  have hstart (rest : Bytes) : skipSpace (b₃ ++ 0x22 :: rest) = 0x22 :: rest := skipSpace_blank h₃ rfl rest
  simp only [rpcPayload, hmarker, hcomma, hquote, hid', hcomma', hstart, Option.bind_eq_bind, Option.bind_some,
    List.drop_succ_cons, List.drop_zero, List.head?_cons, if_true, jsonStringEnd_of_body hpayload, Option.map_some]

theorem parseRpcResponse_eq {chunks : List (List Char)} {body : Bytes} (h : RpcResponse chunks body) {outSize : Nat}
    (hfits : ChunksFit outSize chunks) : parseRpcResponse outSize body = some (chunks.flatMap utf8) := by
  obtain ⟨hlead, h₀, h₁, h₂, h₃, hid, hpayload, hzero, hresult⟩ := h
  have hescaped := hpayload.jsonEscaped hzero
  have hsize : outSize ≠ 0 := by
    have hroom := hfits.room
    omega
  rw [parseRpcResponse, if_neg hsize, rpcPayload_eq hlead h₀ h₁ h₂ h₃ hid hescaped.body]
  dsimp only
  rw [jsonUnescapeString_escaped hescaped (Nat.lt_succ_of_le hescaped.length_le)]
  dsimp only
  rw [rpcSegments_eq hresult hfits]
  rfl

end VlcWhisper.Worker
