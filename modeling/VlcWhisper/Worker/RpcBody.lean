import VlcWhisper.Worker.JsonStrings
import VlcWhisper.Worker.SourceUri

/-!
# The body of a translation request (`vw_translate.c`)

`build_rpc_body` escapes the text as a JSON string, puts it with the languages into a JSON array, escapes that array
as a JSON string of the call, and percent-encodes the call. Each stage writes to a buffer of its own.

Main result: `rpc_body_round_trip`. Every text of the protocol goes through all the buffers, and what reads the body
back stage by stage finds the text and the languages.
-/

namespace VlcWhisper.Worker

open VlcWhisper.Lib

/-- `VW_TRANSLATE_RPC_JSON_BYTES`. -/
def rpcJsonBytes : Nat := translateMaxTextBytes * 8 + 512

/-- `VW_TRANSLATE_RPC_BODY_BYTES`. -/
def rpcBodyBytes : Nat := 65536

/-- `hex[n]`. -/
def upperHex (n : UInt8) : UInt8 := (ascii "0123456789ABCDEF").getD n.toNat 0

/-- The loop of `vw_url_encode` and of `json_escape_string`: what each byte is written as, where it leaves room for the
terminator. -/
def escapeBytes (escape : UInt8 → Bytes) (size : Nat) (s : Bytes) : Option Bytes :=
  if size = 0 then none else s.foldlM (fun dst c => append size dst (escape c)) []

/-- The bytes that `vw_url_encode` keeps. -/
def isUnreserved (c : UInt8) : Bool :=
  (0x61 ≤ c && c ≤ 0x7A) || (0x41 ≤ c && c ≤ 0x5A) || (0x30 ≤ c && c ≤ 0x39) || c = 0x2D || c = 0x5F ||
    c = 0x2E || c = 0x7E

def urlEscapeOf (c : UInt8) : Bytes :=
  if isUnreserved c then [c] else [0x25, upperHex (c >>> 4), upperHex (c &&& 0x0F)]

/-- `vw_url_encode`. -/
def urlEncode (size : Nat) (s : Bytes) : Option Bytes := escapeBytes urlEscapeOf size s

/-- The letter of a two-byte escape. -/
def escapeLetter (c : UInt8) : Option UInt8 :=
  if c = 0x22 || c = 0x5C then some c
  else if c = 0x08 then some 0x62
  else if c = 0x0C then some 0x66
  else if c = 0x0A then some 0x6E
  else if c = 0x0D then some 0x72
  else if c = 0x09 then some 0x74
  else none

def jsonEscapeOf (c : UInt8) : Bytes :=
  match escapeLetter c with
  | some letter => [0x5C, letter]
  | none => if c < 0x20 then [0x5C, 0x75, 0x30, 0x30, upperHex (c >>> 4), upperHex (c &&& 0x0F)] else [c]

/-- `json_escape_string`. -/
def jsonEscapeString (size : Nat) (s : Bytes) : Option Bytes := escapeBytes jsonEscapeOf size s

/-- `snprintf` into a buffer of `size` bytes, with the check that nothing was cut off. -/
def formatted (size : Nat) (s : Bytes) : Option Bytes := if size ≤ s.length then none else some s

/-- What `build_rpc_body` formats around the escaped text and languages. -/
def innerJson (text src dst : Bytes) : Bytes :=
  ascii "[[\"" ++ text ++ ascii "\",\"" ++ src ++ ascii "\",\"" ++ dst ++ ascii "\",true],[null]]"

/-- What it formats around the escaped inner array. -/
def rpcJson (inner : Bytes) : Bytes := ascii "[[[\"MkEWBc\",\"" ++ inner ++ ascii "\",null,\"generic\"]]]"

/-- `build_rpc_body`; `memory` says whether its buffers are allocated. -/
def buildRpcBody (memory : Bool) (text src dst : Bytes) (outSize : Nat) : Option Bytes :=
  if outSize = 0 || !memory then none
  else do
    let escapedText ← jsonEscapeString (translateMaxTextBytes * 6 + 1) text
    let escapedSrc ← jsonEscapeString 128 src
    let escapedDst ← jsonEscapeString 128 dst
    let inner ← formatted rpcJsonBytes (innerJson escapedText escapedSrc escapedDst)
    let escapedInner ← jsonEscapeString (rpcJsonBytes * 2) inner
    let rpc ← formatted (rpcJsonBytes * 2 + 128) (rpcJson escapedInner)
    let encoded ← urlEncode (rpcBodyBytes - 16) rpc
    formatted outSize (ascii "f.req=" ++ encoded)

/-- The letters, digits and hyphens of a language tag. -/
def isTagByte (c : UInt8) : Bool :=
  (0x61 ≤ c && c ≤ 0x7A) || (0x41 ≤ c && c ≤ 0x5A) || (0x30 ≤ c && c ≤ 0x39) || c = 0x2D

/-- `is_valid_lang_tag`. -/
def isValidLangTag (lang : Bytes) (allowAuto : Bool) : Bool :=
  if lang = [] then false
  else if allowAuto && lang = ascii "auto" then true
  else if lang.length < 2 || 15 < lang.length then false
  else lang.all isTagByte

/-! ## Reading a body back -/

/-- The string behind `lead`, decoded, and what follows it from its closing quote on. -/
def stringBehind (lead s : Bytes) : Option (Bytes × Bytes) :=
  if lead.isPrefixOf s then do
    let (content, rest) ← jsonStringEnd (s.drop lead.length)
    let decoded ← jsonUnescapeString (content.length + 1) content
    some (decoded, rest)
  else none

/-- The text and the languages of a request. -/
def readRequest (body : Bytes) : Option (Bytes × Bytes × Bytes) := do
  let rpc := unescaped id (body.drop (ascii "f.req=").length)
  let (inner, _) ← stringBehind (ascii "[[[\"MkEWBc\",\"") rpc
  let (text, rest) ← stringBehind (ascii "[[\"") inner
  let (src, rest) ← stringBehind (ascii "\",\"") rest
  let (dst, _) ← stringBehind (ascii "\",\"") rest
  some (text, src, dst)

/-! ## The loops -/

theorem escapeBytes_eq {escape : UInt8 → Bytes} {size : Nat} {s : Bytes} (h : (s.flatMap escape).length < size) :
    escapeBytes escape size s = some (s.flatMap escape) := by
  have hrun (dst : Bytes) (hdst : dst.length + (s.flatMap escape).length < size) :
      s.foldlM (fun dst c => append size dst (escape c)) dst = some (dst ++ s.flatMap escape) := by
    clear h
    induction s generalizing dst with
    | nil => simp
    | cons c s ih =>
      rw [List.flatMap_cons, List.length_append] at hdst
      rw [List.foldlM_cons, append_of_lt (by omega), Option.bind_eq_bind, Option.bind_some,
        ih _ (by rw [List.length_append]; omega), List.flatMap_cons, List.append_assoc]
  rw [escapeBytes, if_neg (by omega), hrun [] (by simpa using h)]
  rfl

theorem flatMap_length_le {escape : UInt8 → Bytes} {k : Nat} {s : Bytes} (h : ∀ c ∈ s, (escape c).length ≤ k) :
    (s.flatMap escape).length ≤ k * s.length := by
  induction s with
  | nil => simp
  | cons c s ih =>
    have hc := h c (by simp)
    have hs := ih fun d hd => h d (List.mem_cons_of_mem _ hd)
    rw [List.flatMap_cons, List.length_append, List.length_cons, Nat.mul_add]
    omega

theorem formatted_eq {size : Nat} {s : Bytes} (h : s.length < size) : formatted size s = some s := if_neg (not_le.mpr h)

/-! ## JSON escapes -/

theorem jsonEscapeOf_bounds (c : UInt8) :
    (jsonEscapeOf c).length ≤ 6 ∧ (0x20 ≤ c → (jsonEscapeOf c).length ≤ 2) ∧ ∀ b ∈ jsonEscapeOf c, 0x20 ≤ b := by
  have hall : ∀ c, (jsonEscapeOf c).length ≤ 6 ∧ (0x20 ≤ c → (jsonEscapeOf c).length ≤ 2) ∧
      (jsonEscapeOf c).all (fun b => 0x20 ≤ b) = true := by
    apply forall_byte
    decide
  obtain ⟨hsix, htwo, hle⟩ := hall c
  exact ⟨hsix, htwo, forall_mem_of_all hle⟩

theorem escapeLetter_spec (c : UInt8) :
    (∀ letter ∈ escapeLetter c, jsonEscape letter = some c) ∧ (escapeLetter c = none → c ≠ 0x22 ∧ c ≠ 0x5C) := by
  have hall : ∀ c, (escapeLetter c).toList.all (fun letter => jsonEscape letter = some c) = true ∧
      (escapeLetter c = none → c ≠ 0x22 ∧ c ≠ 0x5C) := by
    apply forall_byte
    decide
  refine ⟨fun letter hletter => ?_, (hall c).2⟩
  exact forall_mem_of_all (hall c).1 letter (Option.mem_toList.mpr hletter)

theorem control_spec (c : UInt8) : c ≠ 0 → c < 0x20 →
    digitsValue 16 [0x30, 0x30, upperHex (c >>> 4), upperHex (c &&& 0x0F)] = some c.toNat ∧
      utf8Scalar c.toNat = some [c] := by
  revert c
  apply forall_byte
  decide

theorem escapePiece_jsonEscapeOf {c : UInt8} (hc : c ≠ 0) : EscapePiece [c] (jsonEscapeOf c) := by
  have hspec := escapeLetter_spec c
  unfold jsonEscapeOf
  split
  · rename_i letter hletter
    exact .letter (hspec.1 letter hletter)
  · rename_i hnone
    by_cases hcontrol : c < 0x20
    · obtain ⟨hvalue, hbytes⟩ := control_spec c hc hcontrol
      rw [if_pos hcontrol]
      exact .unicode ⟨rfl, hvalue⟩ hbytes
    · rw [if_neg hcontrol]
      exact .plain (UInt8.not_lt.mp hcontrol) (hspec.2 hnone).1 (hspec.2 hnone).2

theorem jsonEscaped_flatMap {s : Bytes} (hzero : (0 : UInt8) ∉ s) : JsonEscaped s (s.flatMap jsonEscapeOf) := by
  induction s with
  | nil => exact .nil
  | cons c s ih =>
    rw [List.mem_cons, not_or] at hzero
    exact .cons (escapePiece_jsonEscapeOf (Ne.symm hzero.1)) (ih hzero.2)

theorem flatMap_jsonEscapeOf_length (s : Bytes) : (s.flatMap jsonEscapeOf).length ≤ 6 * s.length := by
  apply flatMap_length_le
  intro c _
  exact (jsonEscapeOf_bounds c).1

theorem le_of_mem_jsonEscapeOf {s : Bytes} : ∀ b ∈ s.flatMap jsonEscapeOf, 0x20 ≤ b := by
  intro b hb
  obtain ⟨c, -, hb⟩ := List.mem_flatMap.mp hb
  exact (jsonEscapeOf_bounds c).2.2 b hb

theorem flatMap_jsonEscapeOf_length_two {s : Bytes} (h : ∀ b ∈ s, 0x20 ≤ b) :
    (s.flatMap jsonEscapeOf).length ≤ 2 * s.length := by
  apply flatMap_length_le
  intro c hc
  exact (jsonEscapeOf_bounds c).2.1 (h c hc)

/-! ## Percent-encoding -/

theorem urlEscapeOf_spec (c : UInt8) : (urlEscapeOf c).length ≤ 3 ∧ (isUnreserved c = true → c ≠ 0x25) ∧
    twoDigits (upperHex (c >>> 4)) (upperHex (c &&& 0x0F)) = some c.toNat := by
  revert c
  apply forall_byte
  decide

theorem percentEncodes_flatMap (s : Bytes) : PercentEncodes s (s.flatMap urlEscapeOf) := by
  induction s with
  | nil => exact .nil
  | cons c s ih =>
    have hspec := urlEscapeOf_spec c
    rw [List.flatMap_cons, urlEscapeOf]
    split
    · rename_i hplain
      exact .plain (hspec.2.1 hplain) ih
    · exact .escaped hspec.2.2 ih

theorem unescaped_of_encodes {path body : Bytes} (h : PercentEncodes path body) : unescaped id body = path := by
  induction h with
  | nil => rfl
  | @plain c path body hc _ ih =>
    have hnone : escapeAt twoDigits (c :: body) = none := by
      by_contra hne
      obtain ⟨⟨m, t⟩, hsome⟩ := Option.ne_none_iff_exists'.mp hne
      exact hc (escapeAt_eq_some.mp hsome).1
    rw [unescaped_cons, hnone]
    dsimp only
    rw [ih]
    rfl
  | @escaped c a b path body hc _ ih =>
    rw [unescaped_cons, escapeAt_eq_some.mpr ⟨rfl, a, b, rfl, hc⟩]
    dsimp only
    rw [ih, UInt8.ofNat_toNat]

/-! ## The round trip -/

theorem isTagByte_spec (c : UInt8) : isTagByte c = true → c ≠ 0 := by
  revert c
  apply forall_byte
  decide

theorem isValidLangTag_spec {lang : Bytes} {allowAuto : Bool} (h : isValidLangTag lang allowAuto = true) :
    lang.length ≤ 15 ∧ (0 : UInt8) ∉ lang := by
  unfold isValidLangTag at h
  split at h
  · cases h
  split at h
  · rename_i hauto
    simp only [Bool.and_eq_true, decide_eq_true_eq] at hauto
    rw [hauto.2]
    decide
  split at h
  · cases h
  · rename_i hlen
    simp only [Bool.or_eq_true, decide_eq_true_eq] at hlen
    refine ⟨by omega, fun hzero => ?_⟩
    exact isTagByte_spec 0 (List.all_eq_true.mp h 0 hzero) rfl

theorem stringBehind_eq {decoded encoded : Bytes} (h : JsonEscaped decoded encoded) (lead rest : Bytes) :
    stringBehind lead (lead ++ (encoded ++ 0x22 :: rest)) = some (decoded, 0x22 :: rest) := by
  rw [stringBehind, if_pos (by simp), List.drop_left, jsonStringEnd_of_body h.body, Option.bind_eq_bind,
    Option.bind_some]
  dsimp only
  rw [jsonUnescapeString_escaped h (Nat.lt_succ_of_le h.length_le)]
  rfl

section
variable {text src dst : Bytes}

/-- The inner array, whose strings are escaped. -/
def innerOf (text src dst : Bytes) : Bytes :=
  innerJson (text.flatMap jsonEscapeOf) (src.flatMap jsonEscapeOf) (dst.flatMap jsonEscapeOf)

theorem innerOf_length (hlen : text.length ≤ translateMaxTextBytes) (hsrc : src.length ≤ 15) (hdst : dst.length ≤ 15) :
    (innerOf text src dst).length ≤ 6348 := by
  have htext := flatMap_jsonEscapeOf_length text
  have hsrcs := flatMap_jsonEscapeOf_length src
  have hdsts := flatMap_jsonEscapeOf_length dst
  have hconst : (ascii "[[\"").length = 3 ∧ (ascii "\",\"").length = 3 ∧ (ascii "\",true],[null]]").length = 15 := by
    decide
  simp only [innerOf, innerJson, List.length_append, translateMaxTextBytes] at hlen ⊢
  omega

theorem innerOf_le : ∀ b ∈ innerOf text src dst, 0x20 ≤ b := by
  have hconst : (∀ b ∈ ascii "[[\"", 0x20 ≤ b) ∧ (∀ b ∈ ascii "\",\"", 0x20 ≤ b) ∧
      ∀ b ∈ ascii "\",true],[null]]", 0x20 ≤ b :=
    ⟨forall_mem_of_all (by decide), forall_mem_of_all (by decide), forall_mem_of_all (by decide)⟩
  intro b hb
  simp only [innerOf, innerJson, List.mem_append] at hb
  rcases hb with (((((hb | hb) | hb) | hb) | hb) | hb) | hb
  · exact hconst.1 b hb
  · exact le_of_mem_jsonEscapeOf b hb
  · exact hconst.2.1 b hb
  · exact le_of_mem_jsonEscapeOf b hb
  · exact hconst.2.1 b hb
  · exact le_of_mem_jsonEscapeOf b hb
  · exact hconst.2.2 b hb

theorem rpcJson_length {inner : Bytes} (hle : ∀ b ∈ inner, 0x20 ≤ b) :
    (rpcJson (inner.flatMap jsonEscapeOf)).length ≤ 2 * inner.length + 32 := by
  have hinner := flatMap_jsonEscapeOf_length_two hle
  have hconst : (ascii "[[[\"MkEWBc\",\"").length = 13 ∧ (ascii "\",null,\"generic\"]]]").length = 19 := by decide
  simp only [rpcJson, List.length_append]
  omega

theorem buildRpcBody_eq (hlen : text.length ≤ translateMaxTextBytes) (hsrc : src.length ≤ 15) (hdst : dst.length ≤ 15) :
    buildRpcBody true text src dst rpcBodyBytes =
      some (ascii "f.req=" ++ (rpcJson ((innerOf text src dst).flatMap jsonEscapeOf)).flatMap urlEscapeOf) := by
  have htext := flatMap_jsonEscapeOf_length text
  have hsrcs := flatMap_jsonEscapeOf_length src
  have hdsts := flatMap_jsonEscapeOf_length dst
  have hinner := innerOf_length hlen hsrc hdst
  have hescaped := flatMap_jsonEscapeOf_length_two (@innerOf_le text src dst)
  have hrpc := rpcJson_length (@innerOf_le text src dst)
  have hencoded : ((rpcJson ((innerOf text src dst).flatMap jsonEscapeOf)).flatMap urlEscapeOf).length ≤
      3 * (rpcJson ((innerOf text src dst).flatMap jsonEscapeOf)).length := by
    apply flatMap_length_le
    intro c _
    exact (urlEscapeOf_spec c).1
  have hconst : (ascii "f.req=").length = 6 := rfl
  have hsizes : translateMaxTextBytes = 1024 ∧ rpcJsonBytes = 8704 ∧ rpcBodyBytes = 65536 := ⟨rfl, rfl, rfl⟩
  rw [buildRpcBody, if_neg (by simp [rpcBodyBytes]), Option.bind_eq_bind, jsonEscapeString,
    escapeBytes_eq (by omega), Option.bind_some, jsonEscapeString, escapeBytes_eq (by omega),
    Option.bind_some, jsonEscapeString, escapeBytes_eq (by omega), Option.bind_some, ← innerOf,
    formatted_eq (by omega), Option.bind_some, jsonEscapeString,
    escapeBytes_eq (by omega), Option.bind_some,
    formatted_eq (by omega), Option.bind_some, urlEncode,
    escapeBytes_eq (by omega), Option.bind_some,
    formatted_eq (by rw [List.length_append]; omega)]

/-- A reader of the call finds the inner array, and in it the text and the languages. -/
theorem readRequest_eq (htext : (0 : UInt8) ∉ text) (hsrc : (0 : UInt8) ∉ src) (hdst : (0 : UInt8) ∉ dst) :
    readRequest (ascii "f.req=" ++ (rpcJson ((innerOf text src dst).flatMap jsonEscapeOf)).flatMap urlEscapeOf) =
      some (text, src, dst) := by
  have hzero : (0 : UInt8) ∉ innerOf text src dst := by
    intro hmem
    exact absurd (innerOf_le 0 hmem) (by decide)
  have hrpc : rpcJson ((innerOf text src dst).flatMap jsonEscapeOf) =
      ascii "[[[\"MkEWBc\",\"" ++
      ((innerOf text src dst).flatMap jsonEscapeOf ++ 0x22 :: ascii ",null,\"generic\"]]]") := by
    rw [rpcJson, List.append_assoc]
    rfl
  have hinner : innerOf text src dst = ascii "[[\"" ++ (text.flatMap jsonEscapeOf ++ 0x22 :: (ascii ",\"" ++
      (src.flatMap jsonEscapeOf ++ 0x22 ::
      (ascii ",\"" ++ (dst.flatMap jsonEscapeOf ++ 0x22 :: ascii ",true],[null]]"))))) := by
    simp only [innerOf, innerJson, List.append_assoc]
    rfl
  have hnext (s : Bytes) : 0x22 :: (ascii ",\"" ++ s) = ascii "\",\"" ++ s := rfl
  rw [readRequest]
  dsimp only
  rw [List.drop_left, unescaped_of_encodes (percentEncodes_flatMap _), hrpc,
    stringBehind_eq (jsonEscaped_flatMap hzero), Option.bind_eq_bind, Option.bind_some]
  dsimp only
  rw [hinner, stringBehind_eq (jsonEscaped_flatMap htext), Option.bind_some]
  dsimp only
  rw [hnext, stringBehind_eq (jsonEscaped_flatMap hsrc), Option.bind_some]
  dsimp only
  rw [hnext, stringBehind_eq (jsonEscaped_flatMap hdst)]
  rfl

/-- **The request carries every text and every pair of languages.** -/
theorem rpc_body_round_trip (hzero : (0 : UInt8) ∉ text) (hlen : text.length ≤ translateMaxTextBytes)
    (hsrc : isValidLangTag src true = true) (hdst : isValidLangTag dst false = true) :
    ∃ body, buildRpcBody true text src dst rpcBodyBytes = some body ∧ readRequest body = some (text, src, dst) := by
  obtain ⟨hsrcLen, hsrcZero⟩ := isValidLangTag_spec hsrc
  obtain ⟨hdstLen, hdstZero⟩ := isValidLangTag_spec hdst
  exact ⟨_, buildRpcBody_eq hlen hsrcLen hdstLen, readRequest_eq hzero hsrcZero hdstZero⟩

/-- A text with a quote, a backslash, a control character and bytes that are not UTF-8. -/
theorem rpc_body_round_trip_mixed : ∃ body,
    buildRpcBody true [0x22, 0x5C, 0x01, 0x0A, 0xFF, 0x25] (ascii "auto") (ascii "pt-BR") rpcBodyBytes = some body ∧
      readRequest body = some ([0x22, 0x5C, 0x01, 0x0A, 0xFF, 0x25], ascii "auto", ascii "pt-BR") :=
  rpc_body_round_trip (by decide) (by decide) (by decide) (by decide)

end

end VlcWhisper.Worker
