import VlcWhisper.Worker.CueText

/-!
# The translation response parsers (`vw_translate.c`)

A pointer into a NUL-terminated string is what is left of the string from there, so the terminator is the empty
list. Output buffers are lists with a bound: a write that would not leave room for the terminator fails. Each
parser returns the text it leaves in a buffer of `outSize` bytes, or none where the C function returns false.

Main result: `Tier.parse_bounds`, a parsed text is not empty and fits the buffer.
-/

namespace VlcWhisper.Worker

open VlcWhisper.Lib VlcWhisper.Protocol

def translateMaxTextBytes : Nat := 1024

/-! ## Strings -/

/-- `strstr`: the string from the first occurrence of `t` on. -/
def strstr (s t : Bytes) : Option Bytes := s.tails.find? t.isPrefixOf

/-- `strchr`: the string from the first `c` on. -/
def strchr (s : Bytes) (c : UInt8) : Option Bytes :=
  match s.dropWhile (· ≠ c) with
  | [] => none
  | rest => some rest

/-- `while (*p && isspace(*p)) p++`. -/
def skipSpace (s : Bytes) : Bytes := s.dropWhile isSpace

/-- Append to a buffer of `size` bytes, with room for a terminator. -/
def append (size : Nat) (dst bytes : Bytes) : Option Bytes :=
  if size ≤ dst.length + bytes.length then none else some (dst ++ bytes)

/-- The encoding of a Unicode scalar but 0. -/
def utf8Scalar (code : Nat) : Option Bytes :=
  if code = 0 || 0x10FFFF < code || (0xD800 ≤ code && code ≤ 0xDFFF) then none
  else some <|
    if code ≤ 0x7F then [.ofNat code]
    else if code ≤ 0x7FF then [.ofNat (0xC0 + code / 64), .ofNat (0x80 + code % 64)]
    else if code ≤ 0xFFFF then
      [.ofNat (0xE0 + code / 4096), .ofNat (0x80 + code / 64 % 64), .ofNat (0x80 + code % 64)]
    else
      [.ofNat (0xF0 + code / 262144), .ofNat (0x80 + code / 4096 % 64), .ofNat (0x80 + code / 64 % 64),
        .ofNat (0x80 + code % 64)]

/-- `append_utf8_scalar`. -/
def appendUtf8Scalar (size : Nat) (dst : Bytes) (code : Nat) : Option Bytes := (utf8Scalar code).bind (append size dst)

/-! ## HTML -/

/-- The value of a digit in a base up to 16. -/
def digitValue (base : Nat) (c : UInt8) : Option Nat :=
  let value :=
    if 0x30 ≤ c && c ≤ 0x39 then some (c.toNat - 0x30)
    else if 0x61 ≤ c && c ≤ 0x66 then some (c.toNat - 0x61 + 10)
    else if 0x41 ≤ c && c ≤ 0x46 then some (c.toNat - 0x41 + 10)
    else none
  value.filter (· < base)

/-- The value of a non-empty string of digits. -/
def digitsValue (base : Nat) (s : Bytes) : Option Nat :=
  if s = [] then none else (s.mapM (digitValue base)).map fun ds => ds.foldl (fun n d => n * base + d) 0

/-- `strtoul` on a string it takes to its end: blanks, a sign, `0x` in base 16, digits. A negative number wraps. -/
def strtoul (base : Nat) (s : Bytes) : Option Nat :=
  let s := skipSpace s
  let (negative, s) := match s with
    | 0x2D :: s => (true, s)
    | 0x2B :: s => (false, s)
    | s => (false, s)
  let s := match s with
    | 0x30 :: x :: s => if base = 16 && (x = 0x78 || x = 0x58) then s else 0x30 :: x :: s
    | s => s
  (digitsValue base s).map fun n => if negative then (2 ^ 64 - n) % 2 ^ 64 else n

/-- The named entities and what they stand for. -/
def namedEntities : List (Bytes × UInt8) :=
  [(ascii "&quot;", 0x22), (ascii "&#39;", 0x27), (ascii "&#039;", 0x27), (ascii "&amp;", 0x26),
    (ascii "&lt;", 0x3C), (ascii "&gt;", 0x3E), (ascii "&nbsp;", 0x20)]

/-- A numeric entity at the front of `s`: its code point and how many bytes it takes. A `;` is looked for up to
byte 12, the digits are at most 8 bytes. -/
def numericEntity (s : Bytes) : Option (Nat × Nat) :=
  if s.take 2 ≠ ascii "&#" then none
  else
    let body := ((s.drop 2).take 10).takeWhile (· ≠ 0x3B)
    if s[2 + body.length]? ≠ some 0x3B then none
    else
      let hex := body.head? = some 0x78 || body.head? = some 0x58
      let digits := if hex then body.drop 1 else body
      if digits.length = 0 || 9 ≤ digits.length then none
      else match strtoul (if hex then 16 else 10) digits with
        | none => none
        | some code =>
          if 0x10FFFF < code || (0xD800 ≤ code && code ≤ 0xDFFF) || code = 0 then none
          else some (code, 3 + body.length)

/-- The loop of `vw_html_unescape`; every round takes at least one byte. -/
def htmlUnescapeLoop (size : Nat) : Nat → Bool → Bytes → Bytes → Option Bytes
  | _, _, [], dst => some dst
  | 0, _, _ :: _, _ => none
  | fuel + 1, inTag, c :: rest, dst =>
    if c = 0x3C then htmlUnescapeLoop size fuel true rest dst
    else if c = 0x3E then htmlUnescapeLoop size fuel false rest dst
    else if inTag then htmlUnescapeLoop size fuel inTag rest dst
    else match namedEntities.find? fun e => e.1.isPrefixOf (c :: rest) with
      | some (entity, value) =>
        (append size dst [value]).bind (htmlUnescapeLoop size fuel inTag ((c :: rest).drop entity.length))
      | none =>
        match numericEntity (c :: rest) with
        | some (code, len) =>
          (appendUtf8Scalar size dst code).bind (htmlUnescapeLoop size fuel inTag ((c :: rest).drop len))
        | none => (append size dst [c]).bind (htmlUnescapeLoop size fuel inTag rest)

/-- `vw_html_unescape`. -/
def htmlUnescape (size : Nat) (s : Bytes) : Option Bytes :=
  if size = 0 then none else htmlUnescapeLoop size s.length false s []

/-- `vw_translate_parse_mobile_response`. -/
def parseMobileResponse (outSize : Nat) (raw : Bytes) : Option Bytes := do
  let start ← (strstr raw (ascii "class=\"result-container\"")).or (strstr raw (ascii "class='result-container'"))
  let start ← strchr start 0x3E
  let start := start.drop 1
  let stop ← strstr start (ascii "</div>")
  let out ← htmlUnescape outSize (start.take (start.length - stop.length))
  let out := out.rdropWhile isSpace
  if out = [] then none else some out

/-! ## JSON -/

/-- `parse_hex4` on at least four bytes. -/
def parseHex4 (s : Bytes) : Option Nat := digitsValue 16 (s.take 4)

/-- What a one-letter escape stands for. -/
def jsonEscape (c : UInt8) : Option UInt8 :=
  if c = 0x22 || c = 0x5C || c = 0x2F then some c
  else if c = 0x62 then some 0x08
  else if c = 0x66 then some 0x0C
  else if c = 0x6E then some 0x0A
  else if c = 0x72 then some 0x0D
  else if c = 0x74 then some 0x09
  else none

/-- The code point of the `\u` escape whose digits start `s`, and how many bytes it takes from there; a high
surrogate needs a low one in a second escape. -/
def unicodeEscape (s : Bytes) : Option (Nat × Nat) :=
  if s.length < 4 then none
  else match parseHex4 s with
    | none => none
    | some code =>
      if 0xD800 ≤ code && code ≤ 0xDBFF then
        let rest := s.drop 4
        if rest.length < 6 || rest.take 2 ≠ ascii "\\u" then none
        else match parseHex4 (rest.drop 2) with
          | none => none
          | some low =>
            if low < 0xDC00 || 0xDFFF < low then none
            else some (0x10000 + (code - 0xD800) * 1024 + (low - 0xDC00), 10)
      else if 0xDC00 ≤ code && code ≤ 0xDFFF then none
      else some (code, 4)

/-- The loop of `json_unescape_string`; every round takes at least one byte. -/
def jsonUnescapeLoop (size : Nat) : Nat → Bytes → Bytes → Option Bytes
  | _, [], dst => some dst
  | 0, _ :: _, _ => none
  | fuel + 1, c :: rest, dst =>
    if c < 0x20 then none
    else if c ≠ 0x5C then (append size dst [c]).bind (jsonUnescapeLoop size fuel rest)
    else match rest with
      | [] => none
      | e :: rest =>
        match jsonEscape e with
        | some decoded => (append size dst [decoded]).bind (jsonUnescapeLoop size fuel rest)
        | none =>
          if e ≠ 0x75 then none
          else match unicodeEscape rest with
            | none => none
            | some (code, len) =>
              (appendUtf8Scalar size dst code).bind (jsonUnescapeLoop size fuel (rest.drop len))

/-- `json_unescape_string`. -/
def jsonUnescapeString (size : Nat) (s : Bytes) : Option Bytes :=
  if size = 0 then none else jsonUnescapeLoop size s.length s []

/-- The first quote after an even number of backslashes, `slashes` of them standing right before: what is before
the quote, and the string from it on. -/
def stringEndFrom : Nat → Bytes → Option (Bytes × Bytes)
  | _, [] => none
  | slashes, c :: rest =>
    if c = 0x22 && slashes % 2 = 0 then some ([], c :: rest)
    else (stringEndFrom (if c = 0x5C then slashes + 1 else 0) rest).map fun r => (c :: r.1, r.2)

/-- `json_string_end`. -/
def jsonStringEnd (s : Bytes) : Option (Bytes × Bytes) := stringEndFrom 0 s

/-- `skip_json_string`. -/
def skipJsonString : Bytes → Option Bytes
  | 0x22 :: rest => (jsonStringEnd rest).map fun r => r.2.drop 1
  | _ => none

/-- The loop of `skip_segment_array`. -/
def skipSegmentLoop : Bool → Bool → Nat → Bytes → Option Bytes
  | _, _, _, [] => none
  | true, true, depth, _ :: rest => skipSegmentLoop true false depth rest
  | true, false, depth, c :: rest => skipSegmentLoop (c ≠ 0x22) (c = 0x5C) depth rest
  | false, escaped, depth, c :: rest =>
    if c = 0x22 then skipSegmentLoop true escaped depth rest
    else if c = 0x5B then skipSegmentLoop false escaped (depth + 1) rest
    else if c = 0x5D then
      match depth with
      | 0 => some rest
      | depth + 1 => skipSegmentLoop false escaped depth rest
    else skipSegmentLoop false escaped depth rest

/-- `skip_segment_array`. -/
def skipSegmentArray (s : Bytes) : Option Bytes := skipSegmentLoop false false 0 s

/-- The loop of `skip_json_value` over an array or an object. -/
def skipNested (opened closed : UInt8) : Bool → Bool → Nat → Bytes → Option Bytes
  | _, _, _, [] => none
  | true, true, depth, _ :: rest => skipNested opened closed true false depth rest
  | true, false, depth, c :: rest => skipNested opened closed (c ≠ 0x22) (c = 0x5C) depth rest
  | false, esc, depth, c :: rest =>
    if c = 0x22 then skipNested opened closed true esc depth rest
    else if c = opened then skipNested opened closed false esc (depth + 1) rest
    else if c = closed then
      if depth = 1 then some rest else skipNested opened closed false esc (depth - 1) rest
    else skipNested opened closed false esc depth rest

/-- `skip_json_value`. -/
def skipJsonValue (s : Bytes) : Option Bytes :=
  match skipSpace s with
  | [] => some []
  | c :: rest =>
    if c = 0x22 then skipJsonString (c :: rest)
    else if c = 0x5B then skipNested 0x5B 0x5D false false 0 (c :: rest)
    else if c = 0x7B then skipNested 0x7B 0x7D false false 0 (c :: rest)
    else some ((c :: rest).dropWhile fun c => c ≠ 0x2C && c ≠ 0x5D && c ≠ 0x7D && !isSpace c)

/-- The loop of `get_json_array_element`, with `target` elements still to skip. -/
def arrayElementFrom : Nat → Bytes → Option Bytes
  | target, arr =>
    match skipSpace arr with
    | [] => none
    | c :: rest =>
      if c = 0x5D then none
      else match target with
        | 0 => some (c :: rest)
        | target + 1 =>
          match skipJsonValue (c :: rest) with
          | none => none
          | some after =>
            match skipSpace after with
            | 0x2C :: next => arrayElementFrom target next
            | 0x5D :: _ => none
            | next => arrayElementFrom target next

/-- `get_json_array_element`. -/
def getJsonArrayElement (arr : Bytes) (target : Nat) : Option Bytes :=
  match skipSpace arr with
  | 0x5B :: rest => arrayElementFrom target rest
  | _ => none

/-- The loop of `parse_segments_list`; every round takes at least one byte. -/
def segmentsLoop (outSize : Nat) : Nat → Bytes → Bytes → Option Bytes
  | 0, _, out => some out
  | fuel + 1, p, out =>
    match skipSpace p with
    | 0x5B :: p =>
      match skipSpace p with
      | 0x22 :: start =>
        match jsonStringEnd start with
        | none => none
        | some (content, stop) =>
          match jsonUnescapeString (translateMaxTextBytes + 1) content with
          | none => none
          | some chunk =>
            match append outSize out chunk with
            | none => none
            | some out =>
              match skipSegmentArray (stop.drop 1) with
              | none => none
              | some after =>
                match skipSpace after with
                | 0x2C :: p => segmentsLoop outSize fuel p out
                | _ => some out
      | _ => none
    | _ => some out

/-- `parse_segments_list`. -/
def parseSegmentsList (outSize : Nat) (p : Bytes) : Option Bytes :=
  match skipSpace p with
  | 0x5B :: p => (segmentsLoop outSize (p.length + 1) p []).filter (· ≠ [])
  | _ => none

/-- `vw_translate_parse_gtx_response`. -/
def parseGtxResponse (outSize : Nat) (raw : Bytes) : Option Bytes :=
  if outSize = 0 then none
  else match skipSpace raw with
    | 0x5B :: p => parseSegmentsList outSize (skipSpace p)
    | _ => none

/-- The payload string of the envelope: after the marker's comma, the RPC id being skipped when present. -/
def rpcPayload (raw : Bytes) : Option Bytes := do
  let marker ← strstr raw (ascii "\"wrb.fr\"")
  let p ← strchr marker 0x2C
  let p := skipSpace (p.drop 1)
  let p ← if p.head? = some 0x22 then do
      let p ← skipJsonString p
      match skipSpace p with
      | 0x2C :: p => some (skipSpace p)
      | _ => none
    else some p
  match p with
  | 0x22 :: start => (jsonStringEnd start).map Prod.fst
  | _ => none

/-- The canonical place of the segments: `result[1][0][0][5]`. -/
def rpcSegments (unescaped : Bytes) : Option Bytes := do
  let elem ← getJsonArrayElement unescaped 1
  let elem ← getJsonArrayElement elem 0
  let elem ← getJsonArrayElement elem 0
  getJsonArrayElement elem 5

/-- `vw_translate_parse_rpc_response`: the canonical place, else after the nulls, else as a GTX response. -/
def parseRpcResponse (outSize : Nat) (raw : Bytes) : Option Bytes :=
  if outSize = 0 then none
  else match rpcPayload raw with
    | none => none
    | some payload =>
      match jsonUnescapeString (payload.length + 1) payload with
      | none => none
      | some unescaped =>
        let nulls := (strstr unescaped (ascii "null,null,null,null,null,")).bind fun nulls => strchr nulls 0x5B
        ((rpcSegments unescaped).bind (parseSegmentsList outSize)).or <|
          (nulls.bind (parseSegmentsList outSize)).or (parseGtxResponse outSize unescaped)

/-! ## The tiers -/

/-- The services a text is sent to, in that order. -/
inductive Tier where
  | webRpc
  | gtx
  | mobileScrape
  deriving DecidableEq

/-- `vw_translate_tier_t`. -/
def Tier.code : Tier → UInt8
  | .webRpc => 1
  | .gtx => 2
  | .mobileScrape => 3

/-- The parser of a tier's responses. -/
def Tier.parse : Tier → Nat → Bytes → Option Bytes
  | .webRpc => parseRpcResponse
  | .gtx => parseGtxResponse
  | .mobileScrape => parseMobileResponse

theorem append_eq_some {size : Nat} {dst bytes out : Bytes} (h : append size dst bytes = some out) :
    out = dst ++ bytes ∧ out.length < size := by
  simp only [append] at h
  split at h
  · cases h
  · rename_i hroom
    obtain rfl := Option.some.inj h
    exact ⟨rfl, by simpa using hroom⟩

theorem segmentsLoop_length {outSize fuel : Nat} {p out t : Bytes} (hout : out.length < outSize)
    (h : segmentsLoop outSize fuel p out = some t) : t.length < outSize := by
  induction fuel generalizing p out with
  | zero =>
    obtain rfl : out = t := by simpa [segmentsLoop] using h
    exact hout
  | succ fuel ih =>
    rw [segmentsLoop] at h
    split at h
    · split at h
      · split at h
        · cases h
        split at h
        · cases h
        split at h
        · cases h
        rename_i happend
        have hroom := (append_eq_some happend).2
        split at h
        · cases h
        split at h
        · exact ih hroom h
        · obtain rfl := Option.some.inj h
          exact hroom
      · cases h
    · obtain rfl := Option.some.inj h
      exact hout

theorem htmlUnescapeLoop_length {size fuel : Nat} {inTag : Bool} {s dst t : Bytes} (hdst : dst.length < size)
    (h : htmlUnescapeLoop size fuel inTag s dst = some t) : t.length < size := by
  induction fuel generalizing inTag s dst with
  | zero =>
    cases s with
    | nil =>
      obtain rfl : dst = t := by simpa [htmlUnescapeLoop] using h
      exact hdst
    | cons c rest => simp [htmlUnescapeLoop] at h
  | succ fuel ih =>
    cases s with
    | nil =>
      obtain rfl : dst = t := by simpa [htmlUnescapeLoop] using h
      exact hdst
    | cons c rest =>
      rw [htmlUnescapeLoop] at h
      split at h
      · exact ih hdst h
      split at h
      · exact ih hdst h
      split at h
      · exact ih hdst h
      split at h
      · obtain ⟨dst', happend, h⟩ := Option.bind_eq_some_iff.mp h
        exact ih (append_eq_some happend).2 h
      split at h
      · obtain ⟨dst', happend, h⟩ := Option.bind_eq_some_iff.mp h
        obtain ⟨bytes, -, happend⟩ := Option.bind_eq_some_iff.mp happend
        exact ih (append_eq_some happend).2 h
      · obtain ⟨dst', happend, h⟩ := Option.bind_eq_some_iff.mp h
        exact ih (append_eq_some happend).2 h

theorem parseSegmentsList_bounds {outSize : Nat} {p t : Bytes} (hsize : 0 < outSize)
    (h : parseSegmentsList outSize p = some t) : t ≠ [] ∧ t.length < outSize := by
  rw [parseSegmentsList] at h
  split at h
  · obtain ⟨h, hne⟩ := Option.filter_eq_some_iff.mp h
    exact ⟨by simpa using hne, segmentsLoop_length (by simpa using hsize) h⟩
  · cases h

theorem parseGtxResponse_bounds {outSize : Nat} {raw t : Bytes} (h : parseGtxResponse outSize raw = some t) :
    t ≠ [] ∧ t.length < outSize := by
  rw [parseGtxResponse] at h
  split at h
  · cases h
  split at h
  · exact parseSegmentsList_bounds (by omega) h
  · cases h

theorem parseRpcResponse_bounds {outSize : Nat} {raw t : Bytes} (h : parseRpcResponse outSize raw = some t) :
    t ≠ [] ∧ t.length < outSize := by
  rw [parseRpcResponse] at h
  split at h
  · cases h
  split at h
  · cases h
  split at h
  · cases h
  have hsize : 0 < outSize := by omega
  rcases Option.or_eq_some_iff.mp h with h | ⟨-, h⟩
  · obtain ⟨segments, -, h⟩ := Option.bind_eq_some_iff.mp h
    exact parseSegmentsList_bounds hsize h
  rcases Option.or_eq_some_iff.mp h with h | ⟨-, h⟩
  · obtain ⟨nulls, -, h⟩ := Option.bind_eq_some_iff.mp h
    exact parseSegmentsList_bounds hsize h
  · exact parseGtxResponse_bounds h

theorem parseMobileResponse_bounds {outSize : Nat} {raw t : Bytes}
    (h : parseMobileResponse outSize raw = some t) : t ≠ [] ∧ t.length < outSize := by
  simp only [parseMobileResponse, Option.bind_eq_bind, Option.bind_eq_some_iff] at h
  obtain ⟨_, -, start, -, stop, -, out, hout, h⟩ := h
  split at h
  · cases h
  · rename_i hne
    obtain rfl := Option.some.inj h
    rw [htmlUnescape] at hout
    split at hout
    · cases hout
    · have hlen := htmlUnescapeLoop_length (by simp; omega) hout
      exact ⟨hne, lt_of_le_of_lt (List.rdropWhile_prefix _ _).length_le hlen⟩

theorem Tier.parse_bounds {tier : Tier} {outSize : Nat} {raw t : Bytes} (h : tier.parse outSize raw = some t) :
    t ≠ [] ∧ t.length < outSize := by
  cases tier with
  | webRpc => exact parseRpcResponse_bounds h
  | gtx => exact parseGtxResponse_bounds h
  | mobileScrape => exact parseMobileResponse_bounds h

end VlcWhisper.Worker
