import VlcWhisper.Worker.JsonResponses
import VlcWhisper.Worker.MobilePage
import VlcWhisper.Lib.Stores

/-!
# The parsers at their buffers (`vw_translate.c`)

The same parsers with every store they make, on the runs that fail as well. A loop whose rounds are used up gives
nothing, so a run that gives something came to its end.

`Tier.run_stored`: on any bytes a parser comes to its end with what the text-level parser gives, keeps to its buffer,
and leaves the text there. Main result: `parse_responses`.
-/

namespace VlcWhisper.Worker

open VlcWhisper.Lib VlcWhisper.Lib.Json

/-! ## The runs -/

/-- Append to a buffer of `size` bytes and go on, or make the stores of a failure. -/
def putBytes (size : Nat) (dst bytes : Bytes) (onFull : List Store) (next : Bytes → Run) : Run :=
  if size ≤ dst.length + bytes.length then some (none, onFull)
  else (next (dst ++ bytes)).behind (copyAt dst.length bytes)

/-- `append_utf8_scalar`. -/
def putScalar (size : Nat) (dst : Bytes) (code : Nat) (onFull : List Store) (next : Bytes → Run) : Run :=
  match utf8Scalar code with
  | none => some (none, onFull)
  | some bytes => putBytes size dst bytes onFull next

/-- The loop of `json_unescape_string`. -/
def jsonUnescapeRun (size : Nat) : Nat → Bytes → Bytes → Run
  | _, [], dst => some (some dst, [(dst.length, 0)])
  | 0, _ :: _, _ => none
  | fuel + 1, c :: rest, dst =>
    if c < 0x20 then some (none, [])
    else if c ≠ 0x5C then putBytes size dst [c] [] (jsonUnescapeRun size fuel rest)
    else match rest with
      | [] => some (none, [])
      | e :: rest =>
        match jsonEscape e with
        | some decoded => putBytes size dst [decoded] [] (jsonUnescapeRun size fuel rest)
        | none =>
          if e ≠ 0x75 then some (none, [])
          else match unicodeEscape rest with
            | none => some (none, [])
            | some (code, len) => putScalar size dst code [] (jsonUnescapeRun size fuel (rest.drop len))

/-- `json_unescape_string`. -/
def jsonUnescapeBuffer (size : Nat) (s : Bytes) : Run :=
  if size = 0 then some (none, []) else jsonUnescapeRun size s.length s []

/-- The loop of `vw_html_unescape`; a failure terminates the buffer at its end, and that of a named entity where the
text ends. -/
def htmlUnescapeRun (size : Nat) : Nat → Bool → Bytes → Bytes → Run
  | _, _, [], dst => some (some dst, [(dst.length, 0)])
  | 0, _, _ :: _, _ => none
  | fuel + 1, inTag, c :: rest, dst =>
    if c = 0x3C then htmlUnescapeRun size fuel true rest dst
    else if c = 0x3E then htmlUnescapeRun size fuel false rest dst
    else if inTag then htmlUnescapeRun size fuel inTag rest dst
    else match namedEntities.find? fun e => e.1.isPrefixOf (c :: rest) with
      | some (entity, value) =>
        putBytes size dst [value] [(if dst.length < size then dst.length else size - 1, 0)]
          (htmlUnescapeRun size fuel inTag ((c :: rest).drop entity.length))
      | none =>
        match numericEntity (c :: rest) with
        | some (code, len) =>
          putScalar size dst code [(size - 1, 0)] (htmlUnescapeRun size fuel inTag ((c :: rest).drop len))
        | none => putBytes size dst [c] [(size - 1, 0)] (htmlUnescapeRun size fuel inTag rest)

/-- `while (out_len > 0 && isspace(out[out_len - 1])) out[--out_len] = '\0'`. -/
def trimStores (out : Bytes) : List Store :=
  (List.range' (out.rdropWhile isSpace).length (out.length - (out.rdropWhile isSpace).length)).reverse.map (·, 0)

/-- What `vw_translate_parse_mobile_response` does to an unescaped text. -/
def trimRun (run : Run) : Run :=
  run.map fun r => match r.1 with
    | none => (none, r.2)
    | some out =>
      (if out.rdropWhile isSpace = [] then none else some (out.rdropWhile isSpace), r.2 ++ trimStores out)

/-- What stands in the result container. -/
def containerContent (raw : Bytes) : Option Bytes := do
  let start ← (strstr raw (ascii "class=\"result-container\"")).or (strstr raw (ascii "class='result-container'"))
  let start ← strchr start 0x3E
  let start := start.drop 1
  let stop ← strstr start (ascii "</div>")
  some (start.take (start.length - stop.length))

/-- `vw_translate_parse_mobile_response`. -/
def mobileRun (outSize : Nat) (raw : Bytes) : Run :=
  if outSize = 0 then some (none, [])
  else match containerContent raw with
    | none => some (none, [])
    | some content => trimRun (htmlUnescapeRun outSize content.length false content [])

/-- `return out_idx > 0`. -/
def nonempty (out : Bytes) : Option Bytes := if out = [] then none else some out

/-- What is behind `c`, where the first byte but blanks is `c`. -/
def expect (c : UInt8) (s : Bytes) : Option Bytes :=
  match skipSpace s with
  | [] => none
  | d :: rest => if d = c then some rest else none

/-- The loop of `parse_segments_list`. -/
def segmentsRun (outSize : Nat) : Nat → Bytes → Bytes → Run
  | 0, _, _ => none
  | fuel + 1, p, out =>
    match expect 0x5B p with
    | none => some (nonempty out, [])
    | some p =>
      match expect 0x22 p with
      | none => some (none, [])
      | some start =>
        match jsonStringEnd start with
        | none => some (none, [])
        | some (content, stop) =>
          match jsonUnescapeBuffer (translateMaxTextBytes + 1) content with
          | none => none
          | some (none, _) => some (none, [])
          | some (some chunk, _) =>
            if outSize ≤ out.length + chunk.length then some (none, [])
            else
              let rest : Run := match skipSegmentArray (stop.drop 1) with
                | none => some (none, [])
                | some after =>
                  match expect 0x2C after with
                  | none => some (nonempty (out ++ chunk), [])
                  | some p => segmentsRun outSize fuel p (out ++ chunk)
              rest.behind (copyAt out.length chunk ++ [((out ++ chunk).length, 0)])

/-- `parse_segments_list`. -/
def segmentsListRun (outSize : Nat) (p : Bytes) : Run :=
  match expect 0x5B p with
  | none => some (none, [])
  | some p => segmentsRun outSize (p.length + 1) p []

/-- `vw_translate_parse_gtx_response`. -/
def gtxRun (outSize : Nat) (raw : Bytes) : Run :=
  if outSize = 0 then some (none, [])
  else
    let parsed : Run := match expect 0x5B raw with
      | none => some (none, [])
      | some p => segmentsListRun outSize (skipSpace p)
    parsed.behind [(0, 0)]

/-- A list of segments that may not be there. -/
def listRun (outSize : Nat) : Option Bytes → Run
  | none => some (none, [])
  | some p => segmentsListRun outSize p

/-- `return ok && out[0] != '\0'`. -/
def startedRun (run : Run) : Run := run.map fun r => (r.1.filter fun out => out.head? ≠ some 0, r.2)

/-- `vw_translate_parse_rpc_response`. -/
def rpcRun (outSize : Nat) (raw : Bytes) : Run :=
  if outSize = 0 then some (none, [])
  else
    let parsed : Run := match rpcPayload raw with
      | none => some (none, [])
      | some payload =>
        match jsonUnescapeBuffer (payload.length + 1) payload with
        | none => none
        | some (none, _) => some (none, [])
        | some (some unescaped, _) =>
          let nulls := (strstr unescaped (ascii "null,null,null,null,null,")).bind fun nulls => strchr nulls 0x5B
          startedRun ((listRun outSize (rpcSegments unescaped)).orElse
            ((listRun outSize nulls).orElse (gtxRun outSize unescaped)))
    parsed.behind [(0, 0)]

/-- The parser of a tier's responses, with its stores. -/
def Tier.run : Tier → Nat → Bytes → Run
  | .webRpc => rpcRun
  | .gtx => gtxRun
  | .mobileScrape => mobileRun

/-! ## Unescaping -/

section
variable {size : Nat} {dst : Bytes}

/-- The buffer has `dst` at its start. -/
def StartsAs (dst : Bytes) (mem : Nat → UInt8) : Prop := HoldsBytes mem dst

theorem stored_put {bytes : Bytes} {onFull : List Store} {next : Bytes → Run} {f : Bytes → Option Bytes}
    (hfull : KeepsTo size onFull)
    (h : ∀ dst', append size dst bytes = some dst' → Stored size (StartsAs dst') (next dst') (f dst')) :
    Stored size (StartsAs dst) (putBytes size dst bytes onFull next) ((append size dst bytes).bind f) := by
  unfold putBytes
  by_cases hroom : size ≤ dst.length + bytes.length
  · rw [if_pos hroom, append, if_pos hroom]
    exact stored_failed hfull
  · have happend := append_of_lt (not_le.mp hroom)
    rw [if_neg hroom, happend, Option.bind_some]
    apply (h _ happend).behind (keepsTo_copyAt (not_le.mp hroom))
    intro mem hmem
    exact hmem.copyAt bytes

theorem stored_putScalar {code : Nat} {onFull : List Store} {next : Bytes → Run} {f : Bytes → Option Bytes}
    (hfull : KeepsTo size onFull)
    (h : ∀ bytes dst', append size dst bytes = some dst' → Stored size (StartsAs dst') (next dst') (f dst')) :
    Stored size (StartsAs dst) (putScalar size dst code onFull next) ((appendUtf8Scalar size dst code).bind f) := by
  unfold putScalar appendUtf8Scalar
  cases utf8Scalar code with
  | none => exact stored_failed hfull
  | some bytes => exact stored_put hfull (h bytes)

theorem stored_end (hdst : dst.length < size) :
    Stored size (StartsAs dst) (some (some dst, [(dst.length, 0)])) (some dst) := by
  refine ⟨_, rfl, keepsTo_terminator hdst, fun out hout mem hmem => ?_⟩
  obtain rfl := Option.some.inj hout
  exact hmem.terminate

theorem jsonUnescapeRun_stored {fuel : Nat} {s : Bytes} (hfuel : s.length ≤ fuel) (hdst : dst.length < size) :
    Stored size (StartsAs dst) (jsonUnescapeRun size fuel s dst) (jsonUnescapeLoop size fuel s dst) := by
  induction fuel generalizing s dst with
  | zero =>
    obtain rfl := List.length_eq_zero_iff.mp (Nat.le_zero.mp hfuel)
    exact stored_end hdst
  | succ fuel ih =>
    cases s with
    | nil => exact stored_end hdst
    | cons c rest =>
      rw [List.length_cons] at hfuel
      rw [jsonUnescapeRun.eq_def, jsonUnescapeLoop.eq_def]
      dsimp only
      split
      · exact stored_failed keepsTo_nil
      split
      · apply stored_put keepsTo_nil
        intro dst' happend
        exact ih (by omega) (append_eq_some happend).2
      cases rest with
      | nil => exact stored_failed keepsTo_nil
      | cons e rest =>
        rw [List.length_cons] at hfuel
        dsimp only
        cases jsonEscape e with
        | some decoded =>
          apply stored_put keepsTo_nil
          intro dst' happend
          exact ih (by omega) (append_eq_some happend).2
        | none =>
          dsimp only
          split
          · exact stored_failed keepsTo_nil
          cases unicodeEscape rest with
          | none => exact stored_failed keepsTo_nil
          | some escape =>
            apply stored_putScalar keepsTo_nil
            intro bytes dst' happend
            exact ih (by rw [List.length_drop]; omega) (append_eq_some happend).2

theorem jsonUnescapeBuffer_stored (size : Nat) (s : Bytes) :
    Stored size (fun _ => True) (jsonUnescapeBuffer size s) (jsonUnescapeString size s) := by
  unfold jsonUnescapeBuffer jsonUnescapeString
  split
  · exact stored_failed keepsTo_nil
  · apply (jsonUnescapeRun_stored (le_refl _) (by simp; omega)).mono
    intro mem _
    exact holdsBytes_nil

theorem namedEntities_pos {s : Bytes} {e : Bytes × UInt8}
    (h : namedEntities.find? (fun e => e.1.isPrefixOf s) = some e) : 0 < e.1.length := by
  have hall : ∀ e ∈ namedEntities, 0 < e.1.length := by decide
  exact hall e (List.mem_of_find?_eq_some h)

theorem numericEntity_pos {s : Bytes} {code len : Nat} (h : numericEntity s = some (code, len)) : 0 < len := by
  simp only [numericEntity, Option.ite_none_left_eq_some] at h
  obtain ⟨-, -, -, h⟩ := h
  generalize strtoul _ _ = value at h
  cases value with
  | none => cases h
  | some value =>
    simp only [Option.ite_none_left_eq_some, Option.some.injEq, Prod.mk.injEq] at h
    omega

theorem htmlUnescapeRun_stored {fuel : Nat} {inTag : Bool} {s : Bytes} (hfuel : s.length ≤ fuel)
    (hdst : dst.length < size) :
    Stored size (StartsAs dst) (htmlUnescapeRun size fuel inTag s dst) (htmlUnescapeLoop size fuel inTag s dst) := by
  have hlast : KeepsTo size [(size - 1, 0)] := keepsTo_terminator (by omega)
  induction fuel generalizing inTag s dst with
  | zero =>
    obtain rfl := List.length_eq_zero_iff.mp (Nat.le_zero.mp hfuel)
    exact stored_end hdst
  | succ fuel ih =>
    cases s with
    | nil => exact stored_end hdst
    | cons c rest =>
      rw [List.length_cons] at hfuel
      have hnext {t dst' bytes : Bytes} (hlen : t.length ≤ rest.length) (happend : append size dst bytes = some dst') :
          Stored size (StartsAs dst') (htmlUnescapeRun size fuel inTag t dst')
            (htmlUnescapeLoop size fuel inTag t dst') :=
        ih (by omega) (append_eq_some happend).2
      rw [htmlUnescapeRun, htmlUnescapeLoop, if_pos hdst]
      split
      · exact ih (by omega) hdst
      split
      · exact ih (by omega) hdst
      split
      · exact ih (by omega) hdst
      cases hfind : namedEntities.find? fun e => e.1.isPrefixOf (c :: rest) with
      | some e =>
        have hpos := namedEntities_pos hfind
        apply stored_put (keepsTo_terminator hdst)
        intro dst' happend
        exact hnext (by rw [List.length_drop, List.length_cons]; omega) happend
      | none =>
        dsimp only
        cases hnumeric : numericEntity (c :: rest) with
        | some e =>
          obtain ⟨code, len⟩ := e
          have hpos := numericEntity_pos hnumeric
          apply stored_putScalar hlast
          intro bytes dst' happend
          exact hnext (by rw [List.length_drop, List.length_cons]; omega) happend
        | none =>
          apply stored_put hlast
          intro dst' happend
          exact hnext (le_refl _) happend

end

/-! ## The page -/

theorem mem_trimStores (out : Bytes) (i : Nat) :
    i ∈ (List.range' (out.rdropWhile isSpace).length (out.length - (out.rdropWhile isSpace).length)).reverse ↔
      (out.rdropWhile isSpace).length ≤ i ∧ i < out.length := by
  have hle := (List.rdropWhile_prefix isSpace out).length_le
  rw [List.mem_reverse, List.mem_range'_1]
  omega

theorem trimStores_keepsTo {size : Nat} {out : Bytes} (hout : out.length < size) : KeepsTo size (trimStores out) := by
  intro s hs
  obtain ⟨i, hi, rfl⟩ := List.mem_map.mp hs
  rw [mem_trimStores] at hi
  exact ⟨by omega, fun _ => rfl⟩

theorem trimStores_holds {out : Bytes} {mem : Nat → UInt8} (h : HoldsBytes mem (out ++ [0])) :
    HoldsBytes (stored mem (trimStores out)) (out.rdropWhile isSpace ++ [0]) := by
  have hle := (List.rdropWhile_prefix isSpace out).length_le
  intro i b hb
  simp only [trimStores, stored_zeros, mem_trimStores]
  by_cases hi : i < (out.rdropWhile isSpace).length
  · rw [if_neg (by omega)]
    have hkept := h.shorter ((List.rdropWhile_prefix isSpace out).trans (List.prefix_append out [0]))
    rw [List.getElem?_append_left hi] at hb
    exact hkept i b hb
  · have hlen := (List.getElem?_eq_some_iff.mp hb).1
    rw [List.length_append, List.length_singleton] at hlen
    obtain rfl : i = (out.rdropWhile isSpace).length := by omega
    obtain rfl : 0 = b := by simpa using hb
    by_cases hall : (out.rdropWhile isSpace).length < out.length
    · rw [if_pos ⟨le_refl _, hall⟩]
    · rw [if_neg (by omega), show (out.rdropWhile isSpace).length = out.length by omega]
      exact h _ _ (by simp)

theorem trimRun_stored {size : Nat} {before : (Nat → UInt8) → Prop} {run : Run} {result : Option Bytes}
    (h : Stored size before run result) (hlen : ∀ out, result = some out → out.length < size) :
    Stored size before (trimRun run) (result.bind fun out => nonempty (out.rdropWhile isSpace)) := by
  obtain ⟨stores, rfl, hwithin, hholds⟩ := h
  cases result with
  | none => exact stored_failed hwithin
  | some out =>
    refine ⟨_, rfl, keepsTo_append hwithin (trimStores_keepsTo (hlen out rfl)), fun trimmed htrimmed mem hmem => ?_⟩
    simp only [Option.bind_some, nonempty] at htrimmed
    split at htrimmed
    · cases htrimmed
    · obtain rfl := Option.some.inj htrimmed
      rw [stored_append]
      exact trimStores_holds (hholds out rfl mem hmem)

theorem parseMobileResponse_eq_content (outSize : Nat) (raw : Bytes) : parseMobileResponse outSize raw =
    ((containerContent raw).bind (htmlUnescape outSize)).bind fun out => nonempty (out.rdropWhile isSpace) := by
  simp only [parseMobileResponse, containerContent, nonempty, Option.bind_eq_bind, Option.bind_assoc, Option.bind_some]

theorem mobileRun_stored (outSize : Nat) (raw : Bytes) :
    Stored outSize (fun _ => True) (mobileRun outSize raw) (parseMobileResponse outSize raw) := by
  rw [parseMobileResponse_eq_content, mobileRun]
  by_cases hsize : outSize = 0
  · have hnone : ∀ content, htmlUnescape outSize content = none := fun content => if_pos hsize
    rw [if_pos hsize, show (containerContent raw).bind (htmlUnescape outSize) = none by
      rw [Option.bind_eq_none_iff]
      intro content _
      exact hnone content]
    exact stored_failed keepsTo_nil
  rw [if_neg hsize]
  cases containerContent raw with
  | none => exact stored_failed keepsTo_nil
  | some content =>
    rw [Option.bind_some, htmlUnescape, if_neg hsize]
    have hpos : ([] : Bytes).length < outSize := Nat.pos_of_ne_zero hsize
    apply trimRun_stored
    · apply (htmlUnescapeRun_stored (le_refl _) hpos).mono
      intro mem _
      exact holdsBytes_nil
    · intro out hout
      exact htmlUnescapeLoop_length hpos hout

/-! ## The lists -/

theorem expect_eq_some {c : UInt8} {s rest : Bytes} : expect c s = some rest ↔ skipSpace s = c :: rest := by
  unfold expect
  cases skipSpace s with
  | nil => simp
  | cons d t =>
    dsimp only
    by_cases hd : d = c
    · rw [if_pos hd, hd, Option.some.injEq, List.cons.injEq, and_iff_right rfl]
    · rw [if_neg hd]
      constructor
      · intro h
        cases h
      · intro h
        exact absurd (List.cons.inj h).1 hd

theorem expect_length {c : UInt8} {s rest : Bytes} (h : expect c s = some rest) : rest.length < s.length := by
  have hle : (skipSpace s).length ≤ s.length := (List.dropWhile_suffix _).length_le
  rw [expect_eq_some.mp h, List.length_cons] at hle
  omega

theorem segmentsLoop_succ (outSize fuel : Nat) (p out : Bytes) : segmentsLoop outSize (fuel + 1) p out =
    (expect 0x5B p).elim (some out) fun inside => (expect 0x22 inside).bind fun start =>
      (jsonStringEnd start).bind fun parts => (jsonUnescapeString (translateMaxTextBytes + 1) parts.1).bind fun chunk =>
        (append outSize out chunk).bind fun out' => (skipSegmentArray (parts.2.drop 1)).bind fun after =>
          (expect 0x2C after).elim (some out') fun next => segmentsLoop outSize fuel next out' := by
  have hnone {c : UInt8} {s : Bytes} (h : ∀ rest, skipSpace s = c :: rest → False) : expect c s = none := by
    rw [Option.eq_none_iff_forall_not_mem]
    intro rest hrest
    exact h rest (expect_eq_some.mp hrest)
  rw [segmentsLoop]
  split
  · rename_i inside hopen
    rw [expect_eq_some.mpr hopen, Option.elim_some]
    split
    · rename_i start hquote
      rw [expect_eq_some.mpr hquote, Option.bind_some]
      cases jsonStringEnd start with
      | none => rfl
      | some parts =>
        rw [Option.bind_some]
        dsimp only
        cases jsonUnescapeString (translateMaxTextBytes + 1) parts.1 with
        | none => rfl
        | some chunk =>
          rw [Option.bind_some]
          dsimp only
          cases append outSize out chunk with
          | none => rfl
          | some out' =>
            rw [Option.bind_some]
            dsimp only
            cases skipSegmentArray (parts.2.drop 1) with
            | none => rfl
            | some after =>
              rw [Option.bind_some]
              dsimp only
              split
              · rename_i next hnext
                rw [expect_eq_some.mpr hnext, Option.elim_some]
              · rename_i hlast
                rw [hnone hlast, Option.elim_none]
    · rename_i hother
      rw [hnone hother, Option.bind_none]
  · rename_i hclosed
    rw [hnone hclosed, Option.elim_none]

theorem parseSegmentsList_expect (outSize : Nat) (p : Bytes) : parseSegmentsList outSize p =
    (expect 0x5B p).bind fun p => (segmentsLoop outSize (p.length + 1) p []).filter (· ≠ []) := by
  rw [parseSegmentsList]
  split
  · rename_i inside hopen
    rw [expect_eq_some.mpr hopen, Option.bind_some]
  · rename_i hclosed
    rw [Option.eq_none_iff_forall_not_mem.mpr fun rest hrest => hclosed rest (expect_eq_some.mp hrest),
      Option.bind_none]

theorem parseGtxResponse_expect {outSize : Nat} (hsize : outSize ≠ 0) (raw : Bytes) : parseGtxResponse outSize raw =
    (expect 0x5B raw).bind fun p => parseSegmentsList outSize (skipSpace p) := by
  rw [parseGtxResponse, if_neg hsize]
  split
  · rename_i inside hopen
    rw [expect_eq_some.mpr hopen, Option.bind_some]
  · rename_i hclosed
    rw [Option.eq_none_iff_forall_not_mem.mpr fun rest hrest => hclosed rest (expect_eq_some.mp hrest),
      Option.bind_none]

theorem stringEndFrom_length {slashes : Nat} {s : Bytes} {r : Bytes × Bytes} (h : stringEndFrom slashes s = some r) :
    r.2.length ≤ s.length := by
  induction s generalizing slashes r with
  | nil => cases h
  | cons c s ih =>
    rw [stringEndFrom] at h
    split at h
    · obtain rfl := Option.some.inj h
      exact le_refl _
    · obtain ⟨r', hr', rfl⟩ := Option.map_eq_some_iff.mp h
      have hle : r'.2.length ≤ s.length := ih hr'
      exact Nat.le_succ_of_le hle

theorem skipNested_length {opened closed : UInt8} {inString escaped : Bool} {depth : Nat} {s t : Bytes}
    (h : skipNested opened closed inString escaped depth s = some t) : t.length ≤ s.length := by
  induction s generalizing inString escaped depth with
  | nil => cases inString <;> cases escaped <;> cases h
  | cons c s ih =>
    rw [List.length_cons]
    cases inString with
    | true => cases escaped <;> exact Nat.le_succ_of_le (ih h)
    | false =>
      rw [skipNested] at h
      split at h
      · exact Nat.le_succ_of_le (ih h)
      split at h
      · exact Nat.le_succ_of_le (ih h)
      split at h
      · split at h
        · obtain rfl := Option.some.inj h
          exact Nat.le_succ _
        · exact Nat.le_succ_of_le (ih h)
      · exact Nat.le_succ_of_le (ih h)

theorem skipSegmentArray_length {s t : Bytes} (h : skipSegmentArray s = some t) : t.length ≤ s.length := by
  rw [skipSegmentArray, skipSegmentLoop_eq] at h
  exact skipNested_length h

/-- The memory that a round of the loop finds: what was appended, terminated. -/
def Appended (out : Bytes) (mem : Nat → UInt8) : Prop := out ≠ [] → HoldsBytes mem (out ++ [0])

theorem Appended.startsAs {out : Bytes} {mem : Nat → UInt8} (h : Appended out mem) : StartsAs out mem := by
  by_cases hout : out = []
  · rw [hout]
    exact holdsBytes_nil
  · exact (h hout).shorter (List.prefix_append out [0])

theorem stored_nonempty (size : Nat) (out : Bytes) :
    Stored size (Appended out) (some (nonempty out, [])) (nonempty out) := by
  refine ⟨[], rfl, keepsTo_nil, fun out' hout' mem hmem => ?_⟩
  unfold nonempty at hout'
  split at hout'
  · cases hout'
  · obtain rfl := Option.some.inj hout'
    rename_i hne
    exact hmem hne

theorem filter_nonempty (out : Bytes) : (some out).filter (· ≠ []) = nonempty out := by
  unfold nonempty
  by_cases hout : out = []
  · rw [if_pos hout, hout]
    rfl
  · rw [if_neg hout]
    simp [hout]

theorem Stored.appended {size : Nat} {out chunk : Bytes} {run : Run} {result : Option Bytes}
    (hroom : out.length + chunk.length < size) (h : Stored size (Appended (out ++ chunk)) run result) :
    Stored size (Appended out) (run.behind (copyAt out.length chunk ++ [((out ++ chunk).length, 0)])) result := by
  apply h.behind
  · apply keepsTo_append (keepsTo_copyAt hroom)
    apply keepsTo_terminator
    rwa [List.length_append]
  · intro mem hmem _
    rw [stored_append]
    exact (hmem.startsAs.copyAt chunk).terminate

theorem segmentsRun_stored {outSize fuel : Nat} {p out : Bytes} (hfuel : p.length < fuel)
    (hout : out.length < outSize) :
    Stored outSize (Appended out) (segmentsRun outSize fuel p out)
      ((segmentsLoop outSize fuel p out).filter (· ≠ [])) := by
  induction fuel generalizing p out with
  | zero => omega
  | succ fuel ih =>
    rw [segmentsRun, segmentsLoop_succ]
    cases hopen : expect 0x5B p with
    | none =>
      rw [Option.elim_none, filter_nonempty]
      exact stored_nonempty ..
    | some inside =>
    rw [Option.elim_some]
    dsimp only
    cases hquote : expect 0x22 inside with
    | none => exact stored_failed keepsTo_nil
    | some start =>
    rw [Option.bind_some]
    dsimp only
    cases hend : jsonStringEnd start with
    | none => exact stored_failed keepsTo_nil
    | some parts =>
    obtain ⟨content, stop⟩ := parts
    obtain ⟨stores, hbuffer, -⟩ := jsonUnescapeBuffer_stored (translateMaxTextBytes + 1) content
    rw [Option.bind_some]
    dsimp only
    rw [hbuffer]
    cases jsonUnescapeString (translateMaxTextBytes + 1) content with
    | none => exact stored_failed keepsTo_nil
    | some chunk =>
    rw [Option.bind_some]
    dsimp only
    by_cases hroom : outSize ≤ out.length + chunk.length
    · rw [if_pos hroom, append, if_pos hroom]
      exact stored_failed keepsTo_nil
    rw [if_neg hroom, append, if_neg hroom, Option.bind_some]
    apply Stored.appended (not_le.mp hroom)
    cases hclose : skipSegmentArray (stop.drop 1) with
    | none => exact stored_failed keepsTo_nil
    | some after =>
    have hinside := expect_length hopen
    have hstart := expect_length hquote
    have hstop : stop.length ≤ start.length := stringEndFrom_length hend
    have hafter := skipSegmentArray_length hclose
    rw [List.length_drop] at hafter
    rw [Option.bind_some]
    dsimp only
    cases hnext : expect 0x2C after with
    | none =>
      rw [Option.elim_none, filter_nonempty]
      exact stored_nonempty ..
    | some next =>
      have hshort := expect_length hnext
      rw [Option.elim_some]
      apply ih (by omega)
      rw [List.length_append]
      omega

theorem segmentsListRun_stored {outSize : Nat} (hsize : outSize ≠ 0) (p : Bytes) :
    Stored outSize (fun _ => True) (segmentsListRun outSize p) (parseSegmentsList outSize p) := by
  have hpos : ([] : Bytes).length < outSize := Nat.pos_of_ne_zero hsize
  rw [segmentsListRun, parseSegmentsList_expect]
  cases expect 0x5B p with
  | none => exact stored_failed keepsTo_nil
  | some inside =>
    apply (segmentsRun_stored (Nat.lt_succ_self inside.length) hpos).mono
    intro mem _ hne
    exact absurd rfl hne

theorem listRun_stored {outSize : Nat} (hsize : outSize ≠ 0) (p : Option Bytes) :
    Stored outSize (fun _ => True) (listRun outSize p) (p.bind (parseSegmentsList outSize)) := by
  cases p with
  | none => exact stored_failed keepsTo_nil
  | some p => exact segmentsListRun_stored hsize p

theorem gtxRun_stored (outSize : Nat) (raw : Bytes) :
    Stored outSize (fun _ => True) (gtxRun outSize raw) (parseGtxResponse outSize raw) := by
  by_cases hsize : outSize = 0
  · rw [gtxRun, parseGtxResponse, if_pos hsize, if_pos hsize]
    exact stored_failed keepsTo_nil
  rw [gtxRun, if_neg hsize, parseGtxResponse_expect hsize]
  apply @Stored.behind _ (fun _ => True) _ _ _ _ _ (keepsTo_terminator (Nat.pos_of_ne_zero hsize)) fun _ _ => trivial
  cases expect 0x5B raw with
  | none => exact stored_failed keepsTo_nil
  | some p => exact segmentsListRun_stored hsize _

/-! ## The payload -/

theorem append_noNul {size : Nat} {dst bytes out : Bytes} (h : append size dst bytes = some out)
    (hdst : (0 : UInt8) ∉ dst) (hbytes : (0 : UInt8) ∉ bytes) : (0 : UInt8) ∉ out := by
  rw [(append_eq_some h).1, List.mem_append, not_or]
  exact ⟨hdst, hbytes⟩

theorem jsonEscape_noNul (e : UInt8) : jsonEscape e ≠ some 0 := by
  revert e
  apply forall_byte
  decide

theorem utf8Scalar_noNul {code : Nat} {bytes : Bytes} (h : utf8Scalar code = some bytes) : (0 : UInt8) ∉ bytes := by
  obtain ⟨hzero, hmax, -⟩ := utf8Scalar_spec h
  unfold utf8Scalar at h
  split at h
  · cases h
  · obtain rfl := Option.some.inj h
    split_ifs <;> simp only [List.mem_cons, List.not_mem_nil, or_false, ← UInt8.toNat_inj, UInt8.toNat_ofNat',
      UInt8.toNat_ofNat] <;> omega

theorem jsonUnescapeLoop_noNul {size fuel : Nat} {s dst t : Bytes} (hdst : (0 : UInt8) ∉ dst)
    (h : jsonUnescapeLoop size fuel s dst = some t) : (0 : UInt8) ∉ t := by
  induction fuel generalizing s dst with
  | zero =>
    cases s with
    | nil =>
      obtain rfl : dst = t := by simpa [jsonUnescapeLoop] using h
      exact hdst
    | cons c rest => simp [jsonUnescapeLoop] at h
  | succ fuel ih =>
    cases s with
    | nil =>
      obtain rfl : dst = t := by simpa [jsonUnescapeLoop] using h
      exact hdst
    | cons c rest =>
      rw [jsonUnescapeLoop.eq_def] at h
      dsimp only at h
      split at h
      · cases h
      rename_i hcontrol
      split at h
      · obtain ⟨dst', happend, h⟩ := Option.bind_eq_some_iff.mp h
        apply ih (append_noNul happend hdst _) h
        rintro hmem
        obtain rfl := List.mem_singleton.mp hmem
        exact hcontrol (by decide)
      cases rest with
      | nil => cases h
      | cons e rest =>
        dsimp only at h
        cases hletter : jsonEscape e with
        | some decoded =>
          rw [hletter] at h
          obtain ⟨dst', happend, h⟩ := Option.bind_eq_some_iff.mp h
          apply ih (append_noNul happend hdst _) h
          rintro hmem
          obtain rfl := List.mem_singleton.mp hmem
          exact jsonEscape_noNul e hletter
        | none =>
          rw [hletter] at h
          dsimp only at h
          split at h
          · cases h
          cases hescape : unicodeEscape rest with
          | none =>
            rw [hescape] at h
            cases h
          | some escape =>
            rw [hescape] at h
            obtain ⟨dst', hput, h⟩ := Option.bind_eq_some_iff.mp h
            obtain ⟨bytes, hbytes, happend⟩ := Option.bind_eq_some_iff.mp hput
            exact ih (append_noNul happend hdst (utf8Scalar_noNul hbytes)) h

theorem jsonUnescapeString_noNul {size : Nat} {s t : Bytes} (h : jsonUnescapeString size s = some t) :
    (0 : UInt8) ∉ t := by
  rw [jsonUnescapeString] at h
  split at h
  · cases h
  · exact jsonUnescapeLoop_noNul (by simp) h

theorem segmentsLoop_noNul {outSize fuel : Nat} {p out t : Bytes} (hout : (0 : UInt8) ∉ out)
    (h : segmentsLoop outSize fuel p out = some t) : (0 : UInt8) ∉ t := by
  induction fuel generalizing p out with
  | zero =>
    obtain rfl : out = t := by simpa [segmentsLoop] using h
    exact hout
  | succ fuel ih =>
    rw [segmentsLoop] at h
    split at h
    · split at h
      · split at h
        · cases h
        split at h
        · cases h
        rename_i hchunk
        split at h
        · cases h
        rename_i happend
        have hnext := append_noNul happend hout (jsonUnescapeString_noNul hchunk)
        split at h
        · cases h
        split at h
        · exact ih hnext h
        · obtain rfl := Option.some.inj h
          exact hnext
      · cases h
    · obtain rfl := Option.some.inj h
      exact hout

theorem parseSegmentsList_noNul {outSize : Nat} {p t : Bytes} (h : parseSegmentsList outSize p = some t) :
    (0 : UInt8) ∉ t := by
  rw [parseSegmentsList] at h
  split at h
  · exact segmentsLoop_noNul (by simp) (Option.filter_eq_some_iff.mp h).1
  · cases h

theorem parseGtxResponse_noNul {outSize : Nat} {raw t : Bytes} (h : parseGtxResponse outSize raw = some t) :
    (0 : UInt8) ∉ t := by
  rw [parseGtxResponse] at h
  split at h
  · cases h
  split at h
  · exact parseSegmentsList_noNul h
  · cases h

theorem startedRun_stored {size : Nat} {before : (Nat → UInt8) → Prop} {run : Run} {result : Option Bytes}
    (h : Stored size before run result) (hzero : ∀ out, result = some out → (0 : UInt8) ∉ out) :
    Stored size before (startedRun run) result := by
  obtain ⟨stores, rfl, hwithin, hholds⟩ := h
  refine ⟨stores, ?_, hwithin, hholds⟩
  cases result with
  | none => rfl
  | some out =>
    have hhead : out.head? ≠ some 0 := fun hhead => hzero out rfl (List.mem_of_head? hhead)
    simp [startedRun, hhead]

theorem rpcRun_stored (outSize : Nat) (raw : Bytes) :
    Stored outSize (fun _ => True) (rpcRun outSize raw) (parseRpcResponse outSize raw) := by
  unfold rpcRun parseRpcResponse
  by_cases hsize : outSize = 0
  · rw [if_pos hsize, if_pos hsize]
    exact stored_failed keepsTo_nil
  rw [if_neg hsize, if_neg hsize]
  apply @Stored.behind _ (fun _ => True) _ _ _ _ _ (keepsTo_terminator (Nat.pos_of_ne_zero hsize)) fun _ _ => trivial
  cases rpcPayload raw with
  | none => exact stored_failed keepsTo_nil
  | some payload =>
    obtain ⟨stores, hbuffer, -⟩ := jsonUnescapeBuffer_stored (payload.length + 1) payload
    dsimp only
    rw [hbuffer]
    cases jsonUnescapeString (payload.length + 1) payload with
    | none => exact stored_failed keepsTo_nil
    | some unescaped =>
      apply startedRun_stored
      · exact (listRun_stored hsize _).orElse ((listRun_stored hsize _).orElse (gtxRun_stored outSize unescaped))
      · intro out hout
        rcases Option.or_eq_some_iff.mp hout with h | ⟨-, h⟩
        · obtain ⟨segments, -, h⟩ := Option.bind_eq_some_iff.mp h
          exact parseSegmentsList_noNul h
        rcases Option.or_eq_some_iff.mp h with h | ⟨-, h⟩
        · obtain ⟨nulls, -, h⟩ := Option.bind_eq_some_iff.mp h
          exact parseSegmentsList_noNul h
        · exact parseGtxResponse_noNul h

/-- On any bytes a parser comes to its end, keeps to its buffer, and leaves in it the text it gives. -/
theorem Tier.run_stored (tier : Tier) (outSize : Nat) (raw : Bytes) :
    Stored outSize (fun _ => True) (tier.run outSize raw) (tier.parse outSize raw) := by
  cases tier with
  | webRpc => exact rpcRun_stored outSize raw
  | gtx => exact gtxRun_stored outSize raw
  | mobileScrape => exact mobileRun_stored outSize raw

/-! ## The parsers -/

/-- **A response gives its text, and no bytes make a parser run on or write past its buffer.** -/
theorem parse_responses :
    (∀ outSize chunks body, ChunksFit outSize chunks → GtxResponse chunks body →
      parseGtxResponse outSize body = some (chunks.flatMap utf8)) ∧
    (∀ outSize chunks body, ChunksFit outSize chunks → RpcResponse chunks body →
      parseRpcResponse outSize body = some (chunks.flatMap utf8)) ∧
    (∀ outSize text page, text ≠ [] → (0 : UInt8) ∉ utf8 text → (∀ c ∈ (utf8 text).getLast?, isSpace c = false) →
      (utf8 text).length < outSize → MobilePage text page → parseMobileResponse outSize page = some (utf8 text)) ∧
    ∀ (tier : Tier) (outSize : Nat) (raw : Bytes),
      Stored outSize (fun _ => True) (tier.run outSize raw) (tier.parse outSize raw) := by
  refine ⟨?_, ?_, ?_, Tier.run_stored⟩
  · intro outSize chunks body hfits h
    exact parseGtxResponse_eq h hfits
  · intro outSize chunks body hfits h
    exact parseRpcResponse_eq h hfits
  · intro outSize text page hne hzero hlast hroom h
    exact parseMobileResponse_eq h hzero hne hlast hroom

/-- A character with nothing escaped but what has to be. -/
def quotedChar (c : Char) : Bytes :=
  if c.toNat = 0x22 ∨ c.toNat = 0x5C then [0x5C, .ofNat c.toNat] else String.utf8EncodeChar c

theorem textEscaped_quoted {text : List Char} (h : ∀ c ∈ text, 0x20 ≤ c.toNat) :
    TextEscaped text (text.flatMap quotedChar) := by
  induction text with
  | nil => exact .nil
  | cons c text ih =>
    rw [List.flatMap_cons]
    apply TextEscaped.cons _ (ih fun d hd => h d (List.mem_cons_of_mem _ hd))
    unfold quotedChar
    split
    · rename_i hc
      apply CharEscape.letter
      rcases hc with hc | hc <;> rw [hc] <;> decide
    · rename_i hc
      rw [not_or] at hc
      exact .raw (h c (by simp)) hc.1 hc.2

/-- An escaped character in a list of two segments, a quoted one in an envelope, and an ampersand in a page. -/
theorem parse_responses_instances :
    parseGtxResponse 8 (ascii "[[[\"\\u00e9\",\"e\"],[\"x\"]],null]") = some (utf8 ['é', 'x']) ∧
    parseRpcResponse 8 (ascii "[[\"wrb.fr\",\"MkEWBc\",\"[0,[[[0,0,0,0,0,[[\\\"\\\\\\\"\\\"]]]]]]\"]]") =
    some (utf8 ['\"']) ∧
    parseMobileResponse 8 (ascii "<p class=\"result-container\">&#38;</div>") = some (utf8 ['&']) ∧
    Stored 2 (fun _ => True) (Tier.gtx.run 2 (ascii "[[[\"abc\"]]]")) none := by
  have hblank : Blank [] := by simp [Blank]
  have hzero : JsonValue [0x30] := .scalar (by decide) (forall_mem_of_all (by decide))
  have hgtx : GtxResponse [['é'], ['x']] (ascii "[[[\"\\u00e9\",\"e\"],[\"x\"]],null]") := by
    have hfirst : TextEscaped ['é'] (ascii "\\u00e9") :=
      .cons (@CharEscape.unicode _ (ascii "00e9") ⟨by decide, by decide⟩) .nil
    have hsecond : TextEscaped ['x'] [0x78] := textEscaped_quoted (forall_mem_of_all (by decide))
    have hfields : JsonText (ascii ",\"e\"") :=
      .byte (by decide) (by decide) (@JsonText.string [0x65] [] (.plain (by decide) (by decide) .nil) .nil)
    exact @GtxResponse.mk _ [] [] _ (ascii ",null]") hblank hblank (.more hblank (.mk hblank hfirst hfields) hblank
      (.last hblank (.mk hblank hsecond .nil) hblank))
  have hrpc : RpcResponse [['\"']]
      (ascii "[[\"wrb.fr\",\"MkEWBc\",\"[0,[[[0,0,0,0,0,[[\\\"\\\\\\\"\\\"]]]]]]\"]]") := by
    have hchunk : TextEscaped ['\"'] (ascii "\\\"") := textEscaped_quoted (forall_mem_of_all (by decide))
    have hfirst : ValuesBefore 1 (ascii "0,") := .succ hblank hzero hblank .zero
    have hvalues : ValuesBefore 5 (ascii "0,0,0,0,0,") := .succ hblank hzero hblank (.succ hblank hzero hblank
      (.succ hblank hzero hblank (.succ hblank hzero hblank hfirst)))
    have hresult : RpcResult [['\"']] (utf8 "[0,[[[0,0,0,0,0,[[\"\\\"\"]]]]]]".toList) :=
      @RpcResult.mk _ [] [] [] [] [] _ _ _ (ascii "]]]]") hblank hblank hblank hblank hblank hfirst hvalues
        (.last hblank (.mk hblank hchunk .nil) hblank)
    exact @RpcResponse.mk _ (ascii "[[") [] [] [] []
      (ascii "MkEWBc") _ (ascii "]]") _ (by unfold FirstBehind; decide) hblank hblank
      hblank hblank (.of_plain (forall_mem_of_all (by decide))) (textEscaped_quoted (forall_mem_of_all (by decide)))
      (by decide) hresult
  have hpage : MobilePage ['&'] (ascii "<p class=\"result-container\">&#38;</div>") :=
    @MobilePage.double _ (ascii "<p ") [] (ascii "&#38;") [] (by unfold FirstBehind; decide) (by decide)
      (.cons (@HtmlEscape.decimal _ (ascii "38") (by decide) (by decide)) .nil)
  have hlast : ∀ c ∈ (utf8 ['&']).getLast?, isSpace c = false := by
    intro c hc
    obtain rfl : 0x26 = c := Option.some.inj hc
    rfl
  exact ⟨parse_responses.1 8 _ _ ⟨by decide, by decide, by decide, by decide⟩ hgtx,
    parse_responses.2.1 8 _ _ ⟨by decide, by decide, by decide, by decide⟩ hrpc,
    parse_responses.2.2.1 8 _ _ (by decide) (by decide) hlast (by decide) hpage,
    parse_responses.2.2.2 .gtx 2 (ascii "[[[\"abc\"]]]")⟩

end VlcWhisper.Worker
