import VlcWhisper.Worker.Translate

/-!
# The path of a source (`vw_source_decoder_ffmpeg.c`, `vw_source_decoder_mf.c`)

Both decoders turn a file URI into a path: they strip what stands before its body and decode the escapes of the body,
with the same loop (`decodeBody`). The escapes are read with `strtol`, which also takes a blank or a sign before one
digit.

Main result: `paths_exact`. Any percent-encoding of a path gives the path back, and a URI that is accepted is decoded
as it should be if and only if no `%` of its body stands before a blank or a sign and a digit.
-/

namespace VlcWhisper.Worker

open VlcWhisper.Lib VlcWhisper.Protocol

/-! ## The normalisers -/

/-- `strtol` in base 16 on the two bytes behind a `%`, where it takes both. A negative number wraps. -/
def hexEscape (a b : UInt8) : Option Nat := strtoul 16 [a, b]

/-- The loop of both functions: escapes are decoded, other bytes go through `keep`, and `idx` bytes were written.
What does not fit the buffer is refused, and so is an escaped terminator. -/
def decodeBody (keep : UInt8 → UInt8) (bufLen : Nat) : Nat → Bytes → Option Bytes
  | _, [] => some []
  | idx, [c] => if bufLen ≤ idx + 1 then none else some [keep c]
  | idx, [c, d] => if bufLen ≤ idx + 1 then none else (decodeBody keep bufLen (idx + 1) [d]).map (keep c :: ·)
  | idx, c :: a :: b :: rest =>
    if bufLen ≤ idx + 1 then none
    else match if c = 0x25 then hexEscape a b else none with
      | some val => if val = 0 then none else (decodeBody keep bufLen (idx + 1) rest).map (.ofNat val :: ·)
      | none => (decodeBody keep bufLen (idx + 1) (a :: b :: rest)).map (keep c :: ·)

/-- What `vw_source_decoder_normalize_posix_path` reads. -/
def posixBody (url : Bytes) : Bytes :=
  if (ascii "file://localhost/").isPrefixOf url then url.drop 16
  else if (ascii "file://").isPrefixOf url then url.drop 7
  else url

/-- `vw_source_decoder_normalize_posix_path`, into a buffer of `bufLen` bytes. -/
def normalizePosixPath (url : Bytes) (bufLen : Nat) : Option Bytes :=
  if bufLen = 0 then none else decodeBody id bufLen 0 (posixBody url)

/-- What `vw_source_decoder_normalize_win32_path` reads, and whether there is a server before it. -/
def win32Body (url : Bytes) : Bool × Bytes :=
  if (ascii "file:///").isPrefixOf url then (false, url.drop 8)
  else if (ascii "file://").isPrefixOf url then
    let src := url.drop 7
    if src ≠ [] && src.head? ≠ some 0x2F then
      if (ascii "localhost/").isPrefixOf src then (false, src.drop 10) else (true, src)
    else (false, src)
  else (false, url)

/-- `/` as Windows has it. -/
def backslash (c : UInt8) : UInt8 := if c = 0x2F then 0x5C else c

/-- `vw_source_decoder_normalize_win32_path`, into a buffer of `maxOut` bytes. -/
def normalizeWin32Path (url : Bytes) (maxOut : Nat) : Option Bytes :=
  if maxOut = 0 then none
  else
    let (isUnc, src) := win32Body url
    if isUnc then
      if maxOut < 3 then none else (decodeBody backslash maxOut 2 src).map ([0x5C, 0x5C] ++ ·)
    else decodeBody backslash maxOut 0 src

/-! ## Escapes -/

/-- The value of a hexadecimal digit. -/
def hexValue (c : UInt8) : Option Nat := digitValue 16 c

/-- What a blank or a sign is to `strtol`. -/
def isLead (c : UInt8) : Bool := isSpace c || c = 0x2B || c = 0x2D

/-- The escape of two hexadecimal digits. -/
def twoDigits (a b : UInt8) : Option Nat := do
  let high ← hexValue a
  let low ← hexValue b
  pure (high * 16 + low)

/-- What a body stands for: a `%` before two hexadecimal digits is decoded, and every other byte is kept. -/
def unescaped (keep : UInt8 → UInt8) : Bytes → Bytes
  | [] => []
  | [c] => [keep c]
  | [c, d] => [keep c, keep d]
  | c :: a :: b :: rest =>
    match if c = 0x25 then twoDigits a b else none with
    | some val => .ofNat val :: unescaped keep rest
    | none => keep c :: unescaped keep (a :: b :: rest)

theorem hexValue_spec (c : UInt8) : hexValue c ≠ none → isLead c = false ∧ c ≠ 0x25 := by
  revert c
  apply forall_byte
  decide

theorem isLead_ne {c : UInt8} (h : isLead c = true) : c ≠ 0x25 := by
  rintro rfl
  cases h

theorem twoDigits_of_isLead {a : UInt8} (h : isLead a = true) (b : UInt8) : twoDigits a b = none := by
  have hvalue : hexValue a = none := by
    by_contra hne
    have hlead := (hexValue_spec a hne).1
    rw [h] at hlead
    cases hlead
  simp [twoDigits, hvalue]

/-- Behind a blank or a sign, `strtol` wants one digit. -/
theorem hexEscape_of_isLead {a : UInt8} (ha : isLead a = true) (b : UInt8) :
    hexEscape a b = none ↔ hexValue b = none := by
  have hfew : ∀ a : UInt8, isLead a = true → a ∈ [0x20, 0x09, 0x0A, 0x0B, 0x0C, 0x0D, 0x2B, 0x2D] := by
    apply forall_byte
    decide
  have hall : ∀ b : UInt8, [0x20, 0x09, 0x0A, 0x0B, 0x0C, 0x0D, 0x2B, 0x2D].all
      (fun a => hexEscape a b = none ↔ hexValue b = none) = true := by
    apply forall_byte
    decide
  exact forall_mem_of_all (hall b) a (hfew a ha)

theorem digitsValue_pair (a b : UInt8) : digitsValue 16 [a, b] = twoDigits a b := by
  simp only [digitsValue, twoDigits, hexValue]
  cases ha : digitValue 16 a with
  | none => simp [ha]
  | some high => cases hb : digitValue 16 b <;> simp [ha, hb]

/-- Otherwise it wants two. -/
theorem hexEscape_of_not_isLead {a : UInt8} (ha : isLead a = false) (b : UInt8) : hexEscape a b = twoDigits a b := by
  simp only [isLead, Bool.or_eq_false_iff, decide_eq_false_iff_not] at ha
  obtain ⟨⟨hspace, hplus⟩, hminus⟩ := ha
  have hskip : skipSpace [a, b] = [a, b] := by simp [skipSpace, hspace]
  unfold hexEscape strtoul
  rw [hskip]
  dsimp only
  split
  · rename_i hcons
    exact absurd (List.cons.inj hcons).1 hminus
  · rename_i hcons
    exact absurd (List.cons.inj hcons).1 hplus
  simp only [Bool.false_eq_true, if_false, Option.map_id_fun', id_eq]
  split
  · rename_i x s hcons
    obtain ⟨rfl, htail⟩ := List.cons.inj hcons
    obtain ⟨rfl, rfl⟩ := List.cons.inj htail
    by_cases hx : b = 0x78 ∨ b = 0x58
    · rcases hx with rfl | rfl <;> decide
    · rw [if_neg (by simpa using hx), digitsValue_pair]
  · exact digitsValue_pair a b

/-! ## Bodies -/

/-- The escape that a body starts with, by a reading of the two bytes behind a `%`. -/
def escapeAt (read : UInt8 → UInt8 → Option Nat) : Bytes → Option (Nat × Bytes)
  | c :: a :: b :: rest => if c = 0x25 then (read a b).map (·, rest) else none
  | _ => none

theorem decodeBody_cons {keep : UInt8 → UInt8} {bufLen idx : Nat} (c : UInt8) (rest : Bytes) :
    decodeBody keep bufLen idx (c :: rest) =
      if bufLen ≤ idx + 1 then none
      else match escapeAt hexEscape (c :: rest) with
        | some (val, rest) => if val = 0 then none else (decodeBody keep bufLen (idx + 1) rest).map (.ofNat val :: ·)
        | none => (decodeBody keep bufLen (idx + 1) rest).map (keep c :: ·) := by
  match rest with
  | [] => simp [decodeBody, escapeAt]
  | [d] => simp [decodeBody, escapeAt]
  | a :: b :: rest =>
    rw [decodeBody, escapeAt]
    by_cases hc : c = 0x25
    · simp only [if_pos hc]
      cases hexEscape a b <;> rfl
    · simp [hc]

theorem unescaped_cons {keep : UInt8 → UInt8} (c : UInt8) (rest : Bytes) :
    unescaped keep (c :: rest) =
      match escapeAt twoDigits (c :: rest) with
      | some (val, rest) => .ofNat val :: unescaped keep rest
      | none => keep c :: unescaped keep rest := by
  match rest with
  | [] => simp [unescaped, escapeAt]
  | [d] => simp [unescaped, escapeAt]
  | a :: b :: rest =>
    rw [unescaped, escapeAt]
    by_cases hc : c = 0x25
    · simp only [if_pos hc]
      cases twoDigits a b <;> rfl
    · simp [hc]

theorem escapeAt_eq_some {read : UInt8 → UInt8 → Option Nat} {c : UInt8} {n : Nat} {tail rest : Bytes} :
    escapeAt read (c :: tail) = some (n, rest) ↔ c = 0x25 ∧ ∃ a b, tail = a :: b :: rest ∧ read a b = some n := by
  match tail with
  | [] => simp [escapeAt]
  | [d] => simp [escapeAt]
  | a :: b :: t =>
    by_cases hc : c = 0x25
    · rw [escapeAt, if_pos hc]
      cases hread : read a b <;> simp [hc, hread, and_comm]
    · simp [escapeAt, hc]

/-- A `%` before a blank or a sign and a digit. -/
def LooseEscape (body : Bytes) : Prop := ∃ a b, [0x25, a, b] <:+: body ∧ isLead a = true ∧ (hexValue b).isSome

/-- An escaped terminator. -/
def EscapedNul (body : Bytes) : Prop := ∃ a b, [0x25, a, b] <:+: body ∧ twoDigits a b = some 0

theorem infix_cons_of_ne {c x y : UInt8} (hc : c ≠ 0x25) {tail : Bytes} :
    [0x25, x, y] <:+: c :: tail ↔ [0x25, x, y] <:+: tail := by
  rw [List.infix_cons_iff]
  simp [hc.symm]

theorem infix_escape {a b x y : UInt8} (ha : a ≠ 0x25) (hb : b ≠ 0x25) {rest : Bytes} :
    [0x25, x, y] <:+: 0x25 :: a :: b :: rest ↔ (x = a ∧ y = b) ∨ [0x25, x, y] <:+: rest := by
  rw [List.infix_cons_iff, infix_cons_of_ne ha, infix_cons_of_ne hb]
  simp

theorem infix_cons_of_escapeAt {read : UInt8 → UInt8 → Option Nat} {c x y : UInt8} {tail : Bytes}
    (h : escapeAt read (c :: tail) = none) (hread : read x y ≠ none) :
    [0x25, x, y] <:+: c :: tail ↔ [0x25, x, y] <:+: tail := by
  rw [List.infix_cons_iff]
  constructor
  · rintro (hstart | hinfix)
    · obtain ⟨rest, hrest⟩ := hstart
      obtain ⟨rfl, rfl⟩ := List.cons.inj hrest
      obtain ⟨n, hn⟩ := Option.ne_none_iff_exists'.mp hread
      simp [escapeAt, hn] at h
    · exact hinfix
  · exact .inr

theorem hexValue_of_twoDigits {a b : UInt8} {n : Nat} (h : twoDigits a b = some n) :
    hexValue a ≠ none ∧ hexValue b ≠ none := by
  unfold twoDigits at h
  cases ha : hexValue a <;> cases hb : hexValue b <;> simp [ha, hb] at h ⊢

/-- Two digits are an escape for `strtol` too. -/
theorem hexEscape_of_twoDigits {a b : UInt8} {n : Nat} (h : twoDigits a b = some n) : hexEscape a b = some n := by
  have hlead := (hexValue_spec a (hexValue_of_twoDigits h).1).1
  rw [hexEscape_of_not_isLead hlead, h]

/-- What becomes of a body that is accepted: it has no escaped terminator, and it loses bytes by loose escapes only. -/
structure Decoded (keep : UInt8 → UInt8) (body out : Bytes) : Prop where
  noNul : ¬ EscapedNul body
  length_le : out.length ≤ (unescaped keep body).length
  loose : LooseEscape body → out.length < (unescaped keep body).length
  exact : ¬ LooseEscape body → out = unescaped keep body

variable {keep : UInt8 → UInt8} {rest out : Bytes}

theorem Decoded.plain {c : UInt8} (h : Decoded keep rest out) (hescape : escapeAt hexEscape (c :: rest) = none) :
    Decoded keep (c :: rest) (keep c :: out) := by
  have htwo : escapeAt twoDigits (c :: rest) = none := by
    by_contra hne
    obtain ⟨⟨m, t⟩, hsome⟩ := Option.ne_none_iff_exists'.mp hne
    obtain ⟨rfl, a, b, rfl, htwo⟩ := escapeAt_eq_some.mp hsome
    simp [escapeAt, hexEscape_of_twoDigits htwo] at hescape
  have hloose : LooseEscape (c :: rest) ↔ LooseEscape rest := by
    apply exists_congr
    intro a
    apply exists_congr
    intro b
    apply and_congr_left
    rintro ⟨hlead, hdigit⟩
    apply infix_cons_of_escapeAt hescape
    intro hnone
    rw [(hexEscape_of_isLead hlead b).mp hnone] at hdigit
    cases hdigit
  have hunescaped : unescaped keep (c :: rest) = keep c :: unescaped keep rest := by rw [unescaped_cons, htwo]
  constructor
  · rintro ⟨a, b, hinfix, hzero⟩
    exact h.noNul ⟨a, b, (infix_cons_of_escapeAt htwo (by simp [hzero])).mp hinfix, hzero⟩
  · simpa [hunescaped] using h.length_le
  · intro hl
    simpa [hunescaped] using h.loose (hloose.mp hl)
  · intro hl
    rw [hunescaped, h.exact fun hr => hl (hloose.mpr hr)]

theorem Decoded.escape {a b : UInt8} {val : Nat} (h : Decoded keep rest out) (htwo : twoDigits a b = some val)
    (hval : val ≠ 0) : Decoded keep (0x25 :: a :: b :: rest) (.ofNat val :: out) := by
  obtain ⟨hdigitA, hdigitB⟩ := hexValue_of_twoDigits htwo
  obtain ⟨hlead, ha⟩ := hexValue_spec a hdigitA
  have hb := (hexValue_spec b hdigitB).2
  have hunescaped : unescaped keep (0x25 :: a :: b :: rest) = .ofNat val :: unescaped keep rest := by
    rw [unescaped_cons, escapeAt_eq_some.mpr ⟨rfl, a, b, rfl, htwo⟩]
  have hloose : LooseEscape (0x25 :: a :: b :: rest) ↔ LooseEscape rest := by
    constructor
    · rintro ⟨x, y, hinfix, hx, hy⟩
      rcases (infix_escape ha hb).mp hinfix with ⟨rfl, rfl⟩ | hinfix
      · rw [hlead] at hx
        cases hx
      · exact ⟨x, y, hinfix, hx, hy⟩
    · rintro ⟨x, y, hinfix, hx, hy⟩
      exact ⟨x, y, (infix_escape ha hb).mpr (.inr hinfix), hx, hy⟩
  constructor
  · rintro ⟨x, y, hinfix, hzero⟩
    rcases (infix_escape ha hb).mp hinfix with ⟨rfl, rfl⟩ | hinfix
    · rw [htwo] at hzero
      exact hval (Option.some.inj hzero)
    · exact h.noNul ⟨x, y, hinfix, hzero⟩
  · simpa [hunescaped] using h.length_le
  · intro hl
    simpa [hunescaped] using h.loose (hloose.mp hl)
  · intro hl
    rw [hunescaped, h.exact fun hr => hl (hloose.mpr hr)]

/-- A blank or a sign and a digit: three bytes that should be kept become one. -/
theorem Decoded.looseEscape {a b : UInt8} (h : Decoded keep rest out) (hlead : isLead a = true)
    (hdigit : hexValue b ≠ none) (val : UInt8) : Decoded keep (0x25 :: a :: b :: rest) (val :: out) := by
  have ha := isLead_ne hlead
  have hb := (hexValue_spec b hdigit).2
  have hfirst : escapeAt twoDigits (0x25 :: a :: b :: rest) = none := by simp [escapeAt, twoDigits_of_isLead hlead]
  have hplain {x : UInt8} (hx : x ≠ 0x25) (t : Bytes) : unescaped keep (x :: t) = keep x :: unescaped keep t := by
    have hnone : escapeAt twoDigits (x :: t) = none := by
      by_contra hne
      obtain ⟨⟨m, t'⟩, hsome⟩ := Option.ne_none_iff_exists'.mp hne
      exact hx (escapeAt_eq_some.mp hsome).1
    rw [unescaped_cons, hnone]
  have hunescaped : unescaped keep (0x25 :: a :: b :: rest) = keep 0x25 :: keep a :: keep b :: unescaped keep rest := by
    rw [unescaped_cons, hfirst]
    dsimp only
    rw [hplain ha, hplain hb]
  have hloose : LooseEscape (0x25 :: a :: b :: rest) :=
    ⟨a, b, (infix_escape ha hb).mpr (.inl ⟨rfl, rfl⟩), hlead, Option.isSome_iff_ne_none.mpr hdigit⟩
  have hle := h.length_le
  constructor
  · rintro ⟨x, y, hinfix, hzero⟩
    rcases (infix_escape ha hb).mp hinfix with ⟨rfl, rfl⟩ | hinfix
    · rw [twoDigits_of_isLead hlead] at hzero
      cases hzero
    · exact h.noNul ⟨x, y, hinfix, hzero⟩
  · simp only [hunescaped, List.length_cons]
    omega
  · intro _
    simp only [hunescaped, List.length_cons]
    omega
  · intro hl
    exact absurd hloose hl

theorem decoded_of_decodeBody {bufLen idx : Nat} {body : Bytes} (h : decodeBody keep bufLen idx body = some out) :
    Decoded keep body out := by
  induction hlen : body.length using Nat.strong_induction_on generalizing idx body out with
  | _ n ih =>
    cases body with
    | nil =>
      obtain rfl : [] = out := Option.some.inj h
      constructor <;> simp [EscapedNul, LooseEscape, unescaped]
    | cons c tail =>
      rw [List.length_cons] at hlen
      rw [decodeBody_cons] at h
      split at h
      · cases h
      cases hescape : escapeAt hexEscape (c :: tail) with
      | none =>
        simp only [hescape, Option.map_eq_some_iff] at h
        obtain ⟨out, hout, rfl⟩ := h
        exact (ih tail.length (by omega) hout rfl).plain hescape
      | some r =>
        obtain ⟨val, rest⟩ := r
        obtain ⟨rfl, a, b, rfl, hread⟩ := escapeAt_eq_some.mp hescape
        simp only [hescape] at h
        split at h
        · cases h
        rename_i hval
        obtain ⟨out, hout, rfl⟩ := Option.map_eq_some_iff.mp h
        simp only [List.length_cons] at hlen
        have hrest := ih rest.length (by omega) hout rfl
        cases hlead : isLead a with
        | false => exact hrest.escape ((hexEscape_of_not_isLead hlead b).symm.trans hread) hval
        | true =>
          apply hrest.looseEscape hlead
          intro hnone
          rw [(hexEscape_of_isLead hlead b).mpr hnone] at hread
          cases hread

/-- The bytes that a body stands for come out, and no escaped terminator was let through. -/
def Faithful (keep : UInt8 → UInt8) (body out : Bytes) : Prop := out = unescaped keep body ∧ ¬ EscapedNul body

theorem Decoded.faithful_iff {body : Bytes} (h : Decoded keep body out) :
    Faithful keep body out ↔ ¬ LooseEscape body := by
  constructor
  · rintro ⟨rfl, -⟩ hl
    exact lt_irrefl _ (h.loose hl)
  · intro hl
    exact ⟨h.exact hl, h.noNul⟩

/-! ## Encodings -/

/-- `body` encodes `path`: any of its bytes are escaped, and every `%`. -/
inductive PercentEncodes : Bytes → Bytes → Prop
  | nil : PercentEncodes [] []
  | plain {c : UInt8} {path body : Bytes} (hc : c ≠ 0x25) (h : PercentEncodes path body) :
      PercentEncodes (c :: path) (c :: body)
  | escaped {c a b : UInt8} {path body : Bytes} (hc : twoDigits a b = some c.toNat) (h : PercentEncodes path body) :
    PercentEncodes (c :: path) (0x25 :: a :: b :: body)

theorem decodeBody_of_encodes {path body : Bytes} (h : PercentEncodes path body) {bufLen idx : Nat}
    (hzero : (0 : UInt8) ∉ path) (hfits : idx + path.length < bufLen) : decodeBody id bufLen idx body = some path := by
  induction h generalizing idx with
  | nil => rfl
  | @plain c path body hc h ih =>
    rw [List.mem_cons, not_or] at hzero
    rw [List.length_cons] at hfits
    have hnone : escapeAt hexEscape (c :: body) = none := by
      by_contra hne
      obtain ⟨⟨m, t⟩, hsome⟩ := Option.ne_none_iff_exists'.mp hne
      exact hc (escapeAt_eq_some.mp hsome).1
    rw [decodeBody_cons, if_neg (by omega), hnone]
    dsimp only
    rw [ih hzero.2 (by omega)]
    rfl
  | @escaped c a b path body hc h ih =>
    rw [List.mem_cons, not_or] at hzero
    rw [List.length_cons] at hfits
    have hval : c.toNat ≠ 0 := by
      intro hnat
      exact hzero.1 (UInt8.toNat_inj.mp hnat).symm
    rw [decodeBody_cons, if_neg (by omega), escapeAt_eq_some.mpr ⟨rfl, a, b, rfl, hexEscape_of_twoDigits hc⟩]
    dsimp only
    rw [if_neg hval, ih hzero.2 (by omega), Option.map_some, UInt8.ofNat_toNat]

theorem posixBody_file {path body : Bytes} (habsolute : path.head? = some 0x2F) (h : PercentEncodes path body) :
    posixBody (ascii "file://" ++ body) = body := by
  have hhost : (ascii "file://localhost/").isPrefixOf (ascii "file://" ++ body) = false := by
    cases h with
    | nil => cases habsolute
    | plain hc h =>
      obtain rfl := Option.some.inj habsolute
      rfl
    | escaped hc h => rfl
  have hfile : (ascii "file://").isPrefixOf (ascii "file://" ++ body) = true := by simp
  rw [posixBody, hhost, hfile]
  simp only [Bool.false_eq_true, if_false, if_true]
  show (ascii "file://" ++ body).drop (ascii "file://").length = body
  exact List.drop_left

/-- **Any encoding of a path gives it back, and what is accepted is decoded faithfully unless an escape is loose.** -/
theorem paths_exact (size : Nat) :
    (∀ path body, path.head? = some 0x2F → (0 : UInt8) ∉ path → path.length < size → PercentEncodes path body →
      normalizePosixPath (ascii "file://" ++ body) size = some path) ∧
    (∀ url out, normalizePosixPath url size = some out →
      (Faithful id (posixBody url) out ↔ ¬ LooseEscape (posixBody url))) ∧
    ∀ url out, normalizeWin32Path url size = some out →
      ((∃ path, out = (if (win32Body url).1 then [0x5C, 0x5C] else []) ++ path ∧
          Faithful backslash (win32Body url).2 path) ↔
        ¬ LooseEscape (win32Body url).2) := by
  refine ⟨?_, ?_, ?_⟩
  · intro path body habsolute hzero hfits hencodes
    rw [normalizePosixPath, if_neg (by omega), posixBody_file habsolute hencodes]
    exact decodeBody_of_encodes hencodes hzero (by omega)
  · intro url out h
    rw [normalizePosixPath] at h
    split at h
    · cases h
    exact (decoded_of_decodeBody h).faithful_iff
  · intro url out h
    rw [normalizeWin32Path] at h
    split at h
    · cases h
    generalize win32Body url = body at h ⊢
    obtain ⟨isUnc, src⟩ := body
    dsimp only at h ⊢
    cases isUnc with
    | true =>
      simp only [if_true] at h ⊢
      split at h
      · cases h
      obtain ⟨path, hpath, rfl⟩ := Option.map_eq_some_iff.mp h
      rw [← (decoded_of_decodeBody hpath).faithful_iff]
      simp
    | false =>
      simp only [Bool.false_eq_true, if_false] at h ⊢
      rw [← (decoded_of_decodeBody h).faithful_iff]
      simp

theorem paths_exact_blank :
    normalizePosixPath (ascii "file://" ++ ascii "/a%20b") 4096 = some (ascii "/a b") ∧
      Faithful id (ascii "/a%20b") (ascii "/a b") ∧
      ∃ path, ascii "C:\\a b" = [] ++ path ∧ Faithful backslash (ascii "C:/a%20b") path := by
  have hloose (body : Bytes) (h : ∀ i < body.length, isLead (body.getD i 0) = false) : ¬ LooseEscape body := by
    rintro ⟨a, b, ⟨pre, post, rfl⟩, ha, -⟩
    have hat := h (pre.length + 1) (by simp)
    rw [List.append_assoc, List.getD_eq_getElem?_getD, List.getElem?_append_right (by omega)] at hat
    simp [ha] at hat
  refine ⟨?_, ?_, ?_⟩
  · have hencodes : PercentEncodes (ascii "/a b") (ascii "/a%20b") :=
      .plain (by decide) (.plain (by decide) (.escaped (by decide) (.plain (by decide) .nil)))
    exact (paths_exact 4096).1 _ _ (by decide) (by decide) (by decide) hencodes
  · exact ((paths_exact 4096).2.1 (ascii "file:///a%20b") _ (by decide)).mpr (hloose _ (by decide))
  · exact ((paths_exact 4096).2.2 (ascii "file:///C:/a%20b") _ (by decide)).mpr (hloose _ (by decide))

/-- A blank and a digit are taken for an escape. -/
theorem not_paths_exact :
    ¬ (∀ url bufLen out, normalizePosixPath url bufLen = some out → Faithful id (posixBody url) out) ∧
      ¬ ∀ url maxOut out, normalizeWin32Path url maxOut = some out → Faithful backslash (win32Body url).2 out := by
  constructor
  · intro h
    have hbytes := (h (ascii "file:///a% 1") 4096 [0x2F, 0x61, 0x01] (by decide)).1
    revert hbytes
    decide
  · intro h
    have hbytes := (h (ascii "file:///a% 1") 4096 [0x61, 0x01] (by decide)).1
    revert hbytes
    decide

end VlcWhisper.Worker
