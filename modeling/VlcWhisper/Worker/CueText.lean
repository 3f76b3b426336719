import VlcWhisper.Protocol.Validate
import Mathlib.Data.List.DropRight
import Mathlib.Data.List.Infix

/-!
# Cue texts (`vw_hallucination_filter.c`, the text functions of `vw_segment_builder.c`)

Texts are the bytes before the terminator. `trimText` is the cleanup of a hypothesis, `isPhantomText` the
filter for sound tags and bare punctuation, `tailPrefixLen` the overlap of a cue's tail with a candidate's
front, in whole words.
-/

namespace VlcWhisper.Worker

open VlcWhisper.Lib VlcWhisper.Protocol

/-! ## Strings -/

/-- The bytes of an ASCII literal. -/
def ascii (s : String) : Bytes := s.toList.map fun c => UInt8.ofNat c.toNat

/-- Without the whitespace at both ends. -/
def trimText (s : Bytes) : Bytes := (s.dropWhile isWhitespace).rdropWhile isWhitespace

/-- `strstr(s, t) != NULL`. -/
def contains (s t : Bytes) : Bool := s.tails.any t.isPrefixOf

theorem contains_iff {s t : Bytes} : contains s t = true ↔ t <:+: s := by
  simp only [contains, List.any_eq_true, List.mem_tails, List.isPrefixOf_iff_prefix]
  constructor
  · rintro ⟨u, hsuffix, hprefix⟩
    exact hprefix.isInfix.trans hsuffix.isInfix
  · rintro ⟨pre, post, rfl⟩
    exact ⟨t ++ post, by rw [List.append_assoc]; exact List.suffix_append _ _, List.prefix_append _ _⟩

/-! ## The hallucination filter -/

/-- `isspace` in the C locale. -/
def isSpace (c : UInt8) : Bool := c = 0x20 || (0x09 ≤ c && c ≤ 0x0D)

/-- `tolower` in the C locale. -/
def toLower (c : UInt8) : UInt8 := if 0x41 ≤ c && c ≤ 0x5A then c + 0x20 else c

def isAsciiAlnum (c : UInt8) : Bool := isAsciiAlpha c || (0x30 ≤ c && c ≤ 0x39)

/-- `vw_hallucination_is_isolated_punctuation`. -/
def isIsolatedPunctuation (s : Bytes) : Bool := s.all fun c => !isAsciiAlnum c && c < 0x80

/-- What may surround a musical note. -/
def isNoteFiller (c : UInt8) : Bool := isSpace c || (ascii "[]()-*~").contains c

/-- The loop of `is_only_musical_notes`; a note is E2 99 A9 to E2 99 AC. -/
def onlyNotes : Nat → Bytes → Bool → Bool
  | _, [], hasNote => hasNote
  | 0, _ :: _, _ => false
  | fuel + 1, c :: rest, hasNote =>
    if isNoteFiller c then onlyNotes fuel rest hasNote
    else match rest with
      | d :: e :: rest => if c = 0xE2 && d = 0x99 && 0xA9 ≤ e && e ≤ 0xAC then onlyNotes fuel rest true else false
      | _ => false

/-- `is_only_musical_notes`. -/
def isOnlyMusicalNotes (s : Bytes) : Bool := s != [] && onlyNotes s.length s false

def innerTags : List Bytes :=
  ["music", "applause", "laughter", "silence", "cheering", "screaming", "gasp", "sigh", "coughing", "sneezing",
    "blank_audio", "snicker", "groan", "yawn", "pant", "whispering", "applause cheering", "music playing"].map
    ascii

/-- The text is within brackets, parentheses or asterisks and names a sound. -/
def isBracketedTag (s : Bytes) : Bool :=
  let opened := s.head?
  let closed := s.getLast?
  let inner := (((s.drop 1).dropLast).dropWhile isSpace).rdropWhile isSpace
  2 ≤ s.length &&
    ((opened = some 0x5B && closed = some 0x5D) || (opened = some 0x28 && closed = some 0x29) ||
      (opened = some 0x2A && closed = some 0x2A)) &&
    0 < inner.length && inner.length ≤ 64 && innerTags.any fun tag => inner.map toLower = tag

/-- `vw_hallucination_is_non_speech_tag`. -/
def isNonSpeechTag (s : Bytes) : Bool :=
  let trimmed := (s.dropWhile isSpace).rdropWhile isSpace
  if trimmed = [] then true
  else if 128 < trimmed.length then false
  else isOnlyMusicalNotes trimmed || isBracketedTag trimmed

/-- `vw_hallucination_is_phantom_text`. -/
def isPhantomText (s : Bytes) : Bool := isIsolatedPunctuation s || isNonSpeechTag s

/-! ## Word overlap -/

/-- There is whitespace at position `i`, or the string is over. -/
def blankAt (s : Bytes) (i : Nat) : Bool :=
  match s[i]? with
  | some c => isWhitespace c
  | none => true

/-- How many words begin in `s`, `blank` saying whether its first byte can begin one. -/
def countWords : Bool → Bytes → Nat
  | _, [] => 0
  | blank, c :: rest =>
    if isWhitespace c then countWords true rest
    else (if blank then 1 else 0) + countWords false rest

/-- The first `be` bytes of `cand` end with a word, are a suffix of `cue` that begins with a word, and hold at
least two words. -/
def isWordOverlap (cue cand : Bytes) (be : Nat) : Bool :=
  blankAt cand be && !blankAt cand (be - 1) && be ≤ cue.length && cue.drop (cue.length - be) = cand.take be &&
    (be = cue.length || blankAt cue (cue.length - be - 1)) && 2 ≤ countWords true (cand.take be)

/-- The longest overlap of at most `be` bytes. -/
def longestOverlap (cue cand : Bytes) : Nat → Nat
  | 0 => 0
  | be + 1 => if isWordOverlap cue cand (be + 1) then be + 1 else longestOverlap cue cand be

/-- `vw_segment_builder_tail_prefix_len`. -/
def tailPrefixLen (cue cand : Bytes) : Nat := longestOverlap cue cand cand.length

theorem longestOverlap_spec {cue cand : Bytes} {k : Nat} (h : longestOverlap cue cand k ≠ 0) :
    longestOverlap cue cand k ≤ k ∧ isWordOverlap cue cand (longestOverlap cue cand k) = true := by
  induction k with
  | zero => simp [longestOverlap] at h
  | succ k ih =>
    simp only [longestOverlap] at h ⊢
    split
    · rename_i hov
      exact ⟨le_rfl, hov⟩
    · rename_i hov
      rw [if_neg hov] at h
      obtain ⟨hle, hspec⟩ := ih h
      exact ⟨by omega, hspec⟩

end VlcWhisper.Worker
