import Mathlib.Order.Bounds.Defs
import VlcWhisper.Worker.CueText

/-!
# The overlap of a cue with a candidate (`vw_segment_builder.c`)

`vw_segment_builder_tail_prefix_len` tries the word ends of the candidate from its end down. Main result:
`tailPrefixLen_longest`. What it gives is the length of the longest overlap of the two strings (`WordOverlap`), and it
gives nothing only if there is none.
-/

namespace VlcWhisper.Worker

open VlcWhisper.Lib VlcWhisper.Protocol

/-- The words of a string: what stands between whitespace. -/
def wordsOf (s : Bytes) : List Bytes := (s.splitOnP isWhitespace).filter (· ≠ [])

/-- `overlap` begins the candidate and ends with a word there, ends the cue and begins there at the start or behind
whitespace, and has two words or more. -/
structure WordOverlap (cue cand overlap : Bytes) : Prop where
  ofCand : ∃ rest, cand = overlap ++ rest ∧ ∀ c ∈ rest.head?, isWhitespace c = true
  endsWord : ∀ c ∈ overlap.getLast?, isWhitespace c = false
  ofCue : ∃ before, cue = before ++ overlap ∧ ∀ c ∈ before.getLast?, isWhitespace c = true
  twoWords : 2 ≤ (wordsOf overlap).length

/-! ## Counting words -/

theorem wordsOf_blank {c : UInt8} (hc : isWhitespace c = true) (s : Bytes) : wordsOf (c :: s) = wordsOf s := by
  rw [wordsOf, List.splitOnP_cons_eq_if_modifyHead, if_pos hc, List.filter_cons_of_neg (by simp)]
  rfl

theorem countWords_eq (s : Bytes) :
    countWords true s = (wordsOf s).length ∧
      countWords false s = ((s.splitOnP isWhitespace).tail.filter (· ≠ [])).length := by
  induction s with
  | nil => exact ⟨rfl, rfl⟩
  | cons c s ih =>
    obtain ⟨htrue, hfalse⟩ := ih
    by_cases hc : isWhitespace c = true
    · have hcons : (c :: s).splitOnP isWhitespace = [] :: s.splitOnP isWhitespace := by
        rw [List.splitOnP_cons_eq_if_modifyHead, if_pos hc]
      rw [countWords, countWords, if_pos hc, if_pos hc, wordsOf_blank hc, hcons, List.tail_cons]
      exact ⟨htrue, htrue⟩
    · obtain ⟨word, others, hsplit⟩ := List.exists_cons_of_ne_nil (List.splitOnP_ne_nil isWhitespace s)
      have hcons : (c :: s).splitOnP isWhitespace = (c :: word) :: others := by
        rw [List.splitOnP_cons_eq_if_modifyHead, if_neg hc, hsplit, List.modifyHead_cons]
      rw [hsplit, List.tail_cons] at hfalse
      rw [countWords, countWords, if_neg hc, if_neg hc, wordsOf, hcons, List.filter_cons_of_pos (by simp),
        List.length_cons, List.tail_cons, hfalse]
      exact ⟨Nat.add_comm .., Nat.zero_add _⟩

theorem wordsOf_nil : wordsOf [] = [] := rfl

theorem WordOverlap.ne_nil {cue cand overlap : Bytes} (h : WordOverlap cue cand overlap) : overlap ≠ [] := by
  rintro rfl
  have htwo := h.twoWords
  rw [wordsOf_nil] at htwo
  cases htwo

/-! ## The tests of the loop -/

theorem blankAt_length (s rest : Bytes) :
    blankAt (s ++ rest) s.length = true ↔ ∀ c ∈ rest.head?, isWhitespace c = true := by
  rw [blankAt, List.getElem?_append_right (le_refl _), Nat.sub_self]
  cases rest <;> simp

theorem blankAt_last {s : Bytes} (hne : s ≠ []) (rest : Bytes) :
    blankAt (s ++ rest) (s.length - 1) = false ↔ ∀ c ∈ s.getLast?, isWhitespace c = false := by
  have hpos := List.length_pos_of_ne_nil hne
  rw [blankAt, List.getElem?_append_left (by omega), ← List.getLast?_eq_getElem?, List.getLast?_eq_some_getLast hne]
  simp

theorem blankAt_before (before s : Bytes) :
    (s.length = (before ++ s).length ∨ blankAt (before ++ s) ((before ++ s).length - s.length - 1) = true) ↔
      ∀ c ∈ before.getLast?, isWhitespace c = true := by
  rw [List.length_append, Nat.add_sub_cancel]
  by_cases hnil : before = []
  · subst hnil
    simp
  · have hpos := List.length_pos_of_ne_nil hnil
    rw [or_iff_right (by omega), blankAt, List.getElem?_append_left (by omega), ← List.getLast?_eq_getElem?,
      List.getLast?_eq_some_getLast hnil]
    simp

theorem isWordOverlap_iff {cue overlap rest : Bytes} (hne : overlap ≠ []) :
    isWordOverlap cue (overlap ++ rest) overlap.length = true ↔ WordOverlap cue (overlap ++ rest) overlap := by
  simp only [isWordOverlap, Bool.and_eq_true, Bool.not_eq_true', Bool.or_eq_true, decide_eq_true_eq, List.take_left,
    blankAt_length, blankAt_last hne, (countWords_eq overlap).1]
  constructor
  · rintro ⟨⟨⟨⟨⟨hstop, hend⟩, -⟩, htail⟩, hbegin⟩, htwo⟩
    have hcue : cue = cue.take (cue.length - overlap.length) ++ overlap := by
      conv_lhs => rw [← List.take_append_drop (cue.length - overlap.length) cue, htail]
    generalize cue.take (cue.length - overlap.length) = before at hcue
    subst hcue
    exact ⟨⟨rest, rfl, hstop⟩, hend, ⟨before, rfl, (blankAt_before before overlap).mp hbegin⟩, htwo⟩
  · rintro ⟨⟨rest', hrest, hstop⟩, hend, ⟨before, rfl, hbegin⟩, htwo⟩
    obtain rfl := List.append_cancel_left hrest
    refine ⟨⟨⟨⟨⟨hstop, hend⟩, ?_⟩, ?_⟩, (blankAt_before before overlap).mpr hbegin⟩, htwo⟩
    · simp
    · simp

/-! ## The loop -/

theorem le_longestOverlap {cue cand : Bytes} {k n : Nat} (h : isWordOverlap cue cand n = true) (hk : n ≤ k) :
    n ≤ longestOverlap cue cand k := by
  induction k with
  | zero => exact hk
  | succ k ih =>
    rw [longestOverlap]
    split
    · exact hk
    · rename_i hnot
      have hne : n ≠ k + 1 := by
        rintro rfl
        exact hnot h
      exact ih (by omega)

theorem le_tailPrefixLen {cue cand overlap : Bytes} (h : WordOverlap cue cand overlap) :
    overlap.length ≤ tailPrefixLen cue cand := by
  obtain ⟨rest, rfl, -⟩ := h.ofCand
  apply le_longestOverlap ((isWordOverlap_iff h.ne_nil).mpr h)
  rw [List.length_append]
  omega

theorem wordOverlap_tailPrefixLen {cue cand : Bytes} (h : tailPrefixLen cue cand ≠ 0) :
    WordOverlap cue cand (cand.take (tailPrefixLen cue cand)) ∧
      (cand.take (tailPrefixLen cue cand)).length = tailPrefixLen cue cand := by
  obtain ⟨hle, hoverlap⟩ : tailPrefixLen cue cand ≤ cand.length ∧
      isWordOverlap cue cand (tailPrefixLen cue cand) = true := longestOverlap_spec h
  generalize tailPrefixLen cue cand = n at h hle hoverlap ⊢
  have hlen : (cand.take n).length = n := List.length_take_of_le hle
  have hne : cand.take n ≠ [] := by
    intro hnil
    rw [hnil] at hlen
    exact h hlen.symm
  refine ⟨?_, hlen⟩
  rw [← List.take_append_drop n cand] at hoverlap ⊢
  rw [List.take_left' hlen]
  apply (isWordOverlap_iff hne).mp
  rwa [hlen]

/-- **The longest overlap is found, and nothing is found only if there is none.** -/
theorem tailPrefixLen_longest (cue cand : Bytes) :
    (tailPrefixLen cue cand ≠ 0 →
      IsGreatest {n | ∃ overlap, WordOverlap cue cand overlap ∧ overlap.length = n} (tailPrefixLen cue cand)) ∧
    (tailPrefixLen cue cand = 0 ↔ ∀ overlap, ¬ WordOverlap cue cand overlap) := by
  refine ⟨fun h => ⟨⟨_, wordOverlap_tailPrefixLen h⟩, ?_⟩, fun h overlap hoverlap => ?_, fun h => ?_⟩
  · rintro n ⟨overlap, hoverlap, rfl⟩
    exact le_tailPrefixLen hoverlap
  · have hle := le_tailPrefixLen hoverlap
    have hpos := List.length_pos_of_ne_nil hoverlap.ne_nil
    omega
  · by_contra hne
    exact h _ (wordOverlap_tailPrefixLen hne).1

example : tailPrefixLen (ascii "to be or not to be") (ascii "to be that") = 5 := by decide

end VlcWhisper.Worker
