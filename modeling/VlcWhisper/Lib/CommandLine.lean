import Mathlib.Data.List.Basic
import Mathlib.Tactic.Common

/-!
# Arguments in a command line

How a command line is read where a program gets one line instead of a list of arguments: blanks separate arguments
unless a quote is open, and backslashes mean something only before a quote, where two of them stand for one and an odd
one makes the quote literal. A quote right after a closing one is literal. The name of the program, which comes first,
knows no backslashes.

Main result: `splitLine_commandLine`. Arguments of any characters are read back from a line that escapes them.
-/

namespace VlcWhisper.Lib

/-- The characters that mean something in a command line. -/
structure LineMarks (α : Type*) where
  quote : α
  backslash : α
  space : α
  isBlank : α → Bool
  backslash_ne_quote : backslash ≠ quote
  isBlank_space : isBlank space = true
  isBlank_quote : isBlank quote = false
  isBlank_backslash : isBlank backslash = false

namespace LineMarks

variable {α : Type*} [DecidableEq α] (m : LineMarks α)

/-! ## Reading a line -/

/-- No quote is open, or one is, or one was just closed. -/
inductive QuoteMode where
  | outside
  | inside
  | closed
  deriving DecidableEq

/-- What any other character than a quote leaves. -/
def QuoteMode.settled : QuoteMode → QuoteMode
  | .closed => .outside
  | mode => mode

/-- An argument that is being read; the backslashes just before are not in it yet. -/
structure Reading (α : Type*) where
  arg : List α
  slashes : Nat
  mode : QuoteMode

/-- The argument begins. -/
def Reading.start : Reading α := ⟨[], 0, .outside⟩

/-- The argument ends; backslashes at its end are literal. -/
def finish (r : Reading α) : List α := r.arg ++ List.replicate r.slashes m.backslash

/-- A quote that no backslash made literal. -/
def delimit (r : Reading α) : Reading α :=
  let arg := r.arg ++ List.replicate (r.slashes / 2) m.backslash
  match r.mode with
  | .outside => ⟨arg, 0, .inside⟩
  | .inside => ⟨arg, 0, .closed⟩
  | .closed => ⟨arg ++ [m.quote], 0, .outside⟩

/-- One more character of the argument. -/
def read (r : Reading α) (c : α) : Reading α :=
  if c = m.backslash then { r with slashes := r.slashes + 1, mode := r.mode.settled }
  else if c = m.quote then
    if r.slashes % 2 = 1 then
      ⟨r.arg ++ List.replicate (r.slashes / 2) m.backslash ++ [m.quote], 0, r.mode⟩
    else m.delimit r
  else ⟨r.arg ++ List.replicate r.slashes m.backslash ++ [c], 0, r.mode.settled⟩

/-- A blank ends the argument, or is between arguments. -/
def separates (current : Option (Reading α)) (c : α) : Bool := m.isBlank c && !current.any (·.mode = .inside)

/-- The arguments in the rest of a line. -/
def readArgs : Option (Reading α) → List α → List (List α)
  | current, [] => (current.map m.finish).toList
  | current, c :: rest =>
    if m.separates current c then (current.map m.finish).toList ++ readArgs none rest
    else readArgs (some (m.read (current.getD .start) c)) rest

/-- The name of the program and what comes after it. -/
def readName : List α → List α × List α
  | [] => ([], [])
  | c :: rest =>
    if c = m.quote then (rest.takeWhile (· ≠ m.quote), (rest.dropWhile (· ≠ m.quote)).drop 1)
    else ((c :: rest).takeWhile (!m.isBlank ·), (c :: rest).dropWhile (!m.isBlank ·))

def splitLine (line : List α) : List (List α) :=
  (m.readName line).1 :: m.readArgs none (m.readName line).2

/-! ## Writing one -/

/-- The characters of an argument between quotes; `slashes` backslashes have just been passed. -/
def escape : Nat → List α → List α
  | slashes, [] => List.replicate (2 * slashes) m.backslash
  | slashes, c :: rest =>
    if c = m.backslash then escape (slashes + 1) rest
    else if c = m.quote then
      List.replicate (2 * slashes) m.backslash ++ m.backslash :: m.quote :: escape 0 rest
    else List.replicate slashes m.backslash ++ c :: escape 0 rest

/-- An argument between quotes. -/
def quoted (arg : List α) : List α := m.quote :: (m.escape 0 arg ++ [m.quote])

/-- A line for a program of this name. -/
def commandLine (name : List α) (args : List (List α)) : List α :=
  m.quoted name ++ args.flatMap fun arg => m.space :: m.quoted arg

/-! ## Reading what was written -/

variable {m}

theorem readArgs_inside {r : Reading α} (h : r.mode = .inside) (c : α) (rest : List α) :
    m.readArgs (some r) (c :: rest) = m.readArgs (some (m.read r c)) rest := by
  simp [readArgs, separates, h]

theorem readArgs_slashes (arg : List α) (k n : Nat) (rest : List α) :
    m.readArgs (some ⟨arg, k, .inside⟩) (List.replicate n m.backslash ++ rest) =
      m.readArgs (some ⟨arg, k + n, .inside⟩) rest := by
  induction n generalizing k with
  | zero => rfl
  | succ n ih =>
    have hread : m.read ⟨arg, k, .inside⟩ m.backslash = ⟨arg, k + 1, .inside⟩ := by simp [read, QuoteMode.settled]
    rw [List.replicate_succ, List.cons_append, readArgs_inside rfl, hread, ih, Nat.add_assoc, Nat.add_comm 1 n]

theorem readArgs_escape (arg : List α) (n : Nat) (text rest : List α) :
    m.readArgs (some ⟨arg, 0, .inside⟩) (m.escape n text ++ m.quote :: rest) =
      m.readArgs (some ⟨arg ++ List.replicate n m.backslash ++ text, 0, .closed⟩) rest := by
  have hquote : m.quote ≠ m.backslash := m.backslash_ne_quote.symm
  induction text generalizing arg n with
  | nil =>
    rw [escape, readArgs_slashes, readArgs_inside rfl, Nat.zero_add]
    simp [read, hquote, delimit]
  | cons c text ih =>
    unfold escape
    by_cases hslash : c = m.backslash
    · rw [if_pos hslash, ih, hslash, List.replicate_succ']
      simp
    · rw [if_neg hslash]
      by_cases hc : c = m.quote
      · have hslashes : m.read ⟨arg, 2 * n, .inside⟩ m.backslash = ⟨arg, 2 * n + 1, .inside⟩ := by
          simp [read, QuoteMode.settled]
        have hhalf : (2 * n + 1) / 2 = n := by omega
        have hread : m.read ⟨arg, 2 * n + 1, .inside⟩ m.quote =
            ⟨arg ++ List.replicate n m.backslash ++ [m.quote], 0, .inside⟩ := by
          simp [read, hquote, hhalf]
        rw [if_pos hc, List.append_assoc, readArgs_slashes, Nat.zero_add, List.cons_append, readArgs_inside rfl,
          hslashes, List.cons_append, readArgs_inside rfl, hread, ih, hc]
        simp
      · have hread : m.read ⟨arg, n, .inside⟩ c = ⟨arg ++ List.replicate n m.backslash ++ [c], 0, .inside⟩ := by
          simp [read, hslash, hc, QuoteMode.settled]
        rw [if_neg hc, List.append_assoc, readArgs_slashes, Nat.zero_add, List.cons_append, readArgs_inside rfl, hread,
          ih]
        simp

theorem readArgs_quoted (arg rest : List α) :
    m.readArgs none (m.quoted arg ++ rest) = m.readArgs (some ⟨arg, 0, .closed⟩) rest := by
  have hopen : m.read .start m.quote = ⟨[], 0, .inside⟩ := by
    simp [read, Reading.start, m.backslash_ne_quote.symm, delimit]
  have hseparates : m.separates none m.quote = false := by simp [separates, m.isBlank_quote]
  rw [quoted, List.cons_append, List.append_assoc, readArgs, hseparates]
  simp only [Bool.false_eq_true, if_false, Option.getD_none, hopen]
  rw [List.singleton_append, readArgs_escape]
  simp

theorem readArgs_closed_space (arg rest : List α) :
    m.readArgs (some ⟨arg, 0, .closed⟩) (m.space :: rest) = arg :: m.readArgs none rest := by
  simp [readArgs, separates, m.isBlank_space, finish]

theorem readArgs_spaced (args : List (List α)) (arg : List α) :
    m.readArgs (some ⟨arg, 0, .closed⟩) (args.flatMap fun arg => m.space :: m.quoted arg) = arg :: args := by
  induction args generalizing arg with
  | nil => simp [readArgs, finish]
  | cons next args ih => rw [List.flatMap_cons, List.cons_append, readArgs_closed_space, readArgs_quoted, ih]

theorem readArgs_arguments (args : List (List α)) :
    m.readArgs none (args.flatMap fun arg => m.space :: m.quoted arg) = args := by
  cases args with
  | nil => rfl
  | cons arg args =>
    have hblank (rest : List α) : m.readArgs none (m.space :: rest) = m.readArgs none rest := by
      simp [readArgs, separates, m.isBlank_space]
    rw [List.flatMap_cons, List.cons_append, hblank, readArgs_quoted, readArgs_spaced]

/-! ## Escaping -/

theorem escape_slashes (n k : Nat) (text : List α) :
    m.escape n (List.replicate k m.backslash ++ text) = m.escape (n + k) text := by
  induction k generalizing n with
  | zero => rfl
  | succ k ih =>
    rw [List.replicate_succ, List.cons_append, escape, if_pos rfl, ih]
    congr 1
    omega

/-- What comes after a run of backslashes decides whether it is doubled. -/
theorem escape_run {text : List α} (h : text.head? ≠ some m.backslash) (n : Nat) :
    m.escape n text =
      List.replicate (if text = [] ∨ text.head? = some m.quote then 2 * n else n) m.backslash ++ m.escape 0 text := by
  cases text with
  | nil => simp [escape]
  | cons c text =>
    have hslash : c ≠ m.backslash := by simpa using h
    by_cases hc : c = m.quote
    · simp [escape, hc, m.backslash_ne_quote.symm]
    · simp [escape, hc, hslash]

theorem length_escape_le (n : Nat) (text : List α) : (m.escape n text).length ≤ 2 * (n + text.length) := by
  induction text generalizing n with
  | nil => simp [escape]
  | cons c text ih =>
    have hnext := ih (n + 1)
    have hzero := ih 0
    unfold escape
    split_ifs <;> simp <;> omega

theorem mem_of_mem_escape {n : Nat} {text : List α} {c : α} (h : c ∈ m.escape n text) :
    c = m.backslash ∨ c ∈ text := by
  induction text generalizing n with
  | nil =>
    rw [escape] at h
    exact .inl (List.eq_of_mem_replicate h)
  | cons d text ih =>
    unfold escape at h
    split_ifs at h with hslash hquote
    · exact (ih h).imp id (List.mem_cons_of_mem _)
    · simp only [List.mem_append, List.mem_cons, List.mem_replicate] at h
      obtain ⟨_, hc⟩ | hc | hc | hc := h
      · exact .inl hc
      · exact .inl hc
      · rw [hc, hquote]
        exact .inr List.mem_cons_self
      · exact (ih hc).imp id (List.mem_cons_of_mem _)
    · simp only [List.mem_append, List.mem_cons, List.mem_replicate] at h
      obtain ⟨_, hc⟩ | hc | hc := h
      · exact .inl hc
      · rw [hc]
        exact .inr List.mem_cons_self
      · exact (ih hc).imp id (List.mem_cons_of_mem _)

theorem escape_of_notMem {text : List α} (h : m.quote ∉ text) (n : Nat) :
    ∃ k, m.escape n text = List.replicate n m.backslash ++ text ++ List.replicate k m.backslash := by
  induction text generalizing n with
  | nil =>
    refine ⟨n, ?_⟩
    rw [escape, List.append_nil, List.replicate_append_replicate, Nat.two_mul]
  | cons c text ih =>
    obtain ⟨hc, htext⟩ : m.quote ≠ c ∧ m.quote ∉ text := by simpa using h
    unfold escape
    by_cases hslash : c = m.backslash
    · obtain ⟨k, hk⟩ := ih htext (n + 1)
      refine ⟨k, ?_⟩
      rw [if_pos hslash, hk, hslash, List.replicate_succ']
      simp
    · obtain ⟨k, hk⟩ := ih htext 0
      refine ⟨k, ?_⟩
      rw [if_neg hslash, if_neg hc.symm, hk]
      simp

theorem quote_notMem_escape {text : List α} (h : m.quote ∉ text) : m.quote ∉ m.escape 0 text := by
  obtain ⟨k, hk⟩ := escape_of_notMem (m := m) h 0
  rw [hk]
  simp [h, m.backslash_ne_quote.symm]

/-- **Round trip.** The arguments are read back, whatever they are. The name may have no quotes, and backslashes at its
end come back doubled. -/
theorem splitLine_commandLine {name : List α} (hname : m.quote ∉ name) (args : List (List α)) :
    m.splitLine (m.commandLine name args) = m.escape 0 name :: args := by
  have hplain : ∀ c ∈ m.escape 0 name, (decide (c ≠ m.quote)) = true := by
    intro c hc
    simp only [decide_eq_true_eq]
    rintro rfl
    exact quote_notMem_escape hname hc
  have hline : m.readName (m.commandLine name args) =
      (m.escape 0 name, args.flatMap fun arg => m.space :: m.quoted arg) := by
    rw [commandLine, quoted, List.cons_append, List.append_assoc, readName, if_pos rfl]
    rw [List.takeWhile_append_of_pos hplain, List.dropWhile_append_of_pos hplain]
    simp
  rw [splitLine, hline, readArgs_arguments]

end LineMarks

end VlcWhisper.Lib
