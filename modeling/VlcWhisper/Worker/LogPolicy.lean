import Mathlib.Data.List.Lex
import VlcWhisper.Lib.Newest
import VlcWhisper.Worker.CueText

/-!
# The worker's logs (`vw_worker_log_policy.c`)

Before a worker opens its log, older ones are pruned so that at most `max_keep` remain. What the listing of the
directory gives is gathered in an array of 64 entries, sorted by time, and the oldest are deleted.

Main result: `prune_newest_iff`. The newest remain, and nothing else is deleted, if and only if there are no more logs
than fit the array, or than are to be kept.
-/

namespace VlcWhisper.Worker

open VlcWhisper.Lib

/-! ## Entries -/

/-- `vw_posix_log_entry_t` and `vw_win_log_entry_t`; times are in seconds and in ticks of 100 ns. -/
structure LogEntry (γ : Type) where
  path : List γ
  mtime : Int

/-- `vw_posix_log_cmp` and `vw_win_log_cmp` do not give more than 0; the characters are compared by their codes. -/
def logLe {γ : Type} (code : γ → Nat) (a b : LogEntry γ) : Bool :=
  a.mtime < b.mtime || (a.mtime = b.mtime && a.path.map code ≤ b.path.map code)

def maxLogEntries : Nat := 64

/-- The loop over the listing: what does not fit the array is passed over. -/
def gather {α β : Type} (entry : α → Option β) : List α → List β → List β
  | [], entries => entries
  | x :: rest, entries =>
    match entry x with
    | none => gather entry rest entries
    | some e => gather entry rest (if entries.length < maxLogEntries then entries ++ [e] else entries)

/-- The entries to delete. -/
def oldest {γ : Type} (code : γ → Nat) (maxKeep : Nat) (entries : List (LogEntry γ)) : List (LogEntry γ) :=
  if entries.length ≤ maxKeep then [] else leasts (logLe code) (entries.length - maxKeep) entries

/-- The files that are left when those with these paths are deleted. -/
def unlink {α γ : Type} [DecidableEq γ] (pathOf : α → List γ) (paths : List (List γ)) (files : List α) : List α :=
  files.filter fun x => pathOf x ∉ paths

/-- What both variants do: the entries of the files make the array, and the oldest are deleted. -/
def pruneFiles {α γ : Type} [DecidableEq γ] (entry : α → Option (LogEntry γ)) (pathOf : α → List γ) (code : γ → Nat)
    (maxKeep : Nat) (files : List α) : List α :=
  unlink pathOf ((oldest code maxKeep (gather entry files [])).map (·.path)) files

/-! ## The variant for POSIX -/

/-- What `lstat` says. -/
structure FileStat where
  regular : Bool
  mtime : Int

/-- A file of the directory; `stat` is none if `lstat` fails. -/
structure DirEntry where
  name : Bytes
  stat : Option FileStat

/-- A directory that can be opened. A name is given to one file. -/
structure Directory where
  path : Bytes
  entries : List DirEntry
  nodup : (entries.map (·.name)).Nodup

/-- `vlc-whisper-worker-*.log`. -/
def isLogName (name : Bytes) : Bool :=
  (ascii "vlc-whisper-worker-").isPrefixOf name && 5 ≤ name.length && name.drop (name.length - 4) = ascii ".log"

def posixPath (dir name : Bytes) : Bytes := dir ++ 0x2F :: name

/-- The size of a path's buffer. -/
def logPathBytes : Nat := 1024

/-- A regular file with the name of a log, if its path fits. -/
def posixLogEntry (dir : Bytes) (ent : DirEntry) : Option (LogEntry UInt8) :=
  if !isLogName ent.name || logPathBytes ≤ (posixPath dir ent.name).length then none
  else match ent.stat with
    | some stat => if stat.regular then some ⟨posixPath dir ent.name, stat.mtime⟩ else none
    | none => none

/-- `vw_worker_prune_default_logs`; deletions succeed. -/
def pruneDefaultLogs (d : Directory) (maxKeep : Nat) : List DirEntry :=
  if d.path = [] then d.entries
  else pruneFiles (posixLogEntry d.path) (fun ent => posixPath d.path ent.name) UInt8.toNat maxKeep d.entries

/-! ## The variant for Windows -/

/-- `WIN32_FIND_DATAW`. -/
structure FindData where
  fileName : List UInt16
  directory : Bool
  lastWriteTime : UInt64

/-- What the search for `vlc-whisper-worker-*.log` in the directory finds. -/
structure Found where
  files : List FindData
  nodup : (files.map (·.fileName)).Nodup

/-- `VW_PATH_MAX_BYTES`. -/
def win32PathChars : Nat := 32768

/-- `_snwprintf` of the path. -/
def win32Path (wideDir name : List UInt16) : List UInt16 := (wideDir ++ 0x5C :: name).take win32PathChars

def win32LogEntry (wideDir : List UInt16) (fd : FindData) : Option (LogEntry UInt16) :=
  if fd.directory then none else some ⟨win32Path wideDir fd.fileName, fd.lastWriteTime.toNat⟩

/-- `vw_worker_prune_default_logs`; the name of the directory is none where it cannot be converted. -/
def pruneDefaultLogsWin32 (wideDir : Option (List UInt16)) (found : Found) (maxKeep : Nat) : List FindData :=
  match wideDir with
  | none => found.files
  | some wideDir =>
    pruneFiles (win32LogEntry wideDir) (fun fd => win32Path wideDir fd.fileName) UInt16.toNat maxKeep found.files

/-! ## The array -/

theorem logLe_trans {γ : Type} (code : γ → Nat) (a b c : LogEntry γ) (hab : logLe code a b = true)
    (hbc : logLe code b c = true) : logLe code a c = true := by
  simp only [logLe, Bool.or_eq_true, Bool.and_eq_true, decide_eq_true_eq] at hab hbc ⊢
  rcases hab with hab | ⟨htime, hpath⟩
  · rcases hbc with hbc | ⟨htime, -⟩
    · exact .inl (hab.trans hbc)
    · exact .inl (htime ▸ hab)
  · rcases hbc with hbc | ⟨htime', hpath'⟩
    · exact .inl (htime ▸ hbc)
    · exact .inr ⟨htime.trans htime', hpath.trans hpath'⟩

theorem logLe_total {γ : Type} (code : γ → Nat) (a b : LogEntry γ) : (logLe code a b || logLe code b a) = true := by
  simp only [logLe, Bool.or_eq_true, Bool.and_eq_true, decide_eq_true_eq]
  rcases lt_trichotomy a.mtime b.mtime with hlt | heq | hgt
  · exact .inl (.inl hlt)
  · rcases le_total (a.path.map code) (b.path.map code) with hle | hle
    · exact .inl (.inr ⟨heq, hle⟩)
    · exact .inr (.inr ⟨heq.symm, hle⟩)
  · exact .inr (.inl hgt)

theorem mtime_le_of_logLe {γ : Type} {code : γ → Nat} {a b : LogEntry γ} (h : logLe code a b = true) :
    a.mtime ≤ b.mtime := by
  simp only [logLe, Bool.or_eq_true, Bool.and_eq_true, decide_eq_true_eq] at h
  rcases h with hlt | ⟨heq, -⟩
  · exact hlt.le
  · exact heq.le

theorem gather_eq {α β : Type} (entry : α → Option β) (l : List α) {entries : List β}
    (h : entries.length ≤ maxLogEntries) :
    gather entry l entries = (entries ++ l.filterMap entry).take maxLogEntries := by
  induction l generalizing entries with
  | nil => rw [gather, List.filterMap_nil, List.append_nil, List.take_of_length_le h]
  | cons x l ih =>
    rw [gather]
    cases hx : entry x with
    | none =>
      rw [List.filterMap_cons_none hx]
      exact ih h
    | some e =>
      rw [List.filterMap_cons_some hx]
      dsimp only
      by_cases hroom : entries.length < maxLogEntries
      · rw [if_pos hroom, ih (by rw [List.length_append]; exact hroom), List.append_assoc, List.singleton_append]
      · have hfull : entries.length = maxLogEntries := by omega
        rw [if_neg hroom, ih h, List.take_left' hfull, List.take_left' hfull]

/-- What is deleted, and what of the array is not. -/
theorem oldest_spec {γ : Type} (code : γ → Nat) (maxKeep : Nat) (entries : List (LogEntry γ)) :
    ∃ rest, (oldest code maxKeep entries ++ rest).Perm entries ∧ rest.length = min entries.length maxKeep ∧
      ∀ a ∈ oldest code maxKeep entries, ∀ b ∈ rest, a.mtime ≤ b.mtime := by
  rw [oldest]
  split
  · rename_i hfew
    exact ⟨entries, .refl _, (Nat.min_eq_left hfew).symm, fun a ha => absurd ha List.not_mem_nil⟩
  · refine ⟨(entries.mergeSort (logLe code)).drop (entries.length - maxKeep), leasts_perm .., ?_, fun a ha b hb => ?_⟩
    · rw [List.length_drop, List.length_mergeSort]
      omega
    · exact mtime_le_of_logLe (le_of_mem_leasts (logLe_trans code) (logLe_total code) ha hb)

/-! ## The files -/

section
variable {α γ : Type} {entry : α → Option (LogEntry γ)} {pathOf : α → List γ} {code : γ → Nat} {maxKeep : Nat}
  {files : List α}

theorem sublist_paths (hentry : ∀ x ∈ files, ∀ e ∈ entry x, e.path = pathOf x) :
    ((files.filterMap entry).map (·.path)).Sublist (files.map pathOf) := by
  induction files with
  | nil => exact .slnil
  | cons x files ih =>
    have hrest := ih fun y hy => hentry y (List.mem_cons_of_mem _ hy)
    cases hx : entry x with
    | none =>
      rw [List.filterMap_cons_none hx]
      exact hrest.cons _
    | some e =>
      rw [List.filterMap_cons_some hx, List.map_cons, List.map_cons, hentry x (List.mem_cons_self ..) e hx]
      exact hrest.cons_cons _

/-- What is deleted of the array, what is not, and what did not fit it. -/
theorem oldest_gather (code : γ → Nat) (maxKeep : Nat) (entry : α → Option (LogEntry γ)) (files : List α) :
    ∃ rest, (oldest code maxKeep (gather entry files []) ++
        (rest ++ (files.filterMap entry).drop maxLogEntries)).Perm (files.filterMap entry) ∧
      rest.length = min (min maxLogEntries (files.filterMap entry).length) maxKeep ∧
      ∀ a ∈ oldest code maxKeep (gather entry files []), ∀ b ∈ rest, a.mtime ≤ b.mtime := by
  rw [gather_eq entry files (Nat.zero_le _), List.nil_append]
  obtain ⟨rest, hperm, hlen, hle⟩ := oldest_spec code maxKeep ((files.filterMap entry).take maxLogEntries)
  refine ⟨rest, ?_, ?_, hle⟩
  · conv_rhs => rw [← List.take_append_drop maxLogEntries (files.filterMap entry)]
    rw [← List.append_assoc]
    exact hperm.append_right _
  · rw [hlen, List.length_take]

theorem entry_of_deleted (hentry : ∀ x ∈ files, ∀ e ∈ entry x, e.path = pathOf x) (hpaths : (files.map pathOf).Nodup)
    {x : α} (hx : x ∈ files) (h : pathOf x ∈ (oldest code maxKeep (gather entry files [])).map (·.path)) :
    ∃ e ∈ oldest code maxKeep (gather entry files []), entry x = some e := by
  obtain ⟨e, he, hpath⟩ := List.mem_map.mp h
  obtain ⟨rest, hperm, -, -⟩ := oldest_gather code maxKeep entry files
  obtain ⟨y, hy, hye⟩ := List.mem_filterMap.mp (hperm.subset (List.mem_append_left _ he))
  obtain rfl := List.inj_on_of_nodup_map hpaths hy hx ((hentry y hy e hye).symm.trans hpath)
  exact ⟨e, he, hye⟩

variable [DecidableEq γ]

theorem filterMap_unlink (hentry : ∀ x ∈ files, ∀ e ∈ entry x, e.path = pathOf x) (paths : List (List γ)) :
    (unlink pathOf paths files).filterMap entry = (files.filterMap entry).filter fun e => e.path ∉ paths := by
  rw [unlink, List.filterMap_filter, List.filter_filterMap]
  apply List.filterMap_congr
  intro x hx
  cases he : entry x with
  | none => simp
  | some e => simp [Option.filter, hentry x hx e he]

variable (hentry : ∀ x ∈ files, ∀ e ∈ entry x, e.path = pathOf x) (hpaths : (files.map pathOf).Nodup)
include hentry hpaths

theorem remaining_perm {rest : List (LogEntry γ)} (hperm : (oldest code maxKeep (gather entry files []) ++
      (rest ++ (files.filterMap entry).drop maxLogEntries)).Perm (files.filterMap entry)) :
    ((pruneFiles entry pathOf code maxKeep files).filterMap entry).Perm
      (rest ++ (files.filterMap entry).drop maxLogEntries) := by
  have hnodup := (hperm.map (·.path)).nodup_iff.mpr (hpaths.sublist (sublist_paths hentry))
  rw [List.map_append, List.nodup_append] at hnodup
  rw [pruneFiles, filterMap_unlink hentry]
  refine (hperm.filter _).symm.trans ?_
  rw [List.filter_append]
  have hgone : (oldest code maxKeep (gather entry files [])).filter (fun e =>
      e.path ∉ (oldest code maxKeep (gather entry files [])).map (·.path)) = [] := by
    rw [List.filter_eq_nil_iff]
    intro e he
    simpa using ⟨e, he, rfl⟩
  have hkept : (rest ++ (files.filterMap entry).drop maxLogEntries).filter (fun e =>
      e.path ∉ (oldest code maxKeep (gather entry files [])).map (·.path)) =
      rest ++ (files.filterMap entry).drop maxLogEntries := by
    rw [List.filter_eq_self]
    intro e he
    rw [decide_eq_true_eq]
    intro hmem
    exact hnodup.2.2 _ hmem _ (List.mem_map_of_mem he) rfl
  rw [hgone, hkept, List.nil_append]

/-- The newest are kept as long as the array has all of them or none is to be deleted. -/
theorem pruneFiles_keeps_iff :
    KeepsGreatest (fun x => (entry x).isSome) (fun x => ((entry x).map (·.mtime)).getD 0) maxKeep files
        (pruneFiles entry pathOf code maxKeep files) ↔
      files.countP (fun x => (entry x).isSome) ≤ maxLogEntries ∨
        files.countP (fun x => (entry x).isSome) ≤ maxKeep := by
  obtain ⟨rest, hperm, hlen, hle⟩ := oldest_gather code maxKeep entry files
  have hremaining := remaining_perm hentry hpaths hperm
  have hcount : (pruneFiles entry pathOf code maxKeep files).countP (fun x => (entry x).isSome) =
      rest.length + ((files.filterMap entry).length - maxLogEntries) := by
    rw [← List.length_filterMap_eq_countP, hremaining.length_eq, List.length_append, List.length_drop]
  rw [← List.length_filterMap_eq_countP]
  constructor
  · intro h
    have hkeeps := h.count
    rw [hcount, ← List.length_filterMap_eq_countP, hlen] at hkeeps
    omega
  · intro h
    refine ⟨List.filter_sublist, fun x hx hnone => ?_, ?_, fun x hx hgone y hy hlog => ?_⟩
    · rw [pruneFiles, unlink, List.mem_filter, decide_eq_true_eq]
      refine ⟨hx, fun hdeleted => ?_⟩
      obtain ⟨e, -, he⟩ := entry_of_deleted hentry hpaths hx hdeleted
      rw [he] at hnone
      cases hnone
    · rw [hcount, ← List.length_filterMap_eq_countP, hlen]
      omega
    · have hdeleted : pathOf x ∈ (oldest code maxKeep (gather entry files [])).map (·.path) := by
        by_contra hnot
        exact hgone (List.mem_filter.mpr ⟨hx, decide_eq_true hnot⟩)
      obtain ⟨e, he, hxe⟩ := entry_of_deleted hentry hpaths hx hdeleted
      obtain ⟨f, hyf⟩ := Option.isSome_iff_exists.mp hlog
      have hf := hremaining.subset (List.mem_filterMap.mpr ⟨y, hy, hyf⟩)
      rw [hxe, hyf]
      show e.mtime ≤ f.mtime
      rcases List.mem_append.mp hf with hf | hf
      · exact hle e he f hf
      · -- something did not fit the array, so nothing was deleted
        have hpos := List.length_pos_of_mem he
        have hover := List.length_pos_of_mem hf
        have htotal := hperm.length_eq
        rw [List.length_append, List.length_append, List.length_drop] at htotal
        rw [List.length_drop] at hover
        omega

end

/-! ## Directories -/

/-- A regular file with the name of a log. -/
def isLog (ent : DirEntry) : Bool := isLogName ent.name && ent.stat.any (·.regular)

def modified (ent : DirEntry) : Int := (ent.stat.map (·.mtime)).getD 0

theorem path_of_posixLogEntry {dir : Bytes} {ent : DirEntry} {e : LogEntry UInt8} (h : e ∈ posixLogEntry dir ent) :
    e.path = posixPath dir ent.name := by
  change posixLogEntry dir ent = some e at h
  unfold posixLogEntry at h
  split at h
  · cases h
  split at h
  · split at h
    · rw [← Option.some.inj h]
    · cases h
  · cases h

theorem posixLogEntry_eq {dir : Bytes} {ent : DirEntry}
    (hshort : isLog ent = true → (posixPath dir ent.name).length < logPathBytes) :
    isLog ent = (posixLogEntry dir ent).isSome ∧
      (isLog ent = true → modified ent = ((posixLogEntry dir ent).map (·.mtime)).getD 0) := by
  obtain ⟨name, stat⟩ := ent
  cases hname : isLogName name with
  | false => simp [isLog, posixLogEntry, hname]
  | true =>
    cases stat with
    | none => simp [isLog, posixLogEntry, hname]
    | some stat =>
      cases hregular : stat.regular with
      | false => simp [isLog, posixLogEntry, hname, hregular]
      | true =>
        have hlog : isLog ⟨name, some stat⟩ = true := by simp [isLog, hname, hregular]
        have hfits := hshort hlog
        dsimp only at hfits
        simp [isLog, posixLogEntry, modified, hname, hregular, Nat.not_le.mpr hfits]

theorem nodup_posixPaths (d : Directory) : (d.entries.map fun ent => posixPath d.path ent.name).Nodup := by
  have hmap : (d.entries.map fun ent => posixPath d.path ent.name) =
      (d.entries.map (·.name)).map (posixPath d.path) := by rw [List.map_map]; rfl
  rw [hmap]
  apply d.nodup.map
  intro a b h
  exact (List.cons.inj (List.append_cancel_left h)).2

theorem pruneDefaultLogs_keeps_iff {d : Directory} (hpath : d.path ≠ [])
    (hshort : ∀ ent ∈ d.entries, isLog ent = true → (posixPath d.path ent.name).length < logPathBytes)
    (maxKeep : Nat) :
    KeepsGreatest isLog modified maxKeep d.entries (pruneDefaultLogs d maxKeep) ↔
      d.entries.countP isLog ≤ maxLogEntries ∨ d.entries.countP isLog ≤ maxKeep := by
  have hsame : ∀ ent ∈ d.entries, isLog ent = (posixLogEntry d.path ent).isSome ∧
      (isLog ent = true → modified ent = ((posixLogEntry d.path ent).map (·.mtime)).getD 0) :=
    fun ent hent => posixLogEntry_eq (hshort ent hent)
  have hcount : d.entries.countP isLog = d.entries.countP fun ent => (posixLogEntry d.path ent).isSome :=
    List.countP_congr fun ent hent => by rw [(hsame ent hent).1]
  rw [pruneDefaultLogs, if_neg hpath, hcount, ← pruneFiles_keeps_iff
    (fun ent _ e he => path_of_posixLogEntry he) (nodup_posixPaths d)]
  constructor
  · intro h
    exact h.congr (fun ent hent => (hsame ent hent).1.symm)
      fun ent hent hlog => ((hsame ent hent).2 ((hsame ent hent).1.trans hlog)).symm
  · intro h
    exact h.congr (fun ent hent => (hsame ent hent).1) fun ent hent hlog => (hsame ent hent).2 hlog

theorem pruneDefaultLogsWin32_keeps_iff {wideDir : List UInt16} {found : Found}
    (hshort : ∀ fd ∈ found.files, (wideDir ++ 0x5C :: fd.fileName).length < win32PathChars) (maxKeep : Nat) :
    KeepsGreatest (fun fd => !fd.directory) (fun fd => (fd.lastWriteTime.toNat : Int)) maxKeep found.files
        (pruneDefaultLogsWin32 (some wideDir) found maxKeep) ↔
      found.files.countP (fun fd => !fd.directory) ≤ maxLogEntries ∨
        found.files.countP (fun fd => !fd.directory) ≤ maxKeep := by
  have hlog (fd : FindData) : (win32LogEntry wideDir fd).isSome = !fd.directory := by
    unfold win32LogEntry
    cases fd.directory <;> rfl
  have htime (fd : FindData) (h : (!fd.directory) = true) :
      (fd.lastWriteTime.toNat : Int) = ((win32LogEntry wideDir fd).map (·.mtime)).getD 0 := by
    rw [Bool.not_eq_true'] at h
    rw [win32LogEntry, h]
    rfl
  have hentry : ∀ fd ∈ found.files, ∀ e ∈ win32LogEntry wideDir fd, e.path = win32Path wideDir fd.fileName := by
    intro fd _ e he
    change win32LogEntry wideDir fd = some e at he
    unfold win32LogEntry at he
    split at he
    · cases he
    · rw [← Option.some.inj he]
  have hpaths : (found.files.map fun fd => win32Path wideDir fd.fileName).Nodup := by
    apply List.Nodup.map_on _ (List.Nodup.of_map _ found.nodup)
    intro x hx y hy hsame
    rw [win32Path, win32Path, List.take_of_length_le (hshort x hx).le,
      List.take_of_length_le (hshort y hy).le] at hsame
    exact List.inj_on_of_nodup_map found.nodup hx hy (List.cons.inj (List.append_cancel_left hsame)).2
  have hcount : found.files.countP (fun fd => !fd.directory) =
      found.files.countP fun fd => (win32LogEntry wideDir fd).isSome :=
    List.countP_congr fun fd _ => by rw [hlog]
  rw [pruneDefaultLogsWin32, hcount, ← pruneFiles_keeps_iff hentry hpaths]
  constructor
  · intro h
    exact h.congr (fun fd _ => hlog fd) fun fd _ hsome => (htime fd ((hlog fd).symm.trans hsome)).symm
  · intro h
    exact h.congr (fun fd _ => (hlog fd).symm) fun fd _ hfile => htime fd hfile

/-- **The newest logs remain, and nothing else is deleted, unless there are more logs than fit the array, and more than
are to be kept.** -/
theorem prune_newest_iff (maxKeep : Nat) :
    (∀ d : Directory, d.path ≠ [] →
      (∀ ent ∈ d.entries, isLog ent = true → (posixPath d.path ent.name).length < logPathBytes) →
      (KeepsGreatest isLog modified maxKeep d.entries (pruneDefaultLogs d maxKeep) ↔
        d.entries.countP isLog ≤ maxLogEntries ∨ d.entries.countP isLog ≤ maxKeep)) ∧
    ∀ (wideDir : List UInt16) (found : Found),
      (∀ fd ∈ found.files, (wideDir ++ 0x5C :: fd.fileName).length < win32PathChars) →
      (KeepsGreatest (fun fd => !fd.directory) (fun fd => (fd.lastWriteTime.toNat : Int)) maxKeep found.files
          (pruneDefaultLogsWin32 (some wideDir) found maxKeep) ↔
        found.files.countP (fun fd => !fd.directory) ≤ maxLogEntries ∨
          found.files.countP (fun fd => !fd.directory) ≤ maxKeep) := by
  constructor
  · intro d hpath hshort
    exact pruneDefaultLogs_keeps_iff hpath hshort maxKeep
  · intro wideDir found hshort
    exact pruneDefaultLogsWin32_keeps_iff hshort maxKeep

/-- The log of the `n`-th process. -/
def logOf (n : Nat) : DirEntry :=
  ⟨ascii "vlc-whisper-worker-" ++ [.ofNat (0x30 + n / 10), .ofNat (0x30 + n % 10)] ++ ascii ".log", some ⟨true, n⟩⟩

theorem logOf_name_inj {m n : Nat} (hm : m < 100) (hn : n < 100) (h : (logOf m).name = (logOf n).name) : m = n := by
  have hdigits := List.append_cancel_left (List.append_cancel_right h)
  have htens := congrArg UInt8.toNat (List.cons.inj hdigits).1
  have hones := congrArg UInt8.toNat (List.cons.inj (List.cons.inj hdigits).2).1
  rw [UInt8.toNat_ofNat', UInt8.toNat_ofNat'] at htens hones
  omega

/-- Logs of `n` processes, each newer than the one before. -/
def logsDirectory (n : Nat) (h : n ≤ 100) : Directory where
  path := ascii "/tmp"
  entries := (List.range n).map logOf
  nodup := by
    rw [List.map_map]
    apply List.Nodup.map_on _ List.nodup_range
    intro j hj k hk
    exact logOf_name_inj (Nat.lt_of_lt_of_le (List.mem_range.mp hj) h) (Nat.lt_of_lt_of_le (List.mem_range.mp hk) h)

theorem prune_newest_iff_two :
    KeepsGreatest isLog modified 1 (logsDirectory 2 (by decide)).entries
        (pruneDefaultLogs (logsDirectory 2 (by decide)) 1) ∧
      KeepsGreatest (fun fd => !fd.directory) (fun fd => (fd.lastWriteTime.toNat : Int)) 1
        [⟨[0x61], false, 5⟩, ⟨[0x62], false, 3⟩]
        (pruneDefaultLogsWin32 (some [0x43]) ⟨[⟨[0x61], false, 5⟩, ⟨[0x62], false, 3⟩], by decide⟩ 1) := by
  refine ⟨((prune_newest_iff 1).1 (logsDirectory 2 (by decide)) (by decide) ?_).mpr (.inl (by decide)),
    ((prune_newest_iff 1).2 [0x43] ⟨[⟨[0x61], false, 5⟩, ⟨[0x62], false, 3⟩], by decide⟩ ?_).mpr (.inl (by decide))⟩
  · intro ent hent _
    rcases List.mem_pair.mp hent with rfl | rfl <;> decide
  · intro fd hfd
    rcases List.mem_pair.mp hfd with rfl | rfl <;> decide

/-- Of 65 logs four are to be kept, and five are. -/
theorem not_prune_newest : ¬ ∀ (d : Directory) (maxKeep : Nat), d.path ≠ [] →
    (∀ ent ∈ d.entries, isLog ent = true → (posixPath d.path ent.name).length < logPathBytes) →
    KeepsGreatest isLog modified maxKeep d.entries (pruneDefaultLogs d maxKeep) := by
  intro h
  have hlogs : 65 ≤ 100 := by decide
  have hshort : ∀ ent ∈ (logsDirectory 65 hlogs).entries,
      isLog ent = true → (posixPath (ascii "/tmp") ent.name).length < logPathBytes := by
    intro ent hent _
    obtain ⟨n, -, rfl⟩ := List.mem_map.mp hent
    exact Nat.lt_of_lt_of_le (Nat.lt_succ_self 30) (by decide)
  have hpath : (logsDirectory 65 hlogs).path ≠ [] := by
    change ascii "/tmp" ≠ []
    decide
  have hkeeps := (pruneDefaultLogs_keeps_iff hpath hshort 4).mp (h (logsDirectory 65 hlogs) 4 hpath hshort)
  have hcount : (logsDirectory 65 hlogs).entries.countP isLog = 65 := by
    change ((List.range 65).map logOf).countP isLog = 65
    decide +kernel
  rw [hcount] at hkeeps
  revert hkeeps
  decide

end VlcWhisper.Worker
