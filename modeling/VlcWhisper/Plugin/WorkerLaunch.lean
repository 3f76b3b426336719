import Mathlib.Algebra.Order.BigOperators.Group.List
import VlcWhisper.Lib.CommandLine
import VlcWhisper.Plugin.SenderLoop
import VlcWhisper.Worker.WorkerActions

/-!
# Starting the worker (`vw_platform_spawn_process`, `vw_worker_client_launch_and_connect_ex`)

A process on Linux is given its arguments one by one. On Windows it is given one line, which it takes apart itself.

Main result: `cmd_sound`. The line fits its buffer and reads as the arguments. So on either system what the process is
given is what was meant (`spawnProcess_args`).
-/

namespace VlcWhisper.Plugin

open VlcWhisper.Lib VlcWhisper.Protocol VlcWhisper.Worker

inductive HostSystem where
  | posix
  | windows
  deriving DecidableEq

/-- `VW_PATH_MAX_BYTES`. -/
def HostSystem.pathMaxBytes : HostSystem → Nat
  | .posix => 4096
  | .windows => 32768

theorem HostSystem.pathMaxBytes_pos (p : HostSystem) : 0 < p.pathMaxBytes := by
  cases p <;> decide

/-- What is read up to a terminator. -/
def CString.ofBytes (bs : Bytes) : CString := ⟨cstr bs, zero_notMem_cstr bs⟩

theorem CString.ofBytes_val (s : CString) : CString.ofBytes s.val = s := Subtype.ext (cstr_eq_self s.property)

/-! ## The line -/

/-- `CommandLineToArgvW`: blanks are spaces and tabs. -/
def windowsMarks : LineMarks UInt8 where
  quote := 0x22
  backslash := 0x5C
  space := 0x20
  isBlank := fun c => c = 0x20 || c = 0x09
  backslash_ne_quote := by decide
  isBlank_space := by decide
  isBlank_quote := by decide
  isBlank_backslash := by decide

/-- The loop over one argument: a run of backslashes is passed as a whole, and doubled before a quote and at the end. -/
def escapeArg : Bytes → Bytes
  | [] => []
  | c :: rest =>
    if c = 0x5C then
      let numSlashes := 1 + (rest.takeWhile (· = 0x5C)).length
      let after := rest.dropWhile (· = 0x5C)
      if after = [] ∨ after.head? = some 0x22 then List.replicate (numSlashes * 2) 0x5C ++ escapeArg after
      else List.replicate numSlashes 0x5C ++ escapeArg after
    else if c = 0x22 then 0x5C :: 0x22 :: escapeArg rest
    else c :: escapeArg rest
termination_by arg => arg.length
decreasing_by
  all_goals simp only [List.length_cons]
  · have := (List.dropWhile_suffix (l := rest) (· = 0x5C)).length_le
    omega
  · have := (List.dropWhile_suffix (l := rest) (· = 0x5C)).length_le
    omega
  all_goals omega

def quoteArg (arg : CString) : Bytes := 0x22 :: (escapeArg arg.val ++ [0x22])

/-- `all_args`: the path and what comes after the first of `argv`, as many as there is room for. -/
def allArgs (executablePath : CString) (argv : List CString) : List CString := (executablePath :: argv.tail).take 63

def joinArgs : List CString → Bytes
  | [] => []
  | [arg] => quoteArg arg
  | arg :: rest => quoteArg arg ++ 0x20 :: joinArgs rest

/-- The line that is written to `cmd`. -/
def cmd (executablePath : CString) (argv : List CString) : Bytes := joinArgs (allArgs executablePath argv)

/-- `cmd_len`. -/
def cmdLen (executablePath : CString) (argv : List CString) : Nat :=
  ((executablePath :: argv.tail).map fun arg => arg.val.length * 2 + 10).sum

/-! ## Spawning -/

/-- What the system says of a path. A file name on Windows has no quotes. -/
structure Programs (p : HostSystem) where
  starts : CString → Bool
  plain : p = .windows → ∀ path, starts path = true → (0x22 : UInt8) ∉ path.val

def isLetter (c : UInt8) : Bool := (0x41 ≤ c && c ≤ 0x5A) || (0x61 ≤ c && c ≤ 0x7A)

def isSlash (c : UInt8) : Bool := c = 0x5C || c = 0x2F

/-- The check of the path. -/
def isAbsolute : HostSystem → Bytes → Bool
  | .posix, path => path.head? = some 0x2F
  | .windows, path =>
    match path with
    | [] => false
    | c :: rest => isSlash c || (isLetter c && rest.head? = some 0x3A && rest.tail.head?.any isSlash)

/-- What `main` finds in `argv`, if the process is started. -/
def spawnProcess {p : HostSystem} (programs : Programs p) (executablePath : CString) (argv : List CString) :
    Option (List CString) :=
  if isAbsolute p executablePath.val && programs.starts executablePath then
    match p with
    | .posix => some argv
    | .windows => some ((windowsMarks.splitLine (cmd executablePath argv)).map .ofBytes)
  else none

/-! ## The arguments of the worker -/

/-- The parameters of `vw_worker_client_launch_and_connect_ex`. -/
structure LaunchSettings where
  endpointName : CString
  authToken : CArray authTokenBytes
  modelPath : Option CString
  backend : Option CString
  language : Option CString
  nThreads : Int32
  gpuDevice : Int32
  modelDir : Option CString
  loggingEnabled : Bool

/-- `snprintf` of `%d`. -/
def formatInt (n : Int) : Bytes := (if n < 0 then [0x2D] else []) ++ digits 10 1 n.natAbs

/-- `token_to_hex`: `%02x` of each byte. -/
def tokenToHex (token : Bytes) : Bytes := token.flatMap fun b => digits 16 2 b.toNat

/-- `eff_threads`. -/
def LaunchSettings.effThreads (l : LaunchSettings) : Int := if l.nThreads < 1 || 16 < l.nThreads then 4 else l.nThreads.toInt

/-- `argv`. -/
def launchArgv (executablePath : CString) (l : LaunchSettings) : List CString :=
  [executablePath, .ofString "--pipe", l.endpointName, .ofString "--token", .ofBytes (tokenToHex l.authToken.bytes)] ++
  (match l.modelPath with
   | some path => [.ofString "--model", path]
   | none => []) ++
  [.ofString "--backend", orDefault .auto l.backend] ++
  (if 0 ≤ l.gpuDevice then [.ofString "--gpu-device", .ofBytes (formatInt l.gpuDevice.toInt)] else []) ++
  [.ofString "--language", orDefault .en l.language,
   .ofString "--n-threads", .ofBytes (formatInt l.effThreads)] ++
  (if orDefault .empty l.modelDir = .empty then [] else [.ofString "--model-dir", orDefault .empty l.modelDir]) ++
  (if l.loggingEnabled then [.ofString "--enable-logging"] else [])

/-! ## What is read is what was written -/

theorem escape_backslash (rest : Bytes) :
    windowsMarks.escape 0 (0x5C :: rest) = windowsMarks.escape (1 + (rest.takeWhile (· = 0x5C)).length)
      (rest.dropWhile (· = 0x5C)) := by
  have hrun : rest.takeWhile (· = 0x5C) = List.replicate (rest.takeWhile (· = 0x5C)).length 0x5C := by
    apply List.eq_replicate_length.mpr
    intro c hc
    simpa using List.mem_takeWhile_imp hc
  have hsplit : (0x5C : UInt8) :: rest =
      List.replicate (1 + (rest.takeWhile (· = 0x5C)).length) 0x5C ++ rest.dropWhile (· = 0x5C) := by
    rw [Nat.add_comm, List.replicate_succ, ← hrun, List.cons_append, List.takeWhile_append_dropWhile]
  have hread := LineMarks.escape_slashes (m := windowsMarks) 0 (1 + (rest.takeWhile (· = 0x5C)).length)
    (rest.dropWhile (· = 0x5C))
  rw [hsplit]
  simpa [windowsMarks] using hread

theorem head?_dropWhile_backslash (rest : Bytes) : (rest.dropWhile (· = 0x5C)).head? ≠ some windowsMarks.backslash := by
  intro h
  have := List.head?_dropWhile_not (· = (0x5C : UInt8)) rest
  rw [h] at this
  simp [windowsMarks] at this

theorem windowsMarks_quote : windowsMarks.quote = 0x22 := rfl

theorem escapeArg_eq (arg : Bytes) : escapeArg arg = windowsMarks.escape 0 arg := by
  induction arg using escapeArg.induct with
  | case1 => simp [escapeArg, LineMarks.escape]
  | case2 rest after h ih =>
    rw [escape_backslash, LineMarks.escape_run (head?_dropWhile_backslash rest), windowsMarks_quote, if_pos h, ← ih,
      Nat.mul_comm, escapeArg, if_pos rfl]
    exact if_pos h
  | case3 rest after h ih =>
    rw [escape_backslash, LineMarks.escape_run (head?_dropWhile_backslash rest), windowsMarks_quote, if_neg h, ← ih,
      escapeArg, if_pos rfl]
    exact if_neg h
  | case4 rest h ih =>
    rw [escapeArg, if_neg (by decide), if_pos rfl, ih]
    simp [LineMarks.escape, windowsMarks]
  | case5 c rest hslash hquote ih =>
    rw [escapeArg, if_neg hslash, if_neg hquote, ih]
    simp [LineMarks.escape, windowsMarks, hslash, hquote]

theorem quoteArg_eq (arg : CString) : quoteArg arg = windowsMarks.quoted arg.val := by
  rw [quoteArg, escapeArg_eq]
  rfl

theorem joinArgs_cons (arg : CString) (rest : List CString) :
    joinArgs (arg :: rest) = windowsMarks.commandLine arg.val (rest.map (·.val)) := by
  induction rest generalizing arg with
  | nil => simp [joinArgs, LineMarks.commandLine, quoteArg_eq]
  | cons next rest ih =>
    rw [joinArgs, ih, quoteArg_eq]
    · simp [LineMarks.commandLine, windowsMarks]
    · simp

theorem cmd_eq {executablePath : CString} {argv : List CString} (h : argv.length ≤ 63) :
    cmd executablePath argv = windowsMarks.commandLine executablePath.val (argv.tail.map (·.val)) := by
  have hall : allArgs executablePath argv = executablePath :: argv.tail := by
    apply List.take_of_length_le
    simp
    omega
  rw [cmd, hall, joinArgs_cons]

/-- **Arguments arrive as they were meant**, on either system. -/
theorem spawnProcess_args {p : HostSystem} {programs : Programs p} {executablePath : CString} {argv mainArgv : List CString}
    (hlength : argv.length ≤ 63) (h : spawnProcess programs executablePath argv = some mainArgv) :
    mainArgv.tail = argv.tail := by
  unfold spawnProcess at h
  split_ifs at h with hruns
  cases p with
  | posix =>
    have hmain : argv = mainArgv := by simpa using h
    rw [hmain]
  | windows =>
    have hquote : windowsMarks.quote ∉ executablePath.val := by
      have := programs.plain rfl executablePath (by simp at hruns; exact hruns.2)
      simpa [windowsMarks] using this
    have hmain : (windowsMarks.splitLine (cmd executablePath argv)).map CString.ofBytes = mainArgv := by simpa using h
    have hread : (argv.tail.map (·.val)).map CString.ofBytes = argv.tail := by
      rw [List.map_map]
      exact (List.map_congr_left fun s _ => CString.ofBytes_val s).trans (List.map_id _)
    rw [← hmain, cmd_eq hlength, LineMarks.splitLine_commandLine hquote, List.map_cons, List.tail_cons, hread]

/-! ## Buffers -/

theorem length_quoteArg_le (arg : CString) : (quoteArg arg).length ≤ arg.val.length * 2 + 2 := by
  have hlength := LineMarks.length_escape_le (m := windowsMarks) 0 arg.val
  simp [quoteArg, escapeArg_eq]
  omega

theorem length_joinArgs_le (args : List CString) :
    (joinArgs args).length ≤ (args.map fun arg => arg.val.length * 2 + 10).sum := by
  induction args with
  | nil => simp [joinArgs]
  | cons arg rest ih =>
    have hlength := length_quoteArg_le arg
    cases rest with
    | nil =>
      simp [joinArgs]
      omega
    | cons next rest =>
      simp [joinArgs] at ih ⊢
      omega

theorem length_cmd_le (executablePath : CString) (argv : List CString) :
    (cmd executablePath argv).length ≤ cmdLen executablePath argv := by
  have hsublist : List.Sublist (allArgs executablePath argv) (executablePath :: argv.tail) := List.take_sublist _ _
  have hsum : ((allArgs executablePath argv).map fun arg => arg.val.length * 2 + 10).sum ≤ cmdLen executablePath argv :=
    (hsublist.map _).sum_le_sum (by simp)
  have := length_joinArgs_le (allArgs executablePath argv)
  rw [cmd]
  omega

theorem zero_notMem_quoteArg (arg : CString) : (0 : UInt8) ∉ quoteArg arg := by
  intro h
  rw [quoteArg, escapeArg_eq] at h
  simp only [List.mem_cons, List.mem_append, List.not_mem_nil, or_false] at h
  obtain h | h | h := h
  · exact absurd h (by decide)
  · obtain h | h := LineMarks.mem_of_mem_escape h
    · exact absurd h (by decide)
    · exact arg.property h
  · exact absurd h (by decide)

theorem zero_notMem_joinArgs (args : List CString) : (0 : UInt8) ∉ joinArgs args := by
  induction args with
  | nil => simp [joinArgs]
  | cons arg rest ih =>
    cases rest with
    | nil => exact zero_notMem_quoteArg arg
    | cons next rest =>
      simp [joinArgs] at ih ⊢
      exact ⟨zero_notMem_quoteArg arg, ih⟩

/-- **The line is sound.** With its terminator it fits `cmd_len + 1` bytes, no terminator is within it, and it reads as
the arguments, whatever they are. -/
theorem cmd_sound {executablePath : CString} {argv : List CString} (hlength : argv.length ≤ 63)
    (hplain : (0x22 : UInt8) ∉ executablePath.val) :
    (cmd executablePath argv).length + 1 ≤ cmdLen executablePath argv + 1 ∧
      (0 : UInt8) ∉ cmd executablePath argv ∧
      (windowsMarks.splitLine (cmd executablePath argv)).tail = argv.tail.map (·.val) := by
  refine ⟨Nat.succ_le_succ (length_cmd_le executablePath argv), zero_notMem_joinArgs _, ?_⟩
  rw [cmd_eq hlength, LineMarks.splitLine_commandLine hplain, List.tail_cons]

/-- A path that ends in a backslash, and a quote. -/
theorem cmd_sound_quote :
    (windowsMarks.splitLine (cmd (.ofString "C:\\w.exe") [.ofString "w", .ofString "C:\\a b\\", .ofString "\""])).tail =
      [ascii "C:\\a b\\", ascii "\""] :=
  (@cmd_sound (.ofString "C:\\w.exe") [.ofString "w", .ofString "C:\\a b\\", .ofString "\""] (by decide) (by decide)).2.2

end VlcWhisper.Plugin
