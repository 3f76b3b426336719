import VlcWhisper.Plugin.Producers
import VlcWhisper.Plugin.WorkerLaunch
import VlcWhisper.Worker.SourceUri

/-!
# The worker's arguments (`vw_worker_config.c`)

`parseArgs` goes through the arguments and stores each value after a check, or says what is wrong with it.

Main result: `parseArgs_sound`. A configuration that was parsed is one the worker can run with, and a refusal names an
argument.
-/

namespace VlcWhisper.Worker

open VlcWhisper.Lib VlcWhisper.Protocol VlcWhisper.Plugin

/-! ## Configuration -/

/-- `vw_worker_backend_t`. -/
inductive WorkerBackend where
  | auto
  | gpu
  | cpu
  deriving DecidableEq

/-- `vw_worker_config_t`. -/
structure WorkerConfig (p : HostSystem) where
  modelPath : CArray p.pathMaxBytes
  modelDir : CArray p.pathMaxBytes
  vadModelPath : CArray p.pathMaxBytes
  language : CArray 16
  nThreads : Int32
  sampleRate : UInt32
  pipeName : CArray 256
  logFile : CArray 512
  loggingEnabled : Bool
  authToken : CArray authTokenBytes
  backend : WorkerBackend
  gpuDevice : Int32

/-- `vw_worker_config_init_defaults`. -/
def initDefaults (p : HostSystem) : WorkerConfig p where
  modelPath := .ofStr p.pathMaxBytes (ascii "models/ggml-tiny.bin")
  modelDir := .zero p.pathMaxBytes
  vadModelPath := .zero p.pathMaxBytes
  language := .ofStr 16 (ascii "en")
  nThreads := 4
  sampleRate := 16000
  pipeName := .zero 256
  logFile := .zero 512
  loggingEnabled := false
  authToken := .zero authTokenBytes
  backend := .auto
  gpuDevice := 0

/-! ## Numbers -/

/-- The bytes that pairs of hexadecimal digits stand for. -/
def hexPairs : Bytes → Option Bytes
  | c1 :: c2 :: rest => do
    let b ← twoDigits c1 c2
    let bytes ← hexPairs rest
    pure (.ofNat b :: bytes)
  | _ => some []

/-- `vw_token_from_hex`. -/
def tokenFromHex (hex : Bytes) : Option (CArray authTokenBytes) :=
  if hex.length = authTokenBytes * 2 then (hexPairs hex).map (.pad authTokenBytes) else none

/-- The bits of a `long`. -/
def longBits : HostSystem → Nat
  | .posix => 64
  | .windows => 32

/-- `strtol` in base 10 on a string it takes to its end. -/
def strtol (p : HostSystem) (s : Bytes) : Option Int :=
  let (negative, s) := match skipSpace s with
    | 0x2D :: s => (true, s)
    | 0x2B :: s => (false, s)
    | s => (false, s)
  (digitsValue 10 s).map fun n =>
    if negative then max (-(n : Int)) (-2 ^ (longBits p - 1)) else min (n : Int) (2 ^ (longBits p - 1) - 1)

/-! ## Options -/

inductive WorkerOption where
  | token
  | pipe
  | model
  | modelDir
  | vadModel
  | logFile
  | enableLogging
  | backend
  | gpuDevice
  | language
  | nThreads
  deriving DecidableEq

namespace WorkerOption

/-- In the order of the comparisons. -/
def all : List WorkerOption :=
  [token, pipe, model, modelDir, vadModel, logFile, enableLogging, backend, gpuDevice, language, nThreads]

def text : WorkerOption → Bytes
  | token => ascii "--token"
  | pipe => ascii "--pipe"
  | model => ascii "--model"
  | modelDir => ascii "--model-dir"
  | vadModel => ascii "--vad-model"
  | logFile => ascii "--log-file"
  | enableLogging => ascii "--enable-logging"
  | backend => ascii "--backend"
  | gpuDevice => ascii "--gpu-device"
  | language => ascii "--language"
  | nThreads => ascii "--n-threads"

theorem zero_notMem_text (option : WorkerOption) : (0 : UInt8) ∉ option.text := by
  cases option <;> decide

def name (option : WorkerOption) : CString := ⟨option.text, option.zero_notMem_text⟩

/-- The option an argument is. -/
def ofArg (arg : CString) : Option WorkerOption := all.find? fun option => option.name = arg

/-- A line about a value. -/
def bad (option : WorkerOption) (what : Bytes) : Bytes := ascii "bad " ++ option.name.val ++ ascii ": " ++ what ++ ascii "\n"

def missing (option : WorkerOption) : Bytes := ascii "missing value for " ++ option.name.val ++ ascii "\n"

end WorkerOption

/-- A string goes into an array of `n` bytes, if it fits. -/
def storeText (option : WorkerOption) (n : Nat) (v : CString) : Except Bytes (CArray n) :=
  if n ≤ v.val.length then .error (option.bad (ascii "too long (max " ++ digits 10 1 (n - 1) ++ ascii ")"))
  else .ok (.ofStr n v.val)

def storeBackend (b : CString) : Except Bytes WorkerBackend :=
  if b = .auto then .ok .auto
  else if b.val = ascii "gpu" then .ok .gpu
  else if b.val = ascii "cpu" then .ok .cpu
  else .error (WorkerOption.backend.bad (ascii "expected auto|gpu|cpu, got '" ++ b.val ++ ascii "'"))

def storeGpuDevice (p : HostSystem) (v : CString) : Except Bytes Int32 :=
  match (strtol p v.val).filter fun id => 0 ≤ id && id ≤ 65535 with
  | some id => .ok (.ofInt id)
  | none => .error (WorkerOption.gpuDevice.bad (ascii "expected a non-negative integer"))

/-- `whisper_lang_id` decides what is a language. -/
def storeLanguage (whisperLangId : CString → Int) (lang : CString) : Except Bytes (CArray 16) :=
  if lang = .empty ∨ 16 ≤ lang.val.length then
    .error (WorkerOption.language.bad (ascii "expected 1.." ++ digits 10 1 15 ++ ascii " char code, got '" ++ lang.val ++
      ascii "'"))
  else if lang = .auto then
    .error (WorkerOption.language.bad (ascii "'auto' is not a concrete transcription language"))
  else if whisperLangId lang < 0 then
    .error (WorkerOption.language.bad (ascii "unknown Whisper language '" ++ lang.val ++
      ascii "' (use whisper_lang_id list)"))
  else .ok (.ofStr 16 lang.val)

def storeThreads (p : HostSystem) (v : CString) : Except Bytes Int32 :=
  match strtol p v.val with
  | some n => .ok (.ofInt (min (max n 1) 16))
  | none => .error (WorkerOption.nThreads.bad (ascii "expected integer 1..16"))

def storeToken (v : CString) : Except Bytes (CArray authTokenBytes) :=
  match tokenFromHex v.val with
  | some token => .ok token
  | none => .error (WorkerOption.token.bad (ascii "expected 64 hex chars"))

section

variable (whisperLangId : CString → Int) {p : HostSystem}

/-- What an option does with the argument after it. -/
def storeValue (config : WorkerConfig p) (v : CString) : WorkerOption → Except Bytes (WorkerConfig p)
  | .token => (storeToken v).map fun token => { config with authToken := token }
  | .pipe => (storeText .pipe 256 v).map fun text => { config with pipeName := text }
  | .model => (storeText .model p.pathMaxBytes v).map fun text => { config with modelPath := text }
  | .modelDir => (storeText .modelDir p.pathMaxBytes v).map fun text => { config with modelDir := text }
  | .vadModel => (storeText .vadModel p.pathMaxBytes v).map fun text => { config with vadModelPath := text }
  | .logFile => (storeText .logFile 512 v).map fun text => { config with logFile := text, loggingEnabled := true }
  | .enableLogging => .ok config
  | .backend => (storeBackend v).map fun backend => { config with backend }
  | .gpuDevice => (storeGpuDevice p v).map fun id => { config with gpuDevice := id }
  | .language => (storeLanguage whisperLangId v).map fun text => { config with language := text }
  | .nThreads => (storeThreads p v).map fun n => { config with nThreads := n }

/-- `vw_worker_config_parse_args`, after the name of the program: the configuration, or what is written to `stderr`
before 2 is returned. -/
def parseArgs (config : WorkerConfig p) : List CString → Except Bytes (WorkerConfig p)
  | [] => .ok config
  | arg :: rest =>
    match WorkerOption.ofArg arg with
    | none => .error (ascii "unknown option: " ++ arg.val ++ ascii "\n")
    | some .enableLogging => parseArgs { config with loggingEnabled := true } rest
    | some option =>
      match rest with
      | [] => .error option.missing
      | v :: rest =>
        match storeValue whisperLangId config v option with
        | .ok config => parseArgs config rest
        | .error message => .error message

end

/-! ## What a parsed configuration keeps -/

/-- A language that can be transcribed. -/
structure Concrete (whisperLangId : CString → Int) (lang : CString) : Prop where
  nonempty : lang ≠ .empty
  ne_auto : lang ≠ .auto
  known : 0 ≤ whisperLangId lang

/-- The strings end, and the numbers are in range. -/
structure WorkerConfig.Usable (whisperLangId : CString → Int) {p : HostSystem} (config : WorkerConfig p) : Prop where
  modelPath : config.modelPath.Terminated
  modelDir : config.modelDir.Terminated
  vadModelPath : config.vadModelPath.Terminated
  pipeName : config.pipeName.Terminated
  logFile : config.logFile.Terminated
  language : config.language.Terminated
  concrete : Concrete whisperLangId (.ofArray config.language)
  nThreads : 1 ≤ config.nThreads.toInt ∧ config.nThreads.toInt ≤ 16
  gpuDevice : 0 ≤ config.gpuDevice.toInt ∧ config.gpuDevice.toInt ≤ 65535
  sampleRate : config.sampleRate = 16000
  logging : config.logFile.str ≠ [] → config.loggingEnabled = true

section

variable {whisperLangId : CString → Int} {p : HostSystem} {config config' : WorkerConfig p}

theorem terminated_ofStr {n : Nat} (h : 0 < n) (s : Bytes) : (CArray.ofStr n s).Terminated := by
  apply CArray.pad_terminated
  simp
  omega

theorem terminated_zero {n : Nat} (h : 0 < n) : (CArray.zero n).Terminated := by
  simp [CArray.Terminated, CArray.zero, List.mem_replicate]
  omega

theorem ofArray_ofStr {n : Nat} {s : CString} (h : s.val.length < n) : CString.ofArray (CArray.ofStr n s.val) = s := by
  apply Subtype.ext
  have hfits : s.val.take (n - 1) = s.val := List.take_of_length_le (by omega)
  exact (CArray.str_ofStr (by omega) s.property).trans hfits

theorem storeText_ok {option : WorkerOption} {n : Nat} {v : CString} {text : CArray n} :
    storeText option n v = .ok text ↔ v.val.length < n ∧ CArray.ofStr n v.val = text := by
  unfold storeText
  split_ifs with h
  · simp
    omega
  · simp
    omega

theorem storeLanguage_ok {lang : CString} {text : CArray 16} :
    storeLanguage whisperLangId lang = .ok text ↔
      Concrete whisperLangId lang ∧ lang.val.length < 16 ∧ CArray.ofStr 16 lang.val = text := by
  unfold storeLanguage
  split_ifs with hlength hauto hknown
  · simp
    rintro ⟨hne, _, _⟩ hlt
    simp [hne] at hlength
    omega
  · simp
    rintro ⟨_, hne, _⟩
    exact absurd hauto hne
  · simp
    rintro ⟨_, _, hid⟩
    omega
  · simp at hlength hknown
    have hconcrete : Concrete whisperLangId lang := ⟨hlength.1, hauto, hknown⟩
    simp [hconcrete, hlength.2]

theorem storeThreads_ok {v : CString} {n : Int32} (h : storeThreads p v = .ok n) : 1 ≤ n.toInt ∧ n.toInt ≤ 16 := by
  unfold storeThreads at h
  split at h
  · rename_i k _
    have hn : Int32.ofInt (min (max k 1) 16) = n := by simpa using h
    have htoInt : (Int32.ofInt (min (max k 1) 16)).toInt = min (max k 1) 16 := by
      apply Int32.toInt_ofInt_of_le <;> omega
    rw [← hn, htoInt]
    omega
  · simp at h

theorem storeGpuDevice_ok {v : CString} {id : Int32} (h : storeGpuDevice p v = .ok id) :
    0 ≤ id.toInt ∧ id.toInt ≤ 65535 := by
  unfold storeGpuDevice at h
  split at h
  · rename_i k hk
    have hid : Int32.ofInt k = id := by simpa using h
    have hrange : 0 ≤ k ∧ k ≤ 65535 := by
      have := (Option.filter_eq_some_iff.mp hk).2
      simpa using this
    have htoInt : (Int32.ofInt k).toInt = k := by
      apply Int32.toInt_ofInt_of_le <;> omega
    rw [← hid, htoInt]
    exact hrange
  · simp at h

theorem except_map_ok {ε α β : Type} {x : Except ε α} {f : α → β} {b : β} :
    x.map f = .ok b ↔ ∃ a, x = .ok a ∧ f a = b := by
  cases x <;> simp [Except.map]

theorem storeText_terminated {option : WorkerOption} {n : Nat} {v : CString} {text : CArray n}
    (h : storeText option n v = .ok text) : text.Terminated := by
  obtain ⟨hlength, rfl⟩ := storeText_ok.mp h
  exact terminated_ofStr (by omega) _

theorem WorkerConfig.Usable.store (h : config.Usable whisperLangId) {v : CString} {option : WorkerOption}
    (hstore : storeValue whisperLangId config v option = .ok config') : config'.Usable whisperLangId := by
  cases option with
  | enableLogging =>
    have hsame : config = config' := by simpa [storeValue] using hstore
    rwa [← hsame]
  | token =>
    obtain ⟨token, _, rfl⟩ := except_map_ok.mp hstore
    exact { h with }
  | backend =>
    obtain ⟨backend, _, rfl⟩ := except_map_ok.mp hstore
    exact { h with }
  | pipe =>
    obtain ⟨text, htext, rfl⟩ := except_map_ok.mp hstore
    exact { h with pipeName := storeText_terminated htext }
  | model =>
    obtain ⟨text, htext, rfl⟩ := except_map_ok.mp hstore
    exact { h with modelPath := storeText_terminated htext }
  | modelDir =>
    obtain ⟨text, htext, rfl⟩ := except_map_ok.mp hstore
    exact { h with modelDir := storeText_terminated htext }
  | vadModel =>
    obtain ⟨text, htext, rfl⟩ := except_map_ok.mp hstore
    exact { h with vadModelPath := storeText_terminated htext }
  | logFile =>
    obtain ⟨text, htext, rfl⟩ := except_map_ok.mp hstore
    exact { h with logFile := storeText_terminated htext, logging := fun _ => rfl }
  | gpuDevice =>
    obtain ⟨id, hid, rfl⟩ := except_map_ok.mp hstore
    exact { h with gpuDevice := storeGpuDevice_ok hid }
  | nThreads =>
    obtain ⟨n, hn, rfl⟩ := except_map_ok.mp hstore
    exact { h with nThreads := storeThreads_ok hn }
  | language =>
    obtain ⟨text, htext, rfl⟩ := except_map_ok.mp hstore
    obtain ⟨hconcrete, hlength, rfl⟩ := storeLanguage_ok.mp htext
    exact { h with language := terminated_ofStr (by omega) _, concrete := by rwa [ofArray_ofStr hlength] }

theorem initDefaults_usable (hen : 0 ≤ whisperLangId .en) : (initDefaults p).Usable whisperLangId := by
  have hpos := p.pathMaxBytes_pos
  have hlanguage : CString.ofArray (CArray.ofStr 16 (ascii "en")) = .en := by decide
  constructor
  case concrete =>
    rw [initDefaults, hlanguage]
    exact ⟨by decide, by decide, hen⟩
  case language => exact terminated_ofStr (by omega) _
  case modelPath => exact terminated_ofStr hpos _
  case modelDir => exact terminated_zero hpos
  case vadModelPath => exact terminated_zero hpos
  case pipeName => exact terminated_zero (by omega)
  case logFile => exact terminated_zero (by omega)
  case nThreads => simp [initDefaults]
  case gpuDevice => simp [initDefaults]
  case sampleRate => rfl
  case logging =>
    intro hne
    exact absurd (str_zero 512) hne

theorem except_map_error {ε α β : Type} {x : Except ε α} {f : α → β} {e : ε} : x.map f = .error e ↔ x = .error e := by
  cases x <;> simp [Except.map]

theorem storeText_error {option : WorkerOption} {n : Nat} {v : CString} {message : Bytes}
    (h : storeText option n v = .error message) : ∃ what, message = option.bad what := by
  unfold storeText at h
  split_ifs at h
  exact ⟨_, (Except.error.inj h).symm⟩

theorem storeValue_error {v : CString} {option : WorkerOption} {message : Bytes}
    (h : storeValue whisperLangId config v option = .error message) : ∃ what, message = option.bad what := by
  cases option with
  | enableLogging => simp [storeValue] at h
  | pipe => exact storeText_error (except_map_error.mp h)
  | model => exact storeText_error (except_map_error.mp h)
  | modelDir => exact storeText_error (except_map_error.mp h)
  | vadModel => exact storeText_error (except_map_error.mp h)
  | logFile => exact storeText_error (except_map_error.mp h)
  | token =>
    have hstore := except_map_error.mp h
    unfold storeToken at hstore
    split at hstore
    · simp at hstore
    · exact ⟨_, (Except.error.inj hstore).symm⟩
  | backend =>
    have hstore := except_map_error.mp h
    unfold storeBackend at hstore
    split_ifs at hstore
    exact ⟨_, (Except.error.inj hstore).symm⟩
  | gpuDevice =>
    have hstore := except_map_error.mp h
    unfold storeGpuDevice at hstore
    split at hstore
    · simp at hstore
    · exact ⟨_, (Except.error.inj hstore).symm⟩
  | language =>
    have hstore := except_map_error.mp h
    unfold storeLanguage at hstore
    split_ifs at hstore
    all_goals exact ⟨_, (Except.error.inj hstore).symm⟩
  | nThreads =>
    have hstore := except_map_error.mp h
    unfold storeThreads at hstore
    split at hstore
    · simp at hstore
    · exact ⟨_, (Except.error.inj hstore).symm⟩

/-! ## All arguments -/

theorem WorkerOption.name_of_ofArg {arg : CString} {option : WorkerOption} (h : WorkerOption.ofArg arg = some option) :
    option.name = arg := by
  simpa using List.find?_some h

/-- One line, about one of the arguments. -/
def Names (message : Bytes) (arg : CString) : Prop := arg.val <:+: message ∧ message.getLast? = some 0x0A

theorem WorkerOption.names_bad (option : WorkerOption) (what : Bytes) : Names (option.bad what) option.name := by
  constructor
  · exact ⟨ascii "bad ", ascii ": " ++ what ++ ascii "\n", by simp [bad]⟩
  · exact List.getLast?_concat

theorem WorkerOption.names_missing (option : WorkerOption) : Names option.missing option.name := by
  constructor
  · exact ⟨ascii "missing value for ", ascii "\n", by simp [missing]⟩
  · exact List.getLast?_concat

theorem names_unknown (arg : CString) : Names (ascii "unknown option: " ++ arg.val ++ ascii "\n") arg := by
  constructor
  · exact ⟨ascii "unknown option: ", ascii "\n", rfl⟩
  · exact List.getLast?_concat

theorem parseArgs_missing {arg : CString} {option : WorkerOption} (harg : WorkerOption.ofArg arg = some option)
    (hne : option ≠ .enableLogging) : parseArgs whisperLangId config [arg] = .error option.missing := by
  rw [parseArgs, harg]
  cases option <;> simp at hne ⊢

theorem parseArgs_value {arg : CString} {option : WorkerOption} (harg : WorkerOption.ofArg arg = some option)
    (hne : option ≠ .enableLogging) (v : CString) (rest : List CString) :
    parseArgs whisperLangId config (arg :: v :: rest) =
      (storeValue whisperLangId config v option).bind fun config => parseArgs whisperLangId config rest := by
  rw [parseArgs, harg]
  cases option <;> simp at hne ⊢ <;> cases storeValue whisperLangId config v _ <;> rfl

/-- What is parsed is usable, and what is refused is told. -/
theorem parseArgs_spec (h : config.Usable whisperLangId) (args : List CString) :
    (∀ config', parseArgs whisperLangId config args = .ok config' → config'.Usable whisperLangId) ∧
      ∀ message, parseArgs whisperLangId config args = .error message → ∃ arg ∈ args, Names message arg := by
  induction config, args using parseArgs.induct whisperLangId with
  | case1 config =>
    constructor
    · intro config' hparse
      rw [← Except.ok.inj hparse]
      exact h
    · intro message hparse
      simp [parseArgs] at hparse
  | case2 config arg rest harg =>
    rw [parseArgs, harg]
    constructor
    · simp
    · intro message hparse
      rw [← Except.error.inj hparse]
      exact ⟨arg, List.mem_cons_self, names_unknown arg⟩
  | case3 config arg rest harg ih =>
    rw [parseArgs, harg]
    obtain ⟨hok, herror⟩ := ih { h with logging := fun _ => rfl }
    constructor
    · exact hok
    · intro message hparse
      obtain ⟨named, hmem, hnames⟩ := herror message hparse
      exact ⟨named, List.mem_cons_of_mem _ hmem, hnames⟩
  | case4 config arg option hne harg =>
    rw [parseArgs_missing harg hne]
    constructor
    · simp
    · intro message hparse
      rw [← Except.error.inj hparse]
      have hname := WorkerOption.name_of_ofArg harg
      exact ⟨arg, List.mem_cons_self, hname ▸ option.names_missing⟩
  | case5 config arg option hne harg v rest config' hstore ih =>
    rw [parseArgs_value harg hne, hstore]
    obtain ⟨hok, herror⟩ := ih (h.store hstore)
    constructor
    · exact hok
    · intro message hparse
      obtain ⟨named, hmem, hnames⟩ := herror message hparse
      exact ⟨named, List.mem_cons_of_mem _ (List.mem_cons_of_mem _ hmem), hnames⟩
  | case6 config arg option hne harg v rest message hstore =>
    rw [parseArgs_value harg hne, hstore]
    constructor
    · intro config' hparse
      exact absurd hparse (by simp [Except.bind])
    · intro message' hparse
      obtain ⟨what, rfl⟩ := storeValue_error hstore
      have hname := WorkerOption.name_of_ofArg harg
      have hmessage : option.bad what = message' := by simpa [Except.bind] using hparse
      rw [← hmessage]
      exact ⟨arg, List.mem_cons_self, hname ▸ option.names_bad what⟩

/-- **Parsing is sound.** Whatever the arguments are, the worker runs with strings that end, a language that can be
transcribed and numbers in range, or one line names the argument that is wrong. -/
theorem parseArgs_sound (hen : 0 ≤ whisperLangId .en) (args : List CString) :
    (∀ config, parseArgs whisperLangId (initDefaults p) args = .ok config → config.Usable whisperLangId) ∧
      ∀ message, parseArgs whisperLangId (initDefaults p) args = .error message → ∃ arg ∈ args, Names message arg :=
  parseArgs_spec (initDefaults_usable hen) args

/-- A number of threads that is too large. -/
theorem parseArgs_sound_threads :
    (0 : Int) ≤ (fun _ : CString => (0 : Int)) .en ∧
      ∃ config : WorkerConfig .posix,
        parseArgs (fun _ => 0) (initDefaults .posix) [.ofString "--n-threads", .ofString "99"] = .ok config ∧
          config.nThreads = 16 ∧ config.Usable (fun _ => 0) := by
  have hparse : parseArgs (fun _ => 0) (initDefaults .posix) [.ofString "--n-threads", .ofString "99"] =
      .ok { initDefaults .posix with nThreads := 16 } := by
    rfl
  exact ⟨by decide, _, hparse, rfl, (parseArgs_sound (by decide) _).1 _ hparse⟩

end

end VlcWhisper.Worker
