import VlcWhisper.Worker.WorkerConfig

/-!
# What the worker makes of its arguments

The plugin writes its settings as arguments, the system passes them on, and the worker parses them. On Windows they
are passed on as they are where they are well-formed UTF-8, which the conversion to UTF-16 and back keeps.

Main result: `launch_parsed_iff`. The worker starts exactly with settings within its limits, and then it has what the
plugin meant, on Linux as on Windows.
-/

namespace VlcWhisper.System

open VlcWhisper.Lib VlcWhisper.Protocol VlcWhisper.Plugin VlcWhisper.Worker

/-! ## Numbers -/

theorem twoDigits_digits (b : UInt8) :
    ∃ c1 c2, digits 16 2 b.toNat = [c1, c2] ∧ c1 ≠ 0 ∧ c2 ≠ 0 ∧ twoDigits c1 c2 = some b.toNat := by
  refine ⟨(digits 16 2 b.toNat).getD 0 0, (digits 16 2 b.toNat).getD 1 0, ?_⟩
  exact forall_byte (p := fun b => digits 16 2 b.toNat =
      [(digits 16 2 b.toNat).getD 0 0, (digits 16 2 b.toNat).getD 1 0] ∧ (digits 16 2 b.toNat).getD 0 0 ≠ 0 ∧
        (digits 16 2 b.toNat).getD 1 0 ≠ 0 ∧
        twoDigits ((digits 16 2 b.toNat).getD 0 0) ((digits 16 2 b.toNat).getD 1 0) = some b.toNat)
    (by decide) b

theorem hexPairs_tokenToHex (bs : Bytes) :
    hexPairs (tokenToHex bs) = some bs ∧ (tokenToHex bs).length = bs.length * 2 ∧ (0 : UInt8) ∉ tokenToHex bs := by
  induction bs with
  | nil => simp [tokenToHex, hexPairs]
  | cons b bs ih =>
    obtain ⟨hread, hlength, hzero⟩ := ih
    obtain ⟨c1, c2, hdigits, hc1, hc2, htwo⟩ := twoDigits_digits b
    have hcons : tokenToHex (b :: bs) = c1 :: c2 :: tokenToHex bs := by simp [tokenToHex, hdigits]
    rw [hcons]
    refine ⟨?_, ?_, ?_⟩
    · simp [hexPairs, htwo, hread]
    · simp [hlength]
      omega
    · simp [hc1.symm, hc2.symm, hzero]

theorem tokenFromHex_tokenToHex (token : CArray authTokenBytes) :
    tokenFromHex (CString.ofBytes (tokenToHex token.bytes)).val = some token := by
  obtain ⟨hread, hlength, hzero⟩ := hexPairs_tokenToHex token.bytes
  have hstr : (CString.ofBytes (tokenToHex token.bytes)).val = tokenToHex token.bytes := cstr_eq_self hzero
  have hpad : CArray.pad authTokenBytes token.bytes = token := by
    apply CArray.ext_bytes
    rw [CArray.bytes_pad_of_le (by simp), token.length_bytes]
    simp
  rw [hstr, tokenFromHex, if_pos (by rw [hlength, token.length_bytes]), hread, Option.map_some, hpad]

/-! ## Decimals -/

theorem digitValue_of_isDigit {c : Char} (h : c.isDigit = true) :
    digitValue 10 (UInt8.ofNat c.toNat) = some (c.toNat - 48) ∧ isSpace (UInt8.ofNat c.toNat) = false ∧
      UInt8.ofNat c.toNat ≠ 0 ∧ UInt8.ofNat c.toNat ≠ 0x2B ∧ UInt8.ofNat c.toNat ≠ 0x2D := by
  have hrange : 48 ≤ c.toNat ∧ c.toNat ≤ 57 := by
    simp [Char.isDigit, UInt32.le_iff_toNat_le] at h
    exact h
  obtain ⟨k, hk, hc⟩ : ∃ k < 10, c.toNat = 48 + k := ⟨c.toNat - 48, by omega, by omega⟩
  have hall : ∀ k < 10, digitValue 10 (UInt8.ofNat (48 + k)) = some k ∧ isSpace (UInt8.ofNat (48 + k)) = false ∧
      UInt8.ofNat (48 + k) ≠ 0 ∧ UInt8.ofNat (48 + k) ≠ 0x2B ∧ UInt8.ofNat (48 + k) ≠ 0x2D := by decide
  rw [hc, Nat.add_sub_cancel_left]
  exact hall k hk

theorem mapM_digitValue {cs : List Char} (h : ∀ c ∈ cs, c.isDigit = true) :
    (cs.map fun c => UInt8.ofNat c.toNat).mapM (digitValue 10) = some (cs.map fun c => c.toNat - 48) := by
  induction cs with
  | nil => simp
  | cons c cs ih =>
    have hc := (digitValue_of_isDigit (h c List.mem_cons_self)).1
    have hcs := ih fun c hc => h c (List.mem_cons_of_mem _ hc)
    simp [hc, hcs]

theorem digits_ten (n : Nat) : digits 10 1 n = (Nat.toDigits 10 n).map fun c => UInt8.ofNat c.toNat := by
  have hpos := Nat.length_toDigits_pos (b := 10) (n := n)
  have hwidth : 1 - (Nat.toDigits 10 n).length = 0 := by omega
  simp [digits, hwidth]

theorem digitsValue_digits (n : Nat) : digitsValue 10 (digits 10 1 n) = some n := by
  have hdigits : ∀ c ∈ Nat.toDigits 10 n, c.isDigit = true := fun c hc =>
    Nat.isDigit_of_mem_toDigits (by omega) (by omega) hc
  have hne : (Nat.toDigits 10 n).map (fun c => UInt8.ofNat c.toNat) ≠ [] := by simp [Nat.toDigits_ne_nil]
  have hvalue : (Nat.toDigits 10 n).foldl (fun m c => m * 10 + (c.toNat - 48)) 0 = n := by
    have h := Nat.ofDigitChars_ten_toDigits (n := n)
    rw [Nat.ofDigitChars_eq_foldl] at h
    simpa [Nat.mul_comm] using h
  rw [digits_ten, digitsValue, if_neg hne, mapM_digitValue hdigits, Option.map_some, List.foldl_map, hvalue]

theorem strtol_digits (p : HostSystem) {n : Nat} (hn : n < 2 ^ 31) :
    strtol p (digits 10 1 n) = some (n : Int) := by
  have hvalue := digitsValue_digits n
  have hmin : min (n : Int) (2 ^ (longBits p - 1) - 1) = n := by
    cases p <;> simp [longBits] <;> omega
  cases hd : Nat.toDigits 10 n with
  | nil => exact absurd hd Nat.toDigits_ne_nil
  | cons c cs =>
    have hc : c.isDigit = true := Nat.isDigit_of_mem_toDigits (b := 10) (n := n) (by omega) (by omega) (by simp [hd])
    obtain ⟨_, hspace, _, hplus, hminus⟩ := digitValue_of_isDigit hc
    have hcons : digits 10 1 n = UInt8.ofNat c.toNat :: cs.map fun c => UInt8.ofNat c.toNat := by simp [digits_ten, hd]
    have hskip : skipSpace (digits 10 1 n) = digits 10 1 n := by simp [skipSpace, hcons, hspace]
    unfold strtol
    rw [hskip]
    dsimp only
    split
    · rename_i hhead
      rw [hcons] at hhead
      exact absurd (List.cons.inj hhead).1 hminus
    · rename_i hhead
      rw [hcons] at hhead
      exact absurd (List.cons.inj hhead).1 hplus
    · simp [hvalue, hmin]

theorem formatInt_read {n : Int} (h : 0 ≤ n) (hn : n < 2 ^ 31) (p : HostSystem) :
    strtol p (CString.ofBytes (formatInt n)).val = some n := by
  have hzero : (0 : UInt8) ∉ digits 10 1 n.natAbs := by
    rw [digits_ten]
    simp only [List.mem_map, not_exists, not_and]
    intro c hc
    exact (digitValue_of_isDigit (Nat.isDigit_of_mem_toDigits (by omega) (by omega) hc)).2.2.1
  have hformat : formatInt n = digits 10 1 n.natAbs := by
    rw [formatInt, if_neg (by omega), List.nil_append]
  have hstr : (CString.ofBytes (formatInt n)).val = digits 10 1 n.natAbs := by
    rw [hformat]
    exact cstr_eq_self hzero
  rw [hstr, strtol_digits p (by omega)]
  simp
  omega

/-! ## Settings -/

/-- The settings are within the worker's limits. -/
structure Parses (whisperLangId : CString → Int) (p : HostSystem) (l : LaunchSettings) : Prop where
  endpointName : l.endpointName.val.length < 256
  modelPath : ∀ path, l.modelPath = some path → path.val.length < p.pathMaxBytes
  backend : orDefault .auto l.backend = .auto ∨ orDefault .auto l.backend = .ofString "gpu" ∨
    orDefault .auto l.backend = .ofString "cpu"
  gpuDevice : l.gpuDevice.toInt ≤ 65535
  language : Concrete whisperLangId (orDefault .en l.language)
  languageLength : (orDefault .en l.language).val.length < 16
  modelDir : (orDefault .empty l.modelDir).val.length < p.pathMaxBytes

/-- How a backend is asked for. -/
def backendName : WorkerBackend → CString
  | .auto => .auto
  | .gpu => .ofString "gpu"
  | .cpu => .ofString "cpu"

/-- The worker has what the plugin meant. -/
structure CarriesSettings {p : HostSystem} (l : LaunchSettings) (config : WorkerConfig p) : Prop where
  pipeName : CString.ofArray config.pipeName = l.endpointName
  authToken : config.authToken = l.authToken
  modelPath : CString.ofArray config.modelPath = l.modelPath.getD (.ofString "models/ggml-tiny.bin")
  backend : backendName config.backend = orDefault .auto l.backend
  gpuDevice : config.gpuDevice = if 0 ≤ l.gpuDevice then l.gpuDevice else 0
  language : CString.ofArray config.language = orDefault .en l.language
  nThreads : config.nThreads.toInt = l.effThreads
  modelDir : CString.ofArray config.modelDir = orDefault .empty l.modelDir
  loggingEnabled : config.loggingEnabled = l.loggingEnabled
  sampleRate : config.sampleRate = 16000
  vadModelPath : CString.ofArray config.vadModelPath = .empty
  logFile : CString.ofArray config.logFile = .empty

section

variable {whisperLangId : CString → Int} {p : HostSystem} {config final : WorkerConfig p} {l : LaunchSettings}
  {rest : List CString}

theorem parseArgs_value_ok {arg v : CString} (option : WorkerOption) (harg : WorkerOption.ofArg arg = some option)
    (hne : option ≠ .enableLogging) :
    parseArgs whisperLangId config (arg :: v :: rest) = .ok final ↔
      ∃ next, storeValue whisperLangId config v option = .ok next ∧ parseArgs whisperLangId next rest = .ok final := by
  rw [parseArgs_value harg hne]
  cases storeValue whisperLangId config v option <;> simp [Except.bind]

/-! ## One setting after the other -/

theorem parseArgs_pipe {v : CString} :
    parseArgs whisperLangId config (.ofString "--pipe" :: v :: rest) = .ok final ↔
      v.val.length < 256 ∧
        parseArgs whisperLangId { config with pipeName := .ofStr 256 v.val } rest = .ok final := by
  rw [parseArgs_value_ok .pipe (by decide) (by decide)]
  simp [storeValue, except_map_ok, storeText_ok, and_assoc]

theorem parseArgs_token {token : CArray authTokenBytes} :
    parseArgs whisperLangId config (.ofString "--token" :: .ofBytes (tokenToHex token.bytes) :: rest) = .ok final ↔
      parseArgs whisperLangId { config with authToken := token } rest = .ok final := by
  rw [parseArgs_value_ok .token (by decide) (by decide)]
  simp [storeValue, except_map_ok, storeToken, tokenFromHex_tokenToHex]

theorem parseArgs_model {path : CString} :
    parseArgs whisperLangId config (.ofString "--model" :: path :: rest) = .ok final ↔
      path.val.length < p.pathMaxBytes ∧
        parseArgs whisperLangId { config with modelPath := .ofStr p.pathMaxBytes path.val } rest = .ok final := by
  rw [parseArgs_value_ok .model (by decide) (by decide)]
  simp [storeValue, except_map_ok, storeText_ok, and_assoc]

theorem parseArgs_modelDir {path : CString} :
    parseArgs whisperLangId config (.ofString "--model-dir" :: path :: rest) = .ok final ↔
      path.val.length < p.pathMaxBytes ∧
        parseArgs whisperLangId { config with modelDir := .ofStr p.pathMaxBytes path.val } rest = .ok final := by
  rw [parseArgs_value_ok .modelDir (by decide) (by decide)]
  simp [storeValue, except_map_ok, storeText_ok, and_assoc]

theorem parseArgs_language {lang : CString} :
    parseArgs whisperLangId config (.ofString "--language" :: lang :: rest) = .ok final ↔
      Concrete whisperLangId lang ∧ lang.val.length < 16 ∧
        parseArgs whisperLangId { config with language := .ofStr 16 lang.val } rest = .ok final := by
  rw [parseArgs_value_ok .language (by decide) (by decide)]
  simp [storeValue, except_map_ok, storeLanguage_ok, and_assoc]

theorem parseArgs_nil : parseArgs whisperLangId config [] = .ok final ↔ config = final := by simp [parseArgs]

theorem parseArgs_logging :
    parseArgs whisperLangId config [.ofString "--enable-logging"] = .ok final ↔
      { config with loggingEnabled := true } = final := by
  have harg : WorkerOption.ofArg (.ofString "--enable-logging") = some .enableLogging := by decide
  rw [parseArgs, harg]
  simp [parseArgs]

theorem storeBackend_ok {b : CString} {backend : WorkerBackend} :
    storeBackend b = .ok backend ↔ backendName backend = b := by
  have hdistinct : ascii "gpu" ≠ CString.auto.val ∧ ascii "cpu" ≠ CString.auto.val ∧ ascii "cpu" ≠ ascii "gpu" := by
    decide
  unfold storeBackend
  simp only [Subtype.ext_iff]
  have hgpu : (backendName .gpu).val = ascii "gpu" := rfl
  have hcpu : (backendName .cpu).val = ascii "cpu" := rfl
  have hauto : (backendName .auto).val = CString.auto.val := rfl
  split_ifs with h1 h2 h3
  · cases backend <;> simp [h1, hauto, hgpu, hcpu, hdistinct]
  · cases backend <;> simp [h2, hauto, hgpu, hcpu, hdistinct, hdistinct.1.symm]
  · cases backend <;> simp [h3, hauto, hgpu, hcpu, hdistinct.2.1.symm, hdistinct.2.2.symm]
  · cases backend <;> simp [eq_comm, hauto, hgpu, hcpu, h1, h2, h3]

theorem parseArgs_backend {b : CString} :
    parseArgs whisperLangId config (.ofString "--backend" :: b :: rest) = .ok final ↔
      ∃ backend, backendName backend = b ∧
        parseArgs whisperLangId { config with backend } rest = .ok final := by
  rw [parseArgs_value_ok .backend (by decide) (by decide)]
  simp [storeValue, except_map_ok, storeBackend_ok]

theorem storeGpuDevice_formatInt {id : Int32} (h : 0 ≤ id) {stored : Int32} :
    storeGpuDevice p (.ofBytes (formatInt id.toInt)) = .ok stored ↔ id.toInt ≤ 65535 ∧ id = stored := by
  have hnonneg : 0 ≤ id.toInt := by simpa using Int32.le_iff_toInt_le.mp h
  have hlt := Int32.toInt_lt id
  unfold storeGpuDevice
  rw [formatInt_read hnonneg hlt]
  by_cases hrange : id.toInt ≤ 65535
  · simp [Option.filter, hnonneg, hrange]
  · simp [Option.filter, hrange]

theorem parseArgs_gpuDevice {id : Int32} :
    parseArgs whisperLangId config
        ((if 0 ≤ id then [.ofString "--gpu-device", .ofBytes (formatInt id.toInt)] else []) ++ rest) = .ok final ↔
      id.toInt ≤ 65535 ∧
        parseArgs whisperLangId { config with gpuDevice := if 0 ≤ id then id else config.gpuDevice } rest =
          .ok final := by
  split_ifs with h
  · rw [List.cons_append, List.singleton_append,
      parseArgs_value_ok .gpuDevice (by decide) (by decide)]
    simp [storeValue, except_map_ok, storeGpuDevice_formatInt h, and_assoc]
  · have hneg : id.toInt ≤ 65535 := by
      have := mt Int32.le_iff_toInt_le.mpr h
      simp at this
      omega
    simp [hneg]

theorem effThreads_range (l : LaunchSettings) : 1 ≤ l.effThreads ∧ l.effThreads ≤ 16 := by
  unfold LaunchSettings.effThreads
  split_ifs with h
  · omega
  · simp [Int32.lt_iff_toInt_lt] at h
    omega

theorem parseArgs_nThreads :
    parseArgs whisperLangId config
        (.ofString "--n-threads" :: .ofBytes (formatInt l.effThreads) :: rest) = .ok final ↔
      parseArgs whisperLangId { config with nThreads := .ofInt l.effThreads } rest = .ok final := by
  obtain ⟨hlow, hhigh⟩ := effThreads_range l
  have hread := formatInt_read (n := l.effThreads) (by omega) (by omega) p
  have hclamp : min (max l.effThreads 1) 16 = l.effThreads := by omega
  rw [parseArgs_value_ok .nThreads (by decide) (by decide)]
  simp [storeValue, except_map_ok, storeThreads, hread, hclamp]

/-! ## All of them -/

/-- The configuration that the settings stand for. -/
def meant (p : HostSystem) (l : LaunchSettings) (backend : WorkerBackend) : WorkerConfig p :=
  { initDefaults p with
    pipeName := .ofStr 256 l.endpointName.val
    authToken := l.authToken
    modelPath := .ofStr p.pathMaxBytes (l.modelPath.getD (.ofString "models/ggml-tiny.bin")).val
    backend := backend
    gpuDevice := if 0 ≤ l.gpuDevice then l.gpuDevice else 0
    language := .ofStr 16 (orDefault .en l.language).val
    nThreads := .ofInt l.effThreads
    modelDir := if orDefault .empty l.modelDir = .empty then .zero p.pathMaxBytes
      else .ofStr p.pathMaxBytes (orDefault .empty l.modelDir).val
    loggingEnabled := l.loggingEnabled }

theorem launchArgv_tail (executablePath : CString) (l : LaunchSettings) :
    (launchArgv executablePath l).tail =
      .ofString "--pipe" :: l.endpointName :: .ofString "--token" :: .ofBytes (tokenToHex l.authToken.bytes) ::
      ((match l.modelPath with
        | some path => [.ofString "--model", path]
        | none => []) ++
      .ofString "--backend" :: orDefault .auto l.backend ::
      ((if 0 ≤ l.gpuDevice then [.ofString "--gpu-device", .ofBytes (formatInt l.gpuDevice.toInt)] else []) ++
      .ofString "--language" :: orDefault .en l.language ::
      .ofString "--n-threads" :: .ofBytes (formatInt l.effThreads) ::
      ((if orDefault .empty l.modelDir = .empty then []
        else [.ofString "--model-dir", orDefault .empty l.modelDir]) ++
      (if l.loggingEnabled then [.ofString "--enable-logging"] else [])))) := by
  cases hpath : l.modelPath <;> simp [launchArgv, hpath]

theorem parseArgs_modelPath :
    parseArgs whisperLangId config
        ((match l.modelPath with
          | some path => [.ofString "--model", path]
          | none => []) ++ rest) = .ok final ↔
      (∀ path, l.modelPath = some path → path.val.length < p.pathMaxBytes) ∧
        parseArgs whisperLangId
          { config with modelPath := match l.modelPath with
              | some path => .ofStr p.pathMaxBytes path.val
              | none => config.modelPath } rest = .ok final := by
  cases l.modelPath with
  | none => simp
  | some path =>
    simp only [List.cons_append, List.nil_append, Option.some.injEq, forall_eq']
    exact parseArgs_model

theorem parseArgs_last :
    parseArgs whisperLangId config
        ((if orDefault .empty l.modelDir = .empty then []
          else [.ofString "--model-dir", orDefault .empty l.modelDir]) ++
        (if l.loggingEnabled then [.ofString "--enable-logging"] else [])) = .ok final ↔
      (orDefault .empty l.modelDir).val.length < p.pathMaxBytes ∧
        { config with
          modelDir := if orDefault .empty l.modelDir = .empty then config.modelDir
            else .ofStr p.pathMaxBytes (orDefault .empty l.modelDir).val
          loggingEnabled := if l.loggingEnabled then true else config.loggingEnabled } = final := by
  have hpos := p.pathMaxBytes_pos
  by_cases hdir : orDefault .empty l.modelDir = .empty
  · have hshort : (CString.empty).val.length < p.pathMaxBytes := by simpa [CString.empty] using hpos
    cases hlogging : l.loggingEnabled with
    | true => simp [hdir, parseArgs_logging, hshort]
    | false => simp [hdir, parseArgs_nil, hshort]
  · cases hlogging : l.loggingEnabled with
    | true => simp [hdir, parseArgs_modelDir, parseArgs_logging]
    | false => simp [hdir, parseArgs_modelDir, parseArgs_nil]

theorem parseArgs_launchArgv (executablePath : CString) :
    parseArgs whisperLangId (initDefaults p) (launchArgv executablePath l).tail = .ok final ↔
      Parses whisperLangId p l ∧
        ∃ backend, backendName backend = orDefault .auto l.backend ∧ meant p l backend = final := by
  rw [launchArgv_tail, parseArgs_pipe, parseArgs_token, parseArgs_modelPath, parseArgs_backend]
  simp only [parseArgs_gpuDevice, parseArgs_language, parseArgs_nThreads, parseArgs_last]
  have hbackend (backend : WorkerBackend) : backendName backend = .auto ∨ backendName backend = .ofString "gpu" ∨
      backendName backend = .ofString "cpu" := by
    cases backend <;> simp [backendName]
  have hmodel : (match l.modelPath with
      | some path => .ofStr p.pathMaxBytes path.val
      | none => (initDefaults p).modelPath) =
      CArray.ofStr p.pathMaxBytes (l.modelPath.getD (.ofString "models/ggml-tiny.bin")).val := by
    cases l.modelPath <;> rfl
  constructor
  · rintro ⟨hname, hpath, backend, hb, hgpu, hlanguage, hlength, hdir, hfinal⟩
    have hbackend := hbackend backend
    rw [hb] at hbackend
    refine ⟨⟨hname, hpath, hbackend, hgpu, hlanguage, hlength, hdir⟩, backend, hb, ?_⟩
    rw [← hfinal, meant, hmodel]
    simp [initDefaults]
  · rintro ⟨h, backend, hb, hfinal⟩
    refine ⟨h.endpointName, h.modelPath, backend, hb, h.gpuDevice, h.language, h.languageLength, h.modelDir, ?_⟩
    rw [← hfinal, meant, hmodel]
    simp [initDefaults]

theorem carries_meant (h : Parses whisperLangId p l) {backend : WorkerBackend}
    (hb : backendName backend = orDefault .auto l.backend) : CarriesSettings l (meant p l backend) := by
  have hpos := p.pathMaxBytes_pos
  have hzero (n : Nat) : CString.ofArray (.zero n) = .empty := Subtype.ext (str_zero n)
  constructor
  case pipeName => exact ofArray_ofStr h.endpointName
  case authToken => rfl
  case modelPath =>
    apply ofArray_ofStr
    cases hpath : l.modelPath with
    | none => cases p <;> simp [CString.ofString, ascii, HostSystem.pathMaxBytes]
    | some path => exact h.modelPath path hpath
  case backend => exact hb
  case gpuDevice => rfl
  case language => exact ofArray_ofStr h.languageLength
  case nThreads =>
    obtain ⟨hlow, hhigh⟩ := effThreads_range l
    apply Int32.toInt_ofInt_of_le <;> omega
  case modelDir =>
    change CString.ofArray (if orDefault .empty l.modelDir = .empty then .zero p.pathMaxBytes
      else .ofStr p.pathMaxBytes (orDefault .empty l.modelDir).val) = orDefault .empty l.modelDir
    split_ifs with hdir
    · rw [hzero, hdir]
    · exact ofArray_ofStr h.modelDir
  case loggingEnabled => rfl
  case sampleRate => rfl
  case vadModelPath => exact hzero _
  case logFile => exact hzero _

theorem length_launchArgv_le (executablePath : CString) (l : LaunchSettings) :
    (launchArgv executablePath l).length ≤ 63 := by
  unfold launchArgv
  cases l.modelPath <;> simp <;> split_ifs <;> simp

/-- **The worker starts as the plugin meant.** If its process is started, it parses what it is given exactly when the
settings are within its limits, and then it has them. -/
theorem launch_parsed_iff {programs : Programs p} {executablePath : CString} {mainArgv : List CString}
    (h : spawnProcess programs executablePath (launchArgv executablePath l) = some mainArgv) :
    (Parses whisperLangId p l →
      ∃ config, parseArgs whisperLangId (initDefaults p) mainArgv.tail = .ok config ∧ CarriesSettings l config) ∧
    (¬ Parses whisperLangId p l →
      ∃ message, parseArgs whisperLangId (initDefaults p) mainArgv.tail = .error message) := by
  rw [spawnProcess_args (length_launchArgv_le executablePath l) h]
  constructor
  · intro haccepted
    obtain ⟨backend, hb⟩ : ∃ backend, backendName backend = orDefault .auto l.backend := by
      obtain hname | hname | hname := haccepted.backend
      · exact ⟨.auto, hname.symm⟩
      · exact ⟨.gpu, hname.symm⟩
      · exact ⟨.cpu, hname.symm⟩
    exact ⟨meant p l backend, (parseArgs_launchArgv executablePath).mpr ⟨haccepted, backend, hb, rfl⟩,
      carries_meant haccepted hb⟩
  · intro hrefused
    cases hparse : parseArgs whisperLangId (initDefaults p) (launchArgv executablePath l).tail with
    | ok config => exact absurd ((parseArgs_launchArgv executablePath).mp hparse).1 hrefused
    | error message => exact ⟨message, rfl⟩

end

/-- A name with quotes and backslashes, on Windows. -/
theorem launch_parsed_iff_windows :
    ∃ (programs : Programs .windows) (l : LaunchSettings) (mainArgv : List CString) (config : WorkerConfig .windows),
      l.endpointName.val = ascii "\\\\.\\pipe\\a \"b\\" ∧
      spawnProcess programs (.ofString "C:\\w.exe") (launchArgv (.ofString "C:\\w.exe") l) = some mainArgv ∧
      parseArgs (fun _ => 0) (initDefaults .windows) mainArgv.tail = .ok config ∧ CarriesSettings l config := by
  let programs : Programs .windows :=
    { starts := fun path => path = .ofString "C:\\w.exe"
      plain := by
        intro _ path hpath
        rw [of_decide_eq_true hpath]
        decide }
  let l : LaunchSettings :=
    { endpointName := .ofString "\\\\.\\pipe\\a \"b\\"
      authToken := .zero authTokenBytes
      modelPath := none
      backend := none
      language := none
      nThreads := 99
      gpuDevice := -1
      modelDir := none
      loggingEnabled := true }
  have hspawn : spawnProcess programs (.ofString "C:\\w.exe") (launchArgv (.ofString "C:\\w.exe") l) =
      some ((windowsMarks.splitLine (cmd (.ofString "C:\\w.exe") (launchArgv (.ofString "C:\\w.exe") l))).map .ofBytes) :=
    if_pos (by decide)
  have haccepted : Parses (fun _ => 0) .windows l :=
    { endpointName := by decide
      modelPath := by simp [l]
      backend := .inl rfl
      gpuDevice := by decide
      language := ⟨by decide, by decide, by decide⟩
      languageLength := by decide
      modelDir := by decide }
  obtain ⟨config, hparse, hcarries⟩ := (launch_parsed_iff hspawn).1 haccepted
  exact ⟨programs, l, _, config, rfl, hspawn, hparse, hcarries⟩

end VlcWhisper.System
