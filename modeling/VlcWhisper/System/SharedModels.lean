import VlcWhisper.Lib.Isolation
import VlcWhisper.Plugin.SenderLoop
import VlcWhisper.Worker.SingleFlight
import Mathlib.Data.List.Nodup

/-!
# Downloads that share a directory (`vw_model_download.c`)

The workers of several players download models into the same directory. A download takes the lock of its destination
before its thread touches a file, and has it until the thread has ended. A worker that dies loses its locks, and its
download ends: on Linux curl is killed with it (`PR_SET_PDEATHSIG`), on Windows the worker downloads by itself.

Main results: `downloads_isolated`. Each download does what it would do alone with the files that it found, whatever
the others do in the meantime. `models_verified`. A model in the directory is the one that was there, or has the hash
of the catalog.
-/

namespace VlcWhisper.System

open VlcWhisper.Lib VlcWhisper.Protocol VlcWhisper.Plugin VlcWhisper.Worker
open ModelDownload (DownloadMove Matches)

/-! ## Catalog -/

/-- `vw_model_catalog_entry_t`, with the name of the file. -/
structure CatalogRow where
  entry : CatalogEntry
  filename : Bytes
  isModel : ascii ".bin" <:+ filename
  plain : 0x2F ∉ filename ∧ 0x5C ∉ filename

/-- The names of the files are different. -/
structure ModelCatalog where
  rows : List CatalogRow
  distinct : (rows.map CatalogRow.filename).Nodup

/-- `vw_model_catalog_find`. -/
def ModelCatalog.find (catalog : ModelCatalog) (id : Bytes) : Option CatalogRow :=
  catalog.rows.find? fun row => row.entry.id = id

/-- The entries of `kVWModelCatalogEntries` with the names of their files. -/
def modelFiles : List (CatalogEntry × Bytes) :=
  modelCatalogEntries.zip [ascii "ggml-tiny.en.bin", ascii "ggml-tiny.bin", ascii "ggml-base.en.bin",
    ascii "ggml-base.bin", ascii "ggml-small.bin", ascii "ggml-medium.bin", ascii "ggml-large-v3.bin"]

theorem modelFiles_plain : ∀ m ∈ modelFiles, ascii ".bin" <:+ m.2 ∧ 0x2F ∉ m.2 ∧ 0x5C ∉ m.2 := by decide

def workerCatalog : ModelCatalog where
  rows := modelFiles.pmap (fun m h => ⟨m.1, m.2, h.1, h.2⟩) modelFiles_plain
  distinct := by
    rw [List.map_pmap, List.pmap_eq_map]
    decide

/-! ## Paths -/

/-- `vw_path_join`, into an array that is large enough. -/
def pathJoin (windows : Bool) (dir file : Bytes) : Bytes :=
  if dir = [] then file
  else if dir.getLast? = some 0x2F || dir.getLast? = some 0x5C then dir ++ file
  else dir ++ (if windows then 0x5C else 0x2F) :: file

theorem pathJoin_eq (windows : Bool) (dir file : Bytes) : ∃ front, pathJoin windows dir file = front ++ file ∧
    (front = [] ∨ front.getLast? = some 0x2F ∨ front.getLast? = some 0x5C) := by
  unfold pathJoin
  split
  · exact ⟨[], rfl, .inl rfl⟩
  · split
    · rename_i hsep
      exact ⟨dir, rfl, .inr (by simpa using hsep)⟩
    · refine ⟨dir ++ [if windows then 0x5C else 0x2F], by simp, .inr ?_⟩
      cases windows <;> simp

theorem suffix_pathJoin (windows : Bool) (dir file : Bytes) : file <:+ pathJoin windows dir file := by
  obtain ⟨front, hfront, -⟩ := pathJoin_eq windows dir file
  exact ⟨front, hfront.symm⟩

/-- `final_path`. -/
structure Destination where
  path : Bytes
  isModel : ascii ".bin" <:+ path
deriving DecidableEq

namespace Destination

/-- `part_path`. -/
def part (p : Destination) : Bytes := p.path ++ ascii ".part"

/-- `lock_path`. -/
def lock (p : Destination) : Bytes := p.path ++ ascii ".lock"

theorem getLast?_path (p : Destination) : p.path.getLast? = some 0x6E := by
  obtain ⟨name, hname⟩ := p.isModel
  rw [← hname]
  simp [ascii]

theorem getLast?_part (p : Destination) : p.part.getLast? = some 0x74 := by simp [part, ascii]

theorem getLast?_lock (p : Destination) : p.lock.getLast? = some 0x6B := by simp [lock, ascii]

/-- A final file is no partial file. -/
theorem path_ne_part (p q : Destination) : p.path ≠ q.part := by
  intro h
  have hlast := q.getLast?_part
  rw [← h, p.getLast?_path] at hlast
  simp at hlast

theorem lock_ne_path (p q : Destination) : p.lock ≠ q.path := by
  intro h
  have hlast := q.getLast?_path
  rw [← h, p.getLast?_lock] at hlast
  simp at hlast

theorem lock_ne_part (p q : Destination) : p.lock ≠ q.part := by
  intro h
  have hlast := q.getLast?_part
  rw [← h, p.getLast?_lock] at hlast
  simp at hlast

end Destination

/-- The paths of a download, where they are short enough. -/
def destination (windows : Bool) (dir : Bytes) (row : CatalogRow) : Option Destination :=
  let path := pathJoin windows dir row.filename
  if dir.length < 4096 && path.length + 5 < 4096 then
    some ⟨path, row.isModel.trans (suffix_pathJoin windows dir row.filename)⟩
  else none

/-! ## Downloads at their destinations -/

/-- The files of a download are those of the directory. -/
def workAt (p : Destination) (c : ModelDownload × (Bytes → Option Bytes)) (m : DownloadMove) :
    ModelDownload × (Bytes → Option Bytes) :=
  let d := ({ c.1 with partFile := c.2 p.part, finalFile := c.2 p.path } : ModelDownload).step m
  (d, Function.update (Function.update c.2 p.part d.partFile) p.path d.finalFile)

theorem workAt_part (p : Destination) (c : ModelDownload × (Bytes → Option Bytes)) (m : DownloadMove) :
    (workAt p c m).2 p.part = (workAt p c m).1.partFile := by
  simp [workAt, (p.path_ne_part p).symm]

theorem workAt_final (p : Destination) (c : ModelDownload × (Bytes → Option Bytes)) (m : DownloadMove) :
    (workAt p c m).2 p.path = (workAt p c m).1.finalFile := by
  simp [workAt]

/-- A download works on its two files, under the lock of its destination. -/
def modelDiscipline : Discipline Destination Bytes Bytes (Option Bytes) ModelDownload DownloadMove where
  lock := Destination.lock
  keys p := {p.path, p.part}
  work := workAt
  frame := by
    intro p c m k hk
    simp only [Set.mem_compl_iff, Set.mem_insert_iff, Set.mem_singleton_iff, not_or] at hk
    simp [workAt, hk.1, hk.2]
  congr := by
    intro p d f g m h
    have hfinal : f p.path = g p.path := h (by simp)
    have hpart : f p.part = g p.part := h (by simp)
    have hstate : (workAt p (d, f) m).1 = (workAt p (d, g) m).1 := by simp [workAt, hfinal, hpart]
    refine ⟨hstate, ?_⟩
    rintro k (rfl | rfl)
    · rw [workAt_final, workAt_final, hstate]
    · rw [workAt_part, workAt_part, hstate]
  apart := by
    intro p q hlock
    rw [Set.disjoint_left]
    rintro k (rfl | rfl) (hk | hk)
    · exact hlock (by rw [Destination.lock, Destination.lock, hk])
    · exact p.path_ne_part q hk
    · exact q.path_ne_part p hk.symm
    · have hsame : p.path = q.path := List.append_cancel_right hk
      exact hlock (by rw [Destination.lock, Destination.lock, hsame])

/-- Alone, a download has in its record what is in the directory. -/
theorem run_workAt (p : Destination) {d : ModelDownload} {files : Bytes → Option Bytes}
    (hpart : d.partFile = files p.part) (hfinal : d.finalFile = files p.path) (inputs : List DownloadMove) :
    (run (workAt p) (d, files) inputs).1 = run ModelDownload.step d inputs ∧
      (run (workAt p) (d, files) inputs).2 p.part = (run ModelDownload.step d inputs).partFile ∧
      (run (workAt p) (d, files) inputs).2 p.path = (run ModelDownload.step d inputs).finalFile := by
  induction inputs generalizing d files with
  | nil => exact ⟨rfl, hpart.symm, hfinal.symm⟩
  | cons m inputs ih =>
    have hload : ({ d with partFile := files p.part, finalFile := files p.path } : ModelDownload) = d := by
      rw [← hpart, ← hfinal]
    have hstate : (workAt p (d, files) m).1 = d.step m := congrArg (fun d : ModelDownload => d.step m) hload
    have hnext := ih (d := (workAt p (d, files) m).1) (workAt_part p _ m).symm (workAt_final p _ m).symm
    rw [hstate] at hnext
    have hcons : workAt p (d, files) m = (d.step m, (workAt p (d, files) m).2) := by rw [← hstate]
    simp only [run]
    rw [hcons]
    exact hnext

/-! ## The system -/

/-- The downloads of all workers, and the files. -/
abbrev SharedModels : Type := LockedStore Nat Destination Bytes Bytes (Option Bytes) ModelDownload DownloadMove

/-- What the system answers to `vw_model_download_start`. -/
structure StartAnswer where
  allocates : Bool
  makesDir : Bool
  initsMutex : Bool
  opensLock : Bool
  startsThread : Bool

/-- What happens. -/
inductive SharedMove where
  | start (worker : Nat) (dir id : Bytes) (a : StartAnswer)
  /-- A step of the thread, of its child or of a call. -/
  | work (worker : Nat) (m : DownloadMove)
  | free (worker : Nat)
  /-- The worker's process ends: the kernel closes its files, and kills its child (`PR_SET_PDEATHSIG`). -/
  | dies (worker : Nat)

namespace SharedModels

/-- `vw_model_download_start`, which a worker calls when it has no download. -/
def begin (windows : Bool) (row : CatalogRow) (s : SharedModels) (worker : Nat) (dir : Bytes) (a : StartAnswer) :
    SharedModels :=
  match (if dir = [] || (s.party worker).isSome then none else destination windows dir row) with
  | none => s
  | some p =>
    if a.allocates && a.makesDir && a.initsMutex && a.opensLock then
      -- the file of the lock is made with the lock's name, and stays
      let s := s.write p.lock (some ((s.store p.lock).getD []))
      if a.startsThread then
        s.enter modelDiscipline worker p (ModelDownload.start row.entry windows (s.store p.part) (s.store p.path))
      -- the lock is given back
      else s
    else s

/-- `vw_model_download_free`: an abort, then the join of the thread, then the lock. -/
def free (s : SharedModels) (worker : Nat) : SharedModels :=
  let s := s.work modelDiscipline worker .abort
  match s.party worker with
  | none => s
  | some a => if a.state.point = .stopped then s.leave modelDiscipline worker else s

def step (catalog : ModelCatalog) (windows : Bool) (s : SharedModels) : SharedMove → SharedModels
  | .start worker dir id a =>
    match catalog.find id with
    | none => s
    | some row => s.begin windows row worker dir a
  | .work worker m => s.work modelDiscipline worker m
  | .free worker => s.free worker
  | .dies worker => s.leave modelDiscipline worker

end SharedModels

/-! ## Names -/

/-- A path with a file's name at its end says which file it is. -/
theorem filename_inj {windows : Bool} {dir dir' : Bytes} {row row' : CatalogRow}
    (h : pathJoin windows dir row.filename = pathJoin windows dir' row'.filename) : row.filename = row'.filename := by
  have hend (dir : Bytes) (row : CatalogRow) :
      (pathJoin windows dir row.filename).reverse.takeWhile (fun b => b ≠ 0x2F && b ≠ 0x5C) = row.filename.reverse := by
    have hplain : ∀ b ∈ row.filename.reverse, (decide (b ≠ 0x2F) && decide (b ≠ 0x5C)) = true := by
      intro b hb
      have hb : b ∈ row.filename := List.mem_reverse.mp hb
      have hslash : b ≠ 0x2F := ne_of_mem_of_not_mem hb row.plain.1
      have hbackslash : b ≠ 0x5C := ne_of_mem_of_not_mem hb row.plain.2
      simp [hslash, hbackslash]
    obtain ⟨front, hfront, hsep⟩ := pathJoin_eq windows dir row.filename
    rw [hfront, List.reverse_append, List.takeWhile_append_of_pos hplain]
    rcases hsep with rfl | hsep | hsep
    · simp
    · obtain ⟨init, rfl⟩ := List.getLast?_eq_some_iff.mp hsep
      simp
    · obtain ⟨init, rfl⟩ := List.getLast?_eq_some_iff.mp hsep
      simp
  have hreverse := hend dir row
  rw [h, hend] at hreverse
  exact (List.reverse_injective hreverse).symm

theorem find_of_catalogFilename {id filename : CString} (h : catalogFilename id = some filename) :
    ∃ row, workerCatalog.find id.val = some row ∧ row.filename = filename.val := by
  simp only [catalogFilename, Option.map_eq_some_iff] at h
  obtain ⟨known, hknown, rfl⟩ := h
  have hid : known.1 = id := by simpa using List.find?_some hknown
  have hall : ∀ known ∈ catalogFiles, (workerCatalog.find known.1.val).map CatalogRow.filename = some known.2.val := by
    decide
  have hrow := hall known (List.mem_of_find?_eq_some hknown)
  rw [hid, Option.map_eq_some_iff] at hrow
  exact hrow

/-! ## Invariant -/

variable {catalog : ModelCatalog} {windows : Bool} {files : Bytes → Option Bytes} {s : SharedModels}

/-- What may be at a path. -/
def Verified (catalog : ModelCatalog) (windows : Bool) (files : Bytes → Option Bytes) (path : Bytes)
    (found : Option Bytes) : Prop :=
  ∀ row ∈ catalog.rows, ∀ dir, path = pathJoin windows dir row.filename →
    found = files path ∨ ∃ content, found = some content ∧ Matches row.entry content

/-- How a download begins. -/
structure Begins (catalog : ModelCatalog) (windows : Bool) (files : Bytes → Option Bytes) (p : Destination)
    (c : ModelDownload × (Bytes → Option Bytes)) : Prop where
  row : ∃ row ∈ catalog.rows, ∃ dir, destination windows dir row = some p ∧
    c.1 = ModelDownload.start row.entry windows (c.2 p.part) (c.2 p.path)
  verified : ∀ path, Verified catalog windows files path (c.2 path)

structure ModelsKept (catalog : ModelCatalog) (windows : Bool) (files : Bytes → Option Bytes) (s : SharedModels) :
    Prop where
  isolated : s.Isolated modelDiscipline (Begins catalog windows files)
  verified : ∀ path, Verified catalog windows files path (s.store path)

theorem modelsKept_idle : ModelsKept catalog windows files (.idle files) :=
  ⟨LockedStore.isolated_idle files, fun _ _ _ _ _ => .inl rfl⟩

/-- What a download has renamed has the hash of its entry. -/
theorem finalFile_of_published {entry : CatalogEntry} {finalFile : Option Bytes} {d : ModelDownload}
    (h : ModelDownload.Published entry finalFile d) :
    d.finalFile = finalFile ∨ ∃ content, d.finalFile = some content ∧ Matches entry content := by
  have hfile := h.file
  cases hlast : (ModelDownload.renames d.trace).getLast? with
  | none =>
    left
    simpa [hlast] using hfile
  | some renamed =>
    right
    obtain ⟨n, content⟩ := renamed
    have hmem : (n, content) ∈ ModelDownload.renames d.trace := List.mem_of_getLast? hlast
    have hevent : DownloadEvent.published n content ∈ d.trace := by
      simp only [ModelDownload.renames, List.mem_filterMap] at hmem
      obtain ⟨e, he, hrenamed⟩ := hmem
      cases e with
      | verified => simp at hrenamed
      | published m c =>
        obtain ⟨rfl, rfl⟩ : m = n ∧ c = content := by simpa using hrenamed
        exact he
    obtain ⟨past, later, htrace⟩ := List.append_of_mem hevent
    have hjustified := explained_iff.mp h.justified past _ later htrace n content rfl
    exact ⟨content, by simpa [hlast] using hfile, hjustified.1⟩

theorem destination_eq_some {dir : Bytes} {row : CatalogRow} {p : Destination}
    (h : destination windows dir row = some p) : p.path = pathJoin windows dir row.filename := by
  unfold destination at h
  dsimp only at h
  split at h
  · obtain rfl := Option.some.inj h
    rfl
  · simp at h

theorem getLast?_pathJoin (dir : Bytes) (row : CatalogRow) :
    (pathJoin windows dir row.filename).getLast? = some 0x6E :=
  Destination.getLast?_path ⟨_, row.isModel.trans (suffix_pathJoin windows dir row.filename)⟩

theorem verified_alone {p : Destination} {began : ModelDownload × (Bytes → Option Bytes)} (inputs : List DownloadMove)
    {path : Bytes} (hbegan : Begins catalog windows files p began) (hpath : path ∈ modelDiscipline.keys p) :
    Verified catalog windows files path ((run (workAt p) began inputs).2 path) := by
  obtain ⟨d, found⟩ := began
  intro row hrow dir hjoin
  obtain ⟨row', hrow', dir', hplace, hstart⟩ := hbegan.row
  rcases hpath with rfl | rfl
  · have hsame : row'.filename = row.filename := filename_inj ((destination_eq_some hplace).symm.trans hjoin)
    obtain rfl : row' = row := List.inj_on_of_nodup_map catalog.distinct hrow' hrow hsame
    obtain rfl : d = ModelDownload.start row'.entry windows (found p.part) (found p.path) := hstart
    have hsound := ModelDownload.sound_run row'.entry windows (found p.part) (found p.path) inputs
    rw [(run_workAt p rfl rfl inputs).2.2]
    rcases finalFile_of_published hsound.toPublished with hkept | hrenamed
    · rw [hkept]
      exact hbegan.verified p.path row' hrow dir hjoin
    · exact .inr hrenamed
  · have hlast := p.getLast?_part
    rw [hjoin, getLast?_pathJoin] at hlast
    simp at hlast

/-! ## Runs -/

theorem ModelsKept.work (h : ModelsKept catalog windows files s) (worker : Nat) (m : DownloadMove) :
    ModelsKept catalog windows files (s.work modelDiscipline worker m) :=
  ⟨h.isolated.work m, h.isolated.good_work (fun _ _ inputs _ hbegan hpath => verified_alone inputs hbegan hpath)
    h.verified m⟩

theorem ModelsKept.leave (h : ModelsKept catalog windows files s) (worker : Nat) :
    ModelsKept catalog windows files (s.leave modelDiscipline worker) := by
  refine ⟨h.isolated.leave, ?_⟩
  unfold LockedStore.leave
  split <;> exact h.verified

theorem ModelsKept.enter (h : ModelsKept catalog windows files s) (worker : Nat) {row : CatalogRow}
    (hrow : row ∈ catalog.rows) {dir : Bytes} {p : Destination} (hplace : destination windows dir row = some p) :
    ModelsKept catalog windows files (s.enter modelDiscipline worker p
      (ModelDownload.start row.entry windows (s.store p.part) (s.store p.path))) := by
  refine ⟨h.isolated.enter ⟨⟨row, hrow, dir, hplace, rfl⟩, h.verified⟩, ?_⟩
  unfold LockedStore.enter
  split <;> exact h.verified

theorem ModelsKept.writeLock (h : ModelsKept catalog windows files s) (p : Destination) (content : Option Bytes) :
    ModelsKept catalog windows files (s.write p.lock content) := by
  refine ⟨h.isolated.write ?_ content, fun path row hrow dir hjoin => ?_⟩
  · rintro q (hval | hpart)
    · exact p.lock_ne_path q hval
    · exact p.lock_ne_part q hpart
  · have hne : path ≠ p.lock := by
      rintro rfl
      have hlast := p.getLast?_lock
      rw [hjoin, getLast?_pathJoin] at hlast
      simp at hlast
    simpa [LockedStore.write, hne] using h.verified path row hrow dir hjoin

namespace SharedModels

theorem modelsKept_begin (h : ModelsKept catalog windows files s) {row : CatalogRow} (hrow : row ∈ catalog.rows)
    (worker : Nat) (dir : Bytes) (a : StartAnswer) :
    ModelsKept catalog windows files (s.begin windows row worker dir a) := by
  unfold begin
  split
  · exact h
  · rename_i p hplace
    have hplace : destination windows dir row = some p := by
      split at hplace
      · simp at hplace
      · exact hplace
    split
    · have hlock := h.writeLock p (some ((s.store p.lock).getD []))
      dsimp only
      split
      · exact hlock.enter worker hrow hplace
      · exact hlock
    · exact h

theorem modelsKept_step (s : SharedModels) (m : SharedMove) (h : ModelsKept catalog windows files s) :
    ModelsKept catalog windows files (s.step catalog windows m) := by
  cases m with
  | start worker dir id a =>
    unfold step
    dsimp only
    split
    · exact h
    · rename_i row hfind
      exact modelsKept_begin h (List.mem_of_find?_eq_some hfind) worker dir a
  | work worker m => exact h.work worker m
  | free worker =>
    have hworked := h.work worker .abort
    unfold step free
    dsimp only
    split
    · exact hworked
    · split
      · exact hworked.leave worker
      · exact hworked
  | dies worker => exact h.leave worker

theorem modelsKept_run (moves : List SharedMove) :
    ModelsKept catalog windows files (run (step catalog windows) (.idle files) moves) :=
  run_invariant' modelsKept_step moves modelsKept_idle

/-- **Isolation.** A download is in the state that its own moves lead to from the files that it found, what it last left
in its files is there, and nobody else works on them. -/
theorem downloads_isolated {moves : List SharedMove} {worker : Nat}
    {a : Party Destination Bytes (Option Bytes) ModelDownload DownloadMove}
    (ha : (run (step catalog windows) (.idle files) moves).party worker = some a) :
    let s := run (step catalog windows) (.idle files) moves
    (∃ row ∈ catalog.rows, ∃ dir, destination windows dir row = some a.place ∧
      a.state = run ModelDownload.step
        (ModelDownload.start row.entry windows (a.began.2 a.place.part) (a.began.2 a.place.path)) a.inputs) ∧
      s.store a.place.part = a.state.partFile ∧ s.store a.place.path = a.state.finalFile ∧
      ∀ other b, s.party other = some b → other ≠ worker → b.place ≠ a.place := by
  have hrun : ModelsKept catalog windows files (run (step catalog windows) (.idle files) moves) := modelsKept_run moves
  have halone := hrun.isolated worker a ha
  obtain ⟨row, hrow, dir, hplace, hstart⟩ := halone.begun.row
  have hfound : a.began.1.partFile = a.began.2 a.place.part ∧ a.began.1.finalFile = a.began.2 a.place.path := by
    rw [hstart]
    exact ⟨rfl, rfl⟩
  obtain ⟨hstate, hpart, hfinal⟩ := run_workAt a.place hfound.1 hfound.2 a.inputs
  have hnow : a.state = run ModelDownload.step a.began.1 a.inputs := halone.state.symm.trans hstate
  refine ⟨⟨row, hrow, dir, hplace, by rw [hnow, hstart]⟩, ?_, ?_, ?_⟩
  · rw [hnow, ← hpart]
    exact (halone.values (by simp [modelDiscipline])).symm
  · rw [hnow, ← hfinal]
    exact (halone.values (by simp [modelDiscipline])).symm
  · intro other b hb hne hsame
    exact hrun.isolated.lock_ne hb ha hne (by rw [hsame])

def abcCatalog : ModelCatalog where
  rows := [⟨ModelDownload.abcEntry, ascii "abc.bin", by decide, by decide⟩]
  distinct := by simp

/-- Two workers want the same model, and the first one gets it. -/
def abcTwice : List SharedMove :=
  ([.start 1 (ascii "m") (ascii "tiny.en") ⟨true, true, true, true, true⟩,
    .start 2 (ascii "m/") (ascii "tiny.en") ⟨true, true, true, true, true⟩] ++
    (ModelDownload.abcMoves ++ [DownloadMove.thread ModelDownload.goodAnswer]).map (.work 1))

theorem downloads_isolated_twice :
    let s := run (step abcCatalog false) (.idle fun _ => none) abcTwice
    ∃ a, s.party 1 = some a ∧ s.party 2 = none ∧ s.store (ascii "m/abc.bin") = some (ascii "abc") ∧
      s.store a.place.path = a.state.finalFile ∧ ∀ other b, s.party other = some b → other ≠ 1 → b.place ≠ a.place := by
  have hsome : ((run (step abcCatalog false) (.idle fun _ => none) abcTwice).party 1).isSome = true := by decide +kernel
  obtain ⟨a, ha⟩ := Option.isSome_iff_exists.mp hsome
  have hisolated := downloads_isolated ha
  have hsecond : ((run (step abcCatalog false) (.idle fun _ => none) abcTwice).party 2).isNone = true := by
    decide +kernel
  exact ⟨a, ha, Option.isNone_iff_eq_none.mp hsecond, by decide +kernel, hisolated.2.2.1, hisolated.2.2.2⟩

/-- **Models.** Whatever the workers do, and wherever they are ended, at the path of a model is what was there before
all of them, or a content with the hash of the model's entry. -/
theorem models_verified {row : CatalogRow} (hrow : row ∈ catalog.rows) (dir : Bytes) (moves : List SharedMove) :
    let path := pathJoin windows dir row.filename
    let found := (run (step catalog windows) (.idle files) moves).store path
    found = files path ∨ ∃ content, found = some content ∧ Matches row.entry content :=
  (modelsKept_run moves).verified _ row hrow dir rfl

theorem models_verified_abc :
    let found := (run (step abcCatalog false) (.idle fun _ => none) abcTwice).store (ascii "m/abc.bin")
    found = some (ascii "abc") ∧
      (found = none ∨ ∃ content, found = some content ∧ Matches ModelDownload.abcEntry content) :=
  ⟨by decide +kernel, @models_verified abcCatalog false (fun _ => none) _ List.mem_cons_self (ascii "m") abcTwice⟩

/-- The file that `vw_plugin_activate_downloaded_model` gives to the next worker. -/
theorem activated_verified {id filename : CString} (hfile : catalogFilename id = some filename) {dir : Bytes}
    (hdir : dir ≠ []) (hopen : dir.getLast? ≠ some 0x2F ∧ dir.getLast? ≠ some 0x5C) (moves : List SharedMove) :
    let path := dir ++ 0x2F :: filename.val
    let found := (run (step workerCatalog false) (.idle files) moves).store path
    found = files path ∨ ∃ row, workerCatalog.find id.val = some row ∧
      ∃ content, found = some content ∧ Matches row.entry content := by
  obtain ⟨row, hfind, hname⟩ := find_of_catalogFilename hfile
  have hjoin : dir ++ 0x2F :: filename.val = pathJoin false dir row.filename := by
    simp [pathJoin, hdir, hopen, hname]
  rcases (modelsKept_run moves).verified _ row (List.mem_of_find?_eq_some hfind) dir hjoin with hkept | hverified
  · exact .inl hkept
  · exact .inr ⟨row, hfind, hverified⟩

end SharedModels

end VlcWhisper.System
