import VlcWhisper.Plugin.Children

/-!
# Each child has one owner (`vw_platform_linux.c`)

Main results:

* `children_owned`: in every run the pids that are held, in the table, with a detached reaper or forgotten are those of
  the children that were not reaped, each once, and no other pid was used.
* `reapUnreaped_tests`: the loop over the table tests each entry once, although it moves entries while it does, and
  keeps exactly those that have not exited.
-/

namespace VlcWhisper.Plugin

open VlcWhisper.Lib

namespace Platform

variable {s t : Platform} {inHand : List Nat} {pid : Nat}

/-! ## Removing an entry -/

theorem swapRemove_split (before after : List Nat) (pid last : Nat) :
    swapRemove (before ++ [pid]) before.length = before ∧
      swapRemove (before ++ pid :: (after ++ [last])) before.length = before ++ last :: after := by
  constructor
  · simp [swapRemove]
  · have hlast : (before ++ pid :: (after ++ [last])).getLast? = some last := by
      rw [← List.cons_append, ← List.append_assoc]
      exact List.getLast?_concat
    unfold swapRemove
    rw [hlast]
    simp only [List.set_append, Nat.lt_irrefl, if_false, Nat.sub_self, List.set_cons_zero]
    rw [← List.cons_append, ← List.append_assoc]
    exact List.dropLast_concat

theorem swapRemove_spec {pids : List Nat} {i : Nat} (h : pids[i]? = some pid) :
    (swapRemove pids i).take i = pids.take i ∧ ((swapRemove pids i).drop i).Perm (pids.drop (i + 1)) := by
  obtain ⟨hi, rfl⟩ := List.getElem?_eq_some_iff.mp h
  have hsplit : pids = pids.take i ++ pids[i] :: pids.drop (i + 1) := by simp
  have hlen : (pids.take i).length = i := by simp; omega
  generalize pids.take i = before at hsplit hlen ⊢
  generalize hafter : pids.drop (i + 1) = after at hsplit ⊢
  generalize pids[i] = pid at hsplit
  subst hsplit hlen
  rcases List.eq_nil_or_concat after with rfl | ⟨rest, last, rfl⟩
  · rw [(swapRemove_split before [] pid 0).1]
    simp
  · rw [List.concat_eq_append, (swapRemove_split before rest pid last).2]
    simp only [List.take_left, List.drop_left, true_and]
    exact (List.perm_append_singleton last rest).symm

/-! ## Owners -/

/-- The pids that somebody keeps, or kept. -/
def owners (s : Platform) : List Nat := s.held ++ s.unreaped ++ s.detached ++ s.forgotten

/-- With the pids that a running call has in hand, the owners keep each child that was not reaped, once. -/
structure Owned (inHand : List Nat) (s : Platform) : Prop where
  holds : Handles.Holds s.children (owners s ++ inHand)
  nodup : (owners s ++ inHand).Nodup
  positive : 0 ∉ owners s ++ inHand
  room : s.unreaped.length ≤ maxUnreapedPids

theorem owned_start (exits : List Bool) : Owned [] (start exits) where
  holds := Handles.holds_empty
  nodup := by simp [owners, start]
  positive := by simp [owners, start]
  room := by simp [start]

theorem Owned.moved (h : Owned inHand s) {inHand' : List Nat} (hperm : (owners t ++ inHand').Perm (owners s ++ inHand))
    (hchildren : t.children = s.children) (hroom : t.unreaped.length ≤ maxUnreapedPids) : Owned inHand' t where
  holds := hchildren ▸ h.holds.congr fun _ => hperm.symm.mem_iff
  nodup := hperm.nodup_iff.mpr h.nodup
  positive := fun hmem => h.positive (hperm.mem_iff.mp hmem)
  room := hroom

theorem Owned.released (h : Owned inHand s) {inHand' : List Nat}
    (hperm : (owners s ++ inHand).Perm (pid :: (owners t ++ inHand'))) (hchildren : t.children = s.children.release pid)
    (hroom : t.unreaped.length ≤ maxUnreapedPids) : Owned inHand' t := by
  have hnodup := hperm.nodup_iff.mp h.nodup
  obtain ⟨hnot, hrest⟩ := List.nodup_cons.mp hnodup
  refine ⟨?_, hrest, ?_, hroom⟩
  · rw [hchildren]
    refine (h.holds.release (hperm.mem_iff.mpr List.mem_cons_self)).congr fun i => ?_
    rw [List.mem_filter, hperm.mem_iff]
    simp only [List.mem_cons, ne_eq, decide_not, Bool.not_eq_true', decide_eq_false_iff_not]
    constructor
    · rintro ⟨rfl | hi, hne⟩
      · exact absurd rfl hne
      · exact hi
    · intro hi
      exact ⟨Or.inr hi, fun heq => hnot (heq ▸ hi)⟩
  · intro hzero
    exact h.positive (hperm.mem_iff.mpr (List.mem_cons_of_mem _ hzero))

theorem Owned.ends_waitpid (h : Owned inHand s) (hmem : pid ∈ owners s ++ inHand) :
    Ends (waitpid pid) s fun status t => ∃ exits, status = .running ∧ t = { s with exits } ∨
      status = .reaped ∧ t = { s with exits, children := s.children.release pid } := by
  have hlive : s.children.live pid = true := (h.holds.live pid).mpr hmem
  have hrun : (waitpid pid).run s = waitpid pid s := rfl
  unfold Ends
  rw [hrun, waitpid, if_pos hlive]
  rcases s with ⟨children, exits, unreaped, detached, held, forgotten, tests⟩
  rcases exits with _ | ⟨_ | _, rest⟩
  · exact ⟨[], Or.inl ⟨rfl, rfl⟩⟩
  · exact ⟨rest, Or.inl ⟨rfl, rfl⟩⟩
  · exact ⟨rest, Or.inr ⟨rfl, rfl⟩⟩

/-! ## The loop over the table -/

/-- What is kept by all owners but the table. -/
def others (s : Platform) : List Nat × List Nat × List Nat := (s.held, s.detached, s.forgotten)

theorem owners_perm_of_others (pids : List Nat) (h : others t = others s) (hpids : s.unreaped.Perm (pids ++ t.unreaped)) :
    (owners s ++ inHand).Perm (pids ++ (owners t ++ inHand)) := by
  obtain ⟨hheld, hdetached, hforgotten⟩ : t.held = s.held ∧ t.detached = s.detached ∧ t.forgotten = s.forgotten := by
    simpa [others] using h
  simp only [owners, hheld, hdetached, hforgotten, List.append_assoc]
  refine (List.Perm.append_left _ (hpids.append_right _)).trans ?_
  rw [List.append_assoc]
  exact List.perm_append_comm_assoc _ _ _

/-- The tests of a loop from index `i`: of each entry from there on, one. -/
structure Tested (i : Nat) (s t : Platform) (tests : List (Nat × Bool)) : Prop where
  noted : t.tests = s.tests ++ tests
  tested : (tests.map (·.1)).Perm (s.unreaped.drop i)
  kept : t.unreaped.Perm (s.unreaped.take i ++ (tests.filter fun test => !test.2).map (·.1))
  others : others t = others s

theorem tests_reapFrom (rounds i : Nat) (h : Owned inHand s) (hrounds : i + rounds = s.unreaped.length) :
    Ends (reapFrom rounds i) s fun _ t => Owned inHand t ∧ ∃ tests, Tested i s t tests := by
  induction rounds generalizing i s with
  | zero =>
    have hdone : s.unreaped.length ≤ i := by omega
    have hsame : ((reapFrom 0 i).run s).2 = s := rfl
    rw [Ends, hsame]
    exact ⟨h, [], by simp, by simp [hdone], by simp [List.take_of_length_le hdone], rfl⟩
  | succ rounds ih =>
    have hi : i < s.unreaped.length := by omega
    have hget : s.unreaped[i]? = some s.unreaped[i] := List.getElem?_eq_getElem hi
    generalize hpid : s.unreaped[i] = pid at hget
    have hentry : pid ∈ s.unreaped := hpid ▸ List.getElem_mem hi
    have hmem : pid ∈ owners s ++ inHand := by simp [owners, hentry]
    have hdrop : s.unreaped.drop i = pid :: s.unreaped.drop (i + 1) := by
      rw [List.drop_eq_getElem_cons hi, hpid]
    unfold reapFrom
    apply Ends.get_bind
    rw [hget]
    refine (h.ends_waitpid hmem).bind fun status t hstatus => ?_
    obtain ⟨exits, ht⟩ := hstatus
    apply Ends.modify_bind
    rcases ht with ⟨rfl, rfl⟩ | ⟨rfl, rfl⟩
    · -- the entry stays, and the index goes on
      rw [if_pos rfl]
      refine (ih (i + 1) (s := { s with exits, tests := s.tests ++ [(pid, false)] }) (h.moved (List.Perm.refl _) rfl h.room)
        (by simpa using by omega)).mono ?_
      rintro _ u ⟨hu, tests, htests, htested, hkept, hothers⟩
      refine ⟨hu, (pid, false) :: tests, ?_, ?_, ?_, hothers⟩
      · simpa using htests
      · rw [hdrop]
        simpa using htested
      · have htake : s.unreaped.take (i + 1) = s.unreaped.take i ++ [pid] := by
          rw [List.take_add_one, hget]
          rfl
        simpa [htake] using hkept
    · -- the last entry takes its place, and the index stays
      rw [if_neg (by decide)]
      apply Ends.modify_bind
      obtain ⟨htake, hperm⟩ := swapRemove_spec hget
      have hsplit : s.unreaped.Perm ([pid] ++ swapRemove s.unreaped i) := by
        rw [← List.take_append_drop i (swapRemove s.unreaped i), htake]
        refine List.Perm.trans ?_ (List.perm_append_comm_assoc _ _ _)
        refine List.Perm.trans ?_ (List.Perm.append_left _ (hperm.symm.cons pid))
        rw [← hdrop, List.take_append_drop]
      have hlen : (swapRemove s.unreaped i).length + 1 = s.unreaped.length := by
        simpa [Nat.add_comm] using hsplit.length_eq.symm
      have hroom := h.room
      have hnext : Owned inHand { s with
          exits, children := s.children.release pid, tests := s.tests ++ [(pid, true)]
          unreaped := swapRemove s.unreaped i } := by
        refine h.released ?_ rfl ?_
        · apply owners_perm_of_others [pid]
          · rfl
          · exact hsplit
        · show (swapRemove s.unreaped i).length ≤ maxUnreapedPids
          omega
      refine (ih i hnext (by show i + rounds = (swapRemove s.unreaped i).length; omega)).mono ?_
      rintro _ u ⟨hu, tests, htests, htested, hkept, hothers⟩
      refine ⟨hu, (pid, true) :: tests, ?_, ?_, ?_, hothers⟩
      · simpa using htests
      · rw [hdrop]
        simpa using htested.trans hperm
      · simpa [htake] using hkept

theorem tests_reapUnreaped (h : Owned inHand s) :
    Ends reapUnreaped s fun _ t => Owned inHand t ∧ ∃ tests, Tested 0 s t tests :=
  Ends.get_bind (tests_reapFrom _ 0 h (Nat.zero_add _))

theorem owned_reapUnreaped (h : Owned inHand s) : Ends reapUnreaped s fun _ t => Owned inHand t :=
  (tests_reapUnreaped h).mono fun _ _ ht => ht.1

/-! ## Processes -/

theorem owned_registerUnreaped (h : Owned (pid :: inHand) s) :
    Ends (registerUnreaped pid) s fun _ t => Owned inHand t := by
  have hpid : pid ≠ 0 := fun hzero => h.positive (by simp [hzero])
  unfold registerUnreaped
  rw [if_neg hpid]
  show Owned inHand (if s.unreaped.length < maxUnreapedPids then { s with unreaped := s.unreaped ++ [pid] }
    else { s with forgotten := s.forgotten ++ [pid] })
  split
  · refine h.moved ?_ rfl ?_
    · simp only [owners, List.append_assoc, List.singleton_append]
      refine List.Perm.append_left _ (List.Perm.append_left _ ?_)
      rw [← List.append_assoc, ← List.append_assoc]
      exact List.perm_middle.symm
    · simp
      omega
  · refine h.moved ?_ rfl h.room
    simp only [owners, List.append_assoc, List.singleton_append]
    exact List.Perm.refl _

theorem owned_waitLoop (timeoutMs elapsedMs : Nat) (h : Owned (pid :: inHand) s) :
    Ends (waitLoop pid timeoutMs elapsedMs) s fun ended t => Owned (if ended then inHand else pid :: inHand) t := by
  induction hleft : timeoutMs - elapsedMs using Nat.strongRecOn generalizing elapsedMs s with
  | ind left ih =>
    rw [waitLoop]
    apply Ends.ite
    · intro _
      exact h
    · intro _
      refine (h.ends_waitpid (by simp)).bind fun status t hstatus => ?_
      obtain ⟨exits, ht⟩ := hstatus
      rcases ht with ⟨rfl, rfl⟩ | ⟨rfl, rfl⟩
      · have hnext : Owned (pid :: inHand) { s with exits } := h.moved (List.Perm.refl _) rfl h.room
        rw [if_neg (by decide)]
        apply Ends.ite
        · intro _
          exact hnext
        · intro hmore
          exact ih _ (by omega) (elapsedMs + 10) hnext rfl
      · rw [if_pos (by decide)]
        exact h.released List.perm_middle rfl h.room

theorem owned_waitProcess (timeoutMs : Nat) (h : Owned (pid :: inHand) s) :
    Ends (waitProcess pid timeoutMs) s fun ended t => Owned (if ended then inHand else pid :: inHand) t := by
  have hpid : pid ≠ 0 := fun hzero => h.positive (by simp [hzero])
  unfold waitProcess
  rw [if_neg hpid]
  exact (owned_reapUnreaped h).bind fun _ t ht => owned_waitLoop timeoutMs 0 ht

theorem owned_terminateProcess (h : Owned (pid :: inHand) s) :
    Ends (terminateProcess pid) s fun _ t => Owned inHand t := by
  have hpid : pid ≠ 0 := fun hzero => h.positive (by simp [hzero])
  unfold terminateProcess
  rw [if_neg hpid]
  refine (owned_reapUnreaped h).bind fun _ t ht => ?_
  have hkill : t.children.use pid = t.children := ht.holds.use (by simp)
  apply Ends.modify_bind
  have hkilled : Owned (pid :: inHand) { t with children := t.children.use pid } :=
    ht.moved (List.Perm.refl _) hkill ht.room
  refine (owned_waitProcess 1000 hkilled).bind fun ended u hu => ?_
  cases ended with
  | true => exact hu
  | false => exact owned_registerUnreaped hu

theorem owned_endWorker (timeoutMs : Nat) (h : Owned inHand s) (hheld : pid ∈ s.held) :
    Ends (endWorker pid timeoutMs) s fun _ t => Owned inHand t := by
  apply Ends.modify_bind
  have htaken : Owned (pid :: inHand) { s with held := s.held.erase pid } := by
    refine h.moved ?_ rfl h.room
    have herase := List.perm_cons_erase hheld
    simp only [owners, List.append_assoc]
    refine List.Perm.trans ?_ (herase.symm.append_right _)
    rw [List.cons_append]
    refine List.Perm.trans ?_ List.perm_middle
    refine List.Perm.append_left _ ?_
    rw [← List.append_assoc, ← List.append_assoc, ← List.append_assoc, ← List.append_assoc]
    exact List.perm_middle
  refine (owned_waitProcess timeoutMs htaken).bind fun ended t ht => ?_
  cases ended with
  | true => exact ht
  | false => exact owned_terminateProcess ht

theorem Owned.ends_posixSpawn (h : Owned inHand s) (started : Option Nat) :
    Ends (posixSpawn started) s fun pid t => Owned (pid.toList ++ inHand) t := by
  have hrun : (posixSpawn started).run s = posixSpawn started s := rfl
  unfold Ends
  rw [hrun]
  unfold posixSpawn
  cases started with
  | none => exact h
  | some pid =>
    dsimp only
    split
    · exact h
    · rename_i hfree
      rw [Bool.or_eq_true, decide_eq_true_eq, not_or] at hfree
      have hnot : pid ∉ owners s ++ inHand := mt (h.holds.live pid).mpr hfree.2
      refine ⟨(h.holds.acquire hnot).congr fun _ => List.perm_middle.symm.mem_iff, ?_, ?_, h.room⟩
      · exact List.perm_middle.nodup_iff.mpr (List.nodup_cons.mpr ⟨hnot, h.nodup⟩)
      · intro hzero
        rcases List.mem_cons.mp (List.perm_middle.mem_iff.mp hzero) with hzero | hzero
        · exact hfree.1 hzero.symm
        · exact h.positive hzero

theorem Owned.hold (h : Owned (pid :: inHand) s) : Owned inHand { s with held := s.held ++ [pid] } := by
  refine h.moved ?_ rfl h.room
  simp only [owners, List.append_assoc, List.singleton_append]
  refine List.Perm.append_left _ ?_
  rw [← List.append_assoc, ← List.append_assoc, ← List.append_assoc, ← List.append_assoc]
  exact List.perm_middle.symm

theorem Owned.detach (h : Owned (pid :: inHand) s) : Owned inHand { s with detached := s.detached ++ [pid] } := by
  refine h.moved ?_ rfl h.room
  simp only [owners, List.append_assoc, List.singleton_append]
  refine List.Perm.append_left _ (List.Perm.append_left _ (List.Perm.append_left _ ?_))
  exact List.perm_middle.symm

theorem owned_spawnProcess (started : Option Nat) (outProcess threadStarts : Bool) (h : Owned inHand s) :
    Ends (spawnProcess started outProcess threadStarts) s fun _ t => Owned inHand t := by
  refine (owned_reapUnreaped h).bind fun _ t ht => (ht.ends_posixSpawn started).bind fun pid u hu => ?_
  cases pid with
  | none => exact hu
  | some pid =>
    have hu : Owned (pid :: inHand) u := hu
    have hgiven : Ends (if outProcess then modify fun s => { s with held := s.held ++ [pid] }
        else reapDetached pid threadStarts) u fun _ v => Owned inHand v := by
      apply Ends.ite
      · intro _
        exact hu.hold
      · intro _
        apply Ends.ite
        · intro _
          exact hu.detach
        · intro _
          exact owned_registerUnreaped hu
    cases outProcess with
    | true => exact hgiven
    | false => exact hgiven.bind fun _ v hv => hv

/-! ## Runs -/

theorem owned_turn (t : Turn) (h : Owned [] s) : Ends (turn t) s fun _ u => Owned [] u := by
  cases t with
  | launch started => exact (owned_spawnProcess started true true h).bind fun _ _ ht => ht
  | spawn started threadStarts => exact (owned_spawnProcess started false threadStarts h).bind fun _ _ ht => ht
  | endWorker n timeoutMs =>
    apply Ends.get_bind
    split
    · exact h
    · rename_i hget
      exact owned_endWorker timeoutMs h (List.mem_of_getElem? hget)
  | detachedExits n =>
    have hrun : Ends (turn (.detachedExits n)) s (fun _ u => Owned [] u) ↔ Owned [] ((turn (.detachedExits n)).run s).2 :=
      Iff.rfl
    rw [hrun, turn, StateT.run_modify]
    dsimp only [pure]
    split
    · exact h
    · rename_i pid hget
      have herase := List.perm_cons_erase (List.mem_of_getElem? hget)
      refine Owned.released h (?_ : (_ : List Nat).Perm (pid :: _)) rfl h.room
      simp only [owners, List.append_nil, List.append_assoc]
      refine List.Perm.trans ?_ List.perm_middle
      refine List.Perm.append_left _ (List.Perm.trans ?_ List.perm_middle)
      exact List.Perm.append_left _ (herase.append_right _)

theorem owned_run (exits : List Bool) (turns : List Turn) : Owned [] (run step (start exits) turns) :=
  run_invariant' (fun _ t h => owned_turn t h) turns (owned_start exits)

/-- **Children.** In every run, whatever `waitpid` finds, only pids of children that were not reaped are signalled or
waited for, each such child has exactly one owner, and the table never holds more than its size. -/
theorem children_owned (exits : List Bool) (turns : List Turn) :
    let s := run step (start exits) turns
    s.children.misused = false ∧ (∀ pid, s.children.live pid = true ↔ pid ∈ owners s) ∧ (owners s).Nodup ∧
      s.unreaped.length ≤ maxUnreapedPids := by
  have h := owned_run exits turns
  have hlive := h.holds.live
  have hnodup := h.nodup
  rw [List.append_nil] at hlive hnodup
  exact ⟨h.holds.sound, hlive, hnodup, h.room⟩

/-- **The table.** In every run, a loop over the table tests each of its entries exactly once, although a removal moves
the last entry, and keeps exactly those that have not exited. -/
theorem reapUnreaped_tests (exits : List Bool) (turns : List Turn) :
    let s := run step (start exits) turns
    let t := (reapUnreaped.run s).2
    ∃ tests, t.tests = s.tests ++ tests ∧ (tests.map (·.1)).Perm s.unreaped ∧
      t.unreaped.Perm ((tests.filter fun test => !test.2).map (·.1)) := by
  have h := owned_run exits turns
  obtain ⟨-, tests, htests⟩ := tests_reapUnreaped h
  exact ⟨tests, htests.noted, by simpa using htests.tested, by simpa using htests.kept⟩

end Platform

end VlcWhisper.Plugin
