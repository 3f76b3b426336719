import VlcWhisper.Lib.Handles
import VlcWhisper.Lib.Machine

/-!
# How the processes meet (`vw_ipc_socket_linux.c`)

The worker binds the endpoint and waits for one connection, which any process of the host may try to make. The name is
made private before the socket listens, and is removed once somebody has been accepted.

Main result: `meeting_private`. In every interleaving of the worker's system calls with those who connect, and whatever
calls fail, nobody but the worker's user and root gets into the queue, only its user is handed out, the worker waits
for ten of its clock's seconds, in whole milliseconds, and at each call what it has is what it still needs: in the end
the connection, or nothing.
-/

namespace VlcWhisper.System

open VlcWhisper.Lib

/-! ## State -/

/-- A process that connects, and its user. -/
structure Peer where
  uid : Nat
  pid : Nat
deriving DecidableEq

/-- What the worker has of the system: descriptors, the name in the directory, and memory. -/
inductive EndpointResource where
  | serverFd
  | clientFd
  | name
  | handle
deriving DecidableEq

/-- What `vw_ipc_listen` does next. -/
inductive ListenPoint where
  | socket
  | bind
  | chmod
  | listen
  | clock
  /-- `poll`, which returns by `untilNs`. -/
  | poll (startedNs untilNs : Nat)
  /-- The clock after a signal. -/
  | clockAgain (startedNs : Nat)
  | accept
  /-- `close(server_fd)`, with what `accept` gave. -/
  | closeServer (client : Option Peer)
  /-- `SO_PEERCRED`. -/
  | credentials (p : Peer)
  | unlink (p : Peer)
  | calloc (p : Peer)
  /-- The handle is returned, with a connection to `p`. -/
  | connected (p : Peer)
  /-- `NULL` is returned, after this. -/
  | failing (cleanup : List EndpointResource)
  /-- After `vw_ipc_close`. -/
  | closed

structure Meeting where
  point : ListenPoint
  resources : Handles EndpointResource
  /-- Whether the name's mode is that of `chmod`. -/
  ownerOnly : Bool
  /-- Whether the socket listens; who has connected waits in a queue. -/
  listening : Bool
  queue : List Peer
  nowNs : Nat

namespace Meeting

def start : Meeting where
  point := .socket
  resources := .empty
  ownerOnly := false
  listening := false
  queue := []
  nowNs := 0

def goto (s : Meeting) (point : ListenPoint) : Meeting := { s with point }

def acquire (s : Meeting) (r : EndpointResource) : Meeting := { s with resources := s.resources.acquire r }

/-- A socket that is closed does not listen. -/
def release (s : Meeting) (r : EndpointResource) : Meeting :=
  let s := { s with resources := s.resources.release r }
  if r = .serverFd then { s with listening := false, queue := [] } else s

/-! ## The worker -/

/-- `elapsed_ms`, of two readings of seconds and nanoseconds. -/
def elapsedMs (startedNs nowNs : Nat) : Int :=
  ((nowNs / 1000000000 : Nat) - (startedNs / 1000000000 : Nat) : Int) * 1000 +
    ((nowNs % 1000000000 : Nat) - (startedNs % 1000000000 : Nat) : Int).tdiv 1000000

inductive PollAnswer where
  | ready
  | timeout
  | interrupted
  | failed

/-- What the kernel answers: whether a call succeeds, and what `poll` returns with. -/
structure ListenReading where
  ok : Bool
  poll : PollAnswer

/-- `unlink(endpoint_name); close(server_fd); return NULL;` -/
def giveUp (s : Meeting) : Meeting := s.goto (.failing [.name, .serverFd])

/-- The next call of `vw_ipc_listen`, then of `vw_ipc_close`. -/
def listenStep (euid : Nat) (r : ListenReading) (s : Meeting) : Meeting :=
  match s.point with
  | .socket => if r.ok then (s.acquire .serverFd).goto .bind else s.goto (.failing [])
  | .bind => if r.ok then (s.acquire .name).goto .chmod else s.goto (.failing [.serverFd])
  | .chmod => if r.ok then { s with ownerOnly := true }.goto .listen else s.giveUp
  | .listen => if r.ok then { s with listening := true }.goto .clock else s.giveUp
  | .clock => if r.ok then s.goto (.poll s.nowNs (s.nowNs + 10000 * 1000000)) else s.giveUp
  | .poll startedNs _ =>
    match r.poll with
    | .ready => if s.queue = [] then s else s.goto .accept
    | .interrupted => s.goto (.clockAgain startedNs)
    | _ => s.giveUp
  | .clockAgain startedNs =>
    let elapsed := elapsedMs startedNs s.nowNs
    if !r.ok || 10000 ≤ elapsed then s.giveUp
    else s.goto (.poll startedNs (s.nowNs + (10000 - elapsed).toNat * 1000000))
  | .accept =>
    match r.ok, s.queue with
    | true, p :: rest => ({ s with queue := rest }.acquire .clientFd).goto (.closeServer (some p))
    | _, _ => s.goto (.closeServer none)
  | .closeServer none => (s.release .serverFd).goto (.failing [.name])
  | .closeServer (some p) => (s.release .serverFd).goto (.credentials p)
  | .credentials p => if r.ok && p.uid = euid then s.goto (.unlink p) else s.goto (.failing [.clientFd, .name])
  | .unlink p => (s.release .name).goto (.calloc p)
  | .calloc p => if r.ok then (s.acquire .handle).goto (.connected p) else s.goto (.failing [.clientFd])
  | .failing (resource :: rest) => (s.release resource).goto (.failing rest)
  | .failing [] => s
  | .connected _ => ((s.release .clientFd).release .handle).goto .closed
  | .closed => s

/-! ## Steps -/

inductive Step where
  /-- The worker, as the kernel answers. -/
  | worker (r : ListenReading)
  /-- `connect` in some process. -/
  | connect (p : Peer)
  | tick (ns : Nat)

/-- Who may connect to a name with the mode of `chmod`. -/
def Permitted (euid : Nat) (p : Peer) : Prop := p.uid = euid ∨ p.uid = 0

instance (euid : Nat) (p : Peer) : Decidable (Permitted euid p) := inferInstanceAs (Decidable (_ ∨ _))

/-- A `connect` joins the queue, or is refused. -/
def connectStep (euid : Nat) (p : Peer) (s : Meeting) : Meeting :=
  if s.resources.live .name ∧ s.listening ∧ (s.ownerOnly → Permitted euid p) then
    { s with queue := s.queue ++ [p] }
  else s

/-- Time goes by, but not past the end of a `poll`. -/
def tick (ns : Nat) (s : Meeting) : Meeting :=
  match s.point with
  | .poll _ untilNs => { s with nowNs := min (s.nowNs + ns) untilNs }
  | _ => { s with nowNs := s.nowNs + ns }

def step (euid : Nat) (s : Meeting) : Step → Meeting
  | .worker r => listenStep euid r s
  | .connect p => connectStep euid p s
  | .tick ns => tick ns s

/-! ## What the worker has -/

open EndpointResource in
/-- What is still needed at each call, or is to be given back. -/
def needed : ListenPoint → List EndpointResource
  | .socket => []
  | .bind => [serverFd]
  | .closeServer (some _) => [clientFd, serverFd, name]
  | .credentials _ => [clientFd, name]
  | .unlink _ => [clientFd, name]
  | .calloc _ => [clientFd]
  | .connected _ => [clientFd, handle]
  | .failing cleanup => cleanup
  | .closed => []
  | _ => [name, serverFd]

/-- Who has been accepted, and whether it is known whose process it is. -/
def accepted : ListenPoint → Option (Peer × Bool)
  | .closeServer client => client.map fun p => (p, false)
  | .credentials p => some (p, false)
  | .unlink p => some (p, true)
  | .calloc p => some (p, true)
  | .connected p => some (p, true)
  | _ => none

/-- A call of `poll` ends in time. -/
def waiting : ListenPoint → Nat → Prop
  | .poll startedNs untilNs, nowNs =>
    startedNs ≤ nowNs ∧ nowNs ≤ untilNs ∧ untilNs < startedNs + 10001 * 1000000
  | .clockAgain startedNs, nowNs => startedNs ≤ nowNs
  | _, _ => True

structure Private (euid : Nat) (connected : List Peer) (s : Meeting) : Prop where
  holds : Handles.Holds s.resources (needed s.point)
  nodup : (needed s.point).Nodup
  madePrivate : s.point = .listen → s.ownerOnly = true
  listening : s.listening = true → s.ownerOnly = true
  queue : ∀ p ∈ s.queue, Permitted euid p ∧ p ∈ connected
  accepted : ∀ p known, accepted s.point = some (p, known) →
    Permitted euid p ∧ p ∈ connected ∧ (known = true → p.uid = euid)
  waiting : waiting s.point s.nowNs

variable {euid : Nat} {connected : List Peer} {s t : Meeting}

theorem private_start : Private euid [] start where
  holds := Handles.holds_empty
  nodup := by simp [needed, start]
  madePrivate := by simp [start]
  listening := by simp [start]
  queue := by simp [start]
  accepted := by simp [accepted, start]
  waiting := trivial

theorem Private.advance (h : Private euid connected s) (hholds : Handles.Holds t.resources (needed t.point))
    (hnodup : (needed t.point).Nodup) (hprivate : t.point = .listen → t.ownerOnly = true) (hlistening : t.listening = true → t.ownerOnly = true)
    (hqueue : t.queue ⊆ s.queue)
    (haccepted : ∀ p known, Meeting.accepted t.point = some (p, known) → p ∈ s.queue ∧ known = false ∨
      ∃ k, Meeting.accepted s.point = some (p, k) ∧ (known = true → k = true ∨ p.uid = euid))
    (hwaiting : Meeting.waiting t.point t.nowNs) : Private euid connected t where
  holds := hholds
  nodup := hnodup
  madePrivate := hprivate
  listening := hlistening
  queue := fun p hp => h.queue p (hqueue hp)
  accepted := by
    intro p known hp
    rcases haccepted p known hp with ⟨hmem, hknown⟩ | ⟨k, hk, himp⟩
    · obtain ⟨hpermitted, hconnected⟩ := h.queue p hmem
      exact ⟨hpermitted, hconnected, by simp [hknown]⟩
    · obtain ⟨hpermitted, hconnected, huid⟩ := h.accepted p k hk
      exact ⟨hpermitted, hconnected, fun hknown => (himp hknown).elim huid id⟩
  waiting := hwaiting

theorem Private.goto (h : Private euid connected s) {point : ListenPoint} (hpoint : point ≠ .listen)
    (hneeded : needed point = needed s.point)
    (haccepted : ∀ p known, Meeting.accepted point = some (p, known) →
      ∃ k, Meeting.accepted s.point = some (p, k) ∧ (known = true → k = true ∨ p.uid = euid))
    (hwaiting : Meeting.waiting point s.nowNs) : Private euid connected (s.goto point) :=
  h.advance (hneeded ▸ h.holds) (hneeded ▸ h.nodup) (fun hlisten => absurd hlisten hpoint) h.listening (List.Subset.refl _)
    (fun p known hp => .inr (haccepted p known hp)) hwaiting

theorem elapsedMs_near (startedNs nowNs : Nat) :
    (nowNs : Int) - startedNs - 1000000 < elapsedMs startedNs nowNs * 1000000 ∧
      elapsedMs startedNs nowNs * 1000000 < (nowNs : Int) - startedNs + 1000000 := by
  have hdiv (n : Int) : n - 1000000 < n.tdiv 1000000 * 1000000 ∧ n.tdiv 1000000 * 1000000 < n + 1000000 := by
    have hsum := Int.tdiv_mul_add_tmod n 1000000
    have hlt := Int.tmod_lt_of_pos n (show (0 : Int) < 1000000 by decide)
    have hgt := Int.lt_tmod_of_pos n (show (0 : Int) < 1000000 by decide)
    omega
  obtain ⟨hlow, hhigh⟩ := hdiv ((nowNs % 1000000000 : Nat) - (startedNs % 1000000000 : Nat) : Int)
  unfold elapsedMs
  omega

/-- The wait after a signal ends as the first one would have. -/
theorem waiting_clockAgain {startedNs nowNs : Nat} (h : startedNs ≤ nowNs) (hlate : elapsedMs startedNs nowNs < 10000) :
    Meeting.waiting (.poll startedNs (nowNs + (10000 - elapsedMs startedNs nowNs).toNat * 1000000)) nowNs := by
  obtain ⟨hlow, hhigh⟩ := elapsedMs_near startedNs nowNs
  refine ⟨h, by omega, by omega⟩

theorem Private.giveUp (h : Private euid connected s) (hneeded : needed s.point = [.name, .serverFd]) :
    Private euid connected s.giveUp :=
  h.goto nofun hneeded.symm (by simp [Meeting.accepted]) trivial

theorem Private.release (h : Private euid connected s) {r : EndpointResource} (hr : r ∈ needed s.point)
    {point : ListenPoint} (hpoint : point ≠ .listen) (hneeded : needed point = (needed s.point).filter (· ≠ r))
    (haccepted : ∀ p known, Meeting.accepted point = some (p, known) →
      ∃ k, Meeting.accepted s.point = some (p, k) ∧ (known = true → k = true ∨ p.uid = euid))
    (hwaiting : Meeting.waiting point s.nowNs) : Private euid connected ((s.release r).goto point) := by
  have hholds := h.holds.release hr
  rw [← hneeded] at hholds
  have hnodup : (needed point).Nodup := hneeded ▸ h.nodup.filter _
  have hprivate {b : Bool} (hlisten : point = .listen) : b = true := absurd hlisten hpoint
  unfold Meeting.release
  dsimp only
  split
  · exact h.advance hholds hnodup hprivate (by simp [Meeting.goto]) (by simp [Meeting.goto])
      (fun p known hp => .inr (haccepted p known hp)) hwaiting
  · exact h.advance hholds hnodup hprivate h.listening (List.Subset.refl _)
      (fun p known hp => .inr (haccepted p known hp)) hwaiting

theorem Private.acquire (h : Private euid connected s) {r : EndpointResource} (hr : r ∉ needed s.point)
    {point : ListenPoint} (hpoint : point ≠ .listen) (hneeded : (needed point).Perm (r :: needed s.point))
    (haccepted : ∀ p known, Meeting.accepted point = some (p, known) →
      ∃ k, Meeting.accepted s.point = some (p, k) ∧ (known = true → k = true ∨ p.uid = euid))
    (hwaiting : Meeting.waiting point s.nowNs) : Private euid connected ((s.acquire r).goto point) := by
  have hholds : Handles.Holds (s.resources.acquire r) (needed point) :=
    (h.holds.acquire hr).congr fun _ => hneeded.symm.mem_iff
  have hnodup : (needed point).Nodup := hneeded.nodup_iff.mpr (List.nodup_cons.mpr ⟨hr, h.nodup⟩)
  exact h.advance hholds hnodup (fun hlisten => absurd hlisten hpoint) h.listening (List.Subset.refl _)
    (fun p known hp => .inr (haccepted p known hp)) hwaiting

theorem Private.worker (h : Private euid connected s) (r : ListenReading) :
    Private euid connected (listenStep euid r s) := by
  have hnone : ∀ {point : ListenPoint}, Meeting.accepted point = none → ∀ p known,
      Meeting.accepted point = some (p, known) →
        ∃ k, Meeting.accepted s.point = some (p, k) ∧ (known = true → k = true ∨ p.uid = euid) := by
    intro point hpoint p known hp
    rw [hpoint] at hp
    cases hp
  have hnodup := h.nodup
  have hwaiting := h.waiting
  cases hpoint : s.point with
  | socket =>
    simp only [listenStep, hpoint]
    split
    · exact h.acquire (by simp [hpoint, needed]) nofun (by simp [hpoint, needed]) (hnone rfl) trivial
    · exact h.goto nofun (by simp [hpoint, needed]) (hnone rfl) trivial
  | bind =>
    simp only [listenStep, hpoint]
    split
    · exact h.acquire (by simp [hpoint, needed]) nofun (by simp [hpoint, needed]) (hnone rfl) trivial
    · exact h.goto nofun (by simp [hpoint, needed]) (hnone rfl) trivial
  | chmod =>
    have hsame : needed s.point = needed .listen := by rw [hpoint]; rfl
    simp only [listenStep, hpoint]
    split
    · exact h.advance (hsame ▸ h.holds) (hsame ▸ hnodup) (fun _ => rfl) (fun _ => rfl) (List.Subset.refl _)
        (fun p known hp => .inr (hnone rfl p known hp)) trivial
    · exact h.giveUp (by rw [hpoint]; rfl)
  | listen =>
    have hsame : needed s.point = needed .clock := by rw [hpoint]; rfl
    simp only [listenStep, hpoint]
    split
    · exact h.advance (hsame ▸ h.holds) (hsame ▸ hnodup) nofun (fun _ => h.madePrivate hpoint) (List.Subset.refl _)
        (fun p known hp => .inr (hnone rfl p known hp)) trivial
    · exact h.giveUp (by rw [hpoint]; rfl)
  | clock =>
    simp only [listenStep, hpoint]
    split
    · exact h.goto nofun (by simp [hpoint, needed]) (hnone rfl) ⟨Nat.le_refl _, by omega, by omega⟩
    · exact h.giveUp (by rw [hpoint]; rfl)
  | poll startedNs untilNs =>
    rw [hpoint] at hwaiting
    simp only [listenStep, hpoint]
    split
    · split
      · exact h
      · exact h.goto nofun (by simp [hpoint, needed]) (hnone rfl) trivial
    · exact h.goto nofun (by simp [hpoint, needed]) (hnone rfl) hwaiting.1
    · exact h.giveUp (by rw [hpoint]; rfl)
  | clockAgain startedNs =>
    rw [hpoint] at hwaiting
    simp only [listenStep, hpoint]
    split
    · exact h.giveUp (by rw [hpoint]; rfl)
    · rename_i hgo
      simp only [Bool.or_eq_true, Bool.not_eq_true', decide_eq_true_eq, not_or, Bool.not_eq_false] at hgo
      exact h.goto nofun (by simp [hpoint, needed]) (hnone rfl) (waiting_clockAgain hwaiting (by omega))
  | accept =>
    simp only [listenStep, hpoint]
    split
    · rename_i p rest hok hqueue
      have hperm : (needed (.closeServer (some p))).Perm (.clientFd :: needed s.point) := by
        rw [hpoint]
        exact (List.Perm.swap _ _ _).cons _
      have hfresh : EndpointResource.clientFd ∉ needed s.point := by simp [hpoint, needed]
      have hholds : Handles.Holds (s.resources.acquire .clientFd) (needed (.closeServer (some p))) :=
        (h.holds.acquire hfresh).congr fun _ => hperm.symm.mem_iff
      refine h.advance hholds (hperm.nodup_iff.mpr (List.nodup_cons.mpr ⟨hfresh, hnodup⟩)) nofun h.listening ?_ ?_ trivial
      · rw [hqueue]
        exact List.subset_cons_self p rest
      · intro q known hq
        simp only [Meeting.accepted, Meeting.goto, Option.map_some, Option.some.injEq, Prod.mk.injEq] at hq
        obtain ⟨rfl, rfl⟩ := hq
        exact .inl ⟨by simp [hqueue], rfl⟩
    · exact h.goto nofun (by simp [hpoint, needed]) (hnone rfl) trivial
  | closeServer client =>
    cases client with
    | none =>
      simp only [listenStep, hpoint]
      exact h.release (by simp [hpoint, needed]) nofun (by simp [hpoint, needed]) (hnone rfl) trivial
    | some p =>
      simp only [listenStep, hpoint]
      exact h.release (by simp [hpoint, needed]) nofun (by simp [hpoint, needed])
        (by simp [hpoint, Meeting.accepted]) trivial
  | credentials p =>
    simp only [listenStep, hpoint]
    split
    · rename_i hsame
      simp only [Bool.and_eq_true, decide_eq_true_eq] at hsame
      exact h.goto nofun (by simp [hpoint, needed]) (by simp [hpoint, Meeting.accepted, hsame.2]) trivial
    · exact h.goto nofun (by simp [hpoint, needed]) (hnone rfl) trivial
  | unlink p =>
    simp only [listenStep, hpoint]
    exact h.release (by simp [hpoint, needed]) nofun (by simp [hpoint, needed])
      (by simp [hpoint, Meeting.accepted]) trivial
  | calloc p =>
    simp only [listenStep, hpoint]
    split
    · refine h.acquire (by simp [hpoint, needed]) nofun ?_ (by simp [hpoint, Meeting.accepted]) trivial
      rw [hpoint]
      exact List.Perm.swap _ _ _
    · exact h.goto nofun (by simp [hpoint, needed]) (hnone rfl) trivial
  | connected p =>
    simp only [listenStep, hpoint]
    have hclosed : Private euid connected ((s.release .clientFd).goto (.failing [.handle])) :=
      h.release (by simp [hpoint, needed]) nofun (by simp [hpoint, needed]) (hnone rfl) trivial
    have hfreed : Private euid connected ((((s.release .clientFd).goto (.failing [.handle])).release .handle).goto .closed) :=
      hclosed.release (by simp [needed, Meeting.goto]) nofun (by simp [needed, Meeting.goto])
        (by simp [Meeting.accepted]) trivial
    exact hfreed
  | failing cleanup =>
    cases cleanup with
    | nil =>
      simp only [listenStep, hpoint]
      exact h
    | cons resource rest =>
      simp only [listenStep, hpoint]
      rw [hpoint] at hnodup
      obtain ⟨hfresh, -⟩ := List.nodup_cons.mp hnodup
      have hrest : rest = (resource :: rest).filter (· ≠ resource) := by
        rw [List.filter_cons_of_neg (by simp)]
        refine (List.filter_eq_self.mpr fun other hother => ?_).symm
        have hne : other ≠ resource := fun heq => hfresh (heq ▸ hother)
        simpa using hne
      exact h.release (by simp [hpoint, needed]) nofun (by rw [hpoint]; exact hrest) (hnone rfl) trivial
  | closed =>
    simp only [listenStep, hpoint]
    exact h

/-! ## Those who connect -/

theorem Private.mono (h : Private euid connected s) (p : Peer) : Private euid (connected ++ [p]) s where
  holds := h.holds
  nodup := h.nodup
  madePrivate := h.madePrivate
  listening := h.listening
  queue := fun q hq => ⟨(h.queue q hq).1, List.mem_append_left _ (h.queue q hq).2⟩
  accepted := by
    intro q known hq
    obtain ⟨hpermitted, hconnected, huid⟩ := h.accepted q known hq
    exact ⟨hpermitted, List.mem_append_left _ hconnected, huid⟩
  waiting := h.waiting

theorem Private.connect (h : Private euid connected s) (p : Peer) :
    Private euid (connected ++ [p]) (connectStep euid p s) := by
  have hmono := h.mono p
  unfold connectStep
  split
  · rename_i hjoins
    obtain ⟨-, hlistening, hmode⟩ := hjoins
    refine { hmono with queue := ?_ }
    intro q hq
    rcases List.mem_append.mp hq with hq | hq
    · exact hmono.queue q hq
    · obtain rfl := List.mem_singleton.mp hq
      exact ⟨hmode (h.listening hlistening), by simp⟩
  · exact hmono

theorem Private.later (h : Private euid connected s) {nowNs : Nat} (hwaiting : Meeting.waiting s.point nowNs) :
    Private euid connected { s with nowNs } :=
  { h with waiting := hwaiting }

theorem Private.tick (h : Private euid connected s) (ns : Nat) : Private euid connected (Meeting.tick ns s) := by
  have hwaiting := h.waiting
  unfold Meeting.tick
  split
  · rename_i startedNs untilNs hpoint
    apply h.later
    rw [hpoint] at hwaiting ⊢
    obtain ⟨hstarted, huntil, hbound⟩ := hwaiting
    exact ⟨by omega, by omega, hbound⟩
  · rename_i hpoint
    apply h.later
    cases hs : s.point with
    | poll startedNs untilNs => exact absurd hs (hpoint startedNs untilNs)
    | clockAgain startedNs =>
      rw [hs] at hwaiting
      exact Nat.le_add_right_of_le hwaiting
    | _ => trivial

/-! ## Runs -/

/-- Who has connected, or tried to. -/
def Step.peer : Step → Option Peer
  | .connect p => some p
  | _ => none

theorem private_run (steps : List Step) (h : Private euid connected s) :
    Private euid (connected ++ steps.filterMap Step.peer) (run (step euid) s steps) := by
  induction steps generalizing s connected with
  | nil => simpa [run] using h
  | cons i steps ih =>
    cases i with
    | worker r => exact ih (h.worker r)
    | tick ns => exact ih (h.tick ns)
    | connect p =>
      have hnext := ih (h.connect p)
      rwa [List.append_assoc] at hnext

/-- **The processes meet in private.** Whatever the kernel answers, and whoever connects when: what the worker has is
what it needs, those who wait are its user's or root's, who is handed out is its user's, and it waits for less than
10.001 seconds. -/
theorem meeting_private (euid : Nat) (steps : List Step) :
    let s := run (step euid) start steps
    (s.resources.misused = false ∧ ∀ r, s.resources.live r = true ↔ r ∈ needed s.point) ∧
      (∀ p ∈ s.queue, p.uid = euid ∨ p.uid = 0) ∧
      (∀ p, s.point = .connected p → p.uid = euid ∧ .connect p ∈ steps) ∧
      ∀ startedNs untilNs, s.point = .poll startedNs untilNs →
        s.nowNs ≤ untilNs ∧ untilNs < startedNs + 10001 * 1000000 := by
  have h : Private euid ([] ++ steps.filterMap Step.peer) (run (step euid) start steps) :=
    private_run steps private_start
  refine ⟨⟨h.holds.sound, h.holds.live⟩, fun p hp => (h.queue p hp).1, ?_, ?_⟩
  · intro p hp
    obtain ⟨-, hconnected, huid⟩ := h.accepted p true (by rw [hp]; rfl)
    obtain ⟨i, hi, hpeer⟩ := List.mem_filterMap.mp (by simpa using hconnected)
    refine ⟨huid rfl, ?_⟩
    cases i with
    | connect q =>
      obtain rfl : q = p := by simpa [Step.peer] using hpeer
      exact hi
    | _ => cases hpeer
  · intro startedNs untilNs hpoint
    have hwaiting := h.waiting
    rw [hpoint] at hwaiting
    exact hwaiting.2

/-- Another user's process comes too early to be let in by its mode, and too late for its own; the plugin is served. -/
example :
    let call : Step := .worker ⟨true, .ready⟩
    (run (step 1000) start ([call, call, .connect ⟨33, 1⟩, call, call, call, .connect ⟨33, 2⟩, .connect ⟨1000, 3⟩] ++
      List.replicate 6 call)).point = .connected ⟨1000, 3⟩ := by
  rfl

end Meeting

end VlcWhisper.System
