import VlcWhisper.Lib.Handles
import VlcWhisper.Lib.Machine
import VlcWhisper.Lib.Program
import Mathlib.Data.List.Nodup

/-!
# The plugin's child processes (`vw_platform_linux.c`)

A child that has exited stays in the kernel's table until it is waited for, and its pid may then be given to any other
process. The client holds the workers that it launched, a detached thread waits for a child that nobody holds, and a
child that could not be reaped in time is kept in a table of sixteen, which every later call tries to empty.

The functions take their mutex for the whole loop over the table, so that a call is not disturbed by another. What
`waitpid` finds is the world's choice, as are the pids that the kernel gives. The callers' timeouts are seconds, far
from the end of `uint32_t`.
-/

namespace VlcWhisper.Plugin

open VlcWhisper.Lib

/-! ## State -/

/-- `VW_MAX_UNREAPED_PIDS`. -/
def maxUnreapedPids : Nat := 16

inductive WaitStatus where
  | reaped | running
  /-- `ECHILD`. -/
  | noChild
deriving DecidableEq

/-- The kernel's table of the plugin's children, and who keeps their pids. -/
structure Platform where
  /-- The children that were not reaped. -/
  children : Handles Nat
  /-- Whether a child has exited by the time of each `waitpid` to come; after these, none has. -/
  exits : List Bool
  /-- `vw_unreaped_pids`, as far as `vw_unreaped_count`. -/
  unreaped : List Nat
  /-- With a detached reaper each. -/
  detached : List Nat
  /-- `worker_process` of the clients, and of launches that have not got a client yet. -/
  held : List Nat
  /-- Given up while the table was full. -/
  forgotten : List Nat
  /-- The calls of `waitpid` in the loops over the table, and whether they reaped. -/
  tests : List (Nat × Bool)

abbrev PlatformM := StateM Platform

namespace Platform

def start (exits : List Bool) : Platform where
  children := .empty
  exits := exits
  unreaped := []
  detached := []
  held := []
  forgotten := []
  tests := []

/-! ## The kernel -/

/-- `waitpid(pid, &status, WNOHANG)`. -/
def waitpid (pid : Nat) : PlatformM WaitStatus := fun s =>
  if s.children.live pid then
    match s.exits with
    | true :: rest => (.reaped, { s with exits := rest, children := s.children.release pid })
    | _ :: rest => (.running, { s with exits := rest })
    | [] => (.running, s)
  else (.noChild, { s with children := s.children.use pid })

/-- `kill(pid, SIGKILL)`. -/
def kill (pid : Nat) : PlatformM Unit := modify fun s => { s with children := s.children.use pid }

/-- `posix_spawn`: the pid of a child that was not reaped is not given again. -/
def posixSpawn (started : Option Nat) : PlatformM (Option Nat) := fun s =>
  match started with
  | none => (none, s)
  | some pid =>
    if pid = 0 || s.children.live pid then (none, s)
    else (some pid, { s with children := s.children.acquire pid })

/-! ## The table -/

/-- `vw_platform_register_unreaped`. -/
def registerUnreaped (pid : Nat) : PlatformM Unit :=
  if pid = 0 then pure ()
  else modify fun s =>
    if s.unreaped.length < maxUnreapedPids then { s with unreaped := s.unreaped ++ [pid] }
    else { s with forgotten := s.forgotten ++ [pid] }

/-- `vw_unreaped_pids[i] = vw_unreaped_pids[vw_unreaped_count - 1]; vw_unreaped_count--`. -/
def swapRemove (pids : List Nat) (i : Nat) : List Nat :=
  match pids.getLast? with
  | none => pids
  | some last => (pids.set i last).dropLast

/-- The loop of `vw_platform_reap_unreaped` from index `i`. Each round passes over an entry or removes one. -/
def reapFrom : Nat → Nat → PlatformM Unit
  | 0, _ => pure ()
  | rounds + 1, i => do
    let s ← get
    match s.unreaped[i]? with
    | none => pure ()
    | some pid => do
      let status ← waitpid pid
      modify fun s => { s with tests := s.tests ++ [(pid, decide (status ≠ .running))] }
      if status = .running then reapFrom rounds (i + 1)
      else do
        modify fun s => { s with unreaped := swapRemove s.unreaped i }
        reapFrom rounds i

/-- `vw_platform_reap_unreaped`. -/
def reapUnreaped : PlatformM Unit := do
  let s ← get
  reapFrom s.unreaped.length 0

/-! ## Processes -/

/-- `vw_platform_reap_detached`: without a thread the pid goes to the table. -/
def reapDetached (pid : Nat) (threadStarts : Bool) : PlatformM Unit :=
  if threadStarts then modify fun s => { s with detached := s.detached ++ [pid] } else registerUnreaped pid

/-- `vw_platform_spawn_process`; `started` is the pid, if the path is one to start and the kernel starts it. -/
def spawnProcess (started : Option Nat) (outProcess threadStarts : Bool) : PlatformM Bool := do
  reapUnreaped
  match ← posixSpawn started with
  | none => pure false
  | some pid => do
    if outProcess then modify fun s => { s with held := s.held ++ [pid] } else reapDetached pid threadStarts
    pure true

/-- The loop of `vw_platform_wait_process`. -/
def waitLoop (pid timeoutMs elapsedMs : Nat) : PlatformM Bool := do
  if timeoutMs < elapsedMs then pure false
  else do
    let status ← waitpid pid
    if status ≠ .running then pure true
    else if timeoutMs ≤ elapsedMs then pure false
    else waitLoop pid timeoutMs (elapsedMs + 10)
termination_by timeoutMs - elapsedMs
decreasing_by omega

/-- `vw_platform_wait_process`. -/
def waitProcess (pid timeoutMs : Nat) : PlatformM Bool := do
  if pid = 0 then pure false
  else do
    reapUnreaped
    waitLoop pid timeoutMs 0

/-- `vw_platform_terminate_process`. -/
def terminateProcess (pid : Nat) : PlatformM Unit := do
  if pid = 0 then pure ()
  else do
    reapUnreaped
    kill pid
    if ← waitProcess pid 1000 then pure () else registerUnreaped pid

/-- How the client ends a worker, after a launch that fails and in `vw_worker_client_disconnect`. -/
def endWorker (pid timeoutMs : Nat) : PlatformM Unit := do
  modify fun s => { s with held := s.held.erase pid }
  if ← waitProcess pid timeoutMs then pure () else terminateProcess pid

/-! ## Runs -/

inductive Turn where
  /-- A worker is launched. -/
  | launch (started : Option Nat)
  /-- A process that nobody waits for. -/
  | spawn (started : Option Nat) (threadStarts : Bool)
  /-- The client ends the worker that it has held for `n` others. -/
  | endWorker (n timeoutMs : Nat)
  /-- The child of a detached reaper exits. -/
  | detachedExits (n : Nat)

def turn : Turn → PlatformM Unit
  | .launch started => do
    let _ ← spawnProcess started true true
    pure ()
  | .spawn started threadStarts => do
    let _ ← spawnProcess started false threadStarts
    pure ()
  | .endWorker n timeoutMs => do
    let s ← get
    match s.held[n]? with
    | none => pure ()
    | some pid => endWorker pid timeoutMs
  | .detachedExits n => modify fun s =>
    match s.detached[n]? with
    | none => s
    | some pid => { s with children := s.children.release pid, detached := s.detached.erase pid }

def step (s : Platform) (t : Turn) : Platform := ((turn t).run s).2

end Platform

end VlcWhisper.Plugin
