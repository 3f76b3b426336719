import VlcWhisper.Lib.Attempt
import VlcWhisper.Lib.Handles
import VlcWhisper.Worker.TranslateText

/-!
# A request over HTTP (`posix_http_request`)

The request is made by another program. It is given the text on its standard input and asked for the response on its
standard output; both are pipes, which are served as they become ready until the deadline. `Os` answers the system
calls; a ledger (`Handles`) records what is held of the system and what is used or released that is not.
-/

namespace VlcWhisper.Worker

open VlcWhisper.Lib VlcWhisper.Protocol Attempt

/-! ## The system -/

inductive Resource where
  | sigpipe
  | outRead
  | outWrite
  | inRead
  | inWrite
  | actions
  | attr
  | child
  deriving DecidableEq

/-- `poll`: what is ready is the output to read, or the input to write, unless nobody reads it any more. -/
inductive PollReply where
  | ready (output inputGone input : Bool)
  | timeout
  | interrupted
  | failed

inductive ReadReply where
  | data (first : UInt8) (more : Bytes)
  | eof
  | again
  | interrupted
  | failed

inductive WriteReply where
  | wrote (n : Nat)
  | again
  | interrupted
  | failed

inductive WaitReply where
  | exited (code : Nat)
  | signaled
  | running
  | interrupted
  | gone

/-- What a system call is answered, each looking at its own part. -/
structure OsReply where
  ok : Bool
  nowUs : Int
  poll : PollReply
  read : ReadReply
  write : WriteReply
  wait : WaitReply

/-- The answer to the `n`-th call. -/
abbrev Os : Type := Nat → OsReply

/-! ## State -/

structure HttpRequest where
  baseUrl : Bytes
  postBody : Option Bytes
  queryText : Option Bytes
  contentType : Option Bytes
  bufSize : Nat
  deadlineUs : Int

/-- `input_payload`. -/
def HttpRequest.inputPayload (r : HttpRequest) : Option Bytes := r.postBody <|> r.queryText

def HttpRequest.hasInput (r : HttpRequest) : Bool := r.inputPayload.isSome

def HttpRequest.payload (r : HttpRequest) : Bytes := r.inputPayload.getD []

/-- The variables of the exchange, what the other process was given and gave, and how many calls were made. -/
structure Http where
  handles : Handles Resource
  calls : Nat
  /-- `out_buf`, up to `total_read`. -/
  outBuf : Bytes
  overflow : Bool
  written : Nat
  inOpen : Bool
  outOpen : Bool
  writeFailed : Bool
  /-- The status that was waited for, if `waited == pid`. -/
  waited : Option WaitReply
  argv : Option (List Bytes)
  stdin : Bytes
  stdout : Bytes

def Http.start : Http where
  handles := .empty
  calls := 0
  outBuf := []
  overflow := false
  written := 0
  inOpen := false
  outOpen := false
  writeFailed := false
  waited := none
  argv := none
  stdin := []
  stdout := []

abbrev HttpM : Type → Type := Attempt Http

namespace Http

def acquire (x : Resource) : HttpM Unit := modify fun s => { s with handles := s.handles.acquire x }

def use (x : Resource) : HttpM Unit := modify fun s => { s with handles := s.handles.use x }

def releaseAll (xs : List Resource) : HttpM Unit :=
  modify fun s => { s with handles := xs.foldl Handles.release s.handles }

/-- The failures before anything is exchanged. -/
def giveUp (xs : List Resource) : HttpM HttpReply := do
  releaseAll xs
  pure (.failed .local 0)

variable (os : Os)

def call : HttpM OsReply := do
  let s ← get
  modify fun s => { s with calls := s.calls + 1 }
  pure (os s.calls)

/-- `get_monotonic_us`. -/
def readClock : HttpM Int := do
  let reply ← call os
  pure reply.nowUs

/-- `remaining_timeout_ms`. -/
def remainingTimeoutMs (deadlineUs : Int) : HttpM Nat := do
  let nowUs ← readClock os
  pure (min (((deadlineUs - nowUs).toNat + 999) / 1000) (2 ^ 32 - 1))

def openPipe (reader writer : Resource) : HttpM Bool := do
  let reply ← call os
  when reply.ok do
    acquire reader
    acquire writer
  pure reply.ok

/-- `set_cloexec`, `set_nonblocking`. -/
def control (x : Resource) : HttpM Bool := do
  use x
  let reply ← call os
  pure reply.ok

/-- The second one only if the first one is done. -/
def setCloexec (reader writer : Resource) : HttpM Bool := do
  if ← control os reader then control os writer else pure false

/-! ## The exchange -/

/-- One `read`. -/
def readRound (bufSize : Nat) : HttpM Bool := do
  use .outRead
  let reply ← call os
  match reply.read with
  | .data first more =>
    modify fun s =>
      if s.outBuf.length + 1 < bufSize then
        let got := (first :: more).take (bufSize - 1 - s.outBuf.length)
        { s with outBuf := s.outBuf ++ got, stdout := s.stdout ++ got }
      else { s with overflow := true, stdout := s.stdout ++ [first] }
    pure false
  | .interrupted => pure false
  | .again => pure true
  | .eof | .failed =>
    releaseAll [.outRead]
    modify fun s => { s with outOpen := false }
    pure true

/-- The pipe to the other process is closed. -/
def closeInput (failed : Bool) : HttpM Unit := do
  releaseAll [.inWrite]
  modify fun s => { s with inOpen := false, writeFailed := s.writeFailed || failed }

/-- One `write`. -/
def writeRound (payload : Bytes) : HttpM Bool := do
  use .inWrite
  let reply ← call os
  match reply.write with
  | .wrote n =>
    modify fun s =>
      let piece := (payload.drop s.written).take n
      { s with written := s.written + piece.length, stdin := s.stdin ++ piece }
    let s ← get
    if payload.length ≤ s.written then
      closeInput false
      pure true
    else pure false
  | .interrupted => pure false
  | .again => pure true
  | .failed =>
    closeInput true
    pure true

/-- What `poll` has found is read and written. -/
def serve (rounds : Nat) (r : HttpRequest) (output inputGone input : Bool) : HttpM Unit := do
  let s ← get
  when (s.outOpen && output) (repeatUntil rounds (readRound os r.bufSize))
  let s ← get
  when s.inOpen do
    if inputGone then closeInput (decide (s.written < r.payload.length))
    else when (input && decide (s.written < r.payload.length)) (repeatUntil rounds (writeRound os r.payload))

/-- A round of the exchange; it is over if both pipes are closed, at the deadline or if `poll` fails. -/
def exchangeRound (rounds : Nat) (r : HttpRequest) : HttpM Bool := do
  let s ← get
  if !(s.inOpen || s.outOpen) then pure true
  else do
    let nowUs ← readClock os
    if r.deadlineUs < nowUs ∨ (r.deadlineUs - nowUs) / 1000 ≤ 0 then pure true
    else do
      when s.inOpen (use .inWrite)
      when s.outOpen (use .outRead)
      let reply ← call os
      match reply.poll with
      | .interrupted | .timeout => pure false
      | .failed => pure true
      | .ready output inputGone input =>
        serve os rounds r output inputGone input
        pure false

/-! ## Waiting -/

/-- One `waitpid`: a child that has ended is not waited for again. Without `WNOHANG` the call waits while it runs. -/
def waitRound : HttpM Bool := do
  use .child
  let reply ← call os
  match reply.wait with
  | .running | .interrupted => pure false
  | .gone =>
    releaseAll [.child]
    pure true
  | status =>
    releaseAll [.child]
    modify fun s => { s with waited := some status }
    pure true

/-- One round of the loop that waits: after the deadline and a tenth of a second the child is killed. -/
def awaitRound (rounds : Nat) (r : HttpRequest) : HttpM Bool := do
  use .child
  let reply ← call os
  match reply.wait with
  | .interrupted => pure false
  | .gone =>
    releaseAll [.child]
    pure true
  | .running => do
    let nowUs ← readClock os
    if r.deadlineUs + 100000 < nowUs then
      use .child
      repeatUntil rounds (waitRound os)
      pure true
    else pure false
  | status =>
    releaseAll [.child]
    modify fun s => { s with waited := some status }
    pure true

/-! ## The reply -/

def isDigit (c : UInt8) : Bool := 0x30 ≤ c && c ≤ 0x39

/-- The line with the status at the end, and what is before it. -/
def splitStatus (outBuf : Bytes) : Option (Bytes × Nat) :=
  match outBuf.reverse with
  | d3 :: d2 :: d1 :: 0x0A :: rest =>
    if isDigit d1 && isDigit d2 && isDigit d3 then
      some (rest.reverse, (d1.toNat - 0x30) * 100 + (d2.toNat - 0x30) * 10 + (d3.toNat - 0x30))
    else none
  | _ => none

/-- The child ended with this code. -/
def Exited (s : Http) (code : Nat) : Prop := s.waited = some (.exited code)

instance (s : Http) (code : Nat) : Decidable (s.Exited code) :=
  match h : s.waited with
  | some (.exited c) => decidable_of_iff (c = code) (by simp [Exited, h])
  | some .signaled | some .running | some .interrupted | some .gone | none => .isFalse (by simp [Exited, h])

/-- The status is one of success, and all of the response is there. -/
def complete (s : Http) : Bool :=
  !s.overflow && !s.writeFailed && decide (s.Exited 0) &&
    (splitStatus s.outBuf).any fun reply => reply.1 ≠ [] && 200 ≤ reply.2 && reply.2 < 300

/-- Why a request has failed that was made. -/
def failure (s : Http) (timeoutMs : Nat) : HttpFailure :=
  if timeoutMs = 0 ∨ s.Exited 28 then .deadline
  else if (splitStatus s.outBuf).any fun reply => reply.2 < 200 || 300 ≤ reply.2 then .provider
  else if s.Exited 22 then .provider
  else .transport

/-- What comes of it. The clock is only read again if all else is well. -/
def conclude (r : HttpRequest) : HttpM HttpReply := do
  let s ← get
  let reply := splitStatus s.outBuf
  let ok ← if s.complete then do
      let nowUs ← readClock os
      pure (decide (nowUs ≤ r.deadlineUs))
    else pure false
  if ok then pure (.response ((reply.map (·.1)).getD []))
  else do
    let timeoutMs ← remainingTimeoutMs os r.deadlineUs
    pure (.failed (s.failure timeoutMs) (.ofNat ((reply.map (·.2)).getD 0)))

/-! ## The request -/

/-- The pipe to the other process does not block, if there is one. -/
def controlInput (r : HttpRequest) : HttpM Bool := if r.hasInput then control os .inWrite else pure true

/-- The other process is running: serve it and wait for it. -/
def runCurl (rounds : Nat) (r : HttpRequest) : HttpM HttpReply := do
  let outOk ← control os .outRead
  let inOk ← controlInput os r
  if !(outOk && inOk) then do
    releaseAll (.outRead :: if r.hasInput then [.inWrite] else [])
    use .child
    repeatUntil rounds (waitRound os)
    giveUp [.sigpipe]
  else do
    modify fun s => { s with inOpen := r.hasInput, outOpen := true }
    when (r.hasInput && r.payload = []) (closeInput false)
    repeatUntil rounds (exchangeRound os rounds r)
    let s ← get
    releaseAll ((if s.inOpen then [.inWrite] else []) ++ (if s.outOpen then [.outRead] else []) ++ [.sigpipe])
    repeatUntil rounds (awaitRound os rounds r)
    conclude os r

def userAgent : Bytes :=
  ascii ("Mozilla/5.0 (Windows NT 10.0; Win64; x64) AppleWebKit/537.36 (KHTML, like Gecko) " ++
    "Chrome/124.0.0.0 Safari/537.36")

/-- `ct_header`. -/
def HttpRequest.ctHeader (contentType : Bytes) : Bytes := ascii "Content-Type: " ++ contentType

/-- `argv`, for this program. The text itself is not in it. -/
def curlArgv (curl : Bytes) (r : HttpRequest) (timeoutMs : Nat) : List Bytes :=
  [curl, ascii "--disable", ascii "-f", ascii "-sS", ascii "--proto", ascii "=https", ascii "-m",
    digits 10 1 (timeoutMs / 1000) ++ ascii "." ++ digits 10 3 (timeoutMs % 1000), ascii "-A", userAgent] ++
  (match r.contentType with
   | some contentType => [ascii "-H", HttpRequest.ctHeader contentType]
   | none => []) ++
  (if r.postBody.isSome then [ascii "-X", ascii "POST", ascii "--data-binary", ascii "@-"]
   else if r.queryText.isSome then [ascii "--get", ascii "--data-urlencode", ascii "q@-"]
   else []) ++
  [ascii "-w", ascii "\n%\x7bresponse_code\x7d", r.baseUrl]

/-- The other process is started. -/
def spawnCurl (curl : Bytes) (rounds : Nat) (r : HttpRequest) (timeoutMs : Nat) : HttpM HttpReply := do
  let pipes := [Resource.outRead, .outWrite] ++ (if r.hasInput then [.inRead, .inWrite] else [])
  if r.contentType.any fun contentType => 256 ≤ (HttpRequest.ctHeader contentType).length then
    giveUp (pipes ++ [.sigpipe])
  else do
    let init ← call os
    if !init.ok then giveUp (pipes ++ [.sigpipe])
    else do
      acquire .actions
      let attr ← call os
      when attr.ok (acquire .attr)
      let spawned ← call os
      when spawned.ok do
        acquire .child
        modify fun s => { s with argv := some (curlArgv curl r timeoutMs) }
      releaseAll (.actions :: ((if attr.ok then [.attr] else []) ++ .outWrite :: if r.hasInput then [.inRead] else []))
      if !spawned.ok then giveUp (.outRead :: ((if r.hasInput then [.inWrite] else []) ++ [.sigpipe]))
      else runCurl os rounds r

/-- `posix_http_request`, with so many rounds of each loop. -/
def request (curl : Bytes) (rounds : Nat) (r : HttpRequest) : HttpM HttpReply := do
  if r.bufSize < 2 then pure (.failed .local 0)
  else do
    let timeoutMs ← remainingTimeoutMs os r.deadlineUs
    if timeoutMs = 0 then pure (.failed .deadline 0)
    else do
      acquire .sigpipe
      if !(← openPipe os .outRead .outWrite) then giveUp [.sigpipe]
      else if !(← setCloexec os .outRead .outWrite) then giveUp [.outRead, .outWrite, .sigpipe]
      else if r.hasInput then
        if !(← openPipe os .inRead .inWrite) then giveUp [.outRead, .outWrite, .sigpipe]
        else if !(← setCloexec os .inRead .inWrite) then giveUp [.inRead, .inWrite, .outRead, .outWrite, .sigpipe]
        else spawnCurl os curl rounds r timeoutMs
      else spawnCurl os curl rounds r timeoutMs

end Http

end VlcWhisper.Worker
