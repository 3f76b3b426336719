import VlcWhisper.Worker.WorkerActions

/-!
# Translating a text (`vw_translate_text_detailed`)

The three services are tried one after the other under one deadline. A service fails with a cause, or gives a response
that its parser accepts; what it takes to send a request and what comes back is answered by `Services`.

Main result: `translateTextDetailed_explained`. A text is translated, or a failure says why it is not.
-/

namespace VlcWhisper.Worker

open VlcWhisper.Lib VlcWhisper.Protocol

def translateTimeoutMs : Nat := 800

/-! ## Requests -/

/-- Why a request failed: `g_http_failure_cause`, which is set to `transport` before each request. -/
inductive HttpFailure where
  | provider
  | transport
  | deadline
  | local

def HttpFailure.cause : HttpFailure → UInt8
  | .provider => failureProvider
  | .transport => failureTransport
  | .deadline => failureDeadline
  | .local => failureLocal

/-- What comes of a request: a response with a status of success, or a failure with the provider's status, if any. -/
inductive HttpReply where
  | response (raw : Bytes)
  | failed (why : HttpFailure) (providerStatus : UInt16)

/-- Whether the language tags fit their buffers, whether memory is there, whether a tier's request can be written down,
what comes of it, and the readings of the monotonic clock. -/
structure Services where
  encodeTags : Bool
  memory : Bool
  prepare : Tier → Bool
  request : Tier → HttpReply
  monotonicUs : Nat → Int

/-- A statement that may read the clock; the state is the number of readings. -/
abbrev Timed : Type → Type := StateM Nat

namespace Services

variable (s : Services)

/-- `get_monotonic_us`. -/
def readClock : Timed Int := fun n => (s.monotonicUs n, n + 1)

/-- `elapsed_to_u32`. -/
def elapsedToU32 (startedUs : Int) : Timed UInt32 := do
  let nowUs ← s.readClock
  pure (.ofNat (min (nowUs - startedUs).toNat (2 ^ 32 - 1)))

/-- `remaining_timeout_ms`: rounded up, so 0 only at the deadline. -/
def remainingTimeoutMs (deadlineUs : Int) : Timed Nat := do
  let nowUs ← s.readClock
  pure (min (((deadlineUs - nowUs).toNat + 999) / 1000) (2 ^ 32 - 1))

/-- `http_request`. -/
def httpRequest (tier : Tier) (deadlineUs : Int) : Timed HttpReply := do
  let timeoutMs ← s.remainingTimeoutMs deadlineUs
  pure (if timeoutMs = 0 then .failed .deadline 0 else s.request tier)

/-! ## Tiers -/

/-- A response that came in time, parsed in time; else the cause and the provider's status. -/
def parseReply (tier : Tier) (deadlineUs : Int) (raw : Bytes) : Timed (Except (UInt8 × UInt16) Bytes) := do
  let nowUs ← s.readClock
  if deadlineUs < nowUs then pure (.error (failureDeadline, 0))
  else match tier.parse (maxTextBytes + 1) raw with
    | none => pure (.error (failureParse, 0))
    | some translated => do
      let nowUs ← s.readClock
      pure (if deadlineUs < nowUs then .error (failureDeadline, 0) else .ok translated)

/-- What a tier gives. -/
def tryTier (tier : Tier) (deadlineUs : Int) : Timed (Except (UInt8 × UInt16) Bytes) := do
  if s.prepare tier then
    match ← s.httpRequest tier deadlineUs with
    | .failed why providerStatus => pure (.error (why.cause, providerStatus))
    | .response raw => s.parseReply tier deadlineUs raw
  else pure (.error (failureLocal, 0))

/-- The next tier is only tried if there is time left for it. -/
def isExpired (cause : UInt8) (deadlineUs : Int) : Timed Bool := do
  if cause = failureDeadline then pure true
  else do
    let timeoutMs ← s.remainingTimeoutMs deadlineUs
    pure (timeoutMs = 0)

/-- The bit of a tier in `attempted_tiers`. -/
def tierMask (tier : Tier) : UInt8 := 1 <<< (tier.code - 1)

/-- Try a tier, and after it the others. -/
def tryTiers (deadlineUs : Int) : List Tier → UInt8 → Tier → Timed (Except Failure (Tier × Bytes))
  | others, attempted, tier => do
    let attempted := attempted ||| tierMask tier
    match ← s.tryTier tier deadlineUs with
    | .ok translated => pure (.ok (tier, translated))
    | .error (cause, providerStatus) =>
      match others with
      | [] => pure (.error ⟨cause, tier.code, attempted, providerStatus⟩)
      | next :: others => do
        let expired ← s.isExpired cause deadlineUs
        if expired then pure (.error ⟨failureDeadline, tier.code, attempted, providerStatus⟩)
        else tryTiers deadlineUs others attempted next

/-- All tiers, if their requests can be prepared. -/
def runTiers (deadlineUs : Int) : Timed (Except Failure (Tier × Bytes)) :=
  if s.encodeTags && s.memory then s.tryTiers deadlineUs [.gtx, .mobileScrape] 0 .webRpc
  else pure (.error { Failure.zero with cause := failureLocal })

end Services

/-! ## The translation -/

/-- `vw_translate_text_detailed`. -/
def translateTextDetailed (s : Services) (text : Bytes) : Timed Outcome := do
  if text = [] then pure ⟨true, [], tierNone, 0, Failure.zero⟩
  else if translateMaxTextBytes < text.length then
    pure ⟨false, [], tierNone, 0, { Failure.zero with cause := failureLocal }⟩
  else do
    let startedUs ← s.readClock
    let deadlineUs := startedUs + translateTimeoutMs * 1000
    let translation ← s.runTiers deadlineUs
    let latencyUs ← s.elapsedToU32 startedUs
    pure (match translation with
      | .ok (tier, translated) => ⟨true, translated, tier.code, latencyUs, Failure.zero⟩
      | .error failure => ⟨false, [], tierNone, latencyUs, failure⟩)

/-- There is a text, or a cause. -/
def Explains {ε α : Type} (text : α → Bytes) (cause : ε → UInt8) : Except ε α → Prop
  | .ok a => text a ≠ []
  | .error e => cause e ≠ failureNone

/-- There is a translation, or a cause. -/
structure Outcome.Explained (o : Outcome) : Prop where
  translated : o.success = true → o.translatedText ≠ []
  failed : o.success = false → o.failure.cause ≠ failureNone

namespace Services

variable {s : Services} {deadlineUs : Int} {n : Nat}

theorem cause_ne_none (why : HttpFailure) : why.cause ≠ failureNone := by cases why <;> decide

theorem parseReply_ends (tier : Tier) (raw : Bytes) :
    Ends (s.parseReply tier deadlineUs raw) n fun result _ => Explains id Prod.fst result := by
  have hlate : failureDeadline ≠ failureNone := by decide
  unfold parseReply
  refine Ends.bind (P := fun _ _ => True) trivial fun nowUs m _ => Ends.ite (fun _ => hlate) fun _ => ?_
  cases hparse : tier.parse (maxTextBytes + 1) raw with
  | none => exact show failureParse ≠ failureNone by decide
  | some translated =>
    refine Ends.bind (P := fun _ _ => True) trivial fun nowUs m' _ => ?_
    by_cases hnow : deadlineUs < nowUs
    · rw [if_pos hnow]
      exact hlate
    · rw [if_neg hnow]
      exact (Tier.parse_bounds hparse).1

theorem tryTier_ends (tier : Tier) :
    Ends (s.tryTier tier deadlineUs) n fun result _ => Explains id Prod.fst result := by
  unfold tryTier
  refine Ends.ite (fun _ => ?_) fun _ => show failureLocal ≠ failureNone by decide
  refine Ends.bind (P := fun _ _ => True) trivial fun reply m _ => ?_
  cases reply with
  | failed why status => exact cause_ne_none why
  | response raw => exact parseReply_ends tier raw

theorem tryTiers_ends (others : List Tier) (attempted : UInt8) (tier : Tier) :
    Ends (s.tryTiers deadlineUs others attempted tier) n fun result _ => Explains Prod.snd Failure.cause result := by
  induction others generalizing attempted tier n with
  | nil =>
    unfold tryTiers
    refine (tryTier_ends tier).bind fun result m hresult => ?_
    cases result with
    | ok translated => exact hresult
    | error e => exact hresult
  | cons next others ih =>
    unfold tryTiers
    refine (tryTier_ends tier).bind fun result m hresult => ?_
    cases result with
    | ok translated => exact hresult
    | error e =>
      refine Ends.bind (P := fun _ _ => True) trivial fun expired m' _ => Ends.ite (fun _ => ?_) fun _ => ih _ _
      exact show failureDeadline ≠ failureNone by decide

theorem runTiers_ends (deadlineUs : Int) :
    Ends (s.runTiers deadlineUs) n fun result _ => Explains Prod.snd Failure.cause result := by
  unfold runTiers
  exact Ends.ite (fun _ => tryTiers_ends _ _ _) fun _ => show failureLocal ≠ failureNone by decide

end Services

/-- A text that is not empty is translated, or a failure says why it is not. -/
theorem translateTextDetailed_explained (s : Services) {text : Bytes} (htext : text ≠ []) (n : Nat) :
    Ends (translateTextDetailed s text) n fun o _ => o.Explained := by
  have hlocal : failureLocal ≠ failureNone := by decide
  unfold translateTextDetailed
  rw [if_neg htext]
  refine Ends.ite (fun _ => ⟨nofun, fun _ => hlocal⟩) fun _ => ?_
  refine Ends.bind (P := fun _ _ => True) trivial fun startedUs m _ => ?_
  refine (Services.runTiers_ends _).bind fun result m' hresult => ?_
  refine Ends.bind (P := fun _ _ => True) trivial fun latencyUs m'' _ => ?_
  cases result with
  | ok r => exact ⟨fun _ => hresult, nofun⟩
  | error failure => exact ⟨nofun, fun _ => hresult⟩

end VlcWhisper.Worker
