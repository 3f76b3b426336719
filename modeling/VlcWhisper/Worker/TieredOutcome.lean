import Mathlib
import VlcWhisper.Worker.TranslateText

/-!
# What a tiered translation comes to (`vw_translate_text_detailed`)

A tier answers or fails, and both are known by a reading of the clock. The translation should be that of the first
tier that answers in time, after tiers that failed before the deadline, and else be blamed on the last tier that was
tried, or on the deadline if it has passed once that tier's failure is known.

Main result: `tiered_outcome`. That is so if and only if it is not the last of the tiers that fails, for another
cause, with the deadline passed: behind the other two the clock is read again, behind the last it is not.
-/

namespace VlcWhisper.Worker

open VlcWhisper.Lib VlcWhisper.Protocol

/-- The tiers, in the order in which they are tried. -/
def allTiers : List Tier := [.webRpc, .gtx, .mobileScrape]

namespace Services

variable (s : Services) (deadlineUs : Int)

/-! ## Tiers -/

/-- From reading `n` the tier gives a text in time, and `k` is the next reading. -/
structure Answers (tier : Tier) (n : Nat) (translated : Bytes) (k : Nat) : Prop where
  prepared : s.prepare tier = true
  sent : s.monotonicUs n < deadlineUs
  parsed : ∃ raw, s.request tier = .response raw ∧ tier.parse (maxTextBytes + 1) raw = some translated
  inTime : s.monotonicUs (n + 2) ≤ deadlineUs
  read : k = n + 3

/-- From reading `n` the tier fails, with a cause and the provider's status, and `k` is the next reading. -/
inductive Fails (tier : Tier) (n : Nat) : UInt8 × UInt16 → Nat → Prop
  | unprepared (h : s.prepare tier = false) : Fails tier n (failureLocal, 0) n
  | unsent (hprepare : s.prepare tier = true) (h : deadlineUs ≤ s.monotonicUs n) :
      Fails tier n (failureDeadline, 0) (n + 1)
  | refused {why : HttpFailure} {status : UInt16} (hprepare : s.prepare tier = true)
      (hsent : s.monotonicUs n < deadlineUs)
    (h : s.request tier = .failed why status) : Fails tier n (why.cause, status) (n + 1)
  | late {raw : Bytes} (hprepare : s.prepare tier = true) (hsent : s.monotonicUs n < deadlineUs)
    (hrequest : s.request tier = .response raw) (h : deadlineUs < s.monotonicUs (n + 1)) :
    Fails tier n (failureDeadline, 0) (n + 2)
  | unparsed {raw : Bytes} (hprepare : s.prepare tier = true) (hsent : s.monotonicUs n < deadlineUs)
    (hrequest : s.request tier = .response raw) (hread : s.monotonicUs (n + 1) ≤ deadlineUs)
    (h : tier.parse (maxTextBytes + 1) raw = none) : Fails tier n (failureParse, 0) (n + 2)
  | parsedLate {raw translated : Bytes} (hprepare : s.prepare tier = true) (hsent : s.monotonicUs n < deadlineUs)
    (hrequest : s.request tier = .response raw) (hread : s.monotonicUs (n + 1) ≤ deadlineUs)
    (hparse : tier.parse (maxTextBytes + 1) raw = some translated) (h : deadlineUs < s.monotonicUs (n + 2)) :
    Fails tier n (failureDeadline, 0) (n + 3)

/-- From reading `n` all of these tiers fail before the deadline, and `k` is the next reading. -/
inductive FailInTime : Nat → List Tier → Nat → Prop
  | nil {n : Nat} : FailInTime n [] n
  | cons {n m k : Nat} {tier : Tier} {tiers : List Tier} {e : UInt8 × UInt16} (hfails : Fails s deadlineUs tier n e m)
    (hcause : e.1 ≠ failureDeadline) (htime : s.monotonicUs m < deadlineUs) (hrest : FailInTime (m + 1) tiers k) :
    FailInTime n (tier :: tiers) k

end Services

/-! ## The outcome -/

/-- The tiers are tried. -/
structure Begins (s : Services) (text : Bytes) : Prop where
  fits : text.length ≤ translateMaxTextBytes
  encoded : s.encodeTags = true
  memory : s.memory = true

/-- The deadline of a translation that starts with reading `n`. -/
def deadlineAt (s : Services) (n : Nat) : Int := s.monotonicUs n + translateTimeoutMs * 1000

/-- A tier gives a text in time, after tiers that failed before the deadline. -/
def AnsweredBy (s : Services) (text : Bytes) (n : Nat) (tier : Tier) (translated : Bytes) : Prop :=
  Begins s text ∧ ∃ earlier later m k, allTiers = earlier ++ tier :: later ∧
    s.FailInTime (deadlineAt s n) (n + 1) earlier m ∧ s.Answers (deadlineAt s n) tier m translated k

/-- The bits of some tiers. -/
def tiersMask (tiers : List Tier) : UInt8 := tiers.foldl (fun mask tier => mask ||| Services.tierMask tier) 0

/-- What a failure should say, if `last` failed with `e` after the tiers `earlier`, and reading `k` is the next. -/
def blameOf (s : Services) (deadlineUs : Int) (earlier : List Tier) (last : Tier) (e : UInt8 × UInt16) (k : Nat) : Failure where
  cause := if deadlineUs ≤ s.monotonicUs k then failureDeadline else e.1
  terminalTier := last.code
  attemptedTiers := tiersMask (earlier ++ [last])
  providerStatus := e.2

/-- The failure of a translation for which no tier is tried, or which stopped at a tier, the others having failed
before. -/
def BlamesTier (s : Services) (text : Bytes) (n : Nat) (failure : Failure) : Prop :=
  (¬ Begins s text ∧ failure = { Failure.zero with cause := failureLocal }) ∨
    (Begins s text ∧ ∃ earlier last later m e k, allTiers = earlier ++ last :: later ∧
      s.FailInTime (deadlineAt s n) (n + 1) earlier m ∧ s.Fails (deadlineAt s n) last m e k ∧
      (later ≠ [] → e.1 = failureDeadline ∨ deadlineAt s n ≤ s.monotonicUs k) ∧
      failure = blameOf s (deadlineAt s n) earlier last e k)

/-- What should come of a translation that starts with reading `n`. -/
structure TieredOutcome (s : Services) (text : Bytes) (n : Nat) (o : Outcome) : Prop where
  answered : o.success = true → ∃ tier translated, AnsweredBy s text n tier translated
  translated : ∀ tier translated, AnsweredBy s text n tier translated →
    o.success = true ∧ o.translatedText = translated ∧ o.tier = tier.code
  failed : o.success = false → o.translatedText = [] ∧ o.tier = tierNone ∧ BlamesTier s text n o.failure

/-- The last of the tiers fails for another cause than the deadline, and the next reading is not before the deadline. -/
def LastFailsLate (s : Services) (text : Bytes) (n : Nat) : Prop :=
  Begins s text ∧ ∃ m e k, s.FailInTime (deadlineAt s n) (n + 1) [.webRpc, .gtx] m ∧
    s.Fails (deadlineAt s n) .mobileScrape m e k ∧ e.1 ≠ failureDeadline ∧ deadlineAt s n ≤ s.monotonicUs k

namespace Services

variable {s : Services} {deadlineUs : Int} {tier : Tier} {n k : Nat}

/-! ## Runs of the code -/

theorem remainingTimeoutMs_eq_zero {nowUs : Int} :
    min (((deadlineUs - nowUs).toNat + 999) / 1000) (2 ^ 32 - 1) = 0 ↔ deadlineUs ≤ nowUs := by omega

theorem httpRequest_run (tier : Tier) (n : Nat) : (s.httpRequest tier deadlineUs).run n =
    (if deadlineUs ≤ s.monotonicUs n then .failed .deadline 0 else s.request tier, n + 1) :=
  Prod.ext (if_congr remainingTimeoutMs_eq_zero rfl rfl) rfl

theorem parseReply_run (tier : Tier) (raw : Bytes) (n : Nat) : (s.parseReply tier deadlineUs raw).run n =
    if deadlineUs < s.monotonicUs n then (.error (failureDeadline, 0), n + 1)
    else match tier.parse (maxTextBytes + 1) raw with
      | none => (.error (failureParse, 0), n + 1)
      | some translated =>
        (if deadlineUs < s.monotonicUs (n + 1) then .error (failureDeadline, 0) else .ok translated, n + 2) := by
  by_cases hlate : deadlineUs < s.monotonicUs n
  · rw [if_pos hlate]
    unfold parseReply
    rw [StateT.run_bind]
    show StateT.run (if deadlineUs < s.monotonicUs n then _ else _) (n + 1) = _
    rw [if_pos hlate]
    rfl
  · rw [if_neg hlate]
    unfold parseReply
    rw [StateT.run_bind]
    show StateT.run (if deadlineUs < s.monotonicUs n then _ else _) (n + 1) = _
    rw [if_neg hlate]
    cases tier.parse (maxTextBytes + 1) raw <;> rfl

theorem tryTier_run (hprepare : s.prepare tier = true) (hsent : s.monotonicUs n < deadlineUs) :
    (s.tryTier tier deadlineUs).run n = match s.request tier with
      | .failed why status => (.error (why.cause, status), n + 1)
      | .response raw => (s.parseReply tier deadlineUs raw).run (n + 1) := by
  unfold tryTier
  rw [if_pos hprepare, StateT.run_bind, httpRequest_run, if_neg (not_le.mpr hsent)]
  cases s.request tier <;> rfl

theorem Fails.run {e : UInt8 × UInt16} (h : s.Fails deadlineUs tier n e k) :
    (s.tryTier tier deadlineUs).run n = (.error e, k) := by
  cases h with
  | unprepared h =>
    unfold tryTier
    rw [h]
    rfl
  | unsent hprepare h =>
    unfold tryTier
    rw [if_pos hprepare, StateT.run_bind, httpRequest_run, if_pos h]
    rfl
  | refused hprepare hsent h => rw [tryTier_run hprepare hsent, h]
  | late hprepare hsent hrequest h =>
    rw [tryTier_run hprepare hsent, hrequest]
    dsimp only
    rw [parseReply_run, if_pos h]
  | unparsed hprepare hsent hrequest hread h =>
    rw [tryTier_run hprepare hsent, hrequest]
    dsimp only
    rw [parseReply_run, if_neg (not_lt.mpr hread), h]
  | parsedLate hprepare hsent hrequest hread hparse h =>
    rw [tryTier_run hprepare hsent, hrequest]
    dsimp only
    rw [parseReply_run, if_neg (not_lt.mpr hread), hparse]
    dsimp only
    rw [if_pos h]

theorem Answers.run (hclock : Monotone s.monotonicUs) {translated : Bytes}
    (h : s.Answers deadlineUs tier n translated k) : (s.tryTier tier deadlineUs).run n = (.ok translated, k) := by
  obtain ⟨hprepare, hsent, ⟨raw, hrequest, hparse⟩, htime, rfl⟩ := h
  have hread : s.monotonicUs (n + 1) ≤ deadlineUs := (hclock (by omega)).trans htime
  rw [tryTier_run hprepare hsent, hrequest]
  dsimp only
  rw [parseReply_run, if_neg (not_lt.mpr hread), hparse]
  dsimp only
  rw [if_neg (not_lt.mpr htime)]

/-- A tier answers or fails. -/
theorem answers_or_fails (s : Services) (deadlineUs : Int) (tier : Tier) (n : Nat) :
    (∃ translated k, s.Answers deadlineUs tier n translated k) ∨ ∃ e k, s.Fails deadlineUs tier n e k := by
  by_cases hprepare : s.prepare tier = true
  · by_cases hsent : s.monotonicUs n < deadlineUs
    · cases hrequest : s.request tier with
      | failed why status => exact .inr ⟨_, _, .refused hprepare hsent hrequest⟩
      | response raw =>
        by_cases hread : s.monotonicUs (n + 1) ≤ deadlineUs
        · cases hparse : tier.parse (maxTextBytes + 1) raw with
          | none => exact .inr ⟨_, _, .unparsed hprepare hsent hrequest hread hparse⟩
          | some translated =>
            by_cases htime : s.monotonicUs (n + 2) ≤ deadlineUs
            · exact .inl ⟨translated, _, hprepare, hsent, ⟨raw, hrequest, hparse⟩, htime, rfl⟩
            · exact .inr ⟨_, _, .parsedLate hprepare hsent hrequest hread hparse (not_le.mp htime)⟩
        · exact .inr ⟨_, _, .late hprepare hsent hrequest (not_le.mp hread)⟩
    · exact .inr ⟨_, _, .unsent hprepare (not_lt.mp hsent)⟩
  · exact .inr ⟨_, _, .unprepared (Bool.eq_false_iff.mpr hprepare)⟩

theorem Fails.unique {e e' : UInt8 × UInt16} {k' : Nat} (h : s.Fails deadlineUs tier n e k)
    (h' : s.Fails deadlineUs tier n e' k') : e = e' ∧ k = k' := by
  obtain ⟨he, hk⟩ := Prod.mk.inj (h.run.symm.trans h'.run)
  exact ⟨Except.error.inj he, hk⟩

theorem FailInTime.unique {tiers : List Tier} {k' : Nat} (h : s.FailInTime deadlineUs n tiers k)
    (h' : s.FailInTime deadlineUs n tiers k') : k = k' := by
  induction h with
  | nil =>
    cases h'
    rfl
  | cons hfails hcause htime hrest ih =>
    cases h' with
    | cons hfails' hcause' htime' hrest' =>
      obtain ⟨-, rfl⟩ := hfails.unique hfails'
      exact ih hrest'

/-! ## Runs over the tiers -/

/-- Some tiers fail in time, and the one after them answers, or is the last that is tried. -/
theorem exists_stop (s : Services) (deadlineUs : Int) {tiers : List Tier} (htiers : tiers ≠ []) (n : Nat) :
    ∃ earlier last later m, tiers = earlier ++ last :: later ∧ s.FailInTime deadlineUs n earlier m ∧
      ((∃ translated k, s.Answers deadlineUs last m translated k) ∨
        ∃ e k, s.Fails deadlineUs last m e k ∧
          (later ≠ [] → e.1 = failureDeadline ∨ deadlineUs ≤ s.monotonicUs k)) := by
  induction tiers generalizing n with
  | nil => exact absurd rfl htiers
  | cons tier others ih =>
    rcases answers_or_fails s deadlineUs tier n with hanswers | ⟨e, k, hfails⟩
    · exact ⟨[], tier, others, n, rfl, .nil, .inl hanswers⟩
    by_cases hstop : others ≠ [] → e.1 = failureDeadline ∨ deadlineUs ≤ s.monotonicUs k
    · exact ⟨[], tier, others, n, rfl, .nil, .inr ⟨e, k, hfails, hstop⟩⟩
    push Not at hstop
    obtain ⟨hothers, hcause, htime⟩ := hstop
    obtain ⟨earlier, last, later, m, rfl, hearlier, hlast⟩ := ih hothers (k + 1)
    exact ⟨tier :: earlier, last, later, m, rfl, .cons hfails hcause htime hearlier, hlast⟩

theorem isExpired_run (cause : UInt8) (n : Nat) :
    ((s.isExpired cause deadlineUs).run n).1 = decide (cause = failureDeadline ∨ deadlineUs ≤ s.monotonicUs n) := by
  unfold isExpired
  by_cases hcause : cause = failureDeadline
  · rw [if_pos hcause, decide_eq_true (.inl hcause)]
    rfl
  · rw [if_neg hcause]
    exact decide_eq_decide.mpr (by rw [remainingTimeoutMs_eq_zero, or_iff_right hcause])

theorem tryTiers_answers {translated : Bytes} {attempted : UInt8} {others : List Tier}
    (h : (s.tryTier tier deadlineUs).run n = (.ok translated, k)) :
    (s.tryTiers deadlineUs others attempted tier).run n = (.ok (tier, translated), k) := by
  unfold tryTiers
  rw [StateT.run_bind, h]
  rfl

theorem tryTiers_fails {e : UInt8 × UInt16} {attempted : UInt8} {others : List Tier}
    (h : (s.tryTier tier deadlineUs).run n = (.error e, k))
    (hstop : others ≠ [] → e.1 = failureDeadline ∨ deadlineUs ≤ s.monotonicUs k) :
    ((s.tryTiers deadlineUs others attempted tier).run n).1 =
      .error ⟨if others = [] then e.1 else failureDeadline, tier.code, attempted ||| tierMask tier, e.2⟩ := by
  cases others with
  | nil =>
    unfold tryTiers
    rw [StateT.run_bind, h]
    rfl
  | cons next others =>
    have hexpired := @isExpired_run s deadlineUs e.1 k
    rw [decide_eq_true (hstop (List.cons_ne_nil _ _))] at hexpired
    unfold tryTiers
    rw [StateT.run_bind, h]
    show (((s.isExpired e.1 deadlineUs) >>= _).run k).1 = _
    rw [StateT.run_bind]
    generalize (s.isExpired e.1 deadlineUs).run k = r at hexpired
    obtain ⟨expired, m⟩ := r
    subst hexpired
    rfl

theorem tryTiers_next {e : UInt8 × UInt16} {attempted : UInt8} {next : Tier} {others : List Tier}
    (h : (s.tryTier tier deadlineUs).run n = (.error e, k)) (hcause : e.1 ≠ failureDeadline)
    (htime : s.monotonicUs k < deadlineUs) :
    (s.tryTiers deadlineUs (next :: others) attempted tier).run n =
      (s.tryTiers deadlineUs others (attempted ||| tierMask tier) next).run (k + 1) := by
  have hleft : (s.remainingTimeoutMs deadlineUs).run k =
      (min (((deadlineUs - s.monotonicUs k).toNat + 999) / 1000) (2 ^ 32 - 1), k + 1) := rfl
  have hexpired : (s.isExpired e.1 deadlineUs).run k = (false, k + 1) := by
    unfold isExpired
    rw [if_neg hcause, StateT.run_bind, hleft]
    exact Prod.ext (decide_eq_false (by rw [remainingTimeoutMs_eq_zero]; omega)) rfl
  conv_lhs => unfold tryTiers
  rw [StateT.run_bind, h]
  show ((s.isExpired e.1 deadlineUs) >>= _).run k = _
  rw [StateT.run_bind, hexpired]
  rfl

theorem FailInTime.run {earlier later others : List Tier} {first last : Tier} {m : Nat} {attempted : UInt8}
    (h : s.FailInTime deadlineUs n earlier m) (htiers : first :: others = earlier ++ last :: later) :
    (s.tryTiers deadlineUs others attempted first).run n =
      (s.tryTiers deadlineUs later (earlier.foldl (fun mask tier => mask ||| tierMask tier) attempted) last).run m := by
  induction h generalizing attempted first others with
  | nil =>
    obtain ⟨rfl, rfl⟩ := List.cons.inj htiers
    rfl
  | @cons n k m tier earlier e hfails hcause htime hrest ih =>
    obtain ⟨rfl, hothers⟩ := List.cons.inj htiers
    cases hsplit : earlier ++ last :: later with
    | nil => simp at hsplit
    | cons next rest =>
      obtain rfl := hothers.trans hsplit
      rw [tryTiers_next hfails.run hcause htime]
      exact ih hsplit.symm

end Services

variable {s : Services} {text : Bytes} {n : Nat}

/-! ## Runs of the translation -/

theorem runTiers_run (h : Begins s text) (deadlineUs : Int) :
    s.runTiers deadlineUs = s.tryTiers deadlineUs [.gtx, .mobileScrape] 0 .webRpc := by
  unfold Services.runTiers
  rw [if_pos (by simp [h.encoded, h.memory])]

/-- What comes of the tiers is what comes of the translation. -/
theorem translateTextDetailed_run (htext : text ≠ []) (h : Begins s text) (n : Nat) :
    ∃ latencyUs, ((translateTextDetailed s text).run n).1 =
      match ((s.tryTiers (deadlineAt s n) [.gtx, .mobileScrape] 0 .webRpc).run (n + 1)).1 with
      | .ok (tier, translated) => ⟨true, translated, tier.code, latencyUs, Failure.zero⟩
      | .error failure => ⟨false, [], tierNone, latencyUs, failure⟩ := by
  have hfits := h.fits
  unfold translateTextDetailed
  rw [if_neg htext, if_neg (by omega), StateT.run_bind]
  simp only [runTiers_run h]
  exact ⟨_, rfl⟩

theorem translateTextDetailed_idle (htext : text ≠ []) (h : ¬ Begins s text) (n : Nat) :
    ∃ latencyUs, ((translateTextDetailed s text).run n).1 =
      ⟨false, [], tierNone, latencyUs, { Failure.zero with cause := failureLocal }⟩ := by
  unfold translateTextDetailed
  rw [if_neg htext]
  by_cases hfits : text.length ≤ translateMaxTextBytes
  · have hready : ¬ (s.encodeTags && s.memory) = true := by
      intro hready
      rw [Bool.and_eq_true] at hready
      exact h ⟨hfits, hready.1, hready.2⟩
    rw [if_neg (by omega)]
    simp only [Services.runTiers, if_neg hready]
    exact ⟨_, rfl⟩
  · rw [if_pos (by omega)]
    exact ⟨0, rfl⟩

theorem translateTextDetailed_answered (htext : text ≠ []) (hclock : Monotone s.monotonicUs) {tier : Tier}
    {translated : Bytes} (h : AnsweredBy s text n tier translated) :
    ∃ latencyUs, ((translateTextDetailed s text).run n).1 = ⟨true, translated, tier.code, latencyUs, Failure.zero⟩ := by
  obtain ⟨hbegins, earlier, later, m, k, htiers, hearlier, hanswers⟩ := h
  obtain ⟨latencyUs, hrun⟩ := translateTextDetailed_run htext hbegins n
  rw [hearlier.run htiers, Services.tryTiers_answers (hanswers.run hclock)] at hrun
  exact ⟨latencyUs, hrun⟩

theorem translateTextDetailed_failed (htext : text ≠ []) (hbegins : Begins s text) {earlier later : List Tier}
    {last : Tier} {m k : Nat} {e : UInt8 × UInt16} (htiers : allTiers = earlier ++ last :: later)
    (hearlier : s.FailInTime (deadlineAt s n) (n + 1) earlier m) (hfails : s.Fails (deadlineAt s n) last m e k)
    (hstop : later ≠ [] → e.1 = failureDeadline ∨ deadlineAt s n ≤ s.monotonicUs k) :
    ∃ latencyUs, ((translateTextDetailed s text).run n).1 = ⟨false, [], tierNone, latencyUs,
      ⟨if later = [] then e.1 else failureDeadline, last.code, tiersMask (earlier ++ [last]), e.2⟩⟩ := by
  obtain ⟨latencyUs, hrun⟩ := translateTextDetailed_run htext hbegins n
  rw [hearlier.run htiers, Services.tryTiers_fails hfails.run hstop] at hrun
  refine ⟨latencyUs, hrun.trans ?_⟩
  rw [tiersMask, List.foldl_append]
  rfl

theorem Tier.code_injective {a b : Tier} (h : a.code = b.code) : a = b := by
  cases a <;> cases b <;> first | rfl | exact absurd h (by decide)

theorem allTiers_last {earlier later : List Tier} (h : allTiers = earlier ++ .mobileScrape :: later) :
    earlier = [.webRpc, .gtx] ∧ later = [] := by
  rw [allTiers] at h
  rcases earlier with - | ⟨a, - | ⟨b, - | ⟨c, earlier⟩⟩⟩ <;> simp_all

/-- A stop at a tier is blamed as it should be, unless the last tier fails late. -/
theorem blame_of_stop (hbegins : Begins s text) {earlier later : List Tier} {last : Tier} {m k : Nat}
    {e : UInt8 × UInt16}
    (htiers : allTiers = earlier ++ last :: later) (hearlier : s.FailInTime (deadlineAt s n) (n + 1) earlier m)
    (hfails : s.Fails (deadlineAt s n) last m e k)
    (hstop : later ≠ [] → e.1 = failureDeadline ∨ deadlineAt s n ≤ s.monotonicUs k) (hlast : ¬ LastFailsLate s text n) :
    (if later = [] then e.1 else failureDeadline) =
      if deadlineAt s n ≤ s.monotonicUs k then failureDeadline else e.1 := by
  by_cases hlater : later = []
  · subst hlater
    rw [if_pos rfl]
    by_cases htime : deadlineAt s n ≤ s.monotonicUs k
    · rw [if_pos htime]
      by_contra hcause
      have hconcat : earlier ++ [last] = [.webRpc, .gtx] ++ [.mobileScrape] := htiers.symm
      obtain ⟨rfl, hsingle⟩ := List.append_inj' hconcat rfl
      obtain rfl := List.head_eq_of_cons_eq hsingle
      exact hlast ⟨hbegins, m, e, k, hearlier, hfails, hcause, htime⟩
    · rw [if_neg htime]
  · rw [if_neg hlater]
    rcases hstop hlater with hcause | htime
    · rw [hcause, ite_self]
    · rw [if_pos htime]

/-- If the last tier fails late, its own cause is reported. -/
theorem LastFailsLate.not_tiered (htext : text ≠ []) (hlast : LastFailsLate s text n) :
    ¬ TieredOutcome s text n ((translateTextDetailed s text).run n).1 := by
  intro houtcome
  obtain ⟨hbegins, m, e, k, hearlier, hfails, hcause, htime⟩ := hlast
  obtain ⟨latencyUs, hrun⟩ := @translateTextDetailed_failed _ _ _ htext hbegins _ [] _ _ _ _ rfl hearlier hfails nofun
  rw [if_pos rfl] at hrun
  rw [hrun] at houtcome
  obtain ⟨-, -, ⟨hidle, -⟩ | ⟨-, earlier', last', later', m', e', k', htiers', hearlier', hfails', -, hblame⟩⟩ :=
    houtcome.failed rfl
  · exact hidle hbegins
  simp only [blameOf, Failure.mk.injEq] at hblame
  obtain ⟨hblame, hcode, -, -⟩ := hblame
  obtain rfl := Tier.code_injective hcode
  obtain ⟨rfl, rfl⟩ := allTiers_last htiers'
  obtain rfl := hearlier.unique hearlier'
  obtain ⟨rfl, rfl⟩ := hfails.unique hfails'
  rw [if_pos htime] at hblame
  exact hcause hblame

/-- **A translation comes to what its tiers come to, if and only if the last of them does not fail late.** -/
theorem tiered_outcome (s : Services) {text : Bytes} (htext : text ≠ []) (hclock : Monotone s.monotonicUs) (n : Nat) :
    TieredOutcome s text n ((translateTextDetailed s text).run n).1 ↔ ¬ LastFailsLate s text n := by
  constructor
  · intro houtcome hlast
    exact hlast.not_tiered htext houtcome
  · intro hlast
    by_cases hbegins : Begins s text
    · obtain ⟨earlier, last, later, m, htiers, hearlier, ⟨translated, k, hanswers⟩ | ⟨e, k, hfails, hstop⟩⟩ :=
        @Services.exists_stop s (deadlineAt s n) allTiers (by decide) (n + 1)
      · have hanswered : AnsweredBy s text n last translated :=
          ⟨hbegins, earlier, later, m, k, htiers, hearlier, hanswers⟩
        obtain ⟨latencyUs, hrun⟩ := translateTextDetailed_answered htext hclock hanswered
        constructor
        · intro _
          exact ⟨last, translated, hanswered⟩
        · intro tier translated' hanswered'
          obtain ⟨latencyUs', hrun'⟩ := translateTextDetailed_answered htext hclock hanswered'
          rw [hrun']
          exact ⟨rfl, rfl, rfl⟩
        · intro hfailed
          rw [hrun] at hfailed
          cases hfailed
      · obtain ⟨latencyUs, hrun⟩ := translateTextDetailed_failed htext hbegins htiers hearlier hfails hstop
        constructor
        · intro hsuccess
          rw [hrun] at hsuccess
          cases hsuccess
        · intro tier translated hanswered
          obtain ⟨latencyUs', hrun'⟩ := translateTextDetailed_answered htext hclock hanswered
          rw [hrun] at hrun'
          cases hrun'
        · intro _
          rw [hrun]
          refine ⟨rfl, rfl, .inr ⟨hbegins, earlier, last, later, m, e, k, htiers, hearlier, hfails, hstop, ?_⟩⟩
          dsimp only
          rw [blameOf, blame_of_stop hbegins htiers hearlier hfails hstop hlast]
    · obtain ⟨latencyUs, hrun⟩ := translateTextDetailed_idle htext hbegins n
      rw [hrun]
      constructor
      · intro hsuccess
        cases hsuccess
      · intro tier translated hanswered
        exact absurd hanswered.1 hbegins
      · intro _
        exact ⟨rfl, rfl, .inl ⟨hbegins, rfl⟩⟩

/-- Three tiers that fail at once, at a clock that stands still. -/
theorem tiered_outcome_still :
    TieredOutcome ⟨true, true, fun _ => true, fun _ => .failed .provider 503, fun _ => 0⟩ [0x61] 0
      ((translateTextDetailed ⟨true, true, fun _ => true, fun _ => .failed .provider 503, fun _ => 0⟩ [0x61]).run 0).1 := by
  apply (tiered_outcome _ (by decide) (fun _ _ _ => le_rfl) 0).mpr
  rintro ⟨-, m, e, k, -, -, -, htime⟩
  simp [deadlineAt, translateTimeoutMs] at htime

/-- The last of the tiers gives a text that is not understood, and the deadline passes meanwhile. -/
theorem not_tiered_outcome : ¬ ∀ (s : Services) (text : Bytes), text ≠ [] → Monotone s.monotonicUs → ∀ n,
    TieredOutcome s text n ((translateTextDetailed s text).run n).1 := by
  intro h
  let s : Services := ⟨true, true, fun _ => true, fun _ => .response [], fun n => if n < 9 then 0 else 900000⟩
  have hclock : Monotone s.monotonicUs := by
    intro a b hab
    dsimp only [s]
    split <;> split <;> omega
  have hunparsed (tier : Tier) (m : Nat) (hm : m + 1 < 9) : s.Fails 800000 tier m (failureParse, 0) (m + 2) := by
    apply @Services.Fails.unparsed _ _ _ _ [] rfl _ rfl
    · rw [show s.monotonicUs (m + 1) = 0 from if_pos hm]
      decide
    · cases tier <;> decide
    · rw [show s.monotonicUs m = 0 from if_pos (by omega)]
      decide
  have hbegins : Begins s [0x61] := ⟨by decide, rfl, rfl⟩
  have hearlier : s.FailInTime 800000 1 [.webRpc, .gtx] 7 :=
    .cons (hunparsed .webRpc 1 (by decide)) (by decide) (by decide)
      (.cons (hunparsed .gtx 4 (by decide)) (by decide) (by decide) .nil)
  have hlast : LastFailsLate s [0x61] 0 :=
    ⟨hbegins, 7, _, 9, hearlier, hunparsed .mobileScrape 7 (by decide), by decide, by decide⟩
  exact hlast.not_tiered (by decide) (h s [0x61] (by decide) hclock 0)

end VlcWhisper.Worker
