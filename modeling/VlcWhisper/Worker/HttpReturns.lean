import VlcWhisper.Worker.HttpOutcome

/-!
# A request over HTTP ends

What a round of a loop does that is not the last: it makes calls, none of which settled the matter, and time has not
run out. So the loops end if the system does not stall.

Main result: `request_returns`.
-/

namespace VlcWhisper.Worker

open VlcWhisper.Lib VlcWhisper.Protocol Attempt

namespace Http

/-- There is nothing more to read or to write for now, and the child has ended. -/
structure Settled (reply : OsReply) : Prop where
  read : reply.read = .eof ∨ reply.read = .again ∨ reply.read = .failed
  write : reply.write = .again ∨ reply.write = .failed
  wait : reply.wait = .signaled ∨ reply.wait = .gone ∨ ∃ code, reply.wait = .exited code

/-- From the `late`-th call on the deadline is past, and one of any `span` calls settles what it is about. -/
structure Prompt (os : Os) (r : HttpRequest) (late span : Nat) : Prop where
  late : ∀ n, late ≤ n → r.deadlineUs + 100000 < (os n).nowUs
  settled : ∀ n, ∃ m, n ≤ m ∧ m < n + span ∧ Settled (os m)

variable {os : Os} {r : HttpRequest} {s : Http} {late span rounds : Nat}

/-- A round is one call, and the last one if that settles it. -/
def Ticks (os : Os) (s : Http) (done : Bool) (t : Http) : Prop :=
  t.calls = s.calls + 1 ∧ (done = false → ¬ Settled (os s.calls))

theorem readRound_ticks (bufSize : Nat) : Returns (readRound os bufSize) s (Ticks os s) := by
  unfold readRound use
  apply Meets.change_bind
  apply meets_call
  cases hread : (os s.calls).read with
  | data first more =>
    apply Meets.change_bind
    apply Meets.pure
    constructor
    · dsimp only
      split_ifs <;> rfl
    · intro _ h
      have := h.read
      simp [hread] at this
  | interrupted => exact ⟨rfl, fun _ h => by have := h.read; simp [hread] at this⟩
  | again => exact ⟨rfl, by simp⟩
  | eof => exact ⟨rfl, by simp⟩
  | failed => exact ⟨rfl, by simp⟩

theorem writeRound_ticks (payload : Bytes) : Returns (writeRound os payload) s (Ticks os s) := by
  unfold writeRound use
  apply Meets.change_bind
  apply meets_call
  cases hwrite : (os s.calls).write with
  | wrote n =>
    have hnot : ¬ Settled (os s.calls) := fun h => by have := h.write; simp [hwrite] at this
    apply Meets.change_bind
    apply Meets.get_bind
    apply Meets.ite
    · exact fun _ => ⟨rfl, by simp⟩
    · exact fun _ => ⟨rfl, fun _ => hnot⟩
  | interrupted => exact ⟨rfl, fun _ h => by have := h.write; simp [hwrite] at this⟩
  | again => exact ⟨rfl, by simp⟩
  | failed => exact ⟨rfl, by simp⟩

theorem waitRound_ticks : Returns (waitRound os) s (Ticks os s) := by
  unfold waitRound use
  apply Meets.change_bind
  apply meets_call
  cases hwait : (os s.calls).wait with
  | running => exact ⟨rfl, fun _ h => by have := h.wait; simp [hwait] at this⟩
  | interrupted => exact ⟨rfl, fun _ h => by have := h.wait; simp [hwait] at this⟩
  | gone => exact ⟨rfl, by simp⟩
  | signaled => exact ⟨rfl, by simp⟩
  | exited code => exact ⟨rfl, by simp⟩

theorem ticks_returns (h : Prompt os r late span) (hrounds : span < rounds) {body : HttpM Bool}
    (hbody : ∀ s, Returns body s (Ticks os s)) :
    Returns (repeatUntil rounds body) s fun _ t => s.calls ≤ t.calls := by
  obtain ⟨m, hlow, hhigh, hsettled⟩ := h.settled s.calls
  apply Returns.repeatUntil (R := fun t => s.calls ≤ t.calls ∧ t.calls ≤ m) (fun t => m - t.calls)
  · intro t ⟨hst, htm⟩
    apply (hbody t).mono
    intro done u ⟨hcalls, hgo⟩
    cases done with
    | true =>
      simp
      omega
    | false =>
      have hne : t.calls ≠ m := fun heq => hgo rfl (heq ▸ hsettled)
      simp
      omega
  · omega
  · omega

/-! ## The exchange -/

theorem closeInput_returns (failed : Bool) : Returns (closeInput failed) s fun _ t => s.calls ≤ t.calls :=
  le_refl s.calls

theorem serve_returns (h : Prompt os r late span) (hrounds : span < rounds) (output inputGone input : Bool) :
    Returns (serve os rounds r output inputGone input) s fun _ t => s.calls ≤ t.calls := by
  unfold serve
  apply Meets.get_bind
  apply Meets.bind (Q := fun _ t => s.calls ≤ t.calls)
  · apply Meets.when
    · exact fun _ => ticks_returns h hrounds fun t => readRound_ticks r.bufSize
    · exact fun _ => le_refl _
  · intro _ t ht
    apply Meets.get_bind
    apply Meets.when
    · intro _
      apply Meets.ite
      · exact fun _ => (closeInput_returns _).mono fun _ u hu => ht.trans hu
      · intro _
        apply Meets.when
        · intro _
          exact (ticks_returns h hrounds fun u => writeRound_ticks r.payload).mono fun _ u hu => ht.trans hu
        · exact fun _ => ht
    · exact fun _ => ht

theorem use_returns {x : Resource} {c : Bool} : Returns (when c (use x)) s fun _ t => t.calls = s.calls := by
  cases c <;> rfl

/-- A round that is not the last is before the deadline, and makes a call. -/
theorem exchangeRound_returns (h : Prompt os r late span) (hrounds : span < rounds) :
    Returns (exchangeRound os rounds r) s fun done t =>
      s.calls ≤ t.calls ∧ (done = false → s.calls < late ∧ s.calls < t.calls) := by
  unfold exchangeRound
  apply Meets.get_bind
  apply Meets.ite
  · exact fun _ => ⟨le_refl _, by simp⟩
  · intro _
    apply meets_readClock
    apply Meets.ite
    · intro _
      constructor
      · simp
      · simp
    · intro hearly
      have hbefore : s.calls < late := by
        by_contra hpast
        have := h.late s.calls (by omega)
        apply hearly
        left
        omega
      apply use_returns.bind
      intro _ t ht
      apply use_returns.bind
      intro _ u hu
      apply meets_call
      have hcalls : s.calls < u.calls + 1 := by
        simp at ht
        omega
      cases (os u.calls).poll with
      | timeout => exact ⟨hcalls.le, fun _ => ⟨hbefore, hcalls⟩⟩
      | interrupted => exact ⟨hcalls.le, fun _ => ⟨hbefore, hcalls⟩⟩
      | failed => exact ⟨hcalls.le, by simp⟩
      | ready output inputGone input =>
        apply (serve_returns h hrounds output inputGone input).bind
        intro _ v hv
        have hmore : s.calls < v.calls := hcalls.trans_le hv
        exact ⟨hmore.le, fun _ => ⟨hbefore, hmore⟩⟩

theorem exchange_returns (h : Prompt os r late span) (hrounds : late + span < rounds) :
    Returns (repeatUntil rounds (exchangeRound os rounds r)) s fun _ _ => True := by
  apply Returns.repeatUntil (R := fun _ => True) (fun t => late - t.calls)
  · intro t _
    apply (exchangeRound_returns h (by omega)).mono
    intro done u ⟨_, hgo⟩
    cases done with
    | true => trivial
    | false =>
      have := hgo rfl
      simp
      omega
  · trivial
  · omega

/-! ## Waiting -/

/-- A round that is not the last is one call that did not settle it, or two before the deadline. -/
theorem awaitRound_returns (h : Prompt os r late span) (hrounds : span < rounds) :
    Returns (awaitRound os rounds r) s fun done t => done = false →
      (t.calls = s.calls + 1 ∧ ¬ Settled (os s.calls)) ∨ (t.calls = s.calls + 2 ∧ s.calls + 1 < late) := by
  unfold awaitRound use
  apply Meets.change_bind
  apply meets_call
  cases hwait : (os s.calls).wait with
  | running =>
    apply meets_readClock
    apply Meets.ite
    · intro _
      apply Meets.change_bind
      exact (ticks_returns h hrounds fun t => waitRound_ticks).bind fun _ t _ => Meets.pure (by simp)
    · intro hearly _
      right
      constructor
      · rfl
      · by_contra hpast
        exact hearly (h.late (s.calls + 1) (by omega))
  | interrupted => exact fun _ => .inl ⟨rfl, fun h => by have := h.wait; simp [hwait] at this⟩
  | gone => exact fun h => by simp at h
  | signaled => exact fun h => by simp at h
  | exited code => exact fun h => by simp at h

theorem await_returns (h : Prompt os r late span) (hrounds : late + span < rounds) :
    Returns (repeatUntil rounds (awaitRound os rounds r)) s fun _ _ => True := by
  obtain ⟨m, hlow, hhigh, hsettled⟩ := h.settled (max late s.calls)
  apply Returns.repeatUntil (R := fun t => t.calls ≤ m) (fun t => m - t.calls)
  · intro t ht
    apply (awaitRound_returns h (by omega)).mono
    intro done u hgo
    cases done with
    | true => trivial
    | false =>
      simp
      obtain ⟨hcalls, hnot⟩ | ⟨hcalls, hearly⟩ := hgo rfl
      · have hne : t.calls ≠ m := fun heq => hnot (heq ▸ hsettled)
        omega
      · omega
  · omega
  · omega

/-! ## The whole request -/

theorem control_returns (x : Resource) : Returns (control os x) s fun _ _ => True := trivial

theorem controlInput_returns : Returns (controlInput os r) s fun _ _ => True := by
  unfold controlInput
  apply Meets.ite
  · exact fun _ => control_returns _
  · exact fun _ => trivial

theorem giveUp_returns (xs : List Resource) : Returns (giveUp xs) s fun _ _ => True := trivial

theorem conclude_returns : Returns (conclude os r) s fun _ _ => True := by
  unfold conclude
  apply Meets.get_bind
  by_cases hcomplete : s.complete = true
  · rw [if_pos hcomplete]
    apply meets_readClock
    apply Meets.bind (Q := fun _ _ => True)
    · exact trivial
    · intro ok t _
      apply Meets.ite
      · exact fun _ => trivial
      · exact fun _ => trivial
  · rw [if_neg hcomplete]
    trivial

theorem runCurl_returns (h : Prompt os r late span) (hrounds : late + span < rounds) :
    Returns (runCurl os rounds r) s fun _ _ => True := by
  unfold runCurl
  apply (control_returns .outRead).bind
  intro outOk t _
  apply controlInput_returns.bind
  intro inOk u _
  apply Meets.ite
  · intro _
    apply Meets.change_bind
    apply Meets.change_bind
    apply (ticks_returns h (by omega) fun v => waitRound_ticks).bind
    exact fun _ v _ => giveUp_returns _
  · intro _
    apply Meets.change_bind
    apply Meets.bind (Q := fun _ _ => True)
    · apply Meets.when
      · exact fun _ => (closeInput_returns _).mono fun _ _ _ => trivial
      · exact fun _ => trivial
    · intro _ v _
      apply (exchange_returns h hrounds).bind
      intro _ w _
      apply Meets.get_bind
      apply Meets.change_bind
      apply (await_returns h hrounds).bind
      exact fun _ x _ => conclude_returns

theorem spawnCurl_returns (h : Prompt os r late span) (hrounds : late + span < rounds) (curl : Bytes) (timeoutMs : Nat) :
    Returns (spawnCurl os curl rounds r timeoutMs) s fun _ _ => True := by
  unfold spawnCurl
  apply Meets.ite
  · exact fun _ => giveUp_returns _
  · intro _
    apply meets_call
    apply Meets.ite
    · exact fun _ => giveUp_returns _
    · intro _
      apply Meets.change_bind
      apply meets_call
      apply Meets.bind (Q := fun _ _ => True)
      · exact Meets.when (fun _ => trivial) fun _ => trivial
      · intro _ t _
        apply meets_call
        apply Meets.bind (Q := fun _ _ => True)
        · exact Meets.when (fun _ => trivial) fun _ => trivial
        · intro _ u _
          apply Meets.change_bind
          apply Meets.ite
          · exact fun _ => giveUp_returns _
          · exact fun _ => runCurl_returns h hrounds

theorem openPipe_returns (reader writer : Resource) : Returns (openPipe os reader writer) s fun _ _ => True := by
  unfold openPipe
  apply meets_call
  apply Meets.bind (Q := fun _ _ => True)
  · exact Meets.when (fun _ => trivial) fun _ => trivial
  · exact fun _ _ _ => trivial

theorem setCloexec_returns (reader writer : Resource) : Returns (setCloexec os reader writer) s fun _ _ => True := by
  unfold setCloexec
  apply (control_returns reader).bind
  intro ok t _
  apply Meets.ite
  · exact fun _ => control_returns writer
  · exact fun _ => trivial

/-- **A request ends.** If the time passes and no more than so many calls in a row leave something to be read, to be
written or to be waited for, then so many rounds are enough for every loop. -/
theorem request_returns (h : Prompt os r late span) (hrounds : late + span < rounds) (curl : Bytes) :
    Returns (request os curl rounds r) .start fun _ _ => True := by
  unfold request
  apply Meets.ite
  · exact fun _ => trivial
  · intro _
    have hclock : Returns (remainingTimeoutMs os r.deadlineUs) Http.start fun _ _ => True := trivial
    apply hclock.bind
    intro timeoutMs s _
    apply Meets.ite
    · exact fun _ => trivial
    · intro _
      apply Meets.change_bind
      apply (openPipe_returns _ _).bind
      intro opened t _
      apply Meets.ite
      · exact fun _ => giveUp_returns _
      · intro _
        apply (setCloexec_returns _ _).bind
        intro set u _
        apply Meets.ite
        · exact fun _ => giveUp_returns _
        · intro _
          apply Meets.ite
          · intro _
            apply (openPipe_returns _ _).bind
            intro opened v _
            apply Meets.ite
            · exact fun _ => giveUp_returns _
            · intro _
              apply (setCloexec_returns _ _).bind
              intro set w _
              apply Meets.ite
              · exact fun _ => giveUp_returns _
              · exact fun _ => spawnCurl_returns h hrounds curl timeoutMs
          · exact fun _ => spawnCurl_returns h hrounds curl timeoutMs

/-- A response that comes at once, and a clock that goes on by a second at each call. -/
def promptOs (n : Nat) : OsReply where
  ok := true
  nowUs := n * 1000000
  poll := .ready true false true
  read := if n = 10 then .data 0x61 (ascii "\n200") else .eof
  write := .again
  wait := .exited 0

theorem promptOs_prompt (r : HttpRequest) (h : r.deadlineUs ≤ 99000000) : Prompt promptOs r 100 2 where
  late := by
    intro n hn
    simp [promptOs]
    omega
  settled := by
    intro n
    by_cases hn : n = 10
    · exact ⟨11, by omega, by omega, by simp [promptOs], by simp [promptOs], by simp [promptOs]⟩
    · exact ⟨n, by omega, by omega, by simp [promptOs, hn], by simp [promptOs], by simp [promptOs]⟩

theorem request_returns_prompt :
    Returns (request promptOs (ascii "curl") 103 ⟨ascii "https://host/", none, none, none, 64, 99000000⟩) .start
      fun _ _ => True :=
  request_returns (promptOs_prompt _ (by decide)) (by decide) _

example : ((request promptOs (ascii "curl") 103 ⟨ascii "https://host/", none, none, none, 64, 99000000⟩).exec .start).1 =
    some (.response [0x61]) := by rfl

end Http

end VlcWhisper.Worker
