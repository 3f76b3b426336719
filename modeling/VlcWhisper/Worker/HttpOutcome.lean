import VlcWhisper.Worker.HttpRequest

/-!
# What comes of a request over HTTP

`Serving` is what holds during the exchange: the pipes that are open are held, what was read is in the buffer and what
was written is the front of the payload. Each round of each loop keeps it, whatever the system answers.

Main results: `request_releases`, that everything is released and nothing is used after, and `request_outcome`, what a
response means and which kind of failure is reported for what went wrong.
-/

namespace VlcWhisper.Worker

open VlcWhisper.Lib VlcWhisper.Protocol Attempt

namespace Http

variable {os : Os} {r : HttpRequest} {s : Http} {α : Type} {inv : Http → Prop} {P : α → Http → Prop}

/-- Nothing was used that is not there. -/
def Sound (s : Http) : Prop := s.handles.misused = false

theorem meets_call {f : OsReply → HttpM α} (h : Meets inv (f (os s.calls)) { s with calls := s.calls + 1 } P) :
    Meets inv (call os >>= f) s P := h

/-! ## The exchange -/

/-- What is held during the exchange. -/
def held (s : Http) : List Resource :=
  (if s.inOpen then [.inWrite] else []) ++ (if s.outOpen then [.outRead] else []) ++ [.sigpipe, .child]

/-- The data of the exchange. -/
structure Exchanged (r : HttpRequest) (s : Http) : Prop where
  outBuf : s.outBuf.length + 1 ≤ r.bufSize
  stdout : s.overflow = false → s.stdout = s.outBuf
  written : s.written ≤ r.payload.length
  stdin : s.stdin = r.payload.take s.written
  closed : s.inOpen = false → s.written = r.payload.length ∨ s.writeFailed = true
  overflow : s.overflow = true → r.bufSize ≤ s.stdout.length
  failed : s.writeFailed = true → s.inOpen = false ∧ s.written < r.payload.length

structure Serving (r : HttpRequest) (s : Http) : Prop where
  holds : s.handles.Holds s.held
  data : Exchanged r s

theorem Serving.sound (h : Serving r s) : Sound s := h.holds.sound

theorem mem_held_outRead (h : s.outOpen = true) : Resource.outRead ∈ s.held := by simp [held, h]

theorem mem_held_inWrite (h : s.inOpen = true) : Resource.inWrite ∈ s.held := by simp [held, h]

theorem Serving.call (h : Serving r s) : Serving r { s with calls := s.calls + 1 } := ⟨h.holds, { h.data with }⟩

theorem Serving.closeOutput (h : Serving r s) (hopen : s.outOpen = true) :
    Serving r { s with handles := s.handles.release .outRead, outOpen := false } where
  holds := by
    apply (h.holds.release (mem_held_outRead hopen)).congr
    intro x
    simp [held, hopen]
    cases x <;> simp
  data := { h.data with }

theorem Serving.store (h : Serving r s) (first : UInt8) (more : Bytes) :
    Serving r (if s.outBuf.length + 1 < r.bufSize then
        { s with outBuf := s.outBuf ++ (first :: more).take (r.bufSize - 1 - s.outBuf.length)
                 stdout := s.stdout ++ (first :: more).take (r.bufSize - 1 - s.outBuf.length) }
      else { s with overflow := true, stdout := s.stdout ++ [first] }) := by
  split_ifs with hroom
  · constructor
    case holds => exact h.holds
    case data =>
      constructor
      case outBuf =>
        simp
        omega
      case stdout =>
        intro hover
        simp [h.data.stdout hover]
      case written => exact h.data.written
      case stdin => exact h.data.stdin
      case closed => exact h.data.closed
      case overflow =>
        intro hover
        have hlong := h.data.overflow hover
        simp
        omega
      case failed => exact h.data.failed
  · refine ⟨h.holds, { h.data with stdout := by simp, overflow := fun _ => ?_ }⟩
    have hlong : r.bufSize ≤ s.stdout.length + 1 := by
      cases hover : s.overflow with
      | false =>
        rw [h.data.stdout hover]
        omega
      | true => exact (h.data.overflow hover).trans (Nat.le_succ _)
    simpa using hlong

theorem readRound_serving (h : Serving r s) (hopen : s.outOpen = true) :
    Meets Sound (readRound os r.bufSize) s fun done t => Serving r t ∧ (done = false → t.outOpen = true) := by
  have huse := h.holds.use (mem_held_outRead hopen)
  have hcall := h.call
  have hclosed := hcall.closeOutput hopen
  unfold readRound use
  apply Meets.change_bind
  rw [huse]
  apply meets_call
  cases hread : (os s.calls).read with
  | data first more =>
    apply Meets.change_bind
    apply Meets.pure
    constructor
    · exact hcall.store first more
    · intro _
      dsimp only
      split_ifs <;> exact hopen
  | interrupted => exact ⟨hcall, fun _ => hopen⟩
  | again => exact ⟨hcall, by simp⟩
  | eof => exact ⟨hclosed, by simp⟩
  | failed => exact ⟨hclosed, by simp⟩

theorem closeInput_serving (h : Serving r s) (hopen : s.inOpen = true) {failed : Bool}
    (hdone : s.written = r.payload.length ∨ failed = true) (hfailed : failed = true → s.written < r.payload.length) :
    Meets Sound (closeInput failed) s fun _ t => Serving r t := by
  unfold closeInput releaseAll
  apply Meets.change_bind
  apply Meets.change
  constructor
  case holds =>
    apply (h.holds.release (mem_held_inWrite hopen)).congr
    intro x
    simp [held, hopen]
    cases x <;> simp
  case data =>
    refine { h.data with closed := ?_, failed := ?_ }
    · intro _
      obtain hdone | hdone := hdone
      · exact .inl hdone
      · simp [hdone]
    · intro hany
      obtain hbefore | hnow : s.writeFailed = true ∨ failed = true := by simpa using hany
      · exact ⟨rfl, (h.data.failed hbefore).2⟩
      · exact ⟨rfl, hfailed hnow⟩

theorem Serving.write (h : Serving r s) (hopen : s.inOpen = true) (n : Nat) :
    Serving r { s with written := s.written + ((r.payload.drop s.written).take n).length
                       stdin := s.stdin ++ (r.payload.drop s.written).take n } where
  holds := h.holds
  data := by
    have hwritten := h.data.written
    constructor
    case outBuf => exact h.data.outBuf
    case stdout => exact h.data.stdout
    case written =>
      simp
      omega
    case stdin =>
      dsimp only
      rw [h.data.stdin, List.take_add]
      congr 1
      simp
    case closed =>
      intro hclosed
      simp [hopen] at hclosed
    case overflow => exact h.data.overflow
    case failed =>
      intro hfailed
      have hclosed := (h.data.failed hfailed).1
      simp [hopen] at hclosed

theorem writeRound_serving (h : Serving r s) (hopen : s.inOpen = true) (hmore : s.written < r.payload.length) :
    Meets Sound (writeRound os r.payload) s fun done t =>
      Serving r t ∧ (done = false → t.inOpen = true ∧ t.written < r.payload.length) := by
  have huse := h.holds.use (mem_held_inWrite hopen)
  have hcall := h.call
  unfold writeRound use
  apply Meets.change_bind
  rw [huse]
  apply meets_call
  cases hwrite : (os s.calls).write with
  | wrote n =>
    have hwrote := hcall.write hopen n
    have hle := hwrote.data.written
    apply Meets.change_bind
    apply Meets.get_bind
    apply Meets.ite
    · intro hall
      apply (closeInput_serving hwrote hopen (.inl (by simp at hle hall ⊢; omega)) (by simp)).bind
      intro _ t ht
      exact ⟨ht, by simp⟩
    · intro hsome
      exact ⟨hwrote, fun _ => ⟨hopen, by simpa using hsome⟩⟩
  | interrupted => exact ⟨hcall, fun _ => ⟨hopen, hmore⟩⟩
  | again => exact ⟨hcall, by simp⟩
  | failed =>
    apply (closeInput_serving hcall hopen (.inr rfl) fun _ => hmore).bind
    intro _ t ht
    exact ⟨ht, by simp⟩

theorem serve_serving (h : Serving r s) (rounds : Nat) (output inputGone input : Bool) :
    Meets Sound (serve os rounds r output inputGone input) s fun _ t => Serving r t := by
  have hread : Meets Sound (when (s.outOpen && output) (repeatUntil rounds (readRound os r.bufSize))) s
      fun _ t => Serving r t := by
    apply Meets.when
    · intro hready
      have hopen : s.outOpen = true := by simp at hready; exact hready.1
      apply Meets.repeatUntil (R := fun t => Serving r t ∧ t.outOpen = true)
      · intro t ⟨ht, hto⟩
        apply (readRound_serving ht hto).mono
        intro done u ⟨hu, hgo⟩
        cases done with
        | true => exact hu
        | false => exact ⟨hu, hgo rfl⟩
      · exact fun t ht => ht.1.sound
      · exact ⟨h, hopen⟩
    · exact fun _ => h
  unfold serve
  apply Meets.get_bind
  apply hread.bind
  intro _ t ht
  apply Meets.get_bind
  apply Meets.when
  · intro hopen
    apply Meets.ite
    · intro _
      apply closeInput_serving ht hopen
      · have hle := ht.data.written
        simp
        omega
      · exact of_decide_eq_true
    · intro _
      apply Meets.when
      · intro hinput
        have hmore : t.written < r.payload.length := of_decide_eq_true ((Bool.and_eq_true ..).mp hinput).2
        apply Meets.repeatUntil (R := fun t => Serving r t ∧ t.inOpen = true ∧ t.written < r.payload.length)
        · intro u ⟨hu, huo, hum⟩
          apply (writeRound_serving hu huo hum).mono
          intro done v ⟨hv, hgo⟩
          cases done with
          | true => exact hv
          | false => exact ⟨hv, hgo rfl⟩
        · exact fun u hu => hu.1.sound
        · exact ⟨ht, hopen, hmore⟩
      · exact fun _ => ht
  · exact fun _ => ht

theorem use_serving (h : Serving r s) {x : Resource} {c : Bool} (hx : c = true → x ∈ s.held) :
    Meets Sound (when c (use x)) s fun _ t => t = s := by
  apply Meets.when
  · intro hc
    unfold use
    apply Meets.change
    rw [h.holds.use (hx hc)]
  · exact fun _ => rfl

theorem meets_readClock {f : Int → HttpM α} (h : Meets inv (f (os s.calls).nowUs) { s with calls := s.calls + 1 } P) :
    Meets inv (readClock os >>= f) s P :=
  Meets.bind (Q := fun nowUs t => nowUs = (os s.calls).nowUs ∧ t = { s with calls := s.calls + 1 }) ⟨rfl, rfl⟩
    fun _ _ ⟨hnow, ht⟩ => hnow ▸ ht ▸ h

theorem exchangeRound_serving (h : Serving r s) (rounds : Nat) :
    Meets Sound (exchangeRound os rounds r) s fun _ t => Serving r t := by
  have hcall := h.call
  unfold exchangeRound
  apply Meets.get_bind
  apply Meets.ite
  · exact fun _ => h
  · intro _
    apply meets_readClock
    apply Meets.ite
    · exact fun _ => hcall
    · intro _
      apply (use_serving hcall fun hin => mem_held_inWrite hin).bind
      rintro _ t rfl
      apply (use_serving hcall fun hout => mem_held_outRead hout).bind
      rintro _ t rfl
      apply meets_call
      cases (os (s.calls + 1)).poll with
      | timeout => exact hcall.call
      | interrupted => exact hcall.call
      | failed => exact hcall.call
      | ready output inputGone input =>
        apply (serve_serving hcall.call rounds output inputGone input).bind
        exact fun _ u hu => hu

/-! ## Waiting -/

/-- These are held, and the data are such. -/
structure Left (held : List Resource) (D : Http → Prop) (s : Http) : Prop where
  holds : s.handles.Holds held
  data : D s

/-- Waiting does not change the data. -/
def Stable (D : Http → Prop) : Prop :=
  ∀ s handles calls waited, D s → D { s with handles := handles, calls := calls, waited := waited }

theorem stable_exchanged : Stable (Exchanged r) := fun _ _ _ _ h => { h with }

variable {D : Http → Prop} {rest : List Resource}

theorem Left.call (hD : Stable D) {held : List Resource} (h : Left held D s) :
    Left held D { s with calls := s.calls + 1 } :=
  ⟨h.holds, hD s _ _ _ h.data⟩

theorem Left.reap (hD : Stable D) (h : Left (.child :: rest) D s) (hchild : Resource.child ∉ rest)
    (waited : Option WaitReply) : Left rest D { s with handles := s.handles.release .child, waited := waited } where
  holds := by
    apply (h.holds.release List.mem_cons_self).congr
    intro x
    have hne : x ∈ rest → x ≠ .child := fun hx hc => hchild (hc ▸ hx)
    simp
    tauto
  data := hD s _ _ _ h.data

theorem waitRound_left (hD : Stable D) (hchild : Resource.child ∉ rest) (h : Left (.child :: rest) D s) :
    Meets Sound (waitRound os) s fun done t => if done then Left rest D t else Left (.child :: rest) D t := by
  have huse := h.holds.use List.mem_cons_self
  have hcall := h.call hD
  unfold waitRound use
  apply Meets.change_bind
  rw [huse]
  apply meets_call
  cases hwait : (os s.calls).wait with
  | running => exact hcall
  | interrupted => exact hcall
  | gone => exact hcall.reap hD hchild _
  | signaled => exact hcall.reap hD hchild _
  | exited code => exact hcall.reap hD hchild _

theorem await_left (hD : Stable D) (hchild : Resource.child ∉ rest) (rounds : Nat) (h : Left (.child :: rest) D s) :
    Meets Sound (repeatUntil rounds (waitRound os)) s fun _ t => Left rest D t :=
  Meets.repeatUntil (fun _ ht => waitRound_left hD hchild ht) (fun _ ht => ht.holds.sound) rounds h

theorem awaitRound_left (h : Left [.child] (Exchanged r) s) (rounds : Nat) :
    Meets Sound (awaitRound os rounds r) s fun done t =>
      if done then Left [] (Exchanged r) t else Left [.child] (Exchanged r) t := by
  have hD := stable_exchanged (r := r)
  have hchild : Resource.child ∉ ([] : List Resource) := List.not_mem_nil
  have huse := h.holds.use List.mem_cons_self
  have hcall := h.call hD
  unfold awaitRound use
  apply Meets.change_bind
  rw [huse]
  apply meets_call
  cases hwait : (os s.calls).wait with
  | running =>
    apply meets_readClock
    apply Meets.ite
    · intro _
      have hkill := (hcall.call hD).holds.use List.mem_cons_self
      apply Meets.change_bind
      rw [hkill]
      apply (await_left hD hchild rounds (hcall.call hD)).bind
      exact fun _ t ht => ht
    · exact fun _ => hcall.call hD
  | interrupted => exact hcall
  | gone => exact hcall.reap hD hchild _
  | signaled => exact hcall.reap hD hchild _
  | exited code => exact hcall.reap hD hchild _

/-! ## The reply -/

theorem splitStatus_eq_some {outBuf raw : Bytes} {code : Nat} (h : splitStatus outBuf = some (raw, code)) :
    ∃ d1 d2 d3, outBuf = raw ++ [0x0A, d1, d2, d3] ∧ isDigit d1 = true ∧ isDigit d2 = true ∧ isDigit d3 = true ∧
      code = (d1.toNat - 0x30) * 100 + (d2.toNat - 0x30) * 10 + (d3.toNat - 0x30) := by
  unfold splitStatus at h
  split at h
  · rename_i d3 d2 d1 rest hreverse
    split_ifs at h with hdigits
    obtain ⟨hraw, hcode⟩ : rest.reverse = raw ∧
        (d1.toNat - 0x30) * 100 + (d2.toNat - 0x30) * 10 + (d3.toNat - 0x30) = code := by simpa using h
    have hbuf : outBuf = rest.reverse ++ [0x0A, d1, d2, d3] := by
      rw [← List.reverse_reverse outBuf, hreverse]
      simp
    simp only [Bool.and_eq_true] at hdigits
    exact ⟨d1, d2, d3, hraw ▸ hbuf, hdigits.1.1, hdigits.1.2, hdigits.2, hcode.symm⟩
  · simp at h

theorem eq_two_of_success {d1 d2 d3 : UInt8} (h1 : isDigit d1 = true) (h2 : isDigit d2 = true) (h3 : isDigit d3 = true)
    (hlow : 200 ≤ (d1.toNat - 0x30) * 100 + (d2.toNat - 0x30) * 10 + (d3.toNat - 0x30))
    (hhigh : (d1.toNat - 0x30) * 100 + (d2.toNat - 0x30) * 10 + (d3.toNat - 0x30) < 300) : d1 = 0x32 := by
  simp [isDigit, UInt8.le_iff_toNat_le] at h1 h2 h3
  apply UInt8.toNat.inj
  simp
  omega

/-- What a response is: all that the other process wrote but the line with the status, in time, from a process that
ended well after it was given all of the payload, unless the exchange was cut short. -/
structure Responds (os : Os) (r : HttpRequest) (raw : Bytes) (s : Http) : Prop where
  stdout : ∃ d2 d3, s.stdout = raw ++ [0x0A, 0x32, d2, d3] ∧ isDigit d2 = true ∧ isDigit d3 = true
  nonempty : raw ≠ []
  fits : raw.length + 5 ≤ r.bufSize
  exited : s.Exited 0
  stdin : s.inOpen = false → s.stdin = r.payload
  inTime : ∃ n < s.calls, (os n).nowUs ≤ r.deadlineUs ∧ n + 1 = s.calls

/-- Curl took too long: when the clock was read last no time was left, or curl says so. -/
def Late (os : Os) (r : HttpRequest) (s : Http) : Prop :=
  (∃ n, n + 1 = s.calls ∧ r.deadlineUs ≤ (os n).nowUs) ∨ s.Exited 28

/-- The service refuses: its status is none of success, or curl says so. -/
def Refused (s : Http) : Prop := (splitStatus s.outBuf).any (fun reply => reply.2 < 200 || 300 ≤ reply.2) = true ∨ s.Exited 22

/-- The response is not all there: it does not fit, it has no status or nothing before it, the other process was not
given all of the payload or did not end well, or the deadline was over when the clock was read last but one. -/
def Broken (os : Os) (r : HttpRequest) (s : Http) : Prop :=
  r.bufSize ≤ s.stdout.length ∨ (∀ reply, splitStatus s.outBuf = some reply → reply.1 = []) ∨
    s.stdin.length < r.payload.length ∨ ¬ s.Exited 0 ∨ ∃ n, n + 2 = s.calls ∧ r.deadlineUs < (os n).nowUs

/-- What a failure is: a local one has exchanged nothing, and any other is of the first kind that applies. -/
structure Fails (os : Os) (r : HttpRequest) (why : HttpFailure) (providerStatus : UInt16) (s : Http) : Prop where
  untouched : why = .local → s.stdin = [] ∧ s.stdout = []
  deadline : why = .deadline ↔ why ≠ .local ∧ Late os r s
  provider : why = .provider ↔ why ≠ .local ∧ ¬ Late os r s ∧ Refused s
  transport : why = .transport ↔ why ≠ .local ∧ ¬ Late os r s ∧ ¬ Refused s
  broken : why = .transport → Broken os r s
  status : why ≠ .local → providerStatus = .ofNat (((splitStatus s.outBuf).map (·.2)).getD 0)

def Explained (os : Os) (r : HttpRequest) : HttpReply → Http → Prop
  | .response raw => Responds os r raw
  | .failed why providerStatus => Fails os r why providerStatus

theorem complete_responds (h : Exchanged r s) (hcomplete : s.complete = true) (hcalls : ∃ n < s.calls,
    (os n).nowUs ≤ r.deadlineUs ∧ n + 1 = s.calls) :
    Responds os r (((splitStatus s.outBuf).map (·.1)).getD []) s := by
  unfold complete at hcomplete
  cases hsplit : splitStatus s.outBuf with
  | none => simp [hsplit] at hcomplete
  | some reply =>
    obtain ⟨raw, code⟩ := reply
    simp [hsplit] at hcomplete
    obtain ⟨⟨⟨hover, hfailed⟩, hexited⟩, ⟨hne, hlow⟩, hhigh⟩ := hcomplete
    obtain ⟨d1, d2, d3, hbuf, h1, h2, h3, hcode⟩ := splitStatus_eq_some hsplit
    have htwo : d1 = 0x32 := eq_two_of_success h1 h2 h3 (by omega) (by omega)
    constructor
    case stdout =>
      refine ⟨d2, d3, ?_, h2, h3⟩
      rw [h.stdout hover, hbuf, htwo]
      rfl
    case nonempty => exact hne
    case fits =>
      have hfits := h.outBuf
      have hlen := congrArg List.length hbuf
      simp only [List.length_append, List.length_cons, List.length_nil] at hlen
      change raw.length + 5 ≤ r.bufSize
      omega
    case exited => exact hexited
    case stdin =>
      intro hclosed
      have hall : s.written = r.payload.length := by
        obtain hall | hall := h.closed hclosed
        · exact hall
        · simp [hfailed] at hall
      rw [h.stdin, hall, List.take_length]
    case inTime => exact hcalls

theorem remaining_eq_zero_iff {deadlineUs nowUs : Int} :
    min (((deadlineUs - nowUs).toNat + 999) / 1000) (2 ^ 32 - 1) = 0 ↔ deadlineUs ≤ nowUs := by
  omega

theorem failure_late {timeoutMs : Nat} (h : timeoutMs = 0 ∨ s.Exited 28) : s.failure timeoutMs = .deadline := if_pos h

theorem failure_refused {timeoutMs : Nat} (htime : ¬ (timeoutMs = 0 ∨ s.Exited 28)) (h : Refused s) :
    s.failure timeoutMs = .provider := by
  unfold failure
  rw [if_neg htime]
  split_ifs with hstatus hexit
  · rfl
  · rfl
  · exact (h.elim hstatus hexit).elim

theorem failure_transport {timeoutMs : Nat} (htime : ¬ (timeoutMs = 0 ∨ s.Exited 28)) (h : ¬ Refused s) :
    s.failure timeoutMs = .transport := by
  unfold failure
  rw [if_neg htime, if_neg fun hstatus => h (.inl hstatus), if_neg fun hexit => h (.inr hexit)]

theorem late_fails {providerStatus : UInt16} (h : Late os r s)
    (hstatus : providerStatus = .ofNat (((splitStatus s.outBuf).map (·.2)).getD 0)) :
    Fails os r .deadline providerStatus s := by
  constructor <;> simp [h, hstatus]

/-- The kind of a failure, where what is late shows in the time that is left. -/
theorem failure_fails {timeoutMs : Nat} (hlate : Late os r s ↔ timeoutMs = 0 ∨ s.Exited 28)
    (hbroken : ¬ Late os r s → ¬ Refused s → Broken os r s) :
    Fails os r (s.failure timeoutMs) (.ofNat (((splitStatus s.outBuf).map (·.2)).getD 0)) s := by
  by_cases htime : timeoutMs = 0 ∨ s.Exited 28
  · rw [failure_late htime]
    exact late_fails (hlate.mpr htime) rfl
  · have hl := mt hlate.mp htime
    by_cases hrefused : Refused s
    · rw [failure_refused htime hrefused]
      constructor <;> simp [hl, hrefused]
    · rw [failure_transport htime hrefused]
      constructor <;> simp [hl, hrefused, hbroken hl hrefused]

theorem broken_of_incomplete (h : Exchanged r s) (hcomplete : s.complete = false) (hrefused : ¬ Refused s) :
    Broken os r s := by
  by_contra hwhole
  unfold Broken at hwhole
  push Not at hwhole
  obtain ⟨hfits, ⟨reply, hreply, hne⟩, hgiven, hexited, -⟩ := hwhole
  have hover : s.overflow = false := by
    by_contra hover
    have hlong := h.overflow (by simpa using hover)
    omega
  have hnever : s.writeFailed = false := by
    by_contra hfailed
    have hless := (h.failed (by simpa using hfailed)).2
    rw [h.stdin, List.length_take, min_eq_left h.written] at hgiven
    omega
  have hstatus : ¬ (reply.2 < 200 ∨ 300 ≤ reply.2) := fun hbad => hrefused (.inl (by simpa [hreply] using hbad))
  simp [complete, hover, hnever, hexited, hreply, hne] at hcomplete
  omega

/-- A request that was made and has failed, where `t` differs from `s` in the number of calls. -/
theorem fail_explained {t : Http} (h : Left [] (Exchanged r) t) {calls : Nat} (ht : t = { s with calls := calls })
    (hwhy : s.complete = false ∨ ∃ n, n + 1 = calls ∧ r.deadlineUs < (os n).nowUs) :
    Meets Sound (do
      let timeoutMs ← remainingTimeoutMs os r.deadlineUs
      pure (HttpReply.failed (s.failure timeoutMs) (.ofNat (((splitStatus s.outBuf).map (·.2)).getD 0)))) t
      fun reply u => u.handles.Holds [] ∧ Explained os r reply u := by
  apply Meets.bind (Q := fun timeoutMs u => u = { t with calls := t.calls + 1 } ∧
    (timeoutMs = 0 ↔ r.deadlineUs ≤ (os t.calls).nowUs))
  · exact ⟨rfl, remaining_eq_zero_iff⟩
  · rintro timeoutMs _ ⟨rfl, hzero⟩
    subst ht
    refine ⟨h.holds, failure_fails (s := { s with calls := calls + 1 }) ?_ fun _ hrefused => ?_⟩
    · refine or_congr ⟨?_, fun htime => ⟨calls, rfl, hzero.mp htime⟩⟩ Iff.rfl
      rintro ⟨n, hn, hpast⟩
      obtain rfl : n = calls := Nat.succ_injective hn
      exact hzero.mpr hpast
    · obtain hincomplete | ⟨n, hn, hpast⟩ := hwhy
      · exact broken_of_incomplete (s := { s with calls := calls + 1 }) { h.data with } hincomplete hrefused
      · exact .inr (.inr (.inr (.inr ⟨n, congrArg Nat.succ hn, hpast⟩)))

theorem conclude_explained (h : Left [] (Exchanged r) s) :
    Meets Sound (conclude os r) s fun reply t => t.handles.Holds [] ∧ Explained os r reply t := by
  unfold conclude
  apply Meets.get_bind
  by_cases hcomplete : s.complete = true
  · rw [if_pos hcomplete]
    apply meets_readClock
    apply Meets.bind (Q := fun ok t => t = { s with calls := s.calls + 1 } ∧
      (ok = true ↔ (os s.calls).nowUs ≤ r.deadlineUs))
    · exact Meets.pure ⟨rfl, decide_eq_true_iff⟩
    · rintro ok _ ⟨rfl, hok⟩
      apply Meets.ite
      · intro hnow
        constructor
        · exact h.holds
        · exact complete_responds (h.call stable_exchanged).data hcomplete ⟨s.calls, Nat.lt_succ_self _, hok.mp hnow, rfl⟩
      · intro hnow
        exact fail_explained (h.call stable_exchanged) rfl (.inr ⟨s.calls, rfl, not_le.mp (mt hok.mpr hnow)⟩)
  · rw [if_neg hcomplete]
    apply Meets.bind (Q := fun ok t => t = s ∧ ok = false)
    · exact Meets.pure ⟨rfl, rfl⟩
    · rintro _ _ ⟨rfl, rfl⟩
      exact fail_explained h rfl (.inl (Bool.eq_false_iff.mpr hcomplete))

/-! ## The whole request -/

/-- Nothing was exchanged. -/
def Untouched (s : Http) : Prop := s.stdin = [] ∧ s.stdout = []

theorem local_explained (h : Untouched s) : Explained os r (.failed .local 0) s :=
  ⟨fun _ => h, by simp, by simp, by simp, by simp, by simp⟩

theorem giveUp_explained {xs held : List Resource} (hheld : s.handles.Holds held) (hnodup : xs.Nodup)
    (hsame : ∀ x, x ∈ xs ↔ x ∈ held) (hs : Untouched s) :
    Meets Sound (giveUp xs) s fun reply t => t.handles.Holds [] ∧ Explained os r reply t := by
  unfold giveUp releaseAll
  apply Meets.change_bind
  apply Meets.pure
  constructor
  · apply (hheld.releaseAll hnodup fun x hx => (hsame x).mp hx).congr
    simp
    exact fun x hx => (hsame x).mpr hx
  · exact local_explained hs

/-- Nothing was exchanged yet. -/
structure Fresh (s : Http) : Prop where
  untouched : Untouched s
  outBuf : s.outBuf = []
  written : s.written = 0
  overflow : s.overflow = false
  writeFailed : s.writeFailed = false

theorem stable_fresh : Stable Fresh := fun _ _ _ _ h => { h with }

theorem meets_control {x : Resource} {held : List Resource} {f : Bool → HttpM α} (h : s.handles.Holds held) (hx : x ∈ held)
    (hf : Meets inv (f (os s.calls).ok) { s with calls := s.calls + 1 } P) : Meets inv (control os x >>= f) s P := by
  have huse := h.use hx
  apply Meets.bind (Q := fun ok t => ok = (os s.calls).ok ∧ t = { s with calls := s.calls + 1 })
  · unfold control use
    apply Meets.change_bind
    rw [huse]
    exact meets_call (Meets.pure ⟨rfl, rfl⟩)
  · rintro _ _ ⟨rfl, rfl⟩
    exact hf

/-- The parent's ends of the pipes. -/
def ends (r : HttpRequest) : List Resource := .outRead :: if r.hasInput then [.inWrite] else []

theorem payload_of_no_input (h : r.hasInput = false) : r.payload = [] := by
  have hnone : r.inputPayload = none := by simpa [HttpRequest.hasInput] using h
  simp [HttpRequest.payload, hnone]

theorem begin_serving (hsize : 2 ≤ r.bufSize) (h : Left (ends r ++ [.sigpipe, .child]) Fresh s) :
    Serving r { s with inOpen := r.hasInput, outOpen := true } where
  holds := by
    apply h.holds.congr
    intro x
    simp [ends, held]
    tauto
  data := by
    obtain ⟨⟨hstdin, hstdout⟩, hbuf, hwritten, hover, hnever⟩ := h.data
    constructor
    case outBuf =>
      simp [hbuf]
      omega
    case stdout => simp [hstdout, hbuf]
    case written => simp [hwritten]
    case stdin => simp [hstdin, hwritten]
    case closed =>
      intro hno
      simp [hwritten, payload_of_no_input hno]
    case overflow => simp [hover]
    case failed => simp [hnever]

theorem Serving.finish (h : Serving r s) :
    Left [.child] (Exchanged r) { s with
      handles := ((if s.inOpen then [Resource.inWrite] else []) ++ (if s.outOpen then [Resource.outRead] else []) ++
        [Resource.sigpipe]).foldl Handles.release s.handles } where
  holds := by
    apply (h.holds.releaseAll _ _).congr
    · intro x
      simp [held]
      cases x <;> simp
    · cases s.inOpen <;> cases s.outOpen <;> decide
    · intro x hx
      simp [held] at hx ⊢
      tauto
  data := { h.data with }

theorem exchange_explained (rounds : Nat) (hsize : 2 ≤ r.bufSize) (h : Left (ends r ++ [.sigpipe, .child]) Fresh s) :
    Meets Sound (do
      modify fun s => { s with inOpen := r.hasInput, outOpen := true }
      when (r.hasInput && r.payload = []) (closeInput false)
      repeatUntil rounds (exchangeRound os rounds r)
      let s ← get
      releaseAll ((if s.inOpen then [.inWrite] else []) ++ (if s.outOpen then [.outRead] else []) ++ [.sigpipe])
      repeatUntil rounds (awaitRound os rounds r)
      conclude os r) s fun reply t => t.handles.Holds [] ∧ Explained os r reply t := by
  have hbegin := begin_serving hsize h
  apply Meets.change_bind
  apply Meets.bind (Q := fun _ t => Serving r t)
  · apply Meets.when
    · intro hempty
      simp at hempty
      apply closeInput_serving hbegin hempty.1
      · simp [h.data.written, hempty.2]
      · simp
    · exact fun _ => hbegin
  · intro _ t ht
    apply Meets.bind (Q := fun _ t => Serving r t)
    · apply Meets.repeatUntil (R := Serving r)
      · intro u hu
        apply (exchangeRound_serving hu rounds).mono
        intro done v hv
        cases done with
        | true => exact hv
        | false => exact hv
      · exact fun u hu => hu.sound
      · exact ht
    · intro _ u hu
      apply Meets.get_bind
      apply Meets.change_bind
      apply Meets.bind (Q := fun _ v => Left [] (Exchanged r) v)
      · exact Meets.repeatUntil (fun v hv => awaitRound_left hv rounds) (fun v hv => hv.holds.sound) rounds hu.finish
      · exact fun _ v hv => conclude_explained hv

theorem abandon_explained (rounds : Nat) (h : Left (ends r ++ [.sigpipe, .child]) Fresh s) :
    Meets Sound (do
      releaseAll (.outRead :: if r.hasInput then [.inWrite] else [])
      use .child
      repeatUntil rounds (waitRound os)
      giveUp [.sigpipe]) s fun reply t => t.handles.Holds [] ∧ Explained os r reply t := by
  have hreleased : ((ends r).foldl Handles.release s.handles).Holds [.child, .sigpipe] := by
    apply (h.holds.releaseAll _ _).congr
    · intro x
      simp [ends]
      cases x <;> simp
    · unfold ends
      cases r.hasInput <;> decide
    · intro x hx
      exact List.mem_append_left _ hx
  have hkill := hreleased.use List.mem_cons_self
  unfold releaseAll use
  apply Meets.change_bind
  apply Meets.change_bind
  change Meets Sound _ { s with handles := ((ends r).foldl Handles.release s.handles).use .child } _
  rw [hkill]
  have hleft : Left [.child, .sigpipe] Fresh { s with handles := (ends r).foldl Handles.release s.handles } :=
    ⟨hreleased, { h.data with }⟩
  apply (await_left stable_fresh (by decide) rounds hleft).bind
  intro _ t ht
  exact giveUp_explained ht.holds (by decide) (fun _ => Iff.rfl) ht.data.untouched

theorem runCurl_explained (rounds : Nat) (hsize : 2 ≤ r.bufSize)
    (h : Left (ends r ++ [.sigpipe, .child]) Fresh s) :
    Meets Sound (runCurl os rounds r) s fun reply t => t.handles.Holds [] ∧ Explained os r reply t := by
  have hcall := h.call stable_fresh
  unfold runCurl
  apply meets_control h.holds (by simp [ends])
  apply Meets.bind (Q := fun _ t => Left (ends r ++ [.sigpipe, .child]) Fresh t)
  · apply Meets.ite
    · intro hin
      have huse := hcall.holds.use (i := .inWrite) (by simp [ends, hin])
      unfold control use
      apply Meets.change_bind
      rw [huse]
      exact meets_call (Meets.pure (hcall.call stable_fresh))
    · exact fun _ => hcall
  · intro inOk t ht
    apply Meets.ite
    · exact fun _ => abandon_explained rounds ht
    · exact fun _ => exchange_explained rounds hsize ht

/-- Both ends of the pipes. -/
def pipes (r : HttpRequest) : List Resource := [.outRead, .outWrite] ++ if r.hasInput then [.inRead, .inWrite] else []

theorem nodup_pipes (r : HttpRequest) : (pipes r ++ [Resource.sigpipe]).Nodup := by
  unfold pipes
  cases r.hasInput <;> decide

theorem spawned_left (argv : Option (List Bytes)) {attrOk spawned : Bool} (h : Left
      ((if spawned then [Resource.child] else []) ++ ((if attrOk then [.attr] else []) ++ .actions :: (pipes r ++ [.sigpipe])))
      Fresh s) :
    Left (ends r ++ .sigpipe :: if spawned then [.child] else []) Fresh { s with
      argv := argv
      handles := (Resource.actions :: ((if attrOk then [Resource.attr] else []) ++
        .outWrite :: if r.hasInput then [.inRead] else [])).foldl Handles.release s.handles } where
  holds := by
    apply (h.holds.releaseAll _ _).congr
    · intro x
      simp [ends, pipes]
      cases x <;> simp
    · cases attrOk <;> cases r.hasInput <;> decide
    · intro x hx
      simp [pipes] at hx ⊢
      tauto
  data := { h.data with }

theorem Left.acquire {held : List Resource} (h : Left held Fresh s) {x : Resource} (hx : x ∉ held) {c : Bool} :
    Meets inv (when c (acquire x)) s fun _ t => Left ((if c then [x] else []) ++ held) Fresh t ∧ t.calls = s.calls := by
  apply Meets.when
  · rintro rfl
    exact ⟨⟨h.holds.acquire hx, { h.data with }⟩, rfl⟩
  · rintro rfl
    exact ⟨h, rfl⟩

theorem spawnCurl_explained (curl : Bytes) (rounds timeoutMs : Nat) (hsize : 2 ≤ r.bufSize)
    (h : Left (pipes r ++ [.sigpipe]) Fresh s) :
    Meets Sound (spawnCurl os curl rounds r timeoutMs) s fun reply t => t.handles.Holds [] ∧ Explained os r reply t := by
  have hcall := h.call stable_fresh
  have hactions : Resource.actions ∉ pipes r ++ [.sigpipe] := by simp [pipes]
  have hattr : Resource.attr ∉ .actions :: (pipes r ++ [.sigpipe]) := by simp [pipes]
  unfold spawnCurl
  apply Meets.ite
  · exact fun _ => giveUp_explained h.holds (nodup_pipes r) (fun _ => Iff.rfl) h.data.untouched
  · intro _
    apply meets_call
    apply Meets.ite
    · exact fun _ => giveUp_explained hcall.holds (nodup_pipes r) (fun _ => Iff.rfl) hcall.data.untouched
    · intro _
      apply Meets.change_bind
      have hacquired : Left (.actions :: (pipes r ++ [.sigpipe])) Fresh
          { s with calls := s.calls + 1, handles := s.handles.acquire .actions } :=
        ⟨hcall.holds.acquire hactions, { hcall.data with }⟩
      apply meets_call
      apply (Left.acquire (hacquired.call stable_fresh) hattr).bind
      intro _ t ⟨ht, _⟩
      apply meets_call
      have hspawn := ht.call stable_fresh
      apply Meets.bind (Q := fun _ u =>
        Left ((if (os t.calls).ok then [Resource.child] else []) ++ ((if (os (s.calls + 1)).ok then [.attr] else []) ++
          .actions :: (pipes r ++ [.sigpipe]))) Fresh u)
      · apply Meets.when
        · intro hok
          apply Meets.change_bind
          apply Meets.change
          rw [hok]
          exact ⟨hspawn.holds.acquire (by cases (os (s.calls + 1)).ok <;> simp [pipes]), { hspawn.data with }⟩
        · intro hok
          rw [hok]
          exact hspawn
      · intro _ u hu
        have hleft := spawned_left u.argv hu
        apply Meets.change_bind
        apply Meets.ite
        · intro hfailed
          have hok : (os t.calls).ok = false := by simpa using hfailed
          rw [hok] at hleft
          apply giveUp_explained hleft.holds _ (fun _ => by simp [ends]) hleft.data.untouched
          cases r.hasInput <;> decide
        · intro hstarted
          have hok : (os t.calls).ok = true := by simpa using hstarted
          rw [hok] at hleft
          exact runCurl_explained rounds hsize hleft

theorem openPipe_left {held : List Resource} {reader writer : Resource} (h : Left held Fresh s) (hreader : reader ∉ held)
    (hwriter : writer ∉ reader :: held) :
    Meets Sound (openPipe os reader writer) s fun ok t => Left ((if ok then [writer, reader] else []) ++ held) Fresh t := by
  have hcall := h.call stable_fresh
  unfold openPipe
  apply meets_call
  apply Meets.bind (Q := fun _ t => Left ((if (os s.calls).ok then [writer, reader] else []) ++ held) Fresh t)
  · apply Meets.when
    · intro hok
      rw [hok]
      exact ⟨(hcall.holds.acquire hreader).acquire hwriter, { hcall.data with }⟩
    · intro hok
      rw [hok]
      exact hcall
  · exact fun _ t ht => ht

theorem setCloexec_left {held : List Resource} {reader writer : Resource} (h : Left held Fresh s) (hreader : reader ∈ held)
    (hwriter : writer ∈ held) : Meets Sound (setCloexec os reader writer) s fun _ t => Left held Fresh t := by
  have hcall := h.call stable_fresh
  unfold setCloexec
  apply meets_control h.holds hreader
  apply Meets.ite
  · intro _
    have huse := hcall.holds.use hwriter
    unfold control use
    apply Meets.change_bind
    rw [huse]
    exact meets_call (Meets.pure (hcall.call stable_fresh))
  · exact fun _ => hcall

theorem Left.congr {held held' : List Resource} (h : Left held D s) (hsame : ∀ x, x ∈ held ↔ x ∈ held') :
    Left held' D s :=
  ⟨h.holds.congr hsame, h.data⟩

theorem Left.opened {held xs : List Resource} {ok : Bool} (h : Left ((if ok then xs else []) ++ held) D s) :
    (ok = true → Left (xs ++ held) D s) ∧ (ok = false → Left held D s) := by
  cases ok
  · exact ⟨by simp, fun _ => h⟩
  · exact ⟨fun _ => h, by simp⟩

theorem requestInput_explained (curl : Bytes) (rounds timeoutMs : Nat) (hsize : 2 ≤ r.bufSize)
    (h : Left [.outWrite, .outRead, .sigpipe] Fresh s) :
    Meets Sound (if r.hasInput then do
        if !(← openPipe os .inRead .inWrite) then giveUp [.outRead, .outWrite, .sigpipe]
        else if !(← setCloexec os .inRead .inWrite) then giveUp [.inRead, .inWrite, .outRead, .outWrite, .sigpipe]
        else spawnCurl os curl rounds r timeoutMs
      else spawnCurl os curl rounds r timeoutMs) s fun reply t => t.handles.Holds [] ∧ Explained os r reply t := by
  apply Meets.ite
  · intro hin
    apply (openPipe_left h (by decide) (by decide)).bind
    intro ok t ht
    obtain ⟨hopened, hnot⟩ := ht.opened
    apply Meets.ite
    · intro hfailed
      have hleft := hnot (by simpa using hfailed)
      exact giveUp_explained hleft.holds (by decide) (by simp; tauto) hleft.data.untouched
    · intro hok
      have hleft := hopened (by simpa using hok)
      apply (setCloexec_left hleft (by decide) (by decide)).bind
      intro _ u hu
      apply Meets.ite
      · exact fun _ => giveUp_explained hu.holds (by decide) (by simp; tauto) hu.data.untouched
      · intro _
        apply spawnCurl_explained curl rounds timeoutMs hsize
        apply hu.congr
        simp [pipes, hin]
        tauto
  · intro hno
    apply spawnCurl_explained curl rounds timeoutMs hsize
    apply h.congr
    simp [pipes, hno]
    tauto

theorem request_explained (curl : Bytes) (rounds : Nat) :
    Meets Sound (request os curl rounds r) .start fun reply t => t.handles.Holds [] ∧ Explained os r reply t := by
  have huntouched : Untouched Http.start := ⟨rfl, rfl⟩
  unfold request
  apply Meets.ite
  · exact fun _ => ⟨Handles.holds_empty, local_explained huntouched⟩
  · intro hsize
    apply Meets.bind (Q := fun timeoutMs t => t = { Http.start with calls := 1 } ∧
      (timeoutMs = 0 ↔ r.deadlineUs ≤ (os 0).nowUs))
    · exact ⟨rfl, remaining_eq_zero_iff⟩
    · rintro timeoutMs _ ⟨rfl, hlate⟩
      apply Meets.ite
      · intro hzero
        have hpast : Late os r { Http.start with calls := 1 } := .inl ⟨0, rfl, hlate.mp hzero⟩
        exact ⟨Handles.holds_empty, late_fails hpast rfl⟩
      · intro _
        apply Meets.change_bind
        have hsigpipe : Left [.sigpipe] Fresh { Http.start with calls := 1, handles := Handles.empty.acquire .sigpipe } :=
          ⟨Handles.holds_empty.acquire List.not_mem_nil, huntouched, rfl, rfl, rfl, rfl⟩
        apply (openPipe_left hsigpipe (by decide) (by decide)).bind
        intro ok t ht
        obtain ⟨hopened, hnot⟩ := ht.opened
        apply Meets.ite
        · intro hfailed
          have hleft := hnot (by simpa using hfailed)
          exact giveUp_explained hleft.holds (by decide) (fun _ => Iff.rfl) hleft.data.untouched
        · intro hok
          have hleft := hopened (by simpa using hok)
          apply (setCloexec_left hleft (by decide) (by decide)).bind
          intro _ u hu
          apply Meets.ite
          · exact fun _ => giveUp_explained hu.holds (by decide) (by simp; tauto) hu.data.untouched
          · exact fun _ => requestInput_explained curl rounds timeoutMs (by omega) hu

/-! ## What keeps a request from being made -/

/-- The calls that must succeed before anything is exchanged, by their numbers: the pipes, that they are not inherited,
the file actions, the spawn, and that the pipes do not block. -/
def setupCalls (r : HttpRequest) : List Nat := if r.hasInput then [1, 2, 3, 4, 5, 6, 7, 9, 10, 11] else [1, 2, 3, 4, 6, 7]

/-- No room for a response; or, with time left, a header that is too long or a call that fails. -/
def Prevented (os : Os) (r : HttpRequest) : Prop :=
  r.bufSize < 2 ∨ (os 0).nowUs < r.deadlineUs ∧
    ((r.contentType.any fun contentType => 256 ≤ (HttpRequest.ctHeader contentType).length) = true ∨
      ∃ n ∈ setupCalls r, (os n).ok = false)

/-- The first `n` calls have not kept the request from being made. -/
structure SetUp (os : Os) (r : HttpRequest) (n : Nat) : Prop where
  size : 2 ≤ r.bufSize
  time : (os 0).nowUs < r.deadlineUs
  ok : ∀ m ∈ setupCalls r, m < n → (os m).ok = true

theorem SetUp.next {n : Nat} (h : SetUp os r n) (hn : n ∈ setupCalls r → (os n).ok = true) : SetUp os r (n + 1) where
  size := h.size
  time := h.time
  ok m hm hlt := by
    rcases Nat.lt_succ_iff_lt_or_eq.mp hlt with hlt | rfl
    · exact h.ok m hm hlt
    · exact hn hm

theorem SetUp.prevented {n : Nat} (h : SetUp os r n) (hn : n ∈ setupCalls r) (hfailed : (os n).ok = false) :
    Prevented os r := .inr ⟨h.time, .inr ⟨n, hn, hfailed⟩⟩

/-- The reply is a local failure exactly if the request was kept from being made. -/
def Sorted (os : Os) (r : HttpRequest) (reply : HttpReply) : Prop :=
  (∃ providerStatus, reply = .failed .local providerStatus) ↔ Prevented os r

/-- The program sorts its reply. -/
def Sorts (os : Os) (r : HttpRequest) (m : HttpM HttpReply) (s : Http) : Prop :=
  Meets (fun _ => True) m s fun reply _ => Sorted os r reply

theorem sorts_giveUp (xs : List Resource) (h : Prevented os r) : Sorts os r (giveUp xs) s :=
  ⟨fun _ => h, fun _ => ⟨0, rfl⟩⟩

/-- A call of the set-up, made as the `n`-th. -/
def Asks (os : Os) (n : Nat) (m : HttpM Bool) : Prop :=
  ∀ s : Http, s.calls = n → Meets (fun _ => True) m s fun ok t => ok = (os n).ok ∧ t.calls = n + 1

theorem asks_control (x : Resource) (n : Nat) : Asks os n (control os x) := by
  rintro s rfl
  exact ⟨rfl, rfl⟩

theorem asks_openPipe (reader writer : Resource) (n : Nat) : Asks os n (openPipe os reader writer) := by
  rintro s rfl
  unfold openPipe
  apply meets_call
  apply Meets.bind (Q := fun _ t => t.calls = s.calls + 1)
  · apply Meets.when
    · exact fun _ => rfl
    · exact fun _ => rfl
  · exact fun _ t ht => ⟨rfl, ht⟩

/-- A call of the set-up that fails keeps the request from being made. -/
theorem Asks.bind {n : Nat} {m : HttpM Bool} {f : Bool → HttpM HttpReply} (hm : Asks os n m) (h : SetUp os r n)
    (hn : n ∈ setupCalls r) (hs : s.calls = n)
    (hf : ∀ t, Prevented os r → t.calls = n + 1 → Sorts os r (f false) t)
    (ht : ∀ t, SetUp os r (n + 1) → t.calls = n + 1 → Sorts os r (f true) t) : Sorts os r (m >>= f) s := by
  apply Meets.bind (hm s hs)
  rintro ok t ⟨rfl, hcalls⟩
  cases hok : (os n).ok with
  | false => exact hf t (h.prevented hn hok) hcalls
  | true => exact ht t (h.next fun _ => hok) hcalls

theorem sorts_setCloexec {n : Nat} {reader writer : Resource} {f : Bool → HttpM HttpReply} (h : SetUp os r n)
    (hn : n ∈ setupCalls r) (hn' : n + 1 ∈ setupCalls r) (hs : s.calls = n)
    (hf : ∀ t, Prevented os r → Sorts os r (f false) t)
    (ht : ∀ t, SetUp os r (n + 2) → t.calls = n + 2 → Sorts os r (f true) t) :
    Sorts os r (setCloexec os reader writer >>= f) s := by
  unfold setCloexec
  rw [bind_assoc]
  apply (asks_control reader n).bind h hn hs
  · exact fun t hprevented _ => hf t hprevented
  · intro t h ht'
    exact (asks_control writer (n + 1)).bind h hn' ht' (fun u hprevented _ => hf u hprevented) ht

theorem failure_ne_local (timeoutMs : Nat) : s.failure timeoutMs ≠ .local := by
  unfold failure
  split_ifs <;> simp

/-- What comes before the reply does not matter to how it is sorted. -/
theorem Sorts.after {m : HttpM α} {f : α → HttpM HttpReply} (hf : ∀ a t, Sorts os r (f a) t) : Sorts os r (m >>= f) s := by
  apply Meets.bind (Q := fun _ _ => True)
  · unfold Meets
    split <;> trivial
  · exact fun a t _ => hf a t

theorem sorts_conclude (h : ¬ Prevented os r) : Sorts os r (conclude os r) s := by
  have hresponse (raw : Bytes) : Sorted os r (.response raw) := by simp [Sorted, h]
  have hfailed (timeoutMs : Nat) (providerStatus : UInt16) : Sorted os r (.failed (s.failure timeoutMs) providerStatus) := by
    simp [Sorted, h, failure_ne_local]
  have hreply (ok : Bool) (t : Http) : Sorts os r (if ok then pure (.response (((splitStatus s.outBuf).map (·.1)).getD []))
      else do
        let timeoutMs ← remainingTimeoutMs os r.deadlineUs
        pure (.failed (s.failure timeoutMs) (.ofNat (((splitStatus s.outBuf).map (·.2)).getD 0)))) t :=
    Meets.ite (fun _ => Meets.pure (hresponse _)) fun _ => Sorts.after fun _ _ => Meets.pure (hfailed _ _)
  exact Meets.get_bind (Meets.ite (fun _ => Sorts.after fun _ _ => Sorts.after fun _ _ => hreply _ _)
    fun _ => Sorts.after fun _ _ => hreply _ _)

theorem SetUp.clear {n : Nat} (h : SetUp os r n) (hall : ∀ m ∈ setupCalls r, m < n)
    (hheader : (r.contentType.any fun contentType => 256 ≤ (HttpRequest.ctHeader contentType).length) = false) :
    ¬ Prevented os r := by
  have hsize := h.size
  rintro (hsmall | ⟨-, hlong | ⟨m, hm, hfailed⟩⟩)
  · omega
  · rw [hheader] at hlong
    cases hlong
  · rw [h.ok m hm (hall m hm)] at hfailed
    cases hfailed

/-- The number of the call that makes the output's pipe not block. -/
def controlCall (r : HttpRequest) : Nat := if r.hasInput then 10 else 7

theorem sorts_runCurl (rounds : Nat) (h : SetUp os r (controlCall r)) (hs : s.calls = controlCall r)
    (hheader : (r.contentType.any fun contentType => 256 ≤ (HttpRequest.ctHeader contentType).length) = false) :
    Sorts os r (runCurl os rounds r) s := by
  have hout : controlCall r ∈ setupCalls r := by
    unfold controlCall setupCalls
    cases r.hasInput <;> decide
  have hin (hinput : r.hasInput = true) : controlCall r + 1 ∈ setupCalls r := by
    unfold controlCall setupCalls
    rw [if_pos hinput, if_pos hinput]
    decide
  have hall : ∀ m ∈ setupCalls r, m < controlCall r + 1 + 1 := by
    unfold controlCall setupCalls
    cases r.hasInput <;> decide
  have habandon (hprevented : Prevented os r) (xs : List Resource) (t : Http) : Sorts os r (do
      releaseAll xs
      use .child
      repeatUntil rounds (waitRound os)
      giveUp [.sigpipe]) t :=
    Sorts.after fun _ _ => Sorts.after fun _ _ => Sorts.after fun _ _ => sorts_giveUp _ hprevented
  unfold runCurl
  apply Meets.bind (asks_control _ _ s hs)
  rintro _ t ⟨rfl, ht⟩
  apply Meets.bind (Q := fun inOk _ => inOk = (!r.hasInput || (os (controlCall r + 1)).ok))
  · apply Meets.ite
    · intro hinput
      apply (asks_control .inWrite _ t ht).mono
      rintro ok u ⟨rfl, -⟩
      rw [hinput]
      rfl
    · intro hnone
      rw [Bool.not_eq_true] at hnone
      rw [hnone]
      exact Meets.pure rfl
  · rintro _ u rfl
    apply Meets.ite
    · intro hfailed
      apply habandon
      rw [Bool.not_eq_true', Bool.and_eq_false_iff, Bool.or_eq_false_iff, Bool.not_eq_false'] at hfailed
      rcases hfailed with hfailed | ⟨hinput, hfailed⟩
      · exact h.prevented hout hfailed
      · exact .inr ⟨h.time, .inr ⟨_, hin hinput, hfailed⟩⟩
    · intro hok
      rw [Bool.not_eq_true', Bool.not_eq_false, Bool.and_eq_true, Bool.or_eq_true, Bool.not_eq_true'] at hok
      have hset : SetUp os r (controlCall r + 1 + 1) := (h.next fun _ => hok.1).next fun hmem => by
        refine hok.2.resolve_left fun hnone => ?_
        unfold controlCall setupCalls at hmem
        rw [if_neg (by simp [hnone]), if_neg (by simp [hnone])] at hmem
        revert hmem
        decide
      refine Sorts.after fun _ _ => Sorts.after fun _ _ => Sorts.after fun _ _ => Meets.get_bind ?_
      exact Sorts.after fun _ _ => Sorts.after fun _ _ => sorts_conclude (hset.clear hall hheader)

/-- The number of the call that prepares the file actions. -/
def actionsCall (r : HttpRequest) : Nat := if r.hasInput then 7 else 4

theorem sorts_spawnCurl (curl : Bytes) (rounds timeoutMs : Nat) (h : SetUp os r (actionsCall r))
    (hs : s.calls = actionsCall r) : Sorts os r (spawnCurl os curl rounds r timeoutMs) s := by
  have hactions : actionsCall r ∈ setupCalls r := by
    unfold actionsCall setupCalls
    cases r.hasInput <;> decide
  have hattr : actionsCall r + 1 ∉ setupCalls r := by
    unfold actionsCall setupCalls
    cases r.hasInput <;> decide
  have hspawn : actionsCall r + 2 ∈ setupCalls r := by
    unfold actionsCall setupCalls
    cases r.hasInput <;> decide
  have hcontrol : actionsCall r + 3 = controlCall r := by
    unfold actionsCall controlCall
    cases r.hasInput <;> rfl
  unfold spawnCurl
  apply Meets.ite
  · exact fun hlong => sorts_giveUp _ (.inr ⟨h.time, .inl hlong⟩)
  · intro hheader
    rw [Bool.not_eq_true] at hheader
    apply meets_call
    apply Meets.ite
    · intro hfailed
      rw [hs, Bool.not_eq_true'] at hfailed
      exact sorts_giveUp _ (h.prevented hactions hfailed)
    · intro hok
      rw [hs, Bool.not_eq_true', Bool.not_eq_false] at hok
      have hset := (h.next fun _ => hok).next fun hmem => absurd hmem hattr
      apply Meets.change_bind
      apply meets_call
      apply Meets.bind (Q := fun _ t => t.calls = actionsCall r + 2)
      · have hcalls : s.calls + 2 = actionsCall r + 2 := congrArg (· + 2) hs
        exact Meets.when (fun _ => Meets.change hcalls) fun _ => hcalls
      · intro _ t ht
        apply meets_call
        apply Meets.bind (Q := fun _ u => u.calls = actionsCall r + 3)
        · have hcalls : t.calls + 1 = actionsCall r + 3 := congrArg (· + 1) ht
          exact Meets.when (fun _ => Meets.change_bind (Meets.change hcalls)) fun _ => hcalls
        · intro _ u hu
          apply Meets.change_bind
          apply Meets.ite
          · intro hfailed
            rw [ht, Bool.not_eq_true'] at hfailed
            exact sorts_giveUp _ (hset.prevented hspawn hfailed)
          · intro hok
            rw [ht, Bool.not_eq_true', Bool.not_eq_false] at hok
            exact sorts_runCurl rounds (hcontrol ▸ hset.next fun _ => hok) (hcontrol ▸ hu) hheader

theorem sorts_request (curl : Bytes) (rounds : Nat) : Sorts os r (request os curl rounds r) .start := by
  unfold request
  apply Meets.ite
  · exact fun hsmall => ⟨fun _ => .inl hsmall, fun _ => ⟨0, rfl⟩⟩
  · intro hsize
    rw [not_lt] at hsize
    apply Meets.bind (Q := fun timeoutMs t => t.calls = 1 ∧ (timeoutMs = 0 ↔ r.deadlineUs ≤ (os 0).nowUs))
    · exact ⟨rfl, remaining_eq_zero_iff⟩
    · rintro timeoutMs t ⟨ht, hlate⟩
      apply Meets.ite
      · intro hzero
        have hpast := hlate.mp hzero
        have hno : ¬ Prevented os r := by
          rintro (hsmall | ⟨htime, -⟩) <;> omega
        exact Meets.pure (by simp [Sorted, hno])
      · intro hsome
        have htime : (os 0).nowUs < r.deadlineUs := not_le.mp (mt hlate.mpr hsome)
        have hset : SetUp os r 1 := by
          refine ⟨hsize, htime, fun m hm hlt => ?_⟩
          obtain rfl : m = 0 := by omega
          unfold setupCalls at hm
          cases hin : r.hasInput <;> simp [hin] at hm
        have hmem {n : Nat} (hn : n = 1 ∨ n = 2 ∨ n = 3) : n ∈ setupCalls r := by
          unfold setupCalls
          split_ifs <;> simp <;> omega
        apply Meets.change_bind
        change Sorts os r _ _
        apply (asks_openPipe _ _ 1).bind hset (hmem (by simp))
        · exact ht
        · exact fun u hprevented _ => sorts_giveUp _ hprevented
        · intro u hset hu
          apply sorts_setCloexec hset (hmem (by simp)) (hmem (by simp)) hu
          · exact fun v hprevented => sorts_giveUp _ hprevented
          · intro v hset hv
            rw [Bool.not_true, if_neg Bool.false_ne_true]
            apply Meets.ite
            · intro hin
              have hmem {n : Nat} (hn : n = 4 ∨ n = 5 ∨ n = 6) : n ∈ setupCalls r := by
                unfold setupCalls
                rw [if_pos hin]
                simp
                omega
              change Sorts os r _ _
              apply (asks_openPipe _ _ 4).bind hset (hmem (by simp)) hv
              · exact fun w hprevented _ => sorts_giveUp _ hprevented
              · intro w hset hw
                apply sorts_setCloexec hset (hmem (by simp)) (hmem (by simp)) hw
                · exact fun x hprevented => sorts_giveUp _ hprevented
                · intro x hset hx
                  have hcall : actionsCall r = 7 := if_pos hin
                  exact sorts_spawnCurl curl rounds timeoutMs (hcall ▸ hset) (hcall ▸ hx)
            · intro hin
              have hcall : actionsCall r = 4 := if_neg hin
              exact sorts_spawnCurl curl rounds timeoutMs (hcall ▸ hset) (hcall ▸ hv)

/-! ## Results -/

/-- **What a reply means**, whatever the system answers: a response is whole, a local failure is reported exactly if the
request was kept from being made, and any other failure with the kind that belongs to what went wrong. -/
theorem request_outcome (curl : Bytes) (rounds : Nat) (os : Os) (r : HttpRequest) :
    Meets (fun _ => True) (request os curl rounds r) .start fun reply t => Explained os r reply t ∧ Sorted os r reply := by
  have hexplained : Meets Sound (request os curl rounds r) .start _ := request_explained curl rounds
  have hsorts : Meets (fun _ => True) (request os curl rounds r) .start _ := sorts_request curl rounds
  have h := hexplained.and hsorts
  unfold Meets at h ⊢
  split at h
  · exact ⟨h.1.2, h.2⟩
  · trivial

end Http

end VlcWhisper.Worker
