import VlcWhisper.Protocol.Validate
import VlcWhisper.Worker.FrameQueue

/-!
# What the frame queue's overflow does to pauses

`Lifecycle` is what START, STOP, PAUSE and RESUME make of a session: the worker's main loop reduced to its session id
and two flags. A push into a full queue loses one frame (`sacrificed`). `SafePush` says which overflows are safe, by what
is pushed and what is queued: AUDIO may go, and of the others what does nothing in its session or is made good by the
frames behind it (`Dispensable`).

Main result: `inSync_iff`. Whenever the queue is drained, what was popped leads to the same session and the same paused
flag as what was pushed, exactly if every push is safe.
-/

namespace VlcWhisper.Worker

open VlcWhisper.Lib VlcWhisper.Protocol

/-! ## The session -/

/-- The session of the main loop, as the lifecycle frames see it: the id of the active one, and the paused flag. -/
structure Lifecycle where
  active : Option SessionId
  paused : Bool
  deriving DecidableEq

namespace Lifecycle

/-- Before the first frame. -/
def idle : Lifecycle := ⟨none, false⟩

/-- A frame with a valid payload; `accepts` says which STARTs pass the checks of model and language. -/
def handle (accepts : Start → Bool) (s : Lifecycle) : Payload → Lifecycle
  | .startSession p =>
    if s.active = some p.sessionId then s
    else if accepts p then ⟨some p.sessionId, false⟩
    else { s with active := none }
  | .stopSession p => if s.active = some p.sessionId then { s with active := none } else s
  | .pause p => if s.active = some p.sessionId then { s with paused := true } else s
  | .resume p => if s.active = some p.sessionId then { s with paused := false } else s
  | _ => s

/-- A frame; one that is not valid ends the worker and leads nowhere. -/
def frame (accepts : Start → Bool) (s : Lifecycle) (f : Frame) : Lifecycle :=
  match decodePayload f.type f.payload with
  | some p => if validatePayload p then s.handle accepts p else s
  | none => s

def isLifecycle (type : MessageType) : Bool :=
  type = .startSession || type = .stopSession || type = .pause || type = .resume

theorem frame_of_not_lifecycle (accepts : Start → Bool) (s : Lifecycle) {f : Frame} (h : isLifecycle f.type = false) :
    s.frame accepts f = s := by
  rw [frame]
  split
  · rename_i p hp
    split
    · rw [← type_of_decodePayload hp] at h
      cases p with
      | startSession | stopSession | pause | resume => simp [isLifecycle, Payload.type] at h
      | _ => rfl
    · rfl
  · rfl

end Lifecycle

/-! ## Frames that may be lost -/

/-- What a valid lifecycle frame asks for; a START that fails the checks is refused. -/
inductive Directive where
  | start (id : SessionId)
  | refuse (id : SessionId)
  | stop (id : SessionId)
  | flag (id : SessionId) (paused : Bool)

def directive (accepts : Start → Bool) (f : Frame) : Option Directive :=
  match decodePayload f.type f.payload with
  | some p =>
    if validatePayload p then
      match p with
      | .startSession p => some (if accepts p then .start p.sessionId else .refuse p.sessionId)
      | .stopSession p => some (.stop p.sessionId)
      | .pause p => some (.flag p.sessionId true)
      | .resume p => some (.flag p.sessionId false)
      | _ => none
    else none
  | none => none

/-- From the session `active` on, the paused flag is set to a value that does not depend on the one it had: by a PAUSE or
RESUME of the session that is active then, or by the START of another. -/
def setsFlag (active : Option SessionId) : List Directive → Bool
  | [] => false
  | .start id :: ds => active ≠ some id || setsFlag active ds
  | .refuse id :: ds => setsFlag (if active = some id then active else none) ds
  | .stop id :: ds => setsFlag (if active = some id then none else active) ds
  | .flag id _ :: ds => active = some id || setsFlag active ds

/-- Of two different sessions, `ds` settles which is active, and the paused flag with it: by a START of either one or of a
third, by a refused START of a third, or by the STOP of the one where the other is closed. Unless a third is started, the
flags agree then, or are set later. -/
def settles : Lifecycle → Lifecycle → List Directive → Bool
  | _, _, [] => false
  | s, t, .start id :: ds =>
    if s.active = some id then !s.paused || setsFlag (some id) ds
    else if t.active = some id then !t.paused || setsFlag (some id) ds
    else true
  | s, t, .refuse id :: ds =>
    if s.active = some id then settles s { t with active := none } ds
    else if t.active = some id then settles { s with active := none } t ds
    else s.paused = t.paused || setsFlag none ds
  | s, t, .stop id :: ds =>
    if s.active = some id then
      if t.active = none then s.paused = t.paused || setsFlag none ds
      else settles { s with active := none } t ds
    else if t.active = some id then
      if s.active = none then s.paused = t.paused || setsFlag none ds
      else settles s { t with active := none } ds
    else settles s t ds
  | s, t, .flag id paused :: ds =>
    settles (if s.active = some id then { s with paused } else s) (if t.active = some id then { t with paused } else t) ds

/-- In the session `s`, with `behind` to come, a directive may be lost: it does nothing there, or those behind it settle
what it decides. -/
def Dispensable (s : Lifecycle) (behind : List Directive) : Directive → Prop
  | .start id => s.active = some id ∨ settles ⟨some id, false⟩ s behind = true
  | .refuse id => s.active = some id ∨ s.active = none ∨ settles { s with active := none } s behind = true
  | .stop id => s.active ≠ some id ∨ settles { s with active := none } s behind = true
  | .flag id paused => s.active ≠ some id ∨ s.paused = paused ∨ setsFlag s.active behind = true

namespace Lifecycle

def apply (s : Lifecycle) : Directive → Lifecycle
  | .start id => if s.active = some id then s else ⟨some id, false⟩
  | .refuse id => if s.active = some id then s else { s with active := none }
  | .stop id => if s.active = some id then { s with active := none } else s
  | .flag id paused => if s.active = some id then { s with paused } else s

theorem frame_eq (accepts : Start → Bool) (s : Lifecycle) (f : Frame) :
    s.frame accepts f = ((directive accepts f).map s.apply).getD s := by
  unfold frame directive
  cases decodePayload f.type f.payload with
  | none => rfl
  | some p =>
    by_cases hvalid : validatePayload p = true
    · simp only [hvalid, if_true]
      cases p with
      | startSession p =>
        simp only [handle]
        by_cases haccepts : accepts p = true
        · simp [haccepts, apply]
        · simp [haccepts, apply]
      | _ => rfl
    · simp [hvalid]

theorem run_frame (accepts : Start → Bool) (s : Lifecycle) (fs : List Frame) :
    run (frame accepts) s fs = run apply s (fs.filterMap (directive accepts)) := by
  induction fs generalizing s with
  | nil => rfl
  | cons f fs ih =>
    rw [run, ih, frame_eq, List.filterMap_cons]
    cases directive accepts f with
    | none => rfl
    | some d => rfl

theorem active_apply {s t : Lifecycle} (h : s.active = t.active) (d : Directive) : (s.apply d).active = (t.apply d).active := by
  cases d with
  | start id => simp only [apply, h]; split <;> simp [h]
  | refuse id => simp only [apply, h]; split <;> simp [h]
  | stop id => simp only [apply, h]; split <;> simp [h]
  | flag id paused => simp only [apply, h]; split <;> simp [h]

theorem run_eq_iff_setsFlag {s t : Lifecycle} (h : s.active = t.active) (ds : List Directive) :
    run apply s ds = run apply t ds ↔ s.paused = t.paused ∨ setsFlag s.active ds = true := by
  induction ds generalizing s t with
  | nil =>
    obtain ⟨a, p⟩ := s
    obtain ⟨b, q⟩ := t
    subst h
    simp [run, setsFlag]
  | cons d ds ih =>
    rw [run, run, ih (active_apply h d)]
    obtain ⟨a, p⟩ := s
    obtain ⟨b, q⟩ := t
    subst h
    cases d with
    | start id => by_cases ha : a = some id <;> simp [apply, setsFlag, ha]
    | refuse id => by_cases ha : a = some id <;> simp [apply, setsFlag, ha]
    | stop id => by_cases ha : a = some id <;> simp [apply, setsFlag, ha]
    | flag id paused => by_cases ha : a = some id <;> simp [apply, setsFlag, ha]

theorem run_eq_iff_settles {s t : Lifecycle} (h : s.active ≠ t.active) (ds : List Directive) :
    run apply s ds = run apply t ds ↔ settles s t ds = true := by
  induction ds generalizing s t with
  | nil =>
    simp only [run, settles, Bool.false_eq_true, iff_false]
    rintro rfl
    exact h rfl
  | cons d ds ih =>
    rw [run, run]
    obtain ⟨a, p⟩ := s
    obtain ⟨b, q⟩ := t
    cases d with
    | start id =>
      by_cases ha : a = some id
      · have hb : b ≠ some id := fun hb => h (ha.trans hb.symm)
        simp [apply, settles, ha, hb, run_eq_iff_setsFlag]
      · by_cases hb : b = some id
        · simp [apply, settles, ha, hb, run_eq_iff_setsFlag]
        · simp [apply, settles, ha, hb]
    | refuse id =>
      by_cases ha : a = some id
      · have hb : b ≠ some id := fun hb => h (ha.trans hb.symm)
        simp [apply, settles, ha, hb, ih]
      · by_cases hb : b = some id
        · simp [apply, settles, ha, hb, ih]
        · simp [apply, settles, ha, hb, run_eq_iff_setsFlag]
    | stop id =>
      by_cases ha : a = some id
      · have hb : b ≠ some id := fun hb => h (ha.trans hb.symm)
        by_cases hnone : b = none
        · simp [apply, settles, ha, hnone, run_eq_iff_setsFlag]
        · simp [apply, settles, ha, hb, hnone, ih, Ne.symm hnone]
      · by_cases hb : b = some id
        · by_cases hnone : a = none
          · simp [apply, settles, hb, hnone, run_eq_iff_setsFlag]
          · simp [apply, settles, ha, hb, hnone, ih]
        · simp [apply, settles, ha, hb, ih h]
    | flag id paused =>
      have hstill : ((⟨a, p⟩ : Lifecycle).apply (.flag id paused)).active ≠ ((⟨b, q⟩ : Lifecycle).apply (.flag id paused)).active := by
        simp only [apply]
        split <;> split <;> exact h
      exact ih hstill

/-- **What may be lost** is what makes no difference in the end. -/
theorem dispensable_iff (s : Lifecycle) (d : Directive) (behind : List Directive) :
    run apply (s.apply d) behind = run apply s behind ↔ Dispensable s behind d := by
  obtain ⟨a, p⟩ := s
  cases d with
  | start id =>
    by_cases ha : a = some id
    · simp [apply, Dispensable, ha]
    · have hdiffer : (⟨some id, false⟩ : Lifecycle).active ≠ (⟨a, p⟩ : Lifecycle).active := Ne.symm ha
      simp [apply, Dispensable, ha, run_eq_iff_settles hdiffer]
  | refuse id =>
    by_cases ha : a = some id
    · simp [apply, Dispensable, ha]
    · by_cases hnone : a = none
      · simp [apply, Dispensable, hnone]
      · have hdiffer : (⟨none, p⟩ : Lifecycle).active ≠ (⟨a, p⟩ : Lifecycle).active := Ne.symm hnone
        simp [apply, Dispensable, ha, hnone, run_eq_iff_settles hdiffer]
  | stop id =>
    by_cases ha : a = some id
    · subst ha
      have hdiffer : (⟨none, p⟩ : Lifecycle).active ≠ (⟨some id, p⟩ : Lifecycle).active := nofun
      simp [apply, Dispensable, run_eq_iff_settles hdiffer]
    · simp [apply, Dispensable, ha]
  | flag id paused =>
    by_cases ha : a = some id
    · subst ha
      have hsame : (⟨some id, paused⟩ : Lifecycle).active = (⟨some id, p⟩ : Lifecycle).active := rfl
      simp [apply, Dispensable, run_eq_iff_setsFlag hsame, eq_comm (a := paused)]
    · simp [apply, Dispensable, ha]

end Lifecycle

/-! ## The frame that is lost -/

/-- The frame that a push into a full queue loses, those before it and those that stay behind it. -/
structure Sacrifice where
  before : List Frame
  lost : Frame
  behind : List Frame

namespace FrameQueue

variable {capacity : Nat}

/-- The incoming frame takes the place of a queued one. -/
def evicting (q : FrameQueue capacity) (f : Frame) (i : Fin q.slots.count) : Sacrifice where
  before := q.toList.take i
  lost := q.slots.get i
  behind := q.toList.drop (i + 1) ++ [f]

/-- The frame that a push loses if the queue is full: the oldest AUDIO, else a control frame that `f` makes obsolete,
else `f`. -/
def sacrificed (q : FrameQueue capacity) (f : Frame) : Sacrifice :=
  match q.oldest Frame.isAudio with
  | some i => q.evicting f i
  | none =>
    if f.isAudio then ⟨q.toList, f, []⟩
    else match q.controlVictim f.type with
      | some i => q.evicting f i
      | none => ⟨q.toList, f, []⟩

theorem evicting_split (q : FrameQueue capacity) (f : Frame) (i : Fin q.slots.count) :
    q.toList ++ [f] = (q.evicting f i).before ++ (q.evicting f i).lost :: (q.evicting f i).behind := by
  conv_lhs => rw [q.toList_split i]
  simp [evicting]

theorem sacrificed_split (q : FrameQueue capacity) (f : Frame) :
    q.toList ++ [f] = (q.sacrificed f).before ++ (q.sacrificed f).lost :: (q.sacrificed f).behind := by
  rw [sacrificed]
  split
  · exact q.evicting_split f _
  split
  · rfl
  split
  · exact q.evicting_split f _
  · rfl

theorem oldest_of_split {q : FrameQueue capacity} (kind : Frame → Bool) {before after : List Frame} {x : Frame}
    (h : q.toList = before ++ x :: after) (hbefore : ∀ g ∈ before, kind g = false) (hx : kind x = true) :
    ∃ i, q.oldest kind = some i ∧ ∀ f, q.evicting f i = ⟨before, x, after ++ [f]⟩ := by
  cases holdest : q.oldest kind with
  | none =>
    have hnone := oldest_eq_none holdest x (by rw [h]; simp)
    rw [hx] at hnone
    cases hnone
  | some i =>
    obtain ⟨hkind, hfirst⟩ := oldest_eq_some holdest
    have hsplit : before ++ x :: after = q.toList.take i ++ q.slots.get i :: q.toList.drop (i + 1) :=
      h.symm.trans (q.toList_split i)
    have hpre : before = q.toList.take i := by
      have hwhile := congrArg (List.takeWhile fun g => !kind g) hsplit
      rwa [List.takeWhile_append_of_pos (by simpa using hbefore), List.takeWhile_append_of_pos (by simpa using hfirst),
        List.takeWhile_cons_of_neg (by simp [hx]), List.takeWhile_cons_of_neg (by simp [hkind]), List.append_nil,
        List.append_nil] at hwhile
    rw [← hpre] at hsplit
    obtain ⟨hget, hpost⟩ := List.cons.inj (List.append_cancel_left hsplit)
    exact ⟨i, rfl, fun f => by rw [evicting, ← hpre, ← hget, ← hpost]⟩

theorem oldest_eq_none_of {q : FrameQueue capacity} {kind : Frame → Bool} (h : ∀ g ∈ q.toList, kind g = false) :
    q.oldest kind = none := by
  cases holdest : q.oldest kind with
  | none => rfl
  | some i =>
    have hkind := (oldest_eq_some holdest).1
    rw [h _ (by rw [q.toList_split i]; simp)] at hkind
    cases hkind

theorem sacrificed_of_no_audio {q : FrameQueue capacity} {f : Frame} (h : ∀ g ∈ q.toList ++ [f], g.isAudio = false) :
    q.sacrificed f = match q.controlVictim f.type with
      | some i => q.evicting f i
      | none => ⟨q.toList, f, []⟩ := by
  have hqueued : q.oldest Frame.isAudio = none := oldest_eq_none_of fun g hg => h g (List.mem_append_left _ hg)
  have hf : f.isAudio = false := h f (by simp)
  rw [sacrificed, hqueued]
  simp only [hf, Bool.false_eq_true, if_false]

/-- A push into a full queue keeps all the others. -/
theorem push_of_full {q : FrameQueue capacity} (f : Frame) (h : ¬ q.slots.count < capacity) :
    (q.push f).queue.toList = (q.sacrificed f).before ++ (q.sacrificed f).behind := by
  have hstored (i : Fin q.slots.count) (evicted stored : Nat) :
      ((q.evict i evicted).store f stored (q.evict_count_lt i evicted)).toList =
        (q.evicting f i).before ++ (q.evicting f i).behind := by
    rw [toList_store_evict, toList_eraseIdx, List.append_assoc]
    rfl
  rw [push, dif_neg h, sacrificed]
  cases q.oldest Frame.isAudio with
  | some i => exact hstored i _ _
  | none =>
    by_cases haudio : f.type = .audioPcm
    · simp only [haudio, if_true, Frame.isAudio, decide_true, List.append_nil]
      rfl
    · simp only [haudio, if_false, Frame.isAudio, decide_false, Bool.false_eq_true]
      cases q.controlVictim f.type with
      | none => exact (List.append_nil _).symm
      | some i => exact hstored i _ _

end FrameQueue

/-! ## Draining -/

namespace QueueLog

variable {capacity : Nat}

/-- Pop what is queued. -/
def drained (s : QueueLog capacity) : QueueLog capacity := run step s (List.replicate s.queue.toList.length .pop)

theorem popped_run_pop {s : QueueLog capacity} {n : Nat} (h : s.queue.toList.length = n) :
    (run step s (List.replicate n .pop)).popped = s.popped ++ s.queue.toList := by
  induction n generalizing s with
  | zero => rw [List.length_eq_zero_iff.mp h, List.append_nil]; rfl
  | succ n ih =>
    cases hpop : s.queue.pop with
    | none =>
      have hnil : s.queue.toList = [] := by
        rw [FrameQueue.pop] at hpop
        split at hpop
        · rename_i hring
          exact Ring.toList_of_pop_eq_none hring
        · cases hpop
      rw [hnil] at h
      cases h
    | some r =>
      obtain ⟨hsplit, -⟩ := FrameQueue.pop_eq_some (f := r.1) (r := r.2) hpop
      have hstep : s.step .pop = { s with queue := r.2, popped := s.popped ++ [r.1] } := by rw [step, hpop]
      rw [List.replicate_succ, run, hstep, ih]
      · simp [hsplit]
      · simpa [hsplit] using h

theorem popped_drained (s : QueueLog capacity) : s.drained.popped = s.popped ++ s.queue.toList := popped_run_pop rfl

/-- If the queue is drained now, what was popped leads where all that was pushed leads. -/
def InSync (accepts : Start → Bool) (s : QueueLog capacity) : Prop :=
  run (Lifecycle.frame accepts) .idle s.drained.popped = run (Lifecycle.frame accepts) .idle s.pushed

/-- Where the frames that were popped lead, and then those of the queue that come before a certain one. -/
def sessionAfter (accepts : Start → Bool) (s : QueueLog capacity) (before : List Frame) : Lifecycle :=
  run (Lifecycle.frame accepts) .idle (s.popped ++ before)

/-- The frame `x` is no valid lifecycle frame, or may be lost where it stands. -/
def MayLose (accepts : Start → Bool) (s : QueueLog capacity) (before : List Frame) (x : Frame) (behind : List Frame) : Prop :=
  ∀ d, directive accepts x = some d → Dispensable (s.sessionAfter accepts before) (behind.filterMap (directive accepts)) d

/-- The pushes that are safe. There is room; AUDIO is pushed or queued; or what the push makes obsolete may be lost:
the oldest frame for SHUTDOWN, else the oldest PAUSE, RESUME or frame of the same type, else for START and STOP the
oldest that is no SHUTDOWN, else the pushed frame itself. -/
inductive SafePush (accepts : Start → Bool) (s : QueueLog capacity) (f : Frame) : Prop
  | room (hroom : s.queue.toList.length < capacity)
  | audio (haudio : ∃ g ∈ s.queue.toList ++ [f], g.isAudio = true)
  | shutdown (x : Frame) (after : List Frame) (hqueue : s.queue.toList = x :: after)
      (haudio : ∀ g ∈ s.queue.toList ++ [f], g.isAudio = false) (hf : f.isShutdown = true)
      (hlost : s.MayLose accepts [] x (after ++ [f]))
  | superseded (before : List Frame) (x : Frame) (after : List Frame) (hqueue : s.queue.toList = before ++ x :: after)
      (haudio : ∀ g ∈ s.queue.toList ++ [f], g.isAudio = false) (hf : f.isShutdown = false)
      (hbefore : ∀ g ∈ before, g.isSuperseded f.type = false) (hx : x.isSuperseded f.type = true)
      (hlost : s.MayLose accepts before x (after ++ [f]))
  | required (before : List Frame) (x : Frame) (after : List Frame) (hqueue : s.queue.toList = before ++ x :: after)
      (haudio : ∀ g ∈ s.queue.toList ++ [f], g.isAudio = false) (hf : f.isRequired = true)
      (hnone : ∀ g ∈ s.queue.toList, g.isSuperseded f.type = false)
      (hbefore : ∀ g ∈ before, g.isShutdown = true) (hx : x.isShutdown = false)
      (hlost : s.MayLose accepts before x (after ++ [f]))
  | incoming (hf : f.isShutdown = false) (haudio : ∀ g ∈ s.queue.toList ++ [f], g.isAudio = false)
      (hnone : ∀ g ∈ s.queue.toList, g.isSuperseded f.type = false)
      (hmoot : f.isRequired = true → ∀ g ∈ s.queue.toList, g.isShutdown = true)
      (hlost : s.MayLose accepts s.queue.toList f [])

def Safe (accepts : Start → Bool) (s : QueueLog capacity) : QueueOp → Prop
  | .push f => SafePush accepts s f
  | .pop => True

/-- What a push loses, if it loses anything, may be lost. -/
def Sheds (accepts : Start → Bool) (s : QueueLog capacity) (f : Frame) : Prop :=
  s.queue.slots.count < capacity ∨
    s.MayLose accepts (s.queue.sacrificed f).before (s.queue.sacrificed f).lost (s.queue.sacrificed f).behind

/-- A frame may be lost if it makes no difference to where those behind it lead. -/
theorem mayLose_iff {accepts : Start → Bool} {s : QueueLog capacity} {before behind : List Frame} {x : Frame} :
    s.MayLose accepts before x behind ↔
      run (Lifecycle.frame accepts) ((s.sessionAfter accepts before).frame accepts x) behind =
        run (Lifecycle.frame accepts) (s.sessionAfter accepts before) behind := by
  rw [MayLose, Lifecycle.run_frame, Lifecycle.run_frame, Lifecycle.frame_eq]
  cases directive accepts x with
  | none => simp
  | some d => simp [Lifecycle.dispensable_iff]

theorem mayLose_of_audio {accepts : Start → Bool} {s : QueueLog capacity} {before behind : List Frame} {x : Frame}
    (h : x.isAudio = true) : s.MayLose accepts before x behind := by
  have hother : Lifecycle.isLifecycle x.type = false := by
    rw [of_decide_eq_true h]
    rfl
  rw [mayLose_iff, Lifecycle.frame_of_not_lifecycle _ _ hother]

theorem sheds_of_safePush {accepts : Start → Bool} {s : QueueLog capacity} {f : Frame} (h : SafePush accepts s f) :
    s.Sheds accepts f := by
  cases h with
  | room hroom => exact .inl (by rwa [FrameQueue.toList, Ring.length_toList] at hroom)
  | audio haudio =>
    refine .inr ?_
    rw [FrameQueue.sacrificed]
    cases holdest : s.queue.oldest Frame.isAudio with
    | some i => exact mayLose_of_audio (FrameQueue.oldest_eq_some holdest).1
    | none =>
      obtain ⟨g, hg, hkind⟩ := haudio
      have hf : f.isAudio = true := by
        rcases List.mem_append.mp hg with hg | hg
        · rw [FrameQueue.oldest_eq_none holdest g hg] at hkind
          cases hkind
        · rwa [List.mem_singleton.mp hg] at hkind
      simp only [hf, if_true]
      exact mayLose_of_audio hf
  | shutdown x after hqueue haudio hf hlost =>
    refine .inr ?_
    have hsplit : s.queue.toList = [] ++ x :: after := hqueue
    obtain ⟨i, hi, hevicting⟩ := FrameQueue.oldest_of_split (fun _ => true) hsplit (by simp) rfl
    rw [FrameQueue.sacrificed_of_no_audio haudio, FrameQueue.controlVictim, if_pos (of_decide_eq_true hf), hi]
    simpa only [hevicting] using hlost
  | superseded before x after hqueue haudio hf hbefore hx hlost =>
    refine .inr ?_
    obtain ⟨i, hi, hevicting⟩ := FrameQueue.oldest_of_split _ hqueue hbefore hx
    rw [FrameQueue.sacrificed_of_no_audio haudio, FrameQueue.controlVictim, if_neg (of_decide_eq_false hf), hi]
    simpa only [hevicting] using hlost
  | required before x after hqueue haudio hf hnone hbefore hx hlost =>
    refine .inr ?_
    have hrequired : f.type = .startSession ∨ f.type = .stopSession := by simpa [Frame.isRequired] using hf
    have hshut : f.type ≠ .shutdown := by rcases hrequired with h | h <;> simp [h]
    obtain ⟨i, hi, hevicting⟩ := FrameQueue.oldest_of_split (fun g => !g.isShutdown) hqueue
      (fun g hg => by simp [hbefore g hg]) (by simp [hx])
    rw [FrameQueue.sacrificed_of_no_audio haudio, FrameQueue.controlVictim, if_neg hshut,
      FrameQueue.oldest_eq_none_of hnone]
    simp only [Bool.or_eq_true, decide_eq_true_eq, hrequired, if_true, hi]
    simpa only [hevicting] using hlost
  | incoming hf haudio hnone hmoot hlost =>
    refine .inr ?_
    rw [FrameQueue.sacrificed_of_no_audio haudio, FrameQueue.controlVictim, if_neg (of_decide_eq_false hf),
      FrameQueue.oldest_eq_none_of hnone]
    by_cases hrequired : f.type = .startSession ∨ f.type = .stopSession
    · have hall := hmoot (by simpa [Frame.isRequired] using hrequired)
      have hvictim : s.queue.oldest (fun g => !g.isShutdown) = none :=
        FrameQueue.oldest_eq_none_of fun g hg => by simp [hall g hg]
      simpa only [Bool.or_eq_true, decide_eq_true_eq, hrequired, if_true, hvictim] using hlost
    · simpa only [Bool.or_eq_true, decide_eq_true_eq, hrequired, if_false] using hlost

theorem safePush_of_sheds {accepts : Start → Bool} {s : QueueLog capacity} {f : Frame} (h : s.Sheds accepts f) :
    SafePush accepts s f := by
  rcases h with hroom | hlost
  · exact .room (by rwa [FrameQueue.toList, Ring.length_toList])
  by_cases haudio : ∃ g ∈ s.queue.toList ++ [f], g.isAudio = true
  · exact .audio haudio
  have haudio : ∀ g ∈ s.queue.toList ++ [f], g.isAudio = false := fun g hg =>
    Bool.eq_false_iff.mpr fun h => haudio ⟨g, hg, h⟩
  rw [FrameQueue.sacrificed_of_no_audio haudio] at hlost
  cases hvictim : s.queue.controlVictim f.type with
  | some i =>
    rw [hvictim] at hlost
    have hsplit := s.queue.toList_split i
    rw [FrameQueue.controlVictim] at hvictim
    split at hvictim
    · rename_i hshut
      have hfirst : s.queue.toList.take i = [] := List.eq_nil_iff_forall_not_mem.mpr fun g hg => by
        have hno := (FrameQueue.oldest_eq_some hvictim).2 g hg
        cases hno
      rw [hfirst] at hsplit
      refine .shutdown _ _ hsplit haudio (decide_eq_true hshut) ?_
      simpa only [FrameQueue.evicting, hfirst] using hlost
    rename_i hshut
    split at hvictim
    · rename_i j hj
      obtain rfl := Option.some.inj hvictim
      obtain ⟨hx, hbefore⟩ := FrameQueue.oldest_eq_some hj
      exact .superseded _ _ _ hsplit haudio (decide_eq_false hshut) hbefore hx hlost
    rename_i hnone
    split at hvictim
    · rename_i hrequired
      obtain ⟨hx, hbefore⟩ := FrameQueue.oldest_eq_some hvictim
      exact .required _ _ _ hsplit haudio hrequired (FrameQueue.oldest_eq_none hnone) (by simpa using hbefore)
        (by simpa using hx) hlost
    · cases hvictim
  | none =>
    rw [hvictim] at hlost
    rw [FrameQueue.controlVictim] at hvictim
    split at hvictim
    · -- only an empty queue holds no frame at all
      refine .room ?_
      have hempty : s.queue.toList = [] := List.eq_nil_iff_forall_not_mem.mpr fun g hg => by
        have hno := FrameQueue.oldest_eq_none hvictim g hg
        cases hno
      have hhead := s.queue.slots.head_lt
      rw [hempty]
      exact Nat.zero_lt_of_lt hhead
    rename_i hshut
    split at hvictim
    · cases hvictim
    rename_i hnone
    refine .incoming (decide_eq_false hshut) haudio (FrameQueue.oldest_eq_none hnone) (fun hrequired => ?_) hlost
    have hrequired : (f.type = .startSession || f.type = .stopSession) = true := hrequired
    rw [if_pos hrequired] at hvictim
    exact fun g hg => by simpa using FrameQueue.oldest_eq_none hvictim g hg

theorem inSync_step (accepts : Start → Bool) (s : QueueLog capacity) (op : QueueOp) (h : s.InSync accepts) :
    (s.step op).InSync accepts ↔ s.Safe accepts op := by
  rw [InSync, popped_drained] at h ⊢
  cases op with
  | pop =>
    simp only [Safe, iff_true]
    rw [step]
    split
    · exact h
    · rename_i f queue hpop
      rw [(FrameQueue.pop_eq_some hpop).1] at h
      simpa using h
  | push f =>
    -- all that was pushed leads where the queue and then `f` lead
    have hpushed : run (Lifecycle.frame accepts) .idle (s.pushed ++ [f]) =
        run (Lifecycle.frame accepts) .idle (s.popped ++ (s.queue.toList ++ [f])) := by
      rw [run_append, ← h, ← List.append_assoc, run_append _ (s.popped ++ s.queue.toList)]
    refine Iff.trans ?_ ⟨safePush_of_sheds, sheds_of_safePush⟩
    simp only [step, Sheds, hpushed]
    by_cases hroom : s.queue.slots.count < capacity
    · have hlist : (s.queue.push f).queue.toList = s.queue.toList ++ [f] := by
        rw [FrameQueue.push, dif_pos hroom]
        exact Ring.toList_push _ _ _
      simp [hlist, hroom]
    · rw [FrameQueue.push_of_full f hroom, s.queue.sacrificed_split f, ← List.append_assoc, ← List.append_assoc,
        run_append, run_append _ (s.popped ++ _) (_ :: _), run]
      simp only [hroom, false_or]
      rw [eq_comm, mayLose_iff]
      rfl

/-- **Overflow and pauses.** The session and the paused flag survive every prefix of a run exactly if every push is
safe. -/
theorem inSync_iff (accepts : Start → Bool) (h : 0 < capacity) (ops : List QueueOp) :
    (∀ pre, pre <+: ops → (run step (start capacity h) pre).InSync accepts) ↔
      Along step (Safe accepts) (start capacity h) ops := by
  refine forall_prefix_iff_along (inSync_step accepts) ?_
  rw [InSync, popped_drained, start, show (FrameQueue.create capacity h).toList = [] from Ring.toList_empty _ _]
  rfl

/-- A frame as the client encodes it. -/
def frameOf (p : Payload) : Frame := ⟨p.type, encodePayload p 2048⟩

def sampleStart : Start where
  sessionId := .zero _
  timelineOriginPtsUs := 0
  sampleRate := 16000
  channels := 1
  sampleFormat := sampleFormatS16le
  modelId := .ofStr _ [0x62, 0x61, 0x73, 0x65]
  language := .ofStr _ [0x65, 0x6E]
  sourceKind := sourceLiveAudio
  sourceUrlLen := 0
  sourceUrl := .zero _

def samplePosition : Position := ⟨.zero _, 0, 0, .one, 0⟩

/-- PAUSE, then more than one POSITION into a queue for two. -/
def lostPause : List QueueOp :=
  [.push (frameOf (.startSession sampleStart)), .pop, .push (frameOf (.pause ⟨.zero _, ctrlReasonUserPause⟩)),
    .push (frameOf (.position samplePosition)), .push (frameOf (.position samplePosition))]

theorem not_forall_inSync : ¬ ∀ (accepts : Start → Bool) (capacity : Nat) (h : 0 < capacity) (ops : List QueueOp),
    (run step (start capacity h) ops).InSync accepts := by
  intro h
  have hlost := h (fun _ => true) 2 (by decide) lostPause
  rw [InSync] at hlost
  revert hlost
  decide

/-- PAUSE and AUDIO, then a POSITION into the full queue. -/
def keptPause : List QueueOp :=
  [.push (frameOf (.startSession sampleStart)), .pop, .push (frameOf (.pause ⟨.zero _, ctrlReasonUserPause⟩)),
    .push ⟨.audioPcm, none⟩, .push (frameOf (.position samplePosition))]

theorem inSync_iff_keptPause : (run step (start 2 (by decide)) keptPause).InSync fun _ => true := by
  refine (inSync_iff (fun _ => true) (by decide) keptPause).mpr ⟨?_, trivial, ?_, ?_, ?_, trivial⟩ keptPause List.prefix_rfl
  · exact .room (by decide)
  · exact .room (by decide)
  · exact .room (by decide)
  · exact .audio (by decide)

end QueueLog

end VlcWhisper.Worker
