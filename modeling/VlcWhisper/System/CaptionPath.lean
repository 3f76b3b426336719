import VlcWhisper.System.SeekEpoch
import Mathlib.Data.List.Flatten

/-!
# The captions from the worker to the presenter

Each worker that the plugin launches sends its frames in one stream, which the client reads in whole frames: HELLO_ACK,
the frames before an answer to START, and then one frame a round, of which the sender hands captions to the presenter.
Main result: `handed_sublist`. In every run, through all respawns, the captions that the presenter is given are captions
of the workers' frames, each at most once and in the order in which they were sent.

Proof. What was handed, followed by the captions that the client has not read, is a sublist of what was sent: `Told`.
-/

namespace VlcWhisper.System

open VlcWhisper.Lib VlcWhisper.Protocol VlcWhisper.Plugin VlcWhisper.Plugin.Sender

/-! ## Captions -/

/-- The caption that `receive_frame` gives for a frame. -/
def captionOf (f : WireFrame) : Option CaptionSegment :=
  match Conn.delivered f.type (if f.payload = [] then none else some f.payload) with
  | some (.captionSegment segment) => some segment
  | _ => none

def captions (frames : List WireFrame) : List CaptionSegment := frames.filterMap captionOf

theorem captions_append (l m : List WireFrame) : captions (l ++ m) = captions l ++ captions m := List.filterMap_append

theorem captionOf_of_given {last : Option UInt64} {f : WireFrame} {segment : CaptionSegment}
    (h : Conn.given last f = some (.captionSegment segment)) : captionOf f = some segment := by
  unfold Conn.given at h
  split at h
  · simp at h
  · simp [captionOf, h]

def handedBy : Event → Option CaptionSegment
  | .handed segment => some segment
  | _ => none

/-- What the presenter is given in a run. -/
def handed (log : List Event) : List CaptionSegment := log.filterMap handedBy

theorem handed_append (l m : List Event) : handed (l ++ m) = handed l ++ handed m := List.filterMap_append

theorem handed_append_of_none {l m : List Event} (h : ∀ e ∈ m, handedBy e = none) : handed (l ++ m) = handed l := by
  have hnone : handed m = [] := by simpa [handed] using h
  simp [handed_append, hnone]

/-! ## Endpoints -/

/-- The endpoints of a launch, in the order in which they are tried. -/
def endpoints (launch : Launch) : List Conn := launch.first.toList ++ launch.fallback.toList

/-- The endpoints that a round may try. -/
def roundEndpoints (t : Round) : List Conn :=
  endpoints t.cfgRespawn ++ (endpoints t.recovery ++ (endpoints t.retry ++ endpoints t.activation))

/-- The captions that workers send, if the one behind each endpoint sends these frames. -/
def toldBy (sent : Conn → List WireFrame) (conns : List Conn) : List CaptionSegment :=
  conns.flatMap fun c => captions (sent c)

theorem toldBy_append (sent : Conn → List WireFrame) (l m : List Conn) :
    toldBy sent (l ++ m) = toldBy sent l ++ toldBy sent m := List.flatMap_append

variable {sent : Conn → List WireFrame} {all more : List CaptionSegment} {frames rest : List WireFrame}

/-! ## What a call leaves -/

/-- The transport is lost, or what is on its way is a part of the frames that were. -/
def Left (frames : List WireFrame) (t : Conn) : Prop :=
  t.client.connected = false ∨ ∃ taken rest, frames = taken ++ rest ∧ Awaits t rest

theorem left_lost {α : Type} (result : α) (s : Conn) : Ends (Conn.lost result) s fun _ t => Left frames t :=
  (disconnected_lost result s).mono fun _ _ h => Or.inl h.2

theorem left_onHelloAck {s : Conn} (hs : Awaits s rest) (hframes : ∃ taken, frames = taken ++ rest) (payload : Bytes) :
    Ends (Conn.onHelloAck payload) s fun _ t => Left frames t := by
  obtain ⟨taken, rfl⟩ := hframes
  unfold Conn.onHelloAck
  split
  · apply Ends.ite
    · intro _
      exact Or.inr ⟨taken, rest, rfl, hs⟩
    · intro _
      exact left_lost false s
  · exact left_lost false s

theorem left_awaitHelloAck {s : Conn} (hs : Awaits s frames) : Ends Conn.awaitHelloAck s fun _ t => Left frames t := by
  unfold Conn.awaitHelloAck
  refine ((inbound_makeDeadline _).ends s).bind fun deadline t ht => ?_
  have ht : Awaits t frames := hs.of_inbound ht
  cases deadline with
  | none => exact left_lost false t
  | some deadlineUs =>
    refine (ends_receiveHeader ht deadlineUs).bind ?_
    rintro ⟨code, buffer⟩ u ⟨-, hok, -⟩
    apply Ends.ite
    · intro _
      exact left_lost false u
    · intro hcode
      obtain ⟨f, rest, rfl, hbuffer, hwithin⟩ := hok (not_not.mp hcode)
      have hbuffer : buffer = encodeHeader f.header := hbuffer
      rw [hbuffer, f.decode_header]
      apply Ends.ite
      · intro _
        exact left_lost false u
      · intro _
        refine (ends_receiveRest hwithin deadlineUs).bind ?_
        rintro ⟨code, payload⟩ v ⟨-, hok⟩
        apply Ends.ite
        · intro _
          exact left_lost false v
        · intro hcode
          exact left_onHelloAck (hok (not_not.mp hcode)).2 ⟨[f], rfl⟩ payload

theorem left_connect (authToken : CArray authTokenBytes) (language : Option CString) {fresh : Conn}
    (hfresh : Awaits fresh frames) : Ends (Conn.connect authToken language) fresh fun _ t => Left frames t := by
  unfold Conn.connect
  apply Ends.modify_bind
  split
  · exact left_lost false _
  · refine ((writes_sendParts _ _).ends _).bind fun ok t ⟨hahead, _⟩ => ?_
    have ht : Awaits t frames := by
      refine Awaits.of_inbound (s := { fresh with lastWorkerSequence := none }) hfresh ?_
      exact congrArg Ahead.inbound hahead
    apply Ends.ite
    · intro _
      exact left_awaitHelloAck ht
    · intro _
      exact Or.inr ⟨[], frames, rfl, ht⟩

theorem left_outcome {c : Conn} (hc : Awaits c frames) (call : Call) : Left frames (outcome call c).2 := by
  have hrun : (outcome call c).2 = c.apply (.send call) := by cases call <;> rfl
  rw [hrun]
  rcases reads_send hc call with hgone | ⟨taken, rest, hframes, hawaits, -, -⟩
  · exact Or.inl hgone
  · exact Or.inr ⟨taken, rest, hframes, hawaits⟩

/-- What `receive_frame` returns is the last frame that it read. -/
def Gives (frames : List WireFrame) (t : Conn) (r : RecvCode × Option Payload) : Prop :=
  t.client.connected = false ∧ r = (.fatal, none) ∨ ∃ taken rest, frames = taken ++ rest ∧ Awaits t rest ∧
    ∀ segment, r = (.ok, some (.captionSegment segment)) → ∃ earlier f, taken = earlier ++ [f] ∧ captionOf f = some segment

theorem gives_nothing {t : Conn} (ht : Awaits t frames) (code : RecvCode) : Gives frames t (code, none) :=
  Or.inr ⟨[], frames, rfl, ht, by simp⟩

theorem gives_loop (deadlineUs : Int) (fuel : Nat) {c : Conn} (hc : Awaits c frames) :
    Ends (loop fuel (Conn.receiveRound deadlineUs)) c fun r t => Gives frames t (r.getD (.timeout, none)) := by
  induction fuel generalizing c frames with
  | zero => exact gives_nothing hc .timeout
  | succ fuel ih =>
    unfold loop
    refine (takes_receiveRound hc deadlineUs).bind ?_
    rintro r t (⟨hlost, rfl⟩ | ⟨rfl, hawaits, -⟩ | ⟨f, rest, rfl, htaken⟩)
    · exact Or.inl ⟨hlost, rfl⟩
    · exact gives_nothing hawaits .timeout
    · have hr := htaken.given
      cases hgiven : Conn.given c.lastWorkerSequence f with
      | some p =>
        rw [hgiven] at hr
        subst hr
        refine Or.inr ⟨[f], rest, rfl, htaken.awaits, fun segment hsegment => ⟨[], f, rfl, ?_⟩⟩
        have hp : p = .captionSegment segment := Option.some.inj (congrArg Prod.snd hsegment)
        exact captionOf_of_given (hp ▸ hgiven)
      | none =>
        rw [hgiven] at hr
        subst hr
        refine (ih htaken.awaits).mono fun r u hu => ?_
        rcases hu with hlost | ⟨taken, rest', rfl, hawaits, hlast⟩
        · exact Or.inl hlost
        · refine Or.inr ⟨f :: taken, rest', rfl, hawaits, fun segment hsegment => ?_⟩
          obtain ⟨earlier, g, rfl, hg⟩ := hlast segment hsegment
          exact ⟨f :: earlier, g, rfl, hg⟩

theorem gives_receiveFrame {c : Conn} (hc : Awaits c frames) (timeoutUs : UInt32) :
    Ends (Conn.receiveFrame timeoutUs) c fun r t => Gives frames t r := by
  refine Ends.get_bind (Ends.ite (fun hgone => ?_) fun _ => ?_)
  · rw [Bool.not_eq_true'] at hgone
    exact Or.inl ⟨hgone, rfl⟩
  · refine ((inbound_makeDeadline _).ends c).bind fun deadline t ht => ?_
    cases deadline with
    | none => exact gives_nothing (hc.of_inbound ht) .fatal
    | some deadlineUs =>
      exact Ends.get_bind ((gives_loop deadlineUs _ (hc.of_inbound ht)).bind fun r u hu => hu)

theorem receiveFrame_disconnected {c : Conn} (hc : c.client.connected = false) (timeoutUs : UInt32) :
    Ends (Conn.receiveFrame timeoutUs) c fun r t => t.client.connected = false ∧ r = (.fatal, none) := by
  apply Ends.get_bind
  apply Ends.ite
  · intro _
    exact ⟨hc, rfl⟩
  · intro hconn
    simp [hc] at hconn

/-! ## The invariant -/

/-- The client and the log. -/
abbrev View := Option Conn × List Event

def view (s : Sender) : View := (s.client, s.log)

/-- The captions handed so far, followed by those that the client has not read, are among all that were sent. -/
structure Told (all : List CaptionSegment) (v : View) : Prop where
  past : (handed v.2).Sublist all
  ahead : ∀ c ∈ v.1, c.client.connected = true → ∃ frames, Awaits c frames ∧
    (handed v.2 ++ captions frames).Sublist all

theorem Told.mono {v : View} (h : Told all v) (hmore : all.Sublist more) : Told more v where
  past := h.past.trans hmore
  ahead := fun c hc hconn =>
    have ⟨frames, hawaits, hsublist⟩ := h.ahead c hc hconn
    ⟨frames, hawaits, hsublist.trans hmore⟩

theorem Told.logged {v : View} {l : List Event} (h : Told all v) (hl : ∀ e ∈ l, handedBy e = none) :
    Told all (v.1, v.2 ++ l) := by
  constructor
  · rw [handed_append_of_none hl]
    exact h.past
  · rw [handed_append_of_none hl]
    exact h.ahead

theorem Told.left {c d : Conn} {log : List Event} (h : Told all (some c, log))
    (hgone : c.client.connected = false → d.client.connected = false)
    (hleft : ∀ frames, Awaits c frames → Left frames d) : Told all (some d, log) := by
  refine ⟨h.past, fun e he hconn => ?_⟩
  obtain rfl : d = e := by simpa using he
  have hc : c.client.connected = true := by
    by_contra hc
    simp [hgone (by simpa using hc)] at hconn
  obtain ⟨frames, hawaits, hsublist⟩ := h.ahead c rfl hc
  rcases hleft frames hawaits with hlost | ⟨taken, rest, rfl, hrest⟩
  · simp [hlost] at hconn
  · refine ⟨rest, hrest, List.Sublist.trans ?_ hsublist⟩
    rw [captions_append]
    apply List.Sublist.append_left
    exact List.sublist_append_right _ _

theorem Told.called {c : Conn} {log : List Event} (h : Told all (some c, log)) (call : Call) :
    Told all (some (outcome call c).2, log ++ [.called call c]) := by
  have hrun : (outcome call c).2 = c.apply (.send call) := by cases call <;> rfl
  have hleft : Told all (some (outcome call c).2, log) :=
    h.left (fun hgone => by rw [hrun]; exact disconnected_apply hgone _) fun frames hc => left_outcome hc call
  exact hleft.logged (by simp [handedBy])

theorem Told.received {c : Conn} {log : List Event} (h : Told all (some c, log)) (timeoutUs : UInt32) :
    Ends (Conn.receiveFrame timeoutUs) c fun r d => Told all (some d, log ++ [.received timeoutUs c]) ∧
      ∀ segment, r = (.ok, some (.captionSegment segment)) →
        Told all (some d, log ++ [.received timeoutUs c] ++ [.handed segment]) := by
  have hnone : ∀ e ∈ [Event.received timeoutUs c], handedBy e = none := by simp [handedBy]
  have hdisconnected (d : Conn) (hd : d.client.connected = false) : Told all (some d, log) := by
    refine ⟨h.past, fun e he hconn => ?_⟩
    obtain rfl : d = e := by simpa using he
    simp [hd] at hconn
  by_cases hconn : c.client.connected = true
  · obtain ⟨frames, hawaits, hsublist⟩ := h.ahead c rfl hconn
    refine (gives_receiveFrame hawaits timeoutUs).mono fun r d hd => ?_
    rcases hd with ⟨hlost, rfl⟩ | ⟨taken, rest, rfl, hrest, hlast⟩
    · exact ⟨(hdisconnected d hlost).logged hnone, by simp⟩
    · rw [captions_append] at hsublist
      have hpassed : (handed log ++ captions rest).Sublist all := by
        refine List.Sublist.trans ?_ hsublist
        apply List.Sublist.append_left
        exact List.sublist_append_right _ _
      have htold : Told all (some d, log) := by
        refine ⟨h.past, fun e he _ => ?_⟩
        obtain rfl : d = e := by simpa using he
        exact ⟨rest, hrest, hpassed⟩
      refine ⟨htold.logged hnone, fun segment hr => ?_⟩
      obtain ⟨earlier, f, rfl, hf⟩ := hlast segment hr
      have hgiven : (handed log ++ segment :: captions rest).Sublist all := by
        refine List.Sublist.trans ?_ hsublist
        apply List.Sublist.append_left
        have hf : captions [f] = [segment] := by simp [captions, hf]
        rw [captions_append, hf, List.append_assoc]
        exact List.sublist_append_right _ _
      have hlog : handed (log ++ [.received timeoutUs c] ++ [.handed segment]) = handed log ++ [segment] := by
        rw [handed_append, handed_append_of_none hnone]
        simp [handed, handedBy]
      constructor
      · rw [hlog]
        refine List.Sublist.trans ?_ hgiven
        apply List.Sublist.append_left
        simp
      · intro e he _
        obtain rfl : d = e := by simpa using he
        refine ⟨rest, hrest, ?_⟩
        rw [hlog]
        simpa using hgiven
  · refine (receiveFrame_disconnected (by simpa using hconn) timeoutUs).mono fun r d hd => ?_
    obtain ⟨hlost, rfl⟩ := hd
    exact ⟨(hdisconnected d hlost).logged hnone, by simp⟩

/-! ## Launches -/

/-- The worker behind each endpoint sends frames. -/
def Sends (sent : Conn → List WireFrame) (conns : List Conn) : Prop := ∀ c ∈ conns, Awaits c (sent c)

theorem connectTo_left {authToken : CArray authTokenBytes} {language : Option CString} {fresh c : Conn}
    (hfresh : Awaits fresh (sent fresh)) (h : connectTo authToken language fresh = some c) : Left (sent fresh) c := by
  unfold connectTo at h
  dsimp only at h
  split at h
  · rw [← Option.some.inj h]
    exact left_connect authToken language hfresh
  · cases h

/-- A new client reads the frames of one of the launch's workers. -/
theorem Told.launched (log : List Event) (h : (handed log).Sublist all) {launch : Launch}
    (hsent : Sends sent (endpoints launch)) (authToken : CArray authTokenBytes) :
    Told (all ++ toldBy sent (endpoints launch)) (launchWithAutoRetry authToken launch, log) := by
  have hof (fresh c : Conn) (hmem : fresh ∈ endpoints launch) (hleft : Left (sent fresh) c)
      (hconn : c.client.connected = true) : ∃ frames, Awaits c frames ∧
        (handed log ++ captions frames).Sublist (all ++ toldBy sent (endpoints launch)) := by
    rcases hleft with hgone | ⟨taken, rest, hframes, hawaits⟩
    · simp [hgone] at hconn
    · refine ⟨rest, hawaits, List.Sublist.append h ?_⟩
      have hmine : (captions (sent fresh)).Sublist (toldBy sent (endpoints launch)) := by
        unfold toldBy
        rw [List.flatMap_def]
        exact List.sublist_flatten_of_mem (List.mem_map.mpr ⟨fresh, hmem, rfl⟩)
      refine List.Sublist.trans ?_ hmine
      rw [hframes, captions_append]
      exact List.sublist_append_right _ _
  refine ⟨h.trans (List.sublist_append_left _ _), fun c hc hconn => ?_⟩
  have hc : launchWithAutoRetry authToken launch = some c := hc
  unfold launchWithAutoRetry at hc
  split at hc
  · rename_i d hfirst
    obtain rfl := Option.some.inj hc
    obtain ⟨fresh, hfresh, hconnect⟩ := Option.bind_eq_some_iff.mp hfirst
    have hmem : fresh ∈ endpoints launch := by simp [endpoints, hfresh]
    exact hof fresh d hmem (connectTo_left (hsent fresh hmem) hconnect) hconn
  · obtain ⟨fresh, hfresh, hconnect⟩ := Option.bind_eq_some_iff.mp hc
    have hmem : fresh ∈ endpoints launch := by simp [endpoints, hfresh]
    exact hof fresh c hmem (connectTo_left (hsent fresh hmem) hconnect) hconn

/-! ## The sender's calls -/

/-- A call on the client, or a note that is no hand-over. -/
inductive Flows : View → View → Prop where
  | called (c : Conn) (log : List Event) (call : Call) :
    Flows (some c, log) (some (outcome call c).2, log ++ [.called call c])
  | noted (client : Option Conn) (log more : List Event) (h : ∀ e ∈ more, handedBy e = none) :
    Flows (client, log) (client, log ++ more)

theorem Told.flows {v w : View} (h : Told all v) (hvw : Flows v w) : Told all w := by
  cases hvw with
  | called c log call => exact h.called call
  | noted client log more hmore => exact h.logged hmore

/-- The program hands nothing and replaces no client. -/
abbrev Forwards {α : Type} (m : SenderM α) : Prop := Steps view Flows m

theorem Forwards.told {α : Type} {m : SenderM α} (hm : Forwards m) {s : Sender} (hs : Told all (view s)) :
    Ends m s fun _ t => Told all (view t) := by
  have hsteps : Relation.ReflTransGen Flows (view s) (view (m.run s).2) := hm s
  have hstep (v w : View) (hv : Told all v) (hvw : Flows v w) : Told all w := hv.flows hvw
  exact steps_invariant hstep hsteps hs

theorem forwards_perform (call : Call) : Forwards (perform call) := by
  intro s
  refine Ends.stepsAt ((ends_perform call s).mono fun ok t ht => ?_)
  rcases ht with ⟨-, -, rfl⟩ | ⟨c, hclient, -, rfl⟩
  · exact Relation.ReflTransGen.refl
  · apply Relation.ReflTransGen.single
    simp only [view, hclient]
    exact Flows.called c s.log call

theorem forwards_modify {f : Sender → Sender} (hf : ∀ s, view (f s) = view s) : Forwards (modify f) :=
  Steps.modify_of_eq hf

theorem forwards_present (f : CaptionPresenter → List Render × CaptionPresenter) : Forwards (present f) := by
  refine Steps.modify fun s => Relation.ReflTransGen.single (Flows.noted _ _ _ fun e he => ?_)
  obtain ⟨r, -, rfl⟩ := List.mem_map.mp he
  rfl

theorem forwards_blank : Forwards blank := forwards_modify fun _ => rfl

theorem forwards_die : Forwards die := forwards_modify fun _ => rfl

theorem forwards_startSession (sourceUrl : Option CString) : Forwards (startSession sourceUrl) := by
  refine Steps.get_bind fun s => ?_
  exact Steps.bind (forwards_perform _) (fun _ => Steps.bind (forwards_modify fun _ => rfl) fun _ => Steps.pure _) s

theorem forwards_sendTranslation : Forwards sendTranslation := Steps.get_bind fun s => forwards_perform _ s

theorem forwards_relayTranslation : Forwards relayTranslation := by
  refine Steps.get_bind fun s => Steps.ite ?_ (Steps.pure _) s
  refine Steps.bind forwards_sendTranslation fun _ => Steps.ite (Steps.pure _) ?_
  exact Steps.get_bind fun s => Steps.bind (Steps.onlyIf forwards_die) (fun _ => Steps.pure _) s

theorem forwards_sendModelRequest (request : CString) : Forwards (sendModelRequest request) := by
  refine Steps.get_bind fun s => Steps.ite (Steps.pure _) ?_ s
  dsimp only
  refine Steps.bind (forwards_perform _) fun _ => Steps.ite ?_ (Steps.pure _)
  exact Steps.bind (forwards_modify fun _ => rfl) fun _ => Steps.pure _

theorem forwards_relayModelRequest (request : CString) : Forwards (relayModelRequest request) :=
  Steps.bind (forwards_sendModelRequest request) fun _ => Steps.ite (Steps.pure _) forwards_die

theorem forwards_takeSnapshot (t : Round) : Forwards (takeSnapshot t) := by
  refine Steps.bind (forwards_modify fun _ => rfl) fun _ => Steps.bind forwards_relayTranslation fun _ => ?_
  have hrest : Forwards (do
      modify fun s => { s with lastConfigPollUs := t.cfgNowUs, cfg := { s.cfg with valid := true } }
      let s ← get
      onlyIf (s.cfg.modelDownload.val ≠ []) (relayModelRequest s.cfg.modelDownload)) := by
    refine Steps.bind (forwards_modify fun _ => rfl) fun _ => Steps.get_bind fun s => ?_
    exact Steps.onlyIf (forwards_relayModelRequest _) s
  apply Steps.ite
  · exact hrest
  · exact Steps.bind (forwards_modify fun _ => rfl) fun _ => hrest

theorem forwards_swapMedia (url : CString) : Forwards (swapMedia url) := by
  refine Steps.bind (forwards_modify fun _ => rfl) fun _ => Steps.bind forwards_blank fun _ => ?_
  refine Steps.bind (forwards_perform _) fun _ => Steps.bind (forwards_modify fun _ => rfl) fun _ => ?_
  exact Steps.bind (forwards_startSession _) fun _ => Steps.onlyIf (forwards_modify fun _ => rfl)

theorem forwards_detectMediaSwap (input : Option Input) : Forwards (detectMediaSwap input) := by
  refine Steps.get_bind fun s => ?_
  split
  · exact Steps.onlyIf (forwards_swapMedia _) s
  · exact Steps.pure _ s

theorem forwards_pace (positionUs : Int64) (playbackRate : Binary32) (paused : Bool) :
    Forwards (pace positionUs playbackRate paused) := by
  refine Steps.get_bind fun s => Steps.ite ?_ (Steps.pure _) s
  refine Steps.bind (forwards_modify fun _ => rfl) fun _ => Steps.bind (forwards_perform _) fun _ => ?_
  exact Steps.ite (Steps.pure _) (Steps.bind forwards_die fun _ => Steps.pure _)

theorem forwards_follow (t : Round) (positionUs : Int64) (playbackRate : Binary32) (paused : Bool) :
    Forwards (follow t positionUs playbackRate paused) := by
  refine Steps.ite ?_ (forwards_pace _ _ _)
  refine Steps.bind forwards_blank fun _ => Steps.bind (forwards_modify fun _ => rfl) fun _ => ?_
  refine Steps.bind (forwards_pace _ _ _) fun _ => Steps.bind (forwards_modify fun _ => rfl) fun _ => Steps.pure _

theorem forwards_signalSeek (positionUs : Int64) : Forwards (signalSeek positionUs) := forwards_modify fun _ => rfl

theorem forwards_detectPausedSeek (nowPaused : Bool) (positionUs : Int64) :
    Forwards (detectPausedSeek nowPaused positionUs) := by
  refine Steps.get_bind fun s => Steps.ite (Steps.ite ?_ ?_) ?_ s
  · exact forwards_modify fun _ => rfl
  · exact Steps.bind (Steps.onlyIf (forwards_signalSeek _)) fun _ => forwards_modify fun _ => rfl
  · exact Steps.onlyIf (forwards_modify fun _ => rfl)

theorem forwards_detectSeek (t : Round) (nowPaused : Bool) (positionUs : Int64) :
    Forwards (detectSeek t nowPaused positionUs) := by
  refine Steps.get_bind fun s => ?_
  dsimp only
  refine Steps.bind (Steps.onlyIf ?_) (fun _ => Steps.onlyIf ?_) s
  · exact Steps.bind (forwards_signalSeek _) fun _ => Steps.onlyIf (forwards_modify fun _ => rfl)
  · exact forwards_modify fun _ => rfl

theorem forwards_pollInput (t : Round) : Forwards (pollInput t) := by
  refine Steps.get_bind fun s => Steps.ite ?_ (Steps.pure _) s
  refine Steps.bind (forwards_modify fun _ => rfl) fun _ => Steps.bind (forwards_detectMediaSwap _) fun _ => ?_
  refine Steps.get_bind fun s => Steps.bind (forwards_follow t _ _ _) (fun _ => Steps.ite ?_ (Steps.pure _)) s
  exact Steps.bind (forwards_detectPausedSeek _ _) fun _ => Steps.bind (forwards_detectSeek t _ _) fun _ => Steps.pure _

theorem forwards_followPause (p : Polled) : Forwards (followPause p) := by
  have hset : Forwards (modify fun s => { s with paused := p.nowPaused }) := forwards_modify fun _ => rfl
  refine Steps.get_bind fun s => Steps.onlyIf ?_ s
  dsimp only
  refine Steps.ite (Steps.ite ?_ ?_) ?_
  · refine Steps.bind (Steps.onlyIf ?_) fun _ => hset
    exact Steps.bind (forwards_modify fun _ => rfl) fun _ => forwards_signalSeek _
  · exact Steps.bind forwards_blank fun _ => Steps.bind (forwards_perform _) fun _ => hset
  · refine Steps.bind (forwards_modify fun _ => rfl) fun _ => Steps.bind forwards_blank fun _ => ?_
    exact Steps.bind (forwards_perform _) fun _ => hset

theorem forwards_restartLive (seekTargetUs : Int64) : Forwards (restartLive seekTargetUs) := by
  refine Steps.bind (forwards_perform _) fun _ => Steps.bind (forwards_modify fun _ => rfl) fun _ => ?_
  refine Steps.bind (forwards_startSession none) fun _ => Steps.ite ?_ (Steps.pure _)
  refine Steps.bind forwards_sendTranslation fun _ => Steps.get_bind fun s => Steps.onlyIf ?_ s
  exact Steps.bind (forwards_perform _) fun _ => Steps.pure _

theorem forwards_seekSource (seekTargetUs : Int64) (preview : Bool) : Forwards (seekSource seekTargetUs preview) := by
  refine Steps.onlyIf (Steps.bind (forwards_modify fun _ => rfl) fun _ => Steps.get_bind fun s => ?_)
  exact Steps.bind (forwards_perform _) (fun _ => Steps.ite (Steps.pure _) forwards_die) s

theorem forwards_followSeek (t : Round) : Forwards (followSeek t) := by
  refine Steps.get_bind fun s => Steps.onlyIf ?_ s
  dsimp only
  have hseek : Forwards (if s.sourceModeActive then
      seekSource (if 0 ≤ s.currentPositionUs then s.currentPositionUs else s.resumePtsUs)
        (s.paused && s.sourceModeActive && t.showPaused)
      else restartLive (if 0 ≤ s.currentPositionUs then s.currentPositionUs else s.resumePtsUs)) :=
    Steps.ite (forwards_seekSource _ _) (forwards_restartLive _)
  refine Steps.bind (forwards_modify fun _ => rfl) fun _ => Steps.ite ?_ ?_
  · exact Steps.bind (forwards_modify fun _ => rfl) fun _ => hseek
  · exact Steps.bind forwards_blank fun _ => Steps.bind (forwards_modify fun _ => rfl) fun _ => hseek

theorem forwards_sendBurst (forwards sentAny : Bool) (chunks : List AudioChunk) :
    Forwards (sendBurst forwards sentAny chunks) := by
  induction chunks generalizing sentAny with
  | nil => exact Steps.pure _
  | cons chunk chunks ih =>
    refine Steps.ite ?_ (ih sentAny)
    exact Steps.bind (forwards_perform _) fun _ => Steps.ite (ih true) (Steps.bind forwards_die fun _ => Steps.pure _)

theorem forwards_flushPending (t : Round) (isSourceMode : Bool) : Forwards (flushPending t isSourceMode) := by
  refine Steps.get_bind fun s => ?_
  split
  · exact Steps.onlyIf (forwards_present _) s
  · exact Steps.pure _ s

/-! ## Rounds -/

/-- The program adds the captions of these workers to those that may be handed. -/
def GrowsAt {α : Type} (sent : Conn → List WireFrame) (conns : List Conn) (s : Sender) (m : SenderM α) : Prop :=
  ∀ all, Told all (view s) → Ends m s fun _ t => Told (all ++ toldBy sent conns) (view t)

def Grows {α : Type} (sent : Conn → List WireFrame) (conns : List Conn) (m : SenderM α) : Prop :=
  ∀ s, GrowsAt sent conns s m

section Rules

variable {α β : Type} {conns : List Conn} {m : SenderM α} {f : α → SenderM β}

theorem Grows.mono {more : List Conn} (hm : Grows sent conns m) (hmore : conns.Sublist more) : Grows sent more m :=
  fun s all hs => (hm s all hs).mono fun _ _ ht => ht.mono (List.Sublist.append_left (hmore.flatMap _) _)

theorem Forwards.grows (hm : Forwards m) : Grows sent conns m :=
  fun _ _ hs => (hm.told hs).mono fun _ _ ht => ht.mono (List.sublist_append_left _ _)

theorem Forwards.bind_grows (hm : Forwards m) (hf : ∀ a, Grows sent conns (f a)) : Grows sent conns (m >>= f) :=
  fun _ _ hs => (hm.told hs).bind fun a t ht => hf a t _ ht

theorem Grows.bind_forwards (hm : Grows sent conns m) (hf : ∀ a, Forwards (f a)) : Grows sent conns (m >>= f) :=
  fun s all hs => (hm s all hs).bind fun a _ ht => (hf a).told ht

theorem Grows.get_bind {f : Sender → SenderM α} (hf : ∀ s, GrowsAt sent conns s (f s)) : Grows sent conns (get >>= f) :=
  fun s all hs => Ends.get_bind (hf s all hs)

theorem Grows.ite {c : Prop} [Decidable c] {n : SenderM α} (hm : Grows sent conns m) (hn : Grows sent conns n) :
    Grows sent conns (if c then m else n) :=
  fun s all hs => Ends.ite (fun _ => hm s all hs) fun _ => hn s all hs

theorem Grows.onlyIf {c : Bool} {m : SenderM Unit} (hm : Grows sent conns m) : Grows sent conns (onlyIf c m) :=
  Grows.ite hm (Forwards.grows (Steps.pure _))

theorem Grows.bind {later : List Conn} (hm : Grows sent conns m) (hf : ∀ a, Grows sent later (f a)) :
    Grows sent (conns ++ later) (m >>= f) := by
  intro s all hs
  refine (hm s all hs).bind fun a t ht => ?_
  rw [toldBy_append, ← List.append_assoc]
  exact hf a t _ ht

end Rules

theorem grows_relaunch {launch : Launch} (hsent : Sends sent (endpoints launch)) (paused : Bool) :
    Grows sent (endpoints launch) (relaunch launch paused) := by
  intro s all hs
  apply Ends.modify_bind
  apply Ends.modify_bind
  have htold := Told.launched _ hs.past hsent s.authToken
  apply Ends.get_bind
  apply Ends.ite
  · intro _
    exact htold
  · intro _
    refine Forwards.told (Steps.bind forwards_blank fun _ => ?_) htold
    refine Steps.bind (forwards_startSession _) fun started => Steps.bind (forwards_modify fun _ => rfl) fun _ => ?_
    refine Steps.ite (Steps.pure _) (Steps.bind forwards_sendTranslation fun _ => Steps.ite ?_ (Steps.pure _))
    exact Steps.bind (forwards_perform _) fun _ => Steps.pure _

theorem grows_respawnWorker {launch : Launch} (hsent : Sends sent (endpoints launch)) (paused transportRecovery : Bool) :
    Grows sent (endpoints launch) (respawnWorker launch paused transportRecovery) := by
  refine Forwards.bind_grows (forwards_modify fun _ => rfl) fun _ => Grows.get_bind fun s => ?_
  refine Grows.ite (Forwards.grows (Steps.pure _)) ?_ s
  refine Forwards.bind_grows (forwards_modify fun _ => rfl) fun _ => Forwards.bind_grows ?_ fun _ => grows_relaunch hsent paused
  exact Steps.modify fun s => Relation.ReflTransGen.single (Flows.noted _ _ _ (by simp [handedBy]))

theorem grows_pollConfig {t : Round} (hsent : Sends sent (endpoints t.cfgRespawn)) :
    Grows sent (endpoints t.cfgRespawn) (pollConfig t) := by
  have hrespawn : Grows sent (endpoints t.cfgRespawn) (respawnForConfig t) := by
    refine Grows.get_bind fun s => Grows.onlyIf ?_ s
    refine Forwards.bind_grows (forwards_modify fun _ => rfl) fun _ => Grows.get_bind fun s => ?_
    refine Grows.bind_forwards (grows_respawnWorker hsent _ _) (fun _ => ?_) s
    exact forwards_modify fun _ => rfl
  have hcompare : Grows sent (endpoints t.cfgRespawn) (compareSnapshot t) := by
    refine Grows.get_bind fun s => ?_
    dsimp only
    refine Forwards.bind_grows (Steps.onlyIf ?_) (fun _ => Forwards.bind_grows (Steps.onlyIf ?_) fun _ => Grows.onlyIf hrespawn) s
    · refine Steps.bind (forwards_modify fun _ => rfl) fun _ => ?_
      exact Steps.bind forwards_relayTranslation fun _ => Steps.pure _
    · exact Steps.ite (forwards_relayModelRequest _) (forwards_modify fun _ => rfl)
  refine Grows.get_bind fun s => Grows.ite (Forwards.grows (forwards_takeSnapshot t)) ?_ s
  refine Grows.ite (Forwards.bind_grows (forwards_modify fun _ => rfl) fun _ => ?_) (Forwards.grows (Steps.pure _))
  exact Grows.onlyIf hcompare

theorem grows_activateDownloadedModel {t : Round} (hsent : Sends sent (endpoints t.activation)) (modelId : CString) :
    Grows sent (endpoints t.activation) (activateDownloadedModel t modelId) := by
  unfold activateDownloadedModel
  split
  · refine Grows.ite (Forwards.grows (Steps.pure _)) (Forwards.bind_grows (forwards_modify fun _ => rfl) fun _ => ?_)
    exact Grows.get_bind fun s => grows_respawnWorker hsent _ _ s
  · exact Forwards.grows (Steps.pure _)

theorem grows_onModelProgress {t : Round} (hsent : Sends sent (endpoints t.activation)) (progress : ModelProgress) :
    Grows sent (endpoints t.activation) (onModelProgress t progress) := by
  refine Forwards.bind_grows (Steps.onlyIf (forwards_modify fun _ => rfl)) fun _ => Grows.get_bind fun s => ?_
  refine Grows.onlyIf (Forwards.bind_grows ?_ fun _ => ?_) s
  · exact forwards_modify fun _ => rfl
  · exact Grows.bind_forwards (grows_activateDownloadedModel hsent _) fun _ => Steps.pure _

theorem told_onSegment (t : Round) (isSourceMode : Bool) {segment : CaptionSegment} {s : Sender}
    (hs : Told all (view s)) (hgiven : Told all (s.client, s.log ++ [.handed segment])) :
    Ends (onSegment t isSourceMode segment) s fun _ u => Told all (view u) := by
  apply Ends.get_bind
  apply Ends.ite
  · intro _
    exact hs
  · intro _
    apply Ends.ite
    · intro _
      exact hs
    · intro _
      apply Ends.ite
      · intro _
        exact Ends.modify_bind ((forwards_present _).told hgiven)
      · intro _
        apply Ends.ite
        · intro _
          exact Ends.modify_bind (Ends.modify_bind ((forwards_present _).told hgiven))
        · intro _
          exact hs

theorem grows_takeFrame {t : Round} (hsent : Sends sent (endpoints t.activation)) (isSourceMode sentAny : Bool) :
    Grows sent (endpoints t.activation) (takeFrame t isSourceMode sentAny) := by
  intro s all hs
  have hmore : all.Sublist (all ++ toldBy sent (endpoints t.activation)) := List.sublist_append_left _ _
  have hreceive : Ends (Sender.receiveFrame (if sentAny then 5000 else 20000)) s fun r u => Told all (view u) ∧
      ∀ segment, r = (.ok, some (.captionSegment segment)) → Told all (u.client, u.log ++ [.handed segment]) := by
    refine (ends_receiveCall _ s).mono fun r u hu => ?_
    rcases hu with ⟨-, rfl, rfl⟩ | ⟨c, hclient, rfl, rfl⟩
    · exact ⟨hs, by simp⟩
    · rw [view, hclient] at hs
      exact hs.received _
  refine hreceive.bind fun r u ⟨hu, hgiven⟩ => ?_
  obtain ⟨code, payload⟩ := r
  cases code with
  | fatal => exact (forwards_die.told hu).bind fun _ v hv => hv.mono hmore
  | timeout => exact hu.mono hmore
  | ok =>
    cases payload with
    | none => exact hu.mono hmore
    | some p =>
      have hpayload : Ends (onPayload t isSourceMode p) u fun _ v =>
          Told (all ++ toldBy sent (endpoints t.activation)) (view v) := by
        cases p with
        | captionSegment segment =>
          exact (told_onSegment t isSourceMode hu (hgiven segment rfl)).mono fun _ _ hv => hv.mono hmore
        | modelProgress progress => exact grows_onModelProgress hsent progress u all hu
        | error err => exact Forwards.grows (Steps.onlyIf forwards_die) u all hu
        | _ => exact hu.mono hmore
      exact hpayload.bind fun _ v hv => hv

theorem grows_attend {t : Round} (hsent : Sends sent (endpoints t.activation)) :
    Grows sent (endpoints t.activation) (attend t) := by
  have hserve : Grows sent (endpoints t.activation) (serve t) := by
    refine Grows.get_bind fun s => Forwards.bind_grows (forwards_sendBurst _ _ _) (fun sentAny => ?_) s
    refine Grows.get_bind fun s => Grows.ite (Forwards.grows (Steps.pure _)) ?_ s
    exact Grows.bind_forwards (grows_takeFrame hsent _ _) fun _ => Steps.ite (forwards_flushPending t _) (Steps.pure _)
  refine Forwards.bind_grows (forwards_pollInput t) fun polled => ?_
  cases polled with
  | none => exact Forwards.grows (Steps.pure _)
  | some p =>
    exact Forwards.bind_grows (forwards_followPause p) fun _ => Forwards.bind_grows (forwards_followSeek t) fun _ => hserve

theorem grows_idle {t : Round} (hsent : Sends sent (endpoints t.retry)) : Grows sent (endpoints t.retry) (idle t) := by
  refine Grows.get_bind fun s => Grows.onlyIf (Forwards.bind_grows ?_ fun _ => ?_) s
  · exact forwards_modify fun _ => rfl
  · exact Grows.bind_forwards (grows_respawnWorker hsent _ _) fun _ => Steps.pure _

theorem grows_recover {t : Round} (hsent : Sends sent (endpoints t.recovery)) :
    Grows sent (endpoints t.recovery) (recover t) := by
  refine Grows.get_bind fun s => Grows.bind_forwards (grows_respawnWorker hsent _ _) (fun _ => ?_) s
  exact Steps.ite (Steps.bind (forwards_modify fun _ => rfl) fun _ => Steps.pure _) (Steps.pure _)

/-- A round launches a worker for other settings, and then at most one for another reason. -/
theorem grows_round {t : Round} (hsent : Sends sent (roundEndpoints t)) : Grows sent (roundEndpoints t) (round t) := by
  simp only [Sends, roundEndpoints, List.mem_append] at hsent
  refine Grows.bind (grows_pollConfig fun c hc => hsent c (by simp [hc])) fun _ => Grows.get_bind fun s => ?_
  refine Grows.ite ?_ (Grows.ite ?_ ?_) s
  · exact (grows_recover fun c hc => hsent c (by simp [hc])).mono (List.sublist_append_left _ _)
  · refine Grows.bind_forwards (Grows.mono (grows_idle fun c hc => hsent c (by simp [hc])) ?_) fun _ => Steps.pure _
    exact (List.sublist_append_left _ _).trans (List.sublist_append_right _ _)
  · refine Grows.bind_forwards (Grows.mono (grows_attend fun c hc => hsent c (by simp [hc])) ?_) fun _ => Steps.pure _
    exact (List.sublist_append_right _ _).trans (List.sublist_append_right _ _)

/-! ## Runs -/

theorem told_step {t : Round} (hsent : Sends sent (roundEndpoints t)) {s : Sender} (hs : Told all (view s)) :
    Told (all ++ toldBy sent (roundEndpoints t)) (view (s.step t)) := by
  unfold Sender.step
  split
  · exact hs.mono (List.sublist_append_left _ _)
  · exact grows_round hsent s all hs

theorem told_start {launch : Launch} (hsent : Sends sent (endpoints launch)) (modelPath : CString)
    (authToken : CArray authTokenBytes) :
    Told (toldBy sent (endpoints launch)) (view (start launch modelPath authToken)) := by
  have hopened : Told ([] ++ toldBy sent (endpoints launch)) (view (opened launch modelPath authToken)) :=
    Told.launched [] (List.Sublist.refl _) hsent authToken
  have hbegin : Forwards (begin launch.uri) := by
    refine Steps.get_bind fun s => Steps.bind ?_ (fun _ => ?_) s
    · exact forwards_modify fun _ => rfl
    · exact Steps.bind (forwards_startSession _) fun _ => Steps.pure _
  exact hbegin.told hopened

theorem told_rounds (rounds : List Round) {conns : List Conn} {s : Sender} (hs : Told (toldBy sent conns) (view s))
    (hsent : Sends sent (rounds.flatMap roundEndpoints)) :
    Told (toldBy sent (conns ++ rounds.flatMap roundEndpoints)) (view (run Sender.step s rounds)) := by
  induction rounds generalizing conns s with
  | nil => simpa [run] using hs
  | cons t rounds ih =>
    have hfirst : Sends sent (roundEndpoints t) := fun c hc => hsent c (by simp [hc])
    have hlater : Sends sent (rounds.flatMap roundEndpoints) := fun c hc => hsent c (by simp_all)
    have hstep := told_step hfirst hs
    rw [← toldBy_append] at hstep
    have hrest := ih hstep hlater
    simpa [run] using hrest

/-- The endpoints that a run may try. -/
def runEndpoints (launch : Launch) (rounds : List Round) : List Conn :=
  endpoints launch ++ rounds.flatMap roundEndpoints

theorem told_run {launch : Launch} {rounds : List Round} (hsent : Sends sent (runEndpoints launch rounds))
    (modelPath : CString) (authToken : CArray authTokenBytes) :
    Told (toldBy sent (runEndpoints launch rounds)) (view (run Sender.step (start launch modelPath authToken) rounds)) :=
  told_rounds rounds (told_start (fun c hc => hsent c (List.mem_append_left _ hc)) modelPath authToken)
    fun c hc => hsent c (List.mem_append_right _ hc)

/-- **Captions keep their order.** If the worker behind each endpoint sends frames, the captions that the presenter is
given in a run are, in their order, captions of the frames of the workers that the plugin may have launched: none is
made up, handed twice or handed before an earlier one. -/
theorem handed_sublist (sent : Conn → List WireFrame) (launch : Launch) (modelPath : CString)
    (authToken : CArray authTokenBytes) (rounds : List Round)
    (hsent : ∀ c ∈ runEndpoints launch rounds, Awaits c (sent c)) :
    (handed (run Sender.step (start launch modelPath authToken) rounds).log).Sublist
      (captions ((runEndpoints launch rounds).flatMap sent)) := by
  have hcaptions (conns : List Conn) : toldBy sent conns = captions (conns.flatMap sent) := by
    simp [toldBy, captions, List.filterMap_flatMap]
  rw [← hcaptions]
  exact (told_run hsent modelPath authToken).past

/-! ## A worker that sends two captions -/

/-- A caption of the session. -/
def captionFrame (sequence : UInt64) (segmentId : UInt8) : WireFrame where
  type := .captionSegment
  sequence := sequence
  payload := List.replicate 16 0 ++ [segmentId, 0, 0, 0, 0, 0, 0, 0] ++ List.replicate 8 0 ++ [1, 0, 0, 0, 0, 0, 0, 0] ++
    [1, 2, 0, 0x6F, 0x6B]
  fits := by simp [maxPayloadBytes]

/-- The frames of a worker that accepts its session, sends two captions and dies. -/
def captioning : List WireFrame := [helloAckFrame 1, startedFrame 2, captionFrame 3 7, captionFrame 4 8]

def captioned : Launch := launchOf (some (endpoint captioning [.broken]))

def captionedRounds : List Round :=
  List.replicate 5 (quietRound none captioned)

/-- The worker is replaced once. -/
theorem handed_sublist_captioned :
    (handed (run Sender.step (start captioned .empty (.zero 32)) captionedRounds).log).Sublist
      (captions ((runEndpoints captioned captionedRounds).flatMap fun _ => captioning)) ∧
    (handed (run Sender.step (start captioned .empty (.zero 32)) captionedRounds).log).map (·.segmentId) = [7, 8, 7] := by
  refine ⟨handed_sublist _ captioned .empty (.zero 32) captionedRounds fun c hc => ?_, by decide +kernel⟩
  have hconn : c = endpoint captioning [.broken] := by
    simpa [runEndpoints, captionedRounds, roundEndpoints, endpoints, captioned, launchOf, quietRound] using hc
  rw [hconn]
  simp [Awaits, endpoint, captioning, WireFrame.bytes]

end VlcWhisper.System
