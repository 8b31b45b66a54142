import RemoteCam.App.Status
import RemoteCam.Backend.OptOut

/-! # The events of the controller, and the window

The network thread posts the state of the session and, of a session without authentication, one
event before `ready`; all other events may be posted in between, by any thread. The window gets them
in this order, each some time later.

`truthful_of_run`: however far the window has got, a phone that has not proven itself is shown as
not authenticated as soon as its session is shown as ready or streaming, and no other phone is. -/

namespace RemoteCam.App.Announcements

open RemoteCam.Lib.Transitions RemoteCam.Backend.Session RemoteCam.Backend.Effects
open RemoteCam.Backend.Invariants RemoteCam.Backend.Phases RemoteCam.Backend.Handshake
open RemoteCam.Backend.OptOut (Desk desk steady)
open RemoteCam.App.Status

/-! ### The network thread and its events -/

/-- The handler whose last message is being sent. -/
inductive Handler where
  | handleHello
  | handleAuthResponse
  deriving DecidableEq, Repr

structure Host where
  desk : Desk
  handler : Handler := .handleHello
  /-- The events that the network thread is still to post. -/
  saying : List (QString × QString) := []
  posted : List Post := []
  deriving DecidableEq, Repr

namespace Host

variable (s : Host)

/-- The phone has been authenticated on the connection. -/
def authenticated : Bool := .authConfirm ∈ s.desk.line.written

def post (kind detail : QString) : Host :=
  { s with posted := s.posted ++ [⟨kind, detail, s.authenticated⟩] }

end Host

inductive Action where
  /-- `identity` is the name and the id of the phone, `withError` how the connection ended. -/
  | desk (a : Backend.OptOut.Action) (identity : QString) (withError : Bool)
  /-- The network thread posts its next event. -/
  | post
  /-- Any other event, of any thread. -/
  | notify (kind detail : QString)
  deriving DecidableEq, Repr

def state (name : String) : QString × QString := (text "session.state", text name)

/-- The end of `handleHello` and of `handleAuthResponse`. -/
def greeted (s : Host) (identity : QString) : List (QString × QString) :=
  match s.handler with
  | .handleHello =>
    let trusted := s.desk.line.answer = .trusted
    (if trusted ∧ s.desk.allowUnauthenticated then [(text "security.unauthenticated", identity)]
      else []) ++ [state (if trusted then "ready" else "awaiting_trust")]
  | .handleAuthResponse => [state "ready"]

/-- What the network thread has to say of the state after a step. -/
def tells (cfg : SessionConfig) (s : Host) (identity : QString) (withError : Bool) :
    Backend.OptOut.Action → List (QString × QString)
  | .line (.session .connect) =>
    if cfg.serviceIdValid && cfg.initialStream.valid then [state "awaiting_hello"] else []
  | .line (.session .disconnect) =>
    [state (if withError then "disconnected_with_error" else "disconnected")]
  | .line (.session (.run t _)) =>
    if t = net ∧ s.desk.line.session.pc net = .resetClear .streamStart then [state "streaming"] else []
  | .line (.send true) => if s.desk.line.outbox.length = 1 then greeted s identity else []
  | _ => []

/-- The handler, where the network thread comes to send. -/
def handlerNext (s : Host) : Backend.OptOut.Action → Handler
  | .line (.session (.run t _)) =>
    if t ≠ net then s.handler
    else
      match s.desk.line.session.pc net with
      | .hello _ _ => .handleHello
      | .authenticated => .handleAuthResponse
      | _ => s.handler
  | _ => s.handler

/-- A step of the network thread. -/
def ofNet : Backend.OptOut.Action → Bool
  | .line (.session (.run t _)) => t = net
  | .line (.session (.call ..)) | .line (.session .watchdog) | .line (.session .tick)
  | .line (.command ..) | .setAllowUnauthenticated _ => false
  | _ => true

def enabled (cfg : SessionConfig) (s : Host) : Action → Prop
  | .desk a _ _ => Backend.OptOut.enabled cfg s.desk a ∧ (ofNet a = true → s.saying = [])
  | .post => s.saying ≠ []
  | .notify kind _ => kind ≠ text "session.state" ∧ kind ≠ text "security.unauthenticated"

def next (cfg : SessionConfig) (s : Host) : Action → Host
  | .desk a identity withError =>
    { s with
      desk := Backend.OptOut.next cfg s.desk a
      handler := handlerNext s a
      saying := s.saying ++ tells cfg s identity withError a }
  | .post =>
    match s.saying with
    | [] => s
    | (kind, detail) :: saying => { s with saying }.post kind detail
  | .notify kind detail => s.post kind detail

instance (cfg : SessionConfig) (s : Host) (a : Action) : Decidable (enabled cfg s a) := by
  cases a <;> unfold enabled <;> infer_instance

def host (cfg : SessionConfig) : Machine Host Action := ⟨enabled cfg, next cfg⟩

instance (cfg : SessionConfig) (s : Host) (a : Action) : Decidable ((host cfg).enabled s a) :=
  inferInstanceAs (Decidable (enabled cfg s a))

def Host.start (cfg : SessionConfig) (consumer : Option ConsumerId) (preference : Bool) : Host :=
  { desk := .start cfg consumer preference }

/-- The preference is not turned on between the two readings of one `hello`. -/
def settled (s : Host) : Action → Prop
  | .desk a _ _ => steady s.desk a
  | _ => True

instance (s : Host) (a : Action) : Decidable (settled s a) := by
  cases a <;> unfold settled <;> infer_instance


/-! ### Steps of the line -/

variable {cfg : SessionConfig} {l l' : Line} {handler : Handler}

/-- How the window should look. -/
def target (l : Line) : Look where
  opened := l.session.stream.trusted && l.outbox.isEmpty
  unauthenticated :=
    l.session.stream.trusted && l.outbox.isEmpty && !decide (.authConfirm ∈ l.written)

theorem target_of_untrusted (h : l.session.stream.trusted = false) : target l = {} := by
  unfold target
  rw [h]
  rfl

theorem target_of_outbox (h : l.outbox ≠ []) : target l = {} := by
  unfold target
  rw [List.isEmpty_eq_false_iff.mpr h, Bool.and_false]
  rfl

/-- What is sent by the handler in which the network thread sends. -/
def Sends (l : Line) : Handler → Prop
  | .handleHello => .authConfirm ∉ l.written ∧ (l.session.stream.trusted = true ↔ l.answer = .trusted)
  | .handleAuthResponse => .authConfirm ∈ l.written ∧ l.session.stream.trusted = true

structure Placed (l : Line) (handler : Handler) : Prop where
  idle : l.session.pc net = .idle → l.session.stream.trusted = false
  outbox : .authConfirm ∉ l.outbox
  handler : l.session.pc net = .handshakeSend → Sends l handler

/-- Neither the trust nor what is to be sent changes, and no confirmation is written. -/
structure Same (l l' : Line) : Prop where
  trusted : l'.session.stream.trusted = l.session.stream.trusted
  outbox : l'.outbox = l.outbox
  confirmed : .authConfirm ∈ l'.written ↔ .authConfirm ∈ l.written

theorem Same.target (h : Same l l') : target l' = target l := by
  obtain ⟨htrusted, houtbox, hconfirmed⟩ := h
  unfold Announcements.target
  rw [htrusted, houtbox, decide_eq_decide.mpr hconfirmed]

/-- The network thread stays, or it goes where it neither is idle nor sends. -/
theorem Same.placed (h : Same l l') (hp : Placed l handler)
    (hpc : (l'.session.pc net = l.session.pc net ∧ l'.answer = l.answer) ∨
      (l'.session.pc net ≠ .idle ∧ l'.session.pc net ≠ .handshakeSend)) : Placed l' handler := by
  obtain ⟨htrusted, houtbox, hconfirmed⟩ := h
  refine ⟨fun hidle => ?_, by rw [houtbox]; exact hp.outbox, fun hsend => ?_⟩
  · rcases hpc with ⟨hpc, -⟩ | ⟨hpc, -⟩
    · rw [htrusted]
      exact hp.idle (hpc.symm.trans hidle)
    · exact absurd hidle hpc
  · rcases hpc with ⟨hpc, hanswer⟩ | ⟨-, hpc⟩
    · have hsends := hp.handler (hpc.symm.trans hsend)
      cases handler with
      | handleHello =>
        rw [Sends, hconfirmed, htrusted, hanswer]
        exact hsends
      | handleAuthResponse =>
        rw [Sends, hconfirmed, htrusted]
        exact hsends
    · exact absurd hsend hpc

theorem same_of_aside (e : Aside l l') : Same l l' := by
  refine ⟨e.trusted, e.outbox, ?_⟩
  rcases e.written with h | ⟨-, -, m, hm, h⟩
  · rw [h]
  · rw [h, List.mem_append, or_iff_left]
    intro hmem
    rw [← List.mem_singleton.mp hmem] at hm
    cases hm

/-- A step of the network thread outside the handshake. -/
theorem same_run {ok : Bool} (he : Backend.Session.enabled l.session (.run net ok))
    (hpc : Pc.settled (l.session.pc net) = true) : Same l (advance cfg l (.run net ok)) := by
  have hpublishes : Pc.publishes (l.session.pc net) = false := by
    cases h : l.session.pc net <;> rw [h] at hpc <;> first | rfl | cases hpc
  refine ⟨?_, ?_, ?_⟩
  · have hturn := turn_next cfg he
    generalize hterms : terms (Backend.Session.next cfg l.session (.run net ok)).stream = τ at hturn
    change (Backend.Session.next cfg l.session (.run net ok)).stream.trusted = _
    rw [show (Backend.Session.next cfg l.session (.run net ok)).stream.trusted = τ.trusted from
      hterms ▸ rfl]
    cases hturn with
    | publish h =>
      rw [hpublishes] at h
      cases h
    | _ => rfl
  · change owed l net = l.outbox
    unfold owed
    cases h : l.session.pc net <;> rw [h] at hpc <;> first | rfl | cases hpc
  · change .authConfirm ∈ (if ok then l.written ++ sends l.session net else l.written) ↔ _
    have hsends : .authConfirm ∉ sends l.session net := by
      unfold sends
      split
      · next h =>
        rw [h] at hpc
        cases hpc
      · simp
      · split_ifs <;> simp
      · simp
    split_ifs
    · rw [List.mem_append, or_iff_left hsends]
    · rfl

/-- During the handshake the phone is not trusted. -/
theorem Phase.untrusted (h : Phase cfg False l) (hpc : Pc.handshake (l.session.pc net) = true) :
    l.session.stream.trusted = false := by
  cases h with
  | greeting hpc' hstate htrusted => exact htrusted
  | waiting hpc' hstate htrusted => exact htrusted
  | confirmed hpc' hstate htrusted => exact htrusted
  | down hpc' | sending hpc' =>
    rw [hpc'] at hpc
    cases hpc
  | broken hpc' =>
    rcases hpc' with h | ⟨h | h | h, -⟩ <;> rw [h] at hpc <;> cases hpc
  | opened hpc' =>
    unfold Pc.settled at hpc'
    rw [hpc] at hpc'
    cases hpc'

/-- A reset of the consumer is made in an open session. -/
theorem Phase.resetting {after : After} (h : Phase cfg False l)
    (hpc : l.session.pc net = .resetClear after) :
    l.session.stream.trusted = true ∧ l.outbox = [] := by
  cases h with
  | opened hpc' hstate htrusted houtbox => exact ⟨htrusted, houtbox⟩
  | down hpc' => rw [hpc] at hpc'; cases hpc'
  | sending hpc' => rw [hpc] at hpc'; cases hpc'
  | confirmed hpc' => rw [hpc] at hpc'; cases hpc'
  | greeting hpc' | waiting hpc' =>
    rw [hpc] at hpc'
    rcases hpc' with h | h | h | ⟨_, h, -⟩ <;> cases h
  | broken hpc' =>
    rw [hpc] at hpc'
    rcases hpc' with h | ⟨h | h | h, -⟩ <;> cases h

/-- In `handleHello` the answer is the one that the verdict comes from. -/
theorem Phase.verdict {d : String} {v : HelloVerdict} (h : Phase cfg False l)
    (hpc : l.session.pc net = .hello d v) : v = l.answer.verdict := by
  cases h with
  | greeting hpc' =>
    rw [hpc] at hpc'
    rcases hpc' with h | h | h | ⟨_, h, -⟩ <;> cases h
    rfl
  | down hpc' => rw [hpc] at hpc'; cases hpc'
  | sending hpc' => rw [hpc] at hpc'; cases hpc'
  | confirmed hpc' => rw [hpc] at hpc'; cases hpc'
  | waiting hpc' =>
    rw [hpc] at hpc'
    rcases hpc' with h | h | h | ⟨_, h, -⟩ <;> cases h
  | broken hpc' =>
    rw [hpc] at hpc'
    rcases hpc' with h | ⟨h | h | h, -⟩ <;> cases h
  | opened hpc' => rw [hpc] at hpc'; cases hpc'

/-! ### The invariant -/

structure Inv (cfg : SessionConfig) (s : Host) : Prop where
  desk : Backend.OptOut.Inv cfg s.desk
  placed : Placed s.desk.line s.handler
  marked : Marked s.posted
  owed : Owed s.authenticated (target s.desk.line) (lookOf s.posted) s.saying

/-- A step of the line with the events it brings. -/
structure Steps (cfg : SessionConfig) (s : Host) (identity : QString) (withError : Bool)
    (a : Backend.OptOut.Action) (l' : Line) : Prop where
  placed : Placed l' (handlerNext s a)
  owed : Owed (decide (.authConfirm ∈ l'.written)) (target l') (lookOf s.posted)
    (s.saying ++ tells cfg s identity withError a)

section Steps
variable {s : Host} {identity : QString} {withError : Bool} {a : Backend.OptOut.Action}

theorem decide_confirmed (h : Same s.desk.line l') :
    decide (.authConfirm ∈ l'.written) = s.authenticated :=
  decide_eq_decide.mpr h.confirmed

/-- A step that changes nothing of this, and of which nothing is told. -/
theorem steps_of_same (I : Inv cfg s) (h : Same s.desk.line l')
    (hpc : (l'.session.pc net = s.desk.line.session.pc net ∧ l'.answer = s.desk.line.answer) ∨
      (l'.session.pc net ≠ .idle ∧ l'.session.pc net ≠ .handshakeSend))
    (hhandler : handlerNext s a = s.handler) (htells : tells cfg s identity withError a = []) :
    Steps cfg s identity withError a l' := by
  refine ⟨?_, ?_⟩
  · rw [hhandler]
    exact h.placed I.placed hpc
  · rw [decide_confirmed h, h.target, htells, List.append_nil]
    exact I.owed

/-- The look before a step of the network thread. -/
theorem Inv.looks (I : Inv cfg s) (hnone : s.saying = []) : lookOf s.posted = target s.desk.line := by
  have h := I.owed
  rw [hnone] at h
  exact h

/-- One event about the state. -/
theorem owed_state {authenticated : Bool} (l : Look) {name : String} (hname : name ∈ names)
    (hopens : name = "ready" ∨ name = "streaming" → l.unauthenticated = !authenticated) :
    Owed authenticated (look l (text "session.state") (text name)) l [state name] := by
  refine ⟨fun _ => ⟨⟨name, hname, rfl⟩, fun h => hopens ?_⟩, fun h => absurd h (by decide), rfl⟩
  exact h.imp (text_inj hname (by decide)).mp (text_inj hname (by decide)).mp

theorem steps_connect (I : Inv cfg s) (hidle : s.desk.line.session.pc net = .idle)
    (hnone : s.saying = []) :
    Steps cfg s identity withError (.line (.session .connect))
      (advance cfg s.desk.line (.connect)) := by
  have hbefore := I.looks hnone
  rw [target_of_untrusted (I.placed.idle hidle)] at hbefore
  have htrusted : (advance cfg s.desk.line .connect).session.stream.trusted = false := rfl
  refine ⟨⟨fun _ => htrusted, List.not_mem_nil, fun hsend => ?_⟩, ?_⟩
  · rw [advance, Backend.Session.next, onConnected, pc_goto_self] at hsend
    cases hsend
  · rw [target_of_untrusted htrusted, hbefore, hnone]
    change Owed _ {} {} (if cfg.serviceIdValid && cfg.initialStream.valid then
      [state "awaiting_hello"] else [])
    split_ifs
    · exact owed_state {} (by decide) fun h => absurd h (by decide)
    · rfl

theorem steps_disconnect (I : Inv cfg s) (hnone : s.saying = []) :
    Steps cfg s identity withError (.line (.session .disconnect))
      (advance cfg s.desk.line .disconnect) := by
  have htrusted : (advance cfg s.desk.line .disconnect).session.stream.trusted = false := rfl
  refine ⟨⟨fun _ => htrusted, I.placed.outbox, fun hsend => ?_⟩, ?_⟩
  · change (onDisconnected s.desk.line.session).pc net = _ at hsend
    rw [onDisconnected, pc_goto_self] at hsend
    cases hsend
  · rw [target_of_untrusted htrusted, hnone]
    cases withError
    · exact owed_state (lookOf s.posted) (by decide) fun h => absurd h (by decide)
    · exact owed_state (lookOf s.posted) (by decide) fun h => absurd h (by decide)

/-- `handleHello` publishes its outcome. -/
theorem steps_handleHello (I : Inv cfg s) {d : String} {v : HelloVerdict} {ok : Bool}
    (hpc : s.desk.line.session.pc net = .hello d v) (hnone : s.saying = []) :
    Steps cfg s identity withError (.line (.session (.run net ok)))
      (advance cfg s.desk.line (.run net ok)) := by
  obtain ⟨-, htrusted, -, houtbox, hwritten⟩ :=
    Backend.OptOut.Phase.greeted I.desk.phase hpc
  have hverdict := Phase.verdict I.desk.phase hpc
  have hbefore := I.looks hnone
  rw [target_of_untrusted htrusted] at hbefore
  have hunwritten : (advance cfg s.desk.line (.run net ok)).written = [] := by
    change (if ok then s.desk.line.written ++ sends s.desk.line.session net
      else s.desk.line.written) = []
    rw [sends, hpc, hwritten]
    split_ifs <;> rfl
  have howed : (advance cfg s.desk.line (.run net ok)).outbox = announced s.desk.line.answer := by
    change owed s.desk.line net = _
    rw [owed, hpc]
  have hsession : (advance cfg s.desk.line (.run net ok)).session =
      handleHello s.desk.line.session net d v := by
    change step cfg s.desk.line.session net ok (s.desk.line.session.pc net) = _
    rw [hpc, step]
  have htells : tells cfg s identity withError (.line (.session (.run net ok))) = [] := by
    refine if_neg fun h => ?_
    rw [hpc] at h
    cases h.2
  have htarget : target (advance cfg s.desk.line (.run net ok)) = {} := by
    by_cases hv : v = .refused
    · refine target_of_untrusted ?_
      rw [hsession, handleHello, if_pos hv]
      exact htrusted
    · refine target_of_outbox ?_
      rw [howed]
      intro hempty
      cases hanswer : s.desk.line.answer <;> rw [hanswer] at hempty hverdict <;>
        first | exact hv hverdict | cases hempty
  refine ⟨⟨fun hidle => ?_, ?_, fun hsend => ?_⟩, ?_⟩
  · rw [hsession, handleHello] at hidle
    split_ifs at hidle <;> rw [pc_goto_self] at hidle <;> cases hidle
  · rw [howed]
    cases s.desk.line.answer <;> decide
  · change Sends _ (if net ≠ net then s.handler else _)
    rw [if_neg (not_not.mpr rfl), hpc]
    refine ⟨by rw [hunwritten]; exact List.not_mem_nil, ?_⟩
    rw [hsession, handleHello] at hsend ⊢
    split_ifs at hsend ⊢ with hv
    · rw [pc_goto_self] at hsend
      cases hsend
    · change decide (v = .trusted) = true ↔ s.desk.line.answer = .trusted
      rw [hverdict]
      cases s.desk.line.answer <;> decide
  · rw [htells, hnone, hbefore, htarget]
    rfl

/-- `handleAuthResponse` publishes its outcome. -/
theorem steps_becomeReady (I : Inv cfg s) {ok : Bool}
    (hpc : s.desk.line.session.pc net = .authenticated) (hnone : s.saying = []) :
    Steps cfg s identity withError (.line (.session (.run net ok)))
      (advance cfg s.desk.line (.run net ok)) := by
  have hbefore := I.looks hnone
  rw [target_of_untrusted (Phase.untrusted I.desk.phase (by rw [hpc]; rfl))] at hbefore
  have hconfirmed : .authConfirm ∈ (advance cfg s.desk.line (.run net ok)).written :=
    Backend.OptOut.written_next (a := .session (.run net ok)) (by rintro ⟨⟩)
      (I.desk.introduced.confirmed hpc)
  have howed : (advance cfg s.desk.line (.run net ok)).outbox = [.ready] := by
    change owed s.desk.line net = _
    rw [owed, hpc]
  have hsession : (advance cfg s.desk.line (.run net ok)).session =
      becomeReady s.desk.line.session net := by
    change step cfg s.desk.line.session net ok (s.desk.line.session.pc net) = _
    rw [hpc, step]
  have htells : tells cfg s identity withError (.line (.session (.run net ok))) = [] := by
    refine if_neg fun h => ?_
    rw [hpc] at h
    cases h.2
  refine ⟨⟨fun hidle => ?_, by rw [howed]; decide, fun hsend => ?_⟩, ?_⟩
  · rw [hsession, becomeReady, pc_goto_self] at hidle
    cases hidle
  · change Sends _ (if net ≠ net then s.handler else _)
    rw [if_neg (not_not.mpr rfl), hpc]
    exact ⟨hconfirmed, by rw [hsession]; rfl⟩
  · rw [htells, hnone, hbefore, target_of_outbox (by rw [howed]; rintro ⟨⟩)]
    rfl

/-- `handleAuthResponse` up to there. -/
theorem steps_handleAuthResponse (I : Inv cfg s) {v : AuthVerdict} {ok : Bool}
    (hpc : s.desk.line.session.pc net = .authResponse v) (hnone : s.saying = []) :
    Steps cfg s identity withError (.line (.session (.run net ok)))
      (advance cfg s.desk.line (.run net ok)) := by
  have huntrusted := Phase.untrusted I.desk.phase (by rw [hpc]; rfl)
  have hbefore := I.looks hnone
  rw [target_of_untrusted huntrusted] at hbefore
  have hsession : (advance cfg s.desk.line (.run net ok)).session =
      handleAuthResponse s.desk.line.session net v ok := by
    change step cfg s.desk.line.session net ok (s.desk.line.session.pc net) = _
    rw [hpc, step]
  have hplace : (handleAuthResponse s.desk.line.session net v ok).pc net ≠ .idle ∧
      (handleAuthResponse s.desk.line.session net v ok).pc net ≠ .handshakeSend ∧
      (handleAuthResponse s.desk.line.session net v ok).stream = s.desk.line.session.stream := by
    unfold handleAuthResponse
    cases v with
    | malformed | rejected => simp
    | accepted => split_ifs <;> simp
  have htells : tells cfg s identity withError (.line (.session (.run net ok))) = [] := by
    refine if_neg fun h => ?_
    rw [hpc] at h
    cases h.2
  refine ⟨⟨fun hidle => ?_, ?_, fun hsend => ?_⟩, ?_⟩
  · rw [hsession] at hidle
    exact absurd hidle hplace.1
  · change .authConfirm ∉ owed s.desk.line net
    rw [owed, hpc]
    exact I.placed.outbox
  · rw [hsession] at hsend
    exact absurd hsend hplace.2.1
  · rw [htells, hnone, hbefore, target_of_untrusted]
    · rfl
    · rw [hsession, hplace.2.2]
      exact huntrusted

/-- Any other step of a handler; the end of `stream_start` is told. -/
theorem steps_run (I : Inv cfg s) {ok : Bool}
    (he : Backend.Session.enabled s.desk.line.session (.run net ok))
    (hsettled : Pc.settled (s.desk.line.session.pc net) = true) (hnone : s.saying = []) :
    Steps cfg s identity withError (.line (.session (.run net ok)))
      (advance cfg s.desk.line (.run net ok)) := by
  have hsame := @same_run cfg s.desk.line ok he hsettled
  have hafter := @settled_step cfg s.desk.line.session ok _ rfl (I.desk.base.roles net) hsettled
  have hhandler : handlerNext s (.line (.session (.run net ok))) = s.handler := by
    change (if net ≠ net then s.handler else _) = s.handler
    rw [if_neg (not_not.mpr rfl)]
    cases hpc : s.desk.line.session.pc net <;> rw [hpc] at hsettled <;> first | rfl | cases hsettled
  refine ⟨?_, ?_⟩
  · rw [hhandler]
    refine hsame.placed I.placed (.inr ⟨fun h => ?_, fun h => ?_⟩)
    · change (step cfg s.desk.line.session net ok _).pc net = _ at h
      rw [h] at hafter
      cases hafter
    · change (step cfg s.desk.line.session net ok _).pc net = _ at h
      rw [h] at hafter
      cases hafter
  · rw [decide_confirmed hsame, hsame.target, I.looks hnone, hnone]
    by_cases hpc : s.desk.line.session.pc net = .resetClear .streamStart
    · obtain ⟨htrusted, houtbox⟩ := Phase.resetting I.desk.phase hpc
      have htells : tells cfg s identity withError (.line (.session (.run net ok))) =
          [state "streaming"] := if_pos ⟨rfl, hpc⟩
      have htarget : target s.desk.line = ⟨true, !s.authenticated⟩ := by
        unfold target Host.authenticated
        rw [htrusted, houtbox]
        rfl
      rw [htells, htarget]
      exact owed_state ⟨true, !s.authenticated⟩ (by decide) fun _ => rfl
    · have htells : tells cfg s identity withError (.line (.session (.run net ok))) = [] :=
        if_neg fun h => hpc h.2
      rw [htells]
      rfl

/-- What `greeted` has to tell, after the last message of the handler. -/
theorem owed_greeted (I : Inv cfg s) (hsends : Sends s.desk.line s.handler) :
    Owed s.authenticated
      ⟨s.desk.line.session.stream.trusted,
        s.desk.line.session.stream.trusted && !s.authenticated⟩ {} (greeted s identity) := by
  unfold greeted
  cases hhandler : s.handler with
  | handleHello =>
    rw [hhandler] at hsends
    obtain ⟨hunwritten, htrusted⟩ := hsends
    have hunproven : s.authenticated = false := decide_eq_false hunwritten
    rw [hunproven]
    dsimp only
    by_cases hanswer : s.desk.line.answer = .trusted
    · have hallowed := (I.desk.agreed hanswer).2
      rw [if_pos ⟨hanswer, hallowed⟩, if_pos hanswer, htrusted.mpr hanswer]
      exact ⟨fun h => absurd h (by decide), fun _ => rfl,
        @owed_state false ⟨false, true⟩ "ready" (by decide) fun _ => rfl⟩
    · have huntrusted : s.desk.line.session.stream.trusted = false := by
        rw [← Bool.not_eq_true, htrusted]
        exact hanswer
      rw [if_neg fun h => hanswer h.1, if_neg hanswer, huntrusted]
      exact owed_state {} (by decide) fun h => absurd h (by decide)
  | handleAuthResponse =>
    rw [hhandler] at hsends
    obtain ⟨hwritten, htrusted⟩ := hsends
    have hproven : s.authenticated = true := decide_eq_true hwritten
    rw [hproven, htrusted]
    exact @owed_state true {} "ready" (by decide) fun _ => rfl

theorem steps_send (I : Inv cfg s) {ok : Bool}
    (hpc : s.desk.line.session.pc net = .handshakeSend) (hnone : s.saying = []) :
    Steps cfg s identity withError (.line (.send ok)) (sendNext cfg s.desk.line ok) := by
  have hsends := I.placed.handler hpc
  have hstep (ok : Bool) : Backend.Session.next cfg s.desk.line.session (.run net ok) =
      s.desk.line.session.goto net (if ok then .serving else .fail) := by
    rw [Backend.Session.next, hpc, step]
  cases houtbox : s.desk.line.outbox with
  | nil =>
    have hsame : sendNext cfg s.desk.line ok = s.desk.line := by rw [sendNext, houtbox]
    rw [hsame]
    refine steps_of_same I ⟨rfl, rfl, Iff.rfl⟩ (.inl ⟨rfl, rfl⟩) rfl ?_
    cases ok
    · rfl
    · exact if_neg (by rw [houtbox]; decide)
  | cons message rest =>
    have hne : message ≠ .authConfirm := fun h => by
      have hmem := I.placed.outbox
      rw [houtbox, h] at hmem
      exact hmem List.mem_cons_self
    cases ok with
    | false =>
      have hsession : (sendNext cfg s.desk.line false).session =
          s.desk.line.session.goto net .fail := by
        rw [sendNext, houtbox]
        exact hstep false
      refine steps_of_same I ⟨?_, ?_, ?_⟩ (.inr ?_) rfl rfl
      · rw [hsession]
        rfl
      · rw [sendNext, houtbox]
        rfl
      · rw [sendNext, houtbox]
        rfl
      · rw [hsession, pc_goto_self]
        constructor <;> rintro ⟨⟩
    | true =>
      have hbefore := I.looks hnone
      rw [target_of_outbox (by rw [houtbox]; rintro ⟨⟩)] at hbefore
      have hconfirmed : .authConfirm ∈ s.desk.line.written ++ [message] ↔
          .authConfirm ∈ s.desk.line.written := by
        rw [List.mem_append, or_iff_left]
        exact fun h => hne (List.mem_singleton.mp h).symm
      have hsent : sendNext cfg s.desk.line true =
          { s.desk.line with
            session :=
              if rest = [] then s.desk.line.session.goto net .serving else s.desk.line.session
            outbox := rest
            written := s.desk.line.written ++ [message] } := by
        rw [sendNext, houtbox, hstep true]
        rfl
      have hrest : .authConfirm ∉ rest := fun h => I.placed.outbox <| by
        rw [houtbox]
        exact List.mem_cons_of_mem _ h
      rw [hsent]
      by_cases hlast : rest = []
      · subst hlast
        rw [if_pos rfl]
        refine ⟨⟨fun hidle => ?_, hrest, fun hsend => ?_⟩, ?_⟩
        · rw [pc_goto_self] at hidle
          cases hidle
        · rw [pc_goto_self] at hsend
          cases hsend
        · have htells : tells cfg s identity withError (.line (.send true)) = greeted s identity :=
            if_pos (by rw [houtbox]; rfl)
          rw [hnone, hbefore, htells, target]
          dsimp only
          rw [decide_eq_decide.mpr hconfirmed, List.isEmpty_nil, Bool.and_true]
          exact owed_greeted I hsends
      · rw [if_neg hlast]
        have htells : tells cfg s identity withError (.line (.send true)) = [] :=
          if_neg (by rw [houtbox, List.length_cons]; simpa using hlast)
        refine ⟨⟨I.placed.idle, hrest, fun _ => ?_⟩, ?_⟩
        · change Sends _ s.handler
          cases hhandler : s.handler <;> rw [hhandler] at hsends
          · exact ⟨fun h => hsends.1 (hconfirmed.mp h), hsends.2⟩
          · exact ⟨hconfirmed.mpr hsends.1, hsends.2⟩
        · rw [hnone, hbefore, htells, target_of_outbox (by exact hlast)]
          rfl

theorem ne_idle_videoPc (stream : Stream) (frame : VideoFrame) (arrival : ℕ) :
    videoPc stream frame arrival ≠ .idle := by
  unfold videoPc
  dsimp only
  split_ifs <;> rintro ⟨⟩

/-- A frame arrives, or a `hello` is taken up. -/
theorem steps_onFrame (I : Inv cfg s) (inbound : Inbound)
    (hpc : s.desk.line.session.pc net = .serving) (l' : Line)
    (hsession : l'.session = onFrame cfg s.desk.line.session inbound)
    (houtbox : l'.outbox = s.desk.line.outbox) (hwritten : l'.written = s.desk.line.written)
    (hhandler : handlerNext s a = s.handler) (htells : tells cfg s identity withError a = []) :
    Steps cfg s identity withError a l' := by
  have hidle : (onFrame cfg s.desk.line.session inbound).pc net ≠ .idle := by
    cases inbound with
    | ignored =>
      rw [onFrame, hpc]
      rintro ⟨⟩
    | control message =>
      rw [onFrame, pc_goto_self]
      exact (controlPc_spec cfg _ _ message).2.2.1
    | video frame =>
      rw [onFrame, pc_goto_self]
      exact ne_idle_videoPc _ frame _
    | violation | undecodable =>
      rw [onFrame, pc_goto_self]
      rintro ⟨⟩
  refine steps_of_same I ⟨?_, houtbox, by rw [hwritten]⟩ (.inr ?_) hhandler htells
  · rw [hsession, stream_onFrame]
  · rw [hsession]
    refine ⟨hidle, fun h => ?_⟩
    have hanswers := @answers_onFrame cfg s.desk.line.session inbound hpc
    rw [h] at hanswers
    cases hanswers

/-- A step of the network thread, where it does not send. -/
theorem steps_net (I : Inv cfg s) {ok : Bool}
    (he : Backend.Session.enabled s.desk.line.session (.run net ok))
    (hsend : s.desk.line.session.pc net ≠ .handshakeSend) (hnone : s.saying = []) :
    Steps cfg s identity withError (.line (.session (.run net ok)))
      (advance cfg s.desk.line (.run net ok)) := by
  cases hpc : s.desk.line.session.pc net with
  | hello d v => exact steps_handleHello I hpc hnone
  | authResponse v => exact steps_handleAuthResponse I hpc hnone
  | authenticated => exact steps_becomeReady I hpc hnone
  | handshakeSend => exact absurd hpc hsend
  | idle => exact absurd hpc he.1
  | serving => exact absurd hpc he.2.1
  | _ => exact steps_run I he (by rw [hpc]; rfl) hnone

/-- A step of another thread. -/
theorem steps_aside (I : Inv cfg s) (e : Aside s.desk.line l')
    (hhandler : handlerNext s a = s.handler) (htells : tells cfg s identity withError a = []) :
    Steps cfg s identity withError a l' :=
  steps_of_same I (same_of_aside e) (.inl ⟨e.pc, e.answer⟩) hhandler htells

theorem steps_session (I : Inv cfg s) {a : Backend.Session.Action}
    (he : Backend.Session.enabled s.desk.line.session a) (hu : unhurried s.desk.line a)
    (hnone : ofNet (.line (.session a)) = true → s.saying = []) :
    Steps cfg s identity withError (.line (.session a)) (advance cfg s.desk.line a) := by
  cases a with
  | connect => exact steps_connect I he (hnone rfl)
  | disconnect => exact steps_disconnect I (hnone rfl)
  | receive inbound => exact steps_onFrame I inbound he _ rfl rfl rfl rfl rfl
  | call t c => exact steps_aside I (aside_call he) rfl rfl
  | run t ok =>
    by_cases ht : t = net
    · subst ht
      exact steps_net I he hu (hnone rfl)
    · exact steps_aside I (aside_run I.desk.base ht he) (if_pos ht) (if_neg fun h => ht h.1)
  | watchdog => exact steps_aside I aside_watchdog rfl rfl
  | tick => exact steps_aside I aside_tick rfl rfl

theorem steps_line (I : Inv cfg s) {a : Backend.Handshake.Action}
    (he : Backend.Handshake.enabled cfg s.desk.line a)
    (hnone : ofNet (.line a) = true → s.saying = []) :
    Steps cfg s identity withError (.line a) (Backend.Handshake.next cfg s.desk.line a) := by
  cases a with
  | session a => exact steps_session I he.1 he.2 hnone
  | hello deviceId answer =>
    exact steps_onFrame I (.control (.hello deviceId answer.verdict)) he.1 _ rfl rfl rfl rfl rfl
  | send ok => exact steps_send I he (hnone rfl)
  | recover ok =>
    refine steps_of_same I ⟨rfl, rfl, ?_⟩ (.inl ⟨rfl, rfl⟩) rfl rfl
    cases ok
    · rfl
    · exact List.mem_append.trans (or_iff_left (by decide))
  | command c ok =>
    have hwritten : .authConfirm ∈ (Backend.Handshake.next cfg s.desk.line (.command c ok)).written ↔
        .authConfirm ∈ s.desk.line.written := by
      rw [Backend.Handshake.next]
      split_ifs
      · refine List.mem_append.trans (or_iff_left ?_)
        cases c <;> decide
      · rfl
    refine steps_of_same I ⟨?_, ?_, hwritten⟩ (.inl ⟨?_, ?_⟩) rfl rfl <;>
      (rw [Backend.Handshake.next]; split_ifs <;> rfl)

theorem steps_desk (I : Inv cfg s) {a : Backend.OptOut.Action}
    (he : Backend.OptOut.enabled cfg s.desk a) (hnone : ofNet a = true → s.saying = []) :
    Steps cfg s identity withError a (Backend.OptOut.next cfg s.desk a).line := by
  cases a with
  | line a =>
    have hline : (Backend.OptOut.next cfg s.desk (.line a)).line =
        Backend.Handshake.next cfg s.desk.line a := by
      unfold Backend.OptOut.next Backend.OptOut.lineNext
      dsimp only
      split <;> rfl
    rw [hline]
    exact steps_line I he.1 hnone
  | hello deviceId acceptable allow =>
    rw [Backend.OptOut.next]
    split_ifs
    · exact steps_onFrame I (.control (.hello deviceId Answer.unpaired.verdict)) he.1.1 _ rfl rfl rfl
        rfl rfl
    · exact steps_onFrame I (.control (.hello deviceId Answer.refused.verdict)) he.1.1 _ rfl rfl rfl
        rfl rfl
  | allowsUnauthenticated =>
    have hline : (Backend.OptOut.next cfg s.desk .allowsUnauthenticated).line = s.desk.line := by
      rw [Backend.OptOut.next]
      split <;> rfl
    rw [hline]
    exact steps_of_same I ⟨rfl, rfl, Iff.rfl⟩ (.inl ⟨rfl, rfl⟩) rfl rfl
  | trusted =>
    cases hasking : s.desk.asking with
    | trusted deviceId =>
      rw [Backend.OptOut.next, hasking]
      refine steps_of_same I ⟨rfl, rfl, Iff.rfl⟩ (.inr ?_) rfl rfl
      dsimp only
      rw [pc_goto_self]
      constructor <;> rintro ⟨⟩
    | nothing | allowsUnauthenticated =>
      rw [Backend.OptOut.next, hasking]
      exact steps_of_same I ⟨rfl, rfl, Iff.rfl⟩ (.inl ⟨rfl, rfl⟩) rfl rfl
  | setAllowUnauthenticated allow =>
    exact steps_of_same I ⟨rfl, rfl, Iff.rfl⟩ (.inl ⟨rfl, rfl⟩) rfl rfl

end Steps

/-- **Every step keeps the invariant.** -/
theorem Inv.next {s : Host} {a : Action} (I : Inv cfg s) (he : enabled cfg s a)
    (hc : settled s a) : Inv cfg (next cfg s a) := by
  cases a with
  | post =>
    obtain ⟨hdesk, hplaced, hmarked, howed⟩ := I
    cases hsaying : s.saying with
    | nil => exact absurd hsaying he
    | cons event saying =>
      obtain ⟨kind, detail⟩ := event
      rw [hsaying] at howed
      obtain ⟨hstate, hskipped, hrest⟩ := howed
      simp only [Announcements.next, hsaying]
      refine ⟨hdesk, hplaced, hmarked.post hstate hskipped, ?_⟩
      change Owed s.authenticated (target s.desk.line) (lookOf (s.posted ++ [_])) saying
      rw [lookOf_concat]
      exact hrest
  | notify kind detail =>
    obtain ⟨hdesk, hplaced, hmarked, howed⟩ := I
    refine ⟨hdesk, hplaced, hmarked.post (fun h => absurd h he.1) (fun h => absurd h he.2), ?_⟩
    change Owed s.authenticated (target s.desk.line) (lookOf (s.posted ++ [_])) s.saying
    rw [lookOf_concat, look, if_neg he.1, if_neg he.2]
    exact howed
  | desk a identity withError =>
    have hdesk := Backend.OptOut.inv_next I.desk he.1 hc
    have hsteps : Steps cfg s identity withError a (Backend.OptOut.next cfg s.desk a).line :=
      steps_desk I he.1 he.2
    exact ⟨hdesk, hsteps.placed, I.marked, hsteps.owed⟩

theorem inv_start (consumer : Option ConsumerId) (preference : Bool) :
    Inv cfg (.start cfg consumer preference) := by
  refine ⟨Backend.OptOut.inv_start consumer preference, ⟨fun _ => rfl, List.not_mem_nil, fun h => ?_⟩,
    .nil, rfl⟩
  have hpc : (Sys.start cfg consumer).pc net = .handshakeSend := h
  rw [pc_start] at hpc
  cases hpc

theorem Marked.of_append {events more : List Post} (h : Marked (events ++ more)) :
    Marked events := by
  induction more using List.reverseRecOn with
  | nil => rwa [List.append_nil] at h
  | append_singleton more e ih =>
    rw [← List.append_assoc] at h
    generalize hwhole : events ++ more ++ [e] = whole at h
    cases h with
    | nil => exact absurd hwhole (by simp)
    | concat h =>
      rw [(List.append_inj' hwhole rfl).1] at ih
      exact ih h

/-- **What the window shows is true**: of a session shown as ready or streaming, with
authentication or without it, and however many of the events it has got. -/
theorem truthful_of_run (cfg : SessionConfig) (consumer : Option ConsumerId) (preference : Bool)
    (as : List Action) (h : (host cfg).Legal settled (.start cfg consumer preference) as)
    {seen : List Post} (hseen : seen <+: ((host cfg).exec (.start cfg consumer preference) as).posted) :
    Truthful seen := by
  obtain ⟨more, hmore⟩ := hseen
  have hinv := h.invariant (I := Inv cfg) (inv_start consumer preference)
    fun _ _ hi he hc => hi.next he hc
  have hmarked := hinv.marked
  rw [← hmore] at hmarked
  exact (Marked.of_append hmarked).truthful

/-- A phone that opts out, on a desktop that allows it, starts to stream. -/
def meeting : List Action :=
  let step (a : Backend.OptOut.Action) := Action.desk a (text "iPhone (phone)") false
  let run := step (.line (.session (.run net true)))
  [step (.line (.session .connect)), .post, step (.hello "phone" true true),
    step .allowsUnauthenticated, step .trusted, .notify (text "phone.caps") (text "received"), run,
    step (.line (.send true)), step (.line (.send true)), .post, .post,
    step (.line (.session (.receive (.control (.streamStart true))))), run, run, run, run, .post]

theorem truthful_of_run_meeting :
    ∃ seen, seen <+: ((host { sessionSecurity := false }).exec
        (.start { sessionSecurity := false } none true) meeting).posted ∧ Truthful seen ∧
      (shown seen).stateLabel = text "Phone streaming, not authenticated" :=
  ⟨((host { sessionSecurity := false }).exec
      (.start { sessionSecurity := false } none true) meeting).posted, List.prefix_rfl,
    truthful_of_run { sessionSecurity := false } none true meeting (by decide +kernel)
      List.prefix_rfl, by decide +kernel⟩

end RemoteCam.App.Announcements
