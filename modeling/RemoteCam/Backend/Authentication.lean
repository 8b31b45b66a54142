import RemoteCam.Backend.Handshake
import RemoteCam.Backend.Receive
import RemoteCam.Security.Integrity
import RemoteCam.Security.StoredSessionSecurity

/-! # Trust through a stored pairing

The controller with `StoredSessionSecurity`, over any number of connections: what `handleHello` and
`handleAuthResponse` are answered is what `beginAuthentication` and `finishAuthentication` return,
while pairings are stored and erased and the clock moves. `transcript` keeps the messages of the
authentication on the connection, in order.

A challenge stays pending when its connection ends, and a `hello` that finds no pairing does not
remove it. `proven_of_run`: trust is always earned on the connection itself, unless a phone that was
not challenged on it answers a challenge of an earlier one. -/

namespace RemoteCam.Backend.Authentication

open RemoteCam.Lib.Transitions RemoteCam.Backend.Session RemoteCam.Backend.Effects
open RemoteCam.Backend.Invariants RemoteCam.Backend.Phases RemoteCam.Backend.Handshake
open RemoteCam.Backend.Receive (deviceText)
open RemoteCam.Security.Protector (Bytes Key32)
open RemoteCam.Security.StoredSessionSecurity

/-! ### The machine -/

inductive Event where
  | hello (deviceId : Bytes)
  /-- The `auth_challenge` of what was remembered. -/
  | challenged (p : Pending)
  | response (clientNonce : Nonce32) (clientProof : Key32)
  deriving DecidableEq, Repr

structure Server where
  line : Line
  security : Impl
  store : Bytes → Except Error PairingRecord := fun _ => .error .notFound
  unixNow : ℕ := 0
  source : Bytes := []
  /-- The id in `hello_`. -/
  deviceId : Bytes := []
  /-- Ghost: what `beginAuthentication` has remembered for the `hello` of the connection. -/
  challenge : Option Pending := none
  /-- Ghost. -/
  transcript : List Event := []

inductive Action where
  | line (a : Handshake.Action)
  | connect (peer : Bytes)
  /-- `acceptable` is its shape and version. -/
  | hello (deviceId : Bytes) (acceptable : Bool) (draw : Draw)
  | authResponse (clientNonce : Nonce32) (clientProof : Key32) (draw : Draw)
  /-- A record is saved, erased or corrupted. -/
  | store (deviceId : Bytes) (record : Except Error PairingRecord)
  | clock (unixNow : ℕ)

/-- The peer's address without the port. -/
def sourceAddress (peer : Bytes) : Bytes :=
  match peer.reverse.dropWhile (· ≠ 0x3A) with
  | [] => peer
  | _ :: address => address.reverse

/-- The configuration of a controller constructed with `ISessionSecurity`. -/
def secured (cfg : SessionConfig) : SessionConfig := { cfg with sessionSecurity := true }

/-- `NotFound` is the one error that does not end the session. -/
def answerOf : Except Error AuthenticationChallenge → Answer
  | .ok _ => .challenge
  | .error .notFound => .unpaired
  | .error _ => .refused

def authResponseAction (verdict : AuthVerdict) : Handshake.Action :=
  .session (.receive (.control (.authResponse verdict)))

/-- The steps of the line that do not ask the security. -/
def plain : Handshake.Action → Bool
  | .session .connect => false
  | .session (.receive (.control (.authResponse verdict))) => verdict = .malformed
  | .hello _ _ => false
  | _ => true

/-- The event of a challenge that is sent. -/
def challengeSent (s : Server) : Handshake.Action → List Event
  | .send true =>
    match s.line.outbox with
    | .authChallenge :: _ => (s.challenge.map Event.challenged).toList
    | _ => []
  | _ => []

variable (primitives : Primitives) (cfg : SessionConfig)

/-- What the security makes of a `hello`; of a bad one it never hears. -/
def begun (s : Server) (deviceId : Bytes) (acceptable : Bool) (draw : Draw) :
    Except Error AuthenticationChallenge × Impl :=
  if acceptable then
    beginAuthentication s.security s.store draw s.source deviceId s.unixNow
  else (.error .invalidArgument, s.security)

def helloArrives (s : Server) (deviceId : Bytes) (acceptable : Bool) (draw : Draw) : Server :=
  if s.line.session.stream.state ≠ .awaitingHello then
    { s with line := Handshake.next (secured cfg) s.line (.hello (deviceText deviceId) .refused) }
  else
    match begun s deviceId acceptable draw with
    | (result, security) =>
      { s with
        line := Handshake.next (secured cfg) s.line (.hello (deviceText deviceId) (answerOf result))
        security
        deviceId
        challenge :=
          if result.isOk then security.pending (pendingKey s.source deviceId) else none
        transcript := s.transcript ++ [.hello deviceId] }

def authResponseArrives (s : Server) (clientNonce : Nonce32) (clientProof : Key32) (draw : Draw) :
    Server :=
  if s.line.session.stream.state ≠ .awaitingTrust then
    { s with line := Handshake.next (secured cfg) s.line (authResponseAction .rejected) }
  else
    match finishAuthentication primitives s.security draw s.source s.deviceId clientNonce
      clientProof s.unixNow with
    | (result, security) =>
      { s with
        line := Handshake.next (secured cfg) s.line
          (authResponseAction (if result.isOk then .accepted else .rejected))
        security
        transcript := s.transcript ++ [.response clientNonce clientProof] }

def enabled (s : Server) : Action → Prop
  | .line a => Handshake.enabled (secured cfg) s.line a ∧ plain a = true
  | .connect _ => Handshake.enabled (secured cfg) s.line (.session .connect)
  | .hello deviceId _ _ =>
    Handshake.enabled (secured cfg) s.line (.hello (deviceText deviceId) .refused)
  | .authResponse _ _ _ =>
    Handshake.enabled (secured cfg) s.line (authResponseAction .rejected)
  | .store _ _ | .clock _ => True

def next (s : Server) : Action → Server
  | .line a =>
    { s with
      line := Handshake.next (secured cfg) s.line a
      transcript := s.transcript ++ challengeSent s a }
  | .connect peer =>
    { s with
      line := Handshake.next (secured cfg) s.line (.session .connect)
      source := sourceAddress peer
      deviceId := []
      challenge := none
      transcript := [] }
  | .hello deviceId acceptable draw => helloArrives cfg s deviceId acceptable draw
  | .authResponse clientNonce clientProof draw =>
    authResponseArrives primitives cfg s clientNonce clientProof draw
  | .store deviceId record => { s with store := Function.update s.store deviceId record }
  | .clock unixNow => { s with unixNow }

def server : Machine Server Action := ⟨enabled cfg, next primitives cfg⟩

instance (s : Server) (a : Action) : Decidable (enabled cfg s a) := by
  cases a <;> unfold enabled <;> infer_instance

instance (s : Server) (a : Action) : Decidable ((server primitives cfg).enabled s a) :=
  inferInstanceAs (Decidable (enabled cfg s a))

def Server.start (serviceId : Bytes) (consumer : Option ConsumerId) : Server where
  line := .start (secured cfg) consumer
  security := { serviceId }

/-! ### Earned trust -/

/-- On this connection the phone said `hello`, was challenged, and gave the proof of the nonce. -/
def Earned (s : Server) : Prop :=
  s.line.answer = .challenge ∧ ∃ deviceId p clientNonce clientProof,
    [.hello deviceId, .challenged p, .response clientNonce clientProof].Sublist s.transcript ∧
    makeAuthenticationProof primitives p.record.key false s.security.serviceId deviceId
      p.challenge.serverNonce clientNonce = .ok clientProof

/-- A trusted connection has earned its trust. -/
def Proven (s : Server) : Prop := s.line.session.stream.trusted = true → Earned primitives s

/-- A phone that was not challenged on the connection does not answer a challenge of an earlier one
that is still pending. -/
def ownChallenge (s : Server) : Action → Prop
  | .authResponse clientNonce clientProof _ =>
    s.line.session.stream.state = .awaitingTrust → s.challenge = none →
      ∀ p ∈ s.security.pending (pendingKey s.source s.deviceId),
        p.admits primitives s.security.serviceId s.deviceId clientNonce clientProof s.unixNow =
          false
  | _ => True

instance (s : Server) (a : Action) : Decidable (ownChallenge primitives s a) := by
  cases a <;> unfold ownChallenge <;> infer_instance

/-! ### Steps of the line -/

/-- In `handleHello`. -/
def Pc.greets : Pc → Bool
  | .hello _ _ => true
  | _ => false

/-- `finishAuthentication` has been called on the connection, or the session is about to fail. -/
def Pc.judged : Pc → Bool
  | .authResponse .accepted | .authResponse .rejected | .authenticated | .fail => true
  | _ => false

/-- A proof is accepted, and the trust not yet given. -/
def Pc.earning : Pc → Bool
  | .authResponse .accepted | .authenticated => true
  | _ => false

/-- The phone is heard and not yet judged. -/
def Awaits (l : Line) : Prop :=
  (l.session.stream.state = .awaitingTrust ∨ Pc.greets (l.session.pc net) = true) ∧
    Pc.judged (l.session.pc net) = false

/-- The phone is trusted, or about to be. -/
def Trusts (l : Line) : Prop :=
  l.session.stream.trusted = true ∨ Pc.earning (l.session.pc net) = true

/-- A step that neither begins nor ends the authentication. -/
structure Carries (l l' : Line) : Prop where
  answer : l'.answer = l.answer
  awaits : Awaits l' → Awaits l
  trusts : Trusts l' → Trusts l

variable {primitives cfg} {l l' : Line} {s : Server}

theorem Carries.of_session (hsession : l'.session = l.session) (hanswer : l'.answer = l.answer) :
    Carries l l' := by
  refine ⟨hanswer, fun h => ?_, fun h => ?_⟩
  · rwa [Awaits, hsession] at h
  · rwa [Trusts, hsession] at h

theorem Carries.of_aside (h : Aside l l') : Carries l l' := by
  refine ⟨h.answer, ?_, ?_⟩
  · rintro ⟨hwait, hjudged⟩
    rw [h.pc] at hwait hjudged
    refine ⟨?_, hjudged⟩
    rcases hwait with hwait | hwait
    · rcases h.state with hstate | hstate
      · exact .inl (by rwa [hstate] at hwait)
      · rw [hstate] at hwait
        cases hwait
    · exact .inr hwait
  · rintro (h' | h')
    · exact .inl (by rwa [h.trusted] at h')
    · exact .inr (by rwa [h.pc] at h')

/-- A step to a place outside the handshake that does not give trust and does not wait for it
anew. -/
theorem Carries.of_place (hanswer : l'.answer = l.answer)
    (hplace : Pc.greets (l'.session.pc net) = false ∧ Pc.earning (l'.session.pc net) = false)
    (htrusted : l'.session.stream.trusted = true → l.session.stream.trusted = true)
    (hstate : l'.session.stream.state = .awaitingTrust → Pc.judged (l'.session.pc net) = false →
      Awaits l) : Carries l l' := by
  refine ⟨hanswer, ?_, ?_⟩
  · rintro ⟨hwait | hgreets, hjudged⟩
    · exact hstate hwait hjudged
    · rw [hplace.1] at hgreets
      cases hgreets
  · rintro (h | h)
    · exact .inl (htrusted h)
    · rw [hplace.2] at h
      cases h

/-- A frame that is no `hello` and no proof. -/
theorem place_onFrame {cfg : SessionConfig} {session : Sys} {inbound : Inbound}
    (hpc : session.pc net = .serving) (hhello : ∀ d v, inbound ≠ .control (.hello d v))
    (hproof : ∀ v, inbound = .control (.authResponse v) → v = .malformed) :
    Pc.greets ((onFrame cfg session inbound).pc net) = false ∧
      Pc.earning ((onFrame cfg session inbound).pc net) = false := by
  cases inbound with
  | violation => simp [onFrame, Pc.greets, Pc.earning]
  | ignored => simp [onFrame, hpc, Pc.greets, Pc.earning]
  | undecodable => simp [onFrame, Pc.greets, Pc.earning]
  | video frame =>
    rw [onFrame, pc_goto_self]
    unfold videoPc
    dsimp only
    split_ifs <;> exact ⟨rfl, rfl⟩
  | control message =>
    rw [onFrame, pc_goto_self]
    cases message with
    | hello d v => exact absurd rfl (hhello d v)
    | authResponse v =>
      obtain rfl := hproof v rfl
      simp only [controlPc]
      split_ifs <;> exact ⟨rfl, rfl⟩
    | formatAck generation =>
      cases generation <;> simp only [controlPc, trustedPc] <;> split_ifs <;> exact ⟨rfl, rfl⟩
    | formatReject generation =>
      cases generation <;> simp only [controlPc, trustedPc] <;> split_ifs <;> exact ⟨rfl, rfl⟩
    | _ =>
      simp only [controlPc, trustedPc]
      split_ifs <;> exact ⟨rfl, rfl⟩

theorem place_of_settled {pc : Pc} (h : Pc.settled pc = true) :
    Pc.greets pc = false ∧ Pc.earning pc = false := by
  cases pc with
  | hello d v => cases h
  | authResponse v => cases h
  | authenticated => cases h
  | _ => exact ⟨rfl, rfl⟩

theorem place_serving (session : Sys) :
    Pc.greets ((session.goto net .serving).pc net) = false ∧
      Pc.earning ((session.goto net .serving).pc net) = false := by
  rw [pc_goto_self]
  exact ⟨rfl, rfl⟩

theorem carries_hello {d : String} (hpc : l.session.pc net = .hello d l.answer.verdict)
    (hfits : l.answer.fits (secured cfg) = true)
    (hstate : l.session.stream.state ≠ .awaitingTrust) :
    Carries l { l with
      session := handleHello l.session net d l.answer.verdict, outbox := announced l.answer } := by
  cases hanswer : l.answer with
  | refused =>
    have hto : handleHello l.session net d Answer.refused.verdict = l.session.goto net .fail := rfl
    rw [hto]
    refine .of_place hanswer.symm ?_ id fun h => absurd h hstate
    rw [pc_goto_self]
    exact ⟨rfl, rfl⟩
  | trusted =>
    rw [hanswer] at hfits
    cases hfits
  | _ =>
    refine .of_place hanswer.symm ?_ nofun fun _ _ => ⟨.inr (by rw [hpc]; rfl), by rw [hpc]; rfl⟩
    change Pc.greets ((Sys.goto _ net .handshakeSend).pc net) = false ∧
      Pc.earning ((Sys.goto _ net .handshakeSend).pc net) = false
    rw [pc_goto_self]
    exact ⟨rfl, rfl⟩

theorem carries_authResponse {ok : Bool} {v : AuthVerdict}
    (hpc : l.session.pc net = .authResponse v) :
    Carries l (advance cfg l (.run net ok)) := by
  have hsession : (advance cfg l (.run net ok)).session =
      handleAuthResponse l.session net v ok := by
    change Session.next cfg l.session (.run net ok) = _
    rw [Session.next, hpc]
    rfl
  have hstream : (handleAuthResponse l.session net v ok).stream = l.session.stream := by
    cases v with
    | accepted =>
      rw [handleAuthResponse]
      split_ifs <;> rfl
    | _ => rfl
  have hplace : (v = .malformed ∧ (handleAuthResponse l.session net v ok).pc net = .malformed) ∨
      (handleAuthResponse l.session net v ok).pc net = .fail ∨
      v = .accepted ∧ (handleAuthResponse l.session net v ok).pc net = .authenticated := by
    cases v with
    | malformed => exact .inl ⟨rfl, pc_goto_self ..⟩
    | rejected => exact .inr (.inl (pc_goto_self ..))
    | accepted =>
      rw [handleAuthResponse]
      split_ifs
      · exact .inr (.inl (pc_goto_self ..))
      · exact .inr (.inr ⟨rfl, pc_goto_self ..⟩)
  refine ⟨rfl, ?_, ?_⟩
  · rintro ⟨hwait, hjudged⟩
    rw [hsession] at hwait hjudged
    rcases hplace with ⟨rfl, h⟩ | h | ⟨-, h⟩
    · rw [h, hstream] at hwait
      refine ⟨.inl (hwait.resolve_right fun h => by cases h), by rw [hpc]; rfl⟩
    · rw [h] at hjudged
      cases hjudged
    · rw [h] at hjudged
      cases hjudged
  · rintro (htrusted | hearning)
    · rw [hsession, hstream] at htrusted
      exact .inl htrusted
    · rw [hsession] at hearning
      rcases hplace with ⟨-, h⟩ | h | ⟨rfl, -⟩
      · rw [h] at hearning
        cases hearning
      · rw [h] at hearning
        cases hearning
      · exact .inr (by rw [hpc]; rfl)

/-- The network thread runs a handler. -/
theorem carries_run {ok : Bool} (hb : Base l.session) (h : Phase (secured cfg) False l)
    (he : Session.enabled l.session (.run net ok)) (hne : l.session.pc net ≠ .handshakeSend) :
    Carries l (advance (secured cfg) l (.run net ok)) := by
  have hidle := he.1
  have hserving := he.2.1
  cases h with
  | down hpc => exact absurd hpc hidle
  | sending hpc => exact absurd hpc hne
  | greeting hpc hstate htrusted hrecovery houtbox hwritten =>
    have hearly : l.session.stream.state ≠ .awaitingTrust := by
      rcases hstate with h | h <;> rw [h] <;> decide
    rcases hpc with hpc | hpc | hpc | ⟨d, hpc, hfits⟩
    · exact absurd hpc hserving
    · rw [advance_quiet hpc (.inl rfl)]
      exact .of_place rfl (place_serving _) id fun h => absurd h hearly
    · rw [advance_quiet hpc (.inr (.inl rfl))]
      exact .of_place rfl (place_serving _) id nofun
    · rw [advance_hello hpc]
      exact carries_hello hpc hfits hearly
  | waiting hpc hstate htrusted hrecovery houtbox hanswer hwritten =>
    rcases hpc with hpc | hpc | hpc | ⟨v, hpc, -⟩
    · exact absurd hpc hserving
    · rw [advance_quiet hpc (.inl rfl)]
      exact .of_place rfl (place_serving _) id fun h _ => ⟨.inl h, by rw [hpc]; rfl⟩
    · rw [advance_quiet hpc (.inr (.inl rfl))]
      exact .of_place rfl (place_serving _) id nofun
    · exact carries_authResponse hpc
  | confirmed hpc hstate htrusted hrecovery houtbox hwritten =>
    have hto : advance (secured cfg) l (.run net ok) =
        { l with session := becomeReady l.session net, outbox := [.ready] } := by
      simp [advance, owed, recovers, sends, hpc, Session.next, step]
    rw [hto]
    refine ⟨rfl, ?_, fun _ => .inr (by rw [hpc]; rfl)⟩
    rintro ⟨hready | hgreets, -⟩
    · cases hready
    · change Pc.greets ((becomeReady l.session net).pc net) = true at hgreets
      rw [becomeReady, pc_goto_self] at hgreets
      cases hgreets
  | broken hpc hstate hrecovery houtbox hwritten =>
    rcases hpc with hpc | ⟨hpc | hpc | hpc, hfailed⟩
    · rw [advance_quiet hpc (.inr (.inl rfl))]
      exact .of_place rfl (place_serving _) id nofun
    · exact absurd hpc hserving
    · rw [advance_quiet hpc (.inl rfl)]
      refine .of_place rfl (place_serving _) id fun h => ?_
      change l.session.stream.state = _ at h
      rw [hfailed] at h
      cases h
    · rw [advance_quiet hpc (.inr (.inr rfl))]
      refine .of_place rfl (place_serving _) id fun h => ?_
      change l.session.stream.state = _ at h
      rw [hfailed] at h
      cases h
  | opened hpc hstate htrusted houtbox hwritten =>
    obtain ⟨hstate', htrusted'⟩ := @opened_step (secured cfg) _ _ he hpc hstate
    refine .of_place rfl (place_of_settled (settled_step rfl (hb.roles net) hpc)) (fun _ => htrusted)
      fun hawait => ?_
    change (Session.next (secured cfg) l.session (.run net ok)).stream.state = _ at hawait
    rw [hawait] at hstate'
    simp at hstate'

theorem session_sendNext {ok : Bool} (hpc : l.session.pc net = .handshakeSend) :
    (sendNext cfg l ok).session = l.session ∨
      (sendNext cfg l ok).session = l.session.goto net .serving ∨
      (sendNext cfg l ok).session = l.session.goto net .fail := by
  have hrun (ok : Bool) : Session.next cfg l.session (.run net ok) =
      l.session.goto net (if ok then .serving else .fail) := by
    rw [Session.next, hpc]
    rfl
  unfold sendNext
  split
  · exact .inl rfl
  · split_ifs
    · exact .inr (.inr (hrun false))
    · exact .inr (.inl (hrun true))
    · exact .inl rfl

/-- **A step that asks no security neither begins nor ends an authentication.** -/
theorem carries_line {a : Handshake.Action} (hb : Base l.session)
    (h : Phase (secured cfg) False l) (he : Handshake.enabled (secured cfg) l a)
    (hp : plain a = true) : Carries l (Handshake.next (secured cfg) l a) := by
  cases a with
  | hello d answer => cases hp
  | recover ok => exact .of_session rfl rfl
  | command c ok =>
    simp only [Handshake.next]
    split_ifs
    · exact .of_session rfl rfl
    · exact .of_session rfl rfl
  | send ok =>
    have hpc : l.session.pc net = .handshakeSend := he
    have hanswer : (sendNext (secured cfg) l ok).answer = l.answer := by
      unfold sendNext
      split
      · rfl
      · split_ifs <;> rfl
    rcases @session_sendNext (secured cfg) _ ok hpc with hsession | hsession | hsession
    · exact .of_session hsession hanswer
    · refine .of_place hanswer ?_ ?_ fun hstate _ => ⟨.inl ?_, by rw [hpc]; rfl⟩
      · change Pc.greets ((sendNext (secured cfg) l ok).session.pc net) = false ∧
          Pc.earning ((sendNext (secured cfg) l ok).session.pc net) = false
        rw [hsession]
        exact place_serving _
      · change (sendNext (secured cfg) l ok).session.stream.trusted = true → _
        rw [hsession]
        exact id
      · change (sendNext (secured cfg) l ok).session.stream.state = _ at hstate
        rwa [hsession] at hstate
    · refine .of_place hanswer ?_ ?_ fun hstate _ => ⟨.inl ?_, by rw [hpc]; rfl⟩
      · change Pc.greets ((sendNext (secured cfg) l ok).session.pc net) = false ∧
          Pc.earning ((sendNext (secured cfg) l ok).session.pc net) = false
        rw [hsession, pc_goto_self]
        exact ⟨rfl, rfl⟩
      · change (sendNext (secured cfg) l ok).session.stream.trusted = true → _
        rw [hsession]
        exact id
      · change (sendNext (secured cfg) l ok).session.stream.state = _ at hstate
        rwa [hsession] at hstate
  | session a =>
    cases a with
    | connect => cases hp
    | disconnect =>
      refine .of_place rfl ?_ (fun h => by cases h) fun h => by cases h
      change Pc.greets ((Sys.goto _ net .idle).pc net) = false ∧
        Pc.earning ((Sys.goto _ net .idle).pc net) = false
      rw [pc_goto_self]
      exact ⟨rfl, rfl⟩
    | receive inbound =>
      have hpc : l.session.pc net = .serving := he.1
      have hhello : ∀ d v, inbound ≠ .control (.hello d v) := by
        rintro d v rfl
        exact he.2
      have hproof : ∀ v, inbound = .control (.authResponse v) → v = .malformed := by
        rintro v rfl
        simpa [plain] using hp
      have hstream := @stream_onFrame (secured cfg) l.session inbound
      refine .of_place rfl (place_onFrame hpc hhello hproof) ?_ fun hstate _ =>
        ⟨.inl ?_, by rw [hpc]; rfl⟩
      · change (onFrame (secured cfg) l.session inbound).stream.trusted = true → _
        rw [hstream]
        exact id
      · change (onFrame (secured cfg) l.session inbound).stream.state = _ at hstate
        rwa [hstream] at hstate
    | call t c => exact .of_aside (aside_call he.1)
    | run t ok =>
      by_cases ht : t = net
      · subst ht
        exact carries_run hb h he.1 he.2
      · exact .of_aside (aside_run hb ht he.1)
    | watchdog => exact .of_aside aside_watchdog
    | tick => exact .of_aside aside_tick

/-- A challenge is written only from the outbox. -/
theorem written_challenge {a : Handshake.Action}
    (h : .authChallenge ∈ (Handshake.next cfg l a).written) :
    .authChallenge ∈ l.written ∨ a = .send true ∧ ∃ rest, l.outbox = .authChallenge :: rest := by
  have hone {m : Message} (hm : m ≠ .authChallenge) (h : .authChallenge ∈ l.written ++ [m]) :
      .authChallenge ∈ l.written := by
    rcases List.mem_append.mp h with h | h
    · exact h
    · exact absurd (List.mem_singleton.mp h).symm hm
  cases a with
  | hello d answer => exact .inl h
  | recover ok =>
    simp only [Handshake.next] at h
    split_ifs at h
    · exact .inl (hone (by decide) h)
    · exact .inl h
  | command c ok =>
    simp only [Handshake.next] at h
    split_ifs at h
    · exact .inl (hone (by cases c <;> decide) h)
    · exact .inl h
  | send ok =>
    simp only [Handshake.next, sendNext] at h
    split at h
    · exact .inl h
    · rename_i m rest hout
      split_ifs at h with hok
      all_goals first | exact .inl h | skip
      all_goals
        by_cases hm : m = .authChallenge
        · have htrue : ok = true := by simpa using hok
          exact .inr ⟨by rw [htrue], rest, by rw [hout, hm]⟩
        · exact .inl (hone hm h)
  | session a =>
    cases a with
    | connect => cases h
    | run t ok =>
      refine .inl ?_
      change .authChallenge ∈ (if ok then l.written ++ sends l.session t else l.written) at h
      split_ifs at h
      · rcases List.mem_append.mp h with h | h
        · exact h
        · unfold sends at h
          split at h
          · split_ifs at h <;> simp at h
          · simp at h
          · split_ifs at h <;> simp at h
          · cases h
      · exact h
    | _ => exact .inl h

/-! ### The invariant -/

structure Inv (primitives : Primitives) (cfg : SessionConfig) (s : Server) : Prop where
  base : Base s.line.session
  phase : Phase (secured cfg) False s.line
  answered : s.line.answer = .challenge ↔ s.challenge.isSome = true
  heard : s.challenge.isSome = true → [.hello s.deviceId].Sublist s.transcript
  told : .authChallenge ∈ s.line.written → ∀ p, s.challenge = some p →
    [.hello s.deviceId, .challenged p].Sublist s.transcript
  kept : Awaits s.line → ∀ p, s.challenge = some p →
    s.security.pending (pendingKey s.source s.deviceId) = some p
  earned : Trusts s.line → Earned primitives s

theorem Earned.mono {s' : Server} (h : Earned primitives s) (hanswer : s'.line.answer = s.line.answer)
    (hservice : s'.security.serviceId = s.security.serviceId)
    (htranscript : s.transcript.Sublist s'.transcript) : Earned primitives s' := by
  obtain ⟨hchallenge, d, p, clientNonce, clientProof, hsub, hproof⟩ := h
  refine ⟨by rw [hanswer, hchallenge], d, p, clientNonce, clientProof, hsub.trans htranscript, ?_⟩
  rwa [hservice]

/-- What a step keeps that leaves the security alone. -/
theorem Inv.carry {line : Line} {events : List Event} (h : Inv primitives cfg s)
    (hbase : Base line.session) (hphase : Phase (secured cfg) False line) (c : Carries s.line line)
    (htold : .authChallenge ∈ line.written → .authChallenge ∈ s.line.written ∨
      ∀ p, s.challenge = some p → events = [.challenged p]) :
    Inv primitives cfg { s with line, transcript := s.transcript ++ events } where
  base := hbase
  phase := hphase
  answered := by
    rw [c.answer]
    exact h.answered
  heard hsome := (h.heard hsome).trans (List.sublist_append_left _ _)
  told hwritten p hp := by
    rcases htold hwritten with hold | hnew
    · exact (h.told hold p hp).trans (List.sublist_append_left _ _)
    · rw [hnew p hp]
      exact (h.heard (by rw [hp]; rfl)).append (List.Sublist.refl [Event.challenged p])
  kept hawaits := h.kept (c.awaits hawaits)
  earned htrusts := (h.earned (c.trusts htrusts)).mono c.answer rfl (List.sublist_append_left _ _)

theorem inv_line {a : Handshake.Action} (h : Inv primitives cfg s)
    (he : Handshake.enabled (secured cfg) s.line a) (hp : plain a = true) :
    Inv primitives cfg (next primitives cfg s (.line a)) := by
  refine h.carry (base_line h.base he) (phase_next h.base h.phase he False.elim)
    (carries_line h.base h.phase he hp) fun hwritten => ?_
  rcases written_challenge hwritten with hold | ⟨rfl, rest, hout⟩
  · exact .inl hold
  · refine .inr fun p hp => ?_
    simp [challengeSent, hout, hp]

theorem inv_connect {peer : Bytes} (h : Inv primitives cfg s)
    (he : Handshake.enabled (secured cfg) s.line (.session .connect)) :
    Inv primitives cfg (next primitives cfg s (.connect peer)) where
  base := base_line (s := s.line) (a := .session .connect) h.base he
  phase := phase_next h.base h.phase he False.elim
  answered := ⟨nofun, nofun⟩
  heard := nofun
  told := nofun
  kept := nofun
  earned := by
    rintro (htrusted | hearning)
    · cases htrusted
    · change Pc.earning ((Sys.goto _ net .serving).pc net) = true at hearning
      rw [pc_goto_self] at hearning
      cases hearning

/-- While the network thread waits for a frame, a session that awaits `hello` is new, and one that
awaits trust has written what it had to. -/
theorem serving_of_phase (h : Phase cfg False l) (hpc : l.session.pc net = .serving) :
    (l.session.stream.state = .awaitingHello →
      l.session.stream.trusted = false ∧ l.written = []) ∧
    (l.session.stream.state = .awaitingTrust →
      l.session.stream.trusted = false ∧ l.written = announced l.answer) := by
  cases h with
  | greeting hpc' hstate' htrusted hrecovery houtbox hwritten =>
    refine ⟨fun _ => ⟨htrusted, hwritten⟩, fun hstate => ?_⟩
    rw [hstate] at hstate'
    simp at hstate'
  | waiting hpc' hstate' htrusted hrecovery houtbox hanswer hwritten =>
    refine ⟨fun hstate => ?_, fun _ => ⟨htrusted, hwritten⟩⟩
    rw [hstate] at hstate'
    simp at hstate'
  | broken hpc' =>
    have hfailed : l.session.stream.state = .failed := by
      rcases hpc' with hpc' | ⟨-, hfailed⟩
      · rw [hpc] at hpc'
        cases hpc'
      · exact hfailed
    refine ⟨fun hstate => ?_, fun hstate => ?_⟩
    · cases hstate.symm.trans hfailed
    · cases hstate.symm.trans hfailed
  | opened hpc' hstate' =>
    refine ⟨fun hstate => ?_, fun hstate => ?_⟩
    · rw [hstate] at hstate'
      simp at hstate'
    · rw [hstate] at hstate'
      simp at hstate'
  | down hpc' =>
    rw [hpc] at hpc'
    cases hpc'
  | sending hpc' =>
    rw [hpc] at hpc'
    cases hpc'
  | confirmed hpc' =>
    rw [hpc] at hpc'
    cases hpc'

/-- A message that the state forbids. -/
theorem inv_late {a : Handshake.Action} (h : Inv primitives cfg s)
    (he : Handshake.enabled (secured cfg) s.line a)
    (hanswer : (Handshake.next (secured cfg) s.line a).answer = s.line.answer)
    (hwritten : (Handshake.next (secured cfg) s.line a).written = s.line.written)
    (hstream : (Handshake.next (secured cfg) s.line a).session.stream = s.line.session.stream)
    (hpc : (Handshake.next (secured cfg) s.line a).session.pc net = .fail) :
    Inv primitives cfg { s with line := Handshake.next (secured cfg) s.line a } := by
  have hcarries : Carries s.line (Handshake.next (secured cfg) s.line a) := by
    refine .of_place hanswer (by rw [hpc]; exact ⟨rfl, rfl⟩) (by rw [hstream]; exact id) ?_
    intro _ hjudged
    rw [hpc] at hjudged
    cases hjudged
  have hcarry := @Inv.carry _ _ _ _ [] h (base_line h.base he)
    (phase_next h.base h.phase he False.elim) hcarries fun h' => .inl (by rwa [hwritten] at h')
  rwa [List.append_nil] at hcarry

theorem answerOf_challenge {result : Except Error AuthenticationChallenge} :
    answerOf result = .challenge ↔ result.isOk = true := by
  cases result with
  | ok challenge => exact ⟨fun _ => rfl, fun _ => rfl⟩
  | error error => cases error <;> exact ⟨nofun, nofun⟩

theorem begun_spec {deviceId : Bytes} {acceptable : Bool} {draw : Draw} :
    (∃ challenge record, begun s deviceId acceptable draw =
      (.ok challenge,
        { s.security with
          pending := Function.update s.security.pending (pendingKey s.source deviceId)
            (some { record, challenge }) })) ∨
    ∃ error, begun s deviceId acceptable draw = (.error error, s.security) := by
  unfold begun
  split_ifs
  · rcases @beginAuthentication_spec s.security s.store draw s.source deviceId s.unixNow with
      ⟨challenge, record, h, -⟩ | h
    · exact .inl ⟨challenge, record, h⟩
    · exact .inr h
  · exact .inr ⟨_, rfl⟩

theorem inv_hello {deviceId : Bytes} {acceptable : Bool} {draw : Draw} (h : Inv primitives cfg s)
    (he : Handshake.enabled (secured cfg) s.line (.hello (deviceText deviceId) .refused)) :
    Inv primitives cfg (next primitives cfg s (.hello deviceId acceptable draw)) := by
  have hpc : s.line.session.pc net = .serving := he.1
  have he' (answer : Answer) (hfits : answer.fits (secured cfg) = true) :
      Handshake.enabled (secured cfg) s.line (.hello (deviceText deviceId) answer) :=
    ⟨hpc, he.2.1, hfits⟩
  change Inv primitives cfg (helloArrives cfg s deviceId acceptable draw)
  unfold helloArrives
  by_cases hstate : s.line.session.stream.state = .awaitingHello
  · rw [if_neg (not_not.mpr hstate)]
    obtain ⟨htrusted, hwritten⟩ := (serving_of_phase h.phase hpc).1 hstate
    have hfits (result : Except Error AuthenticationChallenge) :
        (answerOf result).fits (secured cfg) = true := by
      cases result with
      | ok challenge => rfl
      | error error => cases error <;> rfl
    have hanswer (answer : Answer) :
        (Handshake.next (secured cfg) s.line (.hello (deviceText deviceId) answer)).answer =
          answer := if_pos hstate
    have hplace (answer : Answer) :
        ¬ Trusts (Handshake.next (secured cfg) s.line (.hello (deviceText deviceId) answer)) := by
      rintro (ht | ht)
      · change s.line.session.stream.trusted = true at ht
        rw [htrusted] at ht
        cases ht
      · change Pc.earning ((Sys.goto _ net _).pc net) = true at ht
        rw [pc_goto_self, controlPc] at ht
        split_ifs at ht <;> cases ht
    have htold (answer : Answer) : .authChallenge ∉
        (Handshake.next (secured cfg) s.line (.hello (deviceText deviceId) answer)).written := by
      change _ ∉ s.line.written
      rw [hwritten]
      exact List.not_mem_nil
    rcases @begun_spec s deviceId acceptable draw with ⟨challenge, record, heq⟩ | ⟨error, heq⟩
    · rw [heq]
      dsimp only
      exact
        { base := base_line h.base (he' _ (hfits _))
          phase := phase_next h.base h.phase (he' _ (hfits _)) False.elim
          answered := by
            rw [hanswer]
            simp [answerOf, Except.isOk, Except.toBool]
          heard := fun _ => List.sublist_append_right _ _
          told := fun hw => absurd hw (htold _)
          kept := fun _ p hp => hp
          earned := fun ht => absurd ht (hplace _) }
    · rw [heq]
      dsimp only
      exact
        { base := base_line h.base (he' _ (hfits _))
          phase := phase_next h.base h.phase (he' _ (hfits _)) False.elim
          answered := by
            rw [hanswer, answerOf_challenge]
            exact ⟨fun h => (by cases h), fun h => (by cases h)⟩
          heard := fun _ => List.sublist_append_right _ _
          told := fun hw => absurd hw (htold _)
          kept := fun _ p hp => by cases hp
          earned := fun ht => absurd ht (hplace _) }
  · rw [if_pos hstate]
    refine inv_late h he (if_neg hstate) rfl rfl ?_
    change (Sys.goto _ net _).pc net = _
    rw [pc_goto_self, controlPc, if_pos hstate]

theorem inv_authResponse {clientNonce : Nonce32} {clientProof : Key32} {draw : Draw}
    (h : Inv primitives cfg s)
    (he : Handshake.enabled (secured cfg) s.line (authResponseAction .rejected))
    (hc : ownChallenge primitives s (.authResponse clientNonce clientProof draw)) :
    Inv primitives cfg (next primitives cfg s (.authResponse clientNonce clientProof draw)) := by
  have hpc : s.line.session.pc net = .serving := he.1
  have he' (verdict : AuthVerdict) :
      Handshake.enabled (secured cfg) s.line (authResponseAction verdict) := he
  change Inv primitives cfg (authResponseArrives primitives cfg s clientNonce clientProof draw)
  unfold authResponseArrives
  by_cases hstate : s.line.session.stream.state = .awaitingTrust
  · rw [if_neg (not_not.mpr hstate)]
    obtain ⟨htrusted, hwritten⟩ := (serving_of_phase h.phase hpc).2 hstate
    have hpc' (verdict : AuthVerdict) :
        (Handshake.next (secured cfg) s.line (authResponseAction verdict)).session.pc net =
          .authResponse verdict := by
      change (Sys.goto _ net _).pc net = _
      rw [pc_goto_self, hstate]
      rfl
    have hawaits : Awaits s.line := ⟨.inl hstate, by rw [hpc]; rfl⟩
    cases hfinish : finishAuthentication primitives s.security draw s.source s.deviceId clientNonce
      clientProof s.unixNow with
    | mk result security =>
      have hservice : security.serviceId = s.security.serviceId := by
        rw [← @serviceId_finish primitives s.security draw s.source s.deviceId s.unixNow
          clientNonce clientProof, hfinish]
      dsimp only
      refine
        { base := base_line h.base (he' _)
          phase := phase_next h.base h.phase (he' _) False.elim
          answered := h.answered
          heard := fun hsome => (h.heard hsome).trans (List.sublist_append_left _ _)
          told := fun hw p hp => (h.told hw p hp).trans (List.sublist_append_left _ _)
          kept := ?_
          earned := ?_ }
      · rintro ⟨-, hjudged⟩
        rw [hpc'] at hjudged
        split_ifs at hjudged <;> cases hjudged
      · rintro (ht | ht)
        · change s.line.session.stream.trusted = true at ht
          rw [htrusted] at ht
          cases ht
        · rw [hpc'] at ht
          cases result with
          | error error => cases ht
          | ok authenticated =>
            have hok := congrArg Prod.fst hfinish
            obtain ⟨p, hp, hadmits⟩ := admits_of_finish hok
            cases hchallenge : s.challenge with
            | none =>
              rw [hc hstate hchallenge p hp] at hadmits
              cases hadmits
            | some p' =>
              have hkept := h.kept hawaits p' hchallenge
              rw [hp, Option.some.injEq] at hkept
              subst hkept
              have hanswer : s.line.answer = .challenge :=
                h.answered.mpr (by rw [hchallenge]; rfl)
              have hsent : .authChallenge ∈ s.line.written := by
                rw [hwritten, hanswer]
                decide
              refine ⟨hanswer, s.deviceId, p, clientNonce, clientProof, ?_, ?_⟩
              · exact (h.told hsent p hchallenge).append (List.Sublist.refl _)
              · rw [hservice]
                exact proof_of_admits hadmits
  · rw [if_pos hstate]
    refine inv_late h he rfl rfl rfl ?_
    change (Sys.goto _ net _).pc net = _
    rw [pc_goto_self]
    simp only [controlPc]
    split_ifs with hhello hlate
    · rfl
    · rfl
    · exact absurd (.inl hstate) hlate

theorem inv_next {a : Action} (h : Inv primitives cfg s) (he : enabled cfg s a)
    (hc : ownChallenge primitives s a) : Inv primitives cfg (next primitives cfg s a) := by
  cases a with
  | line a => exact inv_line h he.1 he.2
  | connect peer => exact inv_connect h he
  | hello deviceId acceptable draw => exact inv_hello h he
  | authResponse clientNonce clientProof draw => exact inv_authResponse h he hc
  | store deviceId record =>
    exact ⟨h.base, h.phase, h.answered, h.heard, h.told, h.kept, h.earned⟩
  | clock unixNow => exact ⟨h.base, h.phase, h.answered, h.heard, h.told, h.kept, h.earned⟩

theorem inv_start (serviceId : Bytes) (consumer : Option ConsumerId) :
    Inv primitives cfg (.start cfg serviceId consumer) where
  base := base_start (secured cfg) consumer
  phase := phase_start (secured cfg) consumer
  answered := ⟨nofun, nofun⟩
  heard := nofun
  told := nofun
  kept := nofun
  earned := by
    rintro (htrusted | hearning)
    · cases htrusted
    · change Pc.earning ((Sys.start (secured cfg) consumer).pc net) = true at hearning
      rw [pc_start] at hearning
      cases hearning

/-- **Trust is earned on the connection.** In every run in which no phone answers, on a connection
on which it was not challenged, a challenge of an earlier one, a connection is trusted only after a
`hello`, an `auth_challenge` sent to it, and a proof that verifies under the nonce of this
challenge. -/
theorem proven_of_run (serviceId : Bytes) (consumer : Option ConsumerId) (as : List Action)
    (h : (server primitives cfg).Legal (ownChallenge primitives) (.start cfg serviceId consumer) as) :
    Proven primitives ((server primitives cfg).exec (.start cfg serviceId consumer) as) := by
  have hinv := h.invariant (I := fun s => Inv primitives cfg s) (inv_start serviceId consumer)
    fun s a hi he hc => inv_next hi he hc
  exact fun htrusted => hinv.earned (.inl htrusted)

/-! ### Runs -/

def samplePrimitives : Primitives :=
  { Security.Integrity.summing with
    hkdfSha256 := fun key salt info =>
      ⟨Lib.BigEndian.write _ (Lib.BigEndian.read (key.1 ++ salt ++ info) % (2 ^ 256 - 189)),
        Lib.BigEndian.length_write _ _⟩ }

theorem length_repeated (b : UInt8) : (List.replicate 32 b).length = 32 := List.length_replicate ..

def repeated (b : UInt8) : Key32 := ⟨List.replicate 32 b, length_repeated b⟩

def samplePeer : Bytes := [0x31, 0x30, 0x2E, 0x31, 0x3A, 0x35]
def sampleService : Bytes := List.replicate 16 0x61
def samplePhone : Bytes := List.replicate 16 0x62

def sampleRecord : PairingRecord :=
  { key := repeated 7, createdUnixSeconds := 0, expiresUnixSeconds := uint64Max }

/-- The proof of a phone for the nonce. -/
def sampleProof (serverNonce clientNonce : Nonce32) : Key32 :=
  samplePrimitives.hmacSha256 sampleRecord.key
    (authenticationInput false sampleService samplePhone serverNonce clientNonce)

/-- A `hello` and what it is answered. -/
def greet (nonce : Except Error Nonce32) (messages : ℕ) : List Action :=
  [.connect samplePeer, .hello samplePhone true ⟨true, nonce⟩, .line (.session (.run net true))] ++
    List.replicate messages (.line (.send true))

/-- A proof, the confirmation, and trust. -/
def prove (serverNonce : Nonce32) : List Action :=
  [.authResponse (repeated 9) (sampleProof serverNonce (repeated 9)) ⟨true, .ok (repeated 0)⟩,
    .line (.session (.run net true)), .line (.session (.run net true))]

/-- A paired phone authenticates. -/
def paired : List Action :=
  .store samplePhone (.ok sampleRecord) :: greet (.ok (repeated 5)) 2 ++ prove (repeated 5)

theorem proven_of_paired :
    ((server samplePrimitives {}).exec (.start {} sampleService none) paired).line.session.stream.trusted
      = true ∧
    Proven samplePrimitives ((server samplePrimitives {}).exec (.start {} sampleService none) paired) :=
  ⟨by decide +kernel,
    @proven_of_run samplePrimitives {} sampleService none paired (by decide +kernel)⟩

/-- A phone is challenged and leaves, its pairing is erased, and it answers the challenge on its
next connection. -/
def unpaired : List Action :=
  .store samplePhone (.ok sampleRecord) :: greet (.ok (repeated 5)) 2 ++
    [.line (.session .disconnect), .store samplePhone (.error .notFound)] ++
    greet (.ok (repeated 6)) 1 ++ prove (repeated 5)

theorem not_proven_of_unpaired :
    ∃ as, (server samplePrimitives {}).Legal (fun _ _ => True) (.start {} sampleService none) as ∧
      ¬ Proven samplePrimitives
        ((server samplePrimitives {}).exec (.start {} sampleService none) as) := by
  refine ⟨unpaired, by decide +kernel, fun h => ?_⟩
  have htrusted : ((server samplePrimitives {}).exec (.start {} sampleService none)
      unpaired).line.session.stream.trusted = true := by decide +kernel
  have hanswer : ((server samplePrimitives {}).exec (.start {} sampleService none)
      unpaired).line.answer = .unpaired := by decide +kernel
  have hearned := (h htrusted).1
  rw [hanswer] at hearned
  cases hearned

end RemoteCam.Backend.Authentication
