import RemoteCam.Phone.Effects

/-! # Trust belongs to one connection

A `ready` message may be accepted only on a connection that has itself negotiated the
unauthenticated session (`TrustedOwn`). The events of a connection are handled by tasks that do not
say whose they are, so one of an old connection can be handled when the next has been asked for.

`ownTrust` are the orders in which no such event decides about trust: a `server_info` that
negotiates it and a `ready` that would be accepted belong to the connection asked for last. In runs
of these the property holds (`trustedOwn_of_run`): the trust of the session is always that of the
connection asked for last, since every request for a connection resets it. -/

namespace RemoteCam.Phone.Trust

open RemoteCam.Lib.Transitions RemoteCam.Phone.Transport RemoteCam.Phone.Session
  RemoteCam.Phone.Effects

/-- The connections on which `ready` was accepted have negotiated an unauthenticated session. -/
def TrustedOwn (s : Client) : Prop := ∀ c ∈ s.record.accepted, c ∈ s.record.offered

/-- The event does not decide about trust, or it is one of the connection asked for last. -/
def ownEvent (s : Client) (event : TransportEvent) : Prop :=
  (∀ c ∈ event.offer, s.session.allowsUnauthenticatedConnections → c = s.transport.requests) ∧
    ∀ p ∈ event.readyMessage, accepts s p.2 → p.1 = s.transport.requests

instance (s : Client) (event : TransportEvent) : Decidable (ownEvent s event) :=
  inferInstanceAs (Decidable (_ ∧ _))

/-- No task of an older connection is about to decide about trust. -/
def ownTrust (s : Client) (a : Action) : Prop := ∀ event ∈ handled s a, ownEvent s event

instance (s : Client) (a : Action) : Decidable (ownTrust s a) :=
  inferInstanceAs (Decidable (∀ event ∈ handled s a, ownEvent s event))

/-- **The invariant**: the session trusts its peer only through the connection asked for last. -/
structure Trusted (s : Client) : Prop where
  unauthenticated : s.session.controlChannelAuthenticated = false
  negotiated : s.session.unauthenticatedSessionNegotiated = true →
    s.transport.requests ∈ s.record.offered
  accepted : TrustedOwn s

theorem trusted_start (allows : Bool) : Trusted (Client.start allows) :=
  ⟨rfl, nofun, fun _ h => absurd h List.not_mem_nil⟩

/-! ### One step -/

section Step
variable {s s' : Client}

theorem Trusted.of_eq (I : Trusted s)
    (hauth : s'.session.controlChannelAuthenticated = s.session.controlChannelAuthenticated)
    (hneg : s'.session.unauthenticatedSessionNegotiated =
      s.session.unauthenticatedSessionNegotiated)
    (hreq : s'.transport.requests = s.transport.requests)
    (hoff : s'.record.offered = s.record.offered) (hacc : s'.record.accepted = s.record.accepted) :
    Trusted s' := by
  constructor
  · rw [hauth]; exact I.unauthenticated
  · rw [hneg, hreq, hoff]; exact I.negotiated
  · unfold TrustedOwn; rw [hoff, hacc]; exact I.accepted

theorem Trusted.of_quiet (I : Trusted s) (h : Quiet s s') : Trusted s' :=
  I.of_eq h.authenticated h.negotiated (by rw [h.transport]) (by rw [h.record]) (by rw [h.record])

theorem Trusted.of_moves {speaks lifts : Prop} (I : Trusted s) (h : Moves speaks lifts s s') :
    Trusted s' := by
  have hsend : ∀ (t : RemoteCamTransport) (content : Content),
      (t.send content).requests = t.requests := by
    intro t content
    obtain ⟨_, _, _, heq, -⟩ := send_cases t content
    rw [heq]
  induction h with
  | quiet h => exact I.of_quiet h
  | say => exact I.of_eq rfl rfl (hsend _ _) rfl rfl
  | lift => exact I.of_eq rfl rfl rfl rfl rfl
  | video => exact I.of_eq rfl rfl (hsend _ _) rfl rfl
  | cancel => exact I.of_eq rfl rfl rfl rfl rfl
  | trans _ _ ih ih' => exact ih' (ih I)

theorem Trusted.of_renews (I : Trusted s) (h : Renews s s') : Trusted s' := by
  refine ⟨h.authenticated, fun hneg => ?_, ?_⟩
  · exact absurd (h.negotiated.symm.trans hneg) nofun
  · unfold TrustedOwn; rw [h.record]; exact I.accepted

/-- A session trusts nothing but what it has negotiated. -/
theorem Trusted.isTrusted (I : Trusted s) (h : s.session.isTrusted = true) :
    s.session.unauthenticatedSessionNegotiated = true := by
  unfold RemoteCamSession.isTrusted at h
  rw [I.unauthenticated] at h
  simpa [allowsInsecureDevelopmentSession] using h

/-- What the session negotiates, it negotiates with connection `c`. -/
theorem Trusted.negotiate (I : Trusted s) {c : ConnectionId} {allow : Option Bool}
    (hown : allow = some true → s.session.allowsUnauthenticatedConnections →
      c = s.transport.requests) : Trusted (negotiate s c allow) := by
  have hoffered : ∀ d ∈ s.record.offered, d ∈ (Session.negotiate s c allow).record.offered := by
    intro d hd
    unfold Session.negotiate
    dsimp only
    split
    · exact List.mem_cons_of_mem _ hd
    · exact hd
  refine ⟨I.unauthenticated, fun hneg => ?_, fun d hd => hoffered d (I.accepted d hd)⟩
  have hneg' : (s.session.allowsUnauthenticatedConnections && allow.getD false) = true := hneg
  have hallow : allow = some true := by
    cases allow with
    | none => simp at hneg'
    | some b => simp at hneg'; rw [hneg'.2]
  have hc := hown hallow (Bool.and_eq_true_iff.mp hneg').1
  show s.transport.requests ∈ (if _ then c :: s.record.offered else s.record.offered)
  rw [if_pos hneg', ← hc]
  exact List.mem_cons_self

theorem Trusted.handleReady (I : Trusted s) {c : ConnectionId}
    {fields : Option StreamConfiguration} (hown : accepts s fields → c = s.transport.requests) :
    Trusted (handleReady s c fields) := by
  obtain ⟨haccepts, hquiet⟩ | hmoves :=
    @handleReady_cases False False s c fields
  · have hoffered := I.negotiated (I.isTrusted haccepts.1)
    rw [← hown haccepts] at hoffered
    have I' : Trusted { s with record.accepted := c :: s.record.accepted } :=
      ⟨I.unauthenticated, I.negotiated, List.forall_mem_cons.mpr ⟨hoffered, I.accepted⟩⟩
    exact I'.of_quiet hquiet
  · exact I.of_moves hmoves

theorem Trusted.scheduleReconnect (I : Trusted s) (lastError : String) :
    Trusted (scheduleReconnect s lastError) := by
  obtain h | ⟨s₁, task, h, -, heq⟩ := quiet_scheduleReconnect s lastError
  · exact I.of_quiet h
  · rw [heq]
    exact (I.of_quiet h).of_eq rfl rfl rfl rfl rfl

end Step

theorem trusted_handle {s : Client} {event : TransportEvent} (I : Trusted s)
    (hown : ownEvent s event) : Trusted (RemoteCamSession.handle s event) := by
  cases event with
  | ready c => exact I.of_eq rfl rfl rfl rfl rfl
  | failed message => exact I.scheduleReconnect _
  | cancelled =>
    unfold RemoteCamSession.handle
    dsimp only
    split
    · exact I
    · exact I.scheduleReconnect _
  | frame c frame =>
    cases frame with
    | ignored => exact I
    | message message =>
      have happ : Trusted (if s.session.isTrusted then AppModel.handle s message else s) := by
        split
        · exact I.of_moves (@moves_handleApp True True s message fun _ _ _ _ _ => trivial)
        · exact I
      cases message with
      | serverInfo allow paired =>
        have I' : Trusted (negotiate s c allow) := by
          refine I.negotiate fun h => ?_
          subst h
          exact hown.1 c rfl
        exact I'.of_quiet (quiet_handleServerInfo s c allow paired)
      | pairRequired =>
        unfold RemoteCamSession.handle Session.handleMessage
        dsimp only
        split
        · exact I.of_quiet (quiet_updatePhase _ _)
        · exact I
      | ready fields => exact I.handleReady (hown.2 (c, fields) rfl)
      | _ => exact happ

theorem trusted_next {s : Client} {a : Action} (I : Trusted s) (ha : phone.enabled s a)
    (hc : ownTrust s a) : Trusted (phone.next s a) := by
  cases a with
  | connect host discovered =>
    exact (connect_cases s host discovered).elim I.of_quiet I.of_renews
  | disconnect => exact I.of_moves (@moves_appDisconnect True True s)
  | setAllowsUnauthenticated allows => exact I.of_quiet (quiet_app s _ _)
  | reconnect => exact I.of_renews (renews_reconnect ha)
  | dequeue => exact I.of_eq rfl rfl (dequeue_spec _).1 rfl rfl
  | network callback =>
    show Trusted (next s (.network callback))
    obtain ⟨c, -, ⟨-, heq⟩ | ⟨p, heq, hsteady, -⟩⟩ := network_cases ha
    · rw [heq]
      exact I.of_eq rfl rfl rfl rfl rfl
    · rw [heq]
      exact I.of_eq rfl rfl hsteady.requests rfl rfl
  | processed i error =>
    obtain ⟨p, heq, hsteady, -⟩ := processed_cases ha error
    show Trusted (next s (.processed i error))
    rw [heq]
    exact I.of_eq rfl rfl hsteady.requests rfl rfl
  | handle i =>
    have hown : ownEvent s s.events[i] := hc _ (List.getElem?_eq_getElem ha)
    have I' : Trusted { s with events := s.events.eraseIdx i } := I.of_eq rfl rfl rfl rfl rfl
    show Trusted (next s (.handle i))
    rw [next_handle ha]
    exact trusted_handle I' hown
  | run i outcome restored =>
    show Trusted (next s (.run i outcome restored))
    rw [next_run ha]
    exact (I.of_quiet (quiet_app s s.app _)).of_moves (moves_resume _ _ _ _)
  | telemetry snapshot =>
    exact (I.of_quiet (quiet_app s _ s.tasks)).of_moves
      (@moves_sendTelemetry True True _ _ _ fun _ _ => trivial)
  | updateCamera => exact I.of_quiet (quiet_await _ _)
  | encode unit => exact I.of_quiet (quiet_await _ _)
  | encoderError message => exact I.of_quiet (quiet_app s _ _)

/-! ### Runs -/

/-- **Trust is never inherited.** In every run in which what decides about trust is of the
connection asked for last, `ready` is accepted only on connections that have negotiated. -/
theorem trustedOwn_of_run (allows : Bool) (as : List Action)
    (h : phone.Legal ownTrust (.start allows) as) : TrustedOwn (phone.exec (.start allows) as) :=
  (h.invariant (trusted_start allows) fun _ _ I ha hc => trusted_next I ha hc).accepted

/-- A session is agreed on with one host and then with another. -/
def agreedTwice : List Action := opening "10.0.0.2" ++ agreement ++ opening "10.0.0.3" ++ agreement

theorem trustedOwn_of_agreedTwice :
    phone.Legal ownTrust (.start true) agreedTwice ∧
      TrustedOwn (phone.exec (.start true) agreedTwice) := by
  have hlegal : phone.Legal ownTrust (.start true) agreedTwice := by decide
  exact ⟨hlegal, trustedOwn_of_run true agreedTwice hlegal⟩

/-- The first host has sent its `server_info` when the user connects to another one; the task that
handles it runs after the trust was reset. The other host only sends `ready`. -/
def inheritedTrust : List Action :=
  opening "10.0.0.2" ++ [received (.serverInfo (some true) (some false)),
    .connect ⟨"other", "10.0.0.3", 7777, .manual⟩ none, .handle 0, .dequeue, .network .ready,
    .handle 0, received (.ready (some configurationSample)), .handle 0]

theorem not_trustedOwn_of_inheritedTrust :
    ∃ as, phone.Legal (fun _ _ => True) (.start true) as ∧
      ¬ TrustedOwn (phone.exec (.start true) as) :=
  ⟨inheritedTrust, by decide, fun h => absurd (h 2 (by decide)) (by decide)⟩

end RemoteCam.Phone.Trust
