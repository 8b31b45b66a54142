import RemoteCam.Phone.Session

/-! # What the code of the main actor does

A function of the app or the session changes nothing that a connection sees (`Quiet`), or it is made
of the few `Moves` that reach the transport: a control message, a video unit, the end of the
suspension, a `cancel`. `Moves speaks lifts` may send control messages only if `speaks`, and end the
suspension only if `lifts`; for a task of the app these are `AppTask.speaks` and `AppTask.lifts`. -/

namespace RemoteCam.Phone.Effects

open RemoteCam.Phone.Transport RemoteCam.Phone.Session

/-! ### Changes that stay on the main actor -/

/-- Only the app and the phase change, the video may be suspended, the reconnect may be cancelled.
-/
structure Quiet (s s' : Client) : Prop where
  transport : s'.transport = s.transport
  events : s'.events = s.events
  record : s'.record = s.record
  authenticated :
    s'.session.controlChannelAuthenticated = s.session.controlChannelAuthenticated
  negotiated :
    s'.session.unauthenticatedSessionNegotiated = s.session.unauthenticatedSessionNegotiated
  suspended : s.session.videoSuspended = true → s'.session.videoSuspended = true
  reconnectTask : s.session.reconnectTask = none → s'.session.reconnectTask = none

theorem Quiet.refl (s : Client) : Quiet s s := ⟨rfl, rfl, rfl, rfl, rfl, id, id⟩

theorem Quiet.trans {s s' s'' : Client} (h : Quiet s s') (h' : Quiet s' s'') : Quiet s s'' :=
  ⟨h'.transport.trans h.transport, h'.events.trans h.events, h'.record.trans h.record,
    h'.authenticated.trans h.authenticated, h'.negotiated.trans h.negotiated,
    h'.suspended ∘ h.suspended, h'.reconnectTask ∘ h.reconnectTask⟩

/-- A change of the app and of its tasks. -/
theorem quiet_app (s : Client) (app : AppModel) (tasks : List AppTask) :
    Quiet s { s with app, tasks } := ⟨rfl, rfl, rfl, rfl, rfl, id, id⟩

theorem quiet_await (s : Client) (task : AppTask) : Quiet s (await s task) := quiet_app s _ _

theorem quiet_suspend (s : Client) : Quiet s (setVideoSuspended s true) :=
  ⟨rfl, rfl, rfl, rfl, rfl, fun _ => rfl, id⟩

theorem quiet_stopCapture (s : Client) : Quiet s (stopCaptureAfterSessionEnded s) :=
  (quiet_app s _ s.tasks).trans (quiet_suspend _)

theorem quiet_onPhaseChange (s : Client) (phase : ConnectionPhase) :
    Quiet s (onPhaseChange s phase) := by
  have happ : Quiet s { s with app.connectionPhase := phase } := quiet_app s _ _
  cases phase with
  | failed message => exact happ.trans (quiet_stopCapture _)
  | idle =>
    unfold onPhaseChange
    dsimp only
    split
    · exact happ.trans (quiet_stopCapture _)
    · exact happ
  | reconnecting host attempt => exact happ.trans ⟨rfl, rfl, rfl, rfl, rfl, id, id⟩
  | _ => exact happ

theorem quiet_updatePhase (s : Client) (phase : ConnectionPhase) :
    Quiet s (updatePhase s phase) := by
  have hphase : Quiet s { s with session.phase := phase } := ⟨rfl, rfl, rfl, rfl, rfl, id, id⟩
  exact hphase.trans (quiet_onPhaseChange _ _)

theorem quiet_startFailed (s : Client) (generation : ℕ) (error : String) :
    Quiet s (startFailed s generation error) := by
  unfold startFailed
  split
  · exact quiet_await _ _
  · exact .refl s

theorem quiet_startStreaming (s : Client) (configuration : StreamConfiguration) (generation : ℕ)
    (configured : Outcome) : Quiet s (startStreaming s configuration generation configured) := by
  unfold startStreaming
  split
  · split
    · exact quiet_startFailed _ _ _
    · exact quiet_startFailed _ _ _
    · exact quiet_await _ _
  · exact .refl s

theorem quiet_reconfigureFailed (s : Client) (previous : Option StreamConfiguration)
    (taskGeneration formatGeneration : ℕ) (error : String) (restored : Outcome) :
    Quiet s (reconfigureFailed s previous taskGeneration formatGeneration error restored) := by
  unfold reconfigureFailed
  split
  · split
    · exact quiet_app s _ _
    · exact quiet_await _ _
    · exact quiet_app s _ _
  · exact .refl s

theorem quiet_reconfigure (s : Client) (configuration : StreamConfiguration)
    (taskGeneration formatGeneration : ℕ) (restored : Outcome) :
    Quiet s (reconfigure s configuration taskGeneration formatGeneration restored) := by
  unfold reconfigure
  dsimp only
  split
  · split
    · exact quiet_reconfigureFailed _ _ _ _ _ _
    · exact quiet_await _ _
  · exact .refl s

theorem quiet_reconfigureStopped (s : Client) (configuration : StreamConfiguration)
    (previous : Option StreamConfiguration) (taskGeneration formatGeneration : ℕ)
    (configured restored : Outcome) :
    Quiet s (reconfigureStopped s configuration previous taskGeneration formatGeneration configured
      restored) := by
  unfold reconfigureStopped
  split
  · split
    · exact quiet_reconfigureFailed _ _ _ _ _ _
    · exact quiet_await _ _
  · exact .refl s

theorem quiet_onReady (s : Client) (configuration : StreamConfiguration) :
    Quiet s (onReady s configuration) :=
  ((quiet_app s _ s.tasks).trans (quiet_suspend _)).trans (quiet_await _ _)

/-! ### What reaches the transport -/

inductive Moves (speaks lifts : Prop) : Client → Client → Prop
  | quiet {s s' : Client} (h : Quiet s s') : Moves speaks lifts s s'
  /-- A control message that is no `hello`. -/
  | say (s : Client) (message : ControlMessage) (hs : speaks)
      (hm : ∀ allow, message ≠ .hello allow) : Moves speaks lifts s (sendControl s message)
  | lift (s : Client) (hl : lifts) : Moves speaks lifts s (setVideoSuspended s false)
  | video (s : Client) (unit : EncodedAccessUnit) (hv : s.session.videoSuspended = false) :
      Moves speaks lifts s { s with transport := s.transport.send (.video unit) }
  | cancel (s : Client) : Moves speaks lifts s { s with transport := s.transport.cancel }
  | trans {s s' s'' : Client} (h : Moves speaks lifts s s') (h' : Moves speaks lifts s' s'') :
      Moves speaks lifts s s''

section Moves
variable {speaks lifts : Prop}

/-- `disconnect` asks for no other connection. -/
theorem moves_disconnect (s : Client) : Moves speaks lifts s (RemoteCamSession.disconnect s) := by
  let s₁ : Client :=
    { s with session := { s.session with intentionalDisconnect := true, reconnectTask := none } }
  have hend : Quiet s s₁ := ⟨rfl, rfl, rfl, rfl, rfl, id, fun _ => rfl⟩
  have hstop : Quiet s (setVideoSuspended s₁ true) := hend.trans (quiet_suspend _)
  exact .trans (.quiet hstop) (.trans (.cancel _) (.quiet (quiet_updatePhase _ _)))

theorem moves_appDisconnect (s : Client) : Moves speaks lifts s (AppModel.disconnect s) := by
  have hstop : Quiet s (setVideoSuspended { s with app := s.app.advance } true) :=
    (quiet_app s _ s.tasks).trans (quiet_suspend _)
  exact .trans (.trans (.quiet hstop) (moves_disconnect _)) (.quiet (quiet_app _ _ _))

theorem moves_markStreaming (s : Client) (configuration : StreamConfiguration)
    (announceStart : Bool) (hs : announceStart → speaks) :
    Moves speaks lifts s (markStreaming s configuration announceStart) := by
  unfold markStreaming
  split
  · exact .quiet (.refl s)
  · refine .trans ?_ (.quiet (quiet_updatePhase _ _))
    cases announceStart with
    | false => exact .quiet (.refl s)
    | true => exact .say s .streamStart (hs rfl) nofun

theorem telemetryMessages_ne_hello {last : Option DeviceTelemetrySnapshot}
    {snapshot : DeviceTelemetrySnapshot} {force : Bool} {message : ControlMessage}
    (h : message ∈ telemetryMessages last snapshot force) (allow : Bool) :
    message ≠ .hello allow := by
  rintro rfl
  unfold telemetryMessages at h
  simp only [List.mem_append, List.mem_ite_nil_right, List.mem_singleton] at h
  obtain (⟨-, h⟩ | ⟨-, h⟩) | ⟨-, h⟩ := h <;> cases h

/-- Messages one after the other. -/
theorem moves_foldl_sendControl {messages : List ControlMessage} (s : Client)
    (hs : messages ≠ [] → speaks)
    (hm : ∀ message ∈ messages, ∀ allow, message ≠ .hello allow) :
    Moves speaks lifts s (messages.foldl sendControl s) := by
  induction messages generalizing s with
  | nil => exact .quiet (.refl s)
  | cons message messages ih =>
    have hspeaks : speaks := hs (List.cons_ne_nil _ _)
    have hsay : Moves speaks lifts s (sendControl s message) :=
      .say s message hspeaks (hm message List.mem_cons_self)
    exact hsay.trans (ih _ (fun _ => hspeaks) fun m hmem => hm m (List.mem_cons_of_mem _ hmem))

theorem moves_sendTelemetry (s : Client) (snapshot : DeviceTelemetrySnapshot) (force : Bool)
    (hs : s.app.currentConfiguration.isSome →
      telemetryMessages s.app.lastTelemetry snapshot force ≠ [] → speaks) :
    Moves speaks lifts s (sendTelemetry s snapshot force) := by
  unfold sendTelemetry
  split
  · next hc =>
    exact .trans (moves_foldl_sendControl s (hs hc) fun _ h => telemetryMessages_ne_hello h)
      (.quiet (quiet_app _ _ _))
  · exact .quiet (.refl s)

theorem moves_startLive (s : Client) (configuration : StreamConfiguration) (hs : speaks)
    (hl : lifts) : Moves speaks lifts s (startLive s configuration) :=
  .trans (.trans (moves_markStreaming s configuration true fun _ => hs) (.lift _ hl))
    (moves_sendTelemetry _ _ _ fun _ _ => hs)

theorem moves_startPrepared (s : Client) (configuration : StreamConfiguration) (generation : ℕ)
    (outcome : Outcome)
    (hs : generation = s.app.streamGeneration ∧ outcome = .ok → speaks)
    (hl : generation = s.app.streamGeneration ∧ outcome = .ok ∧
      s.app.connectionPhase.host = none → lifts) :
    Moves speaks lifts s (startPrepared s configuration generation outcome) := by
  unfold startPrepared
  split
  · exact .quiet (quiet_startFailed _ _ _)
  · split
    · next hg =>
      have hspeaks := hs ⟨hg, rfl⟩
      refine .trans (.quiet (quiet_app s
        { s.app with currentConfiguration := some configuration, streamError := none } s.tasks)) ?_
      refine .trans (.say _ .capabilities hspeaks nofun) ?_
      refine .trans (.say _ .cameraState hspeaks nofun) ?_
      dsimp only
      split
      · exact .quiet (quiet_await _ _)
      · next hh =>
        have hnone : s.app.connectionPhase.host = none := by
          simpa [sendControl] using hh
        exact moves_startLive _ _ hspeaks (hl ⟨hg, rfl, hnone⟩)
    · exact .quiet (.refl s)

theorem moves_startStopped (s : Client) (error : String) :
    Moves speaks lifts s (startStopped s error) :=
  .trans (.trans (.quiet (quiet_app s _ s.tasks)) (moves_disconnect _)) (.quiet (quiet_app _ _ _))

theorem moves_reconfigurePrepared (s : Client) (configuration : StreamConfiguration)
    (previous : Option StreamConfiguration) (taskGeneration formatGeneration : ℕ)
    (restored outcome : Outcome)
    (hs : taskGeneration = s.app.streamGeneration ∧ outcome = .ok → speaks)
    (hl : taskGeneration = s.app.streamGeneration ∧ outcome = .ok → lifts) :
    Moves speaks lifts s (reconfigurePrepared s configuration previous taskGeneration
      formatGeneration restored outcome) := by
  unfold reconfigurePrepared
  split
  · exact .quiet (quiet_reconfigureFailed _ _ _ _ _ _)
  · split
    · next hg =>
      have hspeaks := hs ⟨hg, rfl⟩
      refine .trans (.quiet (quiet_app s
        { s.app with currentConfiguration := some configuration, streamError := none } s.tasks)) ?_
      refine .trans (.say _ .cameraState hspeaks nofun) ?_
      refine .trans (.say _ (.formatAcknowledged formatGeneration) hspeaks nofun) ?_
      refine .trans (.lift _ (hl ⟨hg, rfl⟩)) ?_
      dsimp only
      split
      · exact moves_markStreaming _ _ false nofun
      · exact .quiet (.refl _)
    · exact .quiet (.refl s)

theorem moves_reconfigureRestored (s : Client) (previous : StreamConfiguration)
    (taskGeneration formatGeneration : ℕ) (error : String) (outcome : Outcome)
    (hs : taskGeneration = s.app.streamGeneration ∧ outcome = .ok → speaks)
    (hl : taskGeneration = s.app.streamGeneration ∧ outcome = .ok → lifts) :
    Moves speaks lifts s
      (reconfigureRestored s previous taskGeneration formatGeneration error outcome) := by
  unfold reconfigureRestored
  split
  · exact .quiet (quiet_app s _ _)
  · split
    · next hg =>
      have hspeaks := hs ⟨hg, rfl⟩
      refine .trans (.quiet (quiet_app s
        { s.app with currentConfiguration := some previous } s.tasks)) ?_
      refine .trans (.say _ .cameraState hspeaks nofun) ?_
      refine .trans (.say _ (.formatRejected formatGeneration "format_unavailable" error) hspeaks nofun) ?_
      refine .trans (moves_markStreaming _ previous false nofun) ?_
      exact .trans (.lift _ (hl ⟨hg, rfl⟩)) (.quiet (quiet_app _ _ _))
    · exact .quiet (.refl s)

theorem moves_reconfigureAbandoned (s : Client) :
    Moves speaks lifts s (reconfigureAbandoned s) :=
  .trans (.trans (.quiet (quiet_app s _ s.tasks)) (moves_disconnect _)) (.quiet (quiet_app _ _ _))

theorem moves_handleSetFormat (s : Client) (generation : Option ℕ)
    (fields : Option StreamConfiguration)
    (hs : (∃ g ∈ generation, s.app.lastFormatGeneration < g) → configurationFrom fields = none →
      speaks) :
    Moves speaks lifts s (handleSetFormat s generation fields) := by
  unfold handleSetFormat
  split
  · exact .quiet (.refl s)
  · next g =>
    split
    · exact .quiet (.refl s)
    · next hg =>
      refine .trans (.quiet (quiet_app s { s.app with lastFormatGeneration := g } s.tasks)) ?_
      dsimp only
      split
      · next hnone => exact .say _ _ (hs ⟨g, rfl, by omega⟩ hnone) nofun
      · exact .quiet (.trans (.trans (quiet_app _ _ s.tasks) (quiet_suspend _)) (quiet_await _ _))

end Moves

/-! ### Messages of the PC -/

/-- A `ready` message with these fields is accepted. -/
def accepts (s : Client) (fields : Option StreamConfiguration) : Prop :=
  s.session.isTrusted ∧ (configurationFrom fields).isSome ∧ s.session.host.isSome

instance (s : Client) (fields : Option StreamConfiguration) : Decidable (accepts s fields) := by
  unfold accepts; infer_instance

/-- An accepted `ready` is recorded; any other one ends at a `cancel`. -/
theorem handleReady_cases {speaks lifts : Prop} (s : Client) (c : ConnectionId)
    (fields : Option StreamConfiguration) :
    (accepts s fields ∧ Quiet { s with record.accepted := c :: s.record.accepted }
      (handleReady s c fields)) ∨ Moves speaks lifts s (handleReady s c fields) := by
  unfold handleReady
  split
  · let s₁ : Client :=
      { s with session := { s.session with intentionalDisconnect := true, reconnectTask := none } }
    have hend : Quiet s s₁ := ⟨rfl, rfl, rfl, rfl, rfl, id, fun _ => rfl⟩
    exact .inr (.trans (.quiet hend) (.trans (.cancel s₁) (.quiet (quiet_updatePhase _ _))))
  · next ht =>
    split
    · next configuration host hf hh =>
      have htrusted : s.session.isTrusted = true := by simpa using ht
      have haccepts : accepts s fields := ⟨htrusted, by rw [hf]; rfl, by rw [hh]; rfl⟩
      exact .inl ⟨haccepts, (quiet_updatePhase _ _).trans (quiet_onReady _ _)⟩
    · let s₁ : Client := { s with session.intentionalDisconnect := true }
      have hend : Quiet s s₁ := ⟨rfl, rfl, rfl, rfl, rfl, id, id⟩
      exact .inr (.trans (.quiet hend) (.trans (.cancel s₁) (.quiet (quiet_updatePhase _ _))))

/-- A `server_info` changes the trust, then at most the phase. -/
theorem quiet_handleServerInfo (s : Client) (c : ConnectionId)
    (allowUnauthenticated paired : Option Bool) :
    Quiet (negotiate s c allowUnauthenticated)
      (handleServerInfo s c allowUnauthenticated paired) := by
  unfold handleServerInfo
  dsimp only
  split
  · exact quiet_updatePhase _ _
  · exact .refl _

/-- The messages that only a trusted session hands to the app: all but the first three. -/
theorem moves_handleApp {speaks lifts : Prop} (s : Client) (message : PeerMessage)
    (hs : ∀ g fields, message = .setFormat (some g) fields → s.app.lastFormatGeneration < g →
      configurationFrom fields = none → speaks) :
    Moves speaks lifts s (AppModel.handle s message) := by
  unfold AppModel.handle
  split
  · exact .quiet (quiet_await _ _)
  · exact .quiet (quiet_await _ _)
  · next generation fields =>
    refine moves_handleSetFormat s generation fields ?_
    rintro ⟨g, hg, hlt⟩ hnone
    cases Option.mem_def.mp hg
    exact hs g fields rfl hlt hnone
  · exact .quiet (.refl s)

/-! ### The tasks of the app -/

/-- Going on, the task sends control messages. -/
def speaks (app : AppModel) (outcome : Outcome) : AppTask → Prop
  | .cameraUpdate => outcome = .ok
  | .startAnnounced _ => True
  | .startPrepared _ generation => generation = app.streamGeneration ∧ outcome = .ok
  | .reconfigurePrepared _ _ generation _ | .reconfigureRestored _ generation _ _ =>
    generation = app.streamGeneration ∧ outcome = .ok
  | _ => False

/-- Going on, the task ends the suspension of the video. -/
def lifts (app : AppModel) (outcome : Outcome) : AppTask → Prop
  | .startAnnounced _ => True
  | .startPrepared _ generation =>
    generation = app.streamGeneration ∧ outcome = .ok ∧ app.connectionPhase.host = none
  | .reconfigurePrepared _ _ generation _ | .reconfigureRestored _ generation _ _ =>
    generation = app.streamGeneration ∧ outcome = .ok
  | _ => False

instance (app : AppModel) (outcome : Outcome) (task : AppTask) :
    Decidable (speaks app outcome task) := by
  cases task <;> unfold speaks <;> infer_instance

instance (app : AppModel) (outcome : Outcome) (task : AppTask) :
    Decidable (lifts app outcome task) := by
  cases task <;> unfold lifts <;> infer_instance

/-- The video goes on only after something was said. -/
theorem speaks_of_lifts {app : AppModel} {outcome : Outcome} {task : AppTask}
    (h : lifts app outcome task) : speaks app outcome task := by
  cases task with
  | startPrepared => exact ⟨h.1, h.2.1⟩
  | startAnnounced | reconfigurePrepared | reconfigureRestored => exact h
  | _ => exact absurd h id

theorem moves_resume (s : Client) (outcome restored : Outcome) (task : AppTask) :
    Moves (speaks s.app outcome task) (lifts s.app outcome task) s
      (resume s outcome restored task) := by
  cases task with
  | accessUnit unit =>
    unfold resume sendVideo
    dsimp only
    split
    · exact .quiet (.refl s)
    · next hv => exact .video s unit (Bool.eq_false_iff.mpr hv)
  | cameraUpdate =>
    cases outcome with
    | ok => exact .say s .cameraState rfl nofun
    | error error => exact .quiet (quiet_app s _ _)
  | startStreaming => exact .quiet (quiet_startStreaming _ _ _ _)
  | startPrepared => exact moves_startPrepared _ _ _ _ id id
  | startAnnounced => exact moves_startLive _ _ trivial trivial
  | startStopped => exact moves_startStopped _ _
  | reconfigure => exact .quiet (quiet_reconfigure _ _ _ _ _)
  | reconfigureStopped => exact .quiet (quiet_reconfigureStopped _ _ _ _ _ _ _)
  | reconfigurePrepared => exact moves_reconfigurePrepared _ _ _ _ _ _ _ id id
  | reconfigureRestored => exact moves_reconfigureRestored _ _ _ _ _ _ id id
  | reconfigureAbandoned => exact moves_reconfigureAbandoned _

/-! ### New connections -/

/-- A connection is asked for and the trust of the session ends. -/
structure Renews (s s' : Client) : Prop where
  transport : ∃ endpoint, s'.transport = s.transport.connect endpoint
  events : s'.events = s.events
  record : s'.record = s.record
  authenticated : s'.session.controlChannelAuthenticated = false
  negotiated : s'.session.unauthenticatedSessionNegotiated = false
  /-- Only a reconnect relies on an earlier suspension. -/
  suspended : s'.session.videoSuspended = false →
    s.session.videoSuspended = false ∧ s.session.reconnectTask ≠ none

theorem renews_connect (s : Client) (host : RemoteHost) (endpoint : NWEndpoint) :
    Renews s (RemoteCamSession.connect s host endpoint) := by
  let s₁ : Client :=
    { s with
      session :=
        { s.session with
          intentionalDisconnect := false
          reconnectTask := none
          host := some host
          endpoint := some endpoint
          reconnectAttempt := 0 } }
  let s₂ := setVideoSuspended (resetSessionTrust s₁) true
  have hphase : Quiet s₂ (updatePhase s₂ (.connecting host)) := quiet_updatePhase _ _
  have hsuspended : (updatePhase s₂ (.connecting host)).session.videoSuspended = true :=
    hphase.suspended rfl
  exact ⟨⟨endpoint, congrArg (·.connect endpoint) hphase.transport⟩, hphase.events, hphase.record,
    hphase.authenticated, hphase.negotiated, fun h => absurd (hsuspended.symm.trans h) nofun⟩

/-- A host without an endpoint is only reported. -/
theorem connect_cases (s : Client) (host : RemoteHost) (discovered : Option NWEndpoint) :
    Quiet s (AppModel.connect s host discovered) ∨
      Renews s (AppModel.connect s host discovered) := by
  unfold AppModel.connect
  dsimp only
  split
  · exact .inl (quiet_app s _ _)
  · have h := renews_connect { s with
      session.allowsUnauthenticatedConnections := s.app.allowsUnauthenticatedConnections } host
    exact .inr ⟨(h _).transport, (h _).events, (h _).record, (h _).authenticated,
      (h _).negotiated, (h _).suspended⟩

theorem renews_reconnect {s : Client} (h : s.session.reconnectTask.isSome) :
    Renews s (reconnect s) := by
  obtain ⟨task, htask⟩ := Option.isSome_iff_exists.mp h
  unfold reconnect
  rw [htask]
  exact ⟨⟨_, rfl⟩, rfl, rfl, rfl, rfl, fun hv => ⟨hv, by rw [htask]; nofun⟩⟩

/-- Either the session has failed, or the video is suspended and a reconnect scheduled. -/
theorem quiet_scheduleReconnect (s : Client) (lastError : String) :
    Quiet s (scheduleReconnect s lastError) ∨
      ∃ s₁ task, Quiet s s₁ ∧ s₁.session.videoSuspended = true ∧
        scheduleReconnect s lastError = { s₁ with session.reconnectTask := some task } := by
  unfold scheduleReconnect
  split
  · next host endpoint _ _ _ =>
    let attempt := s.session.reconnectAttempt + 1
    let s₁ : Client :=
      { s with session := { s.session with reconnectTask := none, reconnectAttempt := attempt } }
    have hend : Quiet s s₁ := ⟨rfl, rfl, rfl, rfl, rfl, id, fun _ => rfl⟩
    have hstop : Quiet s (setVideoSuspended s₁ true) := hend.trans (quiet_suspend _)
    have hphase : Quiet (setVideoSuspended s₁ true) (updatePhase (setVideoSuspended s₁ true)
        (.reconnecting host attempt)) := quiet_updatePhase _ _
    exact .inr ⟨_, _, hstop.trans hphase, hphase.suspended rfl, rfl⟩
  · exact .inl (quiet_updatePhase _ _)

/-! ### The transport by itself -/

/-- A control message is always put on the queue. -/
theorem send_control (t : RemoteCamTransport) (message : ControlMessage) :
    t.send (.control message) = t.enqueue (.send (.control message)) := rfl

/-- A content is put on the queue, dropped, or reported as a failure. -/
theorem send_cases (t : RemoteCamTransport) (content : Content) :
    ∃ blocks reservedVideoBytes droppedVideoFrames,
      t.send content =
        { t with queue := t.queue ++ blocks, reservedVideoBytes, droppedVideoFrames } ∧
      (blocks = [] ∨ (∃ message, blocks = [.reportFailure message]) ∨ blocks = [.send content]) := by
  unfold RemoteCamTransport.send
  split
  · next message _ => exact ⟨_, _, _, rfl, .inr (.inl ⟨message, rfl⟩)⟩
  · dsimp only
    split
    · exact ⟨[], _, _, by rw [List.append_nil], .inl rfl⟩
    · exact ⟨_, _, _, rfl, .inr (.inr rfl)⟩

/-- Failures are reported and reservations released; a `receive` may end. -/
structure Steady (t t' : RemoteCamTransport) : Prop where
  queue : t'.queue = t.queue
  connection : t'.connection = t.connection
  opened : t'.opened = t.opened
  requests : t'.requests = t.requests
  asked : t'.asked = t.asked
  submitted : t'.submitted = t.submitted
  receiving : t'.receiving = true → t.receiving = true

theorem Steady.refl (t : RemoteCamTransport) : Steady t t := ⟨rfl, rfl, rfl, rfl, rfl, rfl, id⟩

theorem Steady.trans {t t' t'' : RemoteCamTransport} (h : Steady t t') (h' : Steady t' t'') :
    Steady t t'' :=
  ⟨h'.queue.trans h.queue, h'.connection.trans h.connection, h'.opened.trans h.opened,
    h'.requests.trans h.requests, h'.asked.trans h.asked, h'.submitted.trans h.submitted,
    h.receiving ∘ h'.receiving⟩

/-- No `ready`, and a frame only of the connection, while it receives. -/
def Follows (t : RemoteCamTransport) : TransportEvent → Prop
  | .ready _ => False
  | .frame c _ => t.connection = some c ∧ t.receiving = true
  | .failed _ | .cancelled => True

theorem steady_reportFailure (t : RemoteCamTransport) (message : String) :
    Steady t (t.reportFailure message).1 := by
  unfold RemoteCamTransport.reportFailure
  split
  · exact .refl t
  · exact ⟨rfl, rfl, rfl, rfl, rfl, rfl, id⟩

theorem follows_reportFailure {t t' : RemoteCamTransport} {message : String} :
    ∀ e ∈ (t'.reportFailure message).2, Follows t e := by
  intro e he
  unfold RemoteCamTransport.reportFailure at he
  split at he
  · exact absurd he List.not_mem_nil
  · rw [List.mem_singleton.mp he]
    trivial

theorem steady_release (t : RemoteCamTransport) (content : Content) :
    Steady t (t.releaseVideoReservation content) := by
  cases content with
  | control => exact .refl t
  | video => exact ⟨rfl, rfl, rfl, rfl, rfl, rfl, id⟩

/-- A block asks for no connection. -/
theorem dequeue_spec (t : RemoteCamTransport) :
    t.dequeue.1.requests = t.requests ∧ t.dequeue.1.asked = t.asked := by
  unfold RemoteCamTransport.dequeue
  split
  · exact ⟨rfl, rfl⟩
  · next block queue _ =>
    cases block with
    | connect | cancel => exact ⟨rfl, rfl⟩
    | reportFailure message =>
      have h := steady_reportFailure { t with queue } message
      exact ⟨h.requests, h.asked⟩
    | send content =>
      unfold RemoteCamTransport.execute
      dsimp only
      split
      · have h := steady_release { t with queue } content
        exact ⟨h.requests, h.asked⟩
      · exact ⟨rfl, rfl⟩

theorem receive_spec {t : RemoteCamTransport} {c : ConnectionId} (hc : t.connection = some c)
    (ht : t.receiving = true) (receipt : RemoteCamTransport.Receipt) :
    Steady t (t.receive c receipt).1 ∧ ∀ e ∈ (t.receive c receipt).2, Follows t e := by
  have hended : Steady t { t with receiving := false } :=
    ⟨rfl, rfl, rfl, rfl, rfl, rfl, fun _ => ht⟩
  have hframe : ∀ frames : List PeerFrame, ∀ e ∈ frames.map (TransportEvent.frame c),
      Follows t e := by
    intro frames e he
    obtain ⟨frame, -, rfl⟩ := List.mem_map.mp he
    exact ⟨hc, ht⟩
  have hsteady : ∀ message, Steady t
      (RemoteCamTransport.reportFailure { t with receiving := false } message).1 :=
    fun message => hended.trans (steady_reportFailure _ message)
  cases receipt with
  | data frames => exact ⟨.refl t, hframe frames⟩
  | undecodable message => exact ⟨hsteady _, follows_reportFailure⟩
  | error frames message =>
    exact ⟨hsteady _, fun e he =>
      (List.mem_append.mp he).elim (hframe _ e) (follows_reportFailure e)⟩
  | complete frames =>
    exact ⟨hsteady _, fun e he =>
      (List.mem_append.mp he).elim (hframe _ e) (follows_reportFailure e)⟩

/-- A callback is the first `ready` of the connection, or only reports what follows it. -/
theorem network_cases {s : Client} {callback : RemoteCamTransport.Callback}
    (ha : s.transport.expects callback) :
    ∃ c, s.transport.connection = some c ∧
      ((s.transport.opened = false ∧ next s (.network callback) =
        s.emit ({ s.transport with opened := true, receiving := true }, [.ready c])) ∨
      ∃ p, next s (.network callback) = s.emit p ∧ Steady s.transport p.1 ∧
        ∀ e ∈ p.2, Follows s.transport e) := by
  have hconnection : s.transport.connection.isSome := by
    cases callback with
    | ready => exact ha.1
    | failed | cancelled => exact ha
    | received => exact ha.1
  obtain ⟨c, hc⟩ := Option.isSome_iff_exists.mp hconnection
  have hnext : next s (.network callback) = s.emit (s.transport.callback c callback) := by
    unfold next
    dsimp only
    rw [hc]
  refine ⟨c, hc, ?_⟩
  rw [hnext]
  cases callback with
  | ready => exact .inl ⟨Bool.eq_false_iff.mpr ha.2, rfl⟩
  | failed message =>
    exact .inr ⟨_, rfl, steady_reportFailure _ message, follows_reportFailure⟩
  | cancelled =>
    refine .inr ⟨_, rfl, .refl _, ?_⟩
    intro e he
    unfold RemoteCamTransport.callback at he
    dsimp only at he
    split at he
    · exact absurd he List.not_mem_nil
    · rw [List.mem_singleton.mp he]
      trivial
  | received receipt => exact .inr ⟨_, rfl, receive_spec hc ha.2 receipt⟩

/-- The completion of a send reports at most a failure. -/
theorem processed_cases {s : Client} {i : ℕ} (hi : i < s.transport.unprocessed.length)
    (error : Option String) :
    ∃ p, next s (.processed i error) = s.emit p ∧ Steady s.transport p.1 ∧
      ∀ e ∈ p.2, Follows s.transport e := by
  let t := { s.transport with unprocessed := s.transport.unprocessed.eraseIdx i }
  let sent := s.transport.unprocessed[i]
  have hnext : next s (.processed i error) = s.emit (t.processed sent.1 sent.2 error) := by
    unfold next
    dsimp only
    rw [List.getElem?_eq_getElem hi]
  have hleft : Steady s.transport t := ⟨rfl, rfl, rfl, rfl, rfl, rfl, id⟩
  have hrelease : Steady s.transport (t.releaseVideoReservation sent.2) :=
    hleft.trans (steady_release t _)
  refine ⟨_, hnext, ?_⟩
  unfold RemoteCamTransport.processed
  dsimp only
  split
  · next message =>
    split
    · exact ⟨hrelease.trans (steady_reportFailure _ message), follows_reportFailure⟩
    · exact ⟨hrelease, nofun⟩
  · exact ⟨hrelease, nofun⟩

/-! ### Tasks that run -/

/-- The event whose task the action runs. -/
def handled (s : Client) : Action → Option TransportEvent
  | .handle i => s.events[i]?
  | _ => none

/-- The task of the app that the action runs, and what it waited for. -/
def resumed (s : Client) : Action → Option (AppTask × Outcome)
  | .run i outcome _ => s.tasks[i]?.map (·, outcome)
  | _ => none

theorem next_handle {s : Client} {i : ℕ} (hi : i < s.events.length) :
    next s (.handle i) =
      RemoteCamSession.handle { s with events := s.events.eraseIdx i } s.events[i] := by
  unfold next
  dsimp only
  rw [List.getElem?_eq_getElem hi]

theorem next_run {s : Client} {i : ℕ} {outcome restored : Outcome} (hi : i < s.tasks.length) :
    next s (.run i outcome restored) =
      resume { s with tasks := s.tasks.eraseIdx i } outcome restored s.tasks[i] := by
  unfold next
  dsimp only
  rw [List.getElem?_eq_getElem hi]

end RemoteCam.Phone.Effects
