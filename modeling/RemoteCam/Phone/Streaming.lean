import RemoteCam.Phone.Hello

/-! # Starting and changing the stream

`startStreaming` and `reconfigure` run in parts, and between two of them the encoder keeps the
session it was given: `encoderAfter` is that session, by its configuration. `View` is what the PC
and the encoder have to do with: what is on its way to the PC, the parts that have not run, the
messages not handled, the suspension and the current configuration. For each part there is a lemma
that says what becomes of them. -/

namespace RemoteCam.Phone.Streaming

open RemoteCam.Phone.Transport RemoteCam.Phone.Session RemoteCam.Phone.Effects
open RemoteCam.Phone.Hello (settle drained drained_enqueue drained_of_steady)

/-! ### The encoder -/

/-- `invalidate`, then `configure` with the previous configuration, if there is one. -/
def restoredEncoder (previous : Option StreamConfiguration) : Outcome → Option StreamConfiguration
  | .ok => previous
  | .error _ => none

/-- The configuration of the encoder's session after a part that answers `outcome` and `restored`,
as in `resume`. -/
def encoderAfter (s : Client) (encoder : Option StreamConfiguration) (outcome restored : Outcome) :
    AppTask → Option StreamConfiguration
  | .startStreaming configuration generation =>
    if generation = s.app.streamGeneration then
      match configuration.validated, outcome with
      | .ok configuration, .ok => some configuration
      | _, _ => none
    else encoder
  | .startPrepared _ _ =>
    match outcome with
    | .ok => encoder
    | .error _ => none
  | .reconfigure configuration taskGeneration _ =>
    if taskGeneration = s.app.streamGeneration then
      match configuration.validated with
      | .ok _ => encoder
      | .error _ => restoredEncoder s.app.currentConfiguration restored
    else encoder
  | .reconfigureStopped configuration previous taskGeneration _ =>
    if taskGeneration = s.app.streamGeneration then
      match outcome with
      | .ok => some configuration
      | .error _ => restoredEncoder previous restored
    else encoder
  | .reconfigurePrepared _ previous taskGeneration _ =>
    match outcome with
    | .ok => encoder
    | .error _ =>
      if taskGeneration = s.app.streamGeneration then restoredEncoder previous restored else none
  | _ => encoder

/-! ### The view -/

/-- The parts of `startStreaming` and `reconfigure`. -/
def AppTask.works : AppTask → Bool
  | .accessUnit _ | .cameraUpdate => false
  | _ => true

def TransportEvent.message : TransportEvent → Option PeerMessage
  | .frame _ (.message message) => some message
  | _ => none

structure View where
  /-- The connection and what was submitted on it, once the queue of the transport has run. -/
  line : Option ConnectionId × List (ConnectionId × Content)
  jobs : List AppTask
  messages : List PeerMessage
  suspended : Bool
  current : Option StreamConfiguration

def view (s : Client) : View where
  line := drained s.transport
  jobs := s.tasks.filter AppTask.works
  messages := s.events.filterMap TransportEvent.message
  suspended := s.session.videoSuspended
  current := s.app.currentConfiguration

/-- The messages are sent, one after the other. -/
def View.tell (v : View) (said : List ControlMessage) : View :=
  { v with line := said.foldl (fun line message => settle line (.send (.control message))) v.line }

def View.await (v : View) (task : AppTask) : View := { v with jobs := v.jobs ++ [task] }

variable {s : Client} {v : View}

theorem View.tell_tell (said more : List ControlMessage) :
    (v.tell said).tell more = v.tell (said ++ more) := by
  unfold View.tell
  dsimp only
  rw [List.foldl_append]

theorem view_sendControl (message : ControlMessage) :
    view (sendControl s message) = (view s).tell [message] := by
  unfold view View.tell sendControl
  dsimp only
  rw [send_control, drained_enqueue]
  rfl

theorem view_setVideoSuspended (suspended : Bool) :
    view (setVideoSuspended s suspended) = { view s with suspended } := rfl

theorem view_foldl_sendControl (messages : List ControlMessage) :
    view (messages.foldl sendControl s) = (view s).tell messages := by
  induction messages generalizing s with
  | nil => rfl
  | cons message messages ih =>
    rw [List.foldl_cons, ih, view_sendControl, View.tell_tell, List.singleton_append]

theorem view_await {task : AppTask} (htask : AppTask.works task = true) :
    view (await s task) = (view s).await task := by
  unfold view View.await await
  dsimp only
  rw [List.filter_append]
  simp [htask]

theorem view_await_other {task : AppTask} (htask : AppTask.works task = false) :
    view (await s task) = view s := by
  unfold view await
  dsimp only
  rw [List.filter_append]
  simp [htask]

/-- A unit is sent, dropped, or reported as a failure. -/
theorem view_send (content : Content) :
    view { s with transport := s.transport.send content } = view s ∨
      view { s with transport := s.transport.send content } =
        { view s with line := settle (view s).line (.send content) } := by
  obtain ⟨blocks, reserved, dropped, hsend, hblocks⟩ := send_cases s.transport content
  have hdrained : drained (s.transport.send content) = blocks.foldl settle (drained s.transport) := by
    rw [hsend]
    exact List.foldl_append
  unfold view
  dsimp only
  rw [hdrained]
  rcases hblocks with rfl | ⟨message, rfl⟩ | rfl
  · exact .inl rfl
  · exact .inl rfl
  · exact .inr rfl

/-- Phases that end no capture. -/
def ConnectionPhase.goesOn : ConnectionPhase → Bool
  | .failed _ | .idle => false
  | _ => true

theorem view_updatePhase {phase : ConnectionPhase} (h : ConnectionPhase.goesOn phase = true) :
    view (updatePhase s phase) = view s := by
  cases phase with
  | failed message => cases h
  | idle => cases h
  | _ => rfl

theorem view_markStreaming (configuration : StreamConfiguration) :
    view (markStreaming s configuration false) = view s := by
  unfold markStreaming
  split
  · rfl
  · exact view_updatePhase rfl

/-- The stream is announced, if there is a host. -/
theorem view_markStreaming_announced (configuration : StreamConfiguration) :
    view (markStreaming s configuration true) =
      (view s).tell (if s.session.host.isSome then [.streamStart] else []) := by
  unfold markStreaming
  split
  · next hhost =>
    rw [hhost]
    rfl
  · next host hhost =>
    rw [view_updatePhase rfl, hhost]
    exact view_sendControl .streamStart

/-- `format_ack` and `format_reject`. -/
def isAnswer : ControlMessage → Bool
  | .formatAcknowledged _ | .formatRejected .. => true
  | _ => false

/-- Neither an answer nor the announcement of the stream. -/
def isReport (message : ControlMessage) : Bool := !isAnswer message && message ≠ .streamStart

theorem isReport_of_telemetry {last : Option DeviceTelemetrySnapshot}
    {snapshot : DeviceTelemetrySnapshot} {force : Bool} {message : ControlMessage}
    (h : message ∈ telemetryMessages last snapshot force) : isReport message = true := by
  unfold telemetryMessages at h
  simp only [List.mem_append, List.mem_ite_nil_right, List.mem_singleton] at h
  obtain (⟨-, rfl⟩ | ⟨-, rfl⟩) | ⟨-, rfl⟩ := h <;> rfl

theorem view_sendTelemetry (snapshot : DeviceTelemetrySnapshot) (force : Bool) :
    ∃ said : List ControlMessage, (∀ m ∈ said, isReport m = true) ∧
      view (sendTelemetry s snapshot force) = (view s).tell said := by
  unfold sendTelemetry
  split
  · exact ⟨telemetryMessages s.app.lastTelemetry snapshot force,
      fun m hm => isReport_of_telemetry hm, view_foldl_sendControl _⟩
  · exact ⟨[], fun m hm => absurd hm List.not_mem_nil, rfl⟩

/-- The connection is cancelled. -/
def View.Ends (v v' : View) : Prop := v'.line = (none, v.line.2)

theorem ends_disconnect : View.Ends (view s) (view (RemoteCamSession.disconnect s)) := by
  have hphase (s : Client) : drained (updatePhase s .idle).transport = drained s.transport := by
    rw [(quiet_updatePhase s .idle).transport]
  unfold View.Ends view RemoteCamSession.disconnect
  dsimp only
  rw [hphase]
  exact drained_enqueue _ _

/-! ### The start -/

/-- The task is part of the start with configuration `c`. -/
inductive Starts (c : StreamConfiguration) (current encoder : Option StreamConfiguration) :
    AppTask → Prop
  | streaming {generation : ℕ} : Starts c current encoder (.startStreaming c generation)
  | prepared {generation : ℕ} (hencoder : ∀ x ∈ encoder, x = c) :
      Starts c current encoder (.startPrepared c generation)
  | announced (hcurrent : current = some c) (hencoder : ∀ x ∈ encoder, x = c) :
      Starts c current encoder (.startAnnounced c)
  | stopped {error : String} : Starts c current encoder (.startStopped error)

/-- What a part of the start comes to. -/
inductive Started (c : StreamConfiguration) (v : View) (encoder : Option StreamConfiguration) :
    View → Prop
  | ends {v' : View} (hends : v.Ends v') : Started c v encoder v'
  | goes {said : List ControlMessage} {current : Option StreamConfiguration} {jobs : List AppTask}
      (hsaid : ∀ m ∈ said, isReport m = true)
      (hjobs : jobs = v.jobs ∨ ∃ task, jobs = v.jobs ++ [task] ∧ Starts c current encoder task) :
      Started c v encoder { v.tell said with jobs, current }
  | live {said : List ControlMessage} (hsaid : ∀ m ∈ said, isAnswer m = false)
      (hencoder : ∀ x ∈ encoder, x = c) :
      Started c v encoder { v.tell said with suspended := false, current := some c }

variable {c : StreamConfiguration} {encoder : Option StreamConfiguration}

theorem started_stale : Started c v encoder v :=
  @Started.goes c v encoder [] v.current v.jobs (fun _ h => absurd h List.not_mem_nil) (.inl rfl)

theorem started_await {task : AppTask} (h : Starts c v.current encoder task) :
    Started c v encoder (v.await task) :=
  @Started.goes c v encoder [] v.current (v.jobs ++ [task])
    (fun _ h => absurd h List.not_mem_nil) (.inr ⟨task, rfl, h⟩)

theorem started_startFailed (generation : ℕ) (error : String) :
    Started c (view s) encoder (view (startFailed s generation error)) := by
  unfold startFailed
  split
  · rw [view_await rfl]
    exact started_await .stopped
  · exact started_stale

theorem validated_eq {configuration : StreamConfiguration}
    (h : configuration.validated = .ok c) : configuration = c := by
  unfold StreamConfiguration.validated at h
  split_ifs at h
  exact Except.ok.inj h

theorem view_startLive : ∃ said : List ControlMessage, (∀ m ∈ said, isAnswer m = false) ∧
    view (startLive s c) = { (view s).tell said with suspended := false } := by
  have hlift : view (setVideoSuspended (markStreaming s c true) false) =
      { (view s).tell (if s.session.host.isSome then [.streamStart] else []) with
        suspended := false } := by
    rw [← view_markStreaming_announced c]
    rfl
  obtain ⟨said, hsaid, hview⟩ :=
    @view_sendTelemetry (setVideoSuspended (markStreaming s c true) false)
      (setVideoSuspended (markStreaming s c true) false).app.snapshot true
  refine ⟨(if s.session.host.isSome then [.streamStart] else []) ++ said, ?_, ?_⟩
  · intro m hm
    rcases List.mem_append.mp hm with hm | hm
    · split_ifs at hm
      · rw [List.mem_singleton.mp hm]
        rfl
      · cases hm
    · have hreport := hsaid m hm
      unfold isReport at hreport
      simp only [Bool.and_eq_true, Bool.not_eq_true'] at hreport
      exact hreport.1
  · unfold startLive
    rw [hview, hlift, ← View.tell_tell]
    rfl

/-- **A part of the start** ends the connection, hands on to the next part, or goes live. -/
theorem started (outcome restored : Outcome) {task : AppTask}
    (h : Starts c s.app.currentConfiguration encoder task) :
    Started c (view s) (encoderAfter s encoder outcome restored task)
      (view (resume s outcome restored task)) := by
  cases h with
  | @streaming generation =>
    unfold resume startStreaming encoderAfter
    dsimp only
    split_ifs with hgeneration
    · cases hvalidated : c.validated with
      | error error => exact started_startFailed _ _
      | ok configuration =>
        obtain rfl := validated_eq hvalidated
        cases outcome with
        | error error => exact started_startFailed _ _
        | ok =>
          dsimp only
          rw [view_await rfl]
          exact started_await (.prepared fun x hx => (Option.some.inj hx).symm)
    · exact started_stale
  | @prepared generation hencoder =>
    unfold resume startPrepared encoderAfter
    cases outcome with
    | error error => exact started_startFailed _ _
    | ok =>
      dsimp only
      split_ifs with hgeneration hhost
      · rw [view_await rfl, view_sendControl, view_sendControl, View.tell_tell]
        refine @Started.goes c (view s) encoder [.capabilities, .cameraState] (some c)
          ((view s).jobs ++ [.startAnnounced c]) ?_ (.inr ⟨_, rfl, .announced rfl hencoder⟩)
        simp [isReport, isAnswer]
      · obtain ⟨said, hsaid, hview⟩ := @view_startLive (sendControl (sendControl { s with
          app := { s.app with currentConfiguration := some c, streamError := none } }
          .capabilities) .cameraState) c
        rw [hview, view_sendControl, view_sendControl, View.tell_tell, View.tell_tell]
        refine @Started.live c (view s) encoder ([.capabilities, .cameraState] ++ said) ?_ hencoder
        intro m hm
        simp only [List.cons_append, List.nil_append, List.mem_cons] at hm
        rcases hm with rfl | rfl | hm
        · rfl
        · rfl
        · exact hsaid m hm
      · exact started_stale
  | announced hcurrent hencoder =>
    obtain ⟨said, hsaid, hview⟩ := @view_startLive s c
    have hlive := @Started.live c (view s) encoder said hsaid hencoder
    unfold resume encoderAfter
    dsimp only
    rw [hview]
    rwa [← hcurrent] at hlive
  | @stopped error => exact .ends ends_disconnect

/-! ### A change of the format -/

/-- The task is part of the change from configuration `old` to `new`, which has number `g`. -/
inductive Rebuilds (old new : StreamConfiguration) (g : ℕ) (encoder : Option StreamConfiguration) :
    AppTask → Prop
  | asked {taskGeneration : ℕ} : Rebuilds old new g encoder (.reconfigure new taskGeneration g)
  | stopped {taskGeneration : ℕ} :
      Rebuilds old new g encoder (.reconfigureStopped new (some old) taskGeneration g)
  | prepared {taskGeneration : ℕ} (hencoder : ∀ x ∈ encoder, x = new) :
      Rebuilds old new g encoder (.reconfigurePrepared new (some old) taskGeneration g)
  | restored {taskGeneration : ℕ} {error : String} (hencoder : ∀ x ∈ encoder, x = old) :
      Rebuilds old new g encoder (.reconfigureRestored old taskGeneration g error)
  | abandoned : Rebuilds old new g encoder .reconfigureAbandoned

/-- What a part of the change comes to. -/
inductive Rebuilt (old new : StreamConfiguration) (g : ℕ) (v : View)
    (encoder : Option StreamConfiguration) : View → Prop
  | ends {v' : View} (hends : v.Ends v') : Rebuilt old new g v encoder v'
  | goes {jobs : List AppTask}
      (hjobs : jobs = v.jobs ∨ ∃ task, jobs = v.jobs ++ [task] ∧ Rebuilds old new g encoder task) :
      Rebuilt old new g v encoder { v with jobs }
  | accepts (hencoder : ∀ x ∈ encoder, x = new) :
      Rebuilt old new g v encoder
        { v.tell [.cameraState, .formatAcknowledged g] with
          suspended := false, current := some new }
  | rejects {code message : String} (hencoder : ∀ x ∈ encoder, x = old) :
      Rebuilt old new g v encoder
        { v.tell [.cameraState, .formatRejected g code message] with
          suspended := false, current := some old }

variable {old new : StreamConfiguration} {g : ℕ}

theorem rebuilt_stale : Rebuilt old new g v encoder v :=
  @Rebuilt.goes old new g v encoder v.jobs (.inl rfl)

theorem rebuilt_await {task : AppTask} (h : Rebuilds old new g encoder task) :
    Rebuilt old new g v encoder (v.await task) :=
  @Rebuilt.goes old new g v encoder (v.jobs ++ [task]) (.inr ⟨task, rfl, h⟩)

/-- The previous configuration is restored, or the stream is abandoned. -/
theorem rebuilt_reconfigureFailed (taskGeneration : ℕ) (error : String) (restored : Outcome) :
    Rebuilt old new g (view s)
      (if taskGeneration = s.app.streamGeneration then restoredEncoder (some old) restored
        else encoder)
      (view (reconfigureFailed s (some old) taskGeneration g error restored)) := by
  unfold reconfigureFailed
  split_ifs with hgeneration
  · cases restored with
    | ok =>
      dsimp only
      rw [view_await rfl]
      exact rebuilt_await (.restored fun x hx => (Option.some.inj hx).symm)
    | error error =>
      dsimp only
      rw [view_await rfl]
      exact rebuilt_await .abandoned
  · exact rebuilt_stale

/-- **A part of the change** ends the connection, hands on to the next part, or answers the PC. -/
theorem rebuilt (outcome restored : Outcome) {task : AppTask}
    (h : Rebuilds old new g encoder task) (hcurrent : s.app.currentConfiguration = some old) :
    Rebuilt old new g (view s) (encoderAfter s encoder outcome restored task)
      (view (resume s outcome restored task)) := by
  cases h with
  | @asked taskGeneration =>
    unfold resume reconfigure encoderAfter
    dsimp only
    rw [hcurrent]
    have hfailed (error : String) :=
      @rebuilt_reconfigureFailed s encoder old new g taskGeneration error restored
    split_ifs at hfailed ⊢ with hgeneration
    · cases hvalidated : new.validated with
      | error error => exact hfailed _
      | ok configuration =>
        obtain rfl := validated_eq hvalidated
        dsimp only
        rw [view_await rfl]
        exact rebuilt_await .stopped
    · exact rebuilt_stale
  | @stopped taskGeneration =>
    unfold resume reconfigureStopped encoderAfter
    dsimp only
    have hfailed (error : String) :=
      @rebuilt_reconfigureFailed s encoder old new g taskGeneration error restored
    split_ifs at hfailed ⊢ with hgeneration
    · cases outcome with
      | error error => exact hfailed _
      | ok =>
        dsimp only
        rw [view_await rfl]
        exact rebuilt_await (.prepared fun x hx => (Option.some.inj hx).symm)
    · exact rebuilt_stale
  | @prepared taskGeneration hencoder =>
    unfold resume reconfigurePrepared encoderAfter
    cases outcome with
    | error error =>
      exact @rebuilt_reconfigureFailed s none old new g taskGeneration error restored
    | ok =>
      dsimp only
      have hlifted : view (setVideoSuspended (sendControl (sendControl { s with
          app := { s.app with currentConfiguration := some new, streamError := none } }
          .cameraState) (.formatAcknowledged g)) false) =
          { (view s).tell [.cameraState, .formatAcknowledged g] with
            suspended := false, current := some new } := by
        rw [view_setVideoSuspended, view_sendControl, view_sendControl, View.tell_tell]
        rfl
      split_ifs with hgeneration hhost
      · rw [view_markStreaming, hlifted]
        exact .accepts hencoder
      · rw [hlifted]
        exact .accepts hencoder
      · exact rebuilt_stale
  | @restored taskGeneration error hencoder =>
    unfold resume reconfigureRestored encoderAfter
    cases outcome with
    | error error =>
      dsimp only
      rw [view_await rfl]
      exact rebuilt_await .abandoned
    | ok =>
      dsimp only
      split_ifs with hgeneration
      · have hrejected : view (sendControl (sendControl { s with
            app.currentConfiguration := some old } .cameraState)
            (.formatRejected g "format_unavailable" error)) =
            { (view s).tell [.cameraState, .formatRejected g "format_unavailable" error] with
              current := some old } := by
          rw [view_sendControl, view_sendControl, View.tell_tell]
          rfl
        have hlifted := @view_setVideoSuspended (markStreaming (sendControl (sendControl { s with
            app.currentConfiguration := some old } .cameraState)
            (.formatRejected g "format_unavailable" error)) old false) false
        rw [view_markStreaming, hrejected] at hlifted
        have hrejects := @Rebuilt.rejects old new g (view s) encoder "format_unavailable" error
          hencoder
        rw [← hlifted] at hrejects
        exact hrejects
      · exact rebuilt_stale
  | abandoned => exact .ends ends_disconnect

/-! ### Messages of the PC -/

/-- What the handling of a message comes to, `v` being the view without it. -/
inductive Handled (message : PeerMessage) (v : View) : View → Prop
  | ends {v' : View} (hends : v.Ends v') : Handled message v v'
  | keeps : Handled message v v
  | starts {c : StreamConfiguration} {generation : ℕ} (hmessage : message = .ready (some c)) :
      Handled message v { v.await (.startStreaming c generation) with suspended := true }
  | refuses {g : ℕ} {fields : Option StreamConfiguration} {code text : String}
      (hmessage : message = .setFormat (some g) fields) :
      Handled message v (v.tell [.formatRejected g code text])
  | changes {g taskGeneration : ℕ} {c : StreamConfiguration}
      (hmessage : message = .setFormat (some g) (some c)) :
      Handled message v { v.await (.reconfigure c taskGeneration g) with suspended := true }

theorem configurationFrom_eq {fields : Option StreamConfiguration}
    (h : configurationFrom fields = some c) : fields = some c := by
  unfold configurationFrom at h
  obtain ⟨configuration, hfields, hvalidated⟩ := Option.bind_eq_some_iff.mp h
  cases hresult : configuration.validated with
  | error error =>
    rw [hresult] at hvalidated
    cases hvalidated
  | ok validated =>
    rw [hresult] at hvalidated
    obtain rfl := Option.some.inj hvalidated
    rw [hfields, validated_eq hresult]

theorem ends_cancel (s : Client) (message : String) :
    View.Ends (view s) (view (updatePhase { s with transport := s.transport.cancel }
      (.failed message))) := by
  have hphase : (updatePhase { s with transport := s.transport.cancel }
      (.failed message)).transport = s.transport.cancel := (quiet_updatePhase _ _).transport
  unfold View.Ends view
  dsimp only
  rw [hphase]
  exact drained_enqueue _ _

theorem handled_setFormat (generation : Option ℕ) (fields : Option StreamConfiguration) :
    Handled (.setFormat generation fields) (view s) (view (handleSetFormat s generation fields)) := by
  unfold handleSetFormat
  cases generation with
  | none => exact .keeps
  | some g =>
    dsimp only
    split_ifs with hlast
    · exact .keeps
    · cases hfields : configurationFrom fields with
      | none =>
        dsimp only
        rw [view_sendControl]
        exact .refuses rfl
      | some c =>
        dsimp only
        rw [view_await rfl]
        exact .changes (by rw [configurationFrom_eq hfields])

/-- **A message of the PC** is passed over, ends the connection, or sets a start or a change going.
-/
theorem handled_message (connection : ConnectionId) (message : PeerMessage) :
    Handled message (view s) (view (handleMessage s connection message)) := by
  cases message with
  | serverInfo allowUnauthenticated paired =>
    unfold handleMessage handleServerInfo
    dsimp only
    split
    · rw [view_updatePhase rfl]
      exact .keeps
    · exact .keeps
  | pairRequired =>
    unfold handleMessage
    dsimp only
    split
    · rw [view_updatePhase rfl]
      exact .keeps
    · exact .keeps
  | ready fields =>
    unfold handleMessage handleReady
    dsimp only
    split
    · exact .ends (ends_cancel _ _)
    · split
      · next configuration host hfields hhost =>
        unfold onReady
        dsimp only
        rw [view_await rfl]
        exact .starts (by rw [configurationFrom_eq hfields])
      · exact .ends (ends_cancel _ _)
  | setFormat generation fields =>
    unfold handleMessage
    dsimp only
    split
    · exact handled_setFormat generation fields
    · exact .keeps
  | setCamera found =>
    unfold handleMessage
    dsimp only
    split
    · cases found with
      | false => exact .keeps
      | true =>
        unfold AppModel.handle
        dsimp only
        rw [view_await_other rfl]
        exact .keeps
    · exact .keeps
  | setControl =>
    unfold handleMessage
    dsimp only
    split
    · unfold AppModel.handle
      dsimp only
      rw [view_await_other rfl]
      exact .keeps
    · exact .keeps
  | other =>
    unfold handleMessage
    dsimp only
    split <;> exact .keeps

end RemoteCam.Phone.Streaming
