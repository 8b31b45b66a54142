import RemoteCam.Phone.Streaming

/-! # The parts of the main actor

What the code of the main actor does between two `await`s, apart from asking for a connection and
sending video, is made of few things (`Does`): it changes the app and the phase, says something,
cancels the connection, waits or ends the suspension of the video. `encoderCall` and `endsCapture`
are its calls of the encoder. -/

namespace RemoteCam.Phone.Parts

open RemoteCam.Phone.Transport RemoteCam.Phone.Session RemoteCam.Phone.Effects
open RemoteCam.Phone.Streaming
open RemoteCam.Phone.Hello (settle drained drained_enqueue)

/-! ### The encoder -/

/-- What the calls of a part leave in the encoder, if it makes any. -/
def encoderCall (s : Client) (outcome restored : Outcome) :
    AppTask → Option (Option StreamConfiguration)
  | .startStreaming configuration generation =>
    if generation = s.app.streamGeneration then
      match configuration.validated, outcome with
      | .ok configuration, .ok => some (some configuration)
      | _, _ => some none
    else none
  | .startPrepared _ _ =>
    match outcome with
    | .ok => none
    | .error _ => some none
  | .reconfigure configuration taskGeneration _ =>
    if taskGeneration = s.app.streamGeneration then
      match configuration.validated with
      | .ok _ => none
      | .error _ => some (restoredEncoder s.app.currentConfiguration restored)
    else none
  | .reconfigureStopped configuration previous taskGeneration _ =>
    if taskGeneration = s.app.streamGeneration then
      match outcome with
      | .ok => some (some configuration)
      | .error _ => some (restoredEncoder previous restored)
    else none
  | .reconfigurePrepared _ previous taskGeneration _ =>
    match outcome with
    | .ok => none
    | .error _ =>
      if taskGeneration = s.app.streamGeneration then some (restoredEncoder previous restored)
      else some none
  | _ => none

theorem encoderAfter_eq (s : Client) (encoder : Option StreamConfiguration)
    (outcome restored : Outcome) (task : AppTask) :
    encoderAfter s encoder outcome restored task =
      (encoderCall s outcome restored task).getD encoder := by
  cases task with
  | startStreaming configuration generation =>
    unfold encoderAfter encoderCall
    dsimp only
    split_ifs
    · cases configuration.validated <;> cases outcome <;> rfl
    · rfl
  | reconfigure configuration =>
    unfold encoderAfter encoderCall
    dsimp only
    split_ifs
    · cases configuration.validated <;> rfl
    · rfl
  | reconfigureStopped =>
    unfold encoderAfter encoderCall
    dsimp only
    split_ifs
    · cases outcome <;> rfl
    · rfl
  | startPrepared => cases outcome <;> rfl
  | reconfigurePrepared =>
    cases outcome with
    | ok => rfl
    | error =>
      unfold encoderAfter encoderCall
      dsimp only
      split_ifs <;> rfl
  | _ => rfl

/-- The event ends the capture of a session that has failed: `stopCaptureAfterSessionEnded`
invalidates the encoder. -/
def endsCapture (s : Client) : TransportEvent → Bool
  | .failed _ =>
    s.session.intentionalDisconnect || s.session.host.isNone || s.session.endpoint.isNone
  | .cancelled =>
    !s.session.intentionalDisconnect && (s.session.host.isNone || s.session.endpoint.isNone)
  | .frame _ (.message (.ready fields)) => !decide (accepts s fields)
  | _ => false

/-! ### Tasks -/

/-- The generation that a part still knows. -/
def AppTask.generation : AppTask → Option ℕ
  | .startStreaming _ generation | .startPrepared _ generation => some generation
  | .reconfigure _ generation _ | .reconfigureStopped _ _ generation _
  | .reconfigurePrepared _ _ generation _ | .reconfigureRestored _ generation _ _ =>
    some generation
  | _ => none

/-- The part does not look at the generation before it goes on. -/
def AppTask.blind : AppTask → Bool
  | .startAnnounced _ | .startStopped _ | .reconfigureAbandoned => true
  | _ => false

/-- The next part of a task has its generation, or does not know it any more. -/
def AppTask.continues (task task' : AppTask) : Prop :=
  AppTask.blind task = false ∧ AppTask.works task' = true ∧
    (AppTask.blind task' = false → AppTask.generation task' = AppTask.generation task)

theorem continues_of_blind {task task' : AppTask} (h : AppTask.blind task = false)
    (h' : AppTask.blind task' = true) (hw : AppTask.works task' = true) :
    AppTask.continues task task' :=
  ⟨h, hw, fun hb => absurd (h'.symm.trans hb) nofun⟩

/-- New tasks are as `adds` says; the suspension of the video ends only if `lifts`. -/
inductive Does (adds : AppTask → Prop) (lifts : Prop) : Client → Client → Prop
  | quiet {s s' : Client} (ht : s'.transport = s.transport) (hk : s'.tasks = s.tasks)
      (hv : s.session.videoSuspended = true → s'.session.videoSuspended = true) :
      Does adds lifts s s'
  | say (s : Client) (message : ControlMessage) : Does adds lifts s (sendControl s message)
  | cancel (s : Client) : Does adds lifts s { s with transport := s.transport.cancel }
  | await (s : Client) (task : AppTask) (h : adds task) : Does adds lifts s (await s task)
  | lift (s : Client) (h : lifts) : Does adds lifts s (setVideoSuspended s false)
  | trans {s s' s'' : Client} (h : Does adds lifts s s') (h' : Does adds lifts s' s'') :
      Does adds lifts s s''

section Does
variable {adds : AppTask → Prop} {lifts : Prop} {s s' : Client}

theorem Does.refl (s : Client) : Does adds lifts s s := .quiet rfl rfl id

theorem Does.of_quiet (h : Quiet s s') (hk : s'.tasks = s.tasks) : Does adds lifts s s' :=
  .quiet h.transport hk h.suspended

/-! ### What is done -/

theorem Does.tasks (h : Does adds lifts s s') :
    ∃ added, s'.tasks = s.tasks ++ added ∧ ∀ task ∈ added, adds task := by
  induction h with
  | quiet ht hk hv => exact ⟨[], by rw [hk, List.append_nil], fun task h => absurd h List.not_mem_nil⟩
  | say s | cancel s | lift s =>
    exact ⟨[], (List.append_nil _).symm, fun task h => absurd h List.not_mem_nil⟩
  | await s task h => exact ⟨[task], rfl, fun _ ht => List.mem_singleton.mp ht ▸ h⟩
  | trans h h' ih ih' =>
    obtain ⟨added, hadded, hP⟩ := ih
    obtain ⟨added', hadded', hP'⟩ := ih'
    refine ⟨added ++ added', by rw [hadded', hadded, List.append_assoc], fun task ht => ?_⟩
    exact (List.mem_append.mp ht).elim (hP task) (hP' task)

/-- A video unit among the calls of `connection.send`. -/
def videoOf : ConnectionId × Content → Option (ConnectionId × EncodedAccessUnit)
  | (c, .video unit) => some (c, unit)
  | (_, .control _) => none

/-- The units that will have been submitted. -/
def videos (t : RemoteCamTransport) : List (ConnectionId × EncodedAccessUnit) :=
  (drained t).2.filterMap videoOf

/-- Nothing but control messages is sent, and the connection stays or ends. -/
theorem Does.line (h : Does adds lifts s s') : videos s'.transport = videos s.transport ∧
    ((drained s'.transport).1 = (drained s.transport).1 ∨ (drained s'.transport).1 = none) := by
  induction h with
  | quiet ht hk hv => rw [ht]; exact ⟨rfl, .inl rfl⟩
  | say s message =>
    have hd : drained (sendControl s message).transport =
        settle (drained s.transport) (.send (.control message)) := drained_enqueue _ _
    unfold videos
    rw [hd]
    refine ⟨?_, .inl rfl⟩
    unfold settle
    cases (drained s.transport).1 with
    | none => exact congrArg _ (List.append_nil _)
    | some c => exact (List.filterMap_append).trans (List.append_nil _)
  | cancel s =>
    have hd : drained s.transport.cancel = (none, (drained s.transport).2) := drained_enqueue _ _
    unfold videos
    rw [hd]
    exact ⟨rfl, .inr rfl⟩
  | await s task h => exact ⟨rfl, .inl rfl⟩
  | lift s h => exact ⟨rfl, .inl rfl⟩
  | trans h h' ih ih' =>
    refine ⟨ih'.1.trans ih.1, ?_⟩
    rcases ih'.2 with heq | hnone
    · rw [heq]; exact ih.2
    · exact .inr hnone

theorem Does.suspended (h : Does adds lifts s s') (hv : s'.session.videoSuspended = false) :
    s.session.videoSuspended = false ∨ lifts := by
  induction h with
  | quiet ht hk hs =>
    exact .inl (Bool.eq_false_iff.mpr fun h => Bool.eq_false_iff.mp hv (hs h))
  | say | cancel | await => exact .inl hv
  | lift s h => exact .inr h
  | trans h h' ih ih' => exact (ih' hv).elim ih .inr

/-! ### The functions -/

theorem does_updatePhase (phase : ConnectionPhase) :
    Does adds lifts s (updatePhase s phase) := by
  refine .of_quiet (quiet_updatePhase s phase) ?_
  cases phase with
  | idle =>
    unfold updatePhase onPhaseChange
    dsimp only
    split <;> rfl
  | _ => rfl

theorem does_app (app : AppModel) : Does adds lifts s { s with app } := .quiet rfl rfl id

/-- The app changes and says two things. -/
theorem does_tell (app : AppModel) (message message' : ControlMessage) :
    Does adds lifts s (sendControl (sendControl { s with app } message) message') :=
  (does_app app).trans ((Does.say _ message).trans (.say _ message'))

theorem does_suspend (app : AppModel) :
    Does adds lifts s (setVideoSuspended { s with app } true) := .quiet rfl rfl fun _ => rfl

theorem does_disconnect : Does adds lifts s (RemoteCamSession.disconnect s) := by
  let s₁ : Client := setVideoSuspended
    { s with session := { s.session with intentionalDisconnect := true, reconnectTask := none } } true
  have hend : Does adds lifts s s₁ := .quiet rfl rfl fun _ => rfl
  exact hend.trans ((Does.cancel s₁).trans (does_updatePhase .idle))

theorem does_markStreaming (configuration : StreamConfiguration) (announceStart : Bool) :
    Does adds lifts s (markStreaming s configuration announceStart) := by
  unfold markStreaming
  split
  · exact .refl s
  · refine .trans ?_ (does_updatePhase _)
    cases announceStart with
    | false => exact .refl s
    | true => exact .say s .streamStart

theorem does_foldl_sendControl (messages : List ControlMessage) :
    Does adds lifts s (messages.foldl sendControl s) := by
  induction messages generalizing s with
  | nil => exact .refl s
  | cons message messages ih => exact (Does.say s message).trans ih

theorem does_sendTelemetry (snapshot : DeviceTelemetrySnapshot) (force : Bool) :
    Does adds lifts s (sendTelemetry s snapshot force) := by
  unfold sendTelemetry
  split
  · exact (does_foldl_sendControl _).trans (does_app _)
  · exact .refl s

theorem does_startLive (configuration : StreamConfiguration) (hl : lifts) :
    Does adds lifts s (startLive s configuration) :=
  ((does_markStreaming configuration true).trans (.lift _ hl)).trans (does_sendTelemetry _ true)

theorem does_startFailed (generation : ℕ) (error : String) (h : adds (.startStopped error)) :
    Does adds lifts s (startFailed s generation error) := by
  unfold startFailed
  split
  · exact .await s _ h
  · exact .refl s

theorem does_reconfigureFailed (previous : Option StreamConfiguration)
    (taskGeneration formatGeneration : ℕ) (error : String) (restored : Outcome)
    (h : adds .reconfigureAbandoned)
    (h' : ∀ configuration,
      adds (.reconfigureRestored configuration taskGeneration formatGeneration error)) :
    Does adds lifts s
      (reconfigureFailed s previous taskGeneration formatGeneration error restored) := by
  unfold reconfigureFailed
  split
  · split
    · exact (does_app _).trans (.await _ _ h)
    · exact .await s _ (h' _)
    · exact (does_app _).trans (.await _ _ h)
  · exact .refl s

theorem does_resume (outcome restored : Outcome) (task : AppTask)
    (hunit : ∀ unit, task ≠ .accessUnit unit) :
    Does (AppTask.continues task) (Effects.lifts s.app outcome task) s
      (resume s outcome restored task) := by
  cases task with
  | accessUnit unit => exact absurd rfl (hunit unit)
  | cameraUpdate =>
    cases outcome with
    | ok => exact .say s .cameraState
    | error error => exact does_app _
  | startStreaming configuration generation =>
    unfold resume startStreaming
    dsimp only
    split
    · split
      · exact does_startFailed _ _ (continues_of_blind rfl rfl rfl)
      · exact does_startFailed _ _ (continues_of_blind rfl rfl rfl)
      · exact .await s _ ⟨rfl, rfl, fun _ => rfl⟩
    · exact .refl s
  | startPrepared configuration generation =>
    unfold resume startPrepared
    dsimp only
    split
    · exact does_startFailed _ _ (continues_of_blind rfl rfl rfl)
    · split
      · next hg =>
        refine .trans (does_tell { s.app with
          currentConfiguration := some configuration, streamError := none }
          .capabilities .cameraState) ?_
        split
        · exact .await _ _ (continues_of_blind rfl rfl rfl)
        · next hhost => exact does_startLive _ ⟨hg, rfl, by simpa [sendControl] using hhost⟩
      · exact .refl s
  | startAnnounced configuration => exact does_startLive _ trivial
  | startStopped error => exact ((does_app _).trans does_disconnect).trans (does_app _)
  | reconfigure configuration taskGeneration formatGeneration =>
    unfold resume reconfigure
    dsimp only
    split
    · split
      · exact does_reconfigureFailed _ _ _ _ _ (continues_of_blind rfl rfl rfl)
          fun _ => ⟨rfl, rfl, fun _ => rfl⟩
      · exact .await s _ ⟨rfl, rfl, fun _ => rfl⟩
    · exact .refl s
  | reconfigureStopped configuration previous taskGeneration formatGeneration =>
    unfold resume reconfigureStopped
    dsimp only
    split
    · split
      · exact does_reconfigureFailed _ _ _ _ _ (continues_of_blind rfl rfl rfl)
          fun _ => ⟨rfl, rfl, fun _ => rfl⟩
      · exact .await s _ ⟨rfl, rfl, fun _ => rfl⟩
    · exact .refl s
  | reconfigurePrepared configuration previous taskGeneration formatGeneration =>
    unfold resume reconfigurePrepared
    dsimp only
    split
    · exact does_reconfigureFailed _ _ _ _ _ (continues_of_blind rfl rfl rfl)
        fun _ => ⟨rfl, rfl, fun _ => rfl⟩
    · split
      · next hg =>
        refine .trans (does_tell { s.app with
          currentConfiguration := some configuration, streamError := none }
          .cameraState (.formatAcknowledged formatGeneration)) ?_
        refine .trans (.lift _ ⟨hg, rfl⟩) ?_
        split
        · exact does_markStreaming _ _
        · exact .refl _
      · exact .refl s
  | reconfigureRestored previous taskGeneration formatGeneration error =>
    unfold resume reconfigureRestored
    dsimp only
    split
    · exact (does_app _).trans (.await _ _ (continues_of_blind rfl rfl rfl))
    · split
      · next hg =>
        refine .trans (does_tell { s.app with currentConfiguration := some previous } .cameraState
          (.formatRejected formatGeneration "format_unavailable" error)) ?_
        exact .trans (does_markStreaming _ _) (.trans (.lift _ ⟨hg, rfl⟩) (does_app _))
      · exact .refl s
  | reconfigureAbandoned => exact ((does_app _).trans does_disconnect).trans (does_app _)

/-! ### Events -/

/-- A task that is no access unit. -/
def AppTask.silent (task : AppTask) : Prop := ∀ unit, task ≠ .accessUnit unit

theorem does_handleReady (connection : ConnectionId) (fields : Option StreamConfiguration) :
    Does AppTask.silent lifts s (handleReady s connection fields) := by
  unfold handleReady
  split
  · let s₁ : Client :=
      { s with session := { s.session with intentionalDisconnect := true, reconnectTask := none } }
    have hend : Does AppTask.silent lifts s s₁ := .quiet rfl rfl id
    exact hend.trans ((Does.cancel s₁).trans (does_updatePhase _))
  · split
    · next configuration host _ _ =>
      let s₁ : Client := { s with record.accepted := connection :: s.record.accepted }
      have hrecord : Does AppTask.silent lifts s s₁ := .quiet rfl rfl id
      have hphase := hrecord.trans (does_updatePhase (.ready host configuration))
      exact hphase.trans ((does_suspend _).trans (.await _ _ nofun))
    · let s₁ : Client := { s with session.intentionalDisconnect := true }
      have hend : Does AppTask.silent lifts s s₁ := .quiet rfl rfl id
      exact hend.trans ((Does.cancel s₁).trans (does_updatePhase _))

theorem does_handleSetFormat (generation : Option ℕ) (fields : Option StreamConfiguration) :
    Does AppTask.silent lifts s (handleSetFormat s generation fields) := by
  unfold handleSetFormat
  split
  · exact .refl s
  · split
    · exact .refl s
    · dsimp only
      split
      · exact (does_app _).trans (.say _ _)
      · exact (does_suspend _).trans (.await _ _ nofun)

theorem does_handleMessage (connection : ConnectionId) (message : PeerMessage) :
    Does AppTask.silent lifts s (handleMessage s connection message) := by
  unfold handleMessage
  split
  · next allowUnauthenticated paired =>
    have hnegotiate : Does AppTask.silent lifts s (negotiate s connection allowUnauthenticated) :=
      .quiet rfl rfl id
    unfold handleServerInfo
    dsimp only
    split
    · exact hnegotiate.trans (does_updatePhase _)
    · exact hnegotiate
  · split
    · exact does_updatePhase _
    · exact .refl s
  · exact does_handleReady _ _
  · split
    · unfold AppModel.handle
      split
      · exact .await s _ nofun
      · exact .await s _ nofun
      · exact does_handleSetFormat _ _
      · exact .refl s
    · exact .refl s

theorem does_scheduleReconnect (lastError : String) :
    Does adds lifts s (scheduleReconnect s lastError) := by
  unfold scheduleReconnect
  split
  · next host endpoint _ _ _ =>
    let attempt := s.session.reconnectAttempt + 1
    let s₁ : Client := setVideoSuspended
      { s with session := { s.session with reconnectTask := none, reconnectAttempt := attempt } } true
    have hstop : Does adds lifts s s₁ := .quiet rfl rfl fun _ => rfl
    have hphase := hstop.trans (does_updatePhase (.reconnecting host attempt))
    exact hphase.trans (.quiet rfl rfl id)
  · exact does_updatePhase _

theorem does_handle (event : TransportEvent) :
    Does AppTask.silent lifts s (RemoteCamSession.handle s event) := by
  cases event with
  | ready connection =>
    let s₁ : Client :=
      { s with
        session.reconnectAttempt := 0
        record.greeted := connection :: s.record.greeted }
    have hready : Does AppTask.silent lifts s s₁ := .quiet rfl rfl id
    exact hready.trans (.say s₁ _)
  | frame connection frame =>
    cases frame with
    | ignored => exact .refl s
    | message message => exact does_handleMessage connection message
  | failed message => exact does_scheduleReconnect message
  | cancelled =>
    unfold RemoteCamSession.handle
    dsimp only
    split
    · exact .refl s
    · exact does_scheduleReconnect _

end Does

end RemoteCam.Phone.Parts
