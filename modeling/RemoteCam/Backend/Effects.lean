import RemoteCam.Backend.Session

/-! # What a step can do

`Effect` lists what the steps of the controller do to the threads, the queue and the consumer:
everything that only talks to the peer, counts or keeps time is one constructor, `plain`.
`next_effect` is the inversion of the machine; every invariant is proved by cases on it. -/

namespace RemoteCam.Backend.Effects

open RemoteCam.Lib.Threads RemoteCam.Video.Annexb RemoteCam.Backend.Session

/-! ### Regions of the threads -/

/-- Inside the loop of `drainQueue`. -/
def Pc.drains : Pc → Bool
  | .drainTake | .consume .. | .drainRefused | .drainRemove _ => true
  | _ => false

/-- Inside a reset of the consumer, until `resettingConsumer_` is cleared. -/
def Pc.resets : Pc → Bool
  | .resetLock .. | .resetCall .. | .resetClear _ => true
  | _ => false

/-- About to append a unit. -/
def Pc.enqueues : Pc → Bool
  | .videoEnqueue _ => true
  | _ => false

/-- Outside these three. -/
def Pc.plain (pc : Pc) : Bool := !Pc.drains pc && !Pc.resets pc && !Pc.enqueues pc

/-- In a handshake handler that will set the state. -/
def Pc.handshake : Pc → Bool
  | .hello .. | .authResponse _ | .authenticated => true
  | _ => false

/-- Where the network thread can stand. -/
def Pc.ofNet : Pc → Bool
  | .setConsumer _ | .sendFormat _ => false
  | .resetLock _ _ _ after | .resetCall _ _ _ _ after | .resetClear after => after ≠ .setConsumer
  | _ => true

/-- Where a thread that calls the controller can stand. -/
def Pc.ofCaller : Pc → Bool
  | .idle | .setConsumer _ | .sendFormat _ | .drainEnter | .drainTake | .consume .. | .drainRefused
  | .drainRemove _ => true
  | .resetLock _ _ _ after | .resetCall _ _ _ _ after | .resetClear after => after = .setConsumer
  | _ => false

def role (t : Thread) (pc : Pc) : Bool := if t = net then Pc.ofNet pc else Pc.ofCaller pc

/-- Where `drainQueue` returns to. -/
def returnPc (t : Thread) : Pc := if t = net then .serving else .idle

/-- A step between places where a thread holds nothing: the pc changes, the network thread was not
idle and does not go idle, and a handshake handler is entered in the handshake only. -/
structure Moves (s : Sys) (t : Thread) (pc' : Pc) : Prop where
  plain : Pc.plain pc'
  keepsRole : role t (s.pc t) → role t pc'
  serving : role t (s.pc t) → t = net → s.pc t ≠ .idle ∧ pc' ≠ .idle
  handshake : Pc.handshake pc' → Pc.handshake (s.pc t) ∨ s.stream.state = .awaitingHello ∨
    s.stream.state = .awaitingTrust

/-- A handler changes nothing about the session, fails it, or completes a handshake. -/
def Judges (s : Sys) (t : Thread) (state : State) (trusted : Bool) : Prop :=
  (state = s.stream.state ∧ trusted = s.stream.trusted) ∨
  (state = .failed ∧ trusted = s.stream.trusted) ∨
  (Pc.handshake (s.pc t) ∧ (state = .awaitingTrust ∨ state = .ready ∧ trusted = true))

/-- The consumer that the action puts in place of the one before, if it does. -/
def replacing (s : Sys) : Action → Option (Option ConsumerId)
  | .run t _ =>
    match s.pc t with
    | .setConsumer consumer => some consumer
    | _ => none
  | _ => none

theorem replacing_run {s : Sys} {t : Thread} {ok : Bool} {consumer : Option ConsumerId}
    (hpc : s.pc t = .setConsumer consumer) : replacing s (.run t ok) = some consumer := by
  simp only [replacing, hpc]

/-! ### Effects -/

inductive Effect (cfg : SessionConfig) (s : Sys) : Action → Sys → Prop
  /-- No thread moves: the clock, the watchdog, a frame that is ignored. -/
  | still {a : Action} {state : State} {activity : Activity} {clock : ℕ}
      (hstate : state = s.stream.state ∨ state = .failed) :
      Effect cfg s a { s with stream.state := state, activity, clock }
  | plain {a : Action} {t : Thread} {pc' : Pc} {state : State} {trusted : Bool} {dropped : ℕ}
      {activity : Activity}
      (hfrom : Pc.plain (s.pc t) ∨ ∃ x, s.pc t = .videoEnqueue x ∧ s.stream.waitingForKeyframe)
      (hvalid : s.pc t ≠ .videoInvalid) (hto : Moves s t pc') (hstate : Judges s t state trusted) :
      Effect cfg s a ({ s with
        stream := { s.stream with state, trusted, droppedFrames := dropped }, activity }.goto t pc')
  | connect (hpc : s.pc net = .idle) : Effect cfg s .connect (onConnected cfg s)
  | disconnect (hpc : s.pc net = .serving) : Effect cfg s .disconnect (onDisconnected s)
  | arrive {frame : VideoFrame} (hpc : s.pc net = .serving) :
      Effect cfg s (.receive (.video frame))
        ({ s with arrivals := s.arrivals + 1 }.goto net (videoPc s.stream frame s.arrivals))
  /-- The queue is flushed and counted, on the way a format change may begin or end. -/
  | flush {a : Action} {t : Thread} {pc' : Pc} {pending : Option StreamConfig}
      {pendingGeneration nextGeneration dropped : ℕ} {activity : Activity}
      (hfrom : Pc.plain (s.pc t) ∨ ∃ x, s.pc t = .videoEnqueue x)
      (hto : Moves s t pc')
      (hdropped : s.stream.droppedFrames + s.stream.queue.length ≤ dropped) :
      Effect cfg s a ({ s with
        stream :=
          { s.stream.resetQueueLocked true with
            pendingStreamConfig := pending
            pendingFormatGeneration := pendingGeneration
            nextFormatGeneration := nextGeneration
            droppedFrames := dropped }
        activity }.goto t pc')
  | append {t : Thread} {ok : Bool} {x : Arrived} {activity : Activity}
      (hpc : s.pc t = .videoEnqueue x)
      (hkey : s.stream.waitingForKeyframe → x.unit.keyframe) :
      Effect cfg s (.run t ok) ({ s with
        stream := { s.stream with waitingForKeyframe := false }.append x, activity }.goto t
          .drainEnter)
  | startStream {t : Thread} {ok : Bool} {activity : Activity} (hpc : s.pc t = .streamStart)
      (hstate : s.stream.state = .ready) (hpending : s.stream.pendingStreamConfig = none)
      (hresetting : s.stream.resettingConsumer = false) :
      Effect cfg s (.run t ok) ({ s with
        stream := { s.stream with state := .streaming, resettingConsumer := true }
        activity }.goto t (.resetLock s.stream.streamConfig s.stream.streamGeneration
          s.stream.connections .streamStart))
  | formatAck {t : Thread} {ok : Bool} {generation : ℕ} {applied : StreamConfig}
      {activity : Activity} (hpc : s.pc t = .formatAck generation)
      (hpending : s.stream.pendingStreamConfig = some applied)
      (hresetting : s.stream.resettingConsumer = false) :
      Effect cfg s (.run t ok) ({ s with
        stream :=
          { s.stream.resetQueueLocked true with
            streamConfig := applied
            pendingStreamConfig := none
            streamGeneration := generation
            pendingFormatGeneration := 0
            resettingConsumer := true }
        activity }.goto t (.resetLock applied generation s.stream.connections .formatAck))
  | resetLock {t : Thread} {ok : Bool} {config : StreamConfig} {generation connection : ℕ}
      {after : After} (hpc : s.pc t = .resetLock config generation connection after)
      (hmutex : s.consumerMutex = none) :
      Effect cfg s (.run t ok) (resetLock s t config generation connection after)
  | resetCall {t : Thread} {ok : Bool} {consumer : Option ConsumerId} {config : StreamConfig}
      {generation connection : ℕ} {after : After}
      (hpc : s.pc t = .resetCall consumer config generation connection after) :
      Effect cfg s (.run t ok) (resetCall s t consumer config generation connection after)
  | resetClear {t : Thread} {ok : Bool} {after : After} (hpc : s.pc t = .resetClear after) :
      Effect cfg s (.run t ok) (resetClear s t after)
  | replaceReset {t : Thread} {ok : Bool} {consumer : ConsumerId}
      (hpc : s.pc t = .setConsumer (some consumer)) (hmutex : s.consumerMutex = none)
      (hstate : s.stream.state = .streaming) (hpending : s.stream.pendingStreamConfig = none)
      (hresetting : s.stream.resettingConsumer = false) :
      Effect cfg s (.run t ok) ({ s with
        stream := { s.stream with consumer := some consumer, resettingConsumer := true }
        installed := some (t, some consumer) }.goto t (.resetLock s.stream.streamConfig
          s.stream.streamGeneration s.stream.connections .setConsumer))
  | replace {t : Thread} {ok : Bool} {consumer : Option ConsumerId}
      (hpc : s.pc t = .setConsumer consumer) (hmutex : s.consumerMutex = none)
      (hskip : ¬ (consumer.isSome ∧ s.stream.state = .streaming ∧
        s.stream.pendingStreamConfig = none ∧ s.stream.resettingConsumer = false)) :
      Effect cfg s (.run t ok) ({ s with
        stream := { s.stream with consumer }, installed := some (t, consumer) }.goto t .drainEnter)
  /-- Another thread is draining. -/
  | drainBusy {t : Thread} {ok : Bool} (hpc : s.pc t = .drainEnter)
      (hdraining : s.stream.draining = true) :
      Effect cfg s (.run t ok) (s.goto t (returnPc t))
  | drainEnter {t : Thread} {ok : Bool} (hpc : s.pc t = .drainEnter)
      (hdraining : s.stream.draining = false) :
      Effect cfg s (.run t ok) ({ s with stream.draining := true }.goto t .drainTake)
  /-- Nothing to deliver, nobody to deliver to, or the consumer was busy. -/
  | drainStop {t : Thread} {ok : Bool} (hpc : s.pc t = .drainTake ∨ s.pc t = .drainRefused) :
      Effect cfg s (.run t ok) ({ s with stream.draining := false }.goto t (returnPc t))
  | drainTake {t : Thread} {ok : Bool} {queued : QueuedAccessUnit} {rest : List QueuedAccessUnit}
      {consumer : ConsumerId} (hpc : s.pc t = .drainTake)
      (hqueue : s.stream.queue = queued :: rest) (hconsumer : s.stream.consumer = some consumer)
      (hresetting : s.stream.resettingConsumer = false) :
      Effect cfg s (.run t ok) (s.goto t (.consume queued consumer))
  | consume {t : Thread} {taken : Bool} {queued : QueuedAccessUnit} {consumer : ConsumerId}
      (hpc : s.pc t = .consume queued consumer) (hmutex : s.consumerMutex = none) :
      Effect cfg s (.run t taken) ((s.record consumer (.consume queued taken)).goto t
        (if taken then .drainRemove queued else .drainRefused))
  | pop {t : Thread} {ok : Bool} {queued front : QueuedAccessUnit} {rest : List QueuedAccessUnit}
      {bytes depth : ℕ} (hpc : s.pc t = .drainRemove queued)
      (hqueue : s.stream.queue = front :: rest) (htoken : front.token = queued.token) :
      Effect cfg s (.run t ok) ({ s with
        stream := { s.stream with queue := rest, queueBytes := bytes, queueDepth := depth } }.goto t
          .drainTake)
  /-- The unit was flushed while the consumer had it. -/
  | keep {t : Thread} {ok : Bool} {queued : QueuedAccessUnit} {depth : ℕ}
      (hpc : s.pc t = .drainRemove queued)
      (htoken : ∀ front ∈ s.stream.queue.head?, front.token ≠ queued.token) :
      Effect cfg s (.run t ok) ({ s with stream.queueDepth := depth }.goto t .drainTake)

/-! ### The inversion -/

variable {cfg : SessionConfig} {s : Sys} {t : Thread} {a : Action}

/-- A step that only moves the thread. -/
theorem Effect.goto {pc' : Pc} (hfrom : Pc.plain (s.pc t)) (hvalid : s.pc t ≠ .videoInvalid)
    (hto : Moves s t pc') : Effect cfg s a (s.goto t pc') :=
  .plain (.inl hfrom) hvalid hto (.inl ⟨rfl, rfl⟩)

/-- A step of a handler of the network thread to a place that is no handshake. -/
theorem Moves.of_net {pc pc' : Pc} (hpc : s.pc t = pc) (hnet : Pc.ofCaller pc = false)
    (hplain : Pc.plain pc') (hrole : Pc.ofNet pc') (hidle : pc' ≠ .idle)
    (hshake : Pc.handshake pc' = false) : Moves s t pc' := by
  have hbusy : pc ≠ .idle := by
    rintro rfl
    cases hnet
  refine ⟨hplain, fun h => ?_, fun _ _ => ⟨by rwa [hpc], hidle⟩, fun h => ?_⟩
  · rw [hpc] at h
    unfold role at h ⊢
    split_ifs at h ⊢
    · exact hrole
    · rw [hnet] at h
      cases h
  · rw [hshake] at h
    cases h

/-- A step of a thread that calls the controller. -/
theorem Moves.of_caller {pc pc' : Pc} (hpc : s.pc t = pc) (hcaller : Pc.ofNet pc = false)
    (hplain : Pc.plain pc') (hrole : Pc.ofCaller pc') (hshake : Pc.handshake pc' = false) :
    Moves s t pc' := by
  have hnot : role t (s.pc t) → t ≠ net := by
    rintro h rfl
    rw [hpc, role, if_pos rfl, hcaller] at h
    cases h
  refine ⟨hplain, fun h => ?_, fun h ht => absurd ht (hnot h), fun h => ?_⟩
  · rw [role, if_neg (hnot h)]
    exact hrole
  · rw [hshake] at h
    cases h

/-- Where a control message leads. -/
theorem controlPc_spec (cfg : SessionConfig) (state : State) (trusted : Bool) (message : ControlMessage) :
    Pc.plain (controlPc cfg state trusted message) ∧
      Pc.ofNet (controlPc cfg state trusted message) ∧
      controlPc cfg state trusted message ≠ .idle ∧
      (Pc.handshake (controlPc cfg state trusted message) →
        state = .awaitingHello ∨ state = .awaitingTrust) := by
  cases message with
  | hello deviceId verdict =>
    simp only [controlPc]
    split_ifs with h
    · exact ⟨rfl, rfl, nofun, nofun⟩
    · exact ⟨rfl, rfl, nofun, fun _ => .inl (not_not.mp h)⟩
  | authResponse verdict =>
    simp only [controlPc]
    split_ifs with h1 h2
    · exact ⟨rfl, rfl, nofun, nofun⟩
    · exact ⟨rfl, rfl, nofun, nofun⟩
    · exact ⟨rfl, rfl, nofun, fun _ => .inr (by tauto)⟩
  | pcToPhone =>
    simp only [controlPc, trustedPc]
    split_ifs <;> exact ⟨rfl, rfl, nofun, nofun⟩
  | formatAck generation =>
    simp only [controlPc]
    cases generation <;> simp only [trustedPc] <;> split_ifs <;>
      exact ⟨rfl, rfl, nofun, nofun⟩
  | formatReject generation =>
    simp only [controlPc]
    cases generation <;> simp only [trustedPc] <;> split_ifs <;>
      exact ⟨rfl, rfl, nofun, nofun⟩
  | streamStart fieldsEmpty =>
    simp only [controlPc, trustedPc]
    split_ifs <;> exact ⟨rfl, rfl, nofun, nofun⟩
  | progress wellFormed =>
    simp only [controlPc, trustedPc]
    split_ifs <;> exact ⟨rfl, rfl, nofun, nofun⟩
  | unknown =>
    simp only [controlPc, trustedPc]
    split_ifs <;> exact ⟨rfl, rfl, nofun, nofun⟩

theorem effect_onFrame {inbound : Inbound} (hpc : s.pc net = .serving) :
    Effect cfg s (.receive inbound) (onFrame cfg s inbound) := by
  have hfrom : Pc.plain (s.pc net) := by rw [hpc]; rfl
  have hvalid : s.pc net ≠ .videoInvalid := by rw [hpc]; nofun
  have hserving : Pc.ofCaller .serving = false := rfl
  cases inbound with
  | violation => exact .goto hfrom hvalid (.of_net hpc hserving rfl rfl nofun rfl)
  | ignored => exact .still (.inl rfl)
  | undecodable => exact .goto hfrom hvalid (.of_net hpc hserving rfl rfl nofun rfl)
  | video frame => exact .arrive hpc
  | control message =>
    obtain ⟨h1, h2, h3, h4⟩ := controlPc_spec cfg s.stream.state s.stream.trusted message
    refine .plain (.inl hfrom) hvalid ⟨h1, fun _ => ?_, fun _ _ => ⟨by rw [hpc]; nofun, h3⟩,
      fun h => .inr (h4 h)⟩
      (.inl ⟨rfl, rfl⟩)
    rw [role, if_pos rfl]
    exact h2

/-- What a step of the network thread's control handlers does. -/
theorem effect_control {ok : Bool} {pc : Pc} (hpc : s.pc t = pc)
    (hcontrol : pc = .fail ∨ pc = .malformed ∨ pc = .progress ∨ (∃ d v, pc = .hello d v) ∨
      (∃ v, pc = .authResponse v) ∨ pc = .authenticated ∨ pc = .handshakeSend ∨
      pc = .requestKeyframe ∨ pc = .videoDrop) :
    Effect cfg s (.run t ok) (step cfg s t ok pc) := by
  rcases hcontrol with rfl | rfl | rfl | ⟨d, v, rfl⟩ | ⟨v, rfl⟩ | rfl | rfl | rfl | rfl
  · exact .plain (.inl (by rw [hpc]; rfl)) (by rw [hpc]; nofun) (.of_net hpc rfl rfl rfl nofun rfl)
      (.inr (.inl ⟨rfl, rfl⟩))
  · exact .plain (.inl (by rw [hpc]; rfl)) (by rw [hpc]; nofun) (.of_net hpc rfl rfl rfl nofun rfl) (.inl ⟨rfl, rfl⟩)
  · exact .plain (.inl (by rw [hpc]; rfl)) (by rw [hpc]; nofun) (.of_net hpc rfl rfl rfl nofun rfl) (.inl ⟨rfl, rfl⟩)
  · simp only [step, handleHello]
    split_ifs with hv ht
    · exact .goto (by rw [hpc]; rfl) (by rw [hpc]; nofun) (.of_net hpc rfl rfl rfl nofun rfl)
    · exact .plain (.inl (by rw [hpc]; rfl)) (by rw [hpc]; nofun) (.of_net hpc rfl rfl rfl nofun rfl)
        (.inr (.inr ⟨by rw [hpc]; rfl, .inr ⟨rfl, by simpa using ht⟩⟩))
    · exact .plain (.inl (by rw [hpc]; rfl)) (by rw [hpc]; nofun) (.of_net hpc rfl rfl rfl nofun rfl)
        (.inr (.inr ⟨by rw [hpc]; rfl, .inl rfl⟩))
  · have hshake : Pc.handshake (s.pc t) := by rw [hpc]; rfl
    cases v with
    | malformed => exact .goto (by rw [hpc]; rfl) (by rw [hpc]; nofun) (.of_net hpc rfl rfl rfl nofun rfl)
    | rejected => exact .goto (by rw [hpc]; rfl) (by rw [hpc]; nofun) (.of_net hpc rfl rfl rfl nofun rfl)
    | accepted =>
      simp only [step, handleAuthResponse]
      split_ifs
      · exact .goto (by rw [hpc]; rfl) (by rw [hpc]; nofun) (.of_net hpc rfl rfl rfl nofun rfl)
      · refine .goto (by rw [hpc]; rfl) (by rw [hpc]; nofun)
          ⟨rfl, fun h => ?_, fun _ _ => ⟨by rw [hpc]; nofun, nofun⟩, fun _ => .inl hshake⟩
        rw [hpc] at h
        unfold role at h ⊢
        split_ifs at h ⊢
        · rfl
        · cases h
  · exact .plain (.inl (by rw [hpc]; rfl)) (by rw [hpc]; nofun) (.of_net hpc rfl rfl rfl nofun rfl)
      (.inr (.inr ⟨by rw [hpc]; rfl, .inr ⟨rfl, rfl⟩⟩))
  · cases ok <;> exact .goto (by rw [hpc]; rfl) (by rw [hpc]; nofun) (.of_net hpc rfl rfl rfl nofun rfl)
  · cases ok <;> exact .goto (by rw [hpc]; rfl) (by rw [hpc]; nofun) (.of_net hpc rfl rfl rfl nofun rfl)
  · exact .plain (.inl (by rw [hpc]; rfl)) (by rw [hpc]; nofun) (.of_net hpc rfl rfl rfl nofun rfl) (.inl ⟨rfl, rfl⟩)

/-- The start of a stream and the end of a format change. -/
theorem effect_format {ok : Bool} {pc : Pc} (hpc : s.pc t = pc)
    (hformat : pc = .streamStart ∨ (∃ g, pc = .formatAck g) ∨ (∃ g, pc = .formatReject g) ∨
      ∃ c, pc = .sendFormat c) :
    Effect cfg s (.run t ok) (step cfg s t ok pc) := by
  rcases hformat with rfl | ⟨g, rfl⟩ | ⟨g, rfl⟩ | ⟨c, rfl⟩
  · simp only [step, startStream]
    split_ifs with h
    · exact .startStream hpc h.1 h.2.1 (by simpa using h.2.2)
    · exact .goto (by rw [hpc]; rfl) (by rw [hpc]; nofun) (.of_net hpc rfl rfl rfl nofun rfl)
  · simp only [step, handleFormatAck]
    rcases hpending : s.stream.pendingStreamConfig with _ | applied
    · exact .goto (by rw [hpc]; rfl) (by rw [hpc]; nofun) (.of_net hpc rfl rfl rfl nofun rfl)
    · dsimp only
      split_ifs with h
      · exact .formatAck hpc hpending (by simpa using h.2)
      · exact .goto (by rw [hpc]; rfl) (by rw [hpc]; nofun) (.of_net hpc rfl rfl rfl nofun rfl)
  · simp only [step, handleFormatReject]
    split_ifs with h
    · exact .flush (.inl (by rw [hpc]; rfl)) (.of_net hpc rfl rfl rfl nofun rfl) (Nat.le_refl _)
    · exact .goto (by rw [hpc]; rfl) (by rw [hpc]; nofun) (.of_net hpc rfl rfl rfl nofun rfl)
  · simp only [step, sendFormat]
    split_ifs with h hok
    · exact .goto (by rw [hpc]; rfl) (by rw [hpc]; nofun) (.of_caller hpc rfl rfl rfl rfl)
    · exact .flush (.inl (by rw [hpc]; rfl)) (.of_caller hpc rfl rfl rfl rfl) (Nat.le_refl _)
    · exact .flush (.inl (by rw [hpc]; rfl)) (.of_caller hpc rfl rfl rfl rfl) (Nat.le_refl _)

/-- The end of `handleVideo`. -/
theorem effect_video {ok : Bool} {pc : Pc} (hpc : s.pc t = pc)
    (hvideo : pc = .videoInvalid ∨ ∃ x, pc = .videoEnqueue x) :
    Effect cfg s (.run t ok) (step cfg s t ok pc) := by
  rcases hvideo with rfl | ⟨x, rfl⟩
  · refine .flush (.inl (by rw [hpc]; rfl)) (.of_net hpc rfl rfl rfl nofun rfl) ?_
    simp only [countDrop, if_true]
    omega
  · simp only [step, enqueue]
    split_ifs with hdrop hfull
    · exact .plain (.inr ⟨x, hpc, hdrop.1⟩) (by rw [hpc]; nofun) (.of_net hpc rfl rfl rfl nofun rfl) (.inl ⟨rfl, rfl⟩)
    · refine .flush (.inr ⟨x, hpc⟩) (.of_net hpc rfl rfl rfl nofun rfl) ?_
      simp only [Stream.resetQueueLocked, Stream.meetKeyframe, if_true]
      omega
    · have hkey : s.stream.waitingForKeyframe → x.unit.keyframe := by
        intro hw
        by_contra hk
        exact hdrop ⟨hw, by simpa using hk⟩
      have hmeet : s.stream.meetKeyframe x.unit.keyframe =
          { s.stream with waitingForKeyframe := false } := by
        unfold Stream.meetKeyframe
        split_ifs with hx
        · rfl
        · have hw : s.stream.waitingForKeyframe = false := by
            by_contra hne
            exact hx (hkey (by simpa using hne))
          rw [hw]
      rw [hmeet]
      exact .append hpc hkey

/-- The loop of `drainQueue`. -/
theorem effect_drain {ok : Bool} {pc : Pc} (hpc : s.pc t = pc)
    (hmutex : Session.Pc.locksConsumer pc → s.consumerMutex = none)
    (hdrain : pc = .drainEnter ∨ pc = .drainTake ∨ (∃ q c, pc = .consume q c) ∨
      pc = .drainRefused ∨ ∃ q, pc = .drainRemove q) :
    Effect cfg s (.run t ok) (step cfg s t ok pc) := by
  rcases hdrain with rfl | rfl | ⟨q, c, rfl⟩ | rfl | ⟨q, rfl⟩
  · simp only [step, drainEnter]
    split_ifs with h
    · exact .drainBusy hpc h
    · exact .drainEnter hpc (by simpa using h)
  · simp only [step, drainTake]
    split
    · rename_i q rest c hqueue hconsumer
      split_ifs with h
      · exact .drainStop (.inl hpc)
      · exact .drainTake hpc hqueue hconsumer (by simpa using h)
    · exact .drainStop (.inl hpc)
  · exact .consume hpc (hmutex rfl)
  · exact .drainStop (.inr hpc)
  · simp only [step, drainRemove]
    split
    · rename_i front rest hqueue
      split_ifs with h
      · exact .pop hpc hqueue h
      · refine .keep hpc ?_
        rw [hqueue]
        rintro x ⟨⟩
        exact h
    · rename_i hqueue
      exact .keep hpc (by rw [hqueue]; nofun)

/-- The reset and the replacement of the consumer. -/
theorem effect_consumer {ok : Bool} {pc : Pc} (hpc : s.pc t = pc)
    (hmutex : Session.Pc.locksConsumer pc → s.consumerMutex = none)
    (hconsumer : (∃ c g n k, pc = .resetLock c g n k) ∨ (∃ d c g n k, pc = .resetCall d c g n k) ∨
      (∃ k, pc = .resetClear k) ∨ ∃ c, pc = .setConsumer c) :
    Effect cfg s (.run t ok) (step cfg s t ok pc) := by
  rcases hconsumer with ⟨c, g, n, k, rfl⟩ | ⟨d, c, g, n, k, rfl⟩ | ⟨k, rfl⟩ | ⟨c, rfl⟩
  · exact .resetLock hpc (hmutex rfl)
  · exact .resetCall hpc
  · exact .resetClear hpc
  · simp only [step, replaceConsumer]
    split_ifs with h
    · obtain ⟨hsome, hstate, hpending, hresetting⟩ := h
      obtain ⟨d, rfl⟩ := Option.isSome_iff_exists.mp hsome
      exact .replaceReset hpc (hmutex rfl) hstate hpending (by simpa using hresetting)
    · exact .replace hpc (hmutex rfl) (by simpa using h)

/-- **Every step of the controller is one of the effects.** -/
theorem next_effect (cfg : SessionConfig) (he : enabled s a) : Effect cfg s a (next cfg s a) := by
  cases a with
  | connect => exact .connect he
  | disconnect => exact .disconnect he
  | receive inbound => exact effect_onFrame he
  | call t c =>
    obtain ⟨hne, hidle⟩ := he
    have hrole : ∀ {pc'}, Pc.ofCaller pc' → role t (s.pc t) → role t pc' := by
      intro pc' h _
      rw [role, if_neg hne]
      exact h
    refine .goto (by rw [hidle]; rfl) (by rw [hidle]; nofun) ?_
    cases c with
    | setConsumer consumer => exact ⟨rfl, hrole rfl, fun _ h => absurd h hne, nofun⟩
    | sendFormat config => exact ⟨rfl, hrole rfl, fun _ h => absurd h hne, nofun⟩
  | watchdog =>
    simp only [next, watchdog]
    split_ifs
    · exact .still (.inr rfl)
    · exact .still (.inl rfl)
  | tick => exact .still (.inl rfl)
  | run t ok =>
    obtain ⟨hidle, hserving, hmutex⟩ := he
    rcases hpc : s.pc t with _ | _ | _ | _ | _ | ⟨d, v⟩ | v | _ | _ | _ | g | g | _ | _ | _ | x | c |
      c | ⟨c, g, n, k⟩ | ⟨d, c, g, n, k⟩ | k | _ | _ | ⟨q, c⟩ | _ | q <;>
      rw [hpc] at hidle hserving hmutex <;> rw [next, hpc]
    · exact absurd rfl hidle
    · exact absurd rfl hserving
    · exact effect_control hpc (by simp)
    · exact effect_control hpc (by simp)
    · exact effect_control hpc (by simp)
    · exact effect_control hpc (by simp)
    · exact effect_control hpc (by simp)
    · exact effect_control hpc (by simp)
    · exact effect_control hpc (by simp)
    · exact effect_format hpc (by simp)
    · exact effect_format hpc (by simp)
    · exact effect_format hpc (by simp)
    · exact effect_control hpc (by simp)
    · exact effect_control hpc (by simp)
    · exact effect_video hpc (by simp)
    · exact effect_video hpc (by simp)
    · exact effect_format hpc (by simp)
    · exact effect_consumer hpc hmutex (by simp)
    · exact effect_consumer hpc hmutex (by simp)
    · exact effect_consumer hpc hmutex (by simp)
    · exact effect_consumer hpc hmutex (by simp)
    · exact effect_drain hpc hmutex (by simp)
    · exact effect_drain hpc hmutex (by simp)
    · exact effect_drain hpc hmutex (by simp)
    · exact effect_drain hpc hmutex (by simp)
    · exact effect_drain hpc hmutex (by simp)

end RemoteCam.Backend.Effects
