import RemoteCam.Phone.Parts

/-! # Where the video goes on

The way of an access unit: the camera posts a frame to the queue of the encoder, VideoToolbox puts
it out in the order of encoding, a task of the main actor hands it to the transport, whose budget
may refuse it. The tasks of units run in their order.

`continuous_of_run`: on the wire a delta follows the unit that was encoded before it, with no
suspension ended in between. This holds of the runs where the next unit on its way is a keyframe, or
the encoder is about to make one, whenever the video goes on, a unit is refused or a frame is lost;
and where a reconnect finds the video suspended. -/

namespace RemoteCam.Phone.Keyframes

open RemoteCam.Lib.Transitions RemoteCam.Phone.Transport RemoteCam.Phone.Session
open RemoteCam.Phone.Effects RemoteCam.Phone.Parts
open RemoteCam.Phone.Hello (settle drained drained_enqueue drained_of_steady drained_dequeue
  submitted_initial)

/-! ### The encoder -/

/-- A block of the encoder's queue. -/
inductive EncoderBlock where
  | encode
  | requestKeyframe
  deriving DecidableEq, Repr

structure VideoEncoder where
  queue : List EncoderBlock := []
  session : Bool := false
  /-- The session has encoded no frame. -/
  fresh : Bool := false
  forceKeyframe : Bool := false
  /-- What VideoToolbox has not put out yet. -/
  encoding : List EncodedAccessUnit := []
  deriving DecidableEq, Repr

namespace VideoEncoder

def post (e : VideoEncoder) (block : EncoderBlock) : VideoEncoder :=
  { e with queue := e.queue ++ [block] }

/-- VideoToolbox makes the next frame a keyframe: it was told to, or it is the first one. -/
def due (e : VideoEncoder) : Bool := e.forceKeyframe || e.fresh

/-- The oldest block runs; `unit` is what becomes of a frame, if it is not lost. -/
def execute (e : VideoEncoder) (unit : Option EncodedAccessUnit) : VideoEncoder :=
  match e.queue with
  | [] => e
  | .requestKeyframe :: queue => { e with queue, forceKeyframe := true }
  | .encode :: queue =>
    if e.session then
      { e with
        queue
        fresh := e.fresh && unit.isNone
        forceKeyframe := false
        encoding := e.encoding ++ unit.toList }
    else { e with queue }

/-- A call of `configure` or `invalidate`, by what it leaves. -/
def replace (e : VideoEncoder) : Option StreamConfiguration → VideoEncoder
  | some _ => { e with session := true, fresh := true }
  | none => { e with session := false, fresh := false }

end VideoEncoder

/-! ### The machine -/

/-- A unit by the number of units that were handled before it, and the number of times that the
suspension of the video had ended. -/
structure Mark where
  index : ℕ
  resumption : ℕ
  deriving DecidableEq, Repr

structure Sent where
  connection : ConnectionId
  unit : EncodedAccessUnit
  mark : Mark
  deriving DecidableEq, Repr

structure Feed where
  client : Client
  encoder : VideoEncoder := {}
  /-- Ghost: the next unit. -/
  mark : Mark := ⟨0, 0⟩
  /-- Ghost: the unit that the transport took last. -/
  last : Option Mark := none
  /-- Ghost: the units that will have been submitted once the queue of the transport has run. -/
  wire : List Sent := []

inductive Action where
  /-- A step of the app that encodes nothing. -/
  | app (a : Session.Action)
  /-- The camera has a frame. -/
  | capture
  /-- `request_keyframe`, a change of the camera, a malformed `set_format`. -/
  | requestKeyframe
  | execute (unit : Option EncodedAccessUnit)
  /-- VideoToolbox puts out the oldest frame. -/
  | output
  deriving DecidableEq, Repr

def AppTask.unit : AppTask → Option EncodedAccessUnit
  | .accessUnit unit => some unit
  | _ => none

/-- The units that wait for the main actor. -/
def Feed.waiting (s : Feed) : List EncodedAccessUnit := s.client.tasks.filterMap AppTask.unit

/-- What the encoder is left with, if the step calls it. -/
def encoderCalled (s : Client) : Session.Action → Option (Option StreamConfiguration)
  | .disconnect => some none
  | .handle i => (s.events[i]?).bind fun event => if endsCapture s event then some none else none
  | .run i outcome restored => (s.tasks[i]?).bind (encoderCall s outcome restored)
  | _ => none

/-- The step requests a keyframe and ends the suspension of the video. -/
def resumes (s : Client) : Session.Action → Bool
  | .run i outcome _ => (s.tasks[i]?).any fun task => decide (lifts s.app outcome task)
  | _ => false

/-- The unit that the step hands to `sendVideo`. -/
def unitOf (s : Client) : Session.Action → Option EncodedAccessUnit
  | .run i _ _ => (s.tasks[i]?).bind AppTask.unit
  | _ => none

/-- The transport takes the unit: it is not too large, also not for the budget. -/
def takes (t : RemoteCamTransport) (unit : EncodedAccessUnit) : Bool :=
  match RemoteCamTransport.encoded (.video unit) with
  | .error _ => false
  | .ok length => length ≤ RemoteCamTransport.maximumPendingVideoBytes -
      min t.reservedVideoBytes RemoteCamTransport.maximumPendingVideoBytes

/-- The records of a unit that is handled. -/
def Feed.deliver (s : Feed) (unit : EncodedAccessUnit) : Feed :=
  let s' := { s with mark.index := s.mark.index + 1 }
  if !s.client.session.videoSuspended && takes s.client.transport unit then
    { s' with
      last := some s.mark
      wire := s.wire ++ ((drained s.client.transport).1.map (⟨·, unit, s.mark⟩)).toList }
  else s'

def Feed.appNext (s : Feed) (a : Session.Action) : Feed :=
  let encoder := (encoderCalled s.client a).elim s.encoder s.encoder.replace
  let s' := (unitOf s.client a).elim s s.deliver
  let client := Session.next s.client a
  if resumes s.client a then
    { s' with
      client
      encoder := encoder.post .requestKeyframe
      mark.resumption := s.mark.resumption + 1 }
  else { s' with client, encoder }

def next (s : Feed) : Action → Feed
  | .app a => s.appNext a
  | .capture => { s with encoder := s.encoder.post .encode }
  | .requestKeyframe => { s with encoder := s.encoder.post .requestKeyframe }
  | .execute unit => { s with encoder := s.encoder.execute unit }
  | .output =>
    match s.encoder.encoding with
    | [] => s
    | unit :: encoding =>
      { s with
        client := await s.client (.accessUnit unit)
        encoder := { s.encoder with encoding } }

/-- A unit is handled when no other one waits before it. -/
def inTurn (s : Client) : Session.Action → Prop
  | .encode _ => False
  | .run i _ _ =>
    ∀ task ∈ s.tasks[i]?, (AppTask.unit task).isSome = true →
      (s.tasks.take i).filterMap AppTask.unit = []
  | _ => True

/-- A call of the encoder waits for its queue and its frames. -/
def enabled (s : Feed) : Action → Prop
  | .app a =>
    Session.enabled s.client a ∧ inTurn s.client a ∧
    ((encoderCalled s.client a).isSome = true → s.encoder.queue = [] ∧ s.encoder.encoding = [])
  | .capture | .requestKeyframe => True
  | .execute unit =>
    s.encoder.queue ≠ [] ∧ ∀ u ∈ unit, s.encoder.due = true → u.isKeyframe = true
  | .output => s.encoder.encoding ≠ []

def feed : Machine Feed Action := ⟨enabled, next⟩

instance (s : Client) (a : Session.Action) : Decidable (inTurn s a) :=
  match a with
  | .encode _ => .isFalse id
  | .run i _ _ =>
    inferInstanceAs (Decidable (∀ task ∈ s.tasks[i]?, (AppTask.unit task).isSome = true →
      (s.tasks.take i).filterMap AppTask.unit = []))
  | .connect .. | .disconnect | .setAllowsUnauthenticated _ | .reconnect | .dequeue | .network _
  | .processed .. | .handle _ | .telemetry _ | .updateCamera | .encoderError _ => .isTrue trivial

instance (s : Feed) (a : Action) : Decidable (feed.enabled s a) := by
  show Decidable (enabled s a)
  cases a <;> unfold enabled <;> infer_instance

def Feed.start (allowsUnauthenticatedConnections : Bool) : Feed :=
  { client := Client.start allowsUnauthenticatedConnections }

/-! ### What is on the wire -/

/-- The unit was encoded next, and the suspension has not ended in between. -/
def Mark.follows (m : Mark) (before : Option Mark) : Prop :=
  ∃ p ∈ before, p.index + 1 = m.index ∧ p.resumption = m.resumption

/-- The last unit on a connection. -/
def lastOn (wire : List Sent) (connection : ConnectionId) : Option Mark :=
  ((wire.filter fun x => x.connection = connection).getLast?).map Sent.mark

structure Continuous (s : Feed) : Prop where
  wire : s.client.transport.submitted.filterMap videoOf <+:
    s.wire.map fun x => (x.connection, x.unit)
  keyed : ∀ before x after, s.wire = before ++ x :: after →
    x.unit.isKeyframe = true ∨ x.mark.follows (lastOn before x.connection)

/-- A request comes before the next frame. -/
def requested : List EncoderBlock → Bool
  | .requestKeyframe :: _ => true
  | _ => false

/-- The next frame that comes out will be a keyframe. -/
def VideoEncoder.keyNext (e : VideoEncoder) : Bool := !e.session || e.due || requested e.queue

/-- The next unit, after those that wait for the main actor, is a keyframe. -/
def keyNext (waiting : List EncodedAccessUnit) (e : VideoEncoder) : Bool :=
  match waiting ++ e.encoding with
  | unit :: _ => unit.isKeyframe
  | [] => e.keyNext

/-- The video goes on, and the next unit cannot follow the last. -/
def Feed.needsKeyframe (s : Feed) : Prop :=
  s.client.session.videoSuspended = false ∧ ¬ s.mark.follows s.last

def timely (s : Feed) : Action → Prop
  | .app a =>
    (a = .reconnect → s.client.session.videoSuspended = true) ∧
    (resumes s.client a = true → keyNext s.waiting (s.encoder.post .requestKeyframe) = true) ∧
    (∀ unit ∈ unitOf s.client a, s.client.session.videoSuspended = false →
      takes s.client.transport unit = false → keyNext s.waiting.tail s.encoder = true)
  | .execute none => s.needsKeyframe → keyNext s.waiting (s.encoder.execute none) = true
  | _ => True

instance (m : Mark) (before : Option Mark) : Decidable (m.follows before) := by
  unfold Mark.follows; infer_instance

instance (s : Feed) : Decidable s.needsKeyframe := by unfold Feed.needsKeyframe; infer_instance

instance (s : Feed) (a : Action) : Decidable (timely s a) := by
  unfold timely; split <;> infer_instance

/-! ### A step of the app that handles no unit -/

/-- No unit comes or goes; the suspension ends only if the step `resumes`. -/
structure Mute (s s' : Client) (resumes : Bool) : Prop where
  videos : videos s'.transport = videos s.transport
  waiting : s'.tasks.filterMap AppTask.unit = s.tasks.filterMap AppTask.unit
  suspended : s'.session.videoSuspended = false →
    s.session.videoSuspended = false ∨ resumes = true

/-- The connection stays or ends, as long as the video is not suspended. -/
def Stays (s s' : Client) : Prop :=
  s'.session.videoSuspended = false → (drained s'.transport).1 = (drained s.transport).1 ∨
    (drained s'.transport).1 = none

section Mute
variable {s s' : Client}

theorem unit_eq_none {task : AppTask} : AppTask.unit task = none ↔ AppTask.silent task := by
  cases task with
  | accessUnit unit => exact ⟨nofun, fun h => absurd rfl (h unit)⟩
  | _ => exact ⟨fun _ _ => nofun, fun _ => rfl⟩

theorem units_append {tasks added : List AppTask} (h : ∀ task ∈ added, AppTask.silent task) :
    (tasks ++ added).filterMap AppTask.unit = tasks.filterMap AppTask.unit := by
  have hnone : added.filterMap AppTask.unit = [] :=
    List.filterMap_eq_nil_iff.mpr fun task hmem => unit_eq_none.mpr (h task hmem)
  rw [List.filterMap_append, hnone, List.append_nil]

theorem silent_of_continues {task task' : AppTask} (h : AppTask.continues task task') :
    AppTask.silent task' := by
  rintro unit rfl
  exact absurd h.2.1 nofun

theorem Mute.of_does {adds : AppTask → Prop} {lifts : Prop} {resumes : Bool}
    (h : Does adds lifts s s') (hadds : ∀ task, adds task → AppTask.silent task)
    (hlifts : lifts → resumes = true) : Mute s s' resumes ∧ Stays s s' := by
  obtain ⟨added, hadded, hP⟩ := h.tasks
  refine ⟨⟨h.line.1, ?_, fun hv => (h.suspended hv).imp_right hlifts⟩, fun _ => h.line.2⟩
  rw [hadded]
  exact units_append fun task hmem => hadds task (hP task hmem)

theorem Mute.of_emit {resumes : Bool} {p : RemoteCamTransport × List TransportEvent}
    (h : drained p.1 = drained s.transport) : Mute s (s.emit p) resumes ∧ Stays s (s.emit p) :=
  ⟨⟨congrArg (fun d => d.2.filterMap videoOf) h, rfl, .inl⟩, fun _ => .inl (congrArg Prod.fst h)⟩

theorem videos_connect (t : RemoteCamTransport) (endpoint : NWEndpoint) :
    videos (t.connect endpoint) = videos t := by
  unfold videos
  rw [show drained (t.connect endpoint) = (some (t.requests + 1), (drained t).2) from
    drained_enqueue _ _]

theorem suspended_connect (s : Client) (host : RemoteHost) (endpoint : NWEndpoint) :
    (RemoteCamSession.connect s host endpoint).session.videoSuspended = true := by
  show (updatePhase (setVideoSuspended _ true) (.connecting host)).session.videoSuspended = true
  exact (quiet_updatePhase _ _).suspended rfl

/-- The units that wait, with and without the one of the task that runs. -/
theorem units_eraseIdx {tasks : List AppTask} {i : ℕ} (hi : i < tasks.length) :
    tasks.filterMap AppTask.unit = (tasks.take i).filterMap AppTask.unit ++
      ((AppTask.unit tasks[i]).toList ++ (tasks.drop (i + 1)).filterMap AppTask.unit) ∧
    (tasks.eraseIdx i).filterMap AppTask.unit = (tasks.take i).filterMap AppTask.unit ++
      (tasks.drop (i + 1)).filterMap AppTask.unit := by
  refine ⟨?_, by rw [List.eraseIdx_eq_take_drop_succ, List.filterMap_append]⟩
  conv_lhs => rw [← List.take_append_drop i tasks, List.drop_eq_getElem_cons hi]
  rw [List.filterMap_append, List.filterMap_cons]
  cases AppTask.unit tasks[i] <;> rfl

theorem mute_next {a : Session.Action} (ha : Session.enabled s a) (hturn : inTurn s a)
    (hunit : unitOf s a = none) :
    Mute s (Session.next s a) (resumes s a) ∧ (a ≠ .reconnect → Stays s (Session.next s a)) := by
  have hdoes {s' : Client} (h : Does AppTask.silent False s s') :
      Mute s s' (resumes s a) ∧ (a ≠ .reconnect → Stays s s') :=
    (Mute.of_does h (fun _ h => h) False.elim).imp_right fun h _ => h
  have hemit {p : RemoteCamTransport × List TransportEvent}
      (h : drained p.1 = drained s.transport) :
      Mute s (s.emit p) (resumes s a) ∧ (a ≠ .reconnect → Stays s (s.emit p)) :=
    (Mute.of_emit h).imp_right fun h _ => h
  cases a with
  | connect host discovered =>
    unfold Session.next AppModel.connect
    dsimp only
    split
    · exact hdoes (does_app _)
    · next endpoint _ =>
      let s₁ : Client :=
        { s with
          session.allowsUnauthenticatedConnections := s.app.allowsUnauthenticatedConnections }
      obtain ⟨⟨e, htransport⟩, -⟩ := renews_connect s₁ host endpoint
      have hstopped := ne_false_of_eq_true (suspended_connect s₁ host endpoint)
      refine ⟨⟨?_, rfl, fun h => absurd h hstopped⟩, fun _ h => absurd h hstopped⟩
      rw [htransport]
      exact videos_connect _ _
  | disconnect => exact hdoes ((does_suspend _).trans (does_disconnect.trans (does_app _)))
  | setAllowsUnauthenticated allows => exact hdoes (does_app _)
  | encoderError message => exact hdoes (does_app _)
  | dequeue => exact hemit (drained_dequeue _)
  | reconnect =>
    refine ⟨?_, fun h => absurd rfl h⟩
    unfold Session.next reconnect
    dsimp only
    split
    · exact ⟨rfl, rfl, .inl⟩
    · exact ⟨videos_connect _ _, rfl, .inl⟩
  | network callback =>
    obtain ⟨c, -, ⟨-, h⟩ | ⟨p, h, hsteady, -⟩⟩ := network_cases ha
    · rw [h]
      exact hemit rfl
    · rw [h]
      exact hemit (drained_of_steady hsteady)
  | processed i error =>
    obtain ⟨p, h, hsteady, -⟩ := processed_cases ha error
    rw [h]
    exact hemit (drained_of_steady hsteady)
  | handle i =>
    rw [next_handle ha]
    let s₁ : Client := { s with events := s.events.eraseIdx i }
    have hevent : Does AppTask.silent False s s₁ := .quiet rfl rfl id
    exact hdoes (hevent.trans (does_handle _))
  | telemetry snapshot => exact hdoes ((does_app _).trans (does_sendTelemetry _ _))
  | updateCamera => exact hdoes (.await s _ nofun)
  | encode unit => exact absurd hturn id
  | run i outcome restored =>
    have hi : i < s.tasks.length := ha
    rw [next_run hi]
    have htask : s.tasks[i]? = some s.tasks[i] := List.getElem?_eq_getElem hi
    have hnone : AppTask.unit s.tasks[i] = none := by
      unfold unitOf at hunit
      dsimp only at hunit
      rwa [htask] at hunit
    let s₁ : Client := { s with tasks := s.tasks.eraseIdx i }
    have hresume := does_resume (s := s₁) outcome restored s.tasks[i] (unit_eq_none.mp hnone)
    have hresumes : Effects.lifts s.app outcome s.tasks[i] →
        resumes s (.run i outcome restored) = true := fun h => by
      unfold resumes
      dsimp only
      rw [htask]
      exact decide_eq_true h
    obtain ⟨hmute, hstays⟩ := Mute.of_does hresume (fun _ => silent_of_continues) hresumes
    obtain ⟨hall, hothers⟩ := units_eraseIdx hi
    rw [hnone, Option.toList_none, List.nil_append, ← hothers] at hall
    exact ⟨⟨hmute.videos, hmute.waiting.trans hall.symm, hmute.suspended⟩, fun _ => hstays⟩

end Mute

/-! ### The next unit -/

section KeyNext
variable {waiting : List EncodedAccessUnit} {e e' : VideoEncoder}

theorem keyNext_of_eq {waiting' : List EncodedAccessUnit}
    (h : waiting' ++ e'.encoding = waiting ++ e.encoding) (hne : waiting ++ e.encoding ≠ []) :
    keyNext waiting' e' = keyNext waiting e := by
  unfold keyNext
  rw [h]
  cases hway : waiting ++ e.encoding with
  | nil => exact absurd hway hne
  | cons => rfl

/-- Only the units on their way matter, and the encoder if there are none. -/
theorem keyNext_of_imp (h : keyNext waiting e = true) (he : e'.encoding = e.encoding)
    (hkey : e.encoding = [] → e.keyNext = true → e'.keyNext = true) :
    keyNext waiting e' = true := by
  unfold keyNext at h ⊢
  rw [he]
  cases hway : waiting ++ e.encoding with
  | cons unit units => rwa [hway] at h
  | nil =>
    rw [hway] at h
    exact hkey (List.append_eq_nil_iff.mp hway).2 h

/-- A call of the encoder finds nothing on its way in it, and leaves a fresh session or none. -/
theorem keyNext_called {call : Option (Option StreamConfiguration)} (h : keyNext waiting e = true)
    (hcall : call.isSome = true → e.queue = [] ∧ e.encoding = []) :
    keyNext waiting (call.elim e e.replace) = true := by
  match call with
  | none => exact h
  | some (some configuration) =>
    refine keyNext_of_imp h rfl fun _ _ => ?_
    simp [VideoEncoder.keyNext, VideoEncoder.replace, VideoEncoder.due]
  | some none => exact keyNext_of_imp h rfl fun _ _ => rfl

/-- A block at the end of the queue is no worse than none. -/
theorem keyNext_post (block : EncoderBlock) (h : keyNext waiting e = true) :
    keyNext waiting (e.post block) = true := by
  refine keyNext_of_imp h rfl fun _ hkey => ?_
  have hrequested : requested e.queue = true → requested (e.post block).queue = true := by
    unfold VideoEncoder.post
    cases e.queue with
    | nil => exact nofun
    | cons first queue =>
      cases first with
      | encode => exact nofun
      | requestKeyframe => exact fun _ => rfl
  unfold VideoEncoder.keyNext at hkey ⊢
  rw [Bool.or_eq_true] at hkey ⊢
  exact hkey.imp_right hrequested

/-- A frame comes out at the end, as a keyframe if one is due. -/
theorem keyNext_execute {unit : EncodedAccessUnit} (h : keyNext waiting e = true)
    (hdue : e.due = true → unit.isKeyframe = true) :
    keyNext waiting (e.execute (some unit)) = true := by
  unfold VideoEncoder.execute
  split
  · exact h
  · exact keyNext_of_imp h rfl fun _ _ => by simp [VideoEncoder.keyNext, VideoEncoder.due]
  · next queue hqueue =>
    split
    · next hsession =>
      unfold keyNext at h ⊢
      dsimp only
      rw [Option.toList_some, ← List.append_assoc]
      cases hway : waiting ++ e.encoding with
      | cons first units => rwa [hway] at h
      | nil =>
        rw [hway] at h
        refine hdue ?_
        simpa [VideoEncoder.keyNext, hsession, hqueue, requested] using h
    · next hsession =>
      exact keyNext_of_imp h rfl fun _ _ => by simp [VideoEncoder.keyNext, hsession]

end KeyNext

/-! ### The invariant -/

structure Inv (s : Feed) : Prop where
  videos : videos s.client.transport = s.wire.map fun x => (x.connection, x.unit)
  keyed : ∀ before x after, s.wire = before ++ x :: after →
    x.unit.isKeyframe = true ∨ x.mark.follows (lastOn before x.connection)
  past : ∀ p ∈ s.last, p.index < s.mark.index ∧ p.resumption ≤ s.mark.resumption
  line : s.client.session.videoSuspended = false → s.mark.follows s.last →
    ∀ c ∈ (drained s.client.transport).1, lastOn s.wire c = s.last
  next : s.needsKeyframe → keyNext s.waiting s.encoder = true

section Inv
variable {s : Feed}

theorem Inv.continuous (I : Inv s) : Continuous s :=
  ⟨I.videos ▸ (submitted_initial _).filterMap _, I.keyed⟩

/-- The encoder goes on; the units on their way to the main actor are the same. -/
theorem Inv.encode {encoder : VideoEncoder} (I : Inv s)
    (h : s.needsKeyframe → keyNext s.waiting s.encoder = true →
      keyNext s.waiting encoder = true) : Inv { s with encoder } :=
  ⟨I.videos, I.keyed, I.past, I.line, fun hneeds => h hneeds (I.next hneeds)⟩

theorem Inv.output (I : Inv s) : Inv (Keyframes.next s .output) := by
  unfold Keyframes.next
  dsimp only
  split
  · exact I
  · next unit encoding hencoding =>
    refine ⟨I.videos, I.keyed, I.past, I.line, fun hneeds => ?_⟩
    refine (keyNext_of_eq ?_ ?_).trans (I.next hneeds)
    · unfold Feed.waiting await
      simp [hencoding, AppTask.unit]
    · rw [hencoding]
      exact List.append_ne_nil_of_right_ne_nil _ (List.cons_ne_nil _ _)

/-- What ends the suspension leaves the encoder its session. -/
theorem encoderCalled_of_resumes {s : Client} {a : Session.Action} (h : resumes s a = true) :
    encoderCalled s a = none := by
  unfold resumes at h
  split at h
  · next i outcome restored =>
    obtain ⟨task, htask, hlifts⟩ := Option.any_eq_true .. |>.mp h
    have hlifts := of_decide_eq_true hlifts
    unfold encoderCalled
    dsimp only
    rw [htask]
    cases task with
    | startAnnounced | reconfigureRestored => rfl
    | startPrepared => rw [hlifts.2.1]; rfl
    | reconfigurePrepared => rw [hlifts.2]; rfl
    | _ => exact absurd hlifts id
  · cases h

/-- After the end of a suspension no unit follows another one. -/
theorem not_follows_of_resumed (I : Inv s) :
    ¬ (⟨s.mark.index, s.mark.resumption + 1⟩ : Mark).follows s.last := by
  rintro ⟨p, hp, -, heq⟩
  have := (I.past p hp).2
  exact absurd heq (by dsimp only; omega)

theorem Inv.mute {a : Session.Action} (I : Inv s) (ha : enabled s (.app a))
    (hunit : unitOf s.client a = none) (htimely : timely s (.app a)) : Inv (s.appNext a) := by
  obtain ⟨henabled, hturn, hcall⟩ := ha
  obtain ⟨hmute, hstays⟩ := mute_next henabled hturn hunit
  obtain ⟨hreconnect, hresumes, -⟩ := htimely
  have hvideos := hmute.videos.trans I.videos
  unfold Feed.appNext
  rw [hunit]
  dsimp only [Option.elim_none]
  have hwaiting : ({ s with client := Session.next s.client a } : Feed).waiting = s.waiting :=
    hmute.waiting
  split
  · next h =>
    have hfollows := not_follows_of_resumed I
    refine ⟨hvideos, I.keyed, fun p hp => ?_, fun _ h => absurd h hfollows, fun _ => ?_⟩
    · exact ⟨(I.past p hp).1, (I.past p hp).2.trans (Nat.le_succ _)⟩
    · rw [encoderCalled_of_resumes h]
      exact hwaiting ▸ hresumes h
  · next h =>
    have hrunning (hv : (Session.next s.client a).session.videoSuspended = false) :
        s.client.session.videoSuspended = false := (hmute.suspended hv).resolve_right h
    refine ⟨hvideos, I.keyed, I.past, fun hv hfollows c hc => ?_, fun hneeds => ?_⟩
    · have hline := I.line (hrunning hv) hfollows
      have ha : a ≠ .reconnect := fun h => absurd (hrunning hv) (by rw [hreconnect h]; nofun)
      rcases hstays ha hv with heq | hnone
      · exact hline c (heq ▸ hc)
      · exact absurd (hnone.symm.trans hc) nofun
    · have hkey := I.next ⟨hrunning hneeds.1, hneeds.2⟩
      exact keyNext_called (hwaiting ▸ hkey) hcall

/-! ### A unit is handled -/

/-- A unit that the transport takes will be submitted, if there is a connection. -/
theorem drained_send_video (t : RemoteCamTransport) (unit : EncodedAccessUnit) :
    drained (t.send (.video unit)) =
      if takes t unit then settle (drained t) (.send (.video unit)) else drained t := by
  unfold takes RemoteCamTransport.send
  cases RemoteCamTransport.encoded (.video unit) with
  | error message => exact drained_enqueue _ _
  | ok length =>
    dsimp only
    split
    · next hfull => rw [if_neg (by simpa using hfull)]; rfl
    · next hfree => rw [if_pos (by simpa using hfree)]; exact drained_enqueue _ _

theorem lastOn_append (wire : List Sent) (x : Sent) (c : ConnectionId) :
    lastOn (wire ++ [x]) c = if x.connection = c then some x.mark else lastOn wire c := by
  unfold lastOn
  rw [List.filter_append]
  by_cases h : x.connection = c
  · simp [h]
  · simp [h]

/-- One more unit on the wire. -/
theorem keyed_append {wire : List Sent} {x : Sent}
    (h : ∀ before y after, wire = before ++ y :: after →
      y.unit.isKeyframe = true ∨ y.mark.follows (lastOn before y.connection))
    (hx : x.unit.isKeyframe = true ∨ x.mark.follows (lastOn wire x.connection)) :
    ∀ before y after, wire ++ [x] = before ++ y :: after →
      y.unit.isKeyframe = true ∨ y.mark.follows (lastOn before y.connection) := by
  intro before y after heq
  rcases List.eq_nil_or_concat after with rfl | ⟨rest, z, rfl⟩
  · obtain ⟨rfl, hxy⟩ := List.append_inj' heq rfl
    obtain rfl := List.head_eq_of_cons_eq hxy
    exact hx
  · rw [List.concat_eq_append, ← List.cons_append, ← List.append_assoc] at heq
    exact h before y rest (List.append_inj' heq rfl).1

/-- The unit and the next one have the same resumption. -/
theorem follows_next (m : Mark) : (⟨m.index + 1, m.resumption⟩ : Mark).follows (some m) :=
  ⟨m, rfl, rfl, rfl⟩

theorem not_follows_of_skipped (I : Inv s) :
    ¬ (⟨s.mark.index + 1, s.mark.resumption⟩ : Mark).follows s.last := by
  rintro ⟨p, hp, heq, -⟩
  have := (I.past p hp).1
  exact absurd heq (by dsimp only; omega)

/-- The unit does not go on the wire; the next one is a keyframe, unless the video is suspended. -/
theorem Inv.dropped (I : Inv s) {client : Client}
    (hd : drained client.transport = drained s.client.transport)
    (hkey : client.session.videoSuspended = false →
      keyNext (client.tasks.filterMap AppTask.unit) s.encoder = true) :
    Inv { s with client, mark.index := s.mark.index + 1 } := by
  refine ⟨?_, I.keyed, fun p hp => ?_, fun _ h => absurd h (not_follows_of_skipped I),
    fun hneeds => hkey hneeds.1⟩
  · exact (congrArg (fun d => d.2.filterMap videoOf) hd).trans I.videos
  · exact ⟨Nat.lt_succ_of_lt (I.past p hp).1, (I.past p hp).2⟩

/-- The unit is a keyframe or follows the last one; with a connection it goes on the wire. -/
theorem Inv.taken (I : Inv s) {client : Client} {unit : EncodedAccessUnit}
    (hrunning : s.client.session.videoSuspended = false)
    (hkeyed : unit.isKeyframe = true ∨ s.mark.follows s.last)
    (hd : drained client.transport = settle (drained s.client.transport) (.send (.video unit))) :
    Inv { s with
      client
      mark.index := s.mark.index + 1
      last := some s.mark
      wire := s.wire ++ ((drained s.client.transport).1.map (⟨·, unit, s.mark⟩)).toList } := by
  have hfollows : (⟨s.mark.index + 1, s.mark.resumption⟩ : Mark).follows (some s.mark) :=
    follows_next s.mark
  have hpast (p : Mark) (hp : p ∈ some s.mark) :
      p.index < s.mark.index + 1 ∧ p.resumption ≤ s.mark.resumption := by
    obtain rfl := Option.some.inj hp
    exact ⟨Nat.lt_succ_self _, le_rfl⟩
  have hvideos : Parts.videos client.transport =
      Parts.videos s.client.transport ++
        ((drained s.client.transport).1.map (·, unit)).toList := by
    unfold Parts.videos
    rw [hd]
    unfold settle
    cases (drained s.client.transport).1 with
    | none => exact List.filterMap_append
    | some c => exact List.filterMap_append
  have hconnection : (drained client.transport).1 = (drained s.client.transport).1 := by
    rw [hd]; rfl
  rw [I.videos] at hvideos
  cases hc : (drained s.client.transport).1 with
  | none =>
    rw [hc] at hvideos hconnection
    refine ⟨?_, ?_, hpast, fun _ _ d hd => ?_, fun hneeds => absurd hfollows hneeds.2⟩
    · simpa using hvideos
    · simpa using I.keyed
    · exact absurd (hconnection.symm.trans hd) nofun
  | some c =>
    rw [hc] at hvideos hconnection
    refine ⟨?_, ?_, hpast, fun _ _ d hd => ?_, fun hneeds => absurd hfollows hneeds.2⟩
    · simpa using hvideos
    · refine keyed_append I.keyed (hkeyed.imp_right fun h => ?_)
      rwa [I.line hrunning h c hc]
    · obtain rfl := Option.some.inj (hconnection.symm.trans hd)
      exact (lastOn_append _ _ _).trans (if_pos rfl)

theorem Inv.unit {i : ℕ} {outcome restored : Outcome} {unit : EncodedAccessUnit} (I : Inv s)
    (ha : enabled s (.app (.run i outcome restored)))
    (htask : s.client.tasks[i]? = some (.accessUnit unit))
    (htimely : timely s (.app (.run i outcome restored))) :
    Inv (s.appNext (.run i outcome restored)) := by
  obtain ⟨hi, hturn, -⟩ := ha
  have hi : i < s.client.tasks.length := hi
  have hget : s.client.tasks[i] = .accessUnit unit :=
    Option.some.inj ((List.getElem?_eq_getElem hi).symm.trans htask)
  set kept : Client := { s.client with tasks := s.client.tasks.eraseIdx i } with hkept
  have hnext : Session.next s.client (.run i outcome restored) = sendVideo kept unit := by
    rw [next_run hi, hget]
    rfl
  have hunit : unitOf s.client (.run i outcome restored) = some unit := by
    unfold unitOf; dsimp only; rw [htask]; rfl
  have hcalled : encoderCalled s.client (.run i outcome restored) = none := by
    unfold encoderCalled; dsimp only; rw [htask]; rfl
  have hresumes : ¬ resumes s.client (.run i outcome restored) = true := by
    unfold resumes; dsimp only; rw [htask]; exact nofun
  have hwaiting : s.waiting = unit :: kept.tasks.filterMap AppTask.unit := by
    obtain ⟨hall, hothers⟩ := units_eraseIdx hi
    rw [hturn _ htask rfl, List.nil_append] at hall hothers
    rw [hget] at hall
    exact hall.trans (congrArg (unit :: ·) hothers.symm)
  unfold Feed.appNext
  rw [if_neg hresumes, hunit, hcalled, hnext]
  dsimp only [Option.elim_none, Option.elim_some]
  by_cases hv : s.client.session.videoSuspended = true
  · have hsend : sendVideo kept unit = kept := if_pos hv
    have hdeliver : s.deliver unit = { s with mark.index := s.mark.index + 1 } := by
      unfold Feed.deliver
      simp [hv]
    rw [hsend, hdeliver]
    exact I.dropped rfl fun h => absurd (hv.symm.trans h) nofun
  · have hrunning : s.client.session.videoSuspended = false := Bool.eq_false_iff.mpr hv
    have hsend : sendVideo kept unit =
        { kept with transport := s.client.transport.send (.video unit) } := if_neg hv
    have hd := drained_send_video s.client.transport unit
    by_cases htakes : takes s.client.transport unit = true
    · have hdeliver : s.deliver unit =
          { s with
            mark.index := s.mark.index + 1
            last := some s.mark
            wire := s.wire ++
              ((drained s.client.transport).1.map (⟨·, unit, s.mark⟩)).toList } := by
        unfold Feed.deliver
        simp [hrunning, htakes]
      rw [hsend, hdeliver]
      refine I.taken hrunning ?_ (hd.trans (if_pos htakes))
      refine or_iff_not_imp_right.mpr fun hfollows => ?_
      have hkey := I.next ⟨hrunning, hfollows⟩
      unfold keyNext at hkey
      rwa [hwaiting] at hkey
    · have hdeliver : s.deliver unit = { s with mark.index := s.mark.index + 1 } := by
        unfold Feed.deliver
        simp [htakes]
      rw [hsend, hdeliver]
      refine I.dropped (hd.trans (if_neg htakes)) fun _ => ?_
      have hkey := htimely.2.2 unit hunit hrunning (Bool.eq_false_iff.mpr htakes)
      rwa [hwaiting] at hkey

end Inv

theorem Inv.step {s : Feed} {a : Action} (I : Inv s) (ha : enabled s a) (htimely : timely s a) :
    Inv (Keyframes.next s a) := by
  cases a with
  | app a =>
    cases hunit : unitOf s.client a with
    | none => exact I.mute ha hunit htimely
    | some unit =>
      unfold unitOf at hunit
      split at hunit
      · obtain ⟨task, htask, hsome⟩ := Option.bind_eq_some_iff.mp hunit
        cases task with
        | accessUnit => exact I.unit ha htask htimely
        | _ => cases hsome
      · cases hunit
  | capture | requestKeyframe => exact I.encode fun _ => keyNext_post _
  | execute unit =>
    cases unit with
    | none => exact I.encode fun hneeds _ => htimely hneeds
    | some unit => exact I.encode fun _ hkey => keyNext_execute hkey (ha.2 unit rfl)
  | output => exact I.output

def keyframeSample : EncodedAccessUnit := ⟨[0, 0, 0, 1, 0x26], true, 0⟩

def deltaSample : EncodedAccessUnit := ⟨[0, 0, 0, 1, 0x02], false, 16667⟩

/-- A frame goes all the way to the main actor. -/
def frame (unit : EncodedAccessUnit) : List Action := [.capture, .execute (some unit), .output]

/-- The stream is prepared, up to the start of the live activity. -/
def announced : List Action :=
  (opening "10.0.0.2" ++ agreement).map .app ++ [.app (.run 0 .ok .ok), .app (.run 0 .ok .ok)]

/-- The video goes on with nothing on its way: the request comes before the next frame. -/
def resumedInTime : List Action :=
  announced ++ [.app (.run 0 .ok .ok), .execute none] ++ frame keyframeSample ++
    [.app (.run 0 .ok .ok)] ++ frame deltaSample ++ [.app (.run 0 .ok .ok)]

/-- The camera runs while the live activity starts. The keyframe is handled before the video goes
on, and the delta that was encoded before the request is handled after it. -/
def overtakenRequest : List Action :=
  announced ++ frame keyframeSample ++ [.app (.run 1 .ok .ok), .capture,
    .execute (some deltaSample), .app (.run 0 .ok .ok), .output, .app (.run 0 .ok .ok)] ++
    List.replicate 7 (.app .dequeue)

end RemoteCam.Phone.Keyframes
