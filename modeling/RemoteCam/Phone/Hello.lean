import RemoteCam.Phone.Effects

/-! # The hello of a connection comes first

What the main actor sends goes through the queue of the transport to the connection that the queue
will have reached by then, and the main actor does not say which one it means (`HelloFirst`).

In the runs whose steps are `InOrder`, every connection gets one `hello` before anything else, and
nothing but control messages of the format change before its `ready` was accepted
(`helloFirst_of_run`). Four orders are excluded: the `ready` event of a connection is handled when
another one has been asked for, a `ready` message is handled before the `ready` event of its own
connection, the app sends while `ready` is not accepted on the connection asked for last, and a task
ends the suspension of the video while a reconnect is scheduled. -/

namespace RemoteCam.Phone.Hello

open RemoteCam.Lib.Transitions RemoteCam.Phone.Transport RemoteCam.Phone.Session
  RemoteCam.Phone.Effects

/-! ### What is asked for -/

def isHello : ControlMessage → Bool
  | .hello _ => true
  | _ => false

/-- `caps`, `camera_state`, telemetry, `stream_start` and video. -/
def needsReady : Content → Bool
  | .control (.hello _) | .control (.formatAcknowledged _) | .control (.formatRejected ..) => false
  | _ => true

def controlOn (c : ConnectionId) : ConnectionId × Content → Option ControlMessage
  | (d, .control message) => if d = c then some message else none
  | (_, .video _) => none

/-- The control messages submitted to connection `c`, the oldest first. -/
def controls (c : ConnectionId) (submitted : List (ConnectionId × Content)) :
    List ControlMessage := submitted.filterMap (controlOn c)

/-- The first message is the only `hello`. -/
def Opens : List ControlMessage → Prop
  | [] => True
  | message :: rest => isHello message = true ∧ ∀ m ∈ rest, isHello m = false

/-- **The property**: `hello` first and once, and the messages of a session only after `ready`. -/
structure HelloFirst (s : Client) : Prop where
  opens : ∀ c, Opens (controls c s.transport.submitted)
  ready : ∀ p ∈ s.transport.submitted, needsReady p.2 = true → p.1 ∈ s.record.accepted

/-! ### The condition -/

/-- The connection asked for last, if it was not cancelled, has had its `ready` accepted. -/
def Admitted (s : Client) : Prop := ∀ c ∈ s.transport.asked, c ∈ s.record.accepted

instance (s : Client) : Decidable (Admitted s) := by unfold Admitted; infer_instance

/-- The event is handled in time for its connection, and rejects no format too early. -/
structure EventInOrder (s : Client) (event : TransportEvent) : Prop where
  opens : ∀ c ∈ event.opens, ∀ d ∈ s.transport.asked, d = c
  ready : ∀ p ∈ event.readyMessage, accepts s p.2 → .ready p.1 ∉ s.events
  setFormat : ∀ p ∈ event.setFormat, s.session.isTrusted → s.app.lastFormatGeneration < p.1 →
    configurationFrom p.2 = none → Admitted s

/-- The app says nothing too early, and the video is not let go too early. -/
structure TaskInOrder (s : Client) (task : AppTask) (outcome : Outcome) : Prop where
  speaks : speaks s.app outcome task → Admitted s
  lifts : lifts s.app outcome task → s.session.reconnectTask = none

/-- The telemetry that the action reports. -/
def reported : Action → Option DeviceTelemetrySnapshot
  | .telemetry snapshot => some snapshot
  | _ => none

structure InOrder (s : Client) (a : Action) : Prop where
  event : ∀ event ∈ handled s a, EventInOrder s event
  task : ∀ p ∈ resumed s a, TaskInOrder s p.1 p.2
  telemetry : ∀ snapshot ∈ reported a, s.app.currentConfiguration.isSome →
    telemetryMessages s.app.lastTelemetry snapshot false ≠ [] → Admitted s

instance (s : Client) (event : TransportEvent) : Decidable (EventInOrder s event) :=
  decidable_of_iff (_ ∧ _ ∧ _)
    ⟨fun h => ⟨h.1, h.2.1, h.2.2⟩, fun h => ⟨h.opens, h.ready, h.setFormat⟩⟩

instance (s : Client) (task : AppTask) (outcome : Outcome) :
    Decidable (TaskInOrder s task outcome) :=
  decidable_of_iff (_ ∧ _) ⟨fun h => ⟨h.1, h.2⟩, fun h => ⟨h.speaks, h.lifts⟩⟩

instance (s : Client) (a : Action) : Decidable (InOrder s a) :=
  decidable_of_iff (_ ∧ _ ∧ _)
    ⟨fun h => ⟨h.1, h.2.1, h.2.2⟩, fun h => ⟨h.event, h.task, h.telemetry⟩⟩

/-! ### Lists of messages -/

section Lists
variable {c d : ConnectionId} {l l' : List ControlMessage} {message : ControlMessage}

theorem Opens.append (h : Opens l) (hne : l ≠ []) (hm : isHello message = false) :
    Opens (l ++ [message]) := by
  cases l with
  | nil => exact absurd rfl hne
  | cons first rest =>
    refine ⟨h.1, fun m hmem => ?_⟩
    rcases List.mem_append.mp hmem with hmem | hmem
    · exact h.2 m hmem
    · rw [List.mem_singleton.mp hmem]
      exact hm

theorem Opens.initial (h : Opens l) (hl : l' <+: l) : Opens l' := by
  cases l' with
  | nil => trivial
  | cons first rest =>
    obtain ⟨more, rfl⟩ := hl
    exact ⟨h.1, fun m hmem => h.2 m (List.mem_append_left more hmem)⟩

theorem controls_append_control (submitted : List (ConnectionId × Content)) :
    controls c (submitted ++ [(d, .control message)]) =
      controls c submitted ++ if d = c then [message] else [] := by
  unfold controls
  rw [List.filterMap_append]
  by_cases h : d = c
  · simp [controlOn, h]
  · simp [controlOn, h]

theorem controls_append_video (submitted : List (ConnectionId × Content))
    (unit : EncodedAccessUnit) :
    controls c (submitted ++ [(d, .video unit)]) = controls c submitted := by
  unfold controls
  rw [List.filterMap_append]
  simp [controlOn]

end Lists

/-! ### The queue -/

/-- The connection and the calls of `connection.send`, after one more block. -/
def settle (p : Option ConnectionId × List (ConnectionId × Content)) :
    Block → Option ConnectionId × List (ConnectionId × Content)
  | .connect c _ => (some c, p.2)
  | .reportFailure _ => p
  | .send content => (p.1, p.2 ++ (p.1.map (·, content)).toList)
  | .cancel => (none, p.2)

/-- The same once all blocks on the queue have run. -/
def drained (t : RemoteCamTransport) : Option ConnectionId × List (ConnectionId × Content) :=
  t.queue.foldl settle (t.connection, t.submitted)

theorem drained_enqueue (t : RemoteCamTransport) (block : Block) :
    drained (t.enqueue block) = settle (drained t) block := by
  show (t.queue ++ [block]).foldl settle (t.connection, t.submitted) = _
  rw [List.foldl_append]
  rfl

theorem drained_of_steady {t t' : RemoteCamTransport} (h : Steady t t') :
    drained t' = drained t := by
  unfold drained
  rw [h.queue, h.connection, h.submitted]

theorem drained_execute (t : RemoteCamTransport) (block : Block) :
    drained (t.execute block).1 = t.queue.foldl settle (settle (t.connection, t.submitted) block) := by
  cases block with
  | connect | cancel => rfl
  | reportFailure message => exact drained_of_steady (steady_reportFailure t message)
  | send content =>
    unfold RemoteCamTransport.execute
    dsimp only
    split
    · next hnone =>
      rw [drained_of_steady (steady_release t content)]
      simp [drained, settle, hnone]
    · next c hsome => simp [drained, settle, hsome]

/-- Running a block does what was to be expected of it. -/
theorem drained_dequeue (t : RemoteCamTransport) : drained t.dequeue.1 = drained t := by
  unfold RemoteCamTransport.dequeue
  split
  · rfl
  · next block queue hqueue =>
    rw [drained_execute]
    unfold drained
    rw [hqueue]
    rfl

/-- What has been submitted is the beginning of what will be. -/
theorem submitted_initial (t : RemoteCamTransport) : t.submitted <+: (drained t).2 := by
  have hsettle : ∀ (queue : List Block) (p : Option ConnectionId × List (ConnectionId × Content)),
      p.2 <+: (queue.foldl settle p).2 := by
    intro queue
    induction queue with
    | nil => exact fun p => List.prefix_rfl
    | cons block queue ih =>
      intro p
      have hblock : p.2 <+: (settle p block).2 := by
        cases block with
        | send content => exact List.prefix_append _ _
        | _ => exact List.prefix_rfl
      exact hblock.trans (ih _)
  exact hsettle t.queue (t.connection, t.submitted)

/-! ### What has been and will be said -/

/-- **The invariant of what is submitted**, now or by the blocks on the queue. -/
structure Spoken (t : RemoteCamTransport) (r : Record) : Prop where
  target : (drained t).1 = t.asked
  opens : ∀ c, Opens (controls c (drained t).2)
  greeted : ∀ c, controls c (drained t).2 ≠ [] → c ∈ r.greeted
  heard : ∀ c ∈ t.asked, c ∈ r.greeted → controls c (drained t).2 ≠ []
  ready : ∀ p ∈ (drained t).2, needsReady p.2 = true → p.1 ∈ r.accepted
  accepted : ∀ c ∈ r.accepted, c ∈ r.greeted

section Spoken
variable {t t' : RemoteCamTransport} {r : Record} {c : ConnectionId}

theorem Spoken.of_eq (I : Spoken t r) (hd : drained t' = drained t) (ha : t'.asked = t.asked) :
    Spoken t' r := by
  constructor
  · rw [hd, ha]; exact I.target
  · rw [hd]; exact I.opens
  · rw [hd]; exact I.greeted
  · rw [hd, ha]; exact I.heard
  · rw [hd]; exact I.ready
  · exact I.accepted

theorem Spoken.connect (I : Spoken t r) (endpoint : NWEndpoint)
    (hnew : t.requests + 1 ∉ r.greeted) : Spoken (t.connect endpoint) r := by
  have hd : drained (t.connect endpoint) = (some (t.requests + 1), (drained t).2) :=
    drained_enqueue _ _
  constructor
  · rw [hd]; rfl
  · rw [hd]; exact I.opens
  · rw [hd]; exact I.greeted
  · intro c hc hgreeted
    cases hc
    exact absurd hgreeted hnew
  · rw [hd]; exact I.ready
  · exact I.accepted

theorem Spoken.cancel (I : Spoken t r) : Spoken t.cancel r := by
  have hd : drained t.cancel = (none, (drained t).2) := drained_enqueue _ _
  constructor
  · rw [hd]; rfl
  · rw [hd]; exact I.opens
  · rw [hd]; exact I.greeted
  · exact nofun
  · rw [hd]; exact I.ready
  · exact I.accepted

/-- What the queue will say on `asked`, a connection that was greeted and admitted. -/
theorem Spoken.append {content : Content} (I : Spoken t r)
    (hadmitted : ∀ c ∈ t.asked, c ∈ r.accepted)
    (hcontent : ∀ allow, content ≠ .control (.hello allow))
    (hd : drained t' = settle (drained t) (.send content)) (ha : t'.asked = t.asked) :
    Spoken t' r := by
  cases hasked : t.asked with
  | none =>
    refine I.of_eq ?_ ha
    rw [hd]
    have htarget := I.target.trans hasked
    simp [settle, htarget, Prod.ext_iff]
  | some d =>
    have haccepted : d ∈ r.accepted := hadmitted d hasked
    have hgreeted : d ∈ r.greeted := I.accepted d haccepted
    have hheard : controls d (drained t).2 ≠ [] := I.heard d hasked hgreeted
    have hd' : drained t' = (some d, (drained t).2 ++ [(d, content)]) := by
      rw [hd]
      simp [settle, I.target.trans hasked]
    have hready : ∀ p ∈ (drained t).2 ++ [(d, content)], needsReady p.2 = true →
        p.1 ∈ r.accepted := by
      intro p hp hneeds
      rcases List.mem_append.mp hp with hp | hp
      · exact I.ready p hp hneeds
      · rw [List.mem_singleton.mp hp]
        exact haccepted
    cases content with
    | video unit =>
      refine ⟨?_, ?_, ?_, ?_, ?_, I.accepted⟩
      · rw [hd', ha, hasked]
      · intro c
        rw [hd', controls_append_video]
        exact I.opens c
      · intro c
        rw [hd', controls_append_video]
        exact I.greeted c
      · intro c hc
        rw [hd', controls_append_video]
        exact I.heard c (ha ▸ hc)
      · rw [hd']
        exact hready
    | control message =>
      have hother : isHello message = false := by
        cases message with
        | hello allow => exact absurd rfl (hcontent allow)
        | _ => rfl
      refine ⟨?_, ?_, ?_, ?_, ?_, I.accepted⟩
      · rw [hd', ha, hasked]
      · intro c
        rw [hd', controls_append_control]
        by_cases hc : d = c
        · subst hc
          rw [if_pos rfl]
          exact (I.opens d).append hheard hother
        · rw [if_neg hc, List.append_nil]
          exact I.opens c
      · intro c
        rw [hd', controls_append_control]
        by_cases hc : d = c
        · intro _
          exact hc ▸ hgreeted
        · rw [if_neg hc, List.append_nil]
          exact I.greeted c
      · intro c hc _
        rw [hd', controls_append_control]
        rw [ha, hasked] at hc
        cases hc
        simp
      · rw [hd']
        exact hready

theorem Spoken.send {content : Content} (I : Spoken t r)
    (hadmitted : ∀ c ∈ t.asked, c ∈ r.accepted)
    (hcontent : ∀ allow, content ≠ .control (.hello allow)) : Spoken (t.send content) r := by
  obtain ⟨blocks, reserved, dropped, heq, hblocks⟩ := send_cases t content
  have hd : drained (t.send content) = blocks.foldl settle (drained t) := by
    rw [heq]
    exact List.foldl_append
  have ha : (t.send content).asked = t.asked := by rw [heq]
  rcases hblocks with rfl | ⟨message, rfl⟩ | rfl
  · exact I.of_eq hd ha
  · exact I.of_eq hd ha
  · exact I.append hadmitted hcontent hd ha

/-- The `hello` that the `ready` event of connection `c` asks for. -/
theorem Spoken.hello (I : Spoken t r) {allow : Bool} (hasked : ∀ d ∈ t.asked, d = c)
    (hnew : c ∉ r.greeted) :
    Spoken (t.send (.control (.hello allow))) { r with greeted := c :: r.greeted } := by
  have hd : drained (t.send (.control (.hello allow))) =
      settle (drained t) (.send (.control (.hello allow))) := drained_enqueue _ _
  have haccepted : ∀ d ∈ r.accepted, d ∈ c :: r.greeted :=
    fun d h => List.mem_cons_of_mem c (I.accepted d h)
  cases ha : t.asked with
  | none =>
    have hd' : drained (t.send (.control (.hello allow))) = drained t := by
      rw [hd]
      have htarget := I.target.trans ha
      simp [settle, htarget, Prod.ext_iff]
    have I' := I.of_eq hd' rfl
    exact ⟨I'.target, I'.opens, fun d h => List.mem_cons_of_mem c (I'.greeted d h),
      fun d h => absurd (ha.symm.trans h) nofun, I'.ready, haccepted⟩
  | some d =>
    obtain rfl : d = c := hasked d ha
    have hsilent : controls d (drained t).2 = [] := by
      by_contra hne
      exact hnew (I.greeted d hne)
    have hd' : drained (t.send (.control (.hello allow))) =
        (some d, (drained t).2 ++ [(d, .control (.hello allow))]) := by
      rw [hd]
      simp [settle, I.target.trans ha]
    refine ⟨by rw [hd']; exact ha.symm, ?_, ?_, ?_, ?_, haccepted⟩
    · intro c
      rw [hd', controls_append_control]
      by_cases hc : d = c
      · subst hc
        rw [hsilent, if_pos rfl]
        exact ⟨rfl, nofun⟩
      · rw [if_neg hc, List.append_nil]
        exact I.opens c
    · intro c
      rw [hd', controls_append_control]
      by_cases hc : d = c
      · intro _
        exact hc ▸ List.mem_cons_self
      · rw [if_neg hc, List.append_nil]
        exact fun h => List.mem_cons_of_mem d (I.greeted c h)
    · intro c hc _
      rw [hd', controls_append_control, if_pos (Option.some.inj (ha.symm.trans hc))]
      exact List.append_ne_nil_of_right_ne_nil _ (List.cons_ne_nil _ _)
    · rw [hd']
      intro p hp hneeds
      rcases List.mem_append.mp hp with hp | hp
      · exact I.ready p hp hneeds
      · rw [List.mem_singleton.mp hp] at hneeds
        cases hneeds

theorem Spoken.accept (I : Spoken t r) (hc : c ∈ r.greeted) :
    Spoken t { r with accepted := c :: r.accepted } :=
  ⟨I.target, I.opens, I.greeted, I.heard,
    fun p hp hneeds => List.mem_cons_of_mem c (I.ready p hp hneeds),
    List.forall_mem_cons.mpr ⟨hc, I.accepted⟩⟩

end Spoken

/-! ### The stages of a connection -/

def connectOf : Block → Option ConnectionId
  | .connect c _ => some c
  | _ => none

/-- The connections that have been asked for and are not ready. -/
def waiting (t : RemoteCamTransport) : List ConnectionId :=
  (if t.opened then [] else t.connection.toList) ++ t.queue.filterMap connectOf

/-- The connections whose `ready` event is not handled, and those that can still have one. -/
def ungreeted (t : RemoteCamTransport) (events : List TransportEvent) : List ConnectionId :=
  events.filterMap TransportEvent.opens ++ waiting t

/-- **The invariant of the events**: a connection waits, has a `ready` event or has been greeted,
and its frames come after the `ready` event. -/
structure Stages (t : RemoteCamTransport) (events : List TransportEvent)
    (greeted : List ConnectionId) : Prop where
  nodup : (greeted ++ ungreeted t events).Nodup
  le : ∀ c ∈ greeted ++ ungreeted t events, c ≤ t.requests
  frames : ∀ c f, .frame c f ∈ events → c ∈ greeted ∨ .ready c ∈ events
  receiving : t.receiving = true → ∀ c ∈ t.connection, c ∈ greeted ∨ .ready c ∈ events

section Stages
variable {t t' : RemoteCamTransport} {events : List TransportEvent} {greeted : List ConnectionId}
  {c : ConnectionId}

theorem Stages.of_sublist (I : Stages t events greeted) (hw : (waiting t').Sublist (waiting t))
    (hreq : t'.requests = t.requests)
    (hrec : t'.receiving = true → ∀ c ∈ t'.connection, t.receiving = true ∧ c ∈ t.connection) :
    Stages t' events greeted := by
  have hsub : (greeted ++ ungreeted t' events).Sublist (greeted ++ ungreeted t events) :=
    (List.Sublist.refl _).append ((List.Sublist.refl _).append hw)
  refine ⟨I.nodup.sublist hsub, fun c hc => ?_, I.frames, fun h c hc => ?_⟩
  · rw [hreq]
    exact I.le c (hsub.subset hc)
  · obtain ⟨hr, hc⟩ := hrec h c hc
    exact I.receiving hr c hc

theorem Stages.of_waiting (I : Stages t events greeted) (hw : waiting t' = waiting t)
    (hreq : t'.requests = t.requests) (hconn : t'.connection = t.connection)
    (hrec : t'.receiving = true → t.receiving = true) : Stages t' events greeted :=
  I.of_sublist (hw ▸ List.Sublist.refl _) hreq fun h _ hc => ⟨hrec h, hconn ▸ hc⟩

theorem Stages.steady (I : Stages t events greeted) (h : Steady t t') : Stages t' events greeted := by
  refine I.of_waiting ?_ h.requests h.connection h.receiving
  unfold waiting
  rw [h.opened, h.connection, h.queue]

theorem Stages.send (I : Stages t events greeted) (content : Content) :
    Stages (t.send content) events greeted := by
  obtain ⟨blocks, reserved, dropped, heq, hblocks⟩ := send_cases t content
  rw [heq]
  refine I.of_waiting ?_ rfl rfl id
  unfold waiting
  dsimp only
  rw [List.filterMap_append]
  rcases hblocks with rfl | ⟨message, rfl⟩ | rfl
  all_goals exact congrArg _ (List.append_nil _)

theorem Stages.cancel (I : Stages t events greeted) : Stages t.cancel events greeted := by
  refine I.of_waiting ?_ rfl rfl id
  show (if t.opened then [] else t.connection.toList) ++
    (t.queue ++ [Block.cancel]).filterMap connectOf = _
  rw [List.filterMap_append]
  exact congrArg _ (List.append_nil _)

theorem Stages.connect (I : Stages t events greeted) (endpoint : NWEndpoint) :
    Stages (t.connect endpoint) events greeted := by
  have hw : waiting (t.connect endpoint) = waiting t ++ [t.requests + 1] := by
    show (if t.opened then [] else t.connection.toList) ++
      (t.queue ++ [Block.connect (t.requests + 1) endpoint]).filterMap connectOf = _
    rw [List.filterMap_append, ← List.append_assoc]
    rfl
  have hall : greeted ++ ungreeted (t.connect endpoint) events =
      (greeted ++ ungreeted t events) ++ [t.requests + 1] := by
    unfold ungreeted
    rw [hw, List.append_assoc, List.append_assoc]
  refine ⟨?_, fun c hc => ?_, I.frames, I.receiving⟩
  · rw [hall]
    refine List.nodup_append.mpr ⟨I.nodup, List.pairwise_singleton _ _, fun c hc d hd => ?_⟩
    rw [List.mem_singleton.mp hd]
    exact Nat.ne_of_lt (Nat.lt_succ_of_le (I.le c hc))
  · rw [hall] at hc
    show c ≤ t.requests + 1
    rcases List.mem_append.mp hc with hc | hc
    · exact Nat.le_succ_of_le (I.le c hc)
    · exact Nat.le_of_eq (List.mem_singleton.mp hc)

/-- The waiting connection becomes ready. -/
theorem Stages.open (I : Stages t events greeted) (hc : t.connection = some c)
    (ho : t.opened = false) :
    Stages { t with opened := true, receiving := true } (events ++ [.ready c]) greeted := by
  have hready : ∀ d, (d ∈ greeted ∨ .ready d ∈ events) →
      d ∈ greeted ∨ .ready d ∈ events ++ [.ready c] :=
    fun d h => h.imp id fun h => List.mem_append_left _ h
  have hall : ungreeted { t with opened := true, receiving := true } (events ++ [.ready c]) =
      ungreeted t events := by
    unfold ungreeted waiting
    rw [List.filterMap_append, hc, ho]
    simp [TransportEvent.opens]
  refine ⟨by rw [hall]; exact I.nodup, by rw [hall]; exact I.le, fun d f h => ?_, ?_⟩
  · rcases List.mem_append.mp h with h | h
    · exact hready d (I.frames d f h)
    · exact absurd (List.mem_singleton.mp h) nofun
  · intro _ d hd
    cases hc.symm.trans hd
    exact .inr (List.mem_append_right _ List.mem_cons_self)

/-- Events that come after the `ready` of their connection. -/
theorem Stages.emit {new : List TransportEvent} (I : Stages t events greeted)
    (hnew : ∀ e ∈ new, Follows t e) : Stages t (events ++ new) greeted := by
  have hnone : new.filterMap TransportEvent.opens = [] := by
    refine List.filterMap_eq_nil_iff.mpr fun e he => ?_
    have := hnew e he
    cases e with
    | ready => exact absurd this id
    | _ => rfl
  have hall : ungreeted t (events ++ new) = ungreeted t events := by
    unfold ungreeted
    rw [List.filterMap_append, hnone, List.append_nil]
  have hready : ∀ d, (d ∈ greeted ∨ .ready d ∈ events) →
      d ∈ greeted ∨ .ready d ∈ events ++ new :=
    fun d h => h.imp id fun h => List.mem_append_left _ h
  refine ⟨by rw [hall]; exact I.nodup, by rw [hall]; exact I.le, fun c f h => ?_,
    fun h c hc => hready c (I.receiving h c hc)⟩
  rcases List.mem_append.mp h with h | h
  · exact hready c (I.frames c f h)
  · obtain ⟨hc, hr⟩ := hnew _ h
    exact hready c (I.receiving hr c hc)

theorem Stages.dequeue (I : Stages t events greeted) :
    Stages t.dequeue.1 (events ++ t.dequeue.2) greeted := by
  unfold RemoteCamTransport.dequeue
  split
  · rw [List.append_nil]
    exact I
  · next block queue hqueue =>
    have hother : connectOf block = none → Stages { t with queue } events greeted := by
      intro hb
      refine I.of_waiting ?_ rfl rfl id
      unfold waiting
      rw [hqueue, List.filterMap_cons_none hb]
    cases block with
    | connect d endpoint =>
      show Stages _ (events ++ []) greeted
      rw [List.append_nil]
      refine I.of_sublist ?_ rfl nofun
      unfold waiting
      rw [hqueue]
      exact List.sublist_append_right _ _
    | cancel =>
      show Stages _ (events ++ []) greeted
      rw [List.append_nil]
      refine (hother rfl).of_sublist ?_ rfl fun _ _ h => nomatch h
      show ((if t.opened then [] else none.toList) ++ queue.filterMap connectOf).Sublist _
      rw [Option.toList_none, ite_self]
      exact List.sublist_append_right _ _
    | reportFailure message =>
      exact ((hother rfl).emit follows_reportFailure).steady (steady_reportFailure _ message)
    | send content =>
      unfold RemoteCamTransport.execute
      dsimp only
      split
      · rw [List.append_nil]
        exact (hother rfl).steady (steady_release _ content)
      · rw [List.append_nil]
        exact (hother rfl).of_waiting rfl rfl rfl id

/-- A task is taken from the events. -/
theorem ungreeted_perm {i : ℕ} (hi : i < events.length) :
    (ungreeted t events).Perm
      ((events[i].opens).toList ++ ungreeted t (events.eraseIdx i)) := by
  have hperm := ((List.getElem_cons_eraseIdx_perm hi).filterMap TransportEvent.opens).symm
  have hcons : (events[i] :: events.eraseIdx i).filterMap TransportEvent.opens =
      (events[i].opens).toList ++ (events.eraseIdx i).filterMap TransportEvent.opens := by
    cases h : events[i].opens <;> simp [h]
  unfold ungreeted
  rw [← List.append_assoc, ← hcons]
  exact hperm.append_right _

theorem mem_of_eraseIdx {i : ℕ} {e : TransportEvent} (hi : i < events.length)
    (he : e ∈ events) : e = events[i] ∨ e ∈ events.eraseIdx i :=
  List.mem_cons.mp ((List.getElem_cons_eraseIdx_perm hi).mem_iff.mpr he)

/-- The `ready` event of a connection is handled. -/
theorem Stages.greet {i : ℕ} (I : Stages t events greeted) (hi : i < events.length)
    (he : events[i] = .ready c) :
    c ∉ greeted ∧ Stages t (events.eraseIdx i) (c :: greeted) := by
  have hperm : (greeted ++ ungreeted t events).Perm
      (c :: greeted ++ ungreeted t (events.eraseIdx i)) := by
    have h := (ungreeted_perm (t := t) hi).append_left greeted
    rw [he] at h
    exact h.trans List.perm_middle
  have hnodup := hperm.nodup_iff.mp I.nodup
  have hready : ∀ d, (d ∈ greeted ∨ .ready d ∈ events) →
      d ∈ c :: greeted ∨ .ready d ∈ events.eraseIdx i := by
    rintro d (h | h)
    · exact .inl (List.mem_cons_of_mem c h)
    · rcases mem_of_eraseIdx hi h with h | h
      · cases h.trans he
        exact .inl List.mem_cons_self
      · exact .inr h
  refine ⟨fun hc => ?_, hnodup, fun d hd => I.le d (hperm.mem_iff.mpr hd),
    fun d f h => hready d (I.frames d f (List.mem_of_mem_eraseIdx h)),
    fun h d hd => hready d (I.receiving h d hd)⟩
  exact (List.nodup_cons.mp hnodup).1 (List.mem_append_left _ hc)

/-- Another event is handled. -/
theorem Stages.erase {i : ℕ} (I : Stages t events greeted) (hi : i < events.length)
    (he : events[i].opens = none) : Stages t (events.eraseIdx i) greeted := by
  have hperm : (greeted ++ ungreeted t events).Perm
      (greeted ++ ungreeted t (events.eraseIdx i)) := by
    have h := (ungreeted_perm (t := t) hi).append_left greeted
    rw [he] at h
    exact h
  have hready : ∀ d, (d ∈ greeted ∨ .ready d ∈ events) →
      d ∈ greeted ∨ .ready d ∈ events.eraseIdx i := by
    rintro d (h | h)
    · exact .inl h
    · rcases mem_of_eraseIdx hi h with h | h
      · rw [← h] at he
        cases he
      · exact .inr h
  exact ⟨hperm.nodup_iff.mp I.nodup, fun d hd => I.le d (hperm.mem_iff.mpr hd),
    fun d f h => hready d (I.frames d f (List.mem_of_mem_eraseIdx h)),
    fun h d hd => hready d (I.receiving h d hd)⟩

end Stages

/-! ### One step -/

/-- **The invariant.** The video is held back until `ready` is accepted, and while a reconnect is
scheduled. -/
structure Greeting (s : Client) : Prop where
  stages : Stages s.transport s.events s.record.greeted
  spoken : Spoken s.transport s.record
  held : s.session.videoSuspended = false → Admitted s ∧ s.session.reconnectTask = none

section Step
variable {s s' : Client}

theorem Greeting.of_quiet (I : Greeting s) (h : Quiet s s') : Greeting s' := by
  refine ⟨?_, ?_, fun hv => ?_⟩
  · rw [h.transport, h.events, h.record]
    exact I.stages
  · rw [h.transport, h.record]
    exact I.spoken
  · have hv' : s.session.videoSuspended = false := by
      by_contra hne
      have hsuspended := h.suspended (by simpa using hne)
      exact absurd (hsuspended.symm.trans hv) nofun
    obtain ⟨hadmitted, htask⟩ := I.held hv'
    refine ⟨?_, h.reconnectTask htask⟩
    unfold Admitted
    rw [h.transport, h.record]
    exact hadmitted

theorem send_asked (t : RemoteCamTransport) (content : Content) :
    (t.send content).asked = t.asked := by
  obtain ⟨_, _, _, heq, -⟩ := send_cases t content
  rw [heq]

/-- The moves of the app ask for no connection. -/
theorem admitted_of_moves {speaks lifts : Prop} (h : Moves speaks lifts s s') (hs : Admitted s) :
    Admitted s' := by
  have hsend : ∀ {s : Client} {content : Content}, Admitted s →
      Admitted { s with transport := s.transport.send content } := by
    intro s content hs c hc
    exact hs c ((send_asked s.transport content) ▸ hc)
  induction h with
  | quiet h =>
    unfold Admitted
    rw [h.transport, h.record]
    exact hs
  | say => exact hsend hs
  | lift => exact hs
  | video => exact hsend hs
  | cancel => exact nofun
  | trans _ _ ih ih' => exact ih' (ih hs)

/-- They schedule no reconnect. -/
theorem reconnectTask_of_moves {speaks lifts : Prop} (h : Moves speaks lifts s s')
    (hs : s.session.reconnectTask = none) : s'.session.reconnectTask = none := by
  induction h with
  | quiet h => exact h.reconnectTask hs
  | trans _ _ ih ih' => exact ih' (ih hs)
  | _ => exact hs

theorem Greeting.of_moves {speaks lifts : Prop} (I : Greeting s) (h : Moves speaks lifts s s')
    (hs : speaks → Admitted s) (hl : lifts → Admitted s ∧ s.session.reconnectTask = none) :
    Greeting s' := by
  have hsend : ∀ {s : Client} {content : Content}, Greeting s → Admitted s →
      (∀ allow, content ≠ .control (.hello allow)) →
        Greeting { s with transport := s.transport.send content } := by
    intro s content I hadmitted hcontent
    refine ⟨I.stages.send content, I.spoken.send hadmitted hcontent, fun hv => ⟨?_, (I.held hv).2⟩⟩
    intro c hc
    exact hadmitted c ((send_asked s.transport content) ▸ hc)
  induction h with
  | quiet h => exact I.of_quiet h
  | say s message hspeaks hm =>
    exact hsend I (hs hspeaks) fun allow h => hm allow (Content.control.inj h)
  | lift s hlifts => exact ⟨I.stages, I.spoken, fun _ => hl hlifts⟩
  | video s unit hv => exact hsend I (I.held hv).1 nofun
  | cancel s => exact ⟨I.stages.cancel, I.spoken.cancel, fun hv => ⟨nofun, (I.held hv).2⟩⟩
  | trans h _ ih ih' =>
    exact ih' (ih I hs hl) (fun hspeaks => admitted_of_moves h (hs hspeaks)) fun hlifts =>
      ⟨admitted_of_moves h (hl hlifts).1, reconnectTask_of_moves h (hl hlifts).2⟩

theorem Greeting.of_renews (I : Greeting s) (h : Renews s s') : Greeting s' := by
  obtain ⟨endpoint, htransport⟩ := h.transport
  have hnew : s.transport.requests + 1 ∉ s.record.greeted := by
    intro hc
    have hle := I.stages.le _ (List.mem_append_left _ hc)
    exact absurd hle (Nat.not_succ_le_self _)
  refine ⟨?_, ?_, fun hv => ?_⟩
  · rw [htransport, h.events, h.record]
    exact I.stages.connect endpoint
  · rw [htransport, h.record]
    exact I.spoken.connect endpoint hnew
  · obtain ⟨hv, htask⟩ := h.suspended hv
    exact absurd (I.held hv).2 htask

theorem Greeting.scheduleReconnect (I : Greeting s) (lastError : String) :
    Greeting (scheduleReconnect s lastError) := by
  obtain h | ⟨s₁, task, h, hv, heq⟩ := quiet_scheduleReconnect s lastError
  · exact I.of_quiet h
  · rw [heq]
    have I' := I.of_quiet h
    exact ⟨I'.stages, I'.spoken, fun hv' => absurd (hv.symm.trans hv') nofun⟩

/-- The transport goes on by itself. -/
theorem Greeting.emit {p : RemoteCamTransport × List TransportEvent} (I : Greeting s)
    (hstages : Stages p.1 (s.events ++ p.2) s.record.greeted)
    (hd : drained p.1 = drained s.transport) (ha : p.1.asked = s.transport.asked) :
    Greeting (s.emit p) := by
  refine ⟨hstages, I.spoken.of_eq hd ha, fun hv => ⟨fun c hc => ?_, (I.held hv).2⟩⟩
  exact (I.held hv).1 c (ha ▸ hc)

theorem greeting_greet {i : ℕ} {c : ConnectionId} (I : Greeting s) (hi : i < s.events.length)
    (he : s.events[i] = .ready c) (hasked : ∀ d ∈ s.transport.asked, d = c) :
    Greeting (RemoteCamSession.handle { s with events := s.events.eraseIdx i } (.ready c)) := by
  obtain ⟨hnew, hstages⟩ := I.stages.greet hi he
  let hello := Content.control (.hello s.session.allowsUnauthenticatedConnections)
  have hstages' : Stages (s.transport.send hello) (s.events.eraseIdx i) (c :: s.record.greeted) :=
    hstages.send hello
  exact ⟨hstages', I.spoken.hello hasked hnew, I.held⟩

theorem Greeting.handleMessage {c : ConnectionId} {message : PeerMessage} (I : Greeting s)
    (hready : ∀ fields, message = .ready fields → accepts s fields → c ∈ s.record.greeted)
    (hformat : ∀ g fields, message = .setFormat (some g) fields → s.session.isTrusted →
      s.app.lastFormatGeneration < g → configurationFrom fields = none → Admitted s) :
    Greeting (handleMessage s c message) := by
  have happ : Greeting (if s.session.isTrusted then AppModel.handle s message else s) := by
    split
    · next ht =>
      refine I.of_moves (@moves_handleApp (Admitted s) False s message ?_) id False.elim
      exact fun g fields hm hlt hnone => hformat g fields hm ht hlt hnone
    · exact I
  cases message with
  | serverInfo allow paired =>
    have I' : Greeting (negotiate s c allow) :=
      ⟨I.stages, ⟨I.spoken.target, I.spoken.opens, I.spoken.greeted, I.spoken.heard,
        I.spoken.ready, I.spoken.accepted⟩, I.held⟩
    exact I'.of_quiet (quiet_handleServerInfo s c allow paired)
  | pairRequired =>
    unfold Session.handleMessage
    dsimp only
    split
    · exact I.of_quiet (quiet_updatePhase _ _)
    · exact I
  | ready fields =>
    obtain ⟨haccepts, hquiet⟩ | hmoves :=
      @handleReady_cases False False s c fields
    · have hgreeted := hready fields rfl haccepts
      have I' : Greeting { s with record.accepted := c :: s.record.accepted } := by
        refine ⟨I.stages, I.spoken.accept hgreeted, fun hv => ⟨fun d hd => ?_, (I.held hv).2⟩⟩
        exact List.mem_cons_of_mem c ((I.held hv).1 d hd)
      exact I'.of_quiet hquiet
    · exact I.of_moves hmoves False.elim False.elim
  | _ => exact happ

end Step

theorem greeting_start (allows : Bool) : Greeting (Client.start allows) := by
  refine ⟨⟨List.nodup_nil, nofun, nofun, nofun⟩, ⟨rfl, fun _ => trivial, ?_, nofun, nofun, nofun⟩,
    nofun⟩
  exact fun c h => absurd rfl h

theorem greeting_handle {s : Client} {i : ℕ} (I : Greeting s) (hi : i < s.events.length)
    (hc : EventInOrder s s.events[i]) :
    Greeting (RemoteCamSession.handle { s with events := s.events.eraseIdx i } s.events[i]) := by
  have hmem : s.events[i] ∈ s.events := List.getElem_mem hi
  have hrest : s.events[i].opens = none → Greeting { s with events := s.events.eraseIdx i } :=
    fun h => ⟨I.stages.erase hi h, I.spoken, I.held⟩
  cases he : s.events[i] with
  | ready c => exact greeting_greet I hi he (hc.opens c (by rw [he]; rfl))
  | failed message => exact (hrest (by rw [he]; rfl)).scheduleReconnect _
  | cancelled =>
    have I' := hrest (by rw [he]; rfl)
    unfold RemoteCamSession.handle
    dsimp only
    split
    · exact I'
    · exact I'.scheduleReconnect _
  | frame c frame =>
    have I' := hrest (by rw [he]; rfl)
    rw [he] at hc hmem
    cases frame with
    | ignored => exact I'
    | message message =>
      refine I'.handleMessage ?_ ?_
      · rintro fields rfl haccepts
        exact (I.stages.frames c _ hmem).resolve_right (hc.ready (c, fields) rfl haccepts)
      · rintro g fields rfl
        exact hc.setFormat (g, fields) rfl

theorem greeting_next {s : Client} {a : Action} (I : Greeting s) (ha : phone.enabled s a)
    (hc : InOrder s a) : Greeting (phone.next s a) := by
  cases a with
  | connect host discovered =>
    exact (connect_cases s host discovered).elim I.of_quiet I.of_renews
  | disconnect => exact I.of_moves (moves_appDisconnect s) False.elim False.elim
  | setAllowsUnauthenticated allows => exact I.of_quiet (quiet_app s _ _)
  | reconnect => exact I.of_renews (renews_reconnect ha)
  | dequeue =>
    exact I.emit I.stages.dequeue (drained_dequeue _) (dequeue_spec _).2
  | network callback =>
    show Greeting (next s (.network callback))
    obtain ⟨c, hconn, ⟨ho, heq⟩ | ⟨p, heq, hsteady, hfollows⟩⟩ := network_cases ha
    · rw [heq]
      exact I.emit (I.stages.open hconn ho) rfl rfl
    · rw [heq]
      exact I.emit ((I.stages.emit hfollows).steady hsteady) (drained_of_steady hsteady)
        hsteady.asked
  | processed i error =>
    obtain ⟨p, heq, hsteady, hfollows⟩ := processed_cases ha error
    show Greeting (next s (.processed i error))
    rw [heq]
    exact I.emit ((I.stages.emit hfollows).steady hsteady) (drained_of_steady hsteady)
      hsteady.asked
  | handle i =>
    show Greeting (next s (.handle i))
    rw [next_handle ha]
    exact greeting_handle I ha (hc.event _ (List.getElem?_eq_getElem ha))
  | run i outcome restored =>
    obtain ⟨hspeaks, hlifts⟩ := hc.task (s.tasks[i], outcome)
      (congrArg (Option.map (·, outcome)) (List.getElem?_eq_getElem ha))
    show Greeting (next s (.run i outcome restored))
    rw [next_run ha]
    refine (I.of_quiet (quiet_app s s.app _)).of_moves (moves_resume _ _ _ _) hspeaks fun h => ?_
    exact ⟨hspeaks (speaks_of_lifts h), hlifts h⟩
  | telemetry snapshot =>
    have hmoves := @moves_sendTelemetry (Admitted s) False { s with app.snapshot := snapshot }
      snapshot false (hc.telemetry snapshot rfl)
    exact (I.of_quiet (quiet_app s _ s.tasks)).of_moves hmoves id False.elim
  | updateCamera => exact I.of_quiet (quiet_await _ _)
  | encode unit => exact I.of_quiet (quiet_await _ _)
  | encoderError message => exact I.of_quiet (quiet_app s _ _)

/-! ### Runs -/

/-- **`hello` comes first.** In every run whose steps are in order, each connection is submitted one
`hello`, before any other control message, and what needs `ready` only after it was accepted. -/
theorem helloFirst_of_run (allows : Bool) (as : List Action)
    (h : phone.Legal InOrder (.start allows) as) :
    HelloFirst (phone.exec (.start allows) as) := by
  have I : Greeting (phone.exec (.start allows) as) :=
    h.invariant (greeting_start allows) fun _ _ I ha hc => greeting_next I ha hc
  have hinitial := submitted_initial (phone.exec (.start allows) as).transport
  refine ⟨fun c => ?_, fun p hp => I.spoken.ready p (hinitial.subset hp)⟩
  exact (I.spoken.opens c).initial (hinitial.filterMap _)

/-- Telemetry and a unit on a live connection, then a reconnect that is greeted and admitted before
the app says more. -/
def orderlySession : List Action :=
  opening "10.0.0.2" ++ agreement ++ goLive ++
    [.telemetry { orientationDegrees := 90 }, .dequeue, .encode ⟨[1, 2, 3], true, 0⟩, .run 0 .ok .ok,
      .dequeue] ++
    reconnection ++ [.dequeue, .network .ready, .handle 0, .dequeue] ++ agreement ++ goLive

theorem helloFirst_of_orderlySession :
    phone.Legal InOrder (.start true) orderlySession ∧
      HelloFirst (phone.exec (.start true) orderlySession) := by
  have hlegal : phone.Legal InOrder (.start true) orderlySession := by decide
  exact ⟨hlegal, helloFirst_of_run true orderlySession hlegal⟩

/-- The phone turns after a reconnect has begun and before the connection is ready. -/
def earlyTelemetry : List Action :=
  opening "10.0.0.2" ++ agreement ++ goLive ++ reconnection ++
    [.telemetry { orientationDegrees := 90 }, .dequeue, .dequeue]

theorem not_helloFirst_of_earlyTelemetry :
    ∃ as, phone.Legal (fun _ _ => True) (.start true) as ∧
      ¬ HelloFirst (phone.exec (.start true) as) :=
  ⟨earlyTelemetry, by decide, fun h =>
    absurd (h.ready (2, .control (.orientation 90)) (by decide) rfl) (by decide)⟩

end RemoteCam.Phone.Hello
