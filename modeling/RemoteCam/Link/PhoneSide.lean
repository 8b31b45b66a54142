import RemoteCam.Link.System

/-! # The phone's side of the connection

What a step of the phone means to the PC: what it says, which message of the PC it handles, which
part of a start or of a change runs, and what becomes of the encoder. -/

namespace RemoteCam.Link.PhoneSide

open RemoteCam.Phone.Transport RemoteCam.Phone.Session RemoteCam.Phone.Effects
open RemoteCam.Phone.Streaming RemoteCam.Phone.Parts
open RemoteCam.Phone.Keyframes (unitOf encoderCalled)
open RemoteCam.Phone.Hello (settle drained drained_enqueue drained_dequeue drained_of_steady)
open RemoteCam.Link.System (smooth fails)

variable {s : Client} {encoder : Option StreamConfiguration}

/-! ### What a step comes to -/

/-- What a step that receives nothing leaves of the view and of the encoder. -/
inductive Turn (s : Client) (encoder : Option StreamConfiguration) :
    Action → View → Option StreamConfiguration → Prop
  | reports {a : Action} {said : List ControlMessage} (hsaid : ∀ m ∈ said, isReport m = true) :
      Turn s encoder a ((view s).tell said) encoder
  | sends {a : Action} {unit : EncodedAccessUnit} (hunit : unitOf s a = some unit)
      (hlive : s.session.videoSuspended = false) :
      Turn s encoder a { view s with line := settle (view s).line (.send (.video unit)) } encoder
  | ends {a : Action} {v : View} {encoder' : Option StreamConfiguration}
      (hends : (view s).Ends v) : Turn s encoder a v encoder'
  | handles {a : Action} {before after : List PeerMessage} {message : PeerMessage} {v : View}
      (hmessages : (view s).messages = before ++ message :: after)
      (hhandled : Handled message { view s with messages := before ++ after } v) :
      Turn s encoder a v encoder
  | works {a : Action} {before after : List AppTask} {task : AppTask} {outcome restored : Outcome}
      {s₁ : Client} (hjobs : (view s).jobs = before ++ task :: after)
      (hview : view s₁ = { view s with jobs := before ++ after }) :
      Turn s encoder a (view (resume s₁ outcome restored task))
        (encoderAfter s₁ encoder outcome restored task)

theorem turn_quiet {a : Action} {v : View} (h : v = view s) : Turn s encoder a v encoder := by
  subst h
  exact @Turn.reports s encoder a [] nofun

/-- An element is taken out of a list. -/
theorem split_eraseIdx {α : Type} {l : List α} {i : ℕ} (hi : i < l.length) :
    ∃ before after, l = before ++ l[i] :: after ∧ l.eraseIdx i = before ++ after :=
  ⟨l.take i, l.drop (i + 1), by rw [← List.drop_eq_getElem_cons hi, List.take_append_drop],
    List.eraseIdx_eq_take_drop_succ ..⟩

/-! ### The transport -/

theorem view_emit {p : RemoteCamTransport × List TransportEvent}
    (h : drained p.1 = drained s.transport) :
    view (s.emit p) = { view s with
      messages := (view s).messages ++ p.2.filterMap TransportEvent.message } := by
  unfold view Client.emit
  dsimp only
  rw [h, List.filterMap_append]

/-- Blocks of the queue report no message. -/
theorem silent_dequeue (t : RemoteCamTransport) :
    t.dequeue.2.filterMap TransportEvent.message = [] := by
  unfold RemoteCamTransport.dequeue
  split
  · rfl
  · next block queue hqueue =>
    cases block with
    | reportFailure message =>
      unfold RemoteCamTransport.execute RemoteCamTransport.reportFailure
      dsimp only
      split_ifs <;> rfl
    | send content =>
      unfold RemoteCamTransport.execute
      dsimp only
      split <;> rfl
    | _ => rfl

theorem turn_dequeue : Turn s encoder .dequeue (view (next s .dequeue)) encoder := by
  refine turn_quiet ?_
  rw [next, view_emit (drained_dequeue _), silent_dequeue, List.append_nil]

theorem next_network {callback : RemoteCamTransport.Callback} {c : ConnectionId}
    (hc : s.transport.connection = some c) :
    next s (.network callback) = s.emit (s.transport.callback c callback) := by
  unfold next
  dsimp only
  rw [hc]

theorem turn_ready (he : s.transport.expects .ready) :
    Turn s encoder (.network .ready) (view (next s (.network .ready))) encoder := by
  obtain ⟨c, hc, -⟩ := network_cases he
  have hdrained : drained { s.transport with opened := true, receiving := true } =
      drained s.transport := rfl
  have hview := @view_emit s
    ({ s.transport with opened := true, receiving := true }, [.ready c]) hdrained
  rw [show [TransportEvent.ready c].filterMap TransportEvent.message = [] from rfl,
    List.append_nil] at hview
  rw [next_network hc]
  exact turn_quiet hview

/-- What arrives is to be handled. -/
theorem view_received {messages : List PeerMessage}
    (he : s.transport.expects (.received (.data (messages.map .message)))) :
    view (next s (.network (.received (.data (messages.map .message))))) =
      { view s with messages := (view s).messages ++ messages } := by
  obtain ⟨c, hc, -⟩ := network_cases he
  have hmessages : ((messages.map PeerFrame.message).map (TransportEvent.frame c)).filterMap
      TransportEvent.message = messages := by
    rw [List.map_map, List.filterMap_map]
    exact List.filterMap_some
  have hview := @view_emit s
    (s.transport, (messages.map PeerFrame.message).map (TransportEvent.frame c)) rfl
  rw [hmessages] at hview
  rw [next_network hc]
  exact hview

theorem turn_processed {i : ℕ} (hi : i < s.transport.unprocessed.length) :
    Turn s encoder (.processed i none) (view (next s (.processed i none))) encoder := by
  refine turn_quiet ?_
  unfold next
  dsimp only
  rw [List.getElem?_eq_getElem hi]
  let t := { s.transport with unprocessed := s.transport.unprocessed.eraseIdx i }
  have hleft : Steady s.transport t := ⟨rfl, rfl, rfl, rfl, rfl, rfl, id⟩
  have hsteady := hleft.trans (steady_release t s.transport.unprocessed[i].2)
  exact (view_emit (drained_of_steady hsteady)).trans (by simp [RemoteCamTransport.processed])

/-! ### Events -/

theorem view_eraseEvent {i : ℕ} (hi : i < s.events.length) :
    ∃ before after,
      (view s).messages = before ++ (TransportEvent.message s.events[i]).toList ++ after ∧
      view { s with events := s.events.eraseIdx i } =
        { view s with messages := before ++ after } := by
  obtain ⟨before, after, hevents, herased⟩ := split_eraseIdx hi
  refine ⟨before.filterMap TransportEvent.message, after.filterMap TransportEvent.message, ?_, ?_⟩
  · unfold view
    dsimp only
    conv_lhs => rw [hevents]
    rw [List.filterMap_append, List.filterMap_cons]
    cases TransportEvent.message s.events[i] <;> simp
  · unfold view
    dsimp only
    rw [herased, List.filterMap_append]

/-- A `ready` that is not accepted ends the connection. -/
theorem ends_handleReady {connection : ConnectionId} {fields : Option StreamConfiguration}
    (h : ¬ accepts s fields) : (view s).Ends (view (handleReady s connection fields)) := by
  unfold handleReady
  split
  · exact ends_cancel _ _
  · next htrusted =>
    split
    · next configuration host hf hh =>
      exact absurd ⟨by simpa using htrusted, by rw [hf]; rfl, by rw [hh]; rfl⟩ h
    · exact ends_cancel _ _

theorem turn_handle {i : ℕ} (hi : i < s.events.length)
    (hsmooth : smooth s (.phone (.handle i))) :
    Turn s encoder (.handle i) (view (next s (.handle i)))
      ((encoderCalled s (.handle i)).getD encoder) := by
  have hget : s.events[i]? = some s.events[i] := List.getElem?_eq_getElem hi
  have hevent : fails s.events[i] = false := hsmooth _ hget
  have hcalled : encoderCalled s (.handle i) =
      if endsCapture s s.events[i] then some none else none := by
    unfold encoderCalled
    dsimp only
    rw [hget]
    rfl
  rw [next_handle hi, hcalled]
  obtain ⟨before, after, hmessages, herased⟩ := view_eraseEvent hi
  cases hkind : s.events[i] with
  | failed message => rw [hkind] at hevent; cases hevent
  | cancelled => rw [hkind] at hevent; cases hevent
  | ready c =>
    rw [hkind] at hmessages
    have hsame : view { s with events := s.events.eraseIdx i } = view s := by
      rw [herased, ← show (view s).messages = before ++ after by
        simpa [TransportEvent.message] using hmessages]
    have hreports := @Turn.reports s encoder (.handle i)
      [.hello s.session.allowsUnauthenticatedConnections] (by simp [isReport, isAnswer])
    rw [← hsame] at hreports
    unfold RemoteCamSession.handle
    dsimp only
    rw [view_sendControl]
    exact hreports
  | frame c peerFrame =>
    rw [hkind] at hmessages
    cases peerFrame with
    | ignored =>
      refine turn_quiet ?_
      change view { s with events := s.events.eraseIdx i } = view s
      rw [herased, ← show (view s).messages = before ++ after by
        simpa [TransportEvent.message] using hmessages]
    | message message =>
      have hmessages' : (view s).messages = before ++ message :: after := by
        simpa [TransportEvent.message] using hmessages
      have hhandled := @handled_message { s with events := s.events.eraseIdx i } c message
      rw [herased] at hhandled
      have hhandles := @Turn.handles s encoder (.handle i) before after message _ hmessages'
        hhandled
      cases message with
      | ready fields =>
        by_cases haccepts : accepts s fields
        · rw [endsCapture, decide_eq_true haccepts]
          exact hhandles
        · exact .ends (@ends_handleReady { s with events := s.events.eraseIdx i } c fields haccepts)
      | _ => exact hhandles

/-! ### Tasks -/

theorem view_eraseTask {i : ℕ} (hi : i < s.tasks.length) :
    ∃ before after,
      (view s).jobs = before ++ (if AppTask.works s.tasks[i] then [s.tasks[i]] else []) ++ after ∧
      view { s with tasks := s.tasks.eraseIdx i } = { view s with jobs := before ++ after } := by
  obtain ⟨before, after, htasks, herased⟩ := split_eraseIdx hi
  refine ⟨before.filter AppTask.works, after.filter AppTask.works, ?_, ?_⟩
  · unfold view
    dsimp only
    conv_lhs => rw [htasks]
    rw [List.filter_append, List.filter_cons]
    split_ifs <;> simp
  · unfold view
    dsimp only
    rw [herased, List.filter_append]

theorem turn_run {i : ℕ} {outcome restored : Outcome} (hi : i < s.tasks.length) :
    Turn s encoder (.run i outcome restored) (view (next s (.run i outcome restored)))
      ((encoderCalled s (.run i outcome restored)).getD encoder) := by
  have hget : s.tasks[i]? = some s.tasks[i] := List.getElem?_eq_getElem hi
  have hcalled : encoderCalled s (.run i outcome restored) =
      encoderCall s outcome restored s.tasks[i] := by
    unfold encoderCalled
    dsimp only
    rw [hget]
    rfl
  have hunit : unitOf s (.run i outcome restored) = Phone.Keyframes.AppTask.unit s.tasks[i] := by
    unfold unitOf
    dsimp only
    rw [hget]
    rfl
  rw [next_run hi, hcalled]
  obtain ⟨before, after, hjobs, herased⟩ := view_eraseTask hi
  let s₁ : Client := { s with tasks := s.tasks.eraseIdx i }
  by_cases hworks : AppTask.works s.tasks[i] = true
  · rw [if_pos hworks, List.append_assoc] at hjobs
    have hsame : encoderAfter s₁ encoder outcome restored s.tasks[i] =
        (encoderCall s outcome restored s.tasks[i]).getD encoder := encoderAfter_eq s₁ _ _ _ _
    rw [← hsame]
    exact .works hjobs herased
  · rw [if_neg hworks, List.append_nil] at hjobs
    have hsame : view s₁ = view s := by rw [herased, ← hjobs]
    cases htask : s.tasks[i] with
    | accessUnit unit =>
      rw [htask] at hunit
      change Turn s encoder _ (view (sendVideo s₁ unit)) encoder
      unfold sendVideo
      split_ifs with hsuspended
      · exact turn_quiet hsame
      · have hlive : s.session.videoSuspended = false := Bool.eq_false_iff.mpr hsuspended
        rcases @view_send s₁ (.video unit) with hview | hview
        · exact turn_quiet (hview.trans hsame)
        · rw [hview, hsame]
          exact .sends hunit hlive
    | cameraUpdate =>
      change Turn s encoder _ (view (resume s₁ outcome restored .cameraUpdate)) encoder
      unfold resume
      cases outcome with
      | ok =>
        dsimp only
        rw [view_sendControl, hsame]
        exact .reports (by simp [isReport, isAnswer])
      | error error => exact turn_quiet hsame
    | _ =>
      rw [htask] at hworks
      exact absurd rfl hworks

/-- The step receives something. -/
def receives : Action → Bool
  | .network (.received _) => true
  | _ => false

/-- **The inversion of a step of the phone** that receives nothing. -/
theorem turn {a : Action} (he : Phone.Session.enabled s a) (hsmooth : smooth s (.phone a))
    (hreceives : receives a = false) :
    Turn s encoder a (view (next s a)) ((encoderCalled s a).getD encoder) := by
  cases a with
  | connect host discovered => exact absurd hsmooth not_false
  | reconnect => exact absurd hsmooth not_false
  | disconnect => exact .ends (ends_disconnect (s := _))
  | setAllowsUnauthenticated allows => exact turn_quiet rfl
  | dequeue => exact turn_dequeue
  | network callback =>
    cases callback with
    | ready => exact turn_ready he
    | failed message => exact absurd hsmooth not_false
    | cancelled => exact absurd hsmooth not_false
    | received receipt => cases hreceives
  | processed i error =>
    obtain rfl : error = none := hsmooth
    exact turn_processed he
  | handle i => exact turn_handle he hsmooth
  | run i outcome restored => exact turn_run he
  | telemetry snapshot =>
    obtain ⟨said, hsaid, hview⟩ :=
      @view_sendTelemetry { s with app.snapshot := snapshot } snapshot false
    change Turn s encoder _
      (view (sendTelemetry { s with app.snapshot := snapshot } snapshot false)) encoder
    rw [hview]
    exact .reports hsaid
  | updateCamera => exact turn_quiet (view_await_other rfl)
  | encode unit => exact turn_quiet (view_await_other rfl)
  | encoderError message => exact turn_quiet rfl

/-! ### What has been said -/

theorem settle_initial (line : Option ConnectionId × List (ConnectionId × Content))
    (content : Content) : line.2 <+: (settle line (.send content)).2 := List.prefix_append _ _

theorem tell_initial {v : View} (said : List ControlMessage) :
    v.line.2 <+: (v.tell said).line.2 := by
  unfold View.tell
  dsimp only
  generalize v.line = line
  induction said generalizing line with
  | nil => exact List.prefix_rfl
  | cons message said ih => exact (settle_initial line _).trans (ih _)

theorem initial_of_does {adds : AppTask → Prop} {lifts : Prop} {s s' : Client}
    (h : Does adds lifts s s') : (drained s.transport).2 <+: (drained s'.transport).2 := by
  induction h with
  | quiet ht hk hv => exact ht ▸ List.prefix_rfl
  | say s message =>
    have hd : drained (sendControl s message).transport =
        settle (drained s.transport) (.send (.control message)) := drained_enqueue _ _
    rw [hd]
    exact settle_initial _ _
  | cancel s =>
    have hd : drained s.transport.cancel = (none, (drained s.transport).2) := drained_enqueue _ _
    exact hd ▸ List.prefix_rfl
  | await s task h => exact List.prefix_rfl
  | lift s h => exact List.prefix_rfl
  | trans h h' ih ih' => exact ih.trans ih'

theorem works_of_job {before after : List AppTask} {task : AppTask}
    (hjobs : (view s).jobs = before ++ task :: after) : AppTask.works task = true := by
  have hmem : task ∈ (view s).jobs := by
    rw [hjobs]
    exact List.mem_append_right _ List.mem_cons_self
  exact (List.mem_filter.mp hmem).2

/-- **What has been said stays said.** -/
theorem Turn.initial {a : Action} {v : View} {encoder' : Option StreamConfiguration}
    (h : Turn s encoder a v encoder') : (view s).line.2 <+: v.line.2 := by
  have hends {v : View} (h : (view s).Ends v) : (view s).line.2 <+: v.line.2 := by
    have hline : v.line = (none, (view s).line.2) := h
    exact congrArg Prod.snd hline ▸ List.prefix_rfl
  cases h with
  | reports hsaid => exact tell_initial _
  | sends hunit hlive => exact settle_initial _ _
  | ends h => exact hends h
  | handles hmessages hhandled =>
    cases hhandled with
    | ends h => exact hends h
    | keeps => exact List.prefix_rfl
    | starts hmessage => exact List.prefix_rfl
    | refuses hmessage => exact tell_initial _
    | changes hmessage => exact List.prefix_rfl
  | @works before after task outcome restored s₁ hjobs hview =>
    have hworks := works_of_job hjobs
    have hdoes := does_resume (s := s₁) outcome restored task (by rintro unit rfl; cases hworks)
    have hline : (view s₁).line = (view s).line := by rw [hview]
    rw [← hline]
    exact initial_of_does hdoes

/-! ### After the end -/

theorem tell_over {v : View} {said : List ControlMessage} (h : v.line.1 = none) :
    (v.tell said).line = v.line := by
  unfold View.tell
  dsimp only
  induction said with
  | nil => rfl
  | cons message said ih =>
    have hsettle : settle v.line (.send (.control message)) = v.line := by
      unfold settle
      rw [h]
      exact Prod.ext h.symm (List.append_nil _)
    rw [List.foldl_cons, hsettle, ih]

theorem drained_of_does {adds : AppTask → Prop} {lifts : Prop} {s s' : Client}
    (h : Does adds lifts s s') (hover : (drained s.transport).1 = none) :
    drained s'.transport = drained s.transport := by
  induction h with
  | quiet ht hk hv => rw [ht]
  | say s message =>
    have hd : drained (sendControl s message).transport =
        settle (drained s.transport) (.send (.control message)) := drained_enqueue _ _
    rw [hd]
    unfold settle
    rw [hover]
    exact Prod.ext hover.symm (List.append_nil _)
  | cancel s =>
    have hd : drained s.transport.cancel = (none, (drained s.transport).2) := drained_enqueue _ _
    rw [hd, ← hover]
  | await s task h => rfl
  | lift s h => rfl
  | trans h h' ih ih' => exact (ih' (by rw [ih hover]; exact hover)).trans (ih hover)

/-- **After the end nothing is said any more.** -/
theorem Turn.ended {a : Action} {v : View} {encoder' : Option StreamConfiguration}
    (h : Turn s encoder a v encoder') (hover : (view s).line.1 = none) :
    v.line = (view s).line := by
  cases h with
  | reports hsaid => exact tell_over hover
  | @sends unit hunit hlive =>
    change settle (view s).line (.send (.video unit)) = (view s).line
    unfold settle
    rw [hover]
    exact Prod.ext hover.symm (List.append_nil _)
  | ends hends => exact hends.trans (Prod.ext hover.symm rfl)
  | handles hmessages hhandled =>
    cases hhandled with
    | ends hends => exact hends.trans (Prod.ext hover.symm rfl)
    | keeps => rfl
    | starts hmessage => rfl
    | refuses hmessage => exact tell_over hover
    | changes hmessage => rfl
  | @works before after task outcome restored s₁ hjobs hview =>
    have hline : (view s₁).line = (view s).line := by rw [hview]
    have hworks := works_of_job hjobs
    have hdoes := does_resume (s := s₁) outcome restored task (by rintro unit rfl; cases hworks)
    have hover' : (drained s₁.transport).1 = none := by
      change (view s₁).line.1 = none
      rw [hline]
      exact hover
    exact (drained_of_does hdoes hover').trans hline

end RemoteCam.Link.PhoneSide
