import RemoteCam.Lib.Transitions

/-! # The virtual camera's stream

`MediaStream`: callers of `RequestSample`, `Start`, `Stop` and `Shutdown`, and the frame thread. A
step is one critical section of `mutex_`, or what a thread does between two of them; what Windows,
the timer and `ProduceSample` answer is part of the action. `Start` and `Stop` hold `lifecycleMutex_`
throughout. Media Foundation's event queue takes an event unless it has been shut down.

A request is numbered when it is accepted, and belongs to the session of that moment; a session ends
where `Stop` or `Start` clears the queue. -/

namespace RemoteCam.Vcam.MediaStream

open RemoteCam.Lib.Transitions

/-! ### Data -/

def kMaxPendingRequests : ℕ := 8

inductive HRESULT where
  | S_OK
  | MF_E_SHUTDOWN
  | MF_E_INVALIDREQUEST
  deriving DecidableEq, Repr

/-- A token of the consumer, which may be null, with its number and its session. -/
structure Request where
  token : Option ℕ
  number : ℕ
  session : ℕ
  deriving DecidableEq, Repr

/-- A sample in the event queue: the request whose token it carries, and the session it was queued
in. -/
structure Delivery where
  request : Request
  session : ℕ
  deriving DecidableEq, Repr

/-- What the owner of `lifecycleMutex_` does next: `Start` joins the last thread and resets the stop
event, sets `running_`, creates the thread, or takes `running_` back; `Stop` sets the stop event,
joins the thread and clears the queue, for `Shutdown` or not. -/
inductive Lifecycle where
  | free
  | joining
  | entering
  | creating
  | undoing
  | signalling (shutdown : Bool)
  | reaping (shutdown : Bool)
  | clearing (shutdown : Bool)
  deriving DecidableEq, Repr

/-- `Stop` has not joined the thread. -/
def Lifecycle.inStop : Lifecycle → Bool
  | .signalling _ | .reaping _ => true
  | _ => false

/-- What the frame thread does next, with the request it has in hand. -/
inductive Thread where
  | idle
  | begin
  | arming
  | waiting
  | popping
  | producing (request : Request)
  | returning (request : Request)
  | delivering (request : Request)
  | queueing (request : Request) (queue : Bool)
  | ending
  deriving DecidableEq, Repr

def Thread.hand : Thread → List Request
  | .producing request | .returning request | .delivering request | .queueing request _ => [request]
  | _ => []

/-- `shutdowns` are the calls of `Shutdown` that are past their `Stop`; `closing` is the one that
still has to shut the event queue down. -/
structure Sys where
  tokens : List Request := []
  running : Bool := false
  shutdown : Bool := false
  stopEvent : Bool := false
  /-- `eventQueue_` is set. -/
  eventQueue : Bool := true
  queueClosed : Bool := false
  lifecycle : Lifecycle := .free
  thread : Thread := .idle
  shutdowns : ℕ := 0
  closing : Bool := false
  session : ℕ := 0
  accepted : List Request := []
  delivered : List Delivery := []
  deriving DecidableEq, Repr

/-- The requests that wait for a sample, the one in the thread's hand first. -/
def Sys.outstanding (s : Sys) : List Request := s.thread.hand ++ s.tokens

/-! ### The callers -/

def requestSample (s : Sys) (token : Option ℕ) : Sys × HRESULT :=
  if s.shutdown then (s, .MF_E_SHUTDOWN)
  else if !s.running then (s, .MF_E_INVALIDREQUEST)
  else
    let tokens := if s.tokens.length ≥ kMaxPendingRequests then s.tokens.tail else s.tokens
    let request : Request := ⟨token, s.accepted.length, s.session⟩
    ({ s with
        tokens := tokens ++ [request]
        accepted := s.accepted ++ [request] }, .S_OK)

/-- The first section of `Start`. -/
def start (s : Sys) : Sys × HRESULT :=
  if s.shutdown then (s, .MF_E_SHUTDOWN)
  else if s.running then (s, .S_OK)
  else ({ s with tokens := [], session := s.session + 1, lifecycle := .joining }, .S_OK)

/-- The first section of `Stop`. -/
def stop (s : Sys) (shutdown : Bool) : Sys :=
  { s with running := false, lifecycle := .signalling shutdown }

/-- The rest of `Start` or `Stop`, section by section. -/
def goOn (s : Sys) (ok : Bool) : Sys :=
  match s.lifecycle with
  | .free => s
  | .joining => { s with stopEvent := false, lifecycle := .entering }
  | .entering => { s with running := true, lifecycle := .creating }
  | .creating =>
    if ok then { s with thread := .begin, lifecycle := .free } else { s with lifecycle := .undoing }
  | .undoing => { s with running := false, lifecycle := .free }
  | .signalling shutdown => { s with stopEvent := true, lifecycle := .reaping shutdown }
  | .reaping shutdown => { s with lifecycle := .clearing shutdown }
  | .clearing shutdown =>
    { s with
      tokens := []
      session := s.session + 1
      lifecycle := .free
      shutdowns := if shutdown then s.shutdowns + 1 else s.shutdowns }

/-- The section of `Shutdown`. -/
def shutdown (s : Sys) : Sys :=
  let s := { s with shutdowns := s.shutdowns - 1 }
  if s.shutdown then s else { s with shutdown := true, eventQueue := false, closing := true }

/-! ### The frame thread -/

/-- What `WaitForMultipleObjects` returns. -/
inductive Wait where
  | stopEvent
  | timer
  | other
  deriving DecidableEq, Repr

/-- One step of `ThreadMain`; `ok` is the answer of the timer or of `ProduceSample`. -/
def threadMain (s : Sys) (wait : Wait) (ok : Bool) : Sys :=
  match s.thread with
  | .idle => s
  | .begin =>
    if ok then { s with thread := .arming } else { s with running := false, thread := .idle }
  | .arming => { s with thread := if ok then .waiting else .ending }
  | .waiting => { s with thread := if wait = .timer then .popping else .ending }
  | .popping =>
    if !s.running || s.shutdown then { s with thread := .ending }
    else
      match s.tokens with
      | [] => { s with thread := .arming }
      | request :: tokens => { s with tokens, thread := .producing request }
  | .producing request => { s with thread := if ok then .delivering request else .returning request }
  | .returning request =>
    { s with
      tokens := if s.tokens.length < kMaxPendingRequests then request :: s.tokens else s.tokens
      thread := .arming }
  | .delivering request =>
    { s with thread := if s.shutdown then .ending else .queueing request s.eventQueue }
  | .queueing request queue =>
    { s with
      delivered :=
        if queue && !s.queueClosed then s.delivered ++ [⟨request, s.session⟩] else s.delivered
      thread := .arming }
  | .ending => { s with running := false, thread := .idle }

/-! ### The machine -/

inductive Action where
  | requestSample (token : Option ℕ)
  | start
  | stop (shutdown : Bool)
  | goOn (ok : Bool)
  | shutdown
  | closeQueue
  | threadMain (wait : Wait) (ok : Bool)
  deriving DecidableEq, Repr

def next (s : Sys) : Action → Sys
  | .requestSample token => (requestSample s token).1
  | .start => (start s).1
  | .stop shutdown => stop s shutdown
  | .goOn ok => goOn s ok
  | .shutdown => shutdown s
  | .closeQueue => { s with queueClosed := true, closing := false }
  | .threadMain wait ok => threadMain s wait ok

/-- A join waits for the thread's end; of two events that are set the wait returns the stop event. -/
def enabled (s : Sys) : Action → Prop
  | .requestSample _ => True
  | .start | .stop _ => s.lifecycle = .free
  | .goOn _ =>
    s.lifecycle ≠ .free ∧
      (s.lifecycle = .joining ∨ s.lifecycle = .reaping true ∨ s.lifecycle = .reaping false →
        s.thread = .idle)
  | .shutdown => 0 < s.shutdowns
  | .closeQueue => s.closing = true
  | .threadMain wait _ =>
    s.thread ≠ .idle ∧
      (s.thread = .waiting → (wait = .timer → s.stopEvent = false) ∧
        (wait = .stopEvent → s.stopEvent = true))

instance decidableEnabled (s : Sys) : ∀ a, Decidable (enabled s a)
  | .requestSample _ => .isTrue trivial
  | .start | .stop _ => inferInstanceAs (Decidable (s.lifecycle = .free))
  | .goOn _ => inferInstanceAs (Decidable (s.lifecycle ≠ .free ∧
      (s.lifecycle = .joining ∨ s.lifecycle = .reaping true ∨ s.lifecycle = .reaping false →
        s.thread = .idle)))
  | .shutdown => inferInstanceAs (Decidable (0 < s.shutdowns))
  | .closeQueue => inferInstanceAs (Decidable (s.closing = true))
  | .threadMain wait _ => inferInstanceAs (Decidable (s.thread ≠ .idle ∧
      (s.thread = .waiting → (wait = .timer → s.stopEvent = false) ∧
        (wait = .stopEvent → s.stopEvent = true))))

def machine : Machine Sys Action := ⟨enabled, next⟩

instance (s : Sys) (a : Action) : Decidable (machine.enabled s a) := decidableEnabled s a

/-! ### What is asked for -/

/-- The step by which a request is given up: the cap of the queue, in `RequestSample` or when the
thread brings it back; the clearing of the queue; or the stream has been shut down when the thread
comes to deliver. -/
inductive LostBy (s : Sys) : Action → Request → Prop where
  | overflow (token : Option ℕ) (request : Request)
      (full : s.tokens.length ≥ kMaxPendingRequests) (oldest : s.tokens.head? = some request) :
      LostBy s (.requestSample token) request
  | full (wait : Wait) (ok : Bool) (request : Request)
      (full : s.tokens.length ≥ kMaxPendingRequests) (hand : s.thread = .returning request) :
      LostBy s (.threadMain wait ok) request
  | started (request : Request) (stopped : s.running = false) : LostBy s .start request
  | stopped (ok shutdown : Bool) (request : Request) (clearing : s.lifecycle = .clearing shutdown) :
      LostBy s (.goOn ok) request
  | shutdown (wait : Wait) (ok : Bool) (request : Request) (shutdown : s.shutdown = true)
      (hand : s.thread.hand = [request]) : LostBy s (.threadMain wait ok) request

/-- What is promised of the requests after the actions. -/
structure Served (as : List Action) (s : Sys) : Prop where
  /-- No two requests are the same. -/
  numbered : s.accepted.map Request.number = List.range s.accepted.length
  /-- At most one sample a request, in the order of the requests. -/
  inOrder : (s.delivered.map Delivery.request).Sublist s.accepted
  inSession : ∀ delivery ∈ s.delivered, delivery.session = delivery.request.session
  bounded : s.tokens.length ≤ kMaxPendingRequests
  /-- A request that has no sample and waits for none was given up by a step. -/
  accounted : ∀ request ∈ s.accepted, request ∈ s.delivered.map Delivery.request ∨
    request ∈ s.outstanding ∨ ∃ before a after, as = before ++ a :: after ∧
      machine.enabled (machine.exec {} before) a ∧ LostBy (machine.exec {} before) a request

/-! ### The invariant -/

structure Inv (s : Sys) : Prop where
  numbered : s.accepted.map Request.number = List.range s.accepted.length
  order : (s.delivered.map Delivery.request ++ s.outstanding).Sublist s.accepted
  current : ∀ request ∈ s.outstanding, request.session = s.session
  inSession : ∀ delivery ∈ s.delivered, delivery.session = delivery.request.session
  bounded : s.tokens.length ≤ kMaxPendingRequests
  /-- A thread that `running_` does not tell of is one that `Stop` is about to join. -/
  busy : s.thread ≠ .idle → s.lifecycle = .free ∧ s.running = true ∨ s.lifecycle.inStop = true
  entered : s.lifecycle = .creating → s.running = true
  closed : s.closing = true ∨ s.queueClosed = true → s.shutdown = true
  queue : s.shutdown = false → s.eventQueue = true
  queueing : ∀ request queue, s.thread = .queueing request queue → queue = true

variable {s : Sys}

theorem inv_start : Inv {} where
  numbered := rfl
  order := List.Sublist.refl []
  current := fun _ h => by cases h
  inSession := fun _ h => by cases h
  bounded := Nat.zero_le _
  busy := fun h => absurd rfl h
  entered := fun h => by cases h
  closed := fun h => by rcases h with h | h <;> cases h
  queue := fun _ => rfl
  queueing := fun _ _ h => by cases h

/-- A request is accepted, and perhaps an older one is dropped for it. -/
theorem Inv.accept (I : Inv s) {tokens : List Request} (hkept : tokens.Sublist s.tokens)
    (hlength : tokens.length < kMaxPendingRequests) (token : Option ℕ) :
    Inv { s with
      tokens := tokens ++ [⟨token, s.accepted.length, s.session⟩]
      accepted := s.accepted ++ [⟨token, s.accepted.length, s.session⟩] } :=
  { I with
    numbered := by
      rw [List.map_append, I.numbered, List.length_append, List.length_singleton, List.range_succ]
      rfl
    order := by
      have horder := (((hkept.append_left s.thread.hand).append_left
        (s.delivered.map Delivery.request)).trans I.order).append_right
          [⟨token, s.accepted.length, s.session⟩]
      simpa only [Sys.outstanding, List.append_assoc] using horder
    current := by
      intro request hrequest
      rw [Sys.outstanding, ← List.append_assoc, List.mem_append] at hrequest
      rcases hrequest with hold | hnew
      · exact I.current request ((hkept.append_left _).subset hold)
      · rw [List.mem_singleton.mp hnew]
    bounded := by
      rw [List.length_append, List.length_singleton]
      exact hlength }

theorem Inv.requestSample (I : Inv s) (token : Option ℕ) : Inv (requestSample s token).1 := by
  unfold MediaStream.requestSample
  split_ifs with hshutdown hrunning hfull
  · exact I
  · exact I
  · refine I.accept (List.tail_sublist _) ?_ token
    have hbounded := I.bounded
    rw [List.length_tail]
    unfold kMaxPendingRequests at *
    omega
  · exact I.accept (List.Sublist.refl _) (Nat.lt_of_not_le hfull) token

/-- The queue is cleared when there is no thread. -/
theorem Inv.cleared (I : Inv s) (hidle : s.thread = .idle) {lifecycle : Lifecycle}
    (hlifecycle : lifecycle ≠ .creating) (shutdowns : ℕ) :
    Inv { s with tokens := [], session := s.session + 1, lifecycle, shutdowns } := by
  have hhand : s.thread.hand = [] := by rw [hidle]; rfl
  exact { I with
    order := by
      have horder := (List.sublist_append_left _ _).trans I.order
      simpa only [Sys.outstanding, hhand, List.append_nil] using horder
    current := by
      intro request hrequest
      rw [Sys.outstanding, hhand] at hrequest
      cases hrequest
    bounded := Nat.zero_le _
    busy := fun h => absurd hidle h
    entered := fun h => absurd h hlifecycle }

theorem Inv.idle (I : Inv s) (hstopped : s.lifecycle = .free → s.running = false)
    (hinStop : s.lifecycle.inStop = false) : s.thread = .idle := by
  by_contra hbusy
  rcases I.busy hbusy with ⟨hfree, hrunning⟩ | h
  · cases hrunning.symm.trans (hstopped hfree)
  · cases hinStop.symm.trans h

theorem Inv.start (I : Inv s) (hfree : s.lifecycle = .free) : Inv (start s).1 := by
  unfold MediaStream.start
  split_ifs with hshutdown hrunning
  · exact I
  · exact I
  · have hidle := I.idle (fun _ => Bool.eq_false_iff.mpr hrunning) (by rw [hfree]; rfl)
    exact I.cleared hidle (by exact nofun) s.shutdowns

theorem Inv.stop (I : Inv s) (shutdown : Bool) : Inv (stop s shutdown) :=
  { I with
    busy := fun _ => .inr rfl
    entered := fun h => by cases h }

theorem Inv.goOn (I : Inv s) {ok : Bool} (h : enabled s (.goOn ok)) : Inv (goOn s ok) := by
  obtain ⟨hheld, hjoin⟩ := h
  unfold MediaStream.goOn
  cases hlifecycle : s.lifecycle with
  | free => exact absurd hlifecycle hheld
  | joining =>
    have hidle := hjoin (.inl hlifecycle)
    exact { I with
      busy := fun h => absurd hidle h
      entered := fun h => by cases h }
  | entering =>
    have hidle := I.idle (fun h => absurd h hheld) (by rw [hlifecycle]; rfl)
    exact { I with
      busy := fun h => absurd hidle h
      entered := fun _ => rfl }
  | creating =>
    have hidle := I.idle (fun h => absurd h hheld) (by rw [hlifecycle]; rfl)
    have hrunning := I.entered hlifecycle
    have hhand : s.thread.hand = [] := by rw [hidle]; rfl
    cases ok with
    | true =>
      exact { I with
        order := by
          have horder := I.order
          rw [Sys.outstanding, hhand] at horder
          exact horder
        current := fun request hrequest => I.current request (by
          rw [Sys.outstanding, hhand]
          exact hrequest)
        busy := fun _ => .inl ⟨rfl, hrunning⟩
        entered := fun h => by cases h
        queueing := fun _ _ h => by cases h }
    | false =>
      exact { I with
        busy := fun h => absurd hidle h
        entered := fun h => by cases h }
  | undoing =>
    have hidle := I.idle (fun h => absurd h hheld) (by rw [hlifecycle]; rfl)
    exact { I with
      busy := fun h => absurd hidle h
      entered := fun h => by cases h }
  | signalling shutdown =>
    exact { I with
      busy := fun _ => .inr rfl
      entered := fun h => by cases h }
  | reaping shutdown =>
    have hidle : s.thread = .idle := hjoin (by
      rw [hlifecycle]
      cases shutdown
      · exact .inr (.inr rfl)
      · exact .inr (.inl rfl))
    exact { I with
      busy := fun h => absurd hidle h
      entered := fun h => by cases h }
  | clearing shutdown =>
    have hidle := I.idle (fun h => absurd h hheld) (by rw [hlifecycle]; rfl)
    exact I.cleared hidle (by exact nofun) _

theorem Inv.shutdown (I : Inv s) : Inv (shutdown s) := by
  unfold MediaStream.shutdown
  dsimp only
  split_ifs
  · exact { I with }
  · exact { I with
      closed := fun _ => rfl
      queue := fun h => by cases h }

/-! ### The thread keeps the order -/

/-- A step of the thread that leaves the requests where they are or gives one up. -/
theorem Inv.passed (I : Inv s) (hbusy : s.thread ≠ .idle) {thread : Thread} {tokens : List Request}
    (hkept : (thread.hand ++ tokens).Sublist s.outstanding)
    (hlength : tokens.length ≤ kMaxPendingRequests)
    (hqueueing : ∀ request queue, thread = .queueing request queue → queue = true) :
    Inv { s with thread, tokens } :=
  { I with
    order := (hkept.append_left _).trans I.order
    current := fun request hrequest => I.current request (hkept.subset hrequest)
    bounded := hlength
    busy := fun _ => I.busy hbusy
    queueing := hqueueing }

/-- A step of the thread that leaves them where they are. -/
theorem Inv.went (I : Inv s) (hbusy : s.thread ≠ .idle) {thread : Thread} {tokens : List Request}
    (hsame : s.outstanding = thread.hand ++ tokens)
    (hlength : tokens.length ≤ kMaxPendingRequests)
    (hqueueing : ∀ request queue, thread = .queueing request queue → queue = true) :
    Inv { s with thread, tokens } :=
  I.passed hbusy (by rw [hsame]) hlength hqueueing

/-- The thread ends with nothing in hand. -/
theorem Inv.left (I : Inv s) (hbusy : s.thread ≠ .idle) (hhand : s.thread.hand = []) :
    Inv { s with running := false, thread := .idle } := by
  have hsame : s.outstanding = s.tokens := by rw [Sys.outstanding, hhand, List.nil_append]
  have horder := I.order
  have hcurrent := I.current
  rw [hsame] at horder hcurrent
  exact { I with
    order := horder
    current := hcurrent
    busy := fun h => absurd rfl h
    entered := fun h => by
      rcases I.busy hbusy with ⟨hfree, -⟩ | hinStop
      · cases hfree.symm.trans h
      · rw [h] at hinStop
        cases hinStop
    queueing := fun _ _ h => by cases h }

theorem Inv.threadMain (I : Inv s) (hbusy : s.thread ≠ .idle) (wait : Wait) (ok : Bool) :
    Inv (threadMain s wait ok) := by
  have hsame (thread : Thread) (hthread : s.thread = thread) :
      s.outstanding = thread.hand ++ s.tokens := by rw [Sys.outstanding, hthread]
  unfold MediaStream.threadMain
  cases hthread : s.thread with
  | idle => exact absurd hthread hbusy
  | begin =>
    have hkept := hsame _ hthread
    cases ok with
    | true => exact I.went hbusy hkept I.bounded (fun _ _ h => by cases h)
    | false => exact I.left hbusy (by rw [hthread]; rfl)
  | arming =>
    have hkept := hsame _ hthread
    cases ok with
    | true => exact I.went hbusy hkept I.bounded (fun _ _ h => by cases h)
    | false => exact I.went hbusy hkept I.bounded (fun _ _ h => by cases h)
  | waiting =>
    have hkept := hsame _ hthread
    dsimp only
    split_ifs
    · exact I.went hbusy hkept I.bounded (fun _ _ h => by cases h)
    · exact I.went hbusy hkept I.bounded (fun _ _ h => by cases h)
  | popping =>
    have hkept := hsame _ hthread
    dsimp only
    split_ifs
    · exact I.went hbusy hkept I.bounded (fun _ _ h => by cases h)
    · cases htokens : s.tokens with
      | nil =>
        rw [htokens] at hkept
        exact @Inv.went s I hbusy .arming [] hkept (Nat.zero_le _) (fun _ _ h => by cases h)
      | cons request tokens =>
        have hlength := I.bounded
        rw [htokens] at hkept hlength
        exact I.went hbusy hkept ((Nat.le_succ _).trans hlength)
          (fun _ _ h => by cases h)
  | producing request =>
    have hkept := hsame _ hthread
    cases ok with
    | true => exact I.went hbusy hkept I.bounded (fun _ _ h => by cases h)
    | false => exact I.went hbusy hkept I.bounded (fun _ _ h => by cases h)
  | returning request =>
    have hkept := hsame _ hthread
    dsimp only
    split_ifs with hroom
    · exact I.went hbusy hkept hroom (fun _ _ h => by cases h)
    · refine I.passed hbusy ?_ I.bounded (fun _ _ h => by cases h)
      rw [hkept]
      exact List.sublist_append_right _ _
  | delivering request =>
    have hkept := hsame _ hthread
    dsimp only
    split_ifs with hshutdown
    · refine I.passed hbusy ?_ I.bounded (fun _ _ h => by cases h)
      rw [hkept]
      exact List.sublist_append_right _ _
    · refine I.went hbusy hkept I.bounded fun _ queue h => ?_
      cases h
      exact I.queue (Bool.eq_false_iff.mpr hshutdown)
  | queueing request queue =>
    have hkept := hsame _ hthread
    have hcurrent := I.current request (by rw [hkept]; exact List.mem_cons_self ..)
    have hrest : (Thread.hand .arming ++ s.tokens).Sublist s.outstanding := by
      rw [hkept]
      exact List.sublist_append_right _ _
    dsimp only
    split_ifs
    · have horder := I.order
      rw [hkept] at horder
      exact { I.passed hbusy hrest I.bounded (fun _ _ h => by cases h) with
        order := by
          rw [List.map_append, List.append_assoc]
          exact horder
        inSession := by
          intro delivery hdelivery
          rcases List.mem_append.mp hdelivery with hold | hnew
          · exact I.inSession delivery hold
          · rw [List.mem_singleton.mp hnew]
            exact hcurrent.symm }
    · exact I.passed hbusy hrest I.bounded (fun _ _ h => by cases h)
  | ending => exact I.left hbusy (by rw [hthread]; rfl)

theorem inv_next (s : Sys) (a : Action) (I : Inv s) (h : enabled s a) : Inv (next s a) := by
  cases a with
  | requestSample token => exact I.requestSample token
  | start => exact I.start h
  | stop shutdown => exact I.stop shutdown
  | goOn ok => exact I.goOn h
  | shutdown => exact I.shutdown
  | closeQueue =>
    have hclosing : s.closing = true := h
    exact { I with closed := fun _ => I.closed (.inl hclosing) }
  | threadMain wait ok => exact I.threadMain h.1 wait ok

/-! ### What becomes of a request -/

/-- The head of a full queue goes, the others stay. -/
theorem mem_tail_or_head {tokens : List Request} {request : Request} (h : request ∈ tokens) :
    request ∈ tokens.tail ∨ tokens.head? = some request := by
  cases tokens with
  | nil => cases h
  | cons first tokens =>
    rcases List.mem_cons.mp h with rfl | h
    · exact .inr rfl
    · exact .inl h

/-- After a step a request still waits, or it has its sample, or the step has given it up. -/
def Kept (s : Sys) (a : Action) (request : Request) : Prop :=
  request ∈ (next s a).outstanding ∨ request ∈ (next s a).delivered.map Delivery.request ∨
    LostBy s a request

theorem kept_requestSample {request : Request} (h : request ∈ s.outstanding) (token : Option ℕ) :
    Kept s (.requestSample token) request := by
  unfold Kept next requestSample
  split_ifs with hshutdown hrunning hfull
  · exact .inl h
  · exact .inl h
  · rcases List.mem_append.mp h with hhand | htokens
    · exact .inl (List.mem_append_left _ hhand)
    · rcases mem_tail_or_head htokens with htail | hhead
      · exact .inl (List.mem_append_right _ (List.mem_append_left _ htail))
      · exact .inr (.inr (.overflow token request hfull hhead))
  · rcases List.mem_append.mp h with hhand | htokens
    · exact .inl (List.mem_append_left _ hhand)
    · exact .inl (List.mem_append_right _ (List.mem_append_left _ htokens))

theorem kept_start {request : Request} (h : request ∈ s.outstanding) : Kept s .start request := by
  unfold Kept next start
  split_ifs with hshutdown hrunning
  · exact .inl h
  · exact .inl h
  · exact .inr (.inr (.started request (Bool.eq_false_iff.mpr hrunning)))

theorem Inv.kept_goOn (I : Inv s) {ok : Bool} (henabled : enabled s (.goOn ok)) {request : Request}
    (h : request ∈ s.outstanding) : Kept s (.goOn ok) request := by
  unfold Kept next MediaStream.goOn
  cases hlifecycle : s.lifecycle with
  | clearing shutdown => exact .inr (.inr (.stopped ok shutdown request hlifecycle))
  | creating =>
    have hidle := I.idle (fun h => absurd h henabled.1) (by rw [hlifecycle]; rfl)
    cases ok with
    | true =>
      left
      rw [Sys.outstanding, hidle] at h
      exact h
    | false => exact .inl h
  | _ => exact .inl h

theorem Inv.kept_threadMain (I : Inv s) {wait : Wait} {ok : Bool} {request : Request}
    (h : request ∈ s.outstanding) : Kept s (.threadMain wait ok) request := by
  have hrest {hand : Request} (hthread : s.thread.hand = [hand]) :
      request = hand ∨ request ∈ s.tokens := by
    rw [Sys.outstanding, hthread] at h
    exact List.mem_cons.mp h
  unfold Kept next MediaStream.threadMain
  cases hthread : s.thread with
  | idle => exact .inl h
  | begin =>
    rw [Sys.outstanding, hthread] at h
    cases ok <;> exact .inl h
  | arming =>
    rw [Sys.outstanding, hthread] at h
    cases ok <;> exact .inl h
  | waiting =>
    rw [Sys.outstanding, hthread] at h
    dsimp only
    split_ifs <;> exact .inl h
  | popping =>
    rw [Sys.outstanding, hthread] at h
    dsimp only
    split_ifs
    · exact .inl h
    · cases htokens : s.tokens with
      | nil =>
        rw [htokens] at h
        exact .inl h
      | cons first tokens =>
        rw [htokens] at h
        exact .inl h
  | producing hand =>
    rw [Sys.outstanding, hthread] at h
    cases ok <;> exact .inl h
  | returning hand =>
    dsimp only
    split_ifs with hroom
    · rw [Sys.outstanding, hthread] at h
      exact .inl h
    · rcases hrest (by rw [hthread]; rfl) with rfl | htokens
      · exact .inr (.inr (.full wait ok request (Nat.le_of_not_lt hroom) hthread))
      · exact .inl (List.mem_append_right _ htokens)
  | delivering hand =>
    dsimp only
    split_ifs with hshutdown
    · rcases hrest (by rw [hthread]; rfl) with rfl | htokens
      · exact .inr (.inr (.shutdown wait ok request hshutdown (by rw [hthread]; rfl)))
      · exact .inl (List.mem_append_right _ htokens)
    · rw [Sys.outstanding, hthread] at h
      exact .inl h
  | queueing hand queue =>
    have hqueue : queue = true := I.queueing hand queue hthread
    subst hqueue
    rcases hrest (by rw [hthread]; rfl) with rfl | htokens
    · cases hclosed : s.queueClosed with
      | false =>
        refine .inr (.inl ?_)
        dsimp only
        rw [if_pos (show (true && !false) = true from rfl), List.map_append]
        exact List.mem_append_right _ (List.mem_singleton.mpr rfl)
      | true =>
        have hshutdown := I.closed (.inr hclosed)
        exact .inr (.inr (.shutdown wait ok request hshutdown (by rw [hthread]; rfl)))
    · exact .inl (List.mem_append_right _ htokens)
  | ending =>
    rw [Sys.outstanding, hthread] at h
    exact .inl h

theorem Inv.kept (I : Inv s) {a : Action} (henabled : enabled s a) {request : Request}
    (h : request ∈ s.outstanding) : Kept s a request := by
  cases a with
  | requestSample token => exact kept_requestSample h token
  | start => exact kept_start h
  | stop shutdown => exact .inl h
  | goOn ok => exact I.kept_goOn henabled h
  | shutdown =>
    left
    unfold next MediaStream.shutdown
    dsimp only
    split_ifs <;> exact h
  | closeQueue => exact .inl h
  | threadMain wait ok => exact I.kept_threadMain h

theorem start_lists : (start s).1.accepted = s.accepted ∧ (start s).1.delivered = s.delivered := by
  unfold start
  split_ifs <;> exact ⟨rfl, rfl⟩

theorem goOn_lists (ok : Bool) :
    (goOn s ok).accepted = s.accepted ∧ (goOn s ok).delivered = s.delivered := by
  unfold goOn
  cases s.lifecycle <;> cases ok <;> exact ⟨rfl, rfl⟩

theorem shutdown_lists :
    (shutdown s).accepted = s.accepted ∧ (shutdown s).delivered = s.delivered := by
  unfold shutdown
  dsimp only
  split_ifs <;> exact ⟨rfl, rfl⟩

/-- The thread accepts nothing, and a sample that is in the event queue stays there. -/
theorem threadMain_lists (wait : Wait) (ok : Bool) :
    (threadMain s wait ok).accepted = s.accepted ∧
      ∃ new, (threadMain s wait ok).delivered = s.delivered ++ new := by
  have hsame : ∃ new, s.delivered = s.delivered ++ new := ⟨[], (List.append_nil _).symm⟩
  unfold threadMain
  cases s.thread with
  | begin => cases ok <;> exact ⟨rfl, hsame⟩
  | popping =>
    dsimp only
    split_ifs
    · exact ⟨rfl, hsame⟩
    · cases s.tokens <;> exact ⟨rfl, hsame⟩
  | queueing request queue =>
    dsimp only
    split_ifs
    · exact ⟨rfl, _, rfl⟩
    · exact ⟨rfl, hsame⟩
  | _ => exact ⟨rfl, hsame⟩

/-- Only `RequestSample` accepts. -/
theorem accepted_next {a : Action} {request : Request} (h : request ∈ (next s a).accepted) :
    request ∈ s.accepted ∨ request ∈ (next s a).outstanding := by
  cases a with
  | requestSample token =>
    unfold next requestSample at h ⊢
    split_ifs at h ⊢
    · exact .inl h
    · exact .inl h
    all_goals
      rcases List.mem_append.mp h with hold | hnew
      · exact .inl hold
      · exact .inr (List.mem_append_right _ (List.mem_append_right _ hnew))
  | start => exact .inl (start_lists.1 ▸ h)
  | stop shutdown => exact .inl h
  | goOn ok => exact .inl ((goOn_lists ok).1 ▸ h)
  | shutdown => exact .inl (shutdown_lists.1 ▸ h)
  | closeQueue => exact .inl h
  | threadMain wait ok => exact .inl ((threadMain_lists wait ok).1 ▸ h)

theorem delivered_next (a : Action) {request : Request}
    (h : request ∈ s.delivered.map Delivery.request) :
    request ∈ (next s a).delivered.map Delivery.request := by
  cases a with
  | requestSample token =>
    unfold next requestSample
    split_ifs <;> exact h
  | start =>
    rw [show (next s .start).delivered = s.delivered from start_lists.2]
    exact h
  | stop shutdown => exact h
  | goOn ok =>
    rw [show (next s (.goOn ok)).delivered = s.delivered from (goOn_lists ok).2]
    exact h
  | shutdown =>
    rw [show (next s .shutdown).delivered = s.delivered from shutdown_lists.2]
    exact h
  | closeQueue => exact h
  | threadMain wait ok =>
    obtain ⟨-, new, hnew⟩ := @threadMain_lists s wait ok
    rw [show (next s (.threadMain wait ok)).delivered = s.delivered ++ new from hnew,
      List.map_append]
    exact List.mem_append_left _ h

/-! ### Runs -/

theorem inv_run {as : List Action} (h : machine.Legal (fun _ _ => True) {} as) :
    Inv (machine.exec {} as) :=
  h.invariant inv_start fun s a I ha _ => inv_next s a I ha

/-- A session with a frame that fails once, a full queue and a `Shutdown`. -/
def sampleRun : List Action := List.flatten
  [[.start, .goOn true, .goOn true, .goOn true, .requestSample none, .requestSample none],
    [.threadMain .timer true, .threadMain .timer true, .threadMain .timer true,
      .threadMain .timer true, .threadMain .timer false, .threadMain .timer true],
    List.replicate 7 (.requestSample (some 5)), List.replicate 6 (.threadMain .timer true),
    [.stop true, .goOn true, .threadMain .timer true, .threadMain .stopEvent true,
      .threadMain .timer true, .goOn true, .goOn true, .shutdown, .closeQueue]]

end RemoteCam.Vcam.MediaStream
