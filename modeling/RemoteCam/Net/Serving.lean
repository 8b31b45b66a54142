import RemoteCam.Lib.Threads
import RemoteCam.Net.SessionHandler

/-! # The listener

`TcpListener` with its three kinds of threads: the one that calls `start` and `stop`, one call after
the other, the one of `acceptLoop`, and one of `serveConnection` for each connection. A step is one
access to what the threads share (`stopping_`, `connectionActive_`, `activeConnection_`, a socket),
a join, or the call or the return of a callback; `close` is a `close()` of a connection by whoever
else has a reference to it. What `::accept` and `::recv` answer is part of the action.

The events of every run are legal in `SessionHandler.protocol` (`tracks_of_legal`): the listener
refines the protocol, with `Tracks` as the relation. -/

namespace RemoteCam.Net.Serving

open RemoteCam.Wire.Codec RemoteCam.Lib.Transitions RemoteCam.Lib.Threads
open RemoteCam.Net.SessionHandler (HRESULT Event Phase Stage protocol Bracketed)

structure Connection where
  /-- `socket_` is not `INVALID_SOCKET`. -/
  socketValid : Bool := true
  closing : Bool := false
  deriving DecidableEq, Repr

def Connection.valid (c : Connection) : Bool := c.socketValid && !c.closing

/-- What a thread of `serveConnection` does next. -/
inductive Place where
  | unborn
  | entered
  | published
  | inConnected
  | looping
  | checking
  | receiving
  | failing (error : HRESULT)
  | batch (frames : List Frame) (framingError : Error)
  | inFrame (frame : Frame) (frames : List Frame) (framingError : Error)
  | afterFrame (frames : List Frame) (framingError : Error)
  | afterBatch (framingError : Error)
  | leaving (reason : HRESULT)
  | inDisconnected (reason : HRESULT)
  | clearing
  | closing
  | releasing
  | ended
  deriving DecidableEq, Repr

/-- The thread has been created and has not ended. -/
def Place.busy : Place → Bool
  | .unborn | .ended => false
  | _ => true

/-- There is a `Connection`. -/
def Place.alive : Place → Bool
  | .unborn | .entered | .releasing | .ended => false
  | _ => true

/-- `activeConnection_` has been set and not cleared. -/
def Place.active : Place → Bool
  | .unborn | .entered | .closing | .releasing | .ended => false
  | _ => true

/-- `onDisconnected` has returned. -/
def Place.past : Place → Bool
  | .clearing | .closing | .releasing | .ended => true
  | _ => false

structure Thread where
  connection : Connection := {}
  decoder : Decoder := {}
  place : Place := .unborn
  deriving DecidableEq, Repr

instance : Inhabited Thread := ⟨{}⟩

/-- What the thread of `acceptLoop` does next; `none` where there is nothing to join. -/
inductive Accepting where
  | none
  | looping
  | accepting
  | accepted
  | joining
  | spawning
  | ended
  deriving DecidableEq, Repr

/-- Between taking `connectionActive_` and creating the thread for it. -/
def Accepting.handing : Accepting → Bool
  | .joining | .spawning => true
  | _ => false

/-- What the thread that calls `start` and `stop` does next. -/
inductive Owner where
  | outside
  | binding
  | closingListener
  | closingActive
  | joiningAccept
  | joiningConnection
  deriving DecidableEq, Repr

structure TcpListener where
  /-- `listenSocket_` is not `INVALID_SOCKET`. -/
  listenSocket : Bool := false
  stopping : Bool := false
  connectionActive : Bool := false
  activeConnection : Option ℕ := none
  acceptThread : Accepting := .none
  /-- The thread in `connectionThread_`, while it is joinable. -/
  connectionThread : Option ℕ := none
  threads : Pool Thread := {}
  /-- The threads created for connections. -/
  spawned : ℕ := 0
  owner : Owner := .outside
  log : List Event := []
  deriving DecidableEq, Repr

namespace TcpListener

variable (s : TcpListener) (c : ℕ)

def thread : Thread := s.threads.get c

def place : Place := (s.thread c).place

def valid : Bool := (s.thread c).connection.valid

def say (e : Event) : TcpListener := { s with log := s.log ++ [e] }

def goto (place : Place) : TcpListener :=
  { s with threads := s.threads.set c { s.thread c with place } }

/-- `Connection::close`, up to its wait for a sender. -/
def close : TcpListener :=
  if (s.thread c).connection.socketValid then
    { s with
      threads := s.threads.set c
        { s.thread c with connection := { socketValid := false, closing := true } } }.say
      (.closed c)
  else s

end TcpListener

/-- `start` up to the store of `stopping_`, with Winsock and a handler, or without. -/
def start (s : TcpListener) (usable : Bool) : TcpListener :=
  if !usable || s.listenSocket then s
  else { s with stopping := false, owner := .binding }.say .started

/-- The rest of `start`: the socket is bound and listens, or `start` gives up. -/
def bind (s : TcpListener) (ok : Bool) : TcpListener :=
  if ok then { s with listenSocket := true, acceptThread := .looping, owner := .outside }
  else { s with owner := .outside }

/-- One step of `stop`. -/
def stop (s : TcpListener) : TcpListener :=
  match s.owner with
  | .outside => { s with stopping := true, owner := .closingListener }
  | .closingListener => { s with listenSocket := false, owner := .closingActive }
  | .closingActive =>
    match s.activeConnection with
    | some c => { s.close c with owner := .joiningAccept }
    | none => { s with owner := .joiningAccept }
  | .joiningAccept => { s with acceptThread := .none, owner := .joiningConnection }
  | .joiningConnection => { s with connectionThread := none, owner := .outside }.say .stopped
  | .binding => s

/-- One step of `acceptLoop`; `::accept` has `taken` a socket or failed. -/
def acceptLoop (s : TcpListener) (taken : Bool) : TcpListener :=
  match s.acceptThread with
  | .looping => { s with acceptThread := if s.stopping then .ended else .accepting }
  | .accepting => { s with acceptThread := if taken then .accepted else .ended }
  | .accepted =>
    if s.connectionActive then { s with acceptThread := .looping }
    else { s with connectionActive := true, acceptThread := .joining }
  | .joining => { s with connectionThread := none, acceptThread := .spawning }
  | .spawning =>
    { s with
      threads := s.threads.set s.spawned { place := .entered }
      connectionThread := some s.spawned
      spawned := s.spawned + 1
      acceptThread := .looping }
  | .none | .ended => s

/-- One step of `serveConnection`, and of the store that follows it. `::recv` has `received` some
bytes, none at the end of the stream, or an error. -/
def serveConnection (s : TcpListener) (c : ℕ) (received : Except HRESULT (List UInt8)) :
    TcpListener :=
  match s.place c with
  | .unborn | .ended => s
  | .entered => { s.goto c .published with activeConnection := some c }
  | .published => (s.goto c .inConnected).say (.called c .onConnected)
  | .inConnected => (s.goto c .looping).say (.returned c .onConnected)
  | .looping => s.goto c (if s.stopping then .leaving .S_OK else .checking)
  | .checking =>
    if s.valid c then s.goto c .receiving
    else (s.goto c (.leaving .ERROR_CONNECTION_ABORTED)).say (.observed c)
  | .receiving =>
    match received with
    | .error error => s.goto c (.failing error)
    | .ok [] => s.goto c (.leaving .S_OK)
    | .ok data =>
      let (framingError, frames, decoder) := (s.thread c).decoder.append data
      { s with
        threads := s.threads.set c
          { s.thread c with decoder, place := .batch frames framingError } }
  | .failing error => s.goto c (.leaving (if s.stopping then .S_OK else error))
  | .batch [] framingError => s.goto c (.afterBatch framingError)
  | .batch (frame :: frames) framingError =>
    (s.goto c (.inFrame frame frames framingError)).say (.called c (.onFrame frame))
  | .inFrame frame frames framingError =>
    (s.goto c (.afterFrame frames framingError)).say (.returned c (.onFrame frame))
  | .afterFrame frames framingError =>
    if s.valid c then s.goto c (.batch frames framingError)
    else (s.goto c (.afterBatch framingError)).say (.observed c)
  | .afterBatch framingError =>
    if s.valid c then
      s.goto c (if framingError = .none then .looping else .leaving .E_INVALIDARG)
    else (s.goto c (.leaving .ERROR_CONNECTION_ABORTED)).say (.observed c)
  | .leaving reason => (s.goto c (.inDisconnected reason)).say (.called c (.onDisconnected reason))
  | .inDisconnected reason => (s.goto c .clearing).say (.returned c (.onDisconnected reason))
  | .clearing => { s.goto c .closing with activeConnection := none }
  | .closing => (s.close c).goto c .releasing
  | .releasing => { s.goto c .ended with connectionActive := false }

inductive Action where
  | start (usable : Bool)
  | bind (ok : Bool)
  | stop
  | acceptLoop (taken : Bool)
  | serveConnection (c : ℕ) (received : Except HRESULT (List UInt8))
  | close (c : ℕ)

/-- A join of `connectionThread_` would not wait. -/
def joinable (s : TcpListener) : Bool := s.connectionThread.all fun c => s.place c = .ended

def enabled (s : TcpListener) : Action → Prop
  | .start _ => s.owner = .outside
  | .bind _ => s.owner = .binding
  | .stop =>
    s.owner ≠ .binding ∧
      (s.owner = .joiningAccept → s.acceptThread = .none ∨ s.acceptThread = .ended) ∧
      (s.owner = .joiningConnection → joinable s = true)
  | .acceptLoop _ =>
    s.acceptThread ≠ .none ∧ s.acceptThread ≠ .ended ∧
      (s.acceptThread = .joining → joinable s = true)
  | .serveConnection c _ => (s.place c).busy = true
  | .close c => (s.place c).alive = true

def next (s : TcpListener) : Action → TcpListener
  | .start usable => start s usable
  | .bind ok => bind s ok
  | .stop => stop s
  | .acceptLoop taken => acceptLoop s taken
  | .serveConnection c received => serveConnection s c received
  | .close c => s.close c

instance decidableEnabled (s : TcpListener) : ∀ a, Decidable (enabled s a)
  | .start _ => inferInstanceAs (Decidable (s.owner = .outside))
  | .bind _ => inferInstanceAs (Decidable (s.owner = .binding))
  | .stop => inferInstanceAs (Decidable (s.owner ≠ .binding ∧
      (s.owner = .joiningAccept → s.acceptThread = .none ∨ s.acceptThread = .ended) ∧
      (s.owner = .joiningConnection → joinable s = true)))
  | .acceptLoop _ => inferInstanceAs (Decidable (s.acceptThread ≠ .none ∧
      s.acceptThread ≠ .ended ∧ (s.acceptThread = .joining → joinable s = true)))
  | .serveConnection c _ => inferInstanceAs (Decidable ((s.place c).busy = true))
  | .close c => inferInstanceAs (Decidable ((s.place c).alive = true))

def machine : Machine TcpListener Action := ⟨enabled, next⟩

instance (s : TcpListener) (a : Action) : Decidable (machine.enabled s a) := decidableEnabled s a

/-! ### The listener and the protocol -/

/-- What the protocol's stage is while the thread in turn is at a place. -/
def Matches : Place → Stage → Bool → Prop
  | .unborn, stage, _ | .entered, stage, _ | .published, stage, _ => stage = .waiting
  | .inConnected, stage, _ => stage = .calling .onConnected
  | .inFrame frame _ _, stage, _ => stage = .calling (.onFrame frame)
  | .inDisconnected reason, stage, _ => stage = .calling (.onDisconnected reason)
  | .receiving, stage, _ | .batch _ _, stage, _ => stage = .serving false
  | .looping, stage, closed | .checking, stage, closed | .failing _, stage, closed
  | .afterFrame _ _, stage, closed | .afterBatch _, stage, closed | .leaving _, stage, closed =>
    ∃ dead, stage = .serving dead ∧ (dead = true → closed = true)
  | .clearing, _, _ | .closing, _, _ | .releasing, _, _ | .ended, _, _ => False

/-- **The relation between the protocol and the listener.** -/
structure Tracks (φ : Phase) (s : TcpListener) : Prop where
  fresh : ∀ c, s.spawned ≤ c → s.thread c = {}
  born : ∀ c < s.spawned, s.place c ≠ .unborn
  busy : ∀ c, (s.place c).busy = true → s.connectionActive = true ∧ s.connectionThread = some c
  last : ∀ c, s.connectionThread = some c → c + 1 = s.spawned
  handing : s.acceptThread.handing = true →
    s.connectionActive = true ∧ ∀ c, (s.place c).busy = false
  joined : s.owner = .joiningConnection → s.acceptThread = .none
  stopped : φ.stopped = true →
    s.acceptThread = .none ∧ s.connectionThread = none ∧ s.owner ≠ .binding
  done : ∀ c, c < φ.served ↔ (s.place c).past = true
  stage : Matches (s.place φ.served) φ.stage φ.closed
  closed : φ.closed = !s.valid φ.served
  active : ∀ c, s.activeConnection = some c → (s.place c).active = true

theorem tracks_start : Tracks {} {} where
  fresh _ _ := rfl
  born := nofun
  busy := nofun
  last := nofun
  handing := nofun
  joined := nofun
  stopped := nofun
  done _ := ⟨nofun, nofun⟩
  stage := rfl
  closed := rfl
  active := nofun

variable {φ ψ : Phase} {s : TcpListener} {c : ℕ}

theorem Place.busy_of_ne {p : Place} (h : p ≠ .unborn) (hp : p.past = false) : p.busy = true := by
  cases p <;> first | rfl | exact absurd rfl h | cases hp

/-- The thread that serves a connection is the one in turn. -/
theorem Tracks.current (T : Tracks φ s) (hbusy : (s.place c).busy = true)
    (hpast : (s.place c).past = false) : c = φ.served := by
  obtain ⟨-, hthread⟩ := T.busy c hbusy
  have hlast := T.last c hthread
  have hle : φ.served ≤ c := by
    by_contra hlt
    rw [(T.done c).mp (Nat.not_le.mp hlt)] at hpast
    cases hpast
  rcases Nat.lt_or_eq_of_le hle with hlt | heq
  · have hnot : (s.place φ.served).past = false := by
      cases h : (s.place φ.served).past with
      | false => rfl
      | true => exact absurd ((T.done _).mpr h) (Nat.lt_irrefl _)
    have hfirst := Place.busy_of_ne (T.born φ.served (by omega)) hnot
    rw [(T.busy _ hfirst).2] at hthread
    exact absurd (Option.some.inj hthread) (Nat.ne_of_lt hlt)
  · exact heq.symm

theorem Tracks.le_served (T : Tracks φ s) (hbusy : (s.place c).busy = true) : c ≤ φ.served := by
  cases hpast : (s.place c).past with
  | true => exact Nat.le_of_lt ((T.done c).mpr hpast)
  | false => exact (T.current hbusy hpast).le

theorem Tracks.going (T : Tracks φ s) (hbusy : (s.place c).busy = true) : φ.stopped = false := by
  cases hstopped : φ.stopped with
  | false => rfl
  | true =>
    have hnone := (T.stopped hstopped).2.1
    rw [(T.busy c hbusy).2] at hnone
    cases hnone

/-! ### The threads of the connections -/

/-- A step of a thread that leaves it busy. -/
theorem Tracks.set (T : Tracks φ s) (hbusy : (s.place c).busy = true) {t : Thread}
    (ht : t.place.busy = true) {activeConnection : Option ℕ} {log : List Event}
    (hstopped : ψ.stopped = φ.stopped)
    (hdone : ∀ c', c' < ψ.served ↔ ((s.threads.set c t).get c').place.past = true)
    (hstage : Matches ((s.threads.set c t).get ψ.served).place ψ.stage ψ.closed)
    (hclosed : ψ.closed = !((s.threads.set c t).get ψ.served).connection.valid)
    (hself : activeConnection = some c → t.place.active = true)
    (hother : ∀ c', c' ≠ c → activeConnection = some c' → s.activeConnection = some c') :
    Tracks ψ { s with threads := s.threads.set c t, activeConnection, log } := by
  obtain ⟨hactive, hthread⟩ := T.busy c hbusy
  have hspawned : c < s.spawned := by
    have hlast := T.last c hthread
    omega
  exact {
    fresh := fun c' hc' =>
      have hne : c' ≠ c := Nat.ne_of_gt (Nat.lt_of_lt_of_le hspawned hc')
      (Pool.get_set_of_ne s.threads hne t).trans (T.fresh c' hc')
    born := Pool.forall_set (P := fun c' (t : Thread) => c' < s.spawned → t.place ≠ .unborn) T.born
      fun _ h => by
        rw [h] at ht
        cases ht
    busy := Pool.forall_set
      (P := fun c' (t : Thread) => t.place.busy = true → s.connectionActive = true ∧
        s.connectionThread = some c') T.busy fun _ => ⟨hactive, hthread⟩
    last := T.last
    handing := fun h => by
      rw [(T.handing h).2 c] at hbusy
      cases hbusy
    joined := T.joined
    stopped := fun h => T.stopped (hstopped ▸ h)
    done := hdone
    stage := hstage
    closed := hclosed
    active := fun c' hc' => by
      by_cases heq : c' = c
      · subst heq
        exact (congrArg (fun t : Thread => t.place.active) (Pool.get_set_self s.threads c' t)).trans
          (hself hc')
      · exact (congrArg (fun t : Thread => t.place.active)
          (Pool.get_set_of_ne s.threads heq t)).trans (T.active c' (hother c' heq hc')) }

/-- A step of a thread before its `onDisconnected` has returned. -/
theorem Tracks.serve (T : Tracks φ s) (hbusy : (s.place c).busy = true)
    (hpast : (s.place c).past = false) {t : Thread} (ht : t.place.busy = true)
    (htpast : t.place.past = false) {activeConnection : Option ℕ} {log : List Event}
    (hserved : ψ.served = φ.served) (hstopped : ψ.stopped = φ.stopped)
    (hstage : Matches t.place ψ.stage ψ.closed) (hclosed : ψ.closed = !t.connection.valid)
    (hself : activeConnection = some c → t.place.active = true)
    (hother : ∀ c', c' ≠ c → activeConnection = some c' → s.activeConnection = some c') :
    Tracks ψ { s with threads := s.threads.set c t, activeConnection, log } := by
  have hc : ψ.served = c := by rw [hserved, T.current hbusy hpast]
  have hself' : (s.threads.set c t).get ψ.served = t := by rw [hc, Pool.get_set_self]
  refine T.set hbusy ht hstopped (Pool.forall_set
    (P := fun c' (t : Thread) => c' < ψ.served ↔ t.place.past = true) ?_ ?_) ?_ ?_ hself hother
  · rw [hserved]
    exact T.done
  · rw [hc, htpast]
    exact ⟨fun h => absurd h (Nat.lt_irrefl _), nofun⟩
  · rw [hself']
    exact hstage
  · rw [hself']
    exact hclosed

/-- A step of a thread after its `onDisconnected`. -/
theorem Tracks.leave (T : Tracks φ s) (hbusy : (s.place c).busy = true)
    (hpast : (s.place c).past = true) {t : Thread} (ht : t.place.busy = true)
    (htpast : t.place.past = true) {activeConnection : Option ℕ} {log : List Event}
    (hself : activeConnection = some c → t.place.active = true)
    (hother : ∀ c', c' ≠ c → activeConnection = some c' → s.activeConnection = some c') :
    Tracks φ { s with threads := s.threads.set c t, activeConnection, log } := by
  have hlt : c < φ.served := (T.done c).mpr hpast
  have hget : (s.threads.set c t).get φ.served = s.thread φ.served :=
    Pool.get_set_of_ne s.threads (Nat.ne_of_gt hlt) t
  refine T.set hbusy ht rfl (Pool.forall_set
    (P := fun c' (t : Thread) => c' < φ.served ↔ t.place.past = true) T.done ?_) ?_ ?_ hself hother
  · rw [htpast]
    exact ⟨fun _ => rfl, fun _ => hlt⟩
  · rw [hget]
    exact T.stage
  · rw [hget]
    exact T.closed

/-- What a step of the listener adds to the events is legal, and keeps the relation. -/
def Follows (φ : Phase) (s s' : TcpListener) : Prop :=
  ∃ events, s'.log = s.log ++ events ∧ protocol.Legal (fun _ _ => True) φ events ∧
    Tracks (protocol.exec φ events) s'

theorem Tracks.quiet {s' : TcpListener} (T : Tracks φ s') (hlog : s'.log = s.log) :
    Follows φ s s' :=
  ⟨[], by rw [hlog, List.append_nil], trivial, T⟩

theorem Tracks.event {s' : TcpListener} {e : Event} (T : Tracks (SessionHandler.next φ e) s')
    (he : SessionHandler.enabled φ e) (hlog : s'.log = s.log ++ [e]) : Follows φ s s' :=
  ⟨[e], hlog, ⟨he, trivial, trivial⟩, T⟩

theorem Tracks.valid (T : Tracks φ s) (hbusy : (s.place c).busy = true)
    (hpast : (s.place c).past = false) : φ.closed = !(s.thread c).connection.valid := by
  obtain rfl := T.current hbusy hpast
  exact T.closed

theorem Tracks.goto (T : Tracks φ s) (hbusy : (s.place c).busy = true)
    (hpast : (s.place c).past = false) {place : Place} (hplace : place.busy = true)
    (hplacePast : place.past = false) (hactive : place.active = true)
    (hstage : Matches place φ.stage φ.closed) : Follows φ s (s.goto c place) :=
  (@Tracks.serve φ φ s c T hbusy hpast { s.thread c with place } hplace hplacePast
    s.activeConnection s.log rfl rfl hstage (T.valid hbusy hpast) (fun _ => hactive)
    fun _ _ h => h).quiet rfl

theorem Tracks.say (T : Tracks φ s) (hbusy : (s.place c).busy = true)
    (hpast : (s.place c).past = false) {place : Place} (hplace : place.busy = true)
    (hplacePast : place.past = false) (hactive : place.active = true) {e : Event}
    (he : SessionHandler.enabled φ e) (hserved : (SessionHandler.next φ e).served = φ.served)
    (hstopped : (SessionHandler.next φ e).stopped = φ.stopped)
    (hclosed : (SessionHandler.next φ e).closed = φ.closed)
    (hstage : Matches place (SessionHandler.next φ e).stage φ.closed) :
    Follows φ s ((s.goto c place).say e) :=
  (@Tracks.serve φ _ s c T hbusy hpast { s.thread c with place } hplace hplacePast
    s.activeConnection (s.log ++ [e]) hserved hstopped (hclosed ▸ hstage)
    (hclosed.trans (T.valid hbusy hpast)) (fun _ => hactive) fun _ _ h => h).event he rfl

/-- A thread that may be told that its connection is closed. -/
def Aware (stage : Stage) (closed : Bool) : Prop :=
  ∃ dead, stage = .serving dead ∧ (dead = true → closed = true)

theorem Aware.of_open {stage : Stage} {closed : Bool} (h : Aware stage closed)
    (hopen : closed = false) : stage = .serving false := by
  obtain ⟨dead, hstage, hdead⟩ := h
  cases dead with
  | false => exact hstage
  | true =>
    rw [hdead rfl] at hopen
    cases hopen

/-- `valid()` says no. -/
theorem Tracks.observe (T : Tracks φ s) (hbusy : (s.place c).busy = true)
    (hpast : (s.place c).past = false) (hstage : Aware φ.stage φ.closed)
    (hinvalid : ¬s.valid c = true) {place : Place} (hplace : place.busy = true)
    (hplacePast : place.past = false) (hactive : place.active = true)
    (hmatches : Matches place (.serving true) true) :
    Follows φ s ((s.goto c place).say (.observed c)) := by
  obtain ⟨dead, hserving, -⟩ := hstage
  have hclosed : φ.closed = true := by
    rw [T.valid hbusy hpast, Bool.not_eq_true', ← Bool.not_eq_true]
    exact hinvalid
  exact T.say hbusy hpast hplace hplacePast hactive
    ⟨T.current hbusy hpast, by rw [hserving]; rfl⟩ rfl rfl rfl (by rw [hclosed]; exact hmatches)

/-- Once `onDisconnected` has returned, the next connection is in turn. -/
theorem Tracks.disconnected (T : Tracks φ s) (hbusy : (s.place c).busy = true) {reason : HRESULT}
    (hplace : s.place c = .inDisconnected reason) :
    Follows φ s ((s.goto c .clearing).say (.returned c (.onDisconnected reason))) := by
  have hpast : (s.place c).past = false := by rw [hplace]; rfl
  have hc := T.current hbusy hpast
  have hlast := T.last c (T.busy c hbusy).2
  have hstage : Matches (s.place c) φ.stage φ.closed := hc ▸ T.stage
  rw [hplace] at hstage
  have hnext : s.thread (c + 1) = {} := T.fresh _ hlast.ge
  have hget : (s.threads.set c { s.thread c with place := .clearing }).get (φ.served + 1) = {} := by
    rw [← hc]
    exact (Pool.get_set_of_ne s.threads (Nat.succ_ne_self c) _).trans hnext
  have J : Tracks (SessionHandler.next φ (.returned c (.onDisconnected reason)))
      ((s.goto c .clearing).say (.returned c (.onDisconnected reason))) := by
    refine @Tracks.set φ _ s c T hbusy { s.thread c with place := .clearing } rfl
      s.activeConnection _ rfl ?_ ?_ ?_ (fun _ => rfl) fun _ _ h => h
    · intro c'
      rw [Pool.get_set]
      split_ifs with heq
      · exact ⟨fun _ => rfl, fun _ => by rw [heq, hc]; exact Nat.lt_succ_self _⟩
      · have hbefore : c' < φ.served + 1 ↔ c' < φ.served := by omega
        exact hbefore.trans (T.done c')
    · exact hget ▸ rfl
    · exact hget ▸ rfl
  exact J.event ⟨hc, hstage⟩ rfl

theorem Place.busy_of_alive {p : Place} (h : p.alive = true) : p.busy = true := by
  cases p <;> first | rfl | cases h

theorem Place.alive_of_active {p : Place} (h : p.active = true) : p.alive = true := by
  cases p <;> first | rfl | cases h

theorem Matches.closed {p : Place} {stage : Stage} {closed : Bool} (h : Matches p stage closed) :
    Matches p stage true := by
  cases p <;> first | exact h | (obtain ⟨dead, hstage, -⟩ := h; exact ⟨dead, hstage, fun _ => rfl⟩)

theorem close_of_valid (h : (s.thread c).connection.socketValid = true) :
    s.close c = { s with
      threads := s.threads.set c
        { s.thread c with connection := { socketValid := false, closing := true } } }.say
          (.closed c) :=
  if_pos h

theorem Tracks.close (T : Tracks φ s) (halive : (s.place c).alive = true) :
    Follows φ s (s.close c) := by
  have hbusy := Place.busy_of_alive halive
  by_cases hvalid : (s.thread c).connection.socketValid = true
  · rw [close_of_valid hvalid]
    set t : Thread := { s.thread c with connection := { socketValid := false, closing := true } }
      with ht
    have hplace : ((s.threads.set c t).get φ.served).place = s.place φ.served := by
      rw [Pool.get_set]
      split_ifs with h
      · rw [h]
        rfl
      · rfl
    have J : Tracks (SessionHandler.next φ (.closed c))
        ({ s with threads := s.threads.set c t }.say (.closed c)) := by
      refine @Tracks.set φ _ s c T hbusy t hbusy s.activeConnection _ rfl
        (Pool.forall_set (P := fun c' (t : Thread) => c' < φ.served ↔ t.place.past = true) T.done
          (T.done c)) ?_ ?_ (T.active c) fun _ _ h => h
      · change Matches ((s.threads.set c t).get φ.served).place φ.stage _
        rw [hplace]
        cases hclosed : (SessionHandler.next φ (.closed c)).closed with
        | true => exact T.stage.closed
        | false =>
          rw [← (Bool.or_eq_false_iff.mp hclosed).1]
          exact T.stage
      · change (φ.closed || c == φ.served) = !((s.threads.set c t).get φ.served).connection.valid
        rw [Pool.get_set]
        split_ifs with h
        · rw [h, beq_self_eq_true, Bool.or_true]
          rfl
        · rw [beq_eq_false_iff_ne.mpr (Ne.symm h), Bool.or_false]
          exact T.closed
    exact J.event (T.le_served hbusy) rfl
  · rw [TcpListener.close, if_neg hvalid]
    exact T.quiet rfl

theorem Follows.trans {s₁ s₂ : TcpListener} (h₁ : Follows φ s s₁)
    (h₂ : ∀ ψ, Tracks ψ s₁ → Follows ψ s₁ s₂) : Follows φ s s₂ := by
  obtain ⟨events, hlog, hlegal, T⟩ := h₁
  obtain ⟨events', hlog', hlegal', T'⟩ := h₂ _ T
  refine ⟨events ++ events', by rw [hlog', hlog, List.append_assoc],
    Machine.legal_append.mpr ⟨hlegal, hlegal'⟩, ?_⟩
  rw [Machine.exec_append]
  exact T'

theorem place_close : (s.close c).place c = s.place c := by
  unfold TcpListener.close
  split_ifs
  · exact (congrArg Thread.place (Pool.get_set_self s.threads c _)).trans rfl
  · rfl

/-- The thread has given its connection up, and ends. -/
theorem Tracks.release (T : Tracks φ s) (hplace : s.place c = .releasing) :
    Tracks φ { s.goto c .ended with connectionActive := false } := by
  have hbusy : (s.place c).busy = true := by rw [hplace]; rfl
  have hlt : c < φ.served := (T.done c).mpr (by rw [hplace]; rfl)
  obtain ⟨-, hthread⟩ := T.busy c hbusy
  have hlast := T.last c hthread
  have hget : ∀ c', c' ≠ c →
      (s.threads.set c { s.thread c with place := .ended }).get c' = s.thread c' :=
    fun c' h => Pool.get_set_of_ne s.threads h _
  have hturn := hget φ.served (Nat.ne_of_gt hlt)
  exact {
    fresh := fun c' hc' =>
      have hle : s.spawned ≤ c' := hc'
      (hget c' (by omega)).trans (T.fresh c' hle)
    born := Pool.forall_set (P := fun c' (t : Thread) => c' < s.spawned → t.place ≠ .unborn) T.born
      nofun
    busy := fun c' hc' => by
      by_cases h : c' = c
      · subst h
        have hended := congrArg Thread.place
          (Pool.get_set_self s.threads c' { s.thread c' with place := .ended })
        rw [TcpListener.place, TcpListener.thread, TcpListener.goto, hended] at hc'
        cases hc'
      · have hbusy' : (s.place c').busy = true :=
          (congrArg (fun t : Thread => t.place.busy) (hget c' h)).symm.trans hc'
        have heq := (T.busy c' hbusy').2.symm.trans hthread
        exact absurd (Option.some.inj heq) h
    last := T.last
    handing := fun h => by
      rw [(T.handing h).2 c] at hbusy
      cases hbusy
    joined := T.joined
    stopped := T.stopped
    done := Pool.forall_set (P := fun c' (t : Thread) => c' < φ.served ↔ t.place.past = true)
      T.done ⟨fun _ => rfl, fun _ => hlt⟩
    stage := by
      change Matches ((s.threads.set c _).get φ.served).place φ.stage φ.closed
      rw [hturn]
      exact T.stage
    closed := by
      change φ.closed = !((s.threads.set c _).get φ.served).connection.valid
      rw [hturn]
      exact T.closed
    active := fun c' hc' => by
      have hactive : (s.place c').active = true := T.active c' hc'
      have hne : c' ≠ c := fun h => by
        rw [h, hplace] at hactive
        cases hactive
      exact (congrArg (fun t : Thread => t.place.active) (hget c' hne)).trans hactive }

theorem Tracks.served (T : Tracks φ s) (hbusy : (s.place c).busy = true)
    (hpast : (s.place c).past = true) (received : Except HRESULT (List UInt8)) :
    Follows φ s (serveConnection s c received) := by
  unfold Serving.serveConnection
  cases hplace : s.place c with
  | clearing =>
    exact (@Tracks.leave φ s c T hbusy hpast { s.thread c with place := .closing } rfl rfl
      none s.log nofun nofun).quiet rfl
  | closing =>
    refine (T.close (by rw [hplace]; rfl)).trans fun ψ T' => ?_
    have hplace' : (s.close c).place c = .closing := place_close.trans hplace
    refine (@Tracks.leave ψ (s.close c) c T' (by rw [hplace']; rfl) (by rw [hplace']; rfl)
      { (s.close c).thread c with place := .releasing } rfl rfl (s.close c).activeConnection
      (s.close c).log (fun h => ?_) fun _ _ h => h).quiet rfl
    have hactive := T'.active c h
    rw [hplace'] at hactive
    cases hactive
  | releasing => exact (T.release hplace).quiet rfl
  | ended =>
    rw [hplace] at hbusy
    cases hbusy
  | _ =>
    rw [hplace] at hpast
    cases hpast

theorem Tracks.serveConnection (T : Tracks φ s) (hbusy : (s.place c).busy = true)
    (received : Except HRESULT (List UInt8)) : Follows φ s (serveConnection s c received) := by
  have hgoing := T.going hbusy
  cases hpast : (s.place c).past with
  | true => exact T.served hbusy hpast received
  | false =>
    have hc := T.current hbusy hpast
    have hvalid : φ.closed = !s.valid c := T.valid hbusy hpast
    have hstage : Matches (s.place c) φ.stage φ.closed := hc ▸ T.stage
    have hopen : s.valid c = true → φ.closed = false := fun h => by rw [hvalid, h]; rfl
    unfold Serving.serveConnection
    cases hplace : s.place c with
    | unborn =>
      rw [hplace] at hbusy
      cases hbusy
    | entered =>
      rw [hplace] at hstage
      refine (@Tracks.serve φ φ s c T hbusy hpast { s.thread c with place := .published } rfl rfl
        (some c) s.log rfl rfl hstage hvalid (fun _ => rfl) fun c' hne h => ?_).quiet rfl
      exact absurd (Option.some.inj h).symm hne
    | published =>
      rw [hplace] at hstage
      have hwaiting : φ.stage = .waiting := hstage
      exact T.say hbusy hpast rfl rfl rfl ⟨hc, hgoing, by rw [hwaiting]; rfl⟩ rfl rfl rfl rfl
    | inConnected =>
      rw [hplace] at hstage
      exact T.say hbusy hpast rfl rfl rfl ⟨hc, hstage⟩ rfl rfl rfl ⟨φ.closed, rfl, id⟩
    | looping =>
      rw [hplace] at hstage
      dsimp only
      split_ifs
      · exact T.goto hbusy hpast rfl rfl rfl hstage
      · exact T.goto hbusy hpast rfl rfl rfl hstage
    | checking =>
      rw [hplace] at hstage
      dsimp only
      split_ifs with h
      · exact T.goto hbusy hpast rfl rfl rfl (Aware.of_open hstage (hopen h))
      · exact T.observe hbusy hpast hstage h rfl rfl rfl ⟨true, rfl, id⟩
    | receiving =>
      rw [hplace] at hstage
      have haware : Aware φ.stage φ.closed := ⟨false, hstage, nofun⟩
      cases received with
      | error error => exact T.goto hbusy hpast rfl rfl rfl haware
      | ok data =>
        cases data with
        | nil => exact T.goto hbusy hpast rfl rfl rfl haware
        | cons byte data =>
          exact (@Tracks.serve φ φ s c T hbusy hpast
            { s.thread c with
              decoder := ((s.thread c).decoder.append (byte :: data)).2.2
              place := .batch ((s.thread c).decoder.append (byte :: data)).2.1
                ((s.thread c).decoder.append (byte :: data)).1 }
            rfl rfl s.activeConnection s.log rfl rfl hstage hvalid (fun _ => rfl)
            fun _ _ h => h).quiet rfl
    | failing error =>
      rw [hplace] at hstage
      exact T.goto hbusy hpast rfl rfl rfl hstage
    | batch frames framingError =>
      rw [hplace] at hstage
      cases frames with
      | nil => exact T.goto hbusy hpast rfl rfl rfl ⟨false, hstage, nofun⟩
      | cons frame frames =>
        have hserving : φ.stage = .serving false := hstage
        exact T.say hbusy hpast rfl rfl rfl ⟨hc, hgoing, by rw [hserving]; rfl⟩ rfl rfl rfl rfl
    | inFrame frame frames framingError =>
      rw [hplace] at hstage
      exact T.say hbusy hpast rfl rfl rfl ⟨hc, hstage⟩ rfl rfl rfl ⟨φ.closed, rfl, id⟩
    | afterFrame frames framingError =>
      rw [hplace] at hstage
      dsimp only
      split_ifs with h
      · exact T.goto hbusy hpast rfl rfl rfl (Aware.of_open hstage (hopen h))
      · exact T.observe hbusy hpast hstage h rfl rfl rfl ⟨true, rfl, id⟩
    | afterBatch framingError =>
      rw [hplace] at hstage
      dsimp only
      split_ifs with h
      · exact T.goto hbusy hpast rfl rfl rfl hstage
      · exact T.goto hbusy hpast rfl rfl rfl hstage
      · exact T.observe hbusy hpast hstage h rfl rfl rfl ⟨true, rfl, id⟩
    | leaving reason =>
      rw [hplace] at hstage
      obtain ⟨dead, hserving, -⟩ := hstage
      exact T.say hbusy hpast rfl rfl rfl ⟨hc, hgoing, by rw [hserving]; rfl⟩ rfl rfl rfl rfl
    | inDisconnected reason => exact T.disconnected hbusy hplace
    | clearing =>
      rw [hplace] at hpast
      cases hpast
    | closing =>
      rw [hplace] at hpast
      cases hpast
    | releasing =>
      rw [hplace] at hpast
      cases hpast
    | ended =>
      rw [hplace] at hpast
      cases hpast

/-! ### The accept loop -/

theorem Tracks.accepting (T : Tracks φ s) (hrunning : s.acceptThread ≠ .none)
    {acceptThread : Accepting} (h : acceptThread.handing = false) :
    Tracks φ { s with acceptThread } :=
  { T with
    handing := fun hhanding => by
      have hnew : acceptThread.handing = true := hhanding
      rw [h] at hnew
      cases hnew
    joined := fun hjoined => absurd (T.joined hjoined) hrunning
    stopped := fun hstopped => absurd (T.stopped hstopped).1 hrunning }

/-- The thread for a new connection is created. -/
theorem Tracks.spawn (T : Tracks φ s) (h : s.acceptThread = .spawning) :
    Tracks φ { s with
      threads := s.threads.set s.spawned { place := .entered }
      connectionThread := some s.spawned
      spawned := s.spawned + 1
      acceptThread := .looping } := by
  obtain ⟨hactive, hidle⟩ := T.handing (by rw [h]; rfl)
  have hrunning : s.acceptThread ≠ .none := by
    rw [h]
    nofun
  have hfresh : s.thread s.spawned = {} := T.fresh _ (Nat.le_refl _)
  have hget : ∀ c, c ≠ s.spawned →
      (s.threads.set s.spawned { place := .entered }).get c = s.thread c :=
    fun c hc => Pool.get_set_of_ne s.threads hc _
  have hbefore : ¬s.spawned < φ.served := by
    rw [T.done, TcpListener.place, hfresh]
    nofun
  exact {
    fresh := fun c hc =>
      have hle : s.spawned + 1 ≤ c := hc
      (hget c (by omega)).trans (T.fresh c (by omega))
    born := fun c hc => by
      have hlt : c < s.spawned + 1 := hc
      change ((s.threads.set _ _).get c).place ≠ .unborn
      by_cases hne : c = s.spawned
      · rw [hne, Pool.get_set_self]
        nofun
      · rw [hget c hne]
        exact T.born c (by omega)
    busy := fun c hc => by
      by_cases hne : c = s.spawned
      · exact ⟨hactive, congrArg some hne.symm⟩
      · have hbusy : (s.place c).busy = true :=
          (congrArg (fun t : Thread => t.place.busy) (hget c hne)).symm.trans hc
        rw [hidle c] at hbusy
        cases hbusy
    last := fun c hc => congrArg (· + 1) (Option.some.inj hc).symm
    handing := nofun
    joined := fun hjoined => absurd (T.joined hjoined) hrunning
    stopped := fun hstopped => absurd (T.stopped hstopped).1 hrunning
    done := Pool.forall_set (P := fun c (t : Thread) => c < φ.served ↔ t.place.past = true)
      T.done ⟨fun hlt => absurd hlt hbefore, nofun⟩
    stage := by
      change Matches ((s.threads.set _ _).get φ.served).place φ.stage φ.closed
      have hstage := T.stage
      rw [Pool.get_set]
      split_ifs with heq
      · rw [heq, TcpListener.place, hfresh] at hstage
        exact hstage
      · exact hstage
    closed := by
      change φ.closed = !((s.threads.set _ _).get φ.served).connection.valid
      have hclosed := T.closed
      rw [Pool.get_set]
      split_ifs with heq
      · rw [heq, TcpListener.valid, hfresh] at hclosed
        exact hclosed
      · exact hclosed
    active := fun c hc => by
      have hplace : (s.place c).active = true := T.active c hc
      have hne : c ≠ s.spawned := fun heq => by
        rw [heq, TcpListener.place, hfresh] at hplace
        cases hplace
      exact (congrArg (fun t : Thread => t.place.active) (hget c hne)).trans hplace }

theorem Tracks.acceptLoop (T : Tracks φ s) {taken : Bool} (h : enabled s (.acceptLoop taken)) :
    Follows φ s (acceptLoop s taken) := by
  obtain ⟨hrunning, -, -⟩ := h
  unfold Serving.acceptLoop
  cases haccept : s.acceptThread with
  | none => exact absurd haccept hrunning
  | ended => exact T.quiet rfl
  | looping => exact (T.accepting hrunning (by split_ifs <;> rfl)).quiet rfl
  | accepting => exact (T.accepting hrunning (by split_ifs <;> rfl)).quiet rfl
  | accepted =>
    dsimp only
    split_ifs with hactive
    · exact (T.accepting hrunning rfl).quiet rfl
    · have hidle : ∀ c, (s.place c).busy = false := fun c => by
        cases hbusy : (s.place c).busy with
        | false => rfl
        | true => exact absurd (T.busy c hbusy).1 hactive
      have J : Tracks φ { s with connectionActive := true, acceptThread := .joining } :=
        { T with
          busy := fun c hc => ⟨rfl, (T.busy c hc).2⟩
          handing := fun _ => ⟨rfl, hidle⟩
          joined := fun hjoined => absurd (T.joined hjoined) hrunning
          stopped := fun hstopped => absurd (T.stopped hstopped).1 hrunning }
      exact J.quiet rfl
  | joining =>
    obtain ⟨hactive, hidle⟩ := T.handing (by rw [haccept]; rfl)
    have J : Tracks φ { s with connectionThread := none, acceptThread := .spawning } :=
      { T with
        busy := fun c hc => by
          have hbusy : (s.place c).busy = true := hc
          rw [hidle c] at hbusy
          cases hbusy
        last := nofun
        handing := fun _ => ⟨hactive, hidle⟩
        joined := fun hjoined => absurd (T.joined hjoined) hrunning
        stopped := fun hstopped => absurd (T.stopped hstopped).1 hrunning }
    exact J.quiet rfl
  | spawning => exact (T.spawn haccept).quiet rfl

/-! ### `start` and `stop` -/

/-- `stop` goes on. -/
theorem Tracks.owned (T : Tracks φ s) (owner : Owner) (hbinding : owner ≠ .binding)
    (hjoined : owner ≠ .joiningConnection) (stopping listenSocket : Bool) :
    Tracks φ { s with owner, stopping, listenSocket } :=
  { T with
    joined := fun h => absurd h hjoined
    stopped := fun h => ⟨(T.stopped h).1, (T.stopped h).2.1, hbinding⟩ }

theorem Tracks.start (T : Tracks φ s) (usable : Bool) : Follows φ s (start s usable) := by
  unfold Serving.start
  split_ifs
  · exact T.quiet rfl
  · have J : Tracks (SessionHandler.next φ .started)
        ({ s with stopping := false, owner := .binding }.say .started) :=
      { T with
        joined := nofun
        stopped := nofun }
    exact J.event trivial rfl

theorem Tracks.bind (T : Tracks φ s) (h : s.owner = .binding) (ok : Bool) :
    Follows φ s (bind s ok) := by
  have hstopped : φ.stopped = true → False := fun hstopped => (T.stopped hstopped).2.2 h
  cases ok with
  | true =>
    have J : Tracks φ
        { s with listenSocket := true, acceptThread := .looping, owner := .outside } :=
      { T with
        handing := nofun
        joined := nofun
        stopped := fun h => absurd h hstopped }
    exact J.quiet rfl
  | false => exact (T.owned .outside nofun nofun s.stopping s.listenSocket).quiet rfl

/-- After the two joins nothing is left that could call the handler. -/
theorem Tracks.joined_all (T : Tracks φ s) (howner : s.owner = .joiningConnection)
    (hjoin : joinable s = true) :
    Follows φ s ({ s with connectionThread := none, owner := .outside }.say .stopped) := by
  have hidle : ∀ c, (s.place c).busy = false := by
    intro c
    cases hbusy : (s.place c).busy with
    | false => rfl
    | true =>
      have hended : s.place c = .ended := by
        simpa [joinable, (T.busy c hbusy).2] using hjoin
      rw [hended] at hbusy
      cases hbusy
  have hwaiting : φ.stage = .waiting := by
    have hstage := T.stage
    have hturn := hidle φ.served
    cases hplace : s.place φ.served with
    | unborn =>
      rw [hplace] at hstage
      exact hstage
    | ended =>
      rw [hplace] at hstage
      cases hstage
    | _ =>
      rw [hplace] at hturn
      cases hturn
  have hnone := T.joined howner
  have J : Tracks (SessionHandler.next φ .stopped)
      ({ s with connectionThread := none, owner := .outside }.say .stopped) :=
    { T with
      busy := fun c hc => by
        have hbusy : (s.place c).busy = true := hc
        rw [hidle c] at hbusy
        cases hbusy
      last := nofun
      joined := nofun
      stopped := fun _ => ⟨hnone, rfl, nofun⟩ }
  exact J.event hwaiting rfl

theorem Tracks.stop (T : Tracks φ s) (h : enabled s .stop) : Follows φ s (stop s) := by
  obtain ⟨hbinding, -, hjoin⟩ := h
  unfold Serving.stop
  cases howner : s.owner with
  | binding => exact absurd howner hbinding
  | outside => exact (T.owned .closingListener nofun nofun true s.listenSocket).quiet rfl
  | closingListener => exact (T.owned .closingActive nofun nofun s.stopping false).quiet rfl
  | closingActive =>
    dsimp only
    cases hactive : s.activeConnection with
    | none =>
      dsimp only
      rw [← hactive]
      exact (T.owned .joiningAccept nofun nofun s.stopping s.listenSocket).quiet rfl
    | some c =>
      refine (T.close (Place.alive_of_active (T.active c hactive))).trans fun ψ T' => ?_
      exact (T'.owned .joiningAccept nofun nofun _ _).quiet rfl
  | joiningAccept =>
    have J : Tracks φ { s with acceptThread := .none, owner := .joiningConnection } :=
      { T with
        handing := nofun
        joined := fun _ => rfl
        stopped := fun h => ⟨rfl, (T.stopped h).2.1, nofun⟩ }
    exact J.quiet rfl
  | joiningConnection => exact T.joined_all howner (hjoin howner)

/-- **One step refines the protocol.** -/
theorem Tracks.next (T : Tracks φ s) {a : Action} (h : enabled s a) : Follows φ s (next s a) := by
  cases a with
  | start usable => exact T.start usable
  | bind ok => exact T.bind h ok
  | stop => exact T.stop h
  | acceptLoop taken => exact T.acceptLoop h
  | serveConnection c received => exact T.serveConnection h received
  | close c => exact T.close h

/-- **The listener refines the protocol**: the events of a run are legal, and lead to a phase that
the listener's state is related to. -/
theorem tracks_of_legal {as : List Action} (h : machine.Legal (fun _ _ => True) {} as) :
    protocol.Legal (fun _ _ => True) {} (machine.exec {} as).log ∧
      Tracks (protocol.exec {} (machine.exec {} as).log) (machine.exec {} as) := by
  refine @Machine.Legal.invariant _ _ machine _ {} as (fun s =>
    protocol.Legal (fun _ _ => True) {} s.log ∧ Tracks (protocol.exec {} s.log) s) h
    ⟨trivial, tracks_start⟩ ?_
  rintro s a ⟨hlegal, T⟩ ha -
  obtain ⟨events, hlog, hevents, T'⟩ := T.next ha
  have hlog' : (machine.next s a).log = s.log ++ events := hlog
  rw [hlog', Machine.exec_append]
  exact ⟨Machine.legal_append.mpr ⟨hlegal, hevents⟩, T'⟩

/-- **The callbacks are bracketed** in every run, whatever the order of steps. -/
theorem bracketed_run {as : List Action} (h : machine.Legal (fun _ _ => True) {} as) :
    Bracketed (fun c => (machine.exec {} as).place c = .ended) (machine.exec {} as).log := by
  obtain ⟨hlegal, T⟩ := tracks_of_legal h
  have B := SessionHandler.bracketed_of_legal hlegal
  refine { B with whole := fun c hc => B.whole c (hc.imp (fun hended => ?_) id) }
  exact (T.done c).mpr (by rw [hended]; rfl)

/-- Steps of a connection's thread, whose `::recv` finds the end of the stream. -/
def servingSteps (c n : ℕ) : List Action := List.replicate n (.serveConnection c (.ok []))

/-- A connection is served while another one is refused; the handler closes the next one while
`stop` is on its way. -/
def twoConnections : List Action :=
  [.start true, .bind true] ++ List.replicate 5 (.acceptLoop true) ++ servingSteps 0 5 ++
    List.replicate 3 (.acceptLoop true) ++ servingSteps 0 6 ++
    List.replicate 5 (.acceptLoop true) ++ servingSteps 1 2 ++ [.close 1] ++
    List.replicate 3 .stop ++ servingSteps 1 7 ++ [.acceptLoop false] ++ List.replicate 2 .stop

theorem bracketed_run_twoConnections :
    Bracketed (fun c => (machine.exec {} twoConnections).place c = .ended)
      (machine.exec {} twoConnections).log :=
  bracketed_run (by decide)

/-- `stop` reaches a connection only while there is one. -/
theorem activeConnection_alive {as : List Action} (h : machine.Legal (fun _ _ => True) {} as)
    {c : ℕ} (hc : (machine.exec {} as).activeConnection = some c) :
    ((machine.exec {} as).place c).alive = true :=
  Place.alive_of_active ((tracks_of_legal h).2.active c hc)

end RemoteCam.Net.Serving
