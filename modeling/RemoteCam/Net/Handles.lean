import RemoteCam.Lib.Threads
import RemoteCam.Net.TcpListener

/-! # The socket of a connection

Which handle the calls into Winsock are made with. Any threads call `Connection::send`, `close` and
`shutdownSend`; one is in the receive loop of `serveConnection`. A step is one section of
`socketMutex_` or `sendMutex_`, the start of a call into Winsock, or its return.

`shutdownSend` calls Winsock inside the section in which it looks at the socket. `send` copies the
handle in one section and uses it after that, and the receive loop calls `valid()` and `::recv` one
after the other: a `close` in between has closed the handle by then. `safe_run` is about the runs
without that. -/

namespace RemoteCam.Net.Handles

open RemoteCam.Wire.Codec RemoteCam.Lib.Transitions RemoteCam.Lib.Threads
open RemoteCam.Net.TcpListener (INT_MAX)

/-- A call into Winsock with a handle, when it starts. -/
inductive Event where
  | send (handle : ℕ)
  | recv (handle : ℕ)
  | shutdown (handle : ℕ)
  | closesocket (handle : ℕ)
  deriving DecidableEq, Repr

/-- What a thread in `Connection::send` does next; from `captured` on it has a copy of the handle.
-/
inductive Sending where
  | idle
  | framed (bytes : List UInt8)
  | locked (bytes : List UInt8)
  | captured (socket : ℕ) (bytes : List UInt8) (sent : ℕ)
  | inSend (socket : ℕ) (bytes : List UInt8) (sent : ℕ)
  deriving DecidableEq, Repr

instance : Inhabited Sending := ⟨.idle⟩

/-- The thread has `sendMutex_`. -/
def Sending.holds : Sending → Bool
  | .idle | .framed _ => false
  | _ => true

/-- The next step starts a `::send`. -/
def Sending.aims : Sending → Bool
  | .captured _ bytes sent => sent < bytes.length
  | _ => false

/-- What the receive loop does next. -/
inductive Receiving where
  | looping
  | checking
  | checked
  | inRecv
  | batch (frames : List Frame) (framingError : Error)
  | afterBatch (framingError : Error)
  | left
  deriving DecidableEq, Repr

structure Sys where
  /-- `socket_`, where `none` is `INVALID_SOCKET`. -/
  socket : Option ℕ
  closing : Bool := false
  stopping : Bool := false
  senders : Pool Sending := {}
  /-- The `socket` of `serveConnection`. -/
  accepted : ℕ
  decoder : Decoder := {}
  receiver : Receiving := .looping
  log : List Event := []
  deriving DecidableEq, Repr

/-- A connection on an accepted socket. -/
def opened (handle : ℕ) : Sys := { socket := some handle, accepted := handle }

namespace Sys

variable (s : Sys)

def valid : Bool := s.socket.isSome && !s.closing

def say (e : Event) : Sys := { s with log := s.log ++ [e] }

def sending (t : ℕ) (x : Sending) : Sys := { s with senders := s.senders.set t x }

end Sys

/-- One step of `send`: `::send` has failed, or has taken `taken` bytes. -/
def send (s : Sys) (t : ℕ) (taken : Option ℕ) : Sys :=
  match s.senders.get t with
  | .idle => s
  | .framed bytes => s.sending t (.locked bytes)
  | .locked bytes =>
    match s.socket with
    | none => s.sending t .idle
    | some socket => s.sending t (if s.closing then .idle else .captured socket bytes 0)
  | .captured socket bytes sent =>
    if sent < bytes.length then (s.sending t (.inSend socket bytes sent)).say (.send socket)
    else s.sending t .idle
  | .inSend socket bytes sent =>
    match taken with
    | none | some 0 => s.sending t .idle
    | some (n + 1) => s.sending t (.captured socket bytes (sent + (n + 1)))

/-- One step of the receive loop: what `::recv` has received, nothing at the end of the stream, or
an error. A callback has returned when the step after it is made. -/
def receive (s : Sys) (received : Option (List UInt8)) : Sys :=
  match s.receiver with
  | .looping => { s with receiver := if s.stopping then .left else .checking }
  | .checking => { s with receiver := if s.valid then .checked else .left }
  | .checked => { s with receiver := .inRecv }.say (.recv s.accepted)
  | .inRecv =>
    match received with
    | none | some [] => { s with receiver := .left }
    | some data =>
      let (framingError, frames, decoder) := s.decoder.append data
      { s with decoder, receiver := .batch frames framingError }
  | .batch [] framingError => { s with receiver := .afterBatch framingError }
  | .batch (_ :: frames) framingError =>
    { s with receiver := if s.valid then .batch frames framingError else .afterBatch framingError }
  | .afterBatch framingError =>
    { s with receiver := if s.valid && framingError = .none then .looping else .left }
  | .left => s

def shutdownSend (s : Sys) : Sys :=
  match s.socket with
  | none => s
  | some socket => if s.closing then s else s.say (.shutdown socket)

/-- `Connection::close`, up to its wait for a sender. -/
def close (s : Sys) : Sys :=
  match s.socket with
  | none => s
  | some socket => { s with closing := true, socket := none }.say (.closesocket socket)

/-- `call` is the call of `send` up to the lock of `sendMutex_`, `stop` the store of `stopping_`. -/
inductive Action where
  | call (t : ℕ) (frame : Frame)
  | send (t : ℕ) (taken : Option ℕ)
  | receive (received : Option (List UInt8))
  | shutdownSend
  | close
  | stop
  deriving DecidableEq, Repr

def next (s : Sys) : Action → Sys
  | .call t frame =>
    match encode frame with
    | .error _ => s
    | .ok bytes => s.sending t (.framed bytes)
  | .send t taken => send s t taken
  | .receive received => receive s received
  | .shutdownSend => shutdownSend s
  | .close => close s
  | .stop => { s with stopping := true }

/-- What a `::send` may have taken. -/
def Sending.mayTake : Sending → Option ℕ → Bool
  | .inSend _ bytes sent, some n => n ≤ min (bytes.length - sent) INT_MAX
  | _, _ => true

def Sending.waits : Sending → Bool
  | .framed _ => true
  | _ => false

def enabled (s : Sys) : Action → Prop
  | .call t _ => s.senders.get t = .idle
  | .send t taken =>
    s.senders.get t ≠ .idle ∧ (s.senders.get t).mayTake taken = true ∧
      ((s.senders.get t).waits = true → ∀ u, (s.senders.get u).holds = false)
  | .receive _ => s.receiver ≠ .left
  | .shutdownSend => True
  | .close => True
  | .stop => True

instance decidableHolds (p : Pool Sending) : Decidable (∀ u, (p.get u).holds = false) :=
  Pool.decidableForall (P := fun x : Sending => x.holds = false) p

instance decidableAims (p : Pool Sending) : Decidable (∀ u, (p.get u).aims = false) :=
  Pool.decidableForall (P := fun x : Sending => x.aims = false) p

instance decidableEnabled (s : Sys) : ∀ a, Decidable (enabled s a)
  | .call t _ => inferInstanceAs (Decidable (s.senders.get t = .idle))
  | .send t taken => inferInstanceAs (Decidable (s.senders.get t ≠ .idle ∧
      (s.senders.get t).mayTake taken = true ∧
      ((s.senders.get t).waits = true → ∀ u, (s.senders.get u).holds = false)))
  | .receive _ => inferInstanceAs (Decidable (s.receiver ≠ .left))
  | .shutdownSend | .close | .stop => .isTrue trivial

def machine : Machine Sys Action := ⟨enabled, next⟩

instance (s : Sys) (a : Action) : Decidable (machine.enabled s a) := decidableEnabled s a

/-! ### What is asked for -/

/-- No `::send` or `::recv` starts with a handle that has been closed. -/
def Safe (log : List Event) : Prop :=
  log.Pairwise fun before after =>
    ∀ handle, before = .closesocket handle → after ≠ .send handle ∧ after ≠ .recv handle

/-- A `::send` fails, or takes all that is left. -/
def Sending.finishes : Sending → Option ℕ → Bool
  | .inSend _ bytes sent, some (n + 1) => bytes.length ≤ sent + (n + 1)
  | _, _ => true

/-- A close comes only while no thread is on its way into `::send` or `::recv` with the handle, and
a `::send` that the close finds under way fails or takes all that is left. -/
def orderly (s : Sys) : Action → Prop
  | .close => s.socket ≠ none → (∀ t, (s.senders.get t).aims = false) ∧ s.receiver ≠ .checked
  | .send t taken => s.socket = none → (s.senders.get t).finishes taken = true
  | _ => True

instance decidableOrderly (s : Sys) : ∀ a, Decidable (orderly s a)
  | .close => inferInstanceAs (Decidable (s.socket ≠ none →
      (∀ t, (s.senders.get t).aims = false) ∧ s.receiver ≠ .checked))
  | .send t taken =>
    inferInstanceAs (Decidable (s.socket = none → (s.senders.get t).finishes taken = true))
  | .call .. | .receive _ | .shutdownSend | .stop => .isTrue trivial

/-! ### The invariant -/

structure Inv (s : Sys) : Prop where
  /-- Once the handle is closed, no thread is on its way into Winsock with it. -/
  senders : s.socket = none → ∀ t, (s.senders.get t).aims = false
  receiver : s.socket = none → s.receiver ≠ .checked
  /-- The handle has not been closed while the connection still has it. -/
  kept : s.socket ≠ none → ∀ handle, .closesocket handle ∉ s.log
  safe : Safe s.log

theorem safe_concat {log : List Event} {e : Event} (h : Safe log)
    (he : (∀ handle, .closesocket handle ∉ log) ∨ ∀ handle, e ≠ .send handle ∧ e ≠ .recv handle) :
    Safe (log ++ [e]) := by
  refine List.pairwise_append.mpr ⟨h, List.pairwise_singleton _ _, ?_⟩
  rintro before hbefore after hafter handle rfl
  obtain rfl := List.mem_singleton.mp hafter
  rcases he with hnone | hother
  · exact absurd hbefore (hnone handle)
  · exact hother handle

theorem inv_start (handle : ℕ) : Inv (opened handle) where
  senders := nofun
  receiver := nofun
  kept _ _ := nofun
  safe := List.Pairwise.nil

variable {s : Sys}

/-- A step of a sender that calls nothing. -/
theorem Inv.sending (I : Inv s) {t : ℕ} {x : Sending} (hx : s.socket = none → x.aims = false) :
    Inv (s.sending t x) :=
  { I with
    senders := fun h => Pool.forall_set (P := fun _ (y : Sending) => y.aims = false)
      (I.senders h) (hx h) }

/-- A call into Winsock other than `closesocket`. -/
theorem Inv.say (I : Inv s) {e : Event} (hclose : ∀ handle, e ≠ .closesocket handle)
    (he : s.socket ≠ none ∨ ∀ handle, e ≠ .send handle ∧ e ≠ .recv handle) : Inv (s.say e) :=
  { I with
    kept := fun h handle hmem => by
      rcases List.mem_append.mp hmem with hmem | hmem
      · exact I.kept h handle hmem
      · exact hclose handle (List.mem_singleton.mp hmem).symm
    safe := safe_concat I.safe (he.imp I.kept id) }

theorem Inv.send (I : Inv s) {t : ℕ} {taken : Option ℕ} (hok : orderly s (.send t taken)) :
    Inv (send s t taken) := by
  have hquiet := fun h => I.senders h t
  unfold Handles.send
  cases hplace : s.senders.get t with
  | idle => exact I
  | framed bytes => exact I.sending fun _ => rfl
  | locked bytes =>
    dsimp only
    cases hsocket : s.socket with
    | none => exact I.sending fun _ => rfl
    | some socket =>
      refine I.sending fun h => ?_
      rw [hsocket] at h
      cases h
  | captured socket bytes sent =>
    rw [hplace] at hquiet
    dsimp only
    split_ifs with hmore
    · have hopen : s.socket ≠ none := fun h => by
        have hend := hquiet h
        rw [Sending.aims, decide_eq_false_iff_not] at hend
        exact hend hmore
      exact (I.sending fun _ => rfl).say nofun (.inl hopen)
    · exact I.sending fun _ => rfl
  | inSend socket bytes sent =>
    have hok' : s.socket = none → (s.senders.get t).finishes taken = true := hok
    rw [hplace] at hok'
    match taken with
    | none => exact I.sending fun _ => rfl
    | some 0 => exact I.sending fun _ => rfl
    | some (n + 1) =>
      refine I.sending fun h => ?_
      have hall := of_decide_eq_true (hok' h)
      rw [Sending.aims, decide_eq_false_iff_not]
      exact Nat.not_lt.mpr hall

/-- A step of the receive loop that calls nothing. -/
theorem Inv.receiving (I : Inv s) {receiver : Receiving} (h : receiver ≠ .checked)
    (decoder : Decoder) : Inv { s with receiver, decoder } :=
  { I with receiver := fun _ => h }

theorem Inv.receive (I : Inv s) (received : Option (List UInt8)) : Inv (receive s received) := by
  unfold Handles.receive
  cases hreceiver : s.receiver with
  | looping => exact I.receiving (by split_ifs <;> nofun) s.decoder
  | checking =>
    refine { I with receiver := fun h => ?_ }
    have hsocket : s.socket = none := h
    have hinvalid : s.valid = false := by rw [Sys.valid, hsocket]; rfl
    simp only [hinvalid]
    nofun
  | checked =>
    have hopen : s.socket ≠ none := fun h => I.receiver h hreceiver
    exact (I.receiving (by nofun) s.decoder).say (by nofun) (.inl hopen)
  | inRecv =>
    match received with
    | none => exact I.receiving (by nofun) s.decoder
    | some [] => exact I.receiving (by nofun) s.decoder
    | some (byte :: data) => exact I.receiving (by nofun) _
  | batch frames framingError =>
    cases frames with
    | nil => exact I.receiving (by nofun) s.decoder
    | cons frame frames => exact I.receiving (by split_ifs <;> nofun) s.decoder
  | afterBatch framingError => exact I.receiving (by split_ifs <;> nofun) s.decoder
  | left => exact I

theorem Inv.close (I : Inv s) (hok : orderly s .close) : Inv (close s) := by
  unfold Handles.close
  cases hsocket : s.socket with
  | none => exact I
  | some socket =>
    obtain ⟨hsenders, hreceiver⟩ := hok (by rw [hsocket]; nofun)
    exact {
      senders := fun _ => hsenders
      receiver := fun _ => hreceiver
      kept := fun h => absurd rfl h
      safe := safe_concat I.safe (.inr fun handle => ⟨nofun, nofun⟩) }

theorem Inv.shutdownSend (I : Inv s) : Inv (shutdownSend s) := by
  unfold Handles.shutdownSend
  cases hsocket : s.socket with
  | none => exact I
  | some socket =>
    dsimp only
    split_ifs
    · exact I
    · exact I.say nofun (.inr fun handle => ⟨nofun, nofun⟩)

theorem inv_next (s : Sys) (a : Action) (I : Inv s) (hok : orderly s a) : Inv (next s a) := by
  cases a with
  | call t frame =>
    rw [next]
    cases encode frame with
    | error e => exact I
    | ok bytes => exact I.sending fun _ => rfl
  | send t taken => exact I.send hok
  | receive received => exact I.receive received
  | shutdownSend => exact I.shutdownSend
  | close => exact I.close hok
  | stop => exact { I with }

/-- **No call on a closed handle** in an orderly run. -/
theorem safe_run {handle : ℕ} {as : List Action} (h : machine.Legal orderly (opened handle) as) :
    Safe (machine.exec (opened handle) as).log := by
  have I : Inv (machine.exec (opened handle) as) :=
    h.invariant (inv_start handle) fun s a I _ hok => inv_next s a I hok
  exact I.safe

/-- A message goes out in two parts, a frame's beginning comes in, and the handle is closed while
both threads are inside Winsock. -/
def orderlyRun : List Action :=
  [.call 0 { channel := 1, payload := [7] }, .send 0 none, .send 0 none, .send 0 none,
    .receive none, .receive none, .receive none, .send 0 (some 10), .send 0 none, .close,
    .send 0 none, .receive none]

theorem safe_run_orderlyRun : Safe (machine.exec (opened 5) orderlyRun).log :=
  safe_run (by decide)

/-- The handle is closed after `send` has copied it. -/
def closedSend : List Action :=
  [.call 0 { channel := 1, payload := [7] }, .send 0 none, .send 0 none, .close, .send 0 none]

/-- The handle is closed after `valid()` has said yes. -/
def closedRecv : List Action := [.receive none, .receive none, .close, .receive none]

theorem not_safe_run :
    (machine.Legal (fun _ _ => True) (opened 5) closedSend ∧
      (machine.exec (opened 5) closedSend).log = [.closesocket 5, .send 5] ∧
      ¬Safe (machine.exec (opened 5) closedSend).log) ∧
    (machine.Legal (fun _ _ => True) (opened 5) closedRecv ∧
      (machine.exec (opened 5) closedRecv).log = [.closesocket 5, .recv 5] ∧
      ¬Safe (machine.exec (opened 5) closedRecv).log) := by
  have hsend : (machine.exec (opened 5) closedSend).log = [.closesocket 5, .send 5] := by decide
  have hrecv : (machine.exec (opened 5) closedRecv).log = [.closesocket 5, .recv 5] := by decide
  refine ⟨⟨by decide, hsend, fun h => ?_⟩, ⟨by decide, hrecv, fun h => ?_⟩⟩
  · rw [hsend] at h
    exact (List.pairwise_pair.mp h 5 rfl).1 rfl
  · rw [hrecv] at h
    exact (List.pairwise_pair.mp h 5 rfl).2 rfl

end RemoteCam.Net.Handles
