import RemoteCam.Lib.Transitions
import RemoteCam.Wire.Chunks

/-! # The sending side of a TCP connection

`Connection::send` frames its message, takes `sendMutex_`, captures the socket and loops over
`::send`. A step here is one of: the call up to the loop, one `::send` that takes some bytes, one
that fails, the end of the loop, `shutdownSend`, `close`. `::send` is free in what it takes and in
when it fails, but takes nothing on a socket that was closed or shut down.

A failed `send` reports its error and leaves the socket as it is. `wholeFrames_of_run` therefore
needs that `::send` fails in the middle of a frame only on a dead socket; `midFrameFailure` is the
run in which it does not. -/

namespace RemoteCam.Net.TcpListener

open RemoteCam.Wire.Codec RemoteCam.Wire.Chunks RemoteCam.Lib.Transitions

/-- The most that one `::send` is asked to take. -/
def INT_MAX : ℕ := 2 ^ 31 - 1

/-- A call of `send` that reached the loop, and how many of its bytes the kernel took. -/
structure Send where
  frame : Frame
  bytes : List UInt8
  written : ℕ := 0
  deriving DecidableEq, Repr

def Send.remaining (s : Send) : ℕ := s.bytes.length - s.written

structure Connection where
  /-- `socket_` is not `INVALID_SOCKET`. -/
  socketValid : Bool := true
  closing : Bool := false
  /-- The kernel's side of `shutdown(SD_SEND)`. -/
  sendShut : Bool := false
  /-- The thread inside the loop; it owns `sendMutex_`. -/
  sender : Option ℕ := none
  /-- The calls that reached the loop, the newest first. -/
  sends : List Send := []
  /-- The bytes the kernel took, in order. -/
  kernel : List UInt8 := []
  deriving DecidableEq, Repr

/-- `::send` may still take bytes. -/
def Connection.alive (c : Connection) : Bool := c.socketValid && !c.sendShut

inductive Action where
  | send (thread : ℕ) (frame : Frame)
  | accept (thread : ℕ) (count : ℕ)
  | fail (thread : ℕ)
  | finish (thread : ℕ)
  | shutdownSend
  | close
  deriving DecidableEq, Repr

/-- How much the call in the loop still has to hand over. -/
def Connection.remaining (c : Connection) : ℕ := (c.sends.head?.map Send.remaining).getD 0

def enabled (c : Connection) : Action → Prop
  | .send _ frame => (encode frame).isOk → c.sender = none
  | .accept thread count =>
    c.sender = some thread ∧ c.alive ∧ 0 < count ∧ count ≤ min c.remaining INT_MAX
  | .fail thread => c.sender = some thread ∧ 0 < c.remaining
  | .finish thread => c.sender = some thread ∧ c.remaining = 0
  | .shutdownSend => True
  | .close => True

/-- A `::send` that took `count` bytes. -/
def take (c : Connection) (count : ℕ) : Connection :=
  match c.sends with
  | [] => c
  | s :: sends =>
    { c with
      sends := { s with written := s.written + count } :: sends
      kernel := c.kernel ++ (s.bytes.drop s.written).take count }

def next (c : Connection) : Action → Connection
  | .send thread frame =>
    match encode frame with
    | .error _ => c
    | .ok bytes =>
      if !c.socketValid || c.closing then c
      else { c with sender := some thread, sends := { frame, bytes } :: c.sends }
  | .accept _ count => take c count
  | .fail _ => { c with sender := none }
  | .finish _ => { c with sender := none }
  | .shutdownSend => if c.socketValid && !c.closing then { c with sendShut := true } else c
  | .close => if c.socketValid then { c with closing := true, socketValid := false } else c

instance (c : Connection) (a : Action) : Decidable (enabled c a) := by
  cases a <;> unfold enabled <;> infer_instance

def connection : Machine Connection Action := ⟨enabled, next⟩

instance (c : Connection) (a : Action) : Decidable (connection.enabled c a) :=
  inferInstanceAs (Decidable (enabled c a))

/-! ### What the peer relies on -/

/-- None of the bytes was taken, or all were. -/
def Send.atomic (s : Send) : Prop := s.written = 0 ∨ s.written = s.bytes.length

instance (s : Send) : Decidable s.atomic := inferInstanceAs (Decidable (_ ∨ _))

/-- The kernel holds whole frames and at most the beginning of one more, and once a call stopped in
the middle of its frame no later one hands over a byte. -/
structure WholeFrames (c : Connection) : Prop where
  frames : ∃ fs bytes tail, encodeAll fs = .ok bytes ∧ c.kernel = bytes ++ tail ∧
    (tail = [] ∨ ∃ f b, encode f = .ok b ∧ tail <+: b ∧ tail ≠ b)
  later : c.sends.Pairwise fun after before => 0 < after.written → before.atomic

/-- `::send` fails on a frame of which it took nothing, or on a socket that takes nothing more. -/
def cleanFailure (c : Connection) : Action → Prop
  | .fail _ => c.sends.head?.all (·.written = 0) ∨ c.alive = false
  | _ => True

/-! ### The calls and the kernel -/

/-- The bytes taken from a list of calls, the newest first. -/
def takenFrom : List Send → List UInt8
  | [] => []
  | s :: sends => takenFrom sends ++ s.bytes.take s.written

theorem encodeAll_concat {fs : List Frame} {f : Frame} {bytes b : List UInt8}
    (hfs : encodeAll fs = .ok bytes) (hf : encode f = .ok b) :
    encodeAll (fs ++ [f]) = .ok (bytes ++ b) := by
  induction fs generalizing bytes with
  | nil =>
    obtain rfl := Except.ok.inj hfs
    simp [encodeAll, hf, bind, Except.bind]
  | cons g fs ih =>
    rcases hg : encode g with e | b' <;> rw [encodeAll, hg] at hfs
    · cases hfs
    rcases hr : encodeAll fs with e | r <;> rw [hr] at hfs
    · cases hfs
    obtain rfl := Except.ok.inj hfs
    simp [encodeAll, hg, ih hr, bind, Except.bind]

/-- Calls that are each atomic hand over whole frames. -/
theorem takenFrom_atomic {sends : List Send}
    (hbytes : ∀ s ∈ sends, encode s.frame = .ok s.bytes) (hatomic : ∀ s ∈ sends, s.atomic) :
    ∃ fs, encodeAll fs = .ok (takenFrom sends) := by
  induction sends with
  | nil => exact ⟨[], rfl⟩
  | cons s sends ih =>
    obtain ⟨fs, hfs⟩ := ih (fun x hx => hbytes x (List.mem_cons_of_mem _ hx))
      (fun x hx => hatomic x (List.mem_cons_of_mem _ hx))
    rcases hatomic s List.mem_cons_self with h0 | hall
    · exact ⟨fs, by rw [takenFrom, h0, List.take_zero, List.append_nil, hfs]⟩
    · refine ⟨fs ++ [s.frame], ?_⟩
      rw [takenFrom, hall, List.take_length]
      exact encodeAll_concat hfs (hbytes s List.mem_cons_self)

/-- Where every call before one that handed over a byte is atomic, the whole is frames and at most
the beginning of one. -/
theorem takenFrom_frames {sends : List Send}
    (hbytes : ∀ s ∈ sends, encode s.frame = .ok s.bytes)
    (hlater : sends.Pairwise fun after before => 0 < after.written → before.atomic) :
    ∃ fs bytes tail, encodeAll fs = .ok bytes ∧ takenFrom sends = bytes ++ tail ∧
      (tail = [] ∨ ∃ f b, encode f = .ok b ∧ tail <+: b ∧ tail ≠ b) := by
  induction sends with
  | nil => exact ⟨[], [], [], rfl, rfl, .inl rfl⟩
  | cons s sends ih =>
    obtain ⟨hs, htail⟩ := List.pairwise_cons.mp hlater
    have hrest : ∀ x ∈ sends, encode x.frame = .ok x.bytes :=
      fun x hx => hbytes x (List.mem_cons_of_mem _ hx)
    rcases Nat.eq_zero_or_pos s.written with h0 | hpos
    · obtain ⟨fs, bytes, tail, h1, h2, h3⟩ := ih hrest htail
      exact ⟨fs, bytes, tail, h1, by rw [takenFrom, h0, List.take_zero, List.append_nil, h2], h3⟩
    · obtain ⟨fs, hfs⟩ := takenFrom_atomic hrest (fun x hx => hs x hx hpos)
      have hb := hbytes s List.mem_cons_self
      by_cases hwhole : s.bytes.take s.written = s.bytes
      · refine ⟨fs ++ [s.frame], takenFrom sends ++ s.bytes, [], encodeAll_concat hfs hb, ?_,
          .inl rfl⟩
        rw [takenFrom, hwhole, List.append_nil]
      · exact ⟨fs, _, _, hfs, rfl, .inr ⟨s.frame, s.bytes, hb, List.take_prefix _ _, hwhole⟩⟩

/-! ### The invariant -/

/-- The calls that have left the loop. -/
def Connection.left (c : Connection) : List Send :=
  if c.sender = none then c.sends else c.sends.tail

structure Inv (c : Connection) : Prop where
  bytes : ∀ s ∈ c.sends, encode s.frame = .ok s.bytes
  within : ∀ s ∈ c.sends, s.written ≤ s.bytes.length
  kernel : c.kernel = takenFrom c.sends
  later : c.sends.Pairwise fun after before => 0 < after.written → before.atomic
  /-- While the socket takes bytes, no call has stopped in the middle of its frame. -/
  clean : c.alive → ∀ s ∈ c.left, s.atomic

theorem inv_init : Inv {} := ⟨nofun, nofun, rfl, .nil, nofun⟩

theorem inv_send {c : Connection} (h : Inv c) {thread : ℕ} {frame : Frame}
    (he : enabled c (.send thread frame)) : Inv (next c (.send thread frame)) := by
  rcases hf : encode frame with e | bytes <;> simp only [next, hf]
  · exact h
  split_ifs with hclosed
  · exact h
  have hfree : c.sender = none := he (by rw [hf]; rfl)
  refine ⟨List.forall_mem_cons.mpr ⟨hf, h.bytes⟩,
    List.forall_mem_cons.mpr ⟨Nat.zero_le _, h.within⟩, ?_, ?_, ?_⟩
  · rw [takenFrom, List.take_zero, List.append_nil]
    exact h.kernel
  · exact List.pairwise_cons.mpr ⟨fun _ _ hpos => absurd hpos (lt_irrefl 0), h.later⟩
  · intro halive s hs
    have hleft : c.left = c.sends := if_pos hfree
    exact h.clean halive s (by rwa [hleft])

theorem inv_accept {c : Connection} (h : Inv c) {thread count : ℕ}
    (he : enabled c (.accept thread count)) : Inv (next c (.accept thread count)) := by
  obtain ⟨hsender, halive, hpos, hcount⟩ := he
  obtain ⟨hbytes, hwithin, hkernel, hlater, hclean⟩ := h
  rcases hsends : c.sends with _ | ⟨s, sends⟩
  · have h0 : c.remaining = 0 := by rw [Connection.remaining, hsends]; rfl
    omega
  have hremaining : c.remaining = s.remaining := by rw [Connection.remaining, hsends]; rfl
  have hleft : c.left = sends := by rw [Connection.left, if_neg (by rw [hsender]; nofun), hsends]; rfl
  rw [hsends] at hbytes hwithin hkernel hlater
  rw [hleft] at hclean
  simp only [next, take, hsends]
  refine ⟨?_, ?_, ?_, ?_, ?_⟩
  · rw [List.forall_mem_cons] at hbytes ⊢
    exact hbytes
  · rw [List.forall_mem_cons] at hwithin ⊢
    rw [hremaining, Send.remaining] at hcount
    exact ⟨by dsimp only; omega, hwithin.2⟩
  · simp only [takenFrom, hkernel, List.append_assoc, ← List.take_add]
  · rw [List.pairwise_cons] at hlater ⊢
    exact ⟨fun x hx _ => hclean halive x hx, hlater.2⟩
  · intro _ x hx
    exact hclean halive x (by simpa [Connection.left, hsender] using hx)

/-- A call leaves the loop: its frame is whole, untouched, or the socket is dead. -/
theorem inv_leave {c : Connection} (h : Inv c) {thread : ℕ} (hsender : c.sender = some thread)
    (hs : c.alive → ∀ s ∈ c.sends.head?, s.atomic) : Inv { c with sender := none } := by
  obtain ⟨hbytes, hwithin, hkernel, hlater, hclean⟩ := h
  have hleft : c.left = c.sends.tail := if_neg (by rw [hsender]; nofun)
  rw [hleft] at hclean
  refine ⟨hbytes, hwithin, hkernel, hlater, fun halive s hmem => ?_⟩
  change s ∈ c.sends at hmem
  rcases hsends : c.sends with _ | ⟨x, sends⟩
  · rw [hsends] at hmem
    cases hmem
  · rw [hsends] at hmem
    rcases List.mem_cons.mp hmem with rfl | hmem
    · exact hs halive s (by rw [hsends]; rfl)
    · exact hclean halive s (by rwa [hsends])

/-- **One step keeps the invariant**, if a failing `::send` fails cleanly. -/
theorem inv_step {c : Connection} {a : Action} (h : Inv c) (he : enabled c a)
    (hclean : cleanFailure c a) : Inv (next c a) := by
  cases a with
  | send thread frame => exact inv_send h he
  | accept thread count => exact inv_accept h he
  | fail thread =>
    refine inv_leave h he.1 fun halive s hs => ?_
    rcases hclean with h0 | hdead
    · rw [hs] at h0
      exact .inl (by simpa using h0)
    · rw [hdead] at halive
      cases halive
  | finish thread =>
    refine inv_leave h he.1 fun _ s hs => ?_
    have hremaining : s.bytes.length - s.written = 0 := by
      have h0 := he.2
      rw [Connection.remaining, hs] at h0
      exact h0
    have hle := h.within s (List.mem_of_mem_head? hs)
    exact .inr (by omega)
  | shutdownSend =>
    simp only [next]
    split_ifs
    · exact ⟨h.bytes, h.within, h.kernel, h.later, by simp [Connection.alive]⟩
    · exact h
  | close =>
    simp only [next]
    split_ifs
    · exact ⟨h.bytes, h.within, h.kernel, h.later, by simp [Connection.alive]⟩
    · exact h

/-- **Whole frames in every run** whose failing `::send`s fail cleanly, whichever threads call
`send` and however `::send` cuts the frames. -/
theorem wholeFrames_of_run (as : List Action) (h : connection.Legal cleanFailure {} as) :
    WholeFrames (connection.exec {} as) := by
  have hinv : Inv (connection.exec {} as) :=
    h.invariant inv_init fun _ _ hi he hc => inv_step hi he hc
  exact ⟨by rw [hinv.kernel]; exact takenFrom_frames hinv.bytes hinv.later, hinv.later⟩

/-- A control message cut into two, a keyframe refused before its first byte, and a close in the
middle of the last message. -/
def cleanRun : List Action :=
  [.send 0 { channel := 1, payload := [7] }, .accept 0 10, .accept 0 7, .finish 0,
    .send 1 { channel := 2, payload := [8, 9] }, .fail 1,
    .send 0 { channel := 1 }, .accept 0 3, .close, .fail 0]

instance (c : Connection) (a : Action) : Decidable (cleanFailure c a) := by
  cases a <;> unfold cleanFailure <;> infer_instance

theorem wholeFrames_of_cleanRun : WholeFrames (connection.exec {} cleanRun) :=
  wholeFrames_of_run cleanRun (by decide)

/-- A frame fails after ten of its bytes, as on a send timeout, and another thread's frame goes out
behind them. -/
def midFrameFailure : List Action :=
  [.send 0 { channel := 1, payload := [7] }, .accept 0 10, .fail 0,
    .send 1 { channel := 1, payload := [8] }, .accept 1 17, .finish 1]

theorem not_wholeFrames_of_midFrameFailure :
    ∃ as, connection.Legal (fun _ _ => True) {} as ∧ ¬ WholeFrames (connection.exec {} as) :=
  ⟨midFrameFailure, by decide, fun h => absurd h.later (by decide)⟩

end RemoteCam.Net.TcpListener
