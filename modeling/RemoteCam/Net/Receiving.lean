import RemoteCam.Net.TcpListener

/-! # The other end of the connection

`TcpClient::receive` hands out one frame at a time: first what is pending, then what the decoder
finds in the next `::recv`. A step is a call of `receive` up to its loop, one round of the loop, a
`connect` or a `close`, which may come from another thread.

`returned_of_run` is about a client alone, with any answers of `::recv`. `framed_of_run` puts it at
the other end of a `Connection`: however many threads send, however `::send` and `::recv` cut the
bytes and whenever the connection ends, it returns the frames that were taken whole, in order. -/

namespace RemoteCam.Net.Receiving

open RemoteCam.Lib.Framing RemoteCam.Lib.Transitions RemoteCam.Wire.Codec RemoteCam.Wire.Chunks
open RemoteCam.Net.TcpListener (Connection Send takenFrom)

inductive HRESULT where
  | S_OK
  | E_INVALIDARG
  | ERROR_INVALID_STATE
  | ERROR_CONNECTION_ABORTED
  | ERROR_TIMEOUT
  | ERROR_HOST_UNREACHABLE
  | wsa (error : ℤ)
  deriving DecidableEq, Repr

def WSAEWOULDBLOCK : ℤ := 10035
def WSAETIMEDOUT : ℤ := 10060

/-- What `::recv` is asked for. -/
def chunkBytes : ℕ := 64 * 1024

structure TcpClient where
  /-- `socket_` is not `INVALID_SOCKET`. -/
  socketValid : Bool := false
  decoder : Decoder := {}
  pending : List Frame := []
  /-- A thread is in the loop of `receive`. -/
  receiving : Bool := false
  deriving DecidableEq, Repr

/-- What came of one of the addresses: the error of the call that failed, if one did. -/
abbrev Attempt := Option ℤ

/-- The loop of `connect`, with `last` as it is before the first of the addresses. -/
def tryAddresses (last : HRESULT) : List Attempt → HRESULT
  | [] => last
  | none :: _ => .S_OK
  | some error :: addresses => tryAddresses (.wsa error) addresses

/-- `lookup` is what `getaddrinfo` answers. -/
def connect (c : TcpClient) (host : String) (port : ℕ) (lookup : Except ℤ (List Attempt)) :
    HRESULT × TcpClient :=
  if host.isEmpty || port = 0 then (.E_INVALIDARG, c)
  else
    match lookup with
    | .error error => (.wsa error, {})
    | .ok addresses =>
      let last := tryAddresses .ERROR_HOST_UNREACHABLE addresses
      (last, { socketValid := last = .S_OK })

def close (c : TcpClient) : TcpClient := { c with socketValid := false }

/-- What a call of `receive` returns. -/
abbrev Outcome := Except HRESULT Frame

/-- `receive` up to its loop; `options` is the error of `::setsockopt`, if it fails. -/
def receive (c : TcpClient) (options : Option ℤ) : Option Outcome × TcpClient :=
  match c.pending with
  | frame :: pending => (some (.ok frame), { c with pending })
  | [] =>
    if c.socketValid then
      match options with
      | some error => (some (.error (.wsa error)), c)
      | none => (none, { c with receiving := true })
    else (some (.error .ERROR_INVALID_STATE), c)

/-- One round of the loop: `::recv` has received some bytes, none, or failed. -/
def recv (c : TcpClient) : Except ℤ (List UInt8) → Option Outcome × TcpClient
  | .ok [] => (some (.error .ERROR_CONNECTION_ABORTED), { c with receiving := false })
  | .error error =>
    (some (.error (if error = WSAETIMEDOUT ∨ error = WSAEWOULDBLOCK then .ERROR_TIMEOUT
      else .wsa error)), { c with receiving := false })
  | .ok data =>
    let (error, frames, decoder) := c.decoder.append data
    if error = .none then
      match c.pending ++ frames with
      | [] => (none, { c with decoder })
      | frame :: pending => (some (.ok frame), { c with decoder, pending, receiving := false })
    else
      (some (.error .E_INVALIDARG),
        { c with decoder, pending := c.pending ++ frames, receiving := false })

/-- `connect` reaches an address iff one of them lets it, whichever failed before. -/
theorem tryAddresses_eq_ok {last : HRESULT} (h : last ≠ .S_OK) (addresses : List Attempt) :
    tryAddresses last addresses = .S_OK ↔ none ∈ addresses := by
  induction addresses generalizing last with
  | nil => simp [tryAddresses, h]
  | cons attempt addresses ih =>
    cases attempt with
    | none => simp [tryAddresses]
    | some error => simp [tryAddresses, @ih (.wsa error) nofun]

/-! ### Runs of a client -/

inductive Action where
  | connect (host : String) (port : ℕ) (lookup : Except ℤ (List Attempt))
  | receive (options : Option ℤ)
  | recv (received : Except ℤ (List UInt8))
  | close
  deriving Repr

/-- A client with what it has heard and what `receive` has returned since the last `connect`. -/
structure Listening where
  client : TcpClient := {}
  heard : List UInt8 := []
  outcomes : List Outcome := []

namespace Listening

/-- A call of `receive` returns, if it does. -/
def returns (s : Listening) (r : Option Outcome × TcpClient) : Listening :=
  { s with client := r.2, outcomes := s.outcomes ++ r.1.toList }

/-- The frames handed out. -/
def returned (s : Listening) : List Frame := s.outcomes.filterMap fun
  | .ok frame => some frame
  | .error _ => none

end Listening

/-- The bytes of an answer of `::recv`. -/
def bytesOf : Except ℤ (List UInt8) → List UInt8
  | .ok data => data
  | .error _ => []

/-- `connect` and `receive` are called by one thread. -/
def enabled (s : Listening) : Action → Prop
  | .connect .. => s.client.receiving = false
  | .receive _ => s.client.receiving = false
  | .recv received => s.client.receiving = true ∧ (bytesOf received).length ≤ chunkBytes
  | .close => True

def next (s : Listening) : Action → Listening
  | .connect host port lookup =>
    if host.isEmpty || port = 0 then s
    else { client := (connect s.client host port lookup).2 }
  | .receive options => s.returns (receive s.client options)
  | .recv received =>
    { s with heard := s.heard ++ bytesOf received }.returns (recv s.client received)
  | .close => { s with client := close s.client }

instance decidableEnabled (s : Listening) : ∀ a, Decidable (enabled s a)
  | .connect .. => inferInstanceAs (Decidable (s.client.receiving = false))
  | .receive _ => inferInstanceAs (Decidable (s.client.receiving = false))
  | .recv received => inferInstanceAs (Decidable (s.client.receiving = true ∧
      (bytesOf received).length ≤ chunkBytes))
  | .close => .isTrue trivial

def machine : Machine Listening Action := ⟨enabled, next⟩

instance (s : Listening) (a : Action) : Decidable (machine.enabled s a) := decidableEnabled s a

/-! ### What a client has heard -/

/-- Where the stream broke there is `E_INVALIDARG` among the outcomes, and nowhere else. -/
structure Inv (s : Listening) : Prop where
  sound : Sound s.client.decoder
  /-- The decoder with what it has handed on is the parsed stream. -/
  stream : (parsed s.client.decoder (s.returned ++ s.client.pending)).Agree (wire.parse s.heard)
  refused : .error .E_INVALIDARG ∈ s.outcomes ↔ s.client.decoder.failed = true
  empty : s.client.receiving = true → s.client.pending = []

theorem inv_init (client : TcpClient) (hdecoder : client.decoder = {})
    (hpending : client.pending = []) : Inv { client } := by
  refine ⟨by rw [hdecoder]; exact sound_init, ?_, ?_, fun _ => hpending⟩
  · have hnil : wire.parse [] = {} := Splitter.parse_more wire.next_nil
    dsimp only
    rw [hnil, hdecoder, hpending]
    exact ⟨rfl, rfl, fun _ => rfl⟩
  · rw [hdecoder]
    simp

variable {s : Listening}

/-- What is pushed onto a parsed stream is parsed with it. -/
theorem agree_push {p : Parsed UInt8 Frame Error} {xs : List UInt8} (h : p.Agree (wire.parse xs))
    (ys : List UInt8) : (wire.push p ys).Agree (wire.parse (xs ++ ys)) := by
  obtain ⟨hitems, herror, hrest⟩ := h
  cases he : (wire.parse xs).error with
  | none =>
    rw [Splitter.push_none (herror.trans he), Splitter.parse_append he, hitems, hrest he]
    exact ⟨rfl, rfl, fun _ => rfl⟩
  | some e =>
    obtain ⟨h1, h2⟩ := Splitter.parse_append_error he ys
    rw [Splitter.push_error (herror.trans he)]
    exact ⟨hitems.trans h1.symm, (herror.trans he).trans h2.symm, fun h => by rw [h2] at h; cases h⟩

theorem returned_returns (r : Option Outcome × TcpClient) :
    (s.returns r).returned = s.returned ++ (r.1.bind fun
      | .ok frame => some frame
      | .error _ => none).toList := by
  unfold Listening.returned Listening.returns
  rw [List.filterMap_append]
  rcases r with ⟨_ | _ | frame, client⟩ <;> rfl

/-- An outcome that is no frame and not `E_INVALIDARG`, or none yet. -/
theorem Inv.quiet (I : Inv s) {r : Option Outcome} {client : TcpClient}
    (hr : ∀ x, r = some x → ∃ error, x = .error error ∧ error ≠ .E_INVALIDARG)
    (hdecoder : client.decoder = s.client.decoder) (hpending : client.pending = s.client.pending)
    (hempty : client.receiving = true → client.pending = []) : Inv (s.returns (r, client)) := by
  have hreturned : (s.returns (r, client)).returned = s.returned := by
    rw [returned_returns]
    cases r with
    | none => exact List.append_nil _
    | some x =>
      obtain ⟨error, rfl, -⟩ := hr x rfl
      exact List.append_nil _
  refine ⟨?_, ?_, ?_, hempty⟩
  · exact (congrArg Sound hdecoder).mpr I.sound
  · rw [hreturned]
    change (parsed client.decoder (s.returned ++ client.pending)).Agree _
    rw [hdecoder, hpending]
    exact I.stream
  · change .error .E_INVALIDARG ∈ s.outcomes ++ r.toList ↔ client.decoder.failed = true
    rw [hdecoder, ← I.refused, List.mem_append, or_iff_left]
    intro hmem
    obtain ⟨error, herror, hne⟩ := hr _ (Option.mem_toList.mp hmem)
    exact hne (Except.error.inj herror).symm

theorem Inv.receive (I : Inv s) (hfree : s.client.receiving = false) (options : Option ℤ) :
    Inv (s.returns (receive s.client options)) := by
  have hidle {client : TcpClient} (h : client.receiving = s.client.receiving) :
      client.receiving = true → client.pending = [] := fun ht => by
    rw [h, hfree] at ht
    cases ht
  unfold Receiving.receive
  rcases hpending : s.client.pending with _ | ⟨frame, pending⟩ <;> dsimp only
  · split_ifs
    · cases options with
      | some error =>
        exact I.quiet (fun x hx => ⟨_, (Option.some.inj hx).symm, nofun⟩) rfl rfl (hidle rfl)
      | none => exact I.quiet nofun rfl hpending.symm fun _ => rfl
    · exact I.quiet (fun x hx => ⟨_, (Option.some.inj hx).symm, nofun⟩) rfl rfl (hidle rfl)
  · refine ⟨I.sound, ?_, ?_, hidle rfl⟩
    · have h := I.stream
      rw [hpending] at h
      rw [returned_returns]
      change (parsed s.client.decoder ((s.returned ++ [frame]) ++ pending)).Agree _
      rwa [List.append_assoc]
    · change .error .E_INVALIDARG ∈ s.outcomes ++ [.ok frame] ↔ _
      rw [List.mem_append, or_iff_left (by simp)]
      exact I.refused

theorem parse_error {xs : List UInt8} {e : Error} (h : (wire.parse xs).error = some e) :
    e ≠ .none := by
  fun_induction wire.parse xs with
  | case1 xs hx => cases h
  | case2 xs e' hx => exact Option.some.inj h ▸ examine_bad hx
  | case3 xs f n hx p ih => exact ih h

/-- A chunk is refused iff the stream is broken with it. -/
theorem append_eq_none {d : Decoder} {frames : List Frame} {xs : List UInt8} {error : Error}
    (hd : Sound d) (hstream : (parsed d frames).Agree (wire.parse xs)) (herror : error = d.failure) :
    error = .none ↔ d.failed = false := by
  rw [herror]
  refine ⟨fun hnone => ?_, hd.failure⟩
  by_contra hfailed
  have he : (parsed d frames).error = some d.failure :=
    if_pos (by simpa using hfailed)
  exact parse_error (hstream.2.1.symm.trans he) hnone

theorem Inv.recv (I : Inv s) (hloop : s.client.receiving = true)
    (received : Except ℤ (List UInt8)) :
    Inv ({ s with heard := s.heard ++ bytesOf received }.returns (recv s.client received)) := by
  have hpending := I.empty hloop
  have hquiet : ({ s with heard := s.heard ++ [] } : Listening) = s := by
    rw [List.append_nil]
  match received with
  | .error error =>
    change Inv ({ s with heard := s.heard ++ [] }.returns _)
    rw [hquiet]
    refine I.quiet (fun x hx => ⟨_, (Option.some.inj hx).symm, ?_⟩) rfl rfl nofun
    split_ifs <;> nofun
  | .ok [] =>
    change Inv ({ s with heard := s.heard ++ [] }.returns _)
    rw [hquiet]
    exact I.quiet (fun x hx => ⟨_, (Option.some.inj hx).symm, nofun⟩) rfl rfl nofun
  | .ok (byte :: data) =>
    have hstream := I.stream
    rw [hpending, List.append_nil] at hstream
    obtain ⟨hsound, herror, hpush⟩ := parsed_append I.sound s.returned (byte :: data)
    have hagree := agree_push hstream (byte :: data)
    rw [← hpush] at hagree
    have hnone := append_eq_none hsound hagree herror
    have hstays : s.client.decoder.failed = true →
        (s.client.decoder.append (byte :: data)).2.2.failed = true := fun h => by
      rw [Decoder.append, if_pos h]
      exact h
    rcases hr : s.client.decoder.append (byte :: data) with ⟨error, frames, decoder⟩
    rw [hr] at hsound hagree hnone hstays
    dsimp only at hsound hagree hnone hstays
    simp only [Receiving.recv, hr, hpending, List.nil_append]
    split_ifs with herr
    · have hrefused : .error .E_INVALIDARG ∈ s.outcomes ↔ decoder.failed = true := by
        rw [I.refused, hnone.mp herr]
        refine ⟨fun h => ?_, nofun⟩
        rw [hstays h] at hnone
        cases hnone.mp herr
      cases frames with
      | nil =>
        refine ⟨hsound, ?_, ?_, fun _ => rfl⟩
        · rw [returned_returns]
          rw [List.append_nil] at hagree
          change (parsed decoder (s.returned ++ [] ++ [])).Agree _
          rwa [List.append_nil, List.append_nil]
        · change _ ∈ s.outcomes ++ [] ↔ _
          rw [List.append_nil]
          exact hrefused
      | cons frame pending =>
        refine ⟨hsound, ?_, ?_, nofun⟩
        · rw [returned_returns]
          change (parsed decoder (s.returned ++ [frame] ++ pending)).Agree _
          rwa [List.append_assoc]
        · change _ ∈ s.outcomes ++ [.ok frame] ↔ _
          rw [List.mem_append, or_iff_left (by simp)]
          exact hrefused
    · refine ⟨hsound, ?_, ?_, nofun⟩
      · rw [returned_returns]
        change (parsed decoder (s.returned ++ [] ++ frames)).Agree _
        rwa [List.append_nil]
      · have hfailed : decoder.failed = true := by
          simpa using mt hnone.mpr herr
        refine iff_of_true ?_ hfailed
        exact List.mem_append_right _ List.mem_cons_self

theorem Inv.next {a : Action} (I : Inv s) (he : enabled s a) : Inv (next s a) := by
  cases a with
  | connect host port lookup =>
    unfold Receiving.next
    dsimp only
    split_ifs with hargs
    · exact I
    · refine inv_init _ ?_ ?_ <;>
        (unfold connect; rw [if_neg hargs]; cases lookup <;> rfl)
  | receive options => exact I.receive he options
  | recv received => exact I.recv he.1 received
  | close => exact ⟨I.sound, I.stream, I.refused, I.empty⟩

/-- The frames of the calls that were taken whole, the oldest first. -/
def carried : List Send → List Frame
  | [] => []
  | s :: sends => carried sends ++ if s.written = s.bytes.length then [s.frame] else []

theorem encode_pos {f : Frame} {bytes : List UInt8} (h : encode f = .ok bytes) :
    0 < bytes.length := by
  obtain ⟨-, -, rfl⟩ := encode_ok h
  rw [List.length_append, length_header]
  exact Nat.add_pos_left (by decide) _

theorem parse_encode {f : Frame} {bytes : List UInt8} (h : encode f = .ok bytes) :
    wire.parse bytes = { items := [f] } := by
  have hnil : wire.parse [] = {} := Splitter.parse_more wire.next_nil
  have hitem := @Splitter.parse_item_append _ _ _ wire _ [] _ (examine_encode h)
  rwa [List.append_nil, hnil] at hitem

/-- The beginning of a frame is waited with. -/
theorem parse_take_encode {f : Frame} {bytes : List UInt8} (h : encode f = .ok bytes) {n : ℕ}
    (hn : n < bytes.length) : wire.parse (bytes.take n) = { rest := bytes.take n } := by
  have hwhole := examine_encode h
  refine Splitter.parse_more (S := wire) ?_
  by_contra hverdict
  have hsame := examine_append hverdict (bytes.drop n)
  rw [List.take_append_drop, hwhole] at hsame
  have hle := (examine_item hsame.symm).2
  rw [List.length_take] at hle
  omega

/-- The calls, read back. -/
theorem parse_takenFrom {sends : List Send}
    (hbytes : ∀ s ∈ sends, encode s.frame = .ok s.bytes)
    (hwithin : ∀ s ∈ sends, s.written ≤ s.bytes.length)
    (hlater : sends.Pairwise fun after before => 0 < after.written → before.atomic) :
    (wire.parse (takenFrom sends)).items = carried sends ∧
      (wire.parse (takenFrom sends)).error = none ∧
      ((∀ s ∈ sends, s.atomic) → (wire.parse (takenFrom sends)).rest = []) := by
  induction sends with
  | nil =>
    rw [takenFrom, Splitter.parse_more wire.next_nil]
    exact ⟨rfl, rfl, fun _ => rfl⟩
  | cons s sends ih =>
    obtain ⟨hs, htail⟩ := List.pairwise_cons.mp hlater
    obtain ⟨hencode, hbytes⟩ := List.forall_mem_cons.mp hbytes
    obtain ⟨hle, hwithin⟩ := List.forall_mem_cons.mp hwithin
    obtain ⟨hitems, herror, hrest⟩ := ih hbytes hwithin htail
    have hpos := encode_pos hencode
    rcases Nat.eq_zero_or_pos s.written with h0 | hsome
    · rw [takenFrom, h0, List.take_zero, List.append_nil, carried, if_neg (by omega),
        List.append_nil]
      exact ⟨hitems, herror, fun h => hrest (List.forall_mem_cons.mp h).2⟩
    · rw [takenFrom, Splitter.parse_append herror, hrest fun x hx => hs x hx hsome,
        List.nil_append, hitems, carried]
      by_cases hall : s.written = s.bytes.length
      · rw [if_pos hall, hall, List.take_length, parse_encode hencode]
        exact ⟨rfl, rfl, fun _ => rfl⟩
      · rw [if_neg hall, parse_take_encode hencode (by omega)]
        refine ⟨rfl, rfl, fun hatomic => ?_⟩
        rcases hatomic s List.mem_cons_self with h | h <;> omega

/-- What was heard so far is a beginning of what there is. -/
theorem parse_prefix {xs ys : List UInt8} (h : xs <+: ys) (herror : (wire.parse ys).error = none) :
    (wire.parse xs).error = none ∧ (wire.parse xs).items <+: (wire.parse ys).items := by
  obtain ⟨rest, rfl⟩ := h
  have hnone : (wire.parse xs).error = none := by
    by_contra hsome
    obtain ⟨e, he⟩ := Option.ne_none_iff_exists'.mp hsome
    rw [(Splitter.parse_append_error he rest).2] at herror
    cases herror
  refine ⟨hnone, ?_⟩
  rw [Splitter.parse_append hnone]
  exact List.prefix_append _ _

/-! ### A client and a connection -/

structure Conversation where
  connection : Connection := {}
  listening : Listening := { client := { socketValid := true } }

inductive Step where
  | server (a : TcpListener.Action)
  | client (a : Action)

/-- The client hears what the kernel has for it, and the end of the stream after all of it. -/
def hears (p : Conversation) : Action → Prop
  | .connect .. => False
  | .recv received =>
    p.listening.heard ++ bytesOf received <+: p.connection.kernel ∧
      (received.toOption = some [] →
        p.listening.heard = p.connection.kernel ∧ p.connection.alive = false)
  | .receive _ | .close => True

def conversation : Machine Conversation Step where
  enabled p
    | .server a => TcpListener.enabled p.connection a
    | .client a => enabled p.listening a ∧ hears p a
  next p
    | .server a => { p with connection := TcpListener.next p.connection a }
    | .client a => { p with listening := next p.listening a }

def clean (p : Conversation) : Step → Prop
  | .server a => TcpListener.cleanFailure p.connection a
  | .client _ => True

/-- The kernel's bytes are only added to, and not after the end. -/
theorem kernel_next {c : Connection} {a : TcpListener.Action} (he : TcpListener.enabled c a) :
    c.kernel <+: (TcpListener.next c a).kernel ∧
      (c.alive = false → (TcpListener.next c a).kernel = c.kernel ∧
        (TcpListener.next c a).alive = false) := by
  cases a with
  | accept thread count =>
    have halive : c.alive = true := he.2.1
    refine ⟨?_, fun h => by rw [halive] at h; cases h⟩
    unfold TcpListener.next TcpListener.take
    cases c.sends with
    | nil => exact List.prefix_rfl
    | cons s sends => exact List.prefix_append _ _
  | send thread frame =>
    rcases hencode : encode frame with e | bytes <;> simp only [TcpListener.next, hencode]
    · exact ⟨List.prefix_rfl, fun h => ⟨trivial, h⟩⟩
    · split_ifs <;> exact ⟨List.prefix_rfl, fun h => ⟨rfl, h⟩⟩
  | fail thread => exact ⟨List.prefix_rfl, fun h => ⟨rfl, h⟩⟩
  | finish thread => exact ⟨List.prefix_rfl, fun h => ⟨rfl, h⟩⟩
  | shutdownSend =>
    unfold TcpListener.next
    dsimp only
    split_ifs
    · exact ⟨List.prefix_rfl, fun _ => ⟨rfl, by simp [Connection.alive]⟩⟩
    · exact ⟨List.prefix_rfl, fun h => ⟨rfl, h⟩⟩
  | close =>
    unfold TcpListener.next
    dsimp only
    split_ifs
    · exact ⟨List.prefix_rfl, fun _ => ⟨rfl, by simp [Connection.alive]⟩⟩
    · exact ⟨List.prefix_rfl, fun h => ⟨rfl, h⟩⟩

/-- The end of the stream is reported by `::recv` alone. -/
theorem receive_outcome (c : TcpClient) (options : Option ℤ) :
    (receive c options).1 ≠ some (.error .ERROR_CONNECTION_ABORTED) ∧
      (c.pending = [] → (receive c options).2.pending = []) := by
  unfold receive
  cases hpending : c.pending with
  | cons frame pending => exact ⟨nofun, nofun⟩
  | nil =>
    dsimp only
    split_ifs
    · cases options <;> exact ⟨nofun, fun _ => by first | exact hpending | rfl⟩
    · exact ⟨nofun, fun _ => hpending⟩

theorem recv_outcome {c : TcpClient} {byte : UInt8} {data : List UInt8} :
    (recv c (.ok (byte :: data))).1 ≠ some (.error .ERROR_CONNECTION_ABORTED) := by
  unfold recv
  dsimp only
  split_ifs
  · cases c.pending ++ (c.decoder.append (byte :: data)).2.1 <;> nofun
  · nofun

/-- Once the end was heard there is nothing more to hear. -/
structure Heard (p : Conversation) : Prop where
  server : TcpListener.Inv p.connection
  client : Inv p.listening
  heard : p.listening.heard <+: p.connection.kernel
  ended : .error .ERROR_CONNECTION_ABORTED ∈ p.listening.outcomes →
    p.listening.heard = p.connection.kernel ∧ p.connection.alive = false ∧
      p.listening.client.pending = []

theorem heard_start : Heard {} where
  server := TcpListener.inv_init
  client := inv_init _ rfl rfl
  heard := List.prefix_rfl
  ended := nofun

theorem Heard.next {p : Conversation} {a : Step} (H : Heard p) (he : conversation.enabled p a)
    (hclean : clean p a) : Heard (conversation.next p a) := by
  obtain ⟨hserver, hclient, hheard, hended⟩ := H
  cases a with
  | server a =>
    obtain ⟨hgrows, hdead⟩ := kernel_next he
    refine ⟨TcpListener.inv_step hserver he hclean, hclient, hheard.trans hgrows, fun h => ?_⟩
    obtain ⟨hall, hend, hpending⟩ := hended h
    obtain ⟨hkernel, halive⟩ := hdead hend
    exact ⟨hall.trans hkernel.symm, halive, hpending⟩
  | client a =>
    have hnext := hclient.next he.1
    cases a with
    | connect host port lookup => exact absurd he.2 id
    | close => exact ⟨hserver, hnext, hheard, hended⟩
    | receive options =>
      obtain ⟨hother, hpending⟩ := receive_outcome p.listening.client options
      refine ⟨hserver, hnext, hheard, fun h => ?_⟩
      rcases List.mem_append.mp h with h | h
      · obtain ⟨hall, hend, hempty⟩ := hended h
        exact ⟨hall, hend, hpending hempty⟩
      · exact absurd (Option.mem_toList.mp h) hother
    | recv received =>
      obtain ⟨hinitial, hlast⟩ := he.2
      refine ⟨hserver, hnext, hinitial, fun h => ?_⟩
      have hpending := hclient.empty he.1.1
      match received with
      | .error error =>
        have hold : .error .ERROR_CONNECTION_ABORTED ∈ p.listening.outcomes := by
          refine (List.mem_append.mp h).resolve_right fun h => ?_
          have hother := Except.error.inj (List.mem_singleton.mp h)
          split_ifs at hother
        obtain ⟨hall, hend, -⟩ := hended hold
        exact ⟨(List.append_nil _).trans hall, hend, hpending⟩
      | .ok [] =>
        obtain ⟨hall, hend⟩ := hlast rfl
        exact ⟨(List.append_nil _).trans hall, hend, hpending⟩
      | .ok (byte :: data) =>
        rcases List.mem_append.mp h with h | h
        · have hlonger := hinitial.length_le
          rw [(hended h).1, bytesOf, List.length_append, List.length_cons] at hlonger
          omega
        · exact absurd (Option.mem_toList.mp h) recv_outcome

instance (p : Conversation) (a : Action) : Decidable (hears p a) := by
  cases a <;> unfold hears <;> infer_instance

instance (p : Conversation) (a : Step) : Decidable (conversation.enabled p a) :=
  match a with
  | .server a => inferInstanceAs (Decidable (TcpListener.enabled p.connection a))
  | .client a => inferInstanceAs (Decidable (enabled p.listening a ∧ hears p a))

instance (p : Conversation) (a : Step) : Decidable (clean p a) :=
  match a with
  | .server a => inferInstanceAs (Decidable (TcpListener.cleanFailure p.connection a))
  | .client _ => inferInstanceAs (Decidable True)

/-- Two threads send a frame each, the second of them while the first is being heard; `::recv` cuts
inside the header of the second. -/
def twoSenders : List Step :=
  [.server (.send 0 { channel := 1, payload := [7] }), .server (.accept 0 10), .client (.receive none),
    .client (.recv (.ok [0, 0, 0, 1, 1, 0, 0, 0, 0, 0])), .server (.accept 0 7), .server (.finish 0),
    .server (.send 1 { channel := 2, payload := [8, 9] }), .server (.accept 1 18),
    .client (.recv (.ok [0, 0, 0, 0, 0, 0, 7, 0, 0])), .server (.finish 1), .client (.receive none),
    .client (.recv (.error WSAETIMEDOUT)), .server .shutdownSend, .client (.receive none),
    .client (.recv (.ok [0, 2, 2, 0, 0, 0, 0, 0, 0, 0, 0, 0, 0, 0, 8, 9])), .client (.receive none),
    .client (.recv (.ok []))]

/-- A frame, and behind it a header with a reserved flag. -/
def broken : List Action :=
  [.connect "localhost" 7777 (.ok [some 10061, none]), .receive none,
    .recv (.ok [0, 0, 0, 0, 1, 0, 0, 0, 0, 0, 0, 0, 0, 0, 0, 0, 0, 0, 0, 0, 1, 8, 0, 0, 0, 0, 0, 0, 0,
      0, 0, 0]), .receive none]

end RemoteCam.Net.Receiving
