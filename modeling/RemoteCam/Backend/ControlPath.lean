import RemoteCam.Lib.Transitions
import RemoteCam.Security.Protector
import RemoteCam.Wire.Codec

/-! # Control messages from several threads

`sendControl` protects its message and hands the envelope to `Connection::send`: two steps. The
commands of the UI and the pipeline hold `mutex_` over both, the handlers of the network thread do
not. `accepted_of_run`: as long as nobody numbers an envelope while another of its channel is still
on the way to the socket, the peer accepts every envelope. `overtaken` is the run in which a command
numbers the second envelope and sends it before the network thread has sent the first. -/

namespace RemoteCam.Backend.ControlPath

open RemoteCam.Lib.Transitions RemoteCam.Security.Protector
open RemoteCam.Wire.Codec (Frame)

/-- The channels `sendControl` is called with. -/
inductive Channel where
  | control
  | stats
  deriving DecidableEq, Repr

def Channel.raw : Channel → UInt8
  | .control => 0
  | .stats => 3

/-- The network thread and the threads that call the public commands. -/
inductive Thread where
  | net
  | ui (n : ℕ)
  deriving DecidableEq, Repr

structure Session where
  encryptMedia : Bool
  protector : SessionProtector
  /-- The envelope the network thread has protected and not yet sent. -/
  netEnvelope : Option Frame := none
  /-- The thread that owns `mutex_` in `sendControl(message)`, with its envelope. -/
  mutex : Option (ℕ × Option Frame) := none
  /-- The frames in the order in which `Connection::send` wrote them. -/
  socket : List Frame := []

/-- A session right after both ends have installed their protectors. -/
def Session.start (keys : SessionKeys) (encryptMedia : Bool) : Session :=
  { encryptMedia, protector := .create .server keys }

inductive Action where
  /-- `sendControl(message)` takes `mutex_` and finds the session ready. -/
  | lock (n : ℕ)
  /-- `protectControl` or `protectMedia` on an encoded message. -/
  | protect (thread : Thread) (channel : Channel) (payload : Bytes)
  /-- `Connection::send`; a command releases `mutex_`. -/
  | send (thread : Thread)
  deriving DecidableEq, Repr

variable (crypto : Crypto)

/-- The first half of `sendControl(connection, message, channel)`. -/
def protect (s : Session) (channel : Channel) (payload : Bytes) :
    Except Error (Frame × SessionProtector) := do
  let (out, protector) ←
    if channel = .stats ∧ s.encryptMedia then
      protectMedia crypto false s.protector channel.raw 0 0 payload
    else protectControl crypto false s.protector channel.raw 0 0 payload
  .ok ({ channel := channel.raw, flags := out.flags, ptsMicros := 0, payload := out.payload },
    protector)

def enabled (s : Session) : Action → Prop
  | .lock _ => s.mutex = none
  -- every message of the network thread goes to the control channel
  | .protect .net channel _ => s.netEnvelope = none ∧ channel = .control
  | .protect (.ui n) _ _ => s.mutex = some (n, none)
  | .send .net => s.netEnvelope.isSome
  | .send (.ui n) => s.mutex.any fun (owner, envelope) => owner = n ∧ envelope.isSome

def next (s : Session) : Action → Session
  | .lock n => { s with mutex := some (n, none) }
  | .protect thread channel payload =>
    match thread, protect crypto s channel payload with
    | .net, .error _ => s
    | .ui _, .error _ => { s with mutex := none }
    | .net, .ok (envelope, protector) => { s with protector, netEnvelope := some envelope }
    | .ui n, .ok (envelope, protector) => { s with protector, mutex := some (n, some envelope) }
  | .send .net => { s with netEnvelope := none, socket := s.socket ++ s.netEnvelope.toList }
  | .send (.ui _) =>
    { s with mutex := none, socket := s.socket ++ (s.mutex.bind Prod.snd).toList }

instance (s : Session) (a : Action) : Decidable (enabled s a) := by
  unfold enabled
  split <;> infer_instance

def session : Machine Session Action := ⟨enabled, next crypto⟩

instance (s : Session) (a : Action) : Decidable ((session crypto).enabled s a) :=
  inferInstanceAs (Decidable (enabled s a))

/-! ### The peer -/

/-- A control envelope of the channel, not a media one. -/
def isControl (channel : UInt8) (f : Frame) : Bool :=
  f.channel = channel ∧ f.flags &&& kEncryptedFlag = 0

/-- The peer unprotects the control envelopes of the stream, one after the other. -/
def receive (peer : SessionProtector) : List Frame → Except Error SessionProtector
  | [] => .ok peer
  | f :: fs =>
    if isControl f.channel f then do
      let (_, peer) ← unprotectControl crypto false peer f.channel f.flags f.ptsMicros f.payload
      receive peer fs
    else receive peer fs

/-- The envelopes of each channel are on the socket in the order of their numbers, and the peer
accepts every one of them. -/
structure Accepted (keys : SessionKeys) (socket : List Frame) : Prop where
  ordered : ∀ channel, ((socket.filter (isControl channel)).map
    fun f => readBigEndian64 f.payload).Pairwise (· < ·)
  accepted : ∃ peer, receive crypto (.create .client keys) socket = .ok peer

/-- The control envelopes of a channel that are numbered and not yet sent. -/
def Session.waiting (s : Session) (channel : UInt8) : List Frame :=
  (s.netEnvelope.toList ++ (s.mutex.bind Prod.snd).toList).filter (isControl channel)

/-- Nobody numbers a message while an envelope of its channel is on the way. -/
def noOvertaking (s : Session) : Action → Prop
  | .protect _ channel _ => s.waiting channel.raw = []
  | _ => True

instance (s : Session) (a : Action) : Decidable (noOvertaking s a) := by
  unfold noOvertaking
  split <;> infer_instance

/-! ### The invariant -/

/-- A channel between the two ends: nothing is on the way and the counts agree, or one envelope is,
numbered by a protector whose count was the peer's. -/
def InStep (peer protector : SessionProtector) (waiting : List Frame) (channel : UInt8) : Prop :=
  (waiting = [] ∧
    peer.incomingControlSequence channel = protector.outgoingControlSequence channel) ∨
  ∃ p p' payload out,
    protectControl crypto false p channel 0 0 payload = .ok (out, p') ∧
    peer.incomingControlSequence channel = p.outgoingControlSequence channel ∧
    peer.incomingAuthenticatedKeys channel = p.outgoingAuthenticatedKeys channel ∧
    p'.outgoingControlSequence channel = protector.outgoingControlSequence channel ∧
    waiting = [{ channel, flags := out.flags, ptsMicros := 0, payload := out.payload }]

/-- The peer after the frames on the socket, and every channel in step with it. -/
structure Inv (keys : SessionKeys) (s : Session) (peer : SessionProtector) : Prop where
  received : receive crypto (.create .client keys) s.socket = .ok peer
  keysMatch : ∀ channel,
    peer.incomingAuthenticatedKeys channel = s.protector.outgoingAuthenticatedKeys channel
  inStep : ∀ channel, InStep crypto peer s.protector (s.waiting channel) channel

/-! ### The receiver -/

variable {crypto}

theorem receive_append {peer : SessionProtector} (fs gs : List Frame) :
    receive crypto peer (fs ++ gs) = receive crypto peer fs >>= fun p => receive crypto p gs := by
  induction fs generalizing peer with
  | nil => rfl
  | cons f fs ih =>
    rw [List.cons_append, receive, receive]
    split_ifs
    · rcases unprotectControl crypto false peer f.channel f.flags f.ptsMicros f.payload with e | r
      · rfl
      · exact ih
    · exact ih

/-- What the peer accepts on a channel is numbered upwards from its count. -/
theorem receive_ordered {peer peer' : SessionProtector} {channel : UInt8} {fs : List Frame}
    (hlt : (peer.incomingControlSequence channel).next < kMaximumSessionRecordsPerChannel)
    (h : receive crypto peer fs = .ok peer') :
    let numbers := (fs.filter (isControl channel)).map fun f => readBigEndian64 f.payload
    numbers.Pairwise (· < ·) ∧ ∀ x ∈ numbers,
      (peer.incomingControlSequence channel).exhausted = false ∧
        (peer.incomingControlSequence channel).next ≤ x := by
  induction fs generalizing peer with
  | nil => exact ⟨.nil, nofun⟩
  | cons f fs ih =>
    rw [receive] at h
    split_ifs at h with hf
    · rcases hu : unprotectControl crypto false peer f.channel f.flags f.ptsMicros f.payload with
        e | ⟨plaintext, next⟩ <;> rw [hu] at h
      · cases h
      obtain ⟨hexhausted, hnumber, rfl⟩ := unprotectControl_ok hu
      by_cases hc : f.channel = channel
      · subst hc
        obtain ⟨h1, h2⟩ :=
          ih (by rw [SessionProtector.incoming_advanceIncoming]; exact advance_next_lt hlt) h
        rw [SessionProtector.incoming_advanceIncoming] at h2
        rw [List.filter_cons_of_pos hf, List.map_cons, hnumber]
        have hrise : ∀ x ∈ (fs.filter (isControl f.channel)).map fun f => readBigEndian64 f.payload,
            (peer.incomingControlSequence f.channel).next < x := fun x hx =>
          UInt64.lt_of_lt_of_le (advance_lt hlt (h2 x hx).1) (h2 x hx).2
        refine ⟨List.pairwise_cons.mpr ⟨hrise, h1⟩, List.forall_mem_cons.mpr ⟨?_, ?_⟩⟩
        · exact ⟨hexhausted, UInt64.le_refl _⟩
        · exact fun x hx => ⟨hexhausted, UInt64.le_of_lt (hrise x hx)⟩
      · have hother : isControl channel f = false := by simp [isControl, hc]
        rw [List.filter_cons_of_neg (by rw [hother]; decide)]
        have hsame := peer.incoming_advanceIncoming_of_ne (Ne.symm hc)
        have htail := ih (by rw [hsame]; exact hlt) h
        rwa [hsame] at htail
    · have hother : isControl channel f = false := by
        by_contra hcontrol
        simp only [isControl, Bool.not_eq_false, decide_eq_true_eq, true_and] at hcontrol hf
        exact hf hcontrol.2
      rw [List.filter_cons_of_neg (by rw [hother]; decide)]
      exact ih hlt h

/-! ### The steps -/

theorem inv_start (keys : SessionKeys) (encryptMedia : Bool) :
    Inv crypto keys (.start keys encryptMedia) (.create .client keys) :=
  ⟨rfl, fun _ => rfl, fun _ => .inl ⟨rfl, rfl⟩⟩

/-- **A frame reaches the socket.** The control envelope on the way is accepted; any other frame
is none of the receiver's counts' business. -/
theorem inv_deliver {keys : SessionKeys} {s s' : Session} {peer : SessionProtector} {f : Frame}
    (h : Inv crypto keys s peer) (hprotector : s'.protector = s.protector)
    (hsocket : s'.socket = s.socket ++ [f])
    (hsent : isControl f.channel f → ∀ g, s.waiting f.channel = [g] →
      g = f ∧ s'.waiting f.channel = [])
    (hwaiting : isControl f.channel f → s.waiting f.channel ≠ [])
    (hother : ∀ channel, ¬ isControl channel f → s'.waiting channel = s.waiting channel) :
    ∃ peer, Inv crypto keys s' peer := by
  by_cases hf : isControl f.channel f
  · rcases h.inStep f.channel with ⟨hnone, -⟩ | ⟨p, p', payload, out, hp, hcount, hkey, hnext, hw⟩
    · exact absurd hnone (hwaiting hf)
    obtain ⟨hframe, hempty⟩ := hsent hf _ hw
    have hopen := unprotectControl_protectControl hp hkey hcount
    have hreceive : receive crypto peer [f] = .ok (peer.advanceIncoming f.channel) := by
      rw [receive, if_pos hf, ← hframe]
      simp only [hopen, bind, Except.bind, receive]
    refine ⟨peer.advanceIncoming f.channel, ?_, fun channel => ?_, fun channel => ?_⟩
    · rw [hsocket, receive_append, h.received]
      exact hreceive
    · rw [hprotector]
      exact h.keysMatch channel
    · rw [hprotector]
      by_cases hc : channel = f.channel
      · subst hc
        refine .inl ⟨hempty, ?_⟩
        rw [SessionProtector.incoming_advanceIncoming, hcount, ← hnext,
          (protectControl_ok hp).2.2.2, SessionProtector.outgoing_advanceOutgoing]
      · have hnot : ¬ isControl channel f := by
          simp [isControl, Ne.symm hc]
        have hstep := h.inStep channel
        unfold InStep at hstep ⊢
        rw [hother channel hnot, SessionProtector.incoming_advanceIncoming_of_ne _ hc]
        exact hstep
  · have hnot : ∀ channel, ¬ isControl channel f := by
      intro channel hc
      simp only [isControl, decide_eq_true_eq, true_and] at hf hc
      exact hf hc.2
    refine ⟨peer, ?_, by rw [hprotector]; exact h.keysMatch, fun channel => ?_⟩
    · rw [hsocket, receive_append, h.received]
      simp only [bind, Except.bind, receive, if_neg hf]
    · rw [hprotector, hother channel (hnot channel)]
      exact h.inStep channel

/-- What `protect` returns: a media envelope, which no control count sees, or the control envelope
of the channel. -/
theorem protect_ok {s : Session} {channel : Channel} {payload : Bytes} {f : Frame}
    {protector : SessionProtector} (h : protect crypto s channel payload = .ok (f, protector)) :
    ((∀ c, isControl c f = false) ∧
      protector.outgoingControlSequence = s.protector.outgoingControlSequence ∧
      ∀ c, protector.outgoingAuthenticatedKeys c = s.protector.outgoingAuthenticatedKeys c) ∨
    ∃ out, protectControl crypto false s.protector channel.raw 0 0 payload = .ok (out, protector) ∧
      f = { channel := channel.raw, flags := out.flags, ptsMicros := 0, payload := out.payload } := by
  unfold protect at h
  by_cases hmedia : channel = .stats ∧ s.encryptMedia
  · rw [if_pos hmedia] at h
    rcases hp : protectMedia crypto false s.protector channel.raw 0 0 payload with
      e | ⟨out, p⟩ <;> rw [hp] at h
    · cases h
    obtain ⟨rfl, rfl⟩ := Prod.mk.inj (Except.ok.inj h)
    unfold protectMedia at hp
    dsimp only at hp
    split_ifs at hp
    obtain ⟨rfl, rfl⟩ := Prod.mk.inj (Except.ok.inj hp)
    exact .inl ⟨fun c => by simp [isControl, kEncryptedFlag], rfl, fun _ => rfl⟩
  · rw [if_neg hmedia] at h
    rcases hp : protectControl crypto false s.protector channel.raw 0 0 payload with
      e | ⟨out, p⟩ <;> rw [hp] at h
    · cases h
    obtain ⟨rfl, rfl⟩ := Prod.mk.inj (Except.ok.inj h)
    exact .inr ⟨out, rfl, rfl⟩

/-- **A message is numbered** while none of its channel is on the way. -/
theorem inv_protect {keys : SessionKeys} {s s' : Session} {peer : SessionProtector}
    {channel : Channel} {payload : Bytes} {f : Frame} (h : Inv crypto keys s peer)
    (hp : protect crypto s channel payload = .ok (f, s'.protector))
    (hsocket : s'.socket = s.socket) (hfree : s.waiting channel.raw = [])
    (hwaiting : ∀ c, isControl c f → s.waiting c = [] → s'.waiting c = [f])
    (hother : ∀ c, ¬ isControl c f → s'.waiting c = s.waiting c) :
    Inv crypto keys s' peer := by
  refine ⟨by rw [hsocket]; exact h.received, fun c => ?_, fun c => ?_⟩
  · rcases protect_ok hp with ⟨-, -, hkeys⟩ | ⟨out, hout, -⟩
    · rw [hkeys]
      exact h.keysMatch c
    · rw [(protectControl_ok hout).2.2.2]
      exact h.keysMatch c
  · rcases protect_ok hp with ⟨hmedia, hcount, -⟩ | ⟨out, hout, hf⟩
    · have hstep := h.inStep c
      unfold InStep at hstep ⊢
      rw [hother c (by rw [hmedia]; decide), hcount]
      exact hstep
    · obtain ⟨-, -, hflags, hnext⟩ := protectControl_ok hout
      by_cases hc : c = channel.raw
      · subst hc
        have hagree := (h.inStep channel.raw).resolve_right
          (by rintro ⟨_, _, _, _, _, _, _, _, hw⟩; rw [hfree] at hw; cases hw)
        refine .inr ⟨s.protector, s'.protector, payload, out, hout, hagree.2,
          h.keysMatch channel.raw, rfl, ?_⟩
        rw [hwaiting channel.raw (by rw [hf]; simp [isControl, hflags]) hfree, hf]
      · have hstep := h.inStep c
        unfold InStep at hstep ⊢
        rw [hother c (by rw [hf]; simp [isControl, Ne.symm hc]), hnext,
          SessionProtector.outgoing_advanceOutgoing_of_ne _ hc]
        exact hstep

/-- A step that neither numbers nor sends. -/
theorem inv_of_same {keys : SessionKeys} {s s' : Session} {peer : SessionProtector}
    (h : Inv crypto keys s peer) (hprotector : s'.protector = s.protector)
    (hsocket : s'.socket = s.socket) (hwaiting : ∀ c, s'.waiting c = s.waiting c) :
    Inv crypto keys s' peer :=
  ⟨by rw [hsocket]; exact h.received, by rw [hprotector]; exact h.keysMatch,
    fun c => by rw [hprotector, hwaiting]; exact h.inStep c⟩

/-- **One step keeps the channels in step**, if nobody overtakes. -/
theorem inv_next {keys : SessionKeys} {s : Session} {a : Action}
    (h : ∃ peer, Inv crypto keys s peer) (he : enabled s a) (hc : noOvertaking s a) :
    ∃ peer, Inv crypto keys (next crypto s a) peer := by
  obtain ⟨peer, h⟩ := h
  cases a with
  | lock n =>
    refine ⟨peer, inv_of_same h rfl rfl fun c => ?_⟩
    have hfree : s.mutex = none := he
    simp [next, Session.waiting, hfree]
  | protect thread channel payload =>
    rcases hp : protect crypto s channel payload with e | ⟨f, protector⟩
    · cases thread with
      | net => exact ⟨peer, by simpa only [next, hp] using h⟩
      | ui n =>
        have howner : s.mutex = some (n, none) := he
        simp only [next, hp]
        exact ⟨peer, inv_of_same h rfl rfl fun c => by simp [Session.waiting, howner]⟩
    · cases thread with
      | net =>
        have hnone : s.netEnvelope = none := he.1
        simp only [next, hp]
        refine ⟨peer, inv_protect (f := f) h hp rfl hc (fun c hcontrol hw => ?_) fun c hcontrol => ?_⟩
        · simp only [Session.waiting, hnone, Option.toList_none, List.nil_append] at hw
          simp [Session.waiting, hcontrol, hw]
        · simp [Session.waiting, hcontrol, hnone]
      | ui n =>
        have howner : s.mutex = some (n, none) := he
        simp only [next, hp]
        refine ⟨peer, inv_protect (f := f) h hp rfl hc (fun c hcontrol hw => ?_) fun c hcontrol => ?_⟩
        · simp only [Session.waiting, howner, Option.bind_some, Option.toList_none,
            List.append_nil] at hw
          simp [Session.waiting, hcontrol, hw]
        · simp [Session.waiting, hcontrol, howner]
  | send thread =>
    cases thread with
    | net =>
      obtain ⟨f, hf⟩ := Option.isSome_iff_exists.mp he
      refine inv_deliver (f := f) h rfl (by simp [next, hf]) (fun hcontrol g hg => ?_)
        (fun hcontrol => ?_) fun c hcontrol => ?_
      · simp only [Session.waiting, hf, Option.toList_some, List.singleton_append,
          List.filter_cons_of_pos hcontrol, List.cons.injEq] at hg
        exact ⟨hg.1.symm, by simpa [next, Session.waiting] using hg.2⟩
      · simp [Session.waiting, hf, hcontrol]
      · simp [next, Session.waiting, hf, hcontrol]
    | ui n =>
      obtain ⟨m, f, hm⟩ : ∃ m f, s.mutex = some (m, some f) := by
        rcases hm : s.mutex with _ | ⟨m, _ | f⟩
        · simp [enabled, hm] at he
        · simp [enabled, hm] at he
        · exact ⟨m, f, rfl⟩
      refine inv_deliver (f := f) h rfl (by simp [next, hm]) (fun hcontrol g hg => ?_)
        (fun hcontrol => ?_) fun c hcontrol => ?_
      · simp only [Session.waiting, hm, Option.bind_some, Option.toList_some, List.filter_append,
          List.filter_cons_of_pos hcontrol, List.filter_nil, List.append_eq_singleton_iff,
          List.cons.injEq, and_true, reduceCtorEq, and_false, or_false] at hg
        exact ⟨hg.2.symm, by simpa [next, Session.waiting] using hg.1⟩
      · simp [Session.waiting, hm, hcontrol]
      · simp [next, Session.waiting, hm, hcontrol]

/-- **Every envelope is accepted**, in every run of the network thread and any number of commands
in which nobody numbers a message while an envelope of its channel is on the way. -/
theorem accepted_of_run (keys : SessionKeys) (encryptMedia : Bool) (as : List Action)
    (h : (session crypto).Legal noOvertaking (.start keys encryptMedia) as) :
    Accepted crypto keys ((session crypto).exec (.start keys encryptMedia) as).socket := by
  obtain ⟨peer, hinv⟩ : ∃ peer, Inv crypto keys
      ((session crypto).exec (.start keys encryptMedia) as) peer :=
    h.invariant ⟨_, inv_start keys encryptMedia⟩ fun _ _ hi he hc => inv_next hi he hc
  have hzero : (0 : UInt64) < kMaximumSessionRecordsPerChannel := by decide
  exact ⟨fun channel => (receive_ordered hzero hinv.received).1, peer, hinv.received⟩

/-! ### Two runs -/

/-- A tag that depends on the key only. -/
def constantCrypto : Crypto where
  hmacSha256 key _ := key
  encryptChaCha _ _ _ plaintext := (plaintext, ⟨List.replicate 16 0, rfl⟩)
  decryptChaCha _ _ _ ciphertext _ := some ciphertext

def sampleChannelKeys (b : UInt8) : ChannelKeys :=
  ⟨⟨List.replicate 32 b, List.length_replicate ..⟩, ⟨List.replicate 4 b, List.length_replicate ..⟩⟩

def sampleKeys : SessionKeys :=
  ⟨sampleChannelKeys 1, sampleChannelKeys 2, sampleChannelKeys 3, sampleChannelKeys 4,
    sampleChannelKeys 5, sampleChannelKeys 6⟩

/-- A keyframe request of the network thread, then a command, and statistics in between. -/
def orderlyRun : List Action :=
  [.protect .net .control [1], .lock 0, .protect (.ui 0) .stats [2], .send .net, .send (.ui 0),
    .lock 1, .protect (.ui 1) .control [3], .send (.ui 1)]

theorem accepted_of_orderlyRun :
    Accepted constantCrypto sampleKeys
      ((session constantCrypto).exec (.start sampleKeys false) orderlyRun).socket :=
  accepted_of_run sampleKeys false orderlyRun (by decide)

/-- The network thread numbers a keyframe request; before it sends, a command numbers its message
and sends it. -/
def overtaken : List Action :=
  [.protect .net .control [1], .lock 0, .protect (.ui 0) .control [2], .send (.ui 0), .send .net]

theorem not_accepted_of_overtaken :
    ∃ as, (session constantCrypto).Legal (fun _ _ => True) (.start sampleKeys false) as ∧
      ¬ Accepted constantCrypto sampleKeys
        ((session constantCrypto).exec (.start sampleKeys false) as).socket :=
  ⟨overtaken, by decide, fun h => absurd (h.ordered 0) (by decide)⟩

end RemoteCam.Backend.ControlPath
