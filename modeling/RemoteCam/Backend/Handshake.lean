import RemoteCam.Backend.Phases

/-! # The messages of the handshake

`handleHello` and `handleAuthResponse` publish the state first and send afterwards, one message
after the other; every other thread may send in between as soon as the state admits it. The machine
adds to the controller what it writes on the connection: `outbox` are the messages the network
thread is still to send in the handler it is in, `written` what was written since `onConnected`.

`documented_iff`: the messages come in the documented order if and only if nobody else writes while
the outbox is not empty, and a proof is accepted only of a phone that was challenged. -/

namespace RemoteCam.Backend.Handshake

open RemoteCam.Lib.Transitions RemoteCam.Backend.Session RemoteCam.Backend.Effects
open RemoteCam.Backend.Invariants RemoteCam.Backend.Phases

/-! ### The machine -/

inductive Message where
  | serverInfo
  | authChallenge
  | authConfirm
  | ready
  | setFormat
  | requestKeyframe
  | setPreview
  | setCamera
  | setControl
  | stats
  deriving DecidableEq, Repr

def Message.ofHandshake : Message → Bool
  | .serverInfo | .authChallenge | .authConfirm | .ready => true
  | _ => false

/-- What a public command sends. -/
inductive Command where
  | sendPreview
  | sendCamera
  | sendControls
  | sendStats
  | requestKeyframe
  deriving DecidableEq, Repr

def Command.message : Command → Message
  | .sendPreview => .setPreview
  | .sendCamera => .setCamera
  | .sendControls => .setControl
  | .sendStats => .stats
  | .requestKeyframe => .requestKeyframe

/-- The answer to a `hello`: by its shape and version, and by the trust policy or
`beginAuthentication`. -/
inductive Answer where
  | refused
  /-- No trust, or `NotFound`. -/
  | unpaired
  | challenge
  | trusted
  deriving DecidableEq, Repr

def Answer.verdict : Answer → HelloVerdict
  | .refused => .refused
  | .unpaired | .challenge => .unproven
  | .trusted => .trusted

/-- Only `ISessionSecurity` challenges, only a trust policy trusts at once. -/
def Answer.fits (cfg : SessionConfig) : Answer → Bool
  | .challenge => cfg.sessionSecurity
  | .trusted => !cfg.sessionSecurity
  | _ => true

/-- The messages that `handleHello` sends. -/
def announced : Answer → List Message
  | .refused => []
  | .unpaired => [.serverInfo]
  | .challenge => [.serverInfo, .authChallenge]
  | .trusted => [.serverInfo, .ready]

structure Line where
  session : Sys
  /-- The answer to the `hello` of the connection. -/
  answer : Answer := .refused
  outbox : List Message := []
  /-- `handleVideo` is still to request a keyframe. -/
  recovery : Bool := false
  written : List Message := []
  deriving DecidableEq, Repr

/-- The gate of `sendControl(message)`. -/
def admits (st : Stream) : Bool :=
  st.connection.isSome && st.trusted && (st.state = .ready || st.state = .streaming)

/-- The gate of `sendFormat`. -/
def admitsFormat (st : Stream) (config : StreamConfig) : Bool :=
  config.valid && st.connection.isSome && st.trusted && st.state = .streaming &&
    st.pendingStreamConfig.isNone && !st.resettingConsumer

/-- What a step of a thread writes if its send succeeds. -/
def sends (s : Sys) (t : Thread) : List Message :=
  match s.pc t with
  | .authResponse .accepted => if s.activity.hello.isSome then [.authConfirm] else []
  | .requestKeyframe => [.requestKeyframe]
  | .sendFormat config => if admitsFormat s.stream config then [.setFormat] else []
  | _ => []

/-- What is to be sent after a step of a thread. -/
def owed (s : Line) (t : Thread) : List Message :=
  match s.session.pc t with
  | .hello _ _ => announced s.answer
  | .authenticated => [.ready]
  | _ => s.outbox

/-- The unit is invalid, or overflows the queue. -/
def recovers (cfg : SessionConfig) (s : Sys) (t : Thread) : Bool :=
  match s.pc t with
  | .videoInvalid => true
  | .videoEnqueue x =>
    !(s.stream.waitingForKeyframe && !x.unit.keyframe) &&
      (s.stream.queue.length ≥ cfg.maxQueuedAccessUnits ||
        s.stream.queueBytes + x.unit.bytes.length > cfg.maxQueuedBytes)
  | _ => false

inductive Action where
  /-- A step of the controller, except those that follow. -/
  | session (a : Session.Action)
  | hello (deviceId : String) (answer : Answer)
  /-- The next message of the outbox. -/
  | send (ok : Bool)
  /-- `handleVideo` requests a keyframe; it asks no gate. -/
  | recover (ok : Bool)
  /-- `sendControl(message)` of some other thread. -/
  | command (c : Command) (ok : Bool)
  deriving DecidableEq, Repr

def helloAction (deviceId : String) (answer : Answer) : Session.Action :=
  .receive (.control (.hello deviceId answer.verdict))

/-- The network thread is not in the middle of what it has to send. -/
def unhurried (s : Line) : Session.Action → Prop
  | .receive (.control (.hello _ _)) => False
  | .receive _ | .disconnect => s.recovery = false
  | .run t _ => s.session.pc t ≠ .handshakeSend
  | _ => True

instance (s : Line) : (a : Session.Action) → Decidable (unhurried s a)
  | .receive (.control (.hello _ _)) => .isFalse id
  | .receive .violation | .receive .ignored | .receive .undecodable | .receive (.video _)
  | .receive (.control (.authResponse _)) | .receive (.control .pcToPhone)
  | .receive (.control (.formatAck _)) | .receive (.control (.formatReject _))
  | .receive (.control (.streamStart _)) | .receive (.control (.progress _))
  | .receive (.control .unknown) | .disconnect => inferInstanceAs (Decidable (s.recovery = false))
  | .run t _ => inferInstanceAs (Decidable (s.session.pc t ≠ .handshakeSend))
  | .connect | .call _ _ | .watchdog | .tick => .isTrue trivial

def enabled (cfg : SessionConfig) (s : Line) : Action → Prop
  | .session a => Session.enabled s.session a ∧ unhurried s a
  | .hello deviceId answer =>
    Session.enabled s.session (helloAction deviceId answer) ∧ s.recovery = false ∧
      answer.fits cfg = true
  | .send _ => s.session.pc net = .handshakeSend
  | .recover _ => s.recovery = true
  | .command _ _ => True

instance (cfg : SessionConfig) (s : Line) (a : Action) : Decidable (enabled cfg s a) := by
  cases a <;> unfold enabled <;> infer_instance

def advance (cfg : SessionConfig) (s : Line) : Session.Action → Line
  | .connect => { session := Session.next cfg s.session .connect }
  | .run t ok =>
    { session := Session.next cfg s.session (.run t ok)
      answer := s.answer
      outbox := owed s t
      recovery := s.recovery || recovers cfg s.session t
      written := if ok then s.written ++ sends s.session t else s.written }
  | a => { s with session := Session.next cfg s.session a }

/-- One message of the outbox; after the last one, and after one that fails, the handler goes on. -/
def sendNext (cfg : SessionConfig) (s : Line) (ok : Bool) : Line :=
  match s.outbox with
  | [] => s
  | message :: rest =>
    if !ok then { s with session := Session.next cfg s.session (.run net false) }
    else
      { s with
        session := if rest = [] then Session.next cfg s.session (.run net true) else s.session
        outbox := rest
        written := s.written ++ [message] }

def next (cfg : SessionConfig) (s : Line) : Action → Line
  | .session a => advance cfg s a
  | .hello deviceId answer =>
    { s with
      session := Session.next cfg s.session (helloAction deviceId answer)
      answer := if s.session.stream.state = .awaitingHello then answer else s.answer }
  | .send ok => sendNext cfg s ok
  | .recover ok =>
    { s with
      recovery := false
      written := if ok then s.written ++ [.requestKeyframe] else s.written }
  | .command c ok =>
    if ok && admits s.session.stream then { s with written := s.written ++ [c.message] } else s

def line (cfg : SessionConfig) : Machine Line Action := ⟨enabled cfg, next cfg⟩

instance (cfg : SessionConfig) (s : Line) (a : Action) : Decidable ((line cfg).enabled s a) :=
  inferInstanceAs (Decidable (enabled cfg s a))

def Line.start (cfg : SessionConfig) (consumer : Option ConsumerId) : Line :=
  { session := .start cfg consumer }

/-! ### The documented order -/

/-- The handshake, with authentication or without. -/
def order (cfg : SessionConfig) : List Message :=
  if cfg.sessionSecurity then [.serverInfo, .authChallenge, .authConfirm, .ready]
  else [.serverInfo, .ready]

/-- The whole handshake, and after it nothing of a handshake. -/
def Complete (cfg : SessionConfig) (written : List Message) : Prop :=
  order cfg <+: written ∧ ∀ m ∈ written.drop (order cfg).length, m.ofHandshake = false

/-- The handshake as far as it has come. -/
def Documented (cfg : SessionConfig) (written : List Message) : Prop :=
  written <+: order cfg ∨ Complete cfg written

instance (cfg : SessionConfig) (written : List Message) : Decidable (Complete cfg written) :=
  inferInstanceAs (Decidable (_ ∧ _))

instance (cfg : SessionConfig) (written : List Message) : Decidable (Documented cfg written) :=
  inferInstanceAs (Decidable (_ ∨ _))

/-- What is written after the step is in the documented order. -/
def writesInOrder (cfg : SessionConfig) (s : Line) (a : Action) : Prop :=
  Documented cfg (next cfg s a).written

/-- Nobody else writes while the network thread has something to send, and only a phone that was
challenged gets a confirmation. -/
def orderly (s : Line) : Action → Prop
  | .command _ ok => ok = true → admits s.session.stream = true → s.outbox = []
  | .session (.run t true) => .authConfirm ∈ sends s.session t → s.answer = .challenge
  | _ => True

instance (s : Line) (a : Action) : Decidable (orderly s a) := by
  unfold orderly
  split <;> infer_instance

/-! ### The phases of a connection -/

/-- The answers after which the phone is not trusted yet. -/
def Waits (cfg : SessionConfig) (answer : Answer) : Prop :=
  answer = .unpaired ∨ answer = .challenge ∧ cfg.sessionSecurity = true

/-- Places of the network thread that belong to no handshake and are not idle. -/
def Pc.settled (pc : Pc) : Bool := !Pc.handshake pc && pc ≠ .handshakeSend && pc ≠ .idle

/-- What is written and what is to be written, by where the network thread stands. As long as the
phone is not trusted no other thread can write; afterwards the order is kept if the run is
`calm`. -/
inductive Phase (cfg : SessionConfig) (calm : Prop) (s : Line) : Prop
  | down (hpc : s.session.pc net = .idle)
      (hstate : s.session.stream.state = .disconnected ∨ s.session.stream.state = .failed)
      (hrecovery : s.recovery = false) (hwritten : calm → Documented cfg s.written)
  | greeting
      (hpc : s.session.pc net = .serving ∨ s.session.pc net = .malformed ∨
        s.session.pc net = .fail ∨
        ∃ d, s.session.pc net = .hello d s.answer.verdict ∧ s.answer.fits cfg = true)
      (hstate : s.session.stream.state = .awaitingHello ∨ s.session.stream.state = .failed)
      (htrusted : s.session.stream.trusted = false) (hrecovery : s.recovery = false)
      (houtbox : s.outbox = []) (hwritten : s.written = [])
  | sending (hpc : s.session.pc net = .handshakeSend)
      (hstate : s.session.stream.state = .failed ∨
        s.session.stream.state = if s.session.stream.trusted then .ready else .awaitingTrust)
      (hrecovery : s.recovery = false) (houtbox : s.outbox ≠ [])
      (huntrusted : s.session.stream.trusted = false →
        Waits cfg s.answer ∧ s.written ++ s.outbox = announced s.answer)
      (htrusted : s.session.stream.trusted = true → calm → s.written ++ s.outbox = order cfg)
  | waiting
      (hpc : s.session.pc net = .serving ∨ s.session.pc net = .malformed ∨
        s.session.pc net = .fail ∨
        ∃ v, s.session.pc net = .authResponse v ∧ cfg.sessionSecurity = true)
      (hstate : s.session.stream.state = .awaitingTrust ∨ s.session.stream.state = .failed)
      (htrusted : s.session.stream.trusted = false) (hrecovery : s.recovery = false)
      (houtbox : s.outbox = []) (hanswer : Waits cfg s.answer)
      (hwritten : s.written = announced s.answer)
  | confirmed (hpc : s.session.pc net = .authenticated)
      (hstate : s.session.stream.state = .awaitingTrust ∨ s.session.stream.state = .failed)
      (htrusted : s.session.stream.trusted = false) (hrecovery : s.recovery = false)
      (houtbox : s.outbox = []) (hwritten : calm → s.written ++ [.ready] = order cfg)
  | broken
      (hpc : s.session.pc net = .fail ∨ (s.session.pc net = .serving ∨
        s.session.pc net = .malformed ∨ s.session.pc net = .videoDrop) ∧
          s.session.stream.state = .failed)
      (hstate : s.session.stream.state = .failed ∨ s.session.stream.state = .ready ∨
        s.session.stream.state = .awaitingTrust)
      (hrecovery : s.recovery = false) (houtbox : s.outbox ≠ [])
      (hwritten : calm → s.written ++ s.outbox <+: order cfg)
  | opened
      (hpc : Pc.settled (s.session.pc net) = true)
      (hstate : s.session.stream.state = .ready ∨ s.session.stream.state = .streaming ∨
        s.session.stream.state = .failed)
      (htrusted : s.session.stream.trusted = true) (houtbox : s.outbox = [])
      (hwritten : calm → Complete cfg s.written)

variable {cfg : SessionConfig} {calm : Prop} {s s' : Line}

theorem announced_start {answer : Answer} (h : Waits cfg answer) :
    announced answer <+: order cfg := by
  unfold order
  rcases h with rfl | ⟨rfl, hsecurity⟩
  · split_ifs <;> decide
  · rw [if_pos hsecurity]
    decide

theorem complete_order (cfg : SessionConfig) : Complete cfg (order cfg) := by
  refine ⟨List.prefix_refl _, ?_⟩
  rw [List.drop_length]
  nofun

theorem Complete.append {written : List Message} {m : Message} (h : Complete cfg written)
    (hm : m.ofHandshake = false) : Complete cfg (written ++ [m]) := by
  obtain ⟨hstart, hrest⟩ := h
  refine ⟨hstart.trans (List.prefix_append _ _), ?_⟩
  rw [List.drop_append_of_le_length hstart.length_le]
  intro x hx
  rcases List.mem_append.mp hx with hx | hx
  · exact hrest x hx
  · rw [List.mem_singleton.mp hx]
    exact hm

/-- In the phase `sending`, what is to be sent continues what was written. -/
theorem sending_start {trusted : Bool} {answer : Answer} {written outbox : List Message}
    (huntrusted : trusted = false → Waits cfg answer ∧ written ++ outbox = announced answer)
    (htrusted : trusted = true → calm → written ++ outbox = order cfg) (hcalm : calm) :
    written ++ outbox <+: order cfg := by
  cases trusted with
  | false =>
    obtain ⟨hwaits, hall⟩ := huntrusted rfl
    rw [hall]
    exact announced_start hwaits
  | true =>
    have hall : written ++ outbox = order cfg := htrusted rfl hcalm
    exact ⟨[], by rw [hall, List.append_nil]⟩

theorem Phase.documented (h : Phase cfg calm s) (hcalm : calm) : Documented cfg s.written := by
  cases h with
  | down hpc hstate hrecovery hwritten => exact hwritten hcalm
  | greeting hpc hstate htrusted hrecovery houtbox hwritten =>
    rw [hwritten]
    exact .inl List.nil_prefix
  | sending hpc hstate hrecovery houtbox huntrusted htrusted =>
    exact .inl ((List.prefix_append _ s.outbox).trans
      (sending_start huntrusted htrusted hcalm))
  | waiting hpc hstate htrusted hrecovery houtbox hanswer hwritten =>
    rw [hwritten]
    exact .inl (announced_start hanswer)
  | confirmed hpc hstate htrusted hrecovery houtbox hwritten =>
    rw [Documented, ← hwritten hcalm]
    exact .inl (List.prefix_append _ _)
  | broken hpc hstate hrecovery houtbox hwritten =>
    exact .inl ((List.prefix_append _ _).trans (hwritten hcalm))
  | opened hpc hstate htrusted houtbox hwritten => exact .inr (hwritten hcalm)

/-! ### Steps of the other threads -/

/-- What a step leaves that moves the network thread not at all and writes nothing, or that writes
in a session that streams. -/
structure Aside (s s' : Line) : Prop where
  pc : s'.session.pc net = s.session.pc net
  trusted : s'.session.stream.trusted = s.session.stream.trusted
  state : s'.session.stream.state = s.session.stream.state ∨ s'.session.stream.state = .failed
  answer : s'.answer = s.answer
  outbox : s'.outbox = s.outbox
  recovery : s'.recovery = s.recovery
  written : s'.written = s.written ∨ (s.session.stream.state = .streaming ∧
    s.session.stream.trusted = true ∧ ∃ m, m.ofHandshake = false ∧ s'.written = s.written ++ [m])

theorem Aside.unwritten (e : Aside s s')
    (h : s.session.stream.state ≠ .streaming ∨ s.session.stream.trusted = false) :
    s'.written = s.written := by
  refine e.written.resolve_right ?_
  rintro ⟨hstreaming, htrusted, -⟩
  rcases h with h | h
  · exact h hstreaming
  · rw [htrusted] at h
    cases h

theorem Phase.aside (h : Phase cfg calm s) (e : Aside s s') : Phase cfg calm s' := by
  have hunwritten := e.unwritten
  obtain ⟨hpc', htrusted', hstate', hanswer', houtbox', hrecovery', hwritten'⟩ := e
  cases h with
  | down hpc hstate hrecovery hwritten =>
    have hidle : s.session.stream.state ≠ .streaming := by
      rcases hstate with h | h <;> rw [h] <;> decide
    refine .down (by rw [hpc', hpc]) ?_ (by rw [hrecovery', hrecovery]) ?_
    · rcases hstate' with h | h
      · rwa [h]
      · exact .inr h
    · rwa [hunwritten (.inl hidle)]
  | greeting hpc hstate htrusted hrecovery houtbox hwritten =>
    refine .greeting (by rwa [hpc', hanswer']) ?_ (by rw [htrusted', htrusted])
      (by rw [hrecovery', hrecovery]) (by rw [houtbox', houtbox])
      (by rw [hunwritten (.inr htrusted), hwritten])
    rcases hstate' with h | h
    · rwa [h]
    · exact .inr h
  | sending hpc hstate hrecovery houtbox huntrusted htrusted =>
    have hidle : s.session.stream.state ≠ .streaming := by
      rcases hstate with h | h
      · rw [h]
        decide
      · rw [h]
        split_ifs <;> decide
    refine .sending (by rw [hpc', hpc]) ?_ (by rw [hrecovery', hrecovery]) (by rwa [houtbox'])
      ?_ ?_
    · rcases hstate' with h | h
      · rwa [h, htrusted']
      · exact .inl h
    · rwa [htrusted', hanswer', houtbox', hunwritten (.inl hidle)]
    · rwa [htrusted', houtbox', hunwritten (.inl hidle)]
  | waiting hpc hstate htrusted hrecovery houtbox hanswer hwritten =>
    refine .waiting (by rwa [hpc']) ?_ (by rw [htrusted', htrusted])
      (by rw [hrecovery', hrecovery]) (by rw [houtbox', houtbox]) (by rwa [hanswer'])
      (by rw [hunwritten (.inr htrusted), hanswer', hwritten])
    rcases hstate' with h | h
    · rwa [h]
    · exact .inr h
  | confirmed hpc hstate htrusted hrecovery houtbox hwritten =>
    refine .confirmed (by rw [hpc', hpc]) ?_ (by rw [htrusted', htrusted])
      (by rw [hrecovery', hrecovery]) (by rw [houtbox', houtbox])
      (by rwa [hunwritten (.inr htrusted)])
    rcases hstate' with h | h
    · rwa [h]
    · exact .inr h
  | broken hpc hstate hrecovery houtbox hwritten =>
    have hidle : s.session.stream.state ≠ .streaming := by
      rcases hstate with h | h | h <;> rw [h] <;> decide
    have hfailed : s.session.stream.state = .failed → s'.session.stream.state = .failed := by
      intro h
      rcases hstate' with h' | h'
      · rw [h', h]
      · exact h'
    refine .broken ?_ ?_ (by rw [hrecovery', hrecovery]) (by rwa [houtbox'])
      (by rwa [houtbox', hunwritten (.inl hidle)])
    · rw [hpc']
      exact hpc.imp id fun h => ⟨h.1, hfailed h.2⟩
    · rcases hstate' with h | h
      · rwa [h]
      · exact .inl h
  | opened hpc hstate htrusted houtbox hwritten =>
    refine .opened (by rwa [hpc']) ?_ (by rw [htrusted', htrusted]) (by rw [houtbox', houtbox]) ?_
    · rcases hstate' with h | h
      · rwa [h]
      · exact .inr (.inr h)
    · intro hcalm
      rcases hwritten' with h | ⟨-, -, m, hm, h⟩
      · rw [h]
        exact hwritten hcalm
      · rw [h]
        exact (hwritten hcalm).append hm

theorem state_of_caller {s : Sys} {t : Thread} {ok : Bool} (hb : Base s) (ht : t ≠ net)
    (he : Session.enabled s (.run t ok)) :
    (Session.next cfg s (.run t ok)).stream.trusted = s.stream.trusted ∧
      ((Session.next cfg s (.run t ok)).stream.state = s.stream.state ∨
        (Session.next cfg s (.run t ok)).stream.state = .failed) := by
  have hnet {pc : Pc} (hpc : s.pc t = pc) (hcaller : Pc.ofCaller pc = false) : False :=
    ht (eq_net_of_role (hb.roles t) (by rwa [hpc]))
  have hturn := turn_next cfg he
  generalize hterms : terms (Session.next cfg s (.run t ok)).stream = τ at hturn
  have hstate : (Session.next cfg s (.run t ok)).stream.state = τ.state := by rw [← hterms]; rfl
  have htrusted : (Session.next cfg s (.run t ok)).stream.trusted = τ.trusted := by
    rw [← hterms]
    rfl
  rw [hstate, htrusted]
  cases hturn with
  | keep => exact ⟨rfl, .inl rfl⟩
  | fail => exact ⟨rfl, .inr rfl⟩
  | publish hpc =>
    cases h : s.pc t with
    | hello d v => exact absurd (hnet h rfl) not_false
    | authenticated => exact absurd (hnet h rfl) not_false
    | _ =>
      rw [h] at hpc
      cases hpc
  | start hpc => exact absurd (hnet hpc rfl) not_false
  | commit hpc => exact ⟨rfl, .inl rfl⟩
  | reject hpc => exact ⟨rfl, .inl rfl⟩
  | propose hpc => exact ⟨rfl, .inl rfl⟩

theorem admitsFormat_spec {st : Stream} {config : StreamConfig}
    (h : admitsFormat st config = true) : st.state = .streaming ∧ st.trusted = true := by
  unfold admitsFormat at h
  simp only [Bool.and_eq_true, decide_eq_true_eq] at h
  exact ⟨h.1.1.2, h.1.1.1.2⟩

/-- **Another thread steps.** -/
theorem aside_run {t : Thread} {ok : Bool} (hb : Base s.session) (ht : t ≠ net)
    (he : Session.enabled s.session (.run t ok)) : Aside s (advance cfg s (.run t ok)) := by
  obtain ⟨htrusted, hstate⟩ := @state_of_caller cfg _ _ _ hb ht he
  have hcaller : Pc.ofCaller (s.session.pc t) = true := by
    have hrole := hb.roles t
    rwa [role, if_neg ht] at hrole
  refine ⟨pc_step_of_ne (Ne.symm ht) ok _, htrusted, hstate, rfl, ?_, ?_, ?_⟩
  · change owed s t = s.outbox
    unfold owed
    cases hpc : s.session.pc t <;> rw [hpc] at hcaller <;> first | rfl | cases hcaller
  · change (s.recovery || recovers cfg s.session t) = s.recovery
    have hcalm : recovers cfg s.session t = false := by
      unfold recovers
      cases hpc : s.session.pc t <;> rw [hpc] at hcaller <;> first | rfl | cases hcaller
    rw [hcalm, Bool.or_false]
  · change (if ok then s.written ++ sends s.session t else s.written) = s.written ∨ _
    cases hpc : s.session.pc t with
    | sendFormat config =>
      by_cases h : ok = true ∧ admitsFormat s.session.stream config = true
      · obtain ⟨hstreaming, htrusted⟩ := admitsFormat_spec h.2
        refine .inr ⟨hstreaming, htrusted, .setFormat, rfl, ?_⟩
        change (if ok then s.written ++ sends s.session t else s.written) = _
        simp [sends, hpc, h]
      · refine .inl ?_
        simp only [sends, hpc]
        split_ifs with hok hadmits
        · exact absurd ⟨hok, hadmits⟩ h
        · exact List.append_nil _
        · rfl
    | _ =>
      rw [hpc] at hcaller
      first
      | exact absurd hcaller Bool.false_ne_true
      | exact .inl (by simp [sends, hpc])

theorem aside_call {t : Thread} {c : Call} (he : Session.enabled s.session (.call t c)) :
    Aside s (advance cfg s (.call t c)) :=
  ⟨pc_goto_of_ne _ (Ne.symm he.1) _, rfl, .inl rfl, rfl, rfl, rfl, .inl rfl⟩

theorem aside_watchdog : Aside s (advance cfg s .watchdog) := by
  have hwatchdog : Session.next cfg s.session .watchdog = s.session ∨
      Session.next cfg s.session .watchdog = { s.session with stream.state := .failed } := by
    simp only [Session.next, watchdog]
    split_ifs
    · exact .inr rfl
    · exact .inl rfl
  change Aside s { s with session := Session.next cfg s.session .watchdog }
  rcases hwatchdog with h | h
  · rw [h]
    exact ⟨rfl, rfl, .inl rfl, rfl, rfl, rfl, .inl rfl⟩
  · rw [h]
    exact ⟨rfl, rfl, .inr rfl, rfl, rfl, rfl, .inl rfl⟩

theorem aside_tick : Aside s (advance cfg s .tick) :=
  ⟨rfl, rfl, .inl rfl, rfl, rfl, rfl, .inl rfl⟩

/-! ### Steps of the network thread -/

/-- The sending of an answer, and the place after the confirmation is sent. -/
def Pc.answers : Pc → Bool
  | .handshakeSend | .authenticated => true
  | _ => false

theorem answers_controlPc {state : State} {trusted : Bool} (message : ControlMessage) :
    Pc.answers (controlPc cfg state trusted message) = false := by
  cases message with
  | formatAck generation =>
    cases generation <;> simp only [controlPc, trustedPc] <;> split_ifs <;> rfl
  | formatReject generation =>
    cases generation <;> simp only [controlPc, trustedPc] <;> split_ifs <;> rfl
  | _ =>
    simp only [controlPc, trustedPc]
    split_ifs <;> rfl

/-- The answer to a frame is not sent at once. -/
theorem answers_onFrame {session : Sys} (inbound : Inbound) (hpc : session.pc net = .serving) :
    Pc.answers ((onFrame cfg session inbound).pc net) = false := by
  cases inbound with
  | ignored =>
    rw [onFrame, hpc]
    rfl
  | violation | undecodable =>
    rw [onFrame, pc_goto_self]
    rfl
  | control message =>
    rw [onFrame, pc_goto_self]
    exact answers_controlPc message
  | video frame =>
    rw [onFrame, pc_goto_self]
    unfold videoPc
    dsimp only
    split_ifs <;> rfl

theorem settled_controlPc {state : State} {trusted : Bool} (message : ControlMessage)
    (hstate : state ≠ .awaitingHello ∧ state ≠ .awaitingTrust) :
    Pc.settled (controlPc cfg state trusted message) = true := by
  obtain ⟨-, -, hidle, hshake⟩ := controlPc_spec cfg state trusted message
  have hno : Pc.handshake (controlPc cfg state trusted message) = false := by
    by_contra h
    rcases hshake (by simpa using h) with h | h
    · exact hstate.1 h
    · exact hstate.2 h
  have hsend : controlPc cfg state trusted message ≠ .handshakeSend := by
    intro h
    have hanswers := @answers_controlPc cfg state trusted message
    rw [h] at hanswers
    cases hanswers
  simp [Pc.settled, hno, hsend, hidle]

/-- The places a frame leads to in an open session. -/
theorem settled_onFrame {session : Sys} (inbound : Inbound)
    (hpc : session.pc net = .serving)
    (hstate : session.stream.state ≠ .awaitingHello ∧ session.stream.state ≠ .awaitingTrust) :
    Pc.settled ((onFrame cfg session inbound).pc net) = true := by
  cases inbound with
  | violation => simp [onFrame, Pc.settled, Pc.handshake]
  | ignored =>
    rw [onFrame, hpc]
    rfl
  | undecodable => simp [onFrame, Pc.settled, Pc.handshake]
  | control message =>
    rw [onFrame, pc_goto_self]
    exact settled_controlPc message hstate
  | video frame =>
    rw [onFrame, pc_goto_self]
    unfold videoPc
    dsimp only
    split_ifs <;> simp [Pc.settled, Pc.handshake]

theorem stream_onFrame (session : Sys) (inbound : Inbound) :
    (onFrame cfg session inbound).stream = session.stream := by
  cases inbound <;> rfl

/-- Before the phone is trusted, a frame is ignored, fails the session or belongs to the
handshake. -/
theorem untrusted_onFrame {session : Sys} (inbound : Inbound) (hpc : session.pc net = .serving)
    (htrusted : session.stream.trusted = false)
    (hhello : ∀ d v, inbound ≠ .control (.hello d v)) :
    (onFrame cfg session inbound).pc net = .serving ∨
      (onFrame cfg session inbound).pc net = .malformed ∨
      (onFrame cfg session inbound).pc net = .fail ∨
      ∃ v, (onFrame cfg session inbound).pc net = .authResponse v ∧
        cfg.sessionSecurity = true ∧ session.stream.state = .awaitingTrust := by
  cases inbound with
  | violation => exact .inr (.inr (.inl (pc_goto_self ..)))
  | ignored => exact .inl hpc
  | undecodable => exact .inr (.inl (pc_goto_self ..))
  | video frame =>
    rw [onFrame, pc_goto_self, videoPc]
    simp [htrusted]
  | control message =>
    rw [onFrame, pc_goto_self, htrusted]
    cases message with
    | hello d v => exact absurd rfl (hhello d v)
    | authResponse v =>
      simp only [controlPc]
      split_ifs with h1 h2
      · exact .inr (.inr (.inl rfl))
      · exact .inr (.inr (.inl rfl))
      · push Not at h2
        exact .inr (.inr (.inr ⟨v, rfl, by simpa using h2.2, h2.1⟩))
    | _ =>
      simp only [controlPc, Bool.not_false, if_true]
      split_ifs
      · exact .inr (.inr (.inl rfl))
      · exact .inl rfl

/-- In a failed session every frame is dropped or fails it again. -/
theorem failed_onFrame {session : Sys} (inbound : Inbound) (hpc : session.pc net = .serving)
    (hstate : session.stream.state = .failed) :
    (onFrame cfg session inbound).pc net = .fail ∨
      (onFrame cfg session inbound).pc net = .serving ∨
      (onFrame cfg session inbound).pc net = .malformed ∨
      (onFrame cfg session inbound).pc net = .videoDrop := by
  cases inbound with
  | violation => exact .inl (pc_goto_self ..)
  | ignored => exact .inr (.inl hpc)
  | undecodable => exact .inr (.inr (.inl (pc_goto_self ..)))
  | video frame =>
    rw [onFrame, pc_goto_self, videoPc, hstate]
    cases session.stream.trusted <;> simp
  | control message =>
    rw [onFrame, pc_goto_self, hstate]
    cases message <;> cases session.stream.trusted <;> simp [controlPc]

/-- A frame arrives. -/
theorem phase_receive {inbound : Inbound} (h : Phase cfg calm s)
    (he : s.session.pc net = .serving) (hhello : ∀ d v, inbound ≠ .control (.hello d v)) :
    Phase cfg calm { s with session := onFrame cfg s.session inbound } := by
  have hstream := @stream_onFrame cfg s.session inbound
  cases h with
  | down hpc =>
    rw [he] at hpc
    cases hpc
  | greeting hpc hstate htrusted hrecovery houtbox hwritten =>
    have hplace := @untrusted_onFrame cfg _ inbound he htrusted hhello
    refine .greeting ?_ (by rwa [hstream]) (by rwa [hstream]) hrecovery houtbox hwritten
    rcases hplace with h | h | h | ⟨v, -, -, h⟩
    · exact .inl h
    · exact .inr (.inl h)
    · exact .inr (.inr (.inl h))
    · rw [h] at hstate
      rcases hstate with h | h <;> cases h
  | sending hpc =>
    rw [he] at hpc
    cases hpc
  | waiting hpc hstate htrusted hrecovery houtbox hanswer hwritten =>
    have hplace := @untrusted_onFrame cfg _ inbound he htrusted hhello
    refine .waiting ?_ (by rwa [hstream]) (by rwa [hstream]) hrecovery houtbox hanswer hwritten
    rcases hplace with h | h | h | ⟨v, h, hsecurity, -⟩
    · exact .inl h
    · exact .inr (.inl h)
    · exact .inr (.inr (.inl h))
    · exact .inr (.inr (.inr ⟨v, h, hsecurity⟩))
  | confirmed hpc =>
    rw [he] at hpc
    cases hpc
  | broken hpc hstate hrecovery houtbox hwritten =>
    have hfailed : s.session.stream.state = .failed := by
      rcases hpc with hpc | ⟨-, h⟩
      · rw [he] at hpc
        cases hpc
      · exact h
    refine .broken ?_ (by rwa [hstream]) hrecovery houtbox hwritten
    rw [hstream]
    exact (failed_onFrame inbound he hfailed).imp id fun h => ⟨h, hfailed⟩
  | opened hpc hstate htrusted houtbox hwritten =>
    refine .opened (settled_onFrame inbound he ?_) (by rwa [hstream]) (by rwa [hstream]) houtbox
      hwritten
    rcases hstate with h | h | h <;> rw [h] <;> decide

/-! ### The handlers -/

/-- Outside the handshake the network thread stays outside. -/
theorem settled_step {session : Sys} {ok : Bool} {pc : Pc} (hpc : session.pc net = pc)
    (hnet : Pc.ofNet pc = true) (h : Pc.settled pc = true) :
    Pc.settled ((step cfg session net ok pc).pc net) = true := by
  cases pc with
  | idle => cases h
  | hello d v => cases h
  | authResponse v => cases h
  | authenticated => cases h
  | handshakeSend => cases h
  | serving =>
    rw [step, hpc]
    rfl
  | streamStart =>
    simp only [step, startStream]
    split_ifs <;> simp [Pc.settled, Pc.handshake]
  | formatAck generation =>
    simp only [step, handleFormatAck]
    split
    · simp [Pc.settled, Pc.handshake]
    · split_ifs <;> simp [Pc.settled, Pc.handshake]
  | formatReject generation =>
    simp only [step, handleFormatReject]
    split_ifs <;> simp [Pc.settled, Pc.handshake]
  | requestKeyframe => cases ok <;> simp [step, Pc.settled, Pc.handshake]
  | videoEnqueue arrived =>
    simp only [step, enqueue]
    split_ifs <;> simp [Pc.settled, Pc.handshake]
  | sendFormat config => cases hnet
  | setConsumer consumer => cases hnet
  | resetCall consumer config generation connection after =>
    cases consumer <;> simp [step, resetCall, Pc.settled, Pc.handshake]
  | resetClear after => cases after <;> simp [step, resetClear, Pc.settled, Pc.handshake]
  | drainEnter =>
    simp only [step, drainEnter]
    split_ifs <;> simp [Sys.drainReturn, Pc.settled, Pc.handshake]
  | drainTake =>
    simp only [step, drainTake]
    split
    · split_ifs <;> simp [Sys.drainReturn, Pc.settled, Pc.handshake]
    · simp [Sys.drainReturn, Pc.settled, Pc.handshake]
  | consume queued consumer =>
    cases ok <;> simp [step, drainConsume, Pc.settled, Pc.handshake]
  | drainRemove queued =>
    simp only [step, drainRemove]
    split
    · split_ifs <;> simp [Pc.settled, Pc.handshake]
    · simp [Pc.settled, Pc.handshake]
  | _ =>
    simp [step, protocolFailure, malformedControl, resetLock, Sys.drainReturn, Pc.settled,
      Pc.handshake]

/-- An open session stays open. -/
theorem opened_step {session : Sys} {ok : Bool} (he : Session.enabled session (.run net ok))
    (hpc : Pc.settled (session.pc net) = true)
    (hstate : session.stream.state = .ready ∨ session.stream.state = .streaming ∨
      session.stream.state = .failed) :
    ((Session.next cfg session (.run net ok)).stream.state = .ready ∨
      (Session.next cfg session (.run net ok)).stream.state = .streaming ∨
      (Session.next cfg session (.run net ok)).stream.state = .failed) ∧
      (Session.next cfg session (.run net ok)).stream.trusted = session.stream.trusted := by
  have hturn := turn_next cfg he
  generalize hterms : terms (Session.next cfg session (.run net ok)).stream = τ at hturn
  have hstate' : (Session.next cfg session (.run net ok)).stream.state = τ.state := by
    rw [← hterms]
    rfl
  have htrusted' : (Session.next cfg session (.run net ok)).stream.trusted = τ.trusted := by
    rw [← hterms]
    rfl
  rw [hstate', htrusted']
  cases hturn with
  | keep => exact ⟨hstate, rfl⟩
  | fail => exact ⟨.inr (.inr rfl), rfl⟩
  | publish hpublishes =>
    cases h : session.pc net with
    | hello d v =>
      rw [h] at hpc
      cases hpc
    | authenticated =>
      rw [h] at hpc
      cases hpc
    | _ =>
      rw [h] at hpublishes
      cases hpublishes
  | start => exact ⟨.inr (.inl rfl), rfl⟩
  | commit => exact ⟨hstate, rfl⟩
  | reject => exact ⟨hstate, rfl⟩
  | propose => exact ⟨hstate, rfl⟩

/-- What the network thread writes outside the handshake. -/
theorem sends_settled {session : Sys} (hpc : Pc.settled (session.pc net) = true) :
    ∀ m ∈ sends session net, m.ofHandshake = false := by
  intro m hm
  unfold sends at hm
  split at hm
  · rename_i h
    rw [h] at hpc
    cases hpc
  · rw [List.mem_singleton.mp hm]
    rfl
  · split_ifs at hm
    · rw [List.mem_singleton.mp hm]
      rfl
    · cases hm
  · cases hm

theorem Complete.append_all {written more : List Message} (h : Complete cfg written)
    (hm : ∀ m ∈ more, m.ofHandshake = false) : Complete cfg (written ++ more) := by
  induction more generalizing written with
  | nil => rwa [List.append_nil]
  | cons m more ih =>
    obtain ⟨hhead, htail⟩ := List.forall_mem_cons.mp hm
    rw [List.append_cons]
    exact ih (h.append hhead) htail

/-- The handlers that end without writing. -/
theorem advance_quiet {ok : Bool} {pc : Pc} (hpc : s.session.pc net = pc)
    (h : pc = .malformed ∨ pc = .fail ∨ pc = .videoDrop) :
    advance cfg s (.run net ok) = { s with session := step cfg s.session net ok pc } := by
  rcases h with rfl | rfl | rfl <;>
    simp [advance, owed, recovers, sends, hpc, Session.next]

/-- `handleHello`. -/
theorem advance_hello {ok : Bool} {d : String} {v : HelloVerdict}
    (hpc : s.session.pc net = .hello d v) :
    advance cfg s (.run net ok) =
      { s with session := handleHello s.session net d v, outbox := announced s.answer } := by
  simp [advance, owed, recovers, sends, hpc, Session.next, step]

theorem phase_hello {ok : Bool} {d : String} (hpc : s.session.pc net = .hello d s.answer.verdict)
    (hfits : s.answer.fits cfg = true) (htrusted : s.session.stream.trusted = false)
    (hstate : s.session.stream.state = .awaitingHello ∨ s.session.stream.state = .failed)
    (hrecovery : s.recovery = false) (hwritten : s.written = []) :
    Phase cfg calm (advance cfg s (.run net ok)) := by
  rw [advance_hello hpc]
  cases hanswer : s.answer with
  | refused =>
    have hto : handleHello s.session net d Answer.refused.verdict = s.session.goto net .fail := rfl
    rw [hto]
    exact .greeting (.inr (.inr (.inl (pc_goto_self ..)))) hstate htrusted hrecovery rfl hwritten
  | unpaired =>
    refine .sending (pc_goto_self ..) (.inr rfl) hrecovery (by simp [announced]) ?_ nofun
    exact fun _ => ⟨.inl rfl, by rw [hwritten]; rfl⟩
  | challenge =>
    rw [hanswer] at hfits
    refine .sending (pc_goto_self ..) (.inr rfl) hrecovery (by simp [announced]) ?_ nofun
    exact fun _ => ⟨.inr ⟨rfl, hfits⟩, by rw [hwritten]; rfl⟩
  | trusted =>
    rw [hanswer] at hfits
    have hpolicy : cfg.sessionSecurity = false := by simpa [Answer.fits] using hfits
    refine .sending (pc_goto_self ..) (.inr rfl) hrecovery (by simp [announced]) nofun ?_
    intro _ _
    rw [hwritten, order, hpolicy]
    rfl

/-- `handleAuthResponse` up to the confirmation. -/
theorem phase_authResponse {ok : Bool} {v : AuthVerdict}
    (hpc : s.session.pc net = .authResponse v) (hsecurity : cfg.sessionSecurity = true)
    (hstate : s.session.stream.state = .awaitingTrust ∨ s.session.stream.state = .failed)
    (htrusted : s.session.stream.trusted = false) (hrecovery : s.recovery = false)
    (houtbox : s.outbox = []) (hanswer : Waits cfg s.answer)
    (hwritten : s.written = announced s.answer)
    (hc : calm → orderly s (.session (.run net ok))) :
    Phase cfg calm (advance cfg s (.run net ok)) := by
  have hsession : Session.next cfg s.session (.run net ok) =
      handleAuthResponse s.session net v ok := by rw [Session.next, hpc]; rfl
  have howed : owed s net = s.outbox := by simp [owed, hpc]
  have hrecovers : (s.recovery || recovers cfg s.session net) = false := by
    simp [recovers, hpc, hrecovery]
  by_cases haccepted : v = .accepted ∧ s.session.activity.hello.isSome = true ∧ ok = true
  · obtain ⟨rfl, hhello, rfl⟩ := haccepted
    have hsends : sends s.session net = [.authConfirm] := by simp [sends, hpc, hhello]
    have hto : handleAuthResponse s.session net .accepted true =
        s.session.goto net .authenticated := by
      obtain ⟨d, hd⟩ := Option.isSome_iff_exists.mp hhello
      simp [handleAuthResponse, hd]
    refine .confirmed ?_ ?_ ?_ hrecovers (howed.trans houtbox) fun hcalm => ?_
    · change (Session.next cfg s.session _).pc net = _
      rw [hsession, hto, pc_goto_self]
    · change (Session.next cfg s.session _).stream.state = _ ∨
        (Session.next cfg s.session _).stream.state = _
      rwa [hsession, hto]
    · change (Session.next cfg s.session _).stream.trusted = _
      rwa [hsession, hto]
    · have hchallenge : s.answer = .challenge := hc hcalm (by rw [hsends]; decide)
      change s.written ++ sends s.session net ++ [.ready] = _
      rw [hsends, hwritten, hchallenge, order, if_pos hsecurity]
      rfl
  · have hsends : (if ok then s.written ++ sends s.session net else s.written) = s.written := by
      cases v with
      | accepted =>
        simp only [sends, hpc]
        split_ifs with hok hhello
        · exact absurd ⟨rfl, hhello, hok⟩ haccepted
        · exact List.append_nil _
        · rfl
      | _ => simp [sends, hpc]
    have hto : handleAuthResponse s.session net v ok = s.session.goto net .malformed ∨
        handleAuthResponse s.session net v ok = s.session.goto net .fail := by
      cases v with
      | malformed => exact .inl rfl
      | rejected => exact .inr rfl
      | accepted =>
        refine .inr ?_
        rw [handleAuthResponse]
        exact if_pos (by cases h : s.session.activity.hello <;> cases ok <;> simp_all)
    refine .waiting ?_ ?_ ?_ hrecovers (howed.trans houtbox) hanswer (hsends.trans hwritten)
    · change (Session.next cfg s.session _).pc net = _ ∨ (Session.next cfg s.session _).pc net = _ ∨
        (Session.next cfg s.session _).pc net = _ ∨ _
      rw [hsession]
      rcases hto with h | h
      · exact .inr (.inl (by rw [h, pc_goto_self]))
      · exact .inr (.inr (.inl (by rw [h, pc_goto_self])))
    · change (Session.next cfg s.session _).stream.state = _ ∨
        (Session.next cfg s.session _).stream.state = _
      rw [hsession]
      rcases hto with h | h <;> rwa [h]
    · change (Session.next cfg s.session _).stream.trusted = _
      rw [hsession]
      rcases hto with h | h <;> rwa [h]

/-- **The network thread runs a handler.** -/
theorem phase_run {ok : Bool} (hb : Base s.session) (h : Phase cfg calm s)
    (he : Session.enabled s.session (.run net ok)) (hpcne : s.session.pc net ≠ .handshakeSend)
    (hc : calm → orderly s (.session (.run net ok))) :
    Phase cfg calm (advance cfg s (.run net ok)) := by
  have hidle := he.1
  have hserving := he.2.1
  cases h with
  | down hpc => exact absurd hpc hidle
  | greeting hpc hstate htrusted hrecovery houtbox hwritten =>
    rcases hpc with hpc | hpc | hpc | ⟨d, hpc, hfits⟩
    · exact absurd hpc hserving
    · rw [advance_quiet hpc (.inl rfl)]
      exact .greeting (.inl (pc_goto_self ..)) hstate htrusted hrecovery houtbox hwritten
    · rw [advance_quiet hpc (.inr (.inl rfl))]
      exact .greeting (.inl (pc_goto_self ..)) (.inr rfl) htrusted hrecovery houtbox hwritten
    · exact phase_hello hpc hfits htrusted hstate hrecovery hwritten
  | sending hpc => exact absurd hpc hpcne
  | waiting hpc hstate htrusted hrecovery houtbox hanswer hwritten =>
    rcases hpc with hpc | hpc | hpc | ⟨v, hpc, hsecurity⟩
    · exact absurd hpc hserving
    · rw [advance_quiet hpc (.inl rfl)]
      exact .waiting (.inl (pc_goto_self ..)) hstate htrusted hrecovery houtbox hanswer hwritten
    · rw [advance_quiet hpc (.inr (.inl rfl))]
      exact .waiting (.inl (pc_goto_self ..)) (.inr rfl) htrusted hrecovery houtbox hanswer hwritten
    · exact phase_authResponse hpc hsecurity hstate htrusted hrecovery houtbox hanswer hwritten hc
  | confirmed hpc hstate htrusted hrecovery houtbox hwritten =>
    have hto : advance cfg s (.run net ok) =
        { s with session := becomeReady s.session net, outbox := [.ready] } := by
      simp [advance, owed, recovers, sends, hpc, Session.next, step]
    rw [hto]
    exact .sending (pc_goto_self ..) (.inr rfl) hrecovery (by simp) (fun h => by cases h)
      fun _ => hwritten
  | broken hpc hstate hrecovery houtbox hwritten =>
    rcases hpc with hpc | ⟨hpc | hpc | hpc, hfailed⟩
    · rw [advance_quiet hpc (.inr (.inl rfl))]
      exact .broken (.inr ⟨.inl (pc_goto_self ..), rfl⟩) (.inl rfl) hrecovery houtbox hwritten
    · exact absurd hpc hserving
    · rw [advance_quiet hpc (.inl rfl)]
      exact .broken (.inr ⟨.inl (pc_goto_self ..), hfailed⟩) (.inl hfailed) hrecovery houtbox
        hwritten
    · rw [advance_quiet hpc (.inr (.inr rfl))]
      exact .broken (.inr ⟨.inl (pc_goto_self ..), hfailed⟩) (.inl hfailed) hrecovery houtbox
        hwritten
  | opened hpc hstate htrusted houtbox hwritten =>
    have hnet : Pc.ofNet (s.session.pc net) = true := hb.roles net
    obtain ⟨hstate', htrusted'⟩ := @opened_step cfg _ _ he hpc hstate
    have howed : owed s net = s.outbox := by
      unfold owed
      cases h : s.session.pc net <;> rw [h] at hpc <;> first | rfl | cases hpc
    refine .opened (settled_step rfl hnet hpc) hstate' (htrusted'.trans htrusted)
      (howed.trans houtbox) fun hcalm => ?_
    change Complete cfg (if ok then s.written ++ sends s.session net else s.written)
    split_ifs
    · exact (hwritten hcalm).append_all (sends_settled hpc)
    · exact hwritten hcalm

/-- **The network thread sends.** -/
theorem phase_send {ok : Bool} (h : Phase cfg calm s) (he : s.session.pc net = .handshakeSend) :
    Phase cfg calm (sendNext cfg s ok) := by
  have hidle {x : Pc} (hx : s.session.pc net = x) (hne : x ≠ .handshakeSend) : False :=
    hne (by rw [← hx, he])
  cases h with
  | down hpc => exact absurd (hidle hpc (by decide)) not_false
  | greeting hpc =>
    rcases hpc with hpc | hpc | hpc | ⟨d, hpc, -⟩ <;> exact absurd (hidle hpc nofun) not_false
  | waiting hpc =>
    rcases hpc with hpc | hpc | hpc | ⟨d, hpc, -⟩ <;> exact absurd (hidle hpc nofun) not_false
  | confirmed hpc => exact absurd (hidle hpc (by decide)) not_false
  | broken hpc =>
    rcases hpc with hpc | ⟨hpc | hpc | hpc, -⟩ <;> exact absurd (hidle hpc nofun) not_false
  | opened hpc =>
    rw [he] at hpc
    cases hpc
  | sending hpc hstate hrecovery houtbox huntrusted htrusted =>
    unfold sendNext
    cases hout : s.outbox with
    | nil => exact absurd hout houtbox
    | cons m rest =>
      rw [hout] at huntrusted htrusted
      have hsession : Session.next cfg s.session (.run net ok) =
          s.session.goto net (if ok then .serving else .fail) := by rw [Session.next, he]; rfl
      cases ok with
      | false =>
        simp only [Bool.not_false, if_true, hsession]
        refine .broken (.inl (pc_goto_self ..)) ?_ hrecovery (by simp)
          (sending_start huntrusted htrusted)
        rcases hstate with h | h
        · exact .inl h
        · by_cases ht : s.session.stream.trusted = true
          · exact .inr (.inl (by rw [stream_goto, h, if_pos ht]))
          · exact .inr (.inr (by rw [stream_goto, h, if_neg ht]))
      | true =>
        simp only [Bool.not_true, Bool.false_eq_true, if_false, hsession, if_true]
        by_cases hrest : rest = []
        · rw [if_pos hrest]
          subst hrest
          by_cases ht : s.session.stream.trusted = true
          · refine .opened (by simp [Pc.settled, Pc.handshake]) ?_ ht rfl fun hcalm => ?_
            · rcases hstate with h | h
              · exact .inr (.inr h)
              · exact .inl (by rw [stream_goto, h, if_pos ht])
            · rw [htrusted ht hcalm]
              exact complete_order cfg
          · obtain ⟨hwaits, hall⟩ := huntrusted (by simpa using ht)
            refine .waiting (.inl (pc_goto_self ..)) ?_ (by simpa using ht) hrecovery rfl hwaits
              hall
            rcases hstate with h | h
            · exact .inr h
            · exact .inl (by rw [stream_goto, h, if_neg ht])
        · rw [if_neg hrest]
          rw [List.append_cons] at huntrusted htrusted
          exact .sending he hstate hrecovery hrest huntrusted htrusted

/-- A step of the controller. -/
theorem phase_session {a : Session.Action} (hb : Base s.session) (h : Phase cfg calm s)
    (he : Session.enabled s.session a) (hu : unhurried s a)
    (hc : calm → orderly s (.session a)) : Phase cfg calm (advance cfg s a) := by
  cases a with
  | connect =>
    refine .greeting (.inl (pc_goto_self ..)) ?_ rfl rfl rfl rfl
    change (if _ then State.awaitingHello else State.failed) = _ ∨
      (if _ then State.awaitingHello else State.failed) = _
    split_ifs
    · exact .inl rfl
    · exact .inr rfl
  | disconnect =>
    exact .down (pc_goto_self ..) (.inl rfl) hu h.documented
  | receive inbound =>
    have hhello : ∀ d v, inbound ≠ .control (.hello d v) := by
      rintro d v rfl
      exact hu
    exact phase_receive h he hhello
  | call t c => exact h.aside (aside_call he)
  | run t ok =>
    by_cases ht : t = net
    · subst ht
      exact phase_run hb h he hu hc
    · exact h.aside (aside_run hb ht he)
  | watchdog => exact h.aside aside_watchdog
  | tick => exact h.aside aside_tick

/-! ### Runs -/

/-- A `hello` that comes too late fails the session. -/
theorem phase_hello_arrives {d : String} {answer : Answer} (h : Phase cfg calm s)
    (he : s.session.pc net = .serving) (hfits : answer.fits cfg = true) :
    Phase cfg calm (next cfg s (.hello d answer)) := by
  have hpc' : (next cfg s (.hello d answer)).session.pc net =
      if s.session.stream.state ≠ .awaitingHello then .fail else .hello d answer.verdict :=
    pc_goto_self ..
  have hanswer' (hstate : s.session.stream.state ≠ .awaitingHello) :
      (next cfg s (.hello d answer)).answer = s.answer := if_neg hstate
  have hidle {x : Pc} (hx : s.session.pc net = x) (hne : x ≠ .serving) : False :=
    hne (by rw [← hx, he])
  cases h with
  | down hpc => exact absurd (hidle hpc (by decide)) not_false
  | sending hpc => exact absurd (hidle hpc (by decide)) not_false
  | confirmed hpc => exact absurd (hidle hpc (by decide)) not_false
  | greeting hpc hstate htrusted hrecovery houtbox hwritten =>
    refine .greeting ?_ hstate htrusted hrecovery houtbox hwritten
    by_cases hwait : s.session.stream.state = .awaitingHello
    · rw [if_neg (not_not.mpr hwait)] at hpc'
      have hanswer : (next cfg s (.hello d answer)).answer = answer := if_pos hwait
      exact .inr (.inr (.inr ⟨d, by rw [hpc', hanswer], by rwa [hanswer]⟩))
    · rw [if_pos hwait] at hpc'
      exact .inr (.inr (.inl hpc'))
  | waiting hpc hstate htrusted hrecovery houtbox hanswer hwritten =>
    have hlate : s.session.stream.state ≠ .awaitingHello := by
      rcases hstate with h | h <;> rw [h] <;> decide
    rw [if_pos hlate] at hpc'
    exact .waiting (.inr (.inr (.inl hpc'))) hstate htrusted hrecovery houtbox
      (by rwa [hanswer' hlate]) (by rwa [hanswer' hlate])
  | broken hpc hstate hrecovery houtbox hwritten =>
    have hlate : s.session.stream.state ≠ .awaitingHello := by
      rcases hstate with h | h | h <;> rw [h] <;> decide
    rw [if_pos hlate] at hpc'
    exact .broken (.inl hpc') hstate hrecovery houtbox hwritten
  | opened hpc hstate htrusted houtbox hwritten =>
    have hlate : s.session.stream.state ≠ .awaitingHello := by
      rcases hstate with h | h | h <;> rw [h] <;> decide
    rw [if_pos hlate] at hpc'
    exact .opened (by rw [hpc']; rfl) hstate htrusted houtbox hwritten

/-- A command that a session admits. -/
theorem phase_command {m : Message} (h : Phase cfg calm s)
    (hadmits : admits s.session.stream = true) (hm : m.ofHandshake = false) (hc : calm → s.outbox = []) :
    Phase cfg calm { s with written := s.written ++ [m] } := by
  unfold admits at hadmits
  simp only [Bool.and_eq_true, Bool.or_eq_true, decide_eq_true_eq] at hadmits
  obtain ⟨⟨-, htrusted'⟩, hstate'⟩ := hadmits
  cases h with
  | down hpc hstate =>
    rcases hstate with h | h <;> rw [h] at hstate' <;> simp at hstate'
  | greeting hpc hstate htrusted =>
    rw [htrusted] at htrusted'
    cases htrusted'
  | sending hpc hstate hrecovery houtbox huntrusted htrusted =>
    refine .sending hpc hstate hrecovery houtbox (fun ht => ?_) fun _ hcalm => ?_
    · rw [htrusted'] at ht
      cases ht
    · exact absurd (hc hcalm) houtbox
  | waiting hpc hstate htrusted =>
    rw [htrusted] at htrusted'
    cases htrusted'
  | confirmed hpc hstate htrusted =>
    rw [htrusted] at htrusted'
    cases htrusted'
  | broken hpc hstate hrecovery houtbox hwritten =>
    exact .broken hpc hstate hrecovery houtbox fun hcalm => absurd (hc hcalm) houtbox
  | opened hpc hstate htrusted houtbox hwritten =>
    exact .opened hpc hstate htrusted houtbox fun hcalm => (hwritten hcalm).append hm

/-- A keyframe is requested in an open session only. -/
theorem phase_recover {ok : Bool} (h : Phase cfg calm s) (he : s.recovery = true) :
    Phase cfg calm (next cfg s (.recover ok)) := by
  have hidle (hx : s.recovery = false) : False := by
    rw [he] at hx
    cases hx
  cases h with
  | down hpc hstate hrecovery => exact absurd (hidle hrecovery) not_false
  | greeting hpc hstate htrusted hrecovery => exact absurd (hidle hrecovery) not_false
  | sending hpc hstate hrecovery => exact absurd (hidle hrecovery) not_false
  | waiting hpc hstate htrusted hrecovery => exact absurd (hidle hrecovery) not_false
  | confirmed hpc hstate htrusted hrecovery => exact absurd (hidle hrecovery) not_false
  | broken hpc hstate hrecovery => exact absurd (hidle hrecovery) not_false
  | opened hpc hstate htrusted houtbox hwritten =>
    refine .opened hpc hstate htrusted houtbox fun hcalm => ?_
    simp only [next]
    split_ifs
    · exact (hwritten hcalm).append rfl
    · exact hwritten hcalm

/-- **Every step keeps to the phases.** -/
theorem phase_next {a : Action} (hb : Base s.session) (h : Phase cfg calm s)
    (he : enabled cfg s a) (hc : calm → orderly s a) : Phase cfg calm (next cfg s a) := by
  cases a with
  | session a => exact phase_session hb h he.1 he.2 hc
  | hello d answer => exact phase_hello_arrives h he.1 he.2.2
  | send ok => exact phase_send h he
  | recover ok => exact phase_recover h he
  | command c ok =>
    simp only [next]
    split_ifs with hwrites
    · obtain ⟨hok, hadmits⟩ := Bool.and_eq_true_iff.mp hwrites
      exact phase_command h hadmits (by cases c <;> rfl) fun hcalm => hc hcalm hok hadmits
    · exact h

theorem base_line {a : Action} (hb : Base s.session) (he : enabled cfg s a) :
    Base (next cfg s a).session := by
  cases a with
  | session a =>
    have hto : (next cfg s (.session a)).session = Session.next cfg s.session a := by
      cases a <;> rfl
    rw [hto]
    exact base_next hb he.1
  | hello d answer => exact base_next hb he.1
  | send ok =>
    have hstep (ok : Bool) : Base (Session.next cfg s.session (.run net ok)) := by
      have he' : s.session.pc net = .handshakeSend := he
      exact base_next hb ⟨by rw [he']; nofun, by rw [he']; nofun, by rw [he']; nofun⟩
    simp only [next, sendNext]
    split
    · exact hb
    · split_ifs
      · exact hstep false
      · exact hstep true
      · exact hb
  | recover ok => exact hb
  | command c ok =>
    simp only [next]
    split_ifs <;> exact hb

/-- Only the network thread writes the other messages of the handshake, from its outbox. -/
theorem mem_written_next {a : Action} {m : Message} (hm : m.ofHandshake = true)
    (hconfirm : m ≠ .authConfirm) (h : m ∈ (next cfg s a).written) :
    m ∈ s.written ∨ a = .send true ∧ ∃ rest, s.outbox = m :: rest := by
  have hsends {t : Thread} : m ∉ sends s.session t := by
    unfold sends
    split
    · split_ifs <;> simp [hconfirm]
    · rintro hmem
      rw [List.mem_singleton.mp hmem] at hm
      cases hm
    · split_ifs
      · rintro hmem
        rw [List.mem_singleton.mp hmem] at hm
        cases hm
      · simp
    · simp
  cases a with
  | session a =>
    cases a with
    | connect => cases h
    | run t ok =>
      change _ ∈ if ok then s.written ++ sends s.session t else s.written at h
      split_ifs at h
      · exact .inl ((List.mem_append.mp h).resolve_right hsends)
      · exact .inl h
    | _ => exact .inl h
  | hello d answer => exact .inl h
  | send ok =>
    simp only [next, sendNext] at h
    split at h
    · exact .inl h
    · next message rest houtbox =>
      cases ok with
      | false => exact .inl h
      | true =>
        rcases List.mem_append.mp h with h | h
        · exact .inl h
        · rw [← List.mem_singleton.mp h] at houtbox
          exact .inr ⟨rfl, rest, houtbox⟩
  | recover ok =>
    simp only [next] at h
    split_ifs at h
    · refine .inl ((List.mem_append.mp h).resolve_right fun hmem => ?_)
      rw [List.mem_singleton.mp hmem] at hm
      cases hm
    · exact .inl h
  | command c ok =>
    simp only [next] at h
    split_ifs at h
    · refine .inl ((List.mem_append.mp h).resolve_right fun hmem => ?_)
      rw [List.mem_singleton.mp hmem] at hm
      cases c <;> cases hm
    · exact .inl h

theorem phase_start (cfg : SessionConfig) (consumer : Option ConsumerId) :
    Phase cfg calm (.start cfg consumer) :=
  .down (pc_start cfg consumer net) (.inl rfl) rfl fun _ => .inl List.nil_prefix

/-! ### The order and its violations -/

theorem order_ofHandshake (cfg : SessionConfig) : ∀ m ∈ order cfg, m.ofHandshake = true := by
  unfold order
  split_ifs <;> decide

/-- What is to be sent continues what was written, while others may send. -/
theorem Phase.outbox_start (h : Phase cfg calm s) (hcalm : calm) (hout : s.outbox ≠ [])
    (hadmits : admits s.session.stream = true) : s.written ++ s.outbox <+: order cfg := by
  cases h with
  | down hpc hstate =>
    unfold admits at hadmits
    rcases hstate with h | h <;> rw [h] at hadmits <;> simp at hadmits
  | greeting hpc hstate htrusted hrecovery houtbox => exact absurd houtbox hout
  | sending hpc hstate hrecovery houtbox huntrusted htrusted =>
    exact sending_start huntrusted htrusted hcalm
  | waiting hpc hstate htrusted hrecovery houtbox => exact absurd houtbox hout
  | confirmed hpc hstate htrusted hrecovery houtbox => exact absurd houtbox hout
  | broken hpc hstate hrecovery houtbox hwritten => exact hwritten hcalm
  | opened hpc hstate htrusted houtbox => exact absurd houtbox hout

/-- A message of no handshake before the last one of the handshake. -/
theorem not_documented_early {written outbox : List Message} {m : Message}
    (h : written ++ outbox <+: order cfg) (hout : outbox ≠ []) (hm : m.ofHandshake = false) :
    ¬ Documented cfg (written ++ [m]) := by
  have hnot : m ∉ order cfg := fun hmem => by
    rw [order_ofHandshake cfg m hmem] at hm
    cases hm
  rintro (hstart | ⟨hstart, -⟩)
  · exact hnot (hstart.subset (by simp))
  · have hlen := h.length_le
    have hlen' := hstart.length_le
    have hpos : 0 < outbox.length := List.length_pos_of_ne_nil hout
    rw [List.length_append] at hlen hlen'
    rw [List.length_singleton] at hlen'
    have heq : order cfg = written ++ [m] :=
      hstart.eq_of_length (by rw [List.length_append, List.length_singleton]; omega)
    exact hnot (by rw [heq]; simp)

/-- A confirmation comes in order only after a challenge. -/
theorem challenged_of_confirmed (h : Phase cfg calm s)
    (hpc : s.session.pc net = .authResponse .accepted)
    (hw : Documented cfg (s.written ++ [Message.authConfirm])) : s.answer = .challenge := by
  have hidle {x : Pc} (hx : s.session.pc net = x) (hne : x ≠ .authResponse .accepted) : False :=
    hne (by rw [← hx, hpc])
  cases h with
  | down hpc' => exact absurd (hidle hpc' (by decide)) not_false
  | greeting hpc' =>
    rcases hpc' with h | h | h | ⟨d, h, -⟩ <;> exact absurd (hidle h nofun) not_false
  | sending hpc' => exact absurd (hidle hpc' (by decide)) not_false
  | confirmed hpc' => exact absurd (hidle hpc' (by decide)) not_false
  | broken hpc' =>
    rcases hpc' with h | ⟨h | h | h, -⟩ <;> exact absurd (hidle h nofun) not_false
  | opened hpc' =>
    rw [hpc] at hpc'
    cases hpc'
  | waiting hpc' hstate htrusted hrecovery houtbox hanswer hwritten =>
    rcases hanswer with hanswer | ⟨hanswer, -⟩
    · rw [hwritten, hanswer] at hw
      unfold Documented Complete order at hw
      split_ifs at hw <;> exact absurd hw (by decide)
    · exact hanswer

/-- A step that leaves the order documented is orderly. -/
theorem orderly_of_writes {a : Action} (hb : Base s.session) (h : Phase cfg True s)
    (hw : writesInOrder cfg s a) : orderly s a := by
  cases a with
  | command c ok =>
    intro hok hadmits
    by_contra hout
    have hwritten : (next cfg s (.command c ok)).written = s.written ++ [c.message] := by
      simp only [next]
      rw [if_pos (by rw [hok, hadmits]; rfl)]
    rw [writesInOrder, hwritten] at hw
    exact not_documented_early (h.outbox_start trivial hout hadmits) hout (by cases c <;> rfl) hw
  | session a =>
    cases a with
    | run t ok =>
      cases ok with
      | false => trivial
      | true =>
        intro hsends
        have hpc : s.session.pc t = .authResponse .accepted := by
          unfold sends at hsends
          split at hsends
          · assumption
          · simp at hsends
          · split_ifs at hsends <;> simp at hsends
          · cases hsends
        have hsent : sends s.session t = [.authConfirm] := by
          simp only [sends, hpc] at hsends ⊢
          split_ifs at hsends ⊢ with hhello
          · rfl
          · cases hsends
        obtain rfl : t = net := eq_net_of_role (hb.roles t) (by rw [hpc]; rfl)
        have hwritten : (next cfg s (.session (.run net true))).written =
            s.written ++ [.authConfirm] := congrArg (s.written ++ ·) hsent
        rw [writesInOrder, hwritten] at hw
        exact challenged_of_confirmed h hpc hw
    | _ => trivial
  | _ => trivial

/-- **The documented order.** In every run, the messages written on every connection are in the
documented order at all times, if and only if no other thread writes while the network thread has a
message of the handshake to send, and a confirmation goes only to a phone that was challenged. -/
theorem writesInOrder_iff (cfg : SessionConfig) (consumer : Option ConsumerId)
    (as : List Action) :
    (line cfg).Legal (writesInOrder cfg) (.start cfg consumer) as ↔
      (line cfg).Legal orderly (.start cfg consumer) as := by
  have init : Base (Line.start cfg consumer).session ∧ Phase cfg True (.start cfg consumer) :=
    ⟨base_start cfg consumer, phase_start cfg consumer⟩
  constructor
  · intro hwrites
    refine hwrites.along (I := fun s => Base s.session ∧ Phase cfg True s) init ?_ ?_
    · rintro s a ⟨hb, h⟩ he hw
      exact ⟨base_line hb he, phase_next hb h he fun _ => orderly_of_writes hb h hw⟩
    · rintro s a ⟨hb, h⟩ - hw
      exact orderly_of_writes hb h hw
  · intro horderly
    refine horderly.along (I := fun s => Base s.session ∧ Phase cfg True s) init ?_ ?_
    · rintro s a ⟨hb, h⟩ he hc
      exact ⟨base_line hb he, phase_next hb h he fun _ => hc⟩
    · rintro s a ⟨hb, h⟩ he hc
      exact (phase_next hb h he fun _ => hc).documented trivial

example : (line {}).Legal orderly (.start {} none)
    [.session .connect, .hello "phone" .challenge, .session (.run net true), .send true, .send true,
      .session (.receive (.control (.authResponse .accepted))), .session (.run net true),
      .session (.run net true), .send true, .command .sendPreview true] := by decide

/-- A phone is trusted at once, and a command writes before anything is sent. -/
def hastyPreview : List Action :=
  [.session .connect, .hello "phone" .trusted, .session (.run net true), .command .sendPreview true]

theorem not_writesInOrder_of_hastyPreview :
    ∃ cfg as, (line cfg).Legal (fun _ _ => True) (.start cfg none) as ∧
      ((line cfg).exec (.start cfg none) as).written = [.setPreview] ∧
      ¬ (line cfg).Legal (writesInOrder cfg) (.start cfg none) as := by
  refine ⟨{ sessionSecurity := false }, hastyPreview, by decide, by decide, fun h => ?_⟩
  have hlast : Documented { sessionSecurity := false } [.setPreview] := h.2.2.2.2.2.2.2.1
  exact absurd hlast (by decide)

end RemoteCam.Backend.Handshake
