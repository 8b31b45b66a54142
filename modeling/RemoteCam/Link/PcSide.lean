import RemoteCam.Backend.Failure
import RemoteCam.Link.System

/-! # The PC's side of the connection

What a step of the controller means to the phone: what becomes of the deal, of the answer that was
heard and of the units in the queue, and which orders are written. A connection is `Open` until the
session fails or ends; then it is `Closed`, and no word of the phone counts any more. -/

namespace RemoteCam.Link.PcSide

open RemoteCam.Lib.Negotiation RemoteCam.Lib.Transitions
open RemoteCam.Backend.Session RemoteCam.Backend.Effects RemoteCam.Backend.Invariants
open RemoteCam.Backend.Phases RemoteCam.Backend.FormatChange RemoteCam.Backend.Opening
open RemoteCam.Backend.Failure (failed_next publishing)
open RemoteCam.Backend.Handshake (Line Message Answer announced owed Phase Pc.settled admitsFormat
  sends stream_onFrame failed_onFrame base_line phase_next mem_written_next)
open RemoteCam.Phone.Transport (Content PeerMessage)
open RemoteCam.Link.System (Enqueued Details message takes format Receives readings frame origin)

variable {cfg : SessionConfig} {l : Line} {a : Backend.Handshake.Action} {s s' : Sys}
  {b : Backend.Session.Action}

/-! ### The queue -/

/-- The unit stays where it is enqueued. -/
theorem enqueued_goto {s₁ : Sys} {t : Thread} {pc : Pc} {x : Arrived}
    (hpool : s₁.pool = s.pool) (hqueue : ∀ q ∈ s₁.stream.queue, q ∈ s.stream.queue)
    (hpc : Pc.enqueues pc = false) (h : Enqueued (s₁.goto t pc) x) : Enqueued s x := by
  rcases h with h | ⟨q, hq, hx⟩
  · rw [pc_goto] at h
    split_ifs at h with ht
    · rw [h] at hpc
      cases hpc
    · rw [Sys.pc, hpool] at h
      exact .inl h
  · exact .inr ⟨q, hqueue q hq, hx⟩

/-- **What is enqueued** was enqueued before, under the same format, or has just been received. -/
theorem enqueued_effect (hr : Roles s) (e : Effect cfg s b s') {x : Arrived}
    (h : Enqueued s' x) :
    Enqueued s x ∧ s'.stream.streamGeneration = s.stream.streamGeneration ∧
        s'.stream.streamConfig = s.stream.streamConfig ∨
      ∃ frame, b = .receive (.video frame) ∧
        videoPc s.stream frame s.arrivals = .videoEnqueue x := by
  have hgone {s₁ : Sys} {t : Thread} {pc : Pc} (hqueue : s₁.stream.queue = [])
      (ht : t = net) (hpc : Pc.enqueues pc = false) (h : Enqueued (s₁.goto t pc) x) : False := by
    subst ht
    rcases h with h | ⟨q, hq, -⟩
    · rw [pc_goto_self] at h
      rw [h] at hpc
      cases hpc
    · rw [stream_goto, hqueue] at hq
      exact List.not_mem_nil hq
  have hstays {s₁ : Sys} {t : Thread} {pc : Pc} (hpool : s₁.pool = s.pool)
      (hqueue : s₁.stream.queue = s.stream.queue) (hpc : Pc.enqueues pc = false)
      (h : Enqueued (s₁.goto t pc) x) : Enqueued s x :=
    enqueued_goto hpool (fun q hq => by rwa [hqueue] at hq) hpc h
  cases e with
  | still hstate => exact .inl ⟨h, rfl, rfl⟩
  | plain hfrom hvalid hto hstate =>
    exact .inl ⟨hstays rfl rfl (plain_iff.mp hto.plain).2.2 h, rfl, rfl⟩
  | connect hpc => exact (hgone rfl rfl rfl h).elim
  | disconnect hpc => exact (hgone rfl rfl rfl h).elim
  | @arrive frame hpc =>
    rcases h with h | hq
    · rw [pc_goto_self] at h
      exact .inr ⟨frame, rfl, h⟩
    · exact .inl ⟨.inr hq, rfl, rfl⟩
  | flush hfrom hto hdropped =>
    refine .inl ⟨enqueued_goto ?_ ?_ (plain_iff.mp hto.plain).2.2 h, rfl, rfl⟩
    · rfl
    · exact fun q hq => absurd hq List.not_mem_nil
  | @append t ok y activity hpc hkey =>
    have ht : t = net := eq_net_of_role (hr t) (by rw [hpc]; rfl)
    subst ht
    refine .inl ⟨?_, rfl, rfl⟩
    rcases h with h | ⟨q, hq, hx⟩
    · rw [pc_goto_self] at h
      cases h
    · rcases List.mem_append.mp hq with hq | hq
      · exact .inr ⟨q, hq, hx⟩
      · rw [List.mem_singleton.mp hq] at hx
        exact .inl (hpc.trans (congrArg _ hx))
  | startStream hpc hstate hpending hresetting =>
    exact .inl ⟨hstays rfl rfl rfl h, rfl, rfl⟩
  | @formatAck t ok generation applied activity hpc hpending hresetting =>
    have ht : t = net := eq_net_of_role (hr t) (by rw [hpc]; rfl)
    exact (hgone rfl ht rfl h).elim
  | resetLock hpc hmutex => exact .inl ⟨hstays rfl rfl rfl h, rfl, rfl⟩
  | @resetCall t ok consumer config generation connection after hpc =>
    cases consumer <;> exact .inl ⟨hstays rfl rfl rfl h, rfl, rfl⟩
  | @resetClear t ok after hpc =>
    cases after <;> exact .inl ⟨hstays rfl rfl rfl h, rfl, rfl⟩
  | replaceReset hpc hmutex hstate hpending hresetting =>
    exact .inl ⟨hstays rfl rfl rfl h, rfl, rfl⟩
  | replace hpc hmutex hskip => exact .inl ⟨hstays rfl rfl rfl h, rfl, rfl⟩
  | drainBusy hpc hdraining =>
    exact .inl ⟨hstays rfl rfl (returnPc_spec _).1.1 h, rfl, rfl⟩
  | drainEnter hpc hdraining => exact .inl ⟨hstays rfl rfl rfl h, rfl, rfl⟩
  | drainStop hpc =>
    exact .inl ⟨hstays rfl rfl (returnPc_spec _).1.1 h, rfl, rfl⟩
  | drainTake hpc hqueue hconsumer hresetting =>
    exact .inl ⟨hstays rfl rfl rfl h, rfl, rfl⟩
  | @consume t taken queued consumer hpc hmutex =>
    cases taken <;> exact .inl ⟨hstays rfl rfl rfl h, rfl, rfl⟩
  | pop hpc hqueue htoken =>
    refine .inl ⟨enqueued_goto ?_ ?_ rfl h, rfl, rfl⟩
    · rfl
    · exact fun q hq => by rw [hqueue]; exact List.mem_cons_of_mem _ hq
  | keep hpc htoken => exact .inl ⟨hstays rfl rfl rfl h, rfl, rfl⟩

/-! ### Open and closed -/

/-- What holds in every run. -/
structure Sound (cfg : SessionConfig) (l : Line) : Prop where
  base : Base l.session
  phase : Phase cfg False l
  exclusive : Exclusive l.session
  outbox : ∀ m ∈ l.outbox, m.ofHandshake = true

/-- The session has failed, or the connection is over. -/
def Closed (s : Sys) : Prop :=
  s.pc net = .idle ∨ s.stream.state = .failed ∧ (s.pc net = .fail ∨ s.pc net = .serving ∨
    s.pc net = .malformed ∨ s.pc net = .videoDrop)

structure Open (l : Line) : Prop where
  greets : Greets l
  alive : l.session.stream.state ≠ .failed

theorem not_streaming_of_closed (hb : Base s) (h : Closed s) : s.stream.state ≠ .streaming := by
  intro hs
  rcases h with hidle | ⟨hfailed, -⟩
  · exact hb.admitted.online (.inr hs) hidle
  · rw [hs] at hfailed
    cases hfailed

/-- The step neither opens a connection nor is it the watchdog's. -/
def goesOn (a : Backend.Handshake.Action) : Prop :=
  a ≠ .session .connect ∧ a ≠ .session .watchdog

/-- A step of the line is one of the controller, or the controller does not move. -/
theorem session_cases (he : Backend.Handshake.enabled cfg l a) :
    (Backend.Handshake.next cfg l a).session = l.session ∨
      ∃ b, enabled l.session b ∧ (Backend.Handshake.next cfg l a).session = next cfg l.session b ∧
        (a = .session b ∨ (∃ d answer, a = .hello d answer ∧
          b = Backend.Handshake.helloAction d answer) ∨
        ∃ ok, a = .send ok ∧ b = .run net ok) := by
  cases a with
  | session b => exact .inr ⟨b, he.1, by cases b <;> rfl, .inl rfl⟩
  | hello d answer => exact .inr ⟨_, he.1, rfl, .inr (.inl ⟨d, answer, rfl, rfl⟩)⟩
  | send ok =>
    have hpc : l.session.pc net = .handshakeSend := he
    have hruns (ok : Bool) : enabled l.session (.run net ok) :=
      ⟨by rw [hpc]; nofun, by rw [hpc]; nofun, by rw [hpc]; nofun⟩
    simp only [Backend.Handshake.next, Backend.Handshake.sendNext]
    split
    · exact .inl rfl
    · cases ok with
      | false => exact .inr ⟨_, hruns false, rfl, .inr (.inr ⟨false, rfl, rfl⟩)⟩
      | true =>
        simp only [Bool.not_true, Bool.false_eq_true, if_false]
        split_ifs
        · exact .inr ⟨_, hruns true, rfl, .inr (.inr ⟨true, rfl, rfl⟩)⟩
        · exact .inl rfl
  | recover ok => exact .inl rfl
  | command c ok =>
    simp only [Backend.Handshake.next]
    split_ifs <;> exact .inl rfl

theorem ofHandshake_announced {answer : Answer} : ∀ m ∈ announced answer, m.ofHandshake = true := by
  cases answer <;> simp [announced, Message.ofHandshake]

/-- Only messages of the handshake come into the outbox. -/
theorem outbox_next (h : ∀ m ∈ l.outbox, m.ofHandshake = true) :
    ∀ m ∈ (Backend.Handshake.next cfg l a).outbox, m.ofHandshake = true := by
  cases a with
  | session b =>
    cases b with
    | connect => exact nofun
    | run t ok =>
      change ∀ m ∈ owed l t, _
      unfold owed
      split
      · exact ofHandshake_announced
      · simp [Message.ofHandshake]
      · exact h
    | _ => exact h
  | hello d answer => exact h
  | send ok =>
    simp only [Backend.Handshake.next, Backend.Handshake.sendNext]
    split
    · exact h
    · next message rest houtbox =>
      cases ok with
      | false => exact h
      | true =>
        rw [houtbox] at h
        exact (List.forall_mem_cons.mp h).2
  | recover ok => exact h
  | command c ok =>
    simp only [Backend.Handshake.next]
    split_ifs <;> exact h

theorem Sound.next (h : Sound cfg l) (he : Backend.Handshake.enabled cfg l a) :
    Sound cfg (Backend.Handshake.next cfg l a) where
  base := base_line h.base he
  phase := phase_next h.base h.phase he False.elim
  exclusive := by
    rcases session_cases he with hsame | ⟨b, hb, hnext, -⟩
    · rw [hsame]
      exact h.exclusive
    · rw [hnext]
      exact exclusive_next h.base h.exclusive hb
  outbox := outbox_next h.outbox

/-- Only `protocolFailure` fails a session, apart from the watchdog. -/
theorem failed_of_step {t : Thread} {ok : Bool} {pc : Pc}
    (h : (step cfg s t ok pc).stream.state = .failed) : s.stream.state = .failed ∨ pc = .fail := by
  cases pc with
  | fail => exact .inr rfl
  | hello d v =>
    simp only [step, handleHello] at h
    split_ifs at h with h1 h2
    · exact .inl h
    · cases h
    · cases h
  | authResponse v =>
    cases v with
    | accepted =>
      simp only [step, handleAuthResponse] at h
      split_ifs at h <;> exact .inl h
    | _ => exact .inl h
  | authenticated => cases h
  | streamStart =>
    simp only [step, startStream] at h
    split_ifs at h
    · cases h
    · exact .inl h
  | formatAck g =>
    simp only [step, handleFormatAck] at h
    split at h
    · exact .inl h
    · split_ifs at h <;> exact .inl h
  | formatReject g =>
    simp only [step, handleFormatReject] at h
    split_ifs at h <;> exact .inl h
  | videoEnqueue y =>
    simp only [step, enqueue] at h
    split_ifs at h <;> exact .inl h
  | sendFormat config =>
    simp only [step, sendFormat] at h
    split_ifs at h <;> exact .inl h
  | setConsumer consumer =>
    simp only [step, replaceConsumer] at h
    split_ifs at h <;> exact .inl h
  | resetCall consumer config generation connection after => cases consumer <;> exact .inl h
  | drainEnter =>
    simp only [step, drainEnter] at h
    split_ifs at h <;> exact .inl h
  | drainTake =>
    simp only [step, drainTake] at h
    split at h
    · split_ifs at h <;> exact .inl h
    · exact .inl h
  | drainRemove q =>
    simp only [step, drainRemove] at h
    split at h
    · split_ifs at h <;> exact .inl h
    · exact .inl h
  | _ => exact .inl h

/-- The step fails the session. -/
theorem closed_of_failed (hb : Base s) (halive : s.stream.state ≠ .failed)
    (hwatchdog : b ≠ .watchdog) (hconnect : b ≠ .connect)
    (h : (next cfg s b).stream.state = .failed) : Closed (next cfg s b) := by
  cases b with
  | run t ok =>
    rcases failed_of_step h with hfailed | hpc
    · exact absurd hfailed halive
    · obtain rfl : t = net := eq_net_of_role (hb.roles t) (by rw [hpc]; rfl)
      refine .inr ⟨h, .inr (.inl ?_)⟩
      rw [next, hpc]
      exact pc_goto_self ..
  | connect => exact absurd rfl hconnect
  | disconnect => cases h
  | receive inbound =>
    rw [next, stream_onFrame] at h
    exact absurd h halive
  | call t c => exact absurd h halive
  | watchdog => exact absurd rfl hwatchdog
  | tick => exact absurd h halive

/-- An open connection stays open or is closed. -/
theorem open_or_closed (hs : Sound cfg l) (h : Open l) (he : Backend.Handshake.enabled cfg l a)
    (ha : goesOn a) :
    Open (Backend.Handshake.next cfg l a) ∨ Closed (Backend.Handshake.next cfg l a).session := by
  by_cases hend : a = .session .disconnect
  · subst hend
    exact .inr (.inl (pc_goto_self ..))
  have hgreets := greets_next hs.base hs.phase h.greets he hend
  by_cases hfailed : (Backend.Handshake.next cfg l a).session.stream.state = .failed
  · refine .inr ?_
    rcases session_cases he with hsame | ⟨b, hb, hnext, hcases⟩
    · rw [hsame] at hfailed
      exact absurd hfailed h.alive
    · rw [hnext] at hfailed ⊢
      rcases hcases with rfl | ⟨d, answer, -, rfl⟩ | ⟨ok, -, rfl⟩
      · exact closed_of_failed hs.base h.alive (fun hb => ha.2 (by rw [hb]))
          (fun hb => ha.1 (by rw [hb])) hfailed
      · exact closed_of_failed hs.base h.alive nofun nofun hfailed
      · exact closed_of_failed hs.base h.alive nofun nofun hfailed
  · exact .inl ⟨hgreets, hfailed⟩

/-- A step of the controller in a closed connection. -/
theorem closed_step (hb : Base s) (h : Closed s) (he : enabled s b) (hwatchdog : b ≠ .watchdog)
    (hconnect : b ≠ .connect) : Closed (next cfg s b) := by
  have hstays (hpc : (next cfg s b).pc net = s.pc net)
      (hstate : s.stream.state = .failed → (next cfg s b).stream.state = .failed) :
      Closed (next cfg s b) := by
    unfold Closed
    rw [hpc]
    exact h.imp_right (And.imp_left hstate)
  cases b with
  | connect => exact absurd rfl hconnect
  | watchdog => exact absurd rfl hwatchdog
  | disconnect => exact .inl (pc_goto_self ..)
  | tick => exact hstays rfl id
  | call t c => exact hstays (pc_goto_of_ne _ (Ne.symm he.1) _) id
  | receive inbound =>
    have hserving : s.pc net = .serving := he
    rcases h with hidle | ⟨hfailed, -⟩
    · rw [hserving] at hidle
      cases hidle
    · refine .inr ⟨?_, ?_⟩
      · rw [next, stream_onFrame]
        exact hfailed
      · exact @failed_onFrame cfg s inbound hserving hfailed
  | run t ok =>
    by_cases ht : t = net
    · subst ht
      rcases h with hidle | ⟨hfailed, hpc | hpc | hpc | hpc⟩
      · exact absurd hidle he.1
      · rw [next, hpc]
        exact .inr ⟨rfl, .inr (.inl (pc_goto_self ..))⟩
      · exact absurd hpc he.2.1
      · rw [next, hpc]
        exact .inr ⟨hfailed, .inr (.inl (pc_goto_self ..))⟩
      · rw [next, hpc]
        exact .inr ⟨hfailed, .inr (.inl (pc_goto_self ..))⟩
    · refine hstays (pc_step_of_ne (Ne.symm ht) ok _) fun hfailed => ?_
      refine (failed_next he hfailed ⟨by rintro ⟨⟩, by rintro ⟨⟩⟩ ?_).1
      by_contra hpublishes
      exact ht (net_of_publishes hb (by simpa [publishing] using hpublishes)).1

theorem closed_next (hs : Sound cfg l) (h : Closed l.session)
    (he : Backend.Handshake.enabled cfg l a) (ha : goesOn a) :
    Closed (Backend.Handshake.next cfg l a).session := by
  rcases session_cases he with hsame | ⟨b, hb, hnext, hcases⟩
  · rwa [hsame]
  · rw [hnext]
    rcases hcases with rfl | ⟨d, answer, -, rfl⟩ | ⟨ok, -, rfl⟩
    · exact closed_step hs.base h hb (fun hb => ha.2 (by rw [hb])) fun hb => ha.1 (by rw [hb])
    · exact closed_step hs.base h hb nofun nofun
    · exact closed_step hs.base h hb nofun nofun

/-! ### Orders -/

/-- A message that sets the phone going. -/
def isOrder : PeerMessage → Bool
  | .ready _ | .setFormat _ _ => true
  | _ => false

/-- The orders that the step writes. -/
def orders (cfg : SessionConfig) (d : Details) (l : Line) (a : Backend.Handshake.Action) :
    List PeerMessage :=
  (((Backend.Handshake.next cfg l a).written.drop l.written.length).map (message d l a)).filter
    isOrder

variable {d : Details}

theorem orders_of_unwritten (h : (Backend.Handshake.next cfg l a).written = l.written) :
    orders cfg d l a = [] := by
  unfold orders
  rw [h, List.drop_length]
  rfl

theorem orders_of_written {m : Message}
    (h : (Backend.Handshake.next cfg l a).written = l.written ++ [m]) :
    orders cfg d l a = [message d l a m].filter isOrder := by
  unfold orders
  rw [h, List.drop_left]
  rfl

/-- A step of the controller orders the format that it proposes. -/
theorem orders_session (hconnect : b ≠ .connect) :
    orders cfg d l (.session b) =
      ((proposal l.session b).map fun c =>
        .setFormat (some l.session.stream.nextFormatGeneration) (some (format c))).toList := by
  by_cases hproposal : ∃ t config, b = .run t true ∧ l.session.pc t = .sendFormat config ∧
      admitsFormat l.session.stream config = true
  · obtain ⟨t, config, rfl, hpc, hadmits⟩ := hproposal
    have hproposes : proposal l.session (.run t true) = some config := by
      simp [proposal, hpc, hadmits]
    have hwritten : (Backend.Handshake.next cfg l (.session (.run t true))).written =
        l.written ++ [.setFormat] := by
      change l.written ++ sends l.session t = _
      simp [sends, hpc, hadmits]
    rw [orders_of_written hwritten, hproposes]
    simp [message, System.proposal, hproposes, isOrder]
  · have hnone : proposal l.session b = none := by
      unfold proposal
      split
      · next t =>
        split
        · next config hpc =>
          rw [if_neg]
          exact fun hadmits => hproposal ⟨t, config, rfl, hpc, hadmits⟩
        · rfl
      · rfl
    rw [hnone]
    cases b with
    | connect => exact absurd rfl hconnect
    | run t ok =>
      have hwritten : (Backend.Handshake.next cfg l (.session (.run t ok))).written =
          if ok then l.written ++ sends l.session t else l.written := rfl
      cases ok with
      | false => exact orders_of_unwritten hwritten
      | true =>
        have hsends : sends l.session t = [] ∨ sends l.session t = [.authConfirm] ∨
            sends l.session t = [.requestKeyframe] := by
          unfold sends
          split
          · split_ifs
            · exact .inr (.inl rfl)
            · exact .inl rfl
          · exact .inr (.inr rfl)
          · next config hpc =>
            rw [if_neg fun hadmits => hproposal ⟨t, config, rfl, hpc, hadmits⟩]
            exact .inl rfl
          · exact .inl rfl
        rw [if_pos rfl] at hwritten
        rcases hsends with hs | hs | hs <;> rw [hs] at hwritten
        · rw [List.append_nil] at hwritten
          exact orders_of_unwritten hwritten
        · exact orders_of_written hwritten
        · exact orders_of_written hwritten
    | _ => exact orders_of_unwritten rfl

/-- Of the messages of the outbox `ready` is the order. -/
theorem orders_send {ok : Bool} (houtbox : ∀ m ∈ l.outbox, m.ofHandshake = true) :
    orders cfg d l (.send ok) = [] ∧
        (.ready ∈ (Backend.Handshake.next cfg l (.send ok)).written → .ready ∈ l.written) ∨
      .ready ∈ (Backend.Handshake.next cfg l (.send ok)).written ∧ orders cfg d l (.send ok) =
        [.ready (some (format l.session.stream.streamConfig))] := by
  cases houtbox' : l.outbox with
  | nil =>
    have hsame : Backend.Handshake.next cfg l (.send ok) = l := by
      simp [Backend.Handshake.next, Backend.Handshake.sendNext, houtbox']
    exact .inl ⟨orders_of_unwritten (by rw [hsame]), by rw [hsame]; exact id⟩
  | cons m rest =>
    cases ok with
    | false =>
      have hwritten : (Backend.Handshake.next cfg l (.send false)).written = l.written := by
        simp [Backend.Handshake.next, Backend.Handshake.sendNext, houtbox']
      exact .inl ⟨orders_of_unwritten hwritten, by rw [hwritten]; exact id⟩
    | true =>
      have hwritten : (Backend.Handshake.next cfg l (.send true)).written = l.written ++ [m] := by
        simp [Backend.Handshake.next, Backend.Handshake.sendNext, houtbox']
      have hm := houtbox m (by rw [houtbox']; exact List.mem_cons_self)
      rw [orders_of_written hwritten, hwritten]
      cases m with
      | ready => exact .inr ⟨List.mem_append_right _ (List.mem_singleton_self _), rfl⟩
      | serverInfo | authChallenge | authConfirm =>
        exact .inl ⟨rfl, fun h => (List.mem_append.mp h).resolve_right (by simp)⟩
      | _ => cases hm

theorem orders_command {c : Backend.Handshake.Command} {ok : Bool} :
    orders cfg d l (.command c ok) = [] := by
  by_cases hwrites : (ok && Backend.Handshake.admits l.session.stream) = true
  · have hwritten : (Backend.Handshake.next cfg l (.command c ok)).written =
        l.written ++ [c.message] := by
      simp only [Backend.Handshake.next, if_pos hwrites]
    rw [orders_of_written hwritten]
    cases c <;> rfl
  · refine orders_of_unwritten ?_
    simp only [Backend.Handshake.next, if_neg hwrites]

theorem orders_recover {ok : Bool} : orders cfg d l (.recover ok) = [] := by
  cases ok with
  | false => exact orders_of_unwritten rfl
  | true => exact orders_of_written (m := .requestKeyframe) rfl

theorem written_initial (hconnect : a ≠ .session .connect) :
    l.written <+: (Backend.Handshake.next cfg l a).written := by
  cases a with
  | session b =>
    cases b with
    | connect => exact absurd rfl hconnect
    | run t ok =>
      change _ <+: if ok then l.written ++ sends l.session t else l.written
      split_ifs
      · exact List.prefix_append _ _
      · exact List.prefix_rfl
    | _ => exact List.prefix_rfl
  | hello d answer => exact List.prefix_rfl
  | send ok =>
    simp only [Backend.Handshake.next, Backend.Handshake.sendNext]
    split
    · exact List.prefix_rfl
    · cases ok with
      | false => exact List.prefix_rfl
      | true => exact List.prefix_append _ _
  | recover ok =>
    simp only [Backend.Handshake.next]
    split_ifs
    · exact List.prefix_append _ _
    · exact List.prefix_rfl
  | command c ok =>
    simp only [Backend.Handshake.next]
    split_ifs
    · exact List.prefix_append _ _
    · exact List.prefix_rfl

/-! ### Steps that receive nothing -/

/-- What such a step comes to in an open connection. -/
inductive Turn {υ : Type*} (cfg : SessionConfig) (d : Details) (l : Line)
    (a : Backend.Handshake.Action) : Prop
  | stays
      (hdeal : deal (Backend.Handshake.next cfg l a).session.stream = deal l.session.stream)
      (hheard : heard (υ := υ) ((Backend.Handshake.next cfg l a).session.pc net) =
        heard (l.session.pc net))
      (horders : orders cfg d l a = [])
      (hgreeted : .ready ∈ (Backend.Handshake.next cfg l a).written → .ready ∈ l.written)
  | judges {w : Word υ} (hw : heard (l.session.pc net) = [w]) (hitem : ∀ u, w ≠ .item u)
      (hdeal : deal (Backend.Handshake.next cfg l a).session.stream =
        (deal l.session.stream).read w)
      (hheard : heard (υ := υ) ((Backend.Handshake.next cfg l a).session.pc net) = [])
      (horders : orders cfg d l a = [])
      (hgreeted : .ready ∈ (Backend.Handshake.next cfg l a).written → .ready ∈ l.written)
  | greets (hno : .ready ∉ l.written) (hstate : l.session.stream.state ≠ .streaming)
      (hdeal : deal (Backend.Handshake.next cfg l a).session.stream = deal l.session.stream)
      (hheard : heard (υ := υ) ((Backend.Handshake.next cfg l a).session.pc net) =
        heard (l.session.pc net))
      (horders : orders cfg d l a = [.ready (some (format l.session.stream.streamConfig))])
      (hgreeted : .ready ∈ (Backend.Handshake.next cfg l a).written)
  | proposes {c : StreamConfig} (hnone : (deal l.session.stream).proposed = none)
      (hstate : l.session.stream.state = .streaming)
      (hdeal : deal (Backend.Handshake.next cfg l a).session.stream =
        { deal l.session.stream with
          proposed := some (l.session.stream.nextFormatGeneration, c) })
      (hheard : heard (υ := υ) ((Backend.Handshake.next cfg l a).session.pc net) =
        heard (l.session.pc net))
      (horders : orders cfg d l a =
        [.setFormat (some l.session.stream.nextFormatGeneration) (some (format c))])
      (hgreeted : .ready ∈ (Backend.Handshake.next cfg l a).written → .ready ∈ l.written)

theorem streaming_of_proposal {c : StreamConfig} (h : proposal s b = some c) :
    s.stream.state = .streaming := by
  unfold proposal at h
  split at h
  · split at h
    · split_ifs at h with hadmits
      exact (Backend.Handshake.admitsFormat_spec hadmits).1
    · cases h
  · cases h

theorem state_of_sending (h : Phase cfg False l) (hpc : l.session.pc net = .handshakeSend) :
    l.session.stream.state ≠ .streaming := by
  cases h with
  | sending _ hstate =>
    rcases hstate with hs | hs
    · rw [hs]
      decide
    · rw [hs]
      split_ifs <;> decide
  | down hpc' => rw [hpc] at hpc'; cases hpc'
  | greeting hpc' =>
    rw [hpc] at hpc'
    rcases hpc' with h | h | h | ⟨_, h, _⟩ <;> cases h
  | waiting hpc' =>
    rw [hpc] at hpc'
    rcases hpc' with h | h | h | ⟨_, h, _⟩ <;> cases h
  | confirmed hpc' => rw [hpc] at hpc'; cases hpc'
  | broken hpc' =>
    rw [hpc] at hpc'
    rcases hpc' with h | ⟨h | h | h, -⟩ <;> cases h
  | opened hpc' => rw [hpc] at hpc'; cases hpc'

variable {υ : Type*} {made : υ → StreamConfig → Prop}

/-- **A step that receives nothing** makes a proposal, judges an answer, says `ready`, or leaves the
deal as it is. -/
theorem turn (hs : Sound cfg l) (h : Open l) (he : Backend.Handshake.enabled cfg l a)
    (ha : goesOn a) (htakes : takes a = false) (hend : a ≠ .session .disconnect)
    (hexpected : ∀ w ∈ heard (υ := υ) (l.session.pc net), Expected made (deal l.session.stream) w) :
    Turn (υ := υ) cfg d l a := by
  have hgreeted (hno : ∀ ok, a ≠ .send ok)
      (hready : .ready ∈ (Backend.Handshake.next cfg l a).written) : .ready ∈ l.written := by
    rcases mem_written_next rfl (by decide : Message.ready ≠ .authConfirm) hready with
      hready | ⟨rfl, -⟩
    · exact hready
    · exact absurd rfl (hno true)
  cases a with
  | hello d answer => cases htakes
  | recover ok => exact .stays rfl rfl orders_recover (hgreeted (by rintro _ ⟨⟩))
  | command c ok =>
    have hsession : (Backend.Handshake.next cfg l (.command c ok)).session = l.session := by
      simp only [Backend.Handshake.next]
      split_ifs <;> rfl
    exact .stays (by rw [hsession]) (by rw [hsession]) orders_command (hgreeted (by rintro _ ⟨⟩))
  | session b =>
    have hnext : (Backend.Handshake.next cfg l (.session b)).session = next cfg l.session b := by
      cases b <;> rfl
    have hstill := hgreeted (by rintro _ ⟨⟩)
    have horders := @orders_session cfg l b d fun hb => ha.1 (by rw [hb])
    have hinside : inside b = true := by
      cases b with
      | connect => exact absurd rfl ha.1
      | disconnect => exact absurd rfl hend
      | receive inbound => cases htakes
      | _ => rfl
    rcases @deal_next υ made cfg l.session b hs.base hs.exclusive he.1 hinside hexpected with
      ⟨c, hc, hnone, hdeal, hheard⟩ | ⟨hc, ⟨hdeal, hheard⟩ | ⟨w, hw, hitem, hheard, hdeal⟩⟩
    · rw [hc] at horders
      exact .proposes hnone (streaming_of_proposal hc) (by rw [hnext, hdeal])
        (by rw [hnext, hheard]) horders hstill
    · rw [hc] at horders
      exact .stays (by rw [hnext, hdeal]) (by rw [hnext, hheard]) horders hstill
    · rw [hc] at horders
      exact .judges hw hitem (by rw [hnext, hdeal]) (by rw [hnext, hheard]) horders hstill
  | send ok =>
    have hpc : l.session.pc net = .handshakeSend := he
    obtain ⟨hstream, hheard⟩ :
        (Backend.Handshake.next cfg l (.send ok)).session.stream = l.session.stream ∧
          heard (υ := υ) ((Backend.Handshake.next cfg l (.send ok)).session.pc net) =
            heard (l.session.pc net) := by
      have hnone : heard (υ := υ) (l.session.pc net) = [] := by rw [hpc]; rfl
      rcases session_cases he with hsame | ⟨b, -, hnext, hb | ⟨_, _, hb, -⟩ | ⟨ok', -, rfl⟩⟩
      · rw [hsame]
        exact ⟨rfl, rfl⟩
      · cases hb
      · cases hb
      · rw [hnext, hnone, heard_next_run, if_pos rfl]
        exact ⟨by rw [next, hpc]; rfl, rfl⟩
    rcases @orders_send cfg l d ok hs.outbox with ⟨horders, hready⟩ | ⟨hready, horders⟩
    · exact .stays (by rw [hstream]) hheard horders hready
    · have hno : .ready ∉ l.written := fun hready => by
        have hsettled := (h.greets.opened hready).settled
        rw [hpc] at hsettled
        cases hsettled
      exact .greets hno (state_of_sending hs.phase hpc) (by rw [hstream]) hheard horders hready

/-! ### The start of the stream -/

/-- The session streams, or is about to. -/
def Announced (s : Sys) : Prop := s.stream.state = .streaming ∨ s.pc net = .streamStart

theorem streamStart_of_controlPc {state : State} {trusted : Bool} {message : ControlMessage}
    (h : controlPc cfg state trusted message = .streamStart) : message = .streamStart true := by
  have htrusted (h : trustedPc message = .streamStart) : message = .streamStart true := by
    cases message with
    | streamStart fieldsEmpty =>
      cases fieldsEmpty with
      | true => rfl
      | false => cases h
    | formatAck generation => cases generation <;> cases h
    | formatReject generation => cases generation <;> cases h
    | progress wellFormed => cases wellFormed <;> cases h
    | _ => cases h
  cases message with
  | hello d v =>
    simp only [controlPc] at h
    split_ifs at h
  | authResponse v =>
    simp only [controlPc] at h
    split_ifs at h
  | _ =>
    simp only [controlPc] at h
    split_ifs at h
    exact htrusted h

theorem announced_step (hb : Base s) (he : enabled s b) (hconnect : b ≠ .connect)
    (h : Announced (next cfg s b)) :
    Announced s ∨ b = .receive (.control (.streamStart true)) := by
  have hkeeps (hstream : (next cfg s b).stream.state = .streaming → s.stream.state = .streaming)
      (hpc : (next cfg s b).pc net = s.pc net) : Announced s := by
    unfold Announced at h
    rw [hpc] at h
    exact h.imp_left hstream
  cases b with
  | connect => exact absurd rfl hconnect
  | disconnect =>
    rcases h with hstate | hpc
    · cases hstate
    · cases (pc_goto_self _ net .idle).symm.trans hpc
  | receive inbound =>
    have hstream := @stream_onFrame cfg s inbound
    rcases h with hstate | hpc
    · rw [next, hstream] at hstate
      exact .inl (.inl hstate)
    · cases inbound with
      | violation => cases (pc_goto_self _ net .fail).symm.trans hpc
      | ignored => exact .inl (.inr hpc)
      | undecodable => cases (pc_goto_self _ net .malformed).symm.trans hpc
      | control message =>
        rw [next, onFrame, pc_goto_self] at hpc
        rw [streamStart_of_controlPc hpc]
        exact .inr rfl
      | video frame =>
        rw [next, onFrame, pc_goto_self] at hpc
        unfold videoPc at hpc
        dsimp only at hpc
        split_ifs at hpc
  | call t c => exact .inl (hkeeps id (pc_goto_of_ne _ (Ne.symm he.1) _))
  | watchdog =>
    refine .inl (hkeeps (fun hs => ?_) ?_)
    · rw [next, watchdog] at hs
      split_ifs at hs
      exact hs
    · rw [next, watchdog]
      split_ifs <;> rfl
  | tick => exact .inl h
  | run t ok =>
    have hstate (hs : (next cfg s (.run t ok)).stream.state = .streaming) : Announced s := by
      have hturn := turn_next cfg he
      generalize hterms : terms (next cfg s (.run t ok)).stream = τ at hturn
      have hτ : τ.state = .streaming := by
        rw [← hterms]
        exact hs
      cases hturn with
      | keep => exact .inl hτ
      | fail => cases hτ
      | @publish _ _ state trusted hpc hpublished =>
        have hstate' : state = .streaming := hτ
        rcases hpublished with h | ⟨h, -⟩ <;> rw [hstate'] at h <;> cases h
      | start hpc _ =>
        obtain rfl : t = net := eq_net_of_role (hb.roles t) (by rw [hpc]; rfl)
        exact .inr hpc
      | commit => exact .inl hτ
      | reject => exact .inl hτ
      | propose => exact .inl hτ
    rcases h with hs | hpc
    · exact .inl (hstate hs)
    · by_cases ht : t = net
      · subst ht
        have hno := @ofFrame_step cfg s ok _ rfl
        rw [next] at hpc
        rw [hpc] at hno
        cases hno
      · rw [next, pc_step_of_ne (Ne.symm ht)] at hpc
        exact .inl (.inr hpc)

/-- The stream is announced by `stream_start`. -/
theorem announced_next (hs : Sound cfg l) (he : Backend.Handshake.enabled cfg l a) (ha : goesOn a)
    (h : Announced (Backend.Handshake.next cfg l a).session) :
    Announced l.session ∨ a = .session (.receive (.control (.streamStart true))) := by
  rcases session_cases he with hsame | ⟨b, hb, hnext, hcases⟩
  · rw [hsame] at h
    exact .inl h
  · rw [hnext] at h
    rcases hcases with rfl | ⟨d, answer, -, rfl⟩ | ⟨ok, -, rfl⟩
    · exact (announced_step hs.base hb (fun hb => ha.1 (by rw [hb])) h).imp_right (congrArg _)
    · exact (announced_step hs.base hb nofun h).imp_right nofun
    · exact (announced_step hs.base hb nofun h).imp_right nofun

/-! ### Steps that receive -/

/-- What the content says about the format, or the unit it is. -/
def word : Content → Option (Word Phone.Transport.EncodedAccessUnit)
  | .control (.formatAcknowledged generation) => some (.accept generation)
  | .control (.formatRejected generation _ _) => some (.reject generation)
  | .control _ => none
  | .video unit => some (.item unit)

/-- What the network thread hears of a content. -/
structure Hears (cfg : SessionConfig) (l : Line) (a : Backend.Handshake.Action)
    (content : Content) : Prop where
  serving : l.session.pc net = .serving
  stream : (Backend.Handshake.next cfg l a).session.stream = l.session.stream
  written : (Backend.Handshake.next cfg l a).written = l.written
  /-- An answer is heard if the session streams. -/
  answer : ∀ w ∈ word content, (∀ u, w ≠ .item u) → l.session.stream.state = .streaming →
    heard ((Backend.Handshake.next cfg l a).session.pc net) = [w]
  other : (∀ w ∈ word content, ∃ u, w = .item u) →
    heard (υ := Phone.Transport.EncodedAccessUnit)
      ((Backend.Handshake.next cfg l a).session.pc net) = []

/-- The answer in a message of the phone is that of its reading. -/
theorem answers_of_reading {said : Phone.Transport.ControlMessage} {m : ControlMessage}
    (h : m ∈ readings said) : answers m = (word (.control said)).toList := by
  cases said with
  | hello allow => cases h
  | formatAcknowledged g => rw [List.mem_singleton.mp h]; rfl
  | formatRejected g code message => rw [List.mem_singleton.mp h]; rfl
  | streamStart => rw [List.mem_singleton.mp h]; rfl
  | _ =>
    simp only [readings, List.mem_cons, List.not_mem_nil, or_false] at h
    rcases h with rfl | rfl <;> rfl

theorem heard_videoPc {υ : Type*} (st : Stream) (frame : VideoFrame) (arrival : ℕ) :
    heard (υ := υ) (videoPc st frame arrival) = [] := by
  unfold videoPc
  dsimp only
  split_ifs <;> rfl

theorem hears {content : Content} (hs : Sound cfg l) (he : Backend.Handshake.enabled cfg l a)
    (h : Receives content a) : Hears cfg l a content := by
  unfold Receives at h
  split at h
  · next allow deviceId answer =>
    refine ⟨he.1, rfl, rfl, (by rintro _ ⟨⟩), fun _ => ?_⟩
    change heard ((Sys.goto _ net (controlPc cfg l.session.stream.state l.session.stream.trusted
      (.hello deviceId answer.verdict))).pc net) = []
    rw [pc_goto_self]
    exact (heard_controlPc cfg _ _ (.hello deviceId answer.verdict)).1 rfl
  · next said m =>
    have hpc : (Backend.Handshake.next cfg l (.session (.receive (.control m)))).session.pc net =
        controlPc cfg l.session.stream.state l.session.stream.trusted m := pc_goto_self ..
    obtain ⟨hsilent, hspeaks⟩ := heard_controlPc (υ := Phone.Transport.EncodedAccessUnit) cfg
      l.session.stream.state l.session.stream.trusted m
    rw [answers_of_reading h] at hsilent hspeaks
    refine ⟨he.1, rfl, rfl, fun w hw _ hstate => ?_, fun hitem => ?_⟩
    · rw [hpc, hspeaks hstate (hs.base.admitted.trusted (.inr hstate)), Option.mem_def.mp hw]
      rfl
    · rw [hpc]
      refine hsilent ?_
      cases hword : word (.control said) with
      | none => rfl
      | some w =>
        obtain ⟨u, rfl⟩ := hitem w hword
        cases said <;> cases hword
  · next unit received =>
    refine ⟨he.1, rfl, rfl, fun w hw hitem => ?_, fun _ => ?_⟩
    · obtain rfl := Option.some.inj hw
      exact absurd rfl (hitem unit)
    · change heard ((Sys.goto _ net _).pc net) = []
      rw [pc_goto_self]
      exact heard_videoPc _ _ _
  · exact absurd h not_false

theorem origin_of_videoPc {st : Stream} {unit : Phone.Transport.EncodedAccessUnit} {arrival : ℕ}
    {x : Arrived} (h : videoPc st (frame unit) arrival = .videoEnqueue x) : origin x = unit := by
  unfold videoPc at h
  dsimp only at h
  split_ifs at h
  rw [← Pc.videoEnqueue.inj h]
  rfl

/-- A unit that is enqueued after a step was enqueued before, under the same format, or is received
while the session streams. -/
theorem enqueued_next {content : Option Content} (hs : Sound cfg l)
    (he : Backend.Handshake.enabled cfg l a)
    (hreceives : takes a = true → ∃ c ∈ content, Receives c a) {x : Arrived}
    (h : Enqueued (Backend.Handshake.next cfg l a).session x) :
    (Enqueued l.session x ∧
        (Backend.Handshake.next cfg l a).session.stream.streamGeneration =
          l.session.stream.streamGeneration ∧
        (Backend.Handshake.next cfg l a).session.stream.streamConfig =
          l.session.stream.streamConfig) ∨
      (takes a = true ∧ content = some (.video (origin x)) ∧
        l.session.stream.state = .streaming ∧
        x.unit.generation = l.session.stream.streamGeneration ∧
        (Backend.Handshake.next cfg l a).session.stream = l.session.stream) := by
  rcases session_cases he with hsame | ⟨b, hb, hnext, hcases⟩
  · rw [hsame] at h ⊢
    exact .inl ⟨h, rfl, rfl⟩
  · rw [hnext] at h ⊢
    rcases enqueued_effect hs.base.roles (next_effect cfg hb) h with h | ⟨received, rfl, hpc⟩
    · exact .inl h
    · rcases hcases with rfl | ⟨d, answer, -, hb'⟩ | ⟨ok, -, hb'⟩
      · obtain ⟨c, hc, hreceives⟩ := hreceives rfl
        obtain ⟨hstate, -, -, -, hgeneration, -⟩ := videoPc_enqueue hpc
        refine .inr ⟨rfl, ?_, hstate, hgeneration, rfl⟩
        cases c with
        | control said => cases said <;> cases hreceives
        | video unit =>
          have hframe : received = frame unit := hreceives
          rw [hframe] at hpc
          rw [origin_of_videoPc hpc]
          exact hc
      · cases hb'
      · cases hb'

end RemoteCam.Link.PcSide
