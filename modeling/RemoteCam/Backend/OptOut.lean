import RemoteCam.Backend.Handshake

/-! # The mutual opt-out

`handleHello` with `SecurityPolicy`. The user's preference is an atomic that `handleHello` reads
twice before its critical section: `allowsUnauthenticated()` for the flag of `server_info`, and
again inside `trusted()`. The user may toggle it in between.

`mutual_of_run`: without authentication `ready` is sent only if both peers have said so, and
`paired` is reported only of a phone that is challenged, unless the preference is turned on between
the two readings. -/

namespace RemoteCam.Backend.OptOut

open RemoteCam.Lib.Transitions RemoteCam.Backend.Session RemoteCam.Backend.Effects
open RemoteCam.Backend.Invariants RemoteCam.Backend.Phases RemoteCam.Backend.Handshake

/-! ### The machine -/

structure ServerInfo where
  paired : Bool
  allowUnauthenticated : Bool
  deriving DecidableEq, Repr

/-- What `handleHello` asks its policy next. -/
inductive Asking where
  | nothing
  | allowsUnauthenticated (deviceId : String)
  | trusted (deviceId : String)
  deriving DecidableEq, Repr

def Asking.beforeFirst : Asking → Bool
  | .allowsUnauthenticated _ => true
  | _ => false

def Asking.beforeSecond : Asking → Bool
  | .trusted _ => true
  | _ => false

structure Desk where
  line : Line
  /-- `allowUnauthenticated_` of `SecurityPolicy`. -/
  preference : Bool
  /-- `allow_unauthenticated` of the `hello` of the connection. -/
  hello : Bool := false
  /-- The variable `allowUnauthenticated` of `handleHello`. -/
  allowUnauthenticated : Bool := false
  asking : Asking := .nothing
  /-- Ghost: the `server_info` sent on the connection. -/
  info : Option ServerInfo := none
  deriving DecidableEq, Repr

inductive Action where
  /-- A step of the line; a `hello` only with `ISessionSecurity`. -/
  | line (a : Handshake.Action)
  /-- `acceptable` is its shape and version. -/
  | hello (deviceId : String) (acceptable allowUnauthenticated : Bool)
  | allowsUnauthenticated
  | trusted
  | setAllowUnauthenticated (allow : Bool)
  deriving DecidableEq, Repr

/-- The variable `paired`: the device has a pairing record and is challenged, or the trust policy
trusts it and does not allow unauthenticated devices. -/
def Desk.paired (s : Desk) : Bool :=
  match s.line.answer with
  | .challenge => true
  | .trusted => !s.allowUnauthenticated
  | _ => false

def isHello : Handshake.Action → Bool
  | .hello _ _ => true
  | _ => false

/-- A step of the network thread in a handler. -/
def handles : Handshake.Action → Bool
  | .session (.run t _) => t = net
  | _ => false

def enabled (cfg : SessionConfig) (s : Desk) : Action → Prop
  | .line a => Handshake.enabled cfg s.line a ∧ (isHello a = true → cfg.sessionSecurity = true) ∧
      (handles a = true → s.asking = .nothing)
  | .hello deviceId _ _ =>
    Handshake.enabled cfg s.line (.hello deviceId .refused) ∧ cfg.sessionSecurity = false
  | .allowsUnauthenticated => s.asking.beforeFirst = true
  | .trusted => s.asking.beforeSecond = true
  | .setAllowUnauthenticated _ => True

instance (cfg : SessionConfig) (s : Desk) (a : Action) : Decidable (enabled cfg s a) := by
  cases a <;> unfold enabled <;> infer_instance

def lineNext (cfg : SessionConfig) (s : Desk) (a : Handshake.Action) : Desk :=
  match a with
  | .session .connect => { line := Handshake.next cfg s.line a, preference := s.preference }
  | .send true =>
    { s with
      line := Handshake.next cfg s.line a
      info :=
        if s.line.outbox.head? = some .serverInfo then
          some { paired := s.paired, allowUnauthenticated := s.allowUnauthenticated }
        else s.info }
  | _ => { s with line := Handshake.next cfg s.line a }

/-- `SecurityPolicy::trusted`. -/
def Desk.trusted (s : Desk) : Bool := s.preference && s.hello

def next (cfg : SessionConfig) (s : Desk) : Action → Desk
  | .line a => lineNext cfg s a
  | .hello deviceId acceptable allowUnauthenticated =>
    if acceptable && s.line.session.stream.state = .awaitingHello then
      { s with
        line := Handshake.next cfg s.line (.hello deviceId .unpaired)
        hello := allowUnauthenticated
        asking := .allowsUnauthenticated deviceId }
    else { s with line := Handshake.next cfg s.line (.hello deviceId .refused) }
  | .allowsUnauthenticated =>
    match s.asking with
    | .allowsUnauthenticated deviceId =>
      { s with allowUnauthenticated := s.preference, asking := .trusted deviceId }
    | _ => s
  | .trusted =>
    match s.asking with
    | .trusted deviceId =>
      let answer := if s.trusted then Answer.trusted else .unpaired
      { s with
        line :=
          { s.line with
            session := s.line.session.goto net (.hello deviceId answer.verdict)
            answer }
        asking := .nothing }
    | _ => s
  | .setAllowUnauthenticated allow => { s with preference := allow }

def desk (cfg : SessionConfig) : Machine Desk Action := ⟨enabled cfg, next cfg⟩

instance (cfg : SessionConfig) (s : Desk) (a : Action) : Decidable ((desk cfg).enabled s a) :=
  inferInstanceAs (Decidable (enabled cfg s a))

def Desk.start (cfg : SessionConfig) (consumer : Option ConsumerId) (preference : Bool) : Desk :=
  { line := .start cfg consumer, preference }

/-! ### The opt-out is mutual -/

/-- Without authentication `ready` comes after a `hello` and a `server_info` that both allow it, and
`paired` is said of a phone with a pairing record that is challenged. -/
structure Mutual (s : Desk) : Prop where
  ready : .ready ∈ s.line.written → .authConfirm ∉ s.line.written →
    s.hello = true ∧ ∃ i ∈ s.info, i.allowUnauthenticated = true
  paired : ∀ i ∈ s.info, i.paired = true → s.line.answer = .challenge

/-- The preference that `trusted()` finds turned on, of a phone that asks for it, was on before. -/
def steady (s : Desk) : Action → Prop
  | .trusted => s.trusted = true → s.allowUnauthenticated = true
  | _ => True

instance (s : Desk) (a : Action) : Decidable (steady s a) := by
  cases a <;> unfold steady <;> infer_instance

/-! ### What is sent without authentication -/

variable {cfg : SessionConfig} {l : Line} {s : Desk} {a : Action}

/-- `ready` is owed or written after trust at `hello`, and then after `server_info`, or after an
authentication. -/
structure Introduced (l : Line) : Prop where
  written : .ready ∈ l.written →
    .authConfirm ∈ l.written ∨ l.answer = .trusted ∧ .serverInfo ∈ l.written
  outbox : .ready ∈ l.outbox → .authConfirm ∈ l.written ∨
    l.answer = .trusted ∧ (.serverInfo ∈ l.written ∨ l.outbox = [.serverInfo, .ready])
  confirmed : l.session.pc net = .authenticated → .authConfirm ∈ l.written

/-- Whoever waits for a `hello` has written nothing on the connection. -/
theorem Phase.unwritten {calm : Prop} (h : Phase cfg calm l) (hpc : l.session.pc net = .serving)
    (hstate : l.session.stream.state = .awaitingHello) : l.written = [] ∧ l.outbox = [] := by
  have hidle {pc : Pc} (hx : l.session.pc net = pc) (hne : pc ≠ .serving) : False :=
    hne (hx.symm.trans hpc)
  have hno {P : Prop} (hx : l.session.stream.state = .awaitingTrust ∨
      l.session.stream.state = .failed) : P := by
    rw [hstate] at hx
    rcases hx with h | h <;> cases h
  cases h with
  | down hpc' => exact absurd (hidle hpc' (by decide)) not_false
  | greeting hpc' hstate' htrusted hrecovery houtbox hwritten => exact ⟨hwritten, houtbox⟩
  | sending hpc' => exact absurd (hidle hpc' (by decide)) not_false
  | waiting hpc' hstate' => exact hno hstate'
  | confirmed hpc' => exact absurd (hidle hpc' (by decide)) not_false
  | broken hpc' hstate' =>
    rw [hstate] at hstate'
    rcases hstate' with h | h | h <;> cases h
  | opened hpc' hstate' =>
    rw [hstate] at hstate'
    rcases hstate' with h | h | h <;> cases h

/-- In `handleHello` nothing is written yet, and the phone is not trusted. -/
theorem Phase.greeted {calm : Prop} {d : String} {v : HelloVerdict} (h : Phase cfg calm l)
    (hpc : l.session.pc net = .hello d v) :
    (l.session.stream.state = .awaitingHello ∨ l.session.stream.state = .failed) ∧
      l.session.stream.trusted = false ∧ l.recovery = false ∧ l.outbox = [] ∧ l.written = [] := by
  have hidle {pc : Pc} (hx : l.session.pc net = pc) (hne : pc ≠ .hello d v) : False :=
    hne (hx.symm.trans hpc)
  cases h with
  | down hpc' => exact absurd (hidle hpc' nofun) not_false
  | greeting hpc' hstate htrusted hrecovery houtbox hwritten =>
    exact ⟨hstate, htrusted, hrecovery, houtbox, hwritten⟩
  | sending hpc' => exact absurd (hidle hpc' nofun) not_false
  | waiting hpc' =>
    rw [hpc] at hpc'
    rcases hpc' with h | h | h | ⟨_, h, -⟩ <;> cases h
  | confirmed hpc' => exact absurd (hidle hpc' nofun) not_false
  | broken hpc' =>
    rw [hpc] at hpc'
    rcases hpc' with h | ⟨h | h | h, -⟩ <;> cases h
  | opened hpc' =>
    rw [hpc] at hpc'
    cases hpc'

/-- What is written stays, until the next connection. -/
theorem written_next {a : Handshake.Action} (ha : a ≠ .session .connect) {m : Message}
    (h : m ∈ l.written) : m ∈ (Handshake.next cfg l a).written := by
  cases a with
  | session a =>
    cases a with
    | connect => exact absurd rfl ha
    | run t ok =>
      change m ∈ if ok then l.written ++ sends l.session t else l.written
      split_ifs
      · exact List.mem_append_left _ h
      · exact h
    | _ => exact h
  | hello d answer => exact h
  | send ok =>
    simp only [Handshake.next, sendNext]
    split
    · exact h
    · split_ifs
      · exact h
      · exact List.mem_append_left _ h
      · exact List.mem_append_left _ h
  | recover ok =>
    simp only [Handshake.next]
    split_ifs
    · exact List.mem_append_left _ h
    · exact h
  | command c ok =>
    simp only [Handshake.next]
    split_ifs
    · exact List.mem_append_left _ h
    · exact h

/-- A step that writes no handshake and leaves the handlers alone. -/
theorem Introduced.keep {l' : Line} (h : Introduced l) (hanswer : l'.answer = l.answer)
    (hwritten : ∀ m ∈ l.written, m ∈ l'.written) (hready : .ready ∈ l'.written → .ready ∈ l.written)
    (houtbox : l'.outbox = l.outbox)
    (hpc : l'.session.pc net = .authenticated → l.session.pc net = .authenticated) :
    Introduced l' := by
  constructor
  · intro hmem
    rw [hanswer]
    exact (h.written (hready hmem)).imp (hwritten _) fun ht => ⟨ht.1, hwritten _ ht.2⟩
  · intro hmem
    rw [houtbox] at hmem ⊢
    rw [hanswer]
    exact (h.outbox hmem).imp (hwritten _) fun ht => ⟨ht.1, ht.2.imp_left (hwritten _)⟩
  · exact fun hp => hwritten _ (h.confirmed (hpc hp))

/-- Nothing is written yet. -/
theorem introduced_of_nil (hwritten : l.written = []) (houtbox : l.outbox = [])
    (hpc : l.session.pc net ≠ .authenticated) : Introduced l := by
  constructor
  · intro h
    rw [hwritten] at h
    cases h
  · intro h
    rw [houtbox] at h
    cases h
  · exact fun h => absurd h hpc

/-- No frame leads past the confirmation. -/
theorem ne_authenticated_onFrame {session : Sys} (inbound : Inbound)
    (hpc : session.pc net = .serving) : (onFrame cfg session inbound).pc net ≠ .authenticated := by
  intro h
  have hanswers := @answers_onFrame cfg session inbound hpc
  rw [h] at hanswers
  cases hanswers

/-- The network thread passes the confirmation by sending it. -/
theorem confirmed_of_step {ok : Bool} (hnet : Pc.ofNet (l.session.pc net) = true)
    (he : Session.enabled l.session (.run net ok)) (hpcne : l.session.pc net ≠ .handshakeSend)
    (h : (Session.next cfg l.session (.run net ok)).pc net = .authenticated) :
    .authConfirm ∈ (advance cfg l (.run net ok)).written := by
  rw [Session.next] at h
  cases hpc : l.session.pc net with
  | idle => exact absurd hpc he.1
  | serving => exact absurd hpc he.2.1
  | handshakeSend => exact absurd hpc hpcne
  | hello d v =>
    rw [hpc] at h
    simp only [step, handleHello] at h
    split_ifs at h <;> simp at h
  | authenticated =>
    rw [hpc] at h
    simp [step, becomeReady] at h
  | authResponse v =>
    rw [hpc] at h
    cases v with
    | malformed => simp [step, handleAuthResponse] at h
    | rejected => simp [step, handleAuthResponse] at h
    | accepted =>
      simp only [step, handleAuthResponse] at h
      split_ifs at h with hok
      · simp at h
      · simp only [not_or, Bool.not_eq_true, Bool.not_eq_false', Option.isNone_eq_false_iff] at hok
        change _ ∈ if ok then l.written ++ sends l.session net else l.written
        rw [if_pos hok.2, sends, hpc]
        simp [hok.1]
  | _ =>
    have hsettled := @settled_step cfg l.session ok _ rfl hnet (by rw [hpc]; rfl)
    rw [h] at hsettled
    cases hsettled

theorem introduced_run {ok : Bool} (hb : Base l.session) (h : Introduced l)
    (he : Session.enabled l.session (.run net ok)) (hpcne : l.session.pc net ≠ .handshakeSend) :
    Introduced (advance cfg l (.run net ok)) := by
  have hnet : Pc.ofNet (l.session.pc net) = true := hb.roles net
  have hmem {m : Message} : m ∈ l.written → m ∈ (advance cfg l (.run net ok)).written :=
    @written_next cfg l (.session (.run net ok)) nofun m
  constructor
  · intro hready
    have hold := @mem_written_next cfg l (.session (.run net ok)) .ready rfl (by decide) hready
    exact (h.written (hold.resolve_right fun hsend => by cases hsend.1)).imp hmem
      fun ht => ⟨ht.1, hmem ht.2⟩
  · have howed : (advance cfg l (.run net ok)).outbox = owed l net := rfl
    intro hready
    rw [howed] at hready ⊢
    change _ ∨ l.answer = .trusted ∧ _
    cases hpc : l.session.pc net with
    | hello d v =>
      rw [owed, hpc] at hready ⊢
      cases hanswer : l.answer with
      | trusted => exact .inr ⟨rfl, .inr rfl⟩
      | _ =>
        rw [hanswer] at hready
        simp [announced] at hready
    | authenticated => exact .inl (hmem (h.confirmed hpc))
    | _ =>
      rw [owed, hpc] at hready ⊢
      exact (h.outbox hready).imp hmem fun ht => ⟨ht.1, ht.2.imp_left hmem⟩
  · exact confirmed_of_step hnet he hpcne

theorem introduced_send {ok : Bool} (h : Introduced l) (hpc : l.session.pc net = .handshakeSend) :
    Introduced (sendNext cfg l ok) := by
  unfold sendNext
  split
  · exact h
  · next message rest houtbox =>
    cases ok with
    | false =>
      refine h.keep rfl (fun m hm => hm) id rfl fun hp => ?_
      rw [if_pos (by rfl)] at hp
      simp [Session.next, hpc, step] at hp
    | true =>
      have hmem {m : Message} : m ∈ l.written → m ∈ l.written ++ [message] := List.mem_append_left _
      rw [if_neg (by simp)]
      constructor
      · intro hready
        rcases List.mem_append.mp hready with hready | hready
        · exact (h.written hready).imp hmem fun ht => ⟨ht.1, hmem ht.2⟩
        · rw [← List.mem_singleton.mp hready] at houtbox
          rcases h.outbox (by rw [houtbox]; exact List.mem_cons_self) with hc | ⟨ht, hi | hi⟩
          · exact .inl (hmem hc)
          · exact .inr ⟨ht, hmem hi⟩
          · rw [houtbox] at hi
            cases hi
      · intro hready
        rcases h.outbox (by rw [houtbox]; exact List.mem_cons_of_mem _ hready) with
          hc | ⟨ht, hi | hi⟩
        · exact .inl (hmem hc)
        · exact .inr ⟨ht, .inl (hmem hi)⟩
        · rw [houtbox] at hi
          obtain rfl := (List.cons.inj hi).1
          exact .inr ⟨ht, .inl (List.mem_append_right _ (List.mem_singleton_self _))⟩
      · intro hp
        dsimp only at hp
        split_ifs at hp
        · simp [Session.next, hpc, step] at hp
        · rw [hpc] at hp
          cases hp

theorem introduced_next {a : Handshake.Action} (hb : Base l.session) (hphase : Phase cfg False l)
    (h : Introduced l) (he : Handshake.enabled cfg l a) : Introduced (Handshake.next cfg l a) := by
  have haside {l' : Line} (e : Aside l l') (hl : ∀ m ∈ l.written, m ∈ l'.written)
      (hready : .ready ∈ l'.written → .ready ∈ l.written) : Introduced l' :=
    h.keep e.answer hl hready e.outbox fun hp => e.pc.symm.trans hp
  have hready (hsend : a ≠ .send true) :
      .ready ∈ (Handshake.next cfg l a).written → .ready ∈ l.written := fun hmem =>
    (mem_written_next rfl (by decide) hmem).resolve_right fun hx => hsend hx.1
  have hkeep (hconnect : a ≠ .session .connect) :
      ∀ m ∈ l.written, m ∈ (Handshake.next cfg l a).written := fun m => written_next hconnect
  cases a with
  | session a =>
    cases a with
    | connect => exact introduced_of_nil rfl rfl (by simp [Handshake.next, advance, Session.next,
        onConnected])
    | disconnect =>
      refine h.keep rfl (fun m hm => hm) id rfl fun hp => ?_
      simp [Handshake.next, advance, Session.next, onDisconnected] at hp
    | receive inbound =>
      exact h.keep rfl (fun m hm => hm) id rfl fun hp => absurd hp (ne_authenticated_onFrame _ he.1)
    | call t c => exact haside (aside_call he.1) (fun m hm => hm) id
    | watchdog => exact haside aside_watchdog (fun m hm => hm) id
    | tick => exact haside aside_tick (fun m hm => hm) id
    | run t ok =>
      by_cases ht : t = net
      · subst ht
        exact introduced_run hb h he.1 he.2
      · exact haside (aside_run hb ht he.1) (hkeep (by simp)) (hready (by simp))
  | hello d answer =>
    by_cases hstate : l.session.stream.state = .awaitingHello
    · obtain ⟨hwritten, houtbox⟩ := Phase.unwritten hphase he.1 hstate
      exact introduced_of_nil hwritten houtbox (ne_authenticated_onFrame _ he.1)
    · refine h.keep (if_neg hstate) (fun m hm => hm) id rfl fun hp => ?_
      exact absurd hp (ne_authenticated_onFrame _ he.1)
  | send ok => exact introduced_send h he
  | recover ok => exact h.keep rfl (hkeep (by simp)) (hready (by simp)) rfl id
  | command c ok =>
    have hsession : (Handshake.next cfg l (.command c ok)).session = l.session ∧
        (Handshake.next cfg l (.command c ok)).answer = l.answer ∧
        (Handshake.next cfg l (.command c ok)).outbox = l.outbox := by
      simp only [Handshake.next]
      split_ifs <;> exact ⟨rfl, rfl, rfl⟩
    refine h.keep hsession.2.1 (hkeep (by simp)) (hready (by simp)) hsession.2.2 fun hp => ?_
    rwa [hsession.1] at hp

/-! ### The invariant -/

/-- **The invariant.** While the policy is asked nothing is written; whoever is trusted without
authentication has opted out, and the first reading of the preference found it on. -/
structure Inv (cfg : SessionConfig) (s : Desk) : Prop where
  base : Base s.line.session
  phase : Phase cfg False s.line
  introduced : Introduced s.line
  asking : ∀ d, s.asking = .allowsUnauthenticated d ∨ s.asking = .trusted d →
    s.line.session.pc net = .hello d .unproven ∧ s.line.answer = .unpaired ∧
      cfg.sessionSecurity = false
  agreed : s.line.answer = .trusted → s.hello = true ∧ s.allowUnauthenticated = true
  info : ∀ i ∈ s.info, i = ⟨s.paired, s.allowUnauthenticated⟩
  sent : s.info.isSome = true ↔ .serverInfo ∈ s.line.written

theorem mutual_of_inv (h : Inv cfg s) : Mutual s := by
  constructor
  · intro hready hconfirm
    obtain ⟨htrusted, hinfo⟩ := (h.introduced.written hready).resolve_left hconfirm
    obtain ⟨hhello, hallow⟩ := h.agreed htrusted
    obtain ⟨i, hi⟩ := Option.isSome_iff_exists.mp (h.sent.mpr hinfo)
    refine ⟨hhello, i, hi, ?_⟩
    rw [h.info i hi]
    exact hallow
  · intro i hi hpaired
    rw [h.info i hi] at hpaired
    unfold Desk.paired at hpaired
    cases hanswer : s.line.answer with
    | challenge => rfl
    | trusted =>
      rw [hanswer, (h.agreed hanswer).2] at hpaired
      cases hpaired
    | _ =>
      rw [hanswer] at hpaired
      cases hpaired

/-- The place and the answer while the policy is asked. -/
theorem asking_next {a : Handshake.Action} {d : String} (h : Inv cfg s)
    (he : Handshake.enabled cfg s.line a) (hhandles : handles a = true → s.asking = .nothing)
    (hask : s.asking = .allowsUnauthenticated d ∨ s.asking = .trusted d) :
    (Handshake.next cfg s.line a).session.pc net = .hello d .unproven ∧
      (Handshake.next cfg s.line a).answer = .unpaired := by
  obtain ⟨hpc, hanswer, -⟩ := h.asking d hask
  have hbusy {pc : Pc} (hx : s.line.session.pc net = pc) (hne : pc ≠ .hello d .unproven) : False :=
    hne (hx.symm.trans hpc)
  have haside {l' : Line} (e : Aside s.line l') :
      l'.session.pc net = .hello d .unproven ∧ l'.answer = .unpaired :=
    ⟨e.pc.trans hpc, e.answer.trans hanswer⟩
  cases a with
  | session a =>
    cases a with
    | connect => exact absurd (hbusy he.1 nofun) not_false
    | disconnect => exact absurd (hbusy he.1 nofun) not_false
    | receive inbound => exact absurd (hbusy he.1 nofun) not_false
    | call t c => exact haside (aside_call he.1)
    | watchdog => exact haside aside_watchdog
    | tick => exact haside aside_tick
    | run t ok =>
      by_cases ht : t = net
      · subst ht
        rw [hhandles (by simp [handles])] at hask
        rcases hask with hask | hask <;> cases hask
      · exact haside (aside_run h.base ht he.1)
  | hello d' answer => exact absurd (hbusy he.1 nofun) not_false
  | send ok => exact absurd (hbusy he nofun) not_false
  | recover ok =>
    have hrecovery := (Phase.greeted h.phase hpc).2.2.1
    have hr : s.line.recovery = true := he
    rw [hr] at hrecovery
    cases hrecovery
  | command c ok =>
    simp only [Handshake.next]
    split_ifs <;> exact ⟨hpc, hanswer⟩

/-- Only a `hello` on a connection without one changes the answer. -/
theorem answer_next {a : Handshake.Action} (hconnect : a ≠ .session .connect)
    (hhello : ∀ d answer, a = .hello d answer → l.session.stream.state ≠ .awaitingHello) :
    (Handshake.next cfg l a).answer = l.answer := by
  cases a with
  | session a =>
    cases a with
    | connect => exact absurd rfl hconnect
    | _ => rfl
  | hello d answer => exact if_neg (hhello d answer rfl)
  | send ok =>
    simp only [Handshake.next, sendNext]
    split
    · rfl
    · split_ifs <;> rfl
  | recover ok => rfl
  | command c ok =>
    simp only [Handshake.next]
    split_ifs <;> rfl

/-- A step of the line that opens no connection and sends nothing of the outbox. -/
theorem inv_carry {a : Handshake.Action} (h : Inv cfg s) (he : Handshake.enabled cfg s.line a)
    (hhandles : handles a = true → s.asking = .nothing)
    (huntrusted : ∀ d answer, a = .hello d answer → answer ≠ .trusted)
    (hconnect : a ≠ .session .connect) (hsend : a ≠ .send true) :
    Inv cfg { s with line := Handshake.next cfg s.line a } := by
  have hunsent : (∃ d answer, a = .hello d answer) →
      s.line.session.stream.state = .awaitingHello → s.info = none := by
    rintro ⟨d, answer, rfl⟩ hstate
    have hwritten := (Phase.unwritten h.phase he.1 hstate).1
    by_contra hinfo
    have hmem := h.sent.mp (Option.isSome_iff_ne_none.mpr hinfo)
    rw [hwritten] at hmem
    cases hmem
  refine ⟨base_line h.base he, phase_next h.base h.phase he not_false.elim,
    introduced_next h.base h.phase h.introduced he, fun d hask => ?_, fun htrusted => ?_,
    fun i hi => ?_, ?_⟩
  · obtain ⟨hpc, hanswer⟩ := asking_next h he hhandles hask
    exact ⟨hpc, hanswer, (h.asking d hask).2.2⟩
  · by_cases hhello : (∃ d answer, a = .hello d answer) ∧
        s.line.session.stream.state = .awaitingHello
    · obtain ⟨⟨d, answer, rfl⟩, hstate⟩ := hhello
      exact absurd ((if_pos hstate).symm.trans htrusted) (huntrusted d answer rfl)
    · exact h.agreed ((answer_next hconnect fun d answer ha hstate =>
        hhello ⟨⟨d, answer, ha⟩, hstate⟩).symm.trans htrusted)
  · by_cases hhello : (∃ d answer, a = .hello d answer) ∧
        s.line.session.stream.state = .awaitingHello
    · have hinfo : s.info = some i := hi
      rw [hunsent hhello.1 hhello.2] at hinfo
      cases hinfo
    · have hanswer := @answer_next cfg s.line a hconnect fun d answer ha hstate =>
        hhello ⟨⟨d, answer, ha⟩, hstate⟩
      have hpaired : Desk.paired { s with line := Handshake.next cfg s.line a } = s.paired := by
        unfold Desk.paired
        dsimp only
        rw [hanswer]
      rw [hpaired]
      exact h.info i hi
  · refine h.sent.trans ⟨written_next hconnect, fun hmem => ?_⟩
    exact (mem_written_next rfl (by decide) hmem).resolve_right fun hx => hsend hx.1

theorem inv_send (h : Inv cfg s) (he : enabled cfg s (.line (.send true))) :
    Inv cfg (lineNext cfg s (.send true)) := by
  have hanswer : (Handshake.next cfg s.line (.send true)).answer = s.line.answer :=
    answer_next (by simp) fun d answer ha => by cases ha
  have hpaired : (lineNext cfg s (.send true)).paired = s.paired := by
    unfold Desk.paired lineNext
    dsimp only
    rw [hanswer]
  have hmem {m : Message} (hm : m ∈ s.line.written) :
      m ∈ (Handshake.next cfg s.line (.send true)).written := written_next (by simp) hm
  refine ⟨base_line h.base he.1, phase_next h.base h.phase he.1 not_false.elim,
    introduced_next h.base h.phase h.introduced he.1, fun d hask => ?_, fun htrusted => ?_,
    fun i hi => ?_, ?_⟩
  · obtain ⟨hpc, hnew⟩ := asking_next h he.1 he.2.2 hask
    exact ⟨hpc, hnew, (h.asking d hask).2.2⟩
  · exact h.agreed (hanswer.symm.trans htrusted)
  · rw [hpaired]
    change i ∈ if s.line.outbox.head? = some .serverInfo then
        some ⟨s.paired, s.allowUnauthenticated⟩ else s.info at hi
    split_ifs at hi
    · exact (Option.some.inj hi).symm
    · exact h.info i hi
  · change (if s.line.outbox.head? = some .serverInfo then
        some ⟨s.paired, s.allowUnauthenticated⟩ else s.info).isSome = true ↔
      .serverInfo ∈ (Handshake.next cfg s.line (.send true)).written
    split_ifs with hhead
    · refine iff_of_true rfl ?_
      obtain ⟨rest, hrest⟩ := List.head?_eq_some_iff.mp hhead
      simp [Handshake.next, sendNext, hrest]
    · refine h.sent.trans ⟨hmem, fun hsent => ?_⟩
      refine (mem_written_next rfl (by decide) hsent).resolve_right ?_
      rintro ⟨-, rest, hrest⟩
      exact hhead (by rw [hrest]; rfl)

theorem inv_line {a : Handshake.Action} (h : Inv cfg s) (he : enabled cfg s (.line a)) :
    Inv cfg (lineNext cfg s a) := by
  by_cases hconnect : a = .session .connect
  · subst hconnect
    refine ⟨base_line h.base he.1, phase_next h.base h.phase he.1 not_false.elim,
      introduced_next h.base h.phase h.introduced he.1, fun d hask => ?_, fun htrusted => ?_,
      fun i hi => ?_, ?_⟩
    · rcases hask with hask | hask <;> cases hask
    · cases htrusted
    · cases hi
    · exact iff_of_false (by simp [lineNext]) List.not_mem_nil
  by_cases hsend : a = .send true
  · subst hsend
    exact inv_send h he
  · have hcarry := inv_carry h he.1 he.2.2 (fun d answer ha hanswer => ?_) hconnect hsend
    · unfold lineNext
      split
      · exact absurd rfl hconnect
      · exact absurd rfl hsend
      · exact hcarry
    · have hsecurity := he.2.1 (by rw [ha]; rfl)
      have hfits : answer.fits cfg = true := by
        have henabled := he.1
        rw [ha] at henabled
        exact henabled.2.2
      rw [hanswer, Answer.fits, hsecurity] at hfits
      cases hfits

/-- As long as the policy is asked no `server_info` is sent. -/
theorem Inv.unsent {d : String} (h : Inv cfg s) (hpc : s.line.session.pc net = .hello d .unproven) :
    s.info = none := by
  have hwritten := (Phase.greeted h.phase hpc).2.2.2.2
  by_contra hinfo
  have hmem := h.sent.mp (Option.isSome_iff_ne_none.mpr hinfo)
  rw [hwritten] at hmem
  cases hmem

theorem inv_hello {d : String} {acceptable allow : Bool} (h : Inv cfg s)
    (he : enabled cfg s (.hello d acceptable allow)) :
    Inv cfg (next cfg s (.hello d acceptable allow)) := by
  obtain ⟨⟨hpc, hrecovery, -⟩, hpolicy⟩ := he
  have hcarry {answer : Answer} (hanswer : answer ≠ .trusted) (hfits : answer.fits cfg = true) :
      Inv cfg { s with line := Handshake.next cfg s.line (.hello d answer) } := by
    refine inv_carry h ⟨hpc, hrecovery, hfits⟩ (fun hx => by cases hx) ?_ (by simp) (by simp)
    rintro d' answer' heq
    cases heq
    exact hanswer
  simp only [next]
  split_ifs with hasked
  · simp only [Bool.and_eq_true, decide_eq_true_eq] at hasked
    have hunpaired := @hcarry .unpaired (by simp) rfl
    have hplace : (Handshake.next cfg s.line (.hello d .unpaired)).session.pc net =
        .hello d .unproven := by
      change (Sys.goto _ net _).pc net = _
      rw [pc_goto_self]
      exact if_neg (not_not.mpr hasked.2)
    have hanswer : (Handshake.next cfg s.line (.hello d .unpaired)).answer = .unpaired :=
      if_pos hasked.2
    refine ⟨hunpaired.base, hunpaired.phase, hunpaired.introduced, fun d' hask => ?_,
      fun htrusted => ?_, fun i hi => hunpaired.info i hi, hunpaired.sent⟩
    · simp only [Asking.allowsUnauthenticated.injEq, reduceCtorEq, or_false] at hask
      rw [← hask]
      exact ⟨hplace, hanswer, hpolicy⟩
    · rw [hanswer] at htrusted
      cases htrusted
  · exact hcarry (by simp) rfl

theorem inv_allowsUnauthenticated (h : Inv cfg s) :
    Inv cfg (next cfg s .allowsUnauthenticated) := by
  simp only [next]
  split
  · next d hask =>
    obtain ⟨hpc, hanswer, hpolicy⟩ := h.asking d (.inl hask)
    refine ⟨h.base, h.phase, h.introduced, fun d' hask' => ?_, fun htrusted => ?_, fun i hi => ?_,
      h.sent⟩
    · simp only [reduceCtorEq, Asking.trusted.injEq, false_or] at hask'
      rw [← hask']
      exact ⟨hpc, hanswer, hpolicy⟩
    · rw [hanswer] at htrusted
      cases htrusted
    · have hinfo : s.info = some i := hi
      rw [h.unsent hpc] at hinfo
      cases hinfo
  · exact h

/-- The variable `trusted` gets its value. -/
theorem base_hello {session : Sys} {d : String} {v v' : HelloVerdict} (h : Base session)
    (hpc : session.pc net = .hello d v) : Base (session.goto net (.hello d v')) := by
  have hunstarted : Unstarted session := .inr (.inl (by rw [hpc]; rfl))
  refine ⟨h.roles.goto rfl, h.owned.goto rfl, ?_, h.admitted.goto rfl rfl rfl fun _ => by simp⟩
  exact quiet_goto h.quiet rfl id id (fun h1 h2 => .inr (.inr ⟨h1, h2⟩)) fun _ =>
    ⟨rfl, fun _ => hunstarted⟩

theorem inv_trusted (h : Inv cfg s) (hc : steady s .trusted) : Inv cfg (next cfg s .trusted) := by
  simp only [next]
  split
  · next d hask =>
    obtain ⟨hpc, -, hpolicy⟩ := h.asking d (.inr hask)
    obtain ⟨hstate, htrusted, hrecovery, houtbox, hwritten⟩ := Phase.greeted h.phase hpc
    refine ⟨base_hello h.base hpc, ?_, introduced_of_nil hwritten houtbox (by simp),
      fun d' hask' => ?_, fun hanswer => ?_, fun i hi => ?_, h.sent⟩
    · refine .greeting (.inr (.inr (.inr ⟨d, pc_goto_self .., ?_⟩))) hstate htrusted hrecovery
        houtbox hwritten
      dsimp only
      split_ifs
      · rw [Answer.fits, hpolicy]
        rfl
      · rfl
    · rcases hask' with hask' | hask' <;> cases hask'
    · by_cases ht : s.trusted = true
      · exact ⟨(Bool.and_eq_true_iff.mp ht).2, hc ht⟩
      · dsimp only at hanswer
        rw [if_neg ht] at hanswer
        cases hanswer
    · have hinfo : s.info = some i := hi
      rw [h.unsent hpc] at hinfo
      cases hinfo
  · exact h

theorem inv_next (h : Inv cfg s) (he : enabled cfg s a) (hc : steady s a) :
    Inv cfg (next cfg s a) := by
  cases a with
  | line a => exact inv_line h he
  | hello d acceptable allow => exact inv_hello h he
  | allowsUnauthenticated => exact inv_allowsUnauthenticated h
  | trusted => exact inv_trusted h hc
  | setAllowUnauthenticated allow =>
    exact ⟨h.base, h.phase, h.introduced, h.asking, h.agreed, h.info, h.sent⟩

theorem inv_start (consumer : Option ConsumerId) (preference : Bool) :
    Inv cfg (.start cfg consumer preference) := by
  refine ⟨base_start cfg consumer, phase_start cfg consumer, introduced_of_nil rfl rfl ?_,
    fun d hask => ?_, fun htrusted => ?_, fun i hi => ?_, ?_⟩
  · change (Sys.start cfg consumer).pc net ≠ _
    rw [pc_start]
    simp
  · rcases hask with hask | hask <;> cases hask
  · cases htrusted
  · cases hi
  · exact iff_of_false (by simp [Desk.start]) List.not_mem_nil

/-- **The opt-out is mutual**, in every run in which the preference is not turned on between the two
readings of one `hello` of a phone that asks for it. -/
theorem mutual_of_run (cfg : SessionConfig) (consumer : Option ConsumerId) (preference : Bool)
    (as : List Action) (h : (desk cfg).Legal steady (.start cfg consumer preference) as) :
    Mutual ((desk cfg).exec (.start cfg consumer preference) as) :=
  mutual_of_inv (h.invariant (I := Inv cfg) (inv_start consumer preference)
    fun _ _ hi he hc => inv_next hi he hc)

/-- A phone that opts out says hello, and the preference is set on the way. -/
def meeting (allow : Bool) : List Action :=
  [.line (.session .connect), .hello "phone" true true, .allowsUnauthenticated,
    .setAllowUnauthenticated allow, .trusted, .line (.session (.run net true)), .line (.send true),
    .line (.send true)]

theorem mutual_of_meeting :
    Message.ready ∈ ((desk { sessionSecurity := false }).exec
      (.start { sessionSecurity := false } none true) (meeting true)).line.written ∧
    Mutual ((desk { sessionSecurity := false }).exec
      (.start { sessionSecurity := false } none true) (meeting true)) :=
  ⟨by decide +kernel, mutual_of_run { sessionSecurity := false } none true (meeting true)
    (by decide +kernel)⟩

/-- The preference is off when it is read for `server_info`, and on when it is read for trust. -/
theorem not_mutual_of_turnedOn :
    ∃ cfg as, (desk cfg).Legal (fun _ _ => True) (.start cfg none false) as ∧
      .ready ∈ ((desk cfg).exec (.start cfg none false) as).line.written ∧
      ((desk cfg).exec (.start cfg none false) as).info = some ⟨true, false⟩ ∧
      ¬ Mutual ((desk cfg).exec (.start cfg none false) as) := by
  refine ⟨{ sessionSecurity := false }, meeting true, by decide +kernel, by decide +kernel,
    by decide +kernel, fun h => ?_⟩
  have hinfo : ((desk { sessionSecurity := false }).exec
      (.start { sessionSecurity := false } none false) (meeting true)).info =
      some ⟨true, false⟩ := by decide +kernel
  have hchallenge := h.paired _ hinfo rfl
  have hanswer : ((desk { sessionSecurity := false }).exec
      (.start { sessionSecurity := false } none false) (meeting true)).line.answer = .trusted := by
    decide +kernel
  rw [hanswer] at hchallenge
  cases hchallenge

end RemoteCam.Backend.OptOut
