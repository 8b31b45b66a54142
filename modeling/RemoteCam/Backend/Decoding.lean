import RemoteCam.Backend.Delivery

/-! # What a consumer can decode

After a reset a consumer starts with a self-contained keyframe, and each later unit is a keyframe or
the successor of the unit before it. `waitingForKeyframe` keeps this: every path that loses a unit
sets it. `setConsumer` does not: it resets the new consumer in the middle of the stream. -/

namespace RemoteCam.Backend.Decoding

open RemoteCam.Lib.Threads RemoteCam.Lib.Transitions RemoteCam.Video.Annexb
open RemoteCam.Backend.Session RemoteCam.Backend.Effects RemoteCam.Backend.Invariants
open RemoteCam.Backend.Delivery

variable {cfg : SessionConfig} {s s' : Sys} {a : Action}

/-! ### What is asked for -/

/-- The unit that the consumer took last since it was reset. A unit it refused is not taken: it will
be offered again. -/
def lastTaken (consumer : ConsumerId) : List Event → Option Arrived
  | [] => none
  | e :: older =>
    if e.consumer = consumer then
      match e.callback with
      | .reset .. => none
      | .consume queued true => some queued.toArrived
      | .consume _ false => lastTaken consumer older
    else lastTaken consumer older

def Arrived.selfContained (x : Arrived) : Bool :=
  (inspect x.unit.bytes x.unit.codec).isSelfContainedKeyframe

/-- `x` came right after `p` on the same connection. -/
def Succeeds (p x : Arrived) : Prop := x.connection = p.connection ∧ x.arrival = p.arrival + 1

/-- `x` can be decoded after `p`, or at the start. -/
def Follows : Option Arrived → Arrived → Prop
  | none, x => x.unit.keyframe ∧ Arrived.selfContained x
  | some p, x => x.unit.keyframe ∨ Succeeds p x

instance (p : Option Arrived) (x : Arrived) : Decidable (Follows p x) := by
  cases p <;> unfold Follows Succeeds <;> infer_instance

def Decodes (e : Event) (older : List Event) : Prop :=
  match e.callback with
  | .consume queued _ => Follows (lastTaken e.consumer older) queued.toArrived
  | .reset .. => True

instance (e : Event) (older : List Event) : Decidable (Decodes e older) := by
  unfold Decodes; split <;> infer_instance

def Decodable : List Event → Prop
  | [] => True
  | e :: older => Decodes e older ∧ Decodable older

instance decidableDecodable : ∀ log, Decidable (Decodable log)
  | [] => .isTrue trivial
  | e :: older =>
    have : Decidable (Decodable older) := decidableDecodable older
    inferInstanceAs (Decidable (Decodes e older ∧ Decodable older))

/-- Between the copy of a unit and its removal. -/
def Pc.holds (pc : Pc) : Bool := (Pc.inFlight pc).isSome

/-- The action begins a reset of the consumer, or puts one in place. -/
def beginsReset (s : Sys) : Action → Bool
  | .run t _ =>
    match s.pc t with
    | .streamStart | .formatAck _ | .setConsumer (some _) => true
    | _ => false
  | _ => false

def receivesVideo : Action → Bool
  | .receive (.video _) => true
  | _ => false

/-- The next unit to be handed over will be a keyframe. -/
def Restart (s : Sys) : Prop :=
  (s.stream.queue = [] → s.stream.waitingForKeyframe) ∧
    ∀ x ∈ s.stream.queue.head?, x.unit.keyframe

instance (s : Sys) : Decidable (Restart s) := by unfold Restart; infer_instance

/-- A connection begins when no thread drains or resets; a reset begins when no thread holds a unit;
a consumer is put in place when a keyframe comes next; and no frame arrives during a reset unless a
keyframe is waited for. -/
def fromKeyframe (s : Sys) (a : Action) : Prop :=
  (a = .connect → s.Free Pc.drains ∧ s.Free Pc.resets) ∧
  (beginsReset s a → s.Free Pc.holds) ∧
  (∀ consumer ∈ replacing s a, consumer.isSome → Restart s) ∧
  (receivesVideo a → s.stream.resettingConsumer → s.stream.waitingForKeyframe)

instance (s : Sys) (a : Action) : Decidable (fromKeyframe s a) := by
  unfold fromKeyframe; infer_instance

/-! ### The feed -/

/-- The arrival the unit that is received next, or about to be appended, has. -/
def upcoming (s : Sys) : ℕ :=
  match s.pc net with
  | .videoEnqueue x => x.arrival
  | _ => s.arrivals

/-- A unit right before the upcoming one. -/
def Latest (s : Sys) (p : Arrived) : Prop :=
  p.connection = s.stream.connections ∧ p.arrival + 1 = upcoming s

/-- The next unit may be appended without being a keyframe. -/
structure Live (s : Sys) : Prop where
  waiting : s.stream.waitingForKeyframe = false
  pending : s.stream.pendingStreamConfig = none
  streaming : s.stream.state = .streaming ∨ Pc.enqueues (s.pc net)
  valid : s.pc net ≠ .videoInvalid

/-- The queue is decodable from its front on, up to the unit that is appended next. -/
structure Feed (s : Sys) : Prop where
  whole : ∀ x ∈ s.stream.queue, x.unit.keyframe → Arrived.selfContained x.toArrived
  enqueue : ∀ x, s.pc net = .videoEnqueue x → x.arrival + 1 = s.arrivals ∧
    x.connection = s.stream.connections ∧ (x.unit.keyframe → Arrived.selfContained x) ∧
    (s.stream.pendingStreamConfig = none ∨ s.stream.waitingForKeyframe)
  chain : s.stream.queue.IsChain fun p x => Follows (some p.toArrived) x.toArrived
  last : Live s → ∀ p ∈ s.stream.queue.getLast?, Latest s p.toArrived

/-- What a step does to the queue that appends nothing: it removes units from the front, or flushes
the queue. -/
inductive Shrinks (st st' : Stream) : Prop where
  | front (queue : st'.queue <:+ st.queue) (waiting : st'.waitingForKeyframe = st.waitingForKeyframe)
      (pending : st'.pendingStreamConfig = none → st.pendingStreamConfig = none)
      (connections : st'.connections = st.connections)
  | flush (queue : st'.queue = []) (waiting : st'.waitingForKeyframe)

theorem Shrinks.of_eq {st st' : Stream} (hqueue : st'.queue = st.queue)
    (hwaiting : st'.waitingForKeyframe = st.waitingForKeyframe)
    (hpending : st'.pendingStreamConfig = st.pendingStreamConfig)
    (hconnections : st'.connections = st.connections) : Shrinks st st' :=
  .front (hqueue ▸ List.suffix_refl _) hwaiting (fun h => hpending ▸ h) hconnections

/-- A step that appends nothing, to a place where nothing is appended. It leaves no frame behind,
unless a keyframe is waited for. -/
structure Steps (s s₁ : Sys) (t : Thread) (pc : Pc) : Prop where
  pool : s₁.pool = s.pool
  arrivals : s₁.arrivals = s.arrivals
  shrinks : Shrinks s.stream s₁.stream
  state : s₁.stream.state = .streaming → s.stream.state = .streaming ∨ s₁.stream.waitingForKeyframe
  source : (∀ x, s.pc t ≠ .videoEnqueue x) ∧ s.pc t ≠ .videoInvalid ∨ s₁.stream.waitingForKeyframe
  target : Pc.enqueues pc = false
  connections : t ≠ net → s₁.stream.connections = s.stream.connections

/-- After such a step the feed is live only if it was, and waits for the same unit. -/
theorem Steps.live {s₁ : Sys} {t : Thread} {pc : Pc} (h : Steps s s₁ t pc)
    (hl : Live (s₁.goto t pc)) :
    s₁.stream.queue <:+ s.stream.queue ∧ s₁.stream.connections = s.stream.connections ∧ Live s ∧
      upcoming (s₁.goto t pc) = upcoming s := by
  have hwaiting : s₁.stream.waitingForKeyframe = false := hl.waiting
  obtain ⟨hfrom, hinvalid⟩ : (∀ x, s.pc t ≠ .videoEnqueue x) ∧ s.pc t ≠ .videoInvalid := by
    rcases h.source with hs | hs
    · exact hs
    · rw [hwaiting] at hs
      cases hs
  rcases h.shrinks with ⟨hqueue, hwait, hpending, hconnections⟩ | ⟨-, hw⟩
  · have hstate : s₁.stream.state = .streaming → s.stream.state = .streaming := by
      intro hst
      rcases h.state hst with hst' | hw
      · exact hst'
      · rw [hwaiting] at hw
        cases hw
    by_cases ht : t = net
    · subst ht
      have hnet : (s₁.goto net pc).pc net = pc := pc_goto_self _ _ _
      refine ⟨hqueue, hconnections, ⟨hwait ▸ hwaiting, hpending hl.pending, ?_, hinvalid⟩, ?_⟩
      · rcases hl.streaming with hst | henq
        · exact .inl (hstate hst)
        · rw [hnet, h.target] at henq
          cases henq
      · have hpc : ∀ x, pc ≠ .videoEnqueue x := by
          rintro x rfl
          have htarget := h.target
          cases htarget
        unfold upcoming
        rw [hnet]
        split
        · exact absurd rfl (hpc _)
        · exact h.arrivals
    · have hnet : (s₁.goto t pc).pc net = s.pc net := by
        rw [pc_goto_of_ne _ (Ne.symm ht), Sys.pc, h.pool]
        rfl
      refine ⟨hqueue, hconnections, ⟨hwait ▸ hwaiting, hpending hl.pending, ?_, ?_⟩, ?_⟩
      · rcases hl.streaming with hst | henq
        · exact .inl (hstate hst)
        · exact .inr (hnet ▸ henq)
      · exact hnet ▸ hl.valid
      · unfold upcoming
        rw [hnet]
        split
        · rfl
        · exact h.arrivals
  · rw [hwaiting] at hw
    cases hw

theorem mem_of_shrinks {st st' : Stream} (h : Shrinks st st') {x : QueuedAccessUnit}
    (hx : x ∈ st'.queue) : x ∈ st.queue := by
  rcases h with ⟨hqueue, -, -, -⟩ | ⟨hqueue, -⟩
  · exact hqueue.subset hx
  · rw [hqueue] at hx
    cases hx

theorem Feed.goto {s₁ : Sys} {t : Thread} {pc : Pc} (h : Feed s) (hs : Steps s s₁ t pc)
    (hpending : s₁.stream.pendingStreamConfig = s.stream.pendingStreamConfig ∨
      s₁.stream.waitingForKeyframe) : Feed (s₁.goto t pc) := by
  refine ⟨fun x hx => h.whole x (mem_of_shrinks hs.shrinks hx), fun x hx => ?_, ?_,
    fun hl p hp => ?_⟩
  · have hold : s.pc net = .videoEnqueue x ∧ net ≠ t := by
      by_cases ht : net = t
      · rw [ht, pc_goto_self] at hx
        have htarget := hs.target
        rw [hx] at htarget
        cases htarget
      · rw [pc_goto_of_ne _ ht, Sys.pc, hs.pool] at hx
        exact ⟨hx, ht⟩
    obtain ⟨h1, h2, h3, h4⟩ := h.enqueue x hold.1
    refine ⟨h1.trans hs.arrivals.symm, h2.trans (hs.connections (Ne.symm hold.2)).symm, h3, ?_⟩
    rcases hpending with hp | hw
    · rcases h4 with h4 | h4
      · exact .inl (hp.trans h4)
      · rcases hs.shrinks with ⟨-, hwait, -, -⟩ | ⟨-, hw⟩
        · exact .inr (hwait.trans h4)
        · exact .inr hw
    · exact .inr hw
  · rcases hs.shrinks with ⟨hqueue, -, -, -⟩ | ⟨hqueue, -⟩
    · exact h.chain.suffix hqueue
    · rw [stream_goto, hqueue]
      exact .nil
  · obtain ⟨hqueue, hconnections, hlive, hupcoming⟩ := hs.live hl
    obtain ⟨front, hfront⟩ := hqueue
    have hlast : p ∈ s.stream.queue.getLast? := by
      rw [← hfront, List.getLast?_append, show s₁.stream.queue.getLast? = some p from hp]
      rfl
    obtain ⟨h1, h2⟩ := h.last hlive p hlast
    exact ⟨h1.trans hconnections.symm, h2.trans hupcoming.symm⟩

/-- A frame arrives. If it leads to no unit, the feed is not live: the session does not stream, a
format change or a reset is under way, or the frame is invalid. -/
theorem Feed.arrive (ha : Admitted s) (h : Feed s) (frame : VideoFrame)
    (hpc : s.pc net = .serving)
    (hresetting : s.stream.resettingConsumer → s.stream.waitingForKeyframe) :
    Feed ({ s with arrivals := s.arrivals + 1 }.goto net (videoPc s.stream frame s.arrivals)) ∧
      (Live ({ s with arrivals := s.arrivals + 1 }.goto net (videoPc s.stream frame s.arrivals)) →
        Live s ∧ upcoming ({ s with arrivals := s.arrivals + 1 }.goto net
          (videoPc s.stream frame s.arrivals)) = upcoming s) := by
  set s₁ := ({ s with arrivals := s.arrivals + 1 } : Sys).goto net
    (videoPc s.stream frame s.arrivals)
  have hnet : s₁.pc net = videoPc s.stream frame s.arrivals := pc_goto_self _ _ _
  have hbefore : upcoming s = s.arrivals := by
    unfold upcoming
    rw [hpc]
  have hlive : Live s₁ → Live s ∧ upcoming s₁ = upcoming s := by
    rintro ⟨hwaiting, hpending, hstreaming, hvalid⟩
    rw [hnet] at hstreaming hvalid
    have hstate : s.stream.state = .streaming := by
      rcases hstreaming with hst | henq
      · exact hst
      · cases hv : videoPc s.stream frame s.arrivals <;> rw [hv] at henq <;> first
          | contradiction
          | exact (videoPc_enqueue hv).1
    have hres : s.stream.resettingConsumer = false := by
      by_contra hr
      have hw := hresetting (by simpa using hr)
      rw [show s.stream.waitingForKeyframe = false from hwaiting] at hw
      cases hw
    have htrusted := ha.trusted (.inr hstate)
    obtain ⟨x, hx⟩ : ∃ x, videoPc s.stream frame s.arrivals = .videoEnqueue x := by
      unfold videoPc at hvalid ⊢
      dsimp only at hvalid ⊢
      rw [show s.stream.pendingStreamConfig = none from hpending] at hvalid ⊢
      rw [hres, hstate, htrusted] at hvalid ⊢
      split_ifs at hvalid ⊢ with h1 h2 h3
      · cases h1
      · exact absurd h2 (by decide)
      · exact absurd rfl hvalid
      · exact ⟨_, rfl⟩
    refine ⟨⟨hwaiting, hpending, .inl hstate, by rw [hpc]; nofun⟩, ?_⟩
    unfold upcoming
    rw [hnet, hx, hpc]
    exact (videoPc_enqueue hx).2.2.2.2.2.2.1
  refine ⟨⟨h.whole, fun x hx => ?_, h.chain, fun hl p hp => ?_⟩, hlive⟩
  · rw [hnet] at hx
    obtain ⟨-, hpending, -, -, -, hconnection, harrival, hwhole⟩ := videoPc_enqueue hx
    exact ⟨congrArg (· + 1) harrival, hconnection, hwhole, .inl hpending⟩
  · obtain ⟨hl', hup⟩ := hlive hl
    obtain ⟨h1, h2⟩ := h.last hl' p hp
    exact ⟨h1, h2.trans hup.symm⟩

/-- The upcoming unit can follow the latest one. -/
theorem follows_of_latest (h : Feed s) {x p : Arrived} (hpc : s.pc net = .videoEnqueue x)
    (hp : Latest s p) : Follows (some p) x := by
  obtain ⟨-, hconnection, -, -⟩ := h.enqueue x hpc
  obtain ⟨h1, h2⟩ := hp
  have hup : upcoming s = x.arrival := by
    unfold upcoming
    rw [hpc]
  exact .inr ⟨hconnection.trans h1.symm, (h2.trans hup).symm⟩

theorem live_of_enqueue (h : Feed s) {x : Arrived} (hpc : s.pc net = .videoEnqueue x)
    (hwaiting : s.stream.waitingForKeyframe = false) : Live s := by
  obtain ⟨-, -, -, hpending⟩ := h.enqueue x hpc
  refine ⟨hwaiting, ?_, .inr (by rw [hpc]; rfl), by rw [hpc]; nofun⟩
  rcases hpending with hp | hw
  · exact hp
  · rw [hwaiting] at hw
    cases hw

theorem Feed.append (h : Feed s) {x : Arrived} {activity : Activity}
    (hpc : s.pc net = .videoEnqueue x) (hkey : s.stream.waitingForKeyframe → x.unit.keyframe) :
    Feed ({ s with
      stream := { s.stream with waitingForKeyframe := false }.append x, activity }.goto net
        .drainEnter) := by
  set s₁ : Sys := { s with
    stream := { s.stream with waitingForKeyframe := false }.append x, activity }
  have hnet : (s₁.goto net .drainEnter).pc net = .drainEnter := pc_goto_self _ _ _
  have hqueue : (s₁.goto net .drainEnter).stream.queue =
      s.stream.queue ++ [{ x with token := s.stream.nextQueueToken }] := rfl
  obtain ⟨harrival, hconnection, hwhole, -⟩ := h.enqueue x hpc
  refine ⟨fun y hy => ?_, fun y hy => ?_, ?_, fun _ p hp => ?_⟩
  · rw [hqueue] at hy
    rcases List.mem_append.mp hy with hy | hy
    · exact h.whole y hy
    · rw [List.mem_singleton.mp hy]
      exact hwhole
  · rw [hnet] at hy
    cases hy
  · rw [hqueue, List.isChain_append]
    refine ⟨h.chain, .singleton _, fun p hp y hy => ?_⟩
    obtain rfl := Option.some.inj hy
    by_cases hw : s.stream.waitingForKeyframe = true
    · exact .inl (hkey hw)
    · have hlive := live_of_enqueue h hpc (by simpa using hw)
      exact follows_of_latest h hpc (h.last hlive p hp)
  · rw [hqueue, List.getLast?_concat] at hp
    obtain rfl := Option.some.inj hp
    refine ⟨hconnection, harrival.trans ?_⟩
    unfold upcoming
    rw [hnet]
    rfl

/-! ### The reader -/

/-- What the current consumer is handed next can be decoded after what it took last. -/
structure Reader (s : Sys) : Prop where
  caught : Live s → s.stream.queue = [] → ∀ d, s.stream.consumer = some d →
    ∃ p ∈ lastTaken d s.log, Latest s p
  front : ∀ d, s.stream.consumer = some d → ∀ y ∈ s.stream.queue.head?,
    Follows (lastTaken d s.log) y.toArrived ∨ ∃ t, s.pc t = .drainRemove y
  held : ∀ t q d, s.pc t = .consume q d →
    (s.stream.consumer = none ∨ s.stream.consumer = some d) ∧
      Follows (lastTaken d s.log) q.toArrived
  removing : ∀ t q, s.pc t = .drainRemove q → ∀ d, s.stream.consumer = some d →
    lastTaken d s.log = some q.toArrived
  flight : ∀ t q, Pc.inFlight (s.pc t) = some q → s.stream.queue.head? = some q ∨ Restart s
  restart : ∀ t, Pc.resets (s.pc t) → Restart s ∧ s.Free Pc.holds
  log : Decodable s.log

theorem inFlight_of_free {pc : Pc} (h : Pc.holds pc = false) : Pc.inFlight pc = none := by
  cases hq : Pc.inFlight pc with
  | none => rfl
  | some q =>
    unfold Pc.holds at h
    rw [hq] at h
    cases h

theorem follows_of_keyframe {x : Arrived} (hkey : x.unit.keyframe)
    (hwhole : x.unit.keyframe → Arrived.selfContained x) (p : Option Arrived) : Follows p x := by
  cases p with
  | none => exact ⟨hkey, hwhole hkey⟩
  | some p => exact .inl hkey

theorem free_goto {s₁ : Sys} {t : Thread} {pc : Pc} {region : Pc → Bool} (h : s.Free region)
    (hpool : s₁.pool = s.pool) (hpc : region pc = false) : (s₁.goto t pc).Free region := by
  intro u
  by_cases hu : u = t
  · rw [hu, pc_goto_self]
    exact hpc
  · rw [pc_goto_of_ne _ hu, Sys.pc, hpool]
    exact h u

/-- While a thread holds a unit no other one resets the consumer. -/
theorem Reader.not_resets (h : Reader s) {s₁ : Sys} {t : Thread} {pc : Pc}
    (hpool : s₁.pool = s.pool) (hholds : Pc.holds (s.pc t)) (hpc : Pc.resets pc = false)
    (u : Thread) : ¬Pc.resets ((s₁.goto t pc).pc u) := by
  intro hu
  by_cases hut : u = t
  · rw [hut, pc_goto_self, hpc] at hu
    cases hu
  · rw [pc_goto_of_ne _ hut, Sys.pc, hpool] at hu
    have hfree := (h.restart u hu).2 t
    rw [hholds] at hfree
    cases hfree

/-- A step that hands over nothing and takes nothing from the front of the queue. -/
theorem Reader.goto {s₁ : Sys} {t : Thread} {pc : Pc} (h : Reader s) (hs : Steps s s₁ t pc)
    (hqueue : s₁.stream.queue = s.stream.queue ∧
      s₁.stream.waitingForKeyframe = s.stream.waitingForKeyframe ∨
      s₁.stream.queue = [] ∧ s₁.stream.waitingForKeyframe)
    (hconsumer : s₁.stream.consumer = s.stream.consumer ∨ s₁.stream.consumer = none)
    (hlast : ∀ d, lastTaken d s₁.log = lastTaken d s.log) (hlog : Decodable s₁.log)
    (hfrom : ∀ y ∈ s.stream.queue.head?, s.pc t ≠ .drainRemove y)
    (hto : Pc.inFlight pc = none ∧ (Pc.resets pc = false ∨ Pc.resets (s.pc t))) :
    Reader (s₁.goto t pc) := by
  have hcurrent : ∀ d, s₁.stream.consumer = some d → s.stream.consumer = some d := by
    intro d hd
    rcases hconsumer with hc | hc
    · exact hc.symm.trans hd
    · rw [hc] at hd
      cases hd
  have hback : ∀ {u x}, (s₁.goto t pc).pc u = x → Pc.inFlight x ≠ none → s.pc u = x := by
    rintro u x hx hne
    refine pc_of_goto hs.pool hx ?_
    rintro rfl
    exact hne hto.1
  have hrestart : Restart s → Restart (s₁.goto t pc) := by
    intro hr
    unfold Restart
    rcases hqueue with ⟨hq, hw⟩ | ⟨hq, hw⟩
    · rw [stream_goto, hq, hw]
      exact hr
    · rw [stream_goto, hq]
      exact ⟨fun _ => hw, nofun⟩
  refine ⟨fun hl hempty d hd => ?_, fun d hd y hy => ?_, fun u q d hu => ?_,
    fun u q hu d hd => ?_, fun u q hu => ?_, fun u hu => ?_, hlog⟩
  · obtain ⟨-, hconnections, hlive, hupcoming⟩ := hs.live hl
    rcases hqueue with ⟨hq, -⟩ | ⟨-, hw⟩
    · obtain ⟨p, hp, h1, h2⟩ := h.caught hlive (hq ▸ hempty) d (hcurrent d hd)
      rw [log_goto, hlast]
      exact ⟨p, hp, h1.trans hconnections.symm, h2.trans hupcoming.symm⟩
    · have hwaiting : s₁.stream.waitingForKeyframe = false := hl.waiting
      rw [hwaiting] at hw
      cases hw
  · rw [log_goto, hlast]
    rcases hqueue with ⟨hq, -⟩ | ⟨hq, -⟩
    · rw [stream_goto, hq] at hy
      rcases h.front d (hcurrent d hd) y hy with h1 | ⟨u, hu⟩
      · exact .inl h1
      · exact .inr ⟨u, pc_goto_of_pc hs.pool hu (hfrom y hy)⟩
    · rw [stream_goto, hq] at hy
      cases hy
  · obtain ⟨h1, h2⟩ := h.held u q d (hback hu nofun)
    rw [log_goto, hlast]
    refine ⟨?_, h2⟩
    rcases hconsumer with hc | hc
    · rw [stream_goto, hc]
      exact h1
    · exact .inl hc
  · rw [log_goto, hlast]
    exact h.removing u q (hback hu nofun) d (hcurrent d hd)
  · have hsame : s.pc u = (s₁.goto t pc).pc u := hback rfl (by rw [hu]; nofun)
    rcases h.flight u q (by rw [hsame, hu]) with h1 | h1
    · rcases hqueue with ⟨hq, -⟩ | ⟨hq, hw⟩
      · exact .inl (by rw [stream_goto, hq]; exact h1)
      · refine .inr ⟨fun _ => hw, fun y hy => ?_⟩
        rw [stream_goto, hq] at hy
        cases hy
    · exact .inr (hrestart h1)
  · obtain ⟨v, hv⟩ : ∃ v, Pc.resets (s.pc v) := by
      rw [pc_goto] at hu
      split_ifs at hu with hut
      · rcases hto.2 with hout | hin
        · rw [hout] at hu
          cases hu
        · exact ⟨t, hin⟩
      · exact ⟨u, by rwa [Sys.pc, ← hs.pool]⟩
    obtain ⟨h1, h2⟩ := h.restart v hv
    refine ⟨hrestart h1, free_goto h2 hs.pool ?_⟩
    unfold Pc.holds
    rw [hto.1]
    rfl

/-- A step after which a keyframe comes next and no unit is held, whatever the consumer is. -/
theorem Reader.begin {s₁ : Sys} {t : Thread} {pc : Pc} (h : Reader s) (hpool : s₁.pool = s.pool)
    (hlog : s₁.log = s.log) (hfree : s.Free Pc.holds) (hto : Pc.inFlight pc = none)
    (hrestart : Restart (s₁.goto t pc))
    (hwhole : ∀ x ∈ s₁.stream.queue, x.unit.keyframe → Arrived.selfContained x.toArrived) :
    Reader (s₁.goto t pc) := by
  have hholds : (s₁.goto t pc).Free Pc.holds := by
    refine free_goto hfree hpool ?_
    unfold Pc.holds
    rw [hto]
    rfl
  have hnone : ∀ u, Pc.inFlight ((s₁.goto t pc).pc u) = none := fun u =>
    inFlight_of_free (hholds u)
  refine ⟨fun hl hempty => ?_, fun d _ y hy => ?_, fun u q d hu => ?_, fun u q hu => ?_,
    fun u q hu => ?_, fun _ _ => ⟨hrestart, hholds⟩, hlog ▸ h.log⟩
  · have hw := hrestart.1 hempty
    rw [hl.waiting] at hw
    cases hw
  · exact .inl (follows_of_keyframe (hrestart.2 y hy) (hwhole y (List.mem_of_mem_head? hy)) _)
  · have hflight := hnone u
    rw [hu] at hflight
    cases hflight
  · have hflight := hnone u
    rw [hu] at hflight
    cases hflight
  · rw [hnone u] at hu
    cases hu

theorem Reader.arrive (h : Reader s) {frame : VideoFrame} (hpc : s.pc net = .serving)
    (hlive : Live ({ s with arrivals := s.arrivals + 1 }.goto net
      (videoPc s.stream frame s.arrivals)) → Live s ∧
      upcoming ({ s with arrivals := s.arrivals + 1 }.goto net
        (videoPc s.stream frame s.arrivals)) = upcoming s) :
    Reader ({ s with arrivals := s.arrivals + 1 }.goto net
      (videoPc s.stream frame s.arrivals)) := by
  set pc := videoPc s.stream frame s.arrivals
  set s₁ : Sys := { s with arrivals := s.arrivals + 1 }
  obtain ⟨hdrains, hresets⟩ : Pc.drains pc = false ∧ Pc.resets pc = false := videoPc_outside _ _ _
  have hflight : Pc.inFlight pc = none := inFlight_of_outside hdrains
  have hback : ∀ {u x}, (s₁.goto net pc).pc u = x → (Pc.inFlight x ≠ none ∨ Pc.resets x) →
      s.pc u = x := by
    rintro u x hx hne
    refine pc_of_goto rfl hx ?_
    rintro rfl
    rcases hne with hne | hne
    · exact hne hflight
    · rw [hresets] at hne
      cases hne
  have hrestart : Restart s → Restart (s₁.goto net pc) := id
  refine ⟨fun hl he d hd => ?_, fun d hd y hy => ?_, fun u q d hu => ?_, fun u q hu => ?_,
    fun u q hu => ?_, fun u hu => ?_, h.log⟩
  · obtain ⟨hl', hup⟩ := hlive hl
    obtain ⟨p, hp, h1, h2⟩ := h.caught hl' he d hd
    exact ⟨p, hp, h1, h2.trans hup.symm⟩
  · rcases h.front d hd y hy with h1 | ⟨u, hu⟩
    · exact .inl h1
    · exact .inr ⟨u, pc_goto_of_pc (s := s) rfl hu (by rw [hpc]; nofun)⟩
  · exact h.held u q d (hback hu (.inl nofun))
  · exact h.removing u q (hback hu (.inl nofun))
  · have hsame : s.pc u = (s₁.goto net pc).pc u := hback rfl (.inl (by rw [hu]; nofun))
    exact h.flight u q (by rw [hsame, hu])
  · have hsame : s.pc u = (s₁.goto net pc).pc u := hback rfl (.inr hu)
    obtain ⟨h1, h2⟩ := h.restart u (by rw [hsame, hu])
    refine ⟨hrestart h1, free_goto (s := s) h2 rfl ?_⟩
    unfold Pc.holds
    rw [hflight]
    rfl

/-- The unit appended follows what is queued, or what the consumer took last. -/
theorem Reader.append (hf : Feed s) (h : Reader s) {x : Arrived} {activity : Activity}
    (hpc : s.pc net = .videoEnqueue x) (hkey : s.stream.waitingForKeyframe → x.unit.keyframe) :
    Reader ({ s with
      stream := { s.stream with waitingForKeyframe := false }.append x, activity }.goto net
        .drainEnter) := by
  set s₁ : Sys := { s with
    stream := { s.stream with waitingForKeyframe := false }.append x, activity }
  have hqueue : (s₁.goto net .drainEnter).stream.queue =
      s.stream.queue ++ [{ x with token := s.stream.nextQueueToken }] := rfl
  have hback : ∀ {u y}, (s₁.goto net .drainEnter).pc u = y → (Pc.drainEnter ≠ y) →
      s.pc u = y := fun hy hne => pc_of_goto rfl hy hne
  have hempty : (s₁.goto net .drainEnter).stream.queue ≠ [] := by
    rw [hqueue]
    exact List.append_ne_nil_of_right_ne_nil _ (List.cons_ne_nil _ _)
  have hhead : ∀ y ∈ (s₁.goto net .drainEnter).stream.queue.head?,
      y ∈ s.stream.queue.head? ∨ s.stream.queue = [] ∧ y.toArrived = x := by
    intro y hy
    rw [hqueue] at hy
    rcases hq : s.stream.queue with _ | ⟨z, rest⟩
    · rw [hq] at hy
      obtain rfl := Option.some.inj hy
      exact .inr ⟨rfl, rfl⟩
    · rw [hq] at hy
      exact .inl hy
  have hrestart : Restart s → Restart (s₁.goto net .drainEnter) := by
    refine fun hr => ⟨fun he => absurd he hempty, fun y hy => ?_⟩
    rcases hhead y hy with hy | ⟨he, hx⟩
    · exact hr.2 y hy
    · rw [hx]
      exact hkey (hr.1 he)
  refine ⟨fun _ he => absurd he hempty, fun d hd y hy => ?_, fun u q d hu => ?_,
    fun u q hu => ?_, fun u q hu => ?_, fun u hu => ?_, h.log⟩
  · rcases hhead y hy with hy | ⟨he, hx⟩
    · rcases h.front d hd y hy with h1 | ⟨u, hu⟩
      · exact .inl h1
      · exact .inr ⟨u, pc_goto_of_pc (s := s) rfl hu (by rw [hpc]; nofun)⟩
    · rw [hx]
      refine .inl ?_
      by_cases hw : s.stream.waitingForKeyframe = true
      · exact follows_of_keyframe (hkey hw) (hf.enqueue x hpc).2.2.1 _
      · obtain ⟨p, hp, hlatest⟩ := h.caught (live_of_enqueue hf hpc (by simpa using hw)) he d hd
        rw [log_goto, show lastTaken d s₁.log = some p from hp]
        exact follows_of_latest hf hpc hlatest
  · exact h.held u q d (hback hu nofun)
  · exact h.removing u q (hback hu nofun)
  · have hsame : s.pc u = (s₁.goto net .drainEnter).pc u := by
      refine hback rfl fun heq => ?_
      rw [← heq] at hu
      cases hu
    rcases h.flight u q (by rw [hsame, hu]) with h1 | h1
    · refine .inl ?_
      rw [hqueue, List.head?_append, h1]
      rfl
    · exact .inr (hrestart h1)
  · have hsame : s.pc u = (s₁.goto net .drainEnter).pc u := by
      refine hback rfl fun heq => ?_
      rw [← heq] at hu
      cases hu
    obtain ⟨h1, h2⟩ := h.restart u (by rw [hsame, hu])
    exact ⟨hrestart h1, free_goto (s := s) h2 rfl rfl⟩

/-- The front of the queue is copied for the current consumer. -/
theorem Reader.take (hb : Base s) (hone : OneDrainer s) (hreset : OneReset s) (h : Reader s)
    {t : Thread} {q : QueuedAccessUnit} {rest : List QueuedAccessUnit} {d : ConsumerId}
    (hpc : s.pc t = .drainTake) (hqueue : s.stream.queue = q :: rest)
    (hconsumer : s.stream.consumer = some d) (hresetting : s.stream.resettingConsumer = false) :
    Reader (s.goto t (.consume q d)) := by
  have ht : Pc.drains (s.pc t) := by rw [hpc]; rfl
  have hne : s.stream.queue ≠ [] := by rw [hqueue]; nofun
  have hnet : s.pc net ≠ .idle := fun hidle => hne (hb.quiet (.inl hidle)).queue
  have hfree : (s.goto t (.consume q d)).Free Pc.resets :=
    free_goto (free_of_oneReset hreset hresetting hnet) rfl rfl
  have hfront : ∀ c, s.stream.consumer = some c → ∀ y ∈ s.stream.queue.head?,
      Follows (lastTaken c s.log) y.toArrived := by
    intro c hc y hy
    rcases h.front c hc y hy with h1 | ⟨u, hu⟩
    · exact h1
    · obtain rfl : u = t := hone.alone (by rw [hu]; rfl) ht
      rw [hpc] at hu
      cases hu
  refine ⟨fun _ he => absurd he hne, fun c hc y hy => .inl (hfront c hc y hy), fun u q' c hu => ?_,
    fun u q' hu => ?_, fun u q' hu => ?_, fun u hu => ?_, h.log⟩
  · rw [pc_goto] at hu
    split_ifs at hu
    · cases hu
      exact ⟨.inr hconsumer, hfront d hconsumer q (by rw [hqueue]; rfl)⟩
    · exact h.held u q' c hu
  · exact h.removing u q' (pc_of_goto rfl hu nofun)
  · rw [pc_goto] at hu
    split_ifs at hu
    · cases hu
      exact .inl (by rw [stream_goto, hqueue]; rfl)
    · exact h.flight u q' hu
  · rw [hfree u] at hu
    cases hu

/-- The consumer takes the unit that was copied for it. -/
theorem Reader.deliver (hone : OneDrainer s) (hf : Feed s) (h : Reader s) {t : Thread}
    {q : QueuedAccessUnit} {d : ConsumerId} (hpc : s.pc t = .consume q d) :
    Reader ((s.record d (.consume q true)).goto t (.drainRemove q)) := by
  set s₁ := s.record d (.consume q true)
  have ht : Pc.drains (s.pc t) := by rw [hpc]; rfl
  have hself : (s₁.goto t (.drainRemove q)).pc t = .drainRemove q := pc_goto_self _ _ _
  obtain ⟨hcurrent, hfollows⟩ := h.held t q d hpc
  have hlast : ∀ c, s.stream.consumer = some c → lastTaken c s₁.log = some q.toArrived := by
    intro c hc
    obtain rfl : d = c := by
      rcases hcurrent with hn | hd
      · rw [hn] at hc
        cases hc
      · exact Option.some.inj (hd.symm.trans hc)
    simp only [s₁, Sys.record, lastTaken, if_true]
  have hother : ∀ {u x}, (s₁.goto t (.drainRemove q)).pc u = x → Pc.drains x → u = t := by
    intro u x hx hdrains
    by_contra hut
    rw [pc_goto_of_ne _ hut] at hx
    have hx' : s.pc u = x := hx
    exact hut (hone.alone (by rw [hx']; exact hdrains) ht)
  have hplace : s.stream.queue.head? = some q ∨ Restart s := h.flight t q (by rw [hpc]; rfl)
  refine ⟨fun hl he => ?_, fun c hc y hy => ?_, fun u q' c hu => ?_, fun u q' hu c hc => ?_,
    fun u q' hu => ?_, fun u hu => ?_, ⟨hfollows, h.log⟩⟩
  · have he' : s.stream.queue = [] := he
    rcases hplace with hhead | hrestart
    · rw [he'] at hhead
      cases hhead
    · have hw := hrestart.1 he'
      rw [show s.stream.waitingForKeyframe = false from hl.waiting] at hw
      cases hw
  · have hy' : y ∈ s.stream.queue.head? := hy
    rcases hplace with hhead | hrestart
    · rw [hhead] at hy'
      obtain rfl := Option.some.inj hy'
      exact .inr ⟨t, hself⟩
    · exact .inl (follows_of_keyframe (hrestart.2 y hy')
        (hf.whole y (List.mem_of_mem_head? hy')) _)
  · obtain rfl := hother hu rfl
    rw [hself] at hu
    cases hu
  · obtain rfl := hother hu rfl
    rw [hself] at hu
    cases hu
    exact hlast c hc
  · obtain rfl : u = t := hother rfl (by
      cases hx : (s₁.goto t (.drainRemove q)).pc u <;> rw [hx] at hu <;> first | rfl | cases hu)
    rw [hself] at hu
    cases hu
    exact hplace
  · exact absurd hu (h.not_resets rfl (by rw [hpc]; rfl) rfl u)

/-- The unit that was taken leaves the queue, and its successor is the front. -/
theorem Reader.pop (hone : OneDrainer s) (hf : Feed s) (h : Reader s) {t : Thread}
    {q : QueuedAccessUnit} {rest : List QueuedAccessUnit} {bytes depth : ℕ}
    (hpc : s.pc t = .drainRemove q) (hqueue : s.stream.queue = q :: rest)
    (hs : Steps s { s with
      stream := { s.stream with queue := rest, queueBytes := bytes, queueDepth := depth } } t
      .drainTake) :
    Reader ({ s with
      stream := { s.stream with queue := rest, queueBytes := bytes, queueDepth := depth } }.goto t
        .drainTake) := by
  set s₁ : Sys := { s with
    stream := { s.stream with queue := rest, queueBytes := bytes, queueDepth := depth } }
  have ht : Pc.drains (s.pc t) := by rw [hpc]; rfl
  have hself : (s₁.goto t .drainTake).pc t = .drainTake := pc_goto_self _ _ _
  have hnone : ∀ u, Pc.inFlight ((s₁.goto t .drainTake).pc u) = none := by
    intro u
    by_cases hut : u = t
    · rw [hut, hself]
      rfl
    · rw [pc_goto_of_ne _ hut]
      refine inFlight_of_outside ?_
      by_contra hdrains
      have hin : Pc.drains (s₁.pc u) := by simpa using hdrains
      exact hut (hone.alone hin ht)
  refine ⟨fun hl he d hd => ?_, fun d hd y hy => ?_, fun u q' d hu => ?_, fun u q' hu => ?_,
    fun u q' hu => ?_, fun u hu => ?_, h.log⟩
  · obtain ⟨-, hconnections, hlive, hupcoming⟩ := hs.live hl
    have hrest : rest = [] := he
    obtain ⟨h1, h2⟩ := hf.last hlive q (by rw [hqueue, hrest]; rfl)
    exact ⟨q.toArrived, h.removing t q hpc d hd, h1.trans hconnections.symm,
      h2.trans hupcoming.symm⟩
  · have hchain := hf.chain
    obtain ⟨more, rfl⟩ := List.head?_eq_some_iff.mp (show rest.head? = some y from hy)
    rw [hqueue, List.isChain_cons_cons] at hchain
    rw [log_goto, show lastTaken d s₁.log = some q.toArrived from h.removing t q hpc d hd]
    exact .inl hchain.1
  · have hflight := hnone u
    rw [hu] at hflight
    cases hflight
  · have hflight := hnone u
    rw [hu] at hflight
    cases hflight
  · rw [hnone u] at hu
    cases hu
  · exact absurd hu (h.not_resets rfl (by rw [hpc]; rfl) rfl u)

/-- The callback of a reset: the consumer starts again, with a keyframe. -/
theorem Reader.call (hf : Feed s) (h : Reader s) {t : Thread} {d : ConsumerId}
    {config : StreamConfig} {generation connection : ℕ} {after : After}
    (hpc : s.pc t = .resetCall (some d) config generation connection after) :
    Reader (resetCall s t (some d) config generation connection after) := by
  obtain ⟨hrestart, hfree⟩ := h.restart t (by rw [hpc]; rfl)
  have hbegun : Reader (s.goto t (.resetClear after)) :=
    h.begin rfl rfl hfree rfl hrestart hf.whole
  have hholds : (s.goto t (.resetClear after)).Free Pc.holds := free_goto hfree rfl rfl
  have hnone : ∀ u, Pc.inFlight ((s.goto t (.resetClear after)).pc u) = none := fun u =>
    inFlight_of_free (hholds u)
  refine ⟨fun hl he => ?_, fun c _ y hy => ?_, fun u q c hu => ?_, fun u q hu => ?_, hbegun.flight,
    hbegun.restart, ⟨trivial, h.log⟩⟩
  · have hw := hrestart.1 he
    rw [show s.stream.waitingForKeyframe = false from hl.waiting] at hw
    cases hw
  · exact .inl (follows_of_keyframe (hrestart.2 y hy) (hf.whole y (List.mem_of_mem_head? hy)) _)
  · have hflight := hnone u
    rw [show (s.goto t (.resetClear after)).pc u = _ from hu] at hflight
    cases hflight
  · have hflight := hnone u
    rw [show (s.goto t (.resetClear after)).pc u = _ from hu] at hflight
    cases hflight

/-! ### Steps -/

structure Playable (s : Sys) : Prop where
  feed : Feed s
  reader : Reader s

/-- A step that neither hands over nor appends a unit and leaves the consumer, or removes it. -/
theorem Playable.goto {s₁ : Sys} {t : Thread} {pc : Pc} (h : Playable s) (hs : Steps s s₁ t pc)
    (hqueue : s₁.stream.queue = s.stream.queue ∧
      s₁.stream.waitingForKeyframe = s.stream.waitingForKeyframe ∧
      s₁.stream.pendingStreamConfig = s.stream.pendingStreamConfig ∨
      s₁.stream.queue = [] ∧ s₁.stream.waitingForKeyframe)
    (hconsumer : s₁.stream.consumer = s.stream.consumer ∨ s₁.stream.consumer = none)
    (hlast : ∀ d, lastTaken d s₁.log = lastTaken d s.log) (hlog : Decodable s₁.log)
    (hfrom : ∀ y ∈ s.stream.queue.head?, s.pc t ≠ .drainRemove y)
    (hto : Pc.inFlight pc = none ∧ (Pc.resets pc = false ∨ Pc.resets (s.pc t))) :
    Playable (s₁.goto t pc) := by
  refine ⟨h.feed.goto hs ?_, h.reader.goto hs ?_ hconsumer hlast hlog hfrom hto⟩
  · rcases hqueue with ⟨-, -, hp⟩ | ⟨-, hw⟩
    · exact .inl hp
    · exact .inr hw
  · rcases hqueue with ⟨hq, hw, -⟩ | hq
    · exact .inl ⟨hq, hw⟩
    · exact .inr hq

/-- A step of a thread that leaves the queue and the state alone. -/
theorem steps_of_source {s₁ : Sys} {t : Thread} {pc : Pc} {P : Prop} (hpool : s₁.pool = s.pool)
    (harrivals : s₁.arrivals = s.arrivals)
    (hqueue : s₁.stream.queue = s.stream.queue ∧
      s₁.stream.waitingForKeyframe = s.stream.waitingForKeyframe ∧
      s₁.stream.pendingStreamConfig = s.stream.pendingStreamConfig)
    (hstream : s₁.stream.connections = s.stream.connections ∧ s₁.stream.state = s.stream.state)
    (hfrom : (∀ x, s.pc t ≠ .videoEnqueue x) ∧ s.pc t ≠ .videoInvalid ∧ P)
    (hto : Pc.enqueues pc = false) : Steps s s₁ t pc where
  pool := hpool
  arrivals := harrivals
  shrinks := .of_eq hqueue.1 hqueue.2.1 hqueue.2.2 hstream.1
  state hs := .inl (hstream.2 ▸ hs)
  source := .inl ⟨hfrom.1, hfrom.2.1⟩
  target := hto
  connections _ := hstream.1

/-- A step of a thread that leaves the queue, the consumer and the state alone. -/
theorem Playable.move {s₁ : Sys} {t : Thread} {pc : Pc} (h : Playable s)
    (hpool : s₁.pool = s.pool ∧ s₁.arrivals = s.arrivals ∧ s₁.log = s.log)
    (hqueue : s₁.stream.queue = s.stream.queue ∧
      s₁.stream.waitingForKeyframe = s.stream.waitingForKeyframe ∧
      s₁.stream.pendingStreamConfig = s.stream.pendingStreamConfig)
    (hstream : s₁.stream.connections = s.stream.connections ∧
      s₁.stream.state = s.stream.state ∧
      (s₁.stream.consumer = s.stream.consumer ∨ s₁.stream.consumer = none))
    (hfrom : (∀ x, s.pc t ≠ .videoEnqueue x) ∧ s.pc t ≠ .videoInvalid ∧
      ∀ y ∈ s.stream.queue.head?, s.pc t ≠ .drainRemove y)
    (hto : Pc.inFlight pc = none ∧ Pc.enqueues pc = false ∧
      (Pc.resets pc = false ∨ Pc.resets (s.pc t))) : Playable (s₁.goto t pc) :=
  h.goto
    (steps_of_source hpool.1 hpool.2.1 hqueue ⟨hstream.1, hstream.2.1⟩ hfrom hto.2.1) (.inl hqueue)
    hstream.2.2 (fun _ => by rw [hpool.2.2]) (hpool.2.2 ▸ h.reader.log) hfrom.2.2
    ⟨hto.1, hto.2.2⟩

theorem source_of_pc {t : Thread} {pc : Pc} (hpc : s.pc t = pc) (henqueues : Pc.enqueues pc = false)
    (hvalid : pc ≠ .videoInvalid) (hremoves : ∀ y, pc ≠ .drainRemove y) :
    (∀ x, s.pc t ≠ .videoEnqueue x) ∧ s.pc t ≠ .videoInvalid ∧
      ∀ y ∈ s.stream.queue.head?, s.pc t ≠ .drainRemove y := by
  subst hpc
  refine ⟨fun x hx => ?_, hvalid, fun y _ => hremoves y⟩
  rw [hx] at henqueues
  cases henqueues

/-- The beginning of a reset, after which a keyframe comes next. -/
theorem Playable.begin {s₁ : Sys} {t : Thread} {pc : Pc} (h : Playable s) (hs : Steps s s₁ t pc)
    (hlog : s₁.log = s.log) (hpending : s₁.stream.pendingStreamConfig = s.stream.pendingStreamConfig ∨
      s₁.stream.waitingForKeyframe) (hfree : s.Free Pc.holds) (hto : Pc.inFlight pc = none)
    (hrestart : Restart (s₁.goto t pc)) : Playable (s₁.goto t pc) :=
  have hfeed := h.feed.goto hs hpending
  ⟨hfeed, h.reader.begin hs.pool hlog hfree hto hrestart hfeed.whole⟩

theorem holds_free_of_drains (h : s.Free Pc.drains) : s.Free Pc.holds := by
  intro t
  unfold Pc.holds
  rw [inFlight_of_outside (h t)]
  rfl

theorem returnPc_playable (t : Thread) :
    Pc.inFlight (returnPc t) = none ∧ Pc.enqueues (returnPc t) = false ∧
      Pc.resets (returnPc t) = false :=
  ⟨(returnPc_outOfFlight t).1, (returnPc_outOfFlight t).2, (returnPc_outside t).2⟩

theorem playable_effect (hb : Base s) (hdrain : OneDrainer s) (hreset : OneReset s)
    (hpipe : Pipeline s) (h : Playable s) (e : Effect cfg s a s') (hcond : fromKeyframe s a) :
    Playable s' := by
  have hsame : s.stream.queue = s.stream.queue ∧
      s.stream.waitingForKeyframe = s.stream.waitingForKeyframe ∧
      s.stream.pendingStreamConfig = s.stream.pendingStreamConfig := ⟨rfl, rfl, rfl⟩
  cases e with
  | @still a state activity clock hstate =>
    have hlive : Live { s with stream.state := state, activity, clock } → Live s := by
      rintro ⟨hwaiting, hpending, hstreaming, hvalid⟩
      refine ⟨hwaiting, hpending, ?_, hvalid⟩
      rcases hstreaming with hs | hs
      · rcases hstate with rfl | rfl
        · exact .inl hs
        · cases hs
      · exact .inr hs
    exact ⟨⟨h.feed.whole, h.feed.enqueue, h.feed.chain, fun hl => h.feed.last (hlive hl)⟩,
      ⟨fun hl => h.reader.caught (hlive hl), h.reader.front, h.reader.held, h.reader.removing,
        h.reader.flight, h.reader.restart, h.reader.log⟩⟩
  | @plain _ t pc' state trusted dropped activity hfrom hvalid hto hstate =>
    have hstreaming : state = .streaming → s.stream.state = .streaming := by
      intro hs
      rcases hstate with ⟨rfl, -⟩ | ⟨rfl, -⟩ | ⟨-, rfl | ⟨rfl, -⟩⟩
      · exact hs
      · cases hs
      · cases hs
      · cases hs
    obtain ⟨hflight, henqueues⟩ := inFlight_of_moves hto
    refine h.goto ⟨rfl, rfl, .of_eq rfl rfl rfl rfl, fun hs => .inl (hstreaming hs), ?_, henqueues,
      fun _ => rfl⟩ (.inl hsame) (.inl rfl) (fun _ => rfl) h.reader.log
      (fun y _ => ne_drainRemove (outside_of_source hfrom) y) ⟨hflight, .inl (outside_of_moves hto).2⟩
    rcases hfrom with hfrom | ⟨x, -, hw⟩
    · refine .inl ⟨fun x hx => ?_, hvalid⟩
      have henq := (plain_iff.mp hfrom).2.2
      rw [hx] at henq
      cases henq
    · exact .inr hw
  | connect hpc =>
    exact h.begin ⟨rfl, rfl, .flush rfl rfl, fun _ => .inr rfl, .inr rfl, rfl,
      fun hne => absurd rfl hne⟩ rfl (.inr rfl) (holds_free_of_drains (hcond.1 rfl).1) rfl
      ⟨fun _ => rfl, nofun⟩
  | disconnect hpc =>
    exact h.goto ⟨rfl, rfl, .flush rfl rfl, nofun, .inr rfl, rfl, fun _ => rfl⟩ (.inr ⟨rfl, rfl⟩)
      (.inl rfl) (fun _ => rfl) h.reader.log (fun _ _ => by rw [hpc]; nofun) ⟨rfl, .inl rfl⟩
  | @arrive frame hpc =>
    obtain ⟨hfeed, hlive⟩ := h.feed.arrive hb.admitted frame hpc (hcond.2.2.2 rfl)
    exact ⟨hfeed, h.reader.arrive hpc hlive⟩
  | @flush _ t pc' pending pendingGeneration nextGeneration dropped activity hfrom hto hdropped =>
    obtain ⟨hflight, henqueues⟩ := inFlight_of_moves hto
    have hdrains : Pc.drains (s.pc t) = false := by
      rcases hfrom with hfrom | ⟨x, hx⟩
      · exact (plain_iff.mp hfrom).1
      · rw [hx]
        rfl
    exact h.goto ⟨rfl, rfl, .flush rfl rfl, .inl, .inr rfl, henqueues, fun _ => rfl⟩
      (.inr ⟨rfl, rfl⟩) (.inl rfl) (fun _ => rfl) h.reader.log
      (fun y _ => ne_drainRemove hdrains y) ⟨hflight, .inl (outside_of_moves hto).2⟩
  | @append t ok x activity hpc hkey =>
    obtain rfl : t = net := eq_net_of_role (hb.roles t) (by rw [hpc]; rfl)
    exact ⟨h.feed.append hpc hkey, h.reader.append h.feed hpc hkey⟩
  | @startStream t ok activity hpc hstate hpending hresetting =>
    have hquiet := hb.quiet (.inr (.inr (by rw [hstate]; exact ⟨nofun, nofun⟩)))
    have hbegins : beginsReset s (.run t ok) := by simp only [beginsReset, hpc]
    refine h.begin ⟨rfl, rfl, .of_eq rfl rfl rfl rfl, fun _ => .inr hquiet.waiting,
      .inr hquiet.waiting, rfl, fun _ => rfl⟩ rfl (.inl rfl) (hcond.2.1 hbegins) rfl
      ⟨fun _ => hquiet.waiting, fun y hy => ?_⟩
    have hy' : y ∈ s.stream.queue.head? := hy
    rw [hquiet.queue] at hy'
    cases hy'
  | @formatAck t ok generation applied activity hpc hpending hresetting =>
    have hbegins : beginsReset s (.run t ok) := by simp only [beginsReset, hpc]
    exact h.begin ⟨rfl, rfl, .flush rfl rfl, .inl, .inr rfl, rfl, fun _ => rfl⟩ rfl (.inr rfl)
      (hcond.2.1 hbegins) rfl ⟨fun _ => rfl, nofun⟩
  | resetLock hpc hmutex =>
    exact h.move ⟨rfl, rfl, rfl⟩ hsame ⟨rfl, rfl, .inl rfl⟩ (source_of_pc hpc rfl nofun nofun)
      ⟨rfl, rfl, .inr (by rw [hpc]; rfl)⟩
  | @resetCall t ok consumer config generation connection after hpc =>
    have hfrom := source_of_pc hpc rfl nofun nofun
    cases consumer with
    | none =>
      exact h.move ⟨rfl, rfl, rfl⟩ hsame ⟨rfl, rfl, .inl rfl⟩ hfrom
        ⟨rfl, rfl, .inr (by rw [hpc]; rfl)⟩
    | some d =>
      exact ⟨h.feed.goto (steps_of_source rfl rfl ⟨rfl, rfl, rfl⟩ ⟨rfl, rfl⟩ hfrom rfl) (.inl rfl),
        h.reader.call h.feed hpc⟩
  | @resetClear t ok after hpc =>
    cases after <;>
      exact h.move ⟨rfl, rfl, rfl⟩ hsame ⟨rfl, rfl, .inl rfl⟩ (source_of_pc hpc rfl nofun nofun)
        ⟨rfl, rfl, .inl rfl⟩
  | @replaceReset t ok consumer hpc hmutex hstate hpending hresetting =>
    have hbegins : beginsReset s (.run t ok) := by simp only [beginsReset, hpc]
    have hfrom := source_of_pc hpc rfl nofun nofun
    exact h.begin ⟨rfl, rfl, .of_eq rfl rfl rfl rfl, .inl, .inl ⟨hfrom.1, hfrom.2.1⟩, rfl,
      fun _ => rfl⟩ rfl (.inl rfl) (hcond.2.1 hbegins) rfl
      (hcond.2.2.1 _ (replacing_run hpc) rfl)
  | @replace t ok consumer hpc hmutex hskip =>
    have hfrom := source_of_pc hpc rfl nofun nofun
    cases consumer with
    | none =>
      exact h.move ⟨rfl, rfl, rfl⟩ hsame ⟨rfl, rfl, .inr rfl⟩ hfrom ⟨rfl, rfl, .inl rfl⟩
    | some consumer =>
      have hbegins : beginsReset s (.run t ok) := by simp only [beginsReset, hpc]
      exact h.begin ⟨rfl, rfl, .of_eq rfl rfl rfl rfl, .inl, .inl ⟨hfrom.1, hfrom.2.1⟩, rfl,
        fun _ => rfl⟩ rfl (.inl rfl) (hcond.2.1 hbegins) rfl
        (hcond.2.2.1 _ (replacing_run hpc) rfl)
  | @drainBusy t ok hpc hdraining =>
    obtain ⟨h1, h2, h3⟩ := returnPc_playable t
    exact h.move ⟨rfl, rfl, rfl⟩ hsame ⟨rfl, rfl, .inl rfl⟩ (source_of_pc hpc rfl nofun nofun)
      ⟨h1, h2, .inl h3⟩
  | drainEnter hpc hdraining =>
    exact h.move ⟨rfl, rfl, rfl⟩ hsame ⟨rfl, rfl, .inl rfl⟩ (source_of_pc hpc rfl nofun nofun)
      ⟨rfl, rfl, .inl rfl⟩
  | @drainStop t ok hpc =>
    obtain ⟨h1, h2, h3⟩ := returnPc_playable t
    rcases hpc with hpc | hpc <;>
      exact h.move ⟨rfl, rfl, rfl⟩ hsame ⟨rfl, rfl, .inl rfl⟩ (source_of_pc hpc rfl nofun nofun)
        ⟨h1, h2, .inl h3⟩
  | @drainTake t ok queued rest consumer hpc hqueue hconsumer hresetting =>
    have hfeed : Feed (s.goto t (.consume queued consumer)) :=
      h.feed.goto (steps_of_source rfl rfl hsame ⟨rfl, rfl⟩ (source_of_pc hpc rfl nofun nofun) rfl)
        (.inl rfl)
    exact ⟨hfeed, h.reader.take hb hdrain hreset hpc hqueue hconsumer hresetting⟩
  | @consume t taken queued consumer hpc hmutex =>
    have hfrom := source_of_pc hpc rfl nofun nofun
    cases taken with
    | true =>
      exact ⟨h.feed.goto (steps_of_source rfl rfl hsame ⟨rfl, rfl⟩ hfrom rfl) (.inl rfl),
        h.reader.deliver hdrain h.feed hpc⟩
    | false =>
      have hlast : ∀ d, lastTaken d (s.record consumer (.consume queued false)).log =
          lastTaken d s.log := by
        intro d
        simp only [Sys.record, lastTaken, ite_self]
      exact h.goto (steps_of_source rfl rfl hsame ⟨rfl, rfl⟩ hfrom rfl) (.inl hsame) (.inl rfl)
        hlast ⟨(h.reader.held t queued consumer hpc).2, h.reader.log⟩ hfrom.2.2 ⟨rfl, .inl rfl⟩
  | @pop t ok queued front rest bytes depth hpc hqueue htoken =>
    obtain rfl : front = queued := hpipe.front_eq hpc hqueue htoken
    have hsuffix : rest <:+ s.stream.queue := by
      rw [hqueue]
      exact List.suffix_cons _ _
    have hs : Steps s { s with
        stream := { s.stream with queue := rest, queueBytes := bytes, queueDepth := depth } } t
        .drainTake :=
      ⟨rfl, rfl, .front hsuffix rfl id rfl, .inl,
        .inl ⟨fun _ => by rw [hpc]; nofun, by rw [hpc]; nofun⟩, rfl, fun _ => rfl⟩
    exact ⟨h.feed.goto hs (.inl rfl), h.reader.pop hdrain h.feed hpc hqueue hs⟩
  | @keep t ok queued depth hpc htoken =>
    refine h.move ⟨rfl, rfl, rfl⟩ hsame ⟨rfl, rfl, .inl rfl⟩
      ⟨fun _ => by rw [hpc]; nofun, by rw [hpc]; nofun, fun y hy => ?_⟩ ⟨rfl, rfl, .inl rfl⟩
    rw [hpc]
    rintro ⟨⟩
    exact htoken queued hy rfl

/-! ### Runs -/

theorem playable_start (cfg : SessionConfig) (consumer : Option ConsumerId) :
    Playable (.start cfg consumer) := by
  refine ⟨⟨nofun, fun x hx => ?_, .nil, fun _ => nofun⟩, ⟨fun hl => ?_, fun _ _ => nofun,
    fun t q d ht => ?_, fun t q ht => ?_, fun t q ht => ?_, fun t ht => ?_, trivial⟩⟩
  · rw [pc_start] at hx
    cases hx
  · have hwaiting := hl.waiting
    cases hwaiting
  · rw [pc_start] at ht
    cases ht
  · rw [pc_start] at ht
    cases ht
  · rw [pc_start] at ht
    cases ht
  · rw [pc_start] at ht
    cases ht

/-- **A consumer can decode what it is given.** In every run whose steps leave room for a keyframe,
the first unit after a reset is a self-contained keyframe, and every other one is a keyframe or the
successor of the unit the consumer took before it. -/
theorem decodable_of_run (cfg : SessionConfig) (consumer : Option ConsumerId) (as : List Action)
    (h : (controller cfg).Legal fromKeyframe (.start cfg consumer) as) :
    Decodable ((controller cfg).exec (.start cfg consumer) as).log := by
  have hinv : Base ((controller cfg).exec (.start cfg consumer) as) ∧
      OneDrainer ((controller cfg).exec (.start cfg consumer) as) ∧
      OneReset ((controller cfg).exec (.start cfg consumer) as) ∧
      Pipeline ((controller cfg).exec (.start cfg consumer) as) ∧
      Playable ((controller cfg).exec (.start cfg consumer) as) := by
    refine h.invariant (I := fun s => Base s ∧ OneDrainer s ∧ OneReset s ∧ Pipeline s ∧ Playable s)
      ⟨base_start cfg consumer, oneDrainer_start cfg consumer, oneReset_start cfg consumer,
        pipeline_start cfg consumer, playable_start cfg consumer⟩ ?_
    rintro s a ⟨hb, hdrain, hreset, hpipe, hplay⟩ he hcond
    have e := next_effect cfg he
    have hdrained : drainedBefore s a := fun ha => (hcond.1 ha).1
    exact ⟨base_next hb he, oneDrainer_effect hdrain e hdrained,
      oneReset_effect hb hreset e fun ha => (hcond.1 ha).2, pipeline_effect hb hdrain hpipe e hdrained,
      playable_effect hb hdrain hreset hpipe hplay e hcond⟩
  exact hinv.2.2.2.2.reader.log

/-- A keyframe is taken and a delta refused; a format change that cannot be sent flushes the queue,
and another consumer is put in place while a keyframe is waited for. -/
def startedWithKeyframe : List Action :=
  bringUp ++ video keyframeSample ++ steps net [true, true, true, true, true] ++
    video deltaSample ++ steps net [true, true, false, true] ++
    [.call 2 (.sendFormat {}), .run 2 false, .call 1 (.setConsumer (some 2))] ++
    steps 1 [true, true, true, true, true, true] ++ video keyframeSample ++
    steps net [true, true, true, true, true]

theorem decodable_of_startedWithKeyframe :
    (controller {}).Legal fromKeyframe (.start {} (some 1)) startedWithKeyframe ∧
      Decodable ((controller {}).exec (.start {} (some 1)) startedWithKeyframe).log := by
  have hlegal : (controller {}).Legal fromKeyframe (.start {} (some 1)) startedWithKeyframe := by
    decide
  exact ⟨hlegal, decodable_of_run {} (some 1) startedWithKeyframe hlegal⟩

/-- Another consumer is put in place after a keyframe was delivered; it is reset, and what it is
given first is the delta that comes next. -/
def startedWithDelta : List Action :=
  bringUp ++ video keyframeSample ++ steps net [true, true, true, true, true] ++
    [.call 1 (.setConsumer (some 2))] ++ steps 1 [true, true, true, true, true, true] ++
    video deltaSample ++ steps net [true, true, true]

theorem not_decodable_of_startedWithDelta :
    ∃ as, (controller {}).Legal (fun _ _ => True) (.start {} (some 1)) as ∧
      ¬ Decodable ((controller {}).exec (.start {} (some 1)) as).log :=
  ⟨startedWithDelta, by decide, by decide⟩

end RemoteCam.Backend.Decoding
