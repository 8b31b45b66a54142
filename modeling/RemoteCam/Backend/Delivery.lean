import RemoteCam.Backend.Invariants

/-! # Delivery

Units leave the queue for a consumer in the order they came, each once, and any other way out is
counted. `drainQueue` removes the unit it has consumed by its token, and tokens start again with
each connection: a thread that is still draining when the next connection begins can remove a unit
of that one. -/

namespace RemoteCam.Backend.Delivery

open RemoteCam.Lib.Threads RemoteCam.Lib.Transitions RemoteCam.Backend.Session
open RemoteCam.Backend.Effects RemoteCam.Backend.Invariants

variable {cfg : SessionConfig} {s s' : Sys} {a : Action}

/-! ### What is asked for -/

def Event.delivery (e : Event) : Option ℕ :=
  match e.callback with
  | .consume queued true => some queued.arrival
  | _ => none

/-- The arrivals of the units that consumers took, the newest first. -/
def delivered (log : List Event) : List ℕ := log.filterMap Event.delivery

/-- A unit that a step takes out of the queue was consumed, or the queue is flushed and counted. -/
def Accounted (s s' : Sys) : Prop :=
  ∀ x ∈ s.stream.queue, x ∈ s'.stream.queue ∨ (∃ e ∈ s.log, e.callback = .consume x true) ∨
    s'.stream.queue = [] ∧
      s.stream.droppedFrames + s.stream.queue.length ≤ s'.stream.droppedFrames

instance (s s' : Sys) : Decidable (Accounted s s') := by unfold Accounted; infer_instance

/-- Units are delivered in the order of their arrival, each once, the queue holds the later ones in
that order, and whatever step comes next accounts for the units it removes. -/
structure Orderly (cfg : SessionConfig) (s : Sys) : Prop where
  inOrder : (delivered s.log).Pairwise (· > ·)
  queued : (s.stream.queue.map (·.arrival)).Pairwise (· < ·)
  accounted : ∀ a, enabled s a → Accounted s (next cfg s a)

/-- A connection begins when no thread is left in the loop of `drainQueue`. -/
def drainedBefore (s : Sys) (a : Action) : Prop := a = .connect → s.Free Pc.drains

instance (s : Sys) (a : Action) : Decidable (drainedBefore s a) := by
  unfold drainedBefore; infer_instance

/-! ### The invariant -/

/-- The unit a draining thread has copied from the front of the queue. -/
def Pc.inFlight : Pc → Option QueuedAccessUnit
  | .consume queued _ | .drainRemove queued => some queued
  | _ => none

def Before (x y : QueuedAccessUnit) : Prop := x.token < y.token ∧ x.arrival < y.arrival

/-- Arrived before the unit that is about to be appended, if there is one. -/
def Older (s : Sys) (arrival : ℕ) : Prop :=
  arrival < s.arrivals ∧ ∀ x, s.pc net = .videoEnqueue x → arrival < x.arrival

structure Pipeline (s : Sys) : Prop where
  enqueue : ∀ x, s.pc net = .videoEnqueue x → x.arrival < s.arrivals
  sorted : s.stream.queue.Pairwise Before
  queued : ∀ x ∈ s.stream.queue, x.token < s.stream.nextQueueToken ∧ Older s x.arrival
  flight : ∀ t q, Pc.inFlight (s.pc t) = some q →
    (q.token < s.stream.nextQueueToken ∧ Older s q.arrival) ∧
      (s.stream.queue.head? = some q ∨ ∀ x ∈ s.stream.queue, Before q x)
  consuming : ∀ t q c, s.pc t = .consume q c → ∀ n ∈ delivered s.log, n < q.arrival
  removing : ∀ t q, s.pc t = .drainRemove q → ∃ e ∈ s.log, e.callback = .consume q true
  fresh : ∀ n ∈ delivered s.log,
    Older s n ∧ ∀ x ∈ s.stream.queue, n < x.arrival ∨ ∃ t, s.pc t = .drainRemove x
  inOrder : (delivered s.log).Pairwise (· > ·)

theorem Older.goto {s₁ : Sys} {t : Thread} {pc : Pc} {n : ℕ} (h : Older s n)
    (hpool : s₁.pool = s.pool) (harrivals : s₁.arrivals = s.arrivals)
    (hpc : Pc.enqueues pc = false) : Older (s₁.goto t pc) n := by
  refine ⟨harrivals ▸ h.1, fun x hx => h.2 x (pc_of_goto hpool hx ?_)⟩
  rintro rfl
  cases hpc

/-- A step that copies nothing from the queue and appends nothing to it. A thread may give up a unit
it has consumed if that is no longer queued. -/
theorem Pipeline.goto {s₁ : Sys} {t : Thread} {pc : Pc} (h : Pipeline s) (hpool : s₁.pool = s.pool)
    (hqueue : s₁.stream.queue = s.stream.queue ∨ s₁.stream.queue = [])
    (htoken : s₁.stream.nextQueueToken = s.stream.nextQueueToken)
    (harrivals : s₁.arrivals = s.arrivals)
    (hlog : delivered s₁.log = delivered s.log ∧ ∀ e ∈ s.log, e ∈ s₁.log)
    (hfrom : ∀ x ∈ s.stream.queue, s.pc t ≠ .drainRemove x)
    (hto : Pc.inFlight pc = none ∧ Pc.enqueues pc = false) : Pipeline (s₁.goto t pc) := by
  have hmem : ∀ x ∈ s₁.stream.queue, x ∈ s.stream.queue := by
    intro x hx
    rcases hqueue with hq | hq
    · rwa [← hq]
    · rw [hq] at hx
      cases hx
  have holder : ∀ {n}, Older s n → Older (s₁.goto t pc) n := fun hn =>
    hn.goto hpool harrivals hto.2
  have hpc : ∀ {u x}, (s₁.goto t pc).pc u = x → (Pc.inFlight x ≠ none ∨ Pc.enqueues x) →
      s.pc u = x := by
    rintro u x hx hne
    refine pc_of_goto hpool hx ?_
    rintro rfl
    rcases hne with hne | hne
    · exact hne hto.1
    · rw [hto.2] at hne
      cases hne
  refine ⟨fun x hx => ?_, ?_, fun x hx => ?_, fun u q hu => ?_, fun u q c hu => ?_,
    fun u q hu => ?_, fun n hn => ?_, ?_⟩
  · have hbefore := h.enqueue x (hpc hx (.inr rfl))
    exact harrivals ▸ hbefore
  · rcases hqueue with hq | hq
    · rw [stream_goto, hq]
      exact h.sorted
    · rw [stream_goto, hq]
      exact .nil
  · obtain ⟨h1, h2⟩ := h.queued x (hmem x hx)
    exact ⟨htoken ▸ h1, holder h2⟩
  · have hsame : s.pc u = (s₁.goto t pc).pc u := hpc rfl (.inl (by rw [hu]; nofun))
    obtain ⟨⟨h1, h2⟩, h3⟩ := h.flight u q (by rw [hsame, hu])
    refine ⟨⟨htoken ▸ h1, holder h2⟩, ?_⟩
    rcases hqueue with hq | hq
    · rw [stream_goto, hq]
      exact h3
    · rw [stream_goto, hq]
      exact .inr nofun
  · rw [log_goto, hlog.1]
    exact h.consuming u q c (hpc hu (.inl nofun))
  · obtain ⟨e, he, hq⟩ := h.removing u q (hpc hu (.inl nofun))
    exact ⟨e, hlog.2 e he, hq⟩
  · rw [log_goto, hlog.1] at hn
    obtain ⟨h1, h2⟩ := h.fresh n hn
    refine ⟨holder h1, fun x hx => ?_⟩
    rcases h2 x (hmem x hx) with h3 | ⟨u, hu⟩
    · exact .inl h3
    · exact .inr ⟨u, pc_goto_of_pc hpool hu (hfrom x (hmem x hx))⟩
  · rw [log_goto, hlog.1]
    exact h.inOrder

theorem inFlight_of_outside {pc : Pc} (h : Pc.drains pc = false) : Pc.inFlight pc = none := by
  cases pc <;> trivial

theorem inFlight_of_moves {t : Thread} {pc' : Pc} (h : Moves s t pc') :
    Pc.inFlight pc' = none ∧ Pc.enqueues pc' = false :=
  ⟨inFlight_of_outside (outside_of_moves h).1, (plain_iff.mp h.plain).2.2⟩

theorem ne_drainRemove {pc : Pc} (h : Pc.drains pc = false) (x : QueuedAccessUnit) :
    pc ≠ .drainRemove x := by
  rintro rfl
  cases h

/-- A step from outside the drain loop, to a place where nothing is appended. -/
theorem Pipeline.goto_of_outside {s₁ : Sys} {t : Thread} {pc : Pc} (h : Pipeline s)
    (hpool : s₁.pool = s.pool)
    (hqueue : s₁.stream.queue = s.stream.queue ∨ s₁.stream.queue = [])
    (htoken : s₁.stream.nextQueueToken = s.stream.nextQueueToken)
    (harrivals : s₁.arrivals = s.arrivals) (hlog : s₁.log = s.log)
    (hfrom : Pc.drains (s.pc t) = false) (hto : Pc.inFlight pc = none ∧ Pc.enqueues pc = false) :
    Pipeline (s₁.goto t pc) :=
  h.goto hpool hqueue htoken harrivals ⟨by rw [hlog], fun _ he => hlog ▸ he⟩
    (fun x _ => ne_drainRemove hfrom x) hto

theorem outside_of_source {pc : Pc} {P : Arrived → Prop}
    (h : Pc.plain pc ∨ ∃ x, pc = .videoEnqueue x ∧ P x) : Pc.drains pc = false := by
  rcases h with h | ⟨x, rfl, -⟩
  · exact (plain_iff.mp h).1
  · rfl

/-- A frame arrives: the unit it may lead to is newer than all that came before. -/
theorem Pipeline.arrive (h : Pipeline s) {frame : VideoFrame} (hpc : s.pc net = .serving) :
    Pipeline ({ s with arrivals := s.arrivals + 1 }.goto net
      (videoPc s.stream frame s.arrivals)) := by
  set pc := videoPc s.stream frame s.arrivals with hvideo
  have hflight : Pc.inFlight pc = none := inFlight_of_outside (videoPc_outside _ _ _).1
  have harrival : ∀ x, pc = .videoEnqueue x → x.arrival = s.arrivals := fun x hx =>
    (videoPc_enqueue (hvideo ▸ hx)).2.2.2.2.2.2.1
  set s₁ : Sys := { s with arrivals := s.arrivals + 1 }
  have hnet : (s₁.goto net pc).pc net = pc := pc_goto_self _ _ _
  have holder : ∀ {n}, Older s n → Older (s₁.goto net pc) n := by
    intro n hn
    refine ⟨Nat.lt_succ_of_lt hn.1, fun x hx => ?_⟩
    rw [harrival x (hnet ▸ hx)]
    exact hn.1
  have hback : ∀ {u x}, (s₁.goto net pc).pc u = x → Pc.inFlight x ≠ none → s.pc u = x := by
    rintro u x hx hne
    refine pc_of_goto rfl hx ?_
    rintro rfl
    exact hne hflight
  refine ⟨fun x hx => ?_, h.sorted, fun x hx => ?_, fun u q hu => ?_, fun u q c hu => ?_,
    fun u q hu => ?_, fun n hn => ?_, h.inOrder⟩
  · rw [harrival x (hnet ▸ hx)]
    exact Nat.lt_succ_self _
  · exact ⟨(h.queued x hx).1, holder (h.queued x hx).2⟩
  · have hsame : s.pc u = (s₁.goto net pc).pc u := hback rfl (by rw [hu]; nofun)
    obtain ⟨⟨h1, h2⟩, h3⟩ := h.flight u q (by rw [hsame, hu])
    exact ⟨⟨h1, holder h2⟩, h3⟩
  · exact h.consuming u q c (hback hu nofun)
  · exact h.removing u q (hback hu nofun)
  · obtain ⟨h1, h2⟩ := h.fresh n hn
    refine ⟨holder h1, fun x hx => ?_⟩
    rcases h2 x hx with h3 | ⟨u, hu⟩
    · exact .inl h3
    · exact .inr ⟨u, pc_goto_of_pc (s := s) rfl hu (by rw [hpc]; nofun)⟩

/-- The unit that was about to be appended is newer than all others. -/
theorem Pipeline.append (h : Pipeline s) {x : Arrived} {activity : Activity}
    (hpc : s.pc net = .videoEnqueue x) :
    Pipeline ({ s with
      stream := { s.stream with waitingForKeyframe := false }.append x, activity }.goto net
        .drainEnter) := by
  set s₁ : Sys := { s with
    stream := { s.stream with waitingForKeyframe := false }.append x, activity }
  have hnet : (s₁.goto net .drainEnter).pc net = .drainEnter := pc_goto_self _ _ _
  have holder : ∀ {n}, n < s.arrivals → Older (s₁.goto net .drainEnter) n := fun hn =>
    ⟨hn, fun y hy => by rw [hnet] at hy; cases hy⟩
  have hback : ∀ {u y}, (s₁.goto net .drainEnter).pc u = y → Pc.inFlight y ≠ none →
      s.pc u = y := by
    rintro u y hy hne
    refine pc_of_goto rfl hy ?_
    rintro rfl
    exact hne rfl
  have hqueue : (s₁.goto net .drainEnter).stream.queue =
      s.stream.queue ++ [{ x with token := s.stream.nextQueueToken }] := rfl
  have hlast : ∀ {y}, y ∈ s.stream.queue → Before y { x with token := s.stream.nextQueueToken } :=
    fun hy => ⟨(h.queued _ hy).1, (h.queued _ hy).2.2 x hpc⟩
  refine ⟨fun y hy => ?_, ?_, fun y hy => ?_, fun u q hu => ?_, fun u q c hu => ?_,
    fun u q hu => ?_, fun n hn => ?_, h.inOrder⟩
  · rw [hnet] at hy
    cases hy
  · rw [hqueue, List.pairwise_append]
    refine ⟨h.sorted, List.pairwise_singleton _ _, fun y hy z hz => ?_⟩
    rw [List.mem_singleton.mp hz]
    exact hlast hy
  · rw [hqueue] at hy
    rcases List.mem_append.mp hy with hy | hy
    · exact ⟨Nat.lt_succ_of_lt (h.queued y hy).1, holder (h.queued y hy).2.1⟩
    · rw [List.mem_singleton.mp hy]
      exact ⟨Nat.lt_succ_self _, holder (h.enqueue x hpc)⟩
  · have hsame : s.pc u = (s₁.goto net .drainEnter).pc u := hback rfl (by rw [hu]; nofun)
    obtain ⟨⟨h1, h2⟩, h3⟩ := h.flight u q (by rw [hsame, hu])
    refine ⟨⟨Nat.lt_succ_of_lt h1, holder h2.1⟩, ?_⟩
    rw [hqueue]
    rcases h3 with h3 | h3
    · left
      rw [List.head?_append, h3]
      rfl
    · right
      intro y hy
      rcases List.mem_append.mp hy with hy | hy
      · exact h3 y hy
      · rw [List.mem_singleton.mp hy]
        exact ⟨h1, h2.2 x hpc⟩
  · exact h.consuming u q c (hback hu nofun)
  · exact h.removing u q (hback hu nofun)
  · obtain ⟨h1, h2⟩ := h.fresh n hn
    refine ⟨holder h1.1, fun y hy => ?_⟩
    rw [hqueue] at hy
    rcases List.mem_append.mp hy with hy | hy
    · rcases h2 y hy with h3 | ⟨u, hu⟩
      · exact .inl h3
      · exact .inr ⟨u, pc_goto_of_pc (s := s) rfl hu (by rw [hpc]; nofun)⟩
    · rw [List.mem_singleton.mp hy]
      exact .inl (h1.2 x hpc)

/-! ### The drain loop -/

/-- The thread at the head of the loop copies the front of the queue. -/
theorem Pipeline.take (h : Pipeline s) (hone : OneDrainer s) {t : Thread} {q : QueuedAccessUnit}
    {rest : List QueuedAccessUnit} {consumer : ConsumerId} (hpc : s.pc t = .drainTake)
    (hqueue : s.stream.queue = q :: rest) : Pipeline (s.goto t (.consume q consumer)) := by
  have ht : Pc.drains (s.pc t) := by rw [hpc]; rfl
  have hq : q ∈ s.stream.queue := by rw [hqueue]; exact List.mem_cons_self
  have hback : ∀ {u x}, (s.goto t (.consume q consumer)).pc u = x → Pc.consume q consumer ≠ x →
      s.pc u = x := fun hx hne => pc_of_goto rfl hx hne
  have halone : ∀ {u}, Pc.drains (s.pc u) → u = t := fun hu => hone.alone hu ht
  have holder : ∀ {n}, Older s n → Older (s.goto t (.consume q consumer)) n := fun hn =>
    hn.goto rfl rfl rfl
  have hfresh : ∀ n ∈ Delivery.delivered s.log, ∀ x ∈ s.stream.queue, n < x.arrival := by
    intro n hn x hx
    rcases (h.fresh n hn).2 x hx with h1 | ⟨u, hu⟩
    · exact h1
    · obtain rfl : u = t := halone (by rw [hu]; rfl)
      rw [hpc] at hu
      cases hu
  refine ⟨fun x hx => h.enqueue x (hback hx nofun), h.sorted,
    fun x hx => ⟨(h.queued x hx).1, holder (h.queued x hx).2⟩, fun u q' hu => ?_,
    fun u q' c hu n hn => ?_, fun u q' hu => ?_, fun n hn => ?_, h.inOrder⟩
  · rw [pc_goto] at hu
    split_ifs at hu with hut
    · cases hu
      exact ⟨⟨(h.queued q hq).1, holder (h.queued q hq).2⟩, .inl (by rw [stream_goto, hqueue]; rfl)⟩
    · obtain ⟨⟨h1, h2⟩, h3⟩ := h.flight u q' hu
      exact ⟨⟨h1, holder h2⟩, h3⟩
  · rw [pc_goto] at hu
    split_ifs at hu with hut
    · cases hu
      exact hfresh n hn q hq
    · exact h.consuming u q' c hu n hn
  · exact h.removing u q' (hback hu nofun)
  · exact ⟨holder (h.fresh n hn).1, fun x hx => .inl (hfresh n hn x hx)⟩

/-- The unit in flight is delivered; it may still be the front of the queue. -/
theorem Pipeline.deliver (h : Pipeline s) (hone : OneDrainer s) {t : Thread} {q : QueuedAccessUnit}
    {consumer : ConsumerId} (hpc : s.pc t = .consume q consumer) :
    Pipeline ((s.record consumer (.consume q true)).goto t (.drainRemove q)) := by
  set s₁ := s.record consumer (.consume q true)
  have ht : Pc.drains (s.pc t) := by rw [hpc]; rfl
  have halone : ∀ {u}, Pc.drains (s.pc u) → u = t := fun hu => hone.alone hu ht
  have hback : ∀ {u x}, (s₁.goto t (.drainRemove q)).pc u = x → Pc.drainRemove q ≠ x →
      s.pc u = x := fun hx hne => pc_of_goto rfl hx hne
  have hforth : (s₁.goto t (.drainRemove q)).pc t = .drainRemove q := pc_goto_self _ _ _
  have holder : ∀ {n}, Older s n → Older (s₁.goto t (.drainRemove q)) n := fun hn =>
    hn.goto rfl rfl rfl
  obtain ⟨⟨htoken, hold⟩, hplace⟩ := h.flight t q (by rw [hpc]; rfl)
  refine ⟨fun x hx => h.enqueue x (hback hx nofun), h.sorted,
    fun x hx => ⟨(h.queued x hx).1, holder (h.queued x hx).2⟩, fun u q' hu => ?_,
    fun u q' c hu n hn => ?_, fun u q' hu => ?_, fun n hn => ?_, ?_⟩
  · rw [pc_goto] at hu
    split_ifs at hu with hut
    · cases hu
      exact ⟨⟨htoken, holder hold⟩, hplace⟩
    · obtain ⟨⟨h1, h2⟩, h3⟩ := h.flight u q' hu
      exact ⟨⟨h1, holder h2⟩, h3⟩
  · have hold' := hback hu nofun
    obtain rfl : u = t := halone (by rw [hold']; rfl)
    rw [hforth] at hu
    cases hu
  · rw [pc_goto] at hu
    split_ifs at hu with hut
    · cases hu
      exact ⟨_, List.mem_cons_self, rfl⟩
    · obtain ⟨e, he, hq⟩ := h.removing u q' hu
      exact ⟨e, List.mem_cons_of_mem _ he, hq⟩
  · rcases List.mem_cons.mp hn with rfl | hn
    · refine ⟨holder hold, fun x hx => ?_⟩
      rcases hplace with hhead | hafter
      · obtain ⟨rest, hqueue⟩ := List.head?_eq_some_iff.mp hhead
        rw [stream_goto] at hx
        change x ∈ s.stream.queue at hx
        have hsorted := h.sorted
        rw [hqueue] at hx hsorted
        rcases List.mem_cons.mp hx with rfl | hx
        · exact .inr ⟨t, hforth⟩
        · exact .inl ((List.pairwise_cons.mp hsorted).1 x hx).2
      · exact .inl (hafter x hx).2
    · refine ⟨holder (h.fresh n hn).1, fun x hx => ?_⟩
      rcases (h.fresh n hn).2 x hx with h1 | ⟨u, hu⟩
      · exact .inl h1
      · obtain rfl : u = t := halone (by rw [hu]; rfl)
        rw [hpc] at hu
        cases hu
  · exact List.pairwise_cons.mpr ⟨fun n hn => h.consuming t q consumer hpc n hn, h.inOrder⟩

/-- With the token of the front, the unit in flight is the front. -/
theorem Pipeline.front_eq (h : Pipeline s) {t : Thread} {q front : QueuedAccessUnit}
    {rest : List QueuedAccessUnit} (hpc : s.pc t = .drainRemove q)
    (hqueue : s.stream.queue = front :: rest) (htoken : front.token = q.token) : front = q := by
  rcases (h.flight t q (by rw [hpc]; rfl)).2 with hhead | hafter
  · rw [hqueue] at hhead
    exact Option.some.inj hhead
  · have hlt := (hafter front (by rw [hqueue]; exact List.mem_cons_self)).1
    omega

/-- The unit just delivered leaves the queue. -/
theorem Pipeline.pop (h : Pipeline s) (hone : OneDrainer s) {t : Thread} {q : QueuedAccessUnit}
    {rest : List QueuedAccessUnit} {bytes depth : ℕ} (hpc : s.pc t = .drainRemove q)
    (hqueue : s.stream.queue = q :: rest) :
    Pipeline ({ s with
      stream := { s.stream with queue := rest, queueBytes := bytes, queueDepth := depth } }.goto t
        .drainTake) := by
  set s₁ : Sys := { s with
    stream := { s.stream with queue := rest, queueBytes := bytes, queueDepth := depth } }
  have ht : Pc.drains (s.pc t) := by rw [hpc]; rfl
  have hback : ∀ {u x}, (s₁.goto t .drainTake).pc u = x → Pc.drainTake ≠ x →
      s.pc u = x := fun hx hne => pc_of_goto rfl hx hne
  have hnone : ∀ {u x}, (s₁.goto t .drainTake).pc u = x → Pc.inFlight x = none := by
    intro u x hx
    cases hflight : Pc.inFlight x with
    | none => rfl
    | some y =>
      have hold : s.pc u = x := hback hx (by rintro rfl; cases hflight)
      obtain rfl : u = t := by
        refine hone.alone ?_ ht
        rw [hold]
        cases x <;> first | rfl | cases hflight
      rw [pc_goto_self] at hx
      cases hx
      cases hflight
  have hsorted := h.sorted
  rw [hqueue, List.pairwise_cons] at hsorted
  have hmem : ∀ x ∈ rest, x ∈ s.stream.queue := fun x hx => by
    rw [hqueue]
    exact List.mem_cons_of_mem _ hx
  have holder : ∀ {n}, Older s n → Older (s₁.goto t .drainTake) n := fun hn => hn.goto rfl rfl rfl
  refine ⟨fun x hx => h.enqueue x (hback hx nofun), hsorted.2,
    fun x hx => ⟨(h.queued x (hmem x hx)).1, holder (h.queued x (hmem x hx)).2⟩,
    fun u q' hu => ?_, fun u q' c hu => ?_, fun u q' hu => ?_, fun n hn => ?_, h.inOrder⟩
  · rw [hnone rfl] at hu
    cases hu
  · have hflight := hnone hu
    cases hflight
  · have hflight := hnone hu
    cases hflight
  · refine ⟨holder (h.fresh n hn).1, fun x hx => ?_⟩
    rcases (h.fresh n hn).2 x (hmem x hx) with h1 | ⟨u, hu⟩
    · exact .inl h1
    · obtain rfl : u = t := hone.alone (by rw [hu]; rfl) ht
      rw [hpc] at hu
      cases hu
      exact absurd (hsorted.1 q hx).1 (Nat.lt_irrefl _)

/-- A connection begins with an empty queue, and tokens start again. -/
theorem Pipeline.connect (h : Pipeline s) (hdrained : s.Free Pc.drains) :
    Pipeline (onConnected cfg s) := by
  have hnone : ∀ u, Pc.inFlight ((onConnected cfg s).pc u) = none := by
    intro u
    refine inFlight_of_outside ?_
    by_cases hu : u = net
    · rw [hu, onConnected, pc_goto_self]
      rfl
    · rw [onConnected, pc_goto_of_ne _ hu]
      exact hdrained u
  have holder : ∀ {n}, Older s n → Older (onConnected cfg s) n := fun hn => hn.goto rfl rfl rfl
  have hempty : ∀ {P : QueuedAccessUnit → Prop}, ∀ x ∈ (onConnected cfg s).stream.queue, P x :=
    fun x hx => absurd hx List.not_mem_nil
  refine ⟨fun x hx => ?_, .nil, hempty, fun u q hu => ?_, fun u q c hu => ?_, fun u q hu => ?_,
    fun n hn => ⟨holder (h.fresh n hn).1, hempty⟩, h.inOrder⟩
  · rw [onConnected, pc_goto_self] at hx
    cases hx
  · rw [hnone u] at hu
    cases hu
  · have hflight := hnone u
    rw [hu] at hflight
    cases hflight
  · have hflight := hnone u
    rw [hu] at hflight
    cases hflight

theorem returnPc_outOfFlight (t : Thread) :
    Pc.inFlight (returnPc t) = none ∧ Pc.enqueues (returnPc t) = false := by
  unfold returnPc
  split_ifs <;> exact ⟨rfl, rfl⟩

theorem pipeline_effect (hb : Base s) (hone : OneDrainer s) (h : Pipeline s)
    (e : Effect cfg s a s') (hcond : drainedBefore s a) : Pipeline s' := by
  cases e with
  | still hstate =>
    exact ⟨h.enqueue, h.sorted, h.queued, h.flight, h.consuming, h.removing, h.fresh, h.inOrder⟩
  | plain hfrom hvalid hto hstate =>
    exact h.goto_of_outside rfl (.inl rfl) rfl rfl rfl (outside_of_source hfrom)
      (inFlight_of_moves hto)
  | connect hpc => exact h.connect (hcond rfl)
  | disconnect hpc =>
    exact h.goto_of_outside rfl (.inr rfl) rfl rfl rfl (by rw [hpc]; rfl) ⟨rfl, rfl⟩
  | arrive hpc => exact h.arrive hpc
  | flush hfrom hto hdropped =>
    refine h.goto_of_outside rfl (.inr rfl) rfl rfl rfl ?_ (inFlight_of_moves hto)
    rcases hfrom with hfrom | ⟨x, hx⟩
    · exact (plain_iff.mp hfrom).1
    · rw [hx]
      rfl
  | @append t ok x activity hpc hkey =>
    obtain rfl : t = net := eq_net_of_role (hb.roles t) (by rw [hpc]; rfl)
    exact h.append hpc
  | startStream hpc hstate hpending hresetting =>
    exact h.goto_of_outside rfl (.inl rfl) rfl rfl rfl (by rw [hpc]; rfl) ⟨rfl, rfl⟩
  | formatAck hpc hpending hresetting =>
    exact h.goto_of_outside rfl (.inr rfl) rfl rfl rfl (by rw [hpc]; rfl) ⟨rfl, rfl⟩
  | resetLock hpc hmutex =>
    exact h.goto_of_outside rfl (.inl rfl) rfl rfl rfl (by rw [hpc]; rfl) ⟨rfl, rfl⟩
  | @resetCall t ok consumer config generation connection after hpc =>
    have hfrom : ∀ x ∈ s.stream.queue, s.pc t ≠ .drainRemove x := fun _ _ => by rw [hpc]; nofun
    cases consumer with
    | none => exact h.goto rfl (.inl rfl) rfl rfl ⟨rfl, fun _ he => he⟩ hfrom ⟨rfl, rfl⟩
    | some consumer =>
      exact h.goto rfl (.inl rfl) rfl rfl ⟨rfl, fun _ he => List.mem_cons_of_mem _ he⟩ hfrom
        ⟨rfl, rfl⟩
  | @resetClear t ok after hpc =>
    cases after <;>
      exact h.goto_of_outside rfl (.inl rfl) rfl rfl rfl (by rw [hpc]; rfl) ⟨rfl, rfl⟩
  | replaceReset hpc hmutex hstate hpending hresetting =>
    exact h.goto_of_outside rfl (.inl rfl) rfl rfl rfl (by rw [hpc]; rfl) ⟨rfl, rfl⟩
  | replace hpc hmutex hskip =>
    exact h.goto_of_outside rfl (.inl rfl) rfl rfl rfl (by rw [hpc]; rfl) ⟨rfl, rfl⟩
  | drainBusy hpc hdraining =>
    exact h.goto_of_outside rfl (.inl rfl) rfl rfl rfl (by rw [hpc]; rfl) (returnPc_outOfFlight _)
  | drainEnter hpc hdraining =>
    exact h.goto_of_outside rfl (.inl rfl) rfl rfl rfl (by rw [hpc]; rfl) ⟨rfl, rfl⟩
  | drainStop hpc =>
    refine h.goto rfl (.inl rfl) rfl rfl ⟨rfl, fun _ he => he⟩ (fun _ _ => ?_)
      (returnPc_outOfFlight _)
    rcases hpc with hpc | hpc <;> rw [hpc] <;> nofun
  | drainTake hpc hqueue hconsumer hresetting => exact h.take hone hpc hqueue
  | @consume t taken queued consumer hpc hmutex =>
    cases taken with
    | true => exact h.deliver hone hpc
    | false =>
      exact h.goto rfl (.inl rfl) rfl rfl ⟨rfl, fun _ he => List.mem_cons_of_mem _ he⟩
        (fun _ _ => by rw [hpc]; nofun) ⟨rfl, rfl⟩
  | @pop t ok queued front rest bytes depth hpc hqueue htoken =>
    obtain rfl : front = queued := h.front_eq hpc hqueue htoken
    exact h.pop hone hpc hqueue
  | @keep t ok queued depth hpc htoken =>
    refine h.goto rfl (.inl rfl) rfl rfl ⟨rfl, fun _ he => he⟩ (fun x hx => ?_) ⟨rfl, rfl⟩
    rw [hpc]
    rintro ⟨⟩
    rcases (h.flight t queued (by rw [hpc]; rfl)).2 with hhead | hafter
    · exact htoken queued hhead rfl
    · exact absurd (hafter queued hx).1 (Nat.lt_irrefl _)

/-! ### Runs -/

theorem pipeline_start (cfg : SessionConfig) (consumer : Option ConsumerId) :
    Pipeline (.start cfg consumer) := by
  refine ⟨fun x hx => ?_, .nil, nofun, fun t q ht => ?_, fun t q c ht => ?_, fun t q ht => ?_, nofun,
    .nil⟩
  · rw [pc_start] at hx
    cases hx
  · rw [pc_start] at ht
    cases ht
  · rw [pc_start] at ht
    cases ht
  · rw [pc_start] at ht
    cases ht

/-- A step that only appends to the queue. -/
theorem accounted_of_subset (h : s.stream.queue ⊆ s'.stream.queue) : Accounted s s' :=
  fun _ hx => .inl (h hx)

/-- A step that flushes the queue. -/
theorem accounted_of_flush (hqueue : s'.stream.queue = [])
    (hdropped : s.stream.droppedFrames + s.stream.queue.length ≤ s'.stream.droppedFrames) :
    Accounted s s' := fun _ _ => .inr (.inr ⟨hqueue, hdropped⟩)

theorem accounted_effect (hb : Base s) (h : Pipeline s) (e : Effect cfg s a s') :
    Accounted s s' := by
  have hsame : s.stream.queue ⊆ s.stream.queue := List.Subset.refl _
  cases e with
  | still hstate => exact accounted_of_subset hsame
  | plain hfrom hvalid hto hstate => exact accounted_of_subset hsame
  | connect hpc =>
    intro x hx
    rw [(hb.quiet (.inl hpc)).queue] at hx
    cases hx
  | disconnect hpc => exact accounted_of_flush rfl (Nat.le_refl _)
  | arrive hpc => exact accounted_of_subset hsame
  | flush hfrom hto hdropped => exact accounted_of_flush rfl hdropped
  | append hpc hkey => exact accounted_of_subset (List.subset_append_left _ _)
  | startStream hpc hstate hpending hresetting => exact accounted_of_subset hsame
  | formatAck hpc hpending hresetting => exact accounted_of_flush rfl (Nat.le_refl _)
  | resetLock hpc hmutex => exact accounted_of_subset hsame
  | @resetCall t ok consumer config generation connection after hpc =>
    cases consumer <;> exact accounted_of_subset hsame
  | @resetClear t ok after hpc => cases after <;> exact accounted_of_subset hsame
  | replaceReset hpc hmutex hstate hpending hresetting => exact accounted_of_subset hsame
  | replace hpc hmutex hskip => exact accounted_of_subset hsame
  | drainBusy hpc hdraining => exact accounted_of_subset hsame
  | drainEnter hpc hdraining => exact accounted_of_subset hsame
  | drainStop hpc => exact accounted_of_subset hsame
  | drainTake hpc hqueue hconsumer hresetting => exact accounted_of_subset hsame
  | consume hpc hmutex => exact accounted_of_subset hsame
  | @pop t ok queued front rest bytes depth hpc hqueue htoken =>
    obtain rfl : front = queued := h.front_eq hpc hqueue htoken
    intro x hx
    rw [hqueue] at hx
    rcases List.mem_cons.mp hx with rfl | hx
    · exact .inr (.inl (h.removing t x hpc))
    · exact .inl hx
  | keep hpc htoken => exact accounted_of_subset hsame

/-- **Exactly-once delivery.** In every run in which a connection begins only when no thread is left
draining the one before, units are delivered in order, each once at most, and none is lost without
being counted. -/
theorem orderly_of_run (cfg : SessionConfig) (consumer : Option ConsumerId) (as : List Action)
    (h : (controller cfg).Legal drainedBefore (.start cfg consumer) as) :
    Orderly cfg ((controller cfg).exec (.start cfg consumer) as) := by
  obtain ⟨hb, -, hp⟩ : Base ((controller cfg).exec (.start cfg consumer) as) ∧
      OneDrainer ((controller cfg).exec (.start cfg consumer) as) ∧
      Pipeline ((controller cfg).exec (.start cfg consumer) as) := by
    refine h.invariant (I := fun s => Base s ∧ OneDrainer s ∧ Pipeline s)
      ⟨base_start cfg consumer, oneDrainer_start cfg consumer, pipeline_start cfg consumer⟩ ?_
    rintro s a ⟨hb, hone, hp⟩ he hcond
    have e := next_effect cfg he
    exact ⟨base_next hb he, oneDrainer_effect hone e hcond, pipeline_effect hb hone hp e hcond⟩
  refine ⟨hp.inOrder, ?_, fun a he => accounted_effect hb hp (next_effect cfg he)⟩
  rw [List.pairwise_map]
  exact hp.sorted.imp fun h => h.2

/-- A caller that drains the first connection is done before the second begins. -/
def orderlyReconnect : List Action :=
  bringUp ++ video keyframeSample ++ steps net [true, true] ++ [.call 1 (.setConsumer (some 7))] ++
    steps 1 [true, true, true, true, true, true] ++ [.disconnect] ++ steps 1 [true, true, true] ++
    bringUp ++ video keyframeSample ++ steps net [true, true, true, true]

theorem orderly_of_orderlyReconnect :
    (controller {}).Legal drainedBefore (.start {} none) orderlyReconnect ∧
      Orderly {} ((controller {}).exec (.start {} none) orderlyReconnect) :=
  have hlegal : (controller {}).Legal drainedBefore (.start {} none) orderlyReconnect := by decide
  ⟨hlegal, orderly_of_run {} none orderlyReconnect hlegal⟩

/-- The caller has copied the front of the queue, token 1, and hands it over after the second
connection has queued a unit that has token 1 as well. -/
def reusedToken : List Action :=
  bringUp ++ video keyframeSample ++ steps net [true, true] ++ [.call 1 (.setConsumer (some 7))] ++
    steps 1 [true, true, true, true, true, true] ++ [.disconnect] ++ bringUp ++
    video keyframeSample ++ steps 1 [true]

theorem not_orderly_of_reusedToken :
    ∃ as, (controller {}).Legal (fun _ _ => True) (.start {} none) as ∧
      ¬ Orderly {} ((controller {}).exec (.start {} none) as) := by
  refine ⟨reusedToken, by decide, fun h => ?_⟩
  have hlost : ¬ Accounted ((controller {}).exec (.start {} none) reusedToken)
      ((controller {}).exec (.start {} none) (reusedToken ++ [.run 1 true])) := by decide
  exact hlost (h.accounted (.run 1 true) (by decide))

end RemoteCam.Backend.Delivery
