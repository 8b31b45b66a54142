import RemoteCam.Backend.Invariants

/-! # Resets before units

A consumer decodes what it is given as the last reset announced it, so every unit has to be of the
format and connection of the last reset made on that consumer. `setConsumer` skips the reset when
another one is under way or a format change is pending, and `drainQueue` hands over a unit it copied
before it took `consumerMutex_`. -/

namespace RemoteCam.Backend.ResetOrder

open RemoteCam.Lib.Threads RemoteCam.Lib.Transitions RemoteCam.Backend.Session
open RemoteCam.Backend.Effects RemoteCam.Backend.Invariants

variable {cfg : SessionConfig} {s s' : Sys} {a : Action}

/-! ### What is asked for -/

/-- What a reset announces to a consumer. -/
structure Reset where
  config : StreamConfig
  generation : ℕ
  connection : ℕ
  deriving DecidableEq, Repr

/-- The format and the connection that are current. -/
def committed (st : Stream) : Reset := ⟨st.streamConfig, st.streamGeneration, st.connections⟩

/-- The last reset made on the consumer, in a log with the newest callback first. -/
def lastReset (consumer : ConsumerId) : List Event → Option Reset
  | [] => none
  | e :: log =>
    match e.callback with
    | .reset config generation connection =>
      if e.consumer = consumer then some ⟨config, generation, connection⟩
      else lastReset consumer log
    | .consume .. => lastReset consumer log

/-- The unit is what the reset announces. -/
def Fits (x : Arrived) (r : Reset) : Prop :=
  x.unit.codec = r.config.codec ∧ x.unit.generation = r.generation ∧ x.connection = r.connection

instance (x : Arrived) (r : Reset) : Decidable (Fits x r) := by unfold Fits; infer_instance

/-- A unit is handed to a consumer whose last reset announced it. -/
def Announced (e : Event) (older : List Event) : Prop :=
  match e.callback with
  | .consume queued _ => ∃ r ∈ lastReset e.consumer older, Fits queued.toArrived r
  | .reset .. => True

instance : ∀ (e : Event) (older : List Event), Decidable (Announced e older)
  | ⟨consumer, .consume queued _, _⟩, older =>
    inferInstanceAs (Decidable (∃ r ∈ lastReset consumer older, Fits queued.toArrived r))
  | ⟨_, .reset .., _⟩, _ => .isTrue trivial

def ResetFirst : List Event → Prop
  | [] => True
  | e :: older => Announced e older ∧ ResetFirst older

instance decidableResetFirst : ∀ log, Decidable (ResetFirst log)
  | [] => .isTrue trivial
  | e :: older =>
    have : Decidable (ResetFirst older) := decidableResetFirst older
    inferInstanceAs (Decidable (Announced e older ∧ ResetFirst older))

/-- Between the copy of the front of the queue and the callback. -/
def Pc.consumes : Pc → Bool
  | .consume .. => true
  | _ => false

/-- Between the reset callback and the end of the reset. -/
def Pc.clears : Pc → Bool
  | .resetClear _ => true
  | _ => false

/-- The action is the critical section of `handleFormatAck`. -/
def acknowledges (s : Sys) : Action → Bool
  | .run t _ =>
    match s.pc t with
    | .formatAck _ => true
    | _ => false
  | _ => false

/-- A connection begins when no thread is inside a reset or holds a unit; a consumer is put in place
while no format change is pending, not right after the callback of a reset under way, and not over
the units of a failed session; a format change is acknowledged while no thread holds a unit. -/
def inTurn (s : Sys) (a : Action) : Prop :=
  (a = .connect → s.Free Pc.resets ∧ s.Free Pc.consumes) ∧
  (∀ consumer ∈ replacing s a, consumer.isSome →
    s.stream.pendingStreamConfig = none ∧ s.Free Pc.clears ∧
      (s.stream.state = .failed → s.stream.queue = [] ∧ Pc.enqueues (s.pc net) = false)) ∧
  (acknowledges s a → s.Free Pc.consumes)

instance (s : Sys) (a : Action) : Decidable (inTurn s a) := by unfold inTurn; infer_instance

/-! ### The invariant -/

/-- What a thread is about to announce. -/
def Pc.announces : Pc → Option Reset
  | .resetLock config generation connection _ | .resetCall _ config generation connection _ =>
    some ⟨config, generation, connection⟩
  | _ => none

/-- The thread will make a reset callback on the consumer, if that is the current one. -/
def Pc.willReset (consumer : ConsumerId) : Pc → Bool
  | .resetLock .. => true
  | .resetCall c _ _ _ _ => c = some consumer
  | _ => false

/-- Units may still come to the consumer on this connection. -/
def Active (s : Sys) : Prop :=
  s.stream.state = .streaming ∨ s.stream.queue ≠ [] ∨ Pc.enqueues (s.pc net)

theorem announces_of_outside {pc : Pc} (h : Pc.resets pc = false) : Pc.announces pc = none := by
  cases pc <;> first | rfl | cases h

theorem willReset_of_outside {pc : Pc} (h : Pc.resets pc = false) (d : ConsumerId) :
    Pc.willReset d pc = false := by
  cases pc <;> first | rfl | cases h

structure Fenced (s : Sys) : Prop where
  announcing : s.pc net ≠ .idle →
    ∀ t r, Pc.announces (s.pc t) = some r → r = committed s.stream
  resetting : s.stream.resettingConsumer → ∃ t, Pc.resets (s.pc t)
  consumer : ∀ d, s.stream.consumer = some d → s.pc net ≠ .idle → Active s →
    lastReset d s.log = some (committed s.stream) ∨ ∃ t, Pc.willReset d (s.pc t)
  queued : s.pc net ≠ .idle → (∀ x ∈ s.stream.queue, Fits x.toArrived (committed s.stream)) ∧
    ∀ x, s.pc net = .videoEnqueue x → Fits x (committed s.stream)
  held : ∀ t q d, s.pc t = .consume q d →
    (∃ r ∈ lastReset d s.log, Fits q.toArrived r) ∧
    (s.pc net ≠ .idle → Fits q.toArrived (committed s.stream)) ∧
    ∀ u r, Pc.announces (s.pc u) = some r → Fits q.toArrived r
  log : ResetFirst s.log

/-- A step that neither begins nor makes a reset and copies no unit. -/
theorem Fenced.goto {s₁ : Sys} {t : Thread} {pc : Pc} (h : Fenced s) (hpool : s₁.pool = s.pool)
    (hidle : t = net → s.pc net ≠ .idle) (hconsumer : s₁.stream.consumer = s.stream.consumer)
    (hcommitted : committed s₁.stream = committed s.stream)
    (hqueue : s.pc net ≠ .idle →
      ∀ x ∈ s₁.stream.queue, x ∈ s.stream.queue ∨ Fits x.toArrived (committed s.stream))
    (hactive : Active (s₁.goto t pc) → Active s)
    (hresetting : s₁.stream.resettingConsumer →
      s.stream.resettingConsumer ∧ (Pc.resets (s.pc t) = false ∨ Pc.resets pc))
    (hlast : ∀ d, lastReset d s₁.log = lastReset d s.log) (hlog : ResetFirst s₁.log)
    (hfrom : ∀ d, Pc.willReset d (s.pc t) = false)
    (hto : Pc.announces pc = none ∧ Pc.consumes pc = false)
    (henqueue : ∀ x, pc = .videoEnqueue x → Fits x (committed s.stream)) :
    Fenced (s₁.goto t pc) := by
  have hback : ∀ {u x}, (s₁.goto t pc).pc u = x → (Pc.announces x ≠ none ∨ Pc.consumes x) →
      s.pc u = x := by
    rintro u x hx hne
    refine pc_of_goto hpool hx ?_
    rintro rfl
    rcases hne with hne | hne
    · exact hne hto.1
    · rw [hto.2] at hne
      cases hne
  have hnet : (s₁.goto t pc).pc net ≠ .idle → s.pc net ≠ .idle := by
    intro hne
    by_cases ht : t = net
    · exact hidle ht
    · rw [pc_goto_of_ne _ (Ne.symm ht), Sys.pc, hpool] at hne
      exact hne
  refine ⟨fun hn u r hu => ?_, fun hr => ?_, fun d hd hn ha => ?_, fun hn => ?_,
    fun u q d hu => ?_, hlog⟩
  · rw [stream_goto, hcommitted]
    have hsame : s.pc u = (s₁.goto t pc).pc u := hback rfl (.inl (by simp [hu]))
    exact h.announcing (hnet hn) u r (by rw [hsame, hu])
  · obtain ⟨hold, hout⟩ := hresetting hr
    obtain ⟨u, hu⟩ := h.resetting hold
    refine ⟨u, ?_⟩
    by_cases hut : u = t
    · subst hut
      rcases hout with hout | hin
      · rw [hout] at hu
        cases hu
      · rwa [pc_goto_self]
    · rw [pc_goto_of_ne _ hut, Sys.pc, hpool]
      exact hu
  · rw [log_goto, hlast, stream_goto, hcommitted]
    rcases h.consumer d (hconsumer ▸ hd) (hnet hn) (hactive ha) with hl | ⟨u, hu⟩
    · exact .inl hl
    · refine .inr ⟨u, ?_⟩
      by_cases hut : u = t
      · rw [hut, hfrom] at hu
        cases hu
      · rw [pc_goto_of_ne _ hut, Sys.pc, hpool]
        exact hu
  · rw [stream_goto, hcommitted]
    obtain ⟨h1, h2⟩ := h.queued (hnet hn)
    refine ⟨fun x hx => (hqueue (hnet hn) x hx).elim (h1 x) id, fun x hx => ?_⟩
    by_cases ht : t = net
    · rw [ht, pc_goto_self] at hx
      exact henqueue x hx
    · rw [pc_goto_of_ne _ (Ne.symm ht), Sys.pc, hpool] at hx
      exact h2 x hx
  · obtain ⟨h1, h2, h3⟩ := h.held u q d (hback hu (.inr rfl))
    rw [log_goto, hlast, stream_goto, hcommitted]
    refine ⟨h1, fun hn => h2 (hnet hn), fun v r hv => ?_⟩
    have hsame : s.pc v = (s₁.goto t pc).pc v := hback rfl (.inl (by simp [hv]))
    exact h3 v r (by rw [hsame, hv])

/-- A step that has to do neither with a reset nor with a new unit. -/
theorem Fenced.goto_of_outside {s₁ : Sys} {t : Thread} {pc : Pc} (h : Fenced s)
    (hpool : s₁.pool = s.pool) (hidle : t = net → s.pc net ≠ .idle)
    (hconsumer : s₁.stream.consumer = s.stream.consumer)
    (hcommitted : committed s₁.stream = committed s.stream)
    (hqueue : ∀ x ∈ s₁.stream.queue, x ∈ s.stream.queue)
    (hstate : s₁.stream.state = .streaming → s.stream.state = .streaming)
    (hresetting : s₁.stream.resettingConsumer = s.stream.resettingConsumer)
    (hlast : ∀ d, lastReset d s₁.log = lastReset d s.log) (hlog : ResetFirst s₁.log)
    (hfrom : Pc.resets (s.pc t) = false)
    (hto : Pc.resets pc = false ∧ Pc.consumes pc = false ∧ Pc.enqueues pc = false) :
    Fenced (s₁.goto t pc) := by
  obtain ⟨hto1, hto2, hto3⟩ := hto
  refine h.goto hpool hidle hconsumer hcommitted (fun _ x hx => .inl (hqueue x hx)) ?_
    (fun hr => ⟨hresetting ▸ hr, .inl hfrom⟩) hlast hlog (willReset_of_outside hfrom)
    ⟨announces_of_outside hto1, hto2⟩ ?_
  · rintro (ha | ha | ha)
    · exact .inl (hstate ha)
    · obtain ⟨x, hx⟩ := List.exists_mem_of_ne_nil _ ha
      exact .inr (.inl (List.ne_nil_of_mem (hqueue x hx)))
    · refine .inr (.inr ?_)
      rw [pc_goto] at ha
      split_ifs at ha
      · rw [hto3] at ha
        cases ha
      · rwa [Sys.pc, hpool] at ha
  · rintro x rfl
    cases hto3

/-- A reset of the current format begins, and there is no other. -/
theorem Fenced.announce {s₁ : Sys} {t : Thread} {after : After} (h : Fenced s)
    (hpool : s₁.pool = s.pool) (hlog : s₁.log = s.log) (hfree : s.Free Pc.resets)
    (hnet : s.pc net ≠ .idle)
    (hqueue : committed s₁.stream = committed s.stream ∧ s₁.stream.queue = s.stream.queue ∨
      s₁.stream.queue = [] ∧ s.Free Pc.consumes ∧ t = net) :
    Fenced (s₁.goto t (.resetLock s₁.stream.streamConfig s₁.stream.streamGeneration
      s₁.stream.connections after)) := by
  set pc : Pc := .resetLock s₁.stream.streamConfig s₁.stream.streamGeneration
    s₁.stream.connections after with hpc
  have hannounces : ∀ u r, Pc.announces ((s₁.goto t pc).pc u) = some r →
      r = committed s₁.stream := by
    intro u r hu
    by_cases hut : u = t
    · rw [hut, pc_goto_self] at hu
      exact (Option.some.inj hu).symm
    · rw [pc_goto_of_ne _ hut, Sys.pc, hpool] at hu
      have hnone : Pc.announces (s.pool.get u) = none := announces_of_outside (hfree u)
      rw [hnone] at hu
      cases hu
  have hconsumes : ∀ {u q d}, (s₁.goto t pc).pc u = .consume q d → s.pc u = .consume q d :=
    fun hu => pc_of_goto hpool hu (by simp [hpc])
  refine ⟨fun _ u r hu => hannounces u r hu, fun _ => ⟨t, by rw [pc_goto_self]; rfl⟩,
    fun d _ _ _ => .inr ⟨t, by rw [pc_goto_self]; rfl⟩, fun _ => ⟨fun x hx => ?_, fun x hx => ?_⟩,
    fun u q d hu => ?_, ?_⟩
  · rcases hqueue with ⟨hc, hq⟩ | ⟨hq, -⟩
    · rw [stream_goto, hc]
      exact (h.queued hnet).1 x (hq ▸ hx)
    · rw [stream_goto, hq] at hx
      cases hx
  · have hx' : s.pc net = .videoEnqueue x := pc_of_goto hpool hx (by simp [hpc])
    rcases hqueue with ⟨hc, -⟩ | ⟨-, -, ht⟩
    · rw [stream_goto, hc]
      exact (h.queued hnet).2 x hx'
    · rw [ht, pc_goto_self, hpc] at hx
      cases hx
  · rcases hqueue with ⟨hc, -⟩ | ⟨-, hfreeConsumes, -⟩
    · obtain ⟨h1, h2, -⟩ := h.held u q d (hconsumes hu)
      have hfits : Fits q.toArrived (committed s₁.stream) := hc ▸ h2 hnet
      rw [log_goto, hlog]
      exact ⟨h1, fun _ => hfits, fun v r hv => (hannounces v r hv) ▸ hfits⟩
    · have hu' := hfreeConsumes u
      rw [hconsumes hu] at hu'
      cases hu'
  · rw [log_goto, hlog]
    exact h.log

/-- The consumer is replaced; what the new one was or will be told is another matter. -/
theorem Fenced.with_consumer (h : Fenced s) (consumer : Option ConsumerId)
    (hnew : ∀ d, consumer = some d → s.pc net ≠ .idle → Active s →
      lastReset d s.log = some (committed s.stream) ∨ ∃ t, Pc.willReset d (s.pc t)) :
    Fenced { s with stream := { s.stream with consumer } } :=
  ⟨h.announcing, h.resetting, hnew, h.queued, h.held, h.log⟩

/-- `resetConsumer` has read the consumer it will call. -/
theorem Fenced.lock (h : Fenced s) {t : Thread} {config : StreamConfig} {generation connection : ℕ}
    {after : After} (hpc : s.pc t = .resetLock config generation connection after) :
    Fenced (resetLock s t config generation connection after) := by
  have hannounces : ∀ u, Pc.announces ((resetLock s t config generation connection after).pc u) =
      Pc.announces (s.pc u) := by
    intro u
    rw [resetLock, pc_goto]
    split_ifs with hut
    · rw [hut, hpc]
      rfl
    · rfl
  have hback : ∀ {u x}, (resetLock s t config generation connection after).pc u = x →
      Pc.resets x = false → s.pc u = x := by
    intro u x hx hout
    refine pc_of_goto rfl hx ?_
    rintro rfl
    cases hout
  have hnet : (resetLock s t config generation connection after).pc net ≠ .idle →
      s.pc net ≠ .idle := by
    intro hn ht
    rw [resetLock, pc_goto] at hn
    split_ifs at hn with hnt
    · rw [hnt, hpc] at ht
      cases ht
    · exact hn ht
  refine ⟨fun hn u r hu => h.announcing (hnet hn) u r (hannounces u ▸ hu),
    fun _ => ⟨t, by rw [resetLock, pc_goto_self]; rfl⟩, fun d hd _ _ => .inr ⟨t, ?_⟩,
    fun hn => ⟨(h.queued (hnet hn)).1, fun x hx => (h.queued (hnet hn)).2 x (hback hx rfl)⟩,
    fun u q d hu => ?_, h.log⟩
  · rw [resetLock, pc_goto_self]
    exact decide_eq_true hd
  · obtain ⟨h1, h2, h3⟩ := h.held u q d (hback hu rfl)
    exact ⟨h1, fun hn => h2 (hnet hn), fun v r hv => h3 v r (hannounces v ▸ hv)⟩

/-- The callback of a reset. -/
theorem Fenced.call (h : Fenced s) {t : Thread} {d : ConsumerId} {config : StreamConfig}
    {generation connection : ℕ} {after : After}
    (hpc : s.pc t = .resetCall (some d) config generation connection after) :
    Fenced (resetCall s t (some d) config generation connection after) := by
  set r : Reset := ⟨config, generation, connection⟩
  set s' := resetCall s t (some d) config generation connection after
  have ht : Pc.announces (s.pc t) = some r := by rw [hpc]; rfl
  have hlast : ∀ c, lastReset c s'.log = if d = c then some r else lastReset c s.log := fun _ => rfl
  have hself : s'.pc t = .resetClear after := pc_goto_self _ _ _
  have hback : ∀ {u x}, s'.pc u = x → (Pc.announces x ≠ none ∨ Pc.resets x = false) →
      s.pc u = x := by
    intro u x hx hne
    refine pc_of_goto rfl hx ?_
    rintro rfl
    rcases hne with hne | hne
    · exact hne rfl
    · cases hne
  have hnet : s'.pc net ≠ .idle → s.pc net ≠ .idle := by
    intro hn hidle
    have hne : net ≠ t := by
      rintro rfl
      rw [hpc] at hidle
      cases hidle
    exact hn ((pc_goto_of_ne _ hne _).trans hidle)
  have hsame : ∀ {u r}, Pc.announces (s'.pc u) = some r → s'.pc u = s.pc u := fun hu =>
    (hback rfl (.inl (by simp [hu]))).symm
  refine ⟨fun hn u r' hu => ?_, fun _ => ⟨t, by rw [hself]; rfl⟩, fun c hc hn ha => ?_,
    fun hn => ⟨(h.queued (hnet hn)).1,
      fun x hx => (h.queued (hnet hn)).2 x (hback hx (.inr rfl))⟩,
    fun u q c hu => ?_, ⟨trivial, h.log⟩⟩
  · exact h.announcing (hnet hn) u r' (hsame hu ▸ hu)
  · rw [hlast]
    split_ifs with hdc
    · exact .inl (congrArg some (h.announcing (hnet hn) t r ht))
    · have hactive : Active s := by
        rcases ha with ha | ha | ha
        · exact .inl ha
        · exact .inr (.inl ha)
        · have hnt : s'.pc net = s.pc net := (hback rfl (.inr (by
            cases hx : s'.pc net <;> rw [hx] at ha <;> first | rfl | cases ha))).symm
          exact .inr (.inr (hnt ▸ ha))
      rcases h.consumer c hc (hnet hn) hactive with hl | ⟨u, hu⟩
      · exact .inl hl
      · refine .inr ⟨u, ?_⟩
        have hut : u ≠ t := by
          rintro rfl
          rw [hpc] at hu
          exact hdc (Option.some.inj (of_decide_eq_true hu))
        rwa [← pc_goto_of_ne s hut (.resetClear after)] at hu
  · obtain ⟨⟨r', hr', h1⟩, h2, h3⟩ := h.held u q c (hback hu (.inr rfl))
    refine ⟨?_, fun hn => h2 (hnet hn), fun v r' hv => h3 v r' (hsame hv ▸ hv)⟩
    rw [hlast]
    split_ifs
    · exact ⟨r, rfl, h3 t r ht⟩
    · exact ⟨r', hr', h1⟩

/-- The front of the queue is copied for the current consumer. -/
theorem Fenced.take (hb : Base s) (hone : OneReset s) (h : Fenced s) {t : Thread}
    {q : QueuedAccessUnit} {rest : List QueuedAccessUnit} {d : ConsumerId}
    (hqueue : s.stream.queue = q :: rest) (hconsumer : s.stream.consumer = some d)
    (hresetting : s.stream.resettingConsumer = false) :
    Fenced (s.goto t (.consume q d)) := by
  have hback : ∀ {u x}, (s.goto t (.consume q d)).pc u = x → Pc.consumes x = false → s.pc u = x := by
    intro u x hx hout
    refine pc_of_goto rfl hx ?_
    rintro rfl
    cases hout
  have hne : s.stream.queue ≠ [] := by rw [hqueue]; nofun
  have hnet : s.pc net ≠ .idle := fun hidle => hne (hb.quiet (.inl hidle)).queue
  have hfree : s.Free Pc.resets := free_of_oneReset hone hresetting hnet
  have hnone : ∀ u r, Pc.announces ((s.goto t (.consume q d)).pc u) ≠ some r := by
    intro u r hu
    have hold : s.pc u = (s.goto t (.consume q d)).pc u := by
      refine hback rfl ?_
      cases hx : (s.goto t (.consume q d)).pc u <;> rw [hx] at hu <;> first | rfl | cases hu
    rw [← hold, announces_of_outside (hfree u)] at hu
    cases hu
  have hlast : lastReset d s.log = some (committed s.stream) := by
    rcases h.consumer d hconsumer hnet (.inr (.inl hne)) with hl | ⟨u, hu⟩
    · exact hl
    · rw [willReset_of_outside (hfree u)] at hu
      cases hu
  have hfits : Fits q.toArrived (committed s.stream) :=
    (h.queued hnet).1 q (by rw [hqueue]; exact List.mem_cons_self)
  refine ⟨fun _ u r hu => absurd hu (hnone u r), fun hr => ?_, fun c hc _ _ => ?_,
    fun _ => ⟨(h.queued hnet).1, fun x hx => (h.queued hnet).2 x (hback hx rfl)⟩,
    fun u q' c hu => ?_, h.log⟩
  · have hr' : s.stream.resettingConsumer = true := hr
    rw [hresetting] at hr'
    cases hr'
  · obtain rfl : d = c := Option.some.inj (hconsumer.symm.trans hc)
    exact .inl hlast
  · rw [pc_goto] at hu
    split_ifs at hu
    · cases hu
      exact ⟨⟨_, hlast, hfits⟩, fun _ => hfits, fun v r hv => absurd hv (hnone v r)⟩
    · obtain ⟨h1, h2, -⟩ := h.held u q' c hu
      exact ⟨h1, fun _ => h2 hnet, fun v r hv => absurd hv (hnone v r)⟩

/-- A connection begins with nothing queued, announced or held. -/
theorem Fenced.connect (h : Fenced s) (hresets : s.Free Pc.resets) (hconsumes : s.Free Pc.consumes) :
    Fenced (onConnected cfg s) := by
  have hfree : ∀ {region : Pc → Bool}, s.Free region → region .serving = false →
      (onConnected cfg s).Free region := by
    intro region hold hserving u
    by_cases hu : u = net
    · rw [hu, onConnected, pc_goto_self]
      exact hserving
    · rw [onConnected, pc_goto_of_ne _ hu]
      exact hold u
  have hnone : ∀ u r, Pc.announces ((onConnected cfg s).pc u) ≠ some r := by
    intro u r hu
    rw [announces_of_outside (hfree hresets rfl u)] at hu
    cases hu
  refine ⟨fun _ u r hu => absurd hu (hnone u r), fun hr => absurd hr Bool.false_ne_true,
    fun d _ _ ha => ?_, fun _ => ⟨fun x hx => absurd hx List.not_mem_nil, fun x hx => ?_⟩,
    fun u q d hu => ?_, h.log⟩
  · rcases ha with ha | ha | ha
    · unfold onConnected at ha
      dsimp only [stream_goto] at ha
      split_ifs at ha
    · exact absurd rfl ha
    · rw [onConnected, pc_goto_self] at ha
      cases ha
  · rw [onConnected, pc_goto_self] at hx
    cases hx
  · have hout := hfree hconsumes rfl u
    rw [hu] at hout
    cases hout

theorem Fenced.disconnect (h : Fenced s) : Fenced (onDisconnected s) := by
  have hidle : (onDisconnected s).pc net = .idle := pc_goto_self _ _ _
  have hback : ∀ {u x}, (onDisconnected s).pc u = x → x ≠ .idle → s.pc u = x := fun hx hne =>
    pc_of_goto rfl hx (Ne.symm hne)
  refine ⟨fun hn => absurd hidle hn, nofun, fun _ _ hn => absurd hidle hn,
    fun hn => absurd hidle hn, fun u q d hu => ?_, h.log⟩
  obtain ⟨h1, -, h3⟩ := h.held u q d (hback hu nofun)
  refine ⟨h1, fun hn => absurd hidle hn, fun v r hv => h3 v r ?_⟩
  rwa [← hback rfl (by intro hi; rw [hi] at hv; cases hv)] at hv

/-- A consumer put in place without a reset of its own: a reset under way will find it, or no unit
will come. -/
theorem Fenced.replace (hb : Base s) (h : Fenced s) {t : Thread} {ok : Bool}
    {consumer : Option ConsumerId} (hpc : s.pc t = .setConsumer consumer)
    (hmutex : s.consumerMutex = none)
    (hskip : ¬ (consumer.isSome ∧ s.stream.state = .streaming ∧
      s.stream.pendingStreamConfig = none ∧ s.stream.resettingConsumer = false))
    (hcond : inTurn s (.run t ok)) :
    Fenced ({ s with
      stream := { s.stream with consumer }, installed := some (t, consumer) }.goto t
        .drainEnter) := by
  have hbusy : s.pc t ≠ .idle := by simp [hpc]
  have hmoved : Fenced ({ s with installed := some (t, consumer) }.goto t .drainEnter) :=
    h.goto_of_outside rfl (fun ht => ht ▸ hbusy) rfl rfl (fun _ hx => hx) id rfl (fun _ => rfl) h.log
      (by rw [hpc]; rfl) ⟨rfl, rfl, rfl⟩
  refine hmoved.with_consumer consumer fun d hd _ ha => ?_
  subst hd
  obtain ⟨hpending, hclears, hfailed⟩ := hcond.2.1 (some d) (replacing_run hpc) rfl
  by_cases hresetting : s.stream.resettingConsumer = true
  · obtain ⟨u, hu⟩ := h.resetting hresetting
    have hut : u ≠ t := by
      rintro rfl
      rw [hpc] at hu
      cases hu
    refine .inr ⟨u, ?_⟩
    rw [pc_goto_of_ne _ hut]
    change Pc.willReset d (s.pc u)
    have hclear := hclears u
    have howned := hb.owned u
    cases hx : s.pc u <;> rw [hx] at hu hclear howned <;> first
      | rfl
      | contradiction
      | exact absurd (howned rfl) (by rw [hmutex]; nofun)
  · have hstate : s.stream.state ≠ .streaming := fun hstreaming =>
      hskip ⟨rfl, hstreaming, hpending, by simpa using hresetting⟩
    have hquiet : s.stream.queue = [] ∧ Pc.enqueues (s.pc net) = false := by
      by_cases hf : s.stream.state = .failed
      · exact hfailed hf
      · have hq := hb.quiet (.inr (.inr ⟨hstate, hf⟩))
        exact ⟨hq.queue, hq.net⟩
    rcases ha with ha | ha | ha
    · exact absurd ha hstate
    · exact absurd hquiet.1 ha
    · rw [pc_goto] at ha
      split_ifs at ha
      · cases ha
      · have henqueues : Pc.enqueues (s.pc net) = true := ha
        rw [hquiet.2] at henqueues
        cases henqueues

theorem outside_of_plain {pc : Pc} (h : Pc.plain pc) :
    Pc.resets pc = false ∧ Pc.consumes pc = false ∧ Pc.enqueues pc = false := by
  obtain ⟨hdrains, hresets, henqueues⟩ := plain_iff.mp h
  refine ⟨hresets, ?_, henqueues⟩
  cases pc <;> first | rfl | cases hdrains

theorem returnPc_outOfTurn (t : Thread) :
    Pc.resets (returnPc t) = false ∧ Pc.consumes (returnPc t) = false ∧
      Pc.enqueues (returnPc t) = false := by
  unfold returnPc
  split_ifs <;> exact ⟨rfl, rfl, rfl⟩

theorem resets_of_source {pc : Pc} {P : Arrived → Prop}
    (h : Pc.plain pc ∨ ∃ x, pc = .videoEnqueue x ∧ P x) : Pc.resets pc = false := by
  rcases h with h | ⟨x, rfl, -⟩
  · exact (plain_iff.mp h).2.1
  · rfl

/-- A frame arrives: a unit it leads to is of the current format. -/
theorem Fenced.arrive (h : Fenced s) {frame : VideoFrame} (hpc : s.pc net = .serving) :
    Fenced ({ s with arrivals := s.arrivals + 1 }.goto net
      (videoPc s.stream frame s.arrivals)) := by
  have hresets : Pc.resets (videoPc s.stream frame s.arrivals) = false := (videoPc_outside _ _ _).2
  have hconsumes : Pc.consumes (videoPc s.stream frame s.arrivals) = false := by
    have hdrains := (videoPc_outside s.stream frame s.arrivals).1
    cases hx : videoPc s.stream frame s.arrivals <;> rw [hx] at hdrains <;> first
      | rfl
      | cases hdrains
  refine h.goto rfl (fun _ => by simp [hpc]) rfl rfl (fun _ _ hx => .inl hx) ?_
    (fun hr => ⟨hr, .inl (by rw [hpc]; rfl)⟩) (fun _ => rfl) h.log (fun _ => by rw [hpc]; rfl)
    ⟨announces_of_outside hresets, hconsumes⟩ fun x hx => ?_
  · rintro (ha | ha | ha)
    · exact .inl ha
    · exact .inr (.inl ha)
    · rw [pc_goto_self] at ha
      cases hx : videoPc s.stream frame s.arrivals <;> rw [hx] at ha <;> first
        | contradiction
        | exact .inl (videoPc_enqueue hx).1
  · obtain ⟨-, -, -, hcodec, hgeneration, hconnection, -⟩ := videoPc_enqueue hx
    exact ⟨hcodec, hgeneration, hconnection⟩

theorem fenced_effect (hb : Base s) (hone : OneReset s) (h : Fenced s) (e : Effect cfg s a s')
    (hcond : inTurn s a) : Fenced s' := by
  cases e with
  | still hstate =>
    refine ⟨h.announcing, h.resetting, fun d hd hn ha => h.consumer d hd hn ?_, h.queued, h.held,
      h.log⟩
    rcases ha with ha | ha
    · rcases hstate with rfl | rfl
      · exact .inl ha
      · cases ha
    · exact .inr ha
  | @plain _ t pc' state trusted dropped activity hfrom hvalid hto hstate =>
    refine h.goto_of_outside rfl (fun ht => ht ▸ (hto.serving (hb.roles t) ht).1) rfl rfl
      (fun _ hx => hx) (fun hs => ?_) rfl (fun _ => rfl) h.log (resets_of_source hfrom)
      (outside_of_plain hto.plain)
    rcases hstate with ⟨rfl, -⟩ | ⟨rfl, -⟩ | ⟨-, rfl | ⟨rfl, -⟩⟩
    · exact hs
    · cases hs
    · cases hs
    · cases hs
  | connect hpc => exact h.connect (hcond.1 rfl).1 (hcond.1 rfl).2
  | disconnect hpc => exact h.disconnect
  | arrive hpc => exact h.arrive hpc
  | @flush _ t pc' pending pendingGeneration nextGeneration dropped activity hfrom hto hdropped =>
    refine h.goto_of_outside rfl (fun ht => ht ▸ (hto.serving (hb.roles t) ht).1) rfl rfl
      (fun _ hx => absurd hx List.not_mem_nil) id rfl (fun _ => rfl) h.log ?_
      (outside_of_plain hto.plain)
    rcases hfrom with hfrom | ⟨x, hx⟩
    · exact (plain_iff.mp hfrom).2.1
    · rw [hx]
      rfl
  | @append t ok x activity hpc hkey =>
    obtain rfl : t = net := eq_net_of_role (hb.roles t) (by rw [hpc]; rfl)
    refine h.goto rfl (fun _ => by simp [hpc]) rfl rfl (fun hn y hy => ?_)
      (fun _ => .inr (.inr (by rw [hpc]; rfl))) (fun hr => ⟨hr, .inl (by rw [hpc]; rfl)⟩)
      (fun _ => rfl) h.log (fun _ => by rw [hpc]; rfl) ⟨rfl, rfl⟩ (fun _ hx => by cases hx)
    rcases List.mem_append.mp hy with hy | hy
    · exact .inl hy
    · rw [List.mem_singleton.mp hy]
      exact .inr ((h.queued hn).2 x hpc)
  | @startStream t ok activity hpc hstate hpending hresetting =>
    have hnet : s.pc net ≠ .idle := hb.admitted.online (.inl hstate)
    exact h.announce rfl rfl (free_of_oneReset hone hresetting hnet) hnet (.inl ⟨rfl, rfl⟩)
  | @formatAck t ok generation applied activity hpc hpending hresetting =>
    obtain rfl : t = net := eq_net_of_role (hb.roles t) (by rw [hpc]; rfl)
    have hnet : s.pc net ≠ .idle := by simp [hpc]
    have hack : acknowledges s (.run net ok) := by simp only [acknowledges, hpc]
    exact h.announce rfl rfl (free_of_oneReset hone hresetting hnet) hnet
      (.inr ⟨rfl, hcond.2.2 hack, rfl⟩)
  | resetLock hpc hmutex => exact h.lock hpc
  | @resetCall t ok consumer config generation connection after hpc =>
    cases consumer with
    | some d => exact h.call hpc
    | none =>
      have hbusy : s.pc t ≠ .idle := by simp [hpc]
      refine h.goto rfl (fun ht => ht ▸ hbusy) rfl rfl (fun _ _ hx => .inl hx) ?_
        (fun hr => ⟨hr, .inr rfl⟩) (fun _ => rfl) h.log (fun _ => by rw [hpc]; rfl) ⟨rfl, rfl⟩
        (fun _ hx => by cases hx)
      rintro (ha | ha | ha)
      · exact .inl ha
      · exact .inr (.inl ha)
      · refine .inr (.inr ?_)
        rw [pc_goto] at ha
        split_ifs at ha
        · cases ha
        · exact ha
  | @resetClear t ok after hpc =>
    have hbusy : s.pc t ≠ .idle := by simp [hpc]
    have hactive : ∀ {s₁ : Sys} {pc : Pc}, s₁.pool = s.pool → s₁.stream.state = s.stream.state →
        s₁.stream.queue = s.stream.queue → Pc.enqueues pc = false → Active (s₁.goto t pc) →
        Active s := by
      rintro s₁ pc hpool hst hq hpc' (ha | ha | ha)
      · exact .inl (hst ▸ ha)
      · exact .inr (.inl (hq ▸ ha))
      · refine .inr (.inr ?_)
        rw [pc_goto] at ha
        split_ifs at ha
        · rw [hpc'] at ha
          cases ha
        · rwa [Sys.pc, hpool] at ha
    cases after <;>
      exact h.goto rfl (fun ht => ht ▸ hbusy) rfl rfl (fun _ _ hx => .inl hx)
        (hactive rfl rfl rfl rfl) (fun hr => absurd hr Bool.false_ne_true) (fun _ => rfl) h.log
        (fun _ => by rw [hpc]; rfl) ⟨rfl, rfl⟩ (fun _ hx => by cases hx)
  | @replaceReset t ok consumer hpc hmutex hstate hpending hresetting =>
    have hnet : s.pc net ≠ .idle := hb.admitted.online (.inr hstate)
    have hfree : s.Free Pc.resets := free_of_oneReset hone hresetting hnet
    exact h.announce rfl rfl hfree hnet (.inl ⟨rfl, rfl⟩)
  | replace hpc hmutex hskip => exact h.replace hb hpc hmutex hskip hcond
  | @drainBusy t ok hpc hdraining =>
    have hbusy : s.pc t ≠ .idle := by simp [hpc]
    exact h.goto_of_outside rfl (fun ht => ht ▸ hbusy) rfl rfl (fun _ hx => hx) id rfl
      (fun _ => rfl) h.log (by rw [hpc]; rfl) (returnPc_outOfTurn t)
  | @drainEnter t ok hpc hdraining =>
    have hbusy : s.pc t ≠ .idle := by simp [hpc]
    exact h.goto_of_outside rfl (fun ht => ht ▸ hbusy) rfl rfl (fun _ hx => hx) id rfl
      (fun _ => rfl) h.log (by rw [hpc]; rfl) ⟨rfl, rfl, rfl⟩
  | @drainStop t ok hpc =>
    have hbusy : s.pc t ≠ .idle := by rcases hpc with hpc | hpc <;> simp [hpc]
    have hout : Pc.resets (s.pc t) = false := by rcases hpc with hpc | hpc <;> rw [hpc] <;> rfl
    exact h.goto_of_outside rfl (fun ht => ht ▸ hbusy) rfl rfl (fun _ hx => hx) id rfl
      (fun _ => rfl) h.log hout (returnPc_outOfTurn t)
  | drainTake hpc hqueue hconsumer hresetting => exact h.take hb hone hqueue hconsumer hresetting
  | @consume t taken queued consumer hpc hmutex =>
    have hbusy : s.pc t ≠ .idle := by simp [hpc]
    have hannounced : ResetFirst (s.record consumer (.consume queued taken)).log :=
      ⟨(h.held t queued consumer hpc).1, h.log⟩
    cases taken <;>
      exact h.goto_of_outside rfl (fun ht => ht ▸ hbusy) rfl rfl (fun _ hx => hx) id rfl
        (fun _ => rfl) hannounced (by rw [hpc]; rfl) ⟨rfl, rfl, rfl⟩
  | @pop t ok queued front rest bytes depth hpc hqueue htoken =>
    have hbusy : s.pc t ≠ .idle := by simp [hpc]
    refine h.goto_of_outside rfl (fun ht => ht ▸ hbusy) rfl rfl (fun x hx => ?_) id rfl
      (fun _ => rfl) h.log (by rw [hpc]; rfl) ⟨rfl, rfl, rfl⟩
    rw [hqueue]
    exact List.mem_cons_of_mem _ hx
  | @keep t ok queued depth hpc htoken =>
    have hbusy : s.pc t ≠ .idle := by simp [hpc]
    exact h.goto_of_outside rfl (fun ht => ht ▸ hbusy) rfl rfl (fun _ hx => hx) id rfl
      (fun _ => rfl) h.log (by rw [hpc]; rfl) ⟨rfl, rfl, rfl⟩

/-! ### Runs -/

theorem fenced_start (cfg : SessionConfig) (consumer : Option ConsumerId) :
    Fenced (.start cfg consumer) := by
  have hidle : (Sys.start cfg consumer).pc net = .idle := pc_start cfg consumer net
  refine ⟨fun hn => absurd hidle hn, nofun, fun _ _ hn => absurd hidle hn,
    fun hn => absurd hidle hn, fun t q d ht => ?_, trivial⟩
  rw [pc_start] at ht
  cases ht

/-- **Resets come first.** In every run whose steps are taken in turn, every unit is handed to a
consumer whose last reset announced its codec, its generation and its connection. -/
theorem resetFirst_of_run (cfg : SessionConfig) (consumer : Option ConsumerId) (as : List Action)
    (h : (controller cfg).Legal inTurn (.start cfg consumer) as) :
    ResetFirst ((controller cfg).exec (.start cfg consumer) as).log := by
  obtain ⟨-, -, hf⟩ : Base ((controller cfg).exec (.start cfg consumer) as) ∧
      OneReset ((controller cfg).exec (.start cfg consumer) as) ∧
      Fenced ((controller cfg).exec (.start cfg consumer) as) := by
    refine h.invariant (I := fun s => Base s ∧ OneReset s ∧ Fenced s)
      ⟨base_start cfg consumer, oneReset_start cfg consumer, fenced_start cfg consumer⟩ ?_
    rintro s a ⟨hb, hone, hf⟩ he hcond
    have e := next_effect cfg he
    exact ⟨base_next hb he, oneReset_effect hb hone e fun ha => (hcond.1 ha).1,
      fenced_effect hb hone hf e hcond⟩
  exact hf.log

/-- The change to HEVC that a caller asks for and the phone acknowledges. -/
def changeToHevc : List Action :=
  [.call 2 (.sendFormat { codec := .hevc }), .run 2 true,
    .receive (.control (.formatAck (some 1))), .run net true, .run net true, .run net true]

/-- A unit is delivered, the format changes, and another consumer is put in place. -/
def orderlyChange : List Action :=
  bringUp ++ video keyframeSample ++ steps net [true, true, true, true, true] ++ changeToHevc ++
    steps net [true, true] ++ [.call 1 (.setConsumer (some 2))] ++
    steps 1 [true, true, true, true, true, true]

theorem resetFirst_of_orderlyChange :
    (controller {}).Legal inTurn (.start {} (some 1)) orderlyChange ∧
      ResetFirst ((controller {}).exec (.start {} (some 1)) orderlyChange).log := by
  have hlegal : (controller {}).Legal inTurn (.start {} (some 1)) orderlyChange := by decide
  exact ⟨hlegal, resetFirst_of_run {} (some 1) orderlyChange hlegal⟩

/-- A caller has copied an H.264 unit when the change to HEVC is acknowledged, and hands it over
after the consumer was reset to HEVC. -/
def staleUnit : List Action :=
  bringUp ++ video keyframeSample ++ steps net [true, true] ++ [.call 1 (.setConsumer (some 1))] ++
    steps 1 [true, true, true, true, true, true] ++ changeToHevc ++ steps 1 [true]

theorem not_resetFirst_of_staleUnit :
    ∃ as, (controller {}).Legal (fun _ _ => True) (.start {} none) as ∧
      ¬ ResetFirst ((controller {}).exec (.start {} none) as).log :=
  ⟨staleUnit, by decide, by decide⟩

end RemoteCam.Backend.ResetOrder
