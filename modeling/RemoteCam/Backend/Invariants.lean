import RemoteCam.Backend.Effects

/-! # Invariants of every run

`Base` holds whatever the threads do: each thread stands where its role allows, `consumerMutex_` is
owned by the thread that is inside a reset callback, and before a session has streamed nothing is
queued. -/

namespace RemoteCam.Backend.Invariants

open RemoteCam.Lib.Threads RemoteCam.Lib.Transitions RemoteCam.Backend.Session
open RemoteCam.Backend.Effects

variable {cfg : SessionConfig} {s s' : Sys} {a : Action}

/-! ### Stepping a thread -/

theorem pc_goto (s : Sys) (t u : Thread) (pc : Pc) :
    (s.goto t pc).pc u = if u = t then pc else s.pc u := s.pool.get_set t u pc

@[simp] theorem pc_goto_self (s : Sys) (t : Thread) (pc : Pc) : (s.goto t pc).pc t = pc :=
  s.pool.get_set_self t pc

theorem pc_goto_of_ne (s : Sys) {t u : Thread} (h : u ≠ t) (pc : Pc) :
    (s.goto t pc).pc u = s.pc u := s.pool.get_set_of_ne h pc

/-- Where a thread stands that has not just been moved to `pc`. -/
theorem pc_of_goto {s₁ : Sys} {t u : Thread} {pc x : Pc} (hpool : s₁.pool = s.pool)
    (h : (s₁.goto t pc).pc u = x) (hne : pc ≠ x) : s.pc u = x := by
  rw [pc_goto] at h
  split_ifs at h
  · exact absurd h hne
  · rwa [Sys.pc, ← hpool]

theorem pc_goto_of_pc {s₁ : Sys} {t u : Thread} {pc x : Pc} (hpool : s₁.pool = s.pool)
    (h : s.pc u = x) (hne : s.pc t ≠ x) : (s₁.goto t pc).pc u = x := by
  rw [pc_goto]
  split_ifs with hu
  · exact absurd (hu ▸ h) hne
  · rwa [Sys.pc, hpool]

/-- A thread stays where it is while another one steps. -/
theorem pc_step_of_ne {t u : Thread} (h : u ≠ t) (ok : Bool) (pc : Pc) :
    (step cfg s t ok pc).pc u = s.pc u := by
  have hgoto (s₁ : Sys) (pc' : Pc) (hpool : s₁.pool = s.pool) : (s₁.goto t pc').pc u = s.pc u := by
    rw [pc_goto_of_ne _ h, Sys.pc, hpool, Sys.pc]
  cases pc with
  | idle => rfl
  | serving => rfl
  | hello deviceId verdict =>
    simp only [step, handleHello]
    split_ifs <;> exact hgoto _ _ rfl
  | authResponse verdict =>
    cases verdict
    · exact hgoto _ _ rfl
    · exact hgoto _ _ rfl
    · simp only [step, handleAuthResponse]
      split_ifs <;> exact hgoto _ _ rfl
  | streamStart =>
    simp only [step, startStream]
    split_ifs <;> exact hgoto _ _ rfl
  | formatAck generation =>
    simp only [step, handleFormatAck]
    split
    · exact hgoto _ _ rfl
    · split_ifs <;> exact hgoto _ _ rfl
  | formatReject generation =>
    simp only [step, handleFormatReject]
    split_ifs <;> exact hgoto _ _ rfl
  | videoEnqueue arrived =>
    simp only [step, enqueue]
    split_ifs <;> exact hgoto _ _ rfl
  | sendFormat config =>
    simp only [step, sendFormat]
    split_ifs <;> exact hgoto _ _ rfl
  | setConsumer consumer =>
    simp only [step, replaceConsumer]
    split_ifs <;> exact hgoto _ _ rfl
  | resetCall consumer config generation connection after =>
    cases consumer <;> exact hgoto _ _ rfl
  | drainEnter =>
    simp only [step, drainEnter]
    split_ifs <;> exact hgoto _ _ rfl
  | drainTake =>
    simp only [step, drainTake]
    split
    · split_ifs <;> exact hgoto _ _ rfl
    · exact hgoto _ _ rfl
  | drainRemove queued =>
    simp only [step, drainRemove]
    split
    · split_ifs <;> exact hgoto _ _ rfl
    · exact hgoto _ _ rfl
  | _ => exact hgoto _ _ rfl

@[simp] theorem stream_goto (s : Sys) (t : Thread) (pc : Pc) : (s.goto t pc).stream = s.stream := rfl

@[simp] theorem log_goto (s : Sys) (t : Thread) (pc : Pc) : (s.goto t pc).log = s.log := rfl

/-! ### Roles -/

/-- Every thread stands where its role allows. -/
def Roles (s : Sys) : Prop := ∀ t, role t (s.pc t)

theorem Roles.goto {t : Thread} {pc : Pc} (h : Roles s) (hpc : role t pc) : Roles (s.goto t pc) :=
  Pool.forall_set (P := fun u pc => role u pc) h hpc

theorem role_of_both {pc : Pc} (hnet : Pc.ofNet pc) (hcaller : Pc.ofCaller pc) (t : Thread) :
    role t pc := by
  unfold role
  split_ifs
  · exact hnet
  · exact hcaller

theorem eq_net_of_role {t : Thread} {pc : Pc} (h : role t pc) (hcaller : Pc.ofCaller pc = false) :
    t = net := by
  unfold role at h
  split_ifs at h with ht
  · exact ht
  · rw [hcaller] at h
    cases h

theorem ne_net_of_role {t : Thread} {pc : Pc} (h : role t pc) (hnet : Pc.ofNet pc = false) :
    t ≠ net := by
  unfold role at h
  split_ifs at h with ht
  · rw [hnet] at h
    cases h
  · exact ht

theorem role_returnPc (t : Thread) : role t (returnPc t) := by
  unfold role returnPc
  split_ifs <;> rfl

/-- A video frame leads the network thread to a place of its own, and to an unit to enqueue only
while the session streams without a transition. -/
theorem videoPc_spec (st : Stream) (frame : VideoFrame) (arrival : ℕ) :
    (Pc.plain (videoPc st frame arrival) ∨ ∃ x, videoPc st frame arrival = .videoEnqueue x) ∧
      role net (videoPc st frame arrival) ∧ videoPc st frame arrival ≠ .idle ∧
      Pc.handshake (videoPc st frame arrival) = false := by
  unfold videoPc
  dsimp only
  split_ifs
  · exact ⟨.inl rfl, rfl, nofun, rfl⟩
  · exact ⟨.inl rfl, rfl, nofun, rfl⟩
  · exact ⟨.inl rfl, rfl, nofun, rfl⟩
  · exact ⟨.inr ⟨_, rfl⟩, rfl, nofun, rfl⟩

/-- What is about to be enqueued: a unit of the committed format, in a session that streams without
a transition, whose keyframes are self-contained. -/
theorem videoPc_enqueue {st : Stream} {frame : VideoFrame} {arrival : ℕ} {x : Arrived}
    (h : videoPc st frame arrival = .videoEnqueue x) :
    st.state = .streaming ∧ st.pendingStreamConfig = none ∧ st.resettingConsumer = false ∧
      x.unit.codec = st.streamConfig.codec ∧ x.unit.generation = st.streamGeneration ∧
      x.connection = st.connections ∧ x.arrival = arrival ∧
      (x.unit.keyframe →
        (Video.Annexb.inspect x.unit.bytes x.unit.codec).isSelfContainedKeyframe) := by
  unfold videoPc at h
  dsimp only at h
  split_ifs at h with h1 h2 h3
  obtain rfl := Pc.videoEnqueue.inj h
  push Not at h2 h3
  obtain ⟨hstate, htransition⟩ := h2
  have hpending : st.pendingStreamConfig = none ∧ st.resettingConsumer = false := by
    simpa using htransition
  exact ⟨hstate, hpending.1, hpending.2, rfl, rfl, rfl, rfl,
    fun hk => by simpa using h3.2.2.2 hk⟩

theorem roles_effect (h : Roles s) (e : Effect cfg s a s') : Roles s' := by
  cases e with
  | still hstate => exact h
  | plain hfrom hvalid hto hstate => exact h.goto (hto.keepsRole (h _))
  | connect hpc => exact h.goto rfl
  | disconnect hpc => exact h.goto rfl
  | arrive hpc => exact h.goto (videoPc_spec _ _ _).2.1
  | flush hfrom hto hdropped => exact h.goto (hto.keepsRole (h _))
  | append hpc hkey => exact h.goto (role_of_both rfl rfl _)
  | @startStream t ok activity hpc =>
    obtain rfl : t = net := eq_net_of_role (h t) (by rw [hpc]; rfl)
    exact h.goto rfl
  | @formatAck t ok generation applied activity hpc =>
    obtain rfl : t = net := eq_net_of_role (h t) (by rw [hpc]; rfl)
    exact h.goto rfl
  | @resetLock t ok config generation connection after hpc hmutex =>
    have ht := h t
    rw [hpc] at ht
    exact h.goto ht
  | @resetCall t ok consumer config generation connection after hpc =>
    have ht := h t
    rw [hpc] at ht
    cases consumer <;> exact h.goto ht
  | @resetClear t ok after hpc =>
    have ht := h t
    rw [hpc] at ht
    cases after with
    | streamStart =>
      obtain rfl : t = net := eq_net_of_role ht rfl
      exact h.goto rfl
    | formatAck =>
      obtain rfl : t = net := eq_net_of_role ht rfl
      exact h.goto rfl
    | setConsumer => exact h.goto (role_of_both rfl rfl _)
  | @replaceReset t ok consumer hpc hmutex hstate hpending hresetting =>
    have hne : t ≠ net := ne_net_of_role (h t) (by rw [hpc]; rfl)
    refine h.goto ?_
    rw [role, if_neg hne]
    rfl
  | replace hpc hmutex hskip => exact h.goto (role_of_both rfl rfl _)
  | drainBusy hpc hdraining => exact h.goto (role_returnPc _)
  | drainEnter hpc hdraining => exact h.goto (role_of_both rfl rfl _)
  | drainStop hpc => exact h.goto (role_returnPc _)
  | drainTake hpc hqueue hconsumer hresetting => exact h.goto (role_of_both rfl rfl _)
  | @consume t taken queued consumer hpc hmutex =>
    cases taken <;> exact h.goto (role_of_both rfl rfl _)
  | pop hpc hqueue htoken => exact h.goto (role_of_both rfl rfl _)
  | keep hpc htoken => exact h.goto (role_of_both rfl rfl _)

/-! ### Regions -/

/-- In a reset callback. -/
def Pc.calls : Pc → Bool
  | .resetCall .. => true
  | _ => false

theorem plain_iff {pc : Pc} :
    Pc.plain pc ↔ Pc.drains pc = false ∧ Pc.resets pc = false ∧ Pc.enqueues pc = false := by
  unfold Pc.plain
  cases Pc.drains pc <;> cases Pc.resets pc <;> cases Pc.enqueues pc <;> decide

theorem calls_of_resets {pc : Pc} (h : Pc.resets pc = false) : Pc.calls pc = false := by
  cases pc <;> first | rfl | cases h

theorem calls_of_moves {t : Thread} {pc' : Pc} (h : Moves s t pc') : Pc.calls pc' = false :=
  calls_of_resets (plain_iff.mp h.plain).2.1

theorem videoPc_calls (st : Stream) (frame : VideoFrame) (arrival : ℕ) :
    Pc.calls (videoPc st frame arrival) = false := by
  rcases (videoPc_spec st frame arrival).1 with h | ⟨x, h⟩
  · exact calls_of_resets (plain_iff.mp h).2.1
  · rw [h]
    rfl

theorem returnPc_calls (t : Thread) : Pc.calls (returnPc t) = false := by
  unfold returnPc
  split_ifs <;> rfl

/-! ### The consumer mutex -/

/-- The thread in a reset callback owns `consumerMutex_`. -/
def Owned (s : Sys) : Prop := ∀ t, Pc.calls (s.pc t) → s.consumerMutex = some t

theorem Owned.goto {t : Thread} {pc : Pc} (h : Owned s) (hpc : Pc.calls pc = false) :
    Owned (s.goto t pc) := by
  refine Pool.forall_set (P := fun u pc => Pc.calls pc → s.consumerMutex = some u) h ?_
  rw [hpc]
  nofun

theorem owned_effect (h : Owned s) (e : Effect cfg s a s') : Owned s' := by
  cases e with
  | still hstate => exact h
  | plain hfrom hvalid hto hstate => exact h.goto (calls_of_moves hto)
  | connect hpc => exact h.goto rfl
  | disconnect hpc => exact h.goto rfl
  | arrive hpc => exact h.goto (videoPc_calls _ _ _)
  | flush hfrom hto hdropped => exact h.goto (calls_of_moves hto)
  | append hpc hkey => exact h.goto rfl
  | startStream hpc hstate hpending hresetting => exact h.goto rfl
  | formatAck hpc hpending hresetting => exact h.goto rfl
  | resetLock hpc hmutex =>
    refine Pool.forall_set (P := fun u pc => Pc.calls pc → some _ = some u) (fun u hu => ?_)
      fun _ => rfl
    have hother := h u hu
    rw [hmutex] at hother
    cases hother
  | @resetCall t ok consumer config generation connection after hpc =>
    have ht : s.consumerMutex = some t := h t (by rw [hpc]; rfl)
    intro u hu
    have hcalls : Pc.calls ((s.goto t (.resetClear after)).pc u) := by
      cases consumer <;> exact hu
    rw [pc_goto] at hcalls
    split_ifs at hcalls with hut
    · cases hcalls
    · have hother := h u hcalls
      rw [ht] at hother
      exact absurd (Option.some.inj hother).symm hut
  | @resetClear t ok after hpc => cases after <;> exact h.goto rfl
  | replaceReset hpc hmutex hstate hpending hresetting => exact h.goto rfl
  | replace hpc hmutex hskip => exact h.goto rfl
  | drainBusy hpc hdraining => exact h.goto (returnPc_calls _)
  | drainEnter hpc hdraining => exact h.goto rfl
  | drainStop hpc => exact h.goto (returnPc_calls _)
  | drainTake hpc hqueue hconsumer hresetting => exact h.goto rfl
  | @consume t taken queued consumer hpc hmutex => cases taken <;> exact h.goto rfl
  | pop hpc hqueue htoken => exact h.goto rfl
  | keep hpc htoken => exact h.goto rfl

/-! ### Before a session streams -/

/-- The network thread is between connections or in a handshake, or the session has not started. -/
def Unstarted (s : Sys) : Prop :=
  s.pc net = .idle ∨ Pc.handshake (s.pc net) ∨
    s.stream.state ≠ .streaming ∧ s.stream.state ≠ .failed

/-- Nothing is queued or about to be, and the next unit has to be a keyframe. -/
structure Quiet (s : Sys) : Prop where
  queue : s.stream.queue = []
  waiting : s.stream.waitingForKeyframe
  net : Pc.enqueues (s.pc net) = false

/-- Where a thread can move to in a session that has started. -/
theorem unstarted_of_moves {t : Thread} {pc' : Pc} (hr : Roles s) (hto : Moves s t pc')
    (ht : t = net) (hpc : pc' = .idle ∨ Pc.handshake pc') : Unstarted s := by
  rcases hpc with hidle | hshake
  · exact absurd hidle (hto.serving (hr t) ht).2
  · subst ht
    rcases hto.handshake hshake with h | h | h
    · exact .inr (.inl h)
    · exact .inr (.inr (by rw [h]; exact ⟨nofun, nofun⟩))
    · exact .inr (.inr (by rw [h]; exact ⟨nofun, nofun⟩))

theorem unstarted_of_judges {t : Thread} {state : State} {trusted : Bool} (hr : Roles s)
    (h : Judges s t state trusted) (h1 : state ≠ .streaming) (h2 : state ≠ .failed) :
    Unstarted s := by
  rcases h with ⟨rfl, -⟩ | ⟨rfl, -⟩ | ⟨hshake, -⟩
  · exact .inr (.inr ⟨h1, h2⟩)
  · exact absurd rfl h2
  · obtain rfl : t = net := by
      refine eq_net_of_role (hr t) ?_
      cases hpc : s.pc t <;> rw [hpc] at hshake <;> first | rfl | cases hshake
    exact .inr (.inl hshake)

/-- A step that queues nothing, after which the session has started if it had before. -/
theorem quiet_goto {s₁ : Sys} {t : Thread} {pc : Pc} (h : Unstarted s → Quiet s)
    (hpool : s₁.pool = s.pool) (hqueue : s.stream.queue = [] → s₁.stream.queue = [])
    (hwaiting : s.stream.waitingForKeyframe → s₁.stream.waitingForKeyframe)
    (hstate : s₁.stream.state ≠ .streaming → s₁.stream.state ≠ .failed → Unstarted s)
    (hpc : t = net → Pc.enqueues pc = false ∧ (pc = .idle ∨ Pc.handshake pc → Unstarted s)) :
    Unstarted (s₁.goto t pc) → Quiet (s₁.goto t pc) := by
  intro hu
  have hnet : (s₁.goto t pc).pc net = if net = t then pc else s.pc net := by
    rw [pc_goto, Sys.pc, Sys.pc, hpool]
  have hbefore : Quiet s := by
    refine h ?_
    unfold Unstarted at hu
    rw [hnet] at hu
    split_ifs at hu with ht
    · rcases hu with hu | hu | hu
      · exact (hpc ht.symm).2 (.inl hu)
      · exact (hpc ht.symm).2 (.inr hu)
      · exact hstate hu.1 hu.2
    · rcases hu with hu | hu | hu
      · exact .inl hu
      · exact .inr (.inl hu)
      · exact hstate hu.1 hu.2
  refine ⟨hqueue hbefore.queue, hwaiting hbefore.waiting, ?_⟩
  rw [hnet]
  split_ifs with ht
  · exact (hpc ht.symm).1
  · exact hbefore.net

/-- A step that leaves the state of the session alone, to a place that is no handshake. -/
theorem quiet_goto_of_keep {s₁ : Sys} {t : Thread} {pc : Pc} (h : Unstarted s → Quiet s)
    (hpool : s₁.pool = s.pool) (hqueue : s.stream.queue = [] → s₁.stream.queue = [])
    (hwaiting : s.stream.waitingForKeyframe → s₁.stream.waitingForKeyframe)
    (hstate : s₁.stream.state = s.stream.state)
    (hpc : Pc.enqueues pc = false ∧ Pc.handshake pc = false) (hidle : t = net → pc ≠ .idle) :
    Unstarted (s₁.goto t pc) → Quiet (s₁.goto t pc) := by
  refine quiet_goto h hpool hqueue hwaiting (fun h1 h2 => ?_) fun ht => ⟨hpc.1, ?_⟩
  · rw [hstate] at h1 h2
    exact .inr (.inr ⟨h1, h2⟩)
  · rw [hpc.2]
    rintro (hi | hf)
    · exact absurd hi (hidle ht)
    · cases hf

theorem returnPc_spec (t : Thread) :
    (Pc.enqueues (returnPc t) = false ∧ Pc.handshake (returnPc t) = false) ∧
      (t = net → returnPc t ≠ .idle) := by
  unfold returnPc
  split_ifs with ht
  · exact ⟨⟨rfl, rfl⟩, fun _ => nofun⟩
  · exact ⟨⟨rfl, rfl⟩, fun h => absurd h ht⟩

theorem quiet_effect (hr : Roles s) (h : Unstarted s → Quiet s) (e : Effect cfg s a s') :
    Unstarted s' → Quiet s' := by
  cases e with
  | still hstate =>
    intro hu
    have hbefore : Unstarted s := by
      rcases hu with hu | hu | ⟨h1, h2⟩
      · exact .inl hu
      · exact .inr (.inl hu)
      · rcases hstate with rfl | rfl
        · exact .inr (.inr ⟨h1, h2⟩)
        · exact absurd rfl h2
    exact ⟨(h hbefore).queue, (h hbefore).waiting, (h hbefore).net⟩
  | plain hfrom hvalid hto hstate =>
    exact quiet_goto h rfl id id (unstarted_of_judges hr hstate)
      fun ht => ⟨(plain_iff.mp hto.plain).2.2, unstarted_of_moves hr hto ht⟩
  | connect hpc => exact fun _ => ⟨rfl, rfl, by rw [onConnected, pc_goto_self]; rfl⟩
  | disconnect hpc => exact fun _ => ⟨rfl, rfl, by rw [onDisconnected, pc_goto_self]; rfl⟩
  | @arrive frame hpc =>
    obtain ⟨-, -, hidle, hshake⟩ := videoPc_spec s.stream frame s.arrivals
    rintro (hu | hu | hu)
    · rw [pc_goto_self] at hu
      exact absurd hu hidle
    · rw [pc_goto_self, hshake] at hu
      cases hu
    · have hbefore := h (.inr (.inr hu))
      refine ⟨hbefore.queue, hbefore.waiting, ?_⟩
      rw [pc_goto_self]
      cases hv : videoPc s.stream frame s.arrivals <;> first
        | rfl
        | exact absurd (videoPc_enqueue hv).1 hu.1
  | flush hfrom hto hdropped =>
    exact quiet_goto h rfl (fun _ => rfl) (fun _ => rfl) (fun h1 h2 => .inr (.inr ⟨h1, h2⟩))
      fun ht => ⟨(plain_iff.mp hto.plain).2.2, unstarted_of_moves hr hto ht⟩
  | @append t ok x activity hpc hkey =>
    obtain rfl : t = net := eq_net_of_role (hr t) (by rw [hpc]; rfl)
    rintro (hu | hu | hu)
    · rw [pc_goto_self] at hu
      cases hu
    · rw [pc_goto_self] at hu
      cases hu
    · have henq := (h (.inr (.inr hu))).net
      rw [hpc] at henq
      cases henq
  | startStream hpc hstate hpending hresetting =>
    exact quiet_goto h rfl id id (fun h1 _ => absurd rfl h1)
      fun _ => ⟨rfl, by rintro (h | h) <;> cases h⟩
  | formatAck hpc hpending hresetting =>
    exact quiet_goto_of_keep h rfl (fun _ => rfl) (fun _ => rfl) rfl ⟨rfl, rfl⟩ fun _ => nofun
  | resetLock hpc hmutex => exact quiet_goto_of_keep h rfl id id rfl ⟨rfl, rfl⟩ fun _ => nofun
  | @resetCall t ok consumer config generation connection after hpc =>
    cases consumer <;> exact quiet_goto_of_keep h rfl id id rfl ⟨rfl, rfl⟩ fun _ => nofun
  | @resetClear t ok after hpc =>
    cases after <;> exact quiet_goto_of_keep h rfl id id rfl ⟨rfl, rfl⟩ fun _ => nofun
  | replaceReset hpc hmutex hstate hpending hresetting =>
    exact quiet_goto_of_keep h rfl id id rfl ⟨rfl, rfl⟩ fun _ => nofun
  | replace hpc hmutex hskip => exact quiet_goto_of_keep h rfl id id rfl ⟨rfl, rfl⟩ fun _ => nofun
  | @drainBusy t ok hpc hdraining =>
    exact quiet_goto_of_keep h rfl id id rfl (returnPc_spec t).1 (returnPc_spec t).2
  | drainEnter hpc hdraining => exact quiet_goto_of_keep h rfl id id rfl ⟨rfl, rfl⟩ fun _ => nofun
  | @drainStop t ok hpc =>
    exact quiet_goto_of_keep h rfl id id rfl (returnPc_spec t).1 (returnPc_spec t).2
  | drainTake hpc hqueue hconsumer hresetting =>
    exact quiet_goto_of_keep h rfl id id rfl ⟨rfl, rfl⟩ fun _ => nofun
  | @consume t taken queued consumer hpc hmutex =>
    cases taken <;> exact quiet_goto_of_keep h rfl id id rfl ⟨rfl, rfl⟩ fun _ => nofun
  | pop hpc hqueue htoken =>
    refine quiet_goto_of_keep h rfl (fun h0 => ?_) id rfl ⟨rfl, rfl⟩ fun _ => nofun
    rw [hqueue] at h0
    cases h0
  | keep hpc htoken => exact quiet_goto_of_keep h rfl id id rfl ⟨rfl, rfl⟩ fun _ => nofun

/-! ### Trust -/

/-- A session that is ready or streams is trusted, and there is none between connections. -/
structure Admitted (s : Sys) : Prop where
  trusted : s.stream.state = .ready ∨ s.stream.state = .streaming → s.stream.trusted
  online : s.stream.state = .ready ∨ s.stream.state = .streaming → s.pc net ≠ .idle

theorem admitted_of_state (h : s.stream.state ≠ .ready ∧ s.stream.state ≠ .streaming) : Admitted s :=
  ⟨fun hs => absurd hs (not_or.mpr h), fun hs => absurd hs (not_or.mpr h)⟩

/-- A step that leaves the state of the session alone. -/
theorem Admitted.goto {s₁ : Sys} {t : Thread} {pc : Pc} (h : Admitted s) (hpool : s₁.pool = s.pool)
    (hstate : s₁.stream.state = s.stream.state) (htrusted : s₁.stream.trusted = s.stream.trusted)
    (hpc : t = net → pc ≠ .idle) : Admitted (s₁.goto t pc) := by
  refine ⟨fun hs => ?_, fun hs => ?_⟩
  · rw [stream_goto, hstate] at hs
    rw [stream_goto, htrusted]
    exact h.trusted hs
  · rw [stream_goto, hstate] at hs
    rw [pc_goto, Sys.pc, hpool]
    split_ifs with ht
    · exact hpc ht.symm
    · exact h.online hs

theorem admitted_effect (hr : Roles s) (h : Admitted s) (e : Effect cfg s a s') : Admitted s' := by
  cases e with
  | still hstate =>
    rcases hstate with rfl | rfl
    · exact ⟨h.trusted, h.online⟩
    · exact admitted_of_state ⟨nofun, nofun⟩
  | @plain _ t pc' state trusted dropped activity hfrom hvalid hto hstate =>
    rcases hstate with ⟨rfl, rfl⟩ | ⟨rfl, rfl⟩ | ⟨hshake, hs⟩
    · exact h.goto rfl rfl rfl fun ht => (hto.serving (hr t) ht).2
    · exact admitted_of_state ⟨nofun, nofun⟩
    · obtain rfl : t = net := by
        refine eq_net_of_role (hr t) ?_
        cases hpc : s.pc t <;> rw [hpc] at hshake <;> first | rfl | cases hshake
      refine ⟨fun hready => ?_, fun _ => ?_⟩
      · rcases hs with rfl | ⟨rfl, rfl⟩
        · rcases hready with h | h <;> cases h
        · rfl
      · rw [pc_goto_self]
        exact (hto.serving (hr net) rfl).2
  | connect hpc =>
    refine ⟨fun hs => ?_, fun _ => ?_⟩
    · unfold onConnected at hs
      dsimp only [stream_goto] at hs
      split_ifs at hs <;> rcases hs with hs | hs <;> cases hs
    · rw [onConnected, pc_goto_self]
      nofun
  | disconnect hpc => exact admitted_of_state ⟨nofun, nofun⟩
  | @arrive frame hpc => exact h.goto rfl rfl rfl fun _ => (videoPc_spec _ _ _).2.2.1
  | @flush _ t pc' pending pendingGeneration nextGeneration dropped activity hfrom hto hdropped =>
    exact h.goto rfl rfl rfl fun ht => (hto.serving (hr t) ht).2
  | append hpc hkey => exact h.goto rfl rfl rfl fun _ => nofun
  | @startStream t ok activity hpc hstate hpending hresetting =>
    obtain rfl : t = net := eq_net_of_role (hr t) (by rw [hpc]; rfl)
    refine ⟨fun _ => h.trusted (.inl hstate), fun _ => ?_⟩
    rw [pc_goto_self]
    nofun
  | formatAck hpc hpending hresetting => exact h.goto rfl rfl rfl fun _ => nofun
  | resetLock hpc hmutex => exact h.goto rfl rfl rfl fun _ => nofun
  | @resetCall t ok consumer config generation connection after hpc =>
    cases consumer <;> exact h.goto rfl rfl rfl fun _ => nofun
  | @resetClear t ok after hpc => cases after <;> exact h.goto rfl rfl rfl fun _ => nofun
  | replaceReset hpc hmutex hstate hpending hresetting => exact h.goto rfl rfl rfl fun _ => nofun
  | replace hpc hmutex hskip => exact h.goto rfl rfl rfl fun _ => nofun
  | @drainBusy t ok hpc hdraining => exact h.goto rfl rfl rfl (returnPc_spec t).2
  | drainEnter hpc hdraining => exact h.goto rfl rfl rfl fun _ => nofun
  | @drainStop t ok hpc => exact h.goto rfl rfl rfl (returnPc_spec t).2
  | drainTake hpc hqueue hconsumer hresetting => exact h.goto rfl rfl rfl fun _ => nofun
  | @consume t taken queued consumer hpc hmutex =>
    cases taken <;> exact h.goto rfl rfl rfl fun _ => nofun
  | pop hpc hqueue htoken => exact h.goto rfl rfl rfl fun _ => nofun
  | keep hpc htoken => exact h.goto rfl rfl rfl fun _ => nofun

/-! ### All of them -/

structure Base (s : Sys) : Prop where
  roles : Roles s
  owned : Owned s
  quiet : Unstarted s → Quiet s
  admitted : Admitted s

theorem pc_start (cfg : SessionConfig) (consumer : Option ConsumerId) (t : Thread) :
    (Sys.start cfg consumer).pc t = .idle := by
  rw [Sys.pc, Pool.get]
  rfl

theorem base_start (cfg : SessionConfig) (consumer : Option ConsumerId) :
    Base (.start cfg consumer) where
  roles t := by
    rw [pc_start]
    exact role_of_both rfl rfl t
  owned t h := by
    rw [pc_start] at h
    cases h
  quiet _ := ⟨rfl, rfl, by rw [pc_start]; rfl⟩
  admitted := admitted_of_state ⟨nofun, nofun⟩

/-- **A step keeps the invariants.** -/
theorem base_next (h : Base s) (he : enabled s a) : Base (next cfg s a) :=
  have e := next_effect cfg he
  ⟨roles_effect h.roles e, owned_effect h.owned e, quiet_effect h.roles h.quiet e,
    admitted_effect h.roles h.admitted e⟩

/-! ### Exclusive regions

`draining_` and `resettingConsumer_` keep a second thread out of the drain loop and of a reset, as
long as no connection begins while a thread is inside: `onConnected` clears both. -/

theorem outside_of_moves {t : Thread} {pc' : Pc} (h : Moves s t pc') :
    Pc.drains pc' = false ∧ Pc.resets pc' = false :=
  ⟨(plain_iff.mp h.plain).1, (plain_iff.mp h.plain).2.1⟩

theorem videoPc_outside (st : Stream) (frame : VideoFrame) (arrival : ℕ) :
    Pc.drains (videoPc st frame arrival) = false ∧ Pc.resets (videoPc st frame arrival) = false := by
  rcases (videoPc_spec st frame arrival).1 with h | ⟨x, h⟩
  · exact ⟨(plain_iff.mp h).1, (plain_iff.mp h).2.1⟩
  · rw [h]
    exact ⟨rfl, rfl⟩

theorem returnPc_outside (t : Thread) :
    Pc.drains (returnPc t) = false ∧ Pc.resets (returnPc t) = false := by
  unfold returnPc
  split_ifs <;> exact ⟨rfl, rfl⟩

/-- One thread drains at a time. -/
def OneDrainer (s : Sys) : Prop := s.pool.Guarded Pc.drains (s.stream.draining = true)

theorem OneDrainer.alone (h : OneDrainer s) {t u : Thread} (hu : Pc.drains (s.pc u))
    (ht : Pc.drains (s.pc t)) : u = t := h.one u t hu ht

theorem oneDrainer_effect (h : OneDrainer s) (e : Effect cfg s a s')
    (hconnect : a = .connect → s.Free Pc.drains) : OneDrainer s' := by
  cases e with
  | still hstate => exact h
  | plain hfrom hvalid hto hstate => exact h.stay (.inl (outside_of_moves hto).1) id
  | connect hpc => exact .of_empty (hconnect rfl) rfl
  | disconnect hpc => exact h.stay (.inl rfl) id
  | arrive hpc => exact h.stay (.inl (videoPc_outside _ _ _).1) id
  | flush hfrom hto hdropped => exact h.stay (.inl (outside_of_moves hto).1) id
  | append hpc hkey => exact h.stay (.inl rfl) id
  | startStream hpc hstate hpending hresetting => exact h.stay (.inl rfl) id
  | formatAck hpc hpending hresetting => exact h.stay (.inl rfl) id
  | resetLock hpc hmutex => exact h.stay (.inl rfl) id
  | @resetCall t ok consumer config generation connection after hpc =>
    cases consumer <;> exact h.stay (.inl rfl) id
  | @resetClear t ok after hpc => cases after <;> exact h.stay (.inl rfl) id
  | replaceReset hpc hmutex hstate hpending hresetting => exact h.stay (.inl rfl) id
  | replace hpc hmutex hskip => exact h.stay (.inl rfl) id
  | drainBusy hpc hdraining => exact h.stay (.inl (returnPc_outside _).1) id
  | drainEnter hpc hdraining =>
    exact h.enter (by rw [hdraining]; nofun) rfl
  | @drainStop t ok hpc =>
    have ht : Pc.drains (s.pc t) := by rcases hpc with hpc | hpc <;> rw [hpc] <;> rfl
    exact h.exit ht (returnPc_outside t).1
  | @drainTake t ok queued rest consumer hpc hqueue hconsumer hresetting =>
    have ht : Pc.drains (s.pc t) := by rw [hpc]; rfl
    exact h.stay (.inr ht) id
  | @consume t taken queued consumer hpc hmutex =>
    have ht : Pc.drains (s.pc t) := by rw [hpc]; rfl
    exact h.stay (.inr ht) id
  | @pop t ok queued front rest bytes depth hpc hqueue htoken =>
    have ht : Pc.drains (s.pc t) := by rw [hpc]; rfl
    exact h.stay (.inr ht) id
  | @keep t ok queued depth hpc htoken =>
    have ht : Pc.drains (s.pc t) := by rw [hpc]; rfl
    exact h.stay (.inr ht) id

theorem oneDrainer_start (cfg : SessionConfig) (consumer : Option ConsumerId) :
    OneDrainer (.start cfg consumer) := .of_none fun t => by
  change Pc.drains ((Sys.start cfg consumer).pc t) = false
  rw [pc_start]
  rfl

/-- One thread resets the consumer at a time, of those that began in this connection. -/
def OneReset (s : Sys) : Prop :=
  s.pool.Guarded Pc.resets (s.stream.resettingConsumer = true ∨ s.pc net = .idle)

/-- A step that enters no reset. -/
theorem OneReset.stay {s₁ : Sys} {t : Thread} {pc : Pc} (h : OneReset s) (hpool : s₁.pool = s.pool)
    (hpc : Pc.resets pc = false ∨ Pc.resets (s.pc t))
    (hflag : s₁.stream.resettingConsumer = s.stream.resettingConsumer)
    (hidle : t = net → s.pc net ≠ .idle) : OneReset (s₁.goto t pc) := by
  unfold OneReset Sys.goto
  rw [hpool]
  refine Pool.Guarded.stay h hpc fun hf => ?_
  rcases hf with hf | hf
  · exact .inl (hflag.trans hf)
  · refine .inr ?_
    have hne : net ≠ t := fun ht => hidle ht.symm hf
    rw [Sys.pc, Pool.get_set_of_ne _ hne]
    exact hf

theorem oneReset_effect (hb : Base s) (h : OneReset s) (e : Effect cfg s a s')
    (hconnect : a = .connect → s.Free Pc.resets) : OneReset s' := by
  cases e with
  | still hstate => exact h
  | @plain _ t pc' state trusted dropped activity hfrom hvalid hto hstate =>
    exact h.stay rfl (.inl (outside_of_moves hto).2) rfl
      fun ht => ht ▸ (hto.serving (hb.roles t) ht).1
  | connect hpc => exact .of_empty (hconnect rfl) rfl
  | disconnect hpc =>
    exact Pool.Guarded.stay h (.inl rfl) fun _ => .inr (pc_goto_self _ _ _)
  | arrive hpc =>
    exact h.stay rfl (.inl (videoPc_outside _ _ _).2) rfl fun _ => by rw [hpc]; nofun
  | @flush _ t pc' pending pendingGeneration nextGeneration dropped activity hfrom hto hdropped =>
    exact h.stay rfl (.inl (outside_of_moves hto).2) rfl
      fun ht => ht ▸ (hto.serving (hb.roles t) ht).1
  | append hpc hkey => exact h.stay rfl (.inl rfl) rfl fun ht => by rw [← ht, hpc]; nofun
  | startStream hpc hstate hpending hresetting =>
    refine Pool.Guarded.enter h ?_ (.inl rfl)
    rintro (hf | hf)
    · rw [hresetting] at hf
      cases hf
    · exact hb.admitted.online (.inl hstate) hf
  | @formatAck t ok generation applied activity hpc hpending hresetting =>
    obtain rfl : t = net := eq_net_of_role (hb.roles t) (by rw [hpc]; rfl)
    refine Pool.Guarded.enter h ?_ (.inl rfl)
    rintro (hf | hf)
    · rw [hresetting] at hf
      cases hf
    · rw [hpc] at hf
      cases hf
  | @resetLock t ok config generation connection after hpc hmutex =>
    exact h.stay rfl (.inr (by rw [hpc]; rfl)) rfl fun ht => by rw [← ht, hpc]; nofun
  | @resetCall t ok consumer config generation connection after hpc =>
    cases consumer <;>
      exact h.stay rfl (.inr (by rw [hpc]; rfl)) rfl fun ht => by rw [← ht, hpc]; nofun
  | @resetClear t ok after hpc =>
    have ht : Pc.resets (s.pc t) := by rw [hpc]; rfl
    cases after <;> exact Pool.Guarded.exit h ht rfl
  | replaceReset hpc hmutex hstate hpending hresetting =>
    refine Pool.Guarded.enter h ?_ (.inl rfl)
    rintro (hf | hf)
    · rw [hresetting] at hf
      cases hf
    · exact hb.admitted.online (.inr hstate) hf
  | replace hpc hmutex hskip =>
    exact h.stay rfl (.inl rfl) rfl fun ht => by rw [← ht, hpc]; nofun
  | drainBusy hpc hdraining =>
    exact h.stay rfl (.inl (returnPc_outside _).2) rfl fun ht => by rw [← ht, hpc]; nofun
  | drainEnter hpc hdraining =>
    exact h.stay rfl (.inl rfl) rfl fun ht => by rw [← ht, hpc]; nofun
  | @drainStop t ok hpc =>
    have ht : s.pc t ≠ .idle := by rcases hpc with hpc | hpc <;> rw [hpc] <;> nofun
    exact h.stay rfl (.inl (returnPc_outside _).2) rfl fun hn => hn ▸ ht
  | drainTake hpc hqueue hconsumer hresetting =>
    exact h.stay rfl (.inl rfl) rfl fun ht => by rw [← ht, hpc]; nofun
  | @consume t taken queued consumer hpc hmutex =>
    cases taken <;> exact h.stay rfl (.inl rfl) rfl fun ht => by rw [← ht, hpc]; nofun
  | pop hpc hqueue htoken =>
    exact h.stay rfl (.inl rfl) rfl fun ht => by rw [← ht, hpc]; nofun
  | keep hpc htoken =>
    exact h.stay rfl (.inl rfl) rfl fun ht => by rw [← ht, hpc]; nofun

theorem free_of_oneReset (h : OneReset s) (hresetting : s.stream.resettingConsumer = false)
    (hnet : s.pc net ≠ .idle) : s.Free Pc.resets := by
  intro u
  by_contra hu
  have hin : Pc.resets (s.pc u) := by simpa using hu
  rcases h.flag u hin with hf | hf
  · rw [hresetting] at hf
    cases hf
  · exact hnet hf

theorem oneReset_start (cfg : SessionConfig) (consumer : Option ConsumerId) :
    OneReset (.start cfg consumer) := .of_none fun t => by
  change Pc.resets ((Sys.start cfg consumer).pc t) = false
  rw [pc_start]
  rfl

end RemoteCam.Backend.Invariants
