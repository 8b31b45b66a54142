import RemoteCam.Backend.Invariants

/-! # What `handleVideo` appends

A unit is inspected between two critical sections: the first reads the state, the codec and the
generation, the second appends. The codec and the generation cannot change in between, since only
the network thread commits a format; a change may be proposed, a consumer reset or the session fail,
and the second section looks at none of these. -/

namespace RemoteCam.Backend.Admission

open RemoteCam.Lib.Threads RemoteCam.Lib.Transitions RemoteCam.Backend.Session
open RemoteCam.Backend.Effects RemoteCam.Backend.Invariants

variable {cfg : SessionConfig} {s s' : Sys} {a : Action}

/-- The state admits the unit: a trusted session streams without a transition, and the unit has the
committed codec and generation. -/
structure Admits (st : Stream) (x : EncodedAccessUnit) : Prop where
  trusted : st.trusted
  streaming : st.state = .streaming
  settled : st.pendingStreamConfig = none ∧ st.resettingConsumer = false
  codec : x.codec = st.streamConfig.codec
  generation : x.generation = st.streamGeneration

/-- Whatever the step appends to the queue, the state before it admits. -/
def admitsAppended (cfg : SessionConfig) (s : Sys) (a : Action) : Prop :=
  ∀ x, (next cfg s a).stream.queue = s.stream.queue ++ [x] → Admits s.stream x.unit

/-- The unit the step will append: `handleVideo` neither waits for a keyframe nor overflows. -/
def appending (cfg : SessionConfig) (s : Sys) : Action → Option Arrived
  | .run t _ =>
    match s.pc t with
    | .videoEnqueue x =>
      if s.stream.waitingForKeyframe ∧ !x.unit.keyframe then none
      else if s.stream.queue.length ≥ cfg.maxQueuedAccessUnits ∨
          s.stream.queueBytes + x.unit.bytes.length > cfg.maxQueuedBytes then none
      else some x
    | _ => none
  | _ => none

/-- A unit is appended in a session that has not failed since it was read, with no reset of the
consumer under way and, if it is a keyframe, no format change proposed since. -/
def undisturbed (cfg : SessionConfig) (s : Sys) (a : Action) : Prop :=
  ∀ x ∈ appending cfg s a, s.stream.state ≠ .failed ∧ s.stream.resettingConsumer = false ∧
    (x.unit.keyframe → s.stream.pendingStreamConfig = none)

instance (cfg : SessionConfig) (s : Sys) (a : Action) : Decidable (undisturbed cfg s a) :=
  Option.decidableForallMem _

/-! ### Between the two sections -/

/-- What the other threads leave true of a unit that was read. -/
structure Fits (st : Stream) (x : EncodedAccessUnit) : Prop where
  state : st.state = .streaming ∨ st.state = .failed
  codec : x.codec = st.streamConfig.codec
  generation : x.generation = st.streamGeneration
  pending : st.pendingStreamConfig.isSome → st.waitingForKeyframe

def Read (s : Sys) : Prop := ∀ x, s.pc net = .videoEnqueue x → Fits s.stream x.unit

/-- A step that does not end with a unit of its own to append. -/
theorem Read.goto {s₁ : Sys} {t : Thread} {pc : Pc} (h : Read s) (hpool : s₁.pool = s.pool)
    (hpc : Pc.enqueues pc = false)
    (hfits : t ≠ net → ∀ x, Fits s.stream x → Fits s₁.stream x) : Read (s₁.goto t pc) := by
  intro x hx
  rw [stream_goto]
  by_cases ht : t = net
  · subst ht
    rw [pc_goto_self] at hx
    rw [hx] at hpc
    cases hpc
  · have hbefore : s.pc net = .videoEnqueue x := by
      rwa [pc_goto_of_ne _ (Ne.symm ht), Sys.pc, hpool] at hx
    exact hfits ht x.unit (h x hbefore)

theorem net_of_handshake {t : Thread} (hb : Base s) (h : Pc.handshake (s.pc t)) : t = net := by
  refine eq_net_of_role (hb.roles t) ?_
  cases hpc : s.pc t <;> rw [hpc] at h <;> first | rfl | cases h

theorem read_effect (hb : Base s) (h : Read s) (e : Effect cfg s a s') : Read s' := by
  cases e with
  | still hstate =>
    intro x hx
    obtain ⟨hs, hcodec, hgeneration, hpending⟩ := h x hx
    refine ⟨?_, hcodec, hgeneration, hpending⟩
    rcases hstate with rfl | rfl
    · exact hs
    · exact .inr rfl
  | @plain _ t pc' state trusted dropped activity hfrom hvalid hto hstate =>
    refine h.goto rfl (plain_iff.mp hto.plain).2.2 fun ht x hx => ⟨?_, hx.codec, hx.generation,
      hx.pending⟩
    rcases hstate with ⟨rfl, -⟩ | ⟨rfl, -⟩ | ⟨hshake, -⟩
    · exact hx.state
    · exact .inr rfl
    · exact absurd (net_of_handshake hb hshake) ht
  | connect hpc => exact h.goto rfl rfl fun ht => absurd rfl ht
  | disconnect hpc => exact h.goto rfl rfl fun ht => absurd rfl ht
  | arrive hpc =>
    intro x hx
    rw [pc_goto_self] at hx
    obtain ⟨hstate, hpending, -, hcodec, hgeneration, -⟩ := videoPc_enqueue hx
    refine ⟨.inl hstate, hcodec, hgeneration, fun hsome => ?_⟩
    rw [stream_goto, hpending] at hsome
    cases hsome
  | flush hfrom hto hdropped =>
    exact h.goto rfl (plain_iff.mp hto.plain).2.2 fun _ x hx =>
      ⟨hx.state, hx.codec, hx.generation, fun _ => rfl⟩
  | @append t ok x activity hpc hkey =>
    have ht : t = net := eq_net_of_role (hb.roles t) (by rw [hpc]; rfl)
    exact h.goto rfl rfl fun hne => absurd ht hne
  | @startStream t ok activity hpc hstate hpending hresetting =>
    have ht : t = net := eq_net_of_role (hb.roles t) (by rw [hpc]; rfl)
    exact h.goto rfl rfl fun hne => absurd ht hne
  | @formatAck t ok generation applied activity hpc hpending hresetting =>
    have ht : t = net := eq_net_of_role (hb.roles t) (by rw [hpc]; rfl)
    exact h.goto rfl rfl fun hne => absurd ht hne
  | resetLock hpc hmutex => exact h.goto rfl rfl fun _ _ hx => hx
  | @resetCall t ok consumer config generation connection after hpc =>
    cases consumer <;> exact h.goto rfl rfl fun _ _ hx => hx
  | @resetClear t ok after hpc =>
    cases after <;>
      exact h.goto rfl rfl fun _ _ hx => ⟨hx.state, hx.codec, hx.generation, hx.pending⟩
  | replaceReset hpc hmutex hstate hpending hresetting =>
    exact h.goto rfl rfl fun _ _ hx => ⟨hx.state, hx.codec, hx.generation, hx.pending⟩
  | replace hpc hmutex hskip =>
    exact h.goto rfl rfl fun _ _ hx => ⟨hx.state, hx.codec, hx.generation, hx.pending⟩
  | drainBusy hpc hdraining => exact h.goto rfl (returnPc_spec _).1.1 fun _ _ hx => hx
  | drainEnter hpc hdraining =>
    exact h.goto rfl rfl fun _ _ hx => ⟨hx.state, hx.codec, hx.generation, hx.pending⟩
  | drainStop hpc =>
    exact h.goto rfl (returnPc_spec _).1.1 fun _ _ hx =>
      ⟨hx.state, hx.codec, hx.generation, hx.pending⟩
  | drainTake hpc hqueue hconsumer hresetting => exact h.goto rfl rfl fun _ _ hx => hx
  | @consume t taken queued consumer hpc hmutex =>
    cases taken <;> exact h.goto rfl rfl fun _ _ hx => hx
  | pop hpc hqueue htoken =>
    exact h.goto rfl rfl fun _ _ hx => ⟨hx.state, hx.codec, hx.generation, hx.pending⟩
  | keep hpc htoken =>
    exact h.goto rfl rfl fun _ _ hx => ⟨hx.state, hx.codec, hx.generation, hx.pending⟩

theorem read_start (cfg : SessionConfig) (consumer : Option ConsumerId) :
    Read (.start cfg consumer) := by
  intro x hx
  rw [pc_start] at hx
  cases hx

/-! ### The step that appends -/

/-- `handleVideo` drops the unit, flushes the queue, or appends it. -/
theorem queue_enqueue {t : Thread} (ok : Bool) {y : Arrived} (hpc : s.pc t = .videoEnqueue y) :
    (appending cfg s (.run t ok) = none ∧
      (enqueue cfg s t y).stream.queue.length ≤ s.stream.queue.length) ∨
    (appending cfg s (.run t ok) = some y ∧
      (s.stream.waitingForKeyframe → y.unit.keyframe) ∧
      (enqueue cfg s t y).stream.queue =
        s.stream.queue ++ [{ y with token := s.stream.nextQueueToken }]) := by
  simp only [appending, hpc, enqueue]
  by_cases hdrop : s.stream.waitingForKeyframe ∧ !y.unit.keyframe
  · rw [if_pos hdrop, if_pos hdrop]
    exact .inl ⟨rfl, Nat.le_refl _⟩
  · rw [if_neg hdrop, if_neg hdrop]
    by_cases hfull : s.stream.queue.length ≥ cfg.maxQueuedAccessUnits ∨
        s.stream.queueBytes + y.unit.bytes.length > cfg.maxQueuedBytes
    · have hfull' : (s.stream.meetKeyframe y.unit.keyframe).queue.length ≥
          cfg.maxQueuedAccessUnits ∨ (s.stream.meetKeyframe y.unit.keyframe).queueBytes +
            y.unit.bytes.length > cfg.maxQueuedBytes := hfull
      rw [if_pos hfull, if_pos hfull']
      exact .inl ⟨rfl, Nat.zero_le _⟩
    · have hfull' : ¬ ((s.stream.meetKeyframe y.unit.keyframe).queue.length ≥
          cfg.maxQueuedAccessUnits ∨ (s.stream.meetKeyframe y.unit.keyframe).queueBytes +
            y.unit.bytes.length > cfg.maxQueuedBytes) := hfull
      rw [if_neg hfull, if_neg hfull']
      refine .inr ⟨rfl, fun hw => ?_, rfl⟩
      by_contra hk
      exact hdrop ⟨hw, by simpa using hk⟩

/-- Only `handleVideo` makes the queue longer. -/
theorem length_queue_le (e : Effect cfg s a s') :
    s'.stream.queue.length ≤ s.stream.queue.length ∨
      ∃ t ok x, a = .run t ok ∧ s.pc t = .videoEnqueue x := by
  cases e with
  | @append t ok x activity hpc hkey => exact .inr ⟨t, ok, x, rfl, hpc⟩
  | connect hpc => exact .inl (Nat.zero_le _)
  | disconnect hpc => exact .inl (Nat.zero_le _)
  | flush hfrom hto hdropped => exact .inl (Nat.zero_le _)
  | formatAck hpc hpending hresetting => exact .inl (Nat.zero_le _)
  | @pop t ok queued front rest bytes depth hpc hqueue htoken =>
    have hlen : s.stream.queue.length = rest.length + 1 := by rw [hqueue, List.length_cons]
    refine .inl ?_
    change rest.length ≤ s.stream.queue.length
    omega
  | @resetCall t ok consumer config generation connection after hpc =>
    cases consumer <;> exact .inl (Nat.le_refl _)
  | @consume t taken queued consumer hpc hmutex => cases taken <;> exact .inl (Nat.le_refl _)
  | _ => exact .inl (Nat.le_refl _)

/-- A unit is appended only by the step that is about to. -/
theorem appending_of_queue (he : enabled s a) {x : QueuedAccessUnit}
    (h : (next cfg s a).stream.queue = s.stream.queue ++ [x]) :
    ∃ t, s.pc t = .videoEnqueue x.toArrived ∧ appending cfg s a = some x.toArrived ∧
      (s.stream.waitingForKeyframe → x.unit.keyframe) := by
  have hlen : (next cfg s a).stream.queue.length = s.stream.queue.length + 1 := by
    rw [h, List.length_append, List.length_singleton]
  rcases length_queue_le (next_effect cfg he) with hle | ⟨t, ok, y, rfl, hpc⟩
  · omega
  · rw [next, hpc] at h hlen
    change (enqueue cfg s t y).stream.queue = _ at h
    change (enqueue cfg s t y).stream.queue.length = _ at hlen
    rcases @queue_enqueue cfg s t ok _ hpc with ⟨-, hle⟩ | ⟨happ, hkey, hqueue⟩
    · omega
    · rw [hqueue, List.append_cancel_left_eq, List.cons.injEq] at h
      obtain ⟨rfl, -⟩ := h
      exact ⟨t, hpc, happ, hkey⟩

theorem queue_of_appending {y : Arrived} (h : appending cfg s a = some y) :
    (next cfg s a).stream.queue =
      s.stream.queue ++ [{ y with token := s.stream.nextQueueToken }] := by
  obtain ⟨t, ok, x, rfl, hpc⟩ : ∃ t ok x, a = .run t ok ∧ s.pc t = .videoEnqueue x := by
    unfold appending at h
    split at h
    · rename_i t ok
      split at h
      · rename_i x hpc
        exact ⟨t, ok, x, rfl, hpc⟩
      · cases h
    · cases h
  rcases @queue_enqueue cfg s t ok _ hpc with ⟨hnone, -⟩ | ⟨hsome, -, hqueue⟩
  · rw [hnone] at h
    cases h
  · rw [hsome, Option.some.injEq] at h
    subst h
    rw [next, hpc]
    exact hqueue

/-- **What reaches the queue.** In every run, every unit is appended in a state that admits it, if
and only if the session has not failed, no reset is under way and, for a keyframe, no format change
is proposed when it is appended. -/
theorem admitsAppended_iff (cfg : SessionConfig) (consumer : Option ConsumerId)
    (as : List Action) :
    (controller cfg).Legal (admitsAppended cfg) (.start cfg consumer) as ↔
      (controller cfg).Legal (undisturbed cfg) (.start cfg consumer) as := by
  constructor
  · intro hadmits
    refine hadmits.along (I := fun _ => True) trivial (fun _ _ _ _ _ => trivial) ?_
    intro s a _ _ hgood x hx
    obtain ⟨-, hstreaming, ⟨hpending, hresetting⟩, -, -⟩ := hgood _ (queue_of_appending hx)
    exact ⟨by rw [hstreaming]; decide, hresetting, fun _ => hpending⟩
  · intro hcalm
    refine hcalm.along (I := fun s => Base s ∧ Read s)
      ⟨base_start cfg consumer, read_start cfg consumer⟩ ?_ ?_
    · rintro s a ⟨hb, hread⟩ he -
      exact ⟨base_next hb he, read_effect hb hread (next_effect cfg he)⟩
    · rintro s a ⟨hb, hread⟩ he hc x hx
      obtain ⟨t, hpc, happ, hwaiting⟩ := appending_of_queue he hx
      obtain ⟨halive, hresetting, hkey⟩ := hc _ happ
      obtain rfl : t = net := eq_net_of_role (hb.roles t) (by rw [hpc]; rfl)
      obtain ⟨hstate, hcodec, hgeneration, hpending⟩ := hread _ hpc
      have hstreaming : s.stream.state = .streaming := hstate.resolve_right halive
      refine ⟨hb.admitted.trusted (.inr hstreaming), hstreaming, ⟨?_, hresetting⟩, hcodec,
        hgeneration⟩
      by_contra hsome
      exact hsome (hkey (hwaiting (hpending (Option.isSome_iff_ne_none.mpr hsome))))

example : (controller {}).Legal (undisturbed {}) (.start {} (some 1))
    (bringUp ++ video keyframeSample ++ [.call 1 (.sendFormat {}), .run 1 true]) := by decide

/-- A format change is proposed while `handleVideo` inspects a keyframe. -/
def proposedMeanwhile : List Action :=
  bringUp ++ [.receive (.video keyframeSample), .call 1 (.sendFormat { codec := .hevc }),
    .run 1 true]

theorem not_admitsAppended_of_proposedMeanwhile :
    ∃ as, (controller {}).Legal (fun _ _ => True) (.start {} (some 1)) as ∧
      ¬ (controller {}).Legal (admitsAppended {}) (.start {} (some 1)) as := by
  refine ⟨proposedMeanwhile ++ [.run net true], by decide, fun h => ?_⟩
  have hlast := h.last.2.2 _ (queue_of_appending rfl)
  have hpending := hlast.settled.1
  exact absurd hpending (by decide)

end RemoteCam.Backend.Admission
