import RemoteCam.Backend.Phases

/-! # The counters of a session

The metrics of the queue are kept beside it by every operation that touches it, the generations of
the formats beside the proposed and the committed configuration. `Tallied` and `Numbered` are what
they say of one another in every reachable state. -/

namespace RemoteCam.Backend.Accounting

open RemoteCam.Lib.Transitions RemoteCam.Backend.Session RemoteCam.Backend.Phases
open RemoteCam.Backend.Invariants

variable {cfg : SessionConfig} {s : Sys} {st : Stream} {t : Thread} {a : Action}

/-! ### The queue -/

/-- The bytes of the queued units. -/
def queuedBytes (queue : List QueuedAccessUnit) : ℕ :=
  (queue.map fun q => q.unit.bytes.length).sum

/-- Depth and bytes are those of the queue, and within the limits. -/
structure Tallied (cfg : SessionConfig) (st : Stream) : Prop where
  depth : st.queueDepth = st.queue.length
  depth_le : st.queue.length ≤ cfg.maxQueuedAccessUnits
  bytes : st.queueBytes = queuedBytes st.queue
  bytes_le : st.queueBytes ≤ cfg.maxQueuedBytes

theorem tallied_of_empty (hqueue : st.queue = []) (hdepth : st.queueDepth = 0)
    (hbytes : st.queueBytes = 0) : Tallied cfg st := by
  refine ⟨?_, ?_, ?_, ?_⟩
  · rw [hdepth, hqueue, List.length_nil]
  · rw [hqueue, List.length_nil]
    exact Nat.zero_le _
  · rw [hbytes, hqueue]
    rfl
  · omega

theorem Tallied.append {x : Arrived} (h : Tallied cfg st)
    (hdepth : st.queue.length < cfg.maxQueuedAccessUnits)
    (hbytes : st.queueBytes + x.unit.bytes.length ≤ cfg.maxQueuedBytes) :
    Tallied cfg (st.append x) := by
  refine ⟨?_, ?_, ?_, hbytes⟩
  · simp [Stream.append]
  · simp only [Stream.append, List.length_append, List.length_singleton]
    omega
  · have hsum := h.bytes
    simp only [Stream.append, queuedBytes, List.map_append, List.map_cons, List.map_nil,
      List.sum_append, List.sum_cons, List.sum_nil] at hsum ⊢
    omega

/-- The front leaves the queue: its bytes are part of the sum, so the subtraction does not wrap. -/
theorem Tallied.pop {front : QueuedAccessUnit} {rest : List QueuedAccessUnit} (h : Tallied cfg st)
    (hqueue : st.queue = front :: rest) :
    front.unit.bytes.length ≤ st.queueBytes ∧
      Tallied cfg { st with
        queue := rest
        queueBytes := st.queueBytes - front.unit.bytes.length
        queueDepth := rest.length } := by
  have hsum : st.queueBytes = front.unit.bytes.length + queuedBytes rest := by
    rw [h.bytes, hqueue]
    rfl
  have hdepth := h.depth_le
  have hbytes := h.bytes_le
  rw [hqueue, List.length_cons] at hdepth
  refine ⟨by omega, rfl, ?_, ?_, ?_⟩
  · dsimp only
    omega
  · dsimp only
    omega
  · dsimp only
    omega

theorem tallied_enqueue (h : Tallied cfg s.stream) (x : Arrived) :
    Tallied cfg (enqueue cfg s t x).stream := by
  unfold enqueue
  dsimp only
  split_ifs with hdrop hfull
  · exact ⟨h.depth, h.depth_le, h.bytes, h.bytes_le⟩
  · exact tallied_of_empty rfl rfl rfl
  · push Not at hfull
    have hmeet : Tallied cfg (s.stream.meetKeyframe x.unit.keyframe) :=
      ⟨h.depth, h.depth_le, h.bytes, h.bytes_le⟩
    exact hmeet.append hfull.1 hfull.2

theorem tallied_drainRemove (h : Tallied cfg s.stream) (queued : QueuedAccessUnit) :
    Tallied cfg (drainRemove s t queued).stream := by
  unfold drainRemove
  split
  · rename_i front rest hqueue
    split_ifs
    · exact (h.pop hqueue).2
    · exact ⟨rfl, h.depth_le, h.bytes, h.bytes_le⟩
  · rename_i hqueue
    refine ⟨?_, h.depth_le, h.bytes, h.bytes_le⟩
    change 0 = s.stream.queue.length
    rw [hqueue, List.length_nil]

theorem tallied_formatAck (h : Tallied cfg s.stream) (generation : ℕ) :
    Tallied cfg (handleFormatAck s t generation).stream := by
  unfold handleFormatAck
  dsimp only
  split
  · exact h
  · split_ifs
    · exact tallied_of_empty rfl rfl rfl
    · exact h

theorem tallied_formatReject (h : Tallied cfg s.stream) (generation : ℕ) :
    Tallied cfg (handleFormatReject s t generation).stream := by
  unfold handleFormatReject
  dsimp only
  split_ifs
  · exact tallied_of_empty rfl rfl rfl
  · exact h

theorem tallied_sendFormat (h : Tallied cfg s.stream) (config : StreamConfig) (ok : Bool) :
    Tallied cfg (sendFormat s t config ok).stream := by
  unfold sendFormat
  dsimp only
  split_ifs
  · exact h
  · exact tallied_of_empty rfl rfl rfl
  · exact tallied_of_empty rfl rfl rfl

theorem tallied_next (cfg : SessionConfig) (h : Tallied cfg s.stream) :
    Tallied cfg (next cfg s a).stream := by
  have hsame : ∀ st : Stream, st.queue = s.stream.queue → st.queueDepth = s.stream.queueDepth →
      st.queueBytes = s.stream.queueBytes → Tallied cfg st := by
    intro st hqueue hdepth hbytes
    exact ⟨by rw [hdepth, hqueue, h.depth], by rw [hqueue]; exact h.depth_le,
      by rw [hbytes, hqueue, h.bytes], by rw [hbytes]; exact h.bytes_le⟩
  cases a with
  | connect => exact tallied_of_empty rfl rfl rfl
  | disconnect => exact tallied_of_empty rfl rfl rfl
  | receive inbound => cases inbound <;> exact h
  | call t c => exact h
  | watchdog =>
    simp only [next, watchdog]
    split_ifs
    · exact hsame _ rfl rfl rfl
    · exact h
  | tick => exact h
  | run t ok =>
    rw [next]
    cases s.pc t with
    | videoEnqueue x => exact tallied_enqueue h x
    | videoInvalid => exact tallied_of_empty rfl rfl rfl
    | formatAck generation => exact tallied_formatAck h generation
    | formatReject generation => exact tallied_formatReject h generation
    | sendFormat config => exact tallied_sendFormat h config ok
    | drainRemove queued => exact tallied_drainRemove h queued
    | hello deviceId verdict =>
      simp only [step, handleHello]
      split_ifs <;> exact hsame _ rfl rfl rfl
    | authResponse verdict =>
      cases verdict
      · exact h
      · exact h
      · simp only [step, handleAuthResponse]
        split_ifs <;> exact h
    | streamStart =>
      simp only [step, startStream]
      split_ifs <;> exact hsame _ rfl rfl rfl
    | setConsumer consumer =>
      simp only [step, replaceConsumer]
      split_ifs <;> exact hsame _ rfl rfl rfl
    | resetCall consumer config generation connection after => cases consumer <;> exact h
    | drainEnter =>
      simp only [step, drainEnter]
      split_ifs <;> exact hsame _ rfl rfl rfl
    | drainTake =>
      simp only [step, drainTake]
      split
      · split_ifs <;> exact hsame _ rfl rfl rfl
      · exact hsame _ rfl rfl rfl
    | _ => exact hsame _ rfl rfl rfl

/-! ### The generations -/

/-- A format change is pending exactly while its generation is set, and that is above the committed
one. -/
structure Numbered (τ : Terms) : Prop where
  pending : τ.pendingFormatGeneration ≠ 0 ↔ τ.pendingStreamConfig.isSome
  newer : τ.pendingStreamConfig.isSome → τ.streamGeneration < τ.pendingFormatGeneration
  issued : τ.streamGeneration < τ.nextFormatGeneration ∧
    τ.pendingFormatGeneration < τ.nextFormatGeneration

theorem numbered_turn {τ : Terms} (h : Numbered (terms s.stream)) (hturn : Turn cfg s a τ) :
    Numbered τ := by
  obtain ⟨hpending, hnewer, hcommitted, hissued⟩ := h
  have hno {p : Prop} (h : (none : Option StreamConfig).isSome) : p := by cases h
  cases hturn with
  | keep => exact ⟨hpending, hnewer, hcommitted, hissued⟩
  | fail => exact ⟨hpending, hnewer, hcommitted, hissued⟩
  | publish hpc hstate => exact ⟨hpending, hnewer, hcommitted, hissued⟩
  | start hpc hstate => exact ⟨hpending, hnewer, hcommitted, hissued⟩
  | commit hpc hsome hgeneration =>
    subst hgeneration
    exact ⟨by simp, hno, hissued, Nat.zero_lt_of_lt hissued⟩
  | reject hpc hsome => exact ⟨by simp, hno, hcommitted, Nat.zero_lt_of_lt hissued⟩
  | @propose t ok config hpc hstate hnone =>
    have hnext : s.stream.streamGeneration < s.stream.nextFormatGeneration := hcommitted
    cases ok
    · exact ⟨by simp, hno, Nat.lt_succ_of_lt hnext, Nat.succ_pos _⟩
    · exact ⟨by simp; omega, fun _ => hnext, Nat.lt_succ_of_lt hnext, Nat.lt_succ_self _⟩
  | connect => exact ⟨by simp [terms, onConnected, Sys.goto], hno, Nat.one_pos, Nat.one_pos⟩
  | disconnect =>
    exact ⟨by simp [terms, onDisconnected, Sys.goto, Stream.resetQueueLocked],
      hno, Nat.zero_lt_of_lt hcommitted, Nat.zero_lt_of_lt hcommitted⟩

/-- While the connection lasts, the committed generation changes in `handleFormatAck` alone, to a
greater one and together with the configuration. -/
def commitsTogether (cfg : SessionConfig) (s : Sys) (a : Action) : Prop :=
  a ≠ .connect → a ≠ .disconnect →
    let st := s.stream
    let st' := (next cfg s a).stream
    (st'.streamGeneration = st.streamGeneration ∧ st'.streamConfig = st.streamConfig) ∨
    (st.streamGeneration < st'.streamGeneration ∧ st.pendingStreamConfig = some st'.streamConfig ∧
      ∃ t ok, a = .run t ok ∧ s.pc t = .formatAck st'.streamGeneration)

theorem commitsTogether_next (he : enabled s a) (h : Numbered (terms s.stream)) :
    commitsTogether cfg s a := by
  intro hconnect hdisconnect
  have hturn := turn_next cfg he
  generalize hterms : terms (next cfg s a).stream = τ at hturn
  have hgeneration : (next cfg s a).stream.streamGeneration = τ.streamGeneration := by
    rw [← hterms]; rfl
  have hconfig : (next cfg s a).stream.streamConfig = τ.streamConfig := by rw [← hterms]; rfl
  dsimp only
  rw [hgeneration, hconfig]
  cases hturn with
  | @commit t ok generation applied hpc hpending hpendingGeneration =>
    have hnewer : s.stream.streamGeneration < s.stream.pendingFormatGeneration :=
      h.newer (by simp [terms, hpending])
    rw [hpendingGeneration] at hnewer
    exact .inr ⟨hnewer, hpending, t, ok, rfl, hpc⟩
  | connect => exact absurd rfl hconnect
  | disconnect => exact absurd rfl hdisconnect
  | _ => exact .inl ⟨rfl, rfl⟩

/-! ### Every run -/

/-- **The counters agree with what they count**, in every state of every run, and the committed
generation and configuration change together. -/
theorem accounted_of_run (cfg : SessionConfig) (consumer : Option ConsumerId) (as : List Action)
    (h : (controller cfg).Legal (fun _ _ => True) (.start cfg consumer) as) :
    let s := (controller cfg).exec (.start cfg consumer) as
    (Tallied cfg s.stream ∧ Numbered (terms s.stream)) ∧
      (controller cfg).Legal (commitsTogether cfg) (.start cfg consumer) as := by
  have hstart : Tallied cfg (Sys.start cfg consumer).stream ∧
      Numbered (terms (Sys.start cfg consumer).stream) :=
    ⟨tallied_of_empty rfl rfl rfl, ⟨by simp [terms, Sys.start], nofun, Nat.one_pos, Nat.one_pos⟩⟩
  have hstep : ∀ s a, Tallied cfg s.stream ∧ Numbered (terms s.stream) → enabled s a → True →
      Tallied cfg (next cfg s a).stream ∧ Numbered (terms (next cfg s a).stream) := by
    rintro s a ⟨htallied, hnumbered⟩ he -
    exact ⟨tallied_next cfg htallied, numbered_turn hnumbered (turn_next cfg he)⟩
  exact ⟨h.invariant (I := fun s => Tallied cfg s.stream ∧ Numbered (terms s.stream)) hstart hstep,
    h.along (I := fun s => Tallied cfg s.stream ∧ Numbered (terms s.stream)) hstart hstep
      fun s a hs he _ => commitsTogether_next he hs.2⟩

/-- A stream with a change that is accepted and one that is rejected. -/
def twoChanges : List Action :=
  bringUp ++ video keyframeSample ++ steps net [true, true] ++
    [.call 1 (.sendFormat { codec := .hevc }), .run 1 true,
      .receive (.control (.formatAck (some 1)))] ++ steps net [true, true, true, true, true] ++
    [.call 1 (.sendFormat {}), .run 1 true, .receive (.control (.formatReject (some 2)))] ++
    steps net [true, true]

theorem accounted_of_twoChanges :
    let s := (controller {}).exec (.start {} none) twoChanges
    (Tallied {} s.stream ∧ Numbered (terms s.stream)) ∧
      (controller {}).Legal (commitsTogether {}) (.start {} none) twoChanges :=
  accounted_of_run {} none twoChanges (by decide)

end RemoteCam.Backend.Accounting
