import RemoteCam.Backend.Invariants

/-! # The phases of a session

`Terms` are the fields that say how far a session is: its state, the peer's trust, the committed
format and the proposed one. `Turn` lists what a step does to them, each change with the step that
makes it; `turn_next` is the inversion. -/

namespace RemoteCam.Backend.Phases

open RemoteCam.Lib.Threads RemoteCam.Lib.Transitions RemoteCam.Backend.Session
open RemoteCam.Backend.Effects RemoteCam.Backend.Invariants

structure Terms where
  state : State
  trusted : Bool
  streamConfig : StreamConfig
  streamGeneration : ℕ
  pendingStreamConfig : Option StreamConfig
  pendingFormatGeneration : ℕ
  nextFormatGeneration : ℕ
  deriving DecidableEq

def terms (st : Stream) : Terms where
  state := st.state
  trusted := st.trusted
  streamConfig := st.streamConfig
  streamGeneration := st.streamGeneration
  pendingStreamConfig := st.pendingStreamConfig
  pendingFormatGeneration := st.pendingFormatGeneration
  nextFormatGeneration := st.nextFormatGeneration

/-- About to publish the outcome of a handshake: `handleHello` with a peer it does not refuse, and
`handleAuthResponse` with the protector installed. -/
def Pc.publishes : Pc → Bool
  | .hello _ verdict => verdict ≠ .refused
  | .authenticated => true
  | _ => false

inductive Turn (cfg : SessionConfig) (s : Sys) : Action → Terms → Prop
  | keep {a : Action} : Turn cfg s a (terms s.stream)
  | fail {a : Action} : Turn cfg s a { terms s.stream with state := .failed }
  | publish {t : Thread} {ok : Bool} {state : State} {trusted : Bool}
      (hpc : Pc.publishes (s.pc t))
      (hstate : state = .awaitingTrust ∨ state = .ready ∧ trusted = true) :
      Turn cfg s (.run t ok) { terms s.stream with state, trusted }
  | start {t : Thread} {ok : Bool} (hpc : s.pc t = .streamStart)
      (hstate : s.stream.state = .ready) :
      Turn cfg s (.run t ok) { terms s.stream with state := .streaming }
  | commit {t : Thread} {ok : Bool} {generation : ℕ} {applied : StreamConfig}
      (hpc : s.pc t = .formatAck generation)
      (hpending : s.stream.pendingStreamConfig = some applied)
      (hgeneration : s.stream.pendingFormatGeneration = generation) :
      Turn cfg s (.run t ok)
        { terms s.stream with
          streamConfig := applied
          streamGeneration := generation
          pendingStreamConfig := none
          pendingFormatGeneration := 0 }
  | reject {t : Thread} {ok : Bool} {generation : ℕ} (hpc : s.pc t = .formatReject generation)
      (hpending : s.stream.pendingStreamConfig.isSome) :
      Turn cfg s (.run t ok)
        { terms s.stream with pendingStreamConfig := none, pendingFormatGeneration := 0 }
  /-- `sendFormat`, by whether the message could be sent. -/
  | propose {t : Thread} {ok : Bool} {config : StreamConfig} (hpc : s.pc t = .sendFormat config)
      (hstate : s.stream.state = .streaming) (hpending : s.stream.pendingStreamConfig = none) :
      Turn cfg s (.run t ok)
        { terms s.stream with
          nextFormatGeneration := s.stream.nextFormatGeneration + 1
          pendingStreamConfig := if ok then some config else none
          pendingFormatGeneration := if ok then s.stream.nextFormatGeneration else 0 }
  | connect : Turn cfg s .connect (terms (onConnected cfg s).stream)
  | disconnect : Turn cfg s .disconnect (terms (onDisconnected s).stream)

variable {cfg : SessionConfig} {s : Sys} {t : Thread} {a : Action}

/-- A step of a thread that moves no phase. -/
theorem turn_of_eq {s' : Sys} (h : terms s'.stream = terms s.stream) :
    Turn cfg s a (terms s'.stream) := by
  rw [h]
  exact .keep

/-- The end of `handleVideo` and `drainQueue` only move units. -/
theorem terms_enqueue (cfg : SessionConfig) (s : Sys) (t : Thread) (x : Arrived) :
    terms (enqueue cfg s t x).stream = terms s.stream := by
  unfold enqueue
  dsimp only
  split_ifs <;> rfl

theorem terms_drainEnter (s : Sys) (t : Thread) :
    terms (drainEnter s t).stream = terms s.stream := by
  unfold drainEnter
  split_ifs <;> rfl

theorem terms_drainTake (s : Sys) (t : Thread) :
    terms (drainTake s t).stream = terms s.stream := by
  unfold drainTake
  split
  · split_ifs <;> rfl
  · rfl

theorem terms_drainRemove (s : Sys) (t : Thread) (queued : QueuedAccessUnit) :
    terms (drainRemove s t queued).stream = terms s.stream := by
  unfold drainRemove
  split
  · split_ifs <;> rfl
  · rfl

theorem terms_resetCall (s : Sys) (t : Thread) (consumer : Option ConsumerId)
    (config : StreamConfig) (generation connection : ℕ) (after : After) :
    terms (resetCall s t consumer config generation connection after).stream =
      terms s.stream := by
  cases consumer <;> rfl

theorem terms_replaceConsumer (s : Sys) (t : Thread) (consumer : Option ConsumerId) :
    terms (replaceConsumer s t consumer).stream = terms s.stream := by
  unfold replaceConsumer
  dsimp only
  split_ifs <;> rfl

theorem terms_handleAuthResponse (s : Sys) (t : Thread) (verdict : AuthVerdict) (ok : Bool) :
    terms (handleAuthResponse s t verdict ok).stream = terms s.stream := by
  cases verdict
  · rfl
  · rfl
  · unfold handleAuthResponse
    dsimp only
    split_ifs <;> rfl

theorem turn_hello {deviceId : String} {verdict : HelloVerdict} {ok : Bool}
    (hpc : s.pc t = .hello deviceId verdict) :
    Turn cfg s (.run t ok) (terms (handleHello s t deviceId verdict).stream) := by
  unfold handleHello
  split_ifs with hv
  · exact .keep
  · refine .publish (by rw [hpc]; simpa [Pc.publishes] using hv) ?_
    cases verdict
    · exact absurd rfl hv
    · exact .inl rfl
    · exact .inr ⟨rfl, rfl⟩

theorem turn_streamStart {ok : Bool} (hpc : s.pc t = .streamStart) :
    Turn cfg s (.run t ok) (terms (startStream s t).stream) := by
  unfold startStream
  dsimp only
  split_ifs with h
  · exact .start hpc h.1
  · exact .keep

theorem turn_formatAck {ok : Bool} {generation : ℕ} (hpc : s.pc t = .formatAck generation) :
    Turn cfg s (.run t ok) (terms (handleFormatAck s t generation).stream) := by
  unfold handleFormatAck
  dsimp only
  split
  · exact .keep
  · rename_i applied hpending
    split_ifs with h
    · exact .commit hpc hpending h.1
    · exact .keep

theorem turn_formatReject {ok : Bool} {generation : ℕ} (hpc : s.pc t = .formatReject generation) :
    Turn cfg s (.run t ok) (terms (handleFormatReject s t generation).stream) := by
  unfold handleFormatReject
  dsimp only
  split_ifs with h
  · exact .reject hpc h.1
  · exact .keep

theorem turn_sendFormat {ok : Bool} {config : StreamConfig} (hpc : s.pc t = .sendFormat config) :
    Turn cfg s (.run t ok) (terms (sendFormat s t config ok).stream) := by
  unfold sendFormat
  dsimp only
  split_ifs with h hok
  · exact .keep
  all_goals
    push Not at h
    obtain ⟨-, -, -, hstate, hpending, -⟩ := h
    have hturn := @Turn.propose cfg s t ok config hpc hstate (by simpa using hpending)
  · subst hok
    exact hturn
  · obtain rfl : ok = false := by simpa using hok
    exact hturn

/-- **Every step of the controller is one of the turns.** -/
theorem turn_next (cfg : SessionConfig) (he : enabled s a) :
    Turn cfg s a (terms (next cfg s a).stream) := by
  cases a with
  | connect => exact .connect
  | disconnect => exact .disconnect
  | receive inbound => cases inbound <;> exact .keep
  | call t c => exact .keep
  | watchdog =>
    simp only [next, watchdog]
    split_ifs
    · exact .fail
    · exact .keep
  | tick => exact .keep
  | run t ok =>
    rcases hpc : s.pc t with _ | _ | _ | _ | _ | ⟨d, v⟩ | v | _ | _ | _ | g | g | _ | _ | _ | x | c |
      c | ⟨c, g, n, k⟩ | ⟨d, c, g, n, k⟩ | k | _ | _ | ⟨q, c⟩ | _ | q <;> rw [next, hpc]
    · exact absurd hpc he.1
    · exact absurd hpc he.2.1
    · exact .fail
    · exact .keep
    · exact .keep
    · exact turn_hello hpc
    · exact turn_of_eq (terms_handleAuthResponse s t v ok)
    · exact .publish (by rw [hpc]; rfl) (.inr ⟨rfl, rfl⟩)
    · exact .keep
    · exact turn_streamStart hpc
    · exact turn_formatAck hpc
    · exact turn_formatReject hpc
    · exact .keep
    · exact .keep
    · exact .keep
    · exact turn_of_eq (terms_enqueue cfg s t x)
    · exact turn_sendFormat hpc
    · exact turn_of_eq (terms_replaceConsumer s t c)
    · exact .keep
    · exact turn_of_eq (terms_resetCall s t d c g n k)
    · exact .keep
    · exact turn_of_eq (terms_drainEnter s t)
    · exact turn_of_eq (terms_drainTake s t)
    · exact .keep
    · exact .keep
    · exact turn_of_eq (terms_drainRemove s t q)

end RemoteCam.Backend.Phases
