import RemoteCam.Backend.Phases

/-! # A failed session

`protocolFailure` and the watchdog set the state to failed; only the next `onConnected` or
`onDisconnected` should leave it. The handlers of the handshake read the state, work without the
lock, and then write the outcome over whatever the watchdog has written meanwhile. -/

namespace RemoteCam.Backend.Failure

open RemoteCam.Lib.Transitions RemoteCam.Backend.Session RemoteCam.Backend.Phases
open RemoteCam.Backend.Invariants

variable {cfg : SessionConfig} {s : Sys} {a : Action} {as : List Action}

def sameConnection (a : Action) : Prop := a ≠ .connect ∧ a ≠ .disconnect

instance (a : Action) : Decidable (sameConnection a) :=
  inferInstanceAs (Decidable (a ≠ .connect ∧ a ≠ .disconnect))

/-- Once failed, the session stays failed for as long as the connection lasts, and no trust is
given. -/
def StaysFailed (cfg : SessionConfig) (s : Sys) (as : List Action) : Prop :=
  ∀ before during after, as = before ++ during ++ after → (∀ a ∈ during, sameConnection a) →
    let failed := (controller cfg).exec s before
    let later := (controller cfg).exec failed during
    failed.stream.state = .failed →
      later.stream.state = .failed ∧ (later.stream.trusted → failed.stream.trusted)

/-- The step ends a handler of the handshake with its outcome. -/
def publishing (s : Sys) : Action → Bool
  | .run t _ => Pc.publishes (s.pc t)
  | _ => false

/-- The outcome of a handshake is published in a session that has not failed meanwhile. -/
def publishesAlive (s : Sys) (a : Action) : Prop := publishing s a → s.stream.state ≠ .failed

instance (s : Sys) (a : Action) : Decidable (publishesAlive s a) :=
  inferInstanceAs (Decidable (_ → _))

/-- Every other step leaves a failed session as it is. -/
theorem failed_next (he : enabled s a) (hf : s.stream.state = .failed) (ha : sameConnection a)
    (hp : publishing s a = false) :
    (next cfg s a).stream.state = .failed ∧ (next cfg s a).stream.trusted = s.stream.trusted := by
  have hturn := turn_next cfg he
  generalize hterms : terms (next cfg s a).stream = τ at hturn
  have hstate : (next cfg s a).stream.state = τ.state := by rw [← hterms]; rfl
  have htrusted : (next cfg s a).stream.trusted = τ.trusted := by rw [← hterms]; rfl
  rw [hstate, htrusted]
  cases hturn with
  | keep => exact ⟨hf, rfl⟩
  | fail => exact ⟨rfl, rfl⟩
  | publish hpc => exact absurd hpc (by rw [← publishing.eq_1, hp]; decide)
  | start hpc hready =>
    rw [hf] at hready
    cases hready
  | commit hpc hpending hgeneration => exact ⟨hf, rfl⟩
  | reject hpc hpending => exact ⟨hf, rfl⟩
  | propose hpc hstreaming hpending =>
    rw [hf] at hstreaming
    cases hstreaming
  | connect => exact absurd rfl ha.1
  | disconnect => exact absurd rfl ha.2

/-- An outcome that is published ends the failure. -/
theorem publish_state {t : Thread} (ok : Bool) (hpc : Pc.publishes (s.pc t)) :
    (next cfg s (.run t ok)).stream.state ≠ .failed := by
  rw [next]
  cases h : s.pc t with
  | hello deviceId verdict =>
    rw [h] at hpc
    have hv : verdict ≠ .refused := by simpa [Pc.publishes] using hpc
    simp only [step, handleHello, if_neg hv, stream_goto]
    split_ifs
    · decide
    · decide
  | authenticated =>
    change State.ready ≠ .failed
    decide
  | _ =>
    rw [h] at hpc
    cases hpc

/-- While the connection lasts. -/
theorem failed_exec (h : (controller cfg).Legal publishesAlive s as)
    (ha : ∀ a ∈ as, sameConnection a) (hf : s.stream.state = .failed) :
    ((controller cfg).exec s as).stream.state = .failed ∧
      ((controller cfg).exec s as).stream.trusted = s.stream.trusted := by
  induction as generalizing s with
  | nil => exact ⟨hf, rfl⟩
  | cons a as ih =>
    obtain ⟨he, hc, h⟩ := h
    obtain ⟨hhead, htail⟩ := List.forall_mem_cons.mp ha
    have hp : publishing s a = false := by
      by_contra hp
      exact hc (by simpa using hp) hf
    obtain ⟨hfailed, htrusted⟩ := @failed_next cfg _ _ he hf hhead hp
    obtain ⟨hlater, hsame⟩ := ih h htail hfailed
    exact ⟨hlater, hsame.trans htrusted⟩

/-- **Failed stays failed.** In every run: once failed, a session stays failed and
gets no trust until the next connection, if and only if no handler of the handshake publishes its
outcome in a session that the watchdog has failed meanwhile. -/
theorem staysFailed_iff (cfg : SessionConfig) (consumer : Option ConsumerId) (as : List Action)
    (h : (controller cfg).Legal (fun _ _ => True) (.start cfg consumer) as) :
    StaysFailed cfg (.start cfg consumer) as ↔
      (controller cfg).Legal publishesAlive (.start cfg consumer) as := by
  constructor
  · intro hstays
    refine h.of_split fun before a after has hp hfailed => ?_
    obtain ⟨t, ok, rfl⟩ : ∃ t ok, a = .run t ok := by
      cases a with
      | run t ok => exact ⟨t, ok, rfl⟩
      | _ => cases hp
    have hone : ∀ b ∈ [Action.run t ok], sameConnection b := by
      simp [sameConnection]
    obtain ⟨hlater, -⟩ := hstays before [.run t ok] after (by simpa using has) hone hfailed
    exact publish_state ok hp hlater
  · intro halive before during after has hsame failed later hfailed
    rw [has, Machine.legal_append, Machine.legal_append] at halive
    obtain ⟨hlater, htrusted⟩ := failed_exec halive.1.2 hsame hfailed
    exact ⟨hlater, fun ht => htrusted ▸ ht⟩

/-- A configuration with short deadlines. -/
def hasty : SessionConfig := { helloTimeout := 1, videoTimeout := 1 }

/-- The watchdog fails a session that waits for its `hello`, and one that streams. -/
def failedTwice : List Action :=
  [.connect, .tick, .tick, .watchdog, .tick, .disconnect] ++ bringUp ++
    [.tick, .tick, .watchdog, .receive (.control .unknown), .run net true, .disconnect]

theorem staysFailed_of_failedTwice : StaysFailed hasty (.start hasty none) failedTwice :=
  (staysFailed_iff hasty none failedTwice (by decide)).mpr (by decide)

/-- The deadline of `hello` passes while `handleHello` asks the trust policy. -/
def lateHello : List Action :=
  [.connect, .receive (.control (.hello "phone" .trusted)), .tick, .tick, .watchdog]

theorem not_staysFailed_of_lateHello :
    ∃ as, (controller hasty).Legal (fun _ _ => True) (.start hasty none) as ∧
      ¬ StaysFailed hasty (.start hasty none) as := by
  refine ⟨lateHello ++ [.run net true], by decide, fun h => ?_⟩
  have hlater := (h lateHello [.run net true] [] rfl (by decide) (by decide)).1
  exact absurd hlater (by decide)

end RemoteCam.Backend.Failure
