import RemoteCam.Backend.Invariants

/-! # The lifetime of a consumer

A caller of `setConsumer` may release the old consumer when the call returns, so from then on no
callback may be made on it. `resetConsumer` reads the consumer inside `consumerMutex_`; `drainQueue`
reads it before, and a replacement may come between. -/

namespace RemoteCam.Backend.ConsumerLifetime

open RemoteCam.Lib.Threads RemoteCam.Lib.Transitions RemoteCam.Backend.Session
open RemoteCam.Backend.Effects RemoteCam.Backend.Invariants

variable {cfg : SessionConfig} {s s' : Sys} {a : Action}

/-- Once `setConsumer` has returned, and until it is called again, every callback is made on the
consumer it installed. -/
def OnSettled (s : Sys) : Prop :=
  ∀ e ∈ s.log, ∀ consumer, e.settled = some consumer → consumer = some e.consumer

/-- A unit was taken from the queue for another consumer than this one. -/
def Pc.takenForOther (consumer : Option ConsumerId) : Pc → Bool
  | .consume _ d => consumer ≠ some d
  | _ => false

/-- The consumer is replaced while `drainQueue` holds no unit for the one before. -/
def noUnitTaken (s : Sys) (a : Action) : Prop :=
  ∀ consumer ∈ replacing s a, s.Free (Pc.takenForOther consumer)

instance (s : Sys) (a : Action) : Decidable (noUnitTaken s a) := Option.decidableForallMem _

/-! ### The invariant -/

/-- The consumer a callback will be made on is the current one. -/
def Pc.sees (consumer : Option ConsumerId) : Pc → Prop
  | .consume _ d => consumer = some d
  | .resetCall d _ _ _ _ => consumer = d
  | _ => True

structure Current (s : Sys) : Prop where
  sees : ∀ t, Pc.sees s.stream.consumer (s.pc t)
  installed : ∀ t consumer, s.installed = some (t, consumer) → s.stream.consumer = consumer
  settled : OnSettled s

theorem sees_of_plain {pc : Pc} {consumer : Option ConsumerId}
    (h : Pc.drains pc = false ∧ Pc.resets pc = false) : Pc.sees consumer pc := by
  obtain ⟨hd, hr⟩ := h
  cases pc <;> trivial

/-- A step that keeps the consumer and makes no callback. -/
theorem Current.goto {s₁ : Sys} {t : Thread} {pc : Pc} (h : Current s) (hpool : s₁.pool = s.pool)
    (hconsumer : s₁.stream.consumer = s.stream.consumer) (hinstalled : s₁.installed = s.installed)
    (hlog : s₁.log = s.log) (hpc : Pc.sees s.stream.consumer pc) : Current (s₁.goto t pc) := by
  refine ⟨?_, ?_, ?_⟩
  · rw [stream_goto, hconsumer]
    unfold Sys.goto
    rw [hpool]
    exact Pool.forall_set (P := fun _ pc => Pc.sees s.stream.consumer pc) h.sees hpc
  · intro u consumer hu
    rw [stream_goto, hconsumer]
    exact h.installed u consumer (hinstalled.symm.trans hu)
  · intro e he
    rw [log_goto, hlog] at he
    exact h.settled e he

/-- A callback on the current consumer. -/
theorem Current.record {consumer : ConsumerId} {callback : Callback} (h : Current s)
    (hconsumer : s.stream.consumer = some consumer) : Current (s.record consumer callback) := by
  refine ⟨h.sees, h.installed, fun e he d hd => ?_⟩
  rcases List.mem_cons.mp he with rfl | he
  · have hsettled : s.settled = some d := hd
    unfold Sys.settled at hsettled
    rcases hi : s.installed with _ | ⟨u, c⟩
    · rw [hi] at hsettled
      cases hsettled
    · rw [hi] at hsettled
      dsimp only at hsettled
      split_ifs at hsettled
      cases hsettled
      rw [← h.installed u d hi, hconsumer]
  · exact h.settled e he d hd

/-- A replacement with no callback on its way to another consumer. -/
theorem Current.replace {s₁ : Sys} {t : Thread} {pc : Pc} {consumer : Option ConsumerId}
    (h : Current s) (hpool : s₁.pool = s.pool) (hconsumer : s₁.stream.consumer = consumer)
    (hinstalled : s₁.installed = some (t, consumer)) (hlog : s₁.log = s.log)
    (howned : Owned s) (hmutex : s.consumerMutex = none)
    (htaken : s.Free (Pc.takenForOther consumer)) (hpc : Pc.sees consumer pc) :
    Current (s₁.goto t pc) := by
  refine ⟨?_, ?_, ?_⟩
  · rw [stream_goto, hconsumer]
    unfold Sys.goto
    rw [hpool]
    refine Pool.forall_set (P := fun _ pc => Pc.sees consumer pc) (fun u => ?_) hpc
    have hcall := howned u
    have hu := htaken u
    change Pc.sees consumer (s.pc u)
    cases hpcu : s.pc u <;> rw [hpcu] at hcall hu <;> first
      | trivial
      | exact absurd (hcall rfl) (by rw [hmutex]; nofun)
      | simpa [Pc.takenForOther, Pc.sees] using hu
  · intro u c hu
    rw [stream_goto, hconsumer]
    have heq : some (t, consumer) = some (u, c) := hinstalled.symm.trans hu
    cases heq
    rfl
  · intro e he
    rw [log_goto, hlog] at he
    exact h.settled e he

theorem current_effect (hb : Base s) (h : Current s) (e : Effect cfg s a s')
    (hcond : noUnitTaken s a) : Current s' := by
  cases e with
  | still hstate => exact ⟨h.sees, h.installed, h.settled⟩
  | plain hfrom hvalid hto hstate => exact h.goto rfl rfl rfl rfl (sees_of_plain (outside_of_moves hto))
  | connect hpc => exact h.goto rfl rfl rfl rfl trivial
  | disconnect hpc => exact h.goto rfl rfl rfl rfl trivial
  | arrive hpc => exact h.goto rfl rfl rfl rfl (sees_of_plain (videoPc_outside _ _ _))
  | flush hfrom hto hdropped => exact h.goto rfl rfl rfl rfl (sees_of_plain (outside_of_moves hto))
  | append hpc hkey => exact h.goto rfl rfl rfl rfl trivial
  | startStream hpc hstate hpending hresetting => exact h.goto rfl rfl rfl rfl trivial
  | formatAck hpc hpending hresetting => exact h.goto rfl rfl rfl rfl trivial
  | resetLock hpc hmutex => exact h.goto rfl rfl rfl rfl rfl
  | @resetCall t ok consumer config generation connection after hpc =>
    have ht := h.sees t
    rw [hpc] at ht
    cases consumer with
    | none => exact h.goto rfl rfl rfl rfl trivial
    | some consumer => exact (h.record ht).goto rfl rfl rfl rfl trivial
  | @resetClear t ok after hpc => cases after <;> exact h.goto rfl rfl rfl rfl trivial
  | replaceReset hpc hmutex hstate hpending hresetting =>
    exact h.replace rfl rfl rfl rfl hb.owned hmutex (hcond _ (replacing_run hpc)) trivial
  | replace hpc hmutex hskip =>
    exact h.replace rfl rfl rfl rfl hb.owned hmutex (hcond _ (replacing_run hpc)) trivial
  | drainBusy hpc hdraining => exact h.goto rfl rfl rfl rfl (sees_of_plain (returnPc_outside _))
  | drainEnter hpc hdraining => exact h.goto rfl rfl rfl rfl trivial
  | drainStop hpc => exact h.goto rfl rfl rfl rfl (sees_of_plain (returnPc_outside _))
  | drainTake hpc hqueue hconsumer hresetting => exact h.goto rfl rfl rfl rfl hconsumer
  | @consume t taken queued consumer hpc hmutex =>
    have ht := h.sees t
    rw [hpc] at ht
    cases taken <;> exact (h.record ht).goto rfl rfl rfl rfl trivial
  | pop hpc hqueue htoken => exact h.goto rfl rfl rfl rfl trivial
  | keep hpc htoken => exact h.goto rfl rfl rfl rfl trivial

theorem current_start (cfg : SessionConfig) (consumer : Option ConsumerId) :
    Current (.start cfg consumer) where
  sees t := by
    rw [pc_start]
    trivial
  installed := nofun
  settled := nofun

/-- **A returned `setConsumer` is final.** In every run in which the consumer is replaced only while
`drainQueue` holds no unit for the old one, every callback after the call has returned is made on
the new consumer. -/
theorem onSettled_of_run (cfg : SessionConfig) (consumer : Option ConsumerId) (as : List Action)
    (h : (controller cfg).Legal noUnitTaken (.start cfg consumer) as) :
    OnSettled ((controller cfg).exec (.start cfg consumer) as) := by
  have hinv : Base ((controller cfg).exec (.start cfg consumer) as) ∧
      Current ((controller cfg).exec (.start cfg consumer) as) := by
    refine h.invariant (I := fun s => Base s ∧ Current s)
      ⟨base_start cfg consumer, current_start cfg consumer⟩ ?_
    rintro s a ⟨hb, hc⟩ he hcond
    exact ⟨base_next hb he, current_effect hb hc (next_effect cfg he) hcond⟩
  exact hinv.2.settled

/-- A caller replaces consumer 1 by consumer 2 while the network thread takes its callbacks in
turn. -/
def orderlyReplacement : List Action :=
  bringUp ++ video keyframeSample ++ steps net [true, true, true, true, true] ++
    [.call 1 (.setConsumer (some 2))] ++ steps 1 [true, true, true, true, true, true] ++
    video keyframeSample ++ steps net [true, true, true]

theorem onSettled_of_orderlyRun :
    (controller {}).Legal noUnitTaken (.start {} (some 1)) orderlyReplacement ∧
      OnSettled ((controller {}).exec (.start {} (some 1)) orderlyReplacement) :=
  have hlegal : (controller {}).Legal noUnitTaken (.start {} (some 1)) orderlyReplacement := by decide
  ⟨hlegal, onSettled_of_run {} (some 1) orderlyReplacement hlegal⟩

/-- The network thread has copied consumer 1 with the front of the queue when a caller replaces it
by none; `setConsumer` returns, and the unit is handed to consumer 1. -/
def staleCallback : List Action :=
  bringUp ++ video keyframeSample ++ steps net [true, true] ++
    [.call 1 (.setConsumer none)] ++ steps 1 [true, true] ++ steps net [true]

theorem not_onSettled_of_staleCallback :
    ∃ as, (controller {}).Legal (fun _ _ => True) (.start {} (some 1)) as ∧
      ¬ OnSettled ((controller {}).exec (.start {} (some 1)) as) :=
  ⟨staleCallback, by decide, by unfold OnSettled; decide⟩

end RemoteCam.Backend.ConsumerLifetime
