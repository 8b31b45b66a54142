import RemoteCam.Backend.FormatChange

/-! # The deadlines while a format is pending

`sendFormat` starts the deadline of the acknowledgement. The video and idle deadlines go on from
where they were, and the video that could extend them is dropped until the answer is here.

`patient_of_run`: if the two deadlines reach beyond that of the acknowledgement when a format is
proposed, no other deadline ends the session first; if one of them does not, waiting is enough for
it to. -/

namespace RemoteCam.Backend.Acknowledgement

open RemoteCam.Lib.Transitions RemoteCam.Backend.Session RemoteCam.Backend.Effects
open RemoteCam.Backend.Invariants RemoteCam.Backend.Phases RemoteCam.Backend.FormatChange
open RemoteCam.Backend.Handshake (admitsFormat)
open RemoteCam.Video.Annexb

variable {cfg : SessionConfig} {s s' : Sys} {a : Action}

/-! ### The reasons of the watchdog -/

inductive Timeout where
  | hello
  | trust
  | formatAcknowledgement
  | streamProgress
  | firstVideo
  | videoIdle
  | idle
  deriving DecidableEq, Repr

/-- The last valid video, or the start of the stream. -/
def lastSeen (a : Activity) : ℕ := if a.receivedVideo then a.lastVideoAt else a.streamingAt

/-- The first deadline that has passed, in the order of `startWatchdog`. -/
def reason (cfg : SessionConfig) (s : Sys) : Option Timeout :=
  let a := s.activity
  let since (time : ℕ) := s.clock - time
  if s.stream.state = .awaitingHello ∧ since a.connectedAt > cfg.helloTimeout then some .hello
  else if s.stream.state = .awaitingTrust ∧ since a.trustAt > cfg.trustTimeout then some .trust
  else if s.stream.pendingStreamConfig.isSome ∧ since a.pendingFormatAt > cfg.formatAckTimeout then
    some .formatAcknowledgement
  else if s.stream.state = .ready ∧ since a.readyAt > cfg.progressTimeout then some .streamProgress
  else if s.stream.state = .streaming ∧ since (lastSeen a) > cfg.videoTimeout then
    some (if a.receivedVideo then .videoIdle else .firstVideo)
  else if since a.lastActivity > cfg.idleTimeout then some .idle
  else none

/-- A deadline is tried where none before it has passed. -/
theorem isSome_ite {p : Prop} [Decidable p] (r : Timeout) (later : Option Timeout) :
    (if p then some r else later).isSome = (decide p || later.isSome) := by
  by_cases hp : p
  · rw [if_pos hp, decide_eq_true hp, Bool.true_or, Option.isSome_some]
  · rw [if_neg hp, decide_eq_false hp, Bool.false_or]

/-- The watchdog fails the session when there is a reason. -/
theorem expired_eq (cfg : SessionConfig) (s : Sys) : expired cfg s = (reason cfg s).isSome := by
  unfold expired reason lastSeen
  simp only [isSome_ite, Option.isSome_none, Bool.or_false, Bool.decide_and, Bool.decide_eq_true,
    Bool.or_assoc]

/-! ### What is asked for -/

theorem proposal_isSome : (proposal s a).isSome ↔
    ∃ t config, a = .run t true ∧ s.pc t = .sendFormat config ∧
      admitsFormat s.stream config = true := by
  constructor
  · intro h
    unfold proposal at h
    split at h
    · next t =>
      split at h
      · next config hpc =>
        split_ifs at h with hadmits
        · exact ⟨t, config, rfl, hpc, hadmits⟩
        · cases h
      · cases h
    · cases h
  · rintro ⟨t, config, rfl, hpc, hadmits⟩
    simp [proposal, hpc, hadmits]

theorem not_proposal {t : Thread} {ok : Bool} {pc : Pc} (hpc : s.pc t = pc)
    (haway : ∀ config, pc ≠ .sendFormat config) : ¬ (proposal s (.run t ok)).isSome := by
  rw [proposal_isSome]
  rintro ⟨t', config, ha, hsend, -⟩
  obtain ⟨rfl, -⟩ := Action.run.inj ha
  exact haway config (hpc.symm.trans hsend)

/-- The video and idle deadlines lie beyond that of an acknowledgement. -/
def Margin (cfg : SessionConfig) (s : Sys) : Prop :=
  s.clock + cfg.formatAckTimeout ≤ lastSeen s.activity + cfg.videoTimeout ∧
    s.clock + cfg.formatAckTimeout ≤ s.activity.lastActivity + cfg.idleTimeout

instance (cfg : SessionConfig) (s : Sys) : Decidable (Margin cfg s) :=
  inferInstanceAs (Decidable (_ ∧ _))

/-- Before the deadline of the acknowledgement the watchdog has no other reason. -/
def Patient (cfg : SessionConfig) (s : Sys) (a : Action) : Prop :=
  a = .watchdog → s.stream.pendingStreamConfig.isSome →
    s.clock ≤ s.activity.pendingFormatAt + cfg.formatAckTimeout →
    ∀ r, reason cfg s = some r → r = .formatAcknowledgement

/-! ### Who sets the stamps -/

structure Stamps where
  pendingFormatAt : ℕ
  streamingAt : ℕ
  lastVideoAt : ℕ
  lastActivity : ℕ
  receivedVideo : Bool
  deriving DecidableEq

def stamps (a : Activity) : Stamps where
  pendingFormatAt := a.pendingFormatAt
  streamingAt := a.streamingAt
  lastVideoAt := a.lastVideoAt
  lastActivity := a.lastActivity
  receivedVideo := a.receivedVideo

inductive Stamp (s s' : Sys) : Action → Stamps → Prop
  | keep {a : Action} (ha : ∀ t config, a = .run t true → s.pc t = .sendFormat config →
      admitsFormat s.stream config = false) : Stamp s s' a (stamps s.activity)
  /-- A handshake, or another sign of life. -/
  | touch {t : Thread} {ok : Bool} (hpc : s.pc t = .progress ∨ Pc.handshake (s.pc t)) :
      Stamp s s' (.run t ok) { stamps s.activity with lastActivity := s.clock }
  | video {t : Thread} {ok : Bool} {x : Arrived} (hpc : s.pc t = .videoEnqueue x) :
      Stamp s s' (.run t ok)
        { stamps s.activity with
          lastActivity := s.clock, lastVideoAt := s.clock, receivedVideo := true }
  /-- `stream_start`, or the answer to a proposal. -/
  | restart {t : Thread} {ok : Bool} (hpc : s.pc t = .streamStart ∨
        (∃ g, s.pc t = .formatAck g) ∨ ∃ g, s.pc t = .formatReject g)
      (hpending : s'.stream.pendingStreamConfig = none) :
      Stamp s s' (.run t ok) (stamps (s.activity.restartVideo s.clock))
  | propose {t : Thread} {ok : Bool} {config : StreamConfig} (hpc : s.pc t = .sendFormat config)
      (hadmits : admitsFormat s.stream config = true) :
      Stamp s s' (.run t ok) { stamps s.activity with pendingFormatAt := s.clock }
  | connect : Stamp s s' .connect
      { stamps s.activity with lastActivity := s.clock, receivedVideo := false }
  | disconnect : Stamp s s' .disconnect { stamps s.activity with receivedVideo := false }

/-- Places whose step sets a stamp. -/
def Pc.stamps : Pc → Bool
  | .progress | .hello _ _ | .authenticated | .streamStart | .formatAck _ | .formatReject _
  | .videoEnqueue _ | .sendFormat _ => true
  | _ => false

/-- A step leaves the clock as it is, and at other places the stamps too. -/
theorem step_aside {t : Thread} {ok : Bool} {pc : Pc} :
    (step cfg s t ok pc).clock = s.clock ∧
      (Pc.stamps pc = false → stamps (step cfg s t ok pc).activity = stamps s.activity) := by
  cases pc with
  | progress | authenticated => exact ⟨rfl, fun h => by cases h⟩
  | hello deviceId verdict =>
    simp only [step, handleHello]
    split_ifs <;> exact ⟨rfl, fun h => by cases h⟩
  | authResponse verdict =>
    cases verdict with
    | accepted =>
      simp only [step, handleAuthResponse]
      split_ifs <;> exact ⟨rfl, fun _ => rfl⟩
    | _ => exact ⟨rfl, fun _ => rfl⟩
  | streamStart =>
    simp only [step, startStream]
    split_ifs <;> exact ⟨rfl, fun h => by cases h⟩
  | formatAck generation =>
    simp only [step, handleFormatAck]
    split
    · exact ⟨rfl, fun h => by cases h⟩
    · split_ifs <;> exact ⟨rfl, fun h => by cases h⟩
  | formatReject generation =>
    simp only [step, handleFormatReject]
    split_ifs <;> exact ⟨rfl, fun h => by cases h⟩
  | videoEnqueue x =>
    simp only [step, enqueue]
    split_ifs <;> exact ⟨rfl, fun h => by cases h⟩
  | sendFormat config =>
    simp only [step, sendFormat]
    split_ifs <;> exact ⟨rfl, fun h => by cases h⟩
  | setConsumer consumer =>
    simp only [step, replaceConsumer]
    split_ifs <;> exact ⟨rfl, fun _ => rfl⟩
  | resetCall consumer config generation connection after =>
    cases consumer <;> exact ⟨rfl, fun _ => rfl⟩
  | drainEnter =>
    simp only [step, drainEnter]
    split_ifs <;> exact ⟨rfl, fun _ => rfl⟩
  | drainTake =>
    simp only [step, drainTake]
    split
    · split_ifs <;> exact ⟨rfl, fun _ => rfl⟩
    · exact ⟨rfl, fun _ => rfl⟩
  | drainRemove queued =>
    simp only [step, drainRemove]
    split
    · split_ifs <;> exact ⟨rfl, fun _ => rfl⟩
    · exact ⟨rfl, fun _ => rfl⟩
  | _ => exact ⟨rfl, fun _ => rfl⟩

/-- A step from a place that is not in `sendFormat`. -/
theorem Stamp.of_eq {t : Thread} {ok : Bool} {pc : Pc} (hpc : s.pc t = pc)
    (haway : ∀ config, pc ≠ .sendFormat config) (h : stamps s'.activity = stamps s.activity) :
    Stamp s s' (.run t ok) (stamps s'.activity) := by
  rw [h]
  refine .keep fun t' config ha hsend => absurd hsend ?_
  obtain ⟨rfl, -⟩ := Action.run.inj ha
  rw [hpc]
  exact haway config

section Places
variable {t : Thread} {ok : Bool}

theorem stamp_enqueue {x : Arrived} (hpc : s.pc t = .videoEnqueue x) :
    Stamp s (enqueue cfg s t x) (.run t ok) (stamps (enqueue cfg s t x).activity) := by
  unfold enqueue
  dsimp only
  split_ifs
  · exact .of_eq hpc (fun _ h => by cases h) rfl
  · exact .video hpc
  · exact .video hpc

theorem stamp_hello {deviceId : String} {verdict : HelloVerdict}
    (hpc : s.pc t = .hello deviceId verdict) :
    Stamp s (handleHello s t deviceId verdict) (.run t ok)
      (stamps (handleHello s t deviceId verdict).activity) := by
  unfold handleHello
  split_ifs
  · exact .of_eq hpc (fun _ h => by cases h) rfl
  · exact .touch (.inr (by rw [hpc]; rfl))

theorem stamp_streamStart (hpc : s.pc t = .streamStart) :
    Stamp s (startStream s t) (.run t ok) (stamps (startStream s t).activity) := by
  unfold startStream
  dsimp only
  split_ifs with h
  · exact .restart (.inl hpc) h.2.1
  · exact .of_eq hpc (fun _ h => by cases h) rfl

theorem stamp_formatAck {generation : ℕ} (hpc : s.pc t = .formatAck generation) :
    Stamp s (handleFormatAck s t generation) (.run t ok)
      (stamps (handleFormatAck s t generation).activity) := by
  unfold handleFormatAck
  dsimp only
  split
  · exact .of_eq hpc (fun _ h => by cases h) rfl
  · split_ifs
    · exact .restart (.inr (.inl ⟨generation, hpc⟩)) rfl
    · exact .of_eq hpc (fun _ h => by cases h) rfl

theorem stamp_formatReject {generation : ℕ} (hpc : s.pc t = .formatReject generation) :
    Stamp s (handleFormatReject s t generation) (.run t ok)
      (stamps (handleFormatReject s t generation).activity) := by
  unfold handleFormatReject
  dsimp only
  split_ifs
  · exact .restart (.inr (.inr ⟨generation, hpc⟩)) rfl
  · exact .of_eq hpc (fun _ h => by cases h) rfl

/-- A proposal that is let through. -/
theorem sendFormat_admitted {config : StreamConfig} (h : admitsFormat s.stream config = true) :
    (sendFormat s t config ok).activity = { s.activity with pendingFormatAt := s.clock } ∧
      (sendFormat s t config ok).stream.pendingStreamConfig =
        (if ok then some config else none) ∧
      (sendFormat s t config ok).stream.state = .streaming ∧
      (sendFormat s t config ok).stream.connection.isSome := by
  unfold admitsFormat at h
  simp only [Bool.and_eq_true, decide_eq_true_eq, Option.isNone_iff_eq_none] at h
  obtain ⟨⟨⟨⟨⟨hvalid, hsome⟩, htrusted⟩, hstate⟩, hnone⟩, hreset⟩ := h
  have hconnection : s.stream.connection ≠ none := Option.isSome_iff_ne_none.mp hsome
  unfold sendFormat
  dsimp only
  rw [if_neg (by simp_all)]
  cases ok <;> exact ⟨rfl, rfl, hstate, hsome⟩

theorem stamp_sendFormat {config : StreamConfig} (hpc : s.pc t = .sendFormat config) :
    Stamp s (sendFormat s t config ok) (.run t ok)
      (stamps (sendFormat s t config ok).activity) := by
  by_cases h : admitsFormat s.stream config = true
  · rw [(sendFormat_admitted h).1]
    exact .propose hpc h
  · rw [sendFormat_refused (by simpa using h)]
    refine .keep fun t' config' ha hsend => ?_
    obtain ⟨rfl, -⟩ := Action.run.inj ha
    rw [hpc] at hsend
    obtain rfl := Pc.sendFormat.inj hsend
    simpa using h

end Places

/-- **Every step sets the stamps in one of these ways.** -/
theorem stamp_next (cfg : SessionConfig) (he : enabled s a) :
    Stamp s (next cfg s a) a (stamps (next cfg s a).activity) := by
  have hidle (ha : ∀ t, a ≠ .run t true) : Stamp s (next cfg s a) a (stamps s.activity) :=
    .keep fun t _ h => absurd h (ha t)
  cases a with
  | connect => exact .connect
  | disconnect => exact .disconnect
  | receive inbound => cases inbound <;> exact hidle fun _ h => by cases h
  | call t c => exact hidle fun _ h => by cases h
  | watchdog =>
    have hstamps : stamps (next cfg s .watchdog).activity = stamps s.activity := by
      simp only [next, watchdog]
      split_ifs <;> rfl
    rw [hstamps]
    exact hidle fun _ h => by cases h
  | tick => exact hidle fun _ h => by cases h
  | run t ok =>
    by_cases hstamps : Pc.stamps (s.pc t) = false
    · refine .of_eq rfl (fun config hpc => ?_) (step_aside.2 hstamps)
      rw [hpc] at hstamps
      cases hstamps
    · cases hpc : s.pc t with
      | progress =>
        rw [next, hpc]
        exact .touch (.inl hpc)
      | authenticated =>
        rw [next, hpc]
        exact .touch (.inr (by rw [hpc]; rfl))
      | hello deviceId verdict =>
        rw [next, hpc]
        exact stamp_hello hpc
      | streamStart =>
        rw [next, hpc]
        exact stamp_streamStart hpc
      | formatAck generation =>
        rw [next, hpc]
        exact stamp_formatAck hpc
      | formatReject generation =>
        rw [next, hpc]
        exact stamp_formatReject hpc
      | videoEnqueue x =>
        rw [next, hpc]
        exact stamp_enqueue hpc
      | sendFormat config =>
        rw [next, hpc]
        exact stamp_sendFormat hpc
      | _ =>
        rw [hpc] at hstamps
        exact absurd rfl hstamps

theorem clock_next (cfg : SessionConfig) (s : Sys) (a : Action) :
    s.clock ≤ (next cfg s a).clock := by
  cases a with
  | run t ok => exact step_aside.1.symm.le
  | receive inbound => cases inbound <;> exact le_rfl
  | watchdog =>
    simp only [next, watchdog]
    split_ifs <;> exact le_rfl
  | tick => exact Nat.le_succ _
  | _ => exact le_rfl

/-! ### Invariants -/

/-- No stamp is in the future. -/
structure Stamped (s : Sys) : Prop where
  streamingAt : s.activity.streamingAt ≤ s.clock
  lastVideoAt : s.activity.lastVideoAt ≤ s.clock
  lastActivity : s.activity.lastActivity ≤ s.clock

theorem stamped_next (h : Stamped s) (he : enabled s a) : Stamped (next cfg s a) := by
  obtain ⟨hstreaming, hvideo, hactivity⟩ := h
  have hclock := clock_next cfg s a
  have hstamp := stamp_next cfg he
  have h1 : (next cfg s a).activity.streamingAt =
      (stamps (next cfg s a).activity).streamingAt := rfl
  have h2 : (next cfg s a).activity.lastVideoAt =
      (stamps (next cfg s a).activity).lastVideoAt := rfl
  have h3 : (next cfg s a).activity.lastActivity =
      (stamps (next cfg s a).activity).lastActivity := rfl
  suffices hall : (stamps (next cfg s a).activity).streamingAt ≤ s.clock ∧
      (stamps (next cfg s a).activity).lastVideoAt ≤ s.clock ∧
      (stamps (next cfg s a).activity).lastActivity ≤ s.clock by
    exact ⟨by omega, by omega, by omega⟩
  clear h1 h2 h3
  generalize stamps (next cfg s a).activity = new at hstamp
  cases hstamp with
  | keep => exact ⟨hstreaming, hvideo, hactivity⟩
  | touch => exact ⟨hstreaming, hvideo, le_rfl⟩
  | video => exact ⟨hstreaming, le_rfl, le_rfl⟩
  | restart => exact ⟨le_rfl, le_rfl, le_rfl⟩
  | propose => exact ⟨hstreaming, hvideo, hactivity⟩
  | connect => exact ⟨hstreaming, hvideo, le_rfl⟩
  | disconnect => exact ⟨hstreaming, hvideo, hactivity⟩

/-- A format that is pending after a step was pending before, unless the step proposes it. -/
theorem pending_back (he : enabled s a) (hno : ¬ (proposal s a).isSome)
    (h : (next cfg s a).stream.pendingStreamConfig.isSome) :
    s.stream.pendingStreamConfig.isSome := by
  by_cases hsend : ∃ t ok config, a = .run t ok ∧ s.pc t = .sendFormat config
  · obtain ⟨t, ok, config, rfl, hpc⟩ := hsend
    rw [next, hpc, step] at h
    by_cases hadmits : admitsFormat s.stream config = true
    · rw [(sendFormat_admitted hadmits).2.1] at h
      cases ok with
      | true => exact absurd (proposal_isSome.mpr ⟨t, config, rfl, hpc, hadmits⟩) hno
      | false => cases h
    · rw [sendFormat_refused (by simpa using hadmits)] at h
      exact h
  · have hturn := turn_next cfg he
    have hpending : (next cfg s a).stream.pendingStreamConfig =
        (terms (next cfg s a).stream).pendingStreamConfig := rfl
    rw [hpending] at h
    generalize terms (next cfg s a).stream = τ at hturn h
    cases hturn with
    | propose hpc => exact absurd ⟨_, _, _, rfl, hpc⟩ hsend
    | commit => cases h
    | reject => cases h
    | connect => cases h
    | disconnect => cases h
    | _ => exact h

/-- The deadlines of a pending format. -/
def Beyond (cfg : SessionConfig) (s : Sys) : Prop :=
  s.stream.pendingStreamConfig.isSome →
    s.activity.pendingFormatAt + cfg.formatAckTimeout ≤ lastSeen s.activity + cfg.videoTimeout ∧
      s.activity.pendingFormatAt + cfg.formatAckTimeout ≤ s.activity.lastActivity + cfg.idleTimeout

/-- The same deadlines, by the stamps. -/
def Stamps.beyond (cfg : SessionConfig) (x : Stamps) : Prop :=
  x.pendingFormatAt + cfg.formatAckTimeout ≤
      (if x.receivedVideo then x.lastVideoAt else x.streamingAt) + cfg.videoTimeout ∧
    x.pendingFormatAt + cfg.formatAckTimeout ≤ x.lastActivity + cfg.idleTimeout

/-- Only a proposal can leave a deadline short of that of the acknowledgement. -/
theorem beyond_next (hs : Stamped s) (h : Beyond cfg s) (he : enabled s a)
    (hmargin : (proposal s a).isSome → Margin cfg s) : Beyond cfg (next cfg s a) := by
  intro hsome
  suffices hbeyond : (stamps (next cfg s a).activity).beyond cfg from hbeyond
  have hold (hno : ¬ (proposal s a).isSome) : (stamps s.activity).beyond cfg :=
    h (pending_back he hno hsome)
  have hclosed (hnone : (next cfg s a).stream.pendingStreamConfig = none) : False := by
    rw [hnone] at hsome
    cases hsome
  have hstamp := stamp_next cfg he
  generalize stamps (next cfg s a).activity = new at hstamp
  cases hstamp with
  | keep ha =>
    refine hold ?_
    rw [proposal_isSome]
    rintro ⟨t, config, rfl, hpc, hadmits⟩
    rw [ha t config rfl hpc] at hadmits
    cases hadmits
  | touch hpc =>
    have hlater := hold (not_proposal rfl fun config hsend => by
      rw [hsend] at hpc
      rcases hpc with hpc | hpc <;> cases hpc)
    exact ⟨hlater.1, hlater.2.trans (Nat.add_le_add_right hs.lastActivity _)⟩
  | video hpc =>
    have hlater := hold (not_proposal hpc fun _ h => by cases h)
    have hseen : (if s.activity.receivedVideo then s.activity.lastVideoAt
        else s.activity.streamingAt) ≤ s.clock := by
      split_ifs
      · exact hs.lastVideoAt
      · exact hs.streamingAt
    exact ⟨hlater.1.trans (Nat.add_le_add_right hseen _),
      hlater.2.trans (Nat.add_le_add_right hs.lastActivity _)⟩
  | restart hpc hnone => exact (hclosed hnone).elim
  | @propose t ok config hpc hadmits =>
    cases ok with
    | true => exact hmargin (proposal_isSome.mpr ⟨t, config, rfl, hpc, hadmits⟩)
    | false =>
      refine (hclosed ?_).elim
      rw [next, hpc, step, (sendFormat_admitted hadmits).2.1]
      rfl
  | connect => exact (hclosed rfl).elim
  | disconnect => exact (hclosed rfl).elim

/-- What every state of a run meets. -/
structure Sound (cfg : SessionConfig) (s : Sys) : Prop where
  base : Base s
  exclusive : Exclusive s
  stamped : Stamped s
  beyond : Beyond cfg s

theorem sound_start (cfg : SessionConfig) (consumer : Option ConsumerId) :
    Sound cfg (.start cfg consumer) where
  base := base_start cfg consumer
  exclusive := by
    refine ⟨nofun, nofun, fun h => ?_⟩
    rw [pc_start] at h
    cases h
  stamped := ⟨le_rfl, le_rfl, le_rfl⟩
  beyond := nofun

theorem sound_next (h : Sound cfg s) (he : enabled s a)
    (hmargin : (proposal s a).isSome → Margin cfg s) : Sound cfg (next cfg s a) where
  base := base_next h.base he
  exclusive := exclusive_next h.base h.exclusive he
  stamped := stamped_next h.stamped he
  beyond := beyond_next h.stamped h.beyond he hmargin

/-! ### Waiting for the answer -/

theorem reason_of_pending {r : Timeout} (hx : Exclusive s)
    (hsome : s.stream.pendingStreamConfig.isSome)
    (hwait : s.clock ≤ s.activity.pendingFormatAt + cfg.formatAckTimeout)
    (h : reason cfg s = some r) :
    (s.stream.state = .streaming ∧ lastSeen s.activity + cfg.videoTimeout < s.clock) ∨
      s.activity.lastActivity + cfg.idleTimeout < s.clock := by
  have hstate := hx.streaming hsome
  unfold reason at h
  dsimp only at h
  split_ifs at h with hhello htrust hack hprogress hvideo hreceived hidle
  · exact absurd hhello.1 (by rcases hstate with h | h <;> rw [h] <;> decide)
  · exact absurd htrust.1 (by rcases hstate with h | h <;> rw [h] <;> decide)
  · exact absurd hack.2 (by omega)
  · exact absurd hprogress.1 (by rcases hstate with h | h <;> rw [h] <;> decide)
  · exact .inl ⟨hvideo.1, by omega⟩
  · exact .inl ⟨hvideo.1, by omega⟩
  · exact .inr (by omega)

theorem reason_of_late (hstate : s.stream.state = .streaming)
    (hwait : s.clock ≤ s.activity.pendingFormatAt + cfg.formatAckTimeout)
    (hlate : lastSeen s.activity + cfg.videoTimeout < s.clock ∨
      s.activity.lastActivity + cfg.idleTimeout < s.clock) :
    ∃ r, reason cfg s = some r ∧ r ≠ .formatAcknowledgement := by
  unfold reason
  dsimp only
  split_ifs with hhello htrust hack hprogress hvideo hreceived hidle
  · exact ⟨_, rfl, by decide⟩
  · exact ⟨_, rfl, by decide⟩
  · exact absurd hack.2 (by omega)
  · exact ⟨_, rfl, by decide⟩
  · exact ⟨_, rfl, by decide⟩
  · exact ⟨_, rfl, by decide⟩
  · exact ⟨_, rfl, by decide⟩
  · exfalso
    rcases hlate with hlate | hlate
    · exact hvideo ⟨hstate, by omega⟩
    · omega

theorem patient_of_beyond (hx : Exclusive s) (h : Beyond cfg s) : Patient cfg s a := by
  intro _ hsome hwait r hr
  obtain ⟨hvideo, hidle⟩ := h hsome
  rcases reason_of_pending hx hsome hwait hr with ⟨-, hlate⟩ | hlate
  · omega
  · omega

theorem exec_ticks (cfg : SessionConfig) (s : Sys) (n : ℕ) :
    (controller cfg).exec s (.replicate n .tick) = { s with clock := s.clock + n } := by
  induction n generalizing s with
  | zero => rfl
  | succ n ih =>
    have hnext : (controller cfg).exec s (.replicate (n + 1) .tick) =
        (controller cfg).exec { s with clock := s.clock + 1 } (.replicate n .tick) := rfl
    rw [hnext, ih]
    have hclock : s.clock + 1 + n = s.clock + (n + 1) := by omega
    simp only [hclock]

theorem legal_ticks {cond : Sys → Action → Prop} {n : ℕ}
    (h : ∀ k < n, cond { s with clock := s.clock + k } .tick) :
    (controller cfg).Legal cond s (.replicate n .tick) := by
  induction n generalizing s with
  | zero => trivial
  | succ n ih =>
    refine ⟨trivial, h 0 n.succ_pos, ih fun k hk => ?_⟩
    have hclock : s.clock + 1 + k = s.clock + (k + 1) := by omega
    have hcond := h (k + 1) (Nat.succ_lt_succ hk)
    rw [← hclock] at hcond
    exact hcond

/-- After a proposal without the margin, the watchdog has another reason once the deadline of the
acknowledgement is reached. -/
theorem not_patient_of_waiting {t : Thread}
    (hproposes : (proposal s (.run t true)).isSome) (hmargin : ¬ Margin cfg s) :
    let M := controller cfg
    let waiting := M.exec (M.next s (.run t true)) (.replicate cfg.formatAckTimeout .tick)
    M.enabled waiting .watchdog ∧ ¬ Patient cfg waiting .watchdog := by
  obtain ⟨t', config, ha, hpc, hadmits⟩ := proposal_isSome.mp hproposes
  obtain ⟨rfl, -⟩ := Action.run.inj ha
  have hnext : (controller cfg).next s (.run t true) = sendFormat s t config true := by
    show next cfg s (.run t true) = _
    rw [next, hpc, step]
  obtain ⟨hactivity, hpending, hstate, hconnection⟩ :=
    @sendFormat_admitted s t true config hadmits
  have hclock : (sendFormat s t config true).clock = s.clock :=
    (@step_aside cfg s t true (.sendFormat config)).1
  dsimp only
  rw [hnext, exec_ticks]
  refine ⟨hconnection, fun hpatient => ?_⟩
  have hwait : s.clock + cfg.formatAckTimeout ≤
      (sendFormat s t config true).activity.pendingFormatAt + cfg.formatAckTimeout := by
    rw [hactivity]
  obtain ⟨r, hr, hne⟩ := @reason_of_late cfg
    { sendFormat s t config true with clock := s.clock + cfg.formatAckTimeout } hstate hwait (by
      dsimp only
      rw [hactivity]
      unfold Margin at hmargin
      unfold lastSeen at hmargin ⊢
      dsimp only
      omega)
  rw [hclock] at hpatient
  exact hne (hpatient rfl (by rw [hpending]; rfl) hwait r hr)

theorem exec_waiting {before after : List Action} {n : ℕ} :
    (controller cfg).exec s (before ++ (.replicate n .tick ++ after)) =
      (controller cfg).exec
        { (controller cfg).exec s before with
          clock := ((controller cfg).exec s before).clock + n } after := by
  rw [Machine.exec_append, Machine.exec_append, exec_ticks]

theorem legal_waiting {cond : Sys → Action → Prop} {before after : List Action} {n : ℕ}
    (hbefore : (controller cfg).Legal cond s before)
    (hticks : ∀ k < n, cond { (controller cfg).exec s before with
      clock := ((controller cfg).exec s before).clock + k } .tick)
    (hafter : (controller cfg).Legal cond { (controller cfg).exec s before with
      clock := ((controller cfg).exec s before).clock + n } after) :
    (controller cfg).Legal cond s (before ++ (.replicate n .tick ++ after)) := by
  rw [← exec_ticks cfg] at hafter
  exact Machine.legal_append.mpr ⟨hbefore, Machine.legal_append.mpr ⟨legal_ticks hticks, hafter⟩⟩

/-! ### Every run -/

/-- **If the video and idle deadlines lie beyond that of the acknowledgement whenever a format is
proposed, no other deadline ends the session while the answer may still come.** A proposal that
leaves one of them short of it needs only the time to pass. -/
theorem patient_of_run (cfg : SessionConfig) (consumer : Option ConsumerId) :
    (∀ actions, (controller cfg).Legal (fun s a => (proposal s a).isSome → Margin cfg s)
        (.start cfg consumer) actions →
      (controller cfg).Legal (Patient cfg) (.start cfg consumer) actions) ∧
    ∀ before t,
      (controller cfg).Legal (fun _ _ => True) (.start cfg consumer) (before ++ [.run t true]) →
      (proposal ((controller cfg).exec (.start cfg consumer) before) (.run t true)).isSome →
      ¬ Margin cfg ((controller cfg).exec (.start cfg consumer) before) →
      (controller cfg).Legal (fun _ _ => True) (.start cfg consumer)
        (before ++ [.run t true] ++ (.replicate cfg.formatAckTimeout .tick ++ [.watchdog])) ∧
      ¬ (controller cfg).Legal (Patient cfg) (.start cfg consumer)
        (before ++ [.run t true] ++ (.replicate cfg.formatAckTimeout .tick ++ [.watchdog])) := by
  refine ⟨fun actions h => ?_, fun before t h hproposes hmargin => ?_⟩
  · exact h.along (sound_start cfg consumer) (fun s a hs he hm => sound_next hs he hm)
      fun s a hs _ _ => patient_of_beyond hs.exclusive hs.beyond
  · obtain ⟨hwatch, hno⟩ := not_patient_of_waiting hproposes hmargin
    have hrun : (controller cfg).exec (.start cfg consumer) (before ++ [.run t true]) =
        (controller cfg).next ((controller cfg).exec (.start cfg consumer) before)
          (.run t true) := Machine.exec_append _
    rw [← hrun] at hwatch hno
    constructor
    · rw [exec_ticks] at hwatch
      exact legal_waiting h (fun _ _ => trivial) ⟨hwatch, trivial, trivial⟩
    · intro hpatient
      have hwaited := (Machine.legal_append.mp hpatient).2
      exact hno (Machine.legal_append.mp hwaited).2.2.1

/-- A format is proposed, and nothing comes back. -/
def unanswered : List Action :=
  bringUp ++ video keyframeSample ++ [.tick, .call 1 (.sendFormat {})]

theorem patient_of_run_unanswered :
    (controller { videoTimeout := 10000 }).Legal (Patient { videoTimeout := 10000 })
      (.start { videoTimeout := 10000 } (some 1)) (unanswered ++ [.run 1 true, .tick, .watchdog]) ∧
    ¬ (controller {}).Legal (Patient {}) (.start {} (some 1))
      (unanswered ++ [.run 1 true] ++ (.replicate 5000 .tick ++ [.watchdog])) :=
  ⟨(patient_of_run { videoTimeout := 10000 } (some 1)).1 _ (by decide),
    ((patient_of_run {} (some 1)).2 unanswered 1 (by decide) (by decide) (by decide)).2⟩

/-- The last video, or the start of the stream, is recent enough. -/
def VideoInTime (cfg : SessionConfig) (s : Sys) : Prop :=
  s.stream.state = .streaming → s.clock ≤ lastSeen s.activity + cfg.videoTimeout

instance (cfg : SessionConfig) (s : Sys) : Decidable (VideoInTime cfg s) :=
  inferInstanceAs (Decidable (_ → _))

/-- The session with its first frame. -/
def seen : Sys := (controller {}).exec (.start {} (some 1)) (bringUp ++ video keyframeSample)

def seenLate : Sys := { seen with clock := seen.clock + 3000 }

def proposedLate : Sys := (controller {}).exec seenLate [.call 1 (.sendFormat {}), .run 1 true]

/-- Three seconds after its first frame the session is asked for another format. -/
def askedLate : List Action :=
  bringUp ++ video keyframeSample ++ (.replicate 3000 .tick ++ [.call 1 (.sendFormat {})])

theorem askedLate_append (actions : List Action) :
    askedLate ++ actions = bringUp ++ video keyframeSample ++
      (.replicate 3000 .tick ++ .call 1 (.sendFormat {}) :: actions) := by
  rw [askedLate, List.append_assoc _ _ actions, List.append_assoc _ _ actions]
  rfl

theorem exec_askedLate (actions : List Action) :
    (controller {}).exec (.start {} (some 1)) (askedLate ++ actions) =
      (controller {}).exec seenLate (.call 1 (.sendFormat {}) :: actions) := by
  rw [askedLate_append, exec_waiting]
  rfl

theorem exec_proposedLate (actions : List Action) :
    (controller {}).exec (.start {} (some 1)) (askedLate ++ ([.run 1 true] ++ actions)) =
      (controller {}).exec proposedLate actions := by
  rw [exec_askedLate]
  rfl

theorem legal_askedLate {cond : Sys → Action → Prop} {actions : List Action}
    (hfirst : (controller {}).Legal cond (.start {} (some 1)) (bringUp ++ video keyframeSample))
    (hticks : ∀ k < 3000, cond { seen with clock := seen.clock + k } .tick)
    (hlast : (controller {}).Legal cond seenLate [.call 1 (.sendFormat {}), .run 1 true])
    (hafter : (controller {}).Legal cond proposedLate actions) :
    (controller {}).Legal cond (.start {} (some 1)) (askedLate ++ ([.run 1 true] ++ actions)) := by
  rw [askedLate_append]
  exact legal_waiting hfirst hticks
    (@Machine.legal_append _ _ (controller {}) cond seenLate _ _ |>.mpr ⟨hlast, hafter⟩)

/-- Two seconds after the proposal the session fails for want of video. -/
theorem not_patient_of_run :
    ∃ before waiting,
      let M := controller {}
      let start := Sys.start {} (some 1)
      let asked := M.exec start before
      let waited := M.exec start (before ++ ([.run 1 true] ++ waiting))
      M.Legal (fun s _ => VideoInTime {} s) start (before ++ [.run 1 true]) ∧
        (proposal asked (.run 1 true)).isSome ∧
        M.Legal (fun _ _ => True) start (before ++ ([.run 1 true] ++ (waiting ++ [.watchdog]))) ∧
        waited.stream.pendingStreamConfig.isSome ∧ waited.clock = asked.clock + 2001 ∧
        reason {} waited = some .videoIdle := by
  refine ⟨askedLate, .replicate 2001 .tick, ?_⟩
  have hasked : (controller {}).exec (.start {} (some 1)) askedLate =
      (controller {}).exec seenLate [.call 1 (.sendFormat {})] := by
    have hnil := exec_askedLate []
    rwa [List.append_nil] at hnil
  have hticks (k : ℕ) (hk : k < 3000) : VideoInTime {} { seen with clock := seen.clock + k } := by
    intro _
    have hseen : seen.clock = 0 ∧ lastSeen seen.activity = 0 := by decide
    show seen.clock + k ≤ lastSeen seen.activity + 5000
    omega
  have hfirst : (controller {}).Legal (fun s _ => VideoInTime {} s) (.start {} (some 1))
      (askedLate ++ ([.run 1 true] ++ [])) :=
    legal_askedLate (by decide) hticks (by decide) trivial
  rw [List.append_nil] at hfirst
  dsimp only
  rw [hasked, exec_proposedLate, exec_ticks]
  refine ⟨hfirst, by decide, legal_askedLate (by decide) (fun _ _ => trivial) (by decide) ?_,
    by decide, by decide, by decide⟩
  refine Machine.legal_append.mpr ⟨legal_ticks fun _ _ => trivial, ?_⟩
  rw [exec_ticks]
  decide

end RemoteCam.Backend.Acknowledgement
