import RemoteCam.Security.RateLimiter

/-! # The global budget

"Five failed or unfinished attempts in 10 minutes, either from one source address or globally,
trigger a 5-minute cooldown." When the cooldown of one peer is over, its charges are dropped from
the one list that the global budget is counted in, too. `globalBudget_iff`: the global budget is
kept in every run if and only if no such charge can still lie in the failure window, or a peer that
uses up its own budget uses up the global one with it. -/

namespace RemoteCam.Security.GlobalBudget

open RemoteCam.Lib.Transitions RemoteCam.Security.Protector RemoteCam.Security.RateLimiter

/-- The standing attempts in the failure window, since the last completed global cooldown. -/
def spent (s : Ledger) (now : ℤ) : ℕ :=
  (s.since now).countP fun a =>
    !(s.refunded.any fun id => a.id = id) && now - s.policy.config.failureWindow ≤ a.started

/-- **The property**: once the global budget is used up, everybody is refused. -/
def KeepsGlobalBudget (s : Ledger) : Prop :=
  ∀ now, s.clock ≤ now → s.policy.config.maxAttemptsGlobal ≤ spent s now →
    ∀ peer, (s.policy.allowed peer now).1 = false ∧ (s.policy.beginAttempt peer now).1 = none

/-- Nothing is admitted at all, a peer's budget is no smaller than the global one, the cooldown is
longer than the failure window, or the window or the supply of ids is too small for the global
budget to be used up. -/
def Guarded (config : AttemptPolicyConfig) : Prop :=
  config.maxAttemptsPerSource = 0 ∨ config.maxAttemptsGlobal ≤ config.maxAttemptsPerSource ∨
    config.failureWindow < config.cooldown ∨ config.failureWindow < 0 ∨
    maxAttemptId ≤ config.maxAttemptsGlobal

/-! ### Where the budget is kept -/

section Kept
variable {p p' : AttemptPolicy} {s : Ledger} {action : Action} {now : ℤ} {x r : Option Attempt}

/-- A peer that is blocked has used up the global budget, too, by itself. -/
structure Paired (p : AttemptPolicy) : Prop where
  few : p.attempts.length ≤ p.config.maxAttemptsGlobal
  paired : ∀ peer, ∀ b ∈ p.peerBlockedUntil peer,
    b ∈ p.globalBlockedUntil ∧ ∀ a ∈ p.attempts, a.peer = peer

theorem Paired.prune (h : Paired p) : Paired (p.prune now) := by
  refine ⟨?_, fun peer b hb => ?_⟩
  · rw [config_prune]
    exact prune_sublist.length_le.trans h.few
  · obtain ⟨hblocked, hnow, -⟩ := peerBlocked_prune.mp hb
    obtain ⟨hglobal, hall⟩ := h.paired peer b hblocked
    exact ⟨globalBlocked_prune.mpr ⟨hglobal, hnow⟩, fun a ha => hall a (mem_prune.mp ha).1⟩

theorem Paired.charge {peer : Bytes} (h : Paired p)
    (hle : p.config.maxAttemptsGlobal ≤ p.config.maxAttemptsPerSource)
    (hglobal : p.globalBlockedUntil = none)
    (htotal : p.attempts.length < p.config.maxAttemptsGlobal) : Paired (p.charge peer now) := by
  have hcount : p.peerAttempts peer ≤ p.attempts.length := List.countP_le_length
  refine ⟨?_, fun other b hb => ?_⟩
  · rw [config_charge, attempts_charge, List.length_append, List.length_singleton]
    exact htotal
  rw [peerBlocked_charge] at hb
  split_ifs at hb with hblock
  · obtain ⟨rfl, hlimit⟩ := hblock
    refine ⟨?_, fun a ha => ?_⟩
    · rw [globalBlocked_charge, if_pos (by omega)]
      exact hb
    · have hall : p.peerAttempts peer = p.attempts.length := by omega
      rw [attempts_charge] at ha
      rcases List.mem_append.mp ha with ha | ha
      · simpa using List.countP_eq_length.mp hall a ha
      · rw [List.mem_singleton.mp ha]
  · have hnone := (h.paired other b hb).1
    rw [hglobal] at hnone
    cases hnone

theorem Paired.refund {a : Attempt} (h : Paired p)
    (hle : p.config.maxAttemptsGlobal ≤ p.config.maxAttemptsPerSource) (ha : a ∈ p.attempts) :
    Paired (p.refund a) := by
  refine ⟨?_, fun peer b hb => ?_⟩
  · rw [config_refund, attempts_refund]
    exact List.length_erase_le.trans h.few
  · have hpeer : a.peer = peer := (h.paired peer b (peerBlocked_refund hb)).2 a ha
    have hfew : (p.attempts.erase a).length < p.config.maxAttemptsPerSource := by
      have hlength := List.length_erase_of_mem ha
      have hpos := List.length_pos_of_mem ha
      have := h.few
      omega
    have hcount : (p.attempts.erase a).countP (fun x => x.peer = a.peer) <
        p.config.maxAttemptsPerSource := List.countP_le_length.trans_lt hfew
    unfold AttemptPolicy.refund AttemptPolicy.peerAttempts at hb
    dsimp only at hb
    rw [if_pos hcount] at hb
    subst hpeer
    split_ifs at hb <;> simp at hb

theorem Paired.turn (h : Paired p) (hturn : Turn p action p' x r)
    (hle : p.config.maxAttemptsGlobal ≤ p.config.maxAttemptsPerSource) : Paired p' := by
  cases hturn with
  | skip => exact h
  | prune => exact h.prune
  | charge hpeer hglobal hsource htotal =>
    refine h.prune.charge ?_ hglobal ?_
    · rw [config_prune]
      exact hle
    · rw [config_prune]
      exact htotal
  | refund ha =>
    refine h.prune.refund ?_ ha
    rw [config_prune]
    exact hle

/-- A charge in the failure window is dropped at the end of a global cooldown only. -/
def Spares (s : Ledger) : Prop :=
  ∀ now, s.clock ≤ now → ∀ a ∈ s.policy.attempts,
    now - s.policy.config.failureWindow ≤ a.started →
    elapsed now s.policy.globalBlockedUntil = false →
    elapsed now (s.policy.peerBlockedUntil a.peer) = false

theorem spares_of_paired (h : Paired s.policy) : Spares s :=
  fun _ _ a _ _ hover => over_eq_false.mpr fun b hb =>
    over_eq_false.mp hover b (h.paired a.peer b hb).1

theorem spares_of_lt (h : Retained s)
    (hlt : s.policy.config.failureWindow < s.policy.config.cooldown) : Spares s := by
  intro now _ a ha hwindow _
  refine over_eq_false.mpr fun b hb => ?_
  have hle := h.blocks.source a ha b hb
  omega

/-- No attempt lies in a negative window. -/
theorem spares_of_neg (h : Retained s) (hneg : s.policy.config.failureWindow < 0) : Spares s := by
  intro now hle a ha hwindow _
  have hpast := h.past a (mem_standing.mp (h.charged a ha)).1
  omega

/-- What has been admitted since the last global cooldown. -/
def Current (s : Ledger) : Prop := s.current.Sublist s.admitted

theorem since_sublist (s : Ledger) (now : ℤ) : (s.since now).Sublist s.current := by
  unfold Ledger.since
  split_ifs
  · exact List.nil_sublist _
  · exact List.Sublist.refl _

theorem current_next (h : Current s) : Current (next s action) :=
  ((since_sublist s _).trans h).append (List.Sublist.refl _)

/-- It is charged as long as it is in the failure window, if it was not refunded. -/
def Whole (s : Ledger) : Prop :=
  ∀ a ∈ s.current, a.id ∉ s.refunded →
    s.clock - s.policy.config.failureWindow ≤ a.started → a ∈ s.policy.attempts

/-- Such a charge survives the pruning. -/
theorem Whole.mem_prune (h : Whole s) (hspares : Spares s) (hle : s.clock ≤ now)
    {a : Attempt} (ha : a ∈ s.since now) (hid : a.id ∉ s.refunded)
    (hwindow : now - s.policy.config.failureWindow ≤ a.started) :
    a ∈ (s.policy.prune now).attempts := by
  have hcharged := h a ((since_sublist s now).subset ha) hid (by omega)
  have hover : elapsed now s.policy.globalBlockedUntil = false := by
    by_contra hover
    unfold Ledger.since at ha
    rw [if_pos (by simpa using hover)] at ha
    cases ha
  exact RateLimiter.mem_prune.mpr
    ⟨hcharged, hover, hspares now hle a hcharged hwindow hover, hwindow⟩

theorem whole_next (h : Whole s) (hspares : Spares s) (he : s.clock ≤ action.now) :
    Whole (next s action) := by
  intro a ha hid hwindow
  rw [config_next] at hwindow
  have hwindow : action.now - s.policy.config.failureWindow ≤ a.started := hwindow
  have ha : a ∈ s.since action.now ++ (admission s action).toList := ha
  have hpolicy : (next s action).policy = policyNext s.policy action := rfl
  have hturn := turn s action
  have hid' : a.id ∉ s.refunded ∧ ∀ y ∈ refundOf s action, a.id ≠ y.id := by
    refine ⟨fun hmem => hid (List.mem_append_left _ hmem), fun y hy heq => hid ?_⟩
    refine List.mem_append_right _ ?_
    rw [Option.mem_toList, Option.map_eq_some_iff]
    exact ⟨y, hy, heq.symm⟩
  have hold (ha : a ∈ s.since action.now) := h.mem_prune hspares he ha hid'.1 hwindow
  rw [hpolicy]
  generalize policyNext s.policy action = p at hturn ⊢
  generalize hx : admission s action = x at hturn ha
  generalize hrefund : refundOf s action = r at hturn hid'
  cases hturn with
  | skip =>
    rw [Option.toList_none, List.append_nil] at ha
    exact (RateLimiter.mem_prune.mp (hold ha)).1
  | prune =>
    rw [Option.toList_none, List.append_nil] at ha
    exact hold ha
  | charge =>
    rw [attempts_charge, nextAttemptId_prune]
    rcases List.mem_append.mp ha with ha | ha
    · exact List.mem_append_left _ (hold ha)
    · exact List.mem_append_right _ ha
  | @refund id now y hy =>
    rw [Option.toList_none, List.append_nil] at ha
    rw [attempts_refund]
    refine (List.mem_erase_of_ne ?_).mpr (hold ha)
    rintro rfl
    exact hid'.2 a rfl rfl

/-- All ids are used up after `maxAttemptId - 1` attempts. -/
def Supplied (s : Ledger) : Prop :=
  s.admitted.length + 1 = s.policy.nextAttemptId ∧ s.policy.nextAttemptId ≤ maxAttemptId

theorem supplied_next (h : Supplied s) : Supplied (next s action) := by
  obtain ⟨hcount, hle⟩ := h
  have hpolicy : (next s action).policy = policyNext s.policy action := rfl
  have hadmitted : (next s action).admitted = s.admitted ++ (admission s action).toList := rfl
  have hturn := turn s action
  unfold Supplied
  rw [hpolicy, hadmitted, List.length_append]
  generalize policyNext s.policy action = p at hturn ⊢
  generalize admission s action = x at hturn ⊢
  generalize refundOf s action = r at hturn
  cases hturn with
  | skip => exact ⟨hcount, hle⟩
  | prune => exact ⟨by rw [nextAttemptId_prune]; exact hcount, by rw [nextAttemptId_prune]; exact hle⟩
  | charge _ _ _ _ hid =>
    rw [nextAttemptId_charge, nextAttemptId_prune]
    exact ⟨congrArg (· + 1) hcount, lt_of_le_of_ne hle hid⟩
  | refund =>
    rw [nextAttemptId_refund, nextAttemptId_prune]
    exact ⟨hcount, hle⟩

theorem refused_of_length {peer : Bytes}
    (h : p.config.maxAttemptsGlobal ≤ (p.prune now).attempts.length) :
    (p.allowed peer now).1 = false ∧ (p.beginAttempt peer now).1 = none := by
  unfold AttemptPolicy.beginAttempt
  rcases allowed_cases p peer now with heq | heq | ⟨-, -, -, -, htotal⟩
  · rw [heq]
    exact ⟨rfl, rfl⟩
  · rw [heq]
    exact ⟨rfl, rfl⟩
  · omega

theorem keeps_of_spares (hr : Retained s) (hcurrent : Current s) (h : Whole s)
    (hspares : Spares s) : KeepsGlobalBudget s := by
  intro now hle hspent peer
  refine refused_of_length (hspent.trans ?_)
  have hnodup : (s.since now).Nodup :=
    ((List.Nodup.of_map _ hr.ids).sublist hcurrent).sublist (since_sublist s now)
  unfold spent
  rw [List.countP_eq_length_filter]
  refine (List.subperm_of_subset (hnodup.filter _) fun a ha => ?_).length_le
  simp only [List.mem_filter, Bool.and_eq_true, Bool.not_eq_true', List.any_eq_false,
    decide_eq_true_eq] at ha
  obtain ⟨ha, hid, hwindow⟩ := ha
  exact h.mem_prune hspares hle ha (fun hmem => hid _ hmem rfl) hwindow

/-- With no budget for a single peer nothing is admitted. -/
theorem keeps_of_zero (hzero : s.policy.config.maxAttemptsPerSource = 0) : KeepsGlobalBudget s := by
  intro now _ _ peer
  have hallowed : s.policy.allowed peer now = (false, s.policy) := by
    unfold AttemptPolicy.allowed
    rw [if_pos (.inr (.inl hzero))]
  unfold AttemptPolicy.beginAttempt
  rw [hallowed]
  exact ⟨rfl, rfl⟩

theorem keeps_of_supplied (hcurrent : Current s) (h : Supplied s)
    (hmax : maxAttemptId ≤ s.policy.config.maxAttemptsGlobal) : KeepsGlobalBudget s := by
  intro now _ hspent
  have hle : spent s now ≤ s.admitted.length :=
    List.countP_le_length.trans ((since_sublist s now).trans hcurrent).length_le
  obtain ⟨hcount, hlast⟩ := h
  have hlt : s.admitted.length < maxAttemptId := by
    rw [← hcount] at hlast
    exact hlast
  omega

theorem keeps_of_guarded {config : AttemptPolicyConfig} (hguarded : Guarded config) {clock : ℤ}
    {as : List Action} (h : ledger.Legal (fun _ _ => True) (.start config clock) as) :
    KeepsGlobalBudget (ledger.exec (.start config clock) as) := by
  have hconfig : (ledger.exec (.start config clock) as).policy.config = config :=
    h.invariant (I := fun s => s.policy.config = config) rfl
      fun s action hs _ _ => config_next.trans hs
  -- the invariants along the run, where every state spares its charges
  have hrun {J : Ledger → Prop} (hstart : J (.start config clock))
      (hstep : ∀ s action, J s → s.policy.config = config → J (next s action))
      (hspares : ∀ s, s.policy.config = config → Retained s → J s → Spares s) :
      KeepsGlobalBudget (ledger.exec (.start config clock) as) := by
    obtain ⟨hr, hcurrent, hwhole, hc, hJ⟩ := h.invariant (I := fun s => Retained s ∧ Current s ∧
        Whole s ∧ s.policy.config = config ∧ J s)
      ⟨retained_start config clock, List.Sublist.refl _, fun a ha => absurd ha List.not_mem_nil,
        rfl, hstart⟩
      fun s action ⟨hr, hcurrent, hwhole, hc, hJ⟩ he _ => ⟨retained_next hr he,
        current_next hcurrent, whole_next hwhole (hspares s hc hr hJ) he,
        config_next.trans hc, hstep s action hJ hc⟩
    exact keeps_of_spares hr hcurrent hwhole (hspares _ hc hr hJ)
  rcases hguarded with hzero | hle | hlt | hneg | hmax
  · exact keeps_of_zero (by rw [hconfig]; exact hzero)
  · refine hrun (J := fun s => Paired s.policy) ⟨Nat.zero_le _, fun peer b hb => (by cases hb)⟩
      (fun s action hs hc => ?_) fun s _ _ hs => spares_of_paired hs
    exact hs.turn (turn s action) (by rw [hc]; exact hle)
  · exact hrun (J := fun _ => True) trivial (fun _ _ _ _ => trivial)
      fun s hc hr _ => spares_of_lt hr (by rw [hc]; exact hlt)
  · exact hrun (J := fun _ => True) trivial (fun _ _ _ _ => trivial)
      fun s hc hr _ => spares_of_neg hr (by rw [hc]; exact hneg)
  · obtain ⟨hcurrent, hsupplied⟩ := h.invariant (I := fun s => Current s ∧ Supplied s)
      ⟨List.Sublist.refl _, rfl, (by decide : 1 ≤ maxAttemptId)⟩
      fun s action ⟨hcurrent, hs⟩ _ _ => ⟨current_next hcurrent, supplied_next hs⟩
    exact keeps_of_supplied hcurrent hsupplied (by rw [hconfig]; exact hmax)

end Kept

/-! ### Where it is not -/

section Overdrawn
variable {s : Ledger} {p : AttemptPolicy} {config : AttemptPolicyConfig} {now : ℤ} {peer : Bytes}
  {k n : ℕ}

/-- Different addresses. -/
def address (k : ℕ) : Bytes := List.replicate (k + 1) 0

theorem address_inj {i j : ℕ} (h : address i = address j) : i = j := by
  have hlength := congrArg List.length h
  simpa [address] using hlength

theorem address_ne_nil (k : ℕ) : address k ≠ [] := List.cons_ne_nil _ _

/-- With nothing blocked and nothing old there is nothing to prune. -/
theorem prune_eq_self (hglobal : p.globalBlockedUntil = none)
    (hpeer : ∀ peer, p.peerBlockedUntil peer = none)
    (hwindow : ∀ a ∈ p.attempts, now - p.config.failureWindow ≤ a.started) : p.prune now = p := by
  have hkept : (p.attempts.filter fun a => !elapsed now (p.peerBlockedUntil a.peer)) = p.attempts :=
    List.filter_eq_self.mpr fun a _ => by simp [hpeer, elapsed]
  have hold : (p.attempts.filter fun a =>
      !decide (a.started < now - p.config.failureWindow)) = p.attempts :=
    List.filter_eq_self.mpr fun a ha => by simpa using hwindow a ha
  have hblocks : (fun peer => (p.peerBlockedUntil peer).filter (now < ·)) = p.peerBlockedUntil :=
    funext fun peer => by rw [hpeer]; rfl
  unfold AttemptPolicy.prune
  rw [hglobal, if_neg (by simp [elapsed])]
  dsimp only
  rw [hkept, hold, hblocks, ← hglobal]

/-- So many attempts have been admitted, the last of them lately, and there is no global block. -/
structure Filled (config : AttemptPolicyConfig) (now : ℤ) (n : ℕ) (s : Ledger) : Prop where
  configured : s.policy.config = config
  clock : s.clock ≤ now
  global : s.policy.globalBlockedUntil = none
  id : s.policy.nextAttemptId = n + 1
  current : s.current.length = n
  lately : ∀ a ∈ s.current, now - config.failureWindow ≤ a.started
  refunded : s.refunded = []

/-- One more attempt. -/
theorem Filled.admit {time : ℤ} (h : Filled config now n s) (hsource : 0 < config.maxAttemptsPerSource)
    (hpeer : peer ≠ []) (hid : n + 1 < maxAttemptId)
    (htime : s.clock ≤ time ∧ time ≤ now ∧ now - config.failureWindow ≤ time)
    (hblocked : (s.policy.prune time).peerBlockedUntil peer = none)
    (hfew : (s.policy.prune time).peerAttempts peer < config.maxAttemptsPerSource)
    (htotal : (s.policy.prune time).attempts.length + 1 < config.maxAttemptsGlobal) :
    (next s (.beginAttempt peer time)).policy = (s.policy.prune time).charge peer time ∧
      Filled config now (n + 1) (next s (.beginAttempt peer time)) := by
  have hover : elapsed time s.policy.globalBlockedUntil = false := by rw [h.global]; rfl
  have hglobal : (s.policy.prune time).globalBlockedUntil = none := by
    refine Option.eq_none_iff_forall_not_mem.mpr fun b hb => ?_
    have hmem := (globalBlocked_prune.mp hb).1
    rw [h.global] at hmem
    cases hmem
  have hallowed : s.policy.allowed peer time = (true, s.policy.prune time) := by
    unfold AttemptPolicy.allowed
    dsimp only
    rw [h.configured, if_neg, hglobal, hblocked, config_prune, h.configured]
    · simp [hfew, (Nat.lt_succ_self _).trans htotal]
    · push Not
      exact ⟨hpeer, by omega, by omega⟩
  have hbegin : s.policy.beginAttempt peer time =
      (some (n + 1), (s.policy.prune time).charge peer time) := by
    unfold AttemptPolicy.beginAttempt
    rw [hallowed]
    have hne : n + 1 ≠ maxAttemptId := hid.ne
    simp [h.id, hne]
  have hadmission : admission s (.beginAttempt peer time) = some ⟨n + 1, peer, time⟩ := by
    unfold admission
    dsimp only
    rw [hbegin]
    rfl
  have hpolicy : (next s (.beginAttempt peer time)).policy =
      (s.policy.prune time).charge peer time := by
    show (s.policy.beginAttempt peer time).2 = _
    rw [hbegin]
  have hcurrent : (next s (.beginAttempt peer time)).current =
      s.current ++ [⟨n + 1, peer, time⟩] := by
    show s.since time ++ _ = _
    rw [hadmission]
    unfold Ledger.since
    rw [if_neg (by simp [hover])]
    rfl
  refine ⟨hpolicy, ?_⟩
  constructor
  · rw [config_next]
    exact h.configured
  · exact htime.2.1
  · rw [hpolicy, globalBlocked_charge, config_prune, h.configured, if_neg (by omega), hglobal]
  · rw [hpolicy, nextAttemptId_charge, nextAttemptId_prune, h.id]
  · rw [hcurrent, List.length_append, h.current]
    rfl
  · intro a ha
    rw [hcurrent] at ha
    rcases List.mem_append.mp ha with ha | ha
    · exact h.lately a ha
    · rw [List.mem_singleton.mp ha]
      exact htime.2.2
  · show s.refunded ++ _ = _
    rw [h.refunded]
    rfl

/-- A peer that uses up its budget at time 0. -/
structure First (config : AttemptPolicyConfig) (k : ℕ) (s : Ledger) : Prop where
  clock : s.clock = 0
  length : s.policy.attempts.length = k
  charges : ∀ a ∈ s.policy.attempts, a.peer = address 0 ∧ a.started = 0
  blocked : ∀ peer, ∀ b ∈ s.policy.peerBlockedUntil peer, peer = address 0 ∧ b = config.cooldown
  blocks : (s.policy.peerBlockedUntil (address 0)).isSome ↔ config.maxAttemptsPerSource ≤ k

theorem first_next (hf : Filled config now k s) (h : First config k s)
    (hk : k < config.maxAttemptsPerSource)
    (hlt : config.maxAttemptsPerSource < config.maxAttemptsGlobal)
    (hmax : config.maxAttemptsGlobal < maxAttemptId) (hnow : 0 ≤ now)
    (hwindow : now ≤ config.failureWindow) :
    Filled config now (k + 1) (next s (.beginAttempt (address 0) 0)) ∧
      First config (k + 1) (next s (.beginAttempt (address 0) 0)) := by
  have hunblocked : ∀ peer, s.policy.peerBlockedUntil peer = none := by
    intro peer
    refine Option.eq_none_iff_forall_not_mem.mpr fun b hb => ?_
    obtain ⟨rfl, -⟩ := h.blocked peer b hb
    have hle := h.blocks.mp (Option.isSome_of_mem hb)
    omega
  have hprune : s.policy.prune 0 = s.policy := by
    refine prune_eq_self hf.global hunblocked fun a ha => ?_
    rw [hf.configured, (h.charges a ha).2]
    omega
  have hcount : s.policy.peerAttempts (address 0) = k := by
    rw [← h.length]
    refine List.countP_eq_length.mpr fun a ha => ?_
    simpa using (h.charges a ha).1
  obtain ⟨hpolicy, hfilled⟩ := hf.admit (by omega) (address_ne_nil 0) (by omega)
    ⟨h.clock.le, hnow, by omega⟩ (by rw [hprune]; exact hunblocked _)
    (by rw [hprune, hcount]; exact hk) (by rw [hprune, h.length]; omega)
  rw [hprune] at hpolicy
  refine ⟨hfilled, rfl, ?_, ?_, ?_, ?_⟩
  · rw [hpolicy, attempts_charge, List.length_append, h.length]
    rfl
  · intro a ha
    rw [hpolicy, attempts_charge] at ha
    rcases List.mem_append.mp ha with ha | ha
    · exact h.charges a ha
    · rw [List.mem_singleton.mp ha]
      exact ⟨rfl, rfl⟩
  · intro peer b hb
    rw [hpolicy, peerBlocked_charge, hf.configured] at hb
    split_ifs at hb with hblock
    · exact ⟨hblock.1.symm, by rw [← Option.some.inj hb]; exact zero_add _⟩
    · rw [hunblocked] at hb
      cases hb
  · rw [hpolicy, peerBlocked_charge, hf.configured, hcount]
    split_ifs with hblock
    · exact ⟨fun _ => hblock.2, fun _ => rfl⟩
    · rw [hunblocked]
      exact ⟨fun hsome => (by cases hsome), fun hle => absurd ⟨rfl, hle⟩ hblock⟩

/-- Other peers, one attempt each, once the first one's cooldown is over. -/
structure Others (config : AttemptPolicyConfig) (now : ℤ) (j : ℕ) (s : Ledger) : Prop where
  length : (s.policy.prune now).attempts.length ≤ j
  charges : ∀ a ∈ (s.policy.prune now).attempts, ∃ i < j, a.peer = address (i + 1)
  blocked : ∀ peer, ∀ b ∈ (s.policy.prune now).peerBlockedUntil peer,
    ∃ i < j, peer = address (i + 1)

theorem others_start (h : First config k s)
    (hk : config.maxAttemptsPerSource ≤ k) (hover : config.cooldown ≤ now) :
    Others config now 0 s := by
  have hnone : ∀ a, a ∉ (s.policy.prune now).attempts := by
    intro a ha
    obtain ⟨hmem, -, hblock, -⟩ := mem_prune.mp ha
    obtain ⟨b, hb⟩ := Option.isSome_iff_exists.mp (h.blocks.mpr hk)
    rw [(h.charges a hmem).1, hb] at hblock
    have hlt := over_eq_false.mp hblock b rfl
    rw [(h.blocked _ b hb).2] at hlt
    omega
  refine ⟨?_, fun a ha => absurd ha (hnone a), fun peer b hb => ?_⟩
  · rw [List.eq_nil_iff_forall_not_mem.mpr hnone]
    rfl
  · obtain ⟨hblocked, hlt, -⟩ := peerBlocked_prune.mp hb
    rw [(h.blocked peer b hblocked).2] at hlt
    omega

/-- No one else is blocked, or has been charged. -/
theorem Others.fresh {j : ℕ} (h : Others config now j s) :
    (s.policy.prune now).peerBlockedUntil (address (j + 1)) = none ∧
      (s.policy.prune now).peerAttempts (address (j + 1)) = 0 := by
  constructor
  · refine Option.eq_none_iff_forall_not_mem.mpr fun b hb => ?_
    obtain ⟨i, hi, heq⟩ := h.blocked _ b hb
    have := address_inj heq
    omega
  · refine List.countP_eq_zero.mpr fun a ha => ?_
    obtain ⟨i, hi, heq⟩ := h.charges a ha
    rw [decide_eq_true_eq, heq]
    intro heq'
    have := address_inj heq'
    omega

theorem others_next {j : ℕ} (hf : Filled config now (k + j) s) (h : Others config now j s)
    (hpos : 0 < config.maxAttemptsPerSource) (hk : 0 < k)
    (hroom : k + j < config.maxAttemptsGlobal) (hmax : config.maxAttemptsGlobal < maxAttemptId)
    (hwindow : 0 ≤ config.failureWindow) :
    Filled config now (k + (j + 1)) (next s (.beginAttempt (address (j + 1)) now)) ∧
      Others config now (j + 1) (next s (.beginAttempt (address (j + 1)) now)) := by
  obtain ⟨hunblocked, hcount⟩ := h.fresh
  have hlength := h.length
  obtain ⟨hpolicy, hfilled⟩ := hf.admit hpos (address_ne_nil (j + 1)) (by omega)
    ⟨hf.clock, le_refl _, by omega⟩ hunblocked (by rw [hcount]; exact hpos) (by omega)
  refine ⟨hfilled, ?_, ?_, ?_⟩
  · rw [hpolicy]
    refine prune_sublist.length_le.trans ?_
    rw [attempts_charge, List.length_append, List.length_singleton]
    omega
  · intro a ha
    rw [hpolicy] at ha
    have hmem := prune_sublist.subset ha
    rw [attempts_charge] at hmem
    rcases List.mem_append.mp hmem with hmem | hmem
    · obtain ⟨i, hi, heq⟩ := h.charges a hmem
      exact ⟨i, hi.trans (Nat.lt_succ_self j), heq⟩
    · rw [List.mem_singleton.mp hmem]
      exact ⟨j, Nat.lt_succ_self j, rfl⟩
  · intro peer b hb
    rw [hpolicy] at hb
    have hmem := (peerBlocked_prune.mp hb).1
    rw [peerBlocked_charge] at hmem
    split_ifs at hmem with hblock
    · exact ⟨j, Nat.lt_succ_self j, hblock.1.symm⟩
    · obtain ⟨i, hi, heq⟩ := h.blocked peer b hmem
      exact ⟨i, hi.trans (Nat.lt_succ_self j), heq⟩

/-- One peer uses up its budget; when its cooldown is over, others use up the rest. -/
def overdraft (config : AttemptPolicyConfig) : List Action :=
  List.replicate config.maxAttemptsPerSource (.beginAttempt (address 0) 0) ++
    (List.range (config.maxAttemptsGlobal - config.maxAttemptsPerSource)).map
      fun j => .beginAttempt (address (j + 1)) (max config.cooldown 0)

theorem filled_start (hnow : 0 ≤ now) :
    Filled config now 0 (.start config 0) ∧
      (0 < config.maxAttemptsPerSource → First config 0 (.start config 0)) := by
  refine ⟨⟨rfl, hnow, rfl, rfl, rfl, fun a ha => absurd ha List.not_mem_nil, rfl⟩, fun hpos => ?_⟩
  refine ⟨rfl, rfl, fun a ha => absurd ha List.not_mem_nil, fun peer b hb => (by cases hb), ?_⟩
  exact ⟨fun hsome => (by cases hsome), fun hle => by omega⟩

theorem not_keeps_overdraft (hpos : 0 < config.maxAttemptsPerSource)
    (hlt : config.maxAttemptsPerSource < config.maxAttemptsGlobal)
    (hcooldown : config.cooldown ≤ config.failureWindow) (hwindow : 0 ≤ config.failureWindow)
    (hmax : config.maxAttemptsGlobal < maxAttemptId) :
    ledger.Legal (fun _ _ => True) (.start config 0) (overdraft config) ∧
      ¬KeepsGlobalBudget (ledger.exec (.start config 0) (overdraft config)) := by
  have hnow : 0 ≤ max config.cooldown 0 := le_max_right _ _
  have hlate : max config.cooldown 0 ≤ config.failureWindow := max_le hcooldown hwindow
  obtain ⟨hstart, hfirst⟩ := @filled_start config _ hnow
  have hone : ∀ k ≤ config.maxAttemptsPerSource,
      ledger.Legal (fun _ _ => True) (.start config 0)
        (List.replicate k (.beginAttempt (address 0) 0)) ∧
      Filled config (max config.cooldown 0) k (ledger.exec (.start config 0)
        (List.replicate k (.beginAttempt (address 0) 0))) ∧
      First config k (ledger.exec (.start config 0)
        (List.replicate k (.beginAttempt (address 0) 0))) := by
    intro k
    induction k with
    | zero => exact fun _ => ⟨trivial, hstart, hfirst hpos⟩
    | succ k ih =>
      intro hk
      obtain ⟨hlegal, hf, h⟩ := ih (by omega)
      rw [List.replicate_succ', Machine.exec_append, Machine.legal_append]
      exact ⟨⟨hlegal, h.clock.le, trivial, trivial⟩,
        first_next hf h (by omega) hlt hmax hnow hlate⟩
  obtain ⟨hlegal, hf, h⟩ := hone _ le_rfl
  have htwo : ∀ j, config.maxAttemptsPerSource + j ≤ config.maxAttemptsGlobal →
      ledger.Legal (fun _ _ => True) (.start config 0)
        (List.replicate config.maxAttemptsPerSource (.beginAttempt (address 0) 0) ++
          (List.range j).map fun j => .beginAttempt (address (j + 1)) (max config.cooldown 0)) ∧
      Filled config (max config.cooldown 0) (config.maxAttemptsPerSource + j)
        (ledger.exec (.start config 0)
          (List.replicate config.maxAttemptsPerSource (.beginAttempt (address 0) 0) ++
            (List.range j).map fun j => .beginAttempt (address (j + 1)) (max config.cooldown 0))) ∧
      Others config (max config.cooldown 0) j (ledger.exec (.start config 0)
        (List.replicate config.maxAttemptsPerSource (.beginAttempt (address 0) 0) ++
          (List.range j).map fun j => .beginAttempt (address (j + 1)) (max config.cooldown 0))) := by
    intro j
    induction j with
    | zero =>
      intro _
      rw [List.range_zero, List.map_nil, List.append_nil]
      exact ⟨hlegal, hf, others_start h le_rfl (le_max_left _ _)⟩
    | succ j ih =>
      intro hj
      obtain ⟨hlegal, hf, h⟩ := ih (by omega)
      rw [List.range_succ, List.map_append, ← List.append_assoc, Machine.exec_append,
        Machine.legal_append]
      exact ⟨⟨hlegal, hf.clock, trivial, trivial⟩,
        others_next hf h hpos hpos (by omega) hmax hwindow⟩
  obtain ⟨hlegal, hf, h⟩ := htwo (config.maxAttemptsGlobal - config.maxAttemptsPerSource) (by omega)
  refine ⟨hlegal, ?_⟩
  unfold overdraft
  generalize ledger.exec _ _ = s at hf h ⊢
  intro hkeeps
  have hover : elapsed (max config.cooldown 0) s.policy.globalBlockedUntil = false := by
    rw [hf.global]
    rfl
  have hspent : config.maxAttemptsGlobal ≤ spent s (max config.cooldown 0) := by
    have hall : s.current.countP (fun a =>
        !(([] : List AttemptId).any fun id => a.id = id) &&
          decide (max config.cooldown 0 - config.failureWindow ≤ a.started)) = s.current.length :=
      List.countP_eq_length.mpr fun a ha => by simpa using hf.lately a ha
    unfold spent Ledger.since
    rw [if_neg (by simp [hover]), hf.refunded, hf.configured, hall, hf.current]
    omega
  obtain ⟨hrefused, -⟩ := hkeeps _ hf.clock (by rw [hf.configured]; exact hspent)
    (address (config.maxAttemptsGlobal - config.maxAttemptsPerSource + 1))
  obtain ⟨hunblocked, hcount⟩ := h.fresh
  have hlength := h.length
  have hglobal : (s.policy.prune (max config.cooldown 0)).globalBlockedUntil = none := by
    refine Option.eq_none_iff_forall_not_mem.mpr fun b hb => ?_
    have hmem := (globalBlocked_prune.mp hb).1
    rw [hf.global] at hmem
    cases hmem
  unfold AttemptPolicy.allowed at hrefused
  dsimp only at hrefused
  rw [if_neg, hglobal, hunblocked, config_prune, hf.configured, hcount] at hrefused
  · simp only [Option.isSome_none, Bool.false_eq_true, or_self, if_false, decide_eq_false_iff_not]
      at hrefused
    exact hrefused ⟨by omega, hpos⟩
  · rw [hf.configured]
    push Not
    exact ⟨address_ne_nil _, by omega, by omega⟩

end Overdrawn

/-- **The global budget is kept in every run if and only if** the configuration is guarded. -/
theorem globalBudget_iff (config : AttemptPolicyConfig) :
    (∀ clock as, ledger.Legal (fun _ _ => True) (.start config clock) as →
      KeepsGlobalBudget (ledger.exec (.start config clock) as)) ↔ Guarded config := by
  refine ⟨fun hkeeps => ?_, fun hguarded clock as h => keeps_of_guarded hguarded h⟩
  by_contra hguarded
  unfold Guarded at hguarded
  push Not at hguarded
  obtain ⟨hpos, hlt, hcooldown, hwindow, hmax⟩ := hguarded
  obtain ⟨hlegal, hno⟩ := not_keeps_overdraft (Nat.pos_of_ne_zero hpos) hlt hcooldown hwindow hmax
  exact hno (hkeeps 0 _ hlegal)

/-- Two attempts of one address at the start, two of others after the cooldown: with a global budget
of four a fifth one is admitted in the sixth minute. -/
theorem not_keepsGlobalBudget_of_fourAttempts :
    ledger.Legal (fun _ _ => True) (.start { maxAttemptsPerSource := 2, maxAttemptsGlobal := 4 } 0)
      [.beginAttempt [1] 0, .beginAttempt [1] 0, .beginAttempt [2] 300, .beginAttempt [3] 300] ∧
    ¬KeepsGlobalBudget
      (ledger.exec (.start { maxAttemptsPerSource := 2, maxAttemptsGlobal := 4 } 0)
        [.beginAttempt [1] 0, .beginAttempt [1] 0, .beginAttempt [2] 300,
          .beginAttempt [3] 300]) := by
  refine ⟨by decide +kernel, fun hkeeps => ?_⟩
  have hallowed := (hkeeps 301 (by decide +kernel) (by decide +kernel) [4]).1
  revert hallowed
  decide +kernel

end RemoteCam.Security.GlobalBudget
