import RemoteCam.Lib.Quota
import RemoteCam.Lib.Transitions
import RemoteCam.Security.Protector

/-! # The attempt policy

`beginAttempt` charges an attempt to its peer and to the global budget before its outcome is known,
and a successful `finishAttempt` refunds it. A budget that is used up blocks its peer, or everybody,
for the cooldown; when a cooldown is over, the charges that it answered for are dropped.

`Ledger` adds to the policy, as ghosts, every attempt admitted and every charge refunded. `Retained`
is the invariant: a charge is dropped without a refund only once both the cooldown and the failure
window have passed since. -/

namespace RemoteCam.Security.RateLimiter

open RemoteCam.Lib RemoteCam.Lib.Quota RemoteCam.Lib.Transitions RemoteCam.Security.Protector

/-! ### The policy -/

abbrev AttemptId := ℕ

def maxAttemptId : ℕ := 2 ^ 64 - 1

/-- Time points and durations are in ticks of the steady clock. -/
structure AttemptPolicyConfig where
  maxAttemptsPerSource : ℕ := 5
  maxAttemptsGlobal : ℕ := 5
  failureWindow : ℤ := 600
  cooldown : ℤ := 300
  deriving DecidableEq, Repr

structure Attempt where
  id : AttemptId
  peer : Bytes
  started : ℤ
  deriving DecidableEq, Repr

structure AttemptPolicy where
  config : AttemptPolicyConfig
  attempts : List Attempt := []
  peerBlockedUntil : Bytes → Option ℤ := fun _ => none
  globalBlockedUntil : Option ℤ := none
  nextAttemptId : AttemptId := 1

/-- A block that ends at `until`, if there is one, is over. -/
def elapsed (now : ℤ) (blockedUntil : Option ℤ) : Bool :=
  blockedUntil.any fun b => b ≤ now

namespace AttemptPolicy

def peerAttempts (p : AttemptPolicy) (peer : Bytes) : ℕ :=
  p.attempts.countP fun a => a.peer = peer

def prune (p : AttemptPolicy) (now : ℤ) : AttemptPolicy :=
  if elapsed now p.globalBlockedUntil then
    { p with attempts := [], peerBlockedUntil := fun _ => none, globalBlockedUntil := none }
  else
    let kept := p.attempts.filter fun a => !elapsed now (p.peerBlockedUntil a.peer)
    let cutoff := now - p.config.failureWindow
    { p with
      attempts := kept.filter fun a => !decide (a.started < cutoff)
      peerBlockedUntil := fun peer => (p.peerBlockedUntil peer).filter (now < ·) }

/-- The answer, and what is left of the history. -/
def allowed (p : AttemptPolicy) (peer : Bytes) (now : ℤ) : Bool × AttemptPolicy :=
  if peer = [] ∨ p.config.maxAttemptsPerSource = 0 ∨ p.config.maxAttemptsGlobal = 0 then (false, p)
  else
    let p := p.prune now
    if p.globalBlockedUntil.isSome ∨ (p.peerBlockedUntil peer).isSome then (false, p)
    else
      (p.attempts.length < p.config.maxAttemptsGlobal ∧
        p.peerAttempts peer < p.config.maxAttemptsPerSource, p)

/-- `beginAttempt` after it was allowed. -/
def charge (p : AttemptPolicy) (peer : Bytes) (now : ℤ) : AttemptPolicy :=
  let p :=
    { p with
      nextAttemptId := p.nextAttemptId + 1
      attempts := p.attempts ++ [⟨p.nextAttemptId, peer, now⟩] }
  let p :=
    if p.peerAttempts peer ≥ p.config.maxAttemptsPerSource then
      { p with
        peerBlockedUntil :=
          Function.update p.peerBlockedUntil peer (some (now + p.config.cooldown)) }
    else p
  if p.attempts.length ≥ p.config.maxAttemptsGlobal then
    { p with globalBlockedUntil := some (now + p.config.cooldown) }
  else p

/-- The id of the attempt; `none` is `RateLimited`. -/
def beginAttempt (p : AttemptPolicy) (peer : Bytes) (now : ℤ) :
    Option AttemptId × AttemptPolicy :=
  let (allowed, p) := p.allowed peer now
  if !allowed ∨ p.nextAttemptId = maxAttemptId then (none, p)
  else (some p.nextAttemptId, p.charge peer now)

def refund (p : AttemptPolicy) (a : Attempt) : AttemptPolicy :=
  let p := { p with attempts := p.attempts.erase a }
  let p :=
    if p.peerAttempts a.peer < p.config.maxAttemptsPerSource then
      { p with peerBlockedUntil := Function.update p.peerBlockedUntil a.peer none }
    else p
  if p.attempts.length < p.config.maxAttemptsGlobal then { p with globalBlockedUntil := none } else p

def finishAttempt (p : AttemptPolicy) (id : AttemptId) (succeeded : Bool) (now : ℤ) :
    AttemptPolicy :=
  let p := p.prune now
  match p.attempts.find? fun a => a.id = id with
  | none => p
  | some a => if succeeded then p.refund a else p

end AttemptPolicy

/-! ### The ledger -/

structure Ledger where
  policy : AttemptPolicy
  /-- The time of the last call. -/
  clock : ℤ
  /-- Ghost: all attempts admitted, the oldest first. -/
  admitted : List Attempt := []
  /-- Ghost: those admitted since the last completed global cooldown. -/
  current : List Attempt := []
  /-- Ghost. -/
  refunded : List AttemptId := []

inductive Action where
  | allowed (peer : Bytes) (now : ℤ)
  | beginAttempt (peer : Bytes) (now : ℤ)
  | finishAttempt (id : AttemptId) (succeeded : Bool) (now : ℤ)
  deriving DecidableEq, Repr

def Action.now : Action → ℤ
  | .allowed _ now | .beginAttempt _ now | .finishAttempt _ _ now => now

def Ledger.start (config : AttemptPolicyConfig) (clock : ℤ) : Ledger where
  policy := { config }
  clock

/-- What counts since the last global cooldown that is completed at `now`. -/
def Ledger.since (s : Ledger) (now : ℤ) : List Attempt :=
  if elapsed now s.policy.globalBlockedUntil then [] else s.current

/-- The attempt that the call admits. -/
def admission (s : Ledger) : Action → Option Attempt
  | .beginAttempt peer now =>
    (s.policy.beginAttempt peer now).1.map fun id => { id, peer, started := now }
  | _ => none

/-- The charge that the call refunds. -/
def refundOf (s : Ledger) : Action → Option Attempt
  | .finishAttempt id true now => (s.policy.prune now).attempts.find? fun a => a.id = id
  | _ => none

def policyNext (p : AttemptPolicy) : Action → AttemptPolicy
  | .allowed peer now => (p.allowed peer now).2
  | .beginAttempt peer now => (p.beginAttempt peer now).2
  | .finishAttempt id succeeded now => p.finishAttempt id succeeded now

def next (s : Ledger) (a : Action) : Ledger where
  policy := policyNext s.policy a
  clock := a.now
  admitted := s.admitted ++ (admission s a).toList
  current := s.since a.now ++ (admission s a).toList
  refunded := s.refunded ++ ((refundOf s a).map (·.id)).toList

/-- Calls with times that never decrease. -/
def ledger : Machine Ledger Action := ⟨fun s a => s.clock ≤ a.now, next⟩

instance (s : Ledger) (a : Action) : Decidable (ledger.enabled s a) :=
  inferInstanceAs (Decidable (s.clock ≤ a.now))

/-- Admitted, and not refunded so far. -/
def Ledger.standing (s : Ledger) : List Attempt :=
  s.admitted.filter fun a => !(s.refunded.any fun id => a.id = id)

/-! ### What a call does to the policy -/

section Policy
variable {p : AttemptPolicy} {now : ℤ} {a : Attempt} {peer : Bytes} {b : ℤ}

theorem over_eq_false {blockedUntil : Option ℤ} :
    elapsed now blockedUntil = false ↔ ∀ b ∈ blockedUntil, now < b := by
  cases blockedUntil <;> simp [elapsed]

theorem over_eq_true {blockedUntil : Option ℤ} :
    elapsed now blockedUntil = true ↔ ∃ b ∈ blockedUntil, b ≤ now := by
  cases blockedUntil <;> simp [elapsed]

theorem mem_prune : a ∈ (p.prune now).attempts ↔
    a ∈ p.attempts ∧ elapsed now p.globalBlockedUntil = false ∧
      elapsed now (p.peerBlockedUntil a.peer) = false ∧ now - p.config.failureWindow ≤ a.started := by
  unfold AttemptPolicy.prune
  split_ifs with hover
  · simp [hover]
  · simp only [Bool.not_eq_true] at hover
    simp only [List.mem_filter, Bool.not_eq_true', decide_eq_false_iff_not, not_lt, hover,
      true_and, and_assoc]

theorem peerBlocked_prune : b ∈ (p.prune now).peerBlockedUntil peer ↔
    b ∈ p.peerBlockedUntil peer ∧ now < b ∧ elapsed now p.globalBlockedUntil = false := by
  unfold AttemptPolicy.prune
  split_ifs with hover
  · simp [hover]
  · simp only [Bool.not_eq_true] at hover
    simp [hover, Option.filter_eq_some_iff]

theorem globalBlocked_prune :
    b ∈ (p.prune now).globalBlockedUntil ↔ b ∈ p.globalBlockedUntil ∧ now < b := by
  unfold AttemptPolicy.prune
  split_ifs with hover
  · obtain ⟨c, hc, hle⟩ := over_eq_true.mp hover
    rw [hc]
    simp only [reduceCtorEq, Option.mem_def, Option.some.injEq, false_iff, not_and, not_lt]
    rintro rfl
    exact hle
  · simp only [Bool.not_eq_true] at hover
    exact ⟨fun h => ⟨h, over_eq_false.mp hover b h⟩, fun h => h.1⟩

theorem prune_sublist : (p.prune now).attempts.Sublist p.attempts := by
  unfold AttemptPolicy.prune
  split_ifs
  · exact List.nil_sublist _
  · exact List.filter_sublist.trans List.filter_sublist

@[simp] theorem config_prune : (p.prune now).config = p.config := by
  unfold AttemptPolicy.prune
  split_ifs <;> rfl

@[simp] theorem nextAttemptId_prune : (p.prune now).nextAttemptId = p.nextAttemptId := by
  unfold AttemptPolicy.prune
  split_ifs <;> rfl

@[simp] theorem config_charge : (p.charge peer now).config = p.config := by
  unfold AttemptPolicy.charge
  dsimp only
  split_ifs <;> rfl

@[simp] theorem nextAttemptId_charge :
    (p.charge peer now).nextAttemptId = p.nextAttemptId + 1 := by
  unfold AttemptPolicy.charge
  dsimp only
  split_ifs <;> rfl

@[simp] theorem attempts_charge :
    (p.charge peer now).attempts = p.attempts ++ [⟨p.nextAttemptId, peer, now⟩] := by
  unfold AttemptPolicy.charge
  dsimp only
  split_ifs <;> rfl

theorem peerAttempts_charge (other : Bytes) : (p.charge peer now).peerAttempts other =
    p.peerAttempts other + if peer = other then 1 else 0 := by
  unfold AttemptPolicy.peerAttempts
  rw [attempts_charge, List.countP_append, List.countP_singleton]
  simp

theorem globalBlocked_charge : (p.charge peer now).globalBlockedUntil =
    if p.config.maxAttemptsGlobal ≤ p.attempts.length + 1 then some (now + p.config.cooldown)
    else p.globalBlockedUntil := by
  unfold AttemptPolicy.charge
  dsimp only
  split_ifs <;> simp_all

theorem peerBlocked_charge (other : Bytes) : (p.charge peer now).peerBlockedUntil other =
    if peer = other ∧ p.config.maxAttemptsPerSource ≤ p.peerAttempts peer + 1 then
      some (now + p.config.cooldown)
    else p.peerBlockedUntil other := by
  have hcount : AttemptPolicy.peerAttempts { p with
      nextAttemptId := p.nextAttemptId + 1
      attempts := p.attempts ++ [⟨p.nextAttemptId, peer, now⟩] } peer =
      p.peerAttempts peer + 1 := by
    simp [AttemptPolicy.peerAttempts]
  unfold AttemptPolicy.charge
  dsimp only
  rw [hcount]
  by_cases hpeer : peer = other
  · subst hpeer
    split_ifs <;> simp_all
  · split_ifs <;> simp_all [Function.update_of_ne (Ne.symm hpeer)]

@[simp] theorem config_refund : (p.refund a).config = p.config := by
  unfold AttemptPolicy.refund
  dsimp only
  split_ifs <;> rfl

@[simp] theorem nextAttemptId_refund : (p.refund a).nextAttemptId = p.nextAttemptId := by
  unfold AttemptPolicy.refund
  dsimp only
  split_ifs <;> rfl

@[simp] theorem attempts_refund : (p.refund a).attempts = p.attempts.erase a := by
  unfold AttemptPolicy.refund
  dsimp only
  split_ifs <;> rfl

theorem peerBlocked_refund (h : b ∈ (p.refund a).peerBlockedUntil peer) :
    b ∈ p.peerBlockedUntil peer := by
  have hupdate (h : b ∈ Function.update p.peerBlockedUntil a.peer none peer) :
      b ∈ p.peerBlockedUntil peer := by
    by_cases hpeer : peer = a.peer
    · subst hpeer
      simp at h
    · rwa [Function.update_of_ne hpeer] at h
  unfold AttemptPolicy.refund at h
  dsimp only at h
  split_ifs at h <;> first | exact h | exact hupdate h

theorem globalBlocked_refund (h : b ∈ (p.refund a).globalBlockedUntil) :
    b ∈ p.globalBlockedUntil := by
  unfold AttemptPolicy.refund at h
  dsimp only at h
  split_ifs at h <;> first | exact h | cases h

/-- The policy after a call, with what it admits and what it refunds. -/
inductive Turn (p : AttemptPolicy) : Action → AttemptPolicy → Option Attempt → Option Attempt → Prop
  /-- No peer is named, or nothing is ever admitted. -/
  | skip {action : Action} : Turn p action p none none
  | prune {action : Action} : Turn p action (p.prune action.now) none none
  | charge {peer : Bytes} {now : ℤ} (hpeer : (p.prune now).peerBlockedUntil peer = none)
      (hglobal : (p.prune now).globalBlockedUntil = none)
      (hsource : (p.prune now).peerAttempts peer < p.config.maxAttemptsPerSource)
      (htotal : (p.prune now).attempts.length < p.config.maxAttemptsGlobal)
      (hid : p.nextAttemptId ≠ maxAttemptId) :
      Turn p (.beginAttempt peer now) ((p.prune now).charge peer now)
        (some ⟨p.nextAttemptId, peer, now⟩) none
  | refund {id : AttemptId} {now : ℤ} {a : Attempt} (ha : a ∈ (p.prune now).attempts)
      (hid : a.id = id) :
      Turn p (.finishAttempt id true now) ((p.prune now).refund a) none (some a)

theorem allowed_cases (p : AttemptPolicy) (peer : Bytes) (now : ℤ) :
    p.allowed peer now = (false, p) ∨ p.allowed peer now = (false, p.prune now) ∨
      p.allowed peer now = (true, p.prune now) ∧ (p.prune now).peerBlockedUntil peer = none ∧
        (p.prune now).globalBlockedUntil = none ∧
        (p.prune now).peerAttempts peer < p.config.maxAttemptsPerSource ∧
        (p.prune now).attempts.length < p.config.maxAttemptsGlobal := by
  unfold AttemptPolicy.allowed
  dsimp only
  split_ifs with hzero hblocked
  · exact .inl rfl
  · exact .inr (.inl rfl)
  · push Not at hblocked
    obtain ⟨hglobal, hpeer⟩ := hblocked
    by_cases hcount : (p.prune now).attempts.length < (p.prune now).config.maxAttemptsGlobal ∧
        (p.prune now).peerAttempts peer < (p.prune now).config.maxAttemptsPerSource
    · rw [config_prune] at hcount
      exact .inr (.inr ⟨by simp [hcount], by simpa using hpeer, by simpa using hglobal, hcount.2,
        hcount.1⟩)
    · exact .inr (.inl (by simp only [hcount, decide_false]))

/-- **What a call does**, with its reasons. -/
theorem turn (s : Ledger) (action : Action) :
    Turn s.policy action (policyNext s.policy action) (admission s action) (refundOf s action) := by
  cases action with
  | allowed peer now =>
    unfold policyNext
    dsimp only
    rcases allowed_cases s.policy peer now with h | h | ⟨h, -⟩ <;> rw [h]
    · exact .skip
    · exact @Turn.prune s.policy (.allowed peer now)
    · exact @Turn.prune s.policy (.allowed peer now)
  | beginAttempt peer now =>
    unfold policyNext admission AttemptPolicy.beginAttempt
    dsimp only
    rcases allowed_cases s.policy peer now with h | h | ⟨h, hpeer, hglobal, hsource, htotal⟩ <;>
      rw [h]
    · exact .skip
    · exact @Turn.prune s.policy (.beginAttempt peer now)
    · by_cases hid : s.policy.nextAttemptId = maxAttemptId
      · simp only [nextAttemptId_prune, hid, or_true, if_true]
        exact @Turn.prune s.policy (.beginAttempt peer now)
      · simp only [nextAttemptId_prune, hid, Bool.not_true, Bool.false_eq_true, or_false, if_false]
        exact .charge hpeer hglobal hsource htotal hid
  | finishAttempt id succeeded now =>
    unfold policyNext AttemptPolicy.finishAttempt
    dsimp only
    cases hfind : (s.policy.prune now).attempts.find? fun a => a.id = id with
    | none =>
      have hnone : refundOf s (.finishAttempt id succeeded now) = none := by
        cases succeeded
        · rfl
        · exact hfind
      rw [hnone]
      exact @Turn.prune s.policy (.finishAttempt id succeeded now)
    | some a =>
      cases succeeded with
      | false => exact @Turn.prune s.policy (.finishAttempt id false now)
      | true =>
        have hsome : refundOf s (.finishAttempt id true now) = some a := hfind
        rw [hsome]
        have hid := List.find?_some hfind
        exact .refund (List.mem_of_find?_eq_some hfind) (by simpa using hid)

end Policy

/-! ### What is retained -/

/-- A block answers only for charges that are at least one cooldown old when it ends. -/
structure Blocks (p : AttemptPolicy) : Prop where
  source : ∀ a ∈ p.attempts, ∀ b ∈ p.peerBlockedUntil a.peer, a.started + p.config.cooldown ≤ b
  total : ∀ a ∈ p.attempts, ∀ b ∈ p.globalBlockedUntil, a.started + p.config.cooldown ≤ b

/-- The time for which a charge is kept in any case. -/
def AttemptPolicyConfig.span (config : AttemptPolicyConfig) : ℤ :=
  min config.cooldown config.failureWindow

section Blocks
variable {p : AttemptPolicy} {now : ℤ} {a : Attempt} {peer : Bytes}

theorem Blocks.prune (h : Blocks p) : Blocks (p.prune now) := by
  constructor
  · intro a ha b hb
    rw [config_prune]
    exact h.source a (mem_prune.mp ha).1 b (peerBlocked_prune.mp hb).1
  · intro a ha b hb
    rw [config_prune]
    exact h.total a (mem_prune.mp ha).1 b (globalBlocked_prune.mp hb).1

theorem Blocks.refund (h : Blocks p) : Blocks (p.refund a) := by
  constructor
  · intro x hx b hb
    rw [attempts_refund] at hx
    rw [config_refund]
    exact h.source x (List.mem_of_mem_erase hx) b (peerBlocked_refund hb)
  · intro x hx b hb
    rw [attempts_refund] at hx
    rw [config_refund]
    exact h.total x (List.mem_of_mem_erase hx) b (globalBlocked_refund hb)

theorem Blocks.charge (h : Blocks p) (hpast : ∀ a ∈ p.attempts, a.started ≤ now)
    (hpeer : p.peerBlockedUntil peer = none) (htotal : p.globalBlockedUntil = none) :
    Blocks (p.charge peer now) := by
  have hpast' : ∀ a ∈ (p.charge peer now).attempts, a.started ≤ now := by
    intro a ha
    rw [attempts_charge] at ha
    rcases List.mem_append.mp ha with ha | ha
    · exact hpast a ha
    · rw [List.mem_singleton.mp ha]
  constructor
  · intro a ha b hb
    rw [config_charge]
    rw [peerBlocked_charge] at hb
    split_ifs at hb with hblock
    · rw [← Option.some.inj hb]
      exact Int.add_le_add_right (hpast' a ha) _
    · rw [attempts_charge] at ha
      rcases List.mem_append.mp ha with ha | ha
      · exact h.source a ha b hb
      · rw [List.mem_singleton.mp ha, hpeer] at hb
        cases hb
  · intro a ha b hb
    rw [config_charge]
    rw [globalBlocked_charge] at hb
    split_ifs at hb with hblock
    · rw [← Option.some.inj hb]
      exact Int.add_le_add_right (hpast' a ha) _
    · rw [htotal] at hb
      cases hb

/-- A recent charge survives. -/
theorem Blocks.mem_prune (h : Blocks p) (ha : a ∈ p.attempts)
    (hrecent : recent Attempt.started p.config.span now a = true) : a ∈ (p.prune now).attempts := by
  unfold recent AttemptPolicyConfig.span at hrecent
  simp only [decide_eq_true_eq] at hrecent
  have hcooldown : now < a.started + p.config.cooldown := by omega
  refine RateLimiter.mem_prune.mpr ⟨ha, ?_, ?_, by omega⟩
  · exact over_eq_false.mpr fun b hb => lt_of_lt_of_le hcooldown (h.total a ha b hb)
  · exact over_eq_false.mpr fun b hb => lt_of_lt_of_le hcooldown (h.source a ha b hb)

end Blocks

/-- **The invariant**: the charges are those of standing attempts, and recent ones are not missing.
-/
structure Retained (s : Ledger) : Prop where
  blocks : Blocks s.policy
  charged : ∀ a ∈ s.policy.attempts, a ∈ s.standing
  kept : ∀ a ∈ s.standing, recent Attempt.started s.policy.config.span s.clock a = true →
    a ∈ s.policy.attempts
  distinct : s.policy.attempts.Nodup
  past : ∀ a ∈ s.admitted, a.started ≤ s.clock
  ids : (s.admitted.map (·.id)).Nodup
  numbered : ∀ a ∈ s.admitted, a.id < s.policy.nextAttemptId
  refunded : ∀ id ∈ s.refunded, id < s.policy.nextAttemptId

section Step
variable {s : Ledger} {action : Action} {a : Attempt}

theorem mem_standing : a ∈ s.standing ↔ a ∈ s.admitted ∧ a.id ∉ s.refunded := by
  unfold Ledger.standing
  simp only [List.mem_filter, Bool.not_eq_true', List.any_eq_false, decide_eq_true_eq]
  exact and_congr_right fun _ => ⟨fun h hid => h _ hid rfl, fun h id hid heq => h (heq ▸ hid)⟩

theorem recent_of_le {span clock now : ℤ} (hle : clock ≤ now)
    (h : recent Attempt.started span now a = true) : recent Attempt.started span clock a = true := by
  unfold recent at h ⊢
  simp only [decide_eq_true_eq] at h ⊢
  omega

theorem retained_start (config : AttemptPolicyConfig) (clock : ℤ) :
    Retained (.start config clock) where
  blocks := ⟨fun _ h => absurd h List.not_mem_nil, fun _ h => absurd h List.not_mem_nil⟩
  charged _ h := absurd h List.not_mem_nil
  kept _ h := absurd h List.not_mem_nil
  distinct := List.nodup_nil
  past _ h := absurd h List.not_mem_nil
  ids := List.nodup_nil
  numbered _ h := absurd h List.not_mem_nil
  refunded _ h := absurd h List.not_mem_nil

/-- Standing attempts have different ids. -/
theorem Retained.eq_of_id (h : Retained s) {b : Attempt} (ha : a ∈ s.admitted)
    (hb : b ∈ s.admitted) (hid : a.id = b.id) : a = b :=
  List.inj_on_of_nodup_map h.ids ha hb hid

theorem mem_standing_next : a ∈ (next s action).standing ↔
    (a ∈ s.admitted ∨ a ∈ admission s action) ∧ a.id ∉ s.refunded ∧
      ∀ x ∈ refundOf s action, a.id ≠ x.id := by
  rw [mem_standing]
  unfold next
  simp only [List.mem_append, Option.mem_toList, not_or, Option.mem_def, Option.map_eq_some_iff,
    not_exists, not_and]
  exact and_congr_right fun _ => and_congr_right fun _ =>
    ⟨fun h x hx heq => h x hx heq.symm, fun h x hx heq => h x hx heq.symm⟩

/-- The charges left by a pruning are of standing attempts. -/
theorem Retained.pruned (h : Retained s) {now : ℤ} {x : Attempt}
    (hx : x ∈ (s.policy.prune now).attempts) : x ∈ s.standing :=
  h.charged x (mem_prune.mp hx).1

theorem Retained.kept_pruned (h : Retained s) {now : ℤ} (he : s.clock ≤ now) {x : Attempt}
    (hx : x ∈ s.standing) (hrecent : recent Attempt.started s.policy.config.span now x = true) :
    x ∈ (s.policy.prune now).attempts :=
  h.blocks.mem_prune (h.kept x hx (recent_of_le he hrecent)) hrecent

theorem Retained.past_next (h : Retained s) {now : ℤ} (he : s.clock ≤ now) :
    ∀ x ∈ s.admitted, x.started ≤ now := fun x hx => (h.past x hx).trans he

/-- A call that neither admits nor refunds. -/
theorem Retained.aside (h : Retained s) (he : s.clock ≤ action.now) {p : AttemptPolicy}
    (hp : policyNext s.policy action = p) (hadmission : admission s action = none)
    (hrefund : refundOf s action = none) (hblocks : Blocks p)
    (hcharged : ∀ x ∈ p.attempts, x ∈ s.standing)
    (hkept : ∀ x ∈ s.standing, recent Attempt.started p.config.span action.now x = true →
      x ∈ p.attempts)
    (hdistinct : p.attempts.Nodup) (hid : p.nextAttemptId = s.policy.nextAttemptId) :
    Retained (next s action) := by
  have hstanding (x : Attempt) : x ∈ (next s action).standing ↔ x ∈ s.standing := by
    rw [mem_standing_next, hadmission, hrefund, mem_standing]
    simp
  have hadmitted : (next s action).admitted = s.admitted := by
    unfold next
    rw [hadmission]
    exact List.append_nil _
  have hrefunded : (next s action).refunded = s.refunded := by
    unfold next
    rw [hrefund]
    exact List.append_nil _
  have hpolicy : (next s action).policy = p := hp
  constructor
  · rw [hpolicy]
    exact hblocks
  · intro x hx
    rw [hpolicy] at hx
    exact (hstanding x).mpr (hcharged x hx)
  · intro x hx hrecent
    rw [hpolicy] at hrecent ⊢
    exact hkept x ((hstanding x).mp hx) hrecent
  · rw [hpolicy]
    exact hdistinct
  · rw [hadmitted]
    exact h.past_next he
  · rw [hadmitted]
    exact h.ids
  · rw [hadmitted, hpolicy, hid]
    exact h.numbered
  · rw [hrefunded, hpolicy, hid]
    exact h.refunded

theorem Retained.charge (h : Retained s) {peer : Bytes} {now : ℤ} (he : s.clock ≤ now)
    (hp : policyNext s.policy (.beginAttempt peer now) = (s.policy.prune now).charge peer now)
    (hadmission : admission s (.beginAttempt peer now) =
      some ⟨s.policy.nextAttemptId, peer, now⟩)
    (hrefund : refundOf s (.beginAttempt peer now) = none)
    (hpeer : (s.policy.prune now).peerBlockedUntil peer = none)
    (hglobal : (s.policy.prune now).globalBlockedUntil = none) :
    Retained (next s (.beginAttempt peer now)) := by
  have hpolicy : (next s (.beginAttempt peer now)).policy =
      (s.policy.prune now).charge peer now := hp
  have hclock : (next s (.beginAttempt peer now)).clock = now := rfl
  have hadmitted : (next s (.beginAttempt peer now)).admitted =
      s.admitted ++ [⟨s.policy.nextAttemptId, peer, now⟩] := by
    unfold next
    rw [hadmission]
    rfl
  have hrefunded : (next s (.beginAttempt peer now)).refunded = s.refunded := by
    unfold next
    rw [hrefund]
    exact List.append_nil _
  have hstanding (y : Attempt) : y ∈ (next s (.beginAttempt peer now)).standing ↔
      y ∈ s.standing ∨ y = ⟨s.policy.nextAttemptId, peer, now⟩ := by
    rw [mem_standing_next, hadmission, hrefund, mem_standing]
    constructor
    · rintro ⟨hy | hy, hid, -⟩
      · exact .inl ⟨hy, hid⟩
      · exact .inr (Option.some.inj hy).symm
    · rintro (⟨hy, hid⟩ | rfl)
      · exact ⟨.inl hy, hid, fun z hz => (by cases hz)⟩
      · exact ⟨.inr rfl, fun hid => (h.refunded _ hid).ne rfl, fun z hz => (by cases hz)⟩
  constructor
  · rw [hpolicy]
    exact h.blocks.prune.charge
      (fun y hy => h.past_next he y (mem_standing.mp (h.pruned hy)).1) hpeer hglobal
  · intro y hy
    rw [hpolicy, attempts_charge, nextAttemptId_prune] at hy
    rw [hstanding]
    rcases List.mem_append.mp hy with hy | hy
    · exact .inl (h.pruned hy)
    · exact .inr (List.mem_singleton.mp hy)
  · intro y hy hrecent
    rw [hpolicy, hclock, config_charge, config_prune] at hrecent
    rw [hpolicy, attempts_charge, nextAttemptId_prune]
    rcases (hstanding y).mp hy with hy | rfl
    · exact List.mem_append_left _ (h.kept_pruned he hy hrecent)
    · exact List.mem_append_right _ (List.mem_singleton_self _)
  · rw [hpolicy, attempts_charge, nextAttemptId_prune]
    refine List.nodup_append.mpr ⟨h.distinct.sublist prune_sublist, List.nodup_singleton _, ?_⟩
    rintro y hy z hz rfl
    rw [List.mem_singleton.mp hz] at hy
    exact (h.numbered _ (mem_standing.mp (h.pruned hy)).1).ne rfl
  · intro y hy
    rw [hadmitted] at hy
    rcases List.mem_append.mp hy with hy | hy
    · exact h.past_next he y hy
    · rw [List.mem_singleton.mp hy]
      exact le_refl now
  · rw [hadmitted, List.map_append]
    refine List.nodup_append.mpr ⟨h.ids, List.nodup_singleton _, ?_⟩
    rintro y hy z hz rfl
    obtain ⟨w, hw, rfl⟩ := List.mem_map.mp hy
    exact (h.numbered w hw).ne (List.mem_singleton.mp hz)
  · intro y hy
    rw [hpolicy, nextAttemptId_charge, nextAttemptId_prune]
    rw [hadmitted] at hy
    rcases List.mem_append.mp hy with hy | hy
    · exact (h.numbered y hy).trans (Nat.lt_succ_self _)
    · rw [List.mem_singleton.mp hy]
      exact Nat.lt_succ_self _
  · intro id hid
    rw [hrefunded] at hid
    rw [hpolicy, nextAttemptId_charge, nextAttemptId_prune]
    exact (h.refunded id hid).trans (Nat.lt_succ_self _)

theorem Retained.refund (h : Retained s) {id : AttemptId} {now : ℤ} (he : s.clock ≤ now)
    (hp : policyNext s.policy (.finishAttempt id true now) = (s.policy.prune now).refund a)
    (hadmission : admission s (.finishAttempt id true now) = none)
    (hrefund : refundOf s (.finishAttempt id true now) = some a)
    (ha : a ∈ (s.policy.prune now).attempts) : Retained (next s (.finishAttempt id true now)) := by
  have hpolicy : (next s (.finishAttempt id true now)).policy = (s.policy.prune now).refund a := hp
  have hclock : (next s (.finishAttempt id true now)).clock = now := rfl
  have hdistinct : (s.policy.prune now).attempts.Nodup := h.distinct.sublist prune_sublist
  have hmem : a ∈ s.admitted := (mem_standing.mp (h.pruned ha)).1
  have hadmitted : (next s (.finishAttempt id true now)).admitted = s.admitted := by
    unfold next
    rw [hadmission]
    exact List.append_nil _
  have hstanding (y : Attempt) : y ∈ (next s (.finishAttempt id true now)).standing ↔
      y ∈ s.standing ∧ y ≠ a := by
    rw [mem_standing_next, hadmission, hrefund, mem_standing]
    constructor
    · rintro ⟨hy | hy, hid, hne⟩
      · exact ⟨⟨hy, hid⟩, fun heq => hne a rfl (congrArg (·.id) heq)⟩
      · cases hy
    · rintro ⟨⟨hy, hid⟩, hne⟩
      refine ⟨.inl hy, hid, fun z hz heq => hne ?_⟩
      cases hz
      exact h.eq_of_id hy hmem heq
  constructor
  · rw [hpolicy]
    exact h.blocks.prune.refund
  · intro y hy
    rw [hpolicy, attempts_refund, hdistinct.mem_erase_iff] at hy
    exact (hstanding y).mpr ⟨h.pruned hy.2, hy.1⟩
  · intro y hy hrecent
    rw [hpolicy, hclock, config_refund, config_prune] at hrecent
    rw [hpolicy, attempts_refund, hdistinct.mem_erase_iff]
    obtain ⟨hy, hne⟩ := (hstanding y).mp hy
    exact ⟨hne, h.kept_pruned he hy hrecent⟩
  · rw [hpolicy, attempts_refund]
    exact hdistinct.erase a
  · rw [hadmitted]
    exact h.past_next he
  · rw [hadmitted]
    exact h.ids
  · rw [hadmitted, hpolicy, nextAttemptId_refund, nextAttemptId_prune]
    exact h.numbered
  · intro id' hid'
    rw [hpolicy, nextAttemptId_refund, nextAttemptId_prune]
    unfold next at hid'
    rw [hrefund] at hid'
    rcases List.mem_append.mp hid' with hid' | hid'
    · exact h.refunded id' hid'
    · rw [List.mem_singleton.mp hid']
      exact h.numbered a hmem

/-- **Every call keeps what is retained.** -/
theorem retained_next (h : Retained s) (he : s.clock ≤ action.now) : Retained (next s action) := by
  have hturn := turn s action
  generalize hx : admission s action = x at hturn
  generalize hr : refundOf s action = r at hturn
  generalize hp : policyNext s.policy action = p at hturn
  cases hturn with
  | skip =>
    exact h.aside he hp hx hr h.blocks h.charged
      (fun y hy hrecent => h.kept y hy (recent_of_le he hrecent)) h.distinct rfl
  | prune =>
    refine h.aside he hp hx hr h.blocks.prune (fun y hy => h.pruned hy)
      (fun y hy hrecent => ?_) (h.distinct.sublist prune_sublist) (nextAttemptId_prune ..)
    rw [config_prune] at hrecent
    exact h.kept_pruned he hy hrecent
  | charge hpeer hglobal hsource htotal hid => exact h.charge he hp hx hr hpeer hglobal
  | refund ha hid => exact h.refund he hp hx hr ha

end Step

/-! ### The budgets -/

/-- At most so many standing attempts of each peer, and overall, in every interval as long as the
shorter one of the cooldown and the failure window. -/
structure Budgeted (s : Ledger) : Prop where
  source : ∀ peer, Bounded Attempt.started s.policy.config.span s.policy.config.maxAttemptsPerSource
    (s.standing.filter fun a => a.peer = peer)
  total : Bounded Attempt.started s.policy.config.span s.policy.config.maxAttemptsGlobal s.standing

section Budgets
variable {s : Ledger} {action : Action}

theorem config_next : (next s action).policy.config = s.policy.config := by
  have hturn := turn s action
  have hpolicy : (next s action).policy = policyNext s.policy action := rfl
  rw [hpolicy]
  generalize policyNext s.policy action = p at hturn ⊢
  generalize admission s action = x at hturn
  generalize refundOf s action = r at hturn
  cases hturn <;> simp

theorem Retained.standing_nodup (h : Retained s) : s.standing.Nodup :=
  (List.Nodup.of_map _ h.ids).filter _

/-- Recent attempts are among the charges. -/
theorem Retained.countP_le (h : Retained s) {now : ℤ} (hle : s.clock ≤ now)
    (q : Attempt → Bool) :
    (s.standing.filter q).countP (recent Attempt.started s.policy.config.span now) ≤
      (s.policy.prune now).attempts.countP q := by
  rw [List.countP_eq_length_filter, List.countP_eq_length_filter, List.filter_filter]
  refine (List.subperm_of_subset (h.standing_nodup.filter _) fun a ha => ?_).length_le
  simp only [List.mem_filter, Bool.and_eq_true] at ha ⊢
  obtain ⟨ha, hrecent, hq⟩ := ha
  exact ⟨h.blocks.mem_prune (h.kept a ha (recent_of_le hle hrecent)) hrecent, hq⟩

theorem standing_next_sublist (h : admission s action = none) :
    (next s action).standing.Sublist s.standing := by
  unfold Ledger.standing next
  rw [h, Option.toList_none, List.append_nil]
  refine List.monotone_filter_right _ fun a ha => ?_
  simp only [List.any_append, Bool.not_or, Bool.and_eq_true] at ha
  exact ha.1

theorem standing_next_charge (h : Retained s) {a : Attempt} (ha : admission s action = some a)
    (hid : a.id = s.policy.nextAttemptId) (hrefund : refundOf s action = none) :
    (next s action).standing = s.standing ++ [a] := by
  have hfresh : (s.refunded.any fun id => a.id = id) = false := by
    rw [List.any_eq_false]
    intro id hid'
    have hlt := h.refunded id hid'
    rw [decide_eq_true_eq, hid]
    exact hlt.ne'
  unfold Ledger.standing next
  rw [ha, hrefund, Option.toList_some, Option.map_none, Option.toList_none, List.append_nil,
    List.filter_append]
  simp [hfresh]

theorem budgeted_next (hr : Retained s) (h : Budgeted s) (he : s.clock ≤ action.now) :
    Budgeted (next s action) := by
  by_cases hadmission : admission s action = none
  · have hsub := standing_next_sublist hadmission
    refine ⟨fun peer => ?_, ?_⟩
    · rw [config_next]
      exact (h.source peer).sublist (hsub.filter _)
    · rw [config_next]
      exact h.total.sublist hsub
  · have hturn := turn s action
    have hstanding := @standing_next_charge s action hr
    generalize hx : admission s action = x at hturn hadmission hstanding
    generalize hrefund : refundOf s action = r at hturn hstanding
    generalize policyNext s.policy action = p at hturn
    cases hturn with
    | skip => exact absurd rfl hadmission
    | prune => exact absurd rfl hadmission
    | refund => exact absurd rfl hadmission
    | @charge peer now hpeer hglobal hsource htotal hid =>
      have hstanding := hstanding rfl rfl rfl
      have hcount (q : Attempt → Bool) := @Retained.countP_le s hr now he q
      refine ⟨fun other => ?_, ?_⟩
      · rw [config_next, hstanding, List.filter_append]
        by_cases hother : peer = other
        · subst hother
          have hnew : (([⟨s.policy.nextAttemptId, peer, now⟩] : List Attempt).filter
              fun a => a.peer = peer) = [⟨s.policy.nextAttemptId, peer, now⟩] := by simp
          rw [hnew]
          exact (h.source peer).append ((hcount _).trans_lt hsource)
        · have hnew : (([⟨s.policy.nextAttemptId, peer, now⟩] : List Attempt).filter
              fun a => a.peer = other) = [] := by simp [hother]
          rw [hnew, List.append_nil]
          exact h.source other
      · rw [config_next, hstanding]
        refine h.total.append (lt_of_le_of_lt ?_ htotal)
        have hall := hcount fun _ => true
        rwa [List.filter_true, List.countP_true] at hall

end Budgets

/-! ### The cooldown -/

/-- The peer is blocked until time `b`, and no global block ends before. -/
structure Shut (b : ℤ) (peer : Bytes) (p : AttemptPolicy) : Prop where
  source : ∃ c ∈ p.peerBlockedUntil peer, b ≤ c
  total : ∀ c ∈ p.globalBlockedUntil, b ≤ c

/-- Everybody is blocked until time `b`. -/
def ShutAll (b : ℤ) (p : AttemptPolicy) : Prop := ∃ c ∈ p.globalBlockedUntil, b ≤ c

/-- The call refunds nothing. -/
def keepsCharges (s : Ledger) (a : Action) : Prop := refundOf s a = none

instance (s : Ledger) (a : Action) : Decidable (keepsCharges s a) := by
  unfold keepsCharges; infer_instance

/-- As long as nothing is refunded, the attempt that was just admitted blocks its peer for the
cooldown if it has used up that budget, and everybody if it has used up the global one. -/
def Cools (s : Ledger) (peer : Bytes) : Prop :=
  ∀ bs, ledger.Legal keepsCharges s bs →
    ∀ now, (ledger.exec s bs).clock ≤ now → now < s.clock + s.policy.config.cooldown →
      (s.policy.config.maxAttemptsPerSource ≤ s.policy.peerAttempts peer →
        ((ledger.exec s bs).policy.beginAttempt peer now).1 = none) ∧
      (s.policy.config.maxAttemptsGlobal ≤ s.policy.attempts.length →
        ∀ other, ((ledger.exec s bs).policy.beginAttempt other now).1 = none)

section Cooldown
variable {p p' : AttemptPolicy} {b now : ℤ} {peer : Bytes} {action : Action} {x : Option Attempt}

theorem Shut.prune (h : Shut b peer p) (hnow : now < b) : Shut b peer (p.prune now) := by
  obtain ⟨c, hc, hle⟩ := h.source
  have hover : elapsed now p.globalBlockedUntil = false :=
    over_eq_false.mpr fun d hd => hnow.trans_le (h.total d hd)
  exact ⟨⟨c, peerBlocked_prune.mpr ⟨hc, hnow.trans_le hle, hover⟩, hle⟩,
    fun d hd => h.total d (globalBlocked_prune.mp hd).1⟩

theorem ShutAll.prune (h : ShutAll b p) (hnow : now < b) : ShutAll b (p.prune now) := by
  obtain ⟨c, hc, hle⟩ := h
  exact ⟨c, globalBlocked_prune.mpr ⟨hc, hnow.trans_le hle⟩, hle⟩

theorem Shut.turn (h : Shut b peer p) (hturn : Turn p action p' x none) (hnow : action.now < b)
    (hb : b ≤ action.now + p.config.cooldown) : Shut b peer p' := by
  cases hturn with
  | skip => exact h
  | prune => exact h.prune hnow
  | @charge other now hpeer hglobal =>
    have hpruned := h.prune hnow
    refine ⟨?_, fun c hc => ?_⟩
    · rw [peerBlocked_charge, config_prune]
      split_ifs
      · exact ⟨_, rfl, hb⟩
      · exact hpruned.source
    · rw [globalBlocked_charge, config_prune] at hc
      split_ifs at hc
      · rw [← Option.some.inj hc]
        exact hb
      · exact hpruned.total c hc

theorem ShutAll.turn (h : ShutAll b p) (hturn : Turn p action p' x none) (hnow : action.now < b) :
    ShutAll b p' := by
  cases hturn with
  | skip => exact h
  | prune => exact h.prune hnow
  | @charge other now hpeer hglobal =>
    obtain ⟨c, hc, -⟩ := h.prune hnow
    have hnone : (p.prune now).globalBlockedUntil = none := hglobal
    rw [show (Action.beginAttempt other now).now = now from rfl, hnone] at hc
    cases hc

theorem Shut.refuses (h : Shut b peer p) (hnow : now < b) : (p.beginAttempt peer now).1 = none := by
  obtain ⟨c, hc, -⟩ := (h.prune hnow).source
  unfold AttemptPolicy.beginAttempt
  rcases allowed_cases p peer now with heq | heq | ⟨-, hpeer, -⟩
  · rw [heq]
    rfl
  · rw [heq]
    rfl
  · rw [hpeer] at hc
    cases hc

theorem ShutAll.refuses (h : ShutAll b p) (hnow : now < b) (other : Bytes) :
    (p.beginAttempt other now).1 = none := by
  obtain ⟨c, hc, -⟩ := h.prune hnow
  unfold AttemptPolicy.beginAttempt
  rcases allowed_cases p other now with heq | heq | ⟨-, -, hglobal, -⟩
  · rw [heq]
    rfl
  · rw [heq]
    rfl
  · rw [hglobal] at hc
    cases hc

/-- What is blocked by the attempt stays blocked until the cooldown is over. -/
theorem cools {s : Ledger}
    (hsource : s.policy.config.maxAttemptsPerSource ≤ s.policy.peerAttempts peer →
      Shut (s.clock + s.policy.config.cooldown) peer s.policy)
    (htotal : s.policy.config.maxAttemptsGlobal ≤ s.policy.attempts.length →
      ShutAll (s.clock + s.policy.config.cooldown) s.policy) : Cools s peer := by
  intro bs hlegal now hclock hnow
  have hrun {I : AttemptPolicy → Prop} (hI : I s.policy)
      (hturn : ∀ p p' action x, I p → p.config = s.policy.config → Turn p action p' x none →
        action.now < s.clock + s.policy.config.cooldown → s.clock ≤ action.now → I p') :
      I (ledger.exec s bs).policy := by
    have hinvariant := hlegal.invariant (I := fun t => s.clock ≤ t.clock ∧
      t.policy.config = s.policy.config ∧
      (t.clock < s.clock + s.policy.config.cooldown → I t.policy))
      ⟨le_refl _, rfl, fun _ => hI⟩ fun t action ⟨hle, hconfig, ht⟩ he hkeeps => by
        have he : t.clock ≤ action.now := he
        have hrefund : refundOf t action = none := hkeeps
        refine ⟨hle.trans he, config_next.trans hconfig, fun hlt => ?_⟩
        have hstep := turn t action
        rw [hrefund] at hstep
        exact hturn _ _ _ _ (ht (he.trans_lt hlt)) hconfig hstep hlt (hle.trans he)
    exact hinvariant.2.2 (hclock.trans_lt hnow)
  refine ⟨fun hlimit => ?_, fun hlimit other => ?_⟩
  · refine (hrun (hsource hlimit) fun p p' action x hI hconfig hstep hlt hle => ?_).refuses hnow
    refine hI.turn hstep hlt ?_
    rw [hconfig]
    exact Int.add_le_add_right hle _
  · exact (hrun (htotal hlimit) fun p p' action x hI _ hstep hlt _ =>
      hI.turn hstep hlt).refuses hnow other

/-- The attempt that reaches a limit starts the cooldown. -/
theorem cools_of_admitted {s : Ledger} {id : AttemptId}
    (h : (s.policy.beginAttempt peer now).1 = some id) :
    Cools (next s (.beginAttempt peer now)) peer := by
  have hturn := turn s (.beginAttempt peer now)
  have hadmission : admission s (.beginAttempt peer now) = some ⟨id, peer, now⟩ := by
    unfold admission
    dsimp only
    rw [h]
    rfl
  have hpolicy : (next s (.beginAttempt peer now)).policy =
      policyNext s.policy (.beginAttempt peer now) := rfl
  rw [hadmission] at hturn
  generalize policyNext s.policy (.beginAttempt peer now) = p at hturn hpolicy
  generalize refundOf s (.beginAttempt peer now) = r at hturn
  cases hturn with
  | charge hpeer hglobal =>
    have hclock : (next s (.beginAttempt peer now)).clock = now := rfl
    apply cools
    · rw [hpolicy, hclock, config_charge, config_prune, peerAttempts_charge, if_pos rfl]
      intro hlimit
      refine ⟨⟨now + s.policy.config.cooldown, ?_, le_refl _⟩, fun c hc => ?_⟩
      · rw [peerBlocked_charge, config_prune, if_pos ⟨rfl, hlimit⟩]
        rfl
      · rw [globalBlocked_charge, config_prune, hglobal] at hc
        split_ifs at hc
        · rw [← Option.some.inj hc]
        · cases hc
    · rw [hpolicy, hclock, config_charge, config_prune, attempts_charge, List.length_append,
        List.length_singleton]
      intro hlimit
      refine ⟨now + s.policy.config.cooldown, ?_, le_refl _⟩
      rw [globalBlocked_charge, config_prune, if_pos hlimit]
      rfl

end Cooldown

/-! ### Refunds -/

/-- Completing attempt `id` removes its own charge, from those that still count. -/
structure RefundsOwn (s : Ledger) (id : AttemptId) (now : ℤ) : Prop where
  own : (s.policy.finishAttempt id true now).attempts =
    (s.policy.prune now).attempts.filter fun a => a.id ≠ id
  single : (s.policy.prune now).attempts.countP (fun a => a.id = id) ≤ 1
  failed : s.policy.finishAttempt id false now = s.policy.prune now
  unknown : (∀ a ∈ s.admitted, a.id ≠ id) → s.policy.finishAttempt id true now = s.policy.prune now
  repeated : id ∈ s.refunded → s.policy.finishAttempt id true now = s.policy.prune now

theorem refundsOwn {s : Ledger} (h : Retained s) (id : AttemptId) (now : ℤ) :
    RefundsOwn s id now := by
  have hnodup : (s.policy.prune now).attempts.Nodup := h.distinct.sublist prune_sublist
  have hmem : ∀ a ∈ (s.policy.prune now).attempts, a ∈ s.standing :=
    fun a ha => h.charged a (mem_prune.mp ha).1
  have hnone (hno : ∀ a ∈ (s.policy.prune now).attempts, a.id ≠ id) (succeeded : Bool) :
      s.policy.finishAttempt id succeeded now = s.policy.prune now := by
    unfold AttemptPolicy.finishAttempt
    dsimp only
    rw [List.find?_eq_none.mpr fun a ha => by simpa using hno a ha]
  have hunique : ∀ a ∈ (s.policy.prune now).attempts, ∀ b ∈ (s.policy.prune now).attempts,
      a.id = b.id → a = b := fun a ha b hb hid =>
    h.eq_of_id (mem_standing.mp (hmem a ha)).1 (mem_standing.mp (hmem b hb)).1 hid
  constructor
  · cases hfind : (s.policy.prune now).attempts.find? fun a => a.id = id with
    | none =>
      have hno : ∀ a ∈ (s.policy.prune now).attempts, a.id ≠ id := by
        simpa using List.find?_eq_none.mp hfind
      rw [hnone hno]
      exact (List.filter_eq_self.mpr fun a ha => by simpa using hno a ha).symm
    | some a =>
      have ha := List.mem_of_find?_eq_some hfind
      have hid : a.id = id := by simpa using List.find?_some hfind
      have hfinish : s.policy.finishAttempt id true now = (s.policy.prune now).refund a := by
        unfold AttemptPolicy.finishAttempt
        dsimp only
        rw [hfind]
        rfl
      rw [hfinish, attempts_refund, hnodup.erase_eq_filter]
      refine List.filter_congr fun b hb => ?_
      have hiff : b = a ↔ b.id = id :=
        ⟨fun heq => heq ▸ hid, fun heq => hunique b hb a ha (heq.trans hid.symm)⟩
      simp [bne, beq_eq_decide, hiff]
  · have hids : ((s.policy.prune now).attempts.map (·.id)).Nodup :=
      hnodup.map_on hunique
    have hcount := List.nodup_iff_count_le_one.mp hids id
    simpa [List.count, List.countP_map, Function.comp_def, beq_eq_decide] using hcount
  · unfold AttemptPolicy.finishAttempt
    dsimp only
    split <;> rfl
  · intro hno
    exact hnone (fun a ha => hno a (mem_standing.mp (hmem a ha)).1) true
  · intro hrefunded
    refine hnone (fun a ha hid => (mem_standing.mp (hmem a ha)).2 ?_) true
    rw [hid]
    exact hrefunded

end RemoteCam.Security.RateLimiter
