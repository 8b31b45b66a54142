import RemoteCam.Security.Integrity
import RemoteCam.Security.RateLimiter
import RemoteCam.Security.StoredSessionSecurity

/-! # Authentications and their charges

`StoredSessionSecurity` with its attempt policy: `beginAuthentication` takes a charge and remembers
it with the challenge, `finishAuthentication` gives it back if the proof is right. `history` keeps
the calls, and of every challenge what was remembered with it.

`authentications_of_run`: a success answers the one challenge of its source and device that is
outstanding, in time and with a proof made for it, and it is refunded the charge of that challenge;
no other call refunds anything. The primitives are arbitrary; that HMAC cannot be guessed is the
condition `ideal` on the proofs that are presented. -/

namespace RemoteCam.Security.SessionAttempts

open RemoteCam.Lib.Transitions
open RemoteCam.Security.Protector (Bytes Key32)
open RemoteCam.Security.RateLimiter hiding Action next
open RemoteCam.Security.StoredSessionSecurity

/-! ### The machine -/

/-- A `beginAuthentication` that succeeded. -/
structure Begun where
  source : Bytes
  deviceId : Bytes
  beganUnixSeconds : ℕ
  record : PairingRecord
  challenge : AuthenticationChallenge
  attemptId : AttemptId
  deriving DecidableEq, Repr

inductive Event where
  | begun (b : Begun)
  | refused (source deviceId : Bytes)
  | finished (source deviceId : Bytes)
  deriving DecidableEq, Repr

/-- A challenge of the pair, or the end of one. -/
def Event.concerns (source deviceId : Bytes) : Event → Bool
  | .begun b => b.source = source ∧ b.deviceId = deviceId
  | .refused _ _ => false
  | .finished s d => s = source ∧ d = deviceId

structure Sessions where
  security : Impl
  /-- `policy`, with its ghosts. -/
  ledger : Ledger
  /-- `attemptId` of what is pending under a key. -/
  attempt : Bytes → AttemptId := fun _ => 0
  /-- Ghost. -/
  history : List Event := []

/-- A presented proof and, as a ghost, the key and the input it was computed from. -/
structure Proof where
  value : Key32
  origin : Option (Key32 × Bytes)
  deriving DecidableEq, Repr

inductive Action where
  | beginAuthentication (source deviceId : Bytes) (store : Bytes → Except Error PairingRecord)
    (nonce : Except Error Nonce32) (nowUnixSeconds : ℕ) (steadyNow : ℤ)
  /-- `steadyLater` is the second time the clock is read. -/
  | finishAuthentication (source deviceId : Bytes) (clientNonce : Nonce32) (clientProof : Proof)
    (nowUnixSeconds : ℕ) (steadyNow steadyLater : ℤ)

variable (primitives : Primitives)

def begins (security : Impl) (source deviceId : Bytes) (nowUnixSeconds : ℕ) : Prop :=
  ¬(source = [] ∨ source.length > 256 ∨ !validCanonicalId security.serviceId ∨
    !validCanonicalId deviceId ∨ nowUnixSeconds > uint64Max - 10)

instance (security : Impl) (source deviceId : Bytes) (nowUnixSeconds : ℕ) :
    Decidable (begins security source deviceId nowUnixSeconds) := by
  unfold begins; infer_instance

def finishes (source deviceId : Bytes) : Prop :=
  ¬(source = [] ∨ source.length > 256 ∨ !validCanonicalId deviceId)

instance (source deviceId : Bytes) : Decidable (finishes source deviceId) := by
  unfold finishes; infer_instance

/-- `beginAuthentication`, the policy being asked only for arguments that are valid. -/
def beginNext (s : Sessions) (source deviceId : Bytes) (store : Bytes → Except Error PairingRecord)
    (nonce : Except Error Nonce32) (nowUnixSeconds : ℕ) (steadyNow : ℤ) :
    Except Error AuthenticationChallenge × Sessions :=
  if begins s.security source deviceId nowUnixSeconds then
    let admitted := (s.ledger.policy.beginAttempt source steadyNow).1
    let (result, security) := beginAuthentication s.security store
      { allowed := admitted.isSome, nonce } source deviceId nowUnixSeconds
    let s := { s with ledger := RateLimiter.next s.ledger (.beginAttempt source steadyNow) }
    match result, admitted, store deviceId with
    | .ok challenge, some attemptId, .ok record =>
      (.ok challenge,
        { s with
          security
          attempt := Function.update s.attempt (pendingKey source deviceId) attemptId
          history := s.history ++ [.begun
            { source, deviceId, beganUnixSeconds := nowUnixSeconds, record, challenge,
              attemptId }] })
    | _, _, _ => (result, { s with security, history := s.history ++ [.refused source deviceId] })
  else
    (.error .invalidArgument, { s with history := s.history ++ [.refused source deviceId] })

/-- `finishAuthentication`. -/
def finishNext (s : Sessions) (source deviceId : Bytes) (clientNonce : Nonce32)
    (clientProof : Key32) (nowUnixSeconds : ℕ) (steadyNow steadyLater : ℤ) :
    Except Error AuthenticationResult × Sessions :=
  let admitted := (s.ledger.policy.beginAttempt source steadyNow).1
  let (result, security) := finishAuthentication primitives s.security
    { allowed := admitted.isSome, nonce := .error .cryptoFailure } source deviceId clientNonce
    clientProof nowUnixSeconds
  let history := s.history ++ [.finished source deviceId]
  if finishes source deviceId then
    match s.security.pending (pendingKey source deviceId) with
    | none =>
      let ledger := RateLimiter.next s.ledger (.beginAttempt source steadyNow)
      match admitted with
      | none => (result, { s with security, ledger, history })
      | some unsolicited =>
        (result,
          { s with
            security
            ledger := RateLimiter.next ledger (.finishAttempt unsolicited false steadyLater)
            history })
    | some _ =>
      (result,
        { s with
          security
          ledger := RateLimiter.next s.ledger
            (.finishAttempt (s.attempt (pendingKey source deviceId)) result.isOk steadyNow)
          history })
  else (result, { s with security, history })

def next (s : Sessions) : Action → Sessions
  | .beginAuthentication source deviceId store nonce nowUnixSeconds steadyNow =>
    (beginNext s source deviceId store nonce nowUnixSeconds steadyNow).2
  | .finishAuthentication source deviceId clientNonce clientProof nowUnixSeconds steadyNow
      steadyLater =>
    (finishNext primitives s source deviceId clientNonce clientProof.value nowUnixSeconds steadyNow
      steadyLater).2

/-- The steady clock does not run backwards. -/
def enabled (s : Sessions) : Action → Prop
  | .beginAuthentication _ _ _ _ _ steadyNow => s.ledger.clock ≤ steadyNow
  | .finishAuthentication _ _ _ _ _ steadyNow steadyLater =>
    s.ledger.clock ≤ steadyNow ∧ steadyNow ≤ steadyLater

def sessions : Machine Sessions Action := ⟨enabled, next primitives⟩

def Sessions.start (serviceId : Bytes) (config : AttemptPolicyConfig) (clock : ℤ) : Sessions where
  security := { serviceId }
  ledger := .start config clock

/-- A proof that is the HMAC of the challenge it answers was computed as such. -/
def ideal (s : Sessions) : Action → Prop
  | .finishAuthentication source deviceId clientNonce clientProof _ _ _ =>
    ∀ p ∈ s.security.pending (pendingKey source deviceId),
      let input := authenticationInput false s.security.serviceId deviceId p.challenge.serverNonce
        clientNonce
      clientProof.value = primitives.hmacSha256 p.record.key input →
        clientProof.origin = some (p.record.key, input)
  | _ => True

/-! ### Keys and inputs -/

theorem length_of_validCanonicalId {value : Bytes} (h : validCanonicalId value = true) :
    value.length = 16 := by
  unfold validCanonicalId at h
  simp only [decide_eq_true_eq] at h
  exact h.1

/-- A key determines its source and its device. -/
theorem pendingKey_inj {source source' deviceId deviceId' : Bytes}
    (h : validCanonicalId deviceId = true) (h' : validCanonicalId deviceId' = true)
    (heq : pendingKey source deviceId = pendingKey source' deviceId') :
    source = source' ∧ deviceId = deviceId' := by
  unfold pendingKey at heq
  have hlength : (0 :: deviceId).length = (0 :: deviceId').length := by
    rw [List.length_cons, List.length_cons, length_of_validCanonicalId h,
      length_of_validCanonicalId h']
  obtain ⟨hsource, hdevice⟩ := List.append_inj' heq hlength
  exact ⟨hsource, List.tail_eq_of_cons_eq hdevice⟩

/-! ### What a call does -/

section Effects
variable {primitives} {s : Sessions} {source deviceId : Bytes}
  {store : Bytes → Except Error PairingRecord} {nonce : Except Error Nonce32} {nowUnixSeconds : ℕ}
  {steadyNow steadyLater : ℤ} {clientNonce : Nonce32} {clientProof : Key32}

/-- A challenge is given for ten seconds, to whom the policy allows it. -/
theorem beginAuthentication_ok {draw : Draw} {security security' : Impl}
    {challenge : AuthenticationChallenge}
    (h : beginAuthentication security store draw source deviceId nowUnixSeconds =
      (.ok challenge, security')) :
    draw.allowed = true ∧ challenge.expiresUnixSeconds = nowUnixSeconds + 10 := by
  unfold beginAuthentication at h
  split_ifs at h with hinvalid hallowed
  · cases h
  · cases h
  · refine ⟨by simpa using hallowed, ?_⟩
    cases hstore : store deviceId with
    | error error =>
      rw [hstore] at h
      cases h
    | ok record =>
      rw [hstore] at h
      dsimp only at h
      split_ifs at h
      · cases h
      · cases hnonce : draw.nonce with
        | error error =>
          rw [hnonce] at h
          cases h
        | ok serverNonce =>
          rw [hnonce] at h
          rw [← Except.ok.inj (Prod.mk.inj h).1]

/-- What a `beginAuthentication` comes to. -/
inductive Began (s : Sessions) (source deviceId : Bytes) (nowUnixSeconds : ℕ) (steadyNow : ℤ) :
    Sessions → Prop
  | refused (ledger : Ledger)
      (hledger : ledger = s.ledger ∨
        ledger = RateLimiter.next s.ledger (.beginAttempt source steadyNow)) :
      Began s source deviceId nowUnixSeconds steadyNow
        { s with ledger, history := s.history ++ [.refused source deviceId] }
  | begun (record : PairingRecord) (challenge : AuthenticationChallenge) (attemptId : AttemptId)
      (hvalid : begins s.security source deviceId nowUnixSeconds)
      (hcharge : (s.ledger.policy.beginAttempt source steadyNow).1 = some attemptId)
      (hexpires : challenge.expiresUnixSeconds = nowUnixSeconds + 10) :
      Began s source deviceId nowUnixSeconds steadyNow
        { security :=
            { s.security with
              pending := Function.update s.security.pending (pendingKey source deviceId)
                (some { record, challenge }) }
          ledger := RateLimiter.next s.ledger (.beginAttempt source steadyNow)
          attempt := Function.update s.attempt (pendingKey source deviceId) attemptId
          history := s.history ++ [.begun
            { source, deviceId, beganUnixSeconds := nowUnixSeconds, record, challenge,
              attemptId }] }

theorem began : Began s source deviceId nowUnixSeconds steadyNow
    (beginNext s source deviceId store nonce nowUnixSeconds steadyNow).2 := by
  unfold beginNext
  split_ifs with hvalid
  · dsimp only
    rcases @beginAuthentication_spec s.security store _ source deviceId nowUnixSeconds with
      ⟨challenge, record, hbegin, hstore⟩ | ⟨error, hbegin⟩
    · rw [hbegin, hstore]
      obtain ⟨hallowed, hexpires⟩ := beginAuthentication_ok hbegin
      obtain ⟨attemptId, hcharge⟩ := Option.isSome_iff_exists.mp hallowed
      rw [hcharge]
      exact .begun record challenge attemptId hvalid hcharge hexpires
    · rw [hbegin]
      exact .refused _ (.inr rfl)
  · exact .refused s.ledger (.inl rfl)

/-- What a `finishAuthentication` comes to, by whether it succeeds. -/
inductive Finished (s : Sessions) (source deviceId : Bytes) (clientNonce : Nonce32)
    (clientProof : Key32) (nowUnixSeconds : ℕ) (steadyNow steadyLater : ℤ) :
    Bool → Sessions → Prop
  | invalid (hinvalid : ¬finishes source deviceId) :
      Finished s source deviceId clientNonce clientProof nowUnixSeconds steadyNow steadyLater false
        { s with history := s.history ++ [.finished source deviceId] }
  | unsolicited (ledger : Ledger)
      (hnone : s.security.pending (pendingKey source deviceId) = none)
      (hledger : ledger = RateLimiter.next s.ledger (.beginAttempt source steadyNow) ∨
        ∃ attemptId, ledger = RateLimiter.next
          (RateLimiter.next s.ledger (.beginAttempt source steadyNow))
          (.finishAttempt attemptId false steadyLater)) :
      Finished s source deviceId clientNonce clientProof nowUnixSeconds steadyNow steadyLater false
        { s with ledger, history := s.history ++ [.finished source deviceId] }
  | taken (p : Pending) (success : Bool) (hvalid : finishes source deviceId)
      (hpending : s.security.pending (pendingKey source deviceId) = some p)
      (hadmits : success = true → p.admits primitives s.security.serviceId deviceId clientNonce
        clientProof nowUnixSeconds = true) :
      Finished s source deviceId clientNonce clientProof nowUnixSeconds steadyNow steadyLater
        success
        { s with
          security :=
            { s.security with
              pending := Function.update s.security.pending (pendingKey source deviceId) none }
          ledger := RateLimiter.next s.ledger
            (.finishAttempt (s.attempt (pendingKey source deviceId)) success steadyNow)
          history := s.history ++ [.finished source deviceId] }

theorem finished : @Finished primitives s source deviceId clientNonce clientProof
    nowUnixSeconds steadyNow steadyLater
    (finishNext primitives s source deviceId clientNonce clientProof nowUnixSeconds steadyNow
      steadyLater).1.isOk
    (finishNext primitives s source deviceId clientNonce clientProof nowUnixSeconds steadyNow
      steadyLater).2 := by
  unfold finishNext
  dsimp only
  split_ifs with hvalid
  · cases hpending : s.security.pending (pendingKey source deviceId) with
    | none =>
      have hresult (draw : Draw) : finishAuthentication primitives s.security draw source deviceId
          clientNonce clientProof nowUnixSeconds = (.error (unsolicited draw), s.security) := by
        unfold finishAuthentication
        rw [if_neg hvalid, hpending]
      rw [hresult]
      cases (s.ledger.policy.beginAttempt source steadyNow).1 with
      | none => exact .unsolicited _ hpending (.inl rfl)
      | some attemptId => exact .unsolicited _ hpending (.inr ⟨attemptId, rfl⟩)
    | some p =>
      have hresult (draw : Draw) : finishAuthentication primitives s.security draw source deviceId
          clientNonce clientProof nowUnixSeconds =
          (finishPending primitives p s.security.serviceId deviceId clientNonce clientProof
            nowUnixSeconds,
          { s.security with
            pending := Function.update s.security.pending (pendingKey source deviceId) none }) := by
        unfold finishAuthentication
        rw [if_neg hvalid, hpending]
      rw [hresult]
      refine .taken p _ hvalid hpending fun hsuccess => ?_
      cases hfinish : finishPending primitives p s.security.serviceId deviceId clientNonce
        clientProof nowUnixSeconds with
      | error error =>
        rw [hfinish] at hsuccess
        cases hsuccess
      | ok result => exact finishPending_ok hfinish
  · have hresult (draw : Draw) : finishAuthentication primitives s.security draw source deviceId
        clientNonce clientProof nowUnixSeconds = (.error .invalidArgument, s.security) := by
      unfold finishAuthentication
      rw [if_pos (by unfold finishes at hvalid; exact not_not.mp hvalid)]
    rw [hresult]
    exact .invalid hvalid

end Effects

/-! ### Which challenge is answered -/

/-- Event `i` is a challenge of the pair, and since then there has been neither another one nor an
answer. -/
def Outstanding (history : List Event) (source deviceId : Bytes) (i : ℕ) (b : Begun) : Prop :=
  history[i]? = some (.begun b) ∧ b.source = source ∧ b.deviceId = deviceId ∧
    ∀ j, i < j → ∀ e ∈ history[j]?, e.concerns source deviceId = false

section History
variable {history : List Event} {source deviceId : Bytes} {i j : ℕ} {b c : Begun} {e : Event}

theorem Outstanding.unique (h : Outstanding history source deviceId i b)
    (h' : Outstanding history source deviceId j c) : i = j := by
  have hconcerns {b : Begun} {i : ℕ} (h : Outstanding history source deviceId i b) :
      (Event.begun b).concerns source deviceId = true := by
    simp [Event.concerns, h.2.1, h.2.2.1]
  rcases Nat.lt_trichotomy i j with hlt | heq | hgt
  · have hno := h.2.2.2 j hlt _ h'.1
    rw [hconcerns h'] at hno
    cases hno
  · exact heq
  · have hno := h'.2.2.2 i hgt _ h.1
    rw [hconcerns h] at hno
    cases hno

theorem Outstanding.append (h : Outstanding history source deviceId i b)
    (he : e.concerns source deviceId = false) :
    Outstanding (history ++ [e]) source deviceId i b := by
  obtain ⟨hi, hsource, hdevice, hlater⟩ := h
  refine ⟨?_, hsource, hdevice, fun j hj x hx => ?_⟩
  · rw [List.getElem?_append_left (List.getElem?_eq_some_iff.mp hi).1]
    exact hi
  · rcases Nat.lt_trichotomy j history.length with hlt | heq | hgt
    · rw [List.getElem?_append_left hlt] at hx
      exact hlater j hj x hx
    · subst heq
      rw [List.getElem?_concat_length] at hx
      rwa [← Option.some.inj hx]
    · rw [List.getElem?_eq_none (by rw [List.length_append]; exact hgt)] at hx
      cases hx

theorem outstanding_begun :
    Outstanding (history ++ [.begun b]) b.source b.deviceId history.length b := by
  refine ⟨List.getElem?_concat_length, rfl, rfl, fun j hj x hx => ?_⟩
  rw [List.getElem?_eq_none (by rw [List.length_append]; exact hj)] at hx
  cases hx

end History

/-- **The invariant**: what is pending is the outstanding challenge of its pair, each with a charge
of its own. -/
structure Matched (s : Sessions) : Prop where
  ledger : Retained s.ledger
  pending : ∀ source deviceId, validCanonicalId deviceId = true →
    ∀ p ∈ s.security.pending (pendingKey source deviceId), ∃ i b,
      Outstanding s.history source deviceId i b ∧ p = ⟨b.record, b.challenge⟩ ∧
        s.attempt (pendingKey source deviceId) = b.attemptId
  valid : ∀ b, .begun b ∈ s.history → finishes b.source b.deviceId
  expires : ∀ b, .begun b ∈ s.history → b.challenge.expiresUnixSeconds = b.beganUnixSeconds + 10
  charged : ∀ b, .begun b ∈ s.history → ∃ t, ⟨b.attemptId, b.source, t⟩ ∈ s.ledger.admitted
  distinct : ∀ (i j : ℕ) (b c : Begun), s.history[i]? = some (.begun b) →
    s.history[j]? = some (.begun c) → b.attemptId = c.attemptId → i = j

section Step
variable {primitives} {s s' : Sessions} {a : Action}

theorem finishes_of_begins {security : Impl} {source deviceId : Bytes} {nowUnixSeconds : ℕ}
    (h : begins security source deviceId nowUnixSeconds) : finishes source deviceId := by
  unfold begins at h
  unfold finishes
  push Not at h ⊢
  exact ⟨h.1, h.2.1, h.2.2.2.1⟩

theorem finishes_iff {source deviceId : Bytes} : finishes source deviceId ↔
    source ≠ [] ∧ source.length ≤ 256 ∧ validCanonicalId deviceId = true := by
  unfold finishes
  simp

/-- A call that leaves what is pending; `e` is no challenge. -/
theorem Matched.aside {ledger : Ledger} {e : Event} (h : Matched s) (hledger : Retained ledger)
    (hadmitted : ∀ x ∈ s.ledger.admitted, x ∈ ledger.admitted)
    (security : Impl) (hsecurity : ∀ source deviceId, validCanonicalId deviceId = true →
      ∀ p ∈ security.pending (pendingKey source deviceId),
        p ∈ s.security.pending (pendingKey source deviceId) ∧ e.concerns source deviceId = false)
    (he : ∀ b, e ≠ .begun b) :
    Matched { s with security, ledger, history := s.history ++ [e] } := by
  have hmem {b : Begun} (hb : .begun b ∈ s.history ++ [e]) : .begun b ∈ s.history := by
    rcases List.mem_append.mp hb with hb | hb
    · exact hb
    · exact absurd (List.mem_singleton.mp hb).symm (he b)
  have hindex {i : ℕ} {b : Begun} (hb : (s.history ++ [e])[i]? = some (.begun b)) :
      s.history[i]? = some (.begun b) := by
    rcases Nat.lt_trichotomy i s.history.length with hlt | heq | hgt
    · rwa [List.getElem?_append_left hlt] at hb
    · subst heq
      rw [List.getElem?_concat_length] at hb
      exact absurd (Option.some.inj hb) (he b)
    · rw [List.getElem?_eq_none (by rw [List.length_append]; exact hgt)] at hb
      cases hb
  constructor
  · exact hledger
  · intro source deviceId hvalid p hp
    obtain ⟨hpending, hconcerns⟩ := hsecurity source deviceId hvalid p hp
    obtain ⟨i, b, hout, heq, hattempt⟩ := h.pending source deviceId hvalid p hpending
    exact ⟨i, b, hout.append hconcerns, heq, hattempt⟩
  · exact fun b hb => h.valid b (hmem hb)
  · exact fun b hb => h.expires b (hmem hb)
  · intro b hb
    obtain ⟨t, ht⟩ := h.charged b (hmem hb)
    exact ⟨t, hadmitted _ ht⟩
  · exact fun i j b c hb hc heq => h.distinct i j b c (hindex hb) (hindex hc) heq

theorem admitted_mono {l : Ledger} {action : RateLimiter.Action} :
    ∀ x ∈ l.admitted, x ∈ (RateLimiter.next l action).admitted :=
  fun _ hx => List.mem_append_left _ hx

theorem matched_began {source deviceId : Bytes} {nowUnixSeconds : ℕ} {steadyNow : ℤ}
    (h : Matched s) (hclock : s.ledger.clock ≤ steadyNow)
    (hb : Began s source deviceId nowUnixSeconds steadyNow s') : Matched s' := by
  have hnext : Retained (RateLimiter.next s.ledger (.beginAttempt source steadyNow)) :=
    retained_next h.ledger hclock
  cases hb with
  | refused ledger hledger =>
    have hsecurity : ∀ src dev, validCanonicalId dev = true →
        ∀ p ∈ s.security.pending (pendingKey src dev),
          p ∈ s.security.pending (pendingKey src dev) ∧
            (Event.refused source deviceId).concerns src dev = false :=
      fun _ _ _ _ hp => ⟨hp, rfl⟩
    rcases hledger with rfl | rfl
    · exact h.aside h.ledger (fun x hx => hx) s.security hsecurity fun b hb => (by cases hb)
    · exact h.aside hnext admitted_mono s.security hsecurity fun b hb => (by cases hb)
  | begun record challenge attemptId hvalid hcharge hexpires =>
    have hdevice : validCanonicalId deviceId = true :=
      (finishes_iff.mp (finishes_of_begins hvalid)).2.2
    have hadmission : RateLimiter.admission s.ledger (.beginAttempt source steadyNow) =
        some ⟨attemptId, source, steadyNow⟩ := by
      unfold RateLimiter.admission
      dsimp only
      rw [hcharge]
      rfl
    have hadmitted : (RateLimiter.next s.ledger (.beginAttempt source steadyNow)).admitted =
        s.ledger.admitted ++ [⟨attemptId, source, steadyNow⟩] := by
      unfold RateLimiter.next
      rw [hadmission]
      rfl
    have hfresh : ∀ b, .begun b ∈ s.history → b.attemptId ≠ attemptId := by
      intro b hb heq
      obtain ⟨t, ht⟩ := h.charged b hb
      have hids := hnext.ids
      rw [hadmitted, List.map_append] at hids
      refine (List.nodup_append.mp hids).2.2 b.attemptId (List.mem_map_of_mem ht) attemptId
        (by simp) heq
    constructor
    · exact hnext
    · intro src dev hdev p hp
      dsimp only at hp
      by_cases hkey : pendingKey src dev = pendingKey source deviceId
      · obtain ⟨rfl, rfl⟩ := pendingKey_inj hdev hdevice hkey
        rw [Function.update_self] at hp
        refine ⟨s.history.length, _, outstanding_begun, (Option.some.inj hp).symm, ?_⟩
        exact Function.update_self _ _ _
      · rw [Function.update_of_ne hkey] at hp
        obtain ⟨i, b, hout, heq, hattempt⟩ := h.pending src dev hdev p hp
        refine ⟨i, b, hout.append ?_, heq, ?_⟩
        · simp only [Event.concerns, decide_eq_false_iff_not, not_and]
          rintro rfl rfl
          exact hkey rfl
        · exact (Function.update_of_ne hkey _ _).trans hattempt
    · intro b hb
      rcases List.mem_append.mp hb with hb | hb
      · exact h.valid b hb
      · rw [Event.begun.inj (List.mem_singleton.mp hb)]
        exact finishes_of_begins hvalid
    · intro b hb
      rcases List.mem_append.mp hb with hb | hb
      · exact h.expires b hb
      · rw [Event.begun.inj (List.mem_singleton.mp hb)]
        exact hexpires
    · intro b hb
      rcases List.mem_append.mp hb with hb | hb
      · obtain ⟨t, ht⟩ := h.charged b hb
        exact ⟨t, admitted_mono _ ht⟩
      · rw [Event.begun.inj (List.mem_singleton.mp hb)]
        refine ⟨steadyNow, ?_⟩
        show _ ∈ (RateLimiter.next s.ledger (.beginAttempt source steadyNow)).admitted
        rw [hadmitted]
        exact List.mem_append_right _ (List.mem_singleton_self _)
    · intro i j b c hi hj heq
      have hcases {i : ℕ} {b : Begun} {new : Begun}
          (hi : (s.history ++ [.begun new])[i]? = some (.begun b)) :
          s.history[i]? = some (.begun b) ∨ i = s.history.length ∧ b = new := by
        rcases Nat.lt_trichotomy i s.history.length with hlt | rfl | hgt
        · rw [List.getElem?_append_left hlt] at hi
          exact .inl hi
        · rw [List.getElem?_concat_length] at hi
          exact .inr ⟨rfl, (Event.begun.inj (Option.some.inj hi)).symm⟩
        · rw [List.getElem?_eq_none (by rw [List.length_append]; exact hgt)] at hi
          cases hi
      rcases hcases hi with hi | ⟨rfl, rfl⟩ <;> rcases hcases hj with hj | ⟨rfl, rfl⟩
      · exact h.distinct i j b c hi hj heq
      · exact absurd heq (hfresh b (List.mem_of_getElem? hi))
      · exact absurd heq.symm (hfresh c (List.mem_of_getElem? hj))
      · rfl

theorem matched_finished {source deviceId : Bytes} {clientNonce : Nonce32} {clientProof : Key32}
    {nowUnixSeconds : ℕ} {steadyNow steadyLater : ℤ} {success : Bool} (h : Matched s)
    (hclock : s.ledger.clock ≤ steadyNow ∧ steadyNow ≤ steadyLater)
    (hf : @Finished primitives s source deviceId clientNonce clientProof
      nowUnixSeconds steadyNow steadyLater success s') : Matched s' := by
  -- another pair than the one of the call
  have hother {src dev : Bytes} (hne : src = source → dev ≠ deviceId) :
      (Event.finished source deviceId).concerns src dev = false := by
    simp only [Event.concerns, decide_eq_false_iff_not, not_and]
    rintro rfl rfl
    exact hne rfl rfl
  cases hf with
  | invalid hinvalid =>
    refine h.aside h.ledger (fun x hx => hx) s.security (fun src dev hdev p hp => ⟨hp, hother ?_⟩)
      fun b hb => (by cases hb)
    rintro rfl rfl
    obtain ⟨i, b, ⟨hi, rfl, rfl, -⟩, -⟩ := h.pending src dev hdev p hp
    exact hinvalid (h.valid b (List.mem_of_getElem? hi))
  | unsolicited ledger hnone hledger =>
    have hbegun : Retained (RateLimiter.next s.ledger (.beginAttempt source steadyNow)) :=
      retained_next h.ledger hclock.1
    have hsecurity : ∀ src dev, validCanonicalId dev = true →
        ∀ p ∈ s.security.pending (pendingKey src dev),
          p ∈ s.security.pending (pendingKey src dev) ∧
            (Event.finished source deviceId).concerns src dev = false := by
      intro src dev _ p hp
      refine ⟨hp, hother ?_⟩
      rintro rfl rfl
      rw [hnone] at hp
      cases hp
    rcases hledger with rfl | ⟨attemptId, rfl⟩
    · exact h.aside hbegun admitted_mono s.security hsecurity fun b hb => (by cases hb)
    · have hfinished : Retained (RateLimiter.next
          (RateLimiter.next s.ledger (.beginAttempt source steadyNow))
          (.finishAttempt attemptId false steadyLater)) := retained_next hbegun hclock.2
      exact h.aside hfinished (fun x hx => admitted_mono x (admitted_mono x hx)) s.security
        hsecurity fun b hb => (by cases hb)
  | taken p success hvalid hpending hadmits =>
    have hfinished : Retained (RateLimiter.next s.ledger
        (.finishAttempt (s.attempt (pendingKey source deviceId)) success steadyNow)) :=
      retained_next h.ledger hclock.1
    refine h.aside hfinished admitted_mono _ (fun src dev hdev q hq => ?_)
      fun b hb => (by cases hb)
    dsimp only at hq
    by_cases hkey : pendingKey src dev = pendingKey source deviceId
    · rw [hkey, Function.update_self] at hq
      cases hq
    · rw [Function.update_of_ne hkey] at hq
      refine ⟨hq, hother ?_⟩
      rintro rfl rfl
      exact hkey rfl

theorem matched_next (h : Matched s) (he : enabled s a) : Matched (next primitives s a) := by
  cases a with
  | beginAuthentication source deviceId store nonce nowUnixSeconds steadyNow =>
    exact matched_began h he began
  | finishAuthentication source deviceId clientNonce clientProof nowUnixSeconds steadyNow
      steadyLater => exact matched_finished h he finished

end Step

/-! ### The property -/

/-- The one outstanding challenge of the pair is answered in time, with a proof that was made for
it, and the charge it was given is refunded. -/
def Answers (s s' : Sessions) (source deviceId : Bytes) (clientNonce : Nonce32)
    (clientProof : Proof) (nowUnixSeconds : ℕ) (steadyNow : ℤ) : Prop :=
  ∃! i, ∃ b, Outstanding s.history source deviceId i b ∧
    nowUnixSeconds < b.beganUnixSeconds + 10 ∧ b.record.expiredAt nowUnixSeconds = false ∧
    clientProof.origin = some (b.record.key, authenticationInput false s.security.serviceId deviceId
      b.challenge.serverNonce clientNonce) ∧
    (∃ t, ⟨b.attemptId, source, t⟩ ∈ s.ledger.admitted) ∧
    s'.ledger = RateLimiter.next s.ledger (.finishAttempt b.attemptId true steadyNow)

/-- What a `finishAuthentication` does in this state. -/
structure Consumes (s : Sessions) (source deviceId : Bytes) (clientNonce : Nonce32)
    (clientProof : Proof) (nowUnixSeconds : ℕ) (steadyNow steadyLater : ℤ) : Prop where
  success : (finishNext primitives s source deviceId clientNonce clientProof.value nowUnixSeconds
      steadyNow steadyLater).1.isOk = true →
    Answers s (finishNext primitives s source deviceId clientNonce clientProof.value nowUnixSeconds
      steadyNow steadyLater).2 source deviceId clientNonce clientProof nowUnixSeconds steadyNow
  failure : (finishNext primitives s source deviceId clientNonce clientProof.value nowUnixSeconds
      steadyNow steadyLater).1.isOk = false →
    (finishNext primitives s source deviceId clientNonce clientProof.value nowUnixSeconds steadyNow
      steadyLater).2.ledger.refunded = s.ledger.refunded
  consumed : finishes source deviceId →
    (finishNext primitives s source deviceId clientNonce clientProof.value nowUnixSeconds steadyNow
      steadyLater).2.security.pending (pendingKey source deviceId) = none

section Property
variable {primitives} {s : Sessions} {source deviceId : Bytes} {clientNonce : Nonce32}
  {clientProof : Proof} {nowUnixSeconds : ℕ} {steadyNow steadyLater : ℤ}

theorem refunded_begin {ledger : Ledger} : (RateLimiter.next ledger
    (.beginAttempt source steadyNow)).refunded = ledger.refunded := List.append_nil _

theorem refunded_failed {ledger : Ledger} {id : AttemptId} : (RateLimiter.next ledger
    (.finishAttempt id false steadyNow)).refunded = ledger.refunded := List.append_nil _

theorem consumes (h : Matched s)
    (hideal : ideal primitives s (.finishAuthentication source deviceId clientNonce clientProof
      nowUnixSeconds steadyNow steadyLater)) :
    Consumes primitives s source deviceId clientNonce clientProof nowUnixSeconds steadyNow
      steadyLater := by
  have hf := @finished primitives s source deviceId nowUnixSeconds steadyNow steadyLater clientNonce
    clientProof.value
  constructor
  · intro hsuccess
    rw [hsuccess] at hf
    generalize (finishNext primitives s source deviceId clientNonce clientProof.value nowUnixSeconds
      steadyNow steadyLater).2 = s' at hf ⊢
    cases hf with
    | taken p success hvalid hpending hadmits =>
      have hdevice : validCanonicalId deviceId = true := (finishes_iff.mp hvalid).2.2
      obtain ⟨i, b, hout, rfl, hattempt⟩ := h.pending source deviceId hdevice p hpending
      have hmem : .begun b ∈ s.history := List.mem_of_getElem? hout.1
      have hadmits := hadmits rfl
      have hproof := proof_of_admits hadmits
      unfold Pending.admits at hadmits
      simp only [Bool.and_eq_true, decide_eq_true_eq, Bool.not_eq_true'] at hadmits
      obtain ⟨⟨htime, hrecord⟩, -⟩ := hadmits
      refine ⟨i, ⟨b, hout, ?_, hrecord, ?_, ?_, ?_⟩, ?_⟩
      · rw [h.expires b hmem] at htime
        exact htime
      · refine hideal _ hpending ?_
        unfold makeAuthenticationProof at hproof
        split_ifs at hproof
        exact (Except.ok.inj hproof).symm
      · obtain ⟨t, ht⟩ := h.charged b hmem
        rw [hout.2.1] at ht
        exact ⟨t, ht⟩
      · rw [hattempt]
      · rintro j ⟨c, hj, -⟩
        exact hj.unique hout
  · intro hfailure
    rw [hfailure] at hf
    generalize (finishNext primitives s source deviceId clientNonce clientProof.value nowUnixSeconds
      steadyNow steadyLater).2 = s' at hf ⊢
    cases hf with
    | invalid => rfl
    | unsolicited ledger hnone hledger =>
      rcases hledger with rfl | ⟨attemptId, rfl⟩
      · exact refunded_begin
      · exact refunded_failed.trans refunded_begin
    | taken => exact refunded_failed
  · intro hvalid
    generalize (finishNext primitives s source deviceId clientNonce clientProof.value nowUnixSeconds
      steadyNow steadyLater).2 = s' at hf ⊢
    generalize (finishNext primitives s source deviceId clientNonce clientProof.value nowUnixSeconds
      steadyNow steadyLater).1.isOk = success at hf
    cases hf with
    | invalid hinvalid => exact absurd hvalid hinvalid
    | unsolicited ledger hnone hledger => exact hnone
    | taken => exact Function.update_self _ _ _

end Property

/-- **One challenge, one use, one charge.** In every run, whatever is passed to the calls: an
authentication that succeeds answers the outstanding challenge of its source and device, which it
consumes, and nothing but a success is refunded anything. -/
theorem authentications_of_run (serviceId : Bytes) (config : AttemptPolicyConfig) (clock : ℤ)
    (as : List Action)
    (h : (sessions primitives).Legal (ideal primitives) (.start serviceId config clock) as) :
    (∀ source deviceId clientNonce clientProof nowUnixSeconds steadyNow steadyLater,
      ideal primitives ((sessions primitives).exec (.start serviceId config clock) as)
        (.finishAuthentication source deviceId clientNonce clientProof nowUnixSeconds steadyNow
          steadyLater) →
      Consumes primitives ((sessions primitives).exec (.start serviceId config clock) as) source
        deviceId clientNonce clientProof nowUnixSeconds steadyNow steadyLater) ∧
    (∀ source deviceId store nonce nowUnixSeconds steadyNow,
      (beginNext ((sessions primitives).exec (.start serviceId config clock) as) source deviceId
        store nonce nowUnixSeconds steadyNow).2.ledger.refunded =
        ((sessions primitives).exec (.start serviceId config clock) as).ledger.refunded) ∧
    ∀ id now, RefundsOwn ((sessions primitives).exec (.start serviceId config clock) as).ledger id
      now := by
  have hmatched : Matched ((sessions primitives).exec (.start serviceId config clock) as) := by
    refine h.invariant ?_ fun s a hs he _ => matched_next hs he
    exact ⟨retained_start config clock, fun _ _ _ _ hp => (by cases hp),
      fun _ hb => absurd hb List.not_mem_nil, fun _ hb => absurd hb List.not_mem_nil,
      fun _ hb => absurd hb List.not_mem_nil, fun _ _ _ _ hi => (by cases hi)⟩
  generalize (sessions primitives).exec (.start serviceId config clock) as = s at hmatched ⊢
  refine ⟨fun _ _ _ _ _ _ _ hideal => consumes hmatched hideal, ?_,
    fun id now => refundsOwn hmatched.ledger id now⟩
  intro source deviceId store nonce nowUnixSeconds steadyNow
  have hb := @began s source deviceId store nonce nowUnixSeconds steadyNow
  generalize (beginNext s source deviceId store nonce nowUnixSeconds steadyNow).2 = s' at hb ⊢
  cases hb with
  | refused ledger hledger =>
    rcases hledger with rfl | rfl
    · rfl
    · exact refunded_begin
  | begun => exact refunded_begin

def sessionPrimitives : Primitives :=
  { Integrity.summing with
    hkdfSha256 := fun _ _ _ => ⟨List.replicate _ 0, List.length_replicate⟩ }

theorem length_filled (b : UInt8) : (List.replicate 32 b).length = 32 := List.length_replicate

def filled (b : UInt8) : Key32 := ⟨List.replicate 32 b, length_filled b⟩

def aService : Bytes := List.replicate 16 0x61
def aPhone : Bytes := List.replicate 16 0x62

/-- A phone is challenged twice, the first challenge unanswered. -/
def challengedTwice : List Action :=
  [.beginAuthentication [1] aPhone (fun _ => .ok ⟨filled 7, 0, uint64Max⟩) (.ok (filled 4)) 100 0,
    .beginAuthentication [1] aPhone (fun _ => .ok ⟨filled 7, 0, uint64Max⟩) (.ok (filled 5)) 105 5]

/-- The proof of the phone for the second. -/
def secondProof : Proof :=
  let input := authenticationInput false aService aPhone (filled 5) (filled 9)
  { value := sessionPrimitives.hmacSha256 (filled 7) input, origin := some (filled 7, input) }

theorem authentications_of_challengedTwice :
    let s := (sessions sessionPrimitives).exec (.start aService {} 0) challengedTwice
    (finishNext sessionPrimitives s [1] aPhone (filled 9) secondProof.value 114 6 6).1.isOk = true ∧
      Consumes sessionPrimitives s [1] aPhone (filled 9) secondProof 114 6 6 := by
  have hclock : ((sessions sessionPrimitives).exec (.start aService {} 0)
      (challengedTwice.take 1)).ledger.clock ≤ 5 := by decide +kernel
  have hlegal : (sessions sessionPrimitives).Legal (ideal sessionPrimitives) (.start aService {} 0)
      challengedTwice := ⟨Int.le_refl 0, trivial, hclock, trivial, trivial⟩
  have hpending : ((sessions sessionPrimitives).exec (.start aService {} 0)
      challengedTwice).security.pending (pendingKey [1] aPhone) =
      some ⟨⟨filled 7, 0, uint64Max⟩, ⟨filled 5, 115⟩⟩ := by decide +kernel
  refine ⟨by decide +kernel, (authentications_of_run sessionPrimitives aService {} 0 challengedTwice
    hlegal).1 _ _ _ _ _ _ _ fun p hp _ => ?_⟩
  obtain rfl := Option.some.inj (hpending.symm.trans hp)
  rfl

end RemoteCam.Security.SessionAttempts
