import RemoteCam.Security.Protector

/-! # Authentication of a paired phone

`StoredSessionSecurity`: `beginAuthentication` selects the pairing record and remembers it with a
fresh nonce under the source address and the device id, `finishAuthentication` takes what is
remembered there and checks the proof. HKDF is a parameter beside the other primitives; what the
store, the random source and the attempt policy answer is an argument of each call. -/

namespace RemoteCam.Security.StoredSessionSecurity

open RemoteCam.Lib RemoteCam.Security.Protector

abbrev Nonce32 := FixedBytes 32

inductive Error where
  | invalidArgument
  | cryptoFailure
  | authenticationFailed
  | expired
  | rateLimited
  | notFound
  | storageFailure
  | corruptRecord
  deriving DecidableEq, Repr

def uint64Max : ℕ := 2 ^ 64 - 1
def kMaximumSessionLifetimeSeconds : ℕ := 24 * 60 * 60

/-- The bytes of the six channels. -/
def kMaterialBytes : ℕ := 6 * 36

structure Primitives extends Crypto where
  /-- From key, salt and info. -/
  hkdfSha256 : Key32 → Bytes → Bytes → FixedBytes kMaterialBytes

/-! ### Proofs and keys -/

/-- 16 lowercase hexadecimal digits. -/
def validCanonicalId (value : Bytes) : Bool :=
  value.length = 16 ∧ value.all fun c => (0x30 ≤ c ∧ c ≤ 0x39) ∨ (0x61 ≤ c ∧ c ≤ 0x66)

def appendLittleEndian64 (value : ℕ) : Bytes := (BigEndian.write 8 value).reverse

def appendLengthPrefixed (value : Bytes) : Bytes := appendLittleEndian64 value.length ++ value

def clientDomain : Bytes := asciiBytes "RemoteCam client authentication proof v1"
def serverDomain : Bytes := asciiBytes "RemoteCam server authentication proof v1"
def sessionKeysDomain : Bytes := asciiBytes "RemoteCam session keys v1"

def authenticationInput (fromServer : Bool) (serviceId deviceId : Bytes)
    (serverNonce clientNonce : Nonce32) : Bytes :=
  (if fromServer then serverDomain else clientDomain) ++ appendLengthPrefixed deviceId ++
    appendLengthPrefixed serviceId ++ serverNonce.1 ++ clientNonce.1

variable (primitives : Primitives)

def makeAuthenticationProof (pairingKey : Key32) (fromServer : Bool) (serviceId deviceId : Bytes)
    (serverNonce clientNonce : Nonce32) : Except Error Key32 :=
  if !validCanonicalId serviceId || !validCanonicalId deviceId then .error .invalidArgument
  else
    .ok (primitives.hmacSha256 pairingKey
      (authenticationInput fromServer serviceId deviceId serverNonce clientNonce))

/-- The keys of the channel at an offset of the material. -/
def channelKeysAt (material : FixedBytes kMaterialBytes) (channel : Fin 6) : ChannelKeys where
  key := ⟨(material.1.drop (36 * channel)).take 32, by
    rw [List.length_take, List.length_drop, material.2, kMaterialBytes]
    omega⟩
  noncePrefix := ⟨(material.1.drop (36 * channel + 32)).take 4, by
    rw [List.length_take, List.length_drop, material.2, kMaterialBytes]
    omega⟩

def deriveSessionKeys (pairingKey : Key32) (serviceId deviceId : Bytes)
    (serverNonce clientNonce : Nonce32) : Except Error SessionKeys :=
  if !validCanonicalId serviceId || !validCanonicalId deviceId then .error .invalidArgument
  else
    let material := primitives.hkdfSha256 pairingKey (serverNonce.1 ++ clientNonce.1)
      (sessionKeysDomain ++ appendLengthPrefixed deviceId ++ appendLengthPrefixed serviceId)
    .ok
      { controlAtoB := channelKeysAt material 0
        controlBtoA := channelKeysAt material 1
        videoAtoB := channelKeysAt material 2
        videoBtoA := channelKeysAt material 3
        statsAtoB := channelKeysAt material 4
        statsBtoA := channelKeysAt material 5 }

/-- The protector and when it expires. -/
def createSessionProtector (role : SessionRole) (keys : SessionKeys) (nowUnixSeconds : ℕ) :
    Except Error (SessionProtector × ℕ) :=
  if nowUnixSeconds > uint64Max - kMaximumSessionLifetimeSeconds then .error .invalidArgument
  else .ok (.create role keys, nowUnixSeconds + kMaximumSessionLifetimeSeconds)

/-! ### The two halves of an authentication -/

structure PairingRecord where
  key : Key32
  createdUnixSeconds : ℕ
  /-- `uint64Max` for a record that does not expire. -/
  expiresUnixSeconds : ℕ
  deriving DecidableEq, Repr

structure AuthenticationChallenge where
  serverNonce : Nonce32
  expiresUnixSeconds : ℕ
  deriving DecidableEq, Repr

structure Pending where
  record : PairingRecord
  challenge : AuthenticationChallenge
  deriving DecidableEq, Repr

/-- The state behind the interface. -/
structure Impl where
  serviceId : Bytes
  pending : Bytes → Option Pending := fun _ => none

structure AuthenticationResult where
  serverProof : Key32
  protector : SessionProtector
  expiresUnixSeconds : ℕ

def pendingKey (source deviceId : Bytes) : Bytes := source ++ 0 :: deviceId

def PairingRecord.expiredAt (record : PairingRecord) (nowUnixSeconds : ℕ) : Bool :=
  record.expiresUnixSeconds ≠ uint64Max ∧ record.expiresUnixSeconds ≤ nowUnixSeconds

/-- What the attempt policy and the random source answer. -/
structure Draw where
  allowed : Bool
  nonce : Except Error Nonce32

def beginAuthentication (security : Impl)
    (store : Bytes → Except Error PairingRecord) (draw : Draw) (source deviceId : Bytes)
    (nowUnixSeconds : ℕ) : Except Error AuthenticationChallenge × Impl :=
  if source = [] ∨ source.length > 256 ∨ !validCanonicalId security.serviceId ∨
      !validCanonicalId deviceId ∨ nowUnixSeconds > uint64Max - 10 then
    (.error .invalidArgument, security)
  else if !draw.allowed then (.error .rateLimited, security)
  else
    match store deviceId, draw.nonce with
    | .error error, _ => (.error error, security)
    | .ok record, nonce =>
      if record.expiredAt nowUnixSeconds then (.error .expired, security)
      else
        match nonce with
        | .error error => (.error error, security)
        | .ok serverNonce =>
          let challenge := { serverNonce, expiresUnixSeconds := nowUnixSeconds + 10 }
          (.ok challenge,
            { security with
              pending := Function.update security.pending (pendingKey source deviceId)
                (some { record, challenge }) })

/-- The challenge has not expired, nor the record, and the proof is the one of the nonce. -/
def Pending.admits (serviceId deviceId : Bytes) (clientNonce : Nonce32) (clientProof : Key32)
    (nowUnixSeconds : ℕ) (p : Pending) : Bool :=
  nowUnixSeconds < p.challenge.expiresUnixSeconds && !p.record.expiredAt nowUnixSeconds &&
    match makeAuthenticationProof primitives p.record.key false serviceId deviceId
      p.challenge.serverNonce clientNonce with
    | .ok expectedClientProof => expectedClientProof = clientProof
    | .error _ => false

/-- `finishAuthentication` after the proof is verified. -/
def authenticated (p : Pending) (serviceId deviceId : Bytes) (clientNonce : Nonce32)
    (nowUnixSeconds : ℕ) : Except Error AuthenticationResult := do
  let serverProof ← makeAuthenticationProof primitives p.record.key true serviceId deviceId
    p.challenge.serverNonce clientNonce
  let keys ← deriveSessionKeys primitives p.record.key serviceId deviceId
    p.challenge.serverNonce clientNonce
  let (protector, expiresUnixSeconds) ← createSessionProtector .server keys nowUnixSeconds
  .ok { serverProof, protector, expiresUnixSeconds }

/-- `finishAuthentication` with the challenge it has taken. -/
def finishPending (p : Pending) (serviceId deviceId : Bytes) (clientNonce : Nonce32)
    (clientProof : Key32) (nowUnixSeconds : ℕ) : Except Error AuthenticationResult :=
  if nowUnixSeconds ≥ p.challenge.expiresUnixSeconds ∨ p.record.expiredAt nowUnixSeconds then
    .error .expired
  else do
    let expectedClientProof ← makeAuthenticationProof primitives p.record.key false serviceId
      deviceId p.challenge.serverNonce clientNonce
    if expectedClientProof ≠ clientProof then .error .authenticationFailed
    else authenticated primitives p serviceId deviceId clientNonce nowUnixSeconds

/-- An attempt that nobody began is charged, too. -/
def unsolicited (draw : Draw) : Error := if draw.allowed then .authenticationFailed else .rateLimited

def finishAuthentication (security : Impl) (draw : Draw) (source deviceId : Bytes)
    (clientNonce : Nonce32) (clientProof : Key32) (nowUnixSeconds : ℕ) :
    Except Error AuthenticationResult × Impl :=
  if source = [] ∨ source.length > 256 ∨ !validCanonicalId deviceId then
    (.error .invalidArgument, security)
  else
    match security.pending (pendingKey source deviceId) with
    | none => (.error (unsolicited draw), security)
    | some p =>
      (finishPending primitives p security.serviceId deviceId clientNonce clientProof
        nowUnixSeconds,
        { security with
          pending := Function.update security.pending (pendingKey source deviceId) none })

/-! ### What the calls leave -/

variable {primitives} {security : Impl}
  {store : Bytes → Except Error PairingRecord} {draw : Draw} {source deviceId : Bytes}
  {nowUnixSeconds : ℕ}

/-- **A challenge is remembered under its source and device id; a refusal changes nothing.** -/
theorem beginAuthentication_spec :
    (∃ challenge record,
      beginAuthentication security store draw source deviceId nowUnixSeconds =
        (.ok challenge,
          { security with
            pending := Function.update security.pending (pendingKey source deviceId)
              (some { record, challenge }) }) ∧ store deviceId = .ok record) ∨
    ∃ error, beginAuthentication security store draw source deviceId nowUnixSeconds =
      (.error error, security) := by
  unfold beginAuthentication
  split_ifs
  · exact .inr ⟨_, rfl⟩
  · exact .inr ⟨_, rfl⟩
  · cases hstore : store deviceId with
    | error error => exact .inr ⟨_, rfl⟩
    | ok record =>
      dsimp only
      split_ifs
      · exact .inr ⟨_, rfl⟩
      · cases draw.nonce with
        | error error => exact .inr ⟨_, rfl⟩
        | ok serverNonce => exact .inl ⟨_, _, rfl, rfl⟩

theorem finishPending_ok {p : Pending} {serviceId : Bytes} {clientNonce : Nonce32}
    {clientProof : Key32} {result : AuthenticationResult}
    (h : finishPending primitives p serviceId deviceId clientNonce clientProof nowUnixSeconds =
      .ok result) :
    p.admits primitives serviceId deviceId clientNonce clientProof nowUnixSeconds = true := by
  unfold finishPending at h
  split_ifs at h with hexpired
  push Not at hexpired
  unfold Pending.admits
  cases hproof : makeAuthenticationProof primitives p.record.key false serviceId deviceId
    p.challenge.serverNonce clientNonce with
  | error error =>
    rw [hproof] at h
    cases h
  | ok expected =>
    rw [hproof] at h
    change (if _ then _ else _ : Except Error AuthenticationResult) = _ at h
    split_ifs at h with hne
    simpa [hexpired.1, hexpired.2] using hne

/-- **An authentication that succeeds finds a challenge that admits its proof.** -/
theorem admits_of_finish {clientNonce : Nonce32} {clientProof : Key32}
    {result : AuthenticationResult}
    (h : (finishAuthentication primitives security draw source deviceId clientNonce clientProof
      nowUnixSeconds).1 = .ok result) :
    ∃ p, security.pending (pendingKey source deviceId) = some p ∧
      p.admits primitives security.serviceId deviceId clientNonce clientProof nowUnixSeconds =
        true := by
  unfold finishAuthentication at h
  split_ifs at h
  cases hp : security.pending (pendingKey source deviceId) with
  | none =>
    rw [hp] at h
    cases h
  | some p =>
    rw [hp] at h
    exact ⟨p, rfl, finishPending_ok h⟩

theorem serviceId_finish {clientNonce : Nonce32} {clientProof : Key32} :
    (finishAuthentication primitives security draw source deviceId clientNonce clientProof
      nowUnixSeconds).2.serviceId = security.serviceId := by
  unfold finishAuthentication
  split_ifs
  · rfl
  · cases security.pending (pendingKey source deviceId) <;> rfl

/-- The proof that a challenge admits. -/
theorem proof_of_admits {clientNonce : Nonce32} {clientProof : Key32} {serviceId : Bytes}
    {p : Pending}
    (h : p.admits primitives serviceId deviceId clientNonce clientProof nowUnixSeconds = true) :
    makeAuthenticationProof primitives p.record.key false serviceId deviceId
      p.challenge.serverNonce clientNonce = .ok clientProof := by
  unfold Pending.admits at h
  rw [Bool.and_eq_true] at h
  cases hproof : makeAuthenticationProof primitives p.record.key false serviceId deviceId
    p.challenge.serverNonce clientNonce with
  | error error =>
    rw [hproof] at h
    cases h.2
  | ok expected =>
    rw [hproof] at h
    have heq : expected = clientProof := by simpa using h.2
    rw [heq]

end RemoteCam.Security.StoredSessionSecurity
