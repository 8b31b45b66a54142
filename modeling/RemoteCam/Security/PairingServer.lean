import RemoteCam.Security.Spake2

/-! # Pairing

`PairingServer` of `spake2.cpp`: `begin` draws the salt and the server's half of SPAKE2 (role B),
`receiveCommit` takes the phone's public value, `verifyPeer` its confirmation. Scrypt is a parameter
beside the hash functions; what the random source draws, and a failure that OpenSSL reports, is an
argument of each call. -/

namespace RemoteCam.Security.PairingServer

open RemoteCam.Lib
open RemoteCam.Security.Protector (Bytes Key32 FixedBytes asciiBytes)
open RemoteCam.Security.StoredSessionSecurity (appendLengthPrefixed uint64Max validCanonicalId)
open RemoteCam.Security.Spake2

/-! ### Data -/

inductive Error where
  | invalidArgument
  | cryptoFailure
  | invalidPoint
  | authenticationFailed
  | expired
  deriving DecidableEq, Repr

def ofSpake : Spake2.Error → Error
  | .invalidArgument => .invalidArgument
  | .cryptoFailure => .cryptoFailure
  | .invalidPoint => .invalidPoint

abbrev Salt16 := FixedBytes 16

def kPairingLifetimeSeconds : ℕ := 120
def kPairingDomain : Bytes := asciiBytes "RemoteCam SPAKE2 pairing v1"
def kRecordDomain : Bytes := asciiBytes "RemoteCam long-term pairing key v1"

structure Primitives extends Hashes where
  /-- From code and salt, with N = 32768, r = 8, p = 1. -/
  scrypt : Bytes → Salt16 → FixedBytes 40

structure PairingOffer where
  salt : Salt16
  publicValueB : Point65
  expiresUnixSeconds : ℕ
  deriving DecidableEq, Repr

structure PairingRecord where
  serviceId : Bytes
  deviceId : Bytes
  key : Key32
  createdUnixSeconds : ℕ
  /-- `uint64Max` for a record that does not expire. -/
  expiresUnixSeconds : ℕ
  deriving DecidableEq, Repr

def pairingAad (salt : Salt16) : Bytes := kPairingDomain ++ salt.1

variable {Point : Type} [AddCommGroup Point] [DecidableEq Point] (c : Curve Point)

/-- `PairingServer::Impl`. -/
structure Impl where
  serviceId : Bytes
  deviceId : Bytes
  offer : PairingOffer
  spake : Spake2P256 c
  secrets : Option Spake2Secrets := none
  verified : Bool := false

variable (primitives : Primitives)

/-! ### The calls -/

def isDigit (character : UInt8) : Bool := 0x30 ≤ character ∧ character ≤ 0x39

def derivePasswordScalar (sixDigitCode : Bytes) (salt : Salt16) : Except Spake2.Error Key32 :=
  if sixDigitCode.length ≠ 6 ∨ !sixDigitCode.all isDigit then .error .invalidArgument
  else
    let reduced := BigEndian.read (primitives.scrypt sixDigitCode salt).1 % c.order
    if reduced = 0 then .error .cryptoFailure else bn2binpad reduced

/-- `salt` and `ephemeral` are drawn. -/
def begin (serviceId deviceId sixDigitCode : Bytes) (nowUnixSeconds : ℕ) (salt : Salt16)
    (ephemeral : Key32) : Except Error (Impl c) :=
  if !validCanonicalId serviceId ∨ !validCanonicalId deviceId ∨
      nowUnixSeconds > uint64Max - kPairingLifetimeSeconds then
    .error .invalidArgument
  else do
    let password ← (derivePasswordScalar c primitives sixDigitCode salt).mapError ofSpake
    let exchange ← (createDeterministic c .B deviceId serviceId (pairingAad salt) password
      ephemeral).mapError ofSpake
    return {
      serviceId, deviceId
      offer :=
        { salt
          publicValueB := exchange.publicValue
          expiresUnixSeconds := nowUnixSeconds + kPairingLifetimeSeconds }
      spake := exchange }

variable {c}

/-- `finish` with a library that may fail in it, before anything is written. -/
def finish (s : Spake2P256 c) (peerPublicValue : Point65) (failure : Option Spake2.Error) :
    Except Spake2.Error Spake2Secrets × Spake2P256 c :=
  if s.finished then (.error .invalidArgument, s)
  else
    match failure with
    | some error => (.error error, s)
    | none => s.finish primitives.toHashes peerPublicValue

def receiveCommit (s : Impl c) (publicValueA : Point65) (failure : Option Spake2.Error) :
    Except Error Key32 × Impl c :=
  if s.secrets.isSome then (.error .invalidArgument, s)
  else
    match finish primitives s.spake publicValueA failure with
    | (.error error, spake) => (.error (ofSpake error), { s with spake })
    | (.ok secrets, spake) =>
      (.ok secrets.confirmationB, { s with spake, secrets := some secrets })

/-- The key that both ends derive, from the shared secret, the salt and the two names. -/
def longTermKey (salt : Salt16) (deviceId serviceId : Bytes) (secrets : Spake2Secrets) : Key32 :=
  primitives.hkdfSha256 secrets.sharedSecret salt.1
    (kRecordDomain ++ appendLengthPrefixed deviceId ++ appendLengthPrefixed serviceId)

def paired (s : Impl c) (secrets : Spake2Secrets) (nowUnixSeconds : ℕ) : PairingRecord where
  serviceId := s.serviceId
  deviceId := s.deviceId
  key := longTermKey primitives s.offer.salt s.deviceId s.serviceId secrets
  createdUnixSeconds := nowUnixSeconds
  expiresUnixSeconds := uint64Max

def verifyPeer (s : Impl c) (confirmationA : Key32) (nowUnixSeconds : ℕ)
    (failure : Option Error) : Except Error PairingRecord × Impl c :=
  match s.secrets with
  | none => (.error .invalidArgument, s)
  | some secrets =>
    if s.verified then (.error .invalidArgument, s)
    else if nowUnixSeconds ≥ s.offer.expiresUnixSeconds then (.error .expired, s)
    else if confirmationA ≠ secrets.confirmationA then (.error .authenticationFailed, s)
    else
      match failure with
      | some error => (.error error, s)
      | none => (.ok (paired primitives s secrets nowUnixSeconds), { s with verified := true })

/-! ### Sequences of calls -/

inductive Call where
  | receiveCommit (publicValueA : Point65) (failure : Option Spake2.Error)
  | verifyPeer (confirmationA : Key32) (nowUnixSeconds : ℕ) (failure : Option Error)
  deriving DecidableEq, Repr

inductive Reply where
  | confirmation (confirmationB : Key32)
  | record (record : PairingRecord)
  | error (error : Error)
  deriving DecidableEq, Repr

def call (s : Impl c) : Call → Reply × Impl c
  | .receiveCommit publicValueA failure =>
    match receiveCommit primitives s publicValueA failure with
    | (.ok confirmationB, s) => (.confirmation confirmationB, s)
    | (.error error, s) => (.error error, s)
  | .verifyPeer confirmationA nowUnixSeconds failure =>
    match verifyPeer primitives s confirmationA nowUnixSeconds failure with
    | (.ok record, s) => (.record record, s)
    | (.error error, s) => (.error error, s)

/-- The server after the calls. -/
def after (s : Impl c) (calls : List Call) : Impl c :=
  calls.foldl (fun s a => (call primitives s a).2) s

/-- The calls with their replies. -/
def trace : Impl c → List Call → List (Call × Reply)
  | _, [] => []
  | s, a :: calls => (a, (call primitives s a).1) :: trace (call primitives s a).2 calls

/-- The public values of the commits that succeeded. -/
def commits (replies : List (Call × Reply)) : List Point65 :=
  replies.filterMap fun
    | (.receiveCommit publicValueA _, .confirmation _) => some publicValueA
    | _ => none

def records (replies : List (Call × Reply)) : List PairingRecord :=
  replies.filterMap fun
    | (_, .record record) => some record
    | _ => none

/-! ### What is asked for -/

/-- The call that produces a record: it is the first, after one commit, in time and with that
commit's confirmation. -/
structure Produced (server : Impl c) (before : List Call) (a : Call)
    (record : PairingRecord) : Prop where
  first : records (trace primitives server before) = []
  committed : ∃ publicValueA secrets confirmationA nowUnixSeconds,
    commits (trace primitives server before) = [publicValueA] ∧
    (server.spake.finish primitives.toHashes publicValueA).1 = .ok secrets ∧
    a = .verifyPeer confirmationA nowUnixSeconds none ∧
    nowUnixSeconds < server.offer.expiresUnixSeconds ∧ confirmationA = secrets.confirmationA ∧
    record = paired primitives server secrets nowUnixSeconds

/-- A client of role A with the same password ends with the same key: its commit and its
confirmation are taken when no commit has been taken before, and if its commit was taken the key of
every record is its key. -/
def Agrees (server : Impl c) (calls : List Call) (phone : Spake2P256 c) : Prop :=
  ∃ secrets, (phone.finish primitives.toHashes server.offer.publicValueB).1 = .ok secrets ∧
    (commits (trace primitives server calls) = [] →
      ∀ nowUnixSeconds < server.offer.expiresUnixSeconds,
        (trace primitives (after primitives server calls)
          [.receiveCommit phone.publicValue none,
            .verifyPeer secrets.confirmationA nowUnixSeconds none]).map Prod.snd =
          [.confirmation secrets.confirmationB,
            .record (paired primitives server secrets nowUnixSeconds)]) ∧
    (commits (trace primitives server calls) = [phone.publicValue] →
      ∀ record ∈ records (trace primitives server calls), record.key =
        longTermKey primitives server.offer.salt server.deviceId server.serviceId secrets)

/-- What is promised of every sequence of calls after `begin`. -/
structure Paired (sixDigitCode : Bytes) (server : Impl c) (calls : List Call) : Prop where
  atMostOne : (records (trace primitives server calls)).length ≤ 1
  produced : ∀ before a rest record, calls = before ++ a :: rest →
    (call primitives (after primitives server before) a).1 = .record record →
    Produced primitives server before a record
  unchanged : ∀ before a rest error, calls = before ++ a :: rest →
    (call primitives (after primitives server before) a).1 = .error error →
    (call primitives (after primitives server before) a).2 = after primitives server before
  agrees : ∀ password ephemeral phone,
    derivePasswordScalar c primitives sixDigitCode server.offer.salt = .ok password →
    createDeterministic c .A server.deviceId server.serviceId (pairingAad server.offer.salt)
      password ephemeral = .ok phone →
    Agrees primitives server calls phone

/-! ### One call -/

variable {primitives} {server s : Impl c}

theorem finish_error {spake spake' : Spake2P256 c} {peerPublicValue : Point65}
    {failure : Option Spake2.Error} {error : Spake2.Error}
    (h : finish primitives spake peerPublicValue failure = (.error error, spake')) :
    spake' = spake := by
  unfold finish at h
  split_ifs at h
  · exact (congrArg Prod.snd h).symm
  · cases failure with
    | some error => exact (congrArg Prod.snd h).symm
    | none =>
      dsimp only at h
      unfold Spake2P256.finish at h
      cases hsecrets : spake.secrets primitives.toHashes peerPublicValue with
      | error error =>
        rw [hsecrets] at h
        exact (congrArg Prod.snd h).symm
      | ok secrets =>
        rw [hsecrets] at h
        cases congrArg Prod.fst h

theorem finish_ok {spake spake' : Spake2P256 c} {peerPublicValue : Point65}
    {failure : Option Spake2.Error} {secrets : Spake2Secrets}
    (h : finish primitives spake peerPublicValue failure = (.ok secrets, spake')) :
    failure = none ∧ spake.finish primitives.toHashes peerPublicValue = (.ok secrets, spake') := by
  unfold finish at h
  split_ifs at h
  · cases congrArg Prod.fst h
  · cases failure with
    | some error => cases congrArg Prod.fst h
    | none => exact ⟨rfl, h⟩

/-- **What a call can do**: fail and change nothing, take the one commit, or produce the record. -/
theorem call_cases (s : Impl c) (a : Call) :
    (∃ error, call primitives s a = (.error error, s)) ∨
    (∃ publicValueA secrets spake, a = .receiveCommit publicValueA none ∧ s.secrets = none ∧
      s.spake.finish primitives.toHashes publicValueA = (.ok secrets, spake) ∧
      call primitives s a =
        (.confirmation secrets.confirmationB, { s with spake, secrets := some secrets })) ∨
    ∃ confirmationA nowUnixSeconds secrets, a = .verifyPeer confirmationA nowUnixSeconds none ∧
      s.secrets = some secrets ∧ s.verified = false ∧
      nowUnixSeconds < s.offer.expiresUnixSeconds ∧ confirmationA = secrets.confirmationA ∧
      call primitives s a =
        (.record (paired primitives s secrets nowUnixSeconds), { s with verified := true }) := by
  cases a with
  | receiveCommit publicValueA failure =>
    unfold call receiveCommit
    split_ifs with hsome
    · exact .inl ⟨_, rfl⟩
    · dsimp only
      obtain ⟨result, spake, hfinish⟩ :
          ∃ result spake, finish primitives s.spake publicValueA failure = (result, spake) :=
        ⟨_, _, rfl⟩
      rw [hfinish]
      cases result with
      | error error =>
        rw [finish_error hfinish]
        exact .inl ⟨_, rfl⟩
      | ok secrets =>
        obtain ⟨rfl, hok⟩ := finish_ok hfinish
        exact .inr (.inl ⟨publicValueA, secrets, spake, rfl, Option.not_isSome_iff_eq_none.mp hsome,
          hok, rfl⟩)
  | verifyPeer confirmationA nowUnixSeconds failure =>
    unfold call verifyPeer
    cases hsecrets : s.secrets with
    | none => exact .inl ⟨_, rfl⟩
    | some secrets =>
      dsimp only
      split_ifs with hverified hexpired hwrong
      · exact .inl ⟨_, rfl⟩
      · exact .inl ⟨_, rfl⟩
      · exact .inl ⟨_, rfl⟩
      · cases failure with
        | some error => exact .inl ⟨_, rfl⟩
        | none =>
          exact .inr (.inr ⟨confirmationA, nowUnixSeconds, secrets, rfl, rfl,
            Bool.eq_false_iff.mpr hverified, Nat.lt_of_not_le hexpired, not_not.mp hwrong, rfl⟩)

theorem call_error {a : Call} {error : Error} (h : (call primitives s a).1 = .error error) :
    (call primitives s a).2 = s := by
  obtain ⟨error', hcall⟩ | ⟨_, _, _, -, -, -, hcall⟩ | ⟨_, _, _, -, -, -, -, -, hcall⟩ :=
    @call_cases Point _ _ c primitives s a
  · rw [hcall]
  · rw [hcall] at h
    cases h
  · rw [hcall] at h
    cases h

/-! ### The stages of a pairing -/

/-- What the replies so far tell of the server. -/
inductive Stage (primitives : Primitives) (server : Impl c) (replies : List (Call × Reply)) :
    Impl c → Prop
  | offered (hcommits : commits replies = []) (hrecords : records replies = []) :
      Stage primitives server replies server
  | committed (publicValueA : Point65) (secrets : Spake2Secrets) (spake : Spake2P256 c)
      (hfinish : (server.spake.finish primitives.toHashes publicValueA).1 = .ok secrets)
      (hcommits : commits replies = [publicValueA]) (hrecords : records replies = []) :
      Stage primitives server replies { server with spake, secrets := some secrets }
  | done (publicValueA : Point65) (secrets : Spake2Secrets) (spake : Spake2P256 c)
      (nowUnixSeconds : ℕ)
      (hfinish : (server.spake.finish primitives.toHashes publicValueA).1 = .ok secrets)
      (hcommits : commits replies = [publicValueA])
      (hrecords : records replies = [paired primitives server secrets nowUnixSeconds]) :
      Stage primitives server replies
        { server with spake, secrets := some secrets, verified := true }

theorem commits_append (replies replies' : List (Call × Reply)) :
    commits (replies ++ replies') = commits replies ++ commits replies' :=
  List.filterMap_append

theorem records_append (replies replies' : List (Call × Reply)) :
    records (replies ++ replies') = records replies ++ records replies' :=
  List.filterMap_append

theorem commits_error (a : Call) (error : Error) : commits [(a, .error error)] = [] := by
  cases a <;> rfl

theorem after_append (calls calls' : List Call) :
    after primitives s (calls ++ calls') = after primitives (after primitives s calls) calls' :=
  List.foldl_append

theorem trace_append (calls calls' : List Call) :
    trace primitives s (calls ++ calls') =
      trace primitives s calls ++ trace primitives (after primitives s calls) calls' := by
  induction calls generalizing s with
  | nil => rfl
  | cons a calls ih =>
    rw [List.cons_append, trace, trace, ih, List.cons_append]
    rfl

/-- A call of a server that has been begun leads from stage to stage. -/
theorem Stage.step {replies : List (Call × Reply)} (hsecrets : server.secrets = none)
    (h : Stage primitives server replies s) (a : Call) :
    Stage primitives server (replies ++ [(a, (call primitives s a).1)])
      (call primitives s a).2 := by
  obtain ⟨error, hcall⟩ | ⟨publicValueA, secrets, spake, rfl, hnone, hfinish, hcall⟩ |
    ⟨confirmationA, nowUnixSeconds, secrets, rfl, hsome, hfresh, hnow, hconfirmation, hcall⟩ :=
    @call_cases Point _ _ c primitives s a
  · -- Nothing is taken and nothing produced.
    have hcommits : commits (replies ++ [(a, (call primitives s a).1)]) = commits replies := by
      rw [commits_append, hcall, commits_error, List.append_nil]
    have hrecords : records (replies ++ [(a, (call primitives s a).1)]) = records replies := by
      rw [records_append, hcall]
      exact List.append_nil _
    rw [show (call primitives s a).2 = s from congrArg Prod.snd hcall]
    cases h with
    | offered hc hr => exact .offered (hcommits.trans hc) (hrecords.trans hr)
    | committed publicValueA secrets spake hfinish hc hr =>
      exact .committed publicValueA secrets spake hfinish (hcommits.trans hc) (hrecords.trans hr)
    | done publicValueA secrets spake nowUnixSeconds hfinish hc hr =>
      exact .done publicValueA secrets spake nowUnixSeconds hfinish (hcommits.trans hc)
        (hrecords.trans hr)
  · rw [hcall]
    cases h with
    | offered hc hr =>
      exact .committed publicValueA secrets spake (congrArg Prod.fst hfinish)
        (by rw [commits_append, hc]; rfl) (by rw [records_append, hr]; rfl)
    | committed _ _ _ _ _ _ => cases hnone
    | done _ _ _ _ _ _ _ => cases hnone
  · rw [hcall]
    cases h with
    | offered hc hr => cases hsecrets.symm.trans hsome
    | committed publicValueA secrets' spake hfinish hc hr =>
      cases hsome
      exact .done publicValueA secrets spake nowUnixSeconds hfinish
        (by rw [commits_append, hc]; rfl) (by rw [records_append, hr]; rfl)
    | done _ _ _ _ _ _ _ => cases hfresh

theorem stage_run (hsecrets : server.secrets = none) (calls : List Call) :
    Stage primitives server (trace primitives server calls) (after primitives server calls) := by
  induction calls using List.reverseRecOn with
  | nil => exact .offered rfl rfl
  | append_singleton calls a ih =>
    rw [trace_append, after_append]
    exact ih.step hsecrets a

theorem Stage.length_records {replies : List (Call × Reply)}
    (h : Stage primitives server replies s) : (records replies).length ≤ 1 := by
  cases h with
  | offered _ hr =>
    rw [hr]
    exact Nat.zero_le _
  | committed _ _ _ _ _ hr =>
    rw [hr]
    exact Nat.zero_le _
  | done _ _ _ _ _ _ hr =>
    rw [hr]
    exact Nat.le_refl _

/-- A record is produced after a commit and once. -/
theorem produced_of_call (hsecrets : server.secrets = none) {before : List Call} {a : Call}
    {record : PairingRecord}
    (h : (call primitives (after primitives server before) a).1 = .record record) :
    Produced primitives server before a record := by
  have hstage : Stage primitives server (trace primitives server before)
      (after primitives server before) := stage_run hsecrets before
  obtain ⟨error, hcall⟩ | ⟨_, _, _, -, -, -, hcall⟩ |
    ⟨confirmationA, nowUnixSeconds, secrets, rfl, hsome, hfresh, hnow, hconfirmation, hcall⟩ :=
    @call_cases Point _ _ c primitives (after primitives server before) a
  · rw [hcall] at h
    cases h
  · rw [hcall] at h
    cases h
  · rw [hcall] at h
    have hrecord := Reply.record.inj h
    generalize after primitives server before = s at *
    cases hstage with
    | offered => cases hsecrets.symm.trans hsome
    | committed publicValueA secrets' spake hfinish hc hr =>
      cases hsome
      exact ⟨hr, publicValueA, secrets, confirmationA, nowUnixSeconds, hc, hfinish, rfl, hnow,
        hconfirmation, hrecord.symm⟩
    | done => cases hfresh

/-! ### The other end -/

theorem finished_of_finish {spake : Spake2P256 c} {peerPublicValue : Point65}
    {secrets : Spake2Secrets}
    (h : (spake.finish primitives.toHashes peerPublicValue).1 = .ok secrets) :
    spake.finished = false := by
  have hsecrets := secrets_of_finish h
  unfold Spake2P256.secrets at hsecrets
  split_ifs at hsecrets with hfinished
  exact Bool.eq_false_iff.mpr hfinished

/-- A first commit and its confirmation, in time. -/
theorem replies_of_finish (hsecrets : server.secrets = none) (hverified : server.verified = false)
    {publicValueA : Point65} {secrets : Spake2Secrets} {nowUnixSeconds : ℕ}
    (hfinish : (server.spake.finish primitives.toHashes publicValueA).1 = .ok secrets)
    (hnow : nowUnixSeconds < server.offer.expiresUnixSeconds) :
    (trace primitives server [.receiveCommit publicValueA none,
      .verifyPeer secrets.confirmationA nowUnixSeconds none]).map Prod.snd =
      [.confirmation secrets.confirmationB,
        .record (paired primitives server secrets nowUnixSeconds)] := by
  have hsame : finish primitives server.spake publicValueA none =
      (.ok secrets, (server.spake.finish primitives.toHashes publicValueA).2) := by
    unfold finish
    rw [finished_of_finish hfinish, if_neg Bool.false_ne_true]
    exact Prod.ext hfinish rfl
  have hcommit : call primitives server (.receiveCommit publicValueA none) =
      (.confirmation secrets.confirmationB,
        { server with
          spake := (server.spake.finish primitives.toHashes publicValueA).2
          secrets := some secrets }) := by
    unfold call receiveCommit
    dsimp only
    rw [if_neg (Option.not_isSome_iff_eq_none.mpr hsecrets), hsame]
  have hverify : (call primitives
      { server with
        spake := (server.spake.finish primitives.toHashes publicValueA).2
        secrets := some secrets }
      (.verifyPeer secrets.confirmationA nowUnixSeconds none)).1 =
      .record (paired primitives server secrets nowUnixSeconds) := by
    unfold call verifyPeer
    dsimp only
    rw [hverified, if_neg Bool.false_ne_true, if_neg (Nat.not_le_of_lt hnow),
      if_neg (not_not.mpr rfl)]
    rfl
  rw [trace, hcommit, trace, trace, List.map_cons, List.map_cons, List.map_nil, hverify]

/-- What `begin` has made. -/
structure Begun (primitives : Primitives) (serviceId deviceId sixDigitCode : Bytes)
    (server : Impl c) : Prop where
  service : server.serviceId = serviceId
  device : server.deviceId = deviceId
  secrets : server.secrets = none
  verified : server.verified = false
  publicValueB : server.offer.publicValueB = server.spake.publicValue
  spake : ∃ password ephemeral,
    derivePasswordScalar c primitives sixDigitCode server.offer.salt = .ok password ∧
    createDeterministic c .B deviceId serviceId (pairingAad server.offer.salt) password ephemeral =
      .ok server.spake

theorem begun_of_begin {serviceId deviceId sixDigitCode : Bytes} {nowUnixSeconds : ℕ}
    {salt : Salt16} {ephemeral : Key32}
    (h : begin c primitives serviceId deviceId sixDigitCode nowUnixSeconds salt ephemeral =
      .ok server) : Begun primitives serviceId deviceId sixDigitCode server := by
  unfold begin at h
  split_ifs at h
  cases hpassword : derivePasswordScalar c primitives sixDigitCode salt with
  | error error =>
    rw [hpassword] at h
    cases h
  | ok password =>
    rw [hpassword] at h
    cases hexchange : createDeterministic c .B deviceId serviceId (pairingAad salt) password
        ephemeral with
    | error error =>
      simp only [bind, Except.bind, Except.mapError, hexchange] at h
      cases h
    | ok exchange =>
      simp only [bind, Except.bind, Except.mapError, hexchange] at h
      cases h
      exact ⟨rfl, rfl, rfl, rfl, rfl, password, ephemeral, hpassword, hexchange⟩

theorem Begun.agrees {serviceId deviceId sixDigitCode : Bytes}
    (B : Begun primitives serviceId deviceId sixDigitCode server) (calls : List Call)
    {password ephemeral : Key32} {phone : Spake2P256 c}
    (hpassword : derivePasswordScalar c primitives sixDigitCode server.offer.salt = .ok password)
    (hphone : createDeterministic c .A server.deviceId server.serviceId
      (pairingAad server.offer.salt) password ephemeral = .ok phone) :
    Agrees primitives server calls phone := by
  obtain ⟨password', ephemeral', hpassword', hspake⟩ := B.spake
  cases Except.ok.inj (hpassword.symm.trans hpassword')
  rw [B.service, B.device] at hphone
  obtain ⟨hw, hx, hA, hcreatedA⟩ := valid_of_createDeterministic hphone
  obtain ⟨-, hy, hB, hcreatedB⟩ := valid_of_createDeterministic hspake
  obtain ⟨secrets, hfinishA, hfinishB⟩ :=
    @finish_eq Point _ _ c primitives.toHashes _ _ _ _ _ _ _ _ hcreatedA hcreatedB hw hx hy hA hB
  rw [← B.publicValueB] at hfinishA
  have hstage : Stage primitives server (trace primitives server calls)
      (after primitives server calls) := stage_run B.secrets calls
  refine ⟨secrets, hfinishA, fun hnone nowUnixSeconds hnow => ?_, fun hone record hrecord => ?_⟩
  · generalize after primitives server calls = s at *
    cases hstage with
    | offered => exact replies_of_finish B.secrets B.verified hfinishB hnow
    | committed _ _ _ _ hc => cases hnone.symm.trans hc
    | done _ _ _ _ _ hc => cases hnone.symm.trans hc
  · generalize after primitives server calls = s at *
    cases hstage with
    | offered hc => cases hone.symm.trans hc
    | committed _ _ _ _ _ hr =>
      rw [hr] at hrecord
      cases hrecord
    | done publicValueA secrets' spake nowUnixSeconds hfinish hc hr =>
      cases hone.symm.trans hc
      cases Except.ok.inj (hfinishB.symm.trans hfinish)
      rw [hr, List.mem_singleton] at hrecord
      rw [hrecord]
      rfl

/-- **A pairing produces at most one record, with the key of the phone**, whatever is called after
`begin` and whatever fails. -/
theorem paired_of_begin (c : Curve Point) (primitives : Primitives)
    {serviceId deviceId sixDigitCode : Bytes} {nowUnixSeconds : ℕ} {salt : Salt16}
    {ephemeral : Key32} {server : Impl c}
    (h : begin c primitives serviceId deviceId sixDigitCode nowUnixSeconds salt ephemeral =
      .ok server) (calls : List Call) : Paired primitives sixDigitCode server calls := by
  have B := begun_of_begin h
  exact {
    atMostOne := (stage_run B.secrets calls).length_records
    produced := fun before a rest record _ hrecord => produced_of_call B.secrets hrecord
    unchanged := fun before a rest error _ herror => call_error herror
    agrees := fun password ephemeral phone hpassword hphone =>
      B.agrees calls hpassword hphone }

def smallPrimitives : Primitives where
  toHashes := smallHashes
  scrypt code salt :=
    ⟨BigEndian.write 40 (BigEndian.read (code ++ salt.1)), BigEndian.length_write 40 _⟩

def sampleId : Bytes := asciiBytes "0123456789abcdef"

def sampleBegin : Except Error (Impl smallCurve) :=
  begin smallCurve smallPrimitives sampleId sampleId (asciiBytes "007349") 1000
    ⟨BigEndian.write 16 0, BigEndian.length_write 16 0⟩ (scalar 6)

theorem sampleBegin_isOk : sampleBegin.toBool = true := by decide +kernel

theorem paired_of_begin_sample : ∃ server, sampleBegin = .ok server ∧
    Paired smallPrimitives (asciiBytes "007349") server
      [.verifyPeer (scalar 0) 1000 none, .receiveCommit server.offer.publicValueB none] := by
  have hok := sampleBegin_isOk
  cases hbegin : sampleBegin with
  | error error =>
    rw [hbegin] at hok
    cases hok
  | ok server => exact ⟨server, rfl, paired_of_begin smallCurve smallPrimitives hbegin _⟩

end RemoteCam.Security.PairingServer
