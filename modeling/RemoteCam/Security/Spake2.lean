import Mathlib.GroupTheory.OrderOfElement
import RemoteCam.Security.StoredSessionSecurity

/-! # SPAKE2

`Spake2P256` of `spake2.cpp` over a group of prime order whose points OpenSSL encodes. Role A masks
its public value with `w * M` and role B with `w * N`; `finish` takes the mask of the other role off
the value it receives and hashes the transcript.

`agree_and_determine`: two instances with one password that exchange their public values finish with
the same secrets, and the transcript of an instance that finishes determines what went into it. -/

namespace RemoteCam.Security.Spake2

open RemoteCam.Lib
open RemoteCam.Security.Protector (Bytes Key32 FixedBytes asciiBytes)
open RemoteCam.Security.StoredSessionSecurity (appendLengthPrefixed appendLittleEndian64)

abbrev Key16 := FixedBytes 16
abbrev Point65 := FixedBytes 65

inductive Error where
  | invalidArgument
  | cryptoFailure
  | invalidPoint
  deriving DecidableEq, Repr

inductive SpakeRole where
  | A
  | B
  deriving DecidableEq, Repr

def SpakeRole.peer : SpakeRole → SpakeRole
  | .A => .B
  | .B => .A

def kPointM : Bytes :=
  [0x02, 0x88, 0x6e, 0x2f, 0x97, 0xac, 0xe4, 0x6e, 0x55, 0xba, 0x9d,
    0xd7, 0x24, 0x25, 0x79, 0xf2, 0x99, 0x3b, 0x64, 0xe1, 0x6e, 0xf3,
    0xdc, 0xab, 0x95, 0xaf, 0xd4, 0x97, 0x33, 0x3d, 0x8f, 0xa1, 0x2f]

def kPointN : Bytes :=
  [0x03, 0xd8, 0xbb, 0xd6, 0xc6, 0x39, 0xc6, 0x29, 0x37, 0xb0, 0x4d,
    0x99, 0x7f, 0x38, 0xc3, 0x77, 0x07, 0x19, 0xc6, 0x29, 0xd7, 0x01,
    0x4d, 0x49, 0xa2, 0x4b, 0x4f, 0x98, 0xba, 0xa1, 0x29, 0x2b, 0x49]

def encodedMask : SpakeRole → Bytes
  | .A => kPointM
  | .B => kPointN

/-- What is used of OpenSSL's group: the points of the curve and their encodings. -/
structure Curve (Point : Type) [AddCommGroup Point] where
  order : ℕ
  prime : order.Prime
  order_lt : order < 256 ^ 32
  card_point : Nat.card Point = order
  generator : Point
  generator_ne_zero : generator ≠ 0
  /-- The uncompressed form. -/
  point2oct : Point → Bytes
  /-- A point of the curve, or none. -/
  oct2point : Bytes → Option Point
  oct2point_point2oct : ∀ P, oct2point (point2oct P) = some P
  length_point2oct : ∀ P, P ≠ 0 → (point2oct P).length = 65
  head_point2oct : ∀ P, P ≠ 0 → (point2oct P).head? = some 0x04
  /-- `M` and `N`. -/
  mask : SpakeRole → Point
  oct2point_mask : ∀ role, oct2point (encodedMask role) = some (mask role)
  mask_ne_zero : ∀ role, mask role ≠ 0

/-- The hash functions. -/
structure Hashes where
  sha256 : Bytes → Key32
  /-- From key, salt and info. -/
  hkdfSha256 : Key16 → Bytes → Bytes → Key32
  hmacSha256 : Key16 → Bytes → Key32

structure Spake2Secrets where
  transcript : Bytes
  sharedPoint : Point65
  sharedSecret : Key16
  confirmationKeyA : Key16
  confirmationKeyB : Key16
  confirmationA : Key32
  confirmationB : Key32
  deriving DecidableEq, Repr

section Source
variable {Point : Type} [AddCommGroup Point] (c : Curve Point)

def serializePoint (point : Point) : Except Error Point65 :=
  let encoded := c.point2oct point
  if h : encoded.length = 65 then
    if encoded.head? = some 0x04 then .ok ⟨encoded, h⟩ else .error .cryptoFailure
  else .error .cryptoFailure

/-- A number in `[1, order - 1]`. -/
def IsScalar (k : ℕ) : Prop := 0 < k ∧ k < c.order

instance (k : ℕ) : Decidable (IsScalar c k) := inferInstanceAs (Decidable (0 < k ∧ k < c.order))

def validateScalar (encoded : Key32) : Except Error { k // IsScalar c k } :=
  let scalar := BigEndian.read encoded.1
  if h : IsScalar c scalar then .ok ⟨scalar, h⟩ else .error .invalidArgument

/-- `BN_bn2binpad` to 32 bytes. -/
def bn2binpad (k : ℕ) : Except Error Key32 :=
  if k < 256 ^ 32 then .ok ⟨BigEndian.write 32 k, BigEndian.length_write 32 k⟩
  else .error .cryptoFailure

/-- `Spake2P256::Impl`. -/
structure Spake2P256 where
  role : SpakeRole
  identityA : Bytes
  identityB : Bytes
  aad : Bytes
  passwordScalar : ℕ
  privateScalar : ℕ
  publicValue : Point65
  finished : Bool
  sizes : identityA.length ≤ 1024 ∧ identityB.length ≤ 1024 ∧ aad.length ≤ 4096
  /-- The scalars are cleared at the end. -/
  scalars : finished = false → IsScalar c passwordScalar ∧ IsScalar c privateScalar

theorem cleared : true = false → IsScalar c 0 ∧ IsScalar c 0 := Bool.noConfusion

variable [DecidableEq Point]

def loadMaskPoint (role : SpakeRole) : Except Error Point :=
  match c.oct2point (encodedMask role) with
  | none => .error .cryptoFailure
  | some point => if point = 0 then .error .cryptoFailure else .ok point

def parsePeerPoint (encoded : Point65) : Except Error Point :=
  if encoded.1.head? ≠ some 0x04 then .error .invalidPoint
  else
    match c.oct2point encoded.1 with
    | none => .error .invalidPoint
    | some point =>
      if point = 0 then .error .invalidPoint
      else if c.order • point ≠ 0 then .error .invalidPoint
      else .ok point

def createDeterministic (role : SpakeRole) (identityA identityB aad : Bytes)
    (passwordScalar privateScalar : Key32) : Except Error (Spake2P256 c) :=
  if sizes : identityA.length ≤ 1024 ∧ identityB.length ≤ 1024 ∧ aad.length ≤ 4096 then do
    let password ← validateScalar c passwordScalar
    let ephemeral ← validateScalar c privateScalar
    let mask ← loadMaskPoint c role
    let publicPoint := ephemeral.1 • c.generator + password.1 • mask
    if publicPoint = 0 then throw .cryptoFailure
    let publicValue ← serializePoint c publicPoint
    return {
      role, identityA, identityB, aad, publicValue, sizes
      passwordScalar := password.1
      privateScalar := ephemeral.1
      finished := false
      scalars := fun _ => ⟨password.2, ephemeral.2⟩ }
  else .error .invalidArgument

variable {c} (hashes : Hashes)

/-- What is hashed. -/
def transcriptOf (identityA identityB : Bytes) (publicA publicB sharedPoint : Point65)
    (encodedPassword : Key32) : Bytes :=
  appendLengthPrefixed identityA ++ (appendLengthPrefixed identityB ++
    (appendLengthPrefixed publicA.1 ++ (appendLengthPrefixed publicB.1 ++
      (appendLengthPrefixed sharedPoint.1 ++ appendLengthPrefixed encodedPassword.1))))

theorem length_half (key : Key32) : (key.1.take 16).length = 16 := by
  rw [List.length_take, key.2]
  rfl

theorem length_otherHalf (key : Key32) : (key.1.drop 16).length = 16 := by
  rw [List.length_drop, key.2]

def half (key : Key32) : Key16 := ⟨key.1.take 16, length_half key⟩
def otherHalf (key : Key32) : Key16 := ⟨key.1.drop 16, length_otherHalf key⟩

/-- The keys and the confirmations of a transcript. -/
def secretsOf (transcript : Bytes) (sharedPoint : Point65) (aad : Bytes) : Spake2Secrets :=
  let transcriptHash := hashes.sha256 transcript
  let confirmationMaterial := hashes.hkdfSha256 (otherHalf transcriptHash) []
    (asciiBytes "ConfirmationKeys" ++ aad)
  { transcript
    sharedPoint
    sharedSecret := half transcriptHash
    confirmationKeyA := half confirmationMaterial
    confirmationKeyB := otherHalf confirmationMaterial
    confirmationA := hashes.hmacSha256 (half confirmationMaterial) transcript
    confirmationB := hashes.hmacSha256 (otherHalf confirmationMaterial) transcript }

namespace Spake2P256

/-- `pA` and `pB`. -/
def publicA (s : Spake2P256 c) (peerPublicValue : Point65) : Point65 :=
  if s.role = .A then s.publicValue else peerPublicValue

def publicB (s : Spake2P256 c) (peerPublicValue : Point65) : Point65 :=
  if s.role = .B then s.publicValue else peerPublicValue

/-- `K`, or what stands in its way. -/
def sharedPoint (s : Spake2P256 c) (peerPublicValue : Point65) : Except Error Point := do
  let peer ← parsePeerPoint c peerPublicValue
  let mask ← (loadMaskPoint c s.role.peer).mapError fun _ => .invalidPoint
  let unmasked := peer + -(s.passwordScalar • mask)
  if unmasked = 0 then throw .invalidPoint
  let shared := s.privateScalar • unmasked
  if shared = 0 then throw .invalidPoint
  return shared

def secrets (s : Spake2P256 c) (peerPublicValue : Point65) : Except Error Spake2Secrets :=
  if s.finished then .error .invalidArgument
  else do
    let shared ← s.sharedPoint peerPublicValue
    let sharedPoint ← serializePoint c shared
    let encodedPassword ← bn2binpad s.passwordScalar
    let transcript := transcriptOf s.identityA s.identityB (s.publicA peerPublicValue)
      (s.publicB peerPublicValue) sharedPoint encodedPassword
    return secretsOf hashes transcript sharedPoint s.aad

def finish (s : Spake2P256 c) (peerPublicValue : Point65) :
    Except Error Spake2Secrets × Spake2P256 c :=
  match s.secrets hashes peerPublicValue with
  | .error error => (.error error, s)
  | .ok out =>
    (.ok out,
      { s with finished := true, passwordScalar := 0, privateScalar := 0, scalars := cleared c })

end Spake2P256

end Source

section Group
variable {Point : Type} [AddCommGroup Point] {c : Curve Point} {P Q : Point} {role : SpakeRole}
  {k : ℕ} {encoded : Point65}

/-! ### The group -/

/-- The order being prime, a scalar leads no other point to infinity. -/
theorem nsmul_ne_zero (hk : IsScalar c k) (hP : P ≠ 0) : k • P ≠ 0 := by
  have horder : addOrderOf P = c.order := by
    have : Fact c.order.Prime := ⟨c.prime⟩
    refine addOrderOf_eq_prime ?_ hP
    rw [← c.card_point]
    exact card_nsmul_eq_zero'
  rw [Ne, ← addOrderOf_dvd_iff_nsmul_eq_zero, horder]
  exact fun hdvd => absurd (Nat.le_of_dvd hk.1 hdvd) (Nat.not_le.mpr hk.2)

/-! ### Encodings -/

theorem serializePoint_of_ne_zero (hP : P ≠ 0) :
    ∃ encoded : Point65, serializePoint c P = .ok encoded := by
  refine ⟨⟨c.point2oct P, c.length_point2oct P hP⟩, ?_⟩
  unfold serializePoint
  rw [dif_pos (c.length_point2oct P hP), if_pos (c.head_point2oct P hP)]

theorem point2oct_of_serializePoint (h : serializePoint c P = .ok encoded) :
    c.point2oct P = encoded.1 := by
  unfold serializePoint at h
  dsimp only at h
  split_ifs at h
  exact congrArg Subtype.val (Except.ok.inj h)

theorem serializePoint_inj (hP : serializePoint c P = .ok encoded)
    (hQ : serializePoint c Q = .ok encoded) : P = Q := by
  have heq := c.oct2point_point2oct P
  rw [point2oct_of_serializePoint hP, ← point2oct_of_serializePoint hQ,
    c.oct2point_point2oct] at heq
  exact (Option.some.inj heq).symm

theorem bn2binpad_of_isScalar (h : IsScalar c k) :
    bn2binpad k = .ok ⟨BigEndian.write 32 k, BigEndian.length_write 32 k⟩ :=
  if_pos (h.2.trans c.order_lt)

variable [DecidableEq Point]

theorem loadMaskPoint_eq : loadMaskPoint c role = .ok (c.mask role) := by
  unfold loadMaskPoint
  rw [c.oct2point_mask]
  exact if_neg (c.mask_ne_zero role)

theorem parsePeerPoint_of_serializePoint (hP : P ≠ 0) (h : serializePoint c P = .ok encoded) :
    parsePeerPoint c encoded = .ok P := by
  have hencoded := point2oct_of_serializePoint h
  have horder : c.order • P = 0 := by
    rw [← c.card_point]
    exact card_nsmul_eq_zero'
  unfold parsePeerPoint
  rw [← hencoded, if_neg (not_not.mpr (c.head_point2oct P hP)), c.oct2point_point2oct]
  dsimp only
  rw [if_neg hP, if_neg (not_not.mpr horder)]

end Group

/-! ### The transcript -/

theorem read_of_bn2binpad {k : ℕ} {key : Key32} (h : bn2binpad k = .ok key) :
    BigEndian.read key.1 = k := by
  unfold bn2binpad at h
  split_ifs at h with hlt
  rw [← Except.ok.inj h]
  exact BigEndian.read_write hlt

/-- A length prefix tells where its value ends. -/
theorem appendLengthPrefixed_inj {a b rest rest' : Bytes} (ha : a.length < 256 ^ 8)
    (hb : b.length < 256 ^ 8)
    (h : appendLengthPrefixed a ++ rest = appendLengthPrefixed b ++ rest') :
    a = b ∧ rest = rest' := by
  unfold appendLengthPrefixed at h
  rw [List.append_assoc, List.append_assoc] at h
  have hwidth : ∀ n, (appendLittleEndian64 n).length = 8 := fun n => by
    unfold appendLittleEndian64
    rw [List.length_reverse, BigEndian.length_write]
  obtain ⟨hprefixed, hvalue⟩ := List.append_inj h ((hwidth _).trans (hwidth _).symm)
  have hlength : a.length = b.length := by
    unfold appendLittleEndian64 at hprefixed
    have hread := congrArg BigEndian.read (List.reverse_injective hprefixed)
    rwa [BigEndian.read_write ha, BigEndian.read_write hb] at hread
  exact List.append_inj hvalue hlength

theorem transcriptOf_inj {identityA identityB identityA' identityB' : Bytes}
    {publicA publicB shared publicA' publicB' shared' : Point65} {password password' : Key32}
    (hA : identityA.length ≤ 1024) (hB : identityB.length ≤ 1024) (hA' : identityA'.length ≤ 1024)
    (hB' : identityB'.length ≤ 1024)
    (h : transcriptOf identityA identityB publicA publicB shared password =
      transcriptOf identityA' identityB' publicA' publicB' shared' password') :
    identityA = identityA' ∧ identityB = identityB' ∧ publicA = publicA' ∧ publicB = publicB' ∧
      shared = shared' ∧ password = password' := by
  have hpoint : ∀ p : Point65, p.1.length < 256 ^ 8 := fun p => by
    rw [p.2]
    norm_num
  have hkey : ∀ k : Key32, k.1.length < 256 ^ 8 := fun k => by
    rw [k.2]
    norm_num
  unfold transcriptOf at h
  obtain ⟨hidA, h⟩ := appendLengthPrefixed_inj (by omega) (by omega) h
  obtain ⟨hidB, h⟩ := appendLengthPrefixed_inj (by omega) (by omega) h
  obtain ⟨hpA, h⟩ := appendLengthPrefixed_inj (hpoint _) (hpoint _) h
  obtain ⟨hpB, h⟩ := appendLengthPrefixed_inj (hpoint _) (hpoint _) h
  obtain ⟨hshared, h⟩ := appendLengthPrefixed_inj (hpoint _) (hpoint _) h
  rw [← List.append_nil (appendLengthPrefixed password.1),
    ← List.append_nil (appendLengthPrefixed password'.1)] at h
  obtain ⟨hpassword, -⟩ := appendLengthPrefixed_inj (hkey _) (hkey _) h
  exact ⟨hidA, hidB, Subtype.ext hpA, Subtype.ext hpB, Subtype.ext hshared, Subtype.ext hpassword⟩

section Sessions
variable {Point : Type} [AddCommGroup Point] [DecidableEq Point] {c : Curve Point} {hashes : Hashes}

/-- What a transcript is about: the identities, `pA`, `pB`, `K` and `w`. -/
structure Terms (Point : Type) where
  identityA : Bytes
  identityB : Bytes
  publicA : Point65
  publicB : Point65
  shared : Point
  password : ℕ
  deriving DecidableEq

/-- The terms of a session with this value of the peer. -/
def Spake2P256.terms (s : Spake2P256 c) (peerPublicValue : Point65) : Except Error (Terms Point) :=
  (s.sharedPoint peerPublicValue).map fun shared =>
    { identityA := s.identityA
      identityB := s.identityB
      publicA := s.publicA peerPublicValue
      publicB := s.publicB peerPublicValue
      shared
      password := s.passwordScalar }

/-- A session that finishes has terms, and its transcript is made of their encodings. -/
theorem terms_of_secrets {s : Spake2P256 c} {peerPublicValue : Point65} {out : Spake2Secrets}
    (h : s.secrets hashes peerPublicValue = .ok out) :
    ∃ (shared : Point) (encoded : Point65) (key : Key32),
      s.sharedPoint peerPublicValue = .ok shared ∧ serializePoint c shared = .ok encoded ∧
      bn2binpad s.passwordScalar = .ok key ∧
      out.transcript = transcriptOf s.identityA s.identityB (s.publicA peerPublicValue)
        (s.publicB peerPublicValue) encoded key := by
  unfold Spake2P256.secrets at h
  split_ifs at h
  cases hshared : s.sharedPoint peerPublicValue with
  | error error =>
    rw [hshared] at h
    cases h
  | ok shared =>
    rw [hshared] at h
    cases hencoded : serializePoint c shared with
    | error error =>
      simp only [bind, Except.bind, hencoded] at h
      cases h
    | ok encoded =>
      cases hkey : bn2binpad s.passwordScalar with
      | error error =>
        simp only [bind, Except.bind, hencoded, hkey] at h
        cases h
      | ok key =>
        simp only [bind, Except.bind, hencoded, hkey] at h
        refine ⟨shared, encoded, key, rfl, hencoded, rfl, ?_⟩
        rw [← Except.ok.inj h]
        rfl

theorem secrets_of_finish {s : Spake2P256 c} {peerPublicValue : Point65} {out : Spake2Secrets}
    (h : (s.finish hashes peerPublicValue).1 = .ok out) :
    s.secrets hashes peerPublicValue = .ok out := by
  unfold Spake2P256.finish at h
  cases hsecrets : s.secrets hashes peerPublicValue with
  | error error =>
    rw [hsecrets] at h
    cases h
  | ok out' =>
    rw [hsecrets] at h
    exact h

/-- **The transcript determines the session.** -/
theorem terms_eq {s s' : Spake2P256 c} {peerPublicValue peerPublicValue' : Point65}
    {out out' : Spake2Secrets} (h : (s.finish hashes peerPublicValue).1 = .ok out)
    (h' : (s'.finish hashes peerPublicValue').1 = .ok out')
    (htranscript : out.transcript = out'.transcript) :
    ∃ terms, s.terms peerPublicValue = .ok terms ∧ s'.terms peerPublicValue' = .ok terms := by
  obtain ⟨shared, encoded, key, hshared, hencoded, hkey, hout⟩ :=
    terms_of_secrets (secrets_of_finish h)
  obtain ⟨shared', encoded', key', hshared', hencoded', hkey', hout'⟩ :=
    terms_of_secrets (secrets_of_finish h')
  rw [hout, hout'] at htranscript
  obtain ⟨hA, hB, hpA, hpB, rfl, rfl⟩ := transcriptOf_inj s.sizes.1 s.sizes.2.1 s'.sizes.1
    s'.sizes.2.1 htranscript
  have hpoint : shared = shared' := serializePoint_inj hencoded hencoded'
  have hpassword : s.passwordScalar = s'.passwordScalar := by
    rw [← read_of_bn2binpad hkey, read_of_bn2binpad hkey']
  unfold Spake2P256.terms
  rw [hshared, hshared', hA, hB, hpA, hpB, hpoint, hpassword]
  exact ⟨_, rfl, rfl⟩

/-! ### Two instances -/

/-- An instance that has just been created. -/
structure Created (s : Spake2P256 c) (role : SpakeRole) (identityA identityB aad : Bytes)
    (w x : ℕ) : Prop where
  publicValue : serializePoint c (x • c.generator + w • c.mask role) = .ok s.publicValue
  role : s.role = role
  identityA : s.identityA = identityA
  identityB : s.identityB = identityB
  aad : s.aad = aad
  password : s.passwordScalar = w
  ephemeral : s.privateScalar = x
  finished : s.finished = false

theorem created {role : SpakeRole} {identityA identityB aad : Bytes} {w x : Key32}
    (hsizes : identityA.length ≤ 1024 ∧ identityB.length ≤ 1024 ∧ aad.length ≤ 4096)
    (hw : IsScalar c (BigEndian.read w.1)) (hx : IsScalar c (BigEndian.read x.1))
    (hpublic : BigEndian.read x.1 • c.generator + BigEndian.read w.1 • c.mask role ≠ 0) :
    ∃ s, createDeterministic c role identityA identityB aad w x = .ok s ∧
      Created s role identityA identityB aad (BigEndian.read w.1) (BigEndian.read x.1) := by
  obtain ⟨publicValue, hvalue⟩ := serializePoint_of_ne_zero hpublic
  have hpassword : validateScalar c w = .ok ⟨_, hw⟩ := dif_pos hw
  have hephemeral : validateScalar c x = .ok ⟨_, hx⟩ := dif_pos hx
  refine ⟨⟨role, identityA, identityB, aad, BigEndian.read w.1, BigEndian.read x.1, publicValue,
    false, hsizes, fun _ => ⟨hw, hx⟩⟩, ?_, ⟨hvalue, rfl, rfl, rfl, rfl, rfl, rfl, rfl⟩⟩
  unfold createDeterministic
  rw [dif_pos hsizes]
  simp only [bind, Except.bind, hpassword, hephemeral, loadMaskPoint_eq, if_neg hpublic, hvalue]
  rfl

/-- What an instance is created from. -/
theorem valid_of_createDeterministic {role : SpakeRole} {identityA identityB aad : Bytes}
    {w x : Key32} {s : Spake2P256 c}
    (h : createDeterministic c role identityA identityB aad w x = .ok s) :
    IsScalar c (BigEndian.read w.1) ∧ IsScalar c (BigEndian.read x.1) ∧
      BigEndian.read x.1 • c.generator + BigEndian.read w.1 • c.mask role ≠ 0 ∧
      Created s role identityA identityB aad (BigEndian.read w.1) (BigEndian.read x.1) := by
  by_cases hsizes : identityA.length ≤ 1024 ∧ identityB.length ≤ 1024 ∧ aad.length ≤ 4096
  swap
  · unfold createDeterministic at h
    rw [dif_neg hsizes] at h
    cases h
  by_cases hw : IsScalar c (BigEndian.read w.1)
  swap
  · unfold createDeterministic at h
    have hpassword : validateScalar c w = .error .invalidArgument := dif_neg hw
    simp only [dif_pos hsizes, bind, Except.bind, hpassword] at h
    cases h
  by_cases hx : IsScalar c (BigEndian.read x.1)
  swap
  · unfold createDeterministic at h
    have hpassword : validateScalar c w = .ok ⟨_, hw⟩ := dif_pos hw
    have hephemeral : validateScalar c x = .error .invalidArgument := dif_neg hx
    simp only [dif_pos hsizes, bind, Except.bind, hpassword, hephemeral] at h
    cases h
  by_cases hpublic : BigEndian.read x.1 • c.generator + BigEndian.read w.1 • c.mask role = 0
  · unfold createDeterministic at h
    have hpassword : validateScalar c w = .ok ⟨_, hw⟩ := dif_pos hw
    have hephemeral : validateScalar c x = .ok ⟨_, hx⟩ := dif_pos hx
    simp only [dif_pos hsizes, bind, Except.bind, hpassword, hephemeral, loadMaskPoint_eq,
      if_pos hpublic] at h
    cases h
  · obtain ⟨s', hs', hcreated⟩ := created hsizes hw hx hpublic
    obtain rfl := Except.ok.inj (hs'.symm.trans h)
    exact ⟨hw, hx, hpublic, hcreated⟩

/-- With the value of a peer that used the same password, `K` is the product of the scalars. -/
theorem sharedPoint_of_created {s : Spake2P256 c} {role : SpakeRole}
    {identityA identityB aad : Bytes} {w x y : ℕ} {peerPublicValue : Point65}
    (h : Created s role identityA identityB aad w x)
    (hx : IsScalar c x) (hy : IsScalar c y) (hpublic : y • c.generator + w • c.mask role.peer ≠ 0)
    (hpeer : serializePoint c (y • c.generator + w • c.mask role.peer) = .ok peerPublicValue) :
    s.sharedPoint peerPublicValue = .ok (x • (y • c.generator)) := by
  have hunmasked : y • c.generator ≠ 0 := nsmul_ne_zero hy c.generator_ne_zero
  have hshared : x • (y • c.generator) ≠ 0 := nsmul_ne_zero hx hunmasked
  unfold Spake2P256.sharedPoint
  rw [h.role, h.password, h.ephemeral]
  simp only [bind, Except.bind, parsePeerPoint_of_serializePoint hpublic hpeer, loadMaskPoint_eq,
    Except.mapError, add_neg_cancel_right, if_neg hunmasked, if_neg hshared]
  rfl

/-- The secrets of a session with such a peer. -/
theorem finish_of_created {s : Spake2P256 c} {role : SpakeRole} {identityA identityB aad : Bytes}
    {w x y : ℕ} {peerPublicValue encoded : Point65}
    (h : Created s role identityA identityB aad w x) (hw : IsScalar c w) (hx : IsScalar c x)
    (hy : IsScalar c y) (hpublic : y • c.generator + w • c.mask role.peer ≠ 0)
    (hpeer : serializePoint c (y • c.generator + w • c.mask role.peer) = .ok peerPublicValue)
    (hencoded : serializePoint c (x • (y • c.generator)) = .ok encoded) :
    (s.finish hashes peerPublicValue).1 = .ok (secretsOf hashes
      (transcriptOf identityA identityB (s.publicA peerPublicValue) (s.publicB peerPublicValue)
        encoded ⟨BigEndian.write 32 w, BigEndian.length_write 32 w⟩) encoded aad) := by
  have hsecrets : s.secrets hashes peerPublicValue = .ok (secretsOf hashes
      (transcriptOf identityA identityB (s.publicA peerPublicValue) (s.publicB peerPublicValue)
        encoded ⟨BigEndian.write 32 w, BigEndian.length_write 32 w⟩) encoded aad) := by
    unfold Spake2P256.secrets
    rw [h.finished, sharedPoint_of_created h hx hy hpublic hpeer, h.password, h.identityA,
      h.identityB, h.aad, bn2binpad_of_isScalar hw]
    simp only [bind, Except.bind, hencoded]
    rfl
  unfold Spake2P256.finish
  rw [hsecrets]

/-- **Two instances with one password agree.** -/
theorem finish_eq {a b : Spake2P256 c} {identityA identityB aad : Bytes} {w x y : ℕ}
    (ha : Created a .A identityA identityB aad w x) (hb : Created b .B identityA identityB aad w y)
    (hw : IsScalar c w) (hx : IsScalar c x) (hy : IsScalar c y)
    (hA : x • c.generator + w • c.mask .A ≠ 0) (hB : y • c.generator + w • c.mask .B ≠ 0) :
    ∃ out, (a.finish hashes b.publicValue).1 = .ok out ∧
      (b.finish hashes a.publicValue).1 = .ok out := by
  have hshared : x • (y • c.generator) ≠ 0 :=
    nsmul_ne_zero hx (nsmul_ne_zero hy c.generator_ne_zero)
  obtain ⟨encoded, hencoded⟩ := serializePoint_of_ne_zero hshared
  have hencoded' : serializePoint c (y • (x • c.generator)) = .ok encoded := by
    rw [smul_comm y x]
    exact hencoded
  have hfinishA := @finish_of_created Point _ _ c hashes _ _ _ _ _ _ _ _ _ _ ha hw hx hy hB
    hb.publicValue hencoded
  have hfinishB := @finish_of_created Point _ _ c hashes _ _ _ _ _ _ _ _ _ _ hb hw hy hx hA
    ha.publicValue hencoded'
  have hpublicA : a.publicA b.publicValue = b.publicA a.publicValue := by
    unfold Spake2P256.publicA
    rw [ha.role, hb.role]
    rfl
  have hpublicB : a.publicB b.publicValue = b.publicB a.publicValue := by
    unfold Spake2P256.publicB
    rw [ha.role, hb.role]
    rfl
  rw [hpublicA, hpublicB] at hfinishA
  exact ⟨_, hfinishA, hfinishB⟩

/-- **SPAKE2.** An instance is created from identities and data of legal sizes and scalars whose
public value is not infinity. Two of them, one of each role and with one password, finish on each
other's value with the same secrets; and sessions have a transcript in common only if they have all
of its terms in common. -/
theorem agree_and_determine (c : Curve Point) (hashes : Hashes) :
    (∀ (role : SpakeRole) (identityA identityB aad : Bytes) (w x : Key32),
      identityA.length ≤ 1024 → identityB.length ≤ 1024 → aad.length ≤ 4096 →
      IsScalar c (BigEndian.read w.1) → IsScalar c (BigEndian.read x.1) →
      BigEndian.read x.1 • c.generator + BigEndian.read w.1 • c.mask role ≠ 0 →
      ∃ s, createDeterministic c role identityA identityB aad w x = .ok s) ∧
    (∀ (identityA identityB aad : Bytes) (w x y : Key32) (a b : Spake2P256 c),
      createDeterministic c .A identityA identityB aad w x = .ok a →
      createDeterministic c .B identityA identityB aad w y = .ok b →
      ∃ out, (a.finish hashes b.publicValue).1 = .ok out ∧
        (b.finish hashes a.publicValue).1 = .ok out) ∧
    ∀ (s s' : Spake2P256 c) (peerPublicValue peerPublicValue' : Point65) (out out' : Spake2Secrets),
      (s.finish hashes peerPublicValue).1 = .ok out →
      (s'.finish hashes peerPublicValue').1 = .ok out' → out.transcript = out'.transcript →
      ∃ terms, s.terms peerPublicValue = .ok terms ∧ s'.terms peerPublicValue' = .ok terms := by
  refine ⟨?_, ?_, fun s s' peerPublicValue peerPublicValue' out out' h h' => terms_eq h h'⟩
  · intro role identityA identityB aad w x hA hB haad hw hx hpublic
    obtain ⟨s, hs, -⟩ := created ⟨hA, hB, haad⟩ hw hx hpublic
    exact ⟨s, hs⟩
  · intro identityA identityB aad w x y a b ha hb
    obtain ⟨hw, hx, hpA, hcreatedA⟩ := valid_of_createDeterministic ha
    obtain ⟨-, hy, hpB, hcreatedB⟩ := valid_of_createDeterministic hb
    exact finish_eq hcreatedA hcreatedB hw hx hy hpA hpB

end Sessions

/-! ### A small curve -/

def smallPoint2oct (point : ZMod 13) : Bytes :=
  let n := Fin.val (show Fin 13 from point)
  if n = 0 then [0] else 0x04 :: (List.replicate 63 0 ++ [UInt8.ofNat n])

def smallOct2point (encoded : Bytes) : Option (ZMod 13) :=
  if encoded = kPointM then some 2
  else if encoded = kPointN then some 5
  else if encoded = [0] then some 0
  else if encoded.length = 65 ∧ encoded.head? = some 0x04 then
    encoded.getLast?.map fun last => (last.toNat : ZMod 13)
  else none

def smallMask (role : SpakeRole) : ZMod 13 := if role = .A then 2 else 5

theorem smallOct2point_smallPoint2oct :
    ∀ P : ZMod 13, smallOct2point (smallPoint2oct P) = some P := by decide +kernel

theorem length_smallPoint2oct : ∀ P : ZMod 13, P ≠ 0 → (smallPoint2oct P).length = 65 := by
  decide +kernel

theorem head_smallPoint2oct : ∀ P : ZMod 13, P ≠ 0 → (smallPoint2oct P).head? = some 0x04 := by
  decide +kernel

theorem smallOct2point_mask (role : SpakeRole) :
    smallOct2point (encodedMask role) = some (smallMask role) := by
  cases role <;> decide +kernel

theorem smallMask_ne_zero (role : SpakeRole) : smallMask role ≠ 0 := by
  cases role <;> decide

theorem prime_thirteen : Nat.Prime 13 := by decide

theorem one_ne_zero_small : (1 : ZMod 13) ≠ 0 := by decide

theorem thirteen_lt : 13 < 256 ^ 32 := by decide

def smallCurve : Curve (ZMod 13) where
  order := 13
  prime := prime_thirteen
  order_lt := thirteen_lt
  card_point := Nat.card_zmod 13
  generator := 1
  generator_ne_zero := one_ne_zero_small
  point2oct := smallPoint2oct
  oct2point := smallOct2point
  oct2point_point2oct := smallOct2point_smallPoint2oct
  length_point2oct := length_smallPoint2oct
  head_point2oct := head_smallPoint2oct
  mask := smallMask
  oct2point_mask := smallOct2point_mask
  mask_ne_zero := smallMask_ne_zero

def smallHashes : Hashes where
  sha256 data := ⟨BigEndian.write 32 (BigEndian.read data), BigEndian.length_write 32 _⟩
  hkdfSha256 key salt info :=
    ⟨BigEndian.write 32 (BigEndian.read (key.1 ++ salt ++ info)), BigEndian.length_write 32 _⟩
  hmacSha256 key data :=
    ⟨BigEndian.write 32 (BigEndian.read (key.1 ++ data)), BigEndian.length_write 32 _⟩

def scalar (k : ℕ) : Key32 := ⟨BigEndian.write 32 k, BigEndian.length_write 32 k⟩

/-- A phone and a PC with the password 3. -/
theorem agree_of_smallCurve : ∃ a b,
    createDeterministic smallCurve .A [0x61] [0x62] [] (scalar 3) (scalar 4) = .ok a ∧
    createDeterministic smallCurve .B [0x61] [0x62] [] (scalar 3) (scalar 6) = .ok b ∧
    ∃ out, (a.finish smallHashes b.publicValue).1 = .ok out ∧
      (b.finish smallHashes a.publicValue).1 = .ok out := by
  obtain ⟨create, agree, -⟩ := agree_and_determine smallCurve smallHashes
  obtain ⟨a, ha⟩ := create .A [0x61] [0x62] [] (scalar 3) (scalar 4) (by decide) (by decide)
    (by decide) (by decide +kernel) (by decide +kernel) (by decide +kernel)
  obtain ⟨b, hb⟩ := create .B [0x61] [0x62] [] (scalar 3) (scalar 6) (by decide) (by decide)
    (by decide) (by decide +kernel) (by decide +kernel) (by decide +kernel)
  exact ⟨a, b, ha, hb, agree [0x61] [0x62] [] (scalar 3) (scalar 4) (scalar 6) a b ha hb⟩

end RemoteCam.Security.Spake2
