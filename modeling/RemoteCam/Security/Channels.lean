import RemoteCam.Lib.Transitions
import RemoteCam.Security.Protector
import Mathlib.Data.List.Nodup

/-! # Two protectors and an adversary

Both ends of a session protect what they send; what is delivered to them, on which channel and in
which order, is the adversary's choice. HMAC and AEAD are ideal: an end accepts only what one of the
two has produced for exactly that input (`ideal`). The authenticated bytes determine every field of
the header, the number and the plaintext, and a call moves one counter of its end. -/

namespace RemoteCam.Security.Channels

open RemoteCam.Lib RemoteCam.Lib.Transitions RemoteCam.Security.Protector

/-- What is passed to `protectControl` or `protectMedia` on a channel. -/
structure Record where
  flags : UInt8
  ptsMicros : UInt64
  plaintext : Bytes
  deriving DecidableEq, Repr

inductive Kind where
  | control
  | media
  deriving DecidableEq, Repr

/-- A direction, an entry point and a channel. -/
structure Lane where
  sender : SessionRole
  kind : Kind
  channel : UInt8
  deriving DecidableEq, Repr

def other : SessionRole → SessionRole
  | .client => .server
  | .server => .client

/-- The distinct keys of a session. -/
def Separate (keys : SessionKeys) : Prop :=
  [keys.controlAtoB.key, keys.controlBtoA.key, keys.videoAtoB.key, keys.videoBtoA.key,
    keys.statsAtoB.key, keys.statsBtoA.key].Nodup

instance (keys : SessionKeys) : Decidable (Separate keys) :=
  inferInstanceAs (Decidable (List.Nodup _))

/-- An output of the AEAD with its inputs. -/
structure Seal where
  key : Key32
  nonce : FixedBytes 12
  aad : Bytes
  plaintext : Bytes
  ciphertext : Bytes
  tag : Bytes
  deriving DecidableEq

/-- The two ends and what went through them: the records protected and accepted on each lane, and
the inputs of HMAC and AEAD. -/
structure Session where
  ends : SessionRole → SessionProtector
  sent : Lane → List Record := fun _ => []
  accepted : Lane → List Record := fun _ => []
  macs : SessionRole → List (Key32 × Bytes) := fun _ => []
  seals : SessionRole → List Seal := fun _ => []

def Session.start (keys : SessionKeys) : Session where
  ends role := .create role keys

/-- The input of a control tag. -/
def controlInput (channel : UInt8) (r : Record) (sequence : UInt64) : Bytes :=
  envelopeAuthenticationData (kSequenceBytes + r.plaintext.length + kControlTagBytes) channel
    r.flags r.ptsMicros sequence kControlDomain ++ r.plaintext

/-- The additional data of a media envelope. -/
def mediaInput (channel : UInt8) (r : Record) (sequence : UInt64) : Bytes :=
  envelopeAuthenticationData (kSequenceBytes + r.plaintext.length + kMediaTagBytes) channel
    (r.flags ||| kEncryptedFlag) r.ptsMicros sequence kMediaDomain

/-- A call on one end; `expired` is the clock's answer. -/
inductive Action where
  | protectControl (role : SessionRole) (expired : Bool) (channel : UInt8) (r : Record)
  | unprotectControl (role : SessionRole) (expired : Bool) (channel flags : UInt8)
    (ptsMicros : UInt64) (envelope : Bytes)
  | protectMedia (role : SessionRole) (expired : Bool) (channel : UInt8) (r : Record)
  | unprotectMedia (role : SessionRole) (expired : Bool) (channel flags : UInt8)
    (ptsMicros : UInt64) (envelope : Bytes)
  deriving DecidableEq, Repr

variable (crypto : Crypto)

/-- One more record on the lane. -/
def extend (logs : Lane → List Record) (lane : Lane) (r : Record) : Lane → List Record :=
  Function.update logs lane (logs lane ++ [r])

def next (s : Session) : Action → Session
  | .protectControl role expired channel r =>
    let p := s.ends role
    match protectControl crypto expired p channel r.flags r.ptsMicros r.plaintext with
    | .error _ => s
    | .ok (_, p') =>
      let input := ((p.outgoingAuthenticatedKeys channel).key,
        controlInput channel r (p.outgoingControlSequence channel).next)
      { s with
        ends := Function.update s.ends role p'
        sent := extend s.sent ⟨role, .control, channel⟩ r
        macs := Function.update s.macs role (input :: s.macs role) }
  | .unprotectControl role expired channel flags ptsMicros envelope =>
    match unprotectControl crypto expired (s.ends role) channel flags ptsMicros envelope with
    | .error _ => s
    | .ok (plaintext, p') =>
      { s with
        ends := Function.update s.ends role p'
        accepted := extend s.accepted ⟨other role, .control, channel⟩
          ⟨flags, ptsMicros, plaintext⟩ }
  | .protectMedia role expired channel r =>
    let p := s.ends role
    match protectMedia crypto expired p channel r.flags r.ptsMicros r.plaintext with
    | .error _ => s
    | .ok (_, p') =>
      let keys := p.outgoingMediaKeys channel
      let sequence := (p.outgoingMediaSequence channel).next
      let nonce := mediaNonce keys.noncePrefix sequence
      let aad := mediaInput channel r sequence
      let (ciphertext, tag) := crypto.encryptChaCha keys.key nonce aad r.plaintext
      { s with
        ends := Function.update s.ends role p'
        sent := extend s.sent ⟨role, .media, channel⟩ r
        seals := Function.update s.seals role
          (⟨keys.key, nonce, aad, r.plaintext, ciphertext, tag.1⟩ :: s.seals role) }
  | .unprotectMedia role expired channel flags ptsMicros envelope =>
    match unprotectMedia crypto expired (s.ends role) channel flags ptsMicros envelope with
    | .error _ => s
    | .ok (plaintext, p') =>
      { s with
        ends := Function.update s.ends role p'
        accepted := extend s.accepted ⟨other role, .media, channel⟩
          ⟨flags &&& ~~~kEncryptedFlag, ptsMicros, plaintext⟩ }

def channels : Machine Session Action := ⟨fun _ _ => True, next crypto⟩

instance (s : Session) (a : Action) : Decidable ((channels crypto).enabled s a) := .isTrue trivial

/-- The primitives are ideal: a call that accepts has verified an input that one of the two ends
has produced, the tag of a control message or the seal of a media payload. -/
def ideal (s : Session) : Action → Prop
  | .unprotectControl role expired channel flags ptsMicros envelope =>
    let p := s.ends role
    ∀ result ∈
        (unprotectControl crypto expired p channel flags ptsMicros envelope).toOption,
      ((p.incomingAuthenticatedKeys channel).key,
        controlInput channel ⟨flags, ptsMicros, result.1⟩ (readBigEndian64 envelope)) ∈
        s.macs .client ++ s.macs .server
  | .unprotectMedia role expired channel flags ptsMicros envelope =>
    let p := s.ends role
    let keys := p.incomingMediaKeys channel
    let sequence := readBigEndian64 envelope
    ∀ result ∈ (unprotectMedia crypto expired p channel flags ptsMicros envelope).toOption,
      ⟨keys.key, mediaNonce keys.noncePrefix sequence,
        envelopeAuthenticationData envelope.length channel flags ptsMicros sequence kMediaDomain,
        result.1, (envelope.drop kSequenceBytes).take
          (envelope.length - kSequenceBytes - kMediaTagBytes),
        envelope.drop (envelope.length - kMediaTagBytes)⟩ ∈ s.seals .client ++ s.seals .server
  | _ => True

instance (s : Session) : ∀ a, Decidable (ideal crypto s a)
  | .unprotectControl .. => Option.decidableForallMem _
  | .unprotectMedia .. => Option.decidableForallMem _
  | .protectControl .. => .isTrue trivial
  | .protectMedia .. => .isTrue trivial

/-- A delivery that is refused. -/
def rejected (s : Session) : Action → Bool
  | .unprotectControl role expired channel flags ptsMicros envelope =>
    (unprotectControl crypto expired (s.ends role) channel flags ptsMicros envelope).toOption.isNone
  | .unprotectMedia role expired channel flags ptsMicros envelope =>
    (unprotectMedia crypto expired (s.ends role) channel flags ptsMicros envelope).toOption.isNone
  | _ => false

/-! ### Counts -/

/-- The counter after `n` records. -/
def counterAt (n : ℕ) : SequenceCounter := advance^[n] {}

theorem advance_counterAt (n : ℕ) : advance (counterAt n) = counterAt (n + 1) :=
  (Function.iterate_succ_apply' advance n {}).symm

/-- Until the limit the counter is the number of records, from there on it is exhausted. -/
theorem counterAt_eq (n : ℕ) :
    (n < 2 ^ 32 → counterAt n = ⟨.ofNat n, false⟩) ∧
      (2 ^ 32 ≤ n → (counterAt n).exhausted = true) := by
  have hmax : kMaximumSessionRecordsPerChannel.toNat = 2 ^ 32 := rfl
  induction n with
  | zero => exact ⟨fun _ => rfl, fun h => absurd h (by decide)⟩
  | succ n ih =>
    rw [← advance_counterAt]
    by_cases hn : n < 2 ^ 32
    · have hnext : (UInt64.ofNat n + 1).toNat = n + 1 := by
        rw [UInt64.toNat_add, UInt64.toNat_ofNat', UInt64.toNat_one]
        omega
      rw [ih.1 hn, advance]
      dsimp only
      split_ifs with hlimit
      · rw [ge_iff_le, UInt64.le_iff_toNat_le, hmax, hnext] at hlimit
        exact ⟨fun h => by omega, fun _ => rfl⟩
      · rw [ge_iff_le, UInt64.le_iff_toNat_le, hmax, hnext] at hlimit
        refine ⟨fun _ => ?_, fun h => absurd h hlimit⟩
        congr 1
        rw [← UInt64.toNat_inj, hnext, UInt64.toNat_ofNat']
        omega
    · refine ⟨fun h => by omega, fun _ => ?_⟩
      have hexhausted := ih.2 (by omega)
      unfold advance
      split_ifs
      · rfl
      · exact hexhausted

/-- The number of the next record, while there is one. -/
theorem counterAt_live {n : ℕ} (h : (counterAt n).exhausted = false) :
    n < 2 ^ 32 ∧ (counterAt n).next.toNat = n := by
  by_cases hn : n < 2 ^ 32
  · refine ⟨hn, ?_⟩
    rw [(counterAt_eq n).1 hn, UInt64.toNat_ofNat']
    omega
  · rw [(counterAt_eq n).2 (by omega)] at h
    cases h

/-! ### The authenticated layout -/

theorem write_inj {n a b : ℕ} (ha : a < 256 ^ n) (hb : b < 256 ^ n)
    (h : BigEndian.write n a = BigEndian.write n b) : a = b := by
  rw [← BigEndian.read_write ha, h, BigEndian.read_write hb]

theorem appendBigEndian64_inj {a b : UInt64} (h : appendBigEndian64 a = appendBigEndian64 b) :
    a = b := UInt64.toNat_inj.mp (write_inj a.toNat_lt b.toNat_lt h)

/-- **The layout is injective** in every field of the header, the number and what follows. -/
theorem envelopeAuthenticationData_inj {size size' : ℕ} {channel channel' flags flags' : UInt8}
    {ptsMicros ptsMicros' sequence sequence' : UInt64} {domain rest rest' : Bytes}
    (h : envelopeAuthenticationData size channel flags ptsMicros sequence domain ++ rest =
      envelopeAuthenticationData size' channel' flags' ptsMicros' sequence' domain ++ rest') :
    BigEndian.write 4 size = BigEndian.write 4 size' ∧ channel = channel' ∧ flags = flags' ∧
      ptsMicros = ptsMicros' ∧ sequence = sequence' ∧ rest = rest' := by
  have h4 : ∀ v, (BigEndian.write 4 v).length = 4 := BigEndian.length_write 4
  have h8 : ∀ v : UInt64, (appendBigEndian64 v).length = 8 := fun v => BigEndian.length_write 8 _
  unfold envelopeAuthenticationData at h
  obtain ⟨h, hrest⟩ := List.append_inj h (by simp [h4, h8])
  obtain ⟨h, -⟩ := List.append_inj h (by simp [h4, h8])
  obtain ⟨h, hsequence⟩ := List.append_inj h (by simp [h4, h8])
  obtain ⟨h, hpts⟩ := List.append_inj h (by simp [h4])
  obtain ⟨hsize, hflags⟩ := List.append_inj h (by simp [h4])
  obtain ⟨rfl, rfl, -⟩ : channel = channel' ∧ flags = flags' ∧ True := by simpa using hflags
  exact ⟨hsize, rfl, rfl, appendBigEndian64_inj hpts, appendBigEndian64_inj hsequence, hrest⟩

theorem controlInput_inj {channel channel' : UInt8} {r r' : Record} {sequence sequence' : UInt64}
    (h : controlInput channel r sequence = controlInput channel' r' sequence') :
    channel = channel' ∧ r = r' ∧ sequence = sequence' := by
  obtain ⟨-, hchannel, hflags, hpts, hsequence, hplaintext⟩ := envelopeAuthenticationData_inj h
  obtain ⟨flags, ptsMicros, plaintext⟩ := r
  obtain ⟨flags', ptsMicros', plaintext'⟩ := r'
  dsimp only at hflags hpts hplaintext
  subst hflags hpts hplaintext
  exact ⟨hchannel, rfl, hsequence⟩

theorem mediaNonce_inj {noncePrefix : FixedBytes 4} {sequence sequence' : UInt64}
    (h : mediaNonce noncePrefix sequence = mediaNonce noncePrefix sequence') :
    sequence = sequence' :=
  appendBigEndian64_inj (List.append_cancel_left (congrArg Subtype.val h))

/-! ### One call -/

/-- The keys of an end, which no call changes. -/
def channelKeys (p : SessionProtector) : List ChannelKeys :=
  [p.outgoingControl, p.incomingControl, p.outgoingVideo, p.incomingVideo, p.outgoingStats,
    p.incomingStats]

def outgoing (p : SessionProtector) : Kind → UInt8 → SequenceCounter
  | .control => p.outgoingControlSequence
  | .media => p.outgoingMediaSequence

def incoming (p : SessionProtector) : Kind → UInt8 → SequenceCounter
  | .control => p.incomingControlSequence
  | .media => p.incomingMediaSequence

/-- The counters, with the one of a kind and a channel advanced. -/
def bump (counters : Kind → UInt8 → SequenceCounter) (kind : Kind) (channel : UInt8) :
    Kind → UInt8 → SequenceCounter :=
  fun k c => if k = kind ∧ c = channel then advance (counters k c) else counters k c

/-- A record is protected: its outgoing counter was live, and it alone advances. -/
structure Writes (p p' : SessionProtector) (kind : Kind) (channel : UInt8) : Prop where
  keys : channelKeys p' = channelKeys p
  live : (outgoing p kind channel).exhausted = false
  outgoing : outgoing p' = bump (outgoing p) kind channel
  incoming : incoming p' = incoming p

/-- A record is accepted: its incoming counter was live, and it alone advances. -/
structure Accepts (p p' : SessionProtector) (kind : Kind) (channel : UInt8) (sequence : UInt64) :
    Prop where
  keys : channelKeys p' = channelKeys p
  live : (incoming p kind channel).exhausted = false
  number : sequence = (incoming p kind channel).next
  outgoing : outgoing p' = outgoing p
  incoming : incoming p' = bump (incoming p) kind channel

variable {crypto} {expired : Bool} {p p' q : SessionProtector} {channel flags : UInt8}
  {ptsMicros : UInt64} {plaintext envelope : Bytes} {out : ProtectedPayload}

theorem keys_of_channelKeys (h : channelKeys p = channelKeys q) (channel : UInt8) :
    (p.outgoingAuthenticatedKeys channel = q.outgoingAuthenticatedKeys channel ∧
      p.incomingAuthenticatedKeys channel = q.incomingAuthenticatedKeys channel) ∧
    (p.outgoingMediaKeys channel = q.outgoingMediaKeys channel ∧
      p.incomingMediaKeys channel = q.incomingMediaKeys channel) := by
  simp only [channelKeys, List.cons.injEq, and_true] at h
  obtain ⟨h1, h2, h3, h4, h5, h6⟩ := h
  unfold SessionProtector.outgoingAuthenticatedKeys SessionProtector.incomingAuthenticatedKeys
    SessionProtector.outgoingMediaKeys SessionProtector.incomingMediaKeys
  rw [h1, h2, h3, h4, h5, h6]
  exact ⟨⟨rfl, rfl⟩, rfl, rfl⟩

theorem bump_control (counters : Kind → UInt8 → SequenceCounter) (channel c : UInt8) :
    Function.update (counters .control) channel (advance (counters .control channel)) c =
      bump counters .control channel .control c := by
  unfold bump
  by_cases hc : c = channel
  · subst hc
    rw [Function.update_self, if_pos ⟨rfl, rfl⟩]
  · rw [Function.update_of_ne hc, if_neg (by simp [hc])]

theorem bump_media (counters : Kind → UInt8 → SequenceCounter) (channel c : UInt8) :
    Function.update (counters .media) channel (advance (counters .media channel)) c =
      bump counters .media channel .media c := by
  unfold bump
  by_cases hc : c = channel
  · subst hc
    rw [Function.update_self, if_pos ⟨rfl, rfl⟩]
  · rw [Function.update_of_ne hc, if_neg (by simp [hc])]

theorem bump_of_ne {counters : Kind → UInt8 → SequenceCounter} {kind k : Kind} (h : k ≠ kind)
    (channel c : UInt8) : bump counters kind channel k c = counters k c :=
  if_neg fun hk => h hk.1

theorem protectControl_spec
    (h : protectControl crypto expired p channel flags ptsMicros plaintext = .ok (out, p')) :
    Writes p p' .control channel := by
  unfold protectControl at h
  dsimp only at h
  split_ifs at h with h1 hexpired h2
  obtain ⟨-, rfl⟩ := Prod.mk.inj (Except.ok.inj h)
  refine ⟨rfl, by simpa [outgoing] using h2, ?_, ?_⟩
  · funext k c
    cases k
    · exact bump_control (outgoing p) channel c
    · exact (bump_of_ne (by decide) channel c).symm
  · funext k
    cases k <;> rfl

theorem unprotectControl_spec
    (h : unprotectControl crypto expired p channel flags ptsMicros envelope =
      .ok (plaintext, p')) :
    Accepts p p' .control channel (readBigEndian64 envelope) ∧
      envelope.length = kSequenceBytes + plaintext.length + kControlTagBytes := by
  unfold unprotectControl at h
  dsimp only at h
  split_ifs at h with h1 hexpired h2 h3
  obtain ⟨rfl, rfl⟩ := Prod.mk.inj (Except.ok.inj h)
  push Not at h1
  refine ⟨⟨rfl, by simpa [incoming] using h2, not_not.mp h3, ?_, ?_⟩, ?_⟩
  · funext k
    cases k <;> rfl
  · funext k c
    cases k
    · exact bump_control (incoming p) channel c
    · exact (bump_of_ne (by decide) channel c).symm
  · rw [List.length_take, List.length_drop]
    omega

theorem protectMedia_spec
    (h : protectMedia crypto expired p channel flags ptsMicros plaintext = .ok (out, p')) :
    Writes p p' .media channel ∧ (channel = 1 ∨ channel = 3) ∧ flags &&& kEncryptedFlag = 0 := by
  unfold protectMedia at h
  dsimp only at h
  split_ifs at h with h1 hexpired h2
  obtain ⟨-, rfl⟩ := Prod.mk.inj (Except.ok.inj h)
  push Not at h1
  refine ⟨⟨rfl, by simpa [outgoing] using h2, ?_, ?_⟩, by tauto, h1.2.1⟩
  · funext k c
    cases k
    · exact (bump_of_ne (by decide) channel c).symm
    · exact bump_media (outgoing p) channel c
  · funext k
    cases k <;> rfl

theorem unprotectMedia_spec
    (h : unprotectMedia crypto expired p channel flags ptsMicros envelope =
      .ok (plaintext, p')) :
    Accepts p p' .media channel (readBigEndian64 envelope) := by
  unfold unprotectMedia at h
  dsimp only at h
  split_ifs at h with h1 hexpired h2 h3
  split at h
  · cases h
  · obtain ⟨-, rfl⟩ := Prod.mk.inj (Except.ok.inj h)
    refine ⟨rfl, by simpa [incoming] using h2, not_not.mp h3, ?_, ?_⟩
    · funext k
      cases k <;> rfl
    · funext k c
      cases k
      · exact (bump_of_ne (by decide) channel c).symm
      · exact bump_media (incoming p) channel c

/-- The flag that `protectMedia` sets is taken off again. -/
theorem clear_encrypted (h : flags &&& kEncryptedFlag = 0) :
    (flags ||| kEncryptedFlag) &&& ~~~kEncryptedFlag = flags := by
  rw [← UInt8.toBitVec_inj] at h ⊢
  ext i hi
  have hbit : (flags.toBitVec &&& kEncryptedFlag.toBitVec)[i] = (0#8)[i] := by
    rw [← UInt8.toBitVec_and, h]
    rfl
  simp only [BitVec.getElem_and, BitVec.getElem_zero] at hbit
  simp only [UInt8.toBitVec_and, UInt8.toBitVec_or, UInt8.toBitVec_not, BitVec.getElem_and,
    BitVec.getElem_or, BitVec.getElem_not]
  generalize flags.toBitVec[i] = x at hbit ⊢
  generalize kEncryptedFlag.toBitVec[i] = y at hbit ⊢
  revert hbit
  revert x y
  decide

end RemoteCam.Security.Channels
