import RemoteCam.Lib.BigEndian
import Mathlib.Data.UInt
import Mathlib.Tactic.SplitIfs

/-! # The session protector

After authentication every control payload travels in an envelope: an 8-byte sequence number, the
plaintext and a tag over both and the frame header. `protectControl` numbers and tags,
`unprotectControl` accepts only the next number of its channel. HMAC-SHA256 and ChaCha20-Poly1305
are the parameter `Crypto`; whether the session has expired is an argument of each call.
`unprotectControl_protectControl`: what one end protects, the other accepts next. -/

namespace RemoteCam.Security.Protector

open RemoteCam.Lib

abbrev Bytes := List UInt8

/-- `std::array<uint8_t, n>`. -/
abbrev FixedBytes (n : ℕ) := { bytes : Bytes // bytes.length = n }

abbrev Key32 := FixedBytes 32

inductive Error where
  | invalidArgument
  | authenticationFailed
  | sequenceMismatch
  | sequenceExhausted
  | expired
  deriving DecidableEq, Repr

/-- The primitives of the cryptographic library. -/
structure Crypto where
  hmacSha256 : Key32 → Bytes → Key32
  /-- Ciphertext and tag, from key, nonce, additional data and plaintext. -/
  encryptChaCha : Key32 → FixedBytes 12 → Bytes → Bytes → Bytes × FixedBytes 16
  /-- The plaintext, from key, nonce, additional data, ciphertext and tag. -/
  decryptChaCha : Key32 → FixedBytes 12 → Bytes → Bytes → Bytes → Option Bytes

def kEncryptedFlag : UInt8 := 2
def kControlTagBytes : ℕ := 32
def kMediaTagBytes : ℕ := 16
def kSequenceBytes : ℕ := 8
def kMaximumWirePayload : ℕ := 16 * 1024 * 1024
def kMaximumControlPlaintext : ℕ := 1024 * 1024
def kMaximumSessionRecordsPerChannel : UInt64 := 2 ^ 32

def asciiBytes (s : String) : Bytes := s.toList.map fun c => c.val.toUInt8

def kControlDomain : Bytes := asciiBytes "RemoteCam control envelope v1"
def kMediaDomain : Bytes := asciiBytes "RemoteCam media envelope v1"

structure ChannelKeys where
  key : Key32
  noncePrefix : FixedBytes 4

structure SessionKeys where
  controlAtoB : ChannelKeys
  controlBtoA : ChannelKeys
  videoAtoB : ChannelKeys
  videoBtoA : ChannelKeys
  statsAtoB : ChannelKeys
  statsBtoA : ChannelKeys

inductive SessionRole where
  | client
  | server
  deriving DecidableEq, Repr

structure SequenceCounter where
  next : UInt64 := 0
  exhausted : Bool := false
  deriving DecidableEq, Repr

def advance (counter : SequenceCounter) : SequenceCounter :=
  if counter.next + 1 ≥ kMaximumSessionRecordsPerChannel then { counter with exhausted := true }
  else { counter with next := counter.next + 1 }

structure SessionProtector where
  outgoingControl : ChannelKeys
  incomingControl : ChannelKeys
  outgoingVideo : ChannelKeys
  incomingVideo : ChannelKeys
  outgoingStats : ChannelKeys
  incomingStats : ChannelKeys
  outgoingControlSequence : UInt8 → SequenceCounter := fun _ => {}
  incomingControlSequence : UInt8 → SequenceCounter := fun _ => {}
  outgoingMediaSequence : UInt8 → SequenceCounter := fun _ => {}
  incomingMediaSequence : UInt8 → SequenceCounter := fun _ => {}

/-- The constructor: the phone is the client and role A. -/
def SessionProtector.create (role : SessionRole) (keys : SessionKeys) : SessionProtector :=
  match role with
  | .client =>
    { outgoingControl := keys.controlAtoB, incomingControl := keys.controlBtoA
      outgoingVideo := keys.videoAtoB, incomingVideo := keys.videoBtoA
      outgoingStats := keys.statsAtoB, incomingStats := keys.statsBtoA }
  | .server =>
    { outgoingControl := keys.controlBtoA, incomingControl := keys.controlAtoB
      outgoingVideo := keys.videoBtoA, incomingVideo := keys.videoAtoB
      outgoingStats := keys.statsBtoA, incomingStats := keys.statsAtoB }

def SessionProtector.outgoingAuthenticatedKeys (p : SessionProtector) (channel : UInt8) :
    ChannelKeys := if channel = 0 then p.outgoingControl else p.outgoingStats

def SessionProtector.incomingAuthenticatedKeys (p : SessionProtector) (channel : UInt8) :
    ChannelKeys := if channel = 0 then p.incomingControl else p.incomingStats

/-- A control envelope of the channel was written. -/
def SessionProtector.advanceOutgoing (p : SessionProtector) (channel : UInt8) : SessionProtector :=
  { p with
    outgoingControlSequence := Function.update p.outgoingControlSequence channel
      (advance (p.outgoingControlSequence channel)) }

/-- A control envelope of the channel was accepted. -/
def SessionProtector.advanceIncoming (p : SessionProtector) (channel : UInt8) : SessionProtector :=
  { p with
    incomingControlSequence := Function.update p.incomingControlSequence channel
      (advance (p.incomingControlSequence channel)) }

@[simp] theorem SessionProtector.outgoing_advanceOutgoing (p : SessionProtector) (channel : UInt8) :
    (p.advanceOutgoing channel).outgoingControlSequence channel =
      advance (p.outgoingControlSequence channel) := Function.update_self ..

@[simp] theorem SessionProtector.incoming_advanceIncoming (p : SessionProtector) (channel : UInt8) :
    (p.advanceIncoming channel).incomingControlSequence channel =
      advance (p.incomingControlSequence channel) := Function.update_self ..

theorem SessionProtector.outgoing_advanceOutgoing_of_ne (p : SessionProtector) {channel c : UInt8}
    (h : c ≠ channel) :
    (p.advanceOutgoing channel).outgoingControlSequence c = p.outgoingControlSequence c :=
  Function.update_of_ne h ..

theorem SessionProtector.incoming_advanceIncoming_of_ne (p : SessionProtector) {channel c : UInt8}
    (h : c ≠ channel) :
    (p.advanceIncoming channel).incomingControlSequence c = p.incomingControlSequence c :=
  Function.update_of_ne h ..

def SessionProtector.outgoingMediaKeys (p : SessionProtector) (channel : UInt8) : ChannelKeys :=
  if channel = 1 then p.outgoingVideo else p.outgoingStats

def SessionProtector.incomingMediaKeys (p : SessionProtector) (channel : UInt8) : ChannelKeys :=
  if channel = 1 then p.incomingVideo else p.incomingStats

structure ProtectedPayload where
  flags : UInt8
  payload : Bytes
  deriving DecidableEq, Repr

def readBigEndian64 (data : Bytes) : UInt64 := .ofNat (BigEndian.read (data.take 8))

def appendBigEndian64 (value : UInt64) : Bytes := BigEndian.write 8 value.toNat

/-- The header of the frame that will carry the payload, the sequence number and the domain. -/
def envelopeAuthenticationData (payloadSize : ℕ) (channel flags : UInt8) (ptsMicros sequence : UInt64)
    (domain : Bytes) : Bytes :=
  BigEndian.write 4 payloadSize ++ [channel, flags, 0, 0] ++ appendBigEndian64 ptsMicros ++
    appendBigEndian64 sequence ++ domain

def mediaNonce (noncePrefix : FixedBytes 4) (sequence : UInt64) : FixedBytes 12 :=
  ⟨noncePrefix.1 ++ appendBigEndian64 sequence, by
    rw [List.length_append, noncePrefix.2, appendBigEndian64, BigEndian.length_write]⟩

variable (crypto : Crypto)

/-- The tag of a control envelope. -/
def controlTag (key : Key32) (envelopeSize : ℕ) (channel flags : UInt8)
    (ptsMicros sequence : UInt64) (plaintext : Bytes) : Key32 :=
  crypto.hmacSha256 key
    (envelopeAuthenticationData envelopeSize channel flags ptsMicros sequence kControlDomain ++
      plaintext)

def protectControl (expired : Bool) (p : SessionProtector) (channel flags : UInt8)
    (ptsMicros : UInt64) (plaintext : Bytes) : Except Error (ProtectedPayload × SessionProtector) :=
  if (channel ≠ 0 ∧ channel ≠ 3) ∨ flags &&& kEncryptedFlag ≠ 0 ∨
      plaintext.length > kMaximumControlPlaintext then .error .invalidArgument
  else if expired then .error .expired
  else
    let counter := p.outgoingControlSequence channel
    if counter.exhausted then .error .sequenceExhausted
    else
      let sequence := counter.next
      let envelopeSize := kSequenceBytes + plaintext.length + kControlTagBytes
      let tag := controlTag crypto (p.outgoingAuthenticatedKeys channel).key envelopeSize channel
        flags ptsMicros sequence plaintext
      .ok ({ flags, payload := appendBigEndian64 sequence ++ plaintext ++ tag.1 },
        p.advanceOutgoing channel)

def unprotectControl (expired : Bool) (p : SessionProtector) (channel flags : UInt8)
    (ptsMicros : UInt64) (envelope : Bytes) : Except Error (Bytes × SessionProtector) :=
  if (channel ≠ 0 ∧ channel ≠ 3) ∨ flags &&& kEncryptedFlag ≠ 0 ∨
      envelope.length < kSequenceBytes + kControlTagBytes ∨
      envelope.length > kMaximumControlPlaintext + kSequenceBytes + kControlTagBytes then
    .error .invalidArgument
  else if expired then .error .expired
  else
    let counter := p.incomingControlSequence channel
    if counter.exhausted then .error .sequenceExhausted
    else
      let sequence := readBigEndian64 envelope
      if sequence ≠ counter.next then .error .sequenceMismatch
      else
        let plaintextSize := envelope.length - kSequenceBytes - kControlTagBytes
        let recovered := (envelope.drop kSequenceBytes).take plaintextSize
        let expected := controlTag crypto (p.incomingAuthenticatedKeys channel).key envelope.length
          channel flags ptsMicros sequence recovered
        if expected.1 ≠ envelope.drop (kSequenceBytes + plaintextSize) then
          .error .authenticationFailed
        else
          .ok (recovered, p.advanceIncoming channel)

def protectMedia (expired : Bool) (p : SessionProtector) (channel flags : UInt8)
    (ptsMicros : UInt64) (plaintext : Bytes) : Except Error (ProtectedPayload × SessionProtector) :=
  if (channel ≠ 1 ∧ channel ≠ 3) ∨ flags &&& kEncryptedFlag ≠ 0 ∨
      plaintext.length > kMaximumWirePayload - kSequenceBytes - kMediaTagBytes then
    .error .invalidArgument
  else if expired then .error .expired
  else
    let counter := p.outgoingMediaSequence channel
    if counter.exhausted then .error .sequenceExhausted
    else
      let sequence := counter.next
      let protectedFlags := flags ||| kEncryptedFlag
      let envelopeSize := kSequenceBytes + plaintext.length + kMediaTagBytes
      let aad := envelopeAuthenticationData envelopeSize channel protectedFlags ptsMicros sequence
        kMediaDomain
      let keys := p.outgoingMediaKeys channel
      let (ciphertext, tag) :=
        crypto.encryptChaCha keys.key (mediaNonce keys.noncePrefix sequence) aad plaintext
      .ok ({ flags := protectedFlags, payload := appendBigEndian64 sequence ++ ciphertext ++ tag.1 },
        { p with
          outgoingMediaSequence :=
            Function.update p.outgoingMediaSequence channel (advance counter) })

def unprotectMedia (expired : Bool) (p : SessionProtector) (channel flags : UInt8)
    (ptsMicros : UInt64) (envelope : Bytes) : Except Error (Bytes × SessionProtector) :=
  if (channel ≠ 1 ∧ channel ≠ 3) ∨ flags &&& kEncryptedFlag = 0 ∨
      envelope.length < kSequenceBytes + kMediaTagBytes ∨
      envelope.length > kMaximumWirePayload then
    .error .invalidArgument
  else if expired then .error .expired
  else
    let counter := p.incomingMediaSequence channel
    if counter.exhausted then .error .sequenceExhausted
    else
      let sequence := readBigEndian64 envelope
      if sequence ≠ counter.next then .error .sequenceMismatch
      else
        let ciphertextSize := envelope.length - kSequenceBytes - kMediaTagBytes
        let aad := envelopeAuthenticationData envelope.length channel flags ptsMicros sequence
          kMediaDomain
        let keys := p.incomingMediaKeys channel
        match crypto.decryptChaCha keys.key (mediaNonce keys.noncePrefix sequence) aad
            ((envelope.drop kSequenceBytes).take ciphertextSize)
            (envelope.drop (kSequenceBytes + ciphertextSize)) with
        | none => .error .authenticationFailed
        | some recovered =>
          .ok (recovered, { p with
            incomingMediaSequence :=
              Function.update p.incomingMediaSequence channel (advance counter) })

/-! ### One envelope -/

variable {crypto}

theorem readBigEndian64_append (sequence : UInt64) (rest : Bytes) :
    readBigEndian64 (appendBigEndian64 sequence ++ rest) = sequence := by
  have hlen : (appendBigEndian64 sequence).length = 8 := BigEndian.length_write 8 _
  rw [readBigEndian64, List.take_left' hlen, appendBigEndian64,
    BigEndian.read_write sequence.toNat_lt, UInt64.ofNat_toNat]

/-- What `protectControl` returns when it succeeds. -/
theorem protectControl_ok {p p' : SessionProtector} {channel flags : UInt8} {ptsMicros : UInt64}
    {plaintext : Bytes} {out : ProtectedPayload}
    (h : protectControl crypto false p channel flags ptsMicros plaintext = .ok (out, p')) :
    (p.outgoingControlSequence channel).exhausted = false ∧ flags &&& kEncryptedFlag = 0 ∧
      out.flags = flags ∧ p' = p.advanceOutgoing channel := by
  unfold protectControl at h
  dsimp only at h
  split_ifs at h with h1 hexpired h2
  obtain ⟨rfl, rfl⟩ := Prod.mk.inj (Except.ok.inj h)
  push Not at h1
  exact ⟨by simpa using h2, h1.2.1, rfl, rfl⟩

/-- **The other end accepts next** what this end protects: with the same key and the same count on
the channel it recovers the plaintext, and the two counts stay the same. -/
theorem unprotectControl_protectControl {p p' peer : SessionProtector} {channel flags : UInt8}
    {ptsMicros : UInt64} {plaintext : Bytes} {out : ProtectedPayload}
    (h : protectControl crypto false p channel flags ptsMicros plaintext = .ok (out, p'))
    (hkey : peer.incomingAuthenticatedKeys channel = p.outgoingAuthenticatedKeys channel)
    (hcount : peer.incomingControlSequence channel = p.outgoingControlSequence channel) :
    unprotectControl crypto false peer channel out.flags ptsMicros out.payload =
      .ok (plaintext, peer.advanceIncoming channel) := by
  unfold protectControl at h
  dsimp only at h
  split_ifs at h with h1 hexpired h2
  obtain ⟨rfl, rfl⟩ := Prod.mk.inj (Except.ok.inj h)
  push Not at h1
  obtain ⟨hchannel, hflags, hsize⟩ := h1
  set sequence := (p.outgoingControlSequence channel).next
  set tag := controlTag crypto (p.outgoingAuthenticatedKeys channel).key
    (kSequenceBytes + plaintext.length + kControlTagBytes) channel flags ptsMicros sequence plaintext
  have hseq : (appendBigEndian64 sequence).length = kSequenceBytes := BigEndian.length_write 8 _
  have htag : tag.1.length = kControlTagBytes := tag.2
  have hlen : (appendBigEndian64 sequence ++ plaintext ++ tag.1).length =
      kSequenceBytes + plaintext.length + kControlTagBytes := by
    rw [List.length_append, List.length_append, hseq, htag]
  have hplain : kSequenceBytes + plaintext.length + kControlTagBytes - kSequenceBytes -
      kControlTagBytes = plaintext.length := by omega
  have hrecovered : ((appendBigEndian64 sequence ++ plaintext ++ tag.1).drop kSequenceBytes).take
      plaintext.length = plaintext := by
    rw [List.append_assoc, List.drop_left' hseq, List.take_left' rfl]
  have hrest : (appendBigEndian64 sequence ++ plaintext ++ tag.1).drop
      (kSequenceBytes + plaintext.length) = tag.1 :=
    List.drop_left' (by rw [List.length_append, hseq])
  have hread : readBigEndian64 (appendBigEndian64 sequence ++ plaintext ++ tag.1) = sequence := by
    rw [List.append_assoc, readBigEndian64_append]
  unfold unprotectControl
  dsimp only
  rw [if_neg (by
      push Not
      exact ⟨hchannel, hflags, by omega, by omega⟩),
    if_neg (by decide), hcount, if_neg h2, hread, if_neg (not_not.mpr rfl), hlen, hplain,
    hrecovered, hrest, hkey, if_neg (not_not.mpr rfl)]

/-- What `unprotectControl` has checked when it succeeds. -/
theorem unprotectControl_ok {p p' : SessionProtector} {channel flags : UInt8} {ptsMicros : UInt64}
    {envelope plaintext : Bytes}
    (h : unprotectControl crypto false p channel flags ptsMicros envelope = .ok (plaintext, p')) :
    (p.incomingControlSequence channel).exhausted = false ∧
      readBigEndian64 envelope = (p.incomingControlSequence channel).next ∧
      p' = p.advanceIncoming channel := by
  unfold unprotectControl at h
  dsimp only at h
  split_ifs at h with h1 hexpired h2 h3
  obtain ⟨-, rfl⟩ := Prod.mk.inj (Except.ok.inj h)
  exact ⟨by simpa using h2, not_not.mp h3, rfl⟩

/-- A count that is not exhausted goes up by one. -/
theorem advance_lt {counter : SequenceCounter}
    (hlt : counter.next < kMaximumSessionRecordsPerChannel)
    (h : (advance counter).exhausted = false) : counter.next < (advance counter).next := by
  unfold advance at h ⊢
  split_ifs at h ⊢ with hmax
  have hk : kMaximumSessionRecordsPerChannel.toNat = 2 ^ 32 := rfl
  rw [UInt64.lt_iff_toNat_lt] at hlt
  rw [UInt64.lt_iff_toNat_lt, UInt64.toNat_add, UInt64.toNat_one]
  omega

theorem advance_next_lt {counter : SequenceCounter}
    (hlt : counter.next < kMaximumSessionRecordsPerChannel) :
    (advance counter).next < kMaximumSessionRecordsPerChannel := by
  unfold advance
  split_ifs with hmax
  · exact hlt
  · exact UInt64.not_le.mp hmax

end RemoteCam.Security.Protector
