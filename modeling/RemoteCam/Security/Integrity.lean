import RemoteCam.Security.Channels

/-! # What two protectors accept of one another

The counters of the two ends are the lengths of the logs, and every input of HMAC and AEAD carries
the number of its record. An envelope that is accepted has the number of the records accepted
before, so it can only be the next of those that were sent. -/

namespace RemoteCam.Security.Integrity

open RemoteCam.Lib RemoteCam.Lib.Transitions RemoteCam.Security.Protector
open RemoteCam.Security.Channels

variable {crypto : Crypto} {p p' : SessionProtector} {channel : UInt8}

/-! ### The invariant -/

variable {keys : SessionKeys} {s s' : Session} {role : SessionRole} {kind : Kind} {r : Record}

/-- The keys of the control envelopes a role sends on a channel. -/
def controlKey (keys : SessionKeys) (role : SessionRole) (channel : UInt8) : Key32 :=
  ((SessionProtector.create role keys).outgoingAuthenticatedKeys channel).key

/-- The keys of the media envelopes a role sends on a channel. -/
def mediaKeys (keys : SessionKeys) (role : SessionRole) (channel : UInt8) : ChannelKeys :=
  (SessionProtector.create role keys).outgoingMediaKeys channel

/-- The input of a control tag comes from a record that was sent. -/
def Tagged (keys : SessionKeys) (s : Session) (role : SessionRole) (x : Key32 × Bytes) : Prop :=
  ∃ channel r number, (s.sent ⟨role, .control, channel⟩)[number.toNat]? = some r ∧
    x = (controlKey keys role channel, controlInput channel r number)

/-- A seal comes from a record that was sent. -/
def Sealed (keys : SessionKeys) (s : Session) (role : SessionRole) (x : Seal) : Prop :=
  ∃ channel r number, (s.sent ⟨role, .media, channel⟩)[number.toNat]? = some r ∧
    (channel = 1 ∨ channel = 3) ∧ r.flags &&& kEncryptedFlag = 0 ∧
    x.key = (mediaKeys keys role channel).key ∧
    x.nonce = mediaNonce (mediaKeys keys role channel).noncePrefix number ∧
    x.aad = mediaInput channel r number ∧ x.plaintext = r.plaintext

structure Inv (keys : SessionKeys) (s : Session) : Prop where
  fixed : ∀ role, channelKeys (s.ends role) = channelKeys (.create role keys)
  sent : ∀ role kind channel, outgoing (s.ends role) kind channel =
    counterAt (s.sent ⟨role, kind, channel⟩).length
  accepted : ∀ role kind channel, incoming (s.ends role) kind channel =
    counterAt (s.accepted ⟨other role, kind, channel⟩).length
  macs : ∀ role, ∀ x ∈ s.macs role, Tagged keys s role x
  seals : ∀ role, ∀ x ∈ s.seals role, Sealed keys s role x
  nonces : ∀ role, ((s.seals role).map fun x => (x.key, x.nonce)).Nodup

theorem extend_self (logs : Lane → List Record) (lane : Lane) (r : Record) :
    extend logs lane r lane = logs lane ++ [r] := Function.update_self ..

theorem extend_of_ne {lane lane' : Lane} (h : lane' ≠ lane) (logs : Lane → List Record)
    (r : Record) : extend logs lane r lane' = logs lane' := Function.update_of_ne h ..

/-- What was sent under a number stays so. -/
theorem getElem_extend {logs : Lane → List Record} {lane lane' : Lane} {r r' : Record} {n : ℕ}
    (h : (logs lane')[n]? = some r') : (extend logs lane r lane')[n]? = some r' := by
  by_cases hl : lane' = lane
  · subst hl
    rw [extend_self]
    exact List.getElem?_append_left (List.getElem?_eq_some_iff.mp h).1 ▸ h
  · rwa [extend_of_ne hl]

theorem bump_log {counters : Kind → UInt8 → SequenceCounter} {logs : Lane → List Record}
    {sender : SessionRole} {channel : UInt8} (r : Record)
    (h : ∀ k c, counters k c = counterAt (logs ⟨sender, k, c⟩).length) (k : Kind) (c : UInt8) :
    bump counters kind channel k c =
      counterAt (extend logs ⟨sender, kind, channel⟩ r ⟨sender, k, c⟩).length := by
  unfold bump
  by_cases hk : k = kind ∧ c = channel
  · obtain ⟨rfl, rfl⟩ := hk
    rw [if_pos ⟨rfl, rfl⟩, extend_self, h, advance_counterAt, List.length_append,
      List.length_singleton]
  · rw [if_neg hk, extend_of_ne (by simpa [Lane.mk.injEq] using hk), h]

/-- The record that is protected gets the number of the records before it. -/
theorem Inv.number (h : Inv keys s) {p' : SessionProtector} (hw : Writes (s.ends role) p' kind channel)
    (r : Record) :
    (extend s.sent ⟨role, kind, channel⟩ r ⟨role, kind, channel⟩)[
      (outgoing (s.ends role) kind channel).next.toNat]? = some r ∧
    (outgoing (s.ends role) kind channel).next.toNat =
      (s.sent ⟨role, kind, channel⟩).length := by
  have hlive := hw.live
  rw [h.sent] at hlive ⊢
  obtain ⟨-, hnext⟩ := counterAt_live hlive
  rw [hnext, extend_self]
  exact ⟨List.getElem?_concat_length, rfl⟩

theorem Tagged.extend {x : Key32 × Bytes} {lane : Lane} (h : Tagged keys s role x)
    (hsent : s'.sent = extend s.sent lane r) : Tagged keys s' role x := by
  obtain ⟨channel, r', number, hget, hx⟩ := h
  exact ⟨channel, r', number, hsent ▸ getElem_extend hget, hx⟩

theorem Sealed.extend {x : Seal} {lane : Lane} (h : Sealed keys s role x)
    (hsent : s'.sent = extend s.sent lane r) : Sealed keys s' role x := by
  obtain ⟨channel, r', number, hget, hx⟩ := h
  exact ⟨channel, r', number, hsent ▸ getElem_extend hget, hx⟩

/-- A record is protected; what goes into HMAC or AEAD comes from it. -/
theorem Inv.write (h : Inv keys s) {p' : SessionProtector}
    (hw : Writes (s.ends role) p' kind channel)
    (hends : s'.ends = Function.update s.ends role p')
    (hsent : s'.sent = extend s.sent ⟨role, kind, channel⟩ r)
    (haccepted : s'.accepted = s.accepted)
    (hmacs : ∀ u, ∀ x ∈ s'.macs u, x ∈ s.macs u ∨ Tagged keys s' u x)
    (hseals : ∀ u, ∀ x ∈ s'.seals u, x ∈ s.seals u ∨ Sealed keys s' u x)
    (hnonces : ∀ u, ((s'.seals u).map fun x => (x.key, x.nonce)).Nodup) : Inv keys s' := by
  refine ⟨fun u => ?_, fun u k c => ?_, fun u k c => ?_, fun u x hx => ?_, fun u x hx => ?_, hnonces⟩
  · rw [hends]
    by_cases hu : u = role
    · subst hu
      rw [Function.update_self, hw.keys, h.fixed]
    · rw [Function.update_of_ne hu, h.fixed]
  · rw [hends, hsent]
    by_cases hu : u = role
    · subst hu
      rw [Function.update_self, hw.outgoing]
      exact bump_log r (fun k c => h.sent u k c) k c
    · rw [Function.update_of_ne hu, extend_of_ne (by simp [hu]), h.sent]
  · rw [hends, haccepted]
    by_cases hu : u = role
    · subst hu
      rw [Function.update_self, hw.incoming, h.accepted]
    · rw [Function.update_of_ne hu, h.accepted]
  · exact (hmacs u x hx).elim (fun hold => (h.macs u x hold).extend hsent) id
  · exact (hseals u x hx).elim (fun hold => (h.seals u x hold).extend hsent) id

/-- A record is accepted. -/
theorem Inv.accept (h : Inv keys s) {p' : SessionProtector} {sequence : UInt64}
    (ha : Accepts (s.ends role) p' kind channel sequence)
    (hends : s'.ends = Function.update s.ends role p') (hsent : s'.sent = s.sent)
    (haccepted : s'.accepted = extend s.accepted ⟨other role, kind, channel⟩ r)
    (hmacs : s'.macs = s.macs) (hseals : s'.seals = s.seals) : Inv keys s' := by
  refine ⟨fun u => ?_, fun u k c => ?_, fun u k c => ?_, fun u x hx => ?_, fun u x hx => ?_,
    fun u => hseals ▸ h.nonces u⟩
  · rw [hends]
    by_cases hu : u = role
    · subst hu
      rw [Function.update_self, ha.keys, h.fixed]
    · rw [Function.update_of_ne hu, h.fixed]
  · rw [hends, hsent]
    by_cases hu : u = role
    · subst hu
      rw [Function.update_self, ha.outgoing, h.sent]
    · rw [Function.update_of_ne hu, h.sent]
  · rw [hends, haccepted]
    by_cases hu : u = role
    · subst hu
      rw [Function.update_self, ha.incoming]
      exact bump_log r (fun k c => h.accepted u k c) k c
    · have hother : other u ≠ other role := by
        cases u <;> cases role <;> first | exact absurd rfl hu | decide
      rw [Function.update_of_ne hu, extend_of_ne (by simp [hother]), h.accepted]
  · obtain ⟨c, r', number, hget, hx'⟩ := h.macs u x (hmacs ▸ hx)
    exact ⟨c, r', number, hsent ▸ hget, hx'⟩
  · obtain ⟨c, r', number, hget, hx'⟩ := h.seals u x (hseals ▸ hx)
    exact ⟨c, r', number, hsent ▸ hget, hx'⟩

/-- The media keys of one end differ from channel to channel. -/
theorem mediaKeys_inj (hkeys : Separate keys) {c c' : UInt8} (hc : c = 1 ∨ c = 3)
    (hc' : c' = 1 ∨ c' = 3) (h : (mediaKeys keys role c).key = (mediaKeys keys role c').key) :
    c = c' := by
  simp only [Separate, List.nodup_cons, List.mem_cons, List.not_mem_nil, or_false, not_or,
    not_false_eq_true, and_true, List.nodup_nil] at hkeys
  rcases hc with rfl | rfl <;> rcases hc' with rfl | rfl
  · rfl
  · cases role
    · exact absurd h hkeys.2.2.1.2.1
    · exact absurd h hkeys.2.2.2.1.2
  · cases role
    · exact absurd h.symm hkeys.2.2.1.2.1
    · exact absurd h.symm hkeys.2.2.2.1.2
  · rfl

/-- Under the number it is about to use, an end has sealed nothing on the channel. -/
theorem nonce_fresh (hkeys : Separate keys) (h : Inv keys s) {p' : SessionProtector}
    (hw : Writes (s.ends role) p' .media channel) (hchannel : channel = 1 ∨ channel = 3) :
    ((mediaKeys keys role channel).key,
      mediaNonce (mediaKeys keys role channel).noncePrefix
        (outgoing (s.ends role) .media channel).next) ∉
      (s.seals role).map fun x => (x.key, x.nonce) := by
  intro hmem
  obtain ⟨x, hx, heq⟩ := List.mem_map.mp hmem
  obtain ⟨c, r', number, hget, hc, -, hkey, hnonce, -⟩ := h.seals role x hx
  obtain ⟨hkey', hnonce'⟩ := Prod.mk.inj heq
  obtain rfl : c = channel := mediaKeys_inj hkeys hc hchannel (hkey.symm.trans hkey')
  have hnumber : number = (outgoing (s.ends role) .media c).next :=
    mediaNonce_inj (hnonce.symm.trans hnonce')
  have hlength := (h.number hw r').2
  have hlt : number.toNat < (s.sent ⟨role, .media, c⟩).length :=
    (List.getElem?_eq_some_iff.mp hget).1
  rw [hnumber, hlength] at hlt
  exact Nat.lt_irrefl _ hlt

theorem mem_update {α : Type*} {f : SessionRole → List α} {new x : α} {u : SessionRole}
    (h : x ∈ Function.update f role (new :: f role) u) : x ∈ f u ∨ u = role ∧ x = new := by
  by_cases hu : u = role
  · subst hu
    rw [Function.update_self] at h
    exact (List.mem_cons.mp h).elim (fun hx => .inr ⟨rfl, hx⟩) .inl
  · rw [Function.update_of_ne hu] at h
    exact .inl h

theorem inv_next (hkeys : Separate keys) (h : Inv keys s) (a : Action) :
    Inv keys (next crypto s a) := by
  cases a with
  | protectControl role expired channel r =>
    rw [next]
    dsimp only
    split
    · exact h
    · rename_i out p' hok
      have hw := protectControl_spec hok
      have hfixed := (keys_of_channelKeys (h.fixed role) channel).1.1
      refine h.write hw rfl rfl rfl (fun u x hx => ?_) (fun u x hx => .inl hx) h.nonces
      refine (mem_update hx).imp_right ?_
      rintro ⟨rfl, rfl⟩
      refine ⟨channel, r, _, (h.number hw r).1, ?_⟩
      rw [controlKey, ← hfixed]
      rfl
  | unprotectControl role expired channel flags ptsMicros envelope =>
    rw [next]
    split
    · exact h
    · rename_i plaintext p' hok
      exact h.accept (unprotectControl_spec hok).1 rfl rfl rfl rfl rfl
  | protectMedia role expired channel r =>
    rw [next]
    dsimp only
    split
    · exact h
    · rename_i out p' hok
      obtain ⟨hw, hchannel, hflags⟩ := protectMedia_spec hok
      have hfixed : (s.ends role).outgoingMediaKeys channel = mediaKeys keys role channel :=
        (keys_of_channelKeys (h.fixed role) channel).2.1
      refine h.write hw rfl rfl rfl (fun u x hx => .inl hx) (fun u x hx => ?_) fun u => ?_
      · refine (mem_update hx).imp_right ?_
        rintro ⟨rfl, rfl⟩
        refine ⟨channel, r, _, (h.number hw r).1, hchannel, hflags, ?_, ?_, rfl, rfl⟩
        · rw [← hfixed]
        · rw [← hfixed]
          rfl
      · dsimp only
        by_cases hu : u = role
        · subst hu
          rw [Function.update_self, List.map_cons, List.nodup_cons]
          refine ⟨?_, h.nonces u⟩
          rw [hfixed]
          exact nonce_fresh hkeys h hw hchannel
        · rw [Function.update_of_ne hu]
          exact h.nonces u
  | unprotectMedia role expired channel flags ptsMicros envelope =>
    rw [next]
    split
    · exact h
    · rename_i plaintext p' hok
      exact h.accept (unprotectMedia_spec hok) rfl rfl rfl rfl rfl

theorem inv_start (keys : SessionKeys) : Inv keys (.start keys) where
  fixed _ := rfl
  sent role kind _ := by cases role <;> cases kind <;> rfl
  accepted role kind _ := by cases role <;> cases kind <;> rfl
  macs := nofun
  seals := nofun
  nonces _ := List.nodup_nil

/-! ### What is accepted -/

/-- What an end accepts on a lane is what the other sent there, in order, up to some record. -/
def InOrder (s : Session) : Prop := ∀ lane, s.accepted lane <+: s.sent lane

theorem prefix_concat {l m : List Record} (h : l <+: m) (hnext : m[l.length]? = some r) :
    l ++ [r] <+: m := by
  obtain ⟨t, rfl⟩ := h
  rw [List.getElem?_append_right (Nat.le_refl _), Nat.sub_self] at hnext
  cases t with
  | nil => cases hnext
  | cons x t =>
    cases hnext
    exact ⟨t, by rw [List.append_assoc, List.singleton_append]⟩

theorem prefix_extend {l : List Record} {logs : Lane → List Record} {lane lane' : Lane}
    (h : l <+: logs lane') : l <+: extend logs lane r lane' := by
  by_cases hl : lane' = lane
  · subst hl
    rw [extend_self]
    exact h.trans (List.prefix_append ..)
  · rwa [extend_of_ne hl]

/-- The record accepted next was sent under the number of the records accepted before. -/
theorem InOrder.accept (h : InOrder s) (hinv : Inv keys s) {p' : SessionProtector}
    {sequence : UInt64} (ha : Accepts (s.ends role) p' kind channel sequence)
    (hnext : (s.sent ⟨other role, kind, channel⟩)[sequence.toNat]? = some r)
    (hsent : s'.sent = s.sent)
    (haccepted : s'.accepted = extend s.accepted ⟨other role, kind, channel⟩ r) : InOrder s' := by
  intro lane
  rw [hsent, haccepted]
  by_cases hl : lane = ⟨other role, kind, channel⟩
  · subst hl
    have hlive := ha.live
    have hnumber := ha.number
    rw [hinv.accepted] at hlive hnumber
    rw [hnumber, (counterAt_live hlive).2] at hnext
    rw [extend_self]
    exact prefix_concat (h _) hnext
  · rw [extend_of_ne hl]
    exact h lane

theorem controlKey_inj (hkeys : Separate keys) {u v : SessionRole} {c : UInt8}
    (h : controlKey keys u c = controlKey keys v c) : u = v := by
  simp only [Separate, List.nodup_cons, List.mem_cons, List.not_mem_nil, or_false, not_or,
    not_false_eq_true, and_true, List.nodup_nil] at hkeys
  by_cases hc : c = 0
  · subst hc
    cases u <;> cases v <;> first | rfl | exact absurd h hkeys.1.1 | exact absurd h.symm hkeys.1.1
  · simp only [controlKey, SessionProtector.outgoingAuthenticatedKeys, if_neg hc] at h
    cases u <;> cases v <;> first
      | rfl
      | exact absurd h hkeys.2.2.2.2
      | exact absurd h.symm hkeys.2.2.2.2

theorem mediaKeys_role_inj (hkeys : Separate keys) {u v : SessionRole} {c : UInt8}
    (h : (mediaKeys keys u c).key = (mediaKeys keys v c).key) : u = v := by
  simp only [Separate, List.nodup_cons, List.mem_cons, List.not_mem_nil, or_false, not_or,
    not_false_eq_true, and_true, List.nodup_nil] at hkeys
  by_cases hc : c = 1
  · subst hc
    cases u <;> cases v <;> first
      | rfl
      | exact absurd h hkeys.2.2.1.1
      | exact absurd h.symm hkeys.2.2.1.1
  · simp only [mediaKeys, SessionProtector.outgoingMediaKeys, if_neg hc] at h
    cases u <;> cases v <;> first
      | rfl
      | exact absurd h hkeys.2.2.2.2
      | exact absurd h.symm hkeys.2.2.2.2

/-- The keys of an incoming channel are those the other end sends with. -/
theorem incoming_keys (h : Inv keys s) (role : SessionRole) (channel : UInt8) :
    ((s.ends role).incomingAuthenticatedKeys channel).key =
      controlKey keys (other role) channel ∧
    (s.ends role).incomingMediaKeys channel = mediaKeys keys (other role) channel := by
  have hfixed := keys_of_channelKeys (h.fixed role) channel
  rw [hfixed.1.2, hfixed.2.2]
  cases role <;> exact ⟨rfl, rfl⟩

theorem mem_both {α : Type*} {f : SessionRole → List α} {x : α}
    (h : x ∈ f .client ++ f .server) : ∃ u, x ∈ f u :=
  (List.mem_append.mp h).elim (fun hx => ⟨_, hx⟩) fun hx => ⟨_, hx⟩

theorem inOrder_next (hkeys : Separate keys) (hinv : Inv keys s) (h : InOrder s) {a : Action}
    (hideal : ideal crypto s a) : InOrder (next crypto s a) := by
  cases a with
  | protectControl role expired channel r =>
    rw [next]
    dsimp only
    split
    · exact h
    · exact fun lane => prefix_extend (h lane)
  | protectMedia role expired channel r =>
    rw [next]
    dsimp only
    split
    · exact h
    · exact fun lane => prefix_extend (h lane)
  | unprotectControl role expired channel flags ptsMicros envelope =>
    rw [next]
    rw [ideal] at hideal
    split
    · exact h
    · rename_i plaintext p' hok
      obtain ⟨u, hu⟩ := mem_both (hideal (plaintext, p') (by rw [hok]; rfl))
      obtain ⟨c, r, number, hget, hpair⟩ := hinv.macs u _ hu
      obtain ⟨hkey, hinput⟩ := Prod.mk.inj hpair
      obtain ⟨rfl, rfl, hnumber⟩ := controlInput_inj hinput
      rw [(incoming_keys hinv role channel).1] at hkey
      obtain rfl := controlKey_inj hkeys hkey
      exact h.accept hinv (unprotectControl_spec hok).1 (hnumber ▸ hget) rfl rfl
  | unprotectMedia role expired channel flags ptsMicros envelope =>
    rw [next]
    rw [ideal] at hideal
    split
    · exact h
    · rename_i plaintext p' hok
      obtain ⟨u, hu⟩ := mem_both (hideal (plaintext, p') (by rw [hok]; rfl))
      obtain ⟨c, r, number, hget, -, hflags, hkey, -, haad, hplaintext⟩ := hinv.seals u _ hu
      dsimp only at hkey haad hplaintext
      obtain ⟨-, rfl, rfl, hpts, hnumber, -⟩ :=
        envelopeAuthenticationData_inj (congrArg (· ++ []) haad)
      rw [(incoming_keys hinv role channel).2] at hkey
      obtain rfl := mediaKeys_role_inj hkeys hkey
      have hr : (⟨(r.flags ||| kEncryptedFlag) &&& ~~~kEncryptedFlag, ptsMicros, plaintext⟩ :
          Record) = r := by
        rw [clear_encrypted hflags, hpts, hplaintext]
      rw [hr]
      exact h.accept hinv (unprotectMedia_spec hok) (hnumber ▸ hget) rfl rfl

theorem ends_of_rejected {a : Action} (h : rejected crypto s a) :
    (next crypto s a).ends = s.ends := by
  cases a with
  | protectControl role expired channel r => cases h
  | protectMedia role expired channel r => cases h
  | unprotectControl role expired channel flags ptsMicros envelope =>
    rw [next]
    split
    · rfl
    · rename_i plaintext p' hok
      rw [rejected, hok] at h
      cases h
  | unprotectMedia role expired channel flags ptsMicros envelope =>
    rw [next]
    split
    · rfl
    · rename_i plaintext p' hok
      rw [rejected, hok] at h
      cases h

/-- 32 bytes that stand for a key and a message. -/
def digest (key : Key32) (message : Bytes) : Key32 :=
  ⟨BigEndian.write 32 ((BigEndian.read key.1 + 257 * BigEndian.read message) % (2 ^ 256 - 189)),
    BigEndian.length_write 32 _⟩

/-- Tags that depend on every byte of what they are made for. -/
def summing : Crypto where
  hmacSha256 := digest
  encryptChaCha key nonce aad plaintext :=
    (plaintext, ⟨(digest key (nonce.1 ++ aad ++ plaintext)).1.drop 16, by
      rw [List.length_drop, (digest key _).2]⟩)
  decryptChaCha key nonce aad ciphertext tag :=
    if (digest key (nonce.1 ++ aad ++ ciphertext)).1.drop 16 = tag then some ciphertext else none

theorem length_key (b : UInt8) : (List.replicate 32 b).length = 32 := List.length_replicate ..

theorem length_noncePrefix (b : UInt8) : (List.replicate 4 b).length = 4 :=
  List.length_replicate ..

def distinctKeys : SessionKeys :=
  let channelKeys (b : UInt8) : ChannelKeys :=
    ⟨⟨List.replicate 32 b, length_key b⟩, ⟨List.replicate 4 b, length_noncePrefix b⟩⟩
  ⟨channelKeys 1, channelKeys 2, channelKeys 3, channelKeys 4, channelKeys 5, channelKeys 6⟩

def envelopeOf (result : Except Error (ProtectedPayload × SessionProtector)) : Bytes :=
  match result with
  | .ok (out, _) => out.payload
  | .error _ => []

/-- The phone's first control envelope and its first video envelope. -/
def firstControl : Bytes :=
  envelopeOf (protectControl summing false (.create .client distinctKeys) 0 0 7 [1, 2])

def firstVideo : Bytes :=
  envelopeOf (protectMedia summing false (.create .client distinctKeys) 1 1 9 [3])

/-- The adversary sends the control envelope on another channel, back to its sender, changed, as it
is, and once more; the video envelope with other flags, and as it is. -/
def harassed : List Action :=
  [.protectControl .client false 0 ⟨0, 7, [1, 2]⟩, .protectMedia .client false 1 ⟨1, 9, [3]⟩,
    .unprotectControl .server false 3 0 7 firstControl,
    .unprotectControl .client false 0 0 7 firstControl,
    .unprotectControl .server false 0 0 7 (firstControl.set 9 0),
    .unprotectControl .server false 0 0 7 firstControl,
    .unprotectControl .server false 0 0 7 firstControl,
    .unprotectMedia .server false 1 2 9 firstVideo, .unprotectMedia .server false 1 3 9 firstVideo]

end RemoteCam.Security.Integrity
