import Mathlib.Data.List.Induction
import RemoteCam.Cbor.Limits
import RemoteCam.Control.Builders

/-! # The envelope of a message

A field of a message that was built is what was put under its name (`find_puts`), and a message that
was encoded is decoded (`decode_encode_message`), its own type under `t` and nothing else. -/

namespace RemoteCam.Control.Envelope

open RemoteCam.Lib.OrderedMap RemoteCam.Control.Messages RemoteCam.Control.Builders
open RemoteCam.Cbor.Codec (Bytes Value keyLess kMaxCollectionElements kMaxNestingDepth)
open RemoteCam.Cbor.Utf8 (WellFormed)
open RemoteCam.Cbor.RoundTrip RemoteCam.Cbor.Limits

/-! ### Keys -/

/-- Seven-bit characters. -/
def Ascii (s : String) : Prop := ∀ c ∈ s.toList, c.val.toNat < 128

instance (s : String) : Decidable (Ascii s) :=
  List.decidableBAll (fun c : Char => c.val.toNat < 128) s.toList

/-- The names of the fields of a message or a map. -/
structure Keys (keys : List String) : Prop where
  ascii : ∀ key ∈ keys, Ascii key
  nodup : keys.Nodup

instance (keys : List String) : Decidable (Keys keys) :=
  decidable_of_iff (_ ∧ _) ⟨fun h => ⟨h.1, h.2⟩, fun h => ⟨h.ascii, h.nodup⟩⟩

theorem utf8EncodeChar_of_ascii {c : Char} (h : c.val.toNat < 128) :
    String.utf8EncodeChar c = [c.val.toUInt8] := by
  rw [String.utf8EncodeChar, if_pos (by omega)]
  rfl

theorem wellFormed_literal {s : String} (h : Ascii s) : WellFormed (literal s) := by
  refine ⟨s.toList, ?_⟩
  rw [literal, List.map_eq_flatMap]
  exact List.flatMap_congr fun c hc => (utf8EncodeChar_of_ascii (h c hc)).symm

/-- The characters of a literal. -/
theorem chars_literal {s : String} (h : Ascii s) :
    (literal s).map (fun byte => Char.ofNat byte.toNat) = s.toList := by
  rw [literal, List.map_map, ← List.map_id s.toList, List.map_map]
  refine List.map_congr_left fun c hc => ?_
  have hc : c.val.toNat < 128 := h c hc
  have hbyte : c.val.toUInt8.toNat = c.toNat := by
    rw [UInt32.toNat_toUInt8]
    exact Nat.mod_eq_of_lt (by omega)
  show Char.ofNat c.val.toUInt8.toNat = c
  rw [hbyte, Char.ofNat_toNat]

theorem literal_inj {s s' : String} (h : Ascii s) (h' : Ascii s')
    (heq : literal s = literal s') : s = s' := by
  refine String.toList_inj.mp ?_
  rw [← chars_literal h, heq, chars_literal h']

/-! ### What is found -/

section Found
variable {entries : List (String × Value)} {type key : String} {value : Value}

theorem find_foldl_put (map : Map) (h : Keys (entries.map Prod.fst)) (hkey : Ascii key) :
    find (entries.foldl (fun map entry => put map entry.1 entry.2) map) key =
      (entries.lookup key).or (find map key) := by
  induction entries generalizing map with
  | nil => rfl
  | cons entry entries ih =>
    obtain ⟨k, v⟩ := entry
    obtain ⟨hascii, hnodup⟩ := h
    obtain ⟨hk, hrest⟩ := List.forall_mem_cons.mp hascii
    obtain ⟨hnew, hnodup⟩ := List.nodup_cons.mp hnodup
    have hput : find (put map k v) key =
        if literal key == literal k then some v else find map key :=
      lookup_insertOrAssign strictTotal_keyLess _ _ _ _
    rw [List.foldl_cons, ih _ ⟨hrest, hnodup⟩, hput, List.lookup_cons]
    by_cases heq : key = k
    · subst heq
      have hnone : entries.lookup key = none := by
        rw [List.lookup_eq_none_iff]
        exact fun e hmem => bne_iff_ne.mpr fun h => hnew (List.mem_map.mpr ⟨e, hmem, h.symm⟩)
      simp [hnone]
    · have hne : literal key ≠ literal k := fun h => heq (literal_inj hkey hk h)
      rw [beq_eq_false_iff_ne.mpr hne, beq_eq_false_iff_ne.mpr heq]
      rfl

/-- A field is what was put under its name. -/
theorem find_puts (h : Keys (entries.map Prod.fst)) (hkey : Ascii key) :
    find (puts entries) key = entries.lookup key := by
  unfold puts
  exact (find_foldl_put [] h hkey).trans Option.or_none

theorem mem_foldl_put {map : Map} {entry : Bytes × Value}
    (h : entry ∈ entries.foldl (fun map entry => put map entry.1 entry.2) map) :
    (∃ e ∈ entries, entry = (literal e.1, e.2)) ∨ entry ∈ map := by
  induction entries generalizing map with
  | nil => exact .inr h
  | cons e entries ih =>
    rcases ih h with ⟨e', he', heq⟩ | hmem
    · exact .inl ⟨e', List.mem_cons_of_mem _ he', heq⟩
    · rcases mem_insertOrAssign strictTotal_keyLess hmem with rfl | hmem
      · exact .inl ⟨e, List.mem_cons_self, rfl⟩
      · exact .inr hmem

theorem mem_puts {entry : Bytes × Value} (h : entry ∈ puts entries) :
    ∃ e ∈ entries, entry = (literal e.1, e.2) := by
  unfold puts at h
  exact (mem_foldl_put h).resolve_right List.not_mem_nil

theorem onlyFields_puts {allowed : List String} (h : entries.map Prod.fst ⊆ allowed) :
    onlyFields (puts entries) allowed = true := by
  refine List.all_eq_true.mpr fun entry hentry => ?_
  obtain ⟨e, he, rfl⟩ := mem_puts hentry
  exact List.any_eq_true.mpr ⟨e.1, h (List.mem_map_of_mem he), by simp⟩

theorem shaped_makeMessage {allowed : List String} (h : entries.map Prod.fst ⊆ allowed) :
    (makeMessage type entries).shaped type allowed = true := by
  unfold Message.shaped
  simp [makeMessage, onlyFields_puts h]

/-- What a parser sees of a message that was built with the fields of its kind. -/
theorem read_makeMessage {allowed : List String} (h : Keys (entries.map Prod.fst))
    (hallowed : entries.map Prod.fst ⊆ allowed) :
    (makeMessage type entries).shaped type allowed = true ∧
      ∀ key, Ascii key → find (makeMessage type entries).fields key = entries.lookup key :=
  ⟨shaped_makeMessage hallowed, fun _ => find_puts h⟩

theorem numericDouble_double {bits : UInt64} (h : isfinite bits = true) :
    numericDouble (.double bits) = some bits := if_pos h

end Found

/-! ### Messages -/

section Messages
variable {m : Message}

theorem carried_payload (htype : WellFormed m.type)
    (hlen : m.fields.length < kMaxCollectionElements.toNat)
    (h : Carried kMaxNestingDepth (.map m.fields)) :
    Carried kMaxNestingDepth (Message.payload m) := by
  obtain ⟨hordered, hsendable, hdepth⟩ := h
  have hkeys := hsendable.of_node.2
  have hitems : ∀ entry ∈ m.fields, Carried 31 entry.2 := fun entry hmem => by
    refine ⟨hordered.of_mem (List.mem_map_of_mem hmem), hsendable.of_mem (List.mem_map_of_mem hmem),
      Nat.le_of_lt_succ (Nat.lt_of_lt_of_le (nesting_lt_entries hmem) hdepth)⟩
  refine @carried_map 31 _ (sorted_insertOrAssign strictTotal_keyLess hordered.of_node _ _)
    ((length_insertOrAssign strictTotal_keyLess _ _ _).trans hlen) (fun entry hmem => ?_)
    fun entry hmem => ?_
  · rcases mem_insertOrAssign strictTotal_keyLess hmem with rfl | hmem
    · exact wellFormed_literal (by decide)
    · exact hkeys entry hmem
  · rcases mem_insertOrAssign strictTotal_keyLess hmem with rfl | hmem
    · exact carried_text htype
    · exact hitems entry hmem

/-- **The round trip of a message.** -/
theorem decode_encode_message (htype : WellFormed m.type)
    (hlen : m.fields.length < kMaxCollectionElements.toNat)
    (h : Carried kMaxNestingDepth (.map m.fields)) (hnew : ∀ entry ∈ m.fields, entry.1 ≠ kTypeKey)
    (hfits : (Message.encode m).length ≤ kMaxPayloadBytes) :
    Message.decode (Message.encode m) = .ok m := by
  have hcarried := carried_payload htype hlen h
  have hrep : Forall Representable (Message.payload m) :=
    representable_of_length hcarried.ordered (Nat.lt_of_le_of_lt hfits (by decide))
  have hdecode : Cbor.Codec.decode (Message.encode m) = .ok (Message.payload m) :=
    decode_encode hrep hcarried.sendable hcarried.depth
  have hfind : find (insertOrAssign keyLess kTypeKey (.text m.type) m.fields) "t" =
      some (.text m.type) :=
    (lookup_insertOrAssign strictTotal_keyLess _ _ _ _).trans (if_pos BEq.rfl)
  unfold Message.decode
  rw [if_neg (Nat.not_lt.mpr hfits), hdecode]
  unfold Message.payload
  dsimp only
  rw [hfind]
  dsimp only
  rw [filter_insertOrAssign strictTotal_keyLess _ hnew]

theorem length_found {map : Map} {key : String} {v : Value} (h : find map key = some v) :
    (literal key).length + 1 + (Cbor.Codec.encode v).length ≤
      (Cbor.Codec.encodeEntries map).length := by
  obtain ⟨l, l', rfl, -⟩ := List.lookup_eq_some_iff.mp h
  have hmem : (literal key, v) ∈ l ++ (literal key, v) :: l' :=
    List.mem_append_right l List.mem_cons_self
  exact length_entry_le hmem

theorem length_field_le {m : Message} {key : String} {v : Value} (h : find m.fields key = some v)
    (hne : literal key ≠ kTypeKey) :
    (Cbor.Codec.encode v).length ≤ (Message.encode m).length := by
  have hfind : find (insertOrAssign keyLess kTypeKey (.text m.type) m.fields) key = some v :=
    (lookup_insertOrAssign strictTotal_keyLess _ _ _ _).trans
      ((if_neg (by simpa using hne)).trans h)
  unfold Message.encode Message.payload
  rw [Cbor.Codec.encode, List.length_append]
  have := length_found hfind
  omega

/-- A container whose items take more than ten bytes each is within the decoder's limit. -/
theorem count_le_of_length {items : List Value}
    (h : ∀ item ∈ items, 11 ≤ (Cbor.Codec.encode item).length)
    (hfits : (Cbor.Codec.encode (.array items)).length ≤ kMaxPayloadBytes) :
    items.length ≤ kMaxCollectionElements.toNat := by
  have hitems := length_items_ge h
  have hmax : kMaxCollectionElements.toNat = 100000 := rfl
  have hbytes : kMaxPayloadBytes = 1048576 := rfl
  rw [Cbor.Codec.encode, List.length_append] at hfits
  omega

/-- A message whose one long array is above the limit is not decoded. -/
theorem not_decoded {m : Message} {before after : Map} {key : Bytes} {n : ℕ} {item : Value}
    (hpayload : Message.payload m =
      .map (before ++ (key, .array (List.replicate n item)) :: after))
    (hcount : kMaxCollectionElements.toNat < n) (hlen : n < 2 ^ 64)
    (hentries : before.length + after.length < kMaxCollectionElements.toNat)
    (hsorted : Sorted keyLess before)
    (hkeys : ∀ entry ∈ before ++ [(key, .array (List.replicate n item))],
      WellFormed entry.1 ∧ entry.1.length < 2 ^ 64)
    (hbefore : ∀ entry ∈ before, Forall Representable entry.2 ∧ Carried 31 entry.2)
    (out : Message) : (Message.decodeInto out (Message.encode m)).1 ≠ none := by
  have herror : Cbor.Codec.decode (Message.encode m) = .error .collectionTooLarge := by
    unfold Message.encode
    rw [hpayload]
    exact decode_tooLarge (by rwa [List.length_replicate]) (by rwa [List.length_replicate])
      (by simp only [List.length_append, List.length_cons]; omega) hsorted hkeys hbefore
  unfold Message.decodeInto
  rw [herror]
  split <;> exact nofun

end Messages

/-! ### Messages that were built -/

section Built
variable {entries : List (String × Value)} {levels : ℕ}

theorem sorted_foldl_put {map : Map} (h : Sorted keyLess map) :
    Sorted keyLess (entries.foldl (fun map entry => put map entry.1 entry.2) map) := by
  induction entries generalizing map with
  | nil => exact h
  | cons entry entries ih => exact ih (sorted_insertOrAssign strictTotal_keyLess h _ _)

theorem length_foldl_put (map : Map) :
    (entries.foldl (fun map entry => put map entry.1 entry.2) map).length ≤
      map.length + entries.length := by
  induction entries generalizing map with
  | nil => exact le_rfl
  | cons entry entries ih =>
    have hput := length_insertOrAssign strictTotal_keyLess (literal entry.1) entry.2 map
    have hrest := ih (put map entry.1 entry.2)
    unfold put at hrest
    rw [List.foldl_cons, List.length_cons]
    unfold put
    omega

theorem length_puts_le : (puts entries).length ≤ entries.length := by
  unfold puts
  exact (length_foldl_put []).trans_eq (Nat.zero_add _)

theorem carried_puts (hascii : ∀ key ∈ entries.map Prod.fst, Ascii key)
    (hlen : entries.length ≤ kMaxCollectionElements.toNat)
    (h : ∀ entry ∈ entries, Carried levels entry.2) :
    Carried (levels + 1) (.map (puts entries)) := by
  have hsorted : Sorted keyLess (puts entries) := by
    unfold puts
    exact sorted_foldl_put .nil
  refine carried_map hsorted (length_puts_le.trans hlen) (fun entry hentry => ?_) fun entry hentry => ?_
  · obtain ⟨e, he, rfl⟩ := mem_puts hentry
    exact wellFormed_literal (hascii _ (List.mem_map_of_mem he))
  · obtain ⟨e, he, rfl⟩ := mem_puts hentry
    exact h e he

/-- A map that was built has the entries that were put. -/
theorem puts_perm (h : Keys (entries.map Prod.fst)) :
    (puts entries).Perm (entries.map fun entry => (literal entry.1, entry.2)) := by
  induction entries using List.reverseRecOn with
  | nil =>
    unfold puts
    exact .nil
  | append_singleton entries entry ih =>
    obtain ⟨hascii, hnodup⟩ := h
    rw [List.map_append, List.nodup_append] at hnodup
    rw [List.map_append, List.forall_mem_append] at hascii
    have hrest := ih ⟨hascii.1, hnodup.1⟩
    have hentry : Ascii entry.1 := hascii.2 _ (by simp)
    have hnew : ∀ e ∈ puts entries, e.1 ≠ literal entry.1 := by
      intro e he heq
      obtain ⟨e', he', rfl⟩ := mem_puts he
      have hname : e'.1 ∈ entries.map Prod.fst := List.mem_map_of_mem he'
      exact hnodup.2.2 _ hname _ (by simp) (literal_inj (hascii.1 _ hname) hentry heq)
    have hput : puts (entries ++ [entry]) =
        insertOrAssign keyLess (literal entry.1) entry.2 (puts entries) := by
      unfold puts
      rw [List.foldl_append]
      rfl
    rw [hput, List.map_append]
    exact (insertOrAssign_perm strictTotal_keyLess entry.2 hnew).trans
      ((hrest.cons _).trans (List.perm_append_singleton _ _).symm)

/-- The bytes of an entry. -/
def entrySize (entry : String × Value) : ℕ :=
  headSize (.ofNat (literal entry.1).length) + (literal entry.1).length +
    (Cbor.Codec.encode entry.2).length

theorem length_encode_puts (h : Keys (entries.map Prod.fst)) :
    (Cbor.Codec.encode (.map (puts entries))).length =
      headSize (.ofNat entries.length) + (entries.map entrySize).sum := by
  have hperm := puts_perm h
  have hlen : (puts entries).length = entries.length := hperm.length_eq.trans (List.length_map _)
  rw [Cbor.Codec.encode, List.length_append, length_appendHead, hlen, length_encodeEntries,
    (hperm.map _).sum_nat, List.map_map]
  rfl

theorem length_encode_makeMessage {type : String} (h : Keys ("t" :: entries.map Prod.fst)) :
    (Message.encode (makeMessage type entries)).length =
      headSize (.ofNat (entries.length + 1)) + entrySize ("t", .text (literal type)) +
        (entries.map entrySize).sum := by
  obtain ⟨hascii, hnodup⟩ := h
  obtain ⟨ht, hrest⟩ := List.forall_mem_cons.mp hascii
  obtain ⟨hnew, hnodup⟩ := List.nodup_cons.mp hnodup
  have hperm := puts_perm ⟨hrest, hnodup⟩
  have hfresh : ∀ e ∈ puts entries, e.1 ≠ kTypeKey := by
    intro e he heq
    obtain ⟨e', he', rfl⟩ := mem_puts he
    have hname : e'.1 ∈ entries.map Prod.fst := List.mem_map_of_mem he'
    exact hnew (literal_inj (hrest _ hname) ht heq ▸ hname)
  have hpayload := insertOrAssign_perm strictTotal_keyLess (Value.text (literal type)) hfresh
  have hlen : (puts entries).length = entries.length := hperm.length_eq.trans (List.length_map _)
  unfold Message.encode Message.payload makeMessage
  dsimp only
  rw [Cbor.Codec.encode, List.length_append, length_appendHead, hpayload.length_eq,
    List.length_cons, hlen, length_encodeEntries, (hpayload.map _).sum_nat, List.map_cons,
    List.sum_cons, (hperm.map _).sum_nat, List.map_map]
  exact (Nat.add_assoc _ _ _).symm

/-- The size of a message whose entries are no larger than `n` each. -/
theorem length_makeMessage_le {type : String} {n : ℕ} (htype : (literal type).length + 10 ≤ n)
    (h : ∀ entry ∈ entries, (literal entry.1).length + (Cbor.Codec.encode entry.2).length ≤ n) :
    (Message.encode (makeMessage type entries)).length ≤ 9 + (entries.length + 1) * (9 + n) := by
  have htext := length_text_le (literal type)
  have hcount : (puts entries).length ≤ entries.length := length_puts_le
  unfold Message.encode Message.payload makeMessage
  dsimp only
  set payload := insertOrAssign keyLess kTypeKey (.text (literal type)) (puts entries) with hp
  have hpayload : payload.length ≤ entries.length + 1 :=
    (length_insertOrAssign strictTotal_keyLess _ _ _).trans (Nat.succ_le_succ hcount)
  have hbytes : (Cbor.Codec.encodeEntries payload).length ≤ payload.length * (9 + n) := by
    refine length_entries_le fun entry hentry => ?_
    rcases mem_insertOrAssign strictTotal_keyLess hentry with rfl | hentry
    · have hkey : kTypeKey.length = 1 := rfl
      dsimp only
      omega
    · obtain ⟨e, he, rfl⟩ := mem_puts hentry
      exact h e he
  have hhead := length_appendHead_le Cbor.Codec.kMajorMap (.ofNat payload.length)
  have hmul := Nat.mul_le_mul_right (9 + n) hpayload
  rw [Cbor.Codec.encode, List.length_append]
  omega

theorem decode_encode_makeMessage {type : String} (htype : Ascii type)
    (hkeys : Keys ("t" :: entries.map Prod.fst))
    (hlen : entries.length < kMaxCollectionElements.toNat)
    (h : ∀ entry ∈ entries, Carried 31 entry.2)
    (hfits : (Message.encode (makeMessage type entries)).length ≤ kMaxPayloadBytes) :
    Message.decode (Message.encode (makeMessage type entries)) =
      .ok (makeMessage type entries) := by
  obtain ⟨hascii, hnodup⟩ := hkeys
  have hrest : ∀ key ∈ entries.map Prod.fst, Ascii key :=
    fun key hmem => hascii key (List.mem_cons_of_mem _ hmem)
  refine decode_encode_message (wellFormed_literal htype) (length_puts_le.trans_lt hlen)
    (carried_puts hrest hlen.le h) (fun entry hentry => ?_) hfits
  obtain ⟨e, he, rfl⟩ := mem_puts hentry
  have hmem : e.1 ∈ entries.map Prod.fst := List.mem_map_of_mem he
  intro heq
  have ht : e.1 = "t" := literal_inj (hrest _ hmem) (hascii _ List.mem_cons_self) heq
  exact (List.nodup_cons.mp hnodup).1 (ht ▸ hmem)

end Built

/-! ### The output of `decode` -/

/-- `out` becomes the message that is decoded, and nothing else. -/
theorem decodeInto_eq (out : Message) (data : Bytes) :
    Message.decodeInto out data =
      match Message.decode data with
      | .ok m => (none, m)
      | .error e => (some e, out) := by
  unfold Message.decodeInto Message.decode
  split
  · rfl
  · cases Cbor.Codec.decode data with
    | error e => rfl
    | ok value =>
      cases value with
      | map map =>
        dsimp only
        cases find map "t" with
        | none => rfl
        | some value => cases value <;> rfl
      | _ => rfl

end RemoteCam.Control.Envelope
