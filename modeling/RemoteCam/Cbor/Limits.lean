import Mathlib.Tactic.Ring
import RemoteCam.Cbor.Spelling
import RemoteCam.Lib.OrderedMap

/-! # What the codec carries

A value is `Carried` if the decoder reads it back, whatever its size: its maps are in order, it is
sendable and not too deep. A value is no larger than its encoding (`representable_of_length`). An
array above the limit is refused as soon as its head is read (`decode_tooLarge`). -/

namespace RemoteCam.Cbor.Limits

open RemoteCam.Lib RemoteCam.Lib.OrderedMap
open RemoteCam.Cbor.Codec RemoteCam.Cbor.RoundTrip
open RemoteCam.Cbor.Utf8 (WellFormed)
open RemoteCam.Cbor.Spelling (eq_of_not_keyLess ne_of_keyLess keyLess_trans)

theorem strictTotal_keyLess : StrictTotal keyLess where
  irrefl _ := Bool.eq_false_iff.mpr fun h => ne_of_keyLess h rfl
  trans := keyLess_trans
  eq_of_not := eq_of_not_keyLess

/-! ### What comes through the codec -/

def Ordered : Value → Prop
  | .map entries => Sorted keyLess entries
  | _ => True

/-- The codec reads the value back with this many levels, whatever its size in bytes. -/
structure Carried (levels : ℕ) (v : Value) : Prop where
  ordered : Forall Ordered v
  sendable : Forall Sendable v
  depth : nesting v ≤ levels

section Carried
variable {levels : ℕ}

theorem Carried.of_leaf {v : Value} (hchildren : children v = []) (hordered : Ordered v)
    (hsendable : Sendable v) (hnesting : nesting v = 0) : Carried levels v :=
  ⟨.intro hordered (hchildren ▸ nofun), .intro hsendable (hchildren ▸ nofun),
    hnesting ▸ Nat.zero_le _⟩

@[simp] theorem carried_unsigned (v : UInt64) : Carried levels (.unsigned v) :=
  .of_leaf rfl trivial trivial rfl

@[simp] theorem carried_bytes (v : Bytes) : Carried levels (.bytes v) :=
  .of_leaf rfl trivial trivial rfl

@[simp] theorem carried_boolean (v : Bool) : Carried levels (.boolean v) :=
  .of_leaf rfl trivial trivial rfl

@[simp] theorem carried_null : Carried levels .null := .of_leaf rfl trivial trivial rfl

@[simp] theorem carried_double (bits : UInt64) : Carried levels (.double bits) :=
  .of_leaf rfl trivial trivial rfl

theorem carried_text {text : Bytes} (h : WellFormed text) : Carried levels (.text text) :=
  .of_leaf rfl trivial h rfl

theorem nestingItems_le {items : List Value} (h : ∀ item ∈ items, nesting item ≤ levels) :
    nestingItems items ≤ levels + 1 := by
  induction items with
  | nil => exact Nat.zero_le _
  | cons item items ih =>
    obtain ⟨hitem, hrest⟩ := List.forall_mem_cons.mp h
    have := ih hrest
    rw [nestingItems]
    omega

theorem nestingEntries_le {entries : List (Bytes × Value)}
    (h : ∀ entry ∈ entries, nesting entry.2 ≤ levels) : nestingEntries entries ≤ levels + 1 := by
  induction entries with
  | nil => exact Nat.zero_le _
  | cons entry entries ih =>
    obtain ⟨hentry, hrest⟩ := List.forall_mem_cons.mp h
    have := ih hrest
    obtain ⟨key, item⟩ := entry
    rw [nestingEntries]
    dsimp only at hentry
    omega

theorem carried_array {items : List Value} (hlen : items.length ≤ kMaxCollectionElements.toNat)
    (h : ∀ item ∈ items, Carried levels item) : Carried (levels + 1) (.array items) where
  ordered := .intro trivial fun item hmem => (h item hmem).ordered
  sendable := .intro hlen fun item hmem => (h item hmem).sendable
  depth := nestingItems_le fun item hmem => (h item hmem).depth

theorem carried_map {entries : List (Bytes × Value)} (hsorted : Sorted keyLess entries)
    (hlen : entries.length ≤ kMaxCollectionElements.toNat)
    (hkeys : ∀ entry ∈ entries, WellFormed entry.1)
    (h : ∀ entry ∈ entries, Carried levels entry.2) : Carried (levels + 1) (.map entries) where
  ordered := .intro hsorted (List.forall_mem_map.mpr fun entry hmem => (h entry hmem).ordered)
  sendable :=
    .intro ⟨hlen, hkeys⟩ (List.forall_mem_map.mpr fun entry hmem => (h entry hmem).sendable)
  depth := nestingEntries_le fun entry hmem => (h entry hmem).depth

end Carried

/-! ### Sizes -/

section Sizes
variable {items : List Value} {entries : List (Bytes × Value)}

theorem length_appendHead_pos (major : UInt8) (argument : UInt64) :
    0 < (appendHead major argument).length := by
  unfold appendHead
  dsimp only
  split_ifs <;> exact Nat.succ_pos _

theorem length_encode_pos (v : Value) : 0 < (encode v).length := by
  cases v with
  | unsigned | negative => exact length_appendHead_pos _ _
  | bytes | text | array | map =>
    rw [encode, List.length_append]
    exact Nat.add_pos_left (length_appendHead_pos _ _) _
  | boolean | null | double => exact Nat.succ_pos _

theorem length_items_ge {n : ℕ} (h : ∀ item ∈ items, n ≤ (encode item).length) :
    n * items.length ≤ (encodeItems items).length := by
  induction items with
  | nil => exact Nat.zero_le _
  | cons item items ih =>
    obtain ⟨hitem, hrest⟩ := List.forall_mem_cons.mp h
    have := ih hrest
    rw [encodeItems, List.length_append, List.length_cons, Nat.mul_succ]
    omega

theorem length_item_le {item : Value} (h : item ∈ items) :
    (encode item).length ≤ (encodeItems items).length := by
  induction items with
  | nil => cases h
  | cons head items ih =>
    rw [encodeItems, List.length_append]
    rcases List.mem_cons.mp h with rfl | h
    · exact Nat.le_add_right _ _
    · exact (ih h).trans (Nat.le_add_left _ _)

theorem length_entries_ge : entries.length ≤ (encodeEntries entries).length := by
  induction entries with
  | nil => exact Nat.zero_le _
  | cons entry entries ih =>
    have := length_encode_pos entry.2
    rw [encodeEntries]
    simp only [List.length_append, List.length_cons]
    omega

theorem length_entry_le {entry : Bytes × Value} (h : entry ∈ entries) :
    entry.1.length + 1 + (encode entry.2).length ≤
      (encodeEntries entries).length := by
  induction entries with
  | nil => cases h
  | cons head entries ih =>
    rw [encodeEntries]
    simp only [List.length_append]
    rcases List.mem_cons.mp h with rfl | h
    · have := length_appendHead_pos kMajorText (.ofNat entry.1.length)
      omega
    · have := ih h
      omega

/-- A value is no larger than its encoding. -/
theorem representable_of_length {v : Value} (h : Forall Ordered v)
    (hlen : (encode v).length < 2 ^ 64) : Forall Representable v := by
  induction h with
  | @intro v node _ ih =>
    cases v with
    | bytes | text =>
      rw [encode, List.length_append] at hlen
      exact .intro (Nat.lt_of_le_of_lt (Nat.le_add_left _ _) hlen) (by simp [children])
    | array items =>
      rw [encode, List.length_append] at hlen
      have hcount := length_items_ge fun item (_ : item ∈ items) => length_encode_pos item
      refine .intro (show items.length < 2 ^ 64 by omega) fun item hmem => ih item hmem ?_
      have := @length_item_le items _ hmem
      omega
    | map entries =>
      rw [encode, List.length_append] at hlen
      have hcount := @length_entries_ge entries
      have hentry := fun (entry : Bytes × Value) (hmem : entry ∈ entries) => length_entry_le hmem
      refine .intro ⟨by omega, fun entry hmem => ?_, node⟩ fun item hmem => ih item hmem ?_
      · have := hentry entry hmem
        omega
      · obtain ⟨entry, hentry', rfl⟩ := List.mem_map.mp hmem
        have := hentry entry hentry'
        omega
    | unsigned | negative | boolean | null | double => exact .intro trivial (by simp [children])

theorem length_appendHead_le (major : UInt8) (argument : UInt64) :
    (appendHead major argument).length ≤ 9 := by
  unfold appendHead appendBigEndian
  dsimp only
  split_ifs <;> simp [Lib.BigEndian.length_write]

theorem length_text_le (text : Bytes) : (encode (.text text)).length ≤ 9 + text.length := by
  rw [encode, List.length_append]
  exact Nat.add_le_add_right (length_appendHead_le _ _) _

theorem length_unsigned_le (v : UInt64) : (encode (.unsigned v)).length ≤ 9 :=
  length_appendHead_le _ _

/-- The bytes of a head. -/
def headSize (argument : UInt64) : ℕ :=
  if argument < 24 then 1
  else if argument ≤ 0xFF then 2
  else if argument ≤ 0xFFFF then 3
  else if argument ≤ 0xFFFFFFFF then 5
  else 9

theorem length_appendHead (major : UInt8) (argument : UInt64) :
    (appendHead major argument).length = headSize argument := by
  unfold appendHead headSize appendBigEndian
  dsimp only
  split_ifs <;> simp [Lib.BigEndian.length_write]

theorem length_encodeItems (items : List Value) :
    (encodeItems items).length = (items.map fun item => (encode item).length).sum := by
  induction items with
  | nil => rfl
  | cons item items ih =>
    rw [encodeItems, List.length_append, ih]
    rfl

theorem length_encodeEntries (entries : List (Bytes × Value)) :
    (encodeEntries entries).length = (entries.map fun entry =>
      headSize (.ofNat entry.1.length) + entry.1.length + (encode entry.2).length).sum := by
  induction entries with
  | nil => rfl
  | cons entry entries ih =>
    obtain ⟨key, value⟩ := entry
    rw [encodeEntries, List.length_append, List.length_append, List.length_append, ih,
      length_appendHead]
    rfl

/-- Entries of at most `n` bytes, without the head of the key. -/
theorem length_entries_le {entries : List (Bytes × Value)} {n : ℕ}
    (h : ∀ entry ∈ entries, entry.1.length + (encode entry.2).length ≤ n) :
    (encodeEntries entries).length ≤ entries.length * (9 + n) := by
  induction entries with
  | nil => exact Nat.zero_le _
  | cons entry entries ih =>
    obtain ⟨key, value⟩ := entry
    obtain ⟨hentry, hrest⟩ := List.forall_mem_cons.mp h
    have hhead := length_appendHead_le kMajorText (.ofNat key.length)
    have htail := ih hrest
    rw [encodeEntries, List.length_cons, Nat.succ_mul]
    simp only [List.length_append] at hentry ⊢
    omega

theorem length_encodeItems_replicate (n : ℕ) (item : Value) :
    (encodeItems (List.replicate n item)).length =
      n * (encode item).length := by
  induction n with
  | zero => simp [encodeItems]
  | succ n ih =>
    rw [List.replicate_succ, encodeItems, List.length_append, ih]
    ring

end Sizes

/-! ### The limit on containers -/

section Limit
variable {levels : ℕ} {items : List Value}

/-- An array above the limit is refused at its head. -/
theorem decodeValue_tooLarge (hcount : kMaxCollectionElements.toNat < items.length)
    (hlen : items.length < 2 ^ 64) (rest : Bytes) :
    decodeValue (levels + 1) (encode (.array items) ++ rest) =
      .error .collectionTooLarge := by
  obtain ⟨initial, tail, hhead, hmajor, harg⟩ :=
    appendHead_read (by decide : kMajorArray < 8) (.ofNat items.length)
  have hlarge : UInt64.ofNat items.length > kMaxCollectionElements := by
    rw [gt_iff_lt, UInt64.lt_iff_toNat_lt, UInt64.toNat_ofNat', Nat.mod_eq_of_lt hlen]
    exact hcount
  rw [encode, hhead, List.append_assoc, List.cons_append, decodeValue,
    readByte]
  simp only [bind, Except.bind, hmajor, decodeCollectionCount, harg, if_pos hlarge]
  rfl

theorem decodeEntries_error {decodeItem : Bytes → Except Error (Value × Bytes)}
    {key : Bytes} {item : Value} {e : Error} {before after : List (Bytes × Value)}
    (hkey : ∀ entry ∈ before ++ [(key, item)], ∀ rest,
      decodeItem (encode (.text entry.1) ++ rest) = .ok (.text entry.1, rest))
    (hitem : ∀ entry ∈ before, ∀ rest,
      decodeItem (encode entry.2 ++ rest) = .ok (entry.2, rest))
    (herror : ∀ rest, decodeItem (encode item ++ rest) = .error e) (rest : Bytes) :
    ∀ done : List (Bytes × Value), Sorted keyLess (done ++ before) →
      decodeEntries decodeItem (before ++ (key, item) :: after).length done
        (encodeEntries (before ++ (key, item) :: after) ++ rest) = .error e := by
  induction before with
  | nil =>
    intro done _
    have hk := hkey (key, item) List.mem_cons_self
    have hbytes : encodeEntries ((key, item) :: after) ++ rest =
        encode (.text key) ++
          (encode item ++ (encodeEntries after ++ rest)) := by
      simp only [encodeEntries, encode, List.append_assoc]
    rw [List.nil_append, hbytes, List.length_cons, decodeEntries, hk]
    simp only [bind, Except.bind, herror]
  | cons entry before ih =>
    intro done hsorted
    obtain ⟨k, v⟩ := entry
    have hlast : ∀ e ∈ done, keyLess e.1 k := fun e he =>
      (List.pairwise_append.mp hsorted).2.2 e he (k, v) List.mem_cons_self
    have hk := hkey (k, v) List.mem_cons_self
    have hi := hitem (k, v) List.mem_cons_self
    have htail := ih (fun e he => hkey e (List.mem_cons_of_mem _ he))
      (fun e he => hitem e (List.mem_cons_of_mem _ he)) (done ++ [(k, v)])
      (by rwa [List.append_assoc, List.singleton_append])
    have hbytes : encodeEntries ((k, v) :: (before ++ (key, item) :: after)) ++ rest =
        encode (.text k) ++ (encode v ++
          (encodeEntries (before ++ (key, item) :: after) ++ rest)) := by
      simp only [encodeEntries, encode, List.append_assoc]
    rw [List.cons_append, hbytes, List.length_cons, decodeEntries, hk]
    simp only [bind, Except.bind, hi, emplace_append v done hlast, htail]

/-- A map with an array above the limit, behind entries that are read. -/
theorem decode_tooLarge {key : Bytes} {before after : List (Bytes × Value)}
    (hcount : kMaxCollectionElements.toNat < items.length) (hlen : items.length < 2 ^ 64)
    (hentries : (before ++ (key, .array items) :: after).length ≤ kMaxCollectionElements.toNat)
    (hsorted : Sorted keyLess before)
    (hkeys : ∀ entry ∈ before ++ [(key, .array items)],
      WellFormed entry.1 ∧ entry.1.length < 2 ^ 64)
    (hbefore : ∀ entry ∈ before, Forall Representable entry.2 ∧ Carried 31 entry.2) :
    decode (encode (.map (before ++ (key, .array items) :: after))) =
      .error .collectionTooLarge := by
  have hkey : ∀ entry ∈ before ++ [(key, .array items)], ∀ rest,
      decodeValue 32 (encode (.text entry.1) ++ rest) =
        .ok (.text entry.1, rest) := fun entry hmem =>
    decodeValue_encode 32 (.intro (hkeys entry hmem).2 nofun) (.intro (hkeys entry hmem).1 nofun)
      (by decide : 0 < 32)
  have hitem : ∀ entry ∈ before, ∀ rest,
      decodeValue 32 (encode entry.2 ++ rest) = .ok (entry.2, rest) :=
    fun entry hmem =>
      have h := hbefore entry hmem
      decodeValue_encode 32 h.1 h.2.sendable (Nat.lt_succ_of_le h.2.depth)
  have herror := @decodeEntries_error _ _ _ _ _ after hkey hitem
    (@decodeValue_tooLarge 31 _ hcount hlen) [] [] hsorted
  obtain ⟨initial, tail, hhead, hmajor, harg⟩ := appendHead_read
    (by decide : kMajorMap < 8) (.ofNat (before ++ (key, .array items) :: after).length)
  obtain ⟨hcount', hle⟩ := count_read hentries
  rw [List.append_nil] at herror
  have harg' := harg (encodeEntries (before ++ (key, .array items) :: after))
  rw [encode, hhead, List.cons_append, decode, kMaxNestingDepth,
    decodeValue, readByte]
  simp only [bind, Except.bind, hmajor, decodeCollectionCount, harg', if_neg hle,
    hcount', herror]
  rfl

/-- A map with one long array. -/
theorem length_crowded (before after : List (Bytes × Value)) (key : Bytes) (n : ℕ) (item : Value) :
    (encode (.map (before ++ (key, .array (List.replicate n item)) :: after))).length ≤
      27 + (encodeEntries before).length + key.length +
        n * (encode item).length + (encodeEntries after).length := by
  have hentries : ∀ entries : List (Bytes × Value), (encodeEntries (before ++ entries)).length =
      (encodeEntries before).length + (encodeEntries entries).length := by
    intro entries
    induction before with
    | nil => exact (Nat.zero_add _).symm
    | cons entry before ih =>
      rw [List.cons_append, encodeEntries, encodeEntries]
      simp only [List.length_append, ih]
      omega
  have hhead := length_appendHead_le kMajorMap
    (.ofNat (before ++ (key, .array (List.replicate n item)) :: after).length)
  have hkey := length_appendHead_le kMajorText (.ofNat key.length)
  have harray := length_appendHead_le kMajorArray (.ofNat (List.replicate n item).length)
  rw [encode, List.length_append, hentries, encodeEntries, encode]
  generalize (before ++ (key, .array (List.replicate n item)) :: after).length = count at hhead ⊢
  simp only [List.length_append, length_encodeItems_replicate]
  omega

end Limit

end RemoteCam.Cbor.Limits
