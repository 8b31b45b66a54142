import RemoteCam.Cbor.RoundTrip
import RemoteCam.Lib.Readers

/-! # What bytes spell

`spell` reads an item as it stands in the bytes: the entries of a map in the order they come, their
keys not compared, a float in the width it was written. The decoder of `Codec` is this reading and
then `Item.value` (`decodeValue_spell`), which refuses a map with a key twice: `value_isSome`. -/

namespace RemoteCam.Cbor.Spelling

open RemoteCam.Lib RemoteCam.Lib.Readers RemoteCam.Cbor.Utf8 RemoteCam.Cbor.Codec
open RemoteCam.Cbor.RoundTrip

inductive Item where
  | unsigned (v : UInt64)
  | negative (v : Int64)
  | bytes (v : Bytes)
  | text (v : Bytes)
  | array (items : List Item)
  | map (entries : List (Bytes × Item))
  | boolean (v : Bool)
  | null
  | half (bits : UInt64)
  | float (bits : UInt64)
  | double (bits : UInt64)
  deriving Repr

/-! ### Reading -/

/-- The argument of a head, in its shortest form. -/
def argument (additional : UInt8) (bytes : Bytes) : Option (UInt64 × Bytes) :=
  (readArgument additional bytes).toOption

def content (count : ℕ) (bytes : Bytes) : Option (Bytes × Bytes) :=
  if count ≤ bytes.length then some (bytes.take count, bytes.drop count) else none

def number (n : ℕ) (bytes : Bytes) : Option (UInt64 × Bytes) := do
  let (v, bytes) ← content n bytes
  some (.ofNat (BigEndian.read v), bytes)

def spellItems (spellItem : Bytes → Option (Item × Bytes)) :
    ℕ → Bytes → Option (List Item × Bytes)
  | 0, bytes => some ([], bytes)
  | count + 1, bytes => do
    let (item, bytes) ← spellItem bytes
    let (items, bytes) ← spellItems spellItem count bytes
    some (item :: items, bytes)

def spellEntries (spellItem : Bytes → Option (Item × Bytes)) :
    ℕ → Bytes → Option (List (Bytes × Item) × Bytes)
  | 0, bytes => some ([], bytes)
  | count + 1, bytes => do
    let (key, bytes) ← spellItem bytes
    match key with
    | .text key =>
      let (item, bytes) ← spellItem bytes
      let (entries, bytes) ← spellEntries spellItem count bytes
      some ((key, item) :: entries, bytes)
    | _ => none

def spellSimple (additional : UInt8) (bytes : Bytes) : Option (Item × Bytes) :=
  if additional = 20 then some (.boolean false, bytes)
  else if additional = 21 then some (.boolean true, bytes)
  else if additional = 22 then some (.null, bytes)
  else if additional = 25 then do
    let (bits, bytes) ← number 2 bytes
    some (.half bits, bytes)
  else if additional = 26 then do
    let (bits, bytes) ← number 4 bytes
    some (.float bits, bytes)
  else if additional = 27 then do
    let (bits, bytes) ← number 8 bytes
    some (.double bits, bytes)
  else none

def count (additional : UInt8) (bytes : Bytes) : Option (UInt64 × Bytes) := do
  let (n, bytes) ← argument additional bytes
  if n > kMaxCollectionElements then none else some (n, bytes)

/-- The rest of an item after its first byte. -/
def spellRest (spellItem : Bytes → Option (Item × Bytes)) (major additional : UInt8)
    (bytes : Bytes) : Option (Item × Bytes) :=
  if major = kMajorUnsigned then do
    let (v, bytes) ← argument additional bytes
    some (.unsigned v, bytes)
  else if major = kMajorNegative then do
    let (n, bytes) ← argument additional bytes
    if n > 0x7FFFFFFFFFFFFFFF then none else some (.negative (-1 - n.toInt64), bytes)
  else if major = kMajorBytes then do
    let (n, bytes) ← argument additional bytes
    let (v, bytes) ← content n.toNat bytes
    some (.bytes v, bytes)
  else if major = kMajorText then do
    let (n, bytes) ← argument additional bytes
    let (v, bytes) ← content n.toNat bytes
    if WellFormed v then some (.text v, bytes) else none
  else if major = kMajorArray then do
    let (n, bytes) ← count additional bytes
    let (items, bytes) ← spellItems spellItem n.toNat bytes
    some (.array items, bytes)
  else if major = kMajorMap then do
    let (n, bytes) ← count additional bytes
    let (entries, bytes) ← spellEntries spellItem n.toNat bytes
    some (.map entries, bytes)
  else if major = kMajorTag then none
  else if major = kMajorSimple then spellSimple additional bytes
  else none

/-- One item with at most `levels` levels. -/
def spell : ℕ → Bytes → Option (Item × Bytes)
  | 0, _ => none
  | _ + 1, [] => none
  | levels + 1, initial :: bytes =>
    spellRest (spell levels) (initial >>> kMajorShift) (initial &&& kAdditionalMask) bytes

/-- The item that the bytes spell, with nothing after it. -/
def spelled (bytes : Bytes) : Option Item :=
  match spell (kMaxNestingDepth + 1) bytes with
  | some (item, []) => some item
  | _ => none

/-! ### Values of items -/

mutual

/-- The value `decodeValue` makes of an item, unless a map has a key twice. -/
def Item.value : Item → Option Value
  | .unsigned v => some (.unsigned v)
  | .negative v => some (.negative v)
  | .bytes v => some (.bytes v)
  | .text v => some (.text v)
  | .array items => (valueItems items).map .array
  | .map entries => (valueEntries [] entries).map .map
  | .boolean v => some (.boolean v)
  | .null => some .null
  | .half bits => some (.double (halfToDouble bits.toNat))
  | .float bits => some (.double (floatToDouble bits.toNat))
  | .double bits => some (.double bits)

def valueItems : List Item → Option (List Value)
  | [] => some []
  | item :: items => do
    let v ← item.value
    let vs ← valueItems items
    some (v :: vs)

def valueEntries (done : List (Bytes × Value)) :
    List (Bytes × Item) → Option (List (Bytes × Value))
  | [] => some done
  | (key, item) :: entries => do
    let v ← item.value
    let done ← emplace key v done
    valueEntries done entries

end

mutual

/-- In every map, `form` tells all keys apart. -/
def Item.keysApart (form : Bytes → Bytes) : Item → Bool
  | .array items => itemsApart form items
  | .map entries => (entries.map fun entry => form entry.1).Nodup && entriesApart form entries
  | _ => true

def itemsApart (form : Bytes → Bytes) : List Item → Bool
  | [] => true
  | item :: items => item.keysApart form && itemsApart form items

def entriesApart (form : Bytes → Bytes) : List (Bytes × Item) → Bool
  | [] => true
  | (_, item) :: entries => item.keysApart form && entriesApart form entries

end

/-! ### Numbers of `n` bytes -/

theorem read_lt_size {n : ℕ} (hn : n ≤ 8) (l : Bytes) :
    BigEndian.read (l.take n) < UInt64.size := by
  have hread := BigEndian.read_lt (l.take n)
  have hlen : (l.take n).length ≤ 8 := by
    rw [List.length_take]
    omega
  have hpow : 256 ^ (l.take n).length ≤ 256 ^ 8 := Nat.pow_le_pow_right (by decide) hlen
  have hsize : UInt64.size = 256 ^ 8 := rfl
  omega

theorem readLong_toOption (n : ℕ) (least : UInt64) :
    (fun l => (readLong n least l).toOption) =
      fun l => number n l >>= fun p => if p.1 > least then some p else none := by
  funext l
  unfold readLong readBigEndian number content
  split_ifs
  · omega
  · rfl
  · simp only [ok_bind, Option.bind_eq_bind, Option.bind_some]
    split_ifs <;> rfl
  · omega

/-! ### What is read gets shorter -/

theorem shrinks_content (n : ℕ) : Shrinks (content n) := by
  intro l p hp
  unfold content at hp
  split_ifs at hp
  obtain rfl := Option.some.inj hp
  rw [List.length_drop]
  omega

theorem shrinks_number (n : ℕ) : Shrinks (number n) :=
  (shrinks_content n).bind fun _ => .pure _

theorem shrinks_long (n : ℕ) (least : UInt64) :
    Shrinks fun bytes => (readLong n least bytes).toOption := by
  intro l p hp
  dsimp only at hp
  rw [readLong, readBigEndian] at hp
  split_ifs at hp
  · cases hp
  · change (if _ then Except.ok _ else Except.error _ : Except Error _).toOption = _ at hp
    split_ifs at hp
    · obtain rfl := Option.some.inj hp
      rw [List.length_drop]
      omega
    · cases hp

theorem shrinks_argument (additional : UInt8) : Shrinks (argument additional) := by
  intro l p hp
  unfold argument readArgument at hp
  split_ifs at hp with h1 h2
  · obtain rfl := Option.some.inj hp
    exact Nat.le_refl _
  · cases l with
    | nil => cases hp
    | cons byte l =>
      change (if _ then Except.ok _ else Except.error _ : Except Error _).toOption = _ at hp
      split_ifs at hp
      · obtain rfl := Option.some.inj hp
        exact Nat.le_succ _
      · cases hp
  · exact shrinks_long 2 0xFF l p hp
  · exact shrinks_long 4 0xFFFF l p hp
  · exact shrinks_long 8 0xFFFFFFFF l p hp
  · cases hp

theorem shrinks_count (additional : UInt8) : Shrinks (count additional) :=
  (shrinks_argument additional).bind fun _ => by
    dsimp only
    split_ifs
    · exact .fail
    · exact .pure _

theorem shrinks_items {spellItem : Bytes → Option (Item × Bytes)} (h : Shrinks spellItem) :
    ∀ n, Shrinks (spellItems spellItem n)
  | 0 => .pure _
  | n + 1 => h.bind fun _ => (shrinks_items h n).bind fun _ => .pure _

theorem shrinks_entries {spellItem : Bytes → Option (Item × Bytes)} (h : Shrinks spellItem) :
    ∀ n, Shrinks (spellEntries spellItem n)
  | 0 => .pure _
  | n + 1 => h.bind fun key => by
    cases key with
    | text key => exact h.bind fun _ => (shrinks_entries h n).bind fun _ => .pure _
    | _ => exact .fail

theorem shrinks_simple (additional : UInt8) : Shrinks (spellSimple additional) := by
  unfold spellSimple
  refine .ite (.pure _) <| .ite (.pure _) <| .ite (.pure _) <| .ite ?_ <| .ite ?_ <|
    .ite ?_ .fail
  · exact (shrinks_number 2).bind fun _ => .pure _
  · exact (shrinks_number 4).bind fun _ => .pure _
  · exact (shrinks_number 8).bind fun _ => .pure _

theorem shrinks_rest {spellItem : Bytes → Option (Item × Bytes)} (h : Shrinks spellItem)
    (major additional : UInt8) : Shrinks (spellRest spellItem major additional) := by
  unfold spellRest
  refine .ite ?_ <| .ite ?_ <| .ite ?_ <| .ite ?_ <| .ite ?_ <| .ite ?_ <| .ite .fail <|
    .ite (shrinks_simple additional) .fail
  · exact (shrinks_argument _).bind fun _ => .pure _
  · exact (shrinks_argument _).bind fun n => .ite .fail (.pure _)
  · exact (shrinks_argument _).bind fun _ => (shrinks_content _).bind fun _ => .pure _
  · exact (shrinks_argument _).bind fun n => (shrinks_content _).bind fun v =>
      .ite (.pure _) .fail
  · exact (shrinks_count _).bind fun n => (shrinks_items h n.toNat).bind fun _ => .pure _
  · exact (shrinks_count _).bind fun n => (shrinks_entries h n.toNat).bind fun _ => .pure _

theorem shrinks_spell : ∀ levels, Shrinks (spell levels)
  | 0 => .fail
  | levels + 1 => by
    intro l p hp
    cases l with
    | nil => cases hp
    | cons initial l =>
      exact Nat.le_succ_of_le (shrinks_rest (shrinks_spell levels) _ _ l p hp)

/-! ### The decoder is the reading -/

variable {bound : ℕ}

theorem reads_items {decodeItem : Bytes → Except Error (Value × Bytes)}
    {spellItem : Bytes → Option (Item × Bytes)}
    (h : Reads bound decodeItem spellItem Item.value) (hs : Shrinks spellItem) :
    ∀ n, Reads bound (decodeItems decodeItem n) (spellItems spellItem n) valueItems
  | 0 => .pure rfl
  | n + 1 => by
    refine h.bind hs (fun item hv l p _ hp => ?_) fun item v hv => ?_
    · obtain ⟨q, -, hq⟩ := Option.bind_eq_some_iff.mp hp
      obtain rfl := Option.some.inj hq
      rw [valueItems, hv]
      rfl
    · refine (reads_items h hs n).bind (shrinks_items hs n) (fun items hvs l p _ hp => ?_)
        fun items vs hvs => .pure (by rw [valueItems, hv, hvs]; rfl)
      obtain rfl := Option.some.inj hp
      rw [valueItems, hvs, hv]
      rfl

/-- Only a text is a text. -/
theorem value_text {item : Item} {t : Bytes} (h : item.value = some (.text t)) :
    item = .text t := by
  cases item with
  | text v =>
    rw [Item.value, Option.some.injEq, Value.text.injEq] at h
    rw [h]
  | array items =>
    rw [Item.value, Option.map_eq_some_iff] at h
    obtain ⟨vs, -, hvs⟩ := h
    cases hvs
  | map entries =>
    rw [Item.value, Option.map_eq_some_iff] at h
    obtain ⟨vs, -, hvs⟩ := h
    cases hvs
  | _ =>
    rw [Item.value] at h
    cases h

theorem reads_entries {decodeItem : Bytes → Except Error (Value × Bytes)}
    {spellItem : Bytes → Option (Item × Bytes)}
    (h : Reads bound decodeItem spellItem Item.value) (hs : Shrinks spellItem) :
    ∀ n done, Reads bound (decodeEntries decodeItem n done) (spellEntries spellItem n)
      (valueEntries done)
  | 0, done => .pure rfl
  | n + 1, done => by
    refine h.bind hs (fun key hv l p _ hp => ?_) fun key v hv => ?_
    · cases key with
      | text key => cases hv
      | _ => cases hp
    · cases key with
      | text key =>
        obtain rfl := Option.some.inj hv
        refine h.bind hs (fun item hw l p _ hp => ?_) fun item w hw => ?_
        · obtain ⟨q, -, hq⟩ := Option.bind_eq_some_iff.mp hp
          obtain rfl := Option.some.inj hq
          rw [valueEntries, hw]
          rfl
        · cases he : emplace key w done with
          | none =>
            dsimp only
            rw [he]
            refine .refuse (fun l p hp => ?_) _
            obtain ⟨q, -, hq⟩ := Option.bind_eq_some_iff.mp hp
            obtain rfl := Option.some.inj hq
            rw [valueEntries, hw]
            simp [he]
          | some done' =>
            dsimp only
            rw [he]
            refine (reads_entries h hs n done').rename fun entries => ?_
            rw [valueEntries, hw]
            simp [he]
      | _ =>
        cases v with
        | text t => cases value_text hv
        | _ => exact .fail _

/-! ### One value -/

theorem reads_argument (additional : UInt8) :
    Reads bound (readArgument additional) (argument additional) some := by
  intro l _
  unfold argument
  cases (readArgument additional l).toOption <;> rfl

theorem reads_count (additional : UInt8) :
    Reads bound (decodeCollectionCount additional) (count additional) some := by
  refine (reads_argument additional).bind (shrinks_argument additional) nofun fun n m hm => ?_
  obtain rfl := Option.some.inj hm
  dsimp only
  split_ifs
  · exact .fail _
  · exact .pure rfl

theorem reads_bytes (n : UInt64) : Reads bound (readBytes n) (content n.toNat) some := by
  intro l _
  unfold readBytes content
  split_ifs
  · omega
  · rfl
  · rfl
  · omega

theorem reads_bigEndian (n : ℕ) : Reads bound (readBigEndian n) (number n) some := by
  intro l _
  unfold readBigEndian number content
  split_ifs
  · omega
  · rfl
  · rfl
  · omega

theorem reads_simple (additional : UInt8) :
    Reads bound (decodeSimple additional) (spellSimple additional) Item.value := by
  unfold decodeSimple spellSimple
  refine .ite (.pure rfl) <| .ite (.pure rfl) <| .ite (.pure rfl) <| .ite ?_ <| .ite ?_ <|
    .ite ?_ (.fail _)
  · exact (reads_bigEndian 2).bind_some (shrinks_number 2) fun _ => .pure rfl
  · exact (reads_bigEndian 4).bind_some (shrinks_number 4) fun _ => .pure rfl
  · exact (reads_bigEndian 8).bind_some (shrinks_number 8) fun _ => .pure rfl

theorem reads_rest {levels : ℕ}
    (h : Reads bound (decodeValue levels) (spell levels) Item.value) (initial : UInt8) :
    Reads bound (fun bytes => decodeValue (levels + 1) (initial :: bytes))
      (spellRest (spell levels) (initial >>> kMajorShift) (initial &&& kAdditionalMask))
      Item.value := by
  have hargument := @reads_argument bound (initial &&& kAdditionalMask)
  have hshort := shrinks_argument (initial &&& kAdditionalMask)
  have hs := shrinks_spell levels
  simp only [decodeValue, readByte, ok_bind]
  unfold spellRest
  refine .ite ?_ <| .ite ?_ <| .ite ?_ <| .ite ?_ <| .ite ?_ <| .ite ?_ <| .ite (.fail _) <|
    .ite (reads_simple _) (.fail _)
  · refine hargument.bind_some hshort fun n => ?_
    dsimp only
    exact .pure rfl
  · refine hargument.bind_some hshort fun n => ?_
    dsimp only
    refine .ite (c := n > 0x7FFFFFFFFFFFFFFF) (.fail _) ?_
    exact .pure rfl
  · refine hargument.bind_some hshort fun n =>
      (reads_bytes n).bind_some (shrinks_content n.toNat) fun v => ?_
    dsimp only
    exact .pure rfl
  · refine hargument.bind_some hshort fun n =>
      (reads_bytes n).bind_some (shrinks_content n.toNat) fun v => ?_
    dsimp only
    simp only [isValidUtf8_iff]
    refine .ite (c := WellFormed v) ?_ (.fail _)
    exact .pure rfl
  · refine (reads_count _).bind_some (shrinks_count _) fun n =>
      (reads_items h hs n.toNat).bind (shrinks_items hs n.toNat) (fun items hv l p _ hp => ?_)
        fun items vs hvs => ?_
    · obtain rfl := Option.some.inj hp
      rw [Item.value, hv]
      rfl
    · dsimp only
      exact .pure (by rw [Item.value, hvs]; rfl)
  · refine (reads_count _).bind_some (shrinks_count _) fun n =>
      (reads_entries h hs n.toNat []).bind (shrinks_entries hs n.toNat)
        (fun entries hv l p _ hp => ?_) fun entries vs hvs => ?_
    · obtain rfl := Option.some.inj hp
      rw [Item.value, hv]
      rfl
    · dsimp only
      exact .pure (by rw [Item.value, hvs]; rfl)

/-- **The decoder reads what the bytes spell.** -/
theorem reads_value : ∀ levels, Reads bound (decodeValue levels) (spell levels) Item.value
  | 0 => .fail _
  | levels + 1 => by
    intro l hl
    cases l with
    | nil => rfl
    | cons initial l =>
      rw [List.length_cons] at hl
      exact reads_rest (reads_value levels) initial l (by omega)

/-- **Exactly one value**: the value of the item that the bytes spell. -/
theorem decode_spelled (bytes : Bytes) :
    (decode bytes).toOption = (spelled bytes).bind Item.value := by
  have h := @reads_value bytes.length (kMaxNestingDepth + 1) bytes (Nat.le_refl _)
  rw [decode, toOption_bind, h, spelled]
  cases spell (kMaxNestingDepth + 1) bytes with
  | none => rfl
  | some p =>
    obtain ⟨item, rest⟩ := p
    cases rest with
    | nil =>
      rw [Option.bind_some]
      change _ = item.value
      cases item.value <;> rfl
    | cons byte rest =>
      rw [Option.bind_some]
      cases item.value <;> rfl

/-! ### Keys -/

theorem keyLess_trans {a b c : Bytes} (h : keyLess a b = true) (h' : keyLess b c = true) :
    keyLess a c = true := by
  unfold keyLess at h h' ⊢
  split_ifs at h h' ⊢ <;> simp only [decide_eq_true_eq] at h h' ⊢
  · omega
  · omega
  · omega
  · omega
  · omega
  · omega
  · omega
  · exact List.lt_trans h h'

theorem eq_of_not_keyLess {a b : Bytes} (h : keyLess a b = false) (h' : keyLess b a = false) :
    a = b := by
  unfold keyLess at h h'
  split_ifs at h h' <;> simp only [decide_eq_false_iff_not] at h h'
  · omega
  · omega
  · omega
  · exact List.le_antisymm (List.not_lt.mp h') (List.not_lt.mp h)

theorem ne_of_keyLess {a b : Bytes} (h : keyLess a b = true) : a ≠ b := by
  rintro rfl
  have hself := keyLess_asymm h
  rw [h] at hself
  cases hself

/-- In key order, as a `std::map` keeps its entries. -/
def Sorted (entries : List (Bytes × Value)) : Prop :=
  entries.Pairwise fun a b => keyLess a.1 b.1

/-- **An entry is put at its place**, unless its key is there. -/
theorem emplace_spec (key : Bytes) (item : Value) :
    ∀ {entries : List (Bytes × Value)}, Sorted entries →
      (key ∈ entries.map Prod.fst → emplace key item entries = none) ∧
      (key ∉ entries.map Prod.fst → ∃ entries', emplace key item entries = some entries' ∧
        Sorted entries' ∧ entries'.Perm ((key, item) :: entries))
  | [], _ => ⟨nofun, fun _ => ⟨_, rfl, List.pairwise_singleton _ _, .refl _⟩⟩
  | (k, v) :: entries, h => by
    obtain ⟨hhead, htail⟩ := List.pairwise_cons.mp h
    obtain ⟨hin, hout⟩ := emplace_spec key item htail
    rw [emplace, List.map_cons, List.mem_cons, not_or]
    by_cases h1 : keyLess key k = true
    · rw [if_pos h1]
      refine ⟨fun hmem => ?_, fun _ => ⟨_, rfl, ?_, .refl _⟩⟩
      · rcases hmem with rfl | hmem
        · exact absurd rfl (ne_of_keyLess h1)
        · obtain ⟨entry, he, rfl⟩ := List.mem_map.mp hmem
          have hback := keyLess_asymm (hhead entry he)
          rw [h1] at hback
          cases hback
      · refine List.pairwise_cons.mpr ⟨fun entry he => ?_, h⟩
        rcases List.mem_cons.mp he with rfl | he
        · exact h1
        · exact keyLess_trans h1 (hhead entry he)
    · rw [if_neg h1]
      by_cases h2 : keyLess k key = true
      · rw [if_pos h2]
        refine ⟨fun hmem => ?_, fun hne => ?_⟩
        · rcases hmem with rfl | hmem
          · exact absurd rfl (ne_of_keyLess h2)
          · rw [hin hmem]
            rfl
        · obtain ⟨entries', he, hsorted, hperm⟩ := hout hne.2
          refine ⟨(k, v) :: entries', by rw [he]; rfl, ?_, ?_⟩
          · refine List.pairwise_cons.mpr ⟨fun entry hentry => ?_, hsorted⟩
            rcases List.mem_cons.mp (hperm.mem_iff.mp hentry) with rfl | hentry
            · exact h2
            · exact hhead entry hentry
          · exact (hperm.cons (k, v)).trans (.swap _ _ _)
      · rw [if_neg h2]
        have heq : key = k := eq_of_not_keyLess (by simpa using h1) (by simpa using h2)
        exact ⟨fun _ => rfl, fun hne => absurd heq hne.1⟩

mutual

/-- **An item has a value if no map in it has a key twice.** -/
theorem value_isSome : ∀ item : Item, item.value.isSome = item.keysApart id
  | .unsigned v => rfl
  | .negative v => rfl
  | .bytes v => rfl
  | .text v => rfl
  | .array items => by
    rw [Item.value, Option.isSome_map, valueItems_isSome items]
    rfl
  | .map entries => by
    rw [Item.value, Option.isSome_map, valueEntries_isSome entries [] List.Pairwise.nil]
    rfl
  | .boolean v => rfl
  | .null => rfl
  | .half bits => rfl
  | .float bits => rfl
  | .double bits => rfl

theorem valueItems_isSome : ∀ items : List Item, (valueItems items).isSome = itemsApart id items
  | [] => rfl
  | item :: items => by
    rw [itemsApart, ← value_isSome item, ← valueItems_isSome items, valueItems]
    cases item.value with
    | none => rfl
    | some v => cases valueItems items <;> rfl

/-- The entries so far are in order, and no key is there twice. -/
theorem valueEntries_isSome : ∀ (entries : List (Bytes × Item)) (done : List (Bytes × Value)),
    Sorted done →
    (valueEntries done entries).isSome =
      (decide ((done.map Prod.fst ++ entries.map Prod.fst).Nodup) && entriesApart id entries)
  | [], done, h => by
    have hnodup : (done.map Prod.fst).Nodup := List.pairwise_map.mpr (h.imp ne_of_keyLess)
    simp [valueEntries, entriesApart, hnodup]
  | (key, item) :: entries, done, h => by
    rw [valueEntries, entriesApart, ← value_isSome item]
    cases item.value with
    | none => simp
    | some v =>
      obtain ⟨hin, hout⟩ := emplace_spec key v h
      by_cases hmem : key ∈ done.map Prod.fst
      · have hdup : ¬ (done.map Prod.fst ++ key :: entries.map Prod.fst).Nodup := fun hnodup =>
          (List.nodup_append.mp hnodup).2.2 key hmem key List.mem_cons_self rfl
        simp [hin hmem, hdup]
      · obtain ⟨done', he, hsorted, hperm⟩ := hout hmem
        have hkeys : (done'.map Prod.fst ++ entries.map Prod.fst).Perm
            (done.map Prod.fst ++ key :: entries.map Prod.fst) :=
          ((hperm.map Prod.fst).append_right _).trans List.perm_middle.symm
        have ih := valueEntries_isSome entries done' hsorted
        simp only [he, Option.bind_eq_bind, Option.bind_some, ih, List.map_cons,
          hkeys.nodup_iff, Option.isSome_some, Bool.true_and]

end

end RemoteCam.Cbor.Spelling
