import RemoteCam.Cbor.Limits

/-! # One encoding for one value

`spelling` writes an item the way it was read: bytes that spell an item are its spelling
(`spell_sound`), so no head has a second form. `ofValue` is the item that `encode` spells, with keys
in order and every double wide, and `normalize` brings any other item of the same value into this
form. -/

namespace RemoteCam.Cbor.Canonical

open RemoteCam.Lib RemoteCam.Lib.OrderedMap RemoteCam.Cbor.Utf8
open RemoteCam.Cbor.Codec RemoteCam.Cbor.RoundTrip RemoteCam.Cbor.Limits
open RemoteCam.Cbor.Spelling hiding Sorted

/-! ### Writing items -/

mutual

/-- Heads in their shortest form, floats and keys as they are. -/
def spelling : Item → Bytes
  | .unsigned v => appendHead kMajorUnsigned v
  | .negative v => appendHead kMajorNegative (-(v + 1)).toUInt64
  | .bytes v => appendHead kMajorBytes (.ofNat v.length) ++ v
  | .text v => appendHead kMajorText (.ofNat v.length) ++ v
  | .array items => appendHead kMajorArray (.ofNat items.length) ++ spellingItems items
  | .map entries => appendHead kMajorMap (.ofNat entries.length) ++ spellingEntries entries
  | .boolean v => [(kMajorSimple <<< kMajorShift) ||| if v then 21 else 20]
  | .null => [(kMajorSimple <<< kMajorShift) ||| 22]
  | .half bits => ((kMajorSimple <<< kMajorShift) ||| 25) :: appendBigEndian bits 2
  | .float bits => ((kMajorSimple <<< kMajorShift) ||| 26) :: appendBigEndian bits 4
  | .double bits => ((kMajorSimple <<< kMajorShift) ||| 27) :: appendBigEndian bits 8

def spellingItems : List Item → Bytes
  | [] => []
  | item :: items => spelling item ++ spellingItems items

def spellingEntries : List (Bytes × Item) → Bytes
  | [] => []
  | (key, item) :: entries =>
    appendHead kMajorText (.ofNat key.length) ++ key ++ spelling item ++ spellingEntries entries

end

mutual

/-- `p` holds of the item and of every item inside it. -/
def everywhere (p : Item → Bool) : Item → Bool
  | .array items => p (.array items) && itemsEverywhere p items
  | .map entries => p (.map entries) && entriesEverywhere p entries
  | item => p item

def itemsEverywhere (p : Item → Bool) : List Item → Bool
  | [] => true
  | item :: items => everywhere p item && itemsEverywhere p items

def entriesEverywhere (p : Item → Bool) : List (Bytes × Item) → Bool
  | [] => true
  | (_, item) :: entries => everywhere p item && entriesEverywhere p entries

end

/-- No float of two or four bytes. -/
def IsWide : Item → Bool
  | .half _ | .float _ => false
  | _ => true

/-- The keys of a map strictly increase. -/
def IsOrdered : Item → Bool
  | .map entries => decide (entries.Pairwise fun a b => keyLess a.1 b.1 = true)
  | _ => true

mutual

/-- The item with its floats widened and the keys of its maps in order. -/
def normalize : Item → Item
  | .array items => .array (normalizeItems items)
  | .map entries => .map (normalizeEntries [] entries)
  | .half bits => .double (halfToDouble bits.toNat)
  | .float bits => .double (floatToDouble bits.toNat)
  | item => item

def normalizeItems : List Item → List Item
  | [] => []
  | item :: items => normalize item :: normalizeItems items

def normalizeEntries (done : List (Bytes × Item)) : List (Bytes × Item) → List (Bytes × Item)
  | [] => done
  | (key, item) :: entries =>
    normalizeEntries (insertOrAssign keyLess key (normalize item) done) entries

end

mutual

/-- The item that `encode` spells. -/
def ofValue : Value → Item
  | .unsigned v => .unsigned v
  | .negative v => .negative v
  | .bytes v => .bytes v
  | .text v => .text v
  | .array items => .array (ofItems items)
  | .map entries => .map (ofEntries entries)
  | .boolean v => .boolean v
  | .null => .null
  | .double bits => .double bits

def ofItems : List Value → List Item
  | [] => []
  | item :: items => ofValue item :: ofItems items

def ofEntries : List (Bytes × Value) → List (Bytes × Item)
  | [] => []
  | (key, item) :: entries => (key, ofValue item) :: ofEntries entries

end

/-! ### What was read is its spelling -/

/-- What may be read with so many levels: sizes and counts that a head can hold, texts that are
well-formed. A key of a map is read as an item. -/
def Legible : ℕ → Item → Prop
  | 0, _ => False
  | _ + 1, .negative v => v < 0
  | _ + 1, .bytes v => v.length < 2 ^ 64
  | _ + 1, .text v => v.length < 2 ^ 64 ∧ WellFormed v
  | levels + 1, .array items =>
    items.length ≤ kMaxCollectionElements.toNat ∧ ∀ item ∈ items, Legible levels item
  | levels + 1, .map entries =>
    entries.length ≤ kMaxCollectionElements.toNat ∧
      ∀ entry ∈ entries, Legible levels (.text entry.1) ∧ Legible levels entry.2
  | _ + 1, _ => True

/-- What is read is spelled by the bytes that are gone. -/
def Sound (spellItem : Bytes → Option (Item × Bytes)) (p : Item → Prop) : Prop :=
  ∀ bytes item rest, spellItem bytes = some (item, rest) → bytes = spelling item ++ rest ∧ p item

section Heads
variable {bytes rest : Bytes} {n : ℕ} {a : UInt64}

set_option maxRecDepth 2000 in
theorem initial_join (initial : UInt8) :
    initial >>> kMajorShift <<< kMajorShift ||| initial &&& kAdditionalMask = initial := by
  have h : ∀ n < 256, UInt8.ofNat n >>> kMajorShift <<< kMajorShift |||
      UInt8.ofNat n &&& kAdditionalMask = UInt8.ofNat n := by decide
  simpa using h initial.toNat initial.toNat_lt

theorem content_sound {v : Bytes} (h : content n bytes = some (v, rest)) :
    bytes = v ++ rest ∧ v.length = n := by
  unfold content at h
  split_ifs at h
  obtain ⟨rfl, rfl⟩ := Prod.mk.inj (Option.some.inj h)
  exact ⟨(List.take_append_drop n bytes).symm, by rw [List.length_take]; omega⟩

theorem number_sound (hn : n ≤ 8) (h : number n bytes = some (a, rest)) :
    bytes = appendBigEndian a n ++ rest ∧ a.toNat < 256 ^ n := by
  obtain ⟨⟨v, rest'⟩, hv, ha⟩ := Option.bind_eq_some_iff.mp h
  obtain ⟨rfl, rfl⟩ := Prod.mk.inj (Option.some.inj ha)
  obtain ⟨rfl, rfl⟩ := content_sound hv
  have hlt : BigEndian.read v < UInt64.size := by
    simpa using read_lt_size hn v
  rw [appendBigEndian, UInt64.toNat_ofNat_of_lt' hlt, BigEndian.write_read]
  exact ⟨rfl, BigEndian.read_lt v⟩

theorem long_sound {least : UInt64} (hn : n ≤ 8)
    (h : (readLong n least bytes).toOption = some (a, rest)) :
    bytes = appendBigEndian a n ++ rest ∧ a.toNat < 256 ^ n ∧ least < a := by
  have h' := (congrFun (readLong_toOption n least) bytes).symm.trans h
  obtain ⟨⟨b, rest'⟩, hb, ha⟩ := Option.bind_eq_some_iff.mp h'
  dsimp only at ha
  split_ifs at ha with hleast
  obtain ⟨rfl, rfl⟩ := Prod.mk.inj (Option.some.inj ha)
  obtain ⟨hbytes, hlt⟩ := number_sound hn hb
  exact ⟨hbytes, hlt, hleast⟩

/-- **A head has one form**: the shortest. -/
theorem argument_sound {initial : UInt8}
    (h : argument (initial &&& kAdditionalMask) bytes = some (a, rest)) :
    initial :: bytes = appendHead (initial >>> kMajorShift) a ++ rest := by
  have hinitial := initial_join initial
  generalize initial &&& kAdditionalMask = additional at h hinitial
  generalize initial >>> kMajorShift = major at hinitial ⊢
  subst hinitial
  unfold argument readArgument at h
  unfold appendHead
  split_ifs at h with h23 h24 h25 h26 h27
  · obtain ⟨rfl, rfl⟩ := Prod.mk.inj (Option.some.inj h)
    have hlt : additional.toUInt64 < 24 := by
      rw [UInt64.lt_iff_toNat_lt, UInt8.toNat_toUInt64]
      exact UInt8.lt_iff_toNat_lt.mp h23
    rw [if_pos hlt, UInt8.toUInt8_toUInt64]
    rfl
  · cases bytes with
    | nil => cases h
    | cons byte bytes =>
      change (if _ then Except.ok _ else Except.error _ : Except Error _).toOption = _ at h
      split_ifs at h with hbyte
      · obtain ⟨rfl, rfl⟩ := Prod.mk.inj (Option.some.inj h)
        have hle : byte.toUInt64 ≤ 0xFF := by
          have hlt := byte.toNat_lt
          rw [UInt64.le_iff_toNat_le, UInt8.toNat_toUInt64]
          exact Nat.le_of_lt_succ hlt
        rw [if_neg (UInt64.not_lt.mpr hbyte), if_pos hle, UInt8.toUInt8_toUInt64, h24]
        rfl
      · cases h
  · obtain ⟨rfl, hlt, hleast⟩ := long_sound (by decide) h
    simp only [UInt64.lt_iff_toNat_lt, UInt64.le_iff_toNat_le, UInt64.reduceToNat] at hleast ⊢
    rw [if_neg (by omega), if_neg (by omega), if_pos (by omega), h25]
    rfl
  · obtain ⟨rfl, hlt, hleast⟩ := long_sound (by decide) h
    simp only [UInt64.lt_iff_toNat_lt, UInt64.le_iff_toNat_le, UInt64.reduceToNat] at hleast ⊢
    rw [if_neg (by omega), if_neg (by omega), if_neg (by omega), if_pos (by omega), h26]
    rfl
  · obtain ⟨rfl, hlt, hleast⟩ := long_sound (by decide) h
    simp only [UInt64.lt_iff_toNat_lt, UInt64.le_iff_toNat_le, UInt64.reduceToNat] at hleast ⊢
    rw [if_neg (by omega), if_neg (by omega), if_neg (by omega), if_neg (by omega), h27]
    rfl
  · cases h

theorem count_sound {initial : UInt8}
    (h : count (initial &&& kAdditionalMask) bytes = some (a, rest)) :
    initial :: bytes = appendHead (initial >>> kMajorShift) a ++ rest ∧
      a.toNat ≤ kMaxCollectionElements.toNat := by
  obtain ⟨⟨b, rest'⟩, hb, ha⟩ := Option.bind_eq_some_iff.mp h
  dsimp only at ha
  split_ifs at ha with hle
  obtain ⟨rfl, rfl⟩ := Prod.mk.inj (Option.some.inj ha)
  exact ⟨argument_sound hb, UInt64.le_iff_toNat_le.mp (UInt64.not_lt.mp hle)⟩

end Heads

section Loops
variable {spellItem : Bytes → Option (Item × Bytes)} {p : Item → Prop}

theorem items_sound (h : Sound spellItem p) : ∀ n bytes items rest,
    spellItems spellItem n bytes = some (items, rest) →
      bytes = spellingItems items ++ rest ∧ items.length = n ∧ ∀ item ∈ items, p item
  | 0, bytes, items, rest, hspell => by
    obtain ⟨rfl, rfl⟩ := Prod.mk.inj (Option.some.inj hspell)
    exact ⟨rfl, rfl, nofun⟩
  | n + 1, bytes, items, rest, hspell => by
    obtain ⟨⟨item, bytes'⟩, hitem, hspell⟩ := Option.bind_eq_some_iff.mp hspell
    obtain ⟨⟨items', rest'⟩, hitems, hspell⟩ := Option.bind_eq_some_iff.mp hspell
    obtain ⟨rfl, rfl⟩ := Prod.mk.inj (Option.some.inj hspell)
    obtain ⟨rfl, hp⟩ := h _ _ _ hitem
    obtain ⟨rfl, rfl, hps⟩ := items_sound h n _ _ _ hitems
    exact ⟨by rw [spellingItems, List.append_assoc], rfl, List.forall_mem_cons.mpr ⟨hp, hps⟩⟩

theorem entries_sound (h : Sound spellItem p) : ∀ n bytes entries rest,
    spellEntries spellItem n bytes = some (entries, rest) →
      bytes = spellingEntries entries ++ rest ∧ entries.length = n ∧
        ∀ entry ∈ entries, p (.text entry.1) ∧ p entry.2
  | 0, bytes, entries, rest, hspell => by
    obtain ⟨rfl, rfl⟩ := Prod.mk.inj (Option.some.inj hspell)
    exact ⟨rfl, rfl, nofun⟩
  | n + 1, bytes, entries, rest, hspell => by
    obtain ⟨⟨key, bytes'⟩, hkey, hspell⟩ := Option.bind_eq_some_iff.mp hspell
    cases key with
    | text key =>
      obtain ⟨⟨item, bytes''⟩, hitem, hspell⟩ := Option.bind_eq_some_iff.mp hspell
      obtain ⟨⟨entries', rest'⟩, hentries, hspell⟩ := Option.bind_eq_some_iff.mp hspell
      obtain ⟨rfl, rfl⟩ := Prod.mk.inj (Option.some.inj hspell)
      obtain ⟨rfl, hpkey⟩ := h _ _ _ hkey
      obtain ⟨rfl, hp⟩ := h _ _ _ hitem
      obtain ⟨rfl, rfl, hps⟩ := entries_sound h n _ _ _ hentries
      refine ⟨?_, rfl, List.forall_mem_cons.mpr ⟨⟨hpkey, hp⟩, hps⟩⟩
      simp only [spellingEntries, spelling, List.append_assoc]
    | _ => cases hspell

end Loops

/-- The argument of a negative number is written as it was read. -/
theorem negative_sound {n : UInt64} (hn : ¬ n > 0x7FFFFFFFFFFFFFFF) :
    -1 - n.toInt64 < 0 ∧ (-(-1 - n.toInt64 + 1)).toUInt64 = n := by
  constructor
  · have hle : n.toNat ≤ 2 ^ 63 - 1 := UInt64.le_iff_toNat_le.mp (UInt64.not_lt.mp hn)
    have hnat : (-1 - n.toInt64).toUInt64.toNat = 2 ^ 64 - 1 - n.toNat := by
      rw [Int64.toUInt64_sub, Int64.toUInt64_neg, UInt64.toUInt64_toInt64, UInt64.toNat_sub,
        UInt64.toNat_neg]
      have hone : (Int64.toUInt64 1).toNat = 1 := rfl
      have hsize : UInt64.size = 2 ^ 64 := rfl
      rw [hone, hsize]
      omega
    rw [Int64.lt_iff_toInt_lt]
    change (-1 - n.toInt64).toBitVec.toInt < 0
    rw [BitVec.toInt_eq_toNat_cond, Int64.toNat_toBitVec, hnat, if_neg (by omega)]
    omega
  · have hback : -(-1 - n.toInt64 + 1) = n.toInt64 := by grind
    rw [hback, UInt64.toUInt64_toInt64]

theorem simple_sound {additional : UInt8} {bytes rest : Bytes} {item : Item} {levels : ℕ}
    (h : spellSimple additional bytes = some (item, rest)) :
    (kMajorSimple <<< kMajorShift ||| additional) :: bytes = spelling item ++ rest ∧
      Legible (levels + 1) item := by
  unfold spellSimple at h
  split_ifs at h with h20 h21 h22 h25 h26 h27
  · obtain ⟨rfl, rfl⟩ := Prod.mk.inj (Option.some.inj h)
    exact ⟨by rw [h20]; rfl, trivial⟩
  · obtain ⟨rfl, rfl⟩ := Prod.mk.inj (Option.some.inj h)
    exact ⟨by rw [h21]; rfl, trivial⟩
  · obtain ⟨rfl, rfl⟩ := Prod.mk.inj (Option.some.inj h)
    exact ⟨by rw [h22]; rfl, trivial⟩
  · obtain ⟨⟨bits, rest'⟩, hbits, h⟩ := Option.bind_eq_some_iff.mp h
    obtain ⟨rfl, rfl⟩ := Prod.mk.inj (Option.some.inj h)
    exact ⟨by rw [spelling, h25, (number_sound (by decide) hbits).1]; rfl, trivial⟩
  · obtain ⟨⟨bits, rest'⟩, hbits, h⟩ := Option.bind_eq_some_iff.mp h
    obtain ⟨rfl, rfl⟩ := Prod.mk.inj (Option.some.inj h)
    exact ⟨by rw [spelling, h26, (number_sound (by decide) hbits).1]; rfl, trivial⟩
  · obtain ⟨⟨bits, rest'⟩, hbits, h⟩ := Option.bind_eq_some_iff.mp h
    obtain ⟨rfl, rfl⟩ := Prod.mk.inj (Option.some.inj h)
    exact ⟨by rw [spelling, h27, (number_sound (by decide) hbits).1]; rfl, trivial⟩

/-- **Bytes that spell an item are its spelling**, and the item is one that may be read. -/
theorem spell_sound : ∀ levels, Sound (spell levels) (Legible levels)
  | 0 => nofun
  | levels + 1 => by
    intro bytes item rest h
    have ih := spell_sound levels
    cases bytes with
    | nil => cases h
    | cons initial bytes =>
      rw [spell] at h
      unfold spellRest at h
      split_ifs at h with h0 h1 h2 h3 h4 h5 h6 h7
      · obtain ⟨⟨n, rest'⟩, hn, h⟩ := Option.bind_eq_some_iff.mp h
        obtain ⟨rfl, rfl⟩ := Prod.mk.inj (Option.some.inj h)
        exact ⟨by rw [spelling, ← h0]; exact argument_sound hn, trivial⟩
      · obtain ⟨⟨n, rest'⟩, hn, h⟩ := Option.bind_eq_some_iff.mp h
        dsimp only at h
        split_ifs at h with hle
        obtain ⟨rfl, rfl⟩ := Prod.mk.inj (Option.some.inj h)
        obtain ⟨hneg, hback⟩ := negative_sound hle
        exact ⟨by rw [spelling, hback, ← h1]; exact argument_sound hn, hneg⟩
      · obtain ⟨⟨n, rest'⟩, hn, h⟩ := Option.bind_eq_some_iff.mp h
        obtain ⟨⟨v, rest''⟩, hv, h⟩ := Option.bind_eq_some_iff.mp h
        obtain ⟨rfl, rfl⟩ := Prod.mk.inj (Option.some.inj h)
        obtain ⟨rfl, hlen⟩ := content_sound hv
        refine ⟨?_, by rw [Legible, hlen]; exact n.toNat_lt⟩
        rw [spelling, hlen, UInt64.ofNat_toNat, List.append_assoc, ← h2]
        exact argument_sound hn
      · obtain ⟨⟨n, rest'⟩, hn, h⟩ := Option.bind_eq_some_iff.mp h
        obtain ⟨⟨v, rest''⟩, hv, h⟩ := Option.bind_eq_some_iff.mp h
        dsimp only at h
        split_ifs at h with hwell
        obtain ⟨rfl, rfl⟩ := Prod.mk.inj (Option.some.inj h)
        obtain ⟨rfl, hlen⟩ := content_sound hv
        refine ⟨?_, by rw [Legible, hlen]; exact ⟨n.toNat_lt, hwell⟩⟩
        rw [spelling, hlen, UInt64.ofNat_toNat, List.append_assoc, ← h3]
        exact argument_sound hn
      · obtain ⟨⟨n, rest'⟩, hn, h⟩ := Option.bind_eq_some_iff.mp h
        obtain ⟨⟨items, rest''⟩, hitems, h⟩ := Option.bind_eq_some_iff.mp h
        obtain ⟨rfl, rfl⟩ := Prod.mk.inj (Option.some.inj h)
        obtain ⟨hhead, hle⟩ := count_sound hn
        obtain ⟨rfl, hlen, hlegible⟩ := items_sound ih _ _ _ _ hitems
        refine ⟨?_, by rw [Legible, hlen]; exact ⟨hle, hlegible⟩⟩
        rw [spelling, hlen, UInt64.ofNat_toNat, List.append_assoc, ← h4]
        exact hhead
      · obtain ⟨⟨n, rest'⟩, hn, h⟩ := Option.bind_eq_some_iff.mp h
        obtain ⟨⟨entries, rest''⟩, hentries, h⟩ := Option.bind_eq_some_iff.mp h
        obtain ⟨rfl, rfl⟩ := Prod.mk.inj (Option.some.inj h)
        obtain ⟨hhead, hle⟩ := count_sound hn
        obtain ⟨rfl, hlen, hlegible⟩ := entries_sound ih _ _ _ _ hentries
        refine ⟨?_, by rw [Legible, hlen]; exact ⟨hle, hlegible⟩⟩
        rw [spelling, hlen, UInt64.ofNat_toNat, List.append_assoc, ← h5]
        exact hhead
      · rw [← initial_join initial, h7]
        exact simple_sound h

theorem spell_of_spelled {bytes : Bytes} {item : Item} (h : spelled bytes = some item) :
    spell (kMaxNestingDepth + 1) bytes = some (item, []) := by
  unfold spelled at h
  split at h
  · rename_i heq
    rw [heq, ← Option.some.inj h]
  · cases h

theorem spelled_sound {bytes : Bytes} {item : Item} (h : spelled bytes = some item) :
    bytes = spelling item ∧ Legible (kMaxNestingDepth + 1) item := by
  have hsound := spell_sound _ _ _ _ (spell_of_spelled h)
  rwa [List.append_nil] at hsound

/-! ### What is written -/

mutual

theorem encode_eq : ∀ v : Value, encode v = spelling (ofValue v)
  | .unsigned _ | .negative _ | .bytes _ | .text _ | .boolean _ | .null | .double _ => rfl
  | .array items => by
    obtain ⟨hitems, hlen⟩ := encodeItems_eq items
    rw [encode, ofValue, spelling, hitems, hlen]
  | .map entries => by
    obtain ⟨hentries, hlen⟩ := encodeEntries_eq entries
    rw [encode, ofValue, spelling, hentries, hlen]

theorem encodeItems_eq : ∀ items : List Value,
    encodeItems items = spellingItems (ofItems items) ∧ (ofItems items).length = items.length
  | [] => ⟨rfl, rfl⟩
  | item :: items => by
    obtain ⟨hitems, hlen⟩ := encodeItems_eq items
    rw [encodeItems, ofItems, spellingItems, encode_eq item, hitems, List.length_cons, hlen,
      List.length_cons]
    exact ⟨rfl, rfl⟩

theorem encodeEntries_eq : ∀ entries : List (Bytes × Value),
    encodeEntries entries = spellingEntries (ofEntries entries) ∧
      (ofEntries entries).length = entries.length
  | [] => ⟨rfl, rfl⟩
  | (key, item) :: entries => by
    obtain ⟨hentries, hlen⟩ := encodeEntries_eq entries
    rw [encodeEntries, ofEntries, spellingEntries, encode_eq item, hentries, List.length_cons, hlen,
      List.length_cons]
    exact ⟨rfl, rfl⟩

end

theorem map_fst_ofEntries (entries : List (Bytes × Value)) :
    (ofEntries entries).map Prod.fst = entries.map Prod.fst := by
  induction entries with
  | nil => rfl
  | cons entry entries ih => rw [ofEntries, List.map_cons, List.map_cons, ih]

section Everywhere
variable {p : Item → Bool} {q : Value → Prop}

mutual

theorem everywhere_ofValue (hp : ∀ v, q v → p (ofValue v) = true) :
    ∀ {v : Value}, Forall q v → everywhere p (ofValue v) = true
  | .unsigned _, h | .negative _, h | .bytes _, h | .text _, h | .boolean _, h | .null, h
  | .double _, h => hp _ h.of_node
  | .array items, h => by
    have hnode := hp _ h.of_node
    have hitems : ∀ item ∈ items, Forall q item := fun item hmem => h.of_mem hmem
    rw [ofValue] at hnode ⊢
    rw [everywhere, hnode, itemsEverywhere_ofItems hp hitems]
    rfl
  | .map entries, h => by
    have hnode := hp _ h.of_node
    have hentries := entriesEverywhere_ofEntries hp fun entry hmem =>
      h.of_mem (List.mem_map_of_mem hmem)
    rw [ofValue] at hnode ⊢
    rw [everywhere, hnode, hentries]
    rfl

theorem itemsEverywhere_ofItems (hp : ∀ v, q v → p (ofValue v) = true) :
    ∀ {items : List Value}, (∀ item ∈ items, Forall q item) →
      itemsEverywhere p (ofItems items) = true
  | [], _ => rfl
  | item :: items, h => by
    obtain ⟨hitem, hitems⟩ := List.forall_mem_cons.mp h
    rw [ofItems, itemsEverywhere, everywhere_ofValue hp hitem, itemsEverywhere_ofItems hp hitems]
    rfl

theorem entriesEverywhere_ofEntries (hp : ∀ v, q v → p (ofValue v) = true) :
    ∀ {entries : List (Bytes × Value)}, (∀ entry ∈ entries, Forall q entry.2) →
      entriesEverywhere p (ofEntries entries) = true
  | [], _ => rfl
  | (key, item) :: entries, h => by
    obtain ⟨hitem, hentries⟩ := List.forall_mem_cons.mp h
    rw [ofEntries, entriesEverywhere, everywhere_ofValue hp hitem,
      entriesEverywhere_ofEntries hp hentries]
    rfl

end

end Everywhere

theorem isWide_ofValue (v : Value) : IsWide (ofValue v) = true := by cases v <;> rfl

/-- The order of a `std::map` is the order of the keys in its encoding. -/
theorem isOrdered_ofValue {v : Value} (h : Representable v) : IsOrdered (ofValue v) = true := by
  cases v with
  | map entries =>
    have hkeys : (entries.map Prod.fst).Pairwise fun a b => keyLess a b = true :=
      List.pairwise_map.mpr h.2.2
    rw [← map_fst_ofEntries] at hkeys
    exact decide_eq_true (List.pairwise_map.mp hkeys)
  | _ => rfl

/-! ### What was written is read as it was -/

/-- Where something is read, it is what was written, and what follows is left. -/
def ReadsBack (spellItem : Bytes → Option (Item × Bytes)) (v : Value) : Prop :=
  ∀ rest p, spellItem (encode v ++ rest) = some p → p = (ofValue v, rest)

section Back
variable {spellItem : Bytes → Option (Item × Bytes)}

theorem spellItems_back {items : List Value} (h : ∀ item ∈ items, ReadsBack spellItem item)
    {rest : Bytes} {p : List Item × Bytes}
    (hp : spellItems spellItem items.length (encodeItems items ++ rest) = some p) :
    p = (ofItems items, rest) := by
  induction items generalizing p with
  | nil => exact (Option.some.inj hp).symm
  | cons item items ih =>
    obtain ⟨hitem, hitems⟩ := List.forall_mem_cons.mp h
    rw [encodeItems, List.append_assoc, List.length_cons, spellItems] at hp
    obtain ⟨q, hq, hp⟩ := Option.bind_eq_some_iff.mp hp
    obtain rfl := hitem _ q hq
    obtain ⟨r, hr, hp⟩ := Option.bind_eq_some_iff.mp hp
    obtain rfl := ih hitems hr
    exact (Option.some.inj hp).symm

theorem spellEntries_back {entries : List (Bytes × Value)}
    (hkey : ∀ entry ∈ entries, ReadsBack spellItem (.text entry.1))
    (hitem : ∀ entry ∈ entries, ReadsBack spellItem entry.2)
    {rest : Bytes} {p : List (Bytes × Item) × Bytes}
    (hp : spellEntries spellItem entries.length (encodeEntries entries ++ rest) = some p) :
    p = (ofEntries entries, rest) := by
  induction entries generalizing p with
  | nil => exact (Option.some.inj hp).symm
  | cons entry entries ih =>
    obtain ⟨key, item⟩ := entry
    obtain ⟨hkey, hkeys⟩ := List.forall_mem_cons.mp hkey
    obtain ⟨hitem, hitems⟩ := List.forall_mem_cons.mp hitem
    have hbytes : encodeEntries ((key, item) :: entries) ++ rest =
        encode (.text key) ++ (encode item ++ (encodeEntries entries ++ rest)) := by
      simp only [encodeEntries, encode, List.append_assoc]
    rw [hbytes, List.length_cons, spellEntries] at hp
    obtain ⟨q, hq, hp⟩ := Option.bind_eq_some_iff.mp hp
    obtain rfl := hkey _ q hq
    obtain ⟨r, hr, hp⟩ := Option.bind_eq_some_iff.mp hp
    obtain rfl := hitem _ r hr
    obtain ⟨t, ht, hp⟩ := Option.bind_eq_some_iff.mp hp
    obtain rfl := ih hkeys hitems ht
    exact (Option.some.inj hp).symm

end Back

/-- A head is read: its argument is there. -/
theorem spell_head (levels : ℕ) {major : UInt8} (hmajor : major < 8) (a : UInt64) (rest : Bytes) :
    ∃ additional bytes, argument additional bytes = some (a, rest) ∧
      spell (levels + 1) (appendHead major a ++ rest) =
        spellRest (spell levels) major additional bytes := by
  obtain ⟨initial, tail, hhead, hinitial, harg⟩ := appendHead_read hmajor a
  refine ⟨initial &&& kAdditionalMask, tail ++ rest, ?_, ?_⟩
  · rw [argument, harg]
    rfl
  · rw [hhead, List.cons_append, spell, hinitial]

theorem content_append {v : Bytes} (h : v.length < 2 ^ 64) (rest : Bytes) :
    content (UInt64.ofNat v.length).toNat (v ++ rest) = some (v, rest) := by
  have hlen : (UInt64.ofNat v.length).toNat = v.length := UInt64.toNat_ofNat_of_lt' h
  rw [content, hlen, if_pos (by rw [List.length_append]; omega), List.take_left' rfl,
    List.drop_left' rfl]

theorem count_back {additional : UInt8} {bytes rest : Bytes} {n : ℕ} {p : UInt64 × Bytes}
    (hn : n < 2 ^ 64) (harg : argument additional bytes = some (.ofNat n, rest))
    (hp : count additional bytes = some p) : p.1.toNat = n ∧ p.2 = rest := by
  rw [count, harg] at hp
  simp only [Option.bind_eq_bind, Option.bind_some] at hp
  split_ifs at hp
  obtain rfl := Option.some.inj hp
  exact ⟨UInt64.toNat_ofNat_of_lt' hn, rfl⟩

/-- **An encoded value is read as its own item or not at all.** -/
theorem spell_back : ∀ levels {v : Value}, Forall Representable v → ReadsBack (spell levels) v
  | 0, v, _ => nofun
  | levels + 1, v, hrep => by
    intro rest p hp
    have hnode := hrep.of_node
    cases v with
    | unsigned n =>
      obtain ⟨additional, bytes, harg, hspell⟩ :=
        spell_head levels (by decide : kMajorUnsigned < 8) n rest
      rw [encode, hspell, spellRest, if_pos rfl, harg] at hp
      exact (Option.some.inj hp).symm
    | negative n =>
      obtain ⟨additional, bytes, harg, hspell⟩ :=
        spell_head levels (by decide : kMajorNegative < 8) (-(n + 1)).toUInt64 rest
      rw [encode, hspell, spellRest, if_neg (by decide), if_pos rfl, harg] at hp
      simp only [Option.bind_eq_bind, Option.bind_some] at hp
      split_ifs at hp
      have hback : -1 - (-(n + 1)) = n := by grind
      rw [← Option.some.inj hp, Int64.toInt64_toUInt64, hback]
      rfl
    | bytes content =>
      obtain ⟨additional, bytes, harg, hspell⟩ :=
        spell_head levels (by decide : kMajorBytes < 8) (.ofNat content.length) (content ++ rest)
      rw [encode, List.append_assoc, hspell, spellRest, if_neg (by decide), if_neg (by decide),
        if_pos rfl, harg] at hp
      simp only [Option.bind_eq_bind, Option.bind_some, content_append hnode] at hp
      exact (Option.some.inj hp).symm
    | text content =>
      obtain ⟨additional, bytes, harg, hspell⟩ :=
        spell_head levels (by decide : kMajorText < 8) (.ofNat content.length) (content ++ rest)
      rw [encode, List.append_assoc, hspell, spellRest, if_neg (by decide), if_neg (by decide),
        if_neg (by decide), if_pos rfl, harg] at hp
      simp only [Option.bind_eq_bind, Option.bind_some, content_append hnode] at hp
      split_ifs at hp
      exact (Option.some.inj hp).symm
    | array items =>
      obtain ⟨additional, bytes, harg, hspell⟩ := spell_head levels
        (by decide : kMajorArray < 8) (.ofNat items.length) (encodeItems items ++ rest)
      rw [encode, List.append_assoc, hspell, spellRest, if_neg (by decide), if_neg (by decide),
        if_neg (by decide), if_neg (by decide), if_pos rfl] at hp
      obtain ⟨⟨n, bytes'⟩, hcount, hp⟩ := Option.bind_eq_some_iff.mp hp
      obtain ⟨hn, rfl⟩ := count_back hnode harg hcount
      obtain ⟨q, hq, hp⟩ := Option.bind_eq_some_iff.mp hp
      rw [hn] at hq
      obtain rfl := spellItems_back
        (fun item hmem => spell_back levels (hrep.of_mem hmem)) hq
      exact (Option.some.inj hp).symm
    | map entries =>
      obtain ⟨additional, bytes, harg, hspell⟩ := spell_head levels
        (by decide : kMajorMap < 8) (.ofNat entries.length) (encodeEntries entries ++ rest)
      rw [encode, List.append_assoc, hspell, spellRest, if_neg (by decide), if_neg (by decide),
        if_neg (by decide), if_neg (by decide), if_neg (by decide), if_pos rfl] at hp
      obtain ⟨⟨n, bytes'⟩, hcount, hp⟩ := Option.bind_eq_some_iff.mp hp
      obtain ⟨hn, rfl⟩ := count_back hnode.1 harg hcount
      obtain ⟨q, hq, hp⟩ := Option.bind_eq_some_iff.mp hp
      rw [hn] at hq
      obtain rfl := spellEntries_back
        (fun entry hmem => spell_back levels (.intro (hnode.2.1 entry hmem) nofun))
        (fun entry hmem => spell_back levels (hrep.of_mem (List.mem_map_of_mem hmem))) hq
      exact (Option.some.inj hp).symm
    | boolean b => cases b <;> exact (Option.some.inj hp).symm
    | null => exact (Option.some.inj hp).symm
    | double bits =>
      have hinitial : (kMajorSimple <<< kMajorShift ||| 27) >>> kMajorShift = kMajorSimple := by
        decide
      have hadditional : (kMajorSimple <<< kMajorShift ||| 27) &&& kAdditionalMask = 27 := by
        decide
      have hcontent : content 8 (appendBigEndian bits 8 ++ rest) =
          some (appendBigEndian bits 8, rest) := by
        have hlen : (appendBigEndian bits 8).length = 8 := BigEndian.length_write 8 _
        rw [content, if_pos (by rw [List.length_append]; omega), List.take_left' hlen,
          List.drop_left' hlen]
      have hnumber : number 8 (appendBigEndian bits 8 ++ rest) = some (bits, rest) := by
        have hlt : bits.toNat < 256 ^ 8 := bits.toNat_lt
        rw [number, hcontent, Option.bind_eq_bind, Option.bind_some]
        change some (UInt64.ofNat (BigEndian.read (BigEndian.write 8 bits.toNat)), rest) = _
        rw [BigEndian.read_write hlt, UInt64.ofNat_toNat]
      rw [encode, List.cons_append, spell, hinitial, hadditional] at hp
      change (number 8 (appendBigEndian bits 8 ++ rest) >>=
        fun q => some (Item.double q.1, q.2)) = _
        at hp
      rw [hnumber] at hp
      exact (Option.some.inj hp).symm

/-! ### One form for one value -/

theorem insertOrAssign_ofEntries {key : Bytes} {v : Value} :
    ∀ {done done' : List (Bytes × Value)}, emplace key v done = some done' →
      insertOrAssign keyLess key (ofValue v) (ofEntries done) = ofEntries done'
  | [], done', h => by
    obtain rfl := Option.some.inj h
    rfl
  | (k, w) :: done, done', h => by
    rw [emplace] at h
    rw [ofEntries, insertOrAssign]
    split_ifs at h ⊢ with hlt hgt
    · obtain rfl := Option.some.inj h
      rfl
    · obtain ⟨rest, hrest, rfl⟩ := Option.map_eq_some_iff.mp h
      rw [insertOrAssign_ofEntries hrest]
      rfl

mutual

/-- **Items of one value differ only in the width of floats and the order of keys.** -/
theorem normalize_eq : ∀ (item : Item) {v : Value}, item.value = some v →
    normalize item = ofValue v
  | .unsigned _, v, h | .negative _, v, h | .bytes _, v, h | .text _, v, h | .boolean _, v, h
  | .null, v, h | .half _, v, h | .float _, v, h | .double _, v, h => by
    obtain rfl := Option.some.inj h
    rfl
  | .array items, v, h => by
    obtain ⟨vs, hvs, rfl⟩ := Option.map_eq_some_iff.mp h
    rw [normalize, normalizeItems_eq items hvs, ofValue]
  | .map entries, v, h => by
    obtain ⟨es, hes, rfl⟩ := Option.map_eq_some_iff.mp h
    have hentries := normalizeEntries_eq entries hes
    rw [ofEntries] at hentries
    rw [normalize, hentries, ofValue]

theorem normalizeItems_eq : ∀ (items : List Item) {vs : List Value}, valueItems items = some vs →
    normalizeItems items = ofItems vs
  | [], vs, h => by
    obtain rfl := Option.some.inj h
    rfl
  | item :: items, vs, h => by
    obtain ⟨v, hv, h⟩ := Option.bind_eq_some_iff.mp h
    obtain ⟨ws, hws, h⟩ := Option.bind_eq_some_iff.mp h
    obtain rfl := Option.some.inj h
    rw [normalizeItems, normalize_eq item hv, normalizeItems_eq items hws, ofItems]

theorem normalizeEntries_eq : ∀ (entries : List (Bytes × Item)) {done es : List (Bytes × Value)},
    valueEntries done entries = some es →
      normalizeEntries (ofEntries done) entries = ofEntries es
  | [], done, es, h => by
    obtain rfl := Option.some.inj h
    rfl
  | (key, item) :: entries, done, es, h => by
    obtain ⟨v, hv, h⟩ := Option.bind_eq_some_iff.mp h
    obtain ⟨done', hdone, h⟩ := Option.bind_eq_some_iff.mp h
    rw [normalizeEntries, normalize_eq item hv, insertOrAssign_ofEntries hdone,
      normalizeEntries_eq entries h]

end

mutual

theorem normalize_self : ∀ {item : Item}, everywhere IsWide item = true →
    everywhere IsOrdered item = true → normalize item = item
  | .unsigned _, _, _ | .negative _, _, _ | .bytes _, _, _ | .text _, _, _ | .boolean _, _, _
  | .null, _, _ | .double _, _, _ => rfl
  | .half _, hwide, _ | .float _, hwide, _ => by cases hwide
  | .array items, hwide, hordered => by
    rw [everywhere, Bool.and_eq_true] at hwide hordered
    rw [normalize, normalizeItems_self hwide.2 hordered.2]
  | .map entries, hwide, hordered => by
    rw [everywhere, Bool.and_eq_true] at hwide hordered
    have hsorted : entries.Pairwise fun a b => keyLess a.1 b.1 = true :=
      of_decide_eq_true hordered.1
    rw [normalize, normalizeEntries_self [] hsorted hwide.2 hordered.2, List.nil_append]

theorem normalizeItems_self : ∀ {items : List Item}, itemsEverywhere IsWide items = true →
    itemsEverywhere IsOrdered items = true → normalizeItems items = items
  | [], _, _ => rfl
  | item :: items, hwide, hordered => by
    rw [itemsEverywhere, Bool.and_eq_true] at hwide hordered
    rw [normalizeItems, normalize_self hwide.1 hordered.1,
      normalizeItems_self hwide.2 hordered.2]

theorem normalizeEntries_self : ∀ {entries : List (Bytes × Item)} (done : List (Bytes × Item)),
    Sorted keyLess (done ++ entries) → entriesEverywhere IsWide entries = true →
      entriesEverywhere IsOrdered entries = true → normalizeEntries done entries = done ++ entries
  | [], done, _, _, _ => (List.append_nil done).symm
  | (key, item) :: entries, done, hsorted, hwide, hordered => by
    rw [entriesEverywhere, Bool.and_eq_true] at hwide hordered
    have hlast : ∀ entry ∈ done, keyLess entry.1 key = true := fun entry hentry =>
      (List.pairwise_append.mp hsorted).2.2 entry hentry (key, item) List.mem_cons_self
    have hsplit : done ++ (key, item) :: entries = done ++ [(key, item)] ++ entries := by
      rw [List.append_assoc, List.singleton_append]
    rw [normalizeEntries, normalize_self hwide.1 hordered.1,
      insertOrAssign_append strictTotal_keyLess item hlast,
      normalizeEntries_self _ (hsplit ▸ hsorted) hwide.2 hordered.2, hsplit]

end

/-! ### What was accepted may be sent -/

theorem valueItems_spec : ∀ {items : List Item} {vs : List Value}, valueItems items = some vs →
    vs.length = items.length ∧ ∀ v ∈ vs, ∃ item ∈ items, item.value = some v
  | [], vs, h => by
    obtain rfl := Option.some.inj h
    exact ⟨rfl, nofun⟩
  | item :: items, vs, h => by
    obtain ⟨v, hv, h⟩ := Option.bind_eq_some_iff.mp h
    obtain ⟨ws, hws, h⟩ := Option.bind_eq_some_iff.mp h
    obtain rfl := Option.some.inj h
    obtain ⟨hlen, hmem⟩ := valueItems_spec hws
    refine ⟨by rw [List.length_cons, List.length_cons, hlen], List.forall_mem_cons.mpr ⟨?_, ?_⟩⟩
    · exact ⟨item, List.mem_cons_self, hv⟩
    · intro w hw
      obtain ⟨item', hitem', hvalue⟩ := hmem w hw
      exact ⟨item', List.mem_cons_of_mem _ hitem', hvalue⟩

/-- An entry of the map was there, or is a value of one of the entries read. -/
theorem valueEntries_spec : ∀ {entries : List (Bytes × Item)} {done es : List (Bytes × Value)},
    Spelling.Sorted done → valueEntries done entries = some es →
      Spelling.Sorted es ∧ es.length = done.length + entries.length ∧
        ∀ e ∈ es, e ∈ done ∨ ∃ entry ∈ entries, entry.1 = e.1 ∧ entry.2.value = some e.2
  | [], done, es, hsorted, h => by
    obtain rfl := Option.some.inj h
    exact ⟨hsorted, rfl, fun e he => .inl he⟩
  | (key, item) :: entries, done, es, hsorted, h => by
    obtain ⟨v, hv, h⟩ := Option.bind_eq_some_iff.mp h
    obtain ⟨done', hdone, h⟩ := Option.bind_eq_some_iff.mp h
    obtain ⟨hin, hout⟩ := emplace_spec key v hsorted
    have hfresh : key ∉ done.map Prod.fst := fun hmem => by
      rw [hin hmem] at hdone
      cases hdone
    obtain ⟨next, hnext, hsorted', hperm⟩ := hout hfresh
    obtain rfl := Option.some.inj (hdone.symm.trans hnext)
    obtain ⟨hes, hlen, hmem⟩ := valueEntries_spec hsorted' h
    refine ⟨hes, ?_, fun e he => ?_⟩
    · have hlen' := hperm.length_eq
      rw [List.length_cons] at hlen' ⊢
      omega
    · rcases hmem e he with he | ⟨entry, hentry, hkey, hvalue⟩
      · rcases List.mem_cons.mp (hperm.mem_iff.mp he) with rfl | he
        · exact .inr ⟨(key, item), List.mem_cons_self, rfl, hv⟩
        · exact .inl he
      · exact .inr ⟨entry, List.mem_cons_of_mem _ hentry, hkey, hvalue⟩

/-- What the class can hold, the protocol may send and the decoder reads with so many levels. -/
structure Acceptable (levels : ℕ) (v : Value) : Prop where
  representable : Forall Representable v
  sendable : Forall Sendable v
  depth : nesting v < levels

theorem Acceptable.of_leaf {levels : ℕ} {v : Value} (hchildren : children v = [])
    (hrepresentable : Representable v) (hsendable : Sendable v) (hnesting : nesting v = 0) :
    Acceptable (levels + 1) v :=
  ⟨.intro hrepresentable (hchildren ▸ nofun), .intro hsendable (hchildren ▸ nofun),
    hnesting ▸ Nat.succ_pos _⟩

theorem acceptable_array {levels : ℕ} {items : List Value}
    (hlen : items.length ≤ kMaxCollectionElements.toNat)
    (h : ∀ item ∈ items, Acceptable levels item) : Acceptable (levels + 1) (.array items) where
  representable := .intro (Nat.lt_of_le_of_lt hlen (by decide)) fun v hv => (h v hv).representable
  sendable := .intro hlen fun v hv => (h v hv).sendable
  depth := by
    cases levels with
    | zero =>
      cases items with
      | nil => exact Nat.one_pos
      | cons item items => exact absurd (h item List.mem_cons_self).depth (Nat.not_lt_zero _)
    | succ levels =>
      exact Nat.lt_succ_of_le (nestingItems_le fun v hv => Nat.le_of_lt_succ (h v hv).depth)

theorem acceptable_map {levels : ℕ} {entries : List (Bytes × Value)}
    (hsorted : Spelling.Sorted entries) (hlen : entries.length ≤ kMaxCollectionElements.toNat)
    (hkeys : ∀ entry ∈ entries, entry.1.length < 2 ^ 64 ∧ WellFormed entry.1)
    (h : ∀ entry ∈ entries, Acceptable levels entry.2) :
    Acceptable (levels + 1) (.map entries) where
  representable := .intro
    ⟨Nat.lt_of_le_of_lt hlen (by decide), fun entry hentry => (hkeys entry hentry).1, hsorted⟩
    (List.forall_mem_map.mpr fun entry hentry => (h entry hentry).representable)
  sendable := .intro ⟨hlen, fun entry hentry => (hkeys entry hentry).2⟩
    (List.forall_mem_map.mpr fun entry hentry => (h entry hentry).sendable)
  depth := by
    cases levels with
    | zero =>
      cases entries with
      | nil => exact Nat.one_pos
      | cons entry entries => exact absurd (h entry List.mem_cons_self).depth (Nat.not_lt_zero _)
    | succ levels =>
      exact Nat.lt_succ_of_le (nestingEntries_le fun e he => Nat.le_of_lt_succ (h e he).depth)

/-- **The value of what was read may be sent.** -/
theorem acceptable_of_legible : ∀ levels {item : Item} {v : Value}, Legible levels item →
    item.value = some v → Acceptable levels v
  | 0, _, _, hlegible, _ => hlegible.elim
  | levels + 1, item, v, hlegible, hvalue => by
    cases item with
    | array items =>
      obtain ⟨vs, hvs, rfl⟩ := Option.map_eq_some_iff.mp hvalue
      obtain ⟨hlen, hmem⟩ := valueItems_spec hvs
      refine acceptable_array (hlen ▸ hlegible.1) fun v hv => ?_
      obtain ⟨item, hitem, hv⟩ := hmem v hv
      exact acceptable_of_legible levels (hlegible.2 item hitem) hv
    | map entries =>
      obtain ⟨es, hes, rfl⟩ := Option.map_eq_some_iff.mp hvalue
      obtain ⟨hsorted, hlen, hmem⟩ := valueEntries_spec List.Pairwise.nil hes
      have hentry : ∀ e ∈ es, ∃ entry ∈ entries, entry.1 = e.1 ∧ entry.2.value = some e.2 :=
        fun e he => (hmem e he).resolve_left nofun
      refine acceptable_map hsorted ?_ (fun e he => ?_) fun e he => ?_
      · rw [hlen, List.length_nil, Nat.zero_add]
        exact hlegible.1
      · obtain ⟨entry, hentry, hkey, -⟩ := hentry e he
        have htext := acceptable_of_legible levels (hlegible.2 entry hentry).1 rfl
        rw [← hkey]
        exact ⟨htext.representable.of_node, htext.sendable.of_node⟩
      · obtain ⟨entry, hentry, -, hv⟩ := hentry e he
        exact acceptable_of_legible levels (hlegible.2 entry hentry).2 hv
    | bytes content =>
      obtain rfl := Option.some.inj hvalue
      exact .of_leaf rfl hlegible trivial rfl
    | text content =>
      obtain rfl := Option.some.inj hvalue
      exact .of_leaf rfl hlegible.1 hlegible.2 rfl
    | negative n =>
      obtain rfl := Option.some.inj hvalue
      exact .of_leaf rfl trivial hlegible rfl
    | _ =>
      obtain rfl := Option.some.inj hvalue
      exact .of_leaf rfl trivial trivial rfl

/-! ### Accepted encodings -/

/-- **One accepted encoding for one value.** An accepted byte string is what `encode` writes, up to
the width of its floats and the order of its keys; `encode` writes the keys of every map in strictly
increasing order, and its output is read in no other way. -/
theorem encoding_unique :
    (∀ bytes v, decode bytes = .ok v → ∃ item, spelled bytes = some item ∧
      (everywhere IsWide item = true → everywhere IsOrdered item = true → encode v = bytes) ∧
      normalize item = ofValue v ∧ decode (encode v) = .ok v) ∧
    ∀ v, Forall Representable v →
      encode v = spelling (ofValue v) ∧ everywhere IsOrdered (ofValue v) = true ∧
        everywhere IsWide (ofValue v) = true ∧
        ∀ item, spelled (encode v) = some item → item = ofValue v := by
  constructor
  · intro bytes v h
    have hvalue := decode_spelled bytes
    rw [h] at hvalue
    obtain ⟨item, hspelled, hitem⟩ := Option.bind_eq_some_iff.mp hvalue.symm
    obtain ⟨hbytes, hlegible⟩ := spelled_sound hspelled
    have hnormal := normalize_eq item hitem
    refine ⟨item, hspelled, fun hwide hordered => ?_, hnormal, ?_⟩
    · rw [encode_eq, ← hnormal, normalize_self hwide hordered, hbytes]
    · obtain ⟨hrepresentable, hsendable, hdepth⟩ := acceptable_of_legible _ hlegible hitem
      have hback := decodeValue_encode _ hrepresentable hsendable hdepth []
      rw [List.append_nil] at hback
      rw [decode, hback]
      rfl
  · intro v hrepresentable
    refine ⟨encode_eq v, everywhere_ofValue (fun _ => isOrdered_ofValue) hrepresentable,
      everywhere_ofValue (fun v _ => isWide_ofValue v) hrepresentable, fun item hitem => ?_⟩
    have hspell := spell_of_spelled hitem
    rw [← List.append_nil (encode v)] at hspell
    exact (Prod.mk.inj (spell_back _ hrepresentable [] _ hspell)).1

/-- `{"a": 0, "bb": 1.5}`. -/
def wideSample : Value := .map [([0x61], .unsigned 0), ([0x62, 0x62], .double 0x3FF8000000000000)]

def wideBytes : Bytes :=
  [0xA2, 0x61, 0x61, 0x00, 0x62, 0x62, 0x62, 0xFB, 0x3F, 0xF8, 0x00, 0x00, 0x00, 0x00, 0x00, 0x00]

/-- `{"bb": 1.5, "a": 0}`, the float in two bytes. -/
def narrowSample : Item := .map [([0x62, 0x62], .half 0x3E00), ([0x61], .unsigned 0)]

example : spelled (spelling narrowSample) = some narrowSample ∧
    normalize narrowSample = ofValue wideSample := ⟨rfl, rfl⟩

theorem encoding_unique_wideSample :
    encode wideSample = wideBytes ∧ everywhere IsOrdered (ofValue wideSample) = true := by
  obtain ⟨item, hitem, hencode, -, -⟩ := encoding_unique.1 wideBytes wideSample rfl
  obtain rfl : ofValue wideSample = item := Option.some.inj hitem
  have hrepresentable : Forall Representable wideSample := by
    refine .intro (by simp [wideSample, Representable, keyLess]) ?_
    simp only [wideSample, children, List.map_cons, List.map_nil, List.forall_mem_cons]
    exact ⟨.intro trivial (List.forall_mem_nil _), .intro trivial (List.forall_mem_nil _),
      List.forall_mem_nil _⟩
  have hordered := (encoding_unique.2 wideSample hrepresentable).2.1
  exact ⟨hencode (by decide) hordered, hordered⟩

end RemoteCam.Cbor.Canonical
