import RemoteCam.Cbor.CBORDecoder
import RemoteCam.Cbor.Spelling
import Mathlib.Data.List.Forall2
import Mathlib.Data.List.Nodup

/-! # Two decoders of one format

The phone's decoder reads what the bytes spell, as the PC's does, and then `Item.cborValue`, which
refuses a map in which two keys have the same canonical form. `agree_iff`: the decoders agree on
exactly the input in which no two keys of a map differ and have the same form. -/

namespace RemoteCam.Cbor.Agreement

open RemoteCam.Lib RemoteCam.Lib.Readers RemoteCam.Cbor.Utf8 RemoteCam.Cbor.Codec
open RemoteCam.Cbor.CBORDecoder RemoteCam.Cbor.Spelling

/-! ### The phone's value of an item -/

mutual

/-- The value `readValue` makes of an item, unless two keys of a map have the same form. -/
def cborValue (canon : Bytes → Bytes) : Item → Option CBORValue
  | .unsigned v => some (.unsigned v)
  | .negative v => some (.negative v)
  | .bytes v => some (.bytes v)
  | .text v => some (.string v)
  | .array items => (cborItems canon items).map .array
  | .map entries => (cborEntries canon [] entries).map .map
  | .boolean v => some (.boolean v)
  | .null => some .null
  | .half bits => some (.double (doubleOfFloat16 bits.toNat))
  | .float bits => some (.double (floatToDouble bits.toNat))
  | .double bits => some (.double bits)

def cborItems (canon : Bytes → Bytes) : List Item → Option (List CBORValue)
  | [] => some []
  | item :: items => do
    let v ← cborValue canon item
    let vs ← cborItems canon items
    some (v :: vs)

def cborEntries (canon : Bytes → Bytes) (done : List (Bytes × CBORValue)) :
    List (Bytes × Item) → Option (List (Bytes × CBORValue))
  | [] => some done
  | (key, item) :: entries =>
    if canon key ∈ done.map fun entry => canon entry.1 then none
    else do
      let v ← cborValue canon item
      cborEntries canon (done ++ [(key, v)]) entries

end

variable {bound : ℕ} {canon : Bytes → Bytes}

/-! ### The phone's decoder is the reading -/

theorem reads_data (n : ℕ) : Reads bound (readData n) (content n) some := by
  intro l _
  unfold readData content
  split_ifs <;> rfl

theorem reads_integer {n : ℕ} (hn : n ≤ 8) :
    Reads bound (readInteger n) (number n) fun b => some b.toNat := by
  intro l _
  have hread := read_lt_size hn l
  have heq : (UInt64.ofNat (BigEndian.read (l.take n))).toNat = BigEndian.read (l.take n) :=
    UInt64.toNat_ofNat_of_lt' hread
  unfold readInteger readData number content
  split_ifs
  · simp only [Option.bind_eq_bind, Option.bind_some, heq]
    rfl
  · rfl

theorem reads_long {n : ℕ} (hn : n ≤ 8) (least : UInt64) :
    Reads bound (CBORDecoder.readLong n least.toNat)
      (fun l => (Codec.readLong n least l).toOption) some := by
  rw [readLong_toOption]
  refine (reads_integer hn).bind_some (shrinks_number n) fun b => ?_
  by_cases hb : b > least
  · simp only [if_pos hb, if_pos (UInt64.lt_iff_toNat_lt.mp hb), UInt64.ofNat_toNat]
    exact .pure rfl
  · simp only [if_neg hb, if_neg (mt UInt64.lt_iff_toNat_lt.mpr hb)]
    exact .fail _

theorem reads_length (additional : UInt8) :
    Reads bound (readLength additional) (argument additional) some := by
  have hle : additional ≤ 23 ↔ additional < 24 := by
    rw [UInt8.le_iff_toNat_le, UInt8.lt_iff_toNat_lt]
    exact Nat.lt_succ_iff.symm
  unfold readLength argument readArgument
  simp only [hle]
  intro l hl
  split_ifs
  · rfl
  · cases l with
    | nil => rfl
    | cons byte l =>
      change (if _ then _ else _ : Except CBORError _).toOption =
        (if _ then _ else _ : Except Codec.Error _).toOption.bind _
      split_ifs <;> rfl
  · exact reads_long (by decide) 0xFF l hl
  · exact reads_long (by decide) 0xFFFF l hl
  · exact reads_long (by decide) 0xFFFFFFFF l hl
  · rfl

/-- A count that is no `Int` is more than there is. -/
def countValue (n : UInt64) : Option ℕ := if n.toNat ≤ intMax then some n.toNat else none

theorem reads_integerCount (additional : UInt8) :
    Reads bound (integerCount additional) (argument additional) countValue := by
  intro l hl
  rw [integerCount, toOption_bind, reads_length additional l hl]
  cases argument additional l with
  | none => rfl
  | some p =>
    simp only [Option.bind_some, Option.map_some, countValue]
    split_ifs <;> rfl

theorem reads_simple (additional : UInt8) :
    Reads bound (readSimple additional) (spellSimple additional) (cborValue canon) := by
  unfold readSimple spellSimple
  refine .ite (.pure rfl) <| .ite (.pure rfl) <| .ite (.pure rfl) <| .ite ?_ <| .ite ?_ <|
    .ite ?_ (.fail _)
  · exact (reads_integer (by decide)).bind_some (shrinks_number 2) fun _ => .pure rfl
  · exact (reads_integer (by decide)).bind_some (shrinks_number 4) fun _ => .pure rfl
  · refine (reads_integer (by decide)).bind_some (shrinks_number 8) fun b => ?_
    dsimp only
    rw [UInt64.ofNat_toNat]
    exact .pure rfl

/-! ### The loops -/

theorem reads_values {readValue : Bytes → Except CBORError (CBORValue × Bytes)}
    {spellItem : Bytes → Option (Item × Bytes)}
    (h : Reads bound readValue spellItem (cborValue canon)) (hs : Shrinks spellItem) :
    ∀ n, Reads bound (readValues readValue n) (spellItems spellItem n) (cborItems canon)
  | 0 => .pure rfl
  | n + 1 => by
    refine h.bind hs (fun item hv l p _ hp => ?_) fun item v hv => ?_
    · obtain ⟨q, -, hq⟩ := Option.bind_eq_some_iff.mp hp
      obtain rfl := Option.some.inj hq
      rw [cborItems, hv]
      rfl
    · refine (reads_values h hs n).bind (shrinks_items hs n) (fun items hvs l p _ hp => ?_)
        fun items vs hvs => .pure (by rw [cborItems, hv, hvs]; rfl)
      obtain rfl := Option.some.inj hp
      rw [cborItems, hvs, hv]
      rfl

theorem cborValue_string {item : Item} {t : Bytes} (h : cborValue canon item = some (.string t)) :
    item = .text t := by
  cases item with
  | text v =>
    rw [cborValue, Option.some.injEq, CBORValue.string.injEq] at h
    rw [h]
  | array items =>
    rw [cborValue, Option.map_eq_some_iff] at h
    obtain ⟨vs, -, hvs⟩ := h
    cases hvs
  | map entries =>
    rw [cborValue, Option.map_eq_some_iff] at h
    obtain ⟨vs, -, hvs⟩ := h
    cases hvs
  | _ =>
    rw [cborValue] at h
    cases h

theorem reads_entries {readValue : Bytes → Except CBORError (CBORValue × Bytes)}
    {spellItem : Bytes → Option (Item × Bytes)}
    (h : Reads bound readValue spellItem (cborValue canon)) (hs : Shrinks spellItem) :
    ∀ n done, Reads bound (readEntries canon readValue n done) (spellEntries spellItem n)
      (cborEntries canon done)
  | 0, done => .pure rfl
  | n + 1, done => by
    refine h.bind hs (fun key hv l p _ hp => ?_) fun key v hv => ?_
    · cases key with
      | text key => cases hv
      | _ => cases hp
    · cases key with
      | text key =>
        obtain rfl := Option.some.inj hv
        dsimp only
        split_ifs with hdup
        · refine .refuse (fun l p hp => ?_) _
          obtain ⟨q, -, hq⟩ := Option.bind_eq_some_iff.mp hp
          obtain ⟨r, -, hr⟩ := Option.bind_eq_some_iff.mp hq
          obtain rfl := Option.some.inj hr
          rw [cborEntries, if_pos hdup]
        · refine h.bind hs (fun item hw l p _ hp => ?_) fun item w hw => ?_
          · obtain ⟨q, -, hq⟩ := Option.bind_eq_some_iff.mp hp
            obtain rfl := Option.some.inj hq
            rw [cborEntries, if_neg hdup, hw]
            rfl
          · dsimp only
            refine (reads_entries h hs n _).rename fun entries => ?_
            rw [cborEntries, if_neg hdup, hw]
            rfl
      | _ =>
        cases v with
        | string t => cases cborValue_string hv
        | _ => exact .fail _

/-! ### One value -/

/-- A count and what follows, on input whose length is an `Int`. -/
theorem reads_counted {β' α' : Type} {k : ℕ × Bytes → Except CBORError (α' × Bytes)}
    {k' : UInt64 × Bytes → Option (β' × Bytes)} {value' : β' → Option α'} (additional : UInt8)
    (hhuge : ∀ n l p, l.length ≤ bound → ¬ n.toNat ≤ intMax → k' (n, l) = some p →
      value' p.1 = none)
    (h : ∀ n, Reads bound (fun l => k (n.toNat, l)) (fun l => k' (n, l)) value') :
    Reads bound (fun l => integerCount additional l >>= k) (fun l => argument additional l >>= k')
      value' := by
  refine (reads_integerCount additional).bind (shrinks_argument additional)
    (fun n hn l p hl hp => ?_) fun n m hm => ?_
  · unfold countValue at hn
    split_ifs at hn with hle
    exact hhuge n l p hl hle hp
  · unfold countValue at hm
    split_ifs at hm
    obtain rfl := Option.some.inj hm
    exact h n

theorem content_huge {n : UInt64} {l : Bytes} (hbound : bound ≤ intMax) (hl : l.length ≤ bound)
    (hn : ¬ n.toNat ≤ intMax) : content n.toNat l = none := by
  rw [content, if_neg (by omega)]

/-- The count of a collection, which both decoders bound. -/
theorem reads_collection {β' α' : Type} {k : ℕ × Bytes → Except CBORError (α' × Bytes)}
    {k' : UInt64 × Bytes → Option (β' × Bytes)} {value' : β' → Option α'} (additional : UInt8)
    (h : ∀ n, Reads bound (fun l => k (n.toNat, l)) (fun l => k' (n, l)) value') :
    Reads bound
      (fun l => integerCount additional l >>= fun p =>
        if p.1 ≤ maximumCollectionElements then k p else .error .collectionTooLarge)
      (fun l => count additional l >>= k') value' := by
  have hmax : kMaxCollectionElements.toNat = maximumCollectionElements := rfl
  have hint : maximumCollectionElements ≤ intMax := by decide
  have hgt (n : UInt64) : n > kMaxCollectionElements ↔ ¬ n.toNat ≤ maximumCollectionElements := by
    rw [gt_iff_lt, UInt64.lt_iff_toNat_lt, hmax, not_le]
  have hcount : (fun l => count additional l >>= k') = fun l => argument additional l >>= fun p =>
      if p.1.toNat ≤ maximumCollectionElements then k' p else none := by
    funext l
    unfold count
    cases argument additional l with
    | none => rfl
    | some p =>
      simp only [Option.bind_eq_bind, Option.bind_some, hgt]
      split_ifs <;> rfl
  rw [hcount]
  refine reads_counted additional (fun n l p _ hn hp => ?_) fun n => ?_
  · have hlarge : ¬ n.toNat ≤ maximumCollectionElements := by omega
    simp only [if_neg hlarge] at hp
    cases hp
  · dsimp only
    split_ifs
    · exact h n
    · exact .fail _

theorem reads_major {readValue : Bytes → Except CBORError (CBORValue × Bytes)}
    {spellItem : Bytes → Option (Item × Bytes)} (hbound : bound ≤ intMax)
    (h : Reads bound readValue spellItem (cborValue canon)) (hs : Shrinks spellItem)
    (major additional : UInt8) :
    Reads bound (readMajor canon readValue major additional) (spellRest spellItem major additional)
      (cborValue canon) := by
  have hlength := @reads_length bound additional
  have hshort := shrinks_argument additional
  unfold readMajor spellRest kMajorUnsigned kMajorNegative kMajorBytes kMajorText kMajorArray
    kMajorMap kMajorTag kMajorSimple
  refine .ite ?_ <| .ite ?_ <| .ite ?_ <| .ite ?_ <| .ite ?_ <| .ite ?_ ?_
  · exact hlength.bind_some hshort fun n => .pure rfl
  · refine hlength.bind_some hshort fun n => ?_
    dsimp only
    split_ifs with hle hgt
    · exact absurd hle (UInt64.not_le.mpr hgt)
    · exact .pure rfl
    · exact .fail _
    · exact absurd (UInt64.not_le.mp hle) ‹_›
  · refine reads_counted _ (fun n l p hl hn hp => ?_) fun n => ?_
    · simp only [content_huge hbound hl hn] at hp
      cases hp
    · exact (reads_data n.toNat).bind_some (shrinks_content n.toNat) fun v => .pure rfl
  · refine reads_counted _ (fun n l p hl hn hp => ?_) fun n => ?_
    · simp only [content_huge hbound hl hn] at hp
      cases hp
    · refine (reads_data n.toNat).bind_some (shrinks_content n.toNat) fun v => ?_
      dsimp only
      split_ifs
      · exact .pure rfl
      · exact .fail _
  · refine reads_collection additional fun n => (reads_values h hs n.toNat).bind
      (shrinks_items hs n.toNat) (fun items hv l p _ hp => ?_) fun items vs hvs => ?_
    · obtain rfl := Option.some.inj hp
      rw [cborValue, hv]
      rfl
    · dsimp only
      exact .pure (by rw [cborValue, hvs]; rfl)
  · refine reads_collection additional fun n => (reads_entries h hs n.toNat []).bind
      (shrinks_entries hs n.toNat) (fun entries hv l p _ hp => ?_) fun entries vs hvs => ?_
    · obtain rfl := Option.some.inj hp
      rw [cborValue, hv]
      rfl
    · dsimp only
      exact .pure (by rw [cborValue, hvs]; rfl)
  · by_cases htag : major = 6
    · have hsimple : ¬ major = 7 := by
        rw [htag]
        decide
      simp only [if_pos htag, if_neg hsimple]
      exact .fail _
    · simp only [if_neg htag]
      exact .ite (reads_simple additional) (.fail _)

/-- **The phone's decoder reads what the bytes spell.** -/
theorem reads_value (hbound : bound ≤ intMax) :
    ∀ levels, Reads bound (readValue canon levels) (spell levels) (cborValue canon)
  | 0 => .fail _
  | levels + 1 => by
    intro l hl
    cases l with
    | nil => rfl
    | cons initial l =>
      rw [List.length_cons] at hl
      have hread := reads_major hbound (reads_value hbound levels) (shrinks_spell levels)
        (initial >>> 5) (initial &&& 0x1F) l (by omega)
      exact hread

/-- A `Data` counts its bytes with an `Int`. -/
structure Data where
  bytes : Bytes
  count_le : bytes.length ≤ intMax

theorem decode_spelled (data : Data) :
    (CBORDecoder.decode canon data.bytes).toOption =
      (spelled data.bytes).bind (cborValue canon) := by
  have h := @reads_value data.bytes.length canon data.count_le (maximumNesting + 1) data.bytes
    (Nat.le_refl _)
  have hlevels : maximumNesting + 1 = kMaxNestingDepth + 1 := rfl
  rw [CBORDecoder.decode, toOption_bind, h, spelled, hlevels]
  cases spell (kMaxNestingDepth + 1) data.bytes with
  | none => rfl
  | some p =>
    obtain ⟨item, rest⟩ := p
    cases rest with
    | nil =>
      rw [Option.bind_some]
      change _ = cborValue canon item
      cases cborValue canon item <;> rfl
    | cons byte rest =>
      rw [Option.bind_some]
      cases cborValue canon item <;> rfl

/-! ### Keys that have one form -/

mutual

theorem cborValue_isSome : ∀ item : Item, (cborValue canon item).isSome = item.keysApart canon
  | .unsigned v => rfl
  | .negative v => rfl
  | .bytes v => rfl
  | .text v => rfl
  | .array items => by
    rw [cborValue, Option.isSome_map, cborItems_isSome items]
    rfl
  | .map entries => by
    rw [cborValue, Option.isSome_map, cborEntries_isSome entries [] List.nodup_nil]
    rfl
  | .boolean v => rfl
  | .null => rfl
  | .half bits => rfl
  | .float bits => rfl
  | .double bits => rfl

theorem cborItems_isSome :
    ∀ items : List Item, (cborItems canon items).isSome = itemsApart canon items
  | [] => rfl
  | item :: items => by
    rw [itemsApart, ← cborValue_isSome item, ← cborItems_isSome items, cborItems]
    cases cborValue canon item with
    | none => rfl
    | some v => cases cborItems canon items <;> rfl

theorem cborEntries_isSome : ∀ (entries : List (Bytes × Item)) (done : List (Bytes × CBORValue)),
    (done.map fun entry => canon entry.1).Nodup →
    (cborEntries canon done entries).isSome =
      (decide (((done.map fun entry => canon entry.1) ++
        entries.map fun entry => canon entry.1).Nodup) && entriesApart canon entries)
  | [], done, h => by simp [cborEntries, entriesApart, h]
  | (key, item) :: entries, done, h => by
    rw [cborEntries, entriesApart, ← cborValue_isSome item]
    by_cases hmem : canon key ∈ done.map fun entry => canon entry.1
    · have hdup : ¬ ((done.map fun entry => canon entry.1) ++
          canon key :: entries.map fun entry => canon entry.1).Nodup := fun hnodup =>
        (List.nodup_append.mp hnodup).2.2 _ hmem _ List.mem_cons_self rfl
      rw [if_pos hmem]
      simp [hdup]
    · rw [if_neg hmem]
      cases cborValue canon item with
      | none => simp
      | some v =>
        have hdone : ((done ++ [(key, v)]).map fun entry => canon entry.1).Nodup := by
          rw [List.map_append]
          refine List.nodup_append.mpr ⟨h, List.pairwise_singleton _ _, fun a ha b hb heq => ?_⟩
          rw [heq, List.mem_singleton.mp hb] at ha
          exact hmem ha
        have ih := cborEntries_isSome entries (done ++ [(key, v)]) hdone
        simp only [Option.bind_eq_bind, Option.bind_some, ih, List.map_append, List.map_cons,
          List.map_nil, List.append_assoc, List.singleton_append, Option.isSome_some,
          Bool.true_and]

end

/-! ### Corresponding values -/

/-- All ones in the exponent, and a fraction. -/
def IsNaN (bits : UInt64) : Prop :=
  bits.toNat / 2 ^ 52 % 2 ^ 11 = 0x7FF ∧ bits.toNat % 2 ^ 52 ≠ 0

/-- The same constructor, number and bytes. The entries of a map correspond in some order; the
payload of a NaN is no number. -/
inductive Corresponds : Value → CBORValue → Prop where
  | unsigned (v : UInt64) : Corresponds (.unsigned v) (.unsigned v)
  | negative (v : Int64) : Corresponds (.negative v) (.negative v)
  | bytes (v : Bytes) : Corresponds (.bytes v) (.bytes v)
  | text (v : Bytes) : Corresponds (.text v) (.string v)
  | array {vs : List Value} {ws : List CBORValue} (items : List.Forall₂ Corresponds vs ws) :
    Corresponds (.array vs) (.array ws)
  | map {es l : List (Bytes × Value)} {es' : List (Bytes × CBORValue)} (perm : l.Perm es)
    (keys : l.map Prod.fst = es'.map Prod.fst)
    (items : List.Forall₂ Corresponds (l.map Prod.snd) (es'.map Prod.snd)) :
    Corresponds (.map es) (.map es')
  | boolean (v : Bool) : Corresponds (.boolean v) (.boolean v)
  | null : Corresponds .null .null
  | double (bits : UInt64) : Corresponds (.double bits) (.double bits)
  | nan {bits bits' : UInt64} (h : IsNaN bits) (h' : IsNaN bits') :
    Corresponds (.double bits) (.double bits')

/-- What `Corresponds.map` asks of the entries. -/
def SameEntries (es : List (Bytes × Value)) (es' : List (Bytes × CBORValue)) : Prop :=
  ∃ l : List (Bytes × Value), l.Perm es ∧ l.map Prod.fst = es'.map Prod.fst ∧
    List.Forall₂ Corresponds (l.map Prod.snd) (es'.map Prod.snd)

theorem isNaN_nonFiniteBits {sign payload : ℕ} (hsign : sign < 2) (hpos : 0 < payload)
    (hlt : payload < 2 ^ 52) : IsNaN (nonFiniteBits sign payload) := by
  have hexponent : 0x7FF <<< 52 < 2 ^ 63 := by decide
  have hhigh : (sign <<< 63 ||| 0x7FF <<< 52) = (sign * 2 ^ 11 + 0x7FF) <<< 52 := by
    rw [← Nat.shiftLeft_add_eq_or_of_lt hexponent]
    simp only [Nat.shiftLeft_eq]
    omega
  have hbits : (sign <<< 63 ||| 0x7FF <<< 52 ||| payload) =
      (sign * 2 ^ 11 + 0x7FF) * 2 ^ 52 + payload := by
    rw [hhigh, ← Nat.shiftLeft_add_eq_or_of_lt hlt, Nat.shiftLeft_eq]
  have hnat : (nonFiniteBits sign payload).toNat =
      (sign * 2 ^ 11 + 0x7FF) * 2 ^ 52 + payload := by
    rw [nonFiniteBits, hbits]
    exact UInt64.toNat_ofNat_of_lt' (by rw [show UInt64.size = 2 ^ 64 from rfl]; omega)
  unfold IsNaN
  rw [hnat]
  omega

theorem corresponds_half (half : ℕ) :
    Corresponds (.double (halfToDouble half)) (.double (doubleOfFloat16 half)) := by
  by_cases hnan : half >>> 10 &&& 0x1F = 0x1F ∧ half &&& 0x3FF ≠ 0
  · have hsign : half >>> 15 &&& 1 < 2 := Nat.and_lt_two_pow (n := 1) _ (by decide)
    have hmantissa : half &&& 0x3FF < 2 ^ 10 := Nat.and_lt_two_pow (n := 10) _ (by decide)
    have hshift : (half &&& 0x3FF) <<< 42 < 2 ^ 52 := by
      rw [Nat.shiftLeft_eq]
      omega
    have hquiet : 1 <<< 51 ≤ (1 <<< 51 ||| (half &&& 0x3FF) <<< 42) := Nat.left_le_or
    have hlt : (1 <<< 51 ||| (half &&& 0x3FF) <<< 42) < 2 ^ 52 :=
      Nat.or_lt_two_pow (by decide) hshift
    unfold halfToDouble doubleOfFloat16
    rw [if_neg (by rw [hnan.1]; decide), if_pos hnan.1, if_neg hnan.2, if_pos hnan]
    refine .nan (isNaN_nonFiniteBits hsign (by decide) (by decide))
      (isNaN_nonFiniteBits hsign ?_ hlt)
    exact Nat.lt_of_lt_of_le (by decide) hquiet
  · have heq : doubleOfFloat16 half = halfToDouble half := if_neg hnan
    rw [heq]
    exact .double _

mutual

/-- **Two values of one item correspond.** -/
theorem corresponds : ∀ (item : Item) {v : Value} {w : CBORValue}, item.value = some v →
    cborValue canon item = some w → Corresponds v w
  | .unsigned n, v, w, hv, hw => by
    obtain rfl := Option.some.inj hv
    obtain rfl := Option.some.inj hw
    exact .unsigned n
  | .negative n, v, w, hv, hw => by
    obtain rfl := Option.some.inj hv
    obtain rfl := Option.some.inj hw
    exact .negative n
  | .bytes b, v, w, hv, hw => by
    obtain rfl := Option.some.inj hv
    obtain rfl := Option.some.inj hw
    exact .bytes b
  | .text b, v, w, hv, hw => by
    obtain rfl := Option.some.inj hv
    obtain rfl := Option.some.inj hw
    exact .text b
  | .array items, v, w, hv, hw => by
    rw [Item.value, Option.map_eq_some_iff] at hv
    rw [cborValue, Option.map_eq_some_iff] at hw
    obtain ⟨vs, hvs, rfl⟩ := hv
    obtain ⟨ws, hws, rfl⟩ := hw
    exact .array (corresponds_items items hvs hws)
  | .map entries, v, w, hv, hw => by
    rw [Item.value, Option.map_eq_some_iff] at hv
    rw [cborValue, Option.map_eq_some_iff] at hw
    obtain ⟨es, hes, rfl⟩ := hv
    obtain ⟨es', hes', rfl⟩ := hw
    obtain ⟨l, hperm, hkeys, hitems⟩ :=
      corresponds_entries entries List.Pairwise.nil ⟨[], .nil, rfl, .nil⟩ hes hes'
    exact .map hperm hkeys hitems
  | .boolean b, v, w, hv, hw => by
    obtain rfl := Option.some.inj hv
    obtain rfl := Option.some.inj hw
    exact .boolean b
  | .null, v, w, hv, hw => by
    obtain rfl := Option.some.inj hv
    obtain rfl := Option.some.inj hw
    exact .null
  | .half bits, v, w, hv, hw => by
    obtain rfl := Option.some.inj hv
    obtain rfl := Option.some.inj hw
    exact corresponds_half bits.toNat
  | .float bits, v, w, hv, hw => by
    obtain rfl := Option.some.inj hv
    obtain rfl := Option.some.inj hw
    exact .double _
  | .double bits, v, w, hv, hw => by
    obtain rfl := Option.some.inj hv
    obtain rfl := Option.some.inj hw
    exact .double bits

theorem corresponds_items : ∀ (items : List Item) {vs : List Value} {ws : List CBORValue},
    valueItems items = some vs → cborItems canon items = some ws →
    List.Forall₂ Corresponds vs ws
  | [], vs, ws, hvs, hws => by
    obtain rfl := Option.some.inj hvs
    obtain rfl := Option.some.inj hws
    exact .nil
  | item :: items, vs, ws, hvs, hws => by
    rw [valueItems] at hvs
    rw [cborItems] at hws
    obtain ⟨v, hv, hvs⟩ := Option.bind_eq_some_iff.mp hvs
    obtain ⟨vs', hvs', hvs⟩ := Option.bind_eq_some_iff.mp hvs
    obtain ⟨w, hw, hws⟩ := Option.bind_eq_some_iff.mp hws
    obtain ⟨ws', hws', hws⟩ := Option.bind_eq_some_iff.mp hws
    obtain rfl := Option.some.inj hvs
    obtain rfl := Option.some.inj hws
    exact .cons (corresponds item hv hw) (corresponds_items items hvs' hws')

/-- One entry goes to its place in the order of keys and to the end of the dictionary. -/
theorem corresponds_entries : ∀ (entries : List (Bytes × Item)) {done es : List (Bytes × Value)}
    {done' es' : List (Bytes × CBORValue)}, Sorted done → SameEntries done done' →
    valueEntries done entries = some es → cborEntries canon done' entries = some es' →
    SameEntries es es'
  | [], done, es, done', es', _, hsame, hes, hes' => by
    obtain rfl := Option.some.inj hes
    obtain rfl := Option.some.inj hes'
    exact hsame
  | (key, item) :: entries, done, es, done', es', hsorted, hsame, hes, hes' => by
    obtain ⟨l, hperm, hkeys, hitems⟩ := hsame
    rw [valueEntries] at hes
    rw [cborEntries] at hes'
    split_ifs at hes'
    obtain ⟨v, hv, hes⟩ := Option.bind_eq_some_iff.mp hes
    obtain ⟨next, hnext, hes⟩ := Option.bind_eq_some_iff.mp hes
    obtain ⟨w, hw, hes'⟩ := Option.bind_eq_some_iff.mp hes'
    obtain ⟨hin, hout⟩ := emplace_spec key v hsorted
    have hfresh : key ∉ done.map Prod.fst := fun hmem => by
      rw [hin hmem] at hnext
      cases hnext
    obtain ⟨next', he, hsorted', hperm'⟩ := hout hfresh
    rw [hnext] at he
    obtain rfl := Option.some.inj he
    refine corresponds_entries entries hsorted' ⟨l ++ [(key, v)], ?_, ?_, ?_⟩ hes hes'
    · have hcons : ((key, v) :: l).Perm ((key, v) :: done) := hperm.cons _
      exact (List.perm_append_singleton _ _).trans (hcons.trans hperm'.symm)
    · rw [List.map_append, List.map_append, hkeys]
      rfl
    · rw [List.map_append, List.map_append]
      exact List.rel_append hitems (.cons (corresponds item hv hw) .nil)

end

mutual

/-- Keys with forms of their own are keys of their own. -/
theorem keysApart_of_form : ∀ {item : Item}, item.keysApart canon = true → item.keysApart id = true
  | .array items, h => by
    rw [Item.keysApart] at h ⊢
    exact itemsApart_of_form h
  | .map entries, h => by
    rw [Item.keysApart, Bool.and_eq_true, decide_eq_true_eq] at h ⊢
    refine ⟨?_, entriesApart_of_form h.2⟩
    have hmap : (entries.map fun entry => canon entry.1) =
        (entries.map fun entry => id entry.1).map canon := by
      rw [List.map_map]
      rfl
    exact List.Nodup.of_map canon (hmap ▸ h.1)
  | .unsigned _, _ | .negative _, _ | .bytes _, _ | .text _, _ | .boolean _, _ | .null, _
  | .half _, _ | .float _, _ | .double _, _ => rfl

theorem itemsApart_of_form :
    ∀ {items : List Item}, itemsApart canon items = true → itemsApart id items = true
  | [], _ => rfl
  | item :: items, h => by
    rw [itemsApart, Bool.and_eq_true] at h ⊢
    exact ⟨keysApart_of_form h.1, itemsApart_of_form h.2⟩

theorem entriesApart_of_form :
    ∀ {entries : List (Bytes × Item)}, entriesApart canon entries = true →
      entriesApart id entries = true
  | [], _ => rfl
  | (key, item) :: entries, h => by
    rw [entriesApart, Bool.and_eq_true] at h ⊢
    exact ⟨keysApart_of_form h.1, entriesApart_of_form h.2⟩

end

/-! ### The two decoders -/

/-- The same input accepted, with corresponding values. -/
def Agree (canon : Bytes → Bytes) (bytes : Bytes) : Prop :=
  match decode bytes, CBORDecoder.decode canon bytes with
  | .ok v, .ok w => Corresponds v w
  | .error _, .error _ => True
  | _, _ => False

/-- **The decoders agree on exactly the data in which no two keys of a map that differ have one
canonical form.** -/
theorem agree_iff (canon : Bytes → Bytes) (data : Data) :
    Agree canon data.bytes ↔
      ∀ item, spelled data.bytes = some item → item.keysApart id = true →
        item.keysApart canon = true := by
  have hpc := Spelling.decode_spelled data.bytes
  have hphone := @decode_spelled canon data
  unfold Agree
  cases hs : spelled data.bytes with
  | none =>
    rw [hs] at hpc hphone
    cases hv : decode data.bytes with
    | ok v =>
      rw [hv] at hpc
      cases hpc
    | error e =>
      cases hw : CBORDecoder.decode canon data.bytes with
      | ok w =>
        rw [hw] at hphone
        cases hphone
      | error e' => simp
  | some item =>
    rw [hs, Option.bind_some] at hpc hphone
    have hvalue := value_isSome item
    have hcbor := @cborValue_isSome canon item
    have hform := @keysApart_of_form canon item
    rw [← hpc] at hvalue
    rw [← hphone] at hcbor
    simp only [Option.some.injEq, forall_eq', ← hvalue, ← hcbor] at hform ⊢
    cases hv : decode data.bytes with
    | ok v =>
      cases hw : CBORDecoder.decode canon data.bytes with
      | ok w =>
        rw [hv] at hpc
        rw [hw] at hphone
        have hsame : Corresponds v w := corresponds item hpc.symm hphone.symm
        exact ⟨fun _ _ => rfl, fun _ => hsame⟩
      | error e' => simp [Except.toOption]
    | error e =>
      cases hw : CBORDecoder.decode canon data.bytes with
      | ok w =>
        rw [hv, hw] at hform
        cases hform rfl
      | error e' => simp [Except.toOption]

/-- `é` twice: the PC's map holds both spellings, the phone finds its key again. -/
theorem not_agree_acuteTwice : ¬ Agree decomposeAcute acuteTwice := by
  have hpc : (decode acuteTwice).isOk = true := by decide
  have hphone : (CBORDecoder.decode decomposeAcute acuteTwice).isOk = false := by decide
  unfold Agree
  cases hv : decode acuteTwice with
  | error e =>
    rw [hv] at hpc
    cases hpc
  | ok v =>
    cases hw : CBORDecoder.decode decomposeAcute acuteTwice with
    | error e => exact not_false
    | ok w =>
      rw [hw] at hphone
      cases hphone

end RemoteCam.Cbor.Agreement
