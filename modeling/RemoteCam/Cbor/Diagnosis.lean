import RemoteCam.Cbor.Agreement
import RemoteCam.Lib.Marks

/-! # Which error

`scan` reads to the first defect of the bytes and marks the keys that come twice on its way. The
PC's decoder reports a key that comes twice after the value under it, the phone's before the value
and by its canonical form; and a length above `Int.max` is one thing to the phone and another to the
PC. `sameError_iff`: the two report one error on exactly the bytes where none of this shows. -/

namespace RemoteCam.Cbor.Diagnosis

open RemoteCam.Lib RemoteCam.Lib.Readers RemoteCam.Lib.Marks RemoteCam.Cbor.Utf8
open RemoteCam.Cbor.Codec RemoteCam.Cbor.CBORDecoder RemoteCam.Cbor.Spelling
open RemoteCam.Cbor.Agreement

/-- The case of the PC's `Error` that mirrors an error of the phone. -/
def errorCase : CBORError → Error
  | .truncated => .truncated
  | .invalidAdditionalInformation _ => .invalidAdditionalInformation
  | .invalidUTF8 => .invalidUtf8
  | .unsupportedMapKey => .unsupportedMapKey
  | .unsupportedSimpleValue _ => .unsupportedSimpleValue
  | .nestingLimitExceeded => .nestingLimitExceeded
  | .trailingBytes => .trailingBytes
  | .integerOverflow => .integerOverflow
  | .nonMinimalInteger => .nonMinimalInteger
  | .duplicateMapKey _ => .duplicateMapKey
  | .collectionTooLarge => .collectionTooLarge

/-! ### The first defect -/

/-- A key has been read whose form an earlier key of its map has; an entry has been read whose key
an earlier entry has. -/
inductive Mark where
  | alike
  | repeated
  deriving DecidableEq

/-- What is wrong where the reading ends. A length or count above `Int.max` stands apart. -/
inductive Defect where
  | plain (e : Error)
  | huge (e : Error)
  deriving DecidableEq

def Defect.isHuge : Defect → Bool
  | .plain _ => false
  | .huge _ => true

abbrev Run := Marked Mark Defect

def scanArgument (additional : UInt8) (bytes : Bytes) : Run (UInt64 × Bytes) :=
  ⟨[], (readArgument additional bytes).mapError .plain⟩

def scanContent (n : UInt64) (bytes : Bytes) : Run (Bytes × Bytes) :=
  if n.toNat > intMax then .fail (.huge .truncated)
  else if n.toNat > bytes.length then .fail (.plain .truncated)
  else pure (bytes.take n.toNat, bytes.drop n.toNat)

def scanNumber (n : ℕ) (bytes : Bytes) : Run (Option Bytes × Bytes) :=
  if bytes.length < n then .fail (.plain .truncated) else pure (none, bytes.drop n)

def scanSimple (additional : UInt8) (bytes : Bytes) : Run (Option Bytes × Bytes) :=
  if additional = 20 then pure (none, bytes)
  else if additional = 21 then pure (none, bytes)
  else if additional = 22 then pure (none, bytes)
  else if additional = 25 then scanNumber 2 bytes
  else if additional = 26 then scanNumber 4 bytes
  else if additional = 27 then scanNumber 8 bytes
  else .fail (.plain .unsupportedSimpleValue)

def scanCount (additional : UInt8) (bytes : Bytes) : Run (UInt64 × Bytes) := do
  let (n, bytes) ← scanArgument additional bytes
  if n.toNat > intMax then .fail (.huge .collectionTooLarge)
  else if n > kMaxCollectionElements then .fail (.plain .collectionTooLarge)
  else pure (n, bytes)

def scanItems (scanItem : Bytes → Run (Option Bytes × Bytes)) : ℕ → Bytes → Run (Unit × Bytes)
  | 0, bytes => pure ((), bytes)
  | count + 1, bytes => do
    let (_, bytes) ← scanItem bytes
    scanItems scanItem count bytes

/-- The keys of the map so far are held against the next one when it has been read, and again when
the value under it has. -/
def scanEntries (canon : Bytes → Bytes) (scanItem : Bytes → Run (Option Bytes × Bytes)) :
    ℕ → List Bytes → Bytes → Run (Unit × Bytes)
  | 0, _, bytes => pure ((), bytes)
  | count + 1, keys, bytes => do
    let (text, bytes) ← scanItem bytes
    match text with
    | none => .fail (.plain .unsupportedMapKey)
    | some key =>
      .mark (if canon key ∈ keys.map canon then [.alike] else [])
      let (_, bytes) ← scanItem bytes
      .mark (if key ∈ keys then [.repeated] else [])
      scanEntries canon scanItem count (keys ++ [key]) bytes

def scanMajor (canon : Bytes → Bytes) (scanItem : Bytes → Run (Option Bytes × Bytes))
    (major additional : UInt8) (bytes : Bytes) : Run (Option Bytes × Bytes) :=
  if major = kMajorUnsigned then do
    let (_, bytes) ← scanArgument additional bytes
    pure (none, bytes)
  else if major = kMajorNegative then do
    let (n, bytes) ← scanArgument additional bytes
    if n > 0x7FFFFFFFFFFFFFFF then .fail (.plain .integerOverflow) else pure (none, bytes)
  else if major = kMajorBytes then do
    let (n, bytes) ← scanArgument additional bytes
    let (_, bytes) ← scanContent n bytes
    pure (none, bytes)
  else if major = kMajorText then do
    let (n, bytes) ← scanArgument additional bytes
    let (v, bytes) ← scanContent n bytes
    if WellFormed v then pure (some v, bytes) else .fail (.plain .invalidUtf8)
  else if major = kMajorArray then do
    let (n, bytes) ← scanCount additional bytes
    let (_, bytes) ← scanItems scanItem n.toNat bytes
    pure (none, bytes)
  else if major = kMajorMap then do
    let (n, bytes) ← scanCount additional bytes
    let (_, bytes) ← scanEntries canon scanItem n.toNat [] bytes
    pure (none, bytes)
  else if major = kMajorTag then .fail (.plain .invalidAdditionalInformation)
  else if major = kMajorSimple then scanSimple additional bytes
  else .fail (.plain .invalidAdditionalInformation)

/-- One item with at most `levels` levels; what is read is its text, if it is one. -/
def scan (canon : Bytes → Bytes) : ℕ → Bytes → Run (Option Bytes × Bytes)
  | 0, _ => .fail (.plain .nestingLimitExceeded)
  | _ + 1, [] => .fail (.plain .truncated)
  | levels + 1, initial :: bytes =>
    scanMajor canon (scan canon levels) (initial >>> kMajorShift) (initial &&& kAdditionalMask)
      bytes

/-- One item, and nothing after it. -/
def scanned (canon : Bytes → Bytes) (bytes : Bytes) : Run Unit := do
  let (_, rest) ← scan canon (kMaxNestingDepth + 1) bytes
  if rest = [] then pure () else .fail (.plain .trailingBytes)

/-! ### The two reporters -/

def pc : Reporter Error Error Mark Defect where
  caseOf e := e
  stop
    | .repeated => some .duplicateMapKey
    | .alike => none
  name
    | .plain e | .huge e => e

def phone : Reporter CBORError Error Mark Defect where
  caseOf := errorCase
  stop
    | .alike => some .duplicateMapKey
    | .repeated => none
  name
    | .plain e => e
    | .huge _ => .integerOverflow

def textOf : Value → Option Bytes
  | .text v => some v
  | _ => none

def stringOf : CBORValue → Option Bytes
  | .string v => some v
  | _ => none

/-! ### The PC's decoder -/

section Pc
variable {canon : Bytes → Bytes}

/-- A list of bytes that a `Data` can hold. -/
def Fits (bytes : Bytes) : Prop := bytes.length ≤ intMax

theorem keeps_of_shrinks {α : Type} {read : Bytes → Except Error (α × Bytes)}
    (h : Shrinks fun l => (read l).toOption) : Keeps Fits read := by
  intro l p hl hp
  have hshort := h l p (by dsimp only; rw [hp]; rfl)
  exact Nat.le_trans hshort hl

theorem keeps_value (levels : ℕ) : Keeps Fits (decodeValue levels) := by
  refine keeps_of_shrinks fun l p hp => ?_
  dsimp only at hp
  rw [@reads_value l.length levels l (Nat.le_refl _)] at hp
  obtain ⟨q, hq, hp⟩ := Option.bind_eq_some_iff.mp hp
  obtain ⟨v, -, rfl⟩ := Option.map_eq_some_iff.mp hp
  exact shrinks_spell levels l q hq

theorem pc_argument {dom : Bytes → Prop} (additional : UInt8) :
    Follows pc dom (fun n => n) (readArgument additional) (scanArgument additional) := by
  intro l _
  unfold scanArgument cut
  cases readArgument additional l <;> rfl

theorem keeps_argument (additional : UInt8) : Keeps Fits (readArgument additional) :=
  keeps_of_shrinks (shrinks_argument additional)

theorem pc_content (n : UInt64) : Follows pc Fits (fun v => v) (readBytes n) (scanContent n) := by
  intro l hl
  unfold Fits at hl
  unfold readBytes scanContent
  by_cases hlong : n.toNat > l.length
  · rw [if_pos hlong, if_pos hlong]
    split_ifs <;> rfl
  · rw [if_neg hlong, if_neg hlong, if_neg (by omega)]
    rfl

theorem keeps_content (n : UInt64) : Keeps Fits (readBytes n) := by
  intro l p hl hp
  unfold readBytes at hp
  split_ifs at hp
  obtain rfl := Except.ok.inj hp
  exact Nat.le_trans (by rw [List.length_drop]; omega) hl

theorem pc_number (n : ℕ) (f : UInt64 → UInt64) :
    Follows pc Fits textOf
      (fun l => readBigEndian n l >>= fun p => .ok (.double (f p.1), p.2)) (scanNumber n) := by
  intro l _
  dsimp only
  unfold readBigEndian scanNumber
  split_ifs <;> rfl

theorem pc_simple (additional : UInt8) :
    Follows pc Fits textOf (decodeSimple additional) (scanSimple additional) := by
  unfold decodeSimple scanSimple
  refine .ite (.pure rfl) <| .ite (.pure rfl) <| .ite (.pure rfl) <| .ite ?_ <| .ite ?_ <|
    .ite ?_ (.fail rfl)
  · exact pc_number 2 fun bits => halfToDouble bits.toNat
  · exact pc_number 4 fun bits => floatToDouble bits.toNat
  · exact pc_number 8 fun bits => bits

theorem pc_count (additional : UInt8) :
    Follows pc Fits (fun n => n) (decodeCollectionCount additional) (scanCount additional) := by
  refine (pc_argument additional).bind (keeps_argument additional) fun n => ?_
  dsimp only
  by_cases hlarge : n > kMaxCollectionElements
  · simp only [if_pos hlarge]
    split_ifs
    · exact .fail rfl
    · exact .fail rfl
  · have hle : n.toNat ≤ kMaxCollectionElements.toNat :=
      UInt64.le_iff_toNat_le.mp (UInt64.not_lt.mp hlarge)
    have hmax : kMaxCollectionElements.toNat < intMax := by decide
    simp only [if_neg hlarge, if_neg (show ¬ n.toNat > intMax by omega)]
    exact .pure rfl

theorem keeps_count (additional : UInt8) : Keeps Fits (decodeCollectionCount additional) := by
  refine keeps_of_shrinks fun l p hp => ?_
  dsimp only at hp
  rw [@reads_count l.length additional l (Nat.le_refl _)] at hp
  obtain ⟨q, hq, hp⟩ := Option.bind_eq_some_iff.mp hp
  obtain rfl := Option.some.inj hp
  exact shrinks_count additional l q hq

section Loops
variable {decodeItem : Bytes → Except Error (Value × Bytes)}
    {scanItem : Bytes → Run (Option Bytes × Bytes)}

theorem pc_items (h : Follows pc Fits textOf decodeItem scanItem) (hkeeps : Keeps Fits decodeItem) :
    ∀ n, Follows pc Fits (fun _ => ()) (decodeItems decodeItem n) (scanItems scanItem n)
  | 0 => .pure rfl
  | n + 1 => h.bind hkeeps fun _ => (pc_items h hkeeps n).map fun _ => rfl

theorem pc_entries (h : Follows pc Fits textOf decodeItem scanItem)
    (hkeeps : Keeps Fits decodeItem) : ∀ n {done : List (Bytes × Value)} {keys : List Bytes},
      Sorted done → (∀ key, key ∈ keys ↔ key ∈ done.map Prod.fst) →
      Follows pc Fits (fun _ => ()) (decodeEntries decodeItem n done)
        (scanEntries canon scanItem n keys)
  | 0, _, _, _, _ => .pure rfl
  | n + 1, done, keys, hsorted, hkeys => by
    refine h.bind hkeeps fun key => ?_
    cases key with
    | text key =>
      refine Follows.mark (h.bind hkeeps fun item => ?_) fun mark hmark => ?_
      · obtain ⟨hin, hout⟩ := emplace_spec key item hsorted
        dsimp only
        by_cases hmem : key ∈ keys
        · rw [hin ((hkeys key).mp hmem), if_pos hmem]
          exact .stop rfl
        · obtain ⟨done', he, hsorted', hperm⟩ := hout (mt (hkeys key).mpr hmem)
          rw [he, if_neg hmem]
          refine .mark (pc_entries h hkeeps n hsorted' fun k => ?_) nofun
          rw [(hperm.map Prod.fst).mem_iff, List.map_cons, List.mem_cons, List.mem_append,
            List.mem_singleton, hkeys, or_comm]
      · split_ifs at hmark
        · obtain rfl := List.mem_singleton.mp hmark
          rfl
        · cases hmark
    | _ => exact .fail rfl

end Loops

theorem pc_value : ∀ levels, Follows pc Fits textOf (decodeValue levels) (scan canon levels)
  | 0 => .fail rfl
  | levels + 1 => by
    intro l hl
    cases l with
    | nil => rfl
    | cons initial l =>
      have hitem := pc_value levels
      have hkeeps := keeps_value levels
      suffices h : Follows pc Fits textOf (fun l => decodeValue (levels + 1) (initial :: l))
          (scanMajor canon (scan canon levels) (initial >>> kMajorShift)
            (initial &&& kAdditionalMask)) from
        h l (Nat.le_of_succ_le hl)
      simp only [decodeValue, Codec.readByte, ok_bind]
      unfold scanMajor
      refine .ite ?_ <| .ite ?_ <| .ite ?_ <| .ite ?_ <| .ite ?_ <| .ite ?_ <|
        .ite (.fail rfl) <| .ite (pc_simple _) (.fail rfl)
      · exact (pc_argument _).last (fun _ => none) fun _ => rfl
      · refine (pc_argument _).bind (keeps_argument _) fun n => ?_
        dsimp only
        refine .ite (c := n > 0x7FFFFFFFFFFFFFFF) (.fail rfl) ?_
        exact .pure rfl
      · exact (pc_argument _).bind (keeps_argument _) fun n =>
          (pc_content n).last (fun _ => none) fun _ => rfl
      · refine (pc_argument _).bind (keeps_argument _) fun n =>
          (pc_content n).bind (keeps_content n) fun v => ?_
        dsimp only
        simp only [isValidUtf8_iff]
        refine .ite (c := WellFormed v) ?_ (.fail rfl)
        exact .pure rfl
      · exact (pc_count _).bind (keeps_count _) fun n =>
          (pc_items hitem hkeeps n.toNat).last (fun _ => none) fun _ => rfl
      · exact (pc_count _).bind (keeps_count _) fun n =>
          (pc_entries hitem hkeeps n.toNat List.Pairwise.nil fun _ => Iff.rfl).last
            (fun _ => none) fun _ => rfl

theorem pc_decode {bytes : Bytes} (h : Fits bytes) :
    report pc (fun _ => ()) (Codec.decode bytes) = cut pc (scanned canon bytes) := by
  have hvalue := @pc_value canon (kMaxNestingDepth + 1) bytes h
  rw [scanned, cut_bind, ← hvalue, Codec.decode]
  cases decodeValue (kMaxNestingDepth + 1) bytes with
  | error e => rfl
  | ok p =>
    obtain ⟨v, rest⟩ := p
    cases rest with
    | nil => rfl
    | cons byte rest => rfl

end Pc

/-! ### The phone's decoder -/

section Phone
variable {canon : Bytes → Bytes}

def Anything (_ : Bytes) : Prop := True

theorem keeps_anything {α : Type} (read : Bytes → Except CBORError (α × Bytes)) :
    Keeps Anything read := fun _ _ _ _ => trivial

theorem phone_long {n : ℕ} (hn : n ≤ 8) (least : UInt64) (l : Bytes) :
    report phone (fun p : UInt64 × Bytes => (p.1, p.2)) (CBORDecoder.readLong n least.toNat l) =
      Codec.readLong n least l := by
  have hread := read_lt_size hn l
  have heq : (UInt64.ofNat (BigEndian.read (l.take n))).toNat = BigEndian.read (l.take n) :=
    UInt64.toNat_ofNat_of_lt' hread
  unfold CBORDecoder.readLong readInteger readData Codec.readLong readBigEndian
  by_cases hlen : n ≤ l.length
  · rw [if_pos hlen, if_neg (Nat.not_lt.mpr hlen)]
    simp only [ok_bind, gt_iff_lt, UInt64.lt_iff_toNat_lt, heq]
    split_ifs <;> rfl
  · rw [if_neg hlen, if_pos (Nat.not_le.mp hlen)]
    rfl

theorem phone_argument (additional : UInt8) :
    Follows phone Anything (fun n => n) (readLength additional) (scanArgument additional) := by
  intro l _
  have hle : additional ≤ 23 ↔ additional < 24 := by
    rw [UInt8.le_iff_toNat_le, UInt8.lt_iff_toNat_lt]
    exact Nat.lt_succ_iff.symm
  have hsame : report phone (fun p : UInt64 × Bytes => (p.1, p.2)) (readLength additional l) =
      readArgument additional l := by
    unfold readLength readArgument
    simp only [hle]
    split_ifs
    · rfl
    · cases l with
      | nil => rfl
      | cons byte l =>
        change report phone _ (if _ then _ else _ : Except CBORError _) =
          (if _ then _ else _ : Except Codec.Error _)
        split_ifs <;> rfl
    · exact phone_long (by decide) 0xFF l
    · exact phone_long (by decide) 0xFFFF l
    · exact phone_long (by decide) 0xFFFFFFFF l
    · rfl
  rw [hsame]
  unfold scanArgument cut
  cases readArgument additional l <;> rfl

/-- A count that is an `Int` goes on; another one is the phone's own error. -/
theorem phone_integerCount {α β : Type} {view : α → β} {additional : UInt8}
    {k : ℕ × Bytes → Except CBORError (α × Bytes)} {k' : UInt64 × Bytes → Run (β × Bytes)}
    (hhuge : ∀ n : UInt64, n.toNat > intMax → ∀ l, ∃ e, k' (n, l) = .fail (.huge e))
    (hk : ∀ n : UInt64, n.toNat ≤ intMax →
      Follows phone Anything view (fun l => k (n.toNat, l)) fun l => k' (n, l)) :
    Follows phone Anything view (fun l => integerCount additional l >>= k)
      fun l => scanArgument additional l >>= k' := by
  have hbind : (fun l => integerCount additional l >>= k) = fun l =>
      readLength additional l >>= fun p =>
        if p.1.toNat ≤ intMax then k (p.1.toNat, p.2) else .error .integerOverflow := by
    funext l
    rw [integerCount, bind_assoc]
    congr 1
    funext p
    dsimp only
    split_ifs <;> rfl
  rw [hbind]
  refine (phone_argument additional).bind (keeps_anything _) fun n => ?_
  dsimp only
  split_ifs with hn
  · exact hk n hn
  · intro l _
    obtain ⟨e, he⟩ := hhuge n (Nat.not_le.mp hn) l
    dsimp only
    rw [he]
    rfl

theorem phone_data {n : UInt64} (hn : n.toNat ≤ intMax) :
    Follows phone Anything (fun v => v) (readData n.toNat) (scanContent n) := by
  intro l _
  unfold readData scanContent
  rw [if_neg (Nat.not_lt.mpr hn)]
  by_cases hlen : n.toNat ≤ l.length
  · rw [if_pos hlen, if_neg (Nat.not_lt.mpr hlen)]
    rfl
  · rw [if_neg hlen, if_pos (Nat.not_le.mp hlen)]
    rfl

theorem phone_collection {α β : Type} {view : α → β} {additional : UInt8}
    {k : ℕ × Bytes → Except CBORError (α × Bytes)} {k' : UInt64 × Bytes → Run (β × Bytes)}
    (hk : ∀ n : UInt64, Follows phone Anything view (fun l => k (n.toNat, l)) fun l => k' (n, l)) :
    Follows phone Anything view
      (fun l => integerCount additional l >>= fun p =>
        if p.1 ≤ maximumCollectionElements then k p else .error .collectionTooLarge)
      fun l => scanCount additional l >>= k' := by
  have hbind : (fun l => scanCount additional l >>= k') = fun l =>
      scanArgument additional l >>= fun p =>
        (if p.1.toNat > intMax then .fail (.huge .collectionTooLarge)
          else if p.1 > kMaxCollectionElements then .fail (.plain .collectionTooLarge)
          else pure p) >>= k' := by
    funext l
    rw [scanCount, Marked.bind_assoc]
  rw [hbind]
  refine phone_integerCount (fun n hn l => ⟨.collectionTooLarge, ?_⟩) fun n hn => ?_
  · rw [if_pos hn]
    rfl
  · have hle : n.toNat ≤ maximumCollectionElements ↔ ¬ n > kMaxCollectionElements := by
      rw [gt_iff_lt, UInt64.not_lt, UInt64.le_iff_toNat_le]
      rfl
    by_cases hlarge : n > kMaxCollectionElements
    · simp only [if_neg (Nat.not_lt.mpr hn), if_pos hlarge, if_neg (mt hle.mp (not_not.mpr hlarge))]
      exact fun _ _ => rfl
    · simp only [if_neg (Nat.not_lt.mpr hn), if_neg hlarge, if_pos (hle.mpr hlarge)]
      exact hk n

theorem phone_integer {n : ℕ} (f : ℕ → UInt64) :
    Follows phone Anything stringOf
      (fun l => readInteger n l >>= fun p => .ok (.double (f p.1), p.2)) (scanNumber n) := by
  intro l _
  dsimp only
  unfold readInteger readData scanNumber
  by_cases hlen : n ≤ l.length
  · rw [if_pos hlen, if_neg (Nat.not_lt.mpr hlen)]
    rfl
  · rw [if_neg hlen, if_pos (Nat.not_le.mp hlen)]
    rfl

theorem phone_simple (additional : UInt8) :
    Follows phone Anything stringOf (readSimple additional) (scanSimple additional) := by
  unfold readSimple scanSimple
  refine .ite (.pure rfl) <| .ite (.pure rfl) <| .ite (.pure rfl) <| .ite ?_ <| .ite ?_ <|
    .ite ?_ (.fail rfl)
  · exact phone_integer doubleOfFloat16
  · exact phone_integer floatToDouble
  · exact phone_integer UInt64.ofNat

section Loops
variable {readValue : Bytes → Except CBORError (CBORValue × Bytes)}
    {scanItem : Bytes → Run (Option Bytes × Bytes)}

theorem phone_values (h : Follows phone Anything stringOf readValue scanItem) :
    ∀ n, Follows phone Anything (fun _ => ()) (readValues readValue n) (scanItems scanItem n)
  | 0 => .pure rfl
  | n + 1 => h.bind (keeps_anything _) fun _ => (phone_values h n).map fun _ => rfl

theorem phone_entries (h : Follows phone Anything stringOf readValue scanItem) :
    ∀ n {values : List (Bytes × CBORValue)} {keys : List Bytes}, keys = values.map Prod.fst →
      Follows phone Anything (fun _ => ()) (readEntries canon readValue n values)
        (scanEntries canon scanItem n keys)
  | 0, _, _, _ => .pure rfl
  | n + 1, values, keys, hkeys => by
    refine h.bind (keeps_anything _) fun key => ?_
    cases key with
    | string key =>
      have hforms : (values.map fun entry => canon entry.1) = keys.map canon := by
        rw [hkeys, List.map_map]
        rfl
      dsimp only [stringOf]
      by_cases hmem : canon key ∈ keys.map canon
      · simp only [hforms, if_pos hmem]
        exact .stop rfl
      · simp only [hforms, if_neg hmem]
        refine .mark (h.bind (keeps_anything _) fun value => ?_) nofun
        have hnext : keys ++ [key] = (values ++ [(key, value)]).map Prod.fst := by
          rw [hkeys, List.map_append]
          rfl
        refine .mark (phone_entries h n hnext) fun mark hmark => ?_
        split_ifs at hmark
        · obtain rfl := List.mem_singleton.mp hmark
          rfl
        · cases hmark
    | _ => exact .fail rfl

end Loops

theorem phone_major {readValue : Bytes → Except CBORError (CBORValue × Bytes)}
    {scanItem : Bytes → Run (Option Bytes × Bytes)}
    (h : Follows phone Anything stringOf readValue scanItem) (major additional : UInt8) :
    Follows phone Anything stringOf (readMajor canon readValue major additional)
      (scanMajor canon scanItem major additional) := by
  unfold readMajor scanMajor kMajorUnsigned kMajorNegative kMajorBytes kMajorText kMajorArray
    kMajorMap kMajorTag kMajorSimple
  refine .ite ?_ <| .ite ?_ <| .ite ?_ <| .ite ?_ <| .ite ?_ <| .ite ?_ ?_
  · exact (phone_argument additional).last (fun _ => none) fun _ => rfl
  · refine (phone_argument additional).bind (keeps_anything _) fun n => ?_
    by_cases hle : n ≤ 0x7FFFFFFFFFFFFFFF
    · simp only [if_pos hle, if_neg (UInt64.not_lt.mpr hle), gt_iff_lt]
      exact .pure rfl
    · simp only [if_neg hle, if_pos (UInt64.not_le.mp hle), gt_iff_lt]
      exact .fail rfl
  · refine phone_integerCount (fun n hn l => ⟨.truncated, ?_⟩) fun n hn =>
      (phone_data hn).last (fun _ => none) fun _ => rfl
    simp only [scanContent, if_pos hn]
    rfl
  · refine phone_integerCount (fun n hn l => ⟨.truncated, ?_⟩) fun n hn =>
      (phone_data hn).bind (keeps_anything _) fun v => ?_
    · simp only [scanContent, if_pos hn]
      rfl
    · dsimp only
      split_ifs
      · exact .pure rfl
      · exact .fail rfl
  · exact phone_collection fun n => (phone_values h n.toNat).last (fun _ => none) fun _ => rfl
  · exact phone_collection fun n => (phone_entries h n.toNat rfl).last (fun _ => none) fun _ => rfl
  · by_cases htag : major = 6
    · have hsimple : ¬ major = 7 := by
        rw [htag]
        decide
      simp only [if_pos htag, if_neg hsimple]
      exact .fail rfl
    · simp only [if_neg htag]
      exact .ite (phone_simple additional) (.fail rfl)

theorem phone_value :
    ∀ levels, Follows phone Anything stringOf (readValue canon levels) (scan canon levels)
  | 0 => .fail rfl
  | levels + 1 => by
    intro l _
    cases l with
    | nil => rfl
    | cons initial l => exact phone_major (phone_value levels) _ _ l trivial

theorem phone_decode (bytes : Bytes) :
    report phone (fun _ => ()) (CBORDecoder.decode canon bytes) =
      cut phone (scanned canon bytes) := by
  have hvalue := @phone_value canon (kMaxNestingDepth + 1) bytes trivial
  have hlevels : maximumNesting + 1 = kMaxNestingDepth + 1 := rfl
  rw [scanned, cut_bind, ← hvalue, CBORDecoder.decode, hlevels]
  cases readValue canon (kMaxNestingDepth + 1) bytes with
  | error e => rfl
  | ok p =>
    obtain ⟨v, rest⟩ := p
    cases rest with
    | nil => rfl
    | cons byte rest => rfl

end Phone

/-! ### What a run may leave -/

/-- A key that comes twice is a mark, never a defect. -/
def Defect.Proper : Defect → Prop
  | .plain e => e ≠ .duplicateMapKey
  | .huge e => e ≠ .duplicateMapKey ∧ e ≠ .integerOverflow

structure Proper {α : Type} (m : Run α) : Prop where
  marks : .repeated ∈ m.marks → .alike ∈ m.marks
  defect : ∀ d, m.outcome = .error d → d.Proper

section Proper
variable {α β : Type} {canon : Bytes → Bytes}

theorem Proper.pure (a : α) : Proper (Pure.pure a : Run α) := ⟨nofun, nofun⟩

theorem Proper.fail {d : Defect} (h : d.Proper) : Proper (.fail d : Run α) :=
  ⟨nofun, fun _ hd => Except.error.inj hd ▸ h⟩

theorem Proper.bind {m : Run α} {k : α → Run β} (h : Proper m) (hk : ∀ a, Proper (k a)) :
    Proper (m >>= k) := by
  cases hm : m.outcome with
  | ok a =>
    rw [Marked.bind_ok hm]
    refine ⟨fun hmem => ?_, (hk a).defect⟩
    rcases List.mem_append.mp hmem with hmem | hmem
    · exact List.mem_append_left _ (h.marks hmem)
    · exact List.mem_append_right _ ((hk a).marks hmem)
  | error d =>
    rw [Marked.bind_error hm]
    exact ⟨h.marks, fun d' hd => Except.error.inj hd ▸ h.defect d hm⟩

/-- A key whose form has not come before has not come before. -/
theorem Proper.mark_bind {m : Run α} {k : α → Run β} {marks marks' : List Mark} (h : Proper m)
    (hk : ∀ a, Proper (k a)) (hmarks : .repeated ∉ marks)
    (hmarks' : .repeated ∈ marks' → .alike ∈ marks) :
    Proper (.mark marks >>= fun _ => m >>= fun a => .mark marks' >>= fun _ => k a) := by
  have hlast : ∀ a, (Marked.mark marks' >>= fun _ => k a : Run β) =
      ⟨marks' ++ (k a).marks, (k a).outcome⟩ := fun a => Marked.bind_ok rfl _
  rw [Marked.bind_ok rfl]
  cases hm : m.outcome with
  | ok a =>
    rw [Marked.bind_ok hm, hlast]
    refine ⟨fun hmem => ?_, (hk a).defect⟩
    simp only [Marked.mark, List.mem_append] at hmem ⊢
    rcases hmem with hmem | hmem | hmem | hmem
    · exact absurd hmem hmarks
    · exact .inr (.inl (h.marks hmem))
    · exact .inl (hmarks' hmem)
    · exact .inr (.inr (.inr ((hk a).marks hmem)))
  | error d =>
    rw [Marked.bind_error hm]
    refine ⟨fun hmem => ?_, fun d' hd => Except.error.inj hd ▸ h.defect d hm⟩
    rcases List.mem_append.mp hmem with hmem | hmem
    · exact absurd hmem hmarks
    · exact List.mem_append_right _ (h.marks hmem)

theorem readLong_ne_duplicate (n : ℕ) (least : UInt64) (bytes : Bytes) :
    Codec.readLong n least bytes ≠ .error .duplicateMapKey := by
  unfold Codec.readLong readBigEndian
  split_ifs
  · exact nofun
  · rw [ok_bind]
    dsimp only
    split_ifs
    · exact nofun
    · exact nofun

theorem readArgument_ne_duplicate (additional : UInt8) (bytes : Bytes) :
    readArgument additional bytes ≠ .error .duplicateMapKey := by
  unfold readArgument
  split_ifs
  · exact nofun
  · cases bytes with
    | nil => exact nofun
    | cons byte bytes =>
      change (if _ then _ else _ : Except Error _) ≠ _
      split_ifs
      · exact nofun
      · exact nofun
  · exact readLong_ne_duplicate 2 0xFF bytes
  · exact readLong_ne_duplicate 4 0xFFFF bytes
  · exact readLong_ne_duplicate 8 0xFFFFFFFF bytes
  · exact nofun

theorem proper_argument (additional : UInt8) (bytes : Bytes) :
    Proper (scanArgument additional bytes) := by
  have hne := readArgument_ne_duplicate additional bytes
  refine ⟨nofun, fun d hd => ?_⟩
  unfold scanArgument at hd
  cases hread : readArgument additional bytes with
  | ok p =>
    rw [hread] at hd
    cases hd
  | error e =>
    rw [hread] at hd hne
    obtain rfl := Except.error.inj hd
    exact fun he => hne (congrArg _ he)

theorem proper_content (n : UInt64) (bytes : Bytes) : Proper (scanContent n bytes) := by
  unfold scanContent
  split_ifs
  · exact .fail ⟨nofun, nofun⟩
  · exact .fail nofun
  · exact .pure _

theorem Proper.ite {c : Prop} [Decidable c] {m m' : Run α} (h : Proper m) (h' : Proper m') :
    Proper (if c then m else m') := by
  split_ifs
  · exact h
  · exact h'

theorem proper_number (n : ℕ) (bytes : Bytes) : Proper (scanNumber n bytes) := by
  unfold scanNumber
  split_ifs
  · exact .fail nofun
  · exact .pure _

theorem proper_simple (additional : UInt8) (bytes : Bytes) :
    Proper (scanSimple additional bytes) := by
  unfold scanSimple
  exact .ite (.pure _) <| .ite (.pure _) <| .ite (.pure _) <| .ite (proper_number 2 bytes) <|
    .ite (proper_number 4 bytes) <| .ite (proper_number 8 bytes) (.fail nofun)

theorem proper_count (additional : UInt8) (bytes : Bytes) :
    Proper (scanCount additional bytes) := by
  refine (proper_argument additional bytes).bind fun p => ?_
  dsimp only
  split_ifs
  · exact .fail ⟨nofun, nofun⟩
  · exact .fail nofun
  · exact .pure _

section Loops
variable {scanItem : Bytes → Run (Option Bytes × Bytes)}

theorem proper_items (h : ∀ bytes, Proper (scanItem bytes)) :
    ∀ n bytes, Proper (scanItems scanItem n bytes)
  | 0, _ => .pure _
  | n + 1, bytes => (h bytes).bind fun p => proper_items h n p.2

theorem proper_entries (h : ∀ bytes, Proper (scanItem bytes)) :
    ∀ n keys bytes, Proper (scanEntries canon scanItem n keys bytes)
  | 0, _, _ => .pure _
  | n + 1, keys, bytes => by
    refine (h bytes).bind fun p => ?_
    obtain ⟨text, bytes'⟩ := p
    cases text with
    | none => exact .fail nofun
    | some key =>
      refine .mark_bind (h bytes') (fun p => proper_entries h n _ p.2) ?_ fun hmem => ?_
      · split_ifs
        · decide
        · decide
      · split_ifs at hmem with hkey
        · rw [if_pos (List.mem_map_of_mem hkey)]
          exact List.mem_singleton_self _
        · cases hmem

end Loops

theorem proper_scan : ∀ levels bytes, Proper (scan canon levels bytes)
  | 0, _ => .fail nofun
  | _ + 1, [] => .fail nofun
  | levels + 1, initial :: bytes => by
    have h := proper_scan levels
    have hargument := proper_argument (initial &&& kAdditionalMask) bytes
    have hcount := proper_count (initial &&& kAdditionalMask) bytes
    rw [scan]
    unfold scanMajor
    refine .ite ?_ <| .ite ?_ <| .ite ?_ <| .ite ?_ <| .ite ?_ <| .ite ?_ <| .ite (.fail nofun) <|
      .ite (proper_simple _ bytes) (.fail nofun)
    · exact hargument.bind fun _ => .pure _
    · exact hargument.bind fun p => .ite (.fail nofun) (.pure _)
    · exact hargument.bind fun p => (proper_content p.1 p.2).bind fun _ => .pure _
    · exact hargument.bind fun p => (proper_content p.1 p.2).bind fun q =>
        .ite (.pure _) (.fail nofun)
    · exact hcount.bind fun p => (proper_items h _ p.2).bind fun _ => .pure _
    · exact hcount.bind fun p => (proper_entries h _ [] p.2).bind fun _ => .pure _

theorem proper_scanned (bytes : Bytes) : Proper (scanned canon bytes) := by
  refine (proper_scan _ bytes).bind fun p => ?_
  dsimp only
  split_ifs
  · exact .pure _
  · exact .fail nofun

end Proper

/-! ### The same error -/

theorem cut_pc {α : Type} (m : Run α) :
    cut pc m = if .repeated ∈ m.marks then .error .duplicateMapKey
      else m.outcome.mapError pc.name :=
  cut_eq pc (fun mark => by cases mark <;> rfl) m

theorem cut_phone {α : Type} (m : Run α) :
    cut phone m = if .alike ∈ m.marks then .error .duplicateMapKey
      else m.outcome.mapError phone.name :=
  cut_eq phone (fun mark => by cases mark <;> rfl) m

/-- Both report one case of error wherever both report an error. -/
def SameError (canon : Bytes → Bytes) (bytes : Bytes) : Prop :=
  ∀ e e', Codec.decode bytes = .error e → CBORDecoder.decode canon bytes = .error e' →
    errorCase e' = e

/-- Where the reading ends before its end, nothing shows by which the decoders differ: an entry that
both refuse has been read, or no key that the phone refuses has, and the defect is no length above
`Int.max`. -/
def Plain (m : Run Unit) : Prop :=
  ∀ d, m.outcome = .error d →
    .repeated ∈ m.marks ∨ .alike ∉ m.marks ∧ d.isHuge = false

theorem name_eq_iff {d : Defect} (h : d.Proper) : phone.name d = pc.name d ↔ d.isHuge = false := by
  cases d with
  | plain e => exact ⟨fun _ => rfl, fun _ => rfl⟩
  | huge e => exact ⟨fun heq => absurd heq.symm h.2, nofun⟩

theorem name_ne_duplicate {d : Defect} (h : d.Proper) : pc.name d ≠ .duplicateMapKey := by
  cases d with
  | plain e => exact h
  | huge e => exact h.1

/-- The two reports on one run. -/
theorem cut_same_iff {m : Run Unit} (h : Proper m) :
    (∀ e e', cut pc m = .error e → cut phone m = .error e' → e' = e) ↔ Plain m := by
  rw [cut_pc, cut_phone]
  unfold Plain
  by_cases hrepeated : .repeated ∈ m.marks
  · rw [if_pos hrepeated, if_pos (h.marks hrepeated)]
    refine ⟨fun _ _ _ => .inl hrepeated, fun _ e e' he he' => ?_⟩
    exact (Except.error.inj he').symm.trans (Except.error.inj he)
  · rw [if_neg hrepeated]
    cases hm : m.outcome with
    | ok a => exact ⟨fun _ => nofun, fun _ => nofun⟩
    | error d =>
      have hd := h.defect d hm
      by_cases halike : .alike ∈ m.marks
      · rw [if_pos halike]
        refine ⟨fun hsame => ?_, fun hplain => ?_⟩
        · exact absurd (hsame _ _ rfl rfl).symm (name_ne_duplicate hd)
        · rcases hplain d rfl with hmem | ⟨hmem, -⟩
          · exact absurd hmem hrepeated
          · exact absurd halike hmem
      · rw [if_neg halike]
        refine ⟨fun hsame d' hd' => .inr ⟨halike, ?_⟩, fun hplain e e' he he' => ?_⟩
        · obtain rfl := Except.error.inj hd'
          exact (name_eq_iff hd).mp (hsame _ _ rfl rfl)
        · rcases hplain d rfl with hmem | ⟨-, hhuge⟩
          · exact absurd hmem hrepeated
          · rw [← Except.error.inj he, ← Except.error.inj he']
            exact (name_eq_iff hd).mpr hhuge

/-- **The decoders report the same case of error on exactly the data whose first defect is plain**:
before it no key came that only one of them has refused by then, and it is no length that is too
large for an `Int`. -/
theorem sameError_iff (canon : Bytes → Bytes) (data : Data) :
    SameError canon data.bytes ↔ Plain (scanned canon data.bytes) := by
  have hpc := @pc_decode canon data.bytes data.count_le
  have hphone := @phone_decode canon data.bytes
  rw [← cut_same_iff (proper_scanned data.bytes), ← hpc, ← hphone]
  unfold SameError
  cases Codec.decode data.bytes with
  | ok v => exact ⟨fun _ => nofun, fun _ => nofun⟩
  | error e =>
    cases CBORDecoder.decode canon data.bytes with
    | ok w => exact ⟨fun _ _ _ _ => nofun, fun _ _ _ _ => nofun⟩
    | error e' =>
      refine ⟨fun hsame f f' hf hf' => ?_, fun hsame f f' hf hf' => ?_⟩
      · rw [← Except.error.inj hf, ← Except.error.inj hf']
        exact hsame e e' rfl rfl
      · rw [← Except.error.inj hf, ← Except.error.inj hf']
        exact hsame _ _ rfl rfl

/-- A byte string of `2 ^ 63` bytes, of which none are there. -/
def hugeLength : Bytes := [0x5B, 0x80, 0x00, 0x00, 0x00, 0x00, 0x00, 0x00, 0x00]

/-- `{"a": 0, "a": …`, cut off in the second value. -/
def cutOff : Bytes := [0xA2, 0x61, 0x61, 0x00, 0x61, 0x61]

/-- Truncated for the PC; an overflow and a key twice for the phone. -/
theorem not_sameError_hugeLength :
    ¬ SameError decomposeAcute hugeLength ∧ ¬ SameError decomposeAcute cutOff := by
  refine ⟨fun h => ?_, fun h => ?_⟩
  · cases h .truncated .integerOverflow rfl rfl
  · cases h .truncated (.duplicateMapKey [0x61]) rfl rfl

end RemoteCam.Cbor.Diagnosis
