import RemoteCam.Cbor.Codec
import Mathlib.Tactic.Ring

/-! # Encoding, then decoding

`decodeValue_encode`: the decoder reads an encoded value back and leaves what follows it. The
induction is on the levels the decoder has left, so the two loops (`decodeItems_encode`,
`decodeEntries_encode`) take the statement for one item as a hypothesis. -/

namespace RemoteCam.Cbor.RoundTrip

open RemoteCam.Lib RemoteCam.Cbor.Utf8 RemoteCam.Cbor.Codec

/-! ### The values -/

/-- The values directly inside a value. -/
def children : Value → List Value
  | .array items => items
  | .map entries => entries.map Prod.snd
  | _ => []

/-- `p` holds of the value and of every value inside it. -/
inductive Forall (p : Value → Prop) : Value → Prop
  | intro {v : Value} (node : p v) (inside : ∀ w ∈ children v, Forall p w) : Forall p v

/-- What every object of the source's class is: sizes fit in 64 bits and a map is in key order. -/
def Representable : Value → Prop
  | .bytes v => v.length < 2 ^ 64
  | .text v => v.length < 2 ^ 64
  | .array items => items.length < 2 ^ 64
  | .map entries =>
    entries.length < 2 ^ 64 ∧ (∀ entry ∈ entries, entry.1.length < 2 ^ 64) ∧
      entries.Pairwise (fun a b => keyLess a.1 b.1)
  | _ => True

/-- The values the protocol may send: negatives below zero, texts and keys well-formed, and no
container above the limit. -/
def Sendable : Value → Prop
  | .negative v => v < 0
  | .text v => WellFormed v
  | .array items => items.length ≤ kMaxCollectionElements.toNat
  | .map entries =>
    entries.length ≤ kMaxCollectionElements.toNat ∧ ∀ entry ∈ entries, WellFormed entry.1
  | _ => True

mutual

/-- The depth below a value. An entry of a map counts a level for its key and for its value. -/
def nesting : Value → ℕ
  | .array items => nestingItems items
  | .map entries => nestingEntries entries
  | _ => 0

def nestingItems : List Value → ℕ
  | [] => 0
  | item :: items => max (nesting item + 1) (nestingItems items)

def nestingEntries : List (Bytes × Value) → ℕ
  | [] => 0
  | (_, item) :: entries => max 1 (max (nesting item + 1) (nestingEntries entries))

end

theorem Forall.of_node {p : Value → Prop} {v : Value} : Forall p v → p v
  | .intro node _ => node

theorem Forall.of_mem {p : Value → Prop} {v w : Value} : Forall p v → w ∈ children v → Forall p w
  | .intro _ inside, hw => inside w hw

/-! ### Heads -/

theorem initial_bits : ∀ m < 8, ∀ a < 32,
    (UInt8.ofNat m <<< kMajorShift ||| UInt8.ofNat a) >>> kMajorShift = UInt8.ofNat m ∧
      (UInt8.ofNat m <<< kMajorShift ||| UInt8.ofNat a) &&& kAdditionalMask = UInt8.ofNat a := by
  decide

theorem initial_byte {major additional : UInt8} (hm : major < 8) (ha : additional < 32) :
    (major <<< kMajorShift ||| additional) >>> kMajorShift = major ∧
      (major <<< kMajorShift ||| additional) &&& kAdditionalMask = additional := by
  have h := initial_bits major.toNat (UInt8.lt_iff_toNat_lt.mp hm) additional.toNat
    (UInt8.lt_iff_toNat_lt.mp ha)
  simpa using h

theorem readLong_write {n : ℕ} {least a : UInt64} (ha : a.toNat < 256 ^ n) (hleast : least < a)
    (rest : Bytes) : readLong n least (appendBigEndian a n ++ rest) = .ok (a, rest) := by
  have hlen : (appendBigEndian a n).length = n := BigEndian.length_write n _
  have hread : readBigEndian n (appendBigEndian a n ++ rest) = .ok (a, rest) := by
    rw [readBigEndian, if_neg (by rw [List.length_append]; omega), List.take_left' hlen,
      List.drop_left' hlen, appendBigEndian, BigEndian.read_write ha, UInt64.ofNat_toNat]
  simp [readLong, hread, bind, Except.bind, hleast]

/-- **A head is read back**: its major type and its argument. -/
theorem appendHead_read {major : UInt8} (hm : major < 8) (argument : UInt64) :
    ∃ initial tail, appendHead major argument = initial :: tail ∧
      initial >>> kMajorShift = major ∧
      ∀ rest, readArgument (initial &&& kAdditionalMask) (tail ++ rest) = .ok (argument, rest) := by
  unfold appendHead
  dsimp only
  split_ifs with h1 h2 h3 h4
  · have hlt : argument.toNat < 24 := UInt64.lt_iff_toNat_lt.mp h1
    have hbyte : argument.toUInt8.toNat = argument.toNat := by
      rw [UInt64.toNat_toUInt8]; omega
    have hsmall : argument.toUInt8 < 24 := by
      rw [UInt8.lt_iff_toNat_lt, hbyte]; exact hlt
    obtain ⟨hmajor, hadd⟩ := initial_byte hm (show argument.toUInt8 < 32 from
      UInt8.lt_trans hsmall (by decide : (24 : UInt8) < 32))
    refine ⟨_, [], rfl, hmajor, fun rest => ?_⟩
    rw [hadd, readArgument, if_pos hsmall, List.nil_append]
    congr 2
    rw [← UInt64.toNat_inj, UInt8.toNat_toUInt64, hbyte]
  · obtain ⟨hmajor, hadd⟩ := initial_byte hm (show (24 : UInt8) < 32 by decide)
    have hle : argument.toNat ≤ 255 := UInt64.le_iff_toNat_le.mp h2
    have hback : argument.toUInt8.toUInt64 = argument := by
      rw [← UInt64.toNat_inj, UInt8.toNat_toUInt64, UInt64.toNat_toUInt8]; omega
    refine ⟨_, [argument.toUInt8], rfl, hmajor, fun rest => ?_⟩
    rw [hadd, readArgument, if_neg (by decide), if_pos rfl]
    simp [readByte, bind, Except.bind, hback, UInt64.not_lt.mp h1]
  · obtain ⟨hmajor, hadd⟩ := initial_byte hm (show (25 : UInt8) < 32 by decide)
    refine ⟨_, _, rfl, hmajor, fun rest => ?_⟩
    rw [hadd, readArgument, if_neg (by decide), if_neg (by decide), if_pos rfl]
    have hle : argument.toNat ≤ 0xFFFF := UInt64.le_iff_toNat_le.mp h3
    exact readLong_write (by omega) (UInt64.not_le.mp h2) rest
  · obtain ⟨hmajor, hadd⟩ := initial_byte hm (show (26 : UInt8) < 32 by decide)
    refine ⟨_, _, rfl, hmajor, fun rest => ?_⟩
    rw [hadd, readArgument, if_neg (by decide), if_neg (by decide), if_neg (by decide), if_pos rfl]
    have hle : argument.toNat ≤ 0xFFFFFFFF := UInt64.le_iff_toNat_le.mp h4
    exact readLong_write (by omega) (UInt64.not_le.mp h3) rest
  · obtain ⟨hmajor, hadd⟩ := initial_byte hm (show (27 : UInt8) < 32 by decide)
    refine ⟨_, _, rfl, hmajor, fun rest => ?_⟩
    rw [hadd, readArgument, if_neg (by decide), if_neg (by decide), if_neg (by decide),
      if_neg (by decide), if_pos rfl]
    exact readLong_write argument.toNat_lt (UInt64.not_le.mp h4) rest

/-! ### Keys -/

theorem keyLess_asymm {a b : Bytes} (h : keyLess a b = true) : keyLess b a = false := by
  unfold keyLess at h ⊢
  split_ifs at h with hlen
  · rw [if_pos (Ne.symm hlen)]
    simp only [decide_eq_true_eq] at h
    simp only [decide_eq_false_iff_not]
    omega
  · rw [if_neg (fun hne => hlen (Ne.symm hne))]
    simp only [decide_eq_true_eq] at h
    simp only [decide_eq_false_iff_not]
    exact List.lt_asymm h

/-- A key above all keys goes to the end. -/
theorem emplace_append {key : Bytes} (item : Value) :
    ∀ entries : List (Bytes × Value), (∀ entry ∈ entries, keyLess entry.1 key) →
      emplace key item entries = some (entries ++ [(key, item)])
  | [], _ => rfl
  | (k, v) :: entries, h => by
    have hk : keyLess k key = true := h (k, v) List.mem_cons_self
    have ih := emplace_append item entries
      (fun entry hmem => h entry (List.mem_cons_of_mem _ hmem))
    rw [emplace, if_neg (by rw [keyLess_asymm hk]; decide), if_pos hk, ih]
    rfl

/-! ### Negative numbers -/

theorem toNat_of_neg {v : Int64} (hv : v < 0) : 2 ^ 63 ≤ v.toUInt64.toNat := by
  have h : v.toBitVec.toInt < 0 := Int64.lt_iff_toInt_lt.mp hv
  rw [BitVec.toInt_eq_toNat_cond, Int64.toNat_toBitVec] at h
  have := v.toUInt64.toNat_lt
  split_ifs at h <;> omega

/-- The argument of a negative number is within the decoder's range, and stands for the number. -/
theorem negative_argument {v : Int64} (hv : v < 0) :
    ¬ (-(v + 1)).toUInt64 > 0x7FFFFFFFFFFFFFFF ∧ -1 - (-(v + 1)).toUInt64.toInt64 = v := by
  constructor
  · have hlo := toNat_of_neg hv
    have hhi := v.toUInt64.toNat_lt
    rw [Int64.toUInt64_neg, Int64.toUInt64_add, gt_iff_lt, UInt64.lt_iff_toNat_lt,
      UInt64.toNat_neg, UInt64.toNat_add]
    have hone : (Int64.toUInt64 1).toNat = 1 := rfl
    have hmax : (0x7FFFFFFFFFFFFFFF : UInt64).toNat = 2 ^ 63 - 1 := rfl
    have hsize : UInt64.size = 2 ^ 64 := rfl
    rw [hone, hmax, hsize]
    omega
  · rw [Int64.toInt64_toUInt64]
    grind

/-! ### The loops -/

theorem decodeItems_encode (decodeItem : Bytes → Except Error (Value × Bytes))
    (items : List Value)
    (hitem : ∀ item ∈ items, ∀ rest, decodeItem (encode item ++ rest) = .ok (item, rest))
    (rest : Bytes) :
    decodeItems decodeItem items.length (encodeItems items ++ rest) = .ok (items, rest) := by
  induction items with
  | nil => rfl
  | cons item items ih =>
    have htail := ih (fun w hw => hitem w (List.mem_cons_of_mem _ hw))
    rw [encodeItems, List.append_assoc, List.length_cons, decodeItems,
      hitem item List.mem_cons_self]
    simp [bind, Except.bind, htail]

/-- The keys come in order, so every entry goes to the end of those decoded so far. -/
theorem decodeEntries_encode (decodeItem : Bytes → Except Error (Value × Bytes))
    (entries : List (Bytes × Value))
    (hkey : ∀ entry ∈ entries, ∀ rest,
      decodeItem (encode (.text entry.1) ++ rest) = .ok (.text entry.1, rest))
    (hitem : ∀ entry ∈ entries, ∀ rest,
      decodeItem (encode entry.2 ++ rest) = .ok (entry.2, rest))
    (rest : Bytes) :
    ∀ done : List (Bytes × Value),
      (done ++ entries).Pairwise (fun a b => keyLess a.1 b.1) →
      decodeEntries decodeItem entries.length done (encodeEntries entries ++ rest) =
        .ok (done ++ entries, rest) := by
  induction entries with
  | nil => intro done _; rw [List.append_nil]; rfl
  | cons entry entries ih =>
    intro done hsorted
    obtain ⟨key, item⟩ := entry
    have hlast : ∀ e ∈ done, keyLess e.1 key := fun e he =>
      (List.pairwise_append.mp hsorted).2.2 e he (key, item) List.mem_cons_self
    have hk := hkey (key, item) List.mem_cons_self
    have hi := hitem (key, item) List.mem_cons_self
    have htail := ih (fun e he => hkey e (List.mem_cons_of_mem _ he))
      (fun e he => hitem e (List.mem_cons_of_mem _ he)) (done ++ [(key, item)])
      (by rwa [List.append_assoc, List.singleton_append])
    have hbytes : encodeEntries ((key, item) :: entries) ++ rest =
        encode (.text key) ++ (encode item ++ (encodeEntries entries ++ rest)) := by
      simp only [encodeEntries, encode, List.append_assoc]
    rw [hbytes, List.length_cons, decodeEntries, hk]
    simp only [bind, Except.bind, hi, emplace_append item done hlast, htail, List.append_assoc,
      List.singleton_append]

/-! ### Depth -/

theorem nesting_lt_items {item : Value} {items : List Value} (h : item ∈ items) :
    nesting item < nestingItems items := by
  induction items with
  | nil => cases h
  | cons head items ih =>
    rw [nestingItems]
    rcases List.mem_cons.mp h with rfl | h
    · omega
    · have := ih h
      omega

theorem nesting_lt_entries {entry : Bytes × Value} {entries : List (Bytes × Value)}
    (h : entry ∈ entries) : nesting entry.2 < nestingEntries entries := by
  induction entries with
  | nil => cases h
  | cons head entries ih =>
    obtain ⟨key, item⟩ := head
    rw [nestingEntries]
    rcases List.mem_cons.mp h with rfl | h
    · simp only
      omega
    · have := ih h
      omega

/-! ### Values -/

/-- Bytes whose length is the argument of their head. -/
theorem readBytes_append {content : Bytes} (h : content.length < 2 ^ 64) (rest : Bytes) :
    readBytes (.ofNat content.length) (content ++ rest) = .ok (content, rest) := by
  have hlen : (UInt64.ofNat content.length).toNat = content.length := by
    rw [UInt64.toNat_ofNat']
    omega
  rw [readBytes, hlen, if_neg (by rw [List.length_append]; omega), List.take_left' rfl,
    List.drop_left' rfl]

/-- A count that the decoder does not refuse. -/
theorem count_read {n : ℕ} (h : n ≤ kMaxCollectionElements.toNat) :
    (UInt64.ofNat n).toNat = n ∧ ¬ UInt64.ofNat n > kMaxCollectionElements := by
  have hmax : kMaxCollectionElements.toNat = 100000 := rfl
  have hlen : (UInt64.ofNat n).toNat = n := by
    rw [UInt64.toNat_ofNat']
    omega
  refine ⟨hlen, ?_⟩
  rw [gt_iff_lt, UInt64.lt_iff_toNat_lt, hlen]
  omega

/-- **An encoded value is read back**, and what follows it is left. -/
theorem decodeValue_encode (levels : ℕ) :
    ∀ {v : Value}, Forall Representable v → Forall Sendable v → nesting v < levels →
      ∀ rest, decodeValue levels (encode v ++ rest) = .ok (v, rest) := by
  induction levels with
  | zero => intro v _ _ h; exact absurd h (Nat.not_lt_zero _)
  | succ levels ih =>
    intro v hrep hsend hdepth rest
    have hnode := hrep.of_node
    have hsent := hsend.of_node
    cases v with
    | unsigned n =>
      obtain ⟨initial, tail, hhead, hmajor, harg⟩ := appendHead_read (by decide : kMajorUnsigned < 8) n
      rw [encode, hhead, List.cons_append, decodeValue, readByte]
      simp [bind, Except.bind, hmajor, harg]
    | negative n =>
      obtain ⟨initial, tail, hhead, hmajor, harg⟩ :=
        appendHead_read (by decide : kMajorNegative < 8) (-(n + 1)).toUInt64
      obtain ⟨hle, hback⟩ := negative_argument hsent
      rw [encode, hhead, List.cons_append, decodeValue, readByte]
      simp only [bind, Except.bind, hmajor, harg, if_neg hle, hback]
      rfl
    | bytes content =>
      obtain ⟨initial, tail, hhead, hmajor, harg⟩ :=
        appendHead_read (by decide : kMajorBytes < 8) (.ofNat content.length)
      rw [encode, hhead, List.append_assoc, List.cons_append, decodeValue, readByte]
      simp only [bind, Except.bind, hmajor, harg, readBytes_append hnode]
      rfl
    | text content =>
      obtain ⟨initial, tail, hhead, hmajor, harg⟩ :=
        appendHead_read (by decide : kMajorText < 8) (.ofNat content.length)
      rw [encode, hhead, List.append_assoc, List.cons_append, decodeValue, readByte]
      simp only [bind, Except.bind, hmajor, harg, readBytes_append hnode,
        isValidUtf8_of_wellFormed hsent]
      rfl
    | array items =>
      obtain ⟨initial, tail, hhead, hmajor, harg⟩ :=
        appendHead_read (by decide : kMajorArray < 8) (.ofNat items.length)
      obtain ⟨hlen, hle⟩ := count_read hsent
      have hitems := decodeItems_encode (decodeValue levels) items
        (fun item hmem => ih (hrep.of_mem hmem) (hsend.of_mem hmem)
          (by have := nesting_lt_items hmem; rw [nesting] at hdepth; omega)) rest
      rw [encode, hhead, List.append_assoc, List.cons_append, decodeValue, readByte]
      simp only [bind, Except.bind, hmajor, decodeCollectionCount, harg, if_neg hle, hlen, hitems]
      rfl
    | map entries =>
      obtain ⟨initial, tail, hhead, hmajor, harg⟩ :=
        appendHead_read (by decide : kMajorMap < 8) (.ofNat entries.length)
      obtain ⟨-, hkeys, hsorted⟩ := hnode
      obtain ⟨hcount, htext⟩ := hsent
      obtain ⟨hlen, hle⟩ := count_read hcount
      have hbelow : ∀ entry ∈ entries, nesting entry.2 < levels := fun entry hmem => by
        have := nesting_lt_entries hmem
        rw [nesting] at hdepth
        omega
      have hentries := decodeEntries_encode (decodeValue levels) entries
        (fun entry hmem => ih (.intro (hkeys entry hmem) nofun) (.intro (htext entry hmem) nofun)
          (Nat.zero_lt_of_lt (hbelow entry hmem)))
        (fun entry hmem => ih (hrep.of_mem (List.mem_map_of_mem hmem))
          (hsend.of_mem (List.mem_map_of_mem hmem)) (hbelow entry hmem)) rest [] hsorted
      rw [encode, hhead, List.append_assoc, List.cons_append, decodeValue, readByte]
      simp only [bind, Except.bind, hmajor, decodeCollectionCount, harg, if_neg hle, hlen,
        hentries]
      rfl
    | boolean b => cases b <;> rfl
    | null => rfl
    | double bits =>
      have hlen : (appendBigEndian bits 8).length = 8 := BigEndian.length_write 8 _
      have hread : readBigEndian 8 (appendBigEndian bits 8 ++ rest) = .ok (bits, rest) := by
        rw [readBigEndian, if_neg (by rw [List.length_append]; omega), List.take_left' hlen,
          List.drop_left' hlen, appendBigEndian, BigEndian.read_write bits.toNat_lt,
          UInt64.ofNat_toNat]
      have hmajor : (kMajorSimple <<< kMajorShift ||| 27) >>> kMajorShift = kMajorSimple := by
        decide
      have hadd : (kMajorSimple <<< kMajorShift ||| 27) &&& kAdditionalMask = 27 := by decide
      rw [encode, List.cons_append, decodeValue, readByte]
      simp only [bind, Except.bind, hmajor, hadd, decodeSimple, hread]
      rfl

/-- **The round trip of a value.** Within the decoder's nesting limit, what `encode` writes for a
value that may be sent is what `decode` returns, doubles bit by bit. -/
theorem decode_encode {v : Value} (hrep : Forall Representable v) (hsend : Forall Sendable v)
    (hdepth : nesting v ≤ kMaxNestingDepth) : decode (encode v) = .ok v := by
  have h := decodeValue_encode (kMaxNestingDepth + 1) hrep hsend (Nat.lt_succ_of_le hdepth) []
  rw [List.append_nil] at h
  simp [decode, h, bind, Except.bind]

/-- `{"b": [[500], -1, NaN], "é": {}}`, the NaN with a payload. -/
def nestedSample : Value :=
  .map [([0x62], .array [.array [.unsigned 500], .negative (-1), .double 0x7FF8000000000001]),
    ([0xC3, 0xA9], .map [])]

theorem decode_encode_nestedSample : decode (encode nestedSample) = .ok nestedSample := by
  have hb : WellFormed [0x62] := ⟨['b'], by decide⟩
  have he : WellFormed [0xC3, 0xA9] := ⟨['é'], by decide⟩
  refine decode_encode (v := nestedSample) ?_ ?_ (by decide)
  · refine .intro (by simp [nestedSample, Representable, keyLess]) ?_
    simp only [nestedSample, children, List.map_cons, List.map_nil, List.forall_mem_cons]
    refine ⟨.intro (by simp [Representable]) ?_, .intro (by simp [Representable]) nofun, nofun⟩
    simp only [children, List.forall_mem_cons]
    refine ⟨.intro (by simp [Representable]) ?_, .intro trivial nofun, .intro trivial nofun, nofun⟩
    simp only [children, List.forall_mem_cons]
    exact ⟨.intro trivial nofun, nofun⟩
  · refine .intro ⟨by decide, by simp [hb, he]⟩ ?_
    simp only [nestedSample, children, List.map_cons, List.map_nil, List.forall_mem_cons]
    refine ⟨.intro (by decide : 3 ≤ kMaxCollectionElements.toNat) ?_,
      .intro ⟨by decide, by simp⟩ nofun, nofun⟩
    simp only [children, List.forall_mem_cons]
    refine ⟨.intro (by decide : 1 ≤ kMaxCollectionElements.toNat) ?_,
      .intro (by decide : (-1 : Int64) < 0) nofun, .intro trivial nofun, nofun⟩
    simp only [children, List.forall_mem_cons]
    exact ⟨.intro trivial nofun, nofun⟩

end RemoteCam.Cbor.RoundTrip
