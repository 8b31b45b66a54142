import RemoteCam.Cbor.Agreement
import RemoteCam.Cbor.Canonical
import RemoteCam.Control.Envelope
import RemoteCam.Phone.Transport

/-! # The control messages of the phone, as bytes

`CBOREncoder` and `ControlMessage` of the phone. A dictionary is the list of its entries; where a
key comes twice the later entry counts.

`encoded_make`: a message of the phone has the bytes of the PC's message with the same fields.
`init_encode`: what the phone makes of the bytes of a message of the PC whose fields are no
containers. -/

namespace RemoteCam.Phone.Messages

open RemoteCam.Lib RemoteCam.Lib.OrderedMap
open RemoteCam.Cbor.Codec (Bytes Value keyLess appendHead appendBigEndian)
open RemoteCam.Cbor.CBORDecoder (CBORValue CBORError)
open RemoteCam.Cbor.Spelling RemoteCam.Cbor.Canonical RemoteCam.Cbor.Agreement
open RemoteCam.Control.Messages RemoteCam.Control.Builders RemoteCam.Control.Envelope
open RemoteCam.Cbor.Limits RemoteCam.Cbor.RoundTrip

/-! ### The encoder -/

def appendMajor (major : UInt8) (value : UInt64) : Bytes :=
  if value < 24 then [major <<< 5 ||| value.toUInt8]
  else if value ≤ 0xFF then [major <<< 5 ||| 24, value.toUInt8]
  else if value ≤ 0xFFFF then (major <<< 5 ||| 25) :: BigEndian.write 2 value.toNat
  else if value ≤ 0xFFFFFFFF then (major <<< 5 ||| 26) :: BigEndian.write 4 value.toNat
  else (major <<< 5 ||| 27) :: BigEndian.write 8 value.toNat

def canonicalKeyOrder (lhs rhs : Bytes) : Bool :=
  if lhs.length = rhs.length then lhs < rhs else lhs.length < rhs.length

/-- The entries of a dictionary, `sorted(by: canonicalKeyOrder)`. -/
def inKeyOrder {ν : Type} (entries : List (Bytes × ν)) : List (Bytes × ν) :=
  entries.foldl (fun sorted entry => insertOrAssign canonicalKeyOrder entry.1 entry.2 sorted) []

mutual

/-- A negative number is below zero. -/
def append : CBORValue → Bytes
  | .unsigned number => appendMajor 0 number
  | .negative number => appendMajor 1 (-(number + 1)).toUInt64
  | .bytes bytes => appendMajor 2 (.ofNat bytes.length) ++ bytes
  | .string string => appendMajor 3 (.ofNat string.length) ++ string
  | .array values => appendMajor 4 (.ofNat values.length) ++ appendValues values
  | .map values =>
    let entries := inKeyOrder (appendEntries values)
    appendMajor 5 (.ofNat entries.length) ++ entries.flatMap Prod.snd
  | .boolean value => [if value then 0xF5 else 0xF4]
  | .null => [0xF6]
  | .double bits => 0xFB :: BigEndian.write 8 bits.toNat

def appendValues : List CBORValue → Bytes
  | [] => []
  | value :: values => append value ++ appendValues values

/-- Each entry under its key. -/
def appendEntries : List (Bytes × CBORValue) → List (Bytes × Bytes)
  | [] => []
  | (key, value) :: values =>
    (key, appendMajor 3 (.ofNat key.length) ++ key ++ append value) :: appendEntries values

end

/-! ### Messages -/

def maximumPayloadLength : ℕ := 1024 * 1024

structure ControlMessage where
  type : Bytes
  fields : List (Bytes × CBORValue)

inductive ControlMessageError where
  | invalidMap
  | payloadTooLarge
  | cbor (error : CBORError)

/-- The value of a key, as the dictionary compares keys. -/
def field (canon : Bytes → Bytes) (map : List (Bytes × CBORValue)) (key : String) :
    Option CBORValue :=
  (map.find? fun entry => canon entry.1 = canon (literal key)).map Prod.snd

/-- `init(payload:)`. -/
def ControlMessage.init (canon : Bytes → Bytes) (payload : Bytes) :
    Except ControlMessageError ControlMessage :=
  if payload.length > maximumPayloadLength then .error .payloadTooLarge
  else
    match Cbor.CBORDecoder.decode canon payload with
    | .error error => .error (.cbor error)
    | .ok (.map map) =>
      match field canon map "t" with
      | some (.string type) =>
        .ok ⟨type, map.filter fun entry => canon entry.1 ≠ canon (literal "t")⟩
      | _ => .error .invalidMap
    | .ok _ => .error .invalidMap

def ControlMessage.encoded (m : ControlMessage) : Bytes :=
  append (.map (m.fields ++ [(literal "t", .string m.type)]))

/-- A dictionary literal. -/
def dictionary (entries : List (String × CBORValue)) : List (Bytes × CBORValue) :=
  entries.map fun entry => (literal entry.1, entry.2)

def make (type : String) (fields : List (String × CBORValue)) : ControlMessage :=
  ⟨literal type, dictionary fields⟩

def VideoCodec.rawValue : Transport.VideoCodec → String
  | .hevc => "hevc"
  | .h264 => "h264"

/-! ### Two encoders of one format -/

mutual

/-- What the PC has for a value of the phone. -/
def value : CBORValue → Value
  | .unsigned number => .unsigned number
  | .negative number => .negative number
  | .bytes bytes => .bytes bytes
  | .string string => .text string
  | .array values => .array (valueItems values)
  | .map values => .map (inKeyOrder (valueEntries values))
  | .boolean value => .boolean value
  | .null => .null
  | .double bits => .double bits

def valueItems : List CBORValue → List Value
  | [] => []
  | item :: items => value item :: valueItems items

def valueEntries : List (Bytes × CBORValue) → List (Bytes × Value)
  | [] => []
  | (key, item) :: entries => (key, value item) :: valueEntries entries

end

theorem canonicalKeyOrder_eq : canonicalKeyOrder = keyLess := by
  funext lhs rhs
  unfold canonicalKeyOrder keyLess
  by_cases h : lhs.length = rhs.length
  · rw [if_pos h, if_neg (not_not_intro h)]
  · rw [if_neg h, if_pos h]

theorem insertOrAssign_map {ν ν' : Type} {less : Bytes → Bytes → Bool} (h : StrictTotal less)
    (f : Bytes → ν → ν') (key : Bytes) (v : ν) (map : List (Bytes × ν)) :
    insertOrAssign less key (f key v) (map.map fun entry => (entry.1, f entry.1 entry.2)) =
      (insertOrAssign less key v map).map fun entry => (entry.1, f entry.1 entry.2) := by
  induction map with
  | nil => rfl
  | cons entry map ih =>
    obtain ⟨k, w⟩ := entry
    rw [List.map_cons, insertOrAssign, insertOrAssign]
    split_ifs with hlt hgt
    · rfl
    · rw [ih]
      rfl
    · obtain rfl : k = key := h.eq_of_not (by simpa using hgt) (by simpa using hlt)
      rfl

/-- Keys are put in order without regard to their values. -/
theorem inKeyOrder_map {ν ν' : Type} (f : Bytes → ν → ν') (entries : List (Bytes × ν)) :
    inKeyOrder (entries.map fun entry => (entry.1, f entry.1 entry.2)) =
      (inKeyOrder entries).map fun entry => (entry.1, f entry.1 entry.2) := by
  have hfold : ∀ done : List (Bytes × ν),
      (entries.map fun entry => (entry.1, f entry.1 entry.2)).foldl
          (fun sorted entry => insertOrAssign canonicalKeyOrder entry.1 entry.2 sorted)
          (done.map fun entry => (entry.1, f entry.1 entry.2)) =
        (entries.foldl (fun sorted entry => insertOrAssign canonicalKeyOrder entry.1 entry.2 sorted)
          done).map fun entry => (entry.1, f entry.1 entry.2) := by
    induction entries with
    | nil => exact fun _ => rfl
    | cons entry entries ih =>
      intro done
      rw [List.map_cons, List.foldl_cons, List.foldl_cons,
        insertOrAssign_map (canonicalKeyOrder_eq ▸ strictTotal_keyLess), ih]
  exact hfold []

/-- An entry of a map, as the PC writes it. -/
def entryBytes (key : Bytes) (v : Value) : Bytes :=
  appendHead Cbor.Codec.kMajorText (.ofNat key.length) ++ key ++ Cbor.Codec.encode v

theorem encodeEntries_eq (entries : List (Bytes × Value)) :
    Cbor.Codec.encodeEntries entries =
      (entries.map fun entry => (entry.1, entryBytes entry.1 entry.2)).flatMap Prod.snd := by
  induction entries with
  | nil => rfl
  | cons entry entries ih =>
    rw [Cbor.Codec.encodeEntries, ih]
    rfl

theorem length_valueItems (items : List CBORValue) : (valueItems items).length = items.length := by
  induction items with
  | nil => rfl
  | cons item items ih => rw [valueItems, List.length_cons, List.length_cons, ih]

mutual

/-- **The phone's encoder writes what the PC's does.** -/
theorem append_eq : ∀ w : CBORValue, append w = Cbor.Codec.encode (value w)
  | .unsigned _ => rfl
  | .negative _ => rfl
  | .bytes _ => rfl
  | .string _ => rfl
  | .array values => by
    rw [append, appendValues_eq values, value, Cbor.Codec.encode, length_valueItems]
    rfl
  | .map values => by
    rw [append, appendEntries_eq values, inKeyOrder_map, value, Cbor.Codec.encode, encodeEntries_eq,
      List.length_map]
    rfl
  | .boolean b => by cases b <;> rfl
  | .null => rfl
  | .double _ => rfl

theorem appendValues_eq : ∀ values : List CBORValue,
    appendValues values = Cbor.Codec.encodeItems (valueItems values)
  | [] => rfl
  | item :: items => by
    rw [appendValues, append_eq item, appendValues_eq items]
    rfl

theorem appendEntries_eq : ∀ values : List (Bytes × CBORValue),
    appendEntries values =
      (valueEntries values).map fun entry => (entry.1, entryBytes entry.1 entry.2)
  | [] => rfl
  | (key, item) :: entries => by
    rw [appendEntries, append_eq item, appendEntries_eq entries]
    rfl

end

theorem valueEntries_eq (entries : List (Bytes × CBORValue)) :
    valueEntries entries = entries.map fun entry => (entry.1, value entry.2) := by
  induction entries with
  | nil => rfl
  | cons entry entries ih => rw [valueEntries, ih, List.map_cons]

section Dictionary
variable (entries : List (String × CBORValue))

theorem foldl_dictionary (done : List (Bytes × Value)) :
    (valueEntries (dictionary entries)).foldl
        (fun sorted entry => insertOrAssign canonicalKeyOrder entry.1 entry.2 sorted) done =
      (entries.map fun entry => (entry.1, value entry.2)).foldl
        (fun map entry => put map entry.1 entry.2) done := by
  rw [valueEntries_eq, dictionary, List.map_map, List.foldl_map, List.foldl_map,
    canonicalKeyOrder_eq]
  rfl

/-- A dictionary literal is filled in as a map of the PC. -/
theorem value_dictionary :
    value (.map (dictionary entries)) =
      .map (puts (entries.map fun entry => (entry.1, value entry.2))) := by
  unfold puts
  rw [value, inKeyOrder, foldl_dictionary]

/-- **The bytes of a message.** -/
theorem encoded_make (type : String) :
    (make type entries).encoded =
      Message.encode (makeMessage type (entries.map fun entry => (entry.1, value entry.2))) := by
  have hsnoc : valueEntries (dictionary entries ++ [(literal "t", .string (literal type))]) =
      valueEntries (dictionary entries) ++ [(literal "t", .text (literal type))] := by
    simp only [valueEntries_eq, List.map_append, List.map_cons, List.map_nil, value]
  rw [ControlMessage.encoded, append_eq, value, Message.encode, Message.payload]
  unfold makeMessage puts inKeyOrder make
  dsimp only
  rw [hsnoc, List.foldl_append, foldl_dictionary, ← canonicalKeyOrder_eq]
  rfl

end Dictionary

/-! ### What the phone makes of the PC's bytes -/

section Received
variable {canon : Bytes → Bytes}

/-- Entries whose keys stay apart, with values that have one of the phone's. -/
theorem cborEntries_ofEntries {f : Value → CBORValue} :
    ∀ {entries : List (Bytes × Value)} {done : List (Bytes × CBORValue)},
      (∀ entry ∈ entries, cborValue canon (ofValue entry.2) = some (f entry.2)) →
      (done.map (fun entry => canon entry.1) ++ entries.map fun entry => canon entry.1).Nodup →
      cborEntries canon done (ofEntries entries) =
        some (done ++ entries.map fun entry => (entry.1, f entry.2))
  | [], done, _, _ => by
    rw [ofEntries, cborEntries, List.map_nil, List.append_nil]
  | (key, v) :: entries, done, hvalues, hnodup => by
    obtain ⟨hv, hrest⟩ := List.forall_mem_cons.mp hvalues
    rw [List.map_cons, List.nodup_middle] at hnodup
    have hnew : canon key ∉ done.map fun entry => canon entry.1 := fun hmem =>
      (List.nodup_cons.mp hnodup).1 (List.mem_append_left _ hmem)
    rw [ofEntries, cborEntries, if_neg hnew, hv, Option.bind_eq_bind, Option.bind_some,
      cborEntries_ofEntries hrest, List.append_assoc]
    · rfl
    · rw [List.map_append, List.append_assoc]
      rw [← List.nodup_middle] at hnodup
      exact hnodup

/-- The phone's value of a value that is no container. -/
def leaf : Value → CBORValue
  | .unsigned v => .unsigned v
  | .negative v => .negative v
  | .bytes v => .bytes v
  | .text v => .string v
  | .boolean v => .boolean v
  | .double bits => .double bits
  | _ => .null

def IsLeaf : Value → Bool
  | .array _ | .map _ => false
  | _ => true

theorem cborValue_leaf {v : Value} (h : IsLeaf v = true) :
    cborValue canon (ofValue v) = some (leaf v) := by
  cases v with
  | array | map => cases h
  | _ => rfl

/-- What was encoded is spelled as its own item. -/
theorem spelled_encode {v : Value} (hrep : Forall Representable v) (hsend : Forall Sendable v)
    (hdepth : nesting v ≤ Cbor.Codec.kMaxNestingDepth) :
    spelled (Cbor.Codec.encode v) = some (ofValue v) := by
  have hdecode := Cbor.Spelling.decode_spelled (Cbor.Codec.encode v)
  rw [decode_encode hrep hsend hdepth] at hdecode
  obtain ⟨item, hitem, -⟩ := Option.bind_eq_some_iff.mp hdecode.symm
  rw [hitem, (encoding_unique.2 v hrep).2.2.2 item hitem]

/-- The phone's dictionary for a map without containers whose keys stay as they are. -/
def leaves (map : Map) : List (Bytes × CBORValue) := map.map fun entry => (entry.1, leaf entry.2)

theorem field_leaves {map : Map} (hkeys : ∀ entry ∈ map, canon entry.1 = entry.1) {key : String}
    (hkey : canon (literal key) = literal key) :
    field canon (leaves map) key = (find map key).map leaf := by
  unfold field leaves find
  induction map with
  | nil => rfl
  | cons entry map ih =>
    obtain ⟨k, v⟩ := entry
    obtain ⟨hk, hrest⟩ := List.forall_mem_cons.mp hkeys
    rw [List.map_cons, List.find?_cons, List.lookup_cons]
    by_cases heq : k = literal key
    · subst heq
      rw [beq_self_eq_true, decide_eq_true rfl]
      rfl
    · have hne : canon k ≠ canon (literal key) := by rwa [hk, hkey]
      rw [decide_eq_false hne, beq_eq_false_iff_ne.mpr (Ne.symm heq)]
      exact ih hrest

/-- What the phone's decoder makes of a map without containers. -/
theorem decode_leaves {map : Map} (hcarried : Carried Cbor.Codec.kMaxNestingDepth (.map map))
    (hkeys : ∀ entry ∈ map, canon entry.1 = entry.1)
    (hleaf : ∀ entry ∈ map, IsLeaf entry.2 = true)
    (hfits : (Cbor.Codec.encode (.map map)).length ≤ kMaxPayloadBytes) :
    Cbor.CBORDecoder.decode canon (Cbor.Codec.encode (.map map)) = .ok (.map (leaves map)) := by
  have hrep : Forall Representable (.map map) :=
    representable_of_length hcarried.ordered (Nat.lt_of_le_of_lt hfits (by decide))
  have hspelled := spelled_encode hrep hcarried.sendable hcarried.depth
  have hsorted : OrderedMap.Sorted keyLess map := hcarried.ordered.of_node
  have hnodup : (map.map fun entry => canon entry.1).Nodup := by
    rw [List.map_congr_left hkeys]
    exact List.pairwise_map.mpr (hsorted.imp fun hless => strictTotal_keyLess.ne hless)
  have hentries : cborEntries canon [] (ofEntries map) = some (leaves map) :=
    cborEntries_ofEntries (fun entry hentry => cborValue_leaf (hleaf entry hentry)) hnodup
  have hdecode := @decode_spelled canon ⟨_, hfits.trans (by decide)⟩
  rw [hspelled, Option.bind_some, ofValue, cborValue, hentries] at hdecode
  generalize Cbor.CBORDecoder.decode canon _ = result at hdecode ⊢
  cases result with
  | error error => cases hdecode
  | ok v => exact congrArg Except.ok (Option.some.inj hdecode)

/-- **The phone's message for a message of the PC** without containers. The canonical form of
seven-bit text is the text. -/
theorem init_encode {type : String} {entries : List (String × Value)}
    (hcanon : ∀ s, Ascii s → canon (literal s) = literal s) (htype : Ascii type)
    (hkeys : Keys ("t" :: entries.map Prod.fst))
    (hlen : entries.length < Cbor.Codec.kMaxCollectionElements.toNat)
    (hleaf : ∀ entry ∈ entries, IsLeaf entry.2 = true)
    (hcarried : ∀ entry ∈ entries, Carried 31 entry.2)
    (hfits : (Message.encode (makeMessage type entries)).length ≤ kMaxPayloadBytes) :
    ControlMessage.init canon (Message.encode (makeMessage type entries)) =
      .ok ⟨literal type, leaves (puts entries)⟩ := by
  obtain ⟨hascii, hnodup⟩ := hkeys
  obtain ⟨ht, hrest⟩ := List.forall_mem_cons.mp hascii
  have hmem : ∀ entry ∈ puts entries, canon entry.1 = entry.1 ∧ IsLeaf entry.2 = true ∧
      entry.1 ≠ kTypeKey := by
    intro entry hentry
    obtain ⟨e, he, rfl⟩ := mem_puts hentry
    have hname : e.1 ∈ entries.map Prod.fst := List.mem_map_of_mem he
    refine ⟨hcanon _ (hrest _ hname), hleaf e he, fun heq => ?_⟩
    exact (List.nodup_cons.mp hnodup).1 (literal_inj (hrest _ hname) ht heq ▸ hname)
  set payload := insertOrAssign keyLess kTypeKey (.text (literal type)) (puts entries)
  have hall : ∀ entry ∈ payload, canon entry.1 = entry.1 ∧ IsLeaf entry.2 = true := by
    intro entry hentry
    rcases mem_insertOrAssign strictTotal_keyLess hentry with rfl | hentry
    · exact ⟨hcanon "t" ht, rfl⟩
    · exact ⟨(hmem entry hentry).1, (hmem entry hentry).2.1⟩
  have hpay : Carried Cbor.Codec.kMaxNestingDepth (.map payload) :=
    carried_payload (m := makeMessage type entries) (wellFormed_literal htype)
      (length_puts_le.trans_lt hlen) (carried_puts hrest hlen.le hcarried)
  have hdecode := decode_leaves hpay (fun entry hentry => (hall entry hentry).1)
    (fun entry hentry => (hall entry hentry).2) hfits
  have hfind : find payload "t" = some (.text (literal type)) :=
    (lookup_insertOrAssign strictTotal_keyLess _ _ _ _).trans (if_pos BEq.rfl)
  have htypeField : field canon (leaves payload) "t" = some (.string (literal type)) := by
    rw [field_leaves (fun entry hentry => (hall entry hentry).1) (hcanon "t" ht), hfind]
    rfl
  have hothers : (leaves payload).filter (fun entry => canon entry.1 ≠ canon (literal "t")) =
      leaves (puts entries) := by
    have herase := filter_insertOrAssign strictTotal_keyLess (Value.text (literal type))
      fun entry hentry => (hmem entry hentry).2.2
    rw [← herase, leaves, leaves, List.filter_map]
    refine congrArg _ (List.filter_congr fun entry hentry => ?_)
    rw [Function.comp_apply, (hall entry hentry).1, hcanon "t" ht]
    rfl
  have hfits' : ¬ (Message.encode (makeMessage type entries)).length > maximumPayloadLength :=
    Nat.not_lt.mpr hfits
  unfold ControlMessage.init
  rw [if_neg hfits']
  unfold Message.encode Message.payload makeMessage
  dsimp only
  rw [hdecode]
  dsimp only
  rw [htypeField, hothers]

end Received

end RemoteCam.Phone.Messages
