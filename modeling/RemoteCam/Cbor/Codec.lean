import RemoteCam.Cbor.Utf8
import RemoteCam.Lib.BigEndian

/-! # The CBOR subset of the wire protocol

`encode` writes the shortest heads and every double as binary64; `decode` reads one value and
requires the input to end there. A value of the source's `Value` class is a `Value` here, a double
its 64 bits and a `std::map` the list of its entries in the order of the comparator `keyLess`. The
reader is the list of the bytes not yet read. -/

namespace RemoteCam.Cbor.Codec

open RemoteCam.Lib RemoteCam.Cbor.Utf8

abbrev Bytes := List UInt8

inductive Error where
  | truncated
  | invalidAdditionalInformation
  | nonMinimalInteger
  | invalidUtf8
  | unsupportedMapKey
  | unsupportedSimpleValue
  | nestingLimitExceeded
  | trailingBytes
  | integerOverflow
  | duplicateMapKey
  | collectionTooLarge
  deriving DecidableEq, Repr

inductive Value where
  | unsigned (v : UInt64)
  | negative (v : Int64)
  | bytes (v : Bytes)
  | text (v : Bytes)
  | array (items : List Value)
  | map (entries : List (Bytes × Value))
  | boolean (v : Bool)
  | null
  | double (bits : UInt64)
  deriving Repr

def kMaxNestingDepth : ℕ := 32
def kMaxCollectionElements : UInt64 := 100000

def kMajorShift : UInt8 := 5
def kAdditionalMask : UInt8 := 0x1F

def kMajorUnsigned : UInt8 := 0
def kMajorNegative : UInt8 := 1
def kMajorBytes : UInt8 := 2
def kMajorText : UInt8 := 3
def kMajorArray : UInt8 := 4
def kMajorMap : UInt8 := 5
def kMajorTag : UInt8 := 6
def kMajorSimple : UInt8 := 7

/-- `CanonicalKeyLess`: length first, then bytewise. -/
def keyLess (lhs rhs : Bytes) : Bool :=
  if lhs.length ≠ rhs.length then lhs.length < rhs.length else lhs < rhs

/-! ### Encoding -/

/-- The low `bytes` bytes of an argument. -/
def appendBigEndian (value : UInt64) (bytes : ℕ) : Bytes := BigEndian.write bytes value.toNat

/-- A head in its shortest form. -/
def appendHead (major : UInt8) (argument : UInt64) : Bytes :=
  let headPrefix := major <<< kMajorShift
  if argument < 24 then [headPrefix ||| argument.toUInt8]
  else if argument ≤ 0xFF then [headPrefix ||| 24, argument.toUInt8]
  else if argument ≤ 0xFFFF then (headPrefix ||| 25) :: appendBigEndian argument 2
  else if argument ≤ 0xFFFFFFFF then (headPrefix ||| 26) :: appendBigEndian argument 4
  else (headPrefix ||| 27) :: appendBigEndian argument 8

mutual

def encode : Value → Bytes
  | .unsigned v => appendHead kMajorUnsigned v
  -- `-1 - v`, computed so that the least `Int64` does not overflow
  | .negative v => appendHead kMajorNegative (-(v + 1)).toUInt64
  | .bytes v => appendHead kMajorBytes (.ofNat v.length) ++ v
  | .text v => appendHead kMajorText (.ofNat v.length) ++ v
  | .array items => appendHead kMajorArray (.ofNat items.length) ++ encodeItems items
  | .map entries => appendHead kMajorMap (.ofNat entries.length) ++ encodeEntries entries
  | .boolean v => [(kMajorSimple <<< kMajorShift) ||| if v then 21 else 20]
  | .null => [(kMajorSimple <<< kMajorShift) ||| 22]
  | .double bits => ((kMajorSimple <<< kMajorShift) ||| 27) :: appendBigEndian bits 8

def encodeItems : List Value → Bytes
  | [] => []
  | item :: items => encode item ++ encodeItems items

def encodeEntries : List (Bytes × Value) → Bytes
  | [] => []
  | (key, item) :: entries =>
    appendHead kMajorText (.ofNat key.length) ++ key ++ encode item ++ encodeEntries entries

end

/-! ### Narrow floats -/

/-- The bits of the double `± m * 2 ^ e`, for `m < 2 ^ 53` and a result in the normal range. -/
def dyadicBits (sign : ℕ) (m : ℕ) (e : ℤ) : UInt64 :=
  if m = 0 then .ofNat (sign <<< 63)
  else
    let p := m.log2
    let biased := (e + p + 1023).toNat
    .ofNat ((sign <<< 63) ||| (biased <<< 52) ||| ((m - 2 ^ p) <<< (52 - p)))

/-- The exponent field of infinities and NaNs. -/
def nonFiniteBits (sign payload : ℕ) : UInt64 :=
  .ofNat ((sign <<< 63) ||| (0x7FF <<< 52) ||| payload)

/-- A binary16 as a double; every NaN becomes the quiet NaN without a payload. -/
def halfToDouble (half : ℕ) : UInt64 :=
  let sign := half >>> 15 &&& 1
  let exponent := half >>> 10 &&& 0x1F
  let mantissa := half &&& 0x3FF
  if exponent = 0 then dyadicBits sign mantissa (-24)
  else if exponent = 0x1F then nonFiniteBits sign (if mantissa = 0 then 0 else 1 <<< 51)
  else dyadicBits sign (1024 + mantissa) ((exponent : ℤ) - 25)

/-- A binary32 widened to a double; a NaN keeps its payload and becomes quiet. -/
def floatToDouble (bits : ℕ) : UInt64 :=
  let sign := bits >>> 31 &&& 1
  let exponent := bits >>> 23 &&& 0xFF
  let mantissa := bits &&& 0x7FFFFF
  if exponent = 0 then dyadicBits sign mantissa (-149)
  else if exponent = 0xFF then
    nonFiniteBits sign (if mantissa = 0 then 0 else (1 <<< 51) ||| (mantissa <<< 29))
  else dyadicBits sign (2 ^ 23 + mantissa) ((exponent : ℤ) - 150)

example : halfToDouble 0x8001 = 0xBE70000000000000 := by decide

example : floatToDouble 0x40490FDB = 0x400921FB60000000 := by decide

/-! ### Decoding -/

def readByte : Bytes → Except Error (UInt8 × Bytes)
  | [] => .error .truncated
  | byte :: bytes => .ok (byte, bytes)

def readBigEndian (n : ℕ) (bytes : Bytes) : Except Error (UInt64 × Bytes) :=
  if bytes.length < n then .error .truncated
  else .ok (.ofNat (BigEndian.read (bytes.take n)), bytes.drop n)

/-- The count is held against the bytes that are there before any is taken. -/
def readBytes (count : UInt64) (bytes : Bytes) : Except Error (Bytes × Bytes) :=
  if count.toNat > bytes.length then .error .truncated
  else .ok (bytes.take count.toNat, bytes.drop count.toNat)

/-- An argument of `n` bytes that no shorter form could hold: it is above `least`. -/
def readLong (n : ℕ) (least : UInt64) (bytes : Bytes) : Except Error (UInt64 × Bytes) := do
  let (out, bytes) ← readBigEndian n bytes
  if out > least then .ok (out, bytes) else .error .nonMinimalInteger

/-- The argument of a head, in its shortest form only. -/
def readArgument (additional : UInt8) (bytes : Bytes) : Except Error (UInt64 × Bytes) :=
  if additional < 24 then .ok (additional.toUInt64, bytes)
  else if additional = 24 then do
    let (byte, bytes) ← readByte bytes
    if byte.toUInt64 ≥ 24 then .ok (byte.toUInt64, bytes) else .error .nonMinimalInteger
  else if additional = 25 then readLong 2 0xFF bytes
  else if additional = 26 then readLong 4 0xFFFF bytes
  else if additional = 27 then readLong 8 0xFFFFFFFF bytes
  else .error .invalidAdditionalInformation

def decodeCollectionCount (additional : UInt8) (bytes : Bytes) : Except Error (UInt64 × Bytes) := do
  let (count, bytes) ← readArgument additional bytes
  if count > kMaxCollectionElements then .error .collectionTooLarge else .ok (count, bytes)

/-- `std::map::emplace`: the entry at its place, or `none` where the key is there already. -/
def emplace (key : Bytes) (item : Value) : List (Bytes × Value) → Option (List (Bytes × Value))
  | [] => some [(key, item)]
  | (k, v) :: entries =>
    if keyLess key k then some ((key, item) :: (k, v) :: entries)
    else if keyLess k key then (emplace key item entries).map ((k, v) :: ·)
    else none

/-- The array's loop, over the reader of one item. -/
def decodeItems (decodeItem : Bytes → Except Error (Value × Bytes)) :
    ℕ → Bytes → Except Error (List Value × Bytes)
  | 0, bytes => .ok ([], bytes)
  | count + 1, bytes => do
    let (item, bytes) ← decodeItem bytes
    let (items, bytes) ← decodeItems decodeItem count bytes
    .ok (item :: items, bytes)

/-- The map's loop: a key is a value like any other, and must turn out to be text. -/
def decodeEntries (decodeItem : Bytes → Except Error (Value × Bytes)) :
    ℕ → List (Bytes × Value) → Bytes → Except Error (List (Bytes × Value) × Bytes)
  | 0, entries, bytes => .ok (entries, bytes)
  | count + 1, entries, bytes => do
    let (key, bytes) ← decodeItem bytes
    match key with
    | .text keyText =>
      let (item, bytes) ← decodeItem bytes
      match emplace keyText item entries with
      | some entries => decodeEntries decodeItem count entries bytes
      | none => .error .duplicateMapKey
    | _ => .error .unsupportedMapKey

/-- The major type 7. -/
def decodeSimple (additional : UInt8) (bytes : Bytes) : Except Error (Value × Bytes) :=
  if additional = 20 then .ok (.boolean false, bytes)
  else if additional = 21 then .ok (.boolean true, bytes)
  else if additional = 22 then .ok (.null, bytes)
  else if additional = 25 then do
    let (bits, bytes) ← readBigEndian 2 bytes
    .ok (.double (halfToDouble bits.toNat), bytes)
  else if additional = 26 then do
    let (bits, bytes) ← readBigEndian 4 bytes
    .ok (.double (floatToDouble bits.toNat), bytes)
  else if additional = 27 then do
    let (bits, bytes) ← readBigEndian 8 bytes
    .ok (.double bits, bytes)
  else .error .unsupportedSimpleValue

/-- One value at a depth from which `levels` levels are left, `kMaxNestingDepth + 1 - depth`. -/
def decodeValue : ℕ → Bytes → Except Error (Value × Bytes)
  | 0, _ => .error .nestingLimitExceeded
  | levels + 1, bytes => do
    let (initial, bytes) ← readByte bytes
    let major := initial >>> kMajorShift
    let additional := initial &&& kAdditionalMask
    if major = kMajorUnsigned then
      let (value, bytes) ← readArgument additional bytes
      .ok (.unsigned value, bytes)
    else if major = kMajorNegative then
      let (value, bytes) ← readArgument additional bytes
      if value > 0x7FFFFFFFFFFFFFFF then .error .integerOverflow
      else .ok (.negative (-1 - value.toInt64), bytes)
    else if major = kMajorBytes then
      let (count, bytes) ← readArgument additional bytes
      let (content, bytes) ← readBytes count bytes
      .ok (.bytes content, bytes)
    else if major = kMajorText then
      let (count, bytes) ← readArgument additional bytes
      let (content, bytes) ← readBytes count bytes
      if isValidUtf8 content then .ok (.text content, bytes) else .error .invalidUtf8
    else if major = kMajorArray then
      let (count, bytes) ← decodeCollectionCount additional bytes
      let (items, bytes) ← decodeItems (decodeValue levels) count.toNat bytes
      .ok (.array items, bytes)
    else if major = kMajorMap then
      let (count, bytes) ← decodeCollectionCount additional bytes
      let (entries, bytes) ← decodeEntries (decodeValue levels) count.toNat [] bytes
      .ok (.map entries, bytes)
    else if major = kMajorTag then .error .invalidAdditionalInformation
    else if major = kMajorSimple then decodeSimple additional bytes
    else .error .invalidAdditionalInformation

/-- **Exactly one value**: bytes after it are an error. -/
def decode (bytes : Bytes) : Except Error Value := do
  let (value, rest) ← decodeValue (kMaxNestingDepth + 1) bytes
  if rest.length ≠ 0 then .error .trailingBytes else .ok value

end RemoteCam.Cbor.Codec
