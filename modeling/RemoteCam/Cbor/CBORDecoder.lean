import RemoteCam.Cbor.Codec

/-! # The phone's CBOR decoder

`CBORDecoder` as the phone runs it. A `String` is its UTF-8 bytes; two of them are the same
dictionary key if they have the same canonical form, the parameter `canon`, and `String` accepts
exactly the well-formed text. A dictionary is the list of its entries in the order they came, a
double its 64 bits. The reader is the list of the bytes not yet read. -/

namespace RemoteCam.Cbor.CBORDecoder

open RemoteCam.Lib RemoteCam.Cbor.Utf8
open RemoteCam.Cbor.Codec (Bytes nonFiniteBits halfToDouble floatToDouble)

/-- Keys are compared as lists of bytes. -/
instance lawfulKeys : LawfulBEq Bytes := inferInstance

inductive CBORError where
  | truncated
  | invalidAdditionalInformation (additional : UInt8)
  | invalidUTF8
  | unsupportedMapKey
  | unsupportedSimpleValue (additional : UInt8)
  | nestingLimitExceeded
  | trailingBytes
  | integerOverflow
  | nonMinimalInteger
  | duplicateMapKey (key : Bytes)
  | collectionTooLarge
  deriving DecidableEq, Repr

inductive CBORValue where
  | unsigned (v : UInt64)
  | negative (v : Int64)
  | bytes (v : Bytes)
  | string (v : Bytes)
  | array (items : List CBORValue)
  | map (entries : List (Bytes × CBORValue))
  | boolean (v : Bool)
  | null
  | double (bits : UInt64)
  deriving Repr

def maximumNesting : ℕ := 32
def maximumCollectionElements : ℕ := 100000

/-- `Int.max`. -/
def intMax : ℕ := 2 ^ 63 - 1

/-- `Double(Float16(bitPattern:))`: exact, and a NaN keeps its payload and becomes quiet. -/
def doubleOfFloat16 (half : ℕ) : UInt64 :=
  let sign := half >>> 15 &&& 1
  let exponent := half >>> 10 &&& 0x1F
  let mantissa := half &&& 0x3FF
  if exponent = 0x1F ∧ mantissa ≠ 0 then nonFiniteBits sign ((1 <<< 51) ||| (mantissa <<< 42))
  else halfToDouble half

/-! ### The reader -/

def readByte : Bytes → Except CBORError (UInt8 × Bytes)
  | [] => .error .truncated
  | byte :: bytes => .ok (byte, bytes)

def readData (count : ℕ) (bytes : Bytes) : Except CBORError (Bytes × Bytes) :=
  if count ≤ bytes.length then .ok (bytes.take count, bytes.drop count) else .error .truncated

/-- `readInteger` of a type of `n` bytes. -/
def readInteger (n : ℕ) (bytes : Bytes) : Except CBORError (ℕ × Bytes) := do
  let (content, bytes) ← readData n bytes
  .ok (BigEndian.read content, bytes)

/-- An integer of `n` bytes that is above `least`. -/
def readLong (n least : ℕ) (bytes : Bytes) : Except CBORError (UInt64 × Bytes) := do
  let (value, bytes) ← readInteger n bytes
  if value > least then .ok (.ofNat value, bytes) else .error .nonMinimalInteger

def readLength (additional : UInt8) (bytes : Bytes) : Except CBORError (UInt64 × Bytes) :=
  if additional ≤ 23 then .ok (additional.toUInt64, bytes)
  else if additional = 24 then do
    let (byte, bytes) ← readByte bytes
    if byte.toUInt64 ≥ 24 then .ok (byte.toUInt64, bytes) else .error .nonMinimalInteger
  else if additional = 25 then readLong 2 0xFF bytes
  else if additional = 26 then readLong 4 0xFFFF bytes
  else if additional = 27 then readLong 8 0xFFFFFFFF bytes
  else .error (.invalidAdditionalInformation additional)

def integerCount (additional : UInt8) (bytes : Bytes) : Except CBORError (ℕ × Bytes) := do
  let (value, bytes) ← readLength additional bytes
  if value.toNat ≤ intMax then .ok (value.toNat, bytes) else .error .integerOverflow

/-- The array's loop, over the reader of one value. -/
def readValues (readValue : Bytes → Except CBORError (CBORValue × Bytes)) :
    ℕ → Bytes → Except CBORError (List CBORValue × Bytes)
  | 0, bytes => .ok ([], bytes)
  | count + 1, bytes => do
    let (value, bytes) ← readValue bytes
    let (values, bytes) ← readValues readValue count bytes
    .ok (value :: values, bytes)

/-- The dictionary's loop: a key that is there already is refused before its value is read. -/
def readEntries (canon : Bytes → Bytes) (readValue : Bytes → Except CBORError (CBORValue × Bytes)) :
    ℕ → List (Bytes × CBORValue) → Bytes → Except CBORError (List (Bytes × CBORValue) × Bytes)
  | 0, values, bytes => .ok (values, bytes)
  | count + 1, values, bytes => do
    let (key, bytes) ← readValue bytes
    match key with
    | .string key =>
      if canon key ∈ values.map fun entry => canon entry.1 then .error (.duplicateMapKey key)
      else do
        let (value, bytes) ← readValue bytes
        readEntries canon readValue count (values ++ [(key, value)]) bytes
    | _ => .error .unsupportedMapKey

/-- The major type 7. -/
def readSimple (additional : UInt8) (bytes : Bytes) : Except CBORError (CBORValue × Bytes) :=
  if additional = 20 then .ok (.boolean false, bytes)
  else if additional = 21 then .ok (.boolean true, bytes)
  else if additional = 22 then .ok (.null, bytes)
  else if additional = 25 then do
    let (bits, bytes) ← readInteger 2 bytes
    .ok (.double (doubleOfFloat16 bits), bytes)
  else if additional = 26 then do
    let (bits, bytes) ← readInteger 4 bytes
    .ok (.double (floatToDouble bits), bytes)
  else if additional = 27 then do
    let (bits, bytes) ← readInteger 8 bytes
    .ok (.double (.ofNat bits), bytes)
  else .error (.unsupportedSimpleValue additional)

/-- `readValue` after the first byte, over the reader of the values one level deeper. -/
def readMajor (canon : Bytes → Bytes) (readValue : Bytes → Except CBORError (CBORValue × Bytes))
    (major additional : UInt8) (bytes : Bytes) : Except CBORError (CBORValue × Bytes) :=
  if major = 0 then do
    let (value, bytes) ← readLength additional bytes
    .ok (.unsigned value, bytes)
  else if major = 1 then do
    let (encoded, bytes) ← readLength additional bytes
    if encoded ≤ 0x7FFFFFFFFFFFFFFF then .ok (.negative (-1 - encoded.toInt64), bytes)
    else .error .integerOverflow
  else if major = 2 then do
    let (count, bytes) ← integerCount additional bytes
    let (content, bytes) ← readData count bytes
    .ok (.bytes content, bytes)
  else if major = 3 then do
    let (count, bytes) ← integerCount additional bytes
    let (content, bytes) ← readData count bytes
    if WellFormed content then .ok (.string content, bytes) else .error .invalidUTF8
  else if major = 4 then do
    let (count, bytes) ← integerCount additional bytes
    if count ≤ maximumCollectionElements then
      let (values, bytes) ← readValues readValue count bytes
      .ok (.array values, bytes)
    else .error .collectionTooLarge
  else if major = 5 then do
    let (count, bytes) ← integerCount additional bytes
    if count ≤ maximumCollectionElements then
      let (values, bytes) ← readEntries canon readValue count [] bytes
      .ok (.map values, bytes)
    else .error .collectionTooLarge
  else if major = 7 then readSimple additional bytes
  else .error (.invalidAdditionalInformation additional)

/-- One value at a depth from which `levels` levels are left, `maximumNesting + 1 - depth`. -/
def readValue (canon : Bytes → Bytes) : ℕ → Bytes → Except CBORError (CBORValue × Bytes)
  | 0, _ => .error .nestingLimitExceeded
  | levels + 1, bytes => do
    let (initial, bytes) ← readByte bytes
    readMajor canon (readValue canon levels) (initial >>> 5) (initial &&& 0x1F) bytes

/-- **Exactly one value**: the reader must be at the end. -/
def decode (canon : Bytes → Bytes) (data : Bytes) : Except CBORError CBORValue := do
  let (value, rest) ← readValue canon (maximumNesting + 1) data
  if rest = [] then .ok value else .error .trailingBytes

/-- `é` in one code point has the form of `e` and a combining accent; other texts are their own. -/
def decomposeAcute : Bytes → Bytes
  | 0xC3 :: 0xA9 :: bytes => 0x65 :: 0xCC :: 0x81 :: decomposeAcute bytes
  | byte :: bytes => byte :: decomposeAcute bytes
  | [] => []

/-- A map with `é` under both spellings. -/
def acuteTwice : Bytes := [0xA2, 0x62, 0xC3, 0xA9, 0x00, 0x63, 0x65, 0xCC, 0x81, 0x01]

example : (decode id acuteTwice).isOk = true ∧ (decode decomposeAcute acuteTwice).isOk = false := by
  decide

end RemoteCam.Cbor.CBORDecoder
