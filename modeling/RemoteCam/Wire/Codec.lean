import RemoteCam.Lib.BigEndian
import RemoteCam.Lib.Framing

/-! # Framing: the 16-byte header and the streaming decoder

`encode` writes a frame, `Decoder.append` takes a chunk of the TCP byte stream and returns the
frames that completed. The decoder keeps the bytes it has received in `buffer`, the position of the
first byte not yet handed out in `readOffset`, and a failure that is never left again. `examine` is
the body of `append`'s loop: what the bytes from `readOffset` on are. -/

namespace RemoteCam.Wire.Codec

open RemoteCam.Lib RemoteCam.Lib.Framing

def kHeaderBytes : ℕ := 16

/-- 16 MiB, inclusive. -/
def kMaxPayloadBytes : ℕ := 16 * 1024 * 1024

/-- One MiB of consumed prefix before compacting. -/
def kCompactThreshold : ℕ := 1024 * 1024

def kKeyframe : UInt8 := 1
def kEncrypted : UInt8 := 2
def kEndOfFragment : UInt8 := 4
def kKnownMask : UInt8 := kKeyframe ||| kEncrypted ||| kEndOfFragment

inductive Error where
  | none
  | payloadTooLarge
  | reservedFlagsSet
  | reservedHeaderNonZero
  deriving DecidableEq, Repr

structure Frame where
  channel : UInt8 := 0
  flags : UInt8 := 0
  ptsMicros : UInt64 := 0
  payload : List UInt8 := []
  deriving DecidableEq, Repr

def Frame.isKeyframe (f : Frame) : Bool := f.flags &&& kKeyframe != 0

/-- The header of a frame with `payloadSize` bytes of payload. -/
def header (f : Frame) : List UInt8 :=
  BigEndian.write 4 f.payload.length ++ [f.channel, f.flags, 0, 0] ++
    BigEndian.write 8 f.ptsMicros.toNat

/-- Header and payload; an oversized payload or a reserved flag bit is refused. -/
def encode (f : Frame) : Except Error (List UInt8) :=
  if f.payload.length > kMaxPayloadBytes then .error .payloadTooLarge
  else if f.flags &&& ~~~kKnownMask != 0 then .error .reservedFlagsSet
  else .ok (header f ++ f.payload)

/-! ### The decoder -/

/-- One round of the loop of `append`, on the bytes from the read offset on. The header is judged
as soon as it is there, before the body is waited for: length, then flags, then reserved bytes. -/
def examine (bytes : List UInt8) : Verdict Frame Error :=
  if bytes.length < kHeaderBytes then .more
  else
    let payloadLength := BigEndian.read (bytes.take 4)
    let frameFlags := bytes.getD 5 0
    if payloadLength > kMaxPayloadBytes then .bad .payloadTooLarge
    else if frameFlags &&& ~~~kKnownMask != 0 then .bad .reservedFlagsSet
    else if bytes.getD 6 0 != 0 || bytes.getD 7 0 != 0 then .bad .reservedHeaderNonZero
    else if bytes.length - kHeaderBytes < payloadLength then .more
    else
      .item
        { channel := bytes.getD 4 0
          flags := frameFlags
          ptsMicros := .ofNat (BigEndian.read ((bytes.drop 8).take 8))
          payload := (bytes.drop kHeaderBytes).take payloadLength }
        (kHeaderBytes + payloadLength)

structure Decoder where
  buffer : List UInt8 := []
  readOffset : ℕ := 0
  failed : Bool := false
  failure : Error := .none
  deriving DecidableEq, Repr

/-- Bytes held for the current frame. -/
def Decoder.buffered (d : Decoder) : ℕ := d.buffer.length - d.readOffset

theorem examine_item {bs : List UInt8} {f : Frame} {n : ℕ} (h : examine bs = .item f n) :
    n = kHeaderBytes + BigEndian.read (bs.take 4) ∧ n ≤ bs.length := by
  unfold examine at h
  dsimp only at h
  split_ifs at h
  obtain ⟨-, rfl⟩ := Verdict.item.inj h
  exact ⟨rfl, by omega⟩

/-- The loop of `append`: the error it stops with, the frames it hands out and the read offset. -/
def scan (buffer : List UInt8) (readOffset : ℕ) : Error × List Frame × ℕ :=
  match _h : examine (buffer.drop readOffset) with
  | .more => (.none, [], readOffset)
  | .bad e => (e, [], readOffset)
  | .item frame n =>
    let (e, frames, offset) := scan buffer (readOffset + n)
    (e, frame :: frames, offset)
termination_by buffer.length - readOffset
decreasing_by
  obtain ⟨h1, h2⟩ := examine_item _h
  have : 0 < n := by rw [h1]; unfold kHeaderBytes; omega
  rw [List.length_drop] at h2
  omega

/-- What `append` does to the buffer after a loop without error. -/
def compact (buffer : List UInt8) (readOffset : ℕ) : List UInt8 × ℕ :=
  if readOffset = buffer.length then ([], 0)
  else if readOffset ≥ kCompactThreshold ∨ readOffset > buffer.length / 2 then
    (buffer.drop readOffset, 0)
  else (buffer, readOffset)

/-- **One chunk**: the error reported, the frames that completed and the new decoder. -/
def Decoder.append (d : Decoder) (data : List UInt8) : Error × List Frame × Decoder :=
  if d.failed then (d.failure, [], d)
  else
    let buffer := d.buffer ++ data
    let (e, frames, readOffset) := scan buffer d.readOffset
    if e = .none then
      let (buffer, readOffset) := compact buffer readOffset
      (.none, frames, { d with buffer, readOffset })
    else (e, frames, { buffer, readOffset, failed := true, failure := e })

/-- One more chunk after those that gave the last error, the frames and the decoder of `acc`. -/
def feedStep (acc : Error × List Frame × Decoder) (chunk : List UInt8) :
    Error × List Frame × Decoder :=
  let (e, completed, d) := acc.2.2.append chunk
  (e, acc.2.1 ++ completed, d)

/-- The chunks are appended in order: the error the last `append` reported, all frames, and the
decoder. -/
def Decoder.feed (d : Decoder) (chunks : List (List UInt8)) : Error × List Frame × Decoder :=
  chunks.foldl feedStep (.none, [], d)

end RemoteCam.Wire.Codec
