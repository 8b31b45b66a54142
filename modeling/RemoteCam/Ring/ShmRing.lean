import Mathlib.Data.Fintype.Pi
import Mathlib.Logic.Function.Basic

/-! # The frame ring

The section of `shm_ring.cpp`, its header and its four slots, and what the blocks of `FrameRing`
that hold the write guard do to it. -/

namespace RemoteCam.Ring.ShmRing

/-! ### The section -/

def kRingMagic : ℕ := 0x4D414352
def kRingVersion : ℕ := 3
def kRingSlots : ℕ := 4
def kFourccNv12 : ℕ := 0x3231564E
def kRingMaxWidth : ℕ := 3840
def kRingMaxHeight : ℕ := 2160
def kRingSlotBytes : ℕ := kRingMaxWidth * kRingMaxHeight * 3 / 2

structure FrameInfo where
  width : ℕ := 0
  height : ℕ := 0
  stride : ℕ := 0
  format : ℕ := kFourccNv12
  ptsMicros : ℕ := 0
  writeSeq : ℕ := 0
  bytesUsed : ℕ := 0
  deriving DecidableEq, Repr

/-- The atomics of a slot and its bytes, as far as they have been written. -/
structure Slot where
  slotSeq : ℕ := 0
  slotPts : ℕ := 0
  slotBytesUsed : ℕ := 0
  slotWidth : ℕ := 0
  slotHeight : ℕ := 0
  slotStride : ℕ := 0
  pixels : List UInt8 := []
  deriving DecidableEq, Repr

structure RingHeader where
  magic : ℕ := 0
  version : ℕ := 0
  slotCount : ℕ := 0
  slotBytes : ℕ := 0
  formatGeneration : ℕ := 0
  width : ℕ := 0
  height : ℕ := 0
  stride : ℕ := 0
  format : ℕ := 0
  consumerCount : ℕ := 0
  consumerGeneration : ℕ := 0
  ownerPid : ℕ := 0
  ownerStartTime : ℕ := 0
  requestedWidth : ℕ := 0
  requestedHeight : ℕ := 0
  requestedFormat : ℕ := 0
  requestedGeneration : ℕ := 0
  writeSeq : ℕ := 0
  lastWriteQpc : ℕ := 0
  slots : Fin 4 → Slot := fun _ => {}
  deriving DecidableEq

/-- What the calls return. -/
inductive HResult where
  | sOk
  | sFalse
  | invalidState
  | pointer
  | invalidArg
  | invalidHandle
  | insufficientBuffer
  | fileNotFound
  | alreadyExists
  | invalidData
  | tooManyOpenFiles
  deriving DecidableEq, Repr

def uint32Max : ℕ := 2 ^ 32 - 1

/-- Unsigned arithmetic. -/
def u32 (n : ℕ) : ℕ := n % 2 ^ 32
def u64 (n : ℕ) : ℕ := n % 2 ^ 64

/-- The slot of a frame counted from 0. -/
def slotIndex (seq : ℕ) : Fin 4 := ⟨seq % 4, Nat.mod_lt _ (by decide)⟩

def geometryIsSane (info : FrameInfo) : Bool :=
  if info.width = 0 ∨ info.height = 0 then false
  else if info.width > kRingMaxWidth ∨ info.height > kRingMaxHeight then false
  else if (info.width ||| info.height) &&& 1 ≠ 0 then false
  else if info.stride < info.width then false
  else if info.format ≠ kFourccNv12 then false
  else
    let plane := info.stride * info.height
    let total := plane + plane / 2
    total ≤ info.bytesUsed ∧ info.bytesUsed ≤ kRingSlotBytes

namespace RingHeader

/-- The fields that `create` and `open` check. -/
def laidOut (h : RingHeader) : Prop :=
  h.magic = kRingMagic ∧ h.version = kRingVersion ∧ h.slotCount = kRingSlots ∧
    h.slotBytes = kRingSlotBytes

instance (h : RingHeader) : Decidable h.laidOut := inferInstanceAs (Decidable (_ ∧ _))

def hasActiveConsumer (h : RingHeader) : Bool := h.consumerCount ≠ 0

def resetPublishedFrames (h : RingHeader) : RingHeader :=
  { h with
    formatGeneration := 0
    width := 0
    height := 0
    stride := 0
    format := 0
    writeSeq := 0
    lastWriteQpc := 0
    slots := fun k =>
      { h.slots k with
        slotSeq := 0
        slotPts := 0
        slotBytesUsed := 0
        slotWidth := 0
        slotHeight := 0
        slotStride := 0 } }

/-! ### Blocks under the write guard -/

/-- A new section, for its first consumer. -/
def initialized : RingHeader :=
  { magic := kRingMagic
    version := kRingVersion
    slotCount := kRingSlots
    slotBytes := kRingSlotBytes
    consumerGeneration := 1
    consumerCount := 1 }

/-- The generation after this one; 0 is skipped. -/
def nextGeneration (h : RingHeader) : ℕ :=
  if u32 (h.consumerGeneration + 1) = 0 then 1 else u32 (h.consumerGeneration + 1)

/-- `create` on a section that was there before. -/
def attachConsumer (h : RingHeader) : Except HResult RingHeader :=
  if ¬ h.laidOut then .error .invalidData
  else if h.consumerCount = 0 then
    .ok { h.resetPublishedFrames with
      consumerGeneration := h.nextGeneration
      requestedWidth := 0
      requestedHeight := 0
      requestedFormat := 0
      requestedGeneration := 0
      consumerCount := 1 }
  else if h.consumerCount = uint32Max then .error .tooManyOpenFiles
  else .ok { h with consumerCount := h.consumerCount + 1 }

/-- `close` of a consumer. -/
def closeConsumer (h : RingHeader) : RingHeader :=
  { h with consumerCount := if h.consumerCount = 0 then 0 else h.consumerCount - 1 }

/-- `close` of the producer: a claim that is still its own. -/
def closeProducer (h : RingHeader) (pid startTime : ℕ) : RingHeader :=
  if h.ownerPid = pid ∧ h.ownerStartTime = startTime then
    { h with ownerPid := 0, ownerStartTime := 0 }
  else h

/-- The claim of `open(writable)`; `live` is what `producerClaimIsLive` says of a claim that is
there. -/
def claimProducer (h : RingHeader) (pid startTime : ℕ) (live : Bool) : Except HResult RingHeader :=
  if h.ownerPid ≠ 0 ∧ live then .error .alreadyExists
  else .ok { h with ownerPid := pid, ownerStartTime := startTime }

/-- Copying to a slot overwrites its first bytes. -/
def copied (src pixels : List UInt8) : List UInt8 := src ++ pixels.drop src.length

/-- The geometry that is published with every frame. -/
def republish (h : RingHeader) (info : FrameInfo) : RingHeader :=
  if h.width ≠ info.width ∨ h.height ≠ info.height ∨ h.stride ≠ info.stride ∨
      h.format ≠ info.format then
    { h with
      width := info.width
      height := info.height
      stride := info.stride
      format := info.format
      formatGeneration := u32 (h.formatGeneration + 1) }
  else h

/-- The mark of a slot in flight. -/
def writingSeq (slotSeq : ℕ) : ℕ := u64 (slotSeq + if slotSeq % 2 = 1 then 2 else 1)

/-- The block of `writeFrame` of an instance of this generation, without interruption. -/
def publish (h : RingHeader) (consumerGeneration : ℕ) (src : List UInt8) (info : FrameInfo)
    (qpc : ℕ) : HResult × RingHeader :=
  if h.magic ≠ kRingMagic ∨ !h.hasActiveConsumer ∨ h.consumerGeneration ≠ consumerGeneration then
    (.fileNotFound, h)
  else
    let slot := slotIndex h.writeSeq
    let written : Slot :=
      { slotSeq := u64 (writingSeq (h.slots slot).slotSeq + 1)
        slotPts := info.ptsMicros
        slotBytesUsed := src.length
        slotWidth := info.width
        slotHeight := info.height
        slotStride := info.stride
        pixels := copied src (h.slots slot).pixels }
    (.sOk,
      { h.republish info with
        slots := Function.update h.slots slot written
        lastWriteQpc := qpc
        writeSeq := u64 (h.writeSeq + 1) })

/-- One attempt of `readLatest` after `seq` was loaded, without interruption; `none` is
`continue`. -/
def readSlot (h : RingHeader) (seq dstCapacity : ℕ) :
    Option (HResult × Option (FrameInfo × List UInt8)) :=
  let slot := h.slots (slotIndex (seq - 1))
  if slot.slotSeq % 2 = 1 then none
  else if slot.slotBytesUsed = 0 ∨ slot.slotBytesUsed > kRingSlotBytes then none
  else if slot.slotBytesUsed > dstCapacity then some (.insufficientBuffer, none)
  else
    let candidate : FrameInfo :=
      { width := slot.slotWidth
        height := slot.slotHeight
        stride := slot.slotStride
        format := h.format
        ptsMicros := slot.slotPts
        writeSeq := seq
        bytesUsed := slot.slotBytesUsed }
    if !geometryIsSane candidate then some (.sFalse, none)
    else some (.sOk, some (candidate, slot.pixels.take slot.slotBytesUsed))

end RingHeader

end RemoteCam.Ring.ShmRing
