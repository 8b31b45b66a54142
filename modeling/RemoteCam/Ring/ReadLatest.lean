import Mathlib.Data.List.GetD
import Mathlib.Tactic.FinCases
import Mathlib.Tactic.Set
import RemoteCam.Lib.Transitions
import RemoteCam.Ring.ShmRing

/-! # Reading the latest frame

`writeFrame`, the generation transitions of `create` and `close`, and `readLatest`, access by
access: a step is one atomic load or store of the header, or one byte of a copy. The blocks of
`writeFrame` and `create` exclude each other by the write guard; the reader takes no guard, and a
`close` that has waited for it in vain goes on without.

`faithful_of_run`: what `readLatest` returns is one frame as it was published, with its number, and
the numbers of a generation do not go down, in runs where no attempt meets a slot that has been
written since it loaded `writeSeq`, nor the format of another frame, nor a slot whose sequence has
started again. -/

namespace RemoteCam.Ring.ReadLatest

open RemoteCam.Lib.Transitions RemoteCam.Ring.ShmRing

/-! ### Stores -/

/-- What is published of a frame's geometry in the header. -/
inductive Geometry where
  | width
  | height
  | stride
  | format
  deriving DecidableEq, Repr

/-- In the order of the source. -/
def Geometry.all : List Geometry := [.width, .height, .stride, .format]

def Geometry.ofInfo (info : FrameInfo) : Geometry → ℕ
  | .width => info.width
  | .height => info.height
  | .stride => info.stride
  | .format => info.format

def Geometry.load (h : RingHeader) : Geometry → ℕ
  | .width => h.width
  | .height => h.height
  | .stride => h.stride
  | .format => h.format

def Geometry.store (h : RingHeader) (v : ℕ) : Geometry → RingHeader
  | .width => { h with width := v }
  | .height => { h with height := v }
  | .stride => { h with stride := v }
  | .format => { h with format := v }

/-- A store to a slot, its sequence apart. -/
inductive SlotStore where
  | byte (j : ℕ) (b : UInt8)
  | pts (v : ℕ)
  | bytesUsed (v : ℕ)
  | width (v : ℕ)
  | height (v : ℕ)
  | stride (v : ℕ)
  deriving DecidableEq, Repr

def SlotStore.put (slot : Slot) : SlotStore → Slot
  | .byte j b => { slot with pixels := slot.pixels.take j ++ b :: slot.pixels.drop (j + 1) }
  | .pts v => { slot with slotPts := v }
  | .bytesUsed v => { slot with slotBytesUsed := v }
  | .width v => { slot with slotWidth := v }
  | .height v => { slot with slotHeight := v }
  | .stride v => { slot with slotStride := v }

/-- What `create` sets to 0 for a new generation. -/
inductive Word where
  | formatGeneration
  | geometry (g : Geometry)
  | writeSeq
  | lastWriteQpc
  | slotSeq (k : Fin 4)
  | slot (k : Fin 4) (store : SlotStore)
  | requestedWidth
  | requestedHeight
  | requestedFormat
  | requestedGeneration
  deriving DecidableEq, Repr

/-- The stores of `resetPublishedFrames` to a slot. -/
def resetSlot (k : Fin 4) : List Word :=
  [.slotSeq k, .slot k (.pts 0), .slot k (.bytesUsed 0), .slot k (.width 0), .slot k (.height 0),
    .slot k (.stride 0)]

def resetPublishedFrames : List Word :=
  [.formatGeneration, .geometry .width, .geometry .height, .geometry .stride, .geometry .format,
    .writeSeq, .lastWriteQpc] ++ (resetSlot 0 ++ resetSlot 1 ++ resetSlot 2 ++ resetSlot 3)

def resetRequested : List Word :=
  [.requestedWidth, .requestedHeight, .requestedFormat, .requestedGeneration]

/-! ### The machine -/

/-- The arguments of `writeFrame`, and the clock at its end. -/
structure Frame where
  src : List UInt8
  info : FrameInfo
  qpc : ℕ
  deriving DecidableEq, Repr

/-- What is published of a frame: `writeFrame` counts it and its bytes. -/
def Frame.infoOf (f : Frame) (seq : ℕ) : FrameInfo :=
  { f.info with writeSeq := u64 (seq + 1), bytesUsed := f.src.length }

/-- The copy of the pixels and the stores to the slot after it. -/
def Frame.stores (f : Frame) : List SlotStore :=
  f.src.mapIdx (fun j b => .byte j b) ++
    [.pts f.info.ptsMicros, .bytesUsed f.src.length, .width f.info.width, .height f.info.height,
      .stride f.info.stride]

/-- The next access of `writeFrame` under the guard, with what it has loaded. -/
inductive Writing where
  | loadMagic
  | loadCount
  | loadGeneration
  | loadWriteSeq
  | loadSlotSeq (seq : ℕ)
  | markOdd (seq slotSeq : ℕ)
  /-- With nothing left, the count is loaded again. -/
  | fill (seq writing : ℕ) (todo : List SlotStore)
  | reloadGeneration (seq writing : ℕ)
  | markEven (seq writing : ℕ)
  /-- With nothing left, the clock is stored. -/
  | compare (seq : ℕ) (todo : List Geometry)
  /-- With nothing left, the format generation is counted. -/
  | republish (seq : ℕ) (todo : List Geometry)
  | storeSeq (seq : ℕ)
  deriving DecidableEq, Repr

/-- The next access of `create` under the guard. -/
inductive Creating where
  | loadMagic
  | loadCount
  | bumpGeneration
  | skipZero
  /-- With nothing left, the count is stored. -/
  | reset (todo : List Word)
  | attach (count : ℕ)
  deriving DecidableEq, Repr

/-- The block that holds the write guard. -/
inductive Block where
  | writeFrame (frame : Frame) (writing : Writing)
  | create (creating : Creating)
  deriving DecidableEq, Repr

/-- The next access of an attempt of `readLatest`. -/
inductive Looking where
  | loadSeq
  | loadSlotSeq
  | loadBytesUsed
  | loadWidth
  | loadHeight
  | loadStride
  | loadFormat
  | loadPts
  /-- When all bytes are copied, the sequence of the slot is loaded again. -/
  | copy
  deriving DecidableEq, Repr

structure Attempt where
  dstCapacity : ℕ
  attempt : ℕ := 0
  looking : Looking := .loadSeq
  seq : ℕ := 0
  before : ℕ := 0
  candidate : FrameInfo := {}
  dst : List UInt8 := []
  /-- Ghost: the generation when `seq` was loaded. -/
  generation : ℕ := 0
  /-- Ghost: how often the sequence of the slot had started again when `before` was loaded. -/
  restarts : ℕ := 0
  deriving DecidableEq, Repr

/-- A frame, as it was published or as `readLatest` returned it. -/
structure Publication where
  generation : ℕ
  info : FrameInfo
  pixels : List UInt8
  deriving DecidableEq, Repr

structure Shared where
  ring : RingHeader := RingHeader.initialized
  held : Option Block := none
  /-- `consumerGeneration_` of the producer. -/
  producerGeneration : ℕ := 0
  reader : Option Attempt := none
  /-- Ghost: how many generations have begun to count their frames. -/
  generation : ℕ := 0
  /-- Ghost: the frame that a slot holds, while it is published and nothing is stored to it. -/
  content : Fin 4 → Option Publication := fun _ => none
  /-- Ghost: how often the sequence of a slot has gone down. -/
  restarts : Fin 4 → ℕ := fun _ => 0
  /-- Ghost: the frames of all calls of `writeFrame` that returned `S_OK`. -/
  published : List Publication := []
  /-- Ghost: what all calls of `readLatest` that returned `S_OK` gave to their caller; the
  generation is that of the frame in the slot. -/
  reads : List Publication := []

inductive Action where
  | openProducer
  /-- `writeFrame` takes the guard. -/
  | writeFrame (frame : Frame)
  /-- `create` on a section that was there before takes the guard. -/
  | create
  | close
  /-- The next access of the block under the guard. -/
  | block
  | readLatest (dstCapacity : ℕ)
  /-- The next access of `readLatest`. -/
  | look
  deriving DecidableEq, Repr

namespace Shared

/-- The slot of an attempt. -/
def slotAt (s : Shared) (seq : ℕ) : Slot := s.ring.slots (slotIndex (seq - 1))

def storeSlot (s : Shared) (k : Fin 4) (store : SlotStore) : Shared :=
  { s with ring.slots := Function.update s.ring.slots k (store.put (s.ring.slots k)) }

/-- A store to the sequence of a slot. -/
def storeSlotSeq (s : Shared) (k : Fin 4) (v : ℕ) : Shared :=
  { s with
    ring.slots := Function.update s.ring.slots k { s.ring.slots k with slotSeq := v }
    content := Function.update s.content k none
    restarts :=
      if v ≤ (s.ring.slots k).slotSeq then Function.update s.restarts k (s.restarts k + 1)
      else s.restarts }

def clear (s : Shared) : Word → Shared
  | .formatGeneration => { s with ring.formatGeneration := 0 }
  | .geometry g => { s with ring := g.store s.ring 0 }
  | .writeSeq => { s with ring.writeSeq := 0, generation := s.generation + 1 }
  | .lastWriteQpc => { s with ring.lastWriteQpc := 0 }
  | .slotSeq k => s.storeSlotSeq k 0
  | .slot k store => s.storeSlot k store
  | .requestedWidth => { s with ring.requestedWidth := 0 }
  | .requestedHeight => { s with ring.requestedHeight := 0 }
  | .requestedFormat => { s with ring.requestedFormat := 0 }
  | .requestedGeneration => { s with ring.requestedGeneration := 0 }

/-- The guard is released with the last access of a block. -/
def release (s : Shared) : Shared := { s with held := none }

def gotoWrite (s : Shared) (f : Frame) (w : Writing) : Shared :=
  { s with held := some (.writeFrame f w) }

def gotoCreate (s : Shared) (c : Creating) : Shared := { s with held := some (.create c) }

/-- The frame is counted. -/
def publish (s : Shared) (f : Frame) (seq : ℕ) : Shared :=
  let p : Publication := ⟨s.generation, f.infoOf seq, f.src⟩
  { s with
    ring.writeSeq := u64 (seq + 1)
    content := Function.update s.content (slotIndex seq) (some p)
    published := s.published ++ [p] }

def writeNext (s : Shared) (f : Frame) : Writing → Shared
  | .loadMagic =>
    if s.ring.magic ≠ kRingMagic then s.release else s.gotoWrite f .loadCount
  | .loadCount =>
    if !s.ring.hasActiveConsumer then s.release else s.gotoWrite f .loadGeneration
  | .loadGeneration =>
    if s.ring.consumerGeneration ≠ s.producerGeneration then s.release
    else s.gotoWrite f .loadWriteSeq
  | .loadWriteSeq => s.gotoWrite f (.loadSlotSeq s.ring.writeSeq)
  | .loadSlotSeq seq => s.gotoWrite f (.markOdd seq (s.ring.slots (slotIndex seq)).slotSeq)
  | .markOdd seq slotSeq =>
    (s.storeSlotSeq (slotIndex seq) (RingHeader.writingSeq slotSeq)).gotoWrite f
      (.fill seq (RingHeader.writingSeq slotSeq) f.stores)
  | .fill seq writing (store :: todo) =>
    (s.storeSlot (slotIndex seq) store).gotoWrite f (.fill seq writing todo)
  | .fill seq writing [] =>
    if !s.ring.hasActiveConsumer then s.release else s.gotoWrite f (.reloadGeneration seq writing)
  | .reloadGeneration seq writing =>
    if s.ring.consumerGeneration ≠ s.producerGeneration then s.release
    else s.gotoWrite f (.markEven seq writing)
  | .markEven seq writing =>
    (s.storeSlotSeq (slotIndex seq) (u64 (writing + 1))).gotoWrite f (.compare seq Geometry.all)
  | .compare seq (g :: todo) =>
    if g.load s.ring ≠ g.ofInfo f.info then s.gotoWrite f (.republish seq Geometry.all)
    else s.gotoWrite f (.compare seq todo)
  | .republish seq (g :: todo) =>
    { s with ring := g.store s.ring (g.ofInfo f.info) }.gotoWrite f (.republish seq todo)
  | .republish seq [] =>
    { s with ring.formatGeneration := u32 (s.ring.formatGeneration + 1) }.gotoWrite f
      (.compare seq [])
  | .compare seq [] => { s with ring.lastWriteQpc := f.qpc }.gotoWrite f (.storeSeq seq)
  | .storeSeq seq => (s.publish f seq).release

def createNext (s : Shared) : Creating → Shared
  | .loadMagic => if s.ring.magic ≠ kRingMagic then s.release else s.gotoCreate .loadCount
  | .loadCount =>
    if s.ring.consumerCount = 0 then s.gotoCreate .bumpGeneration
    else if s.ring.consumerCount = uint32Max then s.release
    else s.gotoCreate (.attach s.ring.consumerCount)
  | .bumpGeneration =>
    let s := { s with ring.consumerGeneration := u32 (s.ring.consumerGeneration + 1) }
    if s.ring.consumerGeneration = 0 then s.gotoCreate .skipZero
    else s.gotoCreate (.reset (resetPublishedFrames ++ resetRequested))
  | .skipZero =>
    { s with ring.consumerGeneration := 1 }.gotoCreate
      (.reset (resetPublishedFrames ++ resetRequested))
  | .reset (word :: todo) => (s.clear word).gotoCreate (.reset todo)
  | .reset [] => { s with ring.consumerCount := 1 }.release
  | .attach count => { s with ring.consumerCount := count + 1 }.release

/-- `continue`, eight times at most. -/
def retry (a : Attempt) : Option Attempt :=
  if a.attempt + 1 < 8 then some { dstCapacity := a.dstCapacity, attempt := a.attempt + 1 }
  else none

def lookNext (s : Shared) (a : Attempt) : Shared :=
  let slot := s.slotAt a.seq
  match a.looking with
  | .loadSeq =>
    if s.ring.writeSeq = 0 then { s with reader := none }
    else { s with
      reader := some
        { a with seq := s.ring.writeSeq, generation := s.generation, looking := .loadSlotSeq } }
  | .loadSlotSeq =>
    if slot.slotSeq % 2 = 1 then { s with reader := retry a }
    else { s with
      reader := some
        { a with
          before := slot.slotSeq
          restarts := s.restarts (slotIndex (a.seq - 1))
          looking := .loadBytesUsed } }
  | .loadBytesUsed =>
    if slot.slotBytesUsed = 0 ∨ slot.slotBytesUsed > kRingSlotBytes then
      { s with reader := retry a }
    else if slot.slotBytesUsed > a.dstCapacity then { s with reader := none }
    else { s with
      reader := some
        { a with
          candidate := { bytesUsed := slot.slotBytesUsed, writeSeq := a.seq }
          looking := .loadWidth } }
  | .loadWidth =>
    { s with
      reader := some { a with candidate.width := slot.slotWidth, looking := .loadHeight } }
  | .loadHeight =>
    { s with
      reader := some { a with candidate.height := slot.slotHeight, looking := .loadStride } }
  | .loadStride =>
    { s with
      reader := some { a with candidate.stride := slot.slotStride, looking := .loadFormat } }
  | .loadFormat =>
    { s with reader := some { a with candidate.format := s.ring.format, looking := .loadPts } }
  | .loadPts =>
    let candidate := { a.candidate with ptsMicros := slot.slotPts }
    if !geometryIsSane candidate then { s with reader := none }
    else { s with reader := some { a with candidate, dst := [], looking := .copy } }
  | .copy =>
    if a.dst.length < a.candidate.bytesUsed then
      { s with reader := some { a with dst := a.dst ++ [slot.pixels.getD a.dst.length 0] } }
    else if slot.slotSeq ≠ a.before then { s with reader := retry a }
    else
      let source := s.content (slotIndex (a.seq - 1))
      { s with
        reader := none
        reads := s.reads ++ [⟨source.elim 0 Publication.generation, a.candidate, a.dst⟩] }

end Shared

def next (s : Shared) : Action → Shared
  | .openProducer => { s with producerGeneration := s.ring.consumerGeneration }
  | .writeFrame frame => { s with held := some (.writeFrame frame .loadMagic) }
  | .create => { s with held := some (.create .loadMagic) }
  | .close => { s with ring := s.ring.closeConsumer }
  | .block =>
    match s.held with
    | some (.writeFrame f w) => s.writeNext f w
    | some (.create c) => s.createNext c
    | none => s
  | .readLatest dstCapacity => { s with reader := some { dstCapacity } }
  | .look =>
    match s.reader with
    | some a => s.lookNext a
    | none => s

/-- The producer opens the ring between its frames. `writeFrame` does not wait for the guard, and
looks at the length of the frame before. -/
def enabled (s : Shared) : Action → Prop
  | .openProducer => s.held = none ∧ s.ring.hasActiveConsumer = true
  | .writeFrame frame =>
    s.held = none ∧ 0 < frame.src.length ∧ frame.src.length ≤ kRingSlotBytes
  | .create => s.held = none
  | .close => s.ring.consumerCount ≠ 0
  | .block => s.held.isSome = true
  | .readLatest _ => s.reader = none
  | .look => s.reader.isSome = true

def shared : Machine Shared Action := ⟨enabled, next⟩

/-- The load of the sequence of a slot finds the frame that was the last when `writeSeq` was loaded,
or no bytes; while the slot stays as it was, the header has the format of its frame; a sequence that
is the same again has not started again in between. -/
def Shared.timelyLook (s : Shared) (a : Attempt) : Prop :=
  let k := slotIndex (a.seq - 1)
  let slot := s.slotAt a.seq
  match a.looking with
  | .loadSlotSeq =>
    slot.slotSeq % 2 = 0 → slot.slotBytesUsed ≠ 0 →
      ∃ p ∈ s.content k, p.generation = a.generation ∧ p.info.writeSeq = a.seq
  | .loadFormat =>
    slot.slotSeq = a.before → s.ring.format = kFourccNv12 →
      ∀ p ∈ s.content k, p.info.format = kFourccNv12
  | .copy =>
    a.candidate.bytesUsed ≤ a.dst.length → slot.slotSeq = a.before → s.restarts k = a.restarts
  | _ => True

/-- The frames of a generation can be counted. -/
def Block.counts : Block → Prop
  | .writeFrame _ (.storeSeq seq) => seq + 1 < 2 ^ 64
  | _ => True

def timely (s : Shared) : Action → Prop
  | .look => ∀ a ∈ s.reader, s.timelyLook a
  | .block => ∀ b ∈ s.held, b.counts
  | _ => True

instance (s : Shared) (a : Action) : Decidable (enabled s a) := by
  cases a <;> unfold enabled <;> infer_instance

instance (s : Shared) (a : Action) : Decidable (shared.enabled s a) :=
  inferInstanceAs (Decidable (enabled s a))

instance (s : Shared) (a : Attempt) : Decidable (s.timelyLook a) := by
  unfold Shared.timelyLook
  cases a.looking <;> infer_instance

instance (b : Block) : Decidable b.counts := by
  unfold Block.counts
  split <;> infer_instance

instance (s : Shared) (a : Action) : Decidable (timely s a) := by
  cases a <;> unfold timely <;> infer_instance

/-! ### What is read -/

/-- A frame of a generation has one number. What was returned is one of the frames, number and all,
and a frame of the same generation that is returned after it has no smaller number. -/
structure Faithful (published reads : List Publication) : Prop where
  numbered : published.Pairwise fun p q =>
    p.generation = q.generation → p.info.writeSeq < q.info.writeSeq
  single : ∀ r ∈ reads, r ∈ published
  ordered : reads.Pairwise fun r r' =>
    r.generation = r'.generation → r.info.writeSeq ≤ r'.info.writeSeq

/-! ### A slot and its frame -/

/-- The frame is in the slot, whatever its sequence is. -/
structure Holds (slot : Slot) (info : FrameInfo) (pixels : List UInt8) : Prop where
  pts : slot.slotPts = info.ptsMicros
  bytesUsed : slot.slotBytesUsed = info.bytesUsed
  width : slot.slotWidth = info.width
  height : slot.slotHeight = info.height
  stride : slot.slotStride = info.stride
  length : pixels.length = info.bytesUsed
  pos : info.bytesUsed ≠ 0
  pixels : slot.pixels.take pixels.length = pixels

theorem Holds.withSeq {slot : Slot} {info : FrameInfo} {pixels : List UInt8} (v : ℕ)
    (h : Holds slot info pixels) : Holds { slot with slotSeq := v } info pixels :=
  ⟨h.pts, h.bytesUsed, h.width, h.height, h.stride, h.length, h.pos, h.pixels⟩

theorem put_slotSeq (slot : Slot) (store : SlotStore) :
    (store.put slot).slotSeq = slot.slotSeq := by
  cases store <;> rfl

/-- One byte of the copy. -/
theorem take_byte (pixels : List UInt8) {j : ℕ} (hj : j ≤ pixels.length) (b : UInt8) :
    (pixels.take j ++ b :: pixels.drop (j + 1)).take (j + 1) = pixels.take j ++ [b] := by
  have hlen : (pixels.take j).length = j := List.length_take_of_le hj
  rw [List.take_append, hlen, List.take_of_length_le (by omega), Nat.add_sub_cancel_left]
  rfl

theorem drop_byte (pixels : List UInt8) {j : ℕ} (hj : j ≤ pixels.length) (b : UInt8) (n : ℕ) :
    (pixels.take j ++ b :: pixels.drop (j + 1)).drop (j + (n + 1)) = pixels.drop (j + (n + 1)) := by
  have hlen : (pixels.take j).length = j := List.length_take_of_le hj
  rw [List.drop_append, hlen, List.drop_of_length_le (by omega), Nat.add_sub_cancel_left,
    List.drop_succ_cons, List.drop_drop, List.nil_append, Nat.add_assoc, Nat.add_comm 1]

/-- The copy from the byte with index `j` on. -/
theorem foldl_byte (src : List UInt8) (j : ℕ) (slot : Slot) (hj : j ≤ slot.pixels.length) :
    ((src.mapIdx fun i b => SlotStore.byte (i + j) b).foldl SlotStore.put slot) =
      { slot with
        pixels := slot.pixels.take j ++ src ++ slot.pixels.drop (j + src.length) } := by
  induction src generalizing j slot with
  | nil => simp
  | cons b src ih =>
    have hnext := ih (j + 1) ((SlotStore.byte j b).put slot) (by
      simp only [SlotStore.put, List.length_append, List.length_take_of_le hj, List.length_cons]
      omega)
    simp only [SlotStore.put, take_byte slot.pixels hj, Nat.add_right_comm j 1, Nat.add_assoc j,
      drop_byte slot.pixels hj] at hnext
    rw [List.mapIdx_cons, List.foldl_cons, Nat.zero_add]
    simp only [SlotStore.put, Nat.add_right_comm _ 1 j, Nat.add_assoc _ j 1, hnext,
      List.length_cons, List.append_assoc, List.cons_append, List.nil_append]

/-- Without interruption the stores leave the slot as `publish` does. -/
theorem Frame.foldl_stores (f : Frame) (slot : Slot) :
    f.stores.foldl SlotStore.put slot =
      { slotSeq := slot.slotSeq
        slotPts := f.info.ptsMicros
        slotBytesUsed := f.src.length
        slotWidth := f.info.width
        slotHeight := f.info.height
        slotStride := f.info.stride
        pixels := RingHeader.copied f.src slot.pixels } := by
  have hcopy := foldl_byte f.src 0 slot (Nat.zero_le _)
  simp only [Nat.add_zero, List.take_zero, List.nil_append, Nat.zero_add] at hcopy
  unfold Frame.stores
  rw [List.foldl_append, hcopy]
  rfl

theorem Frame.holds (f : Frame) (seq : ℕ) (slot : Slot) (hsrc : f.src.length ≠ 0) :
    Holds (f.stores.foldl SlotStore.put slot) (f.infoOf seq) f.src := by
  rw [f.foldl_stores]
  exact ⟨rfl, rfl, rfl, rfl, rfl, rfl, hsrc, List.take_left⟩

theorem foldl_clear_resetSlot (s : Shared) (k : Fin 4) :
    ((resetSlot k).foldl Shared.clear s).ring =
      { s.ring with
        slots := Function.update s.ring.slots k { pixels := (s.ring.slots k).pixels } } := by
  simp only [resetSlot, List.foldl_cons, List.foldl_nil, Shared.clear, Shared.storeSlotSeq,
    Shared.storeSlot, SlotStore.put, Function.update_self, Function.update_idem]

/-- Without interruption the stores leave the header as `resetPublishedFrames` does. -/
theorem foldl_clear (s : Shared) :
    (resetPublishedFrames.foldl Shared.clear s).ring = s.ring.resetPublishedFrames := by
  have hslots : Function.update (Function.update (Function.update (Function.update s.ring.slots
      0 { pixels := (s.ring.slots 0).pixels }) 1 { pixels := (s.ring.slots 1).pixels })
      2 { pixels := (s.ring.slots 2).pixels }) 3 { pixels := (s.ring.slots 3).pixels } =
      fun k => { pixels := (s.ring.slots k).pixels } := by
    funext k
    fin_cases k <;> rfl
  simp only [resetPublishedFrames, List.foldl_append, foldl_clear_resetSlot, List.foldl_cons,
    List.foldl_nil, Shared.clear, Geometry.store, Function.update_apply, Fin.reduceEq, if_false,
    hslots]
  rfl

/-! ### The invariant -/

/-- What the accesses of an attempt are counted by. -/
def Looking.rank : Looking → ℕ
  | .loadSeq => 0
  | .loadSlotSeq => 1
  | .loadBytesUsed => 2
  | .loadWidth => 3
  | .loadHeight => 4
  | .loadStride => 5
  | .loadFormat => 6
  | .loadPts => 7
  | .copy => 8

/-- What the attempt has loaded is of the frame. -/
structure Loaded (a : Attempt) (p : Publication) : Prop where
  bytesUsed : 2 < a.looking.rank →
    a.candidate.bytesUsed = p.info.bytesUsed ∧ a.candidate.writeSeq = p.info.writeSeq
  width : 3 < a.looking.rank → a.candidate.width = p.info.width
  height : 4 < a.looking.rank → a.candidate.height = p.info.height
  stride : 5 < a.looking.rank → a.candidate.stride = p.info.stride
  format : 6 < a.looking.rank → a.candidate.format = kFourccNv12 → p.info.format = kFourccNv12
  copy : 7 < a.looking.rank → a.candidate.ptsMicros = p.info.ptsMicros ∧
    a.candidate.format = kFourccNv12 ∧ a.dst = p.pixels.take a.dst.length ∧
      a.dst.length ≤ a.candidate.bytesUsed

/-- An attempt after the load of the sequence of its slot: while the sequence is the same, and has
not started again, the slot holds the frame that the attempt loads. -/
structure Watched (s : Shared) (a : Attempt) : Prop where
  even : a.before % 2 = 0
  restarts : a.restarts ≤ s.restarts (slotIndex (a.seq - 1))
  le : s.restarts (slotIndex (a.seq - 1)) = a.restarts → a.before ≤ (s.slotAt a.seq).slotSeq
  same : s.restarts (slotIndex (a.seq - 1)) = a.restarts → (s.slotAt a.seq).slotSeq = a.before →
    (a.looking = .loadBytesUsed ∧ (s.slotAt a.seq).slotBytesUsed = 0) ∨
      ∃ p ∈ s.content (slotIndex (a.seq - 1)),
        p.generation = a.generation ∧ p.info.writeSeq = a.seq ∧ Loaded a p

/-- An attempt after the load of `writeSeq`. -/
structure Underway (s : Shared) (a : Attempt) : Prop where
  after : ∀ r ∈ s.reads, r.generation = a.generation → r.info.writeSeq ≤ a.seq
  watched : 1 < a.looking.rank → Watched s a

/-- A frame in flight; what is left of its stores completes its slot. -/
structure Filling (h : RingHeader) (content : Fin 4 → Option Publication) (f : Frame) (seq : ℕ)
    (todo : List SlotStore) : Prop where
  seq_eq : seq = h.writeSeq
  content : content (slotIndex seq) = none
  holds : Holds (todo.foldl SlotStore.put (h.slots (slotIndex seq))) (f.infoOf seq) f.src

def Writing.fits (h : RingHeader) (content : Fin 4 → Option Publication) (f : Frame) :
    Writing → Prop
  | .loadSlotSeq seq | .markOdd seq _ => seq = h.writeSeq
  | .fill seq _ todo =>
    Filling h content f seq todo ∧ (h.slots (slotIndex seq)).slotSeq % 2 = 1
  | .reloadGeneration seq _ | .markEven seq _ | .compare seq _ | .republish seq _ |
    .storeSeq seq => Filling h content f seq []
  | _ => True

/-- `resetPublishedFrames` begins a slot with its sequence. -/
def Word.before : Word → Word → Prop
  | .slot k _, .slotSeq k' => k ≠ k'
  | _, _ => True

/-- `resetPublishedFrames` leaves no bytes in a slot. -/
def Word.empties : Word → Prop
  | .slot _ (.bytesUsed v) => v = 0
  | _ => True

instance (w w' : Word) : Decidable (w.before w') := by
  unfold Word.before
  split <;> infer_instance

instance (w : Word) : Decidable w.empties := by
  unfold Word.empties
  split <;> infer_instance

def Block.fits (h : RingHeader) (content : Fin 4 → Option Publication) : Block → Prop
  | .writeFrame f w => f.src.length ≠ 0 ∧ w.fits h content f
  | .create (.reset todo) =>
    todo.Pairwise Word.before ∧ (∀ k, .slotSeq k ∉ todo → content k = none) ∧
      ∀ word ∈ todo, word.empties
  | .create _ => True

/-- **The invariant.** -/
structure Inv (s : Shared) : Prop extends Faithful s.published s.reads where
  slots : ∀ k, ∀ p ∈ s.content k, p ∈ s.published ∧ Holds (s.ring.slots k) p.info p.pixels
  counted : ∀ p ∈ s.published, p.generation ≤ s.generation ∧
    (p.generation = s.generation → p.info.writeSeq ≤ s.ring.writeSeq)
  block : ∀ b ∈ s.held, b.fits s.ring s.content
  attempt : ∀ a ∈ s.reader, 0 < a.looking.rank → Underway s a

/-- A step of a block, as an attempt of the reader sees it. -/
structure Later (s s' : Shared) : Prop where
  reader : s'.reader = s.reader
  reads : s'.reads = s.reads
  restarts : ∀ k, s.restarts k ≤ s'.restarts k
  le : ∀ k, s'.restarts k = s.restarts k → (s.ring.slots k).slotSeq ≤ (s'.ring.slots k).slotSeq
  content : ∀ k, s'.restarts k = s.restarts k →
    (s'.ring.slots k).slotSeq = (s.ring.slots k).slotSeq → ∀ p ∈ s.content k, p ∈ s'.content k
  bytesUsed : ∀ k, s'.restarts k = s.restarts k →
    (s'.ring.slots k).slotSeq = (s.ring.slots k).slotSeq → (s.ring.slots k).slotSeq % 2 = 0 →
      (s.ring.slots k).slotBytesUsed = 0 → (s'.ring.slots k).slotBytesUsed = 0

section Steps
variable {s s' : Shared} {a : Attempt} {f : Frame} {seq : ℕ} {k : Fin 4}

theorem Watched.later (h : Watched s a) (hl : Later s s') : Watched s' a := by
  set k := slotIndex (a.seq - 1) with hk
  have hrestarts := hl.restarts k
  -- The attempt cannot see a restart before this step or in it.
  have hback (heq : s'.restarts k = a.restarts) :
      s.restarts k = a.restarts ∧ s'.restarts k = s.restarts k := by
    have hold : a.restarts ≤ s.restarts k := h.restarts
    omega
  refine ⟨h.even, h.restarts.trans hrestarts, fun heq => ?_, fun heq hseq => ?_⟩
  · obtain ⟨hold, hnew⟩ := hback heq
    exact (h.le hold).trans (hl.le k hnew)
  · obtain ⟨hold, hnew⟩ := hback heq
    have hseq' : (s.ring.slots k).slotSeq = a.before :=
      Nat.le_antisymm ((hl.le k hnew).trans_eq hseq) (h.le hold)
    have hstay : (s'.ring.slots k).slotSeq = (s.ring.slots k).slotSeq := hseq.trans hseq'.symm
    rcases h.same hold hseq' with ⟨hlooking, hbytes⟩ | ⟨p, hp, hrest⟩
    · have heven : (s.ring.slots k).slotSeq % 2 = 0 := by rw [hseq']; exact h.even
      exact .inl ⟨hlooking, hl.bytesUsed k hnew hstay heven hbytes⟩
    · exact .inr ⟨p, hl.content k hnew hstay p hp, hrest⟩

theorem Underway.later (h : Underway s a) (hl : Later s s') : Underway s' a :=
  ⟨fun r hr => h.after r (by rw [← hl.reads]; exact hr), fun hrank => (h.watched hrank).later hl⟩

/-- A step that leaves the slots. -/
theorem later_of_eq (hreader : s'.reader = s.reader) (hreads : s'.reads = s.reads)
    (hrestarts : s'.restarts = s.restarts) (hslots : s'.ring.slots = s.ring.slots)
    (hcontent : s'.content = s.content) : Later s s' := by
  refine ⟨hreader, hreads, fun k => ?_, fun k _ => ?_, fun k _ _ p hp => ?_, fun k _ _ _ hb => ?_⟩
  · rw [hrestarts]
  · rw [hslots]
  · rw [hcontent]; exact hp
  · rw [hslots]; exact hb

theorem later_storeSlotSeq (s : Shared) (k : Fin 4) (v : ℕ) : Later s (s.storeSlotSeq k v) := by
  set q := (s.ring.slots k).slotSeq with hq
  have hrestarts (j : Fin 4) : s.restarts j ≤ (s.storeSlotSeq k v).restarts j := by
    unfold Shared.storeSlotSeq
    dsimp only
    split_ifs
    · rcases eq_or_ne j k with rfl | hj
      · rw [Function.update_self]; omega
      · rw [Function.update_of_ne hj]
    · exact le_rfl
  have hup (hsame : (s.storeSlotSeq k v).restarts k = s.restarts k) : q < v := by
    by_contra hle
    unfold Shared.storeSlotSeq at hsame
    dsimp only at hsame
    rw [if_pos (by omega), Function.update_self] at hsame
    omega
  have hself : ((s.storeSlotSeq k v).ring.slots k).slotSeq = v := by
    unfold Shared.storeSlotSeq
    simp only [Function.update_self]
  have hother {j : Fin 4} (hj : j ≠ k) :
      (s.storeSlotSeq k v).ring.slots j = s.ring.slots j := Function.update_of_ne hj _ _
  refine ⟨rfl, rfl, hrestarts, fun j hsame => ?_, fun j hsame hseq p hp => ?_,
    fun j hsame hseq heven hb => ?_⟩
  · rcases eq_or_ne j k with rfl | hj
    · rw [hself]; exact (hup hsame).le
    · rw [hother hj]
  · rcases eq_or_ne j k with rfl | hj
    · rw [hself] at hseq; have := hup hsame; omega
    · have hcontent : (s.storeSlotSeq k v).content j = s.content j := Function.update_of_ne hj _ _
      rw [hcontent]; exact hp
  · rcases eq_or_ne j k with rfl | hj
    · rw [hself] at hseq; have := hup hsame; omega
    · rw [hother hj]; exact hb

/-- A store to a slot that is in flight or empty. -/
theorem later_storeSlot (store : SlotStore)
    (hbytes : (s.ring.slots k).slotSeq % 2 = 1 ∨
      (store.put (s.ring.slots k)).slotBytesUsed = (s.ring.slots k).slotBytesUsed ∨
      (store.put (s.ring.slots k)).slotBytesUsed = 0) : Later s (s.storeSlot k store) := by
  have hother {j : Fin 4} (hj : j ≠ k) :
      (s.storeSlot k store).ring.slots j = s.ring.slots j := Function.update_of_ne hj _ _
  have hself : (s.storeSlot k store).ring.slots k = store.put (s.ring.slots k) :=
    Function.update_self _ _ _
  refine ⟨rfl, rfl, fun j => le_rfl, fun j _ => ?_, fun j _ _ p hp => hp, fun j _ _ heven hb => ?_⟩
  · rcases eq_or_ne j k with rfl | hj
    · rw [hself, put_slotSeq]
    · rw [hother hj]
  · rcases eq_or_ne j k with rfl | hj
    · rw [hself]
      rcases hbytes with hodd | hsame | hzero
      · omega
      · rw [hsame]; exact hb
      · exact hzero
    · rw [hother hj]; exact hb

/-- A step of a block that publishes nothing. -/
theorem Inv.step (hinv : Inv s) (hl : Later s s') (hpublished : s'.published = s.published)
    (hslots : ∀ k, ∀ p ∈ s'.content k, p ∈ s.content k ∧ Holds (s'.ring.slots k) p.info p.pixels)
    (hcount : s.generation < s'.generation ∨
      s'.generation = s.generation ∧ s.ring.writeSeq ≤ s'.ring.writeSeq)
    (b : Option Block) (hblock : ∀ x ∈ b, x.fits s'.ring s'.content) :
    Inv { s' with held := b } := by
  refine ⟨⟨?_, fun r hr => ?_, ?_⟩, fun k p hp => ?_, fun p hp => ?_, hblock, fun a ha hrank => ?_⟩
  · rw [hpublished]; exact hinv.numbered
  · rw [hpublished]; exact hinv.single r (by rw [← hl.reads]; exact hr)
  · rw [hl.reads]; exact hinv.ordered
  · obtain ⟨hold, hholds⟩ := hslots k p hp
    exact ⟨by rw [hpublished]; exact (hinv.slots k p hold).1, hholds⟩
  · rw [hpublished] at hp
    obtain ⟨hle, hseq⟩ := hinv.counted p hp
    rcases hcount with hlt | ⟨heq, hcount⟩
    · exact ⟨hle.trans hlt.le, fun h => absurd (h.symm.trans_le hle) (Nat.not_le.mpr hlt)⟩
    · exact ⟨hle.trans_eq heq.symm, fun h => (hseq (h.trans heq)).trans hcount⟩
  · have hu := (hinv.attempt a (by rw [← hl.reader]; exact ha) hrank).later hl
    exact ⟨hu.after, fun hw => ⟨(hu.watched hw).even, (hu.watched hw).restarts, (hu.watched hw).le,
      (hu.watched hw).same⟩⟩

/-- A step of a block that stores nothing but its place, or words of the header beside the slots
and the count. -/
theorem Inv.goto (hinv : Inv s) {h : RingHeader} (hslots : h.slots = s.ring.slots)
    (hseq : h.writeSeq = s.ring.writeSeq) (b : Option Block)
    (hblock : ∀ x ∈ b, x.fits h s.content) : Inv { s with ring := h, held := b } := by
  have hl : Later s { s with ring := h } := later_of_eq rfl rfl rfl hslots rfl
  refine hinv.step hl rfl (fun k p hp => ⟨hp, ?_⟩) (.inr ⟨rfl, hseq.ge⟩) b hblock
  rw [hslots]
  exact (hinv.slots k p hp).2

theorem writingSeq_odd (q : ℕ) : RingHeader.writingSeq q % 2 = 1 := by
  unfold RingHeader.writingSeq u64
  split_ifs with hodd <;> omega

/-- The slots stay in order if one of them is stored to that holds no frame. -/
theorem Inv.holds_of_none (hinv : Inv s) (hnone : s.content k = none)
    (hother : ∀ j, j ≠ k → s'.ring.slots j = s.ring.slots j) (hcontent : s'.content = s.content)
    (j : Fin 4) (p : Publication) (hp : p ∈ s'.content j) :
    p ∈ s.content j ∧ Holds (s'.ring.slots j) p.info p.pixels := by
  rw [hcontent] at hp
  have hj : j ≠ k := by
    rintro rfl
    rw [hnone] at hp
    cases hp
  rw [hother j hj]
  exact ⟨hp, (hinv.slots j p hp).2⟩

theorem Inv.holds_storeSlotSeq (hinv : Inv s) (v : ℕ) (j : Fin 4) (p : Publication)
    (hp : p ∈ (s.storeSlotSeq k v).content j) :
    p ∈ s.content j ∧ Holds ((s.storeSlotSeq k v).ring.slots j) p.info p.pixels := by
  have hj : j ≠ k := by
    rintro rfl
    have hnone : (s.storeSlotSeq j v).content j = none := Function.update_self _ _ _
    rw [hnone] at hp
    cases hp
  have hcontent : (s.storeSlotSeq k v).content j = s.content j := Function.update_of_ne hj _ _
  have hslot : (s.storeSlotSeq k v).ring.slots j = s.ring.slots j := Function.update_of_ne hj _ _
  rw [hcontent] at hp
  rw [hslot]
  exact ⟨hp, (hinv.slots j p hp).2⟩

theorem Filling.header {h h' : RingHeader} {content : Fin 4 → Option Publication}
    {todo : List SlotStore} (hfill : Filling h content f seq todo) (hslots : h'.slots = h.slots)
    (hseq : h'.writeSeq = h.writeSeq) : Filling h' content f seq todo :=
  ⟨hfill.seq_eq.trans hseq.symm, hfill.content, by rw [hslots]; exact hfill.holds⟩

/-- The store of a byte or a field of a frame in flight. -/
theorem Inv.fill (hinv : Inv s) {writing : ℕ} {store : SlotStore} {todo : List SlotStore}
    (hheld : s.held = some (.writeFrame f (.fill seq writing (store :: todo)))) :
    Inv ((s.storeSlot (slotIndex seq) store).gotoWrite f (.fill seq writing todo)) := by
  obtain ⟨hsrc, hfill, hodd⟩ := hinv.block _ hheld
  have hself : (s.storeSlot (slotIndex seq) store).ring.slots (slotIndex seq) =
      store.put (s.ring.slots (slotIndex seq)) := Function.update_self _ _ _
  refine hinv.step (later_storeSlot store (.inl hodd)) rfl
    (hinv.holds_of_none hfill.content (fun j hj => Function.update_of_ne hj _ _) rfl)
    (.inr ⟨rfl, le_rfl⟩) _ fun b hb => ?_
  obtain rfl := Option.some.inj hb
  refine ⟨hsrc, ⟨hfill.seq_eq, hfill.content, ?_⟩, ?_⟩
  · rw [hself]; exact hfill.holds
  · rw [hself, put_slotSeq]; exact hodd

/-- The frame is counted, and may be read from its slot. -/
theorem Inv.publish (hinv : Inv s) (hheld : s.held = some (.writeFrame f (.storeSeq seq)))
    (hcounts : seq + 1 < 2 ^ 64) : Inv (s.publish f seq).release := by
  obtain ⟨hsrc, hfill⟩ := hinv.block _ hheld
  set k := slotIndex seq with hk
  set p : Publication := ⟨s.generation, f.infoOf seq, f.src⟩ with hp
  have hnumber : u64 (seq + 1) = s.ring.writeSeq + 1 := by
    rw [hfill.seq_eq] at hcounts ⊢
    exact Nat.mod_eq_of_lt hcounts
  have hpseq : p.info.writeSeq = s.ring.writeSeq + 1 := hnumber
  have hnone (x : Publication) : x ∉ s.content k := by
    intro hx
    rw [hfill.content] at hx
    cases hx
  have hsub {x : Publication} (hx : x ∈ s.published) : x ∈ s.published ++ [p] :=
    List.mem_append_left _ hx
  refine ⟨⟨?_, fun r hr => hsub (hinv.single r hr), hinv.ordered⟩, fun j x hx => ?_,
    fun x hx => ?_, fun b hb => (by cases hb), fun a ha hrank => ?_⟩
  · refine List.pairwise_append.mpr ⟨hinv.numbered, List.pairwise_singleton _ _, ?_⟩
    rintro x hx y hy hgen
    obtain rfl := List.mem_singleton.mp hy
    rw [hpseq]
    exact Nat.lt_succ_of_le ((hinv.counted x hx).2 hgen)
  · rcases eq_or_ne j k with rfl | hj
    · have hself : (s.publish f seq).content k = some p := Function.update_self _ _ _
      obtain rfl : x = p := Option.some.inj (hx.symm.trans hself)
      exact ⟨List.mem_append_right _ (List.mem_singleton.mpr rfl), hfill.holds⟩
    · have hcontent : (s.publish f seq).content j = s.content j := Function.update_of_ne hj _ _
      have hx' : x ∈ s.content j := hcontent ▸ hx
      exact ⟨hsub (hinv.slots j x hx').1, (hinv.slots j x hx').2⟩
  · have hwrite : (s.publish f seq).release.ring.writeSeq = s.ring.writeSeq + 1 := hnumber
    rw [hwrite]
    rcases List.mem_append.mp hx with hx | hx
    · exact ⟨(hinv.counted x hx).1, fun hgen => ((hinv.counted x hx).2 hgen).trans (Nat.le_succ _)⟩
    · obtain rfl := List.mem_singleton.mp hx
      exact ⟨le_rfl, fun _ => hpseq.le⟩
  · have hu := hinv.attempt a ha hrank
    have hl : Later s (s.publish f seq).release := by
      refine ⟨rfl, rfl, fun j => le_rfl, fun j _ => le_rfl, fun j _ _ x hx => ?_,
        fun j _ _ _ hb => hb⟩
      have hj : j ≠ k := by rintro rfl; exact hnone x hx
      have hcontent : (s.publish f seq).content j = s.content j := Function.update_of_ne hj _ _
      exact hcontent.symm ▸ hx
    exact hu.later hl

theorem Inv.writeNext (hinv : Inv s) {w : Writing} (hheld : s.held = some (.writeFrame f w))
    (hcounts : (Block.writeFrame f w).counts) : Inv (s.writeNext f w) := by
  obtain ⟨hsrc, hfits⟩ := hinv.block _ hheld
  have hrelease : Inv s.release := hinv.goto rfl rfl none fun b hb => (by cases hb)
  have hgoto {h : RingHeader} (w' : Writing) (hslots : h.slots = s.ring.slots)
      (hseq : h.writeSeq = s.ring.writeSeq) (hw : w'.fits h s.content f) :
      Inv { s with ring := h, held := some (.writeFrame f w') } :=
    hinv.goto hslots hseq _ fun b hb => by
      obtain rfl := Option.some.inj hb
      exact ⟨hsrc, hw⟩
  cases w with
  | loadMagic =>
    simp only [Shared.writeNext]
    split_ifs
    · exact hrelease
    · exact hgoto .loadCount rfl rfl trivial
  | loadCount =>
    simp only [Shared.writeNext]
    split_ifs
    · exact hrelease
    · exact hgoto .loadGeneration rfl rfl trivial
  | loadGeneration =>
    simp only [Shared.writeNext]
    split_ifs
    · exact hrelease
    · exact hgoto .loadWriteSeq rfl rfl trivial
  | loadWriteSeq => exact hgoto (.loadSlotSeq s.ring.writeSeq) rfl rfl rfl
  | loadSlotSeq seq => exact hgoto (.markOdd seq _) rfl rfl hfits
  | markOdd seq slotSeq =>
    refine hinv.step (later_storeSlotSeq s _ _) rfl (hinv.holds_storeSlotSeq _)
      (.inr ⟨rfl, le_rfl⟩) _ fun b hb => ?_
    obtain rfl := Option.some.inj hb
    refine ⟨hsrc, ⟨hfits, Function.update_self _ _ _, f.holds seq _ hsrc⟩, ?_⟩
    simp only [Shared.storeSlotSeq, Function.update_self]
    exact writingSeq_odd slotSeq
  | fill seq writing todo =>
    cases todo with
    | nil =>
      simp only [Shared.writeNext]
      split_ifs
      · exact hrelease
      · exact hgoto (.reloadGeneration seq writing) rfl rfl hfits.1
    | cons store todo => exact hinv.fill hheld
  | reloadGeneration seq writing =>
    simp only [Shared.writeNext]
    split_ifs
    · exact hrelease
    · exact hgoto (.markEven seq writing) rfl rfl hfits
  | markEven seq writing =>
    have hfill : Filling s.ring s.content f seq [] := hfits
    refine hinv.step (later_storeSlotSeq s _ _) rfl (hinv.holds_storeSlotSeq _)
      (.inr ⟨rfl, le_rfl⟩) _ fun b hb => ?_
    obtain rfl := Option.some.inj hb
    refine ⟨hsrc, hfill.seq_eq, Function.update_self _ _ _, ?_⟩
    simp only [Shared.storeSlotSeq, Function.update_self]
    exact hfill.holds.withSeq _
  | compare seq todo =>
    cases todo with
    | nil =>
      have hfill : Filling s.ring s.content f seq [] := hfits
      exact hgoto (.storeSeq seq) rfl rfl (hfill.header rfl rfl)
    | cons g todo =>
      simp only [Shared.writeNext]
      split_ifs
      · exact hgoto (.republish seq _) rfl rfl hfits
      · exact hgoto (.compare seq _) rfl rfl hfits
  | republish seq todo =>
    cases todo with
    | nil =>
      have hfill : Filling s.ring s.content f seq [] := hfits
      exact hgoto (.compare seq []) rfl rfl (hfill.header rfl rfl)
    | cons g todo =>
      have hslots : (g.store s.ring (g.ofInfo f.info)).slots = s.ring.slots := by cases g <;> rfl
      have hseq : (g.store s.ring (g.ofInfo f.info)).writeSeq = s.ring.writeSeq := by
        cases g <;> rfl
      exact hgoto (.republish seq todo) hslots hseq (Filling.header hfits hslots hseq)
  | storeSeq seq => exact hinv.publish hheld hcounts

/-- A step of `resetPublishedFrames`. -/
theorem Inv.clear (hinv : Inv s) {word : Word} {todo : List Word}
    (hheld : s.held = some (.create (.reset (word :: todo)))) :
    Inv ((s.clear word).gotoCreate (.reset todo)) := by
  obtain ⟨hpairwise, hcleared, hzero⟩ := hinv.block _ hheld
  obtain ⟨hbefore, hrest⟩ := List.pairwise_cons.mp hpairwise
  obtain ⟨hword, hzero'⟩ := List.forall_mem_cons.mp hzero
  have htail {k : Fin 4} (hne : word ≠ .slotSeq k) (hk : .slotSeq k ∉ todo) :
      s.content k = none :=
    hcleared k fun hmem => (List.mem_cons.mp hmem).elim (fun h => hne h.symm) hk
  -- Words of the header: the slots stay.
  have hheader {h : RingHeader} (hslots : h.slots = s.ring.slots)
      (hseq : h.writeSeq = s.ring.writeSeq) (hne : ∀ k, word ≠ .slotSeq k) :
      Inv { s with ring := h, held := some (.create (.reset todo)) } :=
    hinv.goto hslots hseq _ fun b hb => by
      obtain rfl := Option.some.inj hb
      exact ⟨hrest, fun k hk => htail (hne k) hk, hzero'⟩
  cases word with
  | formatGeneration | lastWriteQpc | requestedWidth | requestedHeight | requestedFormat |
    requestedGeneration => exact hheader rfl rfl fun k h => (by cases h)
  | geometry g =>
    have hslots : (g.store s.ring 0).slots = s.ring.slots := by cases g <;> rfl
    have hseq : (g.store s.ring 0).writeSeq = s.ring.writeSeq := by cases g <;> rfl
    exact hheader hslots hseq fun k h => (by cases h)
  | writeSeq =>
    have hl : Later s (s.clear .writeSeq) := later_of_eq rfl rfl rfl rfl rfl
    refine hinv.step hl rfl (fun k p hp => ⟨hp, (hinv.slots k p hp).2⟩)
      (.inl (Nat.lt_succ_self _)) _ fun b hb => ?_
    obtain rfl := Option.some.inj hb
    exact ⟨hrest, fun k hk => htail (fun h => (by cases h)) hk, hzero'⟩
  | slotSeq k =>
    refine hinv.step (later_storeSlotSeq s k 0) rfl (hinv.holds_storeSlotSeq 0)
      (.inr ⟨rfl, le_rfl⟩) _ fun b hb => ?_
    obtain rfl := Option.some.inj hb
    refine ⟨hrest, fun j hj => ?_, hzero'⟩
    rcases eq_or_ne j k with rfl | hne
    · exact Function.update_self _ _ _
    · have hstay : (s.storeSlotSeq k 0).content j = s.content j := Function.update_of_ne hne _ _
      exact hstay.trans (htail (fun h => hne (Word.slotSeq.inj h).symm) hj)
  | slot k store =>
    have hnone : s.content k = none :=
      htail (fun h => (by cases h)) fun hmem => hbefore _ hmem rfl
    have hbytes : (store.put (s.ring.slots k)).slotBytesUsed = (s.ring.slots k).slotBytesUsed ∨
        (store.put (s.ring.slots k)).slotBytesUsed = 0 := by
      cases store with
      | bytesUsed v => exact .inr hword
      | byte | pts | width | height | stride => exact .inl rfl
    refine hinv.step (later_storeSlot store (.inr hbytes)) rfl
      (hinv.holds_of_none hnone (fun j hj => Function.update_of_ne hj _ _) rfl)
      (.inr ⟨rfl, le_rfl⟩) _ fun b hb => ?_
    obtain rfl := Option.some.inj hb
    exact ⟨hrest, fun j hj => htail (fun h => (by cases h)) hj, hzero'⟩

/-- The reset stores to every slot, its sequence first. -/
theorem reset_fits (h : RingHeader) (content : Fin 4 → Option Publication) :
    (Block.create (.reset (resetPublishedFrames ++ resetRequested))).fits h content := by
  have hall : ∀ k, .slotSeq k ∈ resetPublishedFrames ++ resetRequested := by decide
  exact ⟨by decide, fun k hk => absurd (hall k) hk, by decide⟩

theorem Inv.createNext (hinv : Inv s) {c : Creating} (hheld : s.held = some (.create c)) :
    Inv (s.createNext c) := by
  have hfits := hinv.block _ hheld
  have hrelease : Inv s.release := hinv.goto rfl rfl none fun b hb => (by cases hb)
  have hgoto (h : RingHeader) (c' : Creating) (hslots : h.slots = s.ring.slots)
      (hseq : h.writeSeq = s.ring.writeSeq) (hc : (Block.create c').fits h s.content) :
      Inv { s with ring := h, held := some (.create c') } :=
    hinv.goto hslots hseq _ fun b hb => by
      obtain rfl := Option.some.inj hb
      exact hc
  cases c with
  | loadMagic =>
    simp only [Shared.createNext]
    split_ifs
    · exact hrelease
    · exact hgoto s.ring .loadCount rfl rfl trivial
  | loadCount =>
    simp only [Shared.createNext]
    split_ifs
    · exact hgoto s.ring .bumpGeneration rfl rfl trivial
    · exact hrelease
    · exact hgoto s.ring (.attach _) rfl rfl trivial
  | bumpGeneration =>
    simp only [Shared.createNext]
    split_ifs
    · exact hgoto { s.ring with consumerGeneration := u32 (s.ring.consumerGeneration + 1) }
        .skipZero rfl rfl trivial
    · exact hgoto { s.ring with consumerGeneration := u32 (s.ring.consumerGeneration + 1) }
        (.reset _) rfl rfl (reset_fits _ _)
  | skipZero =>
    exact hgoto { s.ring with consumerGeneration := 1 } (.reset _) rfl rfl (reset_fits _ _)
  | reset todo =>
    cases todo with
    | nil =>
      exact hinv.goto (h := { s.ring with consumerCount := 1 }) rfl rfl none fun b hb =>
        (by cases hb)
    | cons word todo => exact hinv.clear hheld
  | attach count =>
    exact hinv.goto (h := { s.ring with consumerCount := count + 1 }) rfl rfl none fun b hb =>
      (by cases hb)

theorem Block.fits.header {b : Block} {h h' : RingHeader} {content : Fin 4 → Option Publication}
    (hb : b.fits h content) (hslots : h'.slots = h.slots) (hseq : h'.writeSeq = h.writeSeq) :
    b.fits h' content := by
  cases b with
  | create c => cases c <;> exact hb
  | writeFrame f w =>
    obtain ⟨hsrc, hw⟩ := hb
    refine ⟨hsrc, ?_⟩
    cases w with
    | loadMagic | loadCount | loadGeneration | loadWriteSeq => trivial
    | loadSlotSeq seq | markOdd seq slotSeq => exact hw.trans hseq.symm
    | fill seq writing todo => exact ⟨hw.1.header hslots hseq, by rw [hslots]; exact hw.2⟩
    | reloadGeneration seq writing | markEven seq writing => exact Filling.header hw hslots hseq
    | compare seq todo | republish seq todo => exact Filling.header hw hslots hseq
    | storeSeq seq => exact Filling.header hw hslots hseq

/-! ### The reader -/

theorem Inv.reader (hinv : Inv s) (o : Option Attempt)
    (ho : ∀ a ∈ o, 0 < a.looking.rank → Underway s a) : Inv { s with reader := o } := by
  refine ⟨hinv.toFaithful, hinv.slots, hinv.counted, hinv.block, fun a ha hrank => ?_⟩
  have hu := ho a ha hrank
  exact ⟨hu.after, fun hw => ⟨(hu.watched hw).even, (hu.watched hw).restarts, (hu.watched hw).le,
    (hu.watched hw).same⟩⟩

theorem Inv.done (hinv : Inv s) : Inv { s with reader := none } :=
  hinv.reader none fun a ha => (by cases ha)

/-- The next attempt has loaded nothing. -/
theorem Inv.retry (hinv : Inv s) (a : Attempt) : Inv { s with reader := Shared.retry a } := by
  refine hinv.reader _ fun b hb hrank => ?_
  unfold Shared.retry at hb
  split_ifs at hb
  · obtain rfl := Option.some.inj hb
    exact absurd hrank (lt_irrefl _)
  · cases hb

/-- A load of an attempt, from the frame that its slot holds if the slot is still the same. -/
theorem Inv.load (hinv : Inv s) (hreader : s.reader = some a) (hrank : 1 < a.looking.rank)
    (hbytes : a.looking = .loadBytesUsed → (s.slotAt a.seq).slotBytesUsed ≠ 0) {a' : Attempt}
    (hseq : a'.seq = a.seq) (hbefore : a'.before = a.before) (hrestarts : a'.restarts = a.restarts)
    (hgeneration : a'.generation = a.generation)
    (hloaded : ∀ p ∈ s.content (slotIndex (a.seq - 1)), p.info.writeSeq = a.seq →
      (s.slotAt a.seq).slotSeq = a.before → Holds (s.slotAt a.seq) p.info p.pixels →
      Loaded a p → Loaded a' p) : Inv { s with reader := some a' } := by
  refine hinv.reader _ fun b hb _ => ?_
  obtain rfl := Option.some.inj hb
  have hu := hinv.attempt a hreader (by omega)
  have hw := hu.watched hrank
  refine ⟨fun r hr hgen => ?_, fun _ => ?_⟩
  · rw [hseq]
    exact hu.after r hr (hgen.trans hgeneration)
  · constructor
    · rw [hbefore]; exact hw.even
    · rw [hrestarts, hseq]; exact hw.restarts
    · rw [hrestarts, hseq, hbefore]; exact hw.le
    · rw [hrestarts, hseq, hbefore]
      intro hre hsame
      rcases hw.same hre hsame with ⟨hlooking, hzero⟩ | ⟨p, hp, hgen, hnumber, hold⟩
      · exact absurd hzero (hbytes hlooking)
      · refine .inr ⟨p, hp, hgen.trans hgeneration.symm, hnumber, ?_⟩
        exact hloaded p hp hnumber hsame (hinv.slots _ p hp).2 hold

theorem info_ext {i j : FrameInfo} (hwidth : i.width = j.width) (hheight : i.height = j.height)
    (hstride : i.stride = j.stride) (hformat : i.format = j.format)
    (hpts : i.ptsMicros = j.ptsMicros) (hseq : i.writeSeq = j.writeSeq)
    (hbytes : i.bytesUsed = j.bytesUsed) : i = j := by
  cases i
  cases j
  simp only [FrameInfo.mk.injEq]
  exact ⟨hwidth, hheight, hstride, hformat, hpts, hseq, hbytes⟩

/-- What is returned is the frame in the slot. -/
theorem Inv.accept (hinv : Inv s) (hreader : s.reader = some a) (hlooking : a.looking = .copy)
    (hfull : a.candidate.bytesUsed ≤ a.dst.length) (hsame : (s.slotAt a.seq).slotSeq = a.before)
    (hrestarts : s.restarts (slotIndex (a.seq - 1)) = a.restarts) :
    Inv { s with
      reader := none
      reads := s.reads ++ [⟨(s.content (slotIndex (a.seq - 1))).elim 0 Publication.generation,
        a.candidate, a.dst⟩] } := by
  have hrank : a.looking.rank = 8 := by rw [hlooking]; rfl
  have hu := hinv.attempt a hreader (by omega)
  rcases (hu.watched (by omega)).same hrestarts hsame with ⟨h, -⟩ | ⟨p, hp, hgen, hnumber, hl⟩
  · rw [hlooking] at h
    cases h
  obtain ⟨hpub, hholds⟩ := hinv.slots _ p hp
  obtain ⟨hbytes, hwrite⟩ := hl.bytesUsed (by omega)
  obtain ⟨hpts, hformat, hdst, hle⟩ := hl.copy (by omega)
  have hinfo : a.candidate = p.info :=
    info_ext (hl.width (by omega)) (hl.height (by omega)) (hl.stride (by omega))
      (hformat.trans (hl.format (by omega) hformat).symm) hpts hwrite hbytes
  have hpixels : a.dst = p.pixels := by
    have hlen := hholds.length
    rw [hdst]
    exact List.take_of_length_le (by omega)
  have hread : (⟨(s.content (slotIndex (a.seq - 1))).elim 0 Publication.generation, a.candidate,
      a.dst⟩ : Publication) = p := by
    rw [show s.content (slotIndex (a.seq - 1)) = some p from hp, hinfo, hpixels]
    rfl
  rw [hread]
  refine ⟨⟨hinv.numbered, fun r hr => ?_, ?_⟩, hinv.slots, hinv.counted, hinv.block,
    fun b hb => (by cases hb)⟩
  · rcases List.mem_append.mp hr with hr | hr
    · exact hinv.single r hr
    · obtain rfl := List.mem_singleton.mp hr
      exact hpub
  · refine List.pairwise_append.mpr ⟨hinv.ordered, List.pairwise_singleton _ _, ?_⟩
    rintro r hr q hq hsamegen
    obtain rfl := List.mem_singleton.mp hq
    rw [hnumber]
    exact hu.after r hr (hsamegen.trans hgen)

theorem getD_eq {p pixels : List UInt8} {j : ℕ} (h : pixels.take p.length = p) (hj : j < p.length) :
    pixels.getD j 0 = p.getD j 0 := by
  rw [List.getD_eq_getElem?_getD, List.getD_eq_getElem?_getD, ← h, List.getElem?_take_of_lt hj]

/-- The next byte of the copy. -/
theorem Inv.copy (hinv : Inv s) (hreader : s.reader = some a) (hlooking : a.looking = .copy)
    (hmore : a.dst.length < a.candidate.bytesUsed) :
    Inv { s with
      reader := some
        { a with
          dst := a.dst ++ [(s.slotAt a.seq).pixels.getD a.dst.length 0]
          looking := .copy } } := by
  have hrank : a.looking.rank = 8 := by rw [hlooking]; rfl
  refine hinv.load hreader (by omega) (fun h => (by rw [hlooking] at h; cases h)) rfl rfl rfl rfl
    fun p hp hnumber hsame hholds hl => ?_
  obtain ⟨hbytes, -⟩ := hl.bytesUsed (by omega)
  obtain ⟨hpts, hformat, hdst, hle⟩ := hl.copy (by omega)
  have hlen := hholds.length
  have hj : a.dst.length < p.pixels.length := by omega
  refine ⟨fun _ => hl.bytesUsed (by omega), fun _ => hl.width (by omega),
    fun _ => hl.height (by omega), fun _ => hl.stride (by omega), fun _ => hl.format (by omega),
    fun _ => ⟨hpts, hformat, ?_, ?_⟩⟩
  · rw [getD_eq hholds.pixels hj, List.getD_eq_getElem _ _ hj]
    simp only [List.length_append, List.length_singleton]
    rw [List.take_succ_eq_append_getElem hj, ← hdst]
  · simp only [List.length_append, List.length_singleton]
    exact hmore

theorem format_of_sane {info : FrameInfo} (h : geometryIsSane info = true) :
    info.format = kFourccNv12 := by
  unfold geometryIsSane at h
  by_contra hne
  split_ifs at h

theorem Inv.lookNext (hinv : Inv s) (hreader : s.reader = some a) (htimely : s.timelyLook a) :
    Inv (s.lookNext a) := by
  unfold Shared.lookNext
  unfold Shared.timelyLook at htimely
  cases hlooking : a.looking with
  | loadSeq =>
    dsimp only
    split_ifs
    · exact hinv.done
    · refine hinv.reader _ fun b hb _ => ?_
      obtain rfl := Option.some.inj hb
      exact ⟨fun r hr hgen => (hinv.counted r (hinv.single r hr)).2 hgen,
        fun h => absurd h (lt_irrefl _)⟩
  | loadSlotSeq =>
    rw [hlooking] at htimely
    dsimp only
    split_ifs with hodd
    · exact hinv.retry a
    · refine hinv.reader _ fun b hb _ => ?_
      obtain rfl := Option.some.inj hb
      have hu := hinv.attempt a hreader (by rw [hlooking]; decide)
      have heven : (s.slotAt a.seq).slotSeq % 2 = 0 := by omega
      refine ⟨hu.after, fun _ => ⟨heven, le_rfl, fun _ => le_rfl, fun _ _ => ?_⟩⟩
      by_cases hbytes : (s.slotAt a.seq).slotBytesUsed = 0
      · exact .inl ⟨rfl, hbytes⟩
      · obtain ⟨p, hp, hgen, hnumber⟩ := htimely heven hbytes
        refine .inr ⟨p, hp, hgen, hnumber, ?_⟩
        constructor <;> exact fun h => (by dsimp only [Looking.rank] at h; omega)
  | loadBytesUsed =>
    dsimp only
    split_ifs with hbytes
    · exact hinv.retry a
    · exact hinv.done
    · refine hinv.load hreader (by rw [hlooking]; decide) (fun _ h => hbytes (.inl h))
        rfl rfl rfl rfl fun p hp hnumber hsame hholds hl =>
          ⟨fun _ => ⟨hholds.bytesUsed, hnumber.symm⟩, ?_, ?_, ?_, ?_, ?_⟩ <;>
      exact fun h => (by dsimp only [Looking.rank] at h; omega)
  | loadWidth =>
    have hrank : a.looking.rank = 3 := by rw [hlooking]; rfl
    refine hinv.load hreader (by omega) (fun h => (by rw [hlooking] at h; cases h))
      rfl rfl rfl rfl fun p hp hnumber hsame hholds hl =>
        ⟨fun _ => hl.bytesUsed (by omega), fun _ => hholds.width, ?_, ?_, ?_, ?_⟩ <;>
    exact fun h => (by dsimp only [Looking.rank] at h; omega)
  | loadHeight =>
    have hrank : a.looking.rank = 4 := by rw [hlooking]; rfl
    refine hinv.load hreader (by omega) (fun h => (by rw [hlooking] at h; cases h))
      rfl rfl rfl rfl fun p hp hnumber hsame hholds hl =>
        ⟨fun _ => hl.bytesUsed (by omega),
          fun _ => hl.width (by omega), fun _ => hholds.height, ?_, ?_, ?_⟩ <;>
    exact fun h => (by dsimp only [Looking.rank] at h; omega)
  | loadStride =>
    have hrank : a.looking.rank = 5 := by rw [hlooking]; rfl
    refine hinv.load hreader (by omega) (fun h => (by rw [hlooking] at h; cases h))
      rfl rfl rfl rfl fun p hp hnumber hsame hholds hl =>
        ⟨fun _ => hl.bytesUsed (by omega),
          fun _ => hl.width (by omega),
          fun _ => hl.height (by omega), fun _ => hholds.stride, ?_, ?_⟩ <;>
    exact fun h => (by dsimp only [Looking.rank] at h; omega)
  | loadFormat =>
    have hrank : a.looking.rank = 6 := by rw [hlooking]; rfl
    rw [hlooking] at htimely
    refine hinv.load hreader (by omega) (fun h => (by rw [hlooking] at h; cases h))
      rfl rfl rfl rfl fun p hp hnumber hsame hholds hl =>
        ⟨fun _ => hl.bytesUsed (by omega),
          fun _ => hl.width (by omega),
          fun _ => hl.height (by omega),
          fun _ => hl.stride (by omega),
          fun _ hformat => htimely hsame hformat p hp,
          fun h => (by dsimp only [Looking.rank] at h; omega)⟩
  | loadPts =>
    have hrank : a.looking.rank = 7 := by rw [hlooking]; rfl
    dsimp only
    split_ifs with hsane
    · exact hinv.done
    · have hformat := format_of_sane (Bool.of_not_eq_false fun h => hsane (by rw [h]; rfl))
      exact hinv.load hreader (by omega)
        (fun h => (by rw [hlooking] at h; cases h)) rfl rfl rfl rfl
        fun p hp hnumber hsame hholds hl =>
          ⟨fun _ => hl.bytesUsed (by omega),
            fun _ => hl.width (by omega),
            fun _ => hl.height (by omega),
            fun _ => hl.stride (by omega),
            fun _ => hl.format (by omega),
            fun _ => ⟨hholds.pts, hformat, List.take_zero.symm, Nat.zero_le _⟩⟩
  | copy =>
    rw [hlooking] at htimely
    dsimp only
    split_ifs with hmore hsame
    · exact hinv.copy hreader hlooking hmore
    · exact hinv.retry a
    · have hsame' : (s.slotAt a.seq).slotSeq = a.before := not_not.mp hsame
      exact hinv.accept hreader hlooking (Nat.not_lt.mp hmore) hsame'
        (htimely (Nat.not_lt.mp hmore) hsame')

theorem Inv.next {x : Action} (hinv : Inv s) (henabled : enabled s x) (htimely : timely s x) :
    Inv (next s x) := by
  cases x with
  | openProducer =>
    have hl : Later s { s with producerGeneration := s.ring.consumerGeneration } :=
      later_of_eq rfl rfl rfl rfl rfl
    exact hinv.step hl rfl (fun k p hp => ⟨hp, (hinv.slots k p hp).2⟩) (.inr ⟨rfl, le_rfl⟩) s.held
      hinv.block
  | writeFrame frame =>
    obtain ⟨-, hsrc, -⟩ := henabled
    exact hinv.goto rfl rfl (some (.writeFrame frame .loadMagic)) fun b hb => by
      obtain rfl := Option.some.inj hb
      exact ⟨hsrc.ne', trivial⟩
  | create =>
    exact hinv.goto rfl rfl (some (.create .loadMagic)) fun b hb => by
      obtain rfl := Option.some.inj hb
      trivial
  | close => exact hinv.goto (h := s.ring.closeConsumer) rfl rfl s.held fun b hb =>
      (hinv.block b hb).header rfl rfl
  | block =>
    unfold ReadLatest.next
    cases hheld : s.held with
    | none => exact hinv
    | some b =>
      have hcounts : b.counts := htimely b hheld
      cases b with
      | writeFrame f w => exact hinv.writeNext hheld hcounts
      | create c => exact hinv.createNext hheld
  | readLatest dstCapacity =>
    refine hinv.reader _ fun a ha hrank => ?_
    obtain rfl := Option.some.inj ha
    exact absurd hrank (lt_irrefl _)
  | look =>
    unfold ReadLatest.next
    cases hreader : s.reader with
    | none => exact hinv
    | some a => exact hinv.lookNext hreader (htimely a hreader)

end Steps

theorem inv_init : Inv {} := by
  refine ⟨⟨List.Pairwise.nil, fun r hr => (by cases hr), List.Pairwise.nil⟩, fun k p hp => ?_,
    fun p hp => (by cases hp), fun b hb => (by cases hb), fun a ha => (by cases ha)⟩
  cases hp

/-- **What `readLatest` returns.** In every run that is timely, from a new section with its first
consumer, the calls of `readLatest` return frames of `writeFrame`, with all their fields, and do not
go back in a generation. -/
theorem faithful_of_run (as : List Action) (h : shared.Legal timely {} as) :
    Faithful (shared.exec {} as).published (shared.exec {} as).reads :=
  (h.invariant inv_init fun _ _ hinv henabled htimely => hinv.next henabled htimely).toFaithful

/-! ### Two runs -/

/-- A frame of two by two pixels. -/
def small (b : UInt8) : Frame :=
  { src := List.replicate 6 b, info := { width := 2, height := 2, stride := 2 }, qpc := 0 }

/-- A call of `writeFrame`; the first one stores the geometry. -/
def writing (b : UInt8) (accesses : ℕ) : List Action :=
  .writeFrame (small b) :: List.replicate accesses .block

/-- One frame, a call of `readLatest`, another frame and another call. -/
def inTurn : List Action :=
  .openProducer :: writing 1 28 ++ .readLatest 6 :: List.replicate 15 .look ++ writing 2 26 ++
    .readLatest 6 :: List.replicate 15 .look

theorem faithful_of_inTurn : (shared.exec {} inTurn).reads.length = 2 ∧
    Faithful (shared.exec {} inTurn).published (shared.exec {} inTurn).reads :=
  ⟨by decide +kernel, faithful_of_run inTurn (by decide +kernel)⟩

/-- The reader is overtaken between its first two loads: the fifth frame is in the slot of the first
when it comes there. -/
def overtaken : List Action :=
  .openProducer :: writing 1 28 ++ [.readLatest 6, .look] ++
    (writing 2 26 ++ writing 3 26 ++ writing 4 26 ++ writing 5 26) ++ List.replicate 14 .look ++
      .readLatest 6 :: List.replicate 15 .look

/-- It returns the fifth frame as the first, and then again as the fifth. -/
theorem not_faithful_of_overtaken : shared.Legal (fun _ _ => True) {} overtaken ∧
    (shared.exec {} overtaken).reads.map (fun r => (r.info.writeSeq, r.pixels)) =
      [(1, (small 5).src), (5, (small 5).src)] ∧
    (∃ r ∈ (shared.exec {} overtaken).reads, ∀ p ∈ (shared.exec {} overtaken).published,
      ¬ (p.info = r.info ∧ p.pixels = r.pixels)) ∧
    ¬ Faithful (shared.exec {} overtaken).published (shared.exec {} overtaken).reads := by
  have hmixed : ∃ r ∈ (shared.exec {} overtaken).reads,
      ∀ p ∈ (shared.exec {} overtaken).published, ¬ (p.info = r.info ∧ p.pixels = r.pixels) := by
    decide +kernel
  refine ⟨by decide +kernel, by decide +kernel, hmixed, fun h => ?_⟩
  obtain ⟨r, hr, hnone⟩ := hmixed
  exact hnone r (h.single r hr) ⟨rfl, rfl⟩

end RemoteCam.Ring.ReadLatest
