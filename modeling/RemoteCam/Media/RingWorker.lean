import RemoteCam.Lib.Passing
import RemoteCam.Media.FrameRingSink
import RemoteCam.Media.Picture
import RemoteCam.Ring.ReadLatest

/-! # The worker of the frame ring sink

`FrameRingSink` with its pictures and its status: `publish` on the thread that has the frames,
`start` and `stop` on that of the window, and between them `Impl::run`, the worker that waits for
the copy of a texture, converts it, asks which geometry the camera's consumer wants and writes to
the ring. The ring is the one of `ReadLatest`, access by access, with its other parties.

`pictured_of_run`: what is written to the ring are accepted frames, in order and none twice, each
with the NV12 bytes of its own picture; and every frame that was offered is counted, on its way, or
was forgotten when the slots were made anew. `shown_of_run`: so is what the consumer reads. -/

namespace RemoteCam.Media.RingWorker

open RemoteCam.Lib.Passing RemoteCam.Lib.Transitions RemoteCam.Media.Picture
open RemoteCam.Media.FrameRingSink RemoteCam.Ring
open RemoteCam.Ring.ShmRing (FrameInfo geometryIsSane kFourccNv12 kRingSlotBytes u32)
open RemoteCam.Ring.ReadLatest (Shared Publication Faithful timely)
open RemoteCam.Ring.Fill (Nv12Layout nv12Layout toInt)

def E_POINTER : HRESULT := 0x80004003 - 0x100000000

/-- `HRESULT_FROM_WIN32(ERROR_INSUFFICIENT_BUFFER)`. -/
def insufficientBuffer : HRESULT := 0x8007007A - 0x100000000

/-- `HRESULT_FROM_WIN32(ERROR_FILE_NOT_FOUND)`. -/
def kRingNotFound : HRESULT := 0x80070002 - 0x100000000

/-- `HRESULT_FROM_WIN32(ERROR_ALREADY_EXISTS)`. -/
def kProducerExists : HRESULT := 0x800700B7 - 0x100000000

def hresult : PixelConvert.Result → HRESULT
  | .sOk => S_OK
  | .pointer => E_POINTER
  | .invalidArg => E_INVALIDARG
  | .insufficientBuffer => insufficientBuffer

inductive FrameRingSinkState where
  | stopped
  | waitingForConsumer
  | adaptingGeometry
  | publishing
  | producerConflict
  | failed
  deriving DecidableEq, Repr

structure FrameRingSinkSnapshot where
  state : FrameRingSinkState := .stopped
  width : ℕ := 1920
  height : ℕ := 1080
  publishedFrames : ℕ := 0
  droppedFrames : ℕ := 0
  error : HRESULT := S_OK
  deriving DecidableEq, Repr

structure BgraPreviewFrame where
  pixels : List UInt8
  width : ℕ
  height : ℕ
  stride : ℕ
  ptsMicros : ℕ
  deriving DecidableEq, Repr

/-- A frame with the picture in its texture. -/
structure Taken where
  texels : Texels
  width : ℕ
  height : ℕ
  ptsMicros : ℕ

/-- Where the worker is in `run`. -/
inductive Position where
  /-- There is no thread. -/
  | none
  | starting
  /-- At the head of the loop, or in the wait. -/
  | waiting
  | converting
  | connecting
  | asking
  | publishing
  /-- In `writeFrame`, called when so many frames had been published. -/
  | writing (published : ℕ)
  | ended
  deriving DecidableEq, Repr

def Position.writes : Position → Bool
  | .writing _ => true
  | _ => false

/-- The variables of `run`. -/
structure Locals where
  bgra : List UInt8 := []
  nv12 : List UInt8 := []
  frameWidth : ℕ := 0
  frameHeight : ℕ := 0
  ptsMicros : ℕ := 0

namespace Locals

def layout (l : Locals) : Nv12Layout := nv12Layout (toInt l.frameWidth) (toInt l.frameHeight) 0

def info (l : Locals) : FrameInfo where
  width := l.frameWidth
  height := l.frameHeight
  stride := l.layout.stride
  format := kFourccNv12
  ptsMicros := l.ptsMicros
  bytesUsed := l.nv12.length

end Locals

structure State where
  impl : Impl := {}
  status : FrameRingSinkSnapshot := {}
  desiredWidth : ℕ := 1920
  desiredHeight : ℕ := 1080
  worker : Position := .none
  stopRequested : Bool := false
  /-- The bridge is connected. -/
  connected : Bool := false
  locals : Locals := {}
  ring : Shared := {}
  /-- What the preview observer is given, while there is one. -/
  previews : List BgraPreviewFrame := []
  /-- Ghost: the last frame whose copy to the slot was queued. -/
  staged : Fin kStagingSlots → Taken := fun _ => ⟨fun _ _ _ => 0, 0, 0, 0⟩
  /-- Ghost: the frames for which `publish` returned `S_OK`. -/
  accepted : List Taken := []
  /-- Ghost: the frame that the worker has taken. -/
  hand : Option Taken := none
  /-- Ghost: how often `publish` returned `S_OK` or `S_FALSE`. -/
  offered : ℕ := 0
  /-- Ghost: the pending frames that `configure` and `stop` have cleared. -/
  forgotten : ℕ := 0

namespace State

def transition (s : State) (state : FrameRingSinkState) (error : HRESULT) : State :=
  { s with
    status.state := state
    status.error := error
    status.width := s.desiredWidth
    status.height := s.desiredHeight }

def countDrop (s : State) : State :=
  { s with status.droppedFrames := s.status.droppedFrames + 1 }

def countPublished (s : State) : State :=
  { s with status.publishedFrames := s.status.publishedFrames + 1 }

/-- `countDrop`, `transition` and `continue`. -/
def drop (s : State) (state : FrameRingSinkState) (error : HRESULT) : State :=
  { s.countDrop.transition state error with worker := .waiting, hand := none }

/-- `D3D11CalcSubresource`. -/
def subresource (mip slice levels : ℕ) : ℕ := mip + slice * levels

/-- `contents` are the pictures in the subresources of the texture. -/
def publish (s : State) (frame : TextureFrame) (contents : ℕ → Texels) (d3d : D3d) : State :=
  match supportedFrame frame with
  | none => s
  | some texture =>
    if s.impl.joinable = false then s
    else
      let configured := (configure s.impl frame texture d3d).2
      let (hr, impl) := FrameRingSink.publish s.impl frame d3d
      let s :=
        { s with
          impl
          forgotten := s.forgotten + (s.impl.pending.length - configured.pending.length) }
      if FAILED hr then s.transition .failed hr
      else
        let s := { s with offered := s.offered + 1 }
        match available configured with
        | none => s.countDrop
        | some k =>
          let texels := contents (subresource 0 frame.arraySlice texture.desc.MipLevels)
          let taken : Taken := ⟨texels, frame.width, frame.height, frame.ptsMicros⟩
          { s with
            staged := Function.update s.staged k taken
            accepted := s.accepted ++ [taken] }

def start (s : State) : State :=
  if s.impl.joinable then s
  else
    { s.transition .waitingForConsumer S_OK with
      impl := FrameRingSink.start s.impl
      worker := .starting
      stopRequested := false
      locals := {} }

/-- `stop`, from where the worker has ended. -/
def stop (s : State) : State :=
  { s with
    impl := FrameRingSink.stop s.impl
    worker := .none
    forgotten := s.forgotten + s.impl.pending.length }.transition .stopped S_OK

/-! ### The worker -/

/-- `createVirtualCameraBridge`. -/
def create (s : State) (bridgeHr : HRESULT) : State :=
  if FAILED bridgeHr then { s.transition .failed bridgeHr with worker := .ended }
  else { s with worker := .waiting }

/-- Under `slotsMutex`, with what `GetData` and `Map` answer. -/
def take (s : State) (getData mapHr : HRESULT) (mapped : Mapped) : State :=
  match s.impl.pending with
  | [] => s
  | index :: _ =>
    let taken := { s with impl := FrameRingSink.take s.impl getData }
    if s.impl.context = none ∨ getData = S_FALSE then taken
    else if FAILED getData then taken.drop .failed getData
    else if FAILED mapHr then taken.drop .failed mapHr
    else
      { taken with
        locals :=
          { s.locals with
            bgra := packRows s.locals.bgra mapped s.impl.width s.impl.height
            frameWidth := s.impl.width
            frameHeight := s.impl.height
            ptsMicros := (s.impl.slots index).ptsMicros }
        worker := .converting
        hand := some (s.staged index) }

def convert (s : State) : State :=
  let l := s.locals
  let preview : BgraPreviewFrame :=
    { pixels := l.bgra
      width := l.frameWidth
      height := l.frameHeight
      stride := u32 (l.frameWidth * 4)
      ptsMicros := l.ptsMicros }
  let (result, nv12) :=
    Picture.convert preview.pixels preview.stride l.frameWidth l.frameHeight
      (resize l.nv12 l.layout.totalSize) l.layout.stride
  let s := { s with locals := { l with bgra := [], nv12 }, previews := s.previews ++ [preview] }
  if FAILED (hresult result) then s.drop .failed (hresult result)
  else { s with worker := .connecting }

/-- `open`, where the bridge is not connected. -/
def connect (s : State) (openHr : HRESULT) : State :=
  if s.connected then { s with worker := .asking }
  else if FAILED openHr then
    s.drop (if openHr = kProducerExists then .producerConflict else .waitingForConsumer)
      (if openHr = kRingNotFound then S_OK else openHr)
  else
    { s with
      connected := true
      ring := ReadLatest.next s.ring .openProducer
      worker := .asking }

/-- The geometry that was asked for, where it can be met. -/
def note (s : State) (hr : HRESULT) (width height format : ℕ) : State :=
  if hr = S_OK ∧ format = kFourccNv12 then
    { s with desiredWidth := width, desiredHeight := height }
  else s

/-- `requestedGeometry`, which sets its arguments where it returns `S_OK`. -/
def ask (s : State) (hr : HRESULT) (width height format : ℕ) : State :=
  let l := s.locals
  let (requestedWidth, requestedHeight, requestedFormat) :=
    if hr = S_OK then (width, height, format) else (l.frameWidth, l.frameHeight, kFourccNv12)
  let s := s.note hr requestedWidth requestedHeight requestedFormat
  if requestedFormat ≠ kFourccNv12 ∨ requestedWidth ≠ l.frameWidth ∨
      requestedHeight ≠ l.frameHeight then
    s.drop .adaptingGeometry S_OK
  else { s with worker := .publishing }

/-- What `run` does with the result of `writeFrame`. -/
def finish (s : State) (writeHr : HRESULT) : State :=
  if writeHr = kRingNotFound then
    { s with connected := false }.drop .waitingForConsumer S_OK
  else if FAILED writeHr then s.drop .failed writeHr
  else
    { s.countPublished.transition .publishing S_OK with worker := .waiting, hand := none }

/-- The call of `writeFrame`; `guardHr` is what `lockWriteGuard` returns, and `qpc` the clock at
the end. -/
def write (s : State) (guardHr : HRESULT) (qpc : ℕ) : State :=
  if s.connected = false then s.finish ERROR_INVALID_STATE
  else if s.locals.nv12.length = 0 ∨ s.locals.nv12.length > kRingSlotBytes then
    s.finish E_INVALIDARG
  else if FAILED guardHr then s.finish guardHr
  else
    { s with
      ring := ReadLatest.next s.ring (.writeFrame ⟨s.locals.nv12, s.locals.info, qpc⟩)
      worker := .writing s.ring.published.length }

/-- `writeFrame` returns: it has published the frame, or found the consumer gone. -/
def returned (s : State) (published : ℕ) : State :=
  s.finish (if published < s.ring.published.length then S_OK else kRingNotFound)

/-- The end of `run`. -/
def exit (s : State) : State := { s with connected := false, worker := .ended }

end State

inductive Action where
  | start
  | requestStop
  /-- `stop`, when the worker has ended. -/
  | join
  | publish (frame : TextureFrame) (contents : ℕ → Texels) (d3d : D3d)
  | create (bridgeHr : HRESULT)
  | take (getData mapHr : HRESULT) (mapped : Mapped)
  | convert
  | connect (openHr : HRESULT)
  | ask (hr : HRESULT) (width height format : ℕ)
  | write (guardHr : HRESULT) (qpc : ℕ)
  | returned
  | exit
  /-- A step of `writeFrame`, or of the ring's other parties. -/
  | ring (a : ReadLatest.Action)

def next (s : State) : Action → State
  | .start => s.start
  | .requestStop => { s with stopRequested := true }
  | .join => s.stop
  | .publish frame contents d3d => s.publish frame contents d3d
  | .create bridgeHr => s.create bridgeHr
  | .take getData mapHr mapped => s.take getData mapHr mapped
  | .convert => s.convert
  | .connect openHr => s.connect openHr
  | .ask hr width height format => s.ask hr width height format
  | .write guardHr qpc => s.write guardHr qpc
  | .returned =>
    match s.worker with
    | .writing published => s.returned published
    | _ => s
  | .exit => s.exit
  | .ring a => { s with ring := ReadLatest.next s.ring a }

/-- The copy of the slot is done where `GetData` says so, and `Map` gives the texture with it. -/
def State.Mapped (s : State) (mapped : Picture.Mapped) : Prop :=
  ∀ index ∈ s.impl.pending.head?,
    mapped.Shows (s.staged index).texels (s.staged index).width (s.staged index).height

/-- A call of `writeFrame` is under way in the ring. -/
def Writes (ring : Shared) : Bool :=
  match ring.held with
  | some (.writeFrame _ _) => true
  | _ => false

/-- These the worker calls itself. -/
def Calls : ReadLatest.Action → Bool
  | .openProducer | .writeFrame _ => true
  | _ => false

def enabled (s : State) (a : Action) : Prop :=
  s.impl.crashed = false ∧
  match a with
  | .start | .publish _ _ _ => True
  | .requestStop => s.impl.joinable = true
  | .join => s.impl.joinable = true ∧ s.stopRequested = true ∧ s.worker = .ended
  | .create _ => s.worker = .starting
  | .take getData mapHr mapped =>
    s.worker = .waiting ∧ s.impl.pending ≠ [] ∧
      (¬ FAILED getData → getData ≠ S_FALSE → ¬ FAILED mapHr → s.Mapped mapped)
  | .convert => s.worker = .converting
  | .connect openHr =>
    s.worker = .connecting ∧
      (s.connected = false → ¬ FAILED openHr → ReadLatest.enabled s.ring .openProducer)
  | .ask _ _ _ _ => s.worker = .asking
  | .write guardHr _ => s.worker = .publishing ∧ (¬ FAILED guardHr → s.ring.held = none)
  | .returned => s.worker.writes = true ∧ Writes s.ring = false
  | .exit => s.worker = .waiting ∧ s.stopRequested = true
  | .ring a => Calls a = false ∧ ReadLatest.enabled s.ring a

def sinkAndRing : Machine State Action := ⟨enabled, next⟩

/-- A frame for which the slots are not rebuilt comes after a rebuild that has not failed. -/
def Sound (s : State) : Action → Prop
  | .publish frame _ d3d => FrameRingSink.Sound s.impl (.publish frame d3d)
  | _ => True

instance (s : State) (mapped : Picture.Mapped) : Decidable (s.Mapped mapped) :=
  inferInstanceAs (Decidable (∀ _ ∈ _, _))

instance : ∀ (s : State) (a : Action), Decidable (sinkAndRing.enabled s a)
  | _, .start | _, .requestStop | _, .join | _, .publish _ _ _ | _, .create _ | _, .take _ _ _
  | _, .convert | _, .connect _ | _, .ask _ _ _ _ | _, .write _ _ | _, .returned | _, .exit
  | _, .ring _ => inferInstanceAs (Decidable (_ ∧ _))

instance : ∀ (s : State) (a : Action), Decidable (Sound s a)
  | s, .publish frame _ d3d =>
    inferInstanceAs (Decidable (FrameRingSink.Sound s.impl (.publish frame d3d)))
  | _, .start | _, .requestStop | _, .join | _, .create _ | _, .take _ _ _ | _, .convert
  | _, .connect _ | _, .ask _ _ _ _ | _, .write _ _ | _, .returned | _, .exit | _, .ring _ =>
    .isTrue trivial

/-! ### What is published -/

/-- The publication is the frame in NV12, without padding. -/
structure Carries (p : Publication) (frame : Taken) : Prop where
  info : p.info =
    { width := frame.width
      height := frame.height
      stride := frame.width
      format := kFourccNv12
      ptsMicros := frame.ptsMicros
      writeSeq := p.info.writeSeq
      bytesUsed := frame.height * frame.width + frame.height / 2 * frame.width }
  pixels : p.pixels = frame.texels.nv12 frame.width frame.height

def Previews (preview : BgraPreviewFrame) (frame : Taken) : Prop :=
  preview =
    { pixels := frame.texels.bgra frame.width frame.height
      width := frame.width
      height := frame.height
      stride := frame.width * 4
      ptsMicros := frame.ptsMicros }

/-- The error is one that goes with the state. -/
def Reported (status : FrameRingSinkSnapshot) : Prop :=
  match status.state with
  | .failed => FAILED status.error
  | .producerConflict => status.error = kProducerExists
  | .waitingForConsumer => status.error = S_OK ∨ FAILED status.error
  | .stopped | .adaptingGeometry | .publishing => status.error = S_OK

/-- What holds after every step. -/
structure Pictured (s : State) : Prop where
  /-- The frames of the ring are accepted ones, in order and none twice. -/
  published : List.SublistForall₂ Carries s.ring.published s.accepted
  previewed : List.SublistForall₂ Previews s.previews s.accepted
  sane : ∀ p ∈ s.ring.published, geometryIsSane p.info = true
  /-- No frame is unaccounted for. -/
  accounted : s.status.publishedFrames + s.status.droppedFrames + s.impl.pending.length +
    s.hand.toList.length + s.forgotten = s.offered
  /-- Between the calls of `writeFrame` all of its frames are counted. -/
  counted : (∀ n, s.worker ≠ .writing n) → s.status.publishedFrames = s.ring.published.length
  reported : Reported s.status
  intact : s.impl.crashed = false

/-! ### The invariant -/

/-- The frame in hand, while it is not in the ring. -/
def State.unwritten (s : State) : List Taken :=
  match s.worker with
  | .writing n => if n < s.ring.published.length then [] else s.hand.toList
  | _ => s.hand.toList

def State.unseen (s : State) : List Taken :=
  match s.worker with
  | .converting => s.hand.toList
  | _ => []

def State.queue (s : State) : List Taken := s.impl.pending.map s.staged

/-- The worker has the sizes of the frame. -/
structure Holds (l : Locals) (frame : Taken) : Prop where
  supported : Supported frame.width frame.height
  frameWidth : l.frameWidth = frame.width
  frameHeight : l.frameHeight = frame.height
  ptsMicros : l.ptsMicros = frame.ptsMicros

/-- And its bytes. -/
structure Converted (l : Locals) (frame : Taken) : Prop extends Holds l frame where
  nv12 : l.nv12 = frame.texels.nv12 frame.width frame.height

/-- The call of `writeFrame` is under way with the frame, or has published it, or has given up. -/
def Flight (s : State) (n : ℕ) : Prop :=
  (s.ring.published.length = n ∧
      (Writes s.ring = false ∨
        ∃ qpc w, s.ring.held = some (.writeFrame ⟨s.locals.nv12, s.locals.info, qpc⟩ w))) ∨
    (s.ring.published.length = n + 1 ∧ Writes s.ring = false)

/-- What the worker has, where it is. -/
def Hand (s : State) : Prop :=
  match s.worker with
  | .converting =>
    ∃ frame, s.hand = some frame ∧ Holds s.locals frame ∧
      s.locals.bgra = frame.texels.bgra frame.width frame.height
  | .connecting => ∃ frame, s.hand = some frame ∧ Converted s.locals frame
  | .asking | .publishing | .writing _ =>
    s.connected = true ∧ ∃ frame, s.hand = some frame ∧ Converted s.locals frame
  | .none | .starting | .waiting | .ended => s.hand = none

def Calling (s : State) : Prop :=
  match s.worker with
  | .writing n => Flight s n
  | _ => Writes s.ring = false

/-- The frames that have been counted. -/
def State.counted (s : State) : ℕ :=
  match s.worker with
  | .writing n => n
  | _ => s.ring.published.length

/-- A pending slot has the frame that was staged there. -/
structure Staged (impl : Impl) (frame : Taken) (k : Fin kStagingSlots) : Prop where
  supported : Supported frame.width frame.height
  width_eq : frame.width = impl.width
  height_eq : frame.height = impl.height
  ptsMicros : frame.ptsMicros = (impl.slots k).ptsMicros

structure Inv (s : State) : Prop where
  impl : FrameRingSink.Inv s.impl
  prepared : s.impl.pending ≠ [] →
    ∃ device, Prepared s.impl device s.impl.width s.impl.height
  staged : ∀ k ∈ s.impl.pending, Staged s.impl (s.staged k) k
  supported : ∀ frame ∈ s.accepted, Supported frame.width frame.height
  thread : s.impl.joinable = false → s.worker = .none
  hand : Hand s
  calling : Calling s
  written : Passed Carries s.ring.published s.unwritten s.queue s.accepted
  previewed : Passed Previews s.previews s.unseen s.queue s.accepted
  accounted : s.status.publishedFrames + s.status.droppedFrames + s.impl.pending.length +
    s.hand.toList.length + s.forgotten = s.offered
  counted : s.status.publishedFrames = s.counted
  reported : Reported s.status
  intact : s.impl.crashed = false

/-! ### What the ring does in between -/

section Ring
variable {r : Shared} {f : ReadLatest.Frame}

/-- The access of an attempt changes nothing of the frames. -/
theorem lookNext_frame (r : Shared) (a : ReadLatest.Attempt) :
    (r.lookNext a).published = r.published ∧ (r.lookNext a).held = r.held := by
  unfold Shared.lookNext
  cases a.looking <;> dsimp only <;> (try split_ifs) <;> exact ⟨rfl, rfl⟩

theorem clear_frame (r : Shared) (word : ReadLatest.Word) :
    (r.clear word).published = r.published ∧ (r.clear word).held = r.held := by
  cases word <;> exact ⟨rfl, rfl⟩

/-- A new generation publishes nothing, and its block is not one of `writeFrame`. -/
theorem createNext_frame (r : Shared) (c : ReadLatest.Creating) :
    (r.createNext c).published = r.published ∧ Writes (r.createNext c) = false := by
  cases c with
  | reset todo =>
    cases todo with
    | nil => exact ⟨rfl, rfl⟩
    | cons word todo => exact ⟨(clear_frame r word).1, rfl⟩
  | loadMagic => unfold Shared.createNext; dsimp only; split_ifs <;> exact ⟨rfl, rfl⟩
  | loadCount => unfold Shared.createNext; dsimp only; split_ifs <;> exact ⟨rfl, rfl⟩
  | bumpGeneration => unfold Shared.createNext; dsimp only; split_ifs <;> exact ⟨rfl, rfl⟩
  | skipZero => exact ⟨rfl, rfl⟩
  | attach count => exact ⟨rfl, rfl⟩

/-- **One access of `writeFrame`**: it goes on with the frame, or gives it up, or publishes it. -/
theorem writeNext_cases (r : Shared) (f : ReadLatest.Frame) (w : ReadLatest.Writing) :
    ((r.writeNext f w).published = r.published ∧
        ∃ w', (r.writeNext f w).held = some (.writeFrame f w')) ∨
      ((r.writeNext f w).published = r.published ∧ (r.writeNext f w).held = none) ∨
      ((r.writeNext f w).held = none ∧ ∃ generation seq,
        (r.writeNext f w).published = r.published ++ [⟨generation, f.infoOf seq, f.src⟩]) := by
  cases w with
  | storeSeq seq => exact .inr (.inr ⟨rfl, r.generation, seq, rfl⟩)
  | loadMagic | loadCount | loadGeneration | reloadGeneration seq writing =>
    unfold Shared.writeNext
    dsimp only
    split_ifs
    · exact .inr (.inl ⟨rfl, rfl⟩)
    · exact .inl ⟨rfl, _, rfl⟩
  | loadWriteSeq | loadSlotSeq seq | markOdd seq slotSeq | markEven seq writing =>
    exact .inl ⟨rfl, _, rfl⟩
  | fill seq writing todo =>
    cases todo with
    | cons store todo => exact .inl ⟨rfl, _, rfl⟩
    | nil =>
      unfold Shared.writeNext
      dsimp only
      split_ifs
      · exact .inr (.inl ⟨rfl, rfl⟩)
      · exact .inl ⟨rfl, _, rfl⟩
  | compare seq todo =>
    cases todo with
    | nil => exact .inl ⟨rfl, _, rfl⟩
    | cons g todo =>
      unfold Shared.writeNext
      dsimp only
      split_ifs
      · exact .inl ⟨rfl, _, rfl⟩
      · exact .inl ⟨rfl, _, rfl⟩
  | republish seq todo =>
    cases todo with
    | cons g todo => exact .inl ⟨rfl, _, rfl⟩
    | nil => exact .inl ⟨rfl, _, rfl⟩

theorem writes_eq_false_iff : Writes r = false ↔ ∀ f w, r.held ≠ some (.writeFrame f w) := by
  unfold Writes
  constructor
  · intro h f w hheld
    rw [hheld] at h
    exact Bool.noConfusion h
  · intro h
    split
    · rename_i f w hheld
      exact absurd hheld (h f w)
    · rfl

theorem writes_congr {r r' : Shared} (h : r'.held = r.held) : Writes r' = Writes r := by
  rw [Writes, h, Writes]

/-- A step outside of `writeFrame` publishes nothing and does not call it. -/
theorem next_idle (hidle : Writes r = false) (a : ReadLatest.Action)
    (ha : ∀ frame, a ≠ .writeFrame frame) :
    (ReadLatest.next r a).published = r.published ∧ Writes (ReadLatest.next r a) = false := by
  cases a with
  | openProducer => exact ⟨rfl, hidle⟩
  | writeFrame frame => exact absurd rfl (ha frame)
  | create => exact ⟨rfl, rfl⟩
  | close => exact ⟨rfl, hidle⟩
  | readLatest dstCapacity => exact ⟨rfl, hidle⟩
  | block =>
    unfold ReadLatest.next
    cases hheld : r.held with
    | none => exact ⟨rfl, hidle⟩
    | some b =>
      cases b with
      | writeFrame f w => exact absurd hheld (writes_eq_false_iff.mp hidle f w)
      | create c => exact createNext_frame r c
  | look =>
    unfold ReadLatest.next
    cases hreader : r.reader with
    | none => exact ⟨rfl, hidle⟩
    | some a =>
      obtain ⟨hpublished, hheld⟩ := lookNext_frame r a
      exact ⟨hpublished, (writes_congr hheld).trans hidle⟩

/-- A step while `writeFrame` is under way goes on with it, or ends it. -/
theorem next_writing {w : ReadLatest.Writing} (hheld : r.held = some (.writeFrame f w))
    {a : ReadLatest.Action} (henabled : ReadLatest.enabled r a) :
    ((ReadLatest.next r a).published = r.published ∧
        ((∃ w', (ReadLatest.next r a).held = some (.writeFrame f w')) ∨
          Writes (ReadLatest.next r a) = false)) ∨
      (Writes (ReadLatest.next r a) = false ∧ ∃ generation seq,
        (ReadLatest.next r a).published = r.published ++ [⟨generation, f.infoOf seq, f.src⟩]) := by
  have hnone : r.held ≠ none := by
    rw [hheld]
    exact Option.some_ne_none _
  cases a with
  | openProducer => exact absurd henabled.1 hnone
  | writeFrame frame => exact absurd henabled.1 hnone
  | create => exact absurd henabled hnone
  | close => exact .inl ⟨rfl, .inl ⟨w, hheld⟩⟩
  | readLatest dstCapacity => exact .inl ⟨rfl, .inl ⟨w, hheld⟩⟩
  | block =>
    unfold ReadLatest.next
    rw [hheld]
    obtain ⟨hpublished, hnext⟩ | ⟨hpublished, hnext⟩ | ⟨hnext, hpublished⟩ :=
      writeNext_cases r f w
    · exact .inl ⟨hpublished, .inl hnext⟩
    · exact .inl ⟨hpublished, .inr (by rw [Writes, hnext])⟩
    · exact .inr ⟨by rw [Writes, hnext], hpublished⟩
  | look =>
    unfold ReadLatest.next
    cases hreader : r.reader with
    | none => exact .inl ⟨rfl, .inl ⟨w, hheld⟩⟩
    | some attempt =>
      obtain ⟨hpublished, hframe⟩ := lookNext_frame r attempt
      exact .inl ⟨hpublished, .inl ⟨w, hframe.trans hheld⟩⟩

end Ring

/-! ### Sizes -/

section Sizes
variable {l : Locals} {frame : Taken}

theorem Holds.layout (h : Holds l frame) :
    l.layout.stride = frame.width ∧
      l.layout.totalSize = frame.height * frame.width + frame.height / 2 * frame.width := by
  obtain ⟨hwpos, hhpos, hweven, hheven, hwle, hhle⟩ := h.supported
  have hw : frame.width / 2 * 2 = frame.width := by omega
  have hh : frame.height / 2 * 2 = frame.height := by omega
  rw [Locals.layout, h.frameWidth, h.frameHeight, Fill.toInt_of_lt (by omega),
    Fill.toInt_of_lt (by omega), nv12Layout, if_neg (by omega)]
  dsimp only
  rw [if_neg (lt_irrefl 0), Int.toNat_natCast, Int.toNat_natCast, hw, hh,
    Fill.half_plane _ hheven, Nat.mul_comm frame.width]
  exact ⟨rfl, rfl⟩

theorem Converted.length (h : Converted l frame) :
    l.nv12.length = frame.height * frame.width + frame.height / 2 * frame.width := by
  rw [h.nv12, length_nv12 _ h.supported.width_even]

/-- The frame fits a slot of the ring. -/
theorem Converted.fits (h : Converted l frame) :
    ¬ (l.nv12.length = 0 ∨ l.nv12.length > kRingSlotBytes) := by
  have hpos := Nat.mul_pos h.supported.height_pos h.supported.width_pos
  have hproduct := h.supported.product_le
  have hhalf := half_product_le frame.width frame.height
  have hbytes : kRingSlotBytes = 12441600 := rfl
  have hlength := h.length
  omega

/-- What is published with it. -/
theorem Converted.carries (h : Converted l frame) (generation seq qpc : ℕ) :
    Carries ⟨generation, ReadLatest.Frame.infoOf ⟨l.nv12, l.info, qpc⟩ seq, l.nv12⟩ frame := by
  refine ⟨?_, h.nv12⟩
  unfold ReadLatest.Frame.infoOf Locals.info
  rw [h.frameWidth, h.frameHeight, h.ptsMicros, h.toHolds.layout.1, h.length]

theorem Carries.sane {p : Publication} (h : Carries p frame)
    (hframe : Supported frame.width frame.height) : geometryIsSane p.info = true := by
  have hbytes := hframe.product_le
  have hhalf := half_product_le frame.width frame.height
  obtain ⟨hwpos, hhpos, hweven, hheven, hwle, hhle⟩ := hframe
  have heven : (frame.width ||| frame.height) &&& 1 = 0 := by
    rw [Nat.and_one_is_mod]
    have hodd := (@Nat.or_mod_two_eq_one frame.width frame.height).not
    omega
  have hmax : ¬ (frame.width > ShmRing.kRingMaxWidth ∨ frame.height > ShmRing.kRingMaxHeight) := by
    rw [not_or]
    exact ⟨Nat.not_lt.mpr hwle, Nat.not_lt.mpr hhle⟩
  have hslot : kRingSlotBytes = 12441600 := rfl
  rw [h.info]
  unfold geometryIsSane
  dsimp only
  rw [if_neg (by omega), if_neg hmax, if_neg (not_not.mpr heven), if_neg (lt_irrefl _),
    if_neg (not_not.mpr rfl), Fill.half_plane _ hheven, Nat.mul_comm frame.width, hslot]
  exact decide_eq_true ⟨le_rfl, by omega⟩

end Sizes

/-! ### The ring's steps -/

section Steps
variable {s : State} {frame : Taken}

theorem not_writing {p : Position} (h : s.worker = p) (hp : p.writes = false) :
    ∀ n, s.worker ≠ .writing n := by
  intro n hn
  rw [← h, hn] at hp
  exact Bool.noConfusion hp

section
variable (h : ∀ n, s.worker ≠ .writing n)
include h

theorem unwritten_of_not_writing : s.unwritten = s.hand.toList := by
  unfold State.unwritten
  split
  · rename_i n hn
    exact absurd hn (h n)
  · rfl

theorem calling_iff : Calling s ↔ Writes s.ring = false := by
  unfold Calling
  split
  · rename_i n hn
    exact absurd hn (h n)
  · rfl

theorem counted_of_not_writing : s.counted = s.ring.published.length := by
  unfold State.counted
  split
  · rename_i n hn
    exact absurd hn (h n)
  · rfl

end

/-- Between the calls of `writeFrame` the ring's other parties publish nothing. -/
theorem Inv.ring_idle (hinv : Inv s) (h : ∀ n, s.worker ≠ .writing n) {a : ReadLatest.Action}
    (ha : ∀ frame, a ≠ .writeFrame frame) :
    Inv { s with ring := ReadLatest.next s.ring a } := by
  obtain ⟨hpublished, hidle⟩ := next_idle ((calling_iff h).mp hinv.calling) a ha
  have hwritten := hinv.written
  have hcounted := hinv.counted
  rw [unwritten_of_not_writing h, ← hpublished] at hwritten
  rw [counted_of_not_writing h, ← hpublished] at hcounted
  set s' := { s with ring := ReadLatest.next s.ring a } with hs'
  have h' : ∀ n, s'.worker ≠ .writing n := h
  exact
    { hinv with
      calling := (calling_iff h').mpr hidle
      written := by
        rw [unwritten_of_not_writing h']
        exact hwritten
      counted := by
        rw [counted_of_not_writing h']
        exact hcounted }

/-- During a call the frame goes from the worker's hand to the ring. -/
theorem Inv.ring_writing (hinv : Inv s) {n : ℕ} (h : s.worker = .writing n)
    {a : ReadLatest.Action} (ha : ∀ frame, a ≠ .writeFrame frame)
    (henabled : ReadLatest.enabled s.ring a) :
    Inv { s with ring := ReadLatest.next s.ring a } := by
  have hcalling := hinv.calling
  have hhand := hinv.hand
  have hwritten := hinv.written
  have hcounted := hinv.counted
  simp only [Calling, Hand, State.unwritten, State.counted, h] at hcalling hhand hwritten hcounted
  obtain ⟨-, frame, hframe, hconverted⟩ := hhand
  set s' := { s with ring := ReadLatest.next s.ring a } with hs'
  have hcounted' : s'.status.publishedFrames = s'.counted := by
    simp only [hs', State.counted, h]
    exact hcounted
  -- nothing is published
  have hsame (hpublished : s'.ring.published = s.ring.published) (hflight : Flight s' n) :
      Inv s' := by
    refine { hinv with calling := ?_, written := ?_, counted := hcounted' }
    · simp only [hs', Calling, h]
      exact hflight
    · simp only [hs', State.unwritten, h]
      rw [show (ReadLatest.next s.ring a).published = s.ring.published from hpublished]
      exact hwritten
  obtain ⟨hlength, hidle | ⟨qpc, w, hheld⟩⟩ | ⟨hlength, hidle⟩ := hcalling
  · obtain ⟨hpublished, hidle⟩ := next_idle hidle a ha
    exact hsame hpublished (.inl ⟨(congrArg List.length hpublished).trans hlength, .inl hidle⟩)
  · obtain ⟨hpublished, ⟨w', hnext⟩ | hidle⟩ | ⟨hidle, generation, seq, hpublished⟩ :=
      next_writing hheld henabled
    · exact hsame hpublished
        (.inl ⟨(congrArg List.length hpublished).trans hlength, .inr ⟨qpc, w', hnext⟩⟩)
    · exact hsame hpublished (.inl ⟨(congrArg List.length hpublished).trans hlength, .inl hidle⟩)
    · have hlength' : s'.ring.published.length = n + 1 := by
        simp only [hs', hpublished, List.length_append, List.length_singleton, hlength]
      rw [if_neg (by omega), hframe] at hwritten
      refine { hinv with calling := ?_, written := ?_, counted := hcounted' }
      · simp only [hs', Calling, h]
        exact .inr ⟨hlength', hidle⟩
      · simp only [hs', State.unwritten, h]
        rw [if_pos (by rw [hlength']; exact Nat.lt_succ_self n)]
        rw [show (ReadLatest.next s.ring a).published = _ from hpublished]
        exact hwritten.leave (hconverted.carries generation seq qpc)
  · obtain ⟨hpublished, hidle⟩ := next_idle hidle a ha
    exact hsame hpublished (.inr ⟨(congrArg List.length hpublished).trans hlength, hidle⟩)

/-! ### The worker's steps -/

theorem Inv.transition (hinv : Inv s) {state : FrameRingSinkState} {error : HRESULT}
    (hreported : Reported (s.transition state error).status) : Inv (s.transition state error) :=
  { hinv with reported := hreported }

/-- A thread that is there stays. -/
theorem Inv.running (hinv : Inv s) {p : Position} (h : s.worker = p) (hp : p ≠ .none)
    (worker : Position) (hjoinable : s.impl.joinable = false) : worker = .none :=
  absurd (h.symm.trans (hinv.thread hjoinable)) hp

/-- The frame in hand is dropped. -/
theorem Inv.drop (hinv : Inv s) (hframe : s.hand = some frame) (hidle : Writes s.ring = false)
    (hcounted : s.status.publishedFrames = s.ring.published.length) {state : FrameRingSinkState}
    {error : HRESULT} (hreported : Reported (s.drop state error).status) (connected : Bool) :
    Inv { s.drop state error with connected } := by
  have hworker : s.worker ≠ .none := by
    intro hnone
    have hhand := hinv.hand
    simp only [Hand, hnone, hframe] at hhand
    exact Option.some_ne_none _ hhand
  have haccounted := hinv.accounted
  rw [hframe] at haccounted
  refine
    { hinv with
      thread := hinv.running rfl hworker _
      hand := rfl
      calling := hidle
      written := hinv.written.lose
      previewed := hinv.previewed.lose
      accounted := ?_
      counted := hcounted
      reported := hreported }
  show s.status.publishedFrames + (s.status.droppedFrames + 1) + s.impl.pending.length + 0 +
    s.forgotten = s.offered
  simp only [Option.toList_some, List.length_singleton] at haccounted
  omega

/-- The worker goes on, outside of `writeFrame`. -/
theorem Inv.goto (hinv : Inv s) {p : Position} (hp : s.worker = p) (hout : p.writes = false)
    (hnone : p ≠ .none) {worker : Position} (hout' : worker.writes = false) {connected : Bool}
    (hhand : Hand { s with worker, connected })
    (hunseen : ({ s with worker, connected } : State).unseen = s.unseen) :
    Inv { s with worker, connected } := by
  have h := not_writing hp hout
  have h' : ∀ n, worker ≠ .writing n := @not_writing { s with worker } worker rfl hout'
  set s' : State := { s with worker, connected } with hs'
  have hwritten := hinv.written
  have hcounted := hinv.counted
  rw [unwritten_of_not_writing h] at hwritten
  rw [counted_of_not_writing h] at hcounted
  refine
    { hinv with
      thread := hinv.running hp hnone _
      hand := hhand
      calling := (@calling_iff s' h').mpr ((calling_iff h).mp hinv.calling)
      written := ?_
      previewed := ?_
      counted := ?_ }
  · rw [@unwritten_of_not_writing s' h']
    exact hwritten
  · rw [hunseen]
    exact hinv.previewed
  · rw [@counted_of_not_writing s' h']
    exact hcounted

theorem Inv.create (hinv : Inv s) (h : s.worker = .starting) (bridgeHr : HRESULT) :
    Inv (s.create bridgeHr) := by
  have hhand := hinv.hand
  simp only [Hand, h] at hhand
  unfold State.create
  split_ifs with hfailed
  · have hfail : Inv (s.transition .failed bridgeHr) := hinv.transition hfailed
    refine @Inv.goto _ hfail _ h rfl Position.noConfusion .ended rfl s.connected hhand ?_
    simp only [State.unseen, State.transition, h]
  · refine @Inv.goto _ hinv _ h rfl Position.noConfusion .waiting rfl s.connected hhand ?_
    simp only [State.unseen, h]

/-- The conversion cannot fail. -/
theorem convert_eq (hframe : Holds s.locals frame)
    (hbgra : s.locals.bgra = frame.texels.bgra frame.width frame.height) :
    s.convert =
      { s with
        locals :=
          { s.locals with bgra := [], nv12 := frame.texels.nv12 frame.width frame.height }
        previews := s.previews ++
          [{ pixels := frame.texels.bgra frame.width frame.height
             width := frame.width
             height := frame.height
             stride := frame.width * 4
             ptsMicros := frame.ptsMicros }]
        worker := .connecting } := by
  have hwidth := hframe.supported.width_le
  have hstride : u32 (frame.width * 4) = frame.width * 4 := Nat.mod_eq_of_lt (by omega)
  have hconvert := @Supported.convert_eq frame.width frame.height
    (resize s.locals.nv12 s.locals.layout.totalSize) hframe.supported frame.texels
    (by rw [length_resize, hframe.layout.2])
  unfold State.convert
  simp only [hbgra, hframe.frameWidth, hframe.frameHeight, hframe.ptsMicros, hstride,
    hframe.layout.1, hconvert]
  rw [if_neg (by decide)]

theorem Inv.convert (hinv : Inv s) (h : s.worker = .converting) : Inv s.convert := by
  have hhand := hinv.hand
  have hwritten := hinv.written
  have hpreviewed := hinv.previewed
  have hcalling := hinv.calling
  have hcounted := hinv.counted
  simp only [Hand, Calling, h] at hhand hcalling
  simp only [State.unwritten, State.unseen, State.counted, h] at hwritten hpreviewed hcounted
  obtain ⟨frame, hframe, hholds, hbgra⟩ := hhand
  rw [convert_eq hholds hbgra]
  rw [hframe] at hpreviewed
  exact
    { hinv with
      thread := hinv.running h Position.noConfusion _
      hand := ⟨frame, hframe, ⟨hholds.supported, hholds.frameWidth, hholds.frameHeight,
        hholds.ptsMicros⟩, rfl⟩
      calling := hcalling
      written := hwritten
      previewed := hpreviewed.leave rfl
      counted := hcounted }

theorem Inv.connect (hinv : Inv s) (h : s.worker = .connecting) (openHr : HRESULT) :
    Inv (s.connect openHr) := by
  have hconnecting := not_writing h rfl
  have hhand := hinv.hand
  simp only [Hand, h] at hhand
  obtain ⟨frame, hframe, hconverted⟩ := hhand
  have hunseen (connected : Bool) :
      ({ s with worker := .asking, connected } : State).unseen = s.unseen := by
    simp only [State.unseen, h]
  unfold State.connect
  by_cases hconnected : s.connected = true
  · rw [if_pos hconnected]
    exact @Inv.goto _ hinv _ h rfl Position.noConfusion .asking rfl s.connected
      ⟨hconnected, frame, hframe, hconverted⟩ (hunseen _)
  rw [if_neg hconnected]
  by_cases hfailed : FAILED openHr
  · rw [if_pos hfailed]
    refine hinv.drop hframe ((calling_iff hconnecting).mp hinv.calling)
      (hinv.counted.trans (counted_of_not_writing hconnecting)) ?_ s.connected
    by_cases hexists : openHr = kProducerExists
    · rw [hexists]
      rfl
    · rw [if_neg hexists]
      by_cases hmissing : openHr = kRingNotFound
      · rw [if_pos hmissing]
        exact .inl rfl
      · rw [if_neg hmissing]
        exact .inr hfailed
  · rw [if_neg hfailed]
    have hopened := @Inv.ring_idle s hinv hconnecting .openProducer fun _ => nofun
    exact @Inv.goto _ hopened _ h rfl Position.noConfusion .asking rfl true
      ⟨rfl, frame, hframe, hconverted⟩ (hunseen true)

theorem note_eq (s : State) (hr : HRESULT) (width height format : ℕ) :
    ∃ desiredWidth desiredHeight,
      s.note hr width height format = { s with desiredWidth, desiredHeight } := by
  unfold State.note
  split_ifs
  · exact ⟨width, height, rfl⟩
  · exact ⟨s.desiredWidth, s.desiredHeight, rfl⟩

theorem Inv.ask (hinv : Inv s) (h : s.worker = .asking) (hr : HRESULT)
    (width height format : ℕ) : Inv (s.ask hr width height format) := by
  have hasking := not_writing h rfl
  have hhand := hinv.hand
  simp only [Hand, h] at hhand
  obtain ⟨hconnected, frame, hframe, hconverted⟩ := hhand
  -- whatever geometry is noted, the frame is dropped or written
  have hafter (width height format : ℕ) (p : Prop) [Decidable p] :
      Inv (if p then (s.note hr width height format).drop .adaptingGeometry S_OK
        else { s.note hr width height format with worker := .publishing }) := by
    obtain ⟨desiredWidth, desiredHeight, hnote⟩ := note_eq s hr width height format
    have hnoted : Inv { s with desiredWidth, desiredHeight } := { hinv with }
    rw [hnote]
    split_ifs
    · exact @Inv.drop _ frame hnoted hframe ((calling_iff hasking).mp hinv.calling)
        (hinv.counted.trans (counted_of_not_writing hasking)) .adaptingGeometry S_OK rfl s.connected
    · refine @Inv.goto _ hnoted _ h rfl Position.noConfusion .publishing rfl s.connected
        ⟨hconnected, frame, hframe, hconverted⟩ ?_
      simp only [State.unseen, h]
  unfold State.ask
  by_cases hok : hr = S_OK
  · simp only [if_pos hok]
    exact hafter width height format _
  · simp only [if_neg hok]
    exact hafter _ _ _ _

/-- A call of `writeFrame` that has not published the frame. -/
theorem Inv.finish_failed (hinv : Inv s) (hframe : s.hand = some frame)
    (hidle : Writes s.ring = false)
    (hcounted : s.status.publishedFrames = s.ring.published.length) {writeHr : HRESULT}
    (hfailed : FAILED writeHr) : Inv (s.finish writeHr) := by
  unfold State.finish
  by_cases hmissing : writeHr = kRingNotFound
  · rw [if_pos hmissing]
    exact @Inv.drop _ frame hinv hframe hidle hcounted .waitingForConsumer S_OK (.inl rfl) false
  · rw [if_neg hmissing, if_pos hfailed]
    exact @Inv.drop _ frame hinv hframe hidle hcounted .failed writeHr hfailed s.connected

theorem Inv.write (hinv : Inv s) (h : s.worker = .publishing) {guardHr : HRESULT} (qpc : ℕ) :
    Inv (s.write guardHr qpc) := by
  have hpublishing := not_writing h rfl
  have hhand := hinv.hand
  have hwritten := hinv.written
  have hpreviewed := hinv.previewed
  simp only [Hand, h] at hhand
  simp only [State.unwritten, State.unseen, h] at hwritten hpreviewed
  have hcounted := hinv.counted.trans (counted_of_not_writing hpublishing)
  obtain ⟨hconnected, frame, hframe, hconverted⟩ := hhand
  unfold State.write
  rw [if_neg (by rw [hconnected]; exact Bool.noConfusion), if_neg hconverted.fits]
  by_cases hguard : FAILED guardHr
  · rw [if_pos hguard]
    exact hinv.finish_failed hframe ((calling_iff hpublishing).mp hinv.calling) hcounted hguard
  · rw [if_neg hguard]
    refine
      { hinv with
        thread := hinv.running h Position.noConfusion _
        hand := ⟨hconnected, frame, hframe, hconverted⟩
        calling := .inl ⟨rfl, .inr ⟨qpc, .loadMagic, rfl⟩⟩
        written := ?_
        previewed := hpreviewed
        counted := hcounted }
    show Passed Carries s.ring.published
      (if s.ring.published.length < s.ring.published.length then [] else s.hand.toList) s.queue
      s.accepted
    rw [if_neg (lt_irrefl _)]
    exact hwritten

theorem Inv.returned (hinv : Inv s) {n : ℕ} (h : s.worker = .writing n)
    (hidle : Writes s.ring = false) : Inv (s.returned n) := by
  have hhand := hinv.hand
  have hwritten := hinv.written
  have hpreviewed := hinv.previewed
  have hcalling := hinv.calling
  have hcounted := hinv.counted
  have haccounted := hinv.accounted
  simp only [Hand, Calling, h] at hhand hcalling
  simp only [State.unwritten, State.unseen, State.counted, h] at hwritten hpreviewed hcounted
  obtain ⟨-, frame, hframe, -⟩ := hhand
  unfold State.returned
  by_cases hpublished : n < s.ring.published.length
  · have hlength : s.ring.published.length = n + 1 := by
      obtain ⟨hsame, -⟩ | ⟨hmore, -⟩ := hcalling
      · omega
      · exact hmore
    rw [if_pos hpublished] at hwritten
    rw [if_pos hpublished, State.finish, if_neg (by decide), if_neg (by decide)]
    rw [hframe] at haccounted
    refine
      { hinv with
        thread := hinv.running h Position.noConfusion _
        hand := rfl
        calling := hidle
        written := hwritten
        previewed := hpreviewed
        accounted := ?_
        counted := ?_
        reported := rfl }
    · show s.status.publishedFrames + 1 + s.status.droppedFrames + s.impl.pending.length + 0 +
        s.forgotten = s.offered
      simp only [Option.toList_some, List.length_singleton] at haccounted
      omega
    · show s.status.publishedFrames + 1 = s.ring.published.length
      omega
  · have hlength : s.ring.published.length = n := by
      obtain ⟨hsame, -⟩ | ⟨hmore, -⟩ := hcalling
      · exact hsame
      · omega
    rw [if_neg hpublished]
    exact hinv.finish_failed hframe hidle (hcounted.trans hlength.symm) (by decide)

theorem Inv.exit (hinv : Inv s) (h : s.worker = .waiting) : Inv s.exit := by
  have hhand := hinv.hand
  simp only [Hand, h] at hhand
  refine @Inv.goto _ hinv _ h rfl Position.noConfusion .ended rfl false hhand ?_
  simp only [State.unseen, h]

/-- The first pending slot is free again. -/
theorem take_eq {impl : Impl} {index : Fin kStagingSlots} {rest : List (Fin kStagingSlots)}
    {getData : HRESULT} (hpending : impl.pending = index :: rest) (hcontext : impl.context ≠ none)
    (hready : getData ≠ S_FALSE) :
    FrameRingSink.take impl getData =
      { setSlot impl index { impl.slots index with pending := false } with pending := rest } := by
  rw [FrameRingSink.take, hpending]
  exact (if_neg hcontext).trans (if_neg hready)

/-- The frames that stay in the slots are what they were. -/
theorem Inv.staged_rest (hinv : Inv s) {index : Fin kStagingSlots}
    {rest : List (Fin kStagingSlots)} (hpending : s.impl.pending = index :: rest) (slot : Slot) :
    ∀ k ∈ rest, Staged { setSlot s.impl index slot with pending := rest } (s.staged k) k := by
  intro k hk
  have hnot : index ∉ rest := (List.nodup_cons.mp (hpending ▸ hinv.impl.exact.nodup)).1
  obtain ⟨hsupported, hwidth, hheight, hpts⟩ :=
    hinv.staged k (by rw [hpending]; exact .tail _ hk)
  have hslot : (setSlot s.impl index slot).slots k = s.impl.slots k :=
    (slots_setSlot index k slot).trans (if_neg (ne_of_mem_of_not_mem hk hnot))
  exact ⟨hsupported, hwidth, hheight, hpts.trans (congrArg Slot.ptsMicros hslot).symm⟩

theorem Inv.take (hinv : Inv s) (h : s.worker = .waiting) {getData mapHr : HRESULT}
    {mapped : Mapped} (hmapped : ¬ FAILED getData → getData ≠ S_FALSE → ¬ FAILED mapHr →
      s.Mapped mapped) : Inv (s.take getData mapHr mapped) := by
  have hhand := hinv.hand
  have hwritten := hinv.written
  have hpreviewed := hinv.previewed
  have hcalling := hinv.calling
  have hcounted := hinv.counted
  have haccounted := hinv.accounted
  have himpl := hinv.impl.take getData
  simp only [Hand, Calling, h] at hhand hcalling
  simp only [State.unwritten, State.unseen, State.counted, h, hhand] at hwritten hpreviewed hcounted
  unfold State.take
  cases hpending : s.impl.pending with
  | nil => exact hinv
  | cons index rest =>
    obtain ⟨device, hprepared⟩ := hinv.prepared (by rw [hpending]; exact List.cons_ne_nil _ _)
    have hcontext : s.impl.context ≠ none := by
      rw [hprepared.context]
      exact Option.some_ne_none _
    dsimp only
    by_cases hready : getData = S_FALSE
    · rw [if_pos (.inr hready), FrameRingSink.take, hpending]
      dsimp only
      rw [if_neg hcontext, if_pos hready]
      exact hinv
    rw [if_neg (not_or.mpr ⟨hcontext, hready⟩)]
    have htake := take_eq hpending hcontext hready
    rw [htake] at himpl ⊢
    set impl' : Impl :=
      { setSlot s.impl index { s.impl.slots index with pending := false } with pending := rest }
    have hqueue : s.queue = s.staged index :: rest.map s.staged := by
      rw [State.queue, hpending, List.map_cons]
    rw [hqueue] at hwritten hpreviewed
    rw [hpending, hhand] at haccounted
    simp only [List.length_cons, Option.toList_none, List.length_nil] at haccounted
    have hprepared' := hprepared.setSlot index (s.impl.slots index).ptsMicros false
    have hstaged : ∀ k ∈ rest, Staged impl' (s.staged k) k := hinv.staged_rest hpending _
    -- a frame that cannot be read is dropped
    have hfailed (hr : HRESULT) (hr' : FAILED hr) :
        Inv (({ s with impl := impl' } : State).drop .failed hr) := by
      refine
        { hinv with
          impl := himpl
          prepared := fun _ => ⟨device, hprepared'.context, hprepared'.slots⟩
          staged := hstaged
          thread := hinv.running h Position.noConfusion _
          hand := rfl
          calling := hcalling
          written := hwritten.take.lose
          previewed := hpreviewed.take.lose
          accounted := ?_
          counted := hcounted
          reported := hr' }
      show s.status.publishedFrames + (s.status.droppedFrames + 1) + rest.length + 0 +
        s.forgotten = s.offered
      omega
    by_cases hdata : FAILED getData
    · rw [if_pos hdata]
      exact hfailed getData hdata
    rw [if_neg hdata]
    by_cases hmap : FAILED mapHr
    · rw [if_pos hmap]
      exact hfailed mapHr hmap
    rw [if_neg hmap]
    have hshows := hmapped hdata hready hmap index (by rw [hpending]; rfl)
    obtain ⟨hsupported, hwidth, hheight, hpts⟩ :=
      hinv.staged index (by rw [hpending]; exact .head _)
    refine
      { hinv with
        impl := himpl
        prepared := fun _ => ⟨device, hprepared'.context, hprepared'.slots⟩
        staged := hstaged
        thread := hinv.running h Position.noConfusion _
        hand := ⟨s.staged index, rfl, ⟨hsupported, hwidth.symm, hheight.symm, hpts.symm⟩, ?_⟩
        calling := hcalling
        written := hwritten.take
        previewed := hpreviewed.take
        accounted := ?_
        counted := hcounted }
    · show packRows s.locals.bgra mapped s.impl.width s.impl.height = _
      rw [← hwidth, ← hheight]
      exact packRows_eq hshows _
    · show s.status.publishedFrames + s.status.droppedFrames + rest.length + 1 + s.forgotten =
        s.offered
      omega

/-! ### The other threads -/

theorem supported_of_supportedFrame {frame : TextureFrame} {texture : Texture2D}
    (h : supportedFrame frame = some texture) : Supported frame.width frame.height := by
  unfold supportedFrame at h
  split at h
  · exact absurd h nofun
  · split_ifs at h with hsize
    push Not at hsize
    obtain ⟨hwidth, hheight, hweven, hheven, hwle, hhle⟩ := hsize
    exact ⟨Nat.pos_of_ne_zero hwidth, Nat.pos_of_ne_zero hheight, by omega, by omega, hwle, hhle⟩

section Publish
variable {texture : Texture2D} {textureFrame : TextureFrame} {d3d : D3d} {impl : Impl}

/-- `configure` leaves the thread alone. -/
theorem configure_frame (impl : Impl) (textureFrame : TextureFrame) (texture : Texture2D)
    (d3d : D3d) :
    (configure impl textureFrame texture d3d).2.joinable = impl.joinable ∧
      (configure impl textureFrame texture d3d).2.crashed = impl.crashed := by
  unfold configure
  split
  · exact ⟨rfl, rfl⟩
  · rename_i device _
    dsimp only
    split_ifs
    · exact ⟨rfl, rfl⟩
    · exact ⟨rfl, rfl⟩
    · rw [createSlots_frame.1]
      exact ⟨rfl, rfl⟩
    · constructor
      · show (createSlots _ _ _ _ _).2.joinable = _
        rw [createSlots_frame.1]
      · show (createSlots _ _ _ _ _).2.crashed = _
        rw [createSlots_frame.1]

/-- What `publish` does after `configure`. -/
theorem publish_eq (hframe : supportedFrame textureFrame = some texture)
    (hjoinable : impl.joinable = true) :
    FrameRingSink.publish impl textureFrame d3d =
      if FAILED (configure impl textureFrame texture d3d).1 then
        configure impl textureFrame texture d3d
      else
        let configured := (configure impl textureFrame texture d3d).2
        match available configured with
        | none => (S_FALSE, configured)
        | some k =>
          if configured.context = none then (S_OK, { configured with crashed := true })
          else
            (S_OK,
              { setSlot configured k
                  { configured.slots k with
                    ptsMicros := textureFrame.ptsMicros
                    pending := true } with
                pending := configured.pending ++ [k] }) := by
  rw [FrameRingSink.publish, hframe]
  dsimp only
  rw [if_neg (by rw [hjoinable]; exact Bool.noConfusion)]
  rfl

/-- The frames that `configure` clears are forgotten. -/
theorem Inv.configured (hinv : Inv s) (hframe : supportedFrame textureFrame = some texture)
    (d3d : D3d) {configured : Impl}
    (hconfigured : (configure s.impl textureFrame texture d3d).2 = configured) :
    Inv { s with
      impl := configured
      forgotten := s.forgotten + (s.impl.pending.length - configured.pending.length) } := by
  obtain ⟨hjoinable, hcrashed⟩ := configure_frame s.impl textureFrame texture d3d
  have himpl := @FrameRingSink.Inv.configure s.impl textureFrame texture d3d hinv.impl hframe
  rw [hconfigured] at hjoinable hcrashed himpl
  have hsame {hr : HRESULT}
      (heq : configure s.impl textureFrame texture d3d = (hr, s.impl)) :
      Inv { s with
        impl := configured
        forgotten := s.forgotten + (s.impl.pending.length - configured.pending.length) } := by
    rw [← hconfigured, heq, Nat.sub_self]
    exact hinv
  obtain ⟨heq, -⟩ | ⟨device, -, ⟨-, heq⟩ | ⟨hempty, -, -⟩⟩ := configure_cases s.impl hframe d3d
  · exact hsame heq
  · exact hsame heq
  rw [hconfigured] at hempty
  have hqueue : configured.pending.map s.staged = [] := by rw [hempty, List.map_nil]
  refine
    { hinv with
      impl := himpl
      prepared := fun hne => absurd hempty hne
      staged := fun k hk => ?_
      thread := fun h => hinv.thread (hjoinable.symm.trans h)
      written := ?_
      previewed := ?_
      accounted := ?_
      intact := hcrashed.trans hinv.intact }
  · rw [show ({ s with impl := configured } : State).impl.pending = [] from hempty] at hk
    exact absurd hk List.not_mem_nil
  · show Passed Carries s.ring.published s.unwritten (configured.pending.map s.staged) s.accepted
    rw [hqueue]
    exact hinv.written.clear
  · show Passed Previews s.previews s.unseen (configured.pending.map s.staged) s.accepted
    rw [hqueue]
    exact hinv.previewed.clear
  · have haccounted := hinv.accounted
    show s.status.publishedFrames + s.status.droppedFrames + configured.pending.length +
      s.hand.toList.length + (s.forgotten + (s.impl.pending.length - configured.pending.length)) =
        s.offered
    rw [hempty, List.length_nil]
    omega

/-- Where it succeeds the slots are there for frames of this size. -/
theorem configure_size (hframe : supportedFrame textureFrame = some texture)
    (hok : ¬ FAILED (configure impl textureFrame texture d3d).1) :
    (configure impl textureFrame texture d3d).2.width = textureFrame.width ∧
      (configure impl textureFrame texture d3d).2.height = textureFrame.height := by
  obtain ⟨heq, -⟩ | ⟨device, -, ⟨hsame, heq⟩ | ⟨-, -, ⟨hfailed, -⟩ | ⟨-, hwidth, hheight, -⟩⟩⟩ :=
    configure_cases impl hframe d3d
  · rw [heq] at hok
    exact absurd (by decide : FAILED E_FAIL) hok
  · rw [heq]
    exact hsame.2
  · exact absurd hfailed hok
  · exact ⟨hwidth, hheight⟩

/-- A frame is staged in a free slot of its size. -/
theorem Inv.stage (hinv : Inv s) {width height : ℕ} (hframe : Supported width height)
    (hsize : s.impl.width = width ∧ s.impl.height = height) {device : ℕ}
    (hprepared : Prepared s.impl device width height) {k : Fin kStagingSlots}
    (havailable : available s.impl = some k) (texels : Texels) (pts : ℕ) :
    Inv { s with
      impl :=
        { setSlot s.impl k { s.impl.slots k with ptsMicros := pts, pending := true } with
          pending := s.impl.pending ++ [k] }
      staged := Function.update s.staged k ⟨texels, width, height, pts⟩
      accepted := s.accepted ++ [⟨texels, width, height, pts⟩]
      offered := s.offered + 1 } := by
  have hfree := available_not_pending havailable
  have hnot : k ∉ s.impl.pending := by
    rw [hinv.impl.exact.mem_iff, hfree]
    exact Bool.false_ne_true
  have hprepared' := hprepared.setSlot k pts true
  have hother {j : Fin kStagingSlots} (hj : j ≠ k) :
      (setSlot s.impl k { s.impl.slots k with ptsMicros := pts, pending := true }).slots j =
        s.impl.slots j := (slots_setSlot k j _).trans (if_neg hj)
  have hqueue : (s.impl.pending ++ [k]).map
      (Function.update s.staged k (⟨texels, width, height, pts⟩ : Taken)) =
      s.queue ++ [⟨texels, width, height, pts⟩] := by
    rw [List.map_append, List.map_singleton, Function.update_self, State.queue]
    congr 1
    exact List.map_congr_left fun j hj =>
      Function.update_of_ne (ne_of_mem_of_not_mem hj hnot) _ _
  refine
    { hinv with
      impl := ⟨hinv.impl.exact.append hfree pts, fun hrebuilt device hdevice => ?_⟩
      prepared := fun _ => ⟨device, hprepared'.context, fun j => ?_⟩
      staged := fun j hj => ?_
      supported := ?_
      written := ?_
      previewed := ?_
      accounted := ?_ }
  · have hready := (hinv.impl.prepared hrebuilt device hdevice).setSlot k pts true
    exact ⟨hready.context, hready.slots⟩
  · show ((setSlot s.impl k _).slots j).Ready device s.impl.width s.impl.height
    rw [hsize.1, hsize.2]
    exact hprepared'.slots j
  · rcases List.mem_append.mp hj with hj | hj
    · have hne := ne_of_mem_of_not_mem hj hnot
      obtain ⟨hsupported, hwidth, hheight, hpts⟩ := hinv.staged j hj
      show Staged _ (Function.update s.staged k (⟨texels, width, height, pts⟩ : Taken) j) j
      rw [Function.update_of_ne hne]
      exact ⟨hsupported, hwidth, hheight, hpts.trans (congrArg Slot.ptsMicros (hother hne)).symm⟩
    · obtain rfl := List.mem_singleton.mp hj
      show Staged _ (Function.update s.staged j (⟨texels, width, height, pts⟩ : Taken) j) j
      rw [Function.update_self]
      refine ⟨hframe, hsize.1.symm, hsize.2.symm, ?_⟩
      show pts = ((setSlot s.impl j _).slots j).ptsMicros
      rw [slots_setSlot, if_pos rfl]
  · exact List.forall_mem_append.mpr ⟨hinv.supported, List.forall_mem_singleton.mpr hframe⟩
  · show Passed Carries s.ring.published s.unwritten ((s.impl.pending ++ [k]).map
      (Function.update s.staged k ⟨texels, width, height, pts⟩)) _
    rw [hqueue]
    exact hinv.written.push _
  · show Passed Previews s.previews s.unseen ((s.impl.pending ++ [k]).map
      (Function.update s.staged k ⟨texels, width, height, pts⟩)) _
    rw [hqueue]
    exact hinv.previewed.push _
  · have haccounted := hinv.accounted
    show s.status.publishedFrames + s.status.droppedFrames + (s.impl.pending ++ [k]).length +
      s.hand.toList.length + s.forgotten = s.offered + 1
    rw [List.length_append, List.length_singleton]
    omega

theorem Inv.publish (hinv : Inv s) {contents : ℕ → Texels}
    (hsound : Sound s (.publish textureFrame contents d3d)) :
    Inv (s.publish textureFrame contents d3d) := by
  unfold State.publish
  cases hframe : supportedFrame textureFrame with
  | none => exact hinv
  | some texture =>
    dsimp only
    by_cases hjoinable : s.impl.joinable = false
    · rw [if_pos hjoinable]
      exact hinv
    rw [if_neg hjoinable]
    have hjoinable := Bool.of_not_eq_false hjoinable
    have hconfigured := hinv.configured hframe d3d rfl
    have hsound : FrameRingSink.Sound s.impl (.publish textureFrame d3d) := hsound
    have hprepares := hinv.impl.prepares hsound texture hframe hjoinable
    have hsize := @configure_size texture textureFrame d3d s.impl hframe
    rw [publish_eq hframe hjoinable]
    by_cases hfailed : FAILED (configure s.impl textureFrame texture d3d).1
    · simp only [if_pos hfailed]
      exact hconfigured.transition hfailed
    simp only [if_neg hfailed]
    obtain ⟨device, -, hprepared⟩ := hprepares hfailed
    have hsize := hsize hfailed
    generalize (configure s.impl textureFrame texture d3d).2 = configured at *
    cases havailable : available configured with
    | none =>
      dsimp only
      rw [if_neg (by decide : ¬ FAILED S_FALSE)]
      refine { hconfigured with accounted := ?_ }
      have haccounted := hconfigured.accounted
      show s.status.publishedFrames + (s.status.droppedFrames + 1) + configured.pending.length +
        s.hand.toList.length + (s.forgotten + (s.impl.pending.length - configured.pending.length)) =
          s.offered + 1
      dsimp only at haccounted
      omega
    | some k =>
      have hcontext : configured.context ≠ none := by
        rw [hprepared.context]
        exact Option.some_ne_none _
      simp only [if_neg hcontext]
      rw [if_neg (by decide : ¬ FAILED S_OK)]
      exact hconfigured.stage (supported_of_supportedFrame hframe) hsize hprepared havailable _ _

end Publish

theorem Inv.start (hinv : Inv s) : Inv s.start := by
  unfold State.start
  split_ifs with hjoinable
  · exact hinv
  have hworker := hinv.thread (Bool.of_not_eq_true hjoinable)
  have hhand := hinv.hand
  have hwritten := hinv.written
  have hpreviewed := hinv.previewed
  have hcalling := hinv.calling
  have hcounted := hinv.counted
  have himpl := hinv.impl.next .start
  simp only [Hand, Calling, hworker] at hhand hcalling
  simp only [State.unwritten, State.unseen, State.counted, hworker] at hwritten hpreviewed hcounted
  have hstart : FrameRingSink.start s.impl = { s.impl with joinable := true } := if_neg hjoinable
  change FrameRingSink.Inv (FrameRingSink.start s.impl) at himpl
  rw [hstart] at himpl ⊢
  exact
    { hinv with
      impl := himpl
      prepared := fun hne => by
        obtain ⟨device, hprepared⟩ := hinv.prepared hne
        exact ⟨device, hprepared.context, hprepared.slots⟩
      staged := fun k hk => by
        obtain ⟨hsupported, hwidth, hheight, hpts⟩ := hinv.staged k hk
        exact ⟨hsupported, hwidth, hheight, hpts⟩
      thread := fun h => Bool.noConfusion h
      hand := hhand
      calling := hcalling
      written := hwritten
      previewed := hpreviewed
      counted := hcounted
      reported := .inl rfl }

theorem Inv.stop (hinv : Inv s) (hjoinable : s.impl.joinable = true) (h : s.worker = .ended) :
    Inv s.stop := by
  have hhand := hinv.hand
  have hwritten := hinv.written
  have hpreviewed := hinv.previewed
  have hcalling := hinv.calling
  have hcounted := hinv.counted
  have haccounted := hinv.accounted
  have himpl := hinv.impl.next .stop
  change FrameRingSink.Inv (FrameRingSink.stop s.impl) at himpl
  simp only [Hand, Calling, h] at hhand hcalling
  simp only [State.unwritten, State.unseen, State.counted, h] at hwritten hpreviewed hcounted
  unfold State.stop
  rw [FrameRingSink.stop, if_neg (by rw [hjoinable]; exact Bool.noConfusion)] at himpl ⊢
  refine
    { hinv with
      impl := himpl
      prepared := fun hne => absurd rfl hne
      staged := fun k hk => absurd hk List.not_mem_nil
      thread := fun _ => rfl
      hand := hhand
      calling := hcalling
      written := hwritten.clear
      previewed := hpreviewed.clear
      accounted := ?_
      counted := hcounted
      reported := rfl }
  show s.status.publishedFrames + s.status.droppedFrames + 0 + s.hand.toList.length +
    (s.forgotten + s.impl.pending.length) = s.offered
  omega

end Steps

/-! ### Runs -/

theorem Inv.next {s : State} {a : Action} (hinv : Inv s) (henabled : enabled s a)
    (hsound : Sound s a) : Inv (next s a) := by
  obtain ⟨-, henabled⟩ := henabled
  cases a with
  | start => exact hinv.start
  | requestStop => exact { hinv with }
  | join => exact hinv.stop henabled.1 henabled.2.2
  | publish frame contents d3d => exact hinv.publish hsound
  | create bridgeHr => exact hinv.create henabled bridgeHr
  | take getData mapHr mapped => exact hinv.take henabled.1 henabled.2.2
  | convert => exact hinv.convert henabled
  | connect openHr => exact hinv.connect henabled.1 openHr
  | ask hr width height format => exact hinv.ask henabled hr width height format
  | write guardHr qpc => exact hinv.write henabled.1 qpc
  | exit => exact hinv.exit henabled.1
  | returned =>
    obtain ⟨hworker, hidle⟩ := henabled
    cases h : s.worker with
    | writing n =>
      show Inv (match s.worker with | .writing n => s.returned n | _ => s)
      rw [h]
      exact hinv.returned h hidle
    | _ =>
      rw [h] at hworker
      exact absurd hworker Bool.false_ne_true
  | ring a =>
    have ha : ∀ frame, a ≠ .writeFrame frame := by
      rintro frame rfl
      exact absurd henabled.1 Bool.noConfusion
    by_cases hwriting : ∃ n, s.worker = .writing n
    · obtain ⟨n, hn⟩ := hwriting
      exact hinv.ring_writing hn ha henabled.2
    · exact hinv.ring_idle (fun n hn => hwriting ⟨n, hn⟩) ha

theorem inv_init : Inv {} where
  impl := FrameRingSink.inv_init
  prepared := fun h => absurd rfl h
  staged := fun _ h => absurd h List.not_mem_nil
  supported := fun _ h => absurd h List.not_mem_nil
  thread := fun _ => rfl
  hand := rfl
  calling := rfl
  written := passed_nil _ _
  previewed := passed_nil _ _
  accounted := rfl
  counted := rfl
  reported := rfl
  intact := rfl

theorem Inv.pictured {s : State} (hinv : Inv s) : Pictured s where
  published := hinv.written.sublistForall₂
  previewed := hinv.previewed.sublistForall₂
  sane := by
    intro p hp
    obtain ⟨frame, hframe, hcarries⟩ := exists_of_sublistForall₂ hinv.written.sublistForall₂ hp
    exact hcarries.sane (hinv.supported frame hframe)
  accounted := hinv.accounted
  counted := fun h => hinv.counted.trans (counted_of_not_writing h)
  reported := hinv.reported
  intact := hinv.intact

/-- **What is published.** In every run in which no frame is taken for one of the old geometry after
a rebuild that failed, whatever the calls answer: the frames of the ring are accepted ones, in order
and none twice, each with the NV12 bytes of its own picture, and no frame is unaccounted for. -/
theorem pictured_of_run (actions : List Action) (h : sinkAndRing.Legal Sound {} actions) :
    Pictured (sinkAndRing.exec {} actions) :=
  (h.invariant inv_init fun _ _ hinv henabled hsound => hinv.next henabled hsound).pictured

/-- Four pixels. -/
def fourTexels : Texels := fun row column k => .ofNat (100 * row + 60 * column + 7 * k)

/-- They come with eight bytes of padding after each row. -/
def mappedTexels : Mapped where
  data i := fourTexels (i / 16) (i % 16 / 4) (i % 4)
  RowPitch := 16

/-- A frame goes through the sink, and `writeFrame` makes its accesses. -/
def oneFrame : List Action :=
  [.start, .publish (frameOf 2 2) (fun _ => fourTexels) {}, .create S_OK,
    .take S_OK S_OK mappedTexels, .convert, .connect S_OK, .ask S_FALSE 0 0 0, .write S_OK 0] ++
    List.replicate 28 (.ring .block) ++ [.returned]

theorem pictured_of_run_oneFrame :
    (sinkAndRing.exec {} oneFrame).ring.published.map Publication.pixels =
        [fourTexels.nv12 2 2] ∧
      Pictured (sinkAndRing.exec {} oneFrame) :=
  ⟨by decide +kernel, pictured_of_run oneFrame (by decide +kernel)⟩

end RemoteCam.Media.RingWorker
