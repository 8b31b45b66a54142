import RemoteCam.Media.RingWorker

/-! # From the decoder's texture to the camera's buffer

The sink and the ring with the reader of the camera's consumer: what `readLatest` returns, and what
`FrameSource::fill` copies of it into the buffer of Media Foundation.

`shown_of_run`: in timely runs every frame that is read is a frame that `publish` has accepted, with
its own picture, and those of a generation are shown in the order in which they came. -/

namespace RemoteCam.Link.CameraFeed

open RemoteCam.Lib.Passing RemoteCam.Lib.Stores RemoteCam.Lib.Transitions
open RemoteCam.Media.Picture RemoteCam.Media.PixelConvert RemoteCam.Media.RingWorker
open RemoteCam.Ring
open RemoteCam.Ring.ReadLatest (Publication Faithful)
open RemoteCam.Ring.Fill (Nv12Layout nv12Layout toInt copyPlanes planesOf)

def onRing : Action → Option ReadLatest.Action
  | .ring a => some a
  | _ => none

/-- The slots are sound, and the reader is not overtaken. -/
def Timely (s : State) (a : Action) : Prop :=
  Sound s a ∧ ∀ x ∈ onRing a, ReadLatest.timely s.ring x

instance (s : State) (a : Action) : Decidable (Timely s a) :=
  inferInstanceAs (Decidable (_ ∧ _))

/-! ### The buffer of the consumer -/

/-- The buffer has the picture, in rows of the layout's stride. -/
structure Displays (layout : Nv12Layout) (buffer : ℕ → UInt8) (frame : Taken) : Prop where
  luma : ∀ row < frame.height, ∀ column < frame.width,
    buffer (row * layout.stride + column) =
      luma (frame.texels row column 0) (frame.texels row column 1) (frame.texels row column 2)
  chroma : ∀ row < frame.height / 2, ∀ column < frame.width / 2,
    buffer (layout.uvOffset + row * layout.stride + column * 2) =
        chromaU (frame.texels.average row column 0) (frame.texels.average row column 1)
          (frame.texels.average row column 2) ∧
      buffer (layout.uvOffset + row * layout.stride + (column * 2 + 1)) =
        chromaV (frame.texels.average row column 0) (frame.texels.average row column 1)
          (frame.texels.average row column 2)

/-- What `fill` leaves in the buffer when it has read the frame into `scratch`. -/
def filled (info : ShmRing.FrameInfo) (layout : Nv12Layout) (scratch buffer : ℕ → UInt8) :
    ℕ → UInt8 :=
  exec scratch
    (copyPlanes (nv12Layout (toInt info.width) (toInt info.height) (toInt info.stride)) layout)
    buffer

/-- The buffer is for frames of this size. -/
structure Fits (layout : Nv12Layout) (frame : Taken) : Prop where
  sound : layout.Sound
  width : layout.width = frame.width
  height : layout.height = frame.height
  stride : layout.width ≤ layout.stride

/-- What was read is a frame that was accepted, and is displayed as its picture. -/
def Shows (r : Publication) (frame : Taken) : Prop :=
  Carries r frame ∧ ∀ layout, Fits layout frame → ∀ scratch buffer : ℕ → UInt8,
    (∀ i < r.pixels.length, scratch i = memory r.pixels i) →
      Displays layout (filled r.info layout scratch buffer) frame

/-- Each frame that was read was accepted, at a place that does not go back in a generation, and
goes on with the number. -/
def Shown (s : State) : Prop :=
  ∃ index : Publication → ℕ,
    (∀ r ∈ s.ring.reads, ∃ frame ∈ s.accepted[index r]?, Shows r frame) ∧
      s.ring.reads.Pairwise fun r r' => r.generation = r'.generation →
        index r ≤ index r' ∧ (r.info.writeSeq ≠ r'.info.writeSeq → index r ≠ index r')

/-! ### A picture in the buffer -/

section Buffer
variable {texels : Texels} {width height row column : ℕ}

theorem memory_luma (hrow : row < height) (hcolumn : column < width) :
    memory (texels.nv12 width height) (row * width + column) =
      luma (texels row column 0) (texels row column 1) (texels row column 2) := by
  have hrows : ∀ row < height, ((List.range width).map fun column =>
      luma (texels row column 0) (texels row column 1) (texels row column 2)).length = width :=
    fun row _ => by rw [List.length_map, List.length_range]
  have hend := row_end width hrow
  have hlength := length_lumaPlane texels width height
  rw [memory, Texels.nv12, List.getD_append _ _ _ _ (by omega), Texels.lumaPlane,
    getD_flatMap_range hrows hrow hcolumn, List.getD_eq_getElem _ _ (by simpa using hcolumn),
    List.getElem_map, List.getElem_range]

theorem memory_chroma (hwidth : width % 2 = 0) (hrow : row < height / 2)
    (hcolumn : column < width / 2) {k : ℕ} (hk : k < 2) :
    memory (texels.nv12 width height) (height * width + (row * width + (column * 2 + k))) =
      (texels.chroma row column).getD k 0 := by
  have hin : column * 2 + k < width := by omega
  have hlength := length_lumaPlane texels width height
  rw [memory, Texels.nv12, List.getD_append_right _ _ _ _ (by omega), hlength,
    Nat.add_sub_cancel_left, Texels.chromaPlane,
    getD_flatMap_range (fun row _ => length_chroma_row texels hwidth row) hrow hin]
  exact @getD_flatMap_range (width / 2) 2 (fun column => texels.chroma row column)
    (fun _ _ => rfl) column k hcolumn hk

variable {r : Publication} {frame : Taken} {layout : Nv12Layout} {scratch : ℕ → UInt8}

theorem displays_filled (hcarries : Carries r frame)
    (hframe : Supported frame.width frame.height) (hfits : Fits layout frame)
    (hscratch : ∀ i < r.pixels.length, scratch i = memory r.pixels i) (buffer : ℕ → UInt8) :
    Displays layout (filled r.info layout scratch buffer) frame := by
  have hsane := Fill.sane_of_geometryIsSane (hcarries.sane hframe)
  have hstride : r.info.stride = frame.width := congrArg ShmRing.FrameInfo.stride hcarries.info
  have hheight : r.info.height = frame.height := congrArg ShmRing.FrameInfo.height hcarries.info
  have hcovers := @Fill.covers_copyPlanes (planesOf r.info) layout hfits.sound
  have hlayout := hfits.stride
  have hwidth' := hfits.width
  have hheight' := hfits.height
  have hread {i : ℕ} (hi : i < frame.height * frame.width + frame.height / 2 * frame.width) :
      scratch i = memory (frame.texels.nv12 frame.width frame.height) i := by
    rw [← hcarries.pixels]
    refine hscratch i ?_
    rw [hcarries.pixels, length_nv12 _ hframe.width_even]
    exact hi
  have hvisible {column : ℕ} (h : column < frame.width) :
      column < min r.info.stride layout.stride := by
    rw [hstride]
    exact lt_min h (by omega)
  unfold filled
  rw [Fill.nv12Layout_of_sane hsane]
  refine ⟨fun row hrow column hcolumn => ?_, fun row hrow column hcolumn => ?_⟩
  · obtain ⟨st, hst, haddress, hvalue⟩ := Fill.exists_copyRows 0 0 16
      (hrow.trans_eq hheight'.symm) (hvisible hcolumn)
    have hmem : st ∈ copyPlanes (planesOf r.info) layout := List.mem_append_left _ hst
    have hend := row_end frame.width hrow
    rw [hcovers.exec_of_mem hmem (by omega), hvalue, Nat.zero_add, hstride, hread (by omega)]
    exact memory_luma hrow hcolumn
  · have hrow' : row < layout.height / 2 := by omega
    have hend := row_end frame.width hrow
    have hbyte {k : ℕ} (hk : k < 2) :
        exec scratch (copyPlanes (planesOf r.info) layout) buffer
            (layout.uvOffset + row * layout.stride + (column * 2 + k)) =
          (frame.texels.chroma row column).getD k 0 := by
      have heven := hframe.width_even
      have hcolumn' : column * 2 + k < frame.width := by omega
      obtain ⟨st, hst, haddress, hvalue⟩ := Fill.exists_copyRows layout.uvOffset
        (r.info.height * r.info.stride) 128 hrow' (hvisible hcolumn')
      have hmem : st ∈ copyPlanes (planesOf r.info) layout := List.mem_append_right _ hst
      rw [hcovers.exec_of_mem hmem haddress, hvalue, hstride, hheight, Nat.add_assoc,
        hread (by omega)]
      exact memory_chroma heven hrow hcolumn hk
    exact ⟨hbyte (by decide : 0 < 2), hbyte (by decide : 1 < 2)⟩

end Buffer

/-! ### The ring along a run -/

section Ring
variable {s : State}

theorem ring_publish (s : State) (frame : Media.FrameRingSink.TextureFrame) (contents : ℕ → Texels)
    (d3d : Media.FrameRingSink.D3d) : (s.publish frame contents d3d).ring = s.ring := by
  unfold State.publish
  split
  · rfl
  · dsimp only
    split_ifs
    · rfl
    · rfl
    · split <;> rfl

theorem ring_take (s : State) (getData mapHr : Media.FrameRingSink.HRESULT) (mapped : Mapped) :
    (s.take getData mapHr mapped).ring = s.ring := by
  unfold State.take
  split
  · rfl
  · dsimp only
    split_ifs <;> rfl

theorem ring_finish (s : State) (writeHr : Media.FrameRingSink.HRESULT) :
    (s.finish writeHr).ring = s.ring := by
  unfold State.finish
  split_ifs <;> rfl

theorem ring_ask (s : State) (hr : Media.FrameRingSink.HRESULT) (width height format : ℕ) :
    (s.ask hr width height format).ring = s.ring := by
  have hnote (width height format : ℕ) : (s.note hr width height format).ring = s.ring := by
    obtain ⟨desiredWidth, desiredHeight, hnote⟩ := note_eq s hr width height format
    rw [hnote]
  unfold State.ask
  by_cases hok : hr = Media.FrameRingSink.S_OK
  · simp only [if_pos hok]
    split_ifs <;> exact hnote _ _ _
  · simp only [if_neg hok]
    split_ifs <;> exact hnote _ _ _

/-- The worker calls the ring as the ring expects it. -/
theorem ring_next {a : Action} (hring : ReadLatest.Inv s.ring) (hsink : Inv s)
    (henabled : enabled s a) (htimely : Timely s a) : ReadLatest.Inv (next s a).ring := by
  obtain ⟨-, henabled⟩ := henabled
  cases a with
  | start =>
    show ReadLatest.Inv s.start.ring
    unfold State.start
    split_ifs <;> exact hring
  | requestStop => exact hring
  | join => exact hring
  | exit => exact hring
  | publish frame contents d3d =>
    show ReadLatest.Inv (s.publish frame contents d3d).ring
    rw [ring_publish]
    exact hring
  | create bridgeHr =>
    show ReadLatest.Inv (s.create bridgeHr).ring
    unfold State.create
    split_ifs <;> exact hring
  | take getData mapHr mapped =>
    show ReadLatest.Inv (s.take getData mapHr mapped).ring
    rw [ring_take]
    exact hring
  | convert =>
    have hhand := hsink.hand
    have hworker : s.worker = .converting := henabled
    simp only [Hand, hworker] at hhand
    obtain ⟨frame, -, hholds, hbgra⟩ := hhand
    show ReadLatest.Inv s.convert.ring
    rw [convert_eq hholds hbgra]
    exact hring
  | connect openHr =>
    show ReadLatest.Inv (s.connect openHr).ring
    unfold State.connect
    by_cases hconnected : s.connected = true
    · rw [if_pos hconnected]
      exact hring
    rw [if_neg hconnected]
    by_cases hfailed : Media.FrameRingSink.FAILED openHr
    · rw [if_pos hfailed]
      exact hring
    · rw [if_neg hfailed]
      exact hring.next (henabled.2 (Bool.of_not_eq_true hconnected) hfailed) trivial
  | ask hr width height format =>
    show ReadLatest.Inv (s.ask hr width height format).ring
    rw [ring_ask]
    exact hring
  | write guardHr qpc =>
    show ReadLatest.Inv (s.write guardHr qpc).ring
    unfold State.write
    split_ifs with hconnected hbytes hguard
    · rw [ring_finish]
      exact hring
    · rw [ring_finish]
      exact hring
    · rw [ring_finish]
      exact hring
    · rw [not_or] at hbytes
      have hcall : ReadLatest.enabled s.ring (.writeFrame ⟨s.locals.nv12, s.locals.info, qpc⟩) :=
        ⟨henabled.2 hguard, Nat.pos_of_ne_zero hbytes.1, Nat.not_lt.mp hbytes.2⟩
      exact hring.next hcall trivial
  | returned =>
    cases hworker : s.worker with
    | writing n =>
      simp only [Media.RingWorker.next, hworker]
      rw [State.returned, ring_finish]
      exact hring
    | _ =>
      simp only [Media.RingWorker.next, hworker]
      exact hring
  | ring a => exact hring.next henabled.2 (htimely.2 a rfl)

end Ring

/-! ### Runs -/

/-- Of one generation the frame with the smaller number was published first. -/
theorem writeSeq_lt {published reads : List Publication} (h : Faithful published reads)
    {p q : Publication} (hp : p ∈ published) (hq : q ∈ published)
    (hgeneration : p.generation = q.generation)
    (hlt : published.idxOf p < published.idxOf q) : p.info.writeSeq < q.info.writeSeq := by
  have hpair := List.pairwise_iff_getElem.mp h.numbered _ _
    (List.idxOf_lt_length_of_mem hp) (List.idxOf_lt_length_of_mem hq) hlt
  rw [List.getElem_idxOf, List.getElem_idxOf] at hpair
  exact hpair hgeneration

theorem shown {s : State} (hinv : Inv s) (hfaithful : Faithful s.ring.published s.ring.reads) :
    Shown s := by
  obtain ⟨index, hmono, hindex⟩ := exists_strictMono hinv.written.sublistForall₂
  refine ⟨fun r => index (s.ring.published.idxOf r), fun r hr => ?_, ?_⟩
  · obtain ⟨frame, hframe, hcarries⟩ := hindex _ r (List.getElem?_idxOf (hfaithful.single r hr))
    have hsupported := hinv.supported frame (List.mem_of_getElem? hframe)
    exact ⟨frame, hframe, hcarries, fun layout hfits scratch buffer hscratch =>
      displays_filled hcarries hsupported hfits hscratch buffer⟩
  · refine hfaithful.ordered.imp_of_mem fun {r r'} hr hr' hle hgeneration => ?_
    have hseq := hle hgeneration
    have hmem := hfaithful.single r hr
    have hmem' := hfaithful.single r' hr'
    constructor
    · refine hmono.monotone (Nat.not_lt.mp fun hlt => ?_)
      have hback := writeSeq_lt hfaithful hmem' hmem hgeneration.symm hlt
      omega
    · intro hne heq
      have hplace := hmono.injective heq
      have hsame := (List.getElem?_idxOf hmem).symm.trans
        ((congrArg (s.ring.published[·]?) hplace).trans (List.getElem?_idxOf hmem'))
      exact hne (congrArg (fun p : Publication => p.info.writeSeq) (Option.some.inj hsame))

end RemoteCam.Link.CameraFeed
