import RemoteCam.Ring.Fill

/-! # The test pattern

`renderPattern`: colour bars with a label, and under them a sweep bar with a counter, as the list of
its stores. Nothing that depends on the index of the frame is drawn above the split between the two
regions, and since the split is an even row no chroma block lies on both sides of it.

The `int`s are integers; the products fit an `int` in every frame of the ring (`products_fit`). -/

namespace RemoteCam.Media.TestPattern

open RemoteCam.Lib.Stores
open RemoteCam.Ring.Fill (Nv12Layout nv12Layout nv12Layout_sound)
open RemoteCam.Ring.ShmRing (kRingMaxWidth kRingMaxHeight)

/-! ### Rectangles -/

structure Yuv where
  y : UInt8 := 16
  u : UInt8 := 128
  v : UInt8 := 128
  deriving DecidableEq, Repr

/-- The values of `for (int i = start; i < bound; ++i)`. -/
def rangeFrom (start bound : ℕ) : List ℕ := List.range' start (bound - start)

def nv12FillRect (layout : Nv12Layout) (x y w h : ℤ) (colour : Yuv) : List (Store UInt8) :=
  if layout.totalSize = 0 ∨ w ≤ 0 ∨ h ≤ 0 then []
  else
    let x0 := (max 0 x).toNat
    let y0 := (max 0 y).toNat
    let x1 := (min (layout.width : ℤ) (x + w)).toNat
    let y1 := (min (layout.height : ℤ) (y + h)).toNat
    if x0 ≥ x1 ∨ y0 ≥ y1 then []
    else
      let cx0 := x0 / 2
      let cy0 := y0 / 2
      let cx1 := min (layout.width / 2) ((x1 + 1) / 2)
      let cy1 := min (layout.height / 2) ((y1 + 1) / 2)
      (rangeFrom y0 y1).flatMap (fun row =>
          memset (row * layout.stride + x0) colour.y (x1 - x0)) ++
        (rangeFrom cy0 cy1).flatMap fun row =>
          let line := layout.uvOffset + row * layout.stride
          (rangeFrom cx0 cx1).flatMap fun col =>
            memset (line + (col * 2 + 0)) colour.u 1 ++ memset (line + (col * 2 + 1)) colour.v 1

/-! ### Text -/

def kWhite : Yuv := ⟨180, 128, 128⟩
def kYellow : Yuv := ⟨162, 44, 142⟩
def kCyan : Yuv := ⟨131, 156, 44⟩
def kGreen : Yuv := ⟨112, 72, 58⟩
def kMagenta : Yuv := ⟨84, 184, 198⟩
def kRed : Yuv := ⟨65, 100, 212⟩
def kBlue : Yuv := ⟨35, 212, 114⟩
def kBlack : Yuv := ⟨16, 128, 128⟩

def kBars : List Yuv := [kWhite, kYellow, kCyan, kGreen, kMagenta, kRed, kBlue, kBlack]

def kPlaceholderInk : Yuv := ⟨180, 128, 128⟩
def kPlaceholderBg : Yuv := ⟨35, 212, 114⟩
def kWriterInk : Yuv := ⟨16, 128, 128⟩
def kWriterBg : Yuv := ⟨112, 72, 58⟩

def kGlyphW : ℕ := 5
def kGlyphH : ℕ := 7

/-- Column by column, bit 0 on top. -/
structure Glyph where
  ch : Char
  col : List ℕ

def kFont : List Glyph := [
  ⟨' ', [0x00, 0x00, 0x00, 0x00, 0x00]⟩, ⟨'-', [0x08, 0x08, 0x08, 0x08, 0x08]⟩,
  ⟨'.', [0x00, 0x60, 0x60, 0x00, 0x00]⟩, ⟨':', [0x00, 0x36, 0x36, 0x00, 0x00]⟩,
  ⟨'0', [0x3E, 0x51, 0x49, 0x45, 0x3E]⟩, ⟨'1', [0x00, 0x42, 0x7F, 0x40, 0x00]⟩,
  ⟨'2', [0x42, 0x61, 0x51, 0x49, 0x46]⟩, ⟨'3', [0x21, 0x41, 0x45, 0x4B, 0x31]⟩,
  ⟨'4', [0x18, 0x14, 0x12, 0x7F, 0x10]⟩, ⟨'5', [0x27, 0x45, 0x45, 0x45, 0x39]⟩,
  ⟨'6', [0x3C, 0x4A, 0x49, 0x49, 0x30]⟩, ⟨'7', [0x01, 0x71, 0x09, 0x05, 0x03]⟩,
  ⟨'8', [0x36, 0x49, 0x49, 0x49, 0x36]⟩, ⟨'9', [0x06, 0x49, 0x49, 0x29, 0x1E]⟩,
  ⟨'A', [0x7E, 0x11, 0x11, 0x11, 0x7E]⟩, ⟨'B', [0x7F, 0x49, 0x49, 0x49, 0x36]⟩,
  ⟨'C', [0x3E, 0x41, 0x41, 0x41, 0x22]⟩, ⟨'D', [0x7F, 0x41, 0x41, 0x22, 0x1C]⟩,
  ⟨'E', [0x7F, 0x49, 0x49, 0x49, 0x41]⟩, ⟨'F', [0x7F, 0x09, 0x09, 0x09, 0x01]⟩,
  ⟨'G', [0x3E, 0x41, 0x49, 0x49, 0x7A]⟩, ⟨'H', [0x7F, 0x08, 0x08, 0x08, 0x7F]⟩,
  ⟨'I', [0x00, 0x41, 0x7F, 0x41, 0x00]⟩, ⟨'J', [0x20, 0x40, 0x41, 0x3F, 0x01]⟩,
  ⟨'K', [0x7F, 0x08, 0x14, 0x22, 0x41]⟩, ⟨'L', [0x7F, 0x40, 0x40, 0x40, 0x40]⟩,
  ⟨'M', [0x7F, 0x02, 0x0C, 0x02, 0x7F]⟩, ⟨'N', [0x7F, 0x04, 0x08, 0x10, 0x7F]⟩,
  ⟨'O', [0x3E, 0x41, 0x41, 0x41, 0x3E]⟩, ⟨'P', [0x7F, 0x09, 0x09, 0x09, 0x06]⟩,
  ⟨'Q', [0x3E, 0x41, 0x51, 0x21, 0x5E]⟩, ⟨'R', [0x7F, 0x09, 0x19, 0x29, 0x46]⟩,
  ⟨'S', [0x46, 0x49, 0x49, 0x49, 0x31]⟩, ⟨'T', [0x01, 0x01, 0x7F, 0x01, 0x01]⟩,
  ⟨'U', [0x3F, 0x40, 0x40, 0x40, 0x3F]⟩, ⟨'V', [0x1F, 0x20, 0x40, 0x20, 0x1F]⟩,
  ⟨'W', [0x3F, 0x40, 0x38, 0x40, 0x3F]⟩, ⟨'X', [0x63, 0x14, 0x08, 0x14, 0x63]⟩,
  ⟨'Y', [0x07, 0x08, 0x70, 0x08, 0x07]⟩, ⟨'Z', [0x61, 0x51, 0x49, 0x45, 0x43]⟩]

def findGlyph (ch : Char) : Option Glyph := kFont.find? (·.ch = ch)

def drawGlyph (layout : Nv12Layout) (cursor y : ℤ) (scale : ℕ) (ink : Yuv) (g : Glyph) :
    List (Store UInt8) :=
  (List.range kGlyphW).flatMap fun col =>
    (List.range kGlyphH).flatMap fun row =>
      if (g.col.getD col 0).testBit row then
        nv12FillRect layout (cursor + col * scale) (y + row * scale) scale scale ink
      else []

def drawText (layout : Nv12Layout) (x y : ℤ) (scale : ℕ) : List Char → Yuv → List (Store UInt8)
  | [], _ => []
  | ch :: text, ink =>
    (match findGlyph ch with
      | some g => drawGlyph layout x y scale ink g
      | none => []) ++
      drawText layout (x + (kGlyphW + 1) * scale) y scale text ink

def textWidth (text : List Char) (scale : ℕ) : ℤ :=
  if text.length > 0 then (text.length * (kGlyphW + 1) - 1) * scale else 0

/-- Both loops stop when the buffer of `cap` characters has room for the terminator only. -/
def formatCounter (cap : ℕ) (frameIndex : UInt64) : List Char :=
  let n := (frameIndex % 1000000).toNat
  let digits := [100000, 10000, 1000, 100, 10, 1].map fun divisor =>
    "0123456789".toList.getD (n / divisor % 10) '0'
  ("FRAME ".toList ++ digits).take (cap - 1)

/-! ### The pattern -/

inductive PatternStyle where
  | placeholder
  | writer
  deriving DecidableEq, Repr

structure PatternRegions where
  staticTop : ℕ := 0
  staticHeight : ℕ := 0
  movingTop : ℕ := 0
  movingHeight : ℕ := 0
  deriving DecidableEq, Repr

def patternRegions (layout : Nv12Layout) : PatternRegions :=
  if layout.height = 0 then {}
  else
    let snapped := (layout.height * 2 / 3 + 1) / 2 * 2
    let staticHeight := if snapped ≥ layout.height then layout.height - 2 else snapped
    { staticTop := 0
      staticHeight
      movingTop := staticHeight
      movingHeight := layout.height - staticHeight }

/-- `while (labelScale > 1 && textWidth(label, labelScale) > layout.width) --labelScale`. -/
def shrink (layout : Nv12Layout) (label : List Char) : ℕ → ℕ
  | 0 => 0
  | 1 => 1
  | labelScale + 2 =>
    if textWidth label (labelScale + 2) > layout.width then shrink layout label (labelScale + 1)
    else labelScale + 2

/-- The static region. -/
def renderStatic (layout : Nv12Layout) (style : PatternStyle) : List (Store UInt8) :=
  let r := patternRegions layout
  let bg := if style = .placeholder then kPlaceholderBg else kWriterBg
  let ink := if style = .placeholder then kPlaceholderInk else kWriterInk
  let label := if style = .placeholder then "REMOTECAM - WAITING FOR PHONE".toList
    else "REMOTECAM - SHM WRITER".toList
  let barW := layout.width / 8
  let labelScale := shrink layout label (if layout.height ≥ 720 then 4 else 2)
  let labelBoxH := kGlyphH * labelScale + 12 * labelScale / 2
  let labelBoxY : ℤ := r.staticTop + r.staticHeight / 2 - labelBoxH / 2
  ((List.range 8).flatMap fun i =>
      let x := i * barW
      let w := if i = 7 then layout.width - x else barW
      nv12FillRect layout x r.staticTop w r.staticHeight (kBars.getD i {})) ++
    (nv12FillRect layout 0 labelBoxY layout.width labelBoxH bg ++
      drawText layout ((layout.width - textWidth label labelScale).tdiv 2)
        (labelBoxY + (labelBoxH - kGlyphH * labelScale) / 2) labelScale label ink)

def sweepW (layout : Nv12Layout) : ℕ := layout.width / 24

def phase (layout : Nv12Layout) (frameIndex : UInt64) : ℕ :=
  let travel := layout.width - sweepW layout
  if travel > 0 then (frameIndex % 97).toNat * travel / 96 else 0

def sweepColour : PatternStyle → Yuv
  | .placeholder => kCyan
  | .writer => kMagenta

/-- The moving region. -/
def renderMoving (layout : Nv12Layout) (frameIndex : UInt64) (style : PatternStyle) :
    List (Store UInt8) :=
  let r := patternRegions layout
  let counter := formatCounter 32 frameIndex
  let counterScale := if layout.height ≥ 720 then 5 else 2
  nv12FillRect layout 0 r.movingTop layout.width r.movingHeight kBlack ++
    (nv12FillRect layout (phase layout frameIndex) (r.movingTop + r.movingHeight / 2)
        (sweepW layout) (r.movingHeight / 2) (sweepColour style) ++
      drawText layout ((layout.width - textWidth counter counterScale).tdiv 2)
        (r.movingTop + r.movingHeight / 4 - kGlyphH * counterScale / 2) counterScale counter kWhite)

def renderPattern (layout : Nv12Layout) (frameIndex : UInt64) (style : PatternStyle) :
    List (Store UInt8) :=
  if layout.totalSize = 0 then []
  else
    memset 0 0 layout.totalSize ++
      (renderStatic layout style ++ renderMoving layout frameIndex style)

/-- The buffer `dst` after `renderPattern`. -/
def rendered (layout : Nv12Layout) (frameIndex : UInt64) (style : PatternStyle)
    (dst : ℕ → UInt8) : ℕ → UInt8 :=
  exec dst (renderPattern layout frameIndex style) dst

/-! ### What is drawn -/

section Drawing

variable {layout : Nv12Layout} {x y w h : ℤ} {colour : Yuv} {st : Store UInt8}
  {stores more : List (Store UInt8)} {top bottom top' bottom' row col a : ℕ}

theorem mem_rangeFrom {start bound i : ℕ} (h : i ∈ rangeFrom start bound) :
    start ≤ i ∧ i < bound := by
  have hmem := List.mem_range'_1.mp h
  omega

theorem rangeFrom_mem {start bound i : ℕ} (h : start ≤ i) (h' : i < bound) :
    i ∈ rangeFrom start bound := List.mem_range'_1.mpr ⟨h, by omega⟩

/-- A store of `nv12FillRect`: a pixel of the rectangle, or a byte of a block it touches. -/
inductive Drawn (layout : Nv12Layout) (x y w h : ℤ) (colour : Yuv) (st : Store UInt8) : Prop
  | luma (row col : ℕ) (inRows : y ≤ row ∧ row < y + h) (inColumns : x ≤ col ∧ col < x + w)
      (row_lt : row < layout.height) (col_lt : col < layout.width)
      (address : st.address = row * layout.stride + col) (value : ∀ m, st.value m = colour.y)
      (reads : st.reads = [])
  | chroma (row col : ℕ) (inRows : y ≤ 2 * row + 1 ∧ 2 * row < y + h)
      (row_lt : row < layout.height / 2) (col_lt : col < layout.width)
      (address : st.address = layout.uvOffset + row * layout.stride + col) (reads : st.reads = [])

theorem drawn_of_mem (hst : st ∈ nv12FillRect layout x y w h colour) :
    Drawn layout x y w h colour st := by
  unfold nv12FillRect at hst
  split_ifs at hst
  · cases hst
  dsimp only at hst
  split_ifs at hst
  · cases hst
  rcases List.mem_append.mp hst with hluma | hchroma
  · obtain ⟨row, hrow, hst⟩ := List.mem_flatMap.mp hluma
    obtain ⟨hle, hlt⟩ := mem_rangeFrom hrow
    obtain ⟨haddress, haddress', hvalue⟩ := of_mem_memset hst
    exact .luma row (st.address - row * layout.stride) (by omega) (by omega) (by omega) (by omega)
      (by omega) hvalue (reads_memset hst)
  · obtain ⟨row, hrow, hst⟩ := List.mem_flatMap.mp hchroma
    obtain ⟨hle, hlt⟩ := mem_rangeFrom hrow
    have inRows : y ≤ 2 * row + 1 ∧ 2 * row < y + h := by omega
    have row_lt : row < layout.height / 2 := by omega
    obtain ⟨col, hcol, hst⟩ := List.mem_flatMap.mp hst
    have hcol' := (mem_rangeFrom hcol).2
    have col_lt : col < layout.width / 2 := by omega
    rcases List.mem_append.mp hst with hst | hst
    · obtain ⟨haddress, haddress', -⟩ := of_mem_memset hst
      exact .chroma row (col * 2) inRows row_lt (by omega) (by omega) (reads_memset hst)
    · obtain ⟨haddress, haddress', -⟩ := of_mem_memset hst
      exact .chroma row (col * 2 + 1) inRows row_lt (by omega) (by omega) (reads_memset hst)

theorem reads_nv12FillRect (hst : st ∈ nv12FillRect layout x y w h colour) : st.reads = [] := by
  cases drawn_of_mem hst with
  | luma _ _ _ _ _ _ _ _ reads => exact reads
  | chroma _ _ _ _ _ _ reads => exact reads

/-- All the pixels of a rectangle are drawn. -/
theorem exists_drawn (hstride : layout.width ≤ layout.stride)
    (hsize : layout.height * layout.stride ≤ layout.totalSize) (hrow : row < layout.height)
    (hcol : col < layout.width) (hrows : y ≤ row ∧ row < y + h) (hcols : x ≤ col ∧ col < x + w) :
    row * layout.stride + col ∈ addresses (nv12FillRect layout x y w h colour) := by
  have hend := row_end layout.stride hrow
  unfold nv12FillRect
  rw [if_neg (by omega), if_neg (by omega)]
  obtain ⟨st, hst, haddress⟩ := @exists_memset UInt8 (row * layout.stride + col) colour.y
    (row * layout.stride + (max 0 x).toNat)
    ((min (layout.width : ℤ) (x + w)).toNat - (max 0 x).toNat) (by omega)
  rw [← haddress]
  refine List.mem_map_of_mem (List.mem_append_left _ (List.mem_flatMap.mpr ⟨row, ?_, hst⟩))
  exact rangeFrom_mem (by omega) (by omega)

/-- The address is of a row of the band, or of a row of blocks that it touches. -/
def InBand (layout : Nv12Layout) (top bottom a : ℕ) : Prop :=
  (top * layout.stride ≤ a ∧ a < bottom * layout.stride) ∨
    (layout.uvOffset + top / 2 * layout.stride ≤ a ∧
      a < layout.uvOffset + (bottom + 1) / 2 * layout.stride)

def Within (layout : Nv12Layout) (top bottom : ℕ) (stores : List (Store UInt8)) : Prop :=
  ∀ st ∈ stores, InBand layout top bottom st.address

theorem InBand.mono (h : InBand layout top bottom a) (htop : top' ≤ top)
    (hbottom : bottom ≤ bottom') : InBand layout top' bottom' a := by
  have hluma := Nat.mul_le_mul_right layout.stride htop
  have hluma' := Nat.mul_le_mul_right layout.stride hbottom
  have hchroma := Nat.mul_le_mul_right layout.stride (show top' / 2 ≤ top / 2 by omega)
  have hchroma' := Nat.mul_le_mul_right layout.stride
    (show (bottom + 1) / 2 ≤ (bottom' + 1) / 2 by omega)
  rcases h with ⟨hle, hlt⟩ | ⟨hle, hlt⟩
  · exact .inl ⟨by omega, by omega⟩
  · exact .inr ⟨by omega, by omega⟩

theorem Within.mono (h : Within layout top bottom stores) (htop : top' ≤ top)
    (hbottom : bottom ≤ bottom') : Within layout top' bottom' stores :=
  fun st hst => (h st hst).mono htop hbottom

theorem within_append (h : Within layout top bottom stores) (h' : Within layout top bottom more) :
    Within layout top bottom (stores ++ more) :=
  fun st hst => (List.mem_append.mp hst).elim (h st) (h' st)

theorem within_flatMap {ι : Type} {l : List ι} {f : ι → List (Store UInt8)}
    (h : ∀ i ∈ l, Within layout top bottom (f i)) : Within layout top bottom (l.flatMap f) := by
  intro st hst
  obtain ⟨i, hi, hst⟩ := List.mem_flatMap.mp hst
  exact h i hi st hst

/-- The rows that `nv12FillRect` is asked to draw, cut at the frame's edge. -/
theorem within_nv12FillRect (hstride : layout.width ≤ layout.stride) (htop : (top : ℤ) ≤ max 0 y)
    (hbottom : min (layout.height : ℤ) (y + h) ≤ bottom) :
    Within layout top bottom (nv12FillRect layout x y w h colour) := by
  intro st hst
  cases drawn_of_mem hst with
  | luma row col inRows _ row_lt col_lt address =>
    have hfirst := Nat.mul_le_mul_right layout.stride (show top ≤ row by omega)
    have hlast := row_end layout.stride (show row < bottom by omega)
    exact .inl ⟨by omega, by omega⟩
  | chroma row col inRows row_lt col_lt address =>
    have hfirst := Nat.mul_le_mul_right layout.stride (show top / 2 ≤ row by omega)
    have hlast := row_end layout.stride (show row < (bottom + 1) / 2 by omega)
    exact .inr ⟨by omega, by omega⟩

theorem within_drawGlyph {cursor : ℤ} {scale : ℕ} {g : Glyph}
    (hstride : layout.width ≤ layout.stride) (htop : (top : ℤ) ≤ max 0 y)
    (hbottom : min (layout.height : ℤ) (y + kGlyphH * scale) ≤ bottom) :
    Within layout top bottom (drawGlyph layout cursor y scale colour g) := by
  refine within_flatMap fun col _ => within_flatMap fun row hrow => ?_
  have hrow : row + 1 ≤ kGlyphH := List.mem_range.mp hrow
  have hscale : (row + 1) * scale ≤ kGlyphH * scale := Nat.mul_le_mul_right scale hrow
  rw [Nat.add_mul, Nat.one_mul] at hscale
  have hlast : (row * scale + scale : ℤ) ≤ kGlyphH * scale := by exact_mod_cast hscale
  have hfirst : (0 : ℤ) ≤ row * scale := by exact_mod_cast Nat.zero_le (row * scale)
  split_ifs
  · exact within_nv12FillRect hstride (by omega) (by omega)
  · exact fun st hst => by cases hst

theorem within_drawText {scale : ℕ} (hstride : layout.width ≤ layout.stride)
    (htop : (top : ℤ) ≤ max 0 y) (hbottom : min (layout.height : ℤ) (y + kGlyphH * scale) ≤ bottom)
    (text : List Char) (x : ℤ) :
    Within layout top bottom (drawText layout x y scale text colour) := by
  induction text generalizing x with
  | nil => exact fun st hst => by cases hst
  | cons ch text ih =>
    refine within_append ?_ (ih _)
    cases findGlyph ch with
    | some g => exact within_drawGlyph hstride htop hbottom
    | none => exact fun st hst => by cases hst

theorem not_mem_addresses (h : Within layout top bottom stores) (ha : ¬InBand layout top bottom a) :
    a ∉ addresses stores := by
  intro hmem
  obtain ⟨st, hst, rfl⟩ := List.mem_map.mp hmem
  exact ha (h st hst)

/-- A pixel has one row and one column. -/
theorem pixel_inj {stride row' col' : ℕ} (hcol : col < stride) (hcol' : col' < stride)
    (h : row * stride + col = row' * stride + col') : row = row' ∧ col = col' := by
  rcases Nat.lt_trichotomy row row' with hlt | rfl | hlt
  · have hend := row_end stride hlt
    omega
  · exact ⟨rfl, Nat.add_left_cancel h⟩
  · have hend := row_end stride hlt
    omega

/-- A pixel after `nv12FillRect`. -/
theorem exec_nv12FillRect {m dst : ℕ → UInt8} (hstride : layout.width ≤ layout.stride)
    (hlayout : layout.Sound) (hrow : row < layout.height) (hcol : col < layout.width) :
    exec m (nv12FillRect layout x y w h colour) dst (row * layout.stride + col) =
      if (y ≤ row ∧ row < y + h) ∧ x ≤ col ∧ col < x + w then colour.y
      else dst (row * layout.stride + col) := by
  have hplane : row * layout.stride + col < layout.uvOffset := by
    have hend := row_end layout.stride hrow
    rw [hlayout.uvOffset]
    omega
  split_ifs with hin
  · refine exec_of_forall_value (fun st hst haddress => ?_) (exists_drawn hstride ?_ hrow hcol
      hin.1 hin.2)
    · cases drawn_of_mem hst with
      | luma _ _ _ _ _ _ _ value => exact value m
      | chroma row' col' _ _ _ address => omega
    · rw [hlayout.totalSize, hlayout.uvOffset]
      exact Nat.le_add_right ..
  · refine exec_of_not_mem fun hmem => hin ?_
    obtain ⟨st, hst, haddress⟩ := List.mem_map.mp hmem
    cases drawn_of_mem hst with
    | luma row' col' inRows inColumns _ col_lt address =>
      obtain ⟨rfl, rfl⟩ := pixel_inj (by omega) (by omega) (haddress.symm.trans address)
      exact ⟨inRows, inColumns⟩
    | chroma row' col' _ _ _ address => omega

theorem reads_drawText {scale : ℕ} {text : List Char}
    (hst : st ∈ drawText layout x y scale text colour) : st.reads = [] := by
  induction text generalizing x with
  | nil => cases hst
  | cons ch text ih =>
    rcases List.mem_append.mp hst with hst | hst
    · cases hglyph : findGlyph ch with
      | some g =>
        rw [hglyph] at hst
        obtain ⟨col, -, hst⟩ := List.mem_flatMap.mp hst
        obtain ⟨row, -, hst⟩ := List.mem_flatMap.mp hst
        split_ifs at hst
        · exact reads_nv12FillRect hst
        · cases hst
      | none =>
        rw [hglyph] at hst
        cases hst
    · exact ih hst

end Drawing

/-! ### The two regions -/

section Regions

variable {layout : Nv12Layout} {style : PatternStyle} {frameIndex : UInt64} {a : ℕ}

/-- The split of a frame with at least 96 rows. -/
structure Split (layout : Nv12Layout) (r : PatternRegions) : Prop where
  staticTop : r.staticTop = 0
  even : r.staticHeight % 2 = 0
  movingTop : r.movingTop = r.staticHeight
  bottom : r.movingTop + r.movingHeight = layout.height
  movingHeight_even : r.movingHeight % 2 = 0
  movingHeight_ge : 32 ≤ r.movingHeight
  movingHeight_ge_large : 720 ≤ layout.height → 238 ≤ r.movingHeight

theorem split_patternRegions (heven : layout.height % 2 = 0) (hheight : 96 ≤ layout.height) :
    Split layout (patternRegions layout) := by
  unfold patternRegions
  rw [if_neg (by omega)]
  dsimp only
  rw [if_neg (by omega)]
  constructor <;> dsimp only <;> omega

theorem reads_renderStatic {st : Store UInt8} (hst : st ∈ renderStatic layout style) :
    st.reads = [] := by
  rcases List.mem_append.mp hst with hst | hst
  · obtain ⟨i, -, hst⟩ := List.mem_flatMap.mp hst
    exact reads_nv12FillRect hst
  · rcases List.mem_append.mp hst with hst | hst
    · exact reads_nv12FillRect hst
    · exact reads_drawText hst

theorem within_renderStatic (hstride : layout.width ≤ layout.stride) :
    Within layout 0 layout.height (renderStatic layout style) := by
  refine within_append (within_flatMap fun i _ => ?_) (within_append ?_ ?_)
  · exact within_nv12FillRect hstride (le_max_left ..) (min_le_left ..)
  · exact within_nv12FillRect hstride (le_max_left ..) (min_le_left ..)
  · exact within_drawText hstride (le_max_left ..) (min_le_left ..) _ _

theorem counterTop_ge (hsplit : Split layout (patternRegions layout)) {counterScale : ℕ}
    (hscale : counterScale = if layout.height ≥ 720 then 5 else 2) :
    kGlyphH * counterScale / 2 ≤ (patternRegions layout).movingHeight / 4 ∧
      kGlyphH * counterScale ≤ (patternRegions layout).movingHeight / 4 +
        kGlyphH * counterScale / 2 := by
  have hge := hsplit.movingHeight_ge
  have hlarge := hsplit.movingHeight_ge_large
  split_ifs at hscale with h
  · have hlarge := hlarge h
    rw [hscale]
    simp only [kGlyphH]
    omega
  · rw [hscale]
    simp only [kGlyphH]
    omega

/-- All that depends on the frame is below the split. -/
theorem within_renderMoving (hstride : layout.width ≤ layout.stride)
    (hsplit : Split layout (patternRegions layout)) :
    Within layout (patternRegions layout).movingTop layout.height
      (renderMoving layout frameIndex style) := by
  have hcounter := (counterTop_ge hsplit rfl).1
  refine within_append ?_ (within_append ?_ ?_)
  · exact within_nv12FillRect hstride (by omega) (min_le_left ..)
  · exact within_nv12FillRect hstride (by omega) (min_le_left ..)
  · exact within_drawText hstride (by omega) (min_le_left ..) _ _

/-- The bands of the frame's rows are the whole buffer. -/
theorem inBand_iff (hlayout : layout.Sound) :
    InBand layout 0 layout.height a ↔ a < layout.totalSize := by
  have hhalf : (layout.height + 1) / 2 = layout.height / 2 := by
    have heven := hlayout.even
    omega
  unfold InBand
  rw [hhalf, hlayout.totalSize, Nat.zero_div, Nat.zero_mul, ← hlayout.uvOffset]
  omega

theorem not_inBand_of_inBand (hlayout : layout.Sound) {split bottom : ℕ} (heven : split % 2 = 0)
    (hsplit : split ≤ layout.height) (ha : InBand layout 0 split a)
    (hbottom : bottom ≤ layout.height) : ¬InBand layout split bottom a := by
  have hhalf : (split + 1) / 2 = split / 2 := by omega
  have hplane := Nat.mul_le_mul_right layout.stride hsplit
  have hplane' := Nat.mul_le_mul_right layout.stride hbottom
  have huv := hlayout.uvOffset
  unfold InBand at ha ⊢
  rw [hhalf] at ha
  omega

/-- A pixel is in no band of other rows. -/
theorem not_inBand_of_row (hlayout : layout.Sound) {top bottom row col : ℕ}
    (hcol : col < layout.stride) (hrow : row < layout.height) (hbottom : bottom ≤ row) :
    ¬InBand layout top bottom (row * layout.stride + col) := by
  have hend := row_end layout.stride hrow
  have hrows := Nat.mul_le_mul_right layout.stride hbottom
  have huv := hlayout.uvOffset
  unfold InBand
  omega

/-- What depends on neither the frame nor the buffer. -/
theorem rendered_of_static (hlayout : layout.Sound) (hstride : layout.width ≤ layout.stride)
    (hsplit : Split layout (patternRegions layout)) (style : PatternStyle)
    (ha : InBand layout 0 (patternRegions layout).staticHeight a) (n n' : UInt64)
    (dst dst' : ℕ → UInt8) :
    rendered layout n style dst a = rendered layout n' style dst' a := by
  have hbottom := hsplit.bottom
  have htop := hsplit.movingTop
  have hsize : a < layout.totalSize :=
    (inBand_iff hlayout).mp (ha.mono le_rfl (by omega))
  have hstill (n : UInt64) (dst : ℕ → UInt8) : rendered layout n style dst a =
      exec dst (memset 0 0 layout.totalSize ++ renderStatic layout style) dst a := by
    have hmoving : a ∉ addresses (renderMoving layout n style) := by
      refine not_mem_addresses (within_renderMoving hstride hsplit) ?_
      rw [htop]
      exact not_inBand_of_inBand hlayout hsplit.even (by omega) ha le_rfl
    rw [rendered, renderPattern, if_neg (by omega), ← List.append_assoc, exec_append,
      exec_of_not_mem hmoving]
  have hcleared : a ∈ addresses (memset 0 (0 : UInt8) layout.totalSize ++
      renderStatic layout style) := by
    obtain ⟨st, hst, rfl⟩ := @exists_memset UInt8 a 0 0 layout.totalSize (by omega)
    exact List.mem_map_of_mem (List.mem_append_left _ hst)
  rw [hstill n dst, hstill n' dst', exec_congr_dst (fun hno => absurd hcleared hno)]
  refine congrFun (exec_congr fun st hst i hi => ?_) a
  have hreads : st.reads = [] :=
    (List.mem_append.mp hst).elim reads_memset reads_renderStatic
  rw [hreads] at hi
  cases hi

/-- The first row of the sweep bar: it is black where the bar is not. -/
theorem rendered_of_sweepRow (hlayout : layout.Sound) (hstride : layout.width ≤ layout.stride)
    (hsplit : Split layout (patternRegions layout)) (style : PatternStyle) {row col : ℕ}
    (hrow : row = (patternRegions layout).movingTop + (patternRegions layout).movingHeight / 2)
    (hcol : col < layout.width) (n : UInt64) (dst : ℕ → UInt8) :
    rendered layout n style dst (row * layout.stride + col) =
      if phase layout n ≤ col ∧ col < phase layout n + sweepW layout then (sweepColour style).y
      else kBlack.y := by
  have hbottom := hsplit.bottom
  have hge := hsplit.movingHeight_ge
  obtain ⟨hcounter, hcounter'⟩ := counterTop_ge hsplit rfl
  have hlt : row < layout.height := by omega
  have hsize : layout.totalSize ≠ 0 := by
    have hend := row_end layout.stride hlt
    rw [hlayout.totalSize, hlayout.uvOffset]
    omega
  have hunder (x : ℤ) : row * layout.stride + col ∉ addresses (drawText layout x
      ((patternRegions layout).movingTop + (patternRegions layout).movingHeight / 4 -
        kGlyphH * (if layout.height ≥ 720 then 5 else 2 : ℕ) / 2)
      (if layout.height ≥ 720 then 5 else 2) (formatCounter 32 n) kWhite) :=
    not_mem_addresses (within_drawText hstride (le_max_left ..) (by omega) _ _)
      (not_inBand_of_row hlayout (by omega) hlt le_rfl)
  rw [rendered, renderPattern, if_neg hsize, exec_append, exec_append, renderMoving, exec_append,
    exec_append, exec_of_not_mem (hunder _), exec_nv12FillRect hstride hlayout hlt hcol,
    exec_nv12FillRect hstride hlayout hlt hcol]
  by_cases hbar : phase layout n ≤ col ∧ col < phase layout n + sweepW layout
  · rw [if_pos hbar, if_pos (by omega)]
  · rw [if_neg hbar, if_neg (by omega), if_pos (by omega)]

/-! ### The sweep -/

theorem index_le (n : UInt64) : (n % 97).toNat ≤ 96 :=
  Nat.le_of_lt_succ (Nat.mod_lt n.toNat (by decide : 0 < 97))

theorem phase_eq (n : UInt64) :
    phase layout n = (n % 97).toNat * (layout.width - sweepW layout) / 96 := by
  unfold phase
  dsimp only
  split_ifs with h
  · rfl
  · rw [Nat.eq_zero_of_not_pos h, Nat.mul_zero, Nat.zero_div]

/-- The bar stays in the frame. -/
theorem phase_le (n : UInt64) : phase layout n ≤ layout.width - sweepW layout := by
  rw [phase_eq]
  exact Nat.div_le_of_le_mul (Nat.mul_le_mul_right _ (index_le n))

theorem phase_lt_of_lt {n n' : UInt64} (hwidth : 360 ≤ layout.width)
    (h : (n % 97).toNat < (n' % 97).toNat) : phase layout n < phase layout n' := by
  have htravel : 96 ≤ layout.width - sweepW layout := by
    unfold sweepW
    omega
  have hstep := row_end (layout.width - sweepW layout) h
  rw [phase_eq, phase_eq]
  omega

/-- Also where the index wraps: 2^64 - 1 leaves the remainder 60. -/
theorem index_ne (n : UInt64) : (n % 97).toNat ≠ ((n + 1) % 97).toNat := by
  have hlt : n.toNat < 2 ^ 64 := n.toNat_lt
  have hmod : (97 : UInt64).toNat = 97 := rfl
  have hone : (1 : UInt64).toNat = 1 := rfl
  rw [UInt64.toNat_mod, UInt64.toNat_mod, UInt64.toNat_add, hmod, hone]
  rcases Nat.lt_or_ge (n.toNat + 1) (2 ^ 64) with hfits | hwraps
  · rw [Nat.mod_eq_of_lt hfits]
    omega
  · have hlast : n.toNat = 2 ^ 64 - 1 := by omega
    rw [hlast]
    decide

theorem products_fit (hwidth : layout.width ≤ kRingMaxWidth)
    (hheight : layout.height ≤ kRingMaxHeight) (n : UInt64) :
    layout.height * 2 < 2 ^ 31 ∧ (n % 97).toNat * (layout.width - sweepW layout) < 2 ^ 31 := by
  have hindex := Nat.mul_le_mul_right (layout.width - sweepW layout) (index_le n)
  simp only [kRingMaxWidth, kRingMaxHeight] at hwidth hheight
  constructor <;> omega

/-- The sweep bar of the next frame is elsewhere. -/
theorem exists_moving_ne (hlayout : layout.Sound) (hstride : layout.width ≤ layout.stride)
    (hsplit : Split layout (patternRegions layout)) (hwidth : 360 ≤ layout.width)
    (style : PatternStyle) (n : UInt64) (dst dst' : ℕ → UInt8) :
    ∃ col < layout.width, ∃ row, row = (patternRegions layout).movingTop +
        (patternRegions layout).movingHeight / 2 ∧
      rendered layout n style dst (row * layout.stride + col) ≠
        rendered layout (n + 1) style dst' (row * layout.stride + col) := by
  have hsweep : 0 < sweepW layout ∧ sweepW layout < layout.width := by
    unfold sweepW
    omega
  have hcolour : (sweepColour style).y ≠ kBlack.y := by
    cases style with
    | placeholder => decide
    | writer => decide
  have hn := @phase_le layout n
  have hn' := @phase_le layout (n + 1)
  rcases Nat.lt_or_gt_of_ne (index_ne n) with hlt | hlt
  · have hphase := phase_lt_of_lt hwidth hlt
    refine ⟨phase layout n, by omega, _, rfl, ?_⟩
    rw [rendered_of_sweepRow hlayout hstride hsplit style rfl (by omega),
      rendered_of_sweepRow hlayout hstride hsplit style rfl (by omega), if_pos (by omega),
      if_neg (by omega)]
    exact hcolour
  · have hphase := phase_lt_of_lt hwidth hlt
    refine ⟨phase layout (n + 1), by omega, _, rfl, ?_⟩
    rw [rendered_of_sweepRow hlayout hstride hsplit style rfl (by omega),
      rendered_of_sweepRow hlayout hstride hsplit style rfl (by omega), if_neg (by omega),
      if_pos (by omega)]
    exact hcolour.symm

/-- **What the probe relies on**: the pattern stays in the buffer, every byte of its static region
is the same in all frames, and a pixel of its moving region changes with each. -/
theorem rendered_of_layout {width height stride : ℤ} {layout : Nv12Layout}
    (hlayout : layout = nv12Layout width height stride) (hheight : 96 ≤ layout.height)
    (hwidth : 360 ≤ layout.width) (hstride : layout.width ≤ layout.stride)
    (style : PatternStyle) :
    let r := patternRegions layout
    (∀ n, ∀ a ∈ addresses (renderPattern layout n style), a < layout.totalSize) ∧
    (∀ n n' dst dst' a, InBand layout r.staticTop (r.staticTop + r.staticHeight) a →
      rendered layout n style dst a = rendered layout n' style dst' a) ∧
    ∀ n dst dst', ∃ row col, r.movingTop ≤ row ∧ row < r.movingTop + r.movingHeight ∧
      col < layout.width ∧ rendered layout n style dst (row * layout.stride + col) ≠
        rendered layout (n + 1) style dst' (row * layout.stride + col) := by
  have hsound : layout.Sound := hlayout ▸ nv12Layout_sound width height stride
  have hsplit := split_patternRegions hsound.even hheight
  have hge := hsplit.movingHeight_ge
  refine ⟨fun n a ha => ?_, fun n n' dst dst' a ha => ?_, fun n dst dst' => ?_⟩
  · obtain ⟨st, hst, rfl⟩ := List.mem_map.mp ha
    unfold renderPattern at hst
    split_ifs at hst
    · cases hst
    · rcases List.mem_append.mp hst with hst | hst
      · have hmem := of_mem_memset hst
        omega
      · refine (inBand_iff hsound).mp (within_append (within_renderStatic hstride) ?_ st hst)
        exact (within_renderMoving hstride hsplit).mono (Nat.zero_le _) le_rfl
  · rw [hsplit.staticTop, Nat.zero_add] at ha
    exact rendered_of_static hsound hstride hsplit style ha n n' dst dst'
  · obtain ⟨col, hcol, row, hrow, hne⟩ :=
      exists_moving_ne hsound hstride hsplit hwidth style n dst dst'
    exact ⟨row, col, by omega, by omega, hcol, hne⟩

/-- A padded frame, at the index that wraps. -/
theorem rendered_of_layout_padded :
    let layout := nv12Layout 640 480 704
    (∀ a ∈ addresses (renderPattern layout 7 .writer), a < 506880) ∧
    (∀ a, InBand layout 0 320 a → rendered layout 7 .writer (fun _ => 0xAA) a =
      rendered layout 8 .writer (fun _ => 0x55) a) ∧
    ∃ row col, 320 ≤ row ∧ row < 480 ∧ col < 640 ∧
      rendered layout 0xFFFFFFFFFFFFFFFF .writer (fun _ => 0xAA) (row * 704 + col) ≠
        rendered layout 0 .writer (fun _ => 0x55) (row * 704 + col) := by
  obtain ⟨hinside, hstatic, hmoving⟩ := @rendered_of_layout 640 480 704 _ rfl (by decide)
    (by decide) (by decide) .writer
  exact ⟨hinside 7, hstatic 7 8 _ _, hmoving 0xFFFFFFFFFFFFFFFF _ _⟩

end Regions

end RemoteCam.Media.TestPattern
