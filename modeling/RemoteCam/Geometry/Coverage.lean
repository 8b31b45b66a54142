import RemoteCam.Geometry.Transform
import RemoteCam.Lib.Box
import Mathlib.Analysis.Complex.Trigonometric
import Mathlib.Tactic.LinearCombination
import Mathlib.Tactic.NormNum
import Mathlib.Tactic.Positivity

/-! # Fill covers the canvas

A point of the canvas shows the source at its distance from the centre, turned and scaled back, less
the pan in source pixels (`destToSource_apply`). So the canvas is covered if the reach of the turned
canvas and the pan together stay within the source (`covers_iff`), which `clampPanForCoverage`
arranges (`covers_clamp`) without moving a pan that is within it already (`clamp_of_covers`). -/

namespace RemoteCam.Geometry.Coverage

open RemoteCam.Lib.Box RemoteCam.Geometry.Transform RemoteCam.Geometry.Transform.Mat3

variable {K : Type*} [Field K] {circle : Circle K}

/-! ### Maps -/

theorem deg2rad_neg (d : K) : deg2rad (-d) = -deg2rad d := by rw [deg2rad, deg2rad, neg_mul]

section Maps
variable (m : Mat3 K) (v : Vec2 K)

@[simp] theorem apply_translate (tx ty : K) :
    apply (Mat3.translate tx ty) v = ⟨v.x + tx, v.y + ty⟩ := by
  simp [apply, Mat3.translate]

@[simp] theorem apply_scale (sx sy : K) : apply (scale sx sy) v = ⟨sx * v.x, sy * v.y⟩ := by
  simp [apply, scale]

@[simp] theorem apply_rotateDeg (deg : K) :
    apply (rotateDeg circle deg) v =
      ⟨circle.cos (deg2rad deg) * v.x - circle.sin (deg2rad deg) * v.y,
        circle.sin (deg2rad deg) * v.x + circle.cos (deg2rad deg) * v.y⟩ := by
  simp [apply, rotateDeg, sub_eq_add_neg]

theorem apply_mul {m' : Mat3 K} (h : m' 2 = ![0, 0, 1]) :
    apply (m * m') v = apply m (apply m' v) := by
  simp only [apply, Matrix.mul_apply, Fin.sum_univ_three, h, Vec2.mk.injEq]
  constructor <;> simp <;> ring

@[simp] theorem apply_mul_translate (tx ty : K) :
    apply (m * Mat3.translate tx ty) v = apply m (apply (Mat3.translate tx ty) v) :=
  apply_mul m v rfl

@[simp] theorem apply_mul_scale (sx sy : K) :
    apply (m * scale sx sy) v = apply m (apply (scale sx sy) v) := apply_mul m v rfl

@[simp] theorem apply_mul_rotateDeg (deg : K) :
    apply (m * rotateDeg circle deg) v = apply m (apply (rotateDeg circle deg) v) :=
  apply_mul m v rfl

end Maps

variable [LinearOrder K] {p : TransformParams K}

/-! ### The backward map -/

/-- The scale along both axes is positive, as it is in every mode where the parameters describe a
picture. -/
structure Scaled (circle : Circle K) (p : TransformParams K) : Prop where
  sound : degenerate p = false
  x : 0 < (effectiveScale circle p).x
  y : 0 < (effectiveScale circle p).y

/-- The distance from the centre of the source, before the flip: the distance from the centre of
the canvas, scaled and turned back, less the pan in source pixels. -/
def sampled (circle : Circle K) (p : TransformParams K) (d : Vec2 K) : Vec2 K :=
  let s := effectiveScale circle p
  let a := deg2rad p.rotation
  let v := panInSource circle p
  ⟨circle.cos a * ((d.x - 1 / 2 * p.dstWidth) / s.x) +
      circle.sin a * ((d.y - 1 / 2 * p.dstHeight) / s.y) - v.x,
    -circle.sin a * ((d.x - 1 / 2 * p.dstWidth) / s.x) +
      circle.cos a * ((d.y - 1 / 2 * p.dstHeight) / s.y) - v.y⟩

theorem panInSource_eq : panInSource circle p =
    let s := effectiveScale circle p
    let a := deg2rad p.rotation
    ⟨circle.cos a * (finiteOr p.panX 0 / s.x) + circle.sin a * (finiteOr p.panY 0 / s.y),
      -circle.sin a * (finiteOr p.panX 0 / s.x) + circle.cos a * (finiteOr p.panY 0 / s.y)⟩ := by
  unfold panInSource
  simp only [apply_mul_scale, apply_scale, apply_rotateDeg, deg2rad_neg, circle.cos_neg,
    circle.sin_neg, Vec2.mk.injEq]
  constructor <;> ring

/-- **What a point of the canvas shows.** -/
theorem destToSource_apply [IsStrictOrderedRing K] (h : Scaled circle p) (d : Vec2 K) :
    apply (destToSource circle p) d =
      ⟨1 / 2 * p.srcWidth + (if p.flipH then -1 else 1) * (sampled circle p d).x,
        1 / 2 * p.srcHeight + (if p.flipV then -1 else 1) * (sampled circle p d).y⟩ := by
  have hscale : ¬ ((effectiveScale circle p).x = 0 ∨ (effectiveScale circle p).y = 0) :=
    not_or.mpr ⟨h.x.ne', h.y.ne'⟩
  unfold destToSource sampled TransformParams.flip
  simp only [h.sound, Bool.false_eq_true, if_false, if_neg hscale, panInSource_eq,
    apply_mul_translate, apply_mul_scale, apply_mul_rotateDeg, apply_translate, apply_scale,
    apply_rotateDeg, deg2rad_neg, circle.cos_neg, circle.sin_neg, Vec2.mk.injEq]
  constructor <;> ring

/-! ### Coverage -/

/-- Every point of the canvas shows a point of the source. -/
def Covers (circle : Circle K) (p : TransformParams K) : Prop :=
  ∀ d : Vec2 K, 0 ≤ d.x → d.x ≤ p.dstWidth → 0 ≤ d.y → d.y ≤ p.dstHeight →
    let s := apply (destToSource circle p) d
    0 ≤ s.x ∧ s.x ≤ p.srcWidth ∧ 0 ≤ s.y ∧ s.y ≤ p.srcHeight

omit [LinearOrder K] in
theorem dims (h : degenerate p = false) : 0 < p.srcWidth ∧ 0 < p.srcHeight ∧
    0 < p.dstWidth ∧ 0 < p.dstHeight := by
  simp only [degenerate, Bool.or_eq_false_iff, decide_eq_false_iff_not, not_le] at h
  tauto

/-! ### Setting the pan -/

/-- The pan as the code reads it. -/
def finitePan (p : TransformParams K) : TransformParams K :=
  { p with panX := some (finiteOr p.panX 0), panY := some (finiteOr p.panY 0) }

omit [LinearOrder K] in
theorem finitePan_of_some {x y : K} (hx : p.panX = some x) (hy : p.panY = some y) :
    finitePan p = p := by
  cases p
  cases hx
  cases hy
  rfl

/-- The pan that is `v` along the axes of the source. -/
def withPan (circle : Circle K) (p : TransformParams K) (v : Vec2 K) : TransformParams K :=
  let s := effectiveScale circle p
  let clamped := apply (scale s.x s.y * rotateDeg circle p.rotation) v
  { p with panX := some clamped.x, panY := some clamped.y }

section WithPan
variable (v : Vec2 K)

@[simp] theorem rotation_withPan : (withPan circle p v).rotation = p.rotation := rfl

@[simp] theorem effectiveScale_withPan :
    effectiveScale circle (withPan circle p v) = effectiveScale circle p := rfl

theorem panX_withPan : (withPan circle p v).panX = some ((effectiveScale circle p).x *
    (circle.cos (deg2rad p.rotation) * v.x - circle.sin (deg2rad p.rotation) * v.y)) := by
  simp [withPan]

theorem panY_withPan : (withPan circle p v).panY = some ((effectiveScale circle p).y *
    (circle.sin (deg2rad p.rotation) * v.x + circle.cos (deg2rad p.rotation) * v.y)) := by
  simp [withPan]

theorem panInSource_withPan (h : Scaled circle p) :
    panInSource circle (withPan circle p v) = v := by
  have hunit := circle.unit (deg2rad p.rotation)
  rw [panInSource_eq]
  simp only [rotation_withPan, effectiveScale_withPan, panX_withPan, panY_withPan, finiteOr,
    Option.getD_some, mul_div_cancel_left₀ _ h.x.ne', mul_div_cancel_left₀ _ h.y.ne']
  obtain ⟨x, y⟩ := v
  rw [Vec2.mk.injEq]
  exact ⟨by linear_combination x * hunit, by linear_combination y * hunit⟩

end WithPan

theorem withPan_panInSource (h : Scaled circle p) :
    withPan circle p (panInSource circle p) = finitePan p := by
  have hunit := circle.unit (deg2rad p.rotation)
  have hx := mul_div_cancel₀ (finiteOr p.panX 0) h.x.ne'
  have hy := mul_div_cancel₀ (finiteOr p.panY 0) h.y.ne'
  have hpanX : (withPan circle p (panInSource circle p)).panX = some (finiteOr p.panX 0) := by
    rw [panX_withPan, panInSource_eq, Option.some.injEq]
    dsimp only
    linear_combination hx + (effectiveScale circle p).x *
      (finiteOr p.panX 0 / (effectiveScale circle p).x) * hunit
  have hpanY : (withPan circle p (panInSource circle p)).panY = some (finiteOr p.panY 0) := by
    rw [panY_withPan, panInSource_eq, Option.some.injEq]
    dsimp only
    linear_combination hy + (effectiveScale circle p).y *
      (finiteOr p.panY 0 / (effectiveScale circle p).y) * hunit
  rw [finitePan, ← hpanX, ← hpanY]
  rfl

/-- The pan along the axes of the source that is kept. -/
def clampedPan (circle : Circle K) (p : TransformParams K) : Vec2 K :=
  let slack := panSlack circle p
  let v := panInSource circle p
  ⟨clamp v.x (-slack.x) slack.x, clamp v.y (-slack.y) slack.y⟩

/-- **Clamping sets the pan along the axes of the source.** -/
theorem clampPanForCoverage_eq (h : Scaled circle p) :
    clampPanForCoverage circle p = withPan circle p (clampedPan circle p) := by
  have hscale : ¬ ((effectiveScale circle p).x ≤ 0 ∨ (effectiveScale circle p).y ≤ 0) :=
    not_or.mpr ⟨not_le.mpr h.x, not_le.mpr h.y⟩
  rw [clampPanForCoverage, h.sound, if_neg Bool.false_ne_true]
  exact if_neg hscale

theorem panSlack_eq (h : Scaled circle p) : panSlack circle p =
    ⟨max 0 (1 / 2 * p.srcWidth - (needHalf circle p).x),
      max 0 (1 / 2 * p.srcHeight - (needHalf circle p).y)⟩ := by
  have hscale : ¬ ((effectiveScale circle p).x ≤ 0 ∨ (effectiveScale circle p).y ≤ 0) :=
    not_or.mpr ⟨not_le.mpr h.x, not_le.mpr h.y⟩
  rw [panSlack, h.sound, if_neg Bool.false_ne_true]
  exact if_neg hscale

theorem scaled_withPan (h : Scaled circle p) (v : Vec2 K) : Scaled circle (withPan circle p v) :=
  ⟨h.sound, h.x, h.y⟩

section Ordered
variable [IsStrictOrderedRing K]

theorem flipped_iff {w u : K} (b : Bool) :
    (0 ≤ 1 / 2 * w + (if b then -1 else 1) * u ∧ 1 / 2 * w + (if b then -1 else 1) * u ≤ w) ↔
      |u| ≤ 1 / 2 * w := by
  rw [abs_le]
  cases b
  · simp only [Bool.false_eq_true, if_false]
    constructor <;> rintro ⟨h₁, h₂⟩ <;> constructor <;> linarith
  · simp only [if_true]
    constructor <;> rintro ⟨h₁, h₂⟩ <;> constructor <;> linarith

/-- A coordinate of the canvas and its scaled distance from the centre. -/
theorem abs_div_le_iff {x w s : K} (hs : 0 < s) :
    |(x - 1 / 2 * w) / s| ≤ 1 / 2 * (w / s) ↔ 0 ≤ x ∧ x ≤ w := by
  have hhalf : 1 / 2 * (w / s) = 1 / 2 * w / s := by ring
  rw [hhalf, abs_div, abs_of_pos hs, div_le_div_iff_of_pos_right hs, abs_le]
  constructor <;> rintro ⟨h₁, h₂⟩ <;> constructor <;> linarith

/-- Half of the canvas, in source pixels. -/
def halfCanvas (circle : Circle K) (p : TransformParams K) : Vec2 K :=
  ⟨1 / 2 * (p.dstWidth / (effectiveScale circle p).x),
    1 / 2 * (p.dstHeight / (effectiveScale circle p).y)⟩

theorem covers_iff_sampled (h : Scaled circle p) :
    Covers circle p ↔ ∀ d : Vec2 K, 0 ≤ d.x ∧ d.x ≤ p.dstWidth → 0 ≤ d.y ∧ d.y ≤ p.dstHeight →
      |(sampled circle p d).x| ≤ 1 / 2 * p.srcWidth ∧
      |(sampled circle p d).y| ≤ 1 / 2 * p.srcHeight := by
  refine forall_congr' fun d => ?_
  rw [destToSource_apply h, ← flipped_iff (u := (sampled circle p d).x) p.flipH,
    ← flipped_iff (u := (sampled circle p d).y) p.flipV]
  simp only [and_imp, and_assoc]

/-- **The canvas is covered if its reach and the pan fit into the source together.** -/
theorem covers_iff (h : Scaled circle p) :
    Covers circle p ↔
      (needHalf circle p).x + |(panInSource circle p).x| ≤ 1 / 2 * p.srcWidth ∧
      (needHalf circle p).y + |(panInSource circle p).y| ≤ 1 / 2 * p.srcHeight := by
  obtain ⟨-, -, hdw, hdh⟩ := dims h.sound
  have hdw : (0 : K) < p.dstWidth := Int.cast_pos.mpr hdw
  have hdh : (0 : K) < p.dstHeight := Int.cast_pos.mpr hdh
  have hx := h.x
  have hy := h.y
  have hw : 0 ≤ (halfCanvas circle p).x := by unfold halfCanvas; positivity
  have hh : 0 ≤ (halfCanvas circle p).y := by unfold halfCanvas; positivity
  have hneed : needHalf circle p =
      ⟨reach (circle.cos (deg2rad p.rotation)) (circle.sin (deg2rad p.rotation))
          (halfCanvas circle p).x (halfCanvas circle p).y,
        reach (-circle.sin (deg2rad p.rotation)) (circle.cos (deg2rad p.rotation))
          (halfCanvas circle p).x (halfCanvas circle p).y⟩ := by
    simp only [needHalf, absTrig, reach, abs_neg, halfCanvas, Vec2.mk.injEq]
    constructor <;> ring
  rw [covers_iff_sampled h, hneed, ← forall_box_iff hw hh, ← forall_box_iff hw hh]
  constructor
  · intro hc
    -- a point of the box is the distance of a point of the canvas from the centre
    have hbox (X Y : K) (hX : |X| ≤ (halfCanvas circle p).x) (hY : |Y| ≤ (halfCanvas circle p).y) :=
      hc ⟨1 / 2 * p.dstWidth + X * (effectiveScale circle p).x,
        1 / 2 * p.dstHeight + Y * (effectiveScale circle p).y⟩
        ((abs_div_le_iff hx).mp (by
          rw [add_sub_cancel_left, mul_div_cancel_right₀ _ hx.ne']
          exact hX))
        ((abs_div_le_iff hy).mp (by
          rw [add_sub_cancel_left, mul_div_cancel_right₀ _ hy.ne']
          exact hY))
    simp only [sampled, add_sub_cancel_left, mul_div_cancel_right₀ _ hx.ne',
      mul_div_cancel_right₀ _ hy.ne'] at hbox
    exact ⟨fun X Y hX hY => (hbox X Y hX hY).1, fun X Y hX hY => (hbox X Y hX hY).2⟩
  · rintro ⟨h₁, h₂⟩ d hdx hdy
    have hX := (abs_div_le_iff hx).mpr hdx
    have hY := (abs_div_le_iff hy).mpr hdy
    exact ⟨h₁ _ _ hX hY, h₂ _ _ hX hY⟩

/-! ### Scales -/

/-- The absolute values of a sine and a cosine do not vanish together. -/
theorem absTrig_pos (circle : Circle K) (deg : K) :
    0 < (absTrig circle deg).c + (absTrig circle deg).s := by
  have hunit := circle.unit (deg2rad deg)
  have hc := abs_nonneg (circle.cos (deg2rad deg))
  have hs := abs_nonneg (circle.sin (deg2rad deg))
  by_contra hle
  have hc0 : |circle.cos (deg2rad deg)| = 0 := by unfold absTrig at hle; linarith
  have hs0 : |circle.sin (deg2rad deg)| = 0 := by unfold absTrig at hle; linarith
  rw [abs_eq_zero.mp hc0, abs_eq_zero.mp hs0] at hunit
  norm_num at hunit

/-- What a rectangle with sides spans along a turned axis. -/
theorem span_pos (circle : Circle K) {w h : K} (hw : 0 < w) (hh : 0 < h) (deg : K) :
    0 < w * (absTrig circle deg).c + h * (absTrig circle deg).s := by
  have hc : 0 ≤ (absTrig circle deg).c := abs_nonneg _
  have hs : 0 ≤ (absTrig circle deg).s := abs_nonneg _
  rcases hc.lt_or_eq with hc | hc
  · positivity
  · have hpos := absTrig_pos circle deg
    rw [← hc, zero_add] at hpos
    rw [← hc, mul_zero, zero_add]
    positivity

theorem effectiveZoom_pos : 0 < p.effectiveZoom := by
  unfold TransformParams.effectiveZoom
  split
  · exact one_pos
  · split_ifs with hz
    · exact hz
    · exact one_pos

/-- **Every mode has a scale.** -/
theorem scaled (h : degenerate p = false) : Scaled circle p := by
  obtain ⟨hsw, hsh, hdw, hdh⟩ := dims h
  have hsw : (0 : K) < p.srcWidth := Int.cast_pos.mpr hsw
  have hsh : (0 : K) < p.srcHeight := Int.cast_pos.mpr hsh
  have hdw : (0 : K) < p.dstWidth := Int.cast_pos.mpr hdw
  have hdh : (0 : K) < p.dstHeight := Int.cast_pos.mpr hdh
  have hcanvas := span_pos circle hdw hdh p.rotation
  have hsource := span_pos circle hsw hsh p.rotation
  have hsource' := span_pos circle hsh hsw p.rotation
  rw [add_comm] at hsource'
  have hfit : 0 < (fitScale circle p).x ∧ 0 < (fitScale circle p).y := by
    unfold fitScale rotatedBounds
    simp only [h, Bool.false_eq_true, if_false]
    cases p.fit with
    | fit =>
      have := lt_min (div_pos hdw hsource) (div_pos hdh hsource')
      exact ⟨this, this⟩
    | fill =>
      have hleft := div_pos hcanvas hsw
      exact ⟨lt_max_of_lt_left hleft, lt_max_of_lt_left hleft⟩
    | stretch => exact ⟨div_pos hdw hsource, div_pos hdh hsource'⟩
  exact ⟨h, mul_pos hfit.1 effectiveZoom_pos, mul_pos hfit.2 effectiveZoom_pos⟩

/-- **The backward map undoes the forward map**, in every mode. -/
theorem destToSource_sourceToDest (h : degenerate p = false) (v : Vec2 K) :
    apply (destToSource circle p) (apply (sourceToDest circle p) v) = v := by
  have hs : Scaled circle p := scaled h
  have hunit := circle.unit (deg2rad p.rotation)
  have hx := hs.x.ne'
  have hy := hs.y.ne'
  have hflip (b : Bool) : (if b then -1 else 1 : K) * (if b then -1 else 1) = 1 := by
    cases b <;> norm_num
  have hH := hflip p.flipH
  have hV := hflip p.flipV
  obtain ⟨x, y⟩ := v
  rw [destToSource_apply hs]
  simp only [sourceToDest, forward, sampled, panInSource_eq, TransformParams.flip, h,
    Bool.false_eq_true, if_false, apply_mul_translate, apply_mul_scale, apply_mul_rotateDeg,
    apply_translate, apply_scale, apply_rotateDeg, Vec2.mk.injEq, add_sub_cancel_right, add_div,
    mul_div_cancel_left₀ _ hx, mul_div_cancel_left₀ _ hy]
  generalize (if p.flipH = true then -1 else 1 : K) = flipH at hH ⊢
  generalize (if p.flipV = true then -1 else 1 : K) = flipV at hV ⊢
  constructor
  · linear_combination (x - 1 / 2 * p.srcWidth) * hH +
      flipH * flipH * (x - 1 / 2 * p.srcWidth) * hunit
  · linear_combination (y - 1 / 2 * p.srcHeight) * hV +
      flipV * flipV * (y - 1 / 2 * p.srcHeight) * hunit

/-! ### Clamping -/

theorem abs_clamp_le {v r : K} (hr : 0 ≤ r) : |clamp v (-r) r| ≤ r := by
  unfold clamp
  rw [abs_le]
  split_ifs <;> constructor <;> linarith

theorem clamp_of_abs_le {v r : K} (h : |v| ≤ r) : clamp v (-r) r = v := by
  rw [abs_le] at h
  rw [clamp, if_neg (not_lt.mpr h.1), if_neg (not_lt.mpr h.2)]

/-- An extent of the turned canvas, in source pixels. -/
theorem half_le_of_div_le {extent side scale : K} (hscale : 0 < scale) (hside : 0 < side)
    (h : extent / side ≤ scale) : 1 / 2 * (extent / scale) ≤ 1 / 2 * side := by
  have hle : extent / scale ≤ side := by
    rw [div_le_iff₀ hside] at h
    rw [div_le_iff₀ hscale]
    linarith
  linarith

/-- **Fill needs no more than there is**, where the zoom does not shrink the picture. -/
theorem needHalf_le_of_fill (circle : Circle K) (h : degenerate p = false)
    (hfit : p.fit = .fill) (hzoom : ∀ z ∈ p.zoom, 0 < z → 1 ≤ z) :
    (needHalf circle p).x ≤ 1 / 2 * p.srcWidth ∧ (needHalf circle p).y ≤ 1 / 2 * p.srcHeight := by
  have hs : Scaled circle p := scaled h
  obtain ⟨hsw, hsh, -, -⟩ := dims hs.sound
  have hsw : (0 : K) < p.srcWidth := Int.cast_pos.mpr hsw
  have hsh : (0 : K) < p.srcHeight := Int.cast_pos.mpr hsh
  have hz : 1 ≤ p.effectiveZoom := by
    unfold TransformParams.effectiveZoom
    split
    · exact le_rfl
    · split_ifs with hpos
      · exact hzoom _ ‹_› hpos
      · exact le_rfl
  obtain ⟨m, hm⟩ : ∃ m, m = max
      ((p.dstWidth * (absTrig circle p.rotation).c + p.dstHeight * (absTrig circle p.rotation).s) /
        (p.srcWidth : K))
      ((p.dstWidth * (absTrig circle p.rotation).s + p.dstHeight * (absTrig circle p.rotation).c) /
        (p.srcHeight : K)) := ⟨_, rfl⟩
  have hscale : effectiveScale circle p = ⟨m * p.effectiveZoom, m * p.effectiveZoom⟩ := by
    simp only [effectiveScale, fitScale, h, hfit, Bool.false_eq_true, if_false, hm]
  have hpos : 0 < m * p.effectiveZoom := by simpa only [hscale] using hs.x
  have hm0 : 0 ≤ m := (pos_of_mul_pos_left hpos effectiveZoom_pos.le).le
  have hle : m ≤ m * p.effectiveZoom := le_mul_of_one_le_right hm0 hz
  have hwidth := half_le_of_div_le hpos hsw ((hm ▸ le_max_left _ _ : _ ≤ m).trans hle)
  have hheight := half_le_of_div_le hpos hsh ((hm ▸ le_max_right _ _ : _ ≤ m).trans hle)
  simp only [needHalf, hscale]
  constructor
  · calc _ = _ := by ring
      _ ≤ _ := hwidth
  · calc _ = _ := by ring
      _ ≤ _ := hheight

omit [IsStrictOrderedRing K] in
theorem panSlack_nonneg (h : Scaled circle p) :
    0 ≤ (panSlack circle p).x ∧ 0 ≤ (panSlack circle p).y := by
  rw [panSlack_eq h]
  exact ⟨le_max_left _ _, le_max_left _ _⟩

/-! ### The three guarantees -/

/-- **Coverage.** -/
theorem covers_clamp (h : degenerate p = false) (hfit : p.fit = .fill)
    (hzoom : ∀ z ∈ p.zoom, 0 < z → 1 ≤ z) : Covers circle (clampPanForCoverage circle p) := by
  have hs : Scaled circle p := scaled h
  obtain ⟨hneedX, hneedY⟩ := needHalf_le_of_fill circle h hfit hzoom
  obtain ⟨hslackX, hslackY⟩ := panSlack_nonneg hs
  rw [clampPanForCoverage_eq hs, covers_iff (scaled_withPan hs _), panInSource_withPan _ hs]
  have hx : |(clampedPan circle p).x| ≤ (panSlack circle p).x := abs_clamp_le hslackX
  have hy : |(clampedPan circle p).y| ≤ (panSlack circle p).y := abs_clamp_le hslackY
  rw [panSlack_eq hs] at hx hy
  dsimp only at hx hy
  rw [max_eq_right (by linarith)] at hx hy
  have hneed : needHalf circle (withPan circle p (clampedPan circle p)) = needHalf circle p := rfl
  have hwidth : (withPan circle p (clampedPan circle p)).srcWidth = p.srcWidth := rfl
  have hheight : (withPan circle p (clampedPan circle p)).srcHeight = p.srcHeight := rfl
  rw [hneed, hwidth, hheight]
  exact ⟨by linarith, by linarith⟩

/-- **A pan within the source stays.** -/
theorem clamp_of_covers (h : degenerate p = false) (hcovers : Covers circle p) :
    clampPanForCoverage circle p = finitePan p := by
  have hs : Scaled circle p := scaled h
  obtain ⟨hx, hy⟩ := (covers_iff hs).mp hcovers
  have hkept : clampedPan circle p = panInSource circle p := by
    rw [clampedPan, panSlack_eq hs]
    dsimp only
    rw [clamp_of_abs_le (le_max_of_le_right (by linarith)),
      clamp_of_abs_le (le_max_of_le_right (by linarith))]
  rw [clampPanForCoverage_eq hs, hkept, withPan_panInSource hs]

/-- **Clamping once is enough**, in every mode and for all parameters. -/
theorem clamp_clamp : clampPanForCoverage circle (clampPanForCoverage circle p) =
    clampPanForCoverage circle p := by
  by_cases h : degenerate p = true
  · have hzero : clampPanForCoverage circle p = { p with panX := some 0, panY := some 0 } := by
      rw [clampPanForCoverage, if_pos h]
    rw [hzero, clampPanForCoverage, if_pos]
    exact h
  · have hs : Scaled circle p := scaled (Bool.of_not_eq_true h)
    obtain ⟨hslackX, hslackY⟩ := panSlack_nonneg hs
    have hslack : panSlack circle (withPan circle p (clampedPan circle p)) =
        panSlack circle p := rfl
    have hkept : clampedPan circle (withPan circle p (clampedPan circle p)) =
        clampedPan circle p := by
      have hx : |(clampedPan circle p).x| ≤ (panSlack circle p).x := abs_clamp_le hslackX
      have hy : |(clampedPan circle p).y| ≤ (panSlack circle p).y := abs_clamp_le hslackY
      rw [clampedPan, panInSource_withPan _ hs, hslack, clamp_of_abs_le hx, clamp_of_abs_le hy]
    rw [clampPanForCoverage_eq hs, clampPanForCoverage_eq (scaled_withPan hs _), hkept]
    rfl

/-- **Fill with a pan.** After clamping the canvas is covered; a pan with which it was covered
stays, where a coordinate that is not finite counts as 0 and becomes it; and clamping again changes
nothing. -/
theorem clampPan_covers (circle : Circle K) (p : TransformParams K) (h : degenerate p = false)
    (hfit : p.fit = .fill) (hzoom : ∀ z ∈ p.zoom, 0 < z → 1 ≤ z) :
    Covers circle (clampPanForCoverage circle p) ∧
    (Covers circle p → clampPanForCoverage circle p = finitePan p ∧
      (p.panX.isSome → p.panY.isSome → clampPanForCoverage circle p = p)) ∧
    clampPanForCoverage circle (clampPanForCoverage circle p) = clampPanForCoverage circle p := by
  refine ⟨covers_clamp h hfit hzoom, fun hcovers => ?_, clamp_clamp⟩
  have hstays := clamp_of_covers h hcovers
  refine ⟨hstays, fun hx hy => ?_⟩
  obtain ⟨x, hx⟩ := Option.isSome_iff_exists.mp hx
  obtain ⟨y, hy⟩ := Option.isSome_iff_exists.mp hy
  rw [hstays, finitePan_of_some hx hy]

end Ordered

/-! ### A drag beyond the edge -/

/-- The sine and cosine of the reals. -/
noncomputable def realCircle : Circle ℝ :=
  ⟨Real.cos, Real.sin, Real.cos_sq_add_sin_sq, Real.cos_neg, Real.sin_neg⟩

noncomputable def dragged : TransformParams ℝ where
  srcWidth := 1920
  srcHeight := 1080
  dstWidth := 1280
  dstHeight := 720
  rotationDeg := some 21
  flipH := true
  fit := .fill
  zoom := some (3 / 2)
  panX := some 100000
  panY := some (-40000)

theorem clampPan_covers_dragged : Covers realCircle (clampPanForCoverage realCircle dragged) ∧
    clampPanForCoverage realCircle (clampPanForCoverage realCircle dragged) =
      clampPanForCoverage realCircle dragged := by
  have h := clampPan_covers realCircle dragged rfl rfl fun z hz _ => by
    obtain rfl := Option.some.inj hz
    norm_num
  exact ⟨h.1, h.2.2⟩

end RemoteCam.Geometry.Coverage
