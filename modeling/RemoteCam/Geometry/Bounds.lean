import RemoteCam.Geometry.Coverage

/-! # Where the source lands

The forward map turns the distance from the centre of the source, scales it and adds the pan
(`sourceToDest_apply`); the backward map is its inverse on both sides (`destToSource_sourceToDest`,
`sourceToDest_destToSource`). Along either axis of the canvas the picture reaches half of its turned
bounding box, scaled, to both sides of the centre (`spans_x`, `spans_y`). -/

namespace RemoteCam.Geometry.Bounds

open RemoteCam.Lib.Box RemoteCam.Geometry.Transform RemoteCam.Geometry.Transform.Mat3
open RemoteCam.Geometry.Coverage

variable {K : Type*} [Field K] {circle : Circle K} [LinearOrder K] {p : TransformParams K}

/-! ### The forward map -/

def sign (flip : Bool) : K := if flip then -1 else 1

omit [LinearOrder K] in
theorem sign_mul_self (flip : Bool) : (sign flip : K) * sign flip = 1 := by
  cases flip <;> simp [sign]

/-- **Where a point of the source goes.** -/
theorem sourceToDest_apply (h : degenerate p = false) (v : Vec2 K) :
    let s := effectiveScale circle p
    let a := deg2rad p.rotation
    apply (sourceToDest circle p) v =
      ⟨1 / 2 * p.dstWidth + finiteOr p.panX 0 +
          s.x * (circle.cos a * (sign p.flipH * (v.x - 1 / 2 * p.srcWidth)) +
            -circle.sin a * (sign p.flipV * (v.y - 1 / 2 * p.srcHeight))),
        1 / 2 * p.dstHeight + finiteOr p.panY 0 +
          s.y * (circle.sin a * (sign p.flipH * (v.x - 1 / 2 * p.srcWidth)) +
            circle.cos a * (sign p.flipV * (v.y - 1 / 2 * p.srcHeight)))⟩ := by
  unfold sourceToDest forward TransformParams.flip sign
  simp only [h, Bool.false_eq_true, if_false, apply_mul_translate, apply_mul_scale,
    apply_mul_rotateDeg, apply_translate, apply_scale, apply_rotateDeg, Vec2.mk.injEq]
  constructor <;> ring

section Ordered
variable [IsStrictOrderedRing K]

/-- **The forward map undoes the backward map**, in every mode. -/
theorem sourceToDest_destToSource (h : degenerate p = false) (d : Vec2 K) :
    apply (sourceToDest circle p) (apply (destToSource circle p) d) = d := by
  have hs : Scaled circle p := scaled h
  have hunit := circle.unit (deg2rad p.rotation)
  have hx := hs.x.ne'
  have hy := hs.y.ne'
  have hH := @sign_mul_self K _ p.flipH
  have hV := @sign_mul_self K _ p.flipV
  obtain ⟨x, y⟩ := d
  rw [sourceToDest_apply h, destToSource_apply hs]
  simp only [sampled, panInSource_eq, Vec2.mk.injEq, add_sub_cancel_left]
  change _ + _ * (_ * (sign p.flipH * (sign p.flipH * _)) +
      _ * (sign p.flipV * (sign p.flipV * _))) = _ ∧
    _ + _ * (_ * (sign p.flipH * (sign p.flipH * _)) +
      _ * (sign p.flipV * (sign p.flipV * _))) = _
  simp only [← mul_assoc (sign _) (sign _), hH, hV, one_mul]
  constructor
  · field_simp
    linear_combination (effectiveScale circle p).y *
      (2 * x - p.dstWidth - 2 * finiteOr p.panX 0) * hunit
  · field_simp
    linear_combination (effectiveScale circle p).x *
      (2 * y - p.dstHeight - 2 * finiteOr p.panY 0) * hunit

/-! ### Extents -/

/-- The points of the source. -/
def source (p : TransformParams K) : Set (Vec2 K) :=
  {v | 0 ≤ v.x ∧ v.x ≤ p.srcWidth ∧ 0 ≤ v.y ∧ v.y ≤ p.srcHeight}

/-- The points of the canvas. -/
def canvas (p : TransformParams K) : Set (Vec2 K) :=
  {d | 0 ≤ d.x ∧ d.x ≤ p.dstWidth ∧ 0 ≤ d.y ∧ d.y ≤ p.dstHeight}

/-- The source, in this coordinate, goes from the one value to the other. -/
structure Spans (p : TransformParams K) (coordinate : Vec2 K → K) (low high : K) : Prop where
  least : IsLeast (coordinate '' source p) low
  greatest : IsGreatest (coordinate '' source p) high

theorem abs_sub_half_le_iff {x w : K} : |x - 1 / 2 * w| ≤ 1 / 2 * w ↔ 0 ≤ x ∧ x ≤ w := by
  rw [abs_le]
  constructor <;> rintro ⟨h₁, h₂⟩ <;> constructor <;> linarith

omit [IsStrictOrderedRing K] in
theorem abs_sign_mul (flip : Bool) (x : K) : |sign flip * x| = |x| := by
  cases flip <;> simp [sign]

/-- A form of the distance from the centre of the source. -/
theorem spans_of_form (h : degenerate p = false) {coordinate : Vec2 K → K} {m k c s : K}
    (hk : 0 < k) (hform : ∀ v, coordinate v =
      m + k * (c * (sign p.flipH * (v.x - 1 / 2 * p.srcWidth)) +
        s * (sign p.flipV * (v.y - 1 / 2 * p.srcHeight)))) :
    Spans p coordinate (m - k * reach c s (1 / 2 * p.srcWidth) (1 / 2 * p.srcHeight))
      (m + k * reach c s (1 / 2 * p.srcWidth) (1 / 2 * p.srcHeight)) := by
  obtain ⟨hw, hh, -, -⟩ := dims h
  have hw : (0 : K) ≤ 1 / 2 * p.srcWidth := by
    have : (0 : K) < p.srcWidth := Int.cast_pos.mpr hw
    positivity
  have hh : (0 : K) ≤ 1 / 2 * p.srcHeight := by
    have : (0 : K) < p.srcHeight := Int.cast_pos.mpr hh
    positivity
  -- a point at a given distance from the centre, before the flip
  have hpoint {x y : K} (hx : |x| ≤ 1 / 2 * p.srcWidth) (hy : |y| ≤ 1 / 2 * p.srcHeight) :
      m + k * (c * x + s * y) ∈ coordinate '' source p := by
    have hx' : |(1 / 2 * p.srcWidth + sign p.flipH * x) - 1 / 2 * p.srcWidth| ≤
        1 / 2 * p.srcWidth := by
      rwa [add_sub_cancel_left, abs_sign_mul]
    have hy' : |(1 / 2 * p.srcHeight + sign p.flipV * y) - 1 / 2 * p.srcHeight| ≤
        1 / 2 * p.srcHeight := by
      rwa [add_sub_cancel_left, abs_sign_mul]
    refine ⟨⟨1 / 2 * p.srcWidth + sign p.flipH * x, 1 / 2 * p.srcHeight + sign p.flipV * y⟩, ?_, ?_⟩
    · obtain ⟨h₁, h₂⟩ := abs_sub_half_le_iff.mp hx'
      obtain ⟨h₃, h₄⟩ := abs_sub_half_le_iff.mp hy'
      exact ⟨h₁, h₂, h₃, h₄⟩
    · rw [hform, add_sub_cancel_left, add_sub_cancel_left, ← mul_assoc (sign p.flipH),
        ← mul_assoc (sign p.flipV), sign_mul_self, sign_mul_self, one_mul, one_mul]
  have hbound {v : Vec2 K} (hv : v ∈ source p) :
      |c * (sign p.flipH * (v.x - 1 / 2 * p.srcWidth)) +
        s * (sign p.flipV * (v.y - 1 / 2 * p.srcHeight))| ≤
        reach c s (1 / 2 * p.srcWidth) (1 / 2 * p.srcHeight) := by
    obtain ⟨h₁, h₂, h₃, h₄⟩ := hv
    refine abs_form_le ?_ ?_
    · rw [abs_sign_mul]
      exact abs_sub_half_le_iff.mpr ⟨h₁, h₂⟩
    · rw [abs_sign_mul]
      exact abs_sub_half_le_iff.mpr ⟨h₃, h₄⟩
  obtain ⟨x, y, hx, hy, hcorner⟩ := exists_corner c s hw hh
  refine ⟨⟨?_, ?_⟩, ⟨?_, ?_⟩⟩
  · -- the opposite corner
    have hopposite : m + k * (c * -x + s * -y) =
        m - k * reach c s (1 / 2 * p.srcWidth) (1 / 2 * p.srcHeight) := by
      rw [← hcorner]
      ring
    exact hopposite ▸ hpoint (by rwa [abs_neg]) (by rwa [abs_neg])
  · rintro _ ⟨v, hv, rfl⟩
    have hle := mul_le_mul_of_nonneg_left (abs_le.mp (hbound hv)).1 hk.le
    rw [hform]
    linarith
  · rw [← hcorner]
    exact hpoint hx hy
  · rintro _ ⟨v, hv, rfl⟩
    have hle := mul_le_mul_of_nonneg_left (abs_le.mp (hbound hv)).2 hk.le
    rw [hform]
    linarith

/-- The reach of the source along a turned axis is half of its turned bounding box. -/
theorem reach_eq (h : degenerate p = false) :
    reach (circle.cos (deg2rad p.rotation)) (-circle.sin (deg2rad p.rotation))
        (1 / 2 * p.srcWidth) (1 / 2 * p.srcHeight) = 1 / 2 * (rotatedBounds circle p).x ∧
      reach (circle.sin (deg2rad p.rotation)) (circle.cos (deg2rad p.rotation))
        (1 / 2 * p.srcWidth) (1 / 2 * p.srcHeight) = 1 / 2 * (rotatedBounds circle p).y := by
  simp only [reach, rotatedBounds, h, Bool.false_eq_true, if_false, absTrig, abs_neg]
  constructor <;> ring

/-- The canvas coordinates of a point of the source. -/
def landing (circle : Circle K) (p : TransformParams K) (v : Vec2 K) : Vec2 K :=
  apply (sourceToDest circle p) v

/-- **The extent along the first axis.** -/
theorem spans_x (h : degenerate p = false) :
    Spans p (fun v => (landing circle p v).x)
      (1 / 2 * p.dstWidth + finiteOr p.panX 0 -
        (effectiveScale circle p).x * (1 / 2 * (rotatedBounds circle p).x))
      (1 / 2 * p.dstWidth + finiteOr p.panX 0 +
        (effectiveScale circle p).x * (1 / 2 * (rotatedBounds circle p).x)) := by
  rw [← (reach_eq h).1]
  exact spans_of_form h (scaled h).x fun v => congrArg Vec2.x (sourceToDest_apply h v)

/-- **The extent along the second axis.** -/
theorem spans_y (h : degenerate p = false) :
    Spans p (fun v => (landing circle p v).y)
      (1 / 2 * p.dstHeight + finiteOr p.panY 0 -
        (effectiveScale circle p).y * (1 / 2 * (rotatedBounds circle p).y))
      (1 / 2 * p.dstHeight + finiteOr p.panY 0 +
        (effectiveScale circle p).y * (1 / 2 * (rotatedBounds circle p).y)) := by
  rw [← (reach_eq h).2]
  exact spans_of_form h (scaled h).y fun v => congrArg Vec2.y (sourceToDest_apply h v)

/-! ### The modes -/

theorem rotatedBounds_pos (h : degenerate p = false) :
    0 < (rotatedBounds circle p).x ∧ 0 < (rotatedBounds circle p).y := by
  obtain ⟨hw, hh, -, -⟩ := dims h
  have hw : (0 : K) < p.srcWidth := Int.cast_pos.mpr hw
  have hh : (0 : K) < p.srcHeight := Int.cast_pos.mpr hh
  simp only [rotatedBounds, h, Bool.false_eq_true, if_false]
  refine ⟨span_pos circle hw hh p.rotation, ?_⟩
  rw [add_comm]
  exact span_pos circle hh hw p.rotation

omit [IsStrictOrderedRing K] in
theorem effectiveZoom_le (hzoom : ∀ z ∈ p.zoom, z ≤ 1) : p.effectiveZoom ≤ 1 := by
  unfold TransformParams.effectiveZoom
  cases hz : p.zoom with
  | none => exact le_refl _
  | some z =>
    dsimp only
    split_ifs
    · exact hzoom z hz
    · exact le_refl _

theorem effectiveZoom_one (hzoom : p.zoom = some 1) : p.effectiveZoom = 1 := by
  rw [TransformParams.effectiveZoom, hzoom]
  exact if_pos one_pos

/-- **Fit keeps the bounding box within the canvas**, and its unzoomed scale fills one side. -/
theorem scale_of_fit (h : degenerate p = false) (hfit : p.fit = .fit) :
    let s := effectiveScale circle p
    let b := rotatedBounds circle p
    (p.effectiveZoom ≤ 1 → s.x * b.x ≤ p.dstWidth ∧ s.y * b.y ≤ p.dstHeight) ∧
      (p.effectiveZoom = 1 → s.x * b.x = p.dstWidth ∨ s.y * b.y = p.dstHeight) := by
  obtain ⟨hbx, hby⟩ := @rotatedBounds_pos K _ circle _ p _ h
  have hzoom : 0 < p.effectiveZoom := effectiveZoom_pos
  obtain ⟨-, -, hdw, hdh⟩ := dims h
  have hdw : (0 : K) < p.dstWidth := Int.cast_pos.mpr hdw
  have hdh : (0 : K) < p.dstHeight := Int.cast_pos.mpr hdh
  have hscale : fitScale circle p =
      ⟨min (p.dstWidth / (rotatedBounds circle p).x) (p.dstHeight / (rotatedBounds circle p).y),
        min (p.dstWidth / (rotatedBounds circle p).x)
          (p.dstHeight / (rotatedBounds circle p).y)⟩ := by
    simp only [fitScale, h, Bool.false_eq_true, if_false, hfit]
  simp only [effectiveScale, hscale]
  generalize rotatedBounds circle p = b at hbx hby
  refine ⟨fun hle => ⟨?_, ?_⟩, fun hone => ?_⟩
  · have hmin : min (p.dstWidth / b.x) (p.dstHeight / b.y) ≤ p.dstWidth / b.x := min_le_left _ _
    calc min (p.dstWidth / b.x) (p.dstHeight / b.y) * p.effectiveZoom * b.x
        ≤ p.dstWidth / b.x * 1 * b.x := by gcongr
      _ = p.dstWidth := by rw [mul_one, div_mul_cancel₀ _ hbx.ne']
  · have hmin : min (p.dstWidth / b.x) (p.dstHeight / b.y) ≤ p.dstHeight / b.y := min_le_right _ _
    calc min (p.dstWidth / b.x) (p.dstHeight / b.y) * p.effectiveZoom * b.y
        ≤ p.dstHeight / b.y * 1 * b.y := by gcongr
      _ = p.dstHeight := by rw [mul_one, div_mul_cancel₀ _ hby.ne']
  · rw [hone, mul_one]
    rcases min_choice (p.dstWidth / b.x : K) (p.dstHeight / b.y) with hmin | hmin
    · exact .inl (by rw [hmin, div_mul_cancel₀ _ hbx.ne'])
    · exact .inr (by rw [hmin, div_mul_cancel₀ _ hby.ne'])

/-- **Stretch fills both sides.** -/
theorem scale_of_stretch (h : degenerate p = false) (hfit : p.fit = .stretch)
    (hone : p.effectiveZoom = 1) :
    (effectiveScale circle p).x * (rotatedBounds circle p).x = p.dstWidth ∧
      (effectiveScale circle p).y * (rotatedBounds circle p).y = p.dstHeight := by
  obtain ⟨hbx, hby⟩ := @rotatedBounds_pos K _ circle _ p _ h
  have hscale : fitScale circle p = ⟨p.dstWidth / (rotatedBounds circle p).x,
      p.dstHeight / (rotatedBounds circle p).y⟩ := by
    simp only [fitScale, h, Bool.false_eq_true, if_false, hfit]
  simp only [effectiveScale, hscale, hone, mul_one]
  exact ⟨div_mul_cancel₀ _ hbx.ne', div_mul_cancel₀ _ hby.ne'⟩

/-- The extent of a picture in the centre that is as long as the side. -/
theorem Spans.side {coordinate : Vec2 K → K} {side pan scale bound : K}
    (h : Spans p coordinate (1 / 2 * side + pan - scale * (1 / 2 * bound))
      (1 / 2 * side + pan + scale * (1 / 2 * bound))) (hpan : pan = 0)
    (hside : scale * bound = side) : Spans p coordinate 0 side := by
  have hlow : 1 / 2 * side + pan - scale * (1 / 2 * bound) = 0 := by
    rw [hpan]
    linear_combination -(1 / 2) * hside
  have hhigh : 1 / 2 * side + pan + scale * (1 / 2 * bound) = side := by
    rw [hpan]
    linear_combination 1 / 2 * hside
  rwa [hlow, hhigh] at h

/-- The extent of a picture in the centre that is no longer than the side. -/
theorem Spans.within {coordinate : Vec2 K → K} {side pan scale bound : K}
    (h : Spans p coordinate (1 / 2 * side + pan - scale * (1 / 2 * bound))
      (1 / 2 * side + pan + scale * (1 / 2 * bound))) (hpan : pan = 0)
    (hside : scale * bound ≤ side) {v : Vec2 K} (hv : v ∈ source p) :
    0 ≤ coordinate v ∧ coordinate v ≤ side := by
  have hlow := h.least.2 ⟨v, hv, rfl⟩
  have hhigh := h.greatest.2 ⟨v, hv, rfl⟩
  rw [hpan] at hlow hhigh
  constructor <;> linarith

/-- **The two maps and the three modes.** The maps are inverse to each other; an unpanned Fit that
does not zoom in shows all of the source, and at zoom 1 it touches the canvas along an axis; an
unpanned Stretch at zoom 1 has the canvas as its bounding box. -/
theorem landing_spec (circle : Circle K) (p : TransformParams K) (h : degenerate p = false) :
    (Function.LeftInverse (apply (destToSource circle p)) (apply (sourceToDest circle p)) ∧
        Function.RightInverse (apply (destToSource circle p)) (apply (sourceToDest circle p))) ∧
      (finiteOr p.panX 0 = 0 → finiteOr p.panY 0 = 0 →
        (p.fit = .fit → (∀ z ∈ p.zoom, z ≤ 1) →
          ∀ v ∈ source p, apply (sourceToDest circle p) v ∈ canvas p) ∧
        (p.fit = .fit → p.zoom = some 1 →
          Spans p (fun v => (apply (sourceToDest circle p) v).x) 0 p.dstWidth ∨
            Spans p (fun v => (apply (sourceToDest circle p) v).y) 0 p.dstHeight) ∧
        (p.fit = .stretch → p.zoom = some 1 →
          Spans p (fun v => (apply (sourceToDest circle p) v).x) 0 p.dstWidth ∧
            Spans p (fun v => (apply (sourceToDest circle p) v).y) 0 p.dstHeight)) := by
  refine ⟨⟨destToSource_sourceToDest h, sourceToDest_destToSource h⟩, fun hx hy => ⟨?_, ?_, ?_⟩⟩
  · intro hfit hzoom v hv
    obtain ⟨hwidth, hheight⟩ := (@scale_of_fit K _ circle _ p _ h hfit).1 (effectiveZoom_le hzoom)
    obtain ⟨h₁, h₂⟩ := (@spans_x K _ circle _ p _ h).within hx hwidth hv
    obtain ⟨h₃, h₄⟩ := (@spans_y K _ circle _ p _ h).within hy hheight hv
    exact ⟨h₁, h₂, h₃, h₄⟩
  · intro hfit hzoom
    refine ((@scale_of_fit K _ circle _ p _ h hfit).2 (effectiveZoom_one hzoom)).imp ?_ ?_
    · exact (@spans_x K _ circle _ p _ h).side hx
    · exact (@spans_y K _ circle _ p _ h).side hy
  · intro hfit hzoom
    obtain ⟨hwidth, hheight⟩ :=
      @scale_of_stretch K _ circle _ p _ h hfit (effectiveZoom_one hzoom)
    exact ⟨(@spans_x K _ circle _ p _ h).side hx hwidth,
      (@spans_y K _ circle _ p _ h).side hy hheight⟩

end Ordered

/-- A portrait picture turned and flipped on a landscape canvas. -/
noncomputable def turned : TransformParams ℝ where
  srcWidth := 1080
  srcHeight := 1920
  dstWidth := 1280
  dstHeight := 720
  rotationDeg := some 33
  flipV := true

theorem landing_spec_turned :
    (∀ v ∈ source turned, apply (sourceToDest realCircle turned) v ∈ canvas turned) ∧
      (Spans turned (fun v => (apply (sourceToDest realCircle turned) v).x) 0
          turned.dstWidth ∨
        Spans turned (fun v => (apply (sourceToDest realCircle turned) v).y) 0
          turned.dstHeight) := by
  obtain ⟨hinside, htouch, -⟩ := (landing_spec realCircle turned rfl).2 rfl rfl
  refine ⟨hinside rfl fun z hz => ?_, htouch rfl rfl⟩
  obtain rfl := Option.some.inj hz
  exact le_refl _

end RemoteCam.Geometry.Bounds
