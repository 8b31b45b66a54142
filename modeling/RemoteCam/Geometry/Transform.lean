import Mathlib.Algebra.Order.Field.Basic
import Mathlib.Data.Matrix.Mul
import Mathlib.LinearAlgebra.Matrix.Notation
import Mathlib.Tactic.Ring

/-! # The geometric transform

The maps between the pixels of the phone's image and those of the canvas, with the floating-point
operations read as exact arithmetic in an ordered field. A `float` that may be infinite or not a
number is an `Option`; the sine and the cosine are any two functions that stay on the unit circle,
one odd and the other even. -/

namespace RemoteCam.Geometry.Transform

open Matrix

/-- The `2` of the formulas. -/
scoped instance atLeastTwo_two : Nat.AtLeastTwo 2 := ⟨Nat.le_refl 2⟩

structure Vec2 (K : Type*) where
  x : K
  y : K
  deriving DecidableEq

/-- Row-major, `m row col`. -/
abbrev Mat3 (K : Type*) := Matrix (Fin 3) (Fin 3) K

inductive FitMode where
  | fit
  | fill
  | stretch
  deriving DecidableEq, Repr

/-- A `float`: `none` is an infinity or a NaN. -/
abbrev CFloat (K : Type*) := Option K

structure TransformParams (K : Type*) [One K] [Zero K] where
  srcWidth : ℤ := 0
  srcHeight : ℤ := 0
  dstWidth : ℤ := 0
  dstHeight : ℤ := 0
  rotationDeg : CFloat K := some 0
  flipH : Bool := false
  flipV : Bool := false
  fit : FitMode := .fit
  zoom : CFloat K := some 1
  panX : CFloat K := some 0
  panY : CFloat K := some 0

/-- `std::cos` and `std::sin`. -/
structure Circle (K : Type*) [Ring K] where
  cos : K → K
  sin : K → K
  unit : ∀ a, cos a ^ 2 + sin a ^ 2 = 1
  cos_neg : ∀ a, cos (-a) = cos a
  sin_neg : ∀ a, sin (-a) = -sin a

section Model
variable {K : Type*} [Field K] [LinearOrder K] (circle : Circle K)

def kPi : K := 314159265358979323846 / 100000000000000000000

def deg2rad (d : K) : K := d * (kPi / 180)

/-- `|cos θ|` and `|sin θ|`. -/
structure Trig (K : Type*) where
  c : K
  s : K

def absTrig (deg : K) : Trig K := ⟨|circle.cos (deg2rad deg)|, |circle.sin (deg2rad deg)|⟩

def finiteOr (value : CFloat K) (fallback : K) : K := value.getD fallback

namespace Mat3

def identity : Mat3 K := 1

def translate (tx ty : K) : Mat3 K := !![1, 0, tx; 0, 1, ty; 0, 0, 1]

def scale (sx sy : K) : Mat3 K := !![sx, 0, 0; 0, sy, 0; 0, 0, 1]

def rotateDeg (deg : K) : Mat3 K :=
  let a := deg2rad deg
  !![circle.cos a, -circle.sin a, 0; circle.sin a, circle.cos a, 0; 0, 0, 1]

def apply (m : Mat3 K) (p : Vec2 K) : Vec2 K :=
  ⟨m 0 0 * p.x + m 0 1 * p.y + m 0 2, m 1 0 * p.x + m 1 1 * p.y + m 1 2⟩

end Mat3

open Mat3

def degenerate (p : TransformParams K) : Bool :=
  p.srcWidth ≤ 0 || p.srcHeight ≤ 0 || p.dstWidth ≤ 0 || p.dstHeight ≤ 0 || p.rotationDeg.isNone

/-- The angle, where it is finite. -/
def TransformParams.rotation (p : TransformParams K) : K := p.rotationDeg.getD 0

def rotatedBounds (p : TransformParams K) : Vec2 K :=
  if degenerate p then ⟨0, 0⟩
  else
    let t := absTrig circle p.rotation
    let w : K := p.srcWidth
    let h : K := p.srcHeight
    ⟨w * t.c + h * t.s, w * t.s + h * t.c⟩

def fitScale (p : TransformParams K) : Vec2 K :=
  if degenerate p then ⟨0, 0⟩
  else
    let t := absTrig circle p.rotation
    let dw : K := p.dstWidth
    let dh : K := p.dstHeight
    let sw : K := p.srcWidth
    let sh : K := p.srcHeight
    match p.fit with
    | .fit =>
      let b := rotatedBounds circle p
      let s := min (dw / b.x) (dh / b.y)
      ⟨s, s⟩
    | .fill =>
      let s := max ((dw * t.c + dh * t.s) / sw) ((dw * t.s + dh * t.c) / sh)
      ⟨s, s⟩
    | .stretch =>
      let b := rotatedBounds circle p
      ⟨dw / b.x, dh / b.y⟩

/-- A zoom that is no positive number counts as 1. -/
def TransformParams.effectiveZoom (p : TransformParams K) : K :=
  match p.zoom with
  | none => 1
  | some z => if 0 < z then z else 1

def effectiveScale (p : TransformParams K) : Vec2 K :=
  let f := fitScale circle p
  let z := p.effectiveZoom
  ⟨f.x * z, f.y * z⟩

def TransformParams.flip (p : TransformParams K) : Mat3 K :=
  scale (if p.flipH then -1 else 1) (if p.flipV then -1 else 1)

/-- Source pixels to canvas pixels, to be read from right to left. -/
def forward (p : TransformParams K) (s : Vec2 K) : Mat3 K :=
  let toOrigin : Mat3 K := Mat3.translate (-(1 / 2) * p.srcWidth) (-(1 / 2) * p.srcHeight)
  let rot := rotateDeg circle p.rotation
  let scl := scale s.x s.y
  let pan := Mat3.translate (finiteOr p.panX 0) (finiteOr p.panY 0)
  let toCentre : Mat3 K := Mat3.translate (1 / 2 * p.dstWidth) (1 / 2 * p.dstHeight)
  toCentre * pan * scl * rot * p.flip * toOrigin

def sourceToDest (p : TransformParams K) : Mat3 K :=
  if degenerate p then identity else forward circle p (effectiveScale circle p)

def destToSource (p : TransformParams K) : Mat3 K :=
  if degenerate p then identity
  else
    let s := effectiveScale circle p
    if s.x = 0 ∨ s.y = 0 then identity
    else
      let fromCentre : Mat3 K := Mat3.translate (-(1 / 2) * p.dstWidth) (-(1 / 2) * p.dstHeight)
      let unpan := Mat3.translate (-finiteOr p.panX 0) (-finiteOr p.panY 0)
      let unscale := scale (1 / s.x) (1 / s.y)
      let unrot := rotateDeg circle (-p.rotation)
      let fromOrigin : Mat3 K := Mat3.translate (1 / 2 * p.srcWidth) (1 / 2 * p.srcHeight)
      fromOrigin * p.flip * unrot * unscale * unpan * fromCentre

/-- Half of the window of the source that the canvas shows. -/
def needHalf (p : TransformParams K) : Vec2 K :=
  let s := effectiveScale circle p
  let t := absTrig circle p.rotation
  let dw : K := p.dstWidth
  let dh : K := p.dstHeight
  ⟨1 / 2 * (dw / s.x * t.c + dh / s.y * t.s), 1 / 2 * (dw / s.x * t.s + dh / s.y * t.c)⟩

def panSlack (p : TransformParams K) : Vec2 K :=
  if degenerate p then ⟨0, 0⟩
  else
    let s := effectiveScale circle p
    if s.x ≤ 0 ∨ s.y ≤ 0 then ⟨0, 0⟩
    else
      let need := needHalf circle p
      ⟨max 0 (1 / 2 * p.srcWidth - need.x), max 0 (1 / 2 * p.srcHeight - need.y)⟩

/-- `std::clamp`. -/
def clamp (v lo hi : K) : K := if v < lo then lo else if hi < v then hi else v

/-- The pan in source pixels, along the axes of the source. -/
def panInSource (p : TransformParams K) : Vec2 K :=
  let s := effectiveScale circle p
  let toSourceAxes := rotateDeg circle (-p.rotation) * scale (1 / s.x) (1 / s.y)
  apply toSourceAxes ⟨finiteOr p.panX 0, finiteOr p.panY 0⟩

def clampPanForCoverage (p : TransformParams K) : TransformParams K :=
  if degenerate p then { p with panX := some 0, panY := some 0 }
  else
    let s := effectiveScale circle p
    if s.x ≤ 0 ∨ s.y ≤ 0 then p
    else
      let slack := panSlack circle p
      let v := panInSource circle p
      let v : Vec2 K := ⟨clamp v.x (-slack.x) slack.x, clamp v.y (-slack.y) slack.y⟩
      let toCanvasAxes := scale s.x s.y * rotateDeg circle p.rotation
      let clamped := apply toCanvasAxes v
      { p with panX := some clamped.x, panY := some clamped.y }

end Model

end RemoteCam.Geometry.Transform
