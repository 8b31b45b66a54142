import Mathlib.Algebra.Order.Field.Basic
import Mathlib.Algebra.Order.Ring.Abs
import Mathlib.Tactic.Linarith
import Mathlib.Tactic.Ring

/-! # Linear forms on a box

On the box of half-extents `a` and `b` about the origin the form `c * x + s * y` reaches
`|c| * a + |s| * b`, at a corner, and nothing beyond. So a shifted form stays within a bound on the
whole box if the shift leaves room for the reach (`forall_box_iff`). -/

namespace RemoteCam.Lib.Box

variable {K : Type*} [Field K] [LinearOrder K] [IsStrictOrderedRing K]
variable {a b c s v r x y : K}

/-- The largest value of the form on the box. -/
def reach (c s a b : K) : K := |c| * a + |s| * b

theorem abs_form_le (hx : |x| ≤ a) (hy : |y| ≤ b) : |c * x + s * y| ≤ reach c s a b := by
  have hform : |c * x + s * y| ≤ |c| * |x| + |s| * |y| := by
    rw [← abs_mul, ← abs_mul]
    exact abs_add_le _ _
  have hcx : |c| * |x| ≤ |c| * a := mul_le_mul_of_nonneg_left hx (abs_nonneg c)
  have hsy : |s| * |y| ≤ |s| * b := mul_le_mul_of_nonneg_left hy (abs_nonneg s)
  unfold reach
  linarith

/-- One of the two ends of an interval. -/
theorem exists_end (c : K) (ha : 0 ≤ a) : ∃ x, |x| ≤ a ∧ c * x = |c| * a := by
  rcases le_total 0 c with hc | hc
  · exact ⟨a, (abs_of_nonneg ha).le, by rw [abs_of_nonneg hc]⟩
  · refine ⟨-a, by rw [abs_neg, abs_of_nonneg ha], ?_⟩
    rw [abs_of_nonpos hc]
    ring

/-- **The corner where the form is largest.** -/
theorem exists_corner (c s : K) (ha : 0 ≤ a) (hb : 0 ≤ b) :
    ∃ x y, |x| ≤ a ∧ |y| ≤ b ∧ c * x + s * y = reach c s a b := by
  obtain ⟨x, hx, hcx⟩ := exists_end c ha
  obtain ⟨y, hy, hsy⟩ := exists_end s hb
  exact ⟨x, y, hx, hy, by rw [hcx, hsy, reach]⟩

/-- **A shifted form is bounded on the box if the shift and the reach are together.** -/
theorem forall_box_iff (ha : 0 ≤ a) (hb : 0 ≤ b) :
    (∀ x y, |x| ≤ a → |y| ≤ b → |c * x + s * y - v| ≤ r) ↔ reach c s a b + |v| ≤ r := by
  constructor
  · intro h
    obtain ⟨x, y, hx, hy, hform⟩ := exists_corner c s ha hb
    rcases le_total 0 v with hv | hv
    · -- the opposite corner, away from the shift
      have hopp := h (-x) (-y) (by rwa [abs_neg]) (by rwa [abs_neg])
      have hle := neg_le_of_abs_le hopp
      rw [abs_of_nonneg hv]
      linarith
    · have hle := le_of_abs_le (h x y hx hy)
      rw [abs_of_nonpos hv]
      linarith
  · intro h x y hx hy
    calc |c * x + s * y - v| ≤ |c * x + s * y| + |v| := abs_sub _ _
      _ ≤ reach c s a b + |v| := by linarith [abs_form_le (c := c) (s := s) hx hy]
      _ ≤ r := h

end RemoteCam.Lib.Box
