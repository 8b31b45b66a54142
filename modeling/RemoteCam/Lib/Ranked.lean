import Mathlib.Order.Lattice

/-! # Comparisons of which some are false

Floating-point values have a place in an order, apart from those that are not a number: a comparison
with one of these is false. `rank` is the place. `limited` and `clamp` are the two usual ways to
bring a value between two bounds. -/

namespace RemoteCam.Lib.Ranked

section Comparisons
variable {β α : Type*} [LinearOrder α] (rank : β → Option α)

/-- `x < y`. -/
def less (x y : β) : Bool :=
  match rank x, rank y with
  | some a, some b => a < b
  | _, _ => false

/-- `x <= y`. -/
def lessEq (x y : β) : Bool :=
  match rank x, rank y with
  | some a, some b => a ≤ b
  | _, _ => false

/-- The second of two equal values. -/
def larger (x y : β) : β := if lessEq rank x y then y else x

/-- The first of two equal values. -/
def smaller (x y : β) : β := if less rank y x then y else x

/-- Not below `lo`, and then not above `hi`. -/
def limited (x lo hi : β) : β := smaller rank (larger rank x lo) hi

def clamp (x lo hi : β) : β := if less rank x lo then lo else if less rank hi x then hi else x

/-- Between the bounds. -/
structure Within (lo hi x : β) : Prop where
  lower : lessEq rank lo x = true
  upper : lessEq rank x hi = true

instance (lo hi x : β) : Decidable (Within rank lo hi x) :=
  decidable_of_iff (_ ∧ _) ⟨fun h => ⟨h.1, h.2⟩, fun h => ⟨h.lower, h.upper⟩⟩

variable {rank} {x y lo hi : β} {a b : α}

theorem less_eq (hx : rank x = some a) (hy : rank y = some b) : less rank x y = decide (a < b) := by
  unfold less
  rw [hx, hy]

theorem lessEq_eq (hx : rank x = some a) (hy : rank y = some b) :
    lessEq rank x y = decide (a ≤ b) := by
  unfold lessEq
  rw [hx, hy]

theorem ranks_of_lessEq (h : lessEq rank x y = true) :
    ∃ a b, rank x = some a ∧ rank y = some b ∧ a ≤ b := by
  unfold lessEq at h
  split at h
  · next a b hx hy => exact ⟨a, b, hx, hy, of_decide_eq_true h⟩
  · cases h

theorem within_iff (hlo : rank lo = some a) (hhi : rank hi = some b) {c : α} (hx : rank x = some c) :
    Within rank lo hi x ↔ a ≤ c ∧ c ≤ b := by
  have hlower : lessEq rank lo x = true ↔ a ≤ c := by rw [lessEq_eq hlo hx, decide_eq_true_eq]
  have hupper : lessEq rank x hi = true ↔ c ≤ b := by rw [lessEq_eq hx hhi, decide_eq_true_eq]
  exact ⟨fun h => ⟨hlower.mp h.lower, hupper.mp h.upper⟩,
    fun h => ⟨hlower.mpr h.1, hupper.mpr h.2⟩⟩

/-- A value with a place is brought between the bounds. -/
theorem within_limited (h : lessEq rank lo hi = true) (hx : (rank x).isSome = true) :
    Within rank lo hi (limited rank x lo hi) := by
  obtain ⟨a, b, hlo, hhi, hab⟩ := ranks_of_lessEq h
  obtain ⟨c, hc⟩ := Option.isSome_iff_exists.mp hx
  unfold limited larger smaller
  rw [lessEq_eq hc hlo]
  by_cases hca : c ≤ a
  · rw [decide_eq_true hca, if_pos rfl, less_eq hhi hlo, decide_eq_false (not_lt.mpr hab),
      if_neg Bool.false_ne_true]
    exact (within_iff hlo hhi hlo).mpr ⟨le_rfl, hab⟩
  · rw [decide_eq_false hca, if_neg Bool.false_ne_true, less_eq hhi hc]
    by_cases hbc : b < c
    · rw [decide_eq_true hbc, if_pos rfl]
      exact (within_iff hlo hhi hhi).mpr ⟨hab, le_rfl⟩
    · rw [decide_eq_false hbc, if_neg Bool.false_ne_true]
      exact (within_iff hlo hhi hc).mpr ⟨le_of_not_ge hca, not_lt.mp hbc⟩

theorem within_clamp (h : lessEq rank lo hi = true) (hx : (rank x).isSome = true) :
    Within rank lo hi (clamp rank x lo hi) := by
  obtain ⟨a, b, hlo, hhi, hab⟩ := ranks_of_lessEq h
  obtain ⟨c, hc⟩ := Option.isSome_iff_exists.mp hx
  unfold clamp
  rw [less_eq hc hlo, less_eq hhi hc]
  split_ifs with hca hbc
  · exact (within_iff hlo hhi hlo).mpr ⟨le_rfl, hab⟩
  · exact (within_iff hlo hhi hhi).mpr ⟨hab, le_rfl⟩
  · rw [decide_eq_true_eq, not_lt] at hca hbc
    exact (within_iff hlo hhi hc).mpr ⟨hca, hbc⟩

/-- A value that lies between the bounds has a place. -/
theorem Within.isSome (h : Within rank lo hi x) : (rank x).isSome = true := by
  obtain ⟨_, c, _, hc, _⟩ := ranks_of_lessEq h.lower
  exact Option.isSome_iff_exists.mpr ⟨c, hc⟩

end Comparisons

end RemoteCam.Lib.Ranked
