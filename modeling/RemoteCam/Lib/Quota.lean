import Mathlib.Algebra.Order.Group.Int
import Mathlib.Algebra.Order.Ring.Int
import Mathlib.Tactic.Linarith

/-! # A quota over a sliding window

Entries with a time, the oldest first. If an entry is only admitted while fewer than `quota` of the
earlier ones lie less than `span` back, every half-open interval of length `span` holds at most
`quota` (`Bounded.append`); entries may be withdrawn at any time (`Bounded.sublist`). -/

namespace RemoteCam.Lib.Quota

variable {α : Type*} (time : α → ℤ) (span : ℤ) (quota : ℕ)

/-- The entry lies in the interval of length `span` that begins at `start`. -/
def within (start : ℤ) (x : α) : Bool := start ≤ time x ∧ time x < start + span

/-- Less than `span` has passed since. -/
def recent (now : ℤ) (x : α) : Bool := now < time x + span

def Bounded (entries : List α) : Prop := ∀ start, entries.countP (within time span start) ≤ quota

variable {time span quota} {entries entries' : List α}

theorem bounded_nil : Bounded time span quota [] := fun _ => Nat.zero_le _

theorem Bounded.sublist (h : Bounded time span quota entries) (hsub : entries'.Sublist entries) :
    Bounded time span quota entries' :=
  fun start => (hsub.countP_le).trans (h start)

/-- **Admission.** -/
theorem Bounded.append {x : α} (h : Bounded time span quota entries)
    (hx : entries.countP (recent time span (time x)) < quota) :
    Bounded time span quota (entries ++ [x]) := by
  intro start
  rw [List.countP_append, List.countP_singleton]
  split_ifs with hin
  · -- what shares an interval with the new entry is recent
    have hle : entries.countP (within time span start) ≤
        entries.countP (recent time span (time x)) := by
      refine List.countP_mono_left fun y _ hy => ?_
      unfold within at hin hy
      unfold recent
      simp only [decide_eq_true_eq] at hin hy ⊢
      linarith
    omega
  · exact h start

end RemoteCam.Lib.Quota
