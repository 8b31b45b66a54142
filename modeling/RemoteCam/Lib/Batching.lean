import Mathlib.Algebra.BigOperators.Group.List.Basic

/-! # Coalescing

Moves come one at a time and leave in batches. What is pending is the product of the moves that no
batch has taken along. Where moves act on something, a batch does what its moves do one after the
other. -/

namespace RemoteCam.Lib.Batching

section Batches
variable {M : Type*} [Monoid M] {moves sent : List M} {pending : M}

/-- The moves are cut into batches, each of which was sent as one move, and a rest. -/
def Batched (moves sent : List M) (pending : M) : Prop :=
  ∃ (batches : List (List M)) (waiting : List M), moves = batches.flatten ++ waiting ∧
    sent = batches.map List.prod ∧ pending = waiting.prod ∧ ∀ batch ∈ batches, batch ≠ []

theorem batched_nil : Batched ([] : List M) [] 1 :=
  ⟨[], [], rfl, rfl, rfl, List.forall_mem_nil _⟩

theorem Batched.push (h : Batched moves sent pending) (move : M) :
    Batched (moves ++ [move]) sent (pending * move) := by
  obtain ⟨batches, waiting, rfl, rfl, rfl, hne⟩ := h
  exact ⟨batches, waiting ++ [move], List.append_assoc _ _ _, rfl, by simp, hne⟩

theorem Batched.flush (h : Batched moves sent pending) (hpending : pending ≠ 1) :
    Batched moves (sent ++ [pending]) 1 := by
  obtain ⟨batches, waiting, rfl, rfl, rfl, hne⟩ := h
  refine ⟨batches ++ [waiting], [], by simp, by simp, rfl, List.forall_mem_append.mpr ⟨hne, ?_⟩⟩
  refine List.forall_mem_singleton.mpr fun hnil => hpending ?_
  rw [hnil]
  rfl

/-- Nothing is lost, and nothing is made up. -/
theorem Batched.prod_mul (h : Batched moves sent pending) : sent.prod * pending = moves.prod := by
  obtain ⟨batches, waiting, rfl, rfl, rfl, -⟩ := h
  rw [List.prod_append, List.prod_flatten]

theorem Batched.length_le (h : Batched moves sent pending) : sent.length ≤ moves.length := by
  obtain ⟨batches, waiting, rfl, rfl, -, hne⟩ := h
  rw [List.length_map, List.length_append, List.length_flatten]
  have hcount : batches.length ≤ (batches.map List.length).sum := by
    have hle := List.length_le_sum_of_one_le (batches.map List.length) fun n hn => by
      obtain ⟨batch, hbatch, rfl⟩ := List.mem_map.mp hn
      exact List.length_pos_iff.mpr (hne batch hbatch)
    rwa [List.length_map] at hle
  exact Nat.le_add_right_of_le hcount

/-- What two moves hand on to their product holds of what was sent. -/
theorem Batched.forall_sent (h : Batched moves sent pending) {P : M → Prop}
    (hmul : ∀ x y, P x → P y → P (x * y)) (hmoves : ∀ move ∈ moves, P move) :
    ∀ move ∈ sent, P move := by
  obtain ⟨batches, waiting, rfl, rfl, -, hne⟩ := h
  have hprod : ∀ batch : List M, batch ≠ [] → (∀ move ∈ batch, P move) → P batch.prod := by
    intro batch
    induction batch with
    | nil => exact fun hnil _ => absurd rfl hnil
    | cons move batch ih =>
      intro _ hbatch
      obtain ⟨hmove, hrest⟩ := List.forall_mem_cons.mp hbatch
      rw [List.prod_cons]
      by_cases hnil : batch = []
      · rw [hnil, List.prod_nil, mul_one]
        exact hmove
      · exact hmul _ _ hmove (ih hnil hrest)
  rintro move hmove
  obtain ⟨batch, hbatch, rfl⟩ := List.mem_map.mp hmove
  refine hprod batch (hne batch hbatch) fun move hmem => hmoves move ?_
  exact List.mem_append_left _ (List.mem_flatten_of_mem hbatch hmem)

/-! ### Actions -/

/-- A product acts as its factors do, the first of them first. -/
structure Acts {σ : Type*} (act : σ → M → σ) : Prop where
  one : ∀ s, act s 1 = s
  mul : ∀ s x y, act s (x * y) = act (act s x) y

theorem Acts.foldl {σ : Type*} {act : σ → M → σ} (h : Acts act) (moves : List M) (s : σ) :
    moves.foldl act s = act s moves.prod := by
  induction moves generalizing s with
  | nil => exact (h.one s).symm
  | cons move moves ih => rw [List.foldl_cons, ih, List.prod_cons, h.mul]

/-- **Batches do what their moves do.** -/
theorem Batched.foldl {σ : Type*} {act : σ → M → σ} (h : Batched moves sent pending)
    (hact : Acts act) (s : σ) : act (sent.foldl act s) pending = moves.foldl act s := by
  rw [hact.foldl, hact.foldl, ← hact.mul, h.prod_mul]

end Batches

end RemoteCam.Lib.Batching
