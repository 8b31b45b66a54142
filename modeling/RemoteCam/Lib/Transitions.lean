import Mathlib.Data.List.Chain
import Mathlib.Data.List.Perm.Basic
import Mathlib.Tactic.Ring
import Mathlib.Tactic.Set
import Mathlib.Tactic.Tauto

/-! # Machines and their runs

A `Machine` says which actions are enabled in a state and what each of them does. A run is the list
of its actions; `Legal cond` are the runs whose actions are enabled and meet `cond`, and `exec` is
the state a run ends in. `Legal.invariant` is the induction over a run for what holds of every state
it reaches, `Legal.along` the one for what every step of it meets. -/

namespace RemoteCam.Lib.Transitions

/-- States `σ` and actions `α`. What a thread or the outside decides is part of the action. -/
structure Machine (σ α : Type*) where
  enabled : σ → α → Prop
  next : σ → α → σ

namespace Machine

variable {σ α : Type*} (M : Machine σ α)

/-- The state after the actions. -/
def exec (s : σ) (as : List α) : σ := as.foldl M.next s

/-- Every action is enabled when its turn comes, and meets the condition. -/
def Legal (cond : σ → α → Prop) : σ → List α → Prop
  | _, [] => True
  | s, a :: as => M.enabled s a ∧ cond s a ∧ Legal cond (M.next s a) as

instance decidableLegal [∀ s a, Decidable (M.enabled s a)] {cond : σ → α → Prop}
    [∀ s a, Decidable (cond s a)] : ∀ (s : σ) (as : List α), Decidable (M.Legal cond s as)
  | _, [] => .isTrue trivial
  | s, a :: as =>
    have : Decidable (M.Legal cond (M.next s a) as) := decidableLegal (M.next s a) as
    inferInstanceAs (Decidable (M.enabled s a ∧ cond s a ∧ M.Legal cond (M.next s a) as))

variable {M} {cond : σ → α → Prop} {s : σ} {as : List α}

/-- **The rule of invariants**: what holds at first and is kept by every step holds at the end. -/
theorem Legal.invariant {I : σ → Prop} (h : M.Legal cond s as) (init : I s)
    (step : ∀ s a, I s → M.enabled s a → cond s a → I (M.next s a)) : I (M.exec s as) := by
  induction as generalizing s with
  | nil => exact init
  | cons a as ih =>
    obtain ⟨ha, hc, h⟩ := h
    exact ih h (step s a init ha hc)

/-- In a machine that never waits every list of actions is a run. -/
theorem legal_of_enabled (h : ∀ s a, M.enabled s a) : ∀ (s : σ) (as : List α),
    M.Legal (fun _ _ => True) s as
  | _, [] => trivial
  | s, a :: as => ⟨h s a, trivial, legal_of_enabled h (M.next s a) as⟩

/-- What an invariant lets every step of a run meet. -/
theorem Legal.along {I : σ → Prop} {good : σ → α → Prop} (h : M.Legal cond s as) (init : I s)
    (step : ∀ s a, I s → M.enabled s a → cond s a → I (M.next s a))
    (meets : ∀ s a, I s → M.enabled s a → cond s a → good s a) : M.Legal good s as := by
  induction as generalizing s with
  | nil => trivial
  | cons a as ih =>
    obtain ⟨ha, hc, h⟩ := h
    exact ⟨ha, meets s a init ha hc, ih h (step s a init ha hc)⟩

theorem exec_append (bs : List α) : M.exec s (as ++ bs) = M.exec (M.exec s as) bs :=
  List.foldl_append

/-- What holds of the state before each step, and the step, is met by the run. -/
theorem Legal.of_split {good : σ → α → Prop} (h : M.Legal cond s as)
    (meets : ∀ before a after, as = before ++ a :: after → good (M.exec s before) a) :
    M.Legal good s as := by
  induction as generalizing s with
  | nil => trivial
  | cons a as ih =>
    obtain ⟨ha, -, h⟩ := h
    refine ⟨ha, meets [] a as rfl, ih h fun before b after hsplit => ?_⟩
    exact meets (a :: before) b after (by rw [hsplit]; rfl)

/-- A run in two parts. -/
theorem legal_append {bs : List α} :
    M.Legal cond s (as ++ bs) ↔ M.Legal cond s as ∧ M.Legal cond (M.exec s as) bs := by
  induction as generalizing s with
  | nil => exact ⟨fun h => ⟨trivial, h⟩, fun h => h.2⟩
  | cons a as ih =>
    constructor
    · rintro ⟨ha, hc, h⟩
      obtain ⟨h1, h2⟩ := ih.mp h
      exact ⟨⟨ha, hc, h1⟩, h2⟩
    · rintro ⟨⟨ha, hc, h1⟩, h2⟩
      exact ⟨ha, hc, ih.mpr ⟨h1, h2⟩⟩

/-- The last action of a run was enabled and met the condition, after a run of its own. -/
theorem Legal.last {a : α} (h : M.Legal cond s (as ++ [a])) :
    M.Legal cond s as ∧ M.enabled (M.exec s as) a ∧ cond (M.exec s as) a := by
  obtain ⟨h1, ha, hc, -⟩ := legal_append.mp h
  exact ⟨h1, ha, hc⟩

/-- What every step of a run meets, where it is about the action alone. -/
theorem Legal.forall_mem {good : α → Prop} (h : M.Legal (fun _ a => good a) s as) :
    ∀ a ∈ as, good a := by
  induction as generalizing s with
  | nil => exact nofun
  | cons a as ih =>
    obtain ⟨-, ha, h⟩ := h
    exact List.forall_mem_cons.mpr ⟨ha, ih h⟩

/-- What every action of a run meets, beside the condition. -/
theorem Legal.and_mem {good : α → Prop} (h : M.Legal cond s as) (hgood : ∀ a ∈ as, good a) :
    M.Legal (fun t a => cond t a ∧ good a) s as := by
  induction as generalizing s with
  | nil => trivial
  | cons a as ih =>
    obtain ⟨ha, hc, h⟩ := h
    obtain ⟨hgood, hrest⟩ := List.forall_mem_cons.mp hgood
    exact ⟨ha, ⟨hc, hgood⟩, ih h hrest⟩

/-- **The rule of histories**: an invariant of the state and of the actions that led to it. -/
theorem Legal.history {P : List α → σ → Prop} (h : M.Legal cond s as) (init : P [] s)
    (step : ∀ past t a, P past t → M.enabled t a → cond t a → P (past ++ [a]) (M.next t a)) :
    P as (M.exec s as) := by
  induction as using List.reverseRecOn with
  | nil => exact init
  | append_singleton as a ih =>
    obtain ⟨h, ha, hc⟩ := h.last
    rw [exec_append]
    exact step as _ a (ih h) ha hc

end Machine

end RemoteCam.Lib.Transitions
