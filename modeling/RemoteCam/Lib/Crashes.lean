import Mathlib.Tactic.TypeStar

/-! # Programs that may be cut short

A program over a state returns a value or is cut short by a crash, in the middle of an operation or
between two. `Triple P p Q C` says that from a state with `P` it returns with `Q`, or is cut short
in a state with `C`; the rules follow the program (`Triple.pure`, `Triple.bind`), and
`Triple.weaken` is the rule of consequence. -/

namespace RemoteCam.Lib.Crashes

inductive Outcome (α : Type) where
  | returned (value : α)
  | crashed
  deriving DecidableEq, Repr

def Prog (σ α : Type) : Type := σ → Outcome α × σ

variable {σ α β : Type}

def Prog.bind (p : Prog σ α) (f : α → Prog σ β) : Prog σ β := fun s =>
  match p s with
  | (.returned a, s) => f a s
  | (.crashed, s) => (.crashed, s)

instance : Monad (Prog σ) where
  pure a s := (.returned a, s)
  bind := Prog.bind

structure Triple (P : σ → Prop) (p : Prog σ α) (Q : α → σ → Prop) (C : σ → Prop) : Prop where
  returns : ∀ s a s', P s → p s = (.returned a, s') → Q a s'
  crashes : ∀ s s', P s → p s = (.crashed, s') → C s'

namespace Triple

variable {P P' : σ → Prop} {Q Q' : α → σ → Prop} {R : β → σ → Prop} {C C' : σ → Prop}
  {p : Prog σ α} {f : α → Prog σ β}

theorem pure {a : α} (h : ∀ s, P s → Q a s) : Triple P (Pure.pure a : Prog σ α) Q C where
  returns s a' s' hP heq := by
    cases heq
    exact h s hP
  crashes s s' hP heq := by cases heq

theorem bind (hp : Triple P p Q C) (hf : ∀ a, Triple (Q a) (f a) R C) : Triple P (p >>= f) R C where
  returns s b s' hP heq := by
    change Prog.bind p f s = _ at heq
    unfold Prog.bind at heq
    obtain ⟨outcome, t, hrun⟩ : ∃ outcome t, p s = (outcome, t) := ⟨_, _, rfl⟩
    rw [hrun] at heq
    cases outcome with
    | returned a => exact (hf a).returns t b s' (hp.returns s a t hP hrun) heq
    | crashed => cases heq
  crashes s s' hP heq := by
    change Prog.bind p f s = _ at heq
    unfold Prog.bind at heq
    obtain ⟨outcome, t, hrun⟩ : ∃ outcome t, p s = (outcome, t) := ⟨_, _, rfl⟩
    rw [hrun] at heq
    cases outcome with
    | returned a => exact (hf a).crashes t s' (hp.returns s a t hP hrun) heq
    | crashed =>
      cases heq
      exact hp.crashes s s' hP hrun

theorem weaken (hp : Triple P p Q C) (hP : ∀ s, P' s → P s) (hQ : ∀ a s, Q a s → Q' a s)
    (hC : ∀ s, C s → C' s) : Triple P' p Q' C' where
  returns s a s' h heq := hQ a s' (hp.returns s a s' (hP s h) heq)
  crashes s s' h heq := hC s' (hp.crashes s s' (hP s h) heq)

/-- What holds before whatever the state. -/
theorem of_imp {φ : Prop} (h : φ → Triple P p Q C) : Triple (fun s => φ ∧ P s) p Q C where
  returns s a s' hP heq := (h hP.1).returns s a s' hP.2 heq
  crashes s s' hP heq := (h hP.1).crashes s s' hP.2 heq

end Triple

end RemoteCam.Lib.Crashes
