import Mathlib.Data.Option.Basic
import Mathlib.Data.Nat.Notation
import Mathlib.Tactic.SplitIfs

/-! # Readers against readings

A reader takes a value off the front of a list, or fails with an error. A *reading* says what
stands at the front without errors, and `value` which of what stands there the reader accepts and
what it makes of it. `Reads` is the agreement of the two; its rules follow the readers' monad, so a
reader is related to its reading in the order in which it is written. -/

namespace RemoteCam.Lib.Readers

variable {σ ε α β α' β' : Type}

theorem toOption_bind (x : Except ε α) (f : α → Except ε α') :
    (x >>= f).toOption = x.toOption.bind fun a => (f a).toOption := by
  cases x <;> rfl

theorem ok_bind (a : α) (f : α → Except ε α') : (Except.ok a >>= f) = f a := rfl

/-- What is left is no longer than what was there. -/
def Shrinks (reading : List σ → Option (β × List σ)) : Prop :=
  ∀ l p, reading l = some p → p.2.length ≤ l.length

/-- On lists of at most `bound` symbols the reader succeeds where something stands that has a value,
with this value. -/
def Reads (bound : ℕ) (read : List σ → Except ε (α × List σ))
    (reading : List σ → Option (β × List σ)) (value : β → Option α) : Prop :=
  ∀ l, l.length ≤ bound →
    (read l).toOption = (reading l).bind fun p => (value p.1).map (·, p.2)

theorem Shrinks.pure (b : β) : Shrinks fun l : List σ => some (b, l) := by
  rintro l p ⟨⟩
  exact Nat.le_refl _

theorem Shrinks.fail : Shrinks fun _ : List σ => (none : Option (β × List σ)) := nofun

theorem Shrinks.bind {reading : List σ → Option (β × List σ)}
    {k : β × List σ → Option (β' × List σ)} (h : Shrinks reading)
    (h' : ∀ b, Shrinks fun l => k (b, l)) : Shrinks fun l => reading l >>= k := by
  intro l q hq
  obtain ⟨p, hp, hq⟩ := Option.bind_eq_some_iff.mp hq
  have h1 := h l p hp
  have h2 := h' p.1 p.2 q hq
  omega

theorem Shrinks.ite {c : Prop} [Decidable c] {reading reading' : List σ → Option (β × List σ)}
    (h : Shrinks reading) (h' : Shrinks reading') :
    Shrinks fun l => if c then reading l else reading' l := by
  split_ifs
  · exact h
  · exact h'

variable {bound : ℕ} {value : β → Option α}

theorem Reads.pure {b : β} {a : α} (h : value b = some a) :
    Reads bound (fun l : List σ => (.ok (a, l) : Except ε (α × List σ))) (fun l => some (b, l))
      value := by
  intro l _
  rw [Option.bind_some, h]
  rfl

/-- Nothing that may stand there has a value. -/
theorem Reads.refuse {reading : List σ → Option (β × List σ)}
    (h : ∀ l p, reading l = some p → value p.1 = none) (e : ε) :
    Reads bound (fun _ : List σ => (.error e : Except ε (α × List σ))) reading value := by
  intro l _
  cases hr : reading l with
  | none => rfl
  | some p =>
    rw [Option.bind_some, h l p hr]
    rfl

theorem Reads.fail (e : ε) :
    Reads bound (fun _ : List σ => (.error e : Except ε (α × List σ))) (fun _ => none) value :=
  .refuse (fun _ _ h => by cases h) e

theorem Reads.ite {c : Prop} [Decidable c] {read read' : List σ → Except ε (α × List σ)}
    {reading reading' : List σ → Option (β × List σ)} (h : Reads bound read reading value)
    (h' : Reads bound read' reading' value) :
    Reads bound (fun l => if c then read l else read' l)
      (fun l => if c then reading l else reading' l) value := by
  split_ifs
  · exact h
  · exact h'

/-- **Reading on.** What is read first has no value: then neither has the whole. -/
theorem Reads.bind {value' : β' → Option α'} {read : List σ → Except ε (α × List σ)}
    {reading : List σ → Option (β × List σ)} {k : α × List σ → Except ε (α' × List σ)}
    {k' : β × List σ → Option (β' × List σ)} (h : Reads bound read reading value)
    (hshrinks : Shrinks reading)
    (hnone : ∀ b, value b = none → ∀ l p, l.length ≤ bound → k' (b, l) = some p →
      value' p.1 = none)
    (hsome : ∀ b a, value b = some a →
      Reads bound (fun l => k (a, l)) (fun l => k' (b, l)) value') :
    Reads bound (fun l => read l >>= k) (fun l => reading l >>= k') value' := by
  intro l hl
  dsimp only
  rw [toOption_bind, h l hl]
  cases hr : reading l with
  | none => rfl
  | some p =>
    have hp := hshrinks l p hr
    rw [Option.bind_some, Option.bind_eq_bind, Option.bind_some]
    cases hv : value p.1 with
    | none =>
      rw [Option.map_none, Option.bind_none]
      cases hr' : k' p with
      | none => rfl
      | some q => rw [Option.bind_some, hnone p.1 hv p.2 q (by omega) hr', Option.map_none]
    | some a =>
      rw [Option.map_some, Option.bind_some]
      exact hsome p.1 a hv p.2 (by omega)

/-- What is read first always has a value. -/
theorem Reads.bind_some {value' : β' → Option α'} {f : β → α}
    {read : List σ → Except ε (α × List σ)} {reading : List σ → Option (β × List σ)}
    {k : α × List σ → Except ε (α' × List σ)} {k' : β × List σ → Option (β' × List σ)}
    (h : Reads bound read reading fun b => some (f b)) (hshrinks : Shrinks reading)
    (hsome : ∀ b, Reads bound (fun l => k (f b, l)) (fun l => k' (b, l)) value') :
    Reads bound (fun l => read l >>= k) (fun l => reading l >>= k') value' :=
  h.bind hshrinks nofun fun b a ha => by
    obtain rfl := Option.some.inj ha
    exact hsome b

/-- What stands there is only named otherwise. -/
theorem Reads.rename {value' : β' → Option α} {f : β → β'}
    {read : List σ → Except ε (α × List σ)} {reading : List σ → Option (β × List σ)}
    (h : Reads bound read reading value) (hf : ∀ b, value' (f b) = value b) :
    Reads bound read (fun l => reading l >>= fun p => some (f p.1, p.2)) value' := by
  intro l hl
  dsimp only
  rw [h l hl]
  cases reading l with
  | none => rfl
  | some p => rw [Option.bind_some, Option.bind_eq_bind, Option.bind_some, Option.bind_some, hf]

end RemoteCam.Lib.Readers
