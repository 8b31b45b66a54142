import Mathlib.Data.Nat.Notation
import RemoteCam.Lib.Transitions

/-! # A proposal on a line

One party proposes a change of the terms and waits; the other one accepts or rejects it, and sends
items all the while. What is on the line is in order (`Sensible`) if whoever reads it meets an
answer only while the proposal is open, and every item under the terms it was made for. -/

namespace RemoteCam.Lib.Negotiation

open RemoteCam.Lib.Transitions

variable {γ υ : Type*}

/-- The terms agreed on and the proposal that is open, each under its number. -/
structure Deal (γ : Type*) where
  committed : ℕ × γ
  proposed : Option (ℕ × γ) := none

inductive Word (υ : Type*) where
  | accept (number : ℕ)
  | reject (number : ℕ)
  | item (unit : υ)

variable (made : υ → γ → Prop)

/-- The word is no surprise. -/
def Expected (d : Deal γ) : Word υ → Prop
  | .accept n | .reject n => ∃ c, d.proposed = some (n, c)
  | .item u => made u d.committed.2

def Deal.read (d : Deal γ) : Word υ → Deal γ
  | .accept _ => ⟨d.proposed.getD d.committed, none⟩
  | .reject _ => { d with proposed := none }
  | .item _ => d

def reader : Machine (Deal γ) (Word υ) := ⟨Expected made, Deal.read⟩

/-- What is on the line, the next word first. -/
def Sensible (d : Deal γ) (line : List (Word υ)) : Prop :=
  (reader made).Legal (fun _ _ => True) d line

/-- The deal once all of the line is read. -/
def settled (d : Deal γ) (line : List (Word υ)) : Deal γ := line.foldl Deal.read d

variable {made} {d : Deal γ} {line : List (Word υ)}

theorem sensible_cons {w : Word υ} :
    Sensible made d (w :: line) ↔ Expected made d w ∧ Sensible made (d.read w) line :=
  ⟨fun ⟨h, _, hrest⟩ => ⟨h, hrest⟩, fun ⟨h, hrest⟩ => ⟨h, trivial, hrest⟩⟩

theorem sensible_append {more : List (Word υ)} :
    Sensible made d (line ++ more) ↔ Sensible made d line ∧ Sensible made (settled d line) more :=
  Machine.legal_append

theorem settled_append (more : List (Word υ)) :
    settled d (line ++ more) = settled (settled d line) more := List.foldl_append

/-- More items may come to be made for some terms. -/
theorem Sensible.mono {made' : υ → γ → Prop} (h : Sensible made d line)
    (hmade : ∀ u c, made u c → made' u c) : Sensible made' d line := by
  induction line generalizing d with
  | nil => trivial
  | cons w line ih =>
    obtain ⟨hw, hrest⟩ := sensible_cons.mp h
    refine sensible_cons.mpr ⟨?_, ih hrest⟩
    cases w with
    | item u => exact hmade _ _ hw
    | accept n | reject n => exact hw

/-- With no proposal open there is no answer on the line, and a proposal made now stays open until
the end of the line. -/
theorem Sensible.propose (h : Sensible made d line) (hnone : d.proposed = none)
    (p : Option (ℕ × γ)) :
    Sensible made { d with proposed := p } line ∧
      settled { d with proposed := p } line = { d with proposed := p } := by
  induction line with
  | nil => exact ⟨trivial, rfl⟩
  | cons w line ih =>
    obtain ⟨hw, hrest⟩ := sensible_cons.mp h
    cases w with
    | item u =>
      obtain ⟨hsensible, hsettled⟩ := ih hrest
      exact ⟨sensible_cons.mpr ⟨hw, hsensible⟩, hsettled⟩
    | accept n | reject n =>
      obtain ⟨c, hc⟩ := hw
      rw [hnone] at hc
      cases hc

theorem Sensible.settled_of_none (h : Sensible made d line) (hnone : d.proposed = none) :
    settled d line = d := by
  have hsettled := (h.propose hnone none).2
  rwa [← hnone] at hsettled

end RemoteCam.Lib.Negotiation
