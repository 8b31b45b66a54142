import Mathlib.Data.List.GetD
import Mathlib.Tactic.ByCases
import Mathlib.Tactic.ByContra

/-! # Pools of threads

A `Pool` gives every thread number a local state; all but finitely many are in the default one.
`forall_set` is how an invariant of every thread passes a step of one of them, `Guarded` the
invariant that a region of the local states holds a single thread at a time, under a flag. -/

namespace RemoteCam.Lib.Threads

/-- The local states of the first threads; the others are in the default state. -/
structure Pool (ρ : Type*) where
  slots : List ρ := []
  deriving DecidableEq, Repr

namespace Pool

variable {ρ : Type*} [Inhabited ρ] (p : Pool ρ)

def get (t : ℕ) : ρ := p.slots.getD t default

def set (t : ℕ) (x : ρ) : Pool ρ :=
  ⟨(p.slots ++ List.replicate (t + 1 - p.slots.length) default).set t x⟩

theorem get_set (t u : ℕ) (x : ρ) : (p.set t x).get u = if u = t then x else p.get u := by
  have hlen : t < (p.slots ++ List.replicate (t + 1 - p.slots.length) default).length := by
    rw [List.length_append, List.length_replicate]
    omega
  unfold get set
  rw [List.getD_eq_getElem?_getD, List.getD_eq_getElem?_getD, List.getElem?_set]
  by_cases h : u = t
  · subst h
    rw [if_pos rfl, if_pos hlen, if_pos rfl]
    rfl
  · rw [if_neg (Ne.symm h), if_neg h]
    by_cases hu : u < p.slots.length
    · rw [List.getElem?_append_left hu]
    · rw [List.getElem?_append_right (Nat.not_lt.mp hu), List.getElem?_replicate,
        List.getElem?_eq_none (Nat.not_lt.mp hu)]
      split <;> rfl

@[simp] theorem get_set_self (t : ℕ) (x : ρ) : (p.set t x).get t = x := by
  rw [get_set, if_pos rfl]

theorem get_set_of_ne {t u : ℕ} (h : u ≠ t) (x : ρ) : (p.set t x).get u = p.get u := by
  rw [get_set, if_neg h]

/-- Only the listed threads and the default state need to be looked at. -/
theorem forall_get {P : ρ → Prop} : (∀ t, P (p.get t)) ↔ P default ∧ ∀ x ∈ p.slots, P x := by
  constructor
  · intro h
    refine ⟨?_, fun x hx => ?_⟩
    · have hout := h p.slots.length
      rwa [get, List.getD_eq_default _ _ (Nat.le_refl _)] at hout
    · obtain ⟨i, hi, rfl⟩ := List.getElem_of_mem hx
      have hin := h i
      rwa [get, List.getD_eq_getElem _ _ hi] at hin
  · rintro ⟨hdefault, h⟩ t
    by_cases ht : t < p.slots.length
    · rw [get, List.getD_eq_getElem _ _ ht]
      exact h _ (List.getElem_mem ht)
    · rw [get, List.getD_eq_default _ _ (Nat.not_lt.mp ht)]
      exact hdefault

instance decidableForall {P : ρ → Prop} [DecidablePred P] : Decidable (∀ t, P (p.get t)) :=
  decidable_of_iff _ p.forall_get.symm

variable {p} {t : ℕ} {x : ρ}

/-- **A step of thread `t`**: what holds of every thread holds after it, if it holds of the new
state of `t`. -/
theorem forall_set {P : ℕ → ρ → Prop} (h : ∀ u, P u (p.get u)) (hx : P t x) :
    ∀ u, P u ((p.set t x).get u) := by
  intro u
  by_cases hu : u = t
  · subst hu
    rwa [get_set_self]
  · rw [get_set_of_ne p hu]
    exact h u

variable (p) in
/-- The region holds a thread only while the flag is up, and one thread at most. -/
structure Guarded (region : ρ → Bool) (flag : Prop) : Prop where
  one : ∀ t u, region (p.get t) → region (p.get u) → t = u
  flag : ∀ t, region (p.get t) → flag

namespace Guarded

variable {region : ρ → Bool} {flag flag' : Prop}

theorem of_none (h : ∀ u, region (p.get u) = false) : p.Guarded region flag := by
  refine ⟨fun u v hu => ?_, fun u hu => ?_⟩
  · rw [h u] at hu
    cases hu
  · rw [h u] at hu
    cases hu

theorem of_empty (h : ∀ u, region (p.get u) = false) (hx : region x = false) :
    (p.set t x).Guarded region flag :=
  of_none (forall_set (P := fun _ y => region y = false) h hx)

/-- Where the threads of the region were before the step. -/
theorem get_of_set (hx : region x = false ∨ region (p.get t)) {u : ℕ}
    (hu : region ((p.set t x).get u)) : region (p.get u) := by
  by_cases hut : u = t
  · subst hut
    rw [get_set_self] at hu
    rcases hx with hx | hx
    · rw [hx] at hu
      cases hu
    · exact hx
  · rwa [get_set_of_ne p hut] at hu

/-- A step that does not enter the region, and keeps the flag up. -/
theorem stay (h : p.Guarded region flag) (hx : region x = false ∨ region (p.get t))
    (hflag : flag → flag') : (p.set t x).Guarded region flag' :=
  ⟨fun u v hu hv => h.one u v (get_of_set hx hu) (get_of_set hx hv),
    fun u hu => hflag (h.flag u (get_of_set hx hu))⟩

/-- The flag was down, so the thread that enters is alone. -/
theorem enter (h : p.Guarded region flag) (hdown : ¬ flag) (hup : flag') :
    (p.set t x).Guarded region flag' := by
  have hself : ∀ u, region ((p.set t x).get u) → u = t := by
    intro u hu
    by_contra hut
    rw [get_set_of_ne p hut] at hu
    exact hdown (h.flag u hu)
  exact ⟨fun u v hu hv => (hself u hu).trans (hself v hv).symm, fun _ _ => hup⟩

/-- The thread was alone, so the region is empty once it has left. -/
theorem exit (h : p.Guarded region flag) (ht : region (p.get t)) (hx : region x = false) :
    (p.set t x).Guarded region flag' := by
  refine of_none fun u => ?_
  by_cases hut : u = t
  · subst hut
    rwa [get_set_self]
  · rw [get_set_of_ne p hut]
    by_contra hu
    exact hut (h.one u t (by simpa using hu) ht)

end Guarded

end Pool

end RemoteCam.Lib.Threads
