import Mathlib.Data.List.Basic
import Mathlib.Tactic.SplitIfs

/-! # Maps as ordered lists

A map is the list of its entries in the order of a strict total order on the keys. `insertOrAssign`
keeps the order (`sorted_insertOrAssign`), is seen by `lookup` at its own key only
(`lookup_insertOrAssign`), and is undone by erasing a key that was not there
(`filter_insertOrAssign`). -/

namespace RemoteCam.Lib.OrderedMap

variable {κ ν : Type*} {less : κ → κ → Bool}

/-- A strict total order. -/
structure StrictTotal (less : κ → κ → Bool) : Prop where
  irrefl : ∀ a, less a a = false
  trans : ∀ {a b c}, less a b = true → less b c = true → less a c = true
  eq_of_not : ∀ {a b}, less a b = false → less b a = false → a = b

/-- The entries are in order, so no key is there twice. -/
def Sorted (less : κ → κ → Bool) (map : List (κ × ν)) : Prop :=
  map.Pairwise fun a b => less a.1 b.1 = true

/-- The value under a key is replaced, or put at the place of the key. -/
def insertOrAssign (less : κ → κ → Bool) (key : κ) (value : ν) : List (κ × ν) → List (κ × ν)
  | [] => [(key, value)]
  | (k, v) :: map =>
    if less key k then (key, value) :: (k, v) :: map
    else if less k key then (k, v) :: insertOrAssign less key value map
    else (k, value) :: map

theorem StrictTotal.ne (h : StrictTotal less) {a b : κ} (hab : less a b = true) : a ≠ b := by
  rintro rfl
  rw [h.irrefl a] at hab
  cases hab

/-- **The place of a key**: after the smaller ones, before the others or over its own entry. -/
theorem insertOrAssign_cases (h : StrictTotal less) (key : κ) (value : ν) (map : List (κ × ν)) :
    ∃ before after, insertOrAssign less key value map = before ++ (key, value) :: after ∧
      (∀ entry ∈ before, less entry.1 key = true) ∧
      (map = before ++ after ∧ (∀ entry ∈ after.head?, less key entry.1 = true) ∨
        ∃ old, map = before ++ (key, old) :: after) := by
  induction map with
  | nil => exact ⟨[], [], rfl, nofun, .inl ⟨rfl, nofun⟩⟩
  | cons entry map ih =>
    obtain ⟨k, v⟩ := entry
    unfold insertOrAssign
    split_ifs with hlt hgt
    · refine ⟨[], _, rfl, nofun, .inl ⟨rfl, fun entry hentry => ?_⟩⟩
      obtain rfl := Option.some.inj hentry
      exact hlt
    · obtain ⟨before, after, hput, hbefore, hmap⟩ := ih
      refine ⟨(k, v) :: before, after, by rw [hput]; rfl,
        List.forall_mem_cons.mpr ⟨hgt, hbefore⟩, ?_⟩
      rcases hmap with ⟨rfl, hafter⟩ | ⟨old, rfl⟩
      · exact .inl ⟨rfl, hafter⟩
      · exact .inr ⟨old, rfl⟩
    · obtain rfl : k = key := h.eq_of_not (by simpa using hgt) (by simpa using hlt)
      exact ⟨[], map, rfl, nofun, .inr ⟨v, rfl⟩⟩

/-- A key above all others goes to the end. -/
theorem insertOrAssign_append (h : StrictTotal less) {key : κ} (value : ν) :
    ∀ {map : List (κ × ν)}, (∀ entry ∈ map, less entry.1 key = true) →
      insertOrAssign less key value map = map ++ [(key, value)]
  | [], _ => rfl
  | (k, v) :: map, hmap => by
    obtain ⟨hk, hrest⟩ := List.forall_mem_cons.mp hmap
    have hback : less key k = false := by
      by_contra hne
      have hself := h.trans hk (by simpa using hne)
      rw [h.irrefl k] at hself
      cases hself
    rw [insertOrAssign, if_neg (by rw [hback]; decide), if_pos hk,
      insertOrAssign_append h value hrest]
    rfl

theorem length_insertOrAssign (h : StrictTotal less) (key : κ) (value : ν) (map : List (κ × ν)) :
    (insertOrAssign less key value map).length ≤ map.length + 1 := by
  obtain ⟨before, after, hput, -, ⟨rfl, -⟩ | ⟨old, rfl⟩⟩ := insertOrAssign_cases h key value map
  · simp [hput]; omega
  · simp [hput]

/-- A new key is one more entry. -/
theorem insertOrAssign_perm (h : StrictTotal less) {key : κ} (value : ν) {map : List (κ × ν)}
    (hnew : ∀ entry ∈ map, entry.1 ≠ key) :
    (insertOrAssign less key value map).Perm ((key, value) :: map) := by
  obtain ⟨before, after, hput, -, ⟨rfl, -⟩ | ⟨old, rfl⟩⟩ := insertOrAssign_cases h key value map
  · rw [hput]
    exact List.perm_middle
  · exact absurd rfl (hnew (key, old) (List.mem_append_right _ List.mem_cons_self))

theorem mem_insertOrAssign (h : StrictTotal less) {key : κ} {value : ν} {map : List (κ × ν)}
    {entry : κ × ν} (hentry : entry ∈ insertOrAssign less key value map) :
    entry = (key, value) ∨ entry ∈ map := by
  obtain ⟨before, after, hput, -, hmap⟩ := insertOrAssign_cases h key value map
  rw [hput, List.mem_append, List.mem_cons] at hentry
  rcases hmap with ⟨rfl, -⟩ | ⟨old, rfl⟩
  · simp only [List.mem_append]
    tauto
  · simp only [List.mem_append, List.mem_cons]
    tauto

theorem lookup_insertOrAssign [BEq κ] [LawfulBEq κ] (h : StrictTotal less) (key : κ) (value : ν)
    (map : List (κ × ν)) (key' : κ) :
    (insertOrAssign less key value map).lookup key' =
      if key' == key then some value else map.lookup key' := by
  obtain ⟨before, after, hput, hbefore, hmap⟩ := insertOrAssign_cases h key value map
  rw [hput]
  by_cases hkey : key' = key
  · subst hkey
    have hnone : before.lookup key' = none := by
      rw [List.lookup_eq_none_iff]
      exact fun entry hmem => bne_iff_ne.mpr (h.ne (hbefore entry hmem)).symm
    rw [if_pos BEq.rfl, List.lookup_append, hnone, List.lookup_cons_self]
    rfl
  · have hne : (key' == key) = false := beq_eq_false_iff_ne.mpr hkey
    rcases hmap with ⟨rfl, -⟩ | ⟨old, rfl⟩
    · simp [List.lookup_append, List.lookup_cons, hne]
    · simp [List.lookup_append, List.lookup_cons, hne]

theorem sorted_insertOrAssign (h : StrictTotal less) {map : List (κ × ν)} (hmap : Sorted less map)
    (key : κ) (value : ν) : Sorted less (insertOrAssign less key value map) := by
  obtain ⟨before, after, hput, hbefore, hplace⟩ := insertOrAssign_cases h key value map
  rw [hput]
  rcases hplace with ⟨rfl, hafter⟩ | ⟨old, rfl⟩
  · obtain ⟨hsorted, hsorted', hcross⟩ := List.pairwise_append.mp hmap
    have hfirst : ∀ entry ∈ after, less key entry.1 = true := by
      cases after with
      | nil => exact nofun
      | cons first after =>
        have hkey : less key first.1 = true := hafter first rfl
        exact List.forall_mem_cons.mpr
          ⟨hkey, fun entry hmem => h.trans hkey ((List.pairwise_cons.mp hsorted').1 entry hmem)⟩
    refine List.pairwise_append.mpr ⟨hsorted, List.pairwise_cons.mpr ⟨hfirst, hsorted'⟩, ?_⟩
    exact fun a ha => List.forall_mem_cons.mpr ⟨hbefore a ha, hcross a ha⟩
  · obtain ⟨hsorted, hsorted', hcross⟩ := List.pairwise_append.mp hmap
    obtain ⟨hfirst, hrest⟩ := List.pairwise_cons.mp hsorted'
    refine List.pairwise_append.mpr ⟨hsorted, List.pairwise_cons.mpr ⟨hfirst, hrest⟩, ?_⟩
    exact fun a ha => List.forall_mem_cons.mpr
      ⟨hbefore a ha, fun b hb => hcross a ha b (List.mem_cons_of_mem _ hb)⟩

/-- Erasing a new key gives the map back. -/
theorem filter_insertOrAssign [DecidableEq κ] (h : StrictTotal less) {key : κ} (value : ν)
    {map : List (κ × ν)} (hmap : ∀ entry ∈ map, entry.1 ≠ key) :
    (insertOrAssign less key value map).filter (fun entry => entry.1 ≠ key) = map := by
  obtain ⟨before, after, hput, -, ⟨rfl, -⟩ | ⟨old, rfl⟩⟩ := insertOrAssign_cases h key value map
  · have hall : ∀ entry ∈ before ++ after, decide (entry.1 ≠ key) = true :=
      fun entry hmem => decide_eq_true (hmap entry hmem)
    obtain ⟨hbefore, hafter⟩ := List.forall_mem_append.mp hall
    rw [hput, List.filter_append, List.filter_cons_of_neg (by simp),
      List.filter_eq_self.mpr hbefore, List.filter_eq_self.mpr hafter]
  · exact absurd rfl (hmap (key, old) (List.mem_append_right _ List.mem_cons_self))

end RemoteCam.Lib.OrderedMap
