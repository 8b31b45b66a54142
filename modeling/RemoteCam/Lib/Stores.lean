import Mathlib.Data.List.Nodup
import Mathlib.Order.Interval.Set.Disjoint
import Mathlib.Logic.Function.Basic
import Mathlib.Tactic.Ring

/-! # Stores

Code that fills a buffer from another one, with addresses that do not depend on what is in them: the
list of its stores, in order. A store knows the addresses it reads, and its value is a function of
what stands there.

`Covers stores S`: the stores go to the addresses of `S`, once to each. It is the composition of
the covers of the parts of the code (`covers_append`, `covers_flatMap`), and it says what is in the
buffer afterwards (`Covers.exec_of_mem`, `Covers.exec_of_not_mem`). -/

namespace RemoteCam.Lib.Stores

structure Store (α : Type*) where
  address : ℕ
  reads : List ℕ
  value : (ℕ → α) → α
  /-- The value depends on nothing else. -/
  local_reads : ∀ m m', (∀ i ∈ reads, m i = m' i) → value m = value m'

variable {α ι : Type*} {m m' dst : ℕ → α} {stores more : List (Store α)} {st : Store α} {a : ℕ}
  {S T : Set ℕ}

def addresses (stores : List (Store α)) : List ℕ := stores.map Store.address

/-- The buffer after the stores, with `m` to read from. -/
def exec (m : ℕ → α) (stores : List (Store α)) (dst : ℕ → α) : ℕ → α :=
  stores.foldl (fun dst st => Function.update dst st.address (st.value m)) dst

/-- `n` items from `s` on. -/
def memcpy (d s n : ℕ) : List (Store α) :=
  (List.range n).map fun k => ⟨d + k, [s + k], fun m => m (s + k), fun _ _ h => h _ (by simp)⟩

/-- The same item `n` times. -/
def memset (d : ℕ) (v : α) (n : ℕ) : List (Store α) :=
  (List.range n).map fun k => ⟨d + k, [], fun _ => v, fun _ _ _ => rfl⟩

theorem reads_memcpy {d s n i : ℕ} (hst : st ∈ memcpy d s n) (hi : i ∈ st.reads) :
    s ≤ i ∧ i < s + n := by
  obtain ⟨k, hk, rfl⟩ := List.mem_map.mp hst
  obtain rfl := List.mem_singleton.mp hi
  have hlt := List.mem_range.mp hk
  omega

theorem reads_memset {d n : ℕ} {v : α} (hst : st ∈ memset d v n) : st.reads = [] := by
  obtain ⟨k, -, rfl⟩ := List.mem_map.mp hst
  rfl

theorem of_mem_memset {d n : ℕ} {v : α} (hst : st ∈ memset d v n) :
    d ≤ st.address ∧ st.address < d + n ∧ ∀ m, st.value m = v := by
  obtain ⟨k, hk, rfl⟩ := List.mem_map.mp hst
  exact ⟨Nat.le_add_right d k, Nat.add_lt_add_left (List.mem_range.mp hk) d, fun _ => rfl⟩

theorem exists_memset (v : α) {d n : ℕ} (h : d ≤ a ∧ a < d + n) :
    ∃ st ∈ memset d v n, st.address = a :=
  ⟨_, List.mem_map_of_mem (List.mem_range.mpr (show a - d < n by omega)),
    show d + (a - d) = a by omega⟩

theorem exists_memcpy (d s : ℕ) {n k : ℕ} (hk : k < n) :
    ∃ st ∈ (memcpy d s n : List (Store α)), st.address = d + k ∧ ∀ m, st.value m = m (s + k) :=
  ⟨_, List.mem_map_of_mem (List.mem_range.mpr hk), rfl, fun _ => rfl⟩

/-! ### Execution -/

theorem exec_append : exec m (stores ++ more) dst = exec m more (exec m stores dst) :=
  List.foldl_append

theorem exec_of_not_mem (h : a ∉ addresses stores) : exec m stores dst a = dst a := by
  induction stores generalizing dst with
  | nil => rfl
  | cons st stores ih =>
    have hne := List.ne_of_not_mem_cons h
    have hrest := List.not_mem_of_not_mem_cons h
    have hexec : exec m (st :: stores) dst a =
        exec m stores (Function.update dst st.address (st.value m)) a := rfl
    rw [hexec, ih hrest, Function.update_of_ne hne]

theorem exec_of_mem (hst : st ∈ stores) (h : (addresses stores).Nodup) :
    exec m stores dst st.address = st.value m := by
  induction stores generalizing dst with
  | nil => cases hst
  | cons first stores ih =>
    obtain ⟨hfirst, hrest⟩ := List.nodup_cons.mp h
    have hexec : exec m (first :: stores) dst st.address =
        exec m stores (Function.update dst first.address (first.value m)) st.address := rfl
    rw [hexec]
    rcases List.mem_cons.mp hst with rfl | hst
    · rw [exec_of_not_mem hfirst, Function.update_self]
    · exact ih hst hrest

/-- Stores that go from address to address, and what they leave in a buffer of their length. -/
theorem map_exec_range {n : ℕ} (h : addresses stores = List.range n) :
    (List.range n).map (exec m stores dst) = stores.map fun st => st.value m := by
  have hnodup : (addresses stores).Nodup := by
    rw [h]
    exact List.nodup_range
  rw [← h, addresses, List.map_map]
  exact List.map_congr_left fun st hst => exec_of_mem hst hnodup

/-- Stores to one address that all put the same there. -/
theorem exec_of_forall_value {v : α} (h : ∀ st ∈ stores, st.address = a → st.value m = v)
    (ha : a ∈ addresses stores) : exec m stores dst a = v := by
  induction stores generalizing dst with
  | nil => cases ha
  | cons st stores ih =>
    obtain ⟨hst, hrest⟩ := List.forall_mem_cons.mp h
    have hexec : exec m (st :: stores) dst a =
        exec m stores (Function.update dst st.address (st.value m)) a := rfl
    rw [hexec]
    by_cases hmem : a ∈ addresses stores
    · exact ih hrest hmem
    · obtain rfl : a = st.address := (List.mem_cons.mp ha).resolve_right hmem
      rw [exec_of_not_mem hmem, Function.update_self, hst rfl]

/-- An address is as it was or as the stores have left it, whatever stands elsewhere. -/
theorem exec_congr_dst {dst' : ℕ → α} (h : a ∉ addresses stores → dst a = dst' a) :
    exec m stores dst a = exec m stores dst' a := by
  induction stores generalizing dst dst' with
  | nil => exact h List.not_mem_nil
  | cons st stores ih =>
    refine @ih (Function.update dst st.address (st.value m))
      (Function.update dst' st.address (st.value m)) fun ha => ?_
    by_cases hst : a = st.address
    · rw [hst, Function.update_self, Function.update_self]
    · rw [Function.update_of_ne hst, Function.update_of_ne hst]
      exact h fun hmem => (List.mem_cons.mp hmem).elim hst ha

/-- Only what is read matters. -/
theorem exec_congr (h : ∀ st ∈ stores, ∀ i ∈ st.reads, m i = m' i) :
    exec m stores dst = exec m' stores dst := by
  induction stores generalizing dst with
  | nil => rfl
  | cons st stores ih =>
    obtain ⟨hst, hrest⟩ := List.forall_mem_cons.mp h
    have hvalue : st.value m = st.value m' := st.local_reads m m' hst
    show exec m stores (Function.update dst st.address (st.value m)) =
      exec m' stores (Function.update dst st.address (st.value m'))
    rw [hvalue]
    exact ih hrest

/-! ### Covers -/

/-- The stores go to the addresses of `S`, once to each. -/
structure Covers (stores : List (Store α)) (S : Set ℕ) : Prop where
  nodup : (addresses stores).Nodup
  mem_iff : ∀ a, a ∈ addresses stores ↔ a ∈ S

theorem Covers.address_mem (h : Covers stores S) (hst : st ∈ stores) : st.address ∈ S :=
  (h.mem_iff _).mp (List.mem_map_of_mem hst)

theorem Covers.exec_of_mem (h : Covers stores S) (hst : st ∈ stores) (ha : st.address = a) :
    exec m stores dst a = st.value m := by
  rw [← ha]
  exact Stores.exec_of_mem hst h.nodup

theorem Covers.count_eq_one (h : Covers stores S) (ha : a ∈ S) : (addresses stores).count a = 1 :=
  List.count_eq_one_of_mem h.nodup ((h.mem_iff a).mpr ha)

theorem Covers.not_mem (h : Covers stores S) (ha : a ∉ S) : a ∉ addresses stores :=
  fun hmem => ha ((h.mem_iff a).mp hmem)

theorem Covers.exec_of_not_mem (h : Covers stores S) (ha : a ∉ S) :
    exec m stores dst a = dst a :=
  Stores.exec_of_not_mem (h.not_mem ha)

theorem Covers.congr (h : Covers stores S) (hST : ∀ a, a ∈ S ↔ a ∈ T) : Covers stores T :=
  ⟨h.nodup, fun a => (h.mem_iff a).trans (hST a)⟩

/-- Stores to consecutive addresses. -/
theorem covers_range {d n : ℕ} {f : ℕ → Store α} (h : ∀ k, (f k).address = d + k) :
    Covers ((List.range n).map f) (Set.Ico d (d + n)) := by
  have haddresses : addresses ((List.range n).map f) = (List.range n).map (d + ·) := by
    rw [addresses, List.map_map]
    exact List.map_congr_left fun k _ => h k
  constructor
  · rw [haddresses]
    exact List.nodup_range.map (add_right_injective d)
  · intro a
    rw [haddresses, List.mem_map, Set.mem_Ico]
    constructor
    · rintro ⟨k, hk, rfl⟩
      have hlt := List.mem_range.mp hk
      omega
    · rintro ⟨hle, hlt⟩
      exact ⟨a - d, List.mem_range.mpr (by omega), by omega⟩

theorem covers_memcpy (d s n : ℕ) : Covers (memcpy d s n : List (Store α)) (Set.Ico d (d + n)) :=
  covers_range fun _ => rfl

theorem covers_memset (d : ℕ) (v : α) (n : ℕ) : Covers (memset d v n) (Set.Ico d (d + n)) :=
  covers_range fun _ => rfl

theorem covers_append (h : Covers stores S) (h' : Covers more T)
    (hdisjoint : ∀ a ∈ S, a ∉ T) : Covers (stores ++ more) (S ∪ T) := by
  constructor
  · rw [addresses, List.map_append]
    refine h.nodup.append h'.nodup fun a ha ha' => ?_
    exact hdisjoint a ((h.mem_iff a).mp ha) ((h'.mem_iff a).mp ha')
  · intro a
    rw [addresses, List.map_append, List.mem_append, Set.mem_union]
    exact or_congr (h.mem_iff a) (h'.mem_iff a)

theorem covers_pair {d : ℕ} {st st' : Store α} (h : st.address = d) (h' : st'.address = d + 1) :
    Covers [st, st'] (Set.Ico d (d + 2)) := by
  constructor
  · simp [addresses, h, h']
  · intro a
    simp only [addresses, List.map_cons, List.map_nil, List.mem_cons, List.not_mem_nil, or_false,
      Set.mem_Ico, h, h']
    omega

/-- A loop whose rounds go to different addresses. -/
theorem covers_flatMap {l : List ι} {f : ι → List (Store α)} {S : ι → Set ℕ} (hl : l.Nodup)
    (h : ∀ i ∈ l, Covers (f i) (S i))
    (hdisjoint : ∀ i ∈ l, ∀ j ∈ l, i ≠ j → ∀ a ∈ S i, a ∉ S j) :
    Covers (l.flatMap f) {a | ∃ i ∈ l, a ∈ S i} := by
  have haddresses : addresses (l.flatMap f) = l.flatMap fun i => addresses (f i) :=
    List.map_flatMap
  constructor
  · rw [haddresses, List.nodup_flatMap]
    refine ⟨fun i hi => (h i hi).nodup, hl.imp_of_mem fun {i j} hi hj hne a ha ha' => ?_⟩
    exact hdisjoint i hi j hj hne a (((h i hi).mem_iff a).mp ha) (((h j hj).mem_iff a).mp ha')
  · intro a
    rw [haddresses, List.mem_flatMap]
    exact exists_congr fun i => and_congr_right fun hi => (h i hi).mem_iff a

theorem covers_adjacent {b c d : ℕ} (h : Covers stores (Set.Ico b c))
    (h' : Covers more (Set.Ico c d)) (hbc : b ≤ c) (hcd : c ≤ d) :
    Covers (stores ++ more) (Set.Ico b d) := by
  rw [← Set.Ico_union_Ico_eq_Ico hbc hcd]
  exact covers_append h h' fun a ha ha' => absurd ha.2 (Nat.not_lt.mpr ha'.1)

/-! ### Planes -/

/-- The first `cols` columns of `rows` rows. -/
def plane (base stride rows cols : ℕ) : Set ℕ :=
  {a | ∃ r < rows, ∃ c < cols, a = base + r * stride + c}

section Plane
variable {base stride rows cols r r' : ℕ}

theorem row_end (stride : ℕ) (hr : r < r') : r * stride + stride ≤ r' * stride := by
  have hrow : (r + 1) * stride ≤ r' * stride := Nat.mul_le_mul_right stride hr
  rwa [Nat.add_mul, Nat.one_mul] at hrow

theorem plane_below (hcols : cols ≤ stride) (ha : a ∈ plane base stride rows cols) :
    base ≤ a ∧ a < base + rows * stride := by
  obtain ⟨r, hr, c, hc, rfl⟩ := ha
  have hrow := row_end stride hr
  omega

/-- Rows without padding leave no gaps. -/
theorem mem_plane_full (hstride : 0 < stride) {a : ℕ} :
    a ∈ plane base stride rows stride ↔ a ∈ Set.Ico base (base + rows * stride) := by
  constructor
  · exact plane_below le_rfl
  · rintro ⟨hle, hlt⟩
    have hdivision := Nat.div_add_mod' (a - base) stride
    refine ⟨(a - base) / stride, ?_, (a - base) % stride, Nat.mod_lt _ hstride, by omega⟩
    exact (Nat.div_lt_iff_lt_mul hstride).mpr (by omega)

theorem rows_disjoint (hcols : cols ≤ stride) (hne : r ≠ r') :
    ∀ a ∈ Set.Ico (base + r * stride) (base + r * stride + cols),
      a ∉ Set.Ico (base + r' * stride) (base + r' * stride + cols) := by
  rintro a ⟨hle, hlt⟩ ⟨hle', hlt'⟩
  rcases Nat.lt_or_gt_of_ne hne with h | h
  · have hrow := row_end stride h
    omega
  · have hrow := row_end stride h
    omega

/-- A loop over the rows of a plane. -/
theorem covers_plane {f : ℕ → List (Store α)} (hcols : cols ≤ stride)
    (h : ∀ r < rows,
      Covers (f r) (Set.Ico (base + r * stride) (base + r * stride + cols))) :
    Covers ((List.range rows).flatMap f) (plane base stride rows cols) := by
  refine (covers_flatMap List.nodup_range (fun r hr => h r (List.mem_range.mp hr))
    fun r _ r' _ hne => rows_disjoint hcols hne).congr fun a => ?_
  constructor
  · rintro ⟨r, hr, hle, hlt⟩
    exact ⟨r, List.mem_range.mp hr, a - (base + r * stride), by omega, by omega⟩
  · rintro ⟨r, hr, c, hc, rfl⟩
    exact ⟨r, List.mem_range.mpr hr, by omega, by omega⟩

theorem planes_disjoint {base' stride' rows' cols' : ℕ} (hcols : cols ≤ stride)
    (hcols' : cols' ≤ stride') (hbase : base + rows * stride ≤ base') :
    ∀ a ∈ plane base stride rows cols, a ∉ plane base' stride' rows' cols' := by
  intro a ha ha'
  have hbelow := (plane_below hcols ha).2
  have habove := (plane_below hcols' ha').1
  omega

end Plane

end RemoteCam.Lib.Stores
