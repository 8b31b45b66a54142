import RemoteCam.Control.Messages
import RemoteCam.Lib.Ranked

/-! # Doubles and floats

Both are their bits. A double, and a float, has its place among the numbers; `toFloat` rounds. -/

namespace RemoteCam.Control.Numbers

open RemoteCam.Lib.Ranked
open RemoteCam.Control.Messages (isfinite)

abbrev Double := UInt64

abbrev Single := UInt32

/-- The place of a double: its magnitude, with its sign. -/
def rank64 (x : Double) : Option ℤ :=
  let magnitude : ℕ := x.toNat % 2 ^ 63
  if magnitude > 0x7FF0000000000000 then none
  else some (if x.toNat ≥ 2 ^ 63 then -(magnitude : ℤ) else magnitude)

def rank32 (x : Single) : Option ℤ :=
  let magnitude : ℕ := x.toNat % 2 ^ 31
  if magnitude > 0x7F800000 then none
  else some (if x.toNat ≥ 2 ^ 31 then -(magnitude : ℤ) else magnitude)

/-- The nearest multiple of `2 ^ k`, ties to even. -/
def roundEven (n k : ℕ) : ℕ :=
  let q := n / 2 ^ k
  let r := n % 2 ^ k
  if 2 * r > 2 ^ k ∨ 2 * r = 2 ^ k ∧ q % 2 = 1 then q + 1 else q

/-- The magnitude of the nearest float. -/
def magnitude32 (magnitude : ℕ) : ℕ :=
  let exponent := magnitude / 2 ^ 52
  let fraction := magnitude % 2 ^ 52
  min 0x7F800000 <|
    if exponent ≥ 897 then roundEven magnitude 29 - 896 * 2 ^ 23
    else
      roundEven ((if exponent = 0 then 0 else 2 ^ 52) + fraction) (29 + (897 - max exponent 1))

/-- `Float(_:)`. -/
def toFloat (x : Double) : Single :=
  let magnitude := x.toNat % 2 ^ 63
  let sign := if x.toNat ≥ 2 ^ 63 then 2 ^ 31 else 0
  .ofNat (sign + if magnitude > 0x7FF0000000000000 then 0x7FC00000 else magnitude32 magnitude)

example : toFloat 0x3FB999999999999A = 0x3DCCCCCD := by decide
example : toFloat 0xB690000000000000 = 0x80000000 := by decide

/-- The magnitude of the double of a float, which is exact. -/
def magnitude64 (magnitude : ℕ) : ℕ :=
  let fraction := magnitude % 2 ^ 23
  let digits := fraction.log2
  if magnitude / 2 ^ 23 = 255 then 0x7FF0000000000000 + fraction * 2 ^ 29
  else if magnitude / 2 ^ 23 > 0 then magnitude * 2 ^ 29 + 896 * 2 ^ 52
  else if fraction = 0 then 0
  else (digits + 874) * 2 ^ 52 + (fraction - 2 ^ digits) * 2 ^ (52 - digits)

/-- `Double(_:)`. -/
def toDouble (x : Single) : Double :=
  .ofNat ((if x.toNat ≥ 2 ^ 31 then 2 ^ 63 else 0) + magnitude64 (x.toNat % 2 ^ 31))

example : toDouble 0x3DCCCCCD = 0x3FB99999A0000000 := by decide
example : toDouble 0x80000001 = 0xB6A0000000000000 := by decide

def one : Double := 0x3FF0000000000000

def one32 : Single := 0x3F800000

theorem isfinite_iff {x : Double} : isfinite x = true ↔ x.toNat / 2 ^ 52 % 2 ^ 11 ≠ 2047 := by
  have hexponent : (x >>> 52 &&& 0x7FF).toNat = x.toNat / 2 ^ 52 % 2 ^ 11 := by
    rw [UInt64.toNat_and, UInt64.toNat_shiftRight]
    exact (Nat.and_two_pow_sub_one_eq_mod _ 11).trans (by rw [Nat.shiftRight_eq_div_pow]; rfl)
  unfold isfinite
  rw [decide_eq_true_eq, ne_eq, ← UInt64.toNat_inj, hexponent]
  rfl

theorem rank64_of_isfinite {x : Double} (h : isfinite x = true) : (rank64 x).isSome = true := by
  have hne := isfinite_iff.mp h
  unfold rank64
  have hle : ¬ x.toNat % 2 ^ 63 > 0x7FF0000000000000 := by omega
  dsimp only
  rw [if_neg hle]
  rfl

theorem magnitude64_le {m : ℕ} (h : m ≤ 0x7F800000) : magnitude64 m ≤ 0x7FF0000000000000 := by
  unfold magnitude64
  dsimp only
  split_ifs with hinfinite hnormal hzero
  · omega
  · omega
  · exact Nat.zero_le _
  · have hlog : (m % 2 ^ 23).log2 < 23 := (Nat.log2_lt hzero).mpr (Nat.mod_lt _ (by decide))
    have hlt : m % 2 ^ 23 < 2 ^ ((m % 2 ^ 23).log2 + 1) := Nat.lt_log2_self
    generalize (m % 2 ^ 23).log2 = digits at hlog hlt
    have hrest : m % 2 ^ 23 - 2 ^ digits ≤ 2 ^ digits := by
      rw [Nat.pow_succ] at hlt
      omega
    have hscaled : (m % 2 ^ 23 - 2 ^ digits) * 2 ^ (52 - digits) ≤ 2 ^ 52 := by
      refine (Nat.mul_le_mul_right _ hrest).trans_eq ?_
      rw [← Nat.pow_add, Nat.add_sub_cancel' (hlog.le.trans (by decide))]
    omega

/-- A float that is a number is a double that is one. -/
theorem rank64_toDouble {x : Single} (h : (rank32 x).isSome = true) :
    (rank64 (toDouble x)).isSome = true := by
  have hmagnitude : x.toNat % 2 ^ 31 ≤ 0x7F800000 := by
    by_contra hlt
    unfold rank32 at h
    dsimp only at h
    rw [if_pos (not_le.mp hlt)] at h
    cases h
  have hle := magnitude64_le hmagnitude
  have hdouble : (toDouble x).toNat =
      (if x.toNat ≥ 2 ^ 31 then 2 ^ 63 else 0) + magnitude64 (x.toNat % 2 ^ 31) := by
    unfold toDouble
    rw [UInt64.toNat_ofNat_of_lt']
    have hsize : UInt64.size = 2 ^ 64 := rfl
    split_ifs <;> omega
  unfold rank64
  dsimp only
  rw [hdouble, if_neg (by split_ifs <;> omega)]
  rfl

theorem magnitude32_le (m : ℕ) : magnitude32 m ≤ 0x7F800000 := Nat.min_le_left _ _

theorem toNat_toFloat {x : Double} (h : x.toNat % 2 ^ 63 ≤ 0x7FF0000000000000) :
    (toFloat x).toNat =
      (if x.toNat ≥ 2 ^ 63 then 2 ^ 31 else 0) + magnitude32 (x.toNat % 2 ^ 63) := by
  have hle := magnitude32_le (x.toNat % 2 ^ 63)
  unfold toFloat
  dsimp only
  rw [if_neg (Nat.not_lt.mpr h), UInt32.toNat_ofNat_of_lt']
  have hsize : UInt32.size = 2 ^ 32 := rfl
  split_ifs <;> omega

/-- A number is rounded to a number. -/
theorem rank32_toFloat {x : Double} (h : (rank64 x).isSome = true) :
    rank32 (toFloat x) = some (if x.toNat ≥ 2 ^ 63
      then -(magnitude32 (x.toNat % 2 ^ 63) : ℤ) else magnitude32 (x.toNat % 2 ^ 63)) := by
  have hmagnitude : x.toNat % 2 ^ 63 ≤ 0x7FF0000000000000 := by
    by_contra hlt
    unfold rank64 at h
    dsimp only at h
    rw [if_pos (not_le.mp hlt)] at h
    cases h
  have hle := magnitude32_le (x.toNat % 2 ^ 63)
  have hfloat := toNat_toFloat hmagnitude
  unfold rank32
  dsimp only
  rw [hfloat]
  split_ifs with h1 h2 h3 <;> first | omega | skip
  · rw [show (2 ^ 31 + magnitude32 (x.toNat % 2 ^ 63)) % 2 ^ 31 = magnitude32 (x.toNat % 2 ^ 63) by
      omega]
  · rw [show (0 + magnitude32 (x.toNat % 2 ^ 63)) % 2 ^ 31 = magnitude32 (x.toNat % 2 ^ 63) by omega]

theorem roundEven_le {n k c : ℕ} (h : n ≤ c * 2 ^ k) : roundEven n k ≤ c := by
  have hpos : 0 < 2 ^ k := Nat.two_pow_pos k
  have hq : n / 2 ^ k ≤ c := Nat.div_le_of_le_mul (h.trans_eq (Nat.mul_comm _ _))
  have hdiv := Nat.div_add_mod n (2 ^ k)
  unfold roundEven
  dsimp only
  rcases hq.lt_or_eq with hlt | heq
  · split_ifs <;> omega
  · have hr : n % 2 ^ k = 0 := by
      rw [heq, Nat.mul_comm] at hdiv
      omega
    rw [if_neg (by omega)]
    exact hq

/-- A magnitude up to one is rounded to one such. -/
theorem magnitude32_le_one {m : ℕ} (h : m ≤ 0x3FF0000000000000) : magnitude32 m ≤ 0x3F800000 := by
  refine (Nat.min_le_right _ _).trans ?_
  by_cases hnormal : m / 2 ^ 52 ≥ 897
  · have hround : roundEven m 29 ≤ 0x1FF800000 := roundEven_le h
    rw [if_pos hnormal]
    omega
  · have hfraction := Nat.mod_lt m (show 2 ^ 52 > 0 by decide)
    have hsignificand : (if m / 2 ^ 52 = 0 then 0 else 2 ^ 52) + m % 2 ^ 52 ≤ 2 ^ 23 * 2 ^ 30 := by
      split_ifs <;> omega
    have hunit : 2 ^ 30 ≤ 2 ^ (29 + (897 - max (m / 2 ^ 52) 1)) :=
      Nat.pow_le_pow_right (by decide) (by omega)
    rw [if_neg hnormal]
    exact (roundEven_le (hsignificand.trans (Nat.mul_le_mul_left _ hunit))).trans (by decide)

theorem magnitude32_zero : magnitude32 0 = 0 := by
  refine Nat.le_zero.mp ((Nat.min_le_right _ _).trans ?_)
  rw [if_neg (by decide)]
  exact roundEven_le (Nat.zero_le _)

/-- Rounding keeps between zero and one. -/
theorem within_toFloat {x : Double} (h : Within rank64 0 one x) : Within rank32 0 one32 (toFloat x) := by
  have hfloat := rank32_toFloat h.isSome
  obtain ⟨r, hr⟩ := Option.isSome_iff_exists.mp h.isSome
  have hzero : rank64 0 = some 0 := rfl
  have hone : rank64 one = some 0x3FF0000000000000 := rfl
  have hbounds := (within_iff hzero hone hr).mp h
  have hzero32 : rank32 0 = some 0 := rfl
  have hone32 : rank32 one32 = some 0x3F800000 := rfl
  refine (within_iff hzero32 hone32 hfloat).mpr ?_
  unfold rank64 at hr
  dsimp only at hr
  split_ifs at hr with hnan hsign <;> obtain rfl := Option.some.inj hr
  · have hnil : x.toNat % 2 ^ 63 = 0 := by omega
    rw [if_pos hsign, hnil, magnitude32_zero]
    decide
  · have hle := magnitude32_le_one (m := x.toNat % 2 ^ 63) (by omega)
    rw [if_neg hsign]
    omega

end RemoteCam.Control.Numbers
