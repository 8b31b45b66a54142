import Mathlib.Data.Nat.Basic
import Mathlib.Tactic.Ring
import Mathlib.Tactic.NormNum

/-! # Big-endian numbers

`write n v` is the list of the `n` low bytes of `v`, the most significant first, produced by the
shifts `8 (n - 1), …, 8, 0`; `read` folds a list of bytes back by shifting eight bits at a time.
`read_write`: a number below `256 ^ n` survives the round trip; `write_read`: so does a list of
`n` bytes. -/

namespace RemoteCam.Lib.BigEndian

/-- The `n` low bytes of `v`, the most significant first. -/
def write : ℕ → ℕ → List UInt8
  | 0, _ => []
  | n + 1, v => UInt8.ofNat (v >>> (8 * n)) :: write n v

/-- One byte is shifted in. -/
def shiftIn (acc : ℕ) (b : UInt8) : ℕ := (acc <<< 8) ||| b.toNat

/-- The number a list of bytes stands for. -/
def read (bs : List UInt8) : ℕ := bs.foldl shiftIn 0

@[simp] theorem length_write (n v : ℕ) : (write n v).length = n := by
  induction n with
  | zero => rfl
  | succ n ih => simp [write, ih]

theorem shiftIn_eq (acc : ℕ) (b : UInt8) : shiftIn acc b = acc * 256 + b.toNat := by
  unfold shiftIn
  rw [← Nat.shiftLeft_add_eq_or_of_lt (by simpa using b.toNat_lt), Nat.shiftLeft_eq]

/-- The fold from `acc` has `acc` above the number of the bytes. -/
theorem foldl_shiftIn (bs : List UInt8) :
    ∀ acc, bs.foldl shiftIn acc = acc * 256 ^ bs.length + read bs := by
  unfold read
  induction bs with
  | nil => simp
  | cons b bs ih =>
    intro acc
    rw [List.foldl_cons, List.foldl_cons, ih, ih (shiftIn 0 b), shiftIn_eq, shiftIn_eq,
      List.length_cons]
    ring

theorem read_cons (b : UInt8) (bs : List UInt8) :
    read (b :: bs) = b.toNat * 256 ^ bs.length + read bs := by
  rw [read, List.foldl_cons, foldl_shiftIn, shiftIn_eq]
  ring

theorem read_lt (bs : List UInt8) : read bs < 256 ^ bs.length := by
  induction bs with
  | nil => simp [read]
  | cons b bs ih =>
    have hb : b.toNat ≤ 255 := by have := b.toNat_lt; omega
    rw [read_cons, List.length_cons, pow_succ]
    calc b.toNat * 256 ^ bs.length + read bs
        < b.toNat * 256 ^ bs.length + 256 ^ bs.length := by omega
      _ ≤ 255 * 256 ^ bs.length + 256 ^ bs.length := by gcongr
      _ = 256 ^ bs.length * 256 := by ring

/-- **The round trip of a number.** -/
theorem read_write {n v : ℕ} (hv : v < 256 ^ n) : read (write n v) = v := by
  suffices h : ∀ n v, read (write n v) = v % 256 ^ n by rw [h, Nat.mod_eq_of_lt hv]
  intro n
  induction n with
  | zero => intro v; simp [write, read, Nat.mod_one]
  | succ n ih =>
    intro v
    have hpow : (2 : ℕ) ^ (8 * n) = 256 ^ n := by rw [pow_mul]; norm_num
    have hmod : v % 256 ^ (n + 1) = v % 256 ^ n + 256 ^ n * (v / 256 ^ n % 256) := by
      rw [pow_succ, Nat.mod_mul]
    rw [write, read_cons, length_write, ih, UInt8.toNat_ofNat', Nat.shiftRight_eq_div_pow, hpow, hmod]
    ring

/-- **The round trip of a list of bytes.** -/
theorem write_read (bs : List UInt8) : write bs.length (read bs) = bs := by
  suffices h : ∀ (bs : List UInt8) (k : ℕ),
      write bs.length (k * 256 ^ bs.length + read bs) = bs by
    simpa using h bs 0
  intro bs
  induction bs with
  | nil => intro k; rfl
  | cons b bs ih =>
    intro k
    have hpow : (2 : ℕ) ^ (8 * bs.length) = 256 ^ bs.length := by rw [pow_mul]; norm_num
    have hlt := read_lt bs
    have hsplit : k * 256 ^ (bs.length + 1) + read (b :: bs) =
        (k * 256 + b.toNat) * 256 ^ bs.length + read bs := by
      rw [read_cons]; ring
    rw [List.length_cons, write, hsplit, ih]
    congr 1
    rw [Nat.shiftRight_eq_div_pow, hpow, Nat.add_comm, Nat.add_mul_div_right _ _ (by positivity),
      Nat.div_eq_of_lt hlt]
    apply UInt8.toNat_inj.mp
    rw [UInt8.toNat_ofNat']
    have := b.toNat_lt
    omega

end RemoteCam.Lib.BigEndian
