import Mathlib.Data.Nat.Notation
import Mathlib.Tactic.SplitIfs

/-! # The adaptive bitrate controller

`AbrController::observe` on the integers of the source. "Queue growth or new drops cuts the target
quickly; an empty stable queue recovers": but the tenth sample of an empty queue sets the target to
at most 85 percent of the throughput it reports, which may be below the target.
`target_le_observe_iff` says exactly when a sample without drops and without a queue lowers it. -/

namespace RemoteCam.Media.Bitrate

structure AbrSample where
  queueDepth : UInt32 := 0
  droppedFrames : UInt64 := 0
  throughputBitsPerSec : UInt64 := 0
  deriving DecidableEq, Repr

structure AbrController where
  minimumBitsPerSec : UInt64
  maximumBitsPerSec : UInt64
  targetBitsPerSec : UInt64
  previousDrops : UInt64 := 0
  previousQueueDepth : UInt32 := 0
  growingSamples : UInt32 := 0
  stableSamples : UInt32 := 0
  haveSample : Bool := false
  deriving DecidableEq, Repr

def kGrowthSamplesBeforeBackoff : UInt32 := 2
def kStableSamplesBeforeRecovery : UInt32 := 10

def percent (value numerator denominator : UInt64) : UInt64 := value * numerator / denominator

/-- `std::clamp`. -/
def clamp (v lo hi : UInt64) : UInt64 := if v < lo then lo else if hi < v then hi else v

/-- The constructor. -/
def AbrController.create (initialBitsPerSec minimumBitsPerSec maximumBitsPerSec : UInt64) :
    AbrController :=
  let least := min minimumBitsPerSec maximumBitsPerSec
  let most := max minimumBitsPerSec maximumBitsPerSec
  { minimumBitsPerSec := least
    maximumBitsPerSec := most
    targetBitsPerSec := clamp initialBitsPerSec least most }

/-- The most that the recovery goes up to. -/
def ceiling (c : AbrController) (sample : AbrSample) : UInt64 :=
  if sample.throughputBitsPerSec ≠ 0 then
    max c.minimumBitsPerSec
      (min c.maximumBitsPerSec (percent sample.throughputBitsPerSec 85 100))
  else c.maximumBitsPerSec

def raised (c : AbrController) : UInt64 :=
  max (c.targetBitsPerSec + 1) (percent c.targetBitsPerSec 105 100)

def observe (c : AbrController) (sample : AbrSample) : AbrController :=
  let newDrops := c.haveSample && sample.droppedFrames > c.previousDrops
  let queueGrowing := c.haveSample && sample.queueDepth > c.previousQueueDepth
  let growingSamples := if queueGrowing then c.growingSamples + 1 else 0
  let c :=
    if newDrops || growingSamples ≥ kGrowthSamplesBeforeBackoff then
      { c with
        targetBitsPerSec := max c.minimumBitsPerSec (percent c.targetBitsPerSec 80 100)
        growingSamples := 0
        stableSamples := 0 }
    else if sample.queueDepth = 0 && !newDrops then
      let stableSamples := c.stableSamples + 1
      if stableSamples ≥ kStableSamplesBeforeRecovery then
        { c with
          targetBitsPerSec := clamp (raised c) c.minimumBitsPerSec (ceiling c sample)
          growingSamples
          stableSamples := 0 }
      else { c with growingSamples, stableSamples }
    else { c with growingSamples, stableSamples := 0 }
  { c with
    previousDrops := sample.droppedFrames
    previousQueueDepth := sample.queueDepth
    haveSample := true }

/-- The controller after the samples. -/
def run (c : AbrController) (samples : List AbrSample) : AbrController := samples.foldl observe c

example : (run (.create 4000000 500000 8000000)
    [⟨1, 0, 10000000⟩, ⟨2, 0, 10000000⟩, ⟨3, 0, 10000000⟩]).targetBitsPerSec = 3200000 := by decide

/-! ### Integers of 64 bits -/

theorem le_max_iff {a b c : UInt64} : a ≤ max b c ↔ a ≤ b ∨ a ≤ c := by
  have hmax : max b c = if b ≤ c then c else b := rfl
  rw [hmax]
  split_ifs <;> simp only [UInt64.le_iff_toNat_le] at * <;> omega

theorem max_le_iff {a b c : UInt64} : max b c ≤ a ↔ b ≤ a ∧ c ≤ a := by
  have hmax : max b c = if b ≤ c then c else b := rfl
  rw [hmax]
  split_ifs <;> simp only [UInt64.le_iff_toNat_le] at * <;> omega

theorem le_min_iff {a b c : UInt64} : a ≤ min b c ↔ a ≤ b ∧ a ≤ c := by
  have hmin : min b c = if b ≤ c then b else c := rfl
  rw [hmin]
  split_ifs <;> simp only [UInt64.le_iff_toNat_le] at * <;> omega

theorem min_le_iff {a b c : UInt64} : min b c ≤ a ↔ b ≤ a ∨ c ≤ a := by
  have hmin : min b c = if b ≤ c then b else c := rfl
  rw [hmin]
  split_ifs <;> simp only [UInt64.le_iff_toNat_le] at * <;> omega

/-- Four fifths are no more than the whole, even where the product overflows. -/
theorem percent_80_le (v : UInt64) : percent v 80 100 ≤ v := by
  rw [percent, UInt64.le_iff_toNat_le, UInt64.toNat_div, UInt64.toNat_mul]
  rw [show (80 : UInt64).toNat = 80 from rfl, show (100 : UInt64).toNat = 100 from rfl]
  rcases Nat.lt_or_ge (v.toNat * 80) (2 ^ 64) with hlt | hge
  · rw [Nat.mod_eq_of_lt hlt]
    omega
  · have hmod : v.toNat * 80 % 2 ^ 64 < 2 ^ 64 := Nat.mod_lt _ (by decide)
    omega

/-! ### Reachable controllers -/

structure Inv (c : AbrController) : Prop where
  least : c.minimumBitsPerSec ≤ c.targetBitsPerSec
  most : c.targetBitsPerSec ≤ c.maximumBitsPerSec
  stable : c.stableSamples < kStableSamplesBeforeRecovery

theorem clamp_mem {v lo hi : UInt64} (h : lo ≤ hi) : lo ≤ clamp v lo hi ∧ clamp v lo hi ≤ hi := by
  unfold clamp
  split_ifs <;> simp only [UInt64.le_iff_toNat_le, UInt64.lt_iff_toNat_lt] at * <;> omega

theorem stable_zero : (0 : UInt32) < kStableSamplesBeforeRecovery := by decide

theorem inv_create (initialBitsPerSec minimumBitsPerSec maximumBitsPerSec : UInt64) :
    Inv (.create initialBitsPerSec minimumBitsPerSec maximumBitsPerSec) := by
  have hle : min minimumBitsPerSec maximumBitsPerSec ≤ max minimumBitsPerSec maximumBitsPerSec :=
    le_max_iff.mpr (.inl (min_le_iff.mpr (.inl (UInt64.le_refl _))))
  obtain ⟨hleast, hmost⟩ := @clamp_mem initialBitsPerSec _ _ hle
  exact ⟨hleast, hmost, stable_zero⟩

theorem ceiling_mem {c : AbrController} (h : c.minimumBitsPerSec ≤ c.maximumBitsPerSec)
    (sample : AbrSample) :
    c.minimumBitsPerSec ≤ ceiling c sample ∧ ceiling c sample ≤ c.maximumBitsPerSec := by
  unfold ceiling
  split_ifs
  · exact ⟨le_max_iff.mpr (.inl (UInt64.le_refl _)),
      max_le_iff.mpr ⟨h, min_le_iff.mpr (.inl (UInt64.le_refl _))⟩⟩
  · exact ⟨h, UInt64.le_refl _⟩

theorem Inv.observe {c : AbrController} (h : Inv c) (sample : AbrSample) :
    Inv (observe c sample) := by
  have hle := UInt64.le_trans h.least h.most
  unfold Bitrate.observe
  dsimp only
  generalize (c.haveSample && decide (sample.droppedFrames > c.previousDrops)) = newDrops
  generalize (c.haveSample && decide (sample.queueDepth > c.previousQueueDepth)) = queueGrowing
  generalize (if queueGrowing = true then c.growingSamples + 1 else 0) = growingSamples
  split_ifs with hback hempty hstable
  · exact ⟨le_max_iff.mpr (.inl (UInt64.le_refl _)),
      max_le_iff.mpr ⟨hle, UInt64.le_trans (percent_80_le _) h.most⟩, stable_zero⟩
  · obtain ⟨hleast, hmost⟩ := ceiling_mem hle sample
    obtain ⟨hlo, hhi⟩ := @clamp_mem (raised c) _ _ hleast
    exact ⟨hlo, UInt64.le_trans hhi hmost, stable_zero⟩
  · exact ⟨h.least, h.most, UInt32.not_le.mp hstable⟩
  · exact ⟨h.least, h.most, stable_zero⟩

theorem inv_run {c : AbrController} (samples : List AbrSample) (h : Inv c) :
    Inv (run c samples) := by
  induction samples generalizing c with
  | nil => exact h
  | cons sample samples ih => exact ih (h.observe sample)

/-! ### Samples of a healthy link -/

/-- No new drops, and nothing in the queue. -/
structure Healthy (c : AbrController) (sample : AbrSample) : Prop where
  drops : c.haveSample = true → sample.droppedFrames ≤ c.previousDrops
  empty : sample.queueDepth = 0

/-- **The effect of a healthy sample on the target.** -/
theorem target_observe {c : AbrController} {sample : AbrSample} (h : Healthy c sample) :
    (observe c sample).targetBitsPerSec =
      if c.stableSamples + 1 ≥ kStableSamplesBeforeRecovery then
        clamp (raised c) c.minimumBitsPerSec (ceiling c sample)
      else c.targetBitsPerSec := by
  have hdrops : (c.haveSample && decide (sample.droppedFrames > c.previousDrops)) = false := by
    cases hhave : c.haveSample with
    | false => rfl
    | true => simpa using h.drops hhave
  have hgrowing : (c.haveSample && decide (sample.queueDepth > c.previousQueueDepth)) = false := by
    rw [h.empty]
    simp
  unfold observe
  have hback : (false || decide ((0 : UInt32) ≥ kGrowthSamplesBeforeBackoff)) = false := by decide
  rw [hdrops, hgrowing, h.empty]
  dsimp only
  simp only [Bool.false_eq_true, if_false, hback]
  split_ifs <;> simp_all

/-- The recovery does not go below the target: it is not due, or the target is at the minimum, or
there is room above the target and the throughput, if the sample has one, leaves it. -/
def Recovers (c : AbrController) (sample : AbrSample) : Prop :=
  c.stableSamples < 9 ∨ c.targetBitsPerSec = c.minimumBitsPerSec ∨
  c.targetBitsPerSec < 0xFFFFFFFFFFFFFFFF ∧
    (sample.throughputBitsPerSec = 0 ∨
      c.targetBitsPerSec ≤ percent sample.throughputBitsPerSec 85 100)

/-- What is raised is at least the target, unless that is the largest integer. -/
theorem le_raised_iff (c : AbrController) :
    c.targetBitsPerSec ≤ raised c ↔ c.targetBitsPerSec < 0xFFFFFFFFFFFFFFFF := by
  have hlt := c.targetBitsPerSec.toNat_lt
  rw [raised, le_max_iff, percent]
  simp only [UInt64.le_iff_toNat_le, UInt64.lt_iff_toNat_lt, UInt64.toNat_div, UInt64.toNat_mul,
    UInt64.toNat_add]
  rw [show (105 : UInt64).toNat = 105 from rfl, show (100 : UInt64).toNat = 100 from rfl,
    show (1 : UInt64).toNat = 1 from rfl,
    show (0xFFFFFFFFFFFFFFFF : UInt64).toNat = 0xFFFFFFFFFFFFFFFF from rfl]
  omega

theorem le_clamp_iff {t v lo hi : UInt64} (hlo : lo < t) :
    t ≤ clamp v lo hi ↔ t ≤ v ∧ t ≤ hi := by
  unfold clamp
  split_ifs <;> simp only [UInt64.le_iff_toNat_le, UInt64.lt_iff_toNat_lt] at * <;> omega

theorem le_ceiling_iff {c : AbrController} (h : Inv c)
    (hmin : c.minimumBitsPerSec < c.targetBitsPerSec) (sample : AbrSample) :
    c.targetBitsPerSec ≤ ceiling c sample ↔ sample.throughputBitsPerSec = 0 ∨
      c.targetBitsPerSec ≤ percent sample.throughputBitsPerSec 85 100 := by
  unfold ceiling
  split_ifs with hthroughput
  · rw [le_max_iff, le_min_iff]
    simp [h.most, hthroughput, UInt64.not_le.mpr hmin]
  · simp [h.most, Decidable.not_not.mp hthroughput]


/-- The recovery is due after nine samples. -/
theorem due_iff {c : AbrController} (h : Inv c) :
    c.stableSamples + 1 ≥ kStableSamplesBeforeRecovery ↔ ¬ c.stableSamples < 9 := by
  have hstable := h.stable
  unfold kStableSamplesBeforeRecovery at hstable ⊢
  rw [UInt32.lt_iff_toNat_lt, show (10 : UInt32).toNat = 10 from rfl] at hstable
  rw [ge_iff_le, UInt32.le_iff_toNat_le, UInt32.lt_iff_toNat_lt, UInt32.toNat_add,
    show (10 : UInt32).toNat = 10 from rfl, show (9 : UInt32).toNat = 9 from rfl,
    show (1 : UInt32).toNat = 1 from rfl]
  omega

/-- **When a healthy sample keeps the target**, in every state a controller can come to. -/
theorem target_le_observe_iff (initialBitsPerSec minimumBitsPerSec maximumBitsPerSec : UInt64)
    (samples : List AbrSample) (sample : AbrSample)
    (h : Healthy (run (.create initialBitsPerSec minimumBitsPerSec maximumBitsPerSec) samples)
      sample) :
    let c := run (.create initialBitsPerSec minimumBitsPerSec maximumBitsPerSec) samples
    c.targetBitsPerSec ≤ (observe c sample).targetBitsPerSec ↔ Recovers c sample := by
  intro c
  have hinv : Inv c := inv_run samples (inv_create _ _ _)
  have hstable := hinv.stable
  rw [target_observe h, Recovers]
  by_cases hdue : c.stableSamples < 9
  · rw [if_neg (mt (due_iff hinv).mp (not_not_intro hdue))]
    exact ⟨fun _ => .inl hdue, fun _ => UInt64.le_refl _⟩
  · rw [if_pos ((due_iff hinv).mpr hdue)]
    obtain ⟨hleast, -⟩ := ceiling_mem (UInt64.le_trans hinv.least hinv.most) sample
    by_cases hmin : c.targetBitsPerSec = c.minimumBitsPerSec
    · exact ⟨fun _ => .inr (.inl hmin), fun _ => hmin ▸ (clamp_mem hleast).1⟩
    · have hlt : c.minimumBitsPerSec < c.targetBitsPerSec :=
        UInt64.lt_of_le_of_ne hinv.least (Ne.symm hmin)
      rw [le_clamp_iff hlt, le_raised_iff, le_ceiling_iff hinv hlt]
      simp [hdue, hmin]

/-- At 4 Mbit/s, after nine samples of a link that carries as much. -/
def steady : AbrController :=
  run (.create 4000000 500000 8000000) (List.replicate 9 ⟨0, 0, 4000000⟩)

/-- The tenth such sample lowers the target to 3.4 Mbit/s. -/
theorem not_target_le_observe_steady :
    Healthy steady ⟨0, 0, 4000000⟩ ∧
    ¬ steady.targetBitsPerSec ≤ (observe steady ⟨0, 0, 4000000⟩).targetBitsPerSec :=
  ⟨⟨by decide, by decide⟩, by decide⟩

/-- One that reports 10 Mbit/s raises it. -/
theorem target_le_observe_steady :
    steady.targetBitsPerSec ≤ (observe steady ⟨0, 0, 10000000⟩).targetBitsPerSec :=
  (target_le_observe_iff 4000000 500000 8000000 (List.replicate 9 ⟨0, 0, 4000000⟩)
    ⟨0, 0, 10000000⟩ ⟨by decide, by decide⟩).mpr
      (.inr (.inr ⟨by decide, .inr (by decide)⟩))

end RemoteCam.Media.Bitrate
