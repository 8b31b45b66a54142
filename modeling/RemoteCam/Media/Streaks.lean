import RemoteCam.Media.Bitrate

/-! # What the bitrate controller reacts to

The counters of `AbrController` read off the samples themselves: `cut` says which sample cuts the
target and `stableRun` how long the link has been stable, both from the list of samples alone, the
newest first. `Follows` relates a controller to its samples, `Follows.observe` keeps it for one
sample more, and `steers` says what that sample does to the target. -/

namespace RemoteCam.Media.Streaks

open RemoteCam.Media.Bitrate

/-! ### Samples, the newest first -/

/-- The newest sample has drops that the one before it had not. -/
def newDrops : List AbrSample → Bool
  | sample :: previous :: _ => sample.droppedFrames > previous.droppedFrames
  | _ => false

/-- The queue of the newest sample is longer than that of the one before it. -/
def queueGrowing : List AbrSample → Bool
  | sample :: previous :: _ => sample.queueDepth > previous.queueDepth
  | _ => false

/-- The newest sample cuts the target: it has new drops, or it is the second in succession with a
growing queue and the first of the two did not cut. -/
def cut : List AbrSample → Bool
  | [] => false
  | sample :: past =>
    newDrops (sample :: past) || queueGrowing (sample :: past) && queueGrowing past && !cut past

/-- How many samples in succession, up to the newest, have a growing queue. -/
def growingRun : List AbrSample → ℕ
  | [] => 0
  | sample :: past => if queueGrowing (sample :: past) then growingRun past + 1 else 0

def stable : List AbrSample → Bool
  | [] => false
  | sample :: past => sample.queueDepth = 0 && !newDrops (sample :: past)

/-- How many samples in succession, up to the newest, are stable. -/
def stableRun : List AbrSample → ℕ
  | [] => 0
  | sample :: past => if stable (sample :: past) then stableRun past + 1 else 0

/-- The target after the samples. -/
def target (initial minimum maximum : UInt64) (samples : List AbrSample) : ℕ :=
  (run (.create initial minimum maximum) samples.reverse).targetBitsPerSec.toNat

/-! ### The controller and its samples -/

/-- The controller's counters say of the samples what they are meant to. -/
structure Follows (c : AbrController) (samples : List AbrSample) : Prop where
  drops : c.haveSample = true → ∀ sample past, samples = sample :: past →
    sample.droppedFrames = c.previousDrops ∧ sample.queueDepth = c.previousQueueDepth
  have_iff : c.haveSample = true ↔ samples ≠ []
  growing_eq : c.growingSamples = if queueGrowing samples && !cut samples then 1 else 0
  stable_eq : c.stableSamples.toNat = stableRun samples % 10

section
variable {c : AbrController} {samples : List AbrSample}

theorem Follows.newDrops_eq (h : Follows c samples) (sample : AbrSample) :
    (c.haveSample && decide (sample.droppedFrames > c.previousDrops)) =
      newDrops (sample :: samples) := by
  cases samples with
  | nil =>
    have hnone : c.haveSample = false := by simpa using h.have_iff
    rw [hnone]
    rfl
  | cons previous past =>
    have hsome : c.haveSample = true := h.have_iff.mpr (List.cons_ne_nil _ _)
    rw [hsome, ← (h.drops hsome previous past rfl).1]
    rfl

theorem Follows.queueGrowing_eq (h : Follows c samples) (sample : AbrSample) :
    (c.haveSample && decide (sample.queueDepth > c.previousQueueDepth)) =
      queueGrowing (sample :: samples) := by
  cases samples with
  | nil =>
    have hnone : c.haveSample = false := by simpa using h.have_iff
    rw [hnone]
    rfl
  | cons previous past =>
    have hsome : c.haveSample = true := h.have_iff.mpr (List.cons_ne_nil _ _)
    rw [hsome, ← (h.drops hsome previous past rfl).2]
    rfl

/-- The count of growing samples reaches two exactly at the samples that cut without drops. -/
theorem Follows.backoff (h : Follows c samples) (sample : AbrSample) :
    (newDrops (sample :: samples) ||
      decide ((if queueGrowing (sample :: samples) = true then c.growingSamples + 1 else 0)
        ≥ kGrowthSamplesBeforeBackoff)) = cut (sample :: samples) := by
  rw [h.growing_eq, cut]
  cases newDrops (sample :: samples) <;>
    cases queueGrowing (sample :: samples) <;>
    cases queueGrowing samples <;> cases cut samples <;> decide

/-- An empty queue does not grow. -/
theorem cut_of_stable {sample : AbrSample} (h : stable (sample :: samples) = true) :
    cut (sample :: samples) = false := by
  simp only [stable, Bool.and_eq_true, decide_eq_true_eq, Bool.not_eq_true'] at h
  obtain ⟨hempty, hdrops⟩ := h
  have hgrowing : queueGrowing (sample :: samples) = false := by
    cases samples with
    | nil => rfl
    | cons previous past => simp [queueGrowing, hempty]
  rw [cut, hdrops, hgrowing]
  rfl

/-! ### One sample more -/

/-- **One sample more**, by whether it cuts, is stable and ends a streak of ten. -/
theorem Follows.observe_eq (h : Follows c samples) (sample : AbrSample) :
    observe c sample =
      { c with
        targetBitsPerSec :=
          if cut (sample :: samples) then
            max c.minimumBitsPerSec (percent c.targetBitsPerSec 80 100)
          else if stable (sample :: samples) && decide (c.stableSamples + 1 ≥ 10) then
            clamp (raised c) c.minimumBitsPerSec (ceiling c sample)
          else c.targetBitsPerSec
        growingSamples :=
          if cut (sample :: samples) then 0
          else if queueGrowing (sample :: samples) then c.growingSamples + 1 else 0
        stableSamples :=
          if stable (sample :: samples) && decide (c.stableSamples + 1 < 10) then
            c.stableSamples + 1
          else 0
        previousDrops := sample.droppedFrames
        previousQueueDepth := sample.queueDepth
        haveSample := true } := by
  have hstable := @cut_of_stable samples sample
  unfold Bitrate.observe
  dsimp only
  rw [h.newDrops_eq, h.queueGrowing_eq, h.backoff]
  rw [show (decide (sample.queueDepth = 0) && !newDrops (sample :: samples)) =
    stable (sample :: samples) from rfl]
  cases hcut : cut (sample :: samples) with
  | true =>
    have hnot : stable (sample :: samples) = false := by
      cases hs : stable (sample :: samples) with
      | true => simp [hcut] at hstable; simp [hs] at hstable
      | false => rfl
    simp [hnot]
  | false =>
    cases hs : stable (sample :: samples) with
    | false => simp
    | true =>
      by_cases hdue : c.stableSamples + 1 ≥ 10
      · have hlt : ¬ c.stableSamples + 1 < 10 := UInt32.not_lt.mpr hdue
        simp [hdue, hlt, kStableSamplesBeforeRecovery]
      · have hlt : c.stableSamples + 1 < 10 := UInt32.not_le.mp hdue
        have hnot : ¬ 10 ≤ c.stableSamples + 1 := hdue
        simp [hlt, hnot, kStableSamplesBeforeRecovery]

/-- The counter of stable samples, which starts anew after ten. -/
theorem Follows.due_iff (h : Follows c samples) :
    c.stableSamples + 1 ≥ 10 ↔ (stableRun samples + 1) % 10 = 0 := by
  have hstable := h.stable_eq
  rw [ge_iff_le, UInt32.le_iff_toNat_le, UInt32.toNat_add, show (10 : UInt32).toNat = 10 from rfl,
    show (1 : UInt32).toNat = 1 from rfl]
  omega

theorem Follows.observe (h : Follows c samples) (sample : AbrSample) :
    Follows (observe c sample) (sample :: samples) := by
  rw [h.observe_eq]
  refine ⟨fun _ s past heq => ?_, by simp, ?_, ?_⟩
  · obtain ⟨rfl, rfl⟩ := List.cons_eq_cons.mp heq
    exact ⟨rfl, rfl⟩
  · have hcut : cut (sample :: samples) = (newDrops (sample :: samples) ||
      queueGrowing (sample :: samples) && queueGrowing samples && !cut samples) :=
        rfl
    dsimp only
    rw [h.growing_eq, hcut]
    cases newDrops (sample :: samples) <;>
      cases queueGrowing (sample :: samples) <;>
      cases queueGrowing samples <;> cases cut samples <;> decide
  · have hstable := h.stable_eq
    have hdue := h.due_iff
    rw [stableRun]
    dsimp only
    cases stable (sample :: samples) with
    | false => simp
    | true =>
      by_cases hlt : c.stableSamples + 1 ≥ 10
      · have hmod := hdue.mp hlt
        have hnot : ¬ c.stableSamples + 1 < 10 := UInt32.not_lt.mpr hlt
        simp [hnot, hmod]
      · have hmod := mt hdue.mpr hlt
        have hlt : c.stableSamples + 1 < 10 := UInt32.not_le.mp hlt
        simp only [hlt, decide_true, Bool.and_self, if_true]
        rw [UInt32.toNat_add, show (1 : UInt32).toNat = 1 from rfl]
        omega

end

theorem run_reverse_cons (c : AbrController) (sample : AbrSample) (past : List AbrSample) :
    run c (sample :: past).reverse = observe (run c past.reverse) sample := by
  rw [List.reverse_cons, run, List.foldl_append]
  rfl

theorem follows_run (initial minimum maximum : UInt64) (samples : List AbrSample) :
    Follows (run (.create initial minimum maximum) samples.reverse) samples := by
  induction samples with
  | nil => exact ⟨by simp [run, AbrController.create], by simp [run, AbrController.create], rfl, rfl⟩
  | cons sample past ih =>
    rw [run_reverse_cons]
    exact ih.observe sample

/-! ### The target -/

/-- What one sample more does to the target: it stays between the bounds, falls to four fifths
where the sample is to cut, and rises by a twentieth at the most, at every tenth sample of a stable
run. -/
structure Steers (cuts : List AbrSample → Bool) (initial minimum maximum : UInt64)
    (past : List AbrSample) (sample : AbrSample) : Prop where
  least : min minimum.toNat maximum.toNat ≤ target initial minimum maximum (sample :: past)
  most : target initial minimum maximum (sample :: past) ≤ max minimum.toNat maximum.toNat
  cut : cuts (sample :: past) = true →
    target initial minimum maximum (sample :: past) =
      max (min minimum.toNat maximum.toNat) (target initial minimum maximum past * 80 / 100)
  rise : target initial minimum maximum past < target initial minimum maximum (sample :: past) →
    stableRun (sample :: past) % 10 = 0 ∧ 0 < stableRun (sample :: past) ∧
    target initial minimum maximum (sample :: past) ≤
      target initial minimum maximum past + max 1 (target initial minimum maximum past * 5 / 100)

theorem toNat_min (a b : UInt64) : (min a b).toNat = min a.toNat b.toNat := by
  have hmin : min a b = if a ≤ b then a else b := rfl
  rw [hmin]
  split_ifs with hle <;> rw [UInt64.le_iff_toNat_le] at hle <;> omega

theorem toNat_max (a b : UInt64) : (max a b).toNat = max a.toNat b.toNat := by
  have hmax : max a b = if a ≤ b then b else a := rfl
  rw [hmax]
  split_ifs with hle <;> rw [UInt64.le_iff_toNat_le] at hle <;> omega

/-- No wrap up to 100 Mbit/s. -/
theorem toNat_percent {value numerator denominator : UInt64} (hvalue : value.toNat ≤ 100000000)
    (hnumerator : numerator.toNat ≤ 1000) :
    (percent value numerator denominator).toNat =
      value.toNat * numerator.toNat / denominator.toNat := by
  have hmul : value.toNat * numerator.toNat ≤ 100000000 * 1000 := Nat.mul_le_mul hvalue hnumerator
  rw [percent, UInt64.toNat_div, UInt64.toNat_mul, Nat.mod_eq_of_lt (by omega)]

/-- The bounds never change. -/
theorem bounds_run (initial minimum maximum : UInt64) (samples : List AbrSample) :
    (run (.create initial minimum maximum) samples.reverse).minimumBitsPerSec =
      min minimum maximum ∧
    (run (.create initial minimum maximum) samples.reverse).maximumBitsPerSec =
      max minimum maximum := by
  induction samples with
  | nil => exact ⟨rfl, rfl⟩
  | cons sample past ih =>
    rw [run_reverse_cons, (follows_run initial minimum maximum past).observe_eq]
    exact ih

/-- The target of the controller, which starts between its bounds. -/
theorem target_mem (initial minimum maximum : UInt64) (samples : List AbrSample) :
    min minimum.toNat maximum.toNat ≤ target initial minimum maximum samples ∧
    target initial minimum maximum samples ≤ max minimum.toNat maximum.toNat := by
  have hinv : Inv (run (.create initial minimum maximum) samples.reverse) :=
    inv_run _ (inv_create _ _ _)
  obtain ⟨hleast, hmost⟩ := bounds_run initial minimum maximum samples
  rw [← toNat_min, ← toNat_max, ← hleast, ← hmost]
  exact ⟨UInt64.le_iff_toNat_le.mp hinv.least, UInt64.le_iff_toNat_le.mp hinv.most⟩

/-- What is raised is clamped from above only. -/
theorem clamp_le {v lo hi : UInt64} (h : lo ≤ v) : (clamp v lo hi).toNat ≤ v.toNat := by
  unfold clamp
  split_ifs <;> simp only [UInt64.le_iff_toNat_le, UInt64.lt_iff_toNat_lt] at * <;> omega

theorem toNat_raised {c : AbrController} (h : c.targetBitsPerSec.toNat ≤ 100000000) :
    (raised c).toNat =
      c.targetBitsPerSec.toNat + max 1 (c.targetBitsPerSec.toNat * 5 / 100) := by
  rw [raised, toNat_max, toNat_percent h (by decide), UInt64.toNat_add, Nat.mod_eq_of_lt,
    show (105 : UInt64).toNat = 105 from rfl, show (100 : UInt64).toNat = 100 from rfl,
    show (1 : UInt64).toNat = 1 from rfl]
  · omega
  · rw [show (1 : UInt64).toNat = 1 from rfl]
    omega

/-- **What a sample does to the target** of a controller whose bounds are at most 100 Mbit/s, after
any samples. -/
theorem steers (initial minimum maximum : UInt64)
    (hminimum : minimum.toNat ≤ 100000000) (hmaximum : maximum.toNat ≤ 100000000)
    (past : List AbrSample) (sample : AbrSample) :
    Steers cut initial minimum maximum past sample := by
  obtain ⟨hleast, hmost⟩ := bounds_run initial minimum maximum past
  have hfollows := follows_run initial minimum maximum past
  have hinv : Inv (run (.create initial minimum maximum) past.reverse) :=
    inv_run _ (inv_create _ _ _)
  have hbound : target initial minimum maximum past ≤ 100000000 :=
    Nat.le_trans (target_mem initial minimum maximum past).2 (by omega)
  obtain ⟨hlo, hhi⟩ := target_mem initial minimum maximum (sample :: past)
  have hdue := hfollows.due_iff
  refine ⟨hlo, hhi, fun hcut => ?_, fun hrise => ?_⟩
  · rw [target, run_reverse_cons, hfollows.observe_eq, hcut, if_pos rfl, toNat_max, hleast,
      toNat_min, toNat_percent hbound (by decide)]
    rfl
  · rw [target, target, run_reverse_cons, hfollows.observe_eq] at hrise
    rw [target, target, run_reverse_cons, hfollows.observe_eq]
    dsimp only at hrise ⊢
    split_ifs at hrise with hcut hstable
    · have hpercent := percent_80_le
        (run (.create initial minimum maximum) past.reverse).targetBitsPerSec
      have hmin := hinv.least
      rw [toNat_max] at hrise
      rw [UInt64.le_iff_toNat_le] at hpercent hmin
      omega
    · rw [Bool.and_eq_true, decide_eq_true_eq] at hstable
      obtain ⟨hstable, hten⟩ := hstable
      rw [if_neg hcut, if_pos (by simp [hstable, hten]), stableRun, if_pos hstable]
      refine ⟨hdue.mp hten, Nat.succ_pos _, ?_⟩
      have hraised := toNat_raised hbound
      have hle : (run (.create initial minimum maximum) past.reverse).minimumBitsPerSec ≤
          raised (run (.create initial minimum maximum) past.reverse) := by
        have hmin := hinv.least
        rw [UInt64.le_iff_toNat_le] at hmin ⊢
        omega
      exact Nat.le_trans (clamp_le hle) (Nat.le_of_eq hraised)
    · exact absurd hrise (Nat.lt_irrefl _)

/-- At 10 Mbit/s the target of 4 Mbit/s rises to 4.2 Mbit/s with the tenth empty sample. -/
theorem steers_recovering :
    Steers cut 4000000 500000 8000000 (List.replicate 9 ⟨0, 0, 10000000⟩) ⟨0, 0, 10000000⟩ ∧
    target 4000000 500000 8000000 (List.replicate 10 ⟨0, 0, 10000000⟩) = 4200000 :=
  ⟨steers 4000000 500000 8000000 (by decide) (by decide) _ _, by decide⟩

/-- A drop cuts the first of two samples with a growing queue, so that the second does not. -/
theorem not_steers_secondGrowing :
    ¬ Steers (fun samples => newDrops samples || growingRun samples == 2) 4000000 500000 8000000
      [⟨1, 1, 10000000⟩, ⟨0, 0, 10000000⟩] ⟨2, 1, 10000000⟩ := by
  intro h
  have hcut := h.cut (by decide)
  revert hcut
  decide

end RemoteCam.Media.Streaks
