import RemoteCam.Media.Mp4Recorder

/-! # The timestamps of a recording

`MonotonicTimeline` once more, with each result in the type it has in the source: a `LONGLONG` that
overflows is `none` (`longLong`), an unsigned one wraps (`u64`). From an accepted configuration no
operation does either, so this is the timeline of `Media.Mp4Recorder` (`next_eq`), and what is said
of the timestamps holds for every sequence of presentation times (`stamped_of_config`). -/

namespace RemoteCam.Media.Timeline

open RemoteCam.Media.Mp4Recorder

/-! ### Machine integers -/

/-- A result of type `LONGLONG`, unless it overflows. -/
def longLong (v : ℤ) : Option ℤ :=
  if -2 ^ 63 ≤ v ∧ v ≤ kLongLongMaximum then some v else none

/-- A result of type `uint64_t`. -/
def u64 (v : ℕ) : ℕ := v % 2 ^ 64

theorem longLong_eq {v : ℤ} (h0 : 0 ≤ v) (h : v ≤ kLongLongMaximum) : longLong v = some v :=
  if_pos ⟨by omega, h⟩

theorem u64_eq {v : ℕ} (h : v < 2 ^ 64) : u64 v = v := Nat.mod_eq_of_lt h

/-! ### The timeline -/

/-- `10000000ull * fpsDenominator / fpsNumerator`. -/
def frameDuration64 (config : Mp4RecorderConfig) : ℕ :=
  u64 (10000000 * config.fpsDenominator) / config.fpsNumerator

/-- The constructor. -/
def ofConfig (config : Mp4RecorderConfig) : Option MonotonicTimeline := do
  let duration ← longLong (frameDuration64 config)
  some { duration }

def next (t : MonotonicTimeline) (ptsMicros : UInt64) : Option (ℤ × MonotonicTimeline) :=
  match t.origin with
  | none => some (0, { t with origin := some ptsMicros.toNat, last := 0 })
  | some origin => do
    let candidate ←
      if ptsMicros.toNat ≥ origin then
        let delta := u64 (ptsMicros.toNat - origin)
        if delta > kLongLongMaximum / 10 then some kLongLongMaximum else longLong (u64 (delta * 10))
      else some 0
    let latest ← longLong (kLongLongMaximum - t.duration)
    let minimumNext ←
      if t.last > latest then some kLongLongMaximum else longLong (t.last + t.duration)
    let candidate := if candidate < minimumNext then minimumNext else candidate
    some (candidate, { t with last := candidate })

/-- The timestamps of the frames of a recording. -/
def timestamps (t : MonotonicTimeline) : List UInt64 → Option (List ℤ)
  | [] => some []
  | ptsMicros :: pts => do
    let (timestamp, t) ← next t ptsMicros
    let rest ← timestamps t pts
    some (timestamp :: rest)

/-- What `run` adds up for `duration100ns`. -/
def sampleEnd (timestamp duration : ℤ) : ℕ := u64 (u64 timestamp.toNat + u64 duration.toNat)

theorem kLongLongMaximum_nonneg : 0 ≤ kLongLongMaximum := by decide

/-! ### One frame -/

/-- The longest duration of a frame that 32-bit rates give. -/
def kMaxDuration : ℤ := 10000000 * 2 ^ 32

/-- A timeline that has begun. -/
structure Running (t : MonotonicTimeline) (origin : ℕ) : Prop where
  origin : t.origin = some origin
  last : 0 ≤ t.last ∧ t.last ≤ kLongLongMaximum
  duration : 0 < t.duration ∧ t.duration ≤ kMaxDuration

/-- A timestamp after another one. -/
structure Stamped (origin : ℕ) (duration : ℤ) (ptsMicros : UInt64) (previous timestamp : ℤ) :
    Prop where
  range : 0 ≤ timestamp ∧ timestamp ≤ kLongLongMaximum
  monotone : previous ≤ timestamp
  spaced : previous + duration ≤ timestamp ∨ timestamp = kLongLongMaximum
  /-- Where the source's own time can be represented and keeps the distance, it is that. -/
  faithful : (ptsMicros.toNat - origin : ℤ) * 10 ≤ kLongLongMaximum →
    previous + duration ≤ (ptsMicros.toNat - origin : ℤ) * 10 →
    timestamp = (ptsMicros.toNat - origin : ℤ) * 10

/-- **Nothing overflows or wraps in `next`.** -/
theorem next_eq {t : MonotonicTimeline} {origin : ℕ} (h : Running t origin) (ptsMicros : UInt64) :
    next t ptsMicros = some (t.next ptsMicros.toNat) := by
  obtain ⟨horigin, ⟨hlast, -⟩, hduration, hlong⟩ := h
  have hpts := ptsMicros.toNat_lt
  have hmax : kLongLongMaximum = 9223372036854775807 := rfl
  have hmaxDuration : kMaxDuration = 42949672960000000 := rfl
  have hlatest : longLong (kLongLongMaximum - t.duration) = some (kLongLongMaximum - t.duration) :=
    longLong_eq (by omega) (by omega)
  have hdelta : u64 (ptsMicros.toNat - origin) = ptsMicros.toNat - origin := u64_eq (by omega)
  have hcandidate (hle : origin ≤ ptsMicros.toNat)
      (hsmall : ¬ ((ptsMicros.toNat - origin : ℕ) : ℤ) > kLongLongMaximum / 10) :
      longLong (u64 ((ptsMicros.toNat - origin) * 10)) =
        some ((ptsMicros.toNat - origin : ℤ) * 10) := by
    rw [u64_eq (by omega), longLong_eq (by omega) (by omega)]
    push_cast [hle]
    rfl
  have hminimum (hroom : ¬ t.last > kLongLongMaximum - t.duration) :
      longLong (t.last + t.duration) = some (t.last + t.duration) :=
    longLong_eq (by omega) (by omega)
  unfold next MonotonicTimeline.next
  rw [horigin]
  simp only [hlatest, hdelta]
  by_cases hle : ptsMicros.toNat ≥ origin
  · have hcast : ((ptsMicros.toNat - origin : ℕ) : ℤ) = ptsMicros.toNat - origin :=
      Nat.cast_sub hle
    rw [if_pos hle, if_pos hle, ← hcast]
    by_cases hfar : ((ptsMicros.toNat - origin : ℕ) : ℤ) > kLongLongMaximum / 10
    · rw [if_pos hfar, if_pos hfar]
      by_cases hroom : t.last > kLongLongMaximum - t.duration
      · simp [hroom]
      · simp [hroom, hminimum hroom]
    · rw [if_neg hfar, if_neg hfar, hcandidate hle hfar, hcast]
      by_cases hroom : t.last > kLongLongMaximum - t.duration
      · simp [hroom]
      · simp [hroom, hminimum hroom]
  · rw [if_neg hle, if_neg hle]
    by_cases hroom : t.last > kLongLongMaximum - t.duration
    · simp [hroom]
    · simp [hroom, hminimum hroom]

theorem stamped_next {t : MonotonicTimeline} {origin : ℕ} (h : Running t origin)
    (ptsMicros : UInt64) :
    Stamped origin t.duration ptsMicros t.last (t.next ptsMicros.toNat).1 := by
  obtain ⟨horigin, ⟨hlast, hlast'⟩, hduration, hlong⟩ := h
  have hmax : kLongLongMaximum = 9223372036854775807 := rfl
  have hmaxDuration : kMaxDuration = 42949672960000000 := rfl
  unfold MonotonicTimeline.next
  rw [horigin]
  dsimp only
  constructor <;> split_ifs <;> omega

theorem running_next {t : MonotonicTimeline} {origin : ℕ} (h : Running t origin)
    (ptsMicros : UInt64) : Running (t.next ptsMicros.toNat).2 origin ∧
      (t.next ptsMicros.toNat).2.last = (t.next ptsMicros.toNat).1 ∧
      (t.next ptsMicros.toNat).2.duration = t.duration := by
  have hrange := (stamped_next h ptsMicros).range
  obtain ⟨horigin, -, hduration⟩ := h
  unfold MonotonicTimeline.next at hrange ⊢
  rw [horigin] at hrange ⊢
  exact ⟨⟨rfl, hrange, hduration⟩, rfl, rfl⟩

/-! ### A recording -/

/-- All frames but the first. -/
theorem stamped_of_running {origin : ℕ} (pts : List UInt64) :
    ∀ {t : MonotonicTimeline}, Running t origin → ∃ rest : List ℤ,
      timestamps t pts = some rest ∧ rest.length = pts.length ∧
        ∀ i (hi : i < rest.length) (_ : i < (t.last :: rest).length) (_ : i < pts.length),
          Stamped origin t.duration pts[i] (t.last :: rest)[i] rest[i] := by
  induction pts with
  | nil => exact fun _ => ⟨[], rfl, rfl, fun i hi => absurd hi (Nat.not_lt_zero i)⟩
  | cons ptsMicros pts ih =>
    intro t h
    obtain ⟨hrunning, hlast, hduration⟩ := running_next h ptsMicros
    obtain ⟨rest, hrest, hlength, hstamped⟩ := ih hrunning
    rw [hlast, hduration] at hstamped
    refine ⟨(t.next ptsMicros.toNat).1 :: rest, ?_, congrArg (· + 1) hlength,
      fun i hi hprevious hpts => ?_⟩
    · rw [timestamps, next_eq h]
      simp [hrest]
    · cases i with
      | zero => exact stamped_next h ptsMicros
      | succ i =>
        exact hstamped i (Nat.lt_of_succ_lt_succ hi) (Nat.lt_of_succ_lt_succ hprevious)
          (Nat.lt_of_succ_lt_succ hpts)

theorem duration_of_config {config : Mp4RecorderConfig} (hvalid : validateConfig config = .S_OK)
    (hdenominator : config.fpsDenominator < 2 ^ 32) :
    ofConfig config = some { duration := frameDuration config } ∧
      0 < frameDuration config ∧ (frameDuration config : ℤ) ≤ kMaxDuration := by
  unfold validateConfig at hvalid
  split_ifs at hvalid with hbad hzero
  have hpos : 0 < frameDuration config := by omega
  have hle : frameDuration config ≤ 10000000 * config.fpsDenominator := Nat.div_le_self _ _
  have hmaxDuration : kMaxDuration = 42949672960000000 := rfl
  have hmax : kLongLongMaximum = 9223372036854775807 := rfl
  have hexact : frameDuration64 config = frameDuration config := by
    rw [frameDuration64, u64_eq (by omega), frameDuration]
  refine ⟨?_, hpos, by omega⟩
  rw [ofConfig, hexact, longLong_eq (by omega) (by omega)]
  rfl

theorem sampleEnd_eq {timestamp duration : ℤ} (ht : 0 ≤ timestamp ∧ timestamp ≤ kLongLongMaximum)
    (hd : 0 < duration ∧ duration ≤ kMaxDuration) :
    (sampleEnd timestamp duration : ℤ) = timestamp + duration := by
  have hmaxDuration : kMaxDuration = 42949672960000000 := rfl
  have hmax : kLongLongMaximum = 9223372036854775807 := rfl
  rw [sampleEnd, u64_eq (v := timestamp.toNat) (by omega), u64_eq (v := duration.toNat) (by omega),
    u64_eq (by omega)]
  omega

/-- **The timestamps of any recording**: none overflows, the first is 0, each later one is
`Stamped` after the one before it, and no end of a sample wraps. -/
theorem stamped_of_config (config : Mp4RecorderConfig) (hvalid : validateConfig config = .S_OK)
    (hdenominator : config.fpsDenominator < 2 ^ 32) (pts : List UInt64) :
    ∃ (t : MonotonicTimeline) (stamps : List ℤ),
      ofConfig config = some t ∧ timestamps t pts = some stamps ∧ stamps.length = pts.length ∧
        (∀ h : 0 < stamps.length, stamps[0] = 0) ∧
        (∀ i (hi : i + 1 < stamps.length) (hpts : i + 1 < pts.length),
          Stamped pts[0].toNat t.duration pts[i + 1] stamps[i] stamps[i + 1]) ∧
        ∀ timestamp ∈ stamps, (sampleEnd timestamp t.duration : ℤ) = timestamp + t.duration := by
  obtain ⟨hconfig, hduration⟩ := duration_of_config hvalid hdenominator
  have hduration : 0 < (frameDuration config : ℤ) ∧ (frameDuration config : ℤ) ≤ kMaxDuration :=
    ⟨by exact_mod_cast hduration.1, hduration.2⟩
  cases pts with
  | nil => exact ⟨_, [], hconfig, rfl, rfl, nofun, nofun, nofun⟩
  | cons ptsMicros pts =>
    have hrunning : Running ⟨some ptsMicros.toNat, 0, frameDuration config⟩ ptsMicros.toNat :=
      ⟨rfl, ⟨le_refl _, kLongLongMaximum_nonneg⟩, hduration⟩
    obtain ⟨rest, hrest, hlength, hstamped⟩ := stamped_of_running pts hrunning
    refine ⟨_, 0 :: rest, hconfig, ?_, congrArg (· + 1) hlength, fun _ => rfl,
      fun i hi hpts => ?_, fun timestamp htimestamp => ?_⟩
    · rw [timestamps, next]
      simp [hrest]
    · exact hstamped i (Nat.lt_of_succ_lt_succ hi) (Nat.lt_of_succ_lt hi)
        (Nat.lt_of_succ_lt_succ hpts)
    · refine sampleEnd_eq ?_ hduration
      rcases List.mem_cons.mp htimestamp with rfl | hmem
      · exact ⟨le_refl _, kLongLongMaximum_nonneg⟩
      · obtain ⟨i, hi, rfl⟩ := List.mem_iff_getElem.mp hmem
        exact (hstamped i hi (Nat.lt_succ_of_lt hi) (hlength ▸ hi)).range

/-- A repeated time, one before the first, and a gap. -/
theorem stamped_of_config_sample : ∃ (t : MonotonicTimeline) (stamps : List ℤ),
    ofConfig sampleConfig = some t ∧ timestamps t [1000, 1000, 900, 200000] = some stamps ∧
      stamps = [0, 333333, 666666, 1990000] ∧
      ∀ timestamp ∈ stamps, (sampleEnd timestamp t.duration : ℤ) = timestamp + t.duration := by
  obtain ⟨t, stamps, hconfig, hstamps, -, -, -, hend⟩ :=
    stamped_of_config sampleConfig (by decide) (by decide) [1000, 1000, 900, 200000]
  obtain rfl : ({ duration := 333333 } : MonotonicTimeline) = t := Option.some.inj hconfig
  have hsample : timestamps { duration := 333333 } [1000, 1000, 900, 200000] =
      some [0, 333333, 666666, 1990000] := by decide +kernel
  exact ⟨_, stamps, hconfig, hstamps, Option.some.inj (hstamps.symm.trans hsample), hend⟩

end RemoteCam.Media.Timeline
