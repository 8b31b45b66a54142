import RemoteCam.Video.Splitting
import Mathlib.Data.List.TakeWhile
import Mathlib.Tactic.SplitIfs

/-! # What inspect reports

The flags of the report are read off the types of the units alone: a slice or a set that occurs, and
the whole family of parameter sets before the first random-access slice (`flags_of_inspect`). So
other units, and a set again before that slice, change nothing (`inspect_flags`). -/

namespace RemoteCam.Video.Inspection

open RemoteCam.Video.Annexb RemoteCam.Video.Splitting

/-! ### The flags of a list of types -/

variable {codec : Codec}

/-- The codec's whole family of parameter sets. -/
def Family (codec : Codec) (types : List UInt8) : Prop :=
  match codec with
  | .h264 => kH264Sps ∈ types ∧ kH264Pps ∈ types
  | .hevc => kHevcVps ∈ types ∧ kHevcSps ∈ types ∧ kHevcPps ∈ types

/-- The family, in any order, and only then the first random-access slice. -/
def SelfContained (codec : Codec) (types : List UInt8) : Prop :=
  ∃ before slice after, types = before ++ slice :: after ∧ isKeyframeSlice codec slice = true ∧
    (∀ t ∈ before, isKeyframeSlice codec t = false) ∧ Family codec before

theorem Family.mono {types types' : List UInt8} (hsub : types ⊆ types') (h : Family codec types) :
    Family codec types' := by
  cases codec with
  | h264 => exact ⟨hsub h.1, hsub h.2⟩
  | hevc => exact ⟨hsub h.1, hsub h.2.1, hsub h.2.2⟩

/-- What is no parameter set does not count. -/
theorem Family.of_cons {t : UInt8} {types : List UInt8} (ht : isParameterSet codec t = false)
    (h : Family codec (t :: types)) : Family codec types := by
  cases codec <;>
    simp only [isParameterSet, Bool.or_eq_false_iff, decide_eq_false_iff_not] at ht <;>
    simp only [Family, List.mem_cons] at h ⊢ <;> grind

theorem isVideoSlice_of_isKeyframeSlice {t : UInt8} (h : isKeyframeSlice codec t = true) :
    isVideoSlice codec t = true := by
  cases codec with
  | h264 =>
    obtain rfl : t = kH264IdrSlice := by simpa [isKeyframeSlice] using h
    decide
  | hevc =>
    simp only [isKeyframeSlice, isVideoSlice, Bool.and_eq_true, decide_eq_true_eq, kHevcBlaWLp,
      kHevcCraNut, ge_iff_le, UInt8.le_iff_toNat_le] at h ⊢
    exact Nat.le_trans h.2 (by decide)

theorem not_isParameterSet_of_isKeyframeSlice {t : UInt8} (h : isKeyframeSlice codec t = true) :
    isParameterSet codec t = false := by
  cases codec with
  | h264 =>
    obtain rfl : t = kH264IdrSlice := by simpa [isKeyframeSlice] using h
    decide
  | hevc =>
    simp only [isKeyframeSlice, Bool.and_eq_true, decide_eq_true_eq] at h
    have hle : t ≤ 21 := h.2
    simp only [isParameterSet, Bool.or_eq_false_iff, decide_eq_false_iff_not]
    refine ⟨⟨?_, ?_⟩, ?_⟩ <;> (rintro rfl; exact absurd hle (by decide))

/-- The units before the first random-access slice. -/
def beforeSlice (codec : Codec) (types : List UInt8) : List UInt8 :=
  types.takeWhile fun t => !isKeyframeSlice codec t

theorem exists_first {types : List UInt8} (h : ∃ t ∈ types, isKeyframeSlice codec t = true) :
    ∃ slice after, types = beforeSlice codec types ++ slice :: after ∧
      isKeyframeSlice codec slice = true := by
  induction types with
  | nil => simp at h
  | cons t types ih =>
    cases hslice : isKeyframeSlice codec t with
    | true => exact ⟨t, types, by simp [beforeSlice, hslice], hslice⟩
    | false =>
      obtain ⟨slice, after, htypes, hkey⟩ := ih (by simpa [hslice] using h)
      refine ⟨slice, after, ?_, hkey⟩
      rw [beforeSlice, List.takeWhile_cons, hslice]
      exact congrArg (t :: ·) htypes

theorem selfContained_iff {types : List UInt8} : SelfContained codec types ↔
    (∃ t ∈ types, isKeyframeSlice codec t = true) ∧ Family codec (beforeSlice codec types) := by
  constructor
  · rintro ⟨before, slice, after, rfl, hslice, hbefore, hfamily⟩
    refine ⟨⟨slice, by simp, hslice⟩, ?_⟩
    rw [beforeSlice, List.takeWhile_append_of_pos (by simpa using hbefore),
      List.takeWhile_cons_of_neg (by simp [hslice]), List.append_nil]
    exact hfamily
  · rintro ⟨hkey, hfamily⟩
    obtain ⟨slice, after, htypes, hslice⟩ := exists_first hkey
    refine ⟨_, slice, after, htypes, hslice, fun t ht => ?_, hfamily⟩
    have := List.mem_takeWhile_imp ht
    simpa using this

/-! ### The loop of inspect -/

/-- What the loop knows of the parameter sets. -/
def Sets (codec : Codec) (types : List UInt8) (seen : Seen) : Prop :=
  match codec with
  | .h264 => (seen.sps = true ↔ kH264Sps ∈ types) ∧ (seen.pps = true ↔ kH264Pps ∈ types)
  | .hevc => (seen.vps = true ↔ kHevcVps ∈ types) ∧ (seen.sps = true ↔ kHevcSps ∈ types) ∧
    (seen.pps = true ↔ kHevcPps ∈ types)

/-- What the loop knows after units of these types. -/
structure Knows (codec : Codec) (types : List UInt8) (seen : Seen) : Prop where
  sets : Sets codec types seen
  video : seen.videoSlice = true ↔ ∃ t ∈ types, isVideoSlice codec t = true
  key : seen.keyframeSlice = true ↔ ∃ t ∈ types, isKeyframeSlice codec t = true
  before : seen.keyframeSlice = true →
    (seen.parameterSetsBeforeFirstKeyframe = true ↔ Family codec (beforeSlice codec types))

theorem Sets.family {types : List UInt8} {seen : Seen} (h : Sets codec types seen) :
    seen.parameterSets codec = true ↔ Family codec types := by
  cases codec with
  | h264 => simp only [Seen.parameterSets, Family, Bool.and_eq_true, h.1, h.2]
  | hevc => simp only [Seen.parameterSets, Family, Bool.and_eq_true, h.1, h.2.1, h.2.2, and_assoc]

theorem Sets.unit {types : List UInt8} {seen : Seen} (h : Sets codec types seen) (nal : Nal) :
    Sets codec (types ++ [nal.type]) (inspectNal codec seen nal) := by
  cases codec with
  | h264 =>
    obtain ⟨hsps, hpps⟩ := h
    have hsame (k : UInt8) : k ∈ types ++ [nal.type] ↔ k ∈ types ∨ nal.type = k := by
      rw [List.mem_append, List.mem_singleton, eq_comm (a := k)]
    unfold inspectNal
    split_ifs <;> simp [Sets, hsps, hpps, hsame]
  | hevc =>
    obtain ⟨hvps, hsps, hpps⟩ := h
    have hsame (k : UInt8) : k ∈ types ++ [nal.type] ↔ k ∈ types ∨ nal.type = k := by
      rw [List.mem_append, List.mem_singleton, eq_comm (a := k)]
    unfold inspectNal
    split_ifs <;> simp [Sets, hvps, hsps, hpps, hsame]

theorem videoSlice_inspectNal (seen : Seen) (nal : Nal) :
    (inspectNal codec seen nal).videoSlice = (seen.videoSlice || isVideoSlice codec nal.type) := by
  unfold inspectNal
  cases codec <;> dsimp only <;> split_ifs <;> rfl

theorem keyframeSlice_inspectNal (seen : Seen) (nal : Nal) :
    (inspectNal codec seen nal).keyframeSlice =
      (seen.keyframeSlice || isKeyframeSlice codec nal.type) := by
  unfold inspectNal
  cases codec <;> dsimp only <;> split_ifs with h <;> simp [h]

theorem before_inspectNal (seen : Seen) (nal : Nal) :
    (inspectNal codec seen nal).parameterSetsBeforeFirstKeyframe =
      if isKeyframeSlice codec nal.type = true ∧ seen.keyframeSlice = false then
        (inspectNal codec seen nal).parameterSets codec
      else seen.parameterSetsBeforeFirstKeyframe := by
  unfold inspectNal
  cases codec <;> dsimp only <;> cases seen.keyframeSlice <;> split_ifs with h <;> simp_all <;> rfl

theorem length_beforeSlice_ne {types : List UInt8}
    (h : ∃ k ∈ types, isKeyframeSlice codec k = true) :
    (beforeSlice codec types).length ≠ types.length := fun heq => by
  obtain ⟨slice, after, htypes, -⟩ := exists_first h
  have hlen := congrArg List.length htypes
  rw [List.length_append, List.length_cons] at hlen
  omega

theorem beforeSlice_append {types : List UInt8} (t : UInt8)
    (h : ∃ k ∈ types, isKeyframeSlice codec k = true) :
    beforeSlice codec (types ++ [t]) = beforeSlice codec types := by
  have hlt := length_beforeSlice_ne h
  rw [beforeSlice] at hlt
  rw [beforeSlice, List.takeWhile_append, if_neg hlt]
  rfl

/-- **One unit.** -/
theorem Knows.unit {types : List UInt8} {seen : Seen} (h : Knows codec types seen) (nal : Nal) :
    Knows codec (types ++ [nal.type]) (inspectNal codec seen nal) := by
  have hsets := h.sets.unit nal
  refine ⟨hsets, ?_, ?_, ?_⟩
  · rw [videoSlice_inspectNal, Bool.or_eq_true, h.video]
    simp [or_and_right, exists_or]
  · rw [keyframeSlice_inspectNal, Bool.or_eq_true, h.key]
    simp [or_and_right, exists_or]
  · rw [keyframeSlice_inspectNal, before_inspectNal, Bool.or_eq_true]
    intro hkey
    cases hseen : seen.keyframeSlice with
    | true =>
      rw [if_neg (by simp), beforeSlice_append _ (h.key.mp hseen)]
      exact h.before hseen
    | false =>
      have hslice := hkey.resolve_left (by simp [hseen])
      have hnone : ∀ t ∈ types, isKeyframeSlice codec t = false := fun t ht => by
        have := mt h.key.mpr (by simp [hseen])
        simpa using fun hk => this ⟨t, ht, hk⟩
      rw [if_pos ⟨hslice, rfl⟩, hsets.family, beforeSlice,
        List.takeWhile_append_of_pos (by simpa using hnone),
        List.takeWhile_cons_of_neg (by simp [hslice]), List.append_nil]
      refine ⟨fun hfamily => ?_, .mono (List.subset_append_left _ _)⟩
      exact Family.of_cons (not_isParameterSet_of_isKeyframeSlice hslice)
        (hfamily.mono fun t ht => by simpa [or_comm] using ht)

theorem knows_foldl (nals : List Nal) : ∀ {types : List UInt8} {seen : Seen},
    Knows codec types seen →
    Knows codec (types ++ nals.map Nal.type) (nals.foldl (inspectNal codec) seen) := by
  induction nals with
  | nil => exact fun h => by simpa using h
  | cons nal nals ih =>
    intro types seen h
    have hrest := ih (h.unit nal)
    rwa [List.append_assoc] at hrest

theorem knows_nil (codec : Codec) : Knows codec [] {} := by
  cases codec <;> exact ⟨by simp [Sets], by simp, by simp, by simp⟩

/-! ### The report -/

/-- The types of the units, in order. -/
def types (data : List UInt8) (codec : Codec) : List UInt8 := (split data codec).map Nal.type

/-- **The flags of the report.** -/
theorem flags_of_inspect (data : List UInt8) (codec : Codec) :
    ((inspect data codec).isSelfContainedKeyframe = true ↔ SelfContained codec (types data codec)) ∧
    ((inspect data codec).hasVideoSlice = true ↔
      ∃ t ∈ types data codec, isVideoSlice codec t = true) ∧
    ((inspect data codec).hasKeyframeSlice = true ↔
      ∃ t ∈ types data codec, isKeyframeSlice codec t = true) ∧
    ((inspect data codec).hasParameterSets = true ↔ Family codec (types data codec)) := by
  have hknows := knows_foldl (split data codec) (knows_nil codec)
  rw [List.nil_append] at hknows
  rw [types, selfContained_iff]
  unfold inspect
  cases hsplit : split data codec with
  | nil =>
    refine ⟨by simp, by simp, by simp, ?_⟩
    cases codec <;> simp [Family]
  | cons nal nals =>
    rw [hsplit] at hknows
    refine ⟨?_, hknows.video, hknows.key, hknows.sets.family⟩
    rw [Bool.and_eq_true, hknows.key]
    exact and_congr_right fun hkey => hknows.before (hknows.key.mpr hkey)

/-! ### More units -/

/-- The family is there with one more unit if it was without. -/
theorem Family.insert_iff {before after : List UInt8} {t : UInt8}
    (h : isParameterSet codec t = false ∨ t ∈ before ++ after) :
    Family codec (before ++ t :: after) ↔ Family codec (before ++ after) := by
  constructor
  · intro hfamily
    have hcons : Family codec (t :: (before ++ after)) :=
      hfamily.mono List.perm_middle.subset
    rcases h with ht | ht
    · exact hcons.of_cons ht
    · exact hcons.mono (List.cons_subset.mpr ⟨ht, List.Subset.refl _⟩)
  · exact .mono fun k hk => by
      rw [List.mem_append] at hk ⊢
      exact hk.imp_right (List.mem_cons_of_mem t)

/-- Before or after the first random-access slice, one more unit that is none. -/
theorem beforeSlice_insert {before after : List UInt8} {t : UInt8}
    (ht : isKeyframeSlice codec t = false) :
    ((∀ k ∈ before, isKeyframeSlice codec k = false) ∧
      beforeSlice codec (before ++ t :: after) = before ++ t :: beforeSlice codec after ∧
      beforeSlice codec (before ++ after) = before ++ beforeSlice codec after) ∨
    (∃ k ∈ before, isKeyframeSlice codec k = true) ∧
      beforeSlice codec (before ++ t :: after) = beforeSlice codec (before ++ after) := by
  by_cases hnone : ∀ k ∈ before, isKeyframeSlice codec k = false
  · have hall : ∀ k ∈ before, (!isKeyframeSlice codec k) = true := by simpa using hnone
    refine .inl ⟨hnone, ?_, List.takeWhile_append_of_pos hall⟩
    rw [beforeSlice, List.takeWhile_append_of_pos hall, List.takeWhile_cons_of_pos (by simp [ht])]
    rfl
  · have hkey : ∃ k ∈ before, isKeyframeSlice codec k = true := by simpa using hnone
    have hlt := length_beforeSlice_ne hkey
    rw [beforeSlice] at hlt
    refine .inr ⟨hkey, ?_⟩
    rw [beforeSlice, beforeSlice, List.takeWhile_append, List.takeWhile_append, if_neg hlt,
      if_neg hlt]

/-- What may be put in between `before` and `after`: neither a slice nor a parameter set, or, before
the first random-access slice, a parameter set that is there before that slice anyway. -/
def Harmless (codec : Codec) (before after : List UInt8) (t : UInt8) : Prop :=
  (isVideoSlice codec t = false ∧ isParameterSet codec t = false) ∨
  (isParameterSet codec t = true ∧ (∀ k ∈ before, isKeyframeSlice codec k = false) ∧
    t ∈ beforeSlice codec (before ++ after))

theorem Harmless.not_key {before after : List UInt8} {t : UInt8}
    (h : Harmless codec before after t) : isKeyframeSlice codec t = false := by
  rcases h with ⟨hvideo, -⟩ | ⟨hset, -⟩
  · exact Bool.eq_false_iff.mpr fun hkey => by
      rw [isVideoSlice_of_isKeyframeSlice hkey] at hvideo
      cases hvideo
  · exact Bool.eq_false_iff.mpr fun hkey => by
      rw [not_isParameterSet_of_isKeyframeSlice hkey] at hset
      cases hset

theorem Harmless.not_video {before after : List UInt8} {t : UInt8}
    (h : Harmless codec before after t) : isVideoSlice codec t = false := by
  rcases h with ⟨hvideo, -⟩ | ⟨hset, -⟩
  · exact hvideo
  · cases codec with
    | h264 =>
      simp only [isParameterSet, Bool.or_eq_true, decide_eq_true_eq] at hset
      rcases hset with rfl | rfl <;> decide
    | hevc =>
      simp only [isParameterSet, Bool.or_eq_true, decide_eq_true_eq] at hset
      rcases hset with (rfl | rfl) | rfl <;> decide

theorem exists_insert {P : UInt8 → Prop} {before after : List UInt8} {t : UInt8} (ht : ¬ P t) :
    (∃ k ∈ before ++ t :: after, P k) ↔ ∃ k ∈ before ++ after, P k := by
  simp only [List.mem_append, List.mem_cons, or_and_right, exists_or, exists_eq_left, ht,
    false_or]

theorem SelfContained.insert_iff {before after : List UInt8} {t : UInt8}
    (h : Harmless codec before after t) :
    SelfContained codec (before ++ t :: after) ↔ SelfContained codec (before ++ after) := by
  rw [selfContained_iff, selfContained_iff, exists_insert (by simp [h.not_key])]
  refine and_congr_right fun _ => ?_
  rcases @beforeSlice_insert codec before after t h.not_key with
    ⟨-, hinsert, hwithout⟩ | ⟨-, heq⟩
  · rw [hinsert, hwithout]
    refine Family.insert_iff ?_
    rcases h with ⟨-, hset⟩ | ⟨-, -, hmem⟩
    · exact .inl hset
    · exact .inr (hwithout ▸ hmem)
  · rw [heq]

/-- **Inspecting.** A flag is set exactly if such units occur, and the one of a self-contained
keyframe exactly if the whole family of parameter sets comes before the first random-access slice.
Other units, and parameter sets again before that slice, change no flag. -/
theorem inspect_flags (codec : Codec) :
    (∀ data,
      ((inspect data codec).isSelfContainedKeyframe = true ↔
        SelfContained codec (types data codec)) ∧
      ((inspect data codec).hasVideoSlice = true ↔
        ∃ t ∈ types data codec, isVideoSlice codec t = true) ∧
      ((inspect data codec).hasKeyframeSlice = true ↔
        ∃ t ∈ types data codec, isKeyframeSlice codec t = true) ∧
      ((inspect data codec).hasParameterSets = true ↔ Family codec (types data codec))) ∧
    ∀ (data data' before after : List UInt8) (t : UInt8), types data codec = before ++ after →
      types data' codec = before ++ t :: after → Harmless codec before after t →
      (inspect data' codec).isSelfContainedKeyframe =
        (inspect data codec).isSelfContainedKeyframe ∧
      (inspect data' codec).hasVideoSlice = (inspect data codec).hasVideoSlice ∧
      (inspect data' codec).hasKeyframeSlice = (inspect data codec).hasKeyframeSlice ∧
      (inspect data' codec).hasParameterSets = (inspect data codec).hasParameterSets := by
  refine ⟨fun data => flags_of_inspect data codec,
    fun data data' before after t hdata hdata' h => ?_⟩
  obtain ⟨hself, hvideo, hkey, hsets⟩ := flags_of_inspect data codec
  obtain ⟨hself', hvideo', hkey', hsets'⟩ := flags_of_inspect data' codec
  rw [hdata] at hself hvideo hkey hsets
  rw [hdata'] at hself' hvideo' hkey' hsets'
  refine ⟨Bool.eq_iff_iff.mpr ?_, Bool.eq_iff_iff.mpr ?_, Bool.eq_iff_iff.mpr ?_,
    Bool.eq_iff_iff.mpr ?_⟩
  · rw [hself', hself, SelfContained.insert_iff h]
  · rw [hvideo', hvideo, exists_insert (by simp [h.not_video])]
  · rw [hkey', hkey, exists_insert (by simp [h.not_key])]
  · rw [hsets', hsets]
    refine Family.insert_iff ?_
    rcases h with ⟨-, hset⟩ | ⟨-, -, hmem⟩
    · exact .inl hset
    · exact .inr ((List.takeWhile_sublist _).subset hmem)

/-- Parameter sets in the other order, one of them twice, and a unit of another kind. -/
example : (inspect (join [(true, [0x68]), (true, [0x67]), (false, [0x06, 0x05]), (true, [0x68]),
    (false, [0x65, 0x88])]) .h264).isSelfContainedKeyframe = true := by decide

end RemoteCam.Video.Inspection
