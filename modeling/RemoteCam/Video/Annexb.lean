import Mathlib.Data.Nat.Notation

/-! # Annex-B access units

`split` finds the NAL units between 3- and 4-byte start codes, `inspect` reads off their types what
the receiver asks of an access unit: is there a video slice, is there a random-access slice, and do
the parameter sets stand before the first one. -/

namespace RemoteCam.Video.Annexb

inductive Codec where
  | h264
  | hevc
  deriving DecidableEq, Repr

structure Nal where
  offset : ℕ
  size : ℕ
  type : UInt8
  deriving DecidableEq, Repr

def kH264Sps : UInt8 := 7
def kH264Pps : UInt8 := 8
def kH264IdrSlice : UInt8 := 5
def kHevcVps : UInt8 := 32
def kHevcSps : UInt8 := 33
def kHevcPps : UInt8 := 34
def kHevcBlaWLp : UInt8 := 16
def kHevcCraNut : UInt8 := 21

/-- The length of the start code the bytes begin with. -/
def startCodeAt : List UInt8 → Option ℕ
  | 0 :: 0 :: 1 :: _ => some 3
  | 0 :: 0 :: 0 :: 1 :: _ => some 4
  | _ => none

def nalTypeOf (codec : Codec) (headerByte : UInt8) : UInt8 :=
  match codec with
  | .h264 => headerByte &&& 0x1F
  | .hevc => (headerByte >>> 1) &&& 0x3F

def isVideoSlice (codec : Codec) (nalType : UInt8) : Bool :=
  match codec with
  | .h264 => nalType ≥ 1 && nalType ≤ 5
  | .hevc => nalType ≤ 31

def isParameterSet (codec : Codec) (nalType : UInt8) : Bool :=
  match codec with
  | .h264 => nalType = kH264Sps || nalType = kH264Pps
  | .hevc => nalType = kHevcVps || nalType = kHevcSps || nalType = kHevcPps

def isKeyframeSlice (codec : Codec) (nalType : UInt8) : Bool :=
  match codec with
  | .h264 => nalType = kH264IdrSlice
  | .hevc => nalType ≥ kHevcBlaWLp && nalType ≤ kHevcCraNut

/-- The bytes before the next start code, and the bytes from it on. -/
def untilStartCode : List UInt8 → List UInt8 × List UInt8
  | [] => ([], [])
  | b :: bs =>
    if (startCodeAt (b :: bs)).isSome then ([], b :: bs)
    else
      let (before, rest) := untilStartCode bs
      (b :: before, rest)

/-- The loop of `split`, at a start code `offset` bytes into the input. An empty NAL is skipped; the
fuel bounds the rounds. -/
def nalsFrom (codec : Codec) : ℕ → ℕ → List UInt8 → List Nal
  | 0, _, _ => []
  | fuel + 1, offset, bytes =>
    match startCodeAt bytes with
    | none => []
    | some codeLength =>
      match bytes.drop codeLength with
      | [] => []
      | headerByte :: body =>
        let (content, rest) := untilStartCode (headerByte :: body)
        let nalStart := offset + codeLength
        let nals := nalsFrom codec fuel (nalStart + content.length) rest
        if content.length > 0 then
          { offset := nalStart, size := content.length, type := nalTypeOf codec headerByte } :: nals
        else nals

/-- The NAL units of the input; none where there is no start code. -/
def split (data : List UInt8) (codec : Codec) : List Nal :=
  if data.length < 4 then []
  else
    let (before, rest) := untilStartCode data
    nalsFrom codec data.length before.length rest

structure AccessUnitReport where
  isAnnexB : Bool := false
  nalCount : ℕ := 0
  hasParameterSets : Bool := false
  hasVideoSlice : Bool := false
  hasKeyframeSlice : Bool := false
  isSelfContainedKeyframe : Bool := false
  decodableFromHere : Bool := false
  deriving DecidableEq, Repr

/-- What the loop of `inspect` has seen. -/
structure Seen where
  sps : Bool := false
  pps : Bool := false
  vps : Bool := false
  videoSlice : Bool := false
  keyframeSlice : Bool := false
  parameterSetsBeforeFirstKeyframe : Bool := false
  deriving DecidableEq, Repr

/-- The codec's whole family of parameter sets. -/
def Seen.parameterSets (codec : Codec) (seen : Seen) : Bool :=
  match codec with
  | .h264 => seen.sps && seen.pps
  | .hevc => seen.vps && seen.sps && seen.pps

/-- One NAL: the parameter sets count before the slice is looked at. -/
def inspectNal (codec : Codec) (seen : Seen) (nal : Nal) : Seen :=
  let seen := { seen with videoSlice := seen.videoSlice || isVideoSlice codec nal.type }
  let seen :=
    match codec with
    | .h264 =>
      { seen with
        sps := seen.sps || nal.type = kH264Sps
        pps := seen.pps || nal.type = kH264Pps }
    | .hevc =>
      { seen with
        vps := seen.vps || nal.type = kHevcVps
        sps := seen.sps || nal.type = kHevcSps
        pps := seen.pps || nal.type = kHevcPps }
  if isKeyframeSlice codec nal.type then
    { seen with
      parameterSetsBeforeFirstKeyframe :=
        if seen.keyframeSlice then seen.parameterSetsBeforeFirstKeyframe
        else seen.parameterSets codec
      keyframeSlice := true }
  else seen

def inspect (data : List UInt8) (codec : Codec) : AccessUnitReport :=
  match split data codec with
  | [] => {}
  | nals =>
    let seen := nals.foldl (inspectNal codec) {}
    let selfContained := seen.keyframeSlice && seen.parameterSetsBeforeFirstKeyframe
    { isAnnexB := true
      nalCount := nals.length
      hasParameterSets := seen.parameterSets codec
      hasVideoSlice := seen.videoSlice
      hasKeyframeSlice := seen.keyframeSlice
      isSelfContainedKeyframe := selfContained
      decodableFromHere := !seen.keyframeSlice || selfContained }

end RemoteCam.Video.Annexb
