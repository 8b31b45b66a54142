import RemoteCam.Backend.Session
import RemoteCam.Phone.Messages
import RemoteCam.Phone.Session
import RemoteCam.Wire.WireFrame

/-! # The formats that both ends speak of

A `StreamConfig` of the PC and a `StreamConfiguration` of the phone hold the same five values. The
PC checks its own with `valid` and sends it in `ready` or `set_format`; the phone reads it back with
`configuration(from:)` and checks it with `validated`.

`configuration_crosses`: the two checks agree, and what the PC sends is what the phone reads. -/

namespace RemoteCam.Control.StreamFormats

open RemoteCam.Cbor.Codec (Bytes Value)
open RemoteCam.Cbor.CBORDecoder (CBORValue intMax)
open RemoteCam.Cbor.Limits
open RemoteCam.Control.Messages RemoteCam.Control.Builders RemoteCam.Control.Envelope
open RemoteCam.Backend.Session (StreamConfig)
open RemoteCam.Phone.Messages RemoteCam.Phone.Session
open RemoteCam.Phone.Transport (StreamConfiguration VideoCodec)
open RemoteCam.Video.Annexb (Codec)
open RemoteCam.Wire.Codec (Frame)
open RemoteCam.Wire.WireFrame

/-! ### The PC -/

def codecName : Codec → String
  | .hevc => "hevc"
  | .h264 => "h264"

def putStreamConfig (config : StreamConfig) : List (String × Value) :=
  [("codec", .text (literal (codecName config.codec))), ("width", .unsigned (.ofNat config.width)),
    ("height", .unsigned (.ofNat config.height)), ("fps", .unsigned (.ofNat config.fps)),
    ("bitrate", .unsigned (.ofNat config.bitrate))]

def ready (config : StreamConfig) : Message := makeMessage "ready" (putStreamConfig config)

def setFormat (config : StreamConfig) (generation : UInt64) : Message :=
  makeMessage "set_format" (putStreamConfig config ++ [("generation", .unsigned generation)])

/-- The frame of `sendControl`. The phone answers no challenge, so its sessions have no protector.
-/
def sendControl (m : Message) : Frame := { payload := Message.encode m }

/-! ### The phone -/

section Phone
variable (canon : Bytes → Bytes)

/-- `init(rawValue:)`; strings are compared in their canonical form. -/
def VideoCodec.init (rawValue : Bytes) : Option VideoCodec :=
  [VideoCodec.hevc, .h264].find? fun codec =>
    canon rawValue = canon (literal (VideoCodec.rawValue codec))

def stringValue : CBORValue → Option Bytes
  | .string value => some value
  | _ => none

def unsignedValue : CBORValue → Option UInt64
  | .unsigned value => some value
  | _ => none

/-- `Int(exactly:)`. -/
def exactly (value : UInt64) : Option ℕ := if value.toNat ≤ intMax then some value.toNat else none

/-- `configuration(from:)`. -/
def configuration (fields : List (Bytes × CBORValue)) : Option StreamConfiguration :=
  configurationFrom do
    let codec ← VideoCodec.init canon (← (← field canon fields "codec") |> stringValue)
    let width ← exactly (← unsignedValue (← field canon fields "width"))
    let height ← exactly (← unsignedValue (← field canon fields "height"))
    let framesPerSecond ← exactly (← unsignedValue (← field canon fields "fps"))
    let bitrate ← exactly (← unsignedValue (← field canon fields "bitrate"))
    some { codec, width, height, framesPerSecond, bitrate }

def formatGeneration (fields : List (Bytes × CBORValue)) : Option UInt64 :=
  (field canon fields "generation").bind unsignedValue

/-- What `handle` makes of the frames in the chunks that a connection brings. -/
def messages (chunks : List Bytes) : List (Except ControlMessageError ControlMessage) :=
  ((({} : WireFrameDecoder).receive chunks).1.filter fun frame =>
    frame.channel = 0 ∨ frame.channel = 3).map fun frame => ControlMessage.init canon frame.payload

end Phone

/-! ### The two checks -/

/-- The same numbers on the phone. -/
def streamConfiguration (config : StreamConfig) : StreamConfiguration where
  codec := match config.codec with
    | .hevc => .hevc
    | .h264 => .h264
  width := config.width
  height := config.height
  framesPerSecond := config.fps
  bitrate := config.bitrate

/-- What `validated` lets through, with a product for its division. -/
theorem validated_iff (c : StreamConfiguration) :
    (∃ c', c.validated = .ok c') ↔
      (0 < c.width ∧ 0 < c.height ∧ c.width ≤ 4096 ∧ c.height ≤ 4096 ∧ c.width % 2 = 0 ∧
        c.height % 2 = 0 ∧ c.width * c.height ≤ 3840 * 2160) ∧
      (1 ≤ c.framesPerSecond ∧ c.framesPerSecond ≤ 120) ∧
      64000 ≤ c.bitrate ∧ c.bitrate ≤ 100000000 := by
  have hpixels (hheight : 0 < c.height) :
      c.width ≤ 3840 * 2160 / c.height ↔ c.width * c.height ≤ 3840 * 2160 :=
    Nat.le_div_iff_mul_le hheight
  unfold StreamConfiguration.validated
  split_ifs with hsize hrate hbits
  · obtain ⟨hw, hh, hw', hh', hweven, hheven, hdivision⟩ := hsize
    have hproduct := (hpixels hh).mp hdivision
    exact iff_of_true ⟨c, rfl⟩ ⟨⟨hw, hh, hw', hh', hweven, hheven, hproduct⟩, hrate, hbits⟩
  · exact iff_of_false nofun fun h => hbits h.2.2
  · exact iff_of_false nofun fun h => hrate h.2.1
  · refine iff_of_false nofun fun h => hsize ?_
    obtain ⟨⟨hw, hh, hw', hh', hweven, hheven, hproduct⟩, -⟩ := h
    exact ⟨hw, hh, hw', hh', hweven, hheven, (hpixels hh).mpr hproduct⟩

theorem validated_eq {c c' : StreamConfiguration} (h : c.validated = .ok c') : c' = c := by
  unfold StreamConfiguration.validated at h
  split_ifs at h
  exact (Except.ok.inj h).symm

theorem valid_iff (c : StreamConfig) :
    c.valid = true ↔
      (0 < c.width ∧ 0 < c.height ∧ c.width ≤ 4096 ∧ c.height ≤ 4096 ∧ c.width % 2 = 0 ∧
        c.height % 2 = 0 ∧ c.width * c.height ≤ 3840 * 2160) ∧
      (1 ≤ c.fps ∧ c.fps ≤ 120) ∧ 64000 ≤ c.bitrate ∧ c.bitrate ≤ 100000000 := by
  unfold StreamConfig.valid
  generalize c.width * c.height = pixels
  split_ifs <;> simp only [true_iff, false_iff] <;> omega

/-! ### A message on its way -/

section Crossing
variable {canon : Bytes → Bytes}

/-- The phone hears one message for the frame of `m`, however the connection cuts its bytes. -/
def Hears (canon : Bytes → Bytes) (m : Message) (heard : ControlMessage → Prop) : Prop :=
  ∃ bytes, Wire.Codec.encode (sendControl m) = .ok bytes ∧
    ∀ chunks : List Bytes, chunks.flatten = bytes →
      ∃ message, messages canon chunks = [.ok message] ∧ heard message

theorem Hears.imp {m : Message} {heard heard' : ControlMessage → Prop} (h : Hears canon m heard)
    (himp : ∀ message, heard message → heard' message) : Hears canon m heard' := by
  obtain ⟨bytes, hbytes, hchunks⟩ := h
  refine ⟨bytes, hbytes, fun chunks hflatten => ?_⟩
  obtain ⟨message, hmessages, hheard⟩ := hchunks chunks hflatten
  exact ⟨message, hmessages, himp message hheard⟩

theorem hears_of_init {m : Message} {message : ControlMessage} {heard : ControlMessage → Prop}
    (hfits : (Message.encode m).length ≤ kMaxPayloadBytes)
    (hinit : ControlMessage.init canon (Message.encode m) = .ok message) (h : heard message) :
    Hears canon m heard := by
  have hlen : ¬ (sendControl m).payload.length > Wire.Codec.kMaxPayloadBytes :=
    Nat.not_lt.mpr (hfits.trans (by decide))
  have hflags : ¬ ((0 : UInt8) &&& ~~~Wire.Codec.kKnownMask != 0) = true := by decide
  have hencode : Wire.Codec.encode (sendControl m) =
      .ok (Wire.Codec.header (sendControl m) ++ Message.encode m) := by
    unfold Wire.Codec.encode
    rw [if_neg hlen]
    exact if_neg hflags
  refine ⟨_, hencode, fun chunks hchunks => ⟨message, ?_, h⟩⟩
  have hall : Wire.Chunks.encodeAll [sendControl m] = .ok chunks.flatten := by
    rw [Wire.Chunks.encodeAll, hencode, hchunks]
    exact congrArg Except.ok (List.append_nil _)
  have hreceive := receive_encodeAll (by simp [sendControl, plainHeader]) hall
  unfold messages
  rw [hreceive]
  exact congrArg (fun result => [result]) hinit

/-- A field that the phone reads is what was put under its name. -/
theorem field_puts {entries : List (String × Value)} {key : String}
    (hcanon : ∀ s, Ascii s → canon (literal s) = literal s) (hkeys : Keys (entries.map Prod.fst))
    (hkey : Ascii key) :
    field canon (leaves (puts entries)) key = (entries.lookup key).map leaf := by
  rw [field_leaves (fun entry hentry => ?_) (hcanon key hkey), find_puts hkeys hkey]
  obtain ⟨e, he, rfl⟩ := mem_puts hentry
  exact hcanon _ (hkeys.ascii _ (List.mem_map_of_mem he))

theorem ascii_codecName (codec : Codec) : Ascii (codecName codec) := by
  cases codec <;> decide

theorem length_codecName (codec : Codec) : (literal (codecName codec)).length = 4 := by
  cases codec <;> rfl

/-- The phone's codec for the PC's name of it. -/
theorem init_codecName (hcanon : ∀ s, Ascii s → canon (literal s) = literal s) (codec : Codec) :
    VideoCodec.init canon (literal (codecName codec)) =
      some (streamConfiguration { codec }).codec := by
  have hhevc : canon (literal "hevc") = literal "hevc" := hcanon _ (by decide)
  have hh264 : canon (literal "h264") = literal "h264" := hcanon _ (by decide)
  unfold VideoCodec.init
  cases codec with
  | hevc => simp [codecName, VideoCodec.rawValue, streamConfiguration]
  | h264 =>
    have hne : literal "h264" ≠ literal "hevc" := by decide
    simp [VideoCodec.rawValue, codecName, hhevc, hh264, hne, streamConfiguration]

section Fields
variable {config : StreamConfig} {extra : List (String × Value)}

/-- The configuration among the fields of a message. -/
theorem configuration_puts (hcanon : ∀ s, Ascii s → canon (literal s) = literal s)
    (hkeys : Keys ((putStreamConfig config ++ extra).map Prod.fst)) (hvalid : config.valid = true) :
    configuration canon (leaves (puts (putStreamConfig config ++ extra))) =
      some (streamConfiguration config) := by
  have hfield {key : String} (hkey : Ascii key) :=
    @field_puts canon (putStreamConfig config ++ extra) key hcanon hkeys hkey
  have hsound := (valid_iff config).mp hvalid
  have ⟨⟨_, _, hw, hh, _⟩, ⟨_, hfps⟩, _, hbitrate⟩ := hsound
  have hexactly {n : ℕ} (h : n ≤ 100000000) : exactly (.ofNat n) = some n := by
    have hnat : (UInt64.ofNat n).toNat = n :=
      UInt64.toNat_ofNat_of_lt' (h.trans_lt (by decide))
    unfold exactly
    rw [hnat, if_pos (h.trans (by decide))]
  obtain ⟨c, hc⟩ := (validated_iff (streamConfiguration config)).mpr hsound
  obtain rfl := validated_eq hc
  have hcodec : field canon (leaves (puts (putStreamConfig config ++ extra))) "codec" =
      some (.string (literal (codecName config.codec))) := hfield (by decide)
  have hwidth : field canon (leaves (puts (putStreamConfig config ++ extra))) "width" =
      some (.unsigned (.ofNat config.width)) := hfield (by decide)
  have hheight : field canon (leaves (puts (putStreamConfig config ++ extra))) "height" =
      some (.unsigned (.ofNat config.height)) := hfield (by decide)
  have hrate : field canon (leaves (puts (putStreamConfig config ++ extra))) "fps" =
      some (.unsigned (.ofNat config.fps)) := hfield (by decide)
  have hbits : field canon (leaves (puts (putStreamConfig config ++ extra))) "bitrate" =
      some (.unsigned (.ofNat config.bitrate)) := hfield (by decide)
  unfold configuration
  rw [hcodec, hwidth, hheight, hrate, hbits]
  simp only [Option.bind_eq_bind, Option.bind_some, stringValue, unsignedValue,
    init_codecName hcanon, hexactly (hw.trans (by decide)), hexactly (hh.trans (by decide)),
    hexactly (hfps.trans (by decide)), hexactly hbitrate]
  exact congrArg Except.toOption hc

/-- What the phone hears of a message with a configuration and at most one number. -/
theorem hears_config {type : String} (hcanon : ∀ s, Ascii s → canon (literal s) = literal s)
    (htype : Ascii type) (hshort : (literal type).length ≤ 10)
    (hkeys : Keys ("t" :: (putStreamConfig config ++ extra).map Prod.fst))
    (hcount : extra.length ≤ 1)
    (hextra : ∀ entry ∈ extra, (literal entry.1).length ≤ 10 ∧ ∃ v, entry.2 = .unsigned v) :
    Hears canon (makeMessage type (putStreamConfig config ++ extra)) fun message =>
      message = ⟨literal type, leaves (puts (putStreamConfig config ++ extra))⟩ := by
  have hname := length_codecName config.codec
  have hcodec : Cbor.Utf8.WellFormed (literal (codecName config.codec)) :=
    wellFormed_literal (ascii_codecName config.codec)
  have hnumber {key : String} (v : UInt64) (hkey : (literal key).length ≤ 10) :
      (literal key).length + (Cbor.Codec.encode (.unsigned v)).length ≤ 20 :=
    (Nat.add_le_add hkey (length_unsigned_le v)).trans (by decide)
  have hentries : ∀ entry ∈ putStreamConfig config ++ extra,
      (literal entry.1).length + (Cbor.Codec.encode entry.2).length ≤ 20 ∧
        IsLeaf entry.2 = true ∧ Carried 31 entry.2 := by
    refine List.forall_mem_append.mpr ⟨?_, fun entry hentry => ?_⟩
    · have htext : (literal "codec").length +
          (Cbor.Codec.encode (.text (literal (codecName config.codec)))).length ≤ 20 := by
        have hcodecKey : (literal "codec").length = 5 := rfl
        have := length_text_le (literal (codecName config.codec))
        omega
      simp only [putStreamConfig, List.forall_mem_cons]
      exact ⟨⟨htext, rfl, carried_text hcodec⟩, ⟨hnumber _ (by decide), rfl, carried_unsigned _⟩,
        ⟨hnumber _ (by decide), rfl, carried_unsigned _⟩,
        ⟨hnumber _ (by decide), rfl, carried_unsigned _⟩,
        ⟨hnumber _ (by decide), rfl, carried_unsigned _⟩, List.forall_mem_nil _⟩
    · obtain ⟨key, value⟩ := entry
      obtain ⟨hkey, v, rfl⟩ := hextra _ hentry
      exact ⟨hnumber v hkey, rfl, carried_unsigned _⟩
  have hlen : (putStreamConfig config ++ extra).length ≤ 6 := by
    rw [List.length_append]
    exact Nat.add_le_add_left hcount 5
  have hsize := @length_makeMessage_le (putStreamConfig config ++ extra) type 20 (by omega)
    fun entry hentry => (hentries entry hentry).1
  have hfits : (Message.encode (makeMessage type (putStreamConfig config ++ extra))).length ≤
      kMaxPayloadBytes := by
    have hmax : kMaxPayloadBytes = 1048576 := rfl
    omega
  have hinit := init_encode hcanon htype hkeys (hlen.trans_lt (by decide))
    (fun entry hentry => (hentries entry hentry).2.1)
    (fun entry hentry => (hentries entry hentry).2.2) hfits
  exact hears_of_init hfits hinit rfl

end Fields

end Crossing

/-- **A format crosses.** The two checks accept the same numbers; and of an accepted configuration
the phone hears `ready` and `set_format` with that configuration and generation. The canonical form
of seven-bit text is the text. -/
theorem configuration_crosses {canon : Bytes → Bytes}
    (hcanon : ∀ s, Ascii s → canon (literal s) = literal s) (config : StreamConfig) :
    (config.valid = true ↔ ∃ c, (streamConfiguration config).validated = .ok c) ∧
    (config.valid = true →
      (Hears canon (ready config) fun message => message.type = literal "ready" ∧
        configuration canon message.fields = some (streamConfiguration config)) ∧
      ∀ generation : UInt64, Hears canon (setFormat config generation) fun message =>
        message.type = literal "set_format" ∧
          configuration canon message.fields = some (streamConfiguration config) ∧
          formatGeneration canon message.fields = some generation) := by
  refine ⟨(valid_iff config).trans (validated_iff (streamConfiguration config)).symm,
    fun hvalid => ⟨?_, fun generation => ?_⟩⟩
  · have hkeys : Keys ["t", "codec", "width", "height", "fps", "bitrate"] := by decide
    have hfields : Keys ["codec", "width", "height", "fps", "bitrate"] := by decide
    refine (@hears_config canon config [] "ready" hcanon (by decide) (by decide) hkeys
      (Nat.zero_le _) (List.forall_mem_nil _)).imp ?_
    rintro message rfl
    exact ⟨rfl, configuration_puts hcanon hfields hvalid⟩
  · have hkeys : Keys ["t", "codec", "width", "height", "fps", "bitrate", "generation"] := by decide
    have hfields : Keys ["codec", "width", "height", "fps", "bitrate", "generation"] := by decide
    have hshort : (literal "generation").length ≤ 10 := by decide
    have hextra : ∀ entry ∈ [("generation", Value.unsigned generation)],
        (literal entry.1).length ≤ 10 ∧ ∃ v, entry.2 = .unsigned v :=
      List.forall_mem_singleton.mpr ⟨hshort, generation, rfl⟩
    refine (@hears_config canon config [("generation", .unsigned generation)] "set_format" hcanon
      (by decide) (by decide) hkeys le_rfl hextra).imp ?_
    rintro message rfl
    refine ⟨rfl, configuration_puts hcanon hfields hvalid, ?_⟩
    have hfield := @field_puts canon
      (putStreamConfig config ++ [("generation", Value.unsigned generation)]) "generation" hcanon
      hfields (by decide)
    exact congrArg (Option.bind · unsignedValue) hfield

/-- The conservative default, of a phone whose strings are in canonical form as they are. -/
theorem configuration_crosses_default :
    (Hears id (ready {}) fun message => message.type = literal "ready" ∧
      configuration id message.fields = some (streamConfiguration {})) ∧
    ∀ generation : UInt64, Hears id (setFormat {} generation) fun message =>
      message.type = literal "set_format" ∧
        configuration id message.fields = some (streamConfiguration {}) ∧
        formatGeneration id message.fields = some generation :=
  (configuration_crosses (fun _ _ => rfl) {}).2 (by decide)

end RemoteCam.Control.StreamFormats
