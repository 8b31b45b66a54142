import RemoteCam.Wire.Codec

/-! # The decoder does not see chunk boundaries

`wire` is `examine` as a `Splitter`. A decoder with the frames it has handed out stands for a state
of the splitter (`Decoder.parsed`), and one `append` is one `push` (`parsed_append`); compaction
moves bytes but not the part from the read offset on. -/

namespace RemoteCam.Wire.Chunks

open RemoteCam.Lib RemoteCam.Lib.Framing RemoteCam.Wire.Codec

/-! ### Verdicts are stable -/

theorem getD_append {bs : List UInt8} {i : ℕ} (h : i < bs.length) (ys : List UInt8) :
    (bs ++ ys).getD i 0 = bs.getD i 0 := by
  simp [List.getD_eq_getElem?_getD, List.getElem?_append_left h]

/-- A verdict other than *more* is not changed by what arrives later. -/
theorem examine_append {bs : List UInt8} (h : examine bs ≠ .more) (ys : List UInt8) :
    examine (bs ++ ys) = examine bs := by
  have h16 : ¬ bs.length < kHeaderBytes := fun hlt => h (by unfold examine; rw [if_pos hlt])
  have hk : kHeaderBytes = 16 := rfl
  have h4 : (bs ++ ys).take 4 = bs.take 4 := List.take_append_of_le_length (by omega)
  have h8 : ((bs ++ ys).drop 8).take 8 = (bs.drop 8).take 8 := by
    rw [List.drop_append_of_le_length (by omega),
      List.take_append_of_le_length (by rw [List.length_drop]; omega)]
  have hlen : (bs ++ ys).length = bs.length + ys.length := List.length_append
  unfold examine at h ⊢
  rw [if_neg h16] at h ⊢
  rw [if_neg (by omega), h4, h8, getD_append (by omega), getD_append (by omega),
    getD_append (by omega), getD_append (by omega), hlen]
  dsimp only at h ⊢
  split_ifs at h ⊢ with h1 h2 h3 h5 h6
  · rfl
  · rfl
  · rfl
  · exact absurd rfl h
  · omega
  · exact absurd rfl h
  · rw [List.drop_append_of_le_length (by omega),
      List.take_append_of_le_length (by rw [List.length_drop]; omega)]

theorem examine_bad {bs : List UInt8} {e : Error} (h : examine bs = .bad e) : e ≠ .none := by
  unfold examine at h
  dsimp only at h
  split_ifs at h
  all_goals
    obtain rfl := Verdict.bad.inj h
    decide

/-- **The wire format as a splitter.** -/
def wire : Splitter UInt8 Frame Error where
  next := examine
  next_nil := rfl
  pos h := by rw [(examine_item h).1]; unfold kHeaderBytes; omega
  le h := (examine_item h).2
  item_append ys h := by rw [examine_append (by rw [h]; nofun), h]
  bad_append ys h := by rw [examine_append (by rw [h]; nofun), h]

/-! ### One append is one push -/

/-- The splitter's state a decoder stands for, after it has handed out `frames`. -/
def parsed (d : Decoder) (frames : List Frame) : Parsed UInt8 Frame Error where
  items := frames
  error := if d.failed then some d.failure else none
  rest := d.buffer.drop d.readOffset

/-- The loop of `append` parses the bytes from the read offset on. -/
theorem scan_parse (buffer : List UInt8) (off : ℕ) :
    (scan buffer off).2.1 = (wire.parse (buffer.drop off)).items ∧
      (wire.parse (buffer.drop off)).error =
        (if (scan buffer off).1 = .none then none else some (scan buffer off).1) ∧
      buffer.drop (scan buffer off).2.2 = (wire.parse (buffer.drop off)).rest ∧
      (off ≤ buffer.length → (scan buffer off).2.2 ≤ buffer.length) := by
  fun_induction scan buffer off with
  | case1 off h =>
    rw [Splitter.parse_more (S := wire) h]
    exact ⟨rfl, rfl, rfl, id⟩
  | case2 off e h =>
    rw [Splitter.parse_bad (S := wire) h]
    exact ⟨rfl, by simp [examine_bad h], rfl, id⟩
  | case3 off frame n h e frames offset heq ih =>
    have hle := (examine_item h).2
    rw [List.length_drop] at hle
    rw [heq, ← List.drop_drop] at ih
    obtain ⟨h1, h2, h3, h4⟩ := ih
    rw [Splitter.parse_item (S := wire) h]
    exact ⟨by rw [← h1], h2, h3, fun hoff => h4 (by omega)⟩

theorem drop_compact (buffer : List UInt8) (off : ℕ) :
    (compact buffer off).1.drop (compact buffer off).2 = buffer.drop off := by
  unfold compact
  split_ifs with h1 h2
  · rw [h1]; simp
  · rfl
  · rfl

theorem compact_le {buffer : List UInt8} {off : ℕ} (h : off ≤ buffer.length) :
    (compact buffer off).2 ≤ (compact buffer off).1.length := by
  unfold compact
  split_ifs <;> simp [h]

/-- The read offset is inside the buffer, and only a failed decoder has a cause of failure. -/
structure Sound (d : Decoder) : Prop where
  offset : d.readOffset ≤ d.buffer.length
  failure : d.failed = false → d.failure = .none

theorem sound_init : Sound {} := ⟨Nat.le_refl _, fun _ => rfl⟩

/-- **One append is one push**, and it reports the cause the decoder keeps. -/
theorem parsed_append {d : Decoder} (hd : Sound d) (frames : List Frame) (data : List UInt8) :
    Sound (d.append data).2.2 ∧ (d.append data).1 = (d.append data).2.2.failure ∧
      parsed (d.append data).2.2 (frames ++ (d.append data).2.1) =
        wire.push (parsed d frames) data := by
  unfold Decoder.append
  by_cases hf : d.failed
  · rw [if_pos hf]
    have he : (parsed d frames).error = some d.failure := by simp [parsed, hf]
    rw [Splitter.push_error he, List.append_nil]
    exact ⟨hd, rfl, rfl⟩
  · have hf' : d.failed = false := by simpa using hf
    have he : (parsed d frames).error = none := by simp [parsed, hf]
    have hdrop : (parsed d frames).rest ++ data = (d.buffer ++ data).drop d.readOffset :=
      (List.drop_append_of_le_length hd.offset).symm
    obtain ⟨h1, h2, h3, h4⟩ := scan_parse (d.buffer ++ data) d.readOffset
    have hle := h4 (by rw [List.length_append]; exact Nat.le_add_right_of_le hd.offset)
    rw [if_neg hf, Splitter.push_none he, hdrop]
    dsimp only
    generalize scan (d.buffer ++ data) d.readOffset = r at h1 h2 h3 hle ⊢
    obtain ⟨e, completed, off⟩ := r
    dsimp only at h1 h2 h3 hle ⊢
    by_cases hn : e = .none
    · rw [if_pos hn] at h2 ⊢
      refine ⟨⟨compact_le hle, hd.failure⟩, (hd.failure hf').symm, ?_⟩
      ext1
      · rw [h1]; rfl
      · rw [h2]; simp [parsed, hf]
      · simp only [parsed, drop_compact]; exact h3
    · rw [if_neg hn] at h2 ⊢
      refine ⟨⟨hle, nofun⟩, rfl, ?_⟩
      ext1
      · rw [h1]; rfl
      · rw [h2]; rfl
      · exact h3

/-- A run of chunks is a run of pushes. -/
theorem parsed_foldl (chunks : List (List UInt8)) :
    ∀ acc : Error × List Frame × Decoder, Sound acc.2.2 → acc.1 = acc.2.2.failure →
      Sound (chunks.foldl feedStep acc).2.2 ∧
      (chunks.foldl feedStep acc).1 = (chunks.foldl feedStep acc).2.2.failure ∧
      parsed (chunks.foldl feedStep acc).2.2 (chunks.foldl feedStep acc).2.1 =
        chunks.foldl wire.push (parsed acc.2.2 acc.2.1) := by
  induction chunks with
  | nil => intro acc hd he; exact ⟨hd, he, rfl⟩
  | cons chunk chunks ih =>
    intro acc hd _
    obtain ⟨h1, h2, h3⟩ := parsed_append hd acc.2.1 chunk
    rw [List.foldl_cons, List.foldl_cons, ← h3]
    exact ih (feedStep acc chunk) h1 h2

/-- **What a fresh decoder reports** is what the splitter finds in the whole stream. -/
theorem feed_result {chunks : List (List UInt8)} {e : Error} {frames : List Frame} {d : Decoder}
    (h : ({} : Decoder).feed chunks = (e, frames, d)) :
    frames = (wire.parse chunks.flatten).items ∧
      d.failed = (wire.parse chunks.flatten).error.isSome ∧
      e = (wire.parse chunks.flatten).error.getD .none ∧
      (d.failed = false → d.buffered = (wire.parse chunks.flatten).rest.length) := by
  obtain ⟨h1, h2, h3⟩ := parsed_foldl chunks (.none, [], {}) sound_init rfl
  obtain ⟨hi, her, hr⟩ : (chunks.foldl wire.push {}).Agree _ := Splitter.foldl_push chunks
  change parsed (({} : Decoder).feed chunks).2.2 (({} : Decoder).feed chunks).2.1 =
    chunks.foldl wire.push {} at h3
  change Sound (({} : Decoder).feed chunks).2.2 at h1
  change (({} : Decoder).feed chunks).1 = (({} : Decoder).feed chunks).2.2.failure at h2
  rw [h] at h1 h2 h3
  dsimp only at h1 h2 h3
  rw [← h3] at hi her hr
  rw [← her] at hr ⊢
  refine ⟨hi, ?_, ?_, fun hf => ?_⟩
  · cases hf : d.failed <;> simp [parsed, hf]
  · rw [h2]
    cases hf : d.failed with
    | false => simp [parsed, hf, h1.failure hf]
    | true => simp [parsed, hf]
  · rw [← hr (by simp [parsed, hf])]
    simp [Decoder.buffered, parsed]

/-- The whole stream at once. -/
theorem append_eq_feed (stream : List UInt8) :
    ({} : Decoder).append stream = ({} : Decoder).feed [stream] := by
  simp [Decoder.feed, feedStep]

/-! ### Encoded frames -/

theorem length_header (f : Frame) : (header f).length = kHeaderBytes := by simp [header, kHeaderBytes]

/-- What `encode` accepts and writes. -/
theorem encode_ok {f : Frame} {bytes : List UInt8} (h : encode f = .ok bytes) :
    f.payload.length ≤ kMaxPayloadBytes ∧ (f.flags &&& ~~~kKnownMask != 0) = false ∧
      bytes = header f ++ f.payload := by
  unfold encode at h
  split_ifs at h with h1 h2
  exact ⟨not_lt.mp h1, by simpa using h2, (Except.ok.inj h).symm⟩

/-- **An encoded frame is one item**, whatever follows it. -/
theorem examine_encode {f : Frame} {bytes : List UInt8} (h : encode f = .ok bytes) :
    examine bytes = .item f bytes.length := by
  obtain ⟨hlen, hflags, rfl⟩ := encode_ok h
  have hmax : kMaxPayloadBytes < 256 ^ 4 := by decide
  have hsize : (header f ++ f.payload).length = kHeaderBytes + f.payload.length := by
    rw [List.length_append, length_header]
  have hdrop8 : (header f ++ f.payload).drop 8 =
      BigEndian.write 8 f.ptsMicros.toNat ++ f.payload := by
    simp only [header, BigEndian.write]; rfl
  have h4 : BigEndian.read ((header f ++ f.payload).take 4) = f.payload.length := by
    rw [header, List.append_assoc, List.append_assoc, List.take_left' (BigEndian.length_write 4 _),
      BigEndian.read_write (by omega)]
  have h8 : BigEndian.read (((header f ++ f.payload).drop 8).take 8) = f.ptsMicros.toNat := by
    rw [hdrop8, List.take_left' (BigEndian.length_write 8 _),
      BigEndian.read_write f.ptsMicros.toNat_lt]
  have hbody : (header f ++ f.payload).drop kHeaderBytes = f.payload :=
    List.drop_left' (length_header f)
  have hchannel : (header f ++ f.payload).getD 4 0 = f.channel := rfl
  have hflag : (header f ++ f.payload).getD 5 0 = f.flags := rfl
  have hr6 : (header f ++ f.payload).getD 6 0 = 0 := rfl
  have hr7 : (header f ++ f.payload).getD 7 0 = 0 := rfl
  unfold examine
  rw [if_neg (by omega), h4, h8, hbody, hchannel, hflag, hr6, hr7]
  dsimp only
  rw [if_neg (by omega), hflags, if_neg (by decide), if_neg (by decide), if_neg (by omega),
    List.take_length, UInt64.ofNat_toNat, hsize]

/-- The encodings of a list of frames, one after the other. -/
def encodeAll : List Frame → Except Error (List UInt8)
  | [] => .ok []
  | f :: fs => do
    let bytes ← encode f
    let rest ← encodeAll fs
    .ok (bytes ++ rest)

theorem parse_encodeAll (fs : List Frame) :
    ∀ {bytes : List UInt8}, encodeAll fs = .ok bytes → wire.parse bytes = { items := fs } := by
  induction fs with
  | nil =>
    intro bytes h
    obtain rfl := Except.ok.inj h
    exact Splitter.parse_more wire.next_nil
  | cons f fs ih =>
    intro bytes h
    rcases hf : encode f with e | b <;> rw [encodeAll, hf] at h
    · cases h
    rcases hr : encodeAll fs with e | r <;> rw [hr] at h
    · cases h
    obtain rfl := Except.ok.inj h
    rw [Splitter.parse_item_append (S := wire) (examine_encode hf), ih hr]

/-! ### The decoder and chunk boundaries -/

/-- **Chunk boundaries do not show.** A stream fed in any chunks yields the frames, the failure and
(unless it failed) the buffered count of the same stream fed in one append; and encoded frames fed
in any chunks come out as they were, with nothing left over. -/
theorem feed_eq_append :
    (∀ chunks : List (List UInt8),
      let (e, frames, d) := ({} : Decoder).feed chunks
      let (e', frames', d') := ({} : Decoder).append chunks.flatten
      frames = frames' ∧ d.failed = d'.failed ∧ e = e' ∧
        (d.failed = false → d.buffered = d'.buffered)) ∧
    ∀ (fs : List Frame) (bytes : List UInt8), encodeAll fs = .ok bytes →
      ∀ chunks : List (List UInt8), chunks.flatten = bytes →
        let (e, frames, d) := ({} : Decoder).feed chunks
        frames = fs ∧ d.failed = false ∧ e = .none ∧ d.buffered = 0 := by
  constructor
  · intro chunks
    rw [append_eq_feed]
    rcases h : ({} : Decoder).feed chunks with ⟨e, frames, d⟩
    rcases h' : ({} : Decoder).feed [chunks.flatten] with ⟨e', frames', d'⟩
    obtain ⟨h1, h2, h3, h4⟩ := feed_result h
    obtain ⟨h1', h2', h3', h4'⟩ := feed_result h'
    rw [List.flatten_singleton] at h1' h2' h3' h4'
    have hfailed : d.failed = d'.failed := h2.trans h2'.symm
    exact ⟨h1.trans h1'.symm, hfailed, h3.trans h3'.symm,
      fun hf => (h4 hf).trans (h4' (hfailed ▸ hf)).symm⟩
  · rintro fs bytes hbytes chunks rfl
    rcases h : ({} : Decoder).feed chunks with ⟨e, frames, d⟩
    obtain ⟨h1, h2, h3, h4⟩ := feed_result h
    rw [parse_encodeAll fs hbytes] at h1 h2 h3 h4
    exact ⟨h1, h2, h3, h4 h2⟩

/-- Two frames, the second with the flag of a keyframe. -/
def sampleFrames : List Frame :=
  [{ channel := 1, payload := [1, 2] },
    { channel := 2, flags := kKeyframe, ptsMicros := 258, payload := [7, 8, 9] }]

/-- Their encodings, cut inside the second frame's header. -/
def sampleChunks : List (List UInt8) :=
  [[0, 0, 0, 2, 1, 0, 0, 0, 0, 0, 0, 0, 0, 0, 0, 0, 1, 2, 0, 0],
    [0, 3, 2, 1, 0, 0, 0, 0, 0, 0, 0, 0, 1, 2, 7, 8, 9]]

theorem feed_eq_append_sample :
    encodeAll sampleFrames = .ok sampleChunks.flatten ∧
      let (e, frames, d) := ({} : Decoder).feed sampleChunks
      frames = sampleFrames ∧ d.failed = false ∧ e = .none ∧ d.buffered = 0 := by
  have h : encodeAll sampleFrames = .ok sampleChunks.flatten := by decide
  exact ⟨h, feed_eq_append.2 _ _ h _ rfl⟩

end RemoteCam.Wire.Chunks
