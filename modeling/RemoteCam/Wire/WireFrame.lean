import RemoteCam.Wire.Chunks

/-! # The phone's decoder

`WireFrameDecoder` is the decoder of `Wire.Codec` written once more for the phone. It knows two more
errors, a fragment and a keyframe flag outside the video channel, and an `append` that throws hands
out nothing: the frames completed in the same call are lost. `received_spec`: on a stream without
those flags this is the whole difference. -/

namespace RemoteCam.Wire.WireFrame

open RemoteCam.Lib RemoteCam.Lib.Framing RemoteCam.Wire.Codec RemoteCam.Wire.Chunks

inductive WireFrameError where
  | payloadTooLarge
  | reservedFlagsSet
  | reservedHeaderNonZero
  | fragmentationUnsupported
  | invalidChannelFlags
  deriving DecidableEq, Repr

def video : UInt8 := 1

/-- One round of the loop of `append`, on the bytes from the read offset on. -/
def judge (bytes : List UInt8) : Verdict Frame WireFrameError :=
  if bytes.length < kHeaderBytes then .more
  else
    let payloadLength := BigEndian.read (bytes.take 4)
    let flags := bytes.getD 5 0
    if payloadLength > kMaxPayloadBytes then .bad .payloadTooLarge
    else if flags &&& ~~~kKnownMask != 0 then .bad .reservedFlagsSet
    else if flags &&& kEndOfFragment != 0 then .bad .fragmentationUnsupported
    else if flags &&& kKeyframe != 0 && bytes.getD 4 0 != video then .bad .invalidChannelFlags
    else if bytes.getD 6 0 != 0 || bytes.getD 7 0 != 0 then .bad .reservedHeaderNonZero
    else if bytes.length < kHeaderBytes + payloadLength then .more
    else
      .item
        { channel := bytes.getD 4 0
          flags
          ptsMicros := .ofNat (BigEndian.read ((bytes.drop 8).take 8))
          payload := (bytes.drop kHeaderBytes).take payloadLength }
        (kHeaderBytes + payloadLength)

structure WireFrameDecoder where
  buffer : List UInt8 := []
  readOffset : ℕ := 0
  deriving DecidableEq, Repr

theorem judge_item {bs : List UInt8} {f : Frame} {n : ℕ} (h : judge bs = .item f n) :
    n = kHeaderBytes + BigEndian.read (bs.take 4) ∧ n ≤ bs.length := by
  unfold judge at h
  dsimp only at h
  split_ifs at h
  obtain ⟨-, rfl⟩ := Verdict.item.inj h
  exact ⟨rfl, by omega⟩

/-- The loop of `append`: what it throws, the frames completed until then and the read offset. -/
def loop (buffer : List UInt8) (readOffset : ℕ) : Option WireFrameError × List Frame × ℕ :=
  match _h : judge (buffer.drop readOffset) with
  | .more => (none, [], readOffset)
  | .bad e => (some e, [], readOffset)
  | .item frame n =>
    let (e, frames, offset) := loop buffer (readOffset + n)
    (e, frame :: frames, offset)
termination_by buffer.length - readOffset
decreasing_by
  obtain ⟨h1, h2⟩ := judge_item _h
  have : 0 < n := by rw [h1]; unfold kHeaderBytes; omega
  rw [List.length_drop] at h2
  omega

/-- **One chunk**: the frames that completed, or what is thrown; a throw leaves the buffer as the
loop has left it. -/
def WireFrameDecoder.append (d : WireFrameDecoder) (bytes : List UInt8) :
    Except WireFrameError (List Frame) × WireFrameDecoder :=
  let buffer := d.buffer ++ bytes
  match loop buffer d.readOffset with
  | (some e, _, readOffset) => (.error e, ⟨buffer, readOffset⟩)
  | (none, frames, readOffset) =>
    let (buffer, readOffset) := compact buffer readOffset
    (.ok frames, ⟨buffer, readOffset⟩)

/-- `receive` on one chunk after the other, until an `append` throws: the frames handed out and the
error. -/
def WireFrameDecoder.receive (d : WireFrameDecoder) :
    List (List UInt8) → List Frame × Option WireFrameError
  | [] => ([], none)
  | chunk :: chunks =>
    match d.append chunk with
    | (.error e, _) => ([], some e)
    | (.ok completed, d) =>
      let (frames, e) := d.receive chunks
      (completed ++ frames, e)

/-! ### Streams without the two flags -/

/-- Channel and flags of every header that a decoder meets in the stream. -/
def headers (bs : List UInt8) : List (UInt8 × UInt8) :=
  if bs.length < kHeaderBytes then []
  else
    (bs.getD 4 0, bs.getD 5 0) ::
      match _h : examine bs with
      | .item _ n => headers (bs.drop n)
      | _ => []
termination_by bs.length
decreasing_by
  obtain ⟨h1, h2⟩ := examine_item _h
  have : 0 < n := by rw [h1]; unfold kHeaderBytes; omega
  rw [List.length_drop]
  omega

/-- No end of a fragment, and no keyframe outside the video channel. -/
def plainHeader (h : UInt8 × UInt8) : Bool :=
  h.2 &&& kEndOfFragment == 0 && (h.2 &&& kKeyframe == 0 || h.1 == video)

def Plain (bs : List UInt8) : Prop := ∀ h ∈ headers bs, plainHeader h

instance (bs : List UInt8) : Decidable (Plain bs) :=
  List.decidableBAll (fun h => plainHeader h) (headers bs)

/-- The error of this decoder for an error of the other one. -/
def counterpart : Error → Option WireFrameError
  | .none => none
  | .payloadTooLarge => some .payloadTooLarge
  | .reservedFlagsSet => some .reservedFlagsSet
  | .reservedHeaderNonZero => some .reservedHeaderNonZero

def translate : Verdict Frame Error → Verdict Frame WireFrameError
  | .more => .more
  | .item f n => .item f n
  | .bad e =>
    match counterpart e with
    | some e => .bad e
    | none => .more

/-- The frames that the other decoder completes in the call that meets an error. -/
def completedLast (d : Decoder) : List (List UInt8) → List Frame
  | [] => []
  | chunk :: chunks =>
    let (e, completed, d) := d.append chunk
    if e = .none then completedLast d chunks else completed

/-! ### One round -/

theorem headers_of_length {bs : List UInt8} (h : kHeaderBytes ≤ bs.length) :
    headers bs = (bs.getD 4 0, bs.getD 5 0) ::
      match examine bs with
      | .item _ n => headers (bs.drop n)
      | _ => [] := by
  rw [headers, if_neg (by omega)]
  congr 1
  split <;> simp_all

theorem headers_short {bs : List UInt8} (h : bs.length < kHeaderBytes) : headers bs = [] := by
  rw [headers, if_pos h]

/-- What is cut off had a whole header. -/
theorem length_of_examine {bs : List UInt8} (h : examine bs ≠ .more) :
    kHeaderBytes ≤ bs.length := by
  by_contra hlt
  exact h (by rw [examine, if_pos (by omega)])

theorem headers_item {bs : List UInt8} {f : Frame} {n : ℕ} (h : examine bs = .item f n) :
    headers bs = (bs.getD 4 0, bs.getD 5 0) :: headers (bs.drop n) := by
  rw [headers_of_length (length_of_examine (by simp [h])), h]

/-- More of the stream shows more headers. -/
theorem headers_append (xs ys : List UInt8) : headers xs <+: headers (xs ++ ys) := by
  by_cases hlen : kHeaderBytes ≤ xs.length
  · have hlen' : kHeaderBytes ≤ (xs ++ ys).length := by
      rw [List.length_append]
      omega
    have hk : kHeaderBytes = 16 := rfl
    cases hx : examine xs with
    | item f n =>
      obtain ⟨hn, hle⟩ := examine_item hx
      have hy : examine (xs ++ ys) = .item f n := by
        rw [examine_append (by simp [hx]), hx]
      rw [headers_item hx, headers_item hy, List.drop_append_of_le_length hle,
        getD_append (by omega), getD_append (by omega)]
      exact List.cons_prefix_cons.mpr ⟨rfl, headers_append (xs.drop n) ys⟩
    | _ =>
      rw [headers_of_length hlen, headers_of_length hlen', hx, getD_append (by omega),
        getD_append (by omega)]
      exact List.cons_prefix_cons.mpr ⟨rfl, List.nil_prefix⟩
  · rw [headers_short (by omega)]
    exact List.nil_prefix
termination_by xs.length
decreasing_by
  have hk : kHeaderBytes = 16 := rfl
  rw [List.length_drop]
  omega

theorem Plain.of_append {xs ys : List UInt8} (h : Plain (xs ++ ys)) : Plain xs :=
  fun hd hhd => h hd ((headers_append xs ys).subset hhd)

/-- The stream after an item. -/
theorem Plain.drop {xs ys : List UInt8} {f : Frame} {n : ℕ} (hx : examine xs = .item f n)
    (h : Plain (xs ++ ys)) : Plain (xs.drop n ++ ys) := by
  have hy : examine (xs ++ ys) = .item f n := by
    rw [examine_append (by simp [hx]), hx]
  intro hd hhd
  refine h hd ?_
  rw [headers_item hy, List.drop_append_of_le_length (examine_item hx).2]
  exact List.mem_cons_of_mem _ hhd

/-- **Both decoders judge a plain header alike.** -/
theorem judge_of_plain {bs : List UInt8} (h : Plain bs) : judge bs = translate (examine bs) := by
  by_cases hlen : bs.length < kHeaderBytes
  · rw [judge, if_pos hlen, examine, if_pos hlen]
    rfl
  · have hfirst : plainHeader (bs.getD 4 0, bs.getD 5 0) := by
      refine h _ ?_
      rw [headers_of_length (by omega)]
      exact List.mem_cons_self
    simp only [plainHeader, Bool.and_eq_true, Bool.or_eq_true, beq_iff_eq] at hfirst
    obtain ⟨hend, hkey⟩ := hfirst
    have hend' : ¬ (bs.getD 5 0 &&& kEndOfFragment != 0) = true := by
      rw [hend]
      decide
    have hkey' : ¬ (bs.getD 5 0 &&& kKeyframe != 0 && bs.getD 4 0 != video) = true := by
      simp only [Bool.and_eq_true, bne_iff_ne]
      tauto
    simp only [judge, examine, if_neg hlen, if_neg hend', if_neg hkey']
    split_ifs
    · rfl
    · rfl
    · rfl
    · rfl
    · omega
    · omega
    · rfl

/-- The loops hand out the same frames, and what is left of the stream is plain again. -/
theorem loop_of_plain (buffer ys : List UInt8) (off : ℕ) (h : Plain (buffer.drop off ++ ys)) :
    loop buffer off = (counterpart (scan buffer off).1, (scan buffer off).2) ∧
      Plain (buffer.drop (scan buffer off).2.2 ++ ys) := by
  have hjudge := judge_of_plain h.of_append
  fun_induction scan buffer off with
  | case1 off hx =>
    rw [hx] at hjudge
    refine ⟨?_, h⟩
    rw [loop]
    split <;> simp_all [translate, counterpart]
  | case2 off e hx =>
    rw [hx] at hjudge
    refine ⟨?_, h⟩
    rw [loop]
    have := examine_bad hx
    cases e <;> split <;> simp_all [translate, counterpart]
  | case3 off frame n hx e frames offset heq ih =>
    rw [hx] at hjudge
    have hrest := h.drop hx
    rw [List.drop_drop] at hrest
    obtain ⟨h1, h2⟩ := ih hrest (judge_of_plain hrest.of_append)
    rw [heq] at h1 h2
    refine ⟨?_, h2⟩
    rw [loop]
    split <;> simp_all [translate]

/-! ### A stream in chunks -/

/-- One chunk for two decoders with the same buffer: the call fails in both, or hands out the same
frames and leaves the same buffer. -/
theorem append_of_plain {c : Decoder} {chunk ys : List UInt8} (hc : Sound c)
    (hfailed : c.failed = false)
    (h : Plain (c.buffer.drop c.readOffset ++ (chunk ++ ys))) :
    ((c.append chunk).1 = .none →
      (⟨c.buffer, c.readOffset⟩ : WireFrameDecoder).append chunk =
        (.ok (c.append chunk).2.1,
          ⟨(c.append chunk).2.2.buffer, (c.append chunk).2.2.readOffset⟩) ∧
      (c.append chunk).2.2.failed = false ∧
      Plain ((c.append chunk).2.2.buffer.drop (c.append chunk).2.2.readOffset ++ ys)) ∧
    ((c.append chunk).1 ≠ .none →
      (c.append chunk).2.2.failed ∧
      ∃ e, counterpart (c.append chunk).1 = some e ∧
        ((⟨c.buffer, c.readOffset⟩ : WireFrameDecoder).append chunk).1 = .error e) := by
  have hdrop : c.buffer.drop c.readOffset ++ (chunk ++ ys) =
      (c.buffer ++ chunk).drop c.readOffset ++ ys := by
    rw [List.drop_append_of_le_length hc.offset, List.append_assoc]
  rw [hdrop] at h
  obtain ⟨hloop, hplain⟩ := loop_of_plain (c.buffer ++ chunk) ys c.readOffset h
  simp only [Decoder.append, hfailed, WireFrameDecoder.append, hloop, Bool.false_eq_true, if_false]
  generalize scan (c.buffer ++ chunk) c.readOffset = r at hplain ⊢
  obtain ⟨e, completed, off⟩ := r
  by_cases he : e = .none
  · subst he
    refine ⟨fun _ => ⟨rfl, rfl, ?_⟩, fun hne => absurd rfl hne⟩
    simp only [if_true]
    rwa [drop_compact]
  · simp only [if_neg he]
    refine ⟨fun h => absurd h he, fun _ => ⟨trivial, ?_⟩⟩
    cases e
    · exact absurd rfl he
    · exact ⟨_, rfl, rfl⟩
    · exact ⟨_, rfl, rfl⟩
    · exact ⟨_, rfl, rfl⟩

/-- The frames handed out before come first. -/
theorem foldl_feedStep (chunks : List (List UInt8)) :
    ∀ (e : Error) (fs : List Frame) (c : Decoder),
      chunks.foldl feedStep (e, fs, c) =
        ((chunks.foldl feedStep (e, [], c)).1, fs ++ (chunks.foldl feedStep (e, [], c)).2.1,
          (chunks.foldl feedStep (e, [], c)).2.2) := by
  induction chunks with
  | nil =>
    intro e fs c
    simp
  | cons chunk chunks ih =>
    intro e fs c
    simp only [List.foldl_cons, feedStep, List.nil_append]
    rw [ih _ (fs ++ _), ih _ (c.append chunk).2.1, List.append_assoc]

/-- A failed decoder stays as it is. -/
theorem feed_failed {c : Decoder} (h : c.failed) (fs : List Frame) (chunks : List (List UInt8)) :
    chunks.foldl feedStep (c.failure, fs, c) = (c.failure, fs, c) := by
  induction chunks with
  | nil => rfl
  | cons chunk chunks ih =>
    have happend : c.append chunk = (c.failure, [], c) := by rw [Decoder.append, if_pos h]
    rw [List.foldl_cons, feedStep, happend]
    simpa using ih

/-- **The phone's decoder on a plain stream.** It throws in the call in which the other decoder
fails, for the same reason, and hands out all frames of that decoder but the ones completed in this
call. -/
theorem receive_of_plain (chunks : List (List UInt8)) :
    ∀ c : Decoder, Sound c → c.failed = false →
      Plain (c.buffer.drop c.readOffset ++ chunks.flatten) →
      (c.feed chunks).2.1 =
        ((⟨c.buffer, c.readOffset⟩ : WireFrameDecoder).receive chunks).1 ++ completedLast c chunks ∧
      ((⟨c.buffer, c.readOffset⟩ : WireFrameDecoder).receive chunks).2 =
        counterpart (c.feed chunks).1 ∧
      (counterpart (c.feed chunks).1 = none → completedLast c chunks = []) := by
  induction chunks with
  | nil =>
    intro c hc hfailed h
    exact ⟨rfl, rfl, fun _ => rfl⟩
  | cons chunk chunks ih =>
    intro c hc hfailed h
    rw [List.flatten_cons] at h
    obtain ⟨hok, hbad⟩ := append_of_plain hc hfailed h
    obtain ⟨hsound, hfailure, -⟩ := parsed_append hc [] chunk
    have hfeed : c.feed (chunk :: chunks) = chunks.foldl feedStep (c.append chunk) := rfl
    rw [hfeed, WireFrameDecoder.receive, completedLast]
    generalize c.append chunk = r at hok hbad hsound hfailure ⊢
    obtain ⟨e, completed, c'⟩ := r
    dsimp only at hok hbad hsound hfailure ⊢
    by_cases he : e = .none
    · obtain ⟨happend, hfailed', hplain⟩ := hok he
      obtain ⟨hframes, herror, hnone⟩ := ih c' hsound hfailed' hplain
      have hrest : chunks.foldl feedStep (.none, [], c') = c'.feed chunks := rfl
      rw [if_pos he, he, foldl_feedStep, hrest, happend]
      dsimp only
      rw [List.append_assoc, ← hframes]
      exact ⟨rfl, herror, hnone⟩
    · obtain ⟨hfailed', e', he', hthrow⟩ := hbad he
      rw [if_neg he, hfailure, feed_failed hfailed', ← hfailure]
      generalize (⟨c.buffer, c.readOffset⟩ : WireFrameDecoder).append chunk = r at hthrow ⊢
      obtain ⟨result, d⟩ := r
      dsimp only at hthrow
      subst hthrow
      exact ⟨rfl, he'.symm, fun hnone => by rw [he'] at hnone; cases hnone⟩

theorem plain_encodeAll {fs : List Frame} (h : ∀ f ∈ fs, plainHeader (f.channel, f.flags)) :
    ∀ {bytes : List UInt8}, encodeAll fs = .ok bytes → Plain bytes := by
  induction fs with
  | nil =>
    rintro bytes hbytes
    obtain rfl := Except.ok.inj hbytes
    exact fun hd hhd => by simp [headers_short (show [].length < kHeaderBytes by decide)] at hhd
  | cons f fs ih =>
    intro bytes hbytes
    obtain ⟨hf, hrest⟩ := List.forall_mem_cons.mp h
    rcases hb : encode f with e | b <;> rw [encodeAll, hb] at hbytes
    · cases hbytes
    rcases hr : encodeAll fs with e | r <;> rw [hr] at hbytes
    · cases hbytes
    obtain rfl := Except.ok.inj hbytes
    have hitem : examine (b ++ r) = .item f b.length := by
      rw [examine_append (by simp [examine_encode hb]), examine_encode hb]
    obtain ⟨-, -, rfl⟩ := encode_ok hb
    rintro hd hhd
    rw [headers_item hitem, List.drop_left] at hhd
    rcases List.mem_cons.mp hhd with rfl | hhd
    · exact hf
    · exact ih hrest hr hd hhd

/-- **Frames that are sent are received**, however the stream is cut. -/
theorem receive_encodeAll {fs : List Frame} {chunks : List (List UInt8)}
    (h : ∀ f ∈ fs, plainHeader (f.channel, f.flags)) (hbytes : encodeAll fs = .ok chunks.flatten) :
    ({} : WireFrameDecoder).receive chunks = (fs, none) := by
  have hplain : Plain chunks.flatten := plain_encodeAll h hbytes
  obtain ⟨hframes, herror, hnone⟩ := receive_of_plain chunks {} sound_init rfl (by simpa using hplain)
  obtain ⟨houtputs, -, hresult, -⟩ := feed_result (rfl : ({} : Decoder).feed chunks = _)
  rw [parse_encodeAll fs hbytes] at houtputs hresult
  have hnone' : counterpart (({} : Decoder).feed chunks).1 = none := congrArg counterpart hresult
  rw [hnone hnone', List.append_nil] at hframes
  exact Prod.ext (hframes.symm.trans houtputs) (herror.trans hnone')

/-- **The phone's decoder hands out what the other one does**, on every plain stream in any chunks:
it throws in the call in which the other one fails, for the same reason, and loses the frames that
were completed in that call. Without an error it hands out what the other decoder finds in the whole
stream. -/
theorem receive_of_stream (chunks : List (List UInt8)) (h : Plain chunks.flatten) :
    let (frames, error) := ({} : WireFrameDecoder).receive chunks
    let (e, outputs, _) := ({} : Decoder).feed chunks
    outputs = frames ++ completedLast {} chunks ∧ error = counterpart e ∧
      (error = none → frames = (({} : Decoder).append chunks.flatten).2.1) := by
  obtain ⟨hframes, herror, hnone⟩ := receive_of_plain chunks {} sound_init rfl (by simpa using h)
  have hwhole : (({} : Decoder).append chunks.flatten).2.1 = (({} : Decoder).feed chunks).2.1 := by
    have hone := (@feed_result [chunks.flatten] _ _ _ rfl).1
    have hall := (@feed_result chunks _ _ _ rfl).1
    rw [List.flatten_singleton] at hone
    rw [append_eq_feed]
    exact hone.trans hall.symm
  refine ⟨hframes, herror, fun hn => ?_⟩
  have hn' : completedLast {} chunks = [] := hnone (herror.symm.trans hn)
  rw [hwhole, hframes, hn', List.append_nil]

/-- An empty control frame, and a header with a reserved byte. -/
def emptyFrame : List UInt8 := List.replicate 16 0

def brokenHeader : List UInt8 := emptyFrame.set 6 1

/-- The second frame is completed in the call that meets the broken header. -/
theorem receive_of_brokenStream :
    let chunks := [emptyFrame, emptyFrame ++ brokenHeader]
    let (frames, error) := ({} : WireFrameDecoder).receive chunks
    let (e, outputs, _) := ({} : Decoder).feed chunks
    outputs = frames ++ completedLast {} chunks ∧ error = counterpart e ∧
      (error = none → frames = (({} : Decoder).append chunks.flatten).2.1) :=
  receive_of_stream [emptyFrame, emptyFrame ++ brokenHeader] (by decide +kernel)

theorem receive_ne_feed :
    ∃ chunks chunks' : List (List UInt8), chunks.flatten = chunks'.flatten ∧
      Plain chunks.flatten ∧
      (({} : WireFrameDecoder).receive chunks).1 ≠ (({} : Decoder).feed chunks).2.1 ∧
      (({} : WireFrameDecoder).receive chunks).1 ≠ (({} : WireFrameDecoder).receive chunks').1 :=
  ⟨[emptyFrame ++ brokenHeader], [emptyFrame, brokenHeader], by decide +kernel, by decide +kernel,
    by decide +kernel, by decide +kernel⟩

end RemoteCam.Wire.WireFrame
