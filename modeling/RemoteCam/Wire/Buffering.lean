import RemoteCam.Wire.Chunks

/-! # What the decoder holds back

Between two calls `buffered()` is less than one frame of the largest size, and the consumed prefix
kept with it is no longer than the rest or 1 MiB (`bounded_of_feed`). A header that no frame may
have is reported by the call that completes it (`reported_of_feed`). -/

namespace RemoteCam.Wire.Buffering

open RemoteCam.Lib RemoteCam.Lib.Framing RemoteCam.Wire.Codec RemoteCam.Wire.Chunks

/-! ### After the loop -/

theorem length_of_more {bs : List UInt8} (h : examine bs = .more) :
    bs.length < kHeaderBytes + kMaxPayloadBytes := by
  unfold examine at h
  dsimp only at h
  have hmax : 0 < kMaxPayloadBytes := by decide
  split_ifs at h <;> omega

/-- The loop ends without an error where no whole frame is left. -/
theorem examine_of_scan (buffer : List UInt8) (off : ℕ) (h : (scan buffer off).1 = .none) :
    examine (buffer.drop (scan buffer off).2.2) = .more := by
  fun_induction scan buffer off with
  | case1 off hx => exact hx
  | case2 off e hx => exact absurd h (examine_bad hx)
  | case3 off frame n hx e frames offset heq ih =>
    rw [heq] at ih
    exact ih h

/-- What is left of the prefix is no longer than the rest, and below the threshold. -/
theorem prefix_of_compact {buffer : List UInt8} {off : ℕ} (h : off ≤ buffer.length) :
    (compact buffer off).2 ≤
      min ((compact buffer off).1.length - (compact buffer off).2) kCompactThreshold := by
  unfold compact
  split_ifs with hall hlong
  · exact Nat.zero_le _
  · exact Nat.zero_le _
  · dsimp only
    omega

/-- Less than one frame of the largest size, and a prefix within the bounds of compaction. -/
structure Bounded (d : Decoder) : Prop where
  buffered : d.buffered < kHeaderBytes + kMaxPayloadBytes
  physical : d.buffer.length ≤ d.buffered + min d.buffered kCompactThreshold

/-- **One append that reports no error.** -/
theorem bounded_append {d : Decoder} (hd : Sound d) (hfailed : d.failed = false)
    {data : List UInt8} (h : (d.append data).1 = .none) : Bounded (d.append data).2.2 := by
  have hoffset : d.readOffset ≤ (d.buffer ++ data).length := by
    rw [List.length_append]
    exact Nat.le_add_right_of_le hd.offset
  have hmore := examine_of_scan (d.buffer ++ data) d.readOffset
  have hle := (scan_parse (d.buffer ++ data) d.readOffset).2.2.2 hoffset
  unfold Decoder.append at h ⊢
  rw [hfailed, if_neg Bool.false_ne_true] at h ⊢
  dsimp only at h ⊢
  generalize scan (d.buffer ++ data) d.readOffset = r at h hmore hle ⊢
  obtain ⟨e, frames, off⟩ := r
  by_cases he : e = .none
  · rw [if_pos he]
    have hrest := drop_compact (d.buffer ++ data) off
    have hprefix := prefix_of_compact hle
    have hlength := compact_le hle
    refine ⟨?_, ?_⟩
    · have hlast := length_of_more (hmore he)
      rwa [← hrest, List.length_drop] at hlast
    · change (compact _ _).1.length ≤ ((compact _ _).1.length - (compact _ _).2) + _
      have hsplit := Nat.sub_add_cancel hlength
      exact hsplit.symm.le.trans (Nat.add_le_add_left hprefix _)
  · rw [if_neg he] at h
    exact absurd h he

/-! ### After any chunks -/

/-- `feed_result`, on the parts of what is reported. -/
theorem feed_parse (chunks : List (List UInt8)) :
    (({} : Decoder).feed chunks).2.1 = (wire.parse chunks.flatten).items ∧
      (({} : Decoder).feed chunks).2.2.failed = (wire.parse chunks.flatten).error.isSome ∧
      (({} : Decoder).feed chunks).1 = (wire.parse chunks.flatten).error.getD .none ∧
      ((({} : Decoder).feed chunks).2.2.failed = false →
        (({} : Decoder).feed chunks).2.2.buffered = (wire.parse chunks.flatten).rest.length) := by
  rcases h : ({} : Decoder).feed chunks with ⟨e, frames, d⟩
  exact feed_result h

/-- A broken stream has a cause. -/
theorem error_of_parse (bs : List UInt8) {e : Error} (h : (wire.parse bs).error = some e) :
    e ≠ .none := by
  fun_induction wire.parse bs with
  | case1 bs hx => cases h
  | case2 bs e' hx =>
    obtain rfl : e' = e := Option.some.inj h
    exact examine_bad hx
  | case3 bs f n hx p ih => exact ih h

theorem parse_of_feed {chunks : List (List UInt8)} (h : (({} : Decoder).feed chunks).1 = .none) :
    (wire.parse chunks.flatten).error = none := by
  obtain ⟨-, -, herror, -⟩ := feed_parse chunks
  rw [h] at herror
  cases he : (wire.parse chunks.flatten).error with
  | none => rfl
  | some e =>
    rw [he] at herror
    exact absurd herror.symm (error_of_parse _ he)

/-- **What is held** after any chunks, the last of which met no error. -/
theorem bounded_of_feed (chunks : List (List UInt8))
    (h : (({} : Decoder).feed chunks).1 = .none) : Bounded (({} : Decoder).feed chunks).2.2 := by
  rcases List.eq_nil_or_concat chunks with rfl | ⟨before, chunk, rfl⟩
  · exact ⟨by decide, Nat.zero_le _⟩
  · have hclean := parse_of_feed h
    have hbefore : (wire.parse before.flatten).error = none := by
      by_contra hbroken
      obtain ⟨e, he⟩ := Option.ne_none_iff_exists'.mp hbroken
      rw [List.concat_eq_append, List.flatten_append,
        (Splitter.parse_append_error he _).2] at hclean
      cases hclean
    obtain ⟨-, hfailed, -, -⟩ := feed_parse before
    rw [hbefore] at hfailed
    have hsound : Sound (({} : Decoder).feed before).2.2 :=
      (parsed_foldl before (.none, [], {}) sound_init rfl).1
    have hstep : ({} : Decoder).feed (before.concat chunk) =
        feedStep (({} : Decoder).feed before) chunk := by
      rw [Decoder.feed, List.concat_eq_append, List.foldl_concat]
      rfl
    rw [hstep] at h ⊢
    exact bounded_append hsound hfailed h

/-! ### Headers -/

/-- What the 16 bytes are refused for: length, then flags, then reserved bytes. -/
def headerError (header : List UInt8) : Error :=
  if BigEndian.read (header.take 4) > kMaxPayloadBytes then .payloadTooLarge
  else if header.getD 5 0 &&& ~~~kKnownMask ≠ 0 then .reservedFlagsSet
  else if header.getD 6 0 ≠ 0 ∨ header.getD 7 0 ≠ 0 then .reservedHeaderNonZero
  else .none

/-- The body does not matter. -/
theorem examine_of_headerError {header : List UInt8} (hlen : header.length = kHeaderBytes)
    (hbad : headerError header ≠ .none) (body : List UInt8) :
    examine (header ++ body) = .bad (headerError header) := by
  have hk : kHeaderBytes = 16 := rfl
  have hexamine : examine header = .bad (headerError header) := by
    unfold examine headerError at *
    rw [if_neg (by omega)]
    dsimp only
    split_ifs at hbad ⊢ with hsize hflags hreserved <;> simp_all
  rw [examine_append (by rw [hexamine]; nofun), hexamine]

/-- A stream that ends with a whole frame. -/
structure Complete (pre : List UInt8) : Prop where
  clean : (({} : Decoder).append pre).1 = .none
  whole : (({} : Decoder).append pre).2.2.buffered = 0

theorem parse_of_complete {pre : List UInt8} (h : Complete pre) :
    wire.parse pre = { items := (({} : Decoder).append pre).2.1 } := by
  obtain ⟨hclean, hwhole⟩ := h
  rw [append_eq_feed] at hclean hwhole ⊢
  have herror := parse_of_feed hclean
  obtain ⟨hframes, hfailed, -, hrest⟩ := feed_parse [pre]
  rw [List.flatten_singleton] at hframes hfailed hrest herror
  rw [herror] at hfailed
  rw [hwhole] at hrest
  ext1
  · exact hframes.symm
  · exact herror
  · exact List.eq_nil_of_length_eq_zero (hrest hfailed).symm

/-- **A refused header** after whole frames, in any chunks: nothing is reported before its last byte
is there, and the call that brings it reports the header, whatever of the body has come. -/
theorem reported_of_feed {pre header : List UInt8} (hpre : Complete pre)
    (hlen : header.length = kHeaderBytes) (hbad : headerError header ≠ .none)
    (chunks : List (List UInt8)) :
    (pre ++ header <+: chunks.flatten → (({} : Decoder).feed chunks).1 = headerError header ∧
        (({} : Decoder).feed chunks).2.1 = (({} : Decoder).append pre).2.1) ∧
      (chunks.flatten <+: pre ++ header → chunks.flatten ≠ pre ++ header →
        (({} : Decoder).feed chunks).1 = .none) := by
  have hparse := parse_of_complete hpre
  have hclean : (wire.parse pre).error = none := by rw [hparse]
  obtain ⟨hframes, -, herror, -⟩ := feed_parse chunks
  rw [hframes, herror]
  refine ⟨fun ⟨body, hbody⟩ => ?_, fun hprefix hne => ?_⟩
  · rw [← hbody, List.append_assoc, Splitter.parse_append hclean, hparse, List.nil_append,
      Splitter.parse_bad (S := wire) (examine_of_headerError hlen hbad body)]
    exact ⟨rfl, List.append_nil _⟩
  · suffices hnone : (wire.parse chunks.flatten).error = none by rw [hnone]; rfl
    rcases Nat.le_total chunks.flatten.length pre.length with hle | hle
    · obtain ⟨ys, hys⟩ :=
        List.prefix_of_prefix_length_le hprefix (List.prefix_append pre header) hle
      by_contra hbroken
      obtain ⟨e, he⟩ := Option.ne_none_iff_exists'.mp hbroken
      rw [← hys, (Splitter.parse_append_error he ys).2] at hclean
      cases hclean
    · obtain ⟨part, hpart⟩ :=
        List.prefix_of_prefix_length_le (List.prefix_append pre header) hprefix hle
      rw [← hpart] at hprefix hne ⊢
      obtain ⟨rest, hrest⟩ := (List.prefix_append_right_inj pre).mp hprefix
      have hshort : part.length < kHeaderBytes := by
        have hcount := congrArg List.length hrest
        rw [List.length_append, hlen] at hcount
        have hpos : rest ≠ [] := by
          rintro rfl
          rw [List.append_nil] at hrest
          exact hne (by rw [hrest])
        have := List.length_pos_of_ne_nil hpos
        omega
      have hmore : examine part = .more := by rw [examine, if_pos hshort]
      rw [Splitter.parse_append hclean, hparse, List.nil_append,
        Splitter.parse_more (S := wire) hmore]

/-! ### Bounds and diagnosis -/

/-- **What is held back, and what is not.** -/
theorem held_of_feed (chunks : List (List UInt8)) :
    ((({} : Decoder).feed chunks).1 = .none →
      (({} : Decoder).feed chunks).2.2.buffered < 16 + 16 * 1024 * 1024 ∧
        (({} : Decoder).feed chunks).2.2.buffer.length ≤
          (({} : Decoder).feed chunks).2.2.buffered +
            min (({} : Decoder).feed chunks).2.2.buffered (1024 * 1024)) ∧
      ∀ pre header : List UInt8, Complete pre → header.length = 16 →
        headerError header ≠ .none →
        (pre ++ header <+: chunks.flatten → (({} : Decoder).feed chunks).1 = headerError header ∧
            (({} : Decoder).feed chunks).2.1 = (({} : Decoder).append pre).2.1) ∧
          (chunks.flatten <+: pre ++ header → chunks.flatten ≠ pre ++ header →
            (({} : Decoder).feed chunks).1 = .none) :=
  ⟨fun h => ⟨(bounded_of_feed chunks h).buffered, (bounded_of_feed chunks h).physical⟩,
    fun _ _ hpre hlen hbad => reported_of_feed hpre hlen hbad chunks⟩

/-- A frame, then a header with a length above the limit, reserved flags and a reserved byte. -/
def oversized : List UInt8 := [0xFF, 0, 0, 0, 1, 0xF0, 1, 0, 0, 0, 0, 0, 0, 0, 0, 0]

theorem held_of_feed_oversized :
    (({} : Decoder).feed [sampleChunks.flatten, oversized.take 15]).1 = .none ∧
      (({} : Decoder).feed [sampleChunks.flatten, oversized.take 15]).2.2.buffered <
        16 + 16 * 1024 * 1024 ∧
      (({} : Decoder).feed [sampleChunks.flatten, oversized]).1 = .payloadTooLarge := by
  have hpre : Complete sampleChunks.flatten := ⟨by decide +kernel, by decide +kernel⟩
  have hnone : (({} : Decoder).feed [sampleChunks.flatten, oversized.take 15]).1 = .none :=
    ((held_of_feed _).2 _ oversized hpre rfl (by decide)).2 (by decide) (by decide)
  have herror := (((held_of_feed [sampleChunks.flatten, oversized]).2 _ oversized hpre rfl
    (by decide)).1 (by decide)).1
  exact ⟨hnone, ((held_of_feed _).1 hnone).1, herror⟩

end RemoteCam.Wire.Buffering
