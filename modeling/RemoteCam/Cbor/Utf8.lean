import Mathlib.Data.List.Basic
import Mathlib.Data.Nat.Bitwise
import Mathlib.Tactic.SplitIfs

/-! # UTF-8 validation

`isValidUtf8` is the decoder's own validator: lead byte, continuation bytes, then the overlong,
surrogate and range checks on the code. `WellFormed` is what it is for: the bytes are the encoding
of a list of characters. `isValidUtf8_iff`: the two are the same. -/

namespace RemoteCam.Cbor.Utf8

/-- The number of continuation bytes and the code bits of a lead byte from `0x80` on. -/
def leadByte (lead : UInt8) : Option (ℕ × ℕ) :=
  if lead &&& 0xE0 = 0xC0 then some (1, (lead &&& 0x1F).toNat)
  else if lead &&& 0xF0 = 0xE0 then some (2, (lead &&& 0x0F).toNat)
  else if lead &&& 0xF8 = 0xF0 then some (3, (lead &&& 0x07).toNat)
  else none

/-- The inner loop: the continuation bytes are shifted into the code. -/
def continuation (code : ℕ) : List UInt8 → Option ℕ
  | [] => some code
  | cont :: conts =>
    if cont &&& 0xC0 ≠ 0x80 then none
    else continuation ((code <<< 6) ||| (cont &&& 0x3F).toNat) conts

/-- Neither overlong, nor past the last code point, nor a surrogate. -/
def codeAllowed (extra code : ℕ) : Bool :=
  if extra = 1 ∧ code < 0x80 then false
  else if extra = 2 ∧ code < 0x800 then false
  else if extra = 3 ∧ code < 0x10000 then false
  else if code > 0x10FFFF then false
  else if code ≥ 0xD800 ∧ code ≤ 0xDFFF then false
  else true

/-- The outer loop, one round for each sequence; the fuel bounds the rounds. -/
def sequences : ℕ → List UInt8 → Bool
  | _, [] => true
  | 0, _ :: _ => false
  | fuel + 1, lead :: rest =>
    if lead < 0x80 then sequences fuel rest
    else
      match leadByte lead with
      | none => false
      | some (extra, code) =>
        if rest.length < extra then false
        else
          match continuation code (rest.take extra) with
          | none => false
          | some code => if codeAllowed extra code then sequences fuel (rest.drop extra) else false

/-- Each round takes at least one byte, so the length is fuel enough. -/
def isValidUtf8 (bytes : List UInt8) : Bool := sequences bytes.length bytes

/-- The bytes encode a list of characters. -/
def WellFormed (bytes : List UInt8) : Prop :=
  ∃ cs : List Char, bytes = cs.flatMap String.utf8EncodeChar

/-! ### The bytes the encoder writes -/

theorem leadByte_two : ∀ x < 32, leadByte (.ofNat (x + 0xc0)) = some (1, x) := by decide

theorem leadByte_three : ∀ x < 16, leadByte (.ofNat (x + 0xe0)) = some (2, x) := by decide

theorem leadByte_four : ∀ x < 8, leadByte (.ofNat (x + 0xf0)) = some (3, x) := by decide

theorem cont_bits : ∀ y < 64, UInt8.ofNat (y + 0x80) &&& 0xC0 = 0x80 ∧
    (UInt8.ofNat (y + 0x80) &&& 0x3F).toNat = y := by decide

theorem continuation_cons {code y : ℕ} (hy : y < 64) (conts : List UInt8) :
    continuation code (.ofNat (y + 0x80) :: conts) = continuation (code * 64 + y) conts := by
  obtain ⟨h1, h2⟩ := cont_bits y hy
  rw [continuation, if_neg (not_not.mpr h1), h2,
    ← Nat.shiftLeft_add_eq_or_of_lt (show y < 2 ^ 6 from hy), Nat.shiftLeft_eq]

theorem codeAllowed_eq_true {extra code : ℕ} (h1 : extra = 1 → 0x80 ≤ code)
    (h2 : extra = 2 → 0x800 ≤ code) (h3 : extra = 3 → 0x10000 ≤ code) (h4 : code ≤ 0x10FFFF)
    (h5 : code < 0xD800 ∨ 0xDFFF < code) : codeAllowed extra code = true := by
  unfold codeAllowed
  rw [if_neg (by omega), if_neg (by omega), if_neg (by omega), if_neg (by omega),
    if_neg (by omega)]

/-- One sequence of more than one byte. -/
theorem sequences_multi {lead : UInt8} {extra code : ℕ} (conts : List UInt8) (code' fuel : ℕ)
    (rest : List UInt8) (hlead : leadByte lead = some (extra, code)) (hlo : ¬ lead < 0x80)
    (hlen : conts.length = extra) (hcont : continuation code conts = some code')
    (hcode : codeAllowed extra code' = true) :
    sequences (fuel + 1) (lead :: (conts ++ rest)) = sequences fuel rest := by
  rw [sequences, if_neg hlo, hlead]
  dsimp only
  rw [if_neg (by rw [List.length_append]; omega), List.take_left' hlen, hcont]
  dsimp only
  rw [if_pos hcode, List.drop_left' hlen]

theorem not_lt_of_add {x k : ℕ} (hk : 0x80 ≤ k) (hx : x + k < 256) :
    ¬ UInt8.ofNat (x + k) < 0x80 := by
  rw [UInt8.lt_iff_toNat_lt, UInt8.toNat_ofNat']
  simp
  omega

/-- **One character is one round.** -/
theorem sequences_char (c : Char) (fuel : ℕ) (rest : List UInt8) :
    sequences (fuel + 1) (String.utf8EncodeChar c ++ rest) = sequences fuel rest := by
  have hvalid : c.val.toNat < 0xD800 ∨ 0xDFFF < c.val.toNat ∧ c.val.toNat < 0x110000 := c.valid
  unfold String.utf8EncodeChar
  dsimp only
  generalize c.val.toNat = v at hvalid
  split_ifs with h1 h2 h3
  · rw [List.singleton_append, sequences, if_pos]
    rw [UInt8.lt_iff_toNat_lt, UInt8.toNat_ofNat']
    simp
    omega
  · refine sequences_multi [_] v fuel rest (leadByte_two _ (by omega))
      (not_lt_of_add (by decide) (by omega)) rfl ?_ ?_
    · rw [continuation_cons (by omega), continuation]
      congr 1
      omega
    · exact codeAllowed_eq_true (by omega) (by omega) (by omega) (by omega) (by omega)
  · refine sequences_multi [_, _] v fuel rest (leadByte_three _ (by omega))
      (not_lt_of_add (by decide) (by omega)) rfl ?_ ?_
    · rw [continuation_cons (by omega), continuation_cons (by omega), continuation]
      congr 1
      omega
    · exact codeAllowed_eq_true (by omega) (by omega) (by omega) (by omega) (by omega)
  · refine sequences_multi [_, _, _] v fuel rest (leadByte_four _ (by omega))
      (not_lt_of_add (by decide) (by omega)) rfl ?_ ?_
    · rw [continuation_cons (by omega), continuation_cons (by omega),
        continuation_cons (by omega), continuation]
      congr 1
      omega
    · exact codeAllowed_eq_true (by omega) (by omega) (by omega) (by omega) (by omega)

/-- With a round for each character the loop reaches the end. -/
theorem sequences_flatMap (cs : List Char) :
    ∀ fuel, cs.length ≤ fuel → sequences fuel (cs.flatMap String.utf8EncodeChar) = true := by
  induction cs with
  | nil => intro fuel _; simp [sequences]
  | cons c cs ih =>
    intro fuel hfuel
    obtain ⟨fuel, rfl⟩ : ∃ n, fuel = n + 1 := ⟨fuel - 1, by rw [List.length_cons] at hfuel; omega⟩
    rw [List.flatMap_cons, sequences_char]
    exact ih fuel (by rw [List.length_cons] at hfuel; omega)

theorem length_le_flatMap (cs : List Char) :
    cs.length ≤ (cs.flatMap String.utf8EncodeChar).length := by
  induction cs with
  | nil => simp
  | cons c cs ih =>
    have hc : 0 < c.utf8Size := c.utf8Size_pos
    rw [List.flatMap_cons, List.length_append, List.length_cons, String.length_utf8EncodeChar]
    omega

/-- **Well-formed text is accepted.** -/
theorem isValidUtf8_of_wellFormed {bytes : List UInt8} (h : WellFormed bytes) :
    isValidUtf8 bytes = true := by
  obtain ⟨cs, rfl⟩ := h
  exact sequences_flatMap cs _ (length_le_flatMap cs)

/-! ### The bytes the validator accepts -/

theorem leadByte_spec : ∀ n < 256, ∀ extra code, leadByte (.ofNat n) = some (extra, code) →
    extra = 1 ∧ n = code + 0xc0 ∧ code < 32 ∨ extra = 2 ∧ n = code + 0xe0 ∧ code < 16 ∨
      extra = 3 ∧ n = code + 0xf0 ∧ code < 8 := by
  intro n hn extra code h
  have key : ∀ n < 256, ∀ p ∈ leadByte (.ofNat n),
      p.1 = 1 ∧ n = p.2 + 0xc0 ∧ p.2 < 32 ∨ p.1 = 2 ∧ n = p.2 + 0xe0 ∧ p.2 < 16 ∨
        p.1 = 3 ∧ n = p.2 + 0xf0 ∧ p.2 < 8 := by decide +kernel
  exact key n hn (extra, code) h

theorem cont_spec : ∀ n < 256, UInt8.ofNat n &&& 0xC0 = 0x80 →
    n = (UInt8.ofNat n &&& 0x3F).toNat + 0x80 ∧ (UInt8.ofNat n &&& 0x3F).toNat < 64 := by
  decide +kernel

/-- One continuation byte. -/
theorem continuation_step {code code' : ℕ} {cont : UInt8} {conts : List UInt8}
    (h : continuation code (cont :: conts) = some code') :
    ∃ y < 64, cont = .ofNat (y + 0x80) ∧ continuation (code * 64 + y) conts = some code' := by
  have hcont : cont &&& 0xC0 = 0x80 := by
    by_contra hne
    rw [continuation, if_pos hne] at h
    cases h
  obtain ⟨hn, hy⟩ := cont_spec cont.toNat cont.toNat_lt (by rwa [UInt8.ofNat_toNat])
  rw [UInt8.ofNat_toNat] at hn hy
  have heq : cont = .ofNat ((cont &&& 0x3F).toNat + 0x80) := by rw [← hn, UInt8.ofNat_toNat]
  refine ⟨_, hy, heq, ?_⟩
  rw [heq, continuation_cons hy] at h
  exact h

theorem codeAllowed_spec {extra code : ℕ} (h : codeAllowed extra code = true) :
    (extra = 1 → 0x80 ≤ code) ∧ (extra = 2 → 0x800 ≤ code) ∧ (extra = 3 → 0x10000 ≤ code) ∧
      code.isValidChar := by
  unfold codeAllowed at h
  split_ifs at h
  have hvalid : code.isValidChar := by
    unfold Nat.isValidChar
    omega
  exact ⟨by omega, by omega, by omega, hvalid⟩

theorem exists_char {code : ℕ} (h : code.isValidChar) : ∃ c : Char, c.val.toNat = code :=
  ⟨Char.ofNatAux code h, rfl⟩

/-- **One round is one character.** -/
theorem exists_char_of_sequences {fuel : ℕ} {lead : UInt8} {rest : List UInt8}
    (h : sequences (fuel + 1) (lead :: rest) = true) :
    ∃ (c : Char) (tail : List UInt8), lead :: rest = String.utf8EncodeChar c ++ tail ∧
      sequences fuel tail = true := by
  rw [sequences] at h
  by_cases hlo : lead < 0x80
  · rw [if_pos hlo] at h
    have hn : lead.toNat < 0x80 := UInt8.lt_iff_toNat_lt.mp hlo
    obtain ⟨c, hc⟩ := @exists_char lead.toNat (.inl (by omega))
    refine ⟨c, rest, ?_, h⟩
    rw [String.utf8EncodeChar, if_pos (by rw [hc]; omega), hc, UInt8.ofNat_toNat]
    rfl
  · rw [if_neg hlo] at h
    cases hlead : leadByte lead with
    | none =>
      rw [hlead] at h
      cases h
    | some p =>
      obtain ⟨extra, code⟩ := p
      rw [hlead] at h
      dsimp only at h
      split_ifs at h with hlen
      cases hcont : continuation code (rest.take extra) with
      | none =>
        rw [hcont] at h
        cases h
      | some code' =>
        rw [hcont] at h
        dsimp only at h
        split_ifs at h with hcode
        obtain ⟨h1, h2, h3, hvalid⟩ := codeAllowed_spec hcode
        obtain ⟨c, hc⟩ := exists_char hvalid
        refine ⟨c, rest.drop extra, ?_, h⟩
        have hn : lead = .ofNat lead.toNat := UInt8.ofNat_toNat.symm
        have hspec := leadByte_spec lead.toNat lead.toNat_lt extra code (by rwa [← hn])
        have hsplit : lead :: rest = .ofNat lead.toNat :: (rest.take extra ++ rest.drop extra) := by
          rw [List.take_append_drop, ← hn]
        have hconts : (rest.take extra).length = extra := by rw [List.length_take]; omega
        rw [hsplit]
        generalize rest.take extra = conts at hcont hconts ⊢
        rw [← hc] at h1 h2 h3 hcont
        unfold String.utf8EncodeChar
        dsimp only
        generalize c.val.toNat = v at h1 h2 h3 hcont ⊢
        rcases hspec with ⟨rfl, hx, hx'⟩ | ⟨rfl, hx, hx'⟩ | ⟨rfl, hx, hx'⟩
        · obtain ⟨a, rfl⟩ := List.length_eq_one_iff.mp hconts
          obtain ⟨y, hy, rfl, hv⟩ := continuation_step hcont
          obtain rfl : code * 64 + y = v := Option.some.inj hv
          rw [hx, if_neg (by omega), if_pos (by omega), show (code * 64 + y) / 64 % 32 = code by omega,
            show (code * 64 + y) % 64 = y by omega]
          rfl
        · obtain ⟨a, b, rfl⟩ := List.length_eq_two.mp hconts
          obtain ⟨y, hy, rfl, hv1⟩ := continuation_step hcont
          obtain ⟨z, hz, rfl, hv2⟩ := continuation_step hv1
          obtain rfl : (code * 64 + y) * 64 + z = v := Option.some.inj hv2
          rw [hx, if_neg (by omega), if_neg (by omega), if_pos (by omega),
            show ((code * 64 + y) * 64 + z) / 4096 % 16 = code by omega,
            show ((code * 64 + y) * 64 + z) / 64 % 64 = y by omega,
            show ((code * 64 + y) * 64 + z) % 64 = z by omega]
          rfl
        · obtain ⟨a, b, d, rfl⟩ := List.length_eq_three.mp hconts
          obtain ⟨y, hy, rfl, hv1⟩ := continuation_step hcont
          obtain ⟨z, hz, rfl, hv2⟩ := continuation_step hv1
          obtain ⟨w, hw, rfl, hv3⟩ := continuation_step hv2
          obtain rfl : ((code * 64 + y) * 64 + z) * 64 + w = v := Option.some.inj hv3
          rw [hx, if_neg (by omega), if_neg (by omega), if_neg (by omega),
            show (((code * 64 + y) * 64 + z) * 64 + w) / 262144 % 8 = code by omega,
            show (((code * 64 + y) * 64 + z) * 64 + w) / 4096 % 64 = y by omega,
            show (((code * 64 + y) * 64 + z) * 64 + w) / 64 % 64 = z by omega,
            show (((code * 64 + y) * 64 + z) * 64 + w) % 64 = w by omega]
          rfl

theorem wellFormed_of_sequences :
    ∀ {fuel : ℕ} {bytes : List UInt8}, sequences fuel bytes = true → WellFormed bytes
  | _, [], _ => ⟨[], rfl⟩
  | 0, _ :: _, h => by
    rw [sequences] at h
    cases h
  | fuel + 1, lead :: rest, h => by
    obtain ⟨c, tail, heq, htail⟩ := exists_char_of_sequences h
    obtain ⟨cs, rfl⟩ := wellFormed_of_sequences htail
    exact ⟨c :: cs, heq⟩

/-- **The validator accepts exactly the well-formed text.** -/
theorem isValidUtf8_iff {bytes : List UInt8} : isValidUtf8 bytes = true ↔ WellFormed bytes :=
  ⟨wellFormed_of_sequences, isValidUtf8_of_wellFormed⟩

instance : DecidablePred WellFormed := fun _ => decidable_of_iff _ isValidUtf8_iff

/-! ### The loops in place

`isValidUtf8At` is the validator on the array, by index. What is read is `data i`; `none` is a read
of what is not there, and the answer to it is `none`. -/

variable {data : ℕ → Option UInt8}

/-- The inner loop, with `left` of its rounds to go. -/
def continuationAt (data : ℕ → Option UInt8) (i : ℕ) : ℕ → ℕ → ℕ → Option (Option ℕ)
  | 0, _, code => some (some code)
  | left + 1, k, code => do
    let cont ← data (i + k)
    if cont &&& 0xC0 ≠ 0x80 then some none
    else continuationAt data i left (k + 1) ((code <<< 6) ||| (cont &&& 0x3F).toNat)

/-- The outer loop, from `i` on. -/
def validFrom (data : ℕ → Option UInt8) (size i : ℕ) : Option Bool :=
  if i < size then
    match data i with
    | none => none
    | some lead =>
      if lead < 0x80 then validFrom data size (i + 1)
      else
        match leadByte lead with
        | none => some false
        | some (extra, code) =>
          if i + extra ≥ size then some false
          else
            match continuationAt data i extra 1 code with
            | none => none
            | some none => some false
            | some (some code) =>
              if codeAllowed extra code then validFrom data size (i + (extra + 1)) else some false
  else some true
termination_by size - i

def isValidUtf8At (data : ℕ → Option UInt8) (size : ℕ) : Option Bool := validFrom data size 0

/-- The inner loop reads the next bytes, where they are there. -/
theorem continuationAt_eq {bytes : List UInt8} (i : ℕ) (left : ℕ) :
    ∀ k code, i + k + left ≤ bytes.length → continuationAt (bytes[·]?) i left k code =
      some (continuation code ((bytes.drop (i + k)).take left)) := by
  induction left with
  | zero => exact fun k code _ => rfl
  | succ left ih =>
    intro k code hle
    have hk : i + k < bytes.length := by omega
    rw [continuationAt, List.getElem?_eq_getElem hk, List.drop_eq_getElem_cons hk,
      List.take_succ_cons, continuation]
    simp only [Option.bind_eq_bind, Option.bind_some]
    split_ifs
    · rfl
    · exact ih (k + 1) _ (by omega)

/-- **The loop by index is the loop on the rest**, and reads nothing past the end. -/
theorem validFrom_eq (bytes : List UInt8) (fuel : ℕ) : ∀ i, bytes.length - i ≤ fuel →
    validFrom (bytes[·]?) bytes.length i = some (sequences fuel (bytes.drop i)) := by
  induction fuel with
  | zero =>
    intro i hfuel
    rw [validFrom, if_neg (by omega), List.drop_eq_nil_of_le (by omega), sequences]
  | succ fuel ih =>
    intro i hfuel
    rw [validFrom]
    by_cases hi : i < bytes.length
    · rw [if_pos hi, List.getElem?_eq_getElem hi, List.drop_eq_getElem_cons hi, sequences]
      dsimp only
      by_cases hlo : bytes[i] < 0x80
      · rw [if_pos hlo, if_pos hlo]
        exact ih (i + 1) (by omega)
      · rw [if_neg hlo, if_neg hlo]
        cases hlead : leadByte bytes[i] with
        | none => rfl
        | some p =>
          obtain ⟨extra, code⟩ := p
          dsimp only
          by_cases hlen : i + extra ≥ bytes.length
          · rw [if_pos hlen, if_pos (by rw [List.length_drop]; omega)]
          · rw [if_neg hlen, if_neg (by rw [List.length_drop]; omega),
              continuationAt_eq i extra 1 code (by omega)]
            cases continuation code ((bytes.drop (i + 1)).take extra) with
            | none => rfl
            | some code' =>
              dsimp only
              split_ifs
              · rw [ih (i + (extra + 1)) (by omega), List.drop_drop, Nat.add_comm extra 1,
                  Nat.add_assoc]
              · rfl
    · rw [if_neg hi, List.drop_eq_nil_of_le (by omega), sequences]

/-- **The validator on any array.** It reads no byte past the size, and accepts exactly the
concatenated encodings of scalar values. -/
theorem isValidUtf8At_spec (bytes : List UInt8) : ∃ accepted,
    isValidUtf8At (bytes[·]?) bytes.length = some accepted ∧
      (accepted = true ↔ ∃ cs : List Char, bytes = cs.flatMap String.utf8EncodeChar) := by
  refine ⟨isValidUtf8 bytes, ?_, isValidUtf8_iff⟩
  rw [isValidUtf8At, validFrom_eq bytes bytes.length 0 (Nat.sub_le _ _), List.drop_zero,
    isValidUtf8]

end RemoteCam.Cbor.Utf8
