import RemoteCam.Video.Annexb
import Mathlib.Data.List.Infix
import Mathlib.Data.List.Pairwise

/-! # What split returns

A run of the loop of `split` is a derivation of `Scans`; there is one for every input, so the loop
ends. On payloads joined with start codes it returns the payloads (`scans_join`), and what it
returns for any input lies behind a start code, in order and apart (`Scans.sound`). -/

namespace RemoteCam.Video.Splitting

open RemoteCam.Video.Annexb

/-! ### Start codes -/

/-- `00 00 00 01` or `00 00 01`. -/
def startCode (long : Bool) : List UInt8 := if long then [0, 0, 0, 1] else [0, 0, 1]

theorem startCodeAt_startCode (long : Bool) (bytes : List UInt8) :
    startCodeAt (startCode long ++ bytes) = some (startCode long).length := by
  cases long <;> rfl

theorem startCodeAt_eq_some {bytes : List UInt8} {n : ℕ} (h : startCodeAt bytes = some n) :
    (n = 3 ∨ n = 4) ∧ n ≤ bytes.length := by
  unfold startCodeAt at h
  split at h
  · obtain rfl := Option.some.inj h
    simp
  · obtain rfl := Option.some.inj h
    simp
  · cases h

/-- A payload that is not taken for the start of another unit. -/
structure Plain (payload : List UInt8) : Prop where
  nonempty : payload ≠ []
  zeros : ¬ [0, 0, 0] <:+: payload
  code : ¬ [0, 0, 1] <:+: payload
  last : payload.getLast? ≠ some 0

theorem not_startCodeAt {payload : List UInt8} (h : Plain payload) (rest : List UInt8) :
    startCodeAt (payload ++ rest) = none := by
  obtain ⟨hne, hzeros, hcode, hlast⟩ := h
  match payload with
  | [] => exact absurd rfl hne
  | [a] =>
    have ha : a ≠ 0 := fun h => hlast (by rw [h]; rfl)
    unfold startCodeAt
    split <;> simp_all
  | [a, b] =>
    have hb : b ≠ 0 := fun h => hlast (by rw [h]; rfl)
    unfold startCodeAt
    split <;> simp_all
  | a :: b :: c :: payload =>
    unfold startCodeAt
    split
    · next h =>
      obtain ⟨rfl, rfl, rfl, -⟩ : a = 0 ∧ b = 0 ∧ c = 1 ∧ _ := by simpa using h
      exact absurd ⟨[], payload, rfl⟩ hcode
    · next h =>
      obtain ⟨rfl, rfl, rfl, -⟩ : a = 0 ∧ b = 0 ∧ c = 0 ∧ _ := by simpa using h
      exact absurd ⟨[], payload, rfl⟩ hzeros
    · rfl

/-- The rest of a payload is one, as long as there is any. -/
theorem Plain.tail {a b : UInt8} {payload : List UInt8} (h : Plain (a :: b :: payload)) :
    Plain (b :: payload) where
  nonempty := List.cons_ne_nil b payload
  zeros hin := h.zeros (hin.trans (List.suffix_cons a _).isInfix)
  code hin := h.code (hin.trans (List.suffix_cons a _).isInfix)
  last := by simpa using h.last

/-! ### The bytes up to a start code -/

theorem untilStartCode_append (bytes : List UInt8) :
    (untilStartCode bytes).1 ++ (untilStartCode bytes).2 = bytes := by
  induction bytes with
  | nil => rfl
  | cons b bytes ih =>
    rw [untilStartCode]
    split_ifs
    · rfl
    · rw [List.cons_append, ih]

theorem startCodeAt_rest (bytes : List UInt8) :
    (untilStartCode bytes).2 = [] ∨ (startCodeAt (untilStartCode bytes).2).isSome := by
  induction bytes with
  | nil => exact .inl rfl
  | cons b bytes ih =>
    rw [untilStartCode]
    split_ifs with h
    · exact .inr h
    · exact ih

/-- A payload is passed over. -/
theorem untilStartCode_payload {payload : List UInt8} (h : Plain payload) (rest : List UInt8) :
    untilStartCode (payload ++ rest) =
      (payload ++ (untilStartCode rest).1, (untilStartCode rest).2) := by
  induction payload with
  | nil => exact absurd rfl h.nonempty
  | cons a payload ih =>
    have hnone := not_startCodeAt h rest
    rw [List.cons_append] at hnone
    rw [List.cons_append, untilStartCode, hnone, if_neg (by simp)]
    cases payload with
    | nil => rfl
    | cons b payload => rw [ih h.tail]; rfl

theorem untilStartCode_startCode (long : Bool) (bytes : List UInt8) :
    untilStartCode (startCode long ++ bytes) = ([], startCode long ++ bytes) := by
  cases long <;> rfl

/-! ### The loop -/

/-- A run of the loop of `split`, to its end, from `offset` bytes into the input, where the input
goes on with `bytes`. An empty unit is skipped. -/
inductive Scans (codec : Codec) : ℕ → List UInt8 → List Nal → Prop where
  | exhausted (offset : ℕ) : Scans codec offset [] []
  | bare {offset codeLength : ℕ} {bytes : List UInt8} (hcode : startCodeAt bytes = some codeLength)
    (hend : bytes.drop codeLength = []) : Scans codec offset bytes []
  | empty {offset codeLength : ℕ} {bytes rest : List UInt8} {nals : List Nal}
    (hcode : startCodeAt bytes = some codeLength) (hrest : bytes.drop codeLength ≠ [])
    (huntil : untilStartCode (bytes.drop codeLength) = ([], rest))
    (hscans : Scans codec (offset + codeLength) rest nals) : Scans codec offset bytes nals
  | unit {offset codeLength : ℕ} {headerByte : UInt8} {bytes content rest : List UInt8}
    {nals : List Nal} (hcode : startCodeAt bytes = some codeLength)
    (huntil : untilStartCode (bytes.drop codeLength) = (headerByte :: content, rest))
    (hscans : Scans codec (offset + codeLength + (content.length + 1)) rest nals) :
    Scans codec offset bytes
      (⟨offset + codeLength, content.length + 1, nalTypeOf codec headerByte⟩ :: nals)

variable {codec : Codec} {offset : ℕ} {bytes : List UInt8} {nals nals' : List Nal}

/-- **The loop ends**, with what `nalsFrom` returns, within as many rounds as there are bytes. -/
theorem scans_nalsFrom : ∀ {fuel : ℕ} {bytes : List UInt8}, bytes.length ≤ fuel → ∀ offset : ℕ,
    (bytes = [] ∨ (startCodeAt bytes).isSome) →
    Scans codec offset bytes (nalsFrom codec fuel offset bytes)
  | 0, bytes, hfuel, offset, _ => by
    obtain rfl := List.length_eq_zero_iff.mp (Nat.le_zero.mp hfuel)
    exact .exhausted offset
  | fuel + 1, bytes, hfuel, offset, hstart => by
    rcases hstart with rfl | hstart
    · exact .exhausted offset
    obtain ⟨codeLength, hcode⟩ := Option.isSome_iff_exists.mp hstart
    obtain ⟨hthree, hle⟩ := startCodeAt_eq_some hcode
    have happend := untilStartCode_append (bytes.drop codeLength)
    have hrest := startCodeAt_rest (bytes.drop codeLength)
    have hlen : (untilStartCode (bytes.drop codeLength)).2.length ≤ fuel := by
      have := congrArg List.length happend
      rw [List.length_append, List.length_drop] at this
      omega
    have ih (offset : ℕ) := scans_nalsFrom hlen offset hrest
    rw [nalsFrom, hcode]
    dsimp only
    cases hdrop : bytes.drop codeLength with
    | nil => exact .bare hcode hdrop
    | cons headerByte body =>
      rw [hdrop] at happend ih
      dsimp only
      cases huntil : untilStartCode (headerByte :: body) with
      | mk content rest =>
      rw [huntil] at happend ih
      cases content with
      | nil => exact .empty hcode (by simp [hdrop]) (hdrop ▸ huntil) (ih _)
      | cons b content =>
        obtain ⟨rfl, -⟩ := List.cons.inj happend
        exact .unit hcode (hdrop ▸ huntil) (ih _)

/-- One result for each input. -/
theorem Scans.unique (h : Scans codec offset bytes nals) (h' : Scans codec offset bytes nals') :
    nals = nals' := by
  induction h generalizing nals' with
  | exhausted =>
    cases h' with
    | exhausted => rfl
    | bare hcode | empty hcode | unit hcode => cases hcode
  | bare hcode hend =>
    cases h' with
    | exhausted => cases hcode
    | bare => rfl
    | empty hcode' hrest' =>
      obtain rfl := Option.some.inj (hcode.symm.trans hcode')
      exact absurd hend hrest'
    | unit hcode' huntil' =>
      obtain rfl := Option.some.inj (hcode.symm.trans hcode')
      rw [hend] at huntil'
      cases huntil'
  | empty hcode hrest huntil _ ih =>
    cases h' with
    | exhausted => cases hcode
    | bare hcode' hend' =>
      obtain rfl := Option.some.inj (hcode.symm.trans hcode')
      exact absurd hend' hrest
    | empty hcode' _ huntil' hscans' =>
      obtain rfl := Option.some.inj (hcode.symm.trans hcode')
      obtain ⟨-, rfl⟩ := Prod.mk.inj (huntil.symm.trans huntil')
      exact ih hscans'
    | unit hcode' huntil' =>
      obtain rfl := Option.some.inj (hcode.symm.trans hcode')
      cases huntil.symm.trans huntil'
  | unit hcode huntil _ ih =>
    cases h' with
    | exhausted => cases hcode
    | bare hcode' hend' =>
      obtain rfl := Option.some.inj (hcode.symm.trans hcode')
      rw [hend'] at huntil
      cases huntil
    | empty hcode' _ huntil' =>
      obtain rfl := Option.some.inj (hcode.symm.trans hcode')
      cases huntil.symm.trans huntil'
    | unit hcode' huntil' hscans' =>
      obtain rfl := Option.some.inj (hcode.symm.trans hcode')
      obtain ⟨hcontent, rfl⟩ := Prod.mk.inj (huntil.symm.trans huntil')
      obtain ⟨rfl, rfl⟩ := List.cons.inj hcontent
      rw [ih hscans']

/-! ### Joined payloads -/

/-- Payloads, each behind a start code of either length. -/
def join (units : List (Bool × List UInt8)) : List UInt8 :=
  units.flatMap fun unit => startCode unit.1 ++ unit.2

/-- The units where `join` puts them. -/
def nalsOf (codec : Codec) : ℕ → List (Bool × List UInt8) → List Nal
  | _, [] => []
  | offset, (long, payload) :: units =>
    let nalStart := offset + (startCode long).length
    ⟨nalStart, payload.length, nalTypeOf codec (payload.headD 0)⟩ ::
      nalsOf codec (nalStart + payload.length) units

/-- The bytes of a unit. -/
def content (data : List UInt8) (nal : Nal) : List UInt8 := (data.drop nal.offset).take nal.size

theorem untilStartCode_join (units : List (Bool × List UInt8)) :
    untilStartCode (join units) = ([], join units) := by
  cases units with
  | nil => rfl
  | cons unit units =>
    rw [join, List.flatMap_cons, List.append_assoc]
    exact untilStartCode_startCode _ _

theorem scans_join {units : List (Bool × List UInt8)} (h : ∀ unit ∈ units, Plain unit.2) :
    ∀ offset, Scans codec offset (join units) (nalsOf codec offset units) := by
  induction units with
  | nil => exact .exhausted
  | cons unit units ih =>
    intro offset
    obtain ⟨long, payload⟩ := unit
    have hplain : Plain payload := h _ List.mem_cons_self
    have hjoin : join ((long, payload) :: units) = startCode long ++ (payload ++ join units) := by
      rw [join, List.flatMap_cons, List.append_assoc]
      rfl
    have huntil := untilStartCode_payload hplain (join units)
    rw [untilStartCode_join, List.append_nil] at huntil
    have hrest := ih (fun unit hmem => h unit (List.mem_cons_of_mem _ hmem))
      (offset + (startCode long).length + payload.length)
    rw [hjoin, nalsOf]
    cases payload with
    | nil => exact absurd rfl hplain.nonempty
    | cons headerByte payload =>
      exact .unit (startCodeAt_startCode long _) (by rw [List.drop_left]; exact huntil) hrest

/-- Where a unit lies the payload is. -/
theorem map_nalsOf (codec : Codec) (units : List (Bool × List UInt8)) :
    ∀ before : List UInt8,
      (nalsOf codec before.length units).map
          (fun nal => (content (before ++ join units) nal, nal.type)) =
        units.map fun unit => (unit.2, nalTypeOf codec (unit.2.headD 0)) := by
  induction units with
  | nil => exact fun _ => rfl
  | cons unit units ih =>
    intro before
    obtain ⟨long, payload⟩ := unit
    have hjoin : before ++ join ((long, payload) :: units) =
        before ++ startCode long ++ (payload ++ join units) := by
      simp [join]
    have hrest := ih (before ++ startCode long ++ payload)
    rw [List.length_append, List.length_append, List.append_assoc _ payload] at hrest
    rw [nalsOf, List.map_cons, List.map_cons, hjoin, hrest, content]
    rw [← List.length_append, List.drop_left, List.take_left]

/-! ### Any input -/

/-- A unit behind a start code of the input, and with bytes of its own. -/
structure Sound (data : List UInt8) (nal : Nal) : Prop where
  nonempty : 0 < nal.size
  inside : nal.offset + nal.size ≤ data.length
  preceded : ∃ n ≤ nal.offset, startCodeAt (data.drop (nal.offset - n)) = some n

/-- **What the loop returns** lies at and after `offset`, and in order. -/
theorem Scans.sound (h : Scans codec offset bytes nals) :
    ∀ before : List UInt8, before.length = offset →
      (∀ nal ∈ nals, Sound (before ++ bytes) nal ∧ offset ≤ nal.offset) ∧
      nals.Pairwise fun a b => a.offset + a.size ≤ b.offset := by
  induction h with
  | exhausted => exact fun _ _ => ⟨by simp, .nil⟩
  | bare => exact fun _ _ => ⟨by simp, .nil⟩
  | @empty offset codeLength bytes rest nals hcode _ huntil _ ih =>
    intro before hbefore
    obtain ⟨-, hle⟩ := startCodeAt_eq_some hcode
    have hrest : bytes.drop codeLength = rest := by
      have := untilStartCode_append (bytes.drop codeLength)
      rw [huntil] at this
      exact this.symm
    have hbytes : before ++ bytes.take codeLength ++ rest = before ++ bytes := by
      rw [← hrest, List.append_assoc, List.take_append_drop]
    obtain ⟨hsound, hpair⟩ := ih (before ++ bytes.take codeLength) (by
      rw [List.length_append, List.length_take]
      omega)
    rw [hbytes] at hsound
    exact ⟨fun nal hmem => ⟨(hsound nal hmem).1, by have := (hsound nal hmem).2; omega⟩, hpair⟩
  | @unit offset codeLength headerByte bytes content rest nals hcode huntil _ ih =>
    intro before hbefore
    obtain ⟨-, hle⟩ := startCodeAt_eq_some hcode
    have hcontent : bytes.drop codeLength = headerByte :: content ++ rest := by
      have := untilStartCode_append (bytes.drop codeLength)
      rw [huntil] at this
      exact this.symm
    have hbytes : before ++ bytes.take codeLength ++ (headerByte :: content) ++ rest =
        before ++ bytes := by
      rw [List.append_assoc, ← hcontent, List.append_assoc, List.take_append_drop]
    have hlen := congrArg List.length hcontent
    rw [List.length_drop, List.length_append, List.length_cons] at hlen
    obtain ⟨hsound, hpair⟩ := ih (before ++ bytes.take codeLength ++ (headerByte :: content)) (by
      rw [List.length_append, List.length_append, List.length_take, List.length_cons]
      omega)
    rw [hbytes] at hsound
    refine ⟨List.forall_mem_cons.mpr ⟨⟨⟨Nat.succ_pos _, ?_, codeLength, Nat.le_add_left _ _, ?_⟩,
      Nat.le_add_right _ _⟩, fun nal hmem => ⟨(hsound nal hmem).1, ?_⟩⟩, .cons ?_ hpair⟩
    · rw [List.length_append]
      dsimp only
      omega
    · rw [Nat.add_sub_cancel, ← hbefore, List.drop_left, hcode]
    · have := (hsound nal hmem).2
      omega
    · exact fun nal hmem => (hsound nal hmem).2

/-- The run of `split`: there is none on fewer than four bytes. -/
theorem scans_split {data : List UInt8} (h : 4 ≤ data.length) (codec : Codec) :
    Scans codec (untilStartCode data).1.length (untilStartCode data).2 (split data codec) := by
  have happend := congrArg List.length (untilStartCode_append data)
  rw [List.length_append] at happend
  rw [split, if_neg (by omega)]
  exact scans_nalsFrom (by omega) _ (startCodeAt_rest data)

theorem length_join {units : List (Bool × List UInt8)} (hne : units ≠ [])
    (h : ∀ unit ∈ units, Plain unit.2) : 4 ≤ (join units).length := by
  cases units with
  | nil => exact absurd rfl hne
  | cons unit units =>
    have hcode : 3 ≤ (startCode unit.1).length := by cases unit.1 <;> decide
    have hpayload := List.length_pos_of_ne_nil (h unit List.mem_cons_self).nonempty
    rw [join, List.flatMap_cons, List.length_append, List.length_append]
    omega

/-- **Splitting.** Payloads that hold no start code, joined with start codes of either length, come
out as they were, with the types of the codec. The loop ends on every input, and the units are not
empty, lie in the input, right behind a start code, apart and in order. -/
theorem split_units (codec : Codec) :
    (∀ units : List (Bool × List UInt8), units ≠ [] → (∀ unit ∈ units, Plain unit.2) →
      (split (join units) codec).map (fun nal => (content (join units) nal, nal.type)) =
        units.map fun unit => (unit.2, nalTypeOf codec (unit.2.headD 0))) ∧
    ∀ data : List UInt8,
      (4 ≤ data.length → Scans codec (untilStartCode data).1.length (untilStartCode data).2
        (split data codec)) ∧
      (∀ nal ∈ split data codec, Sound data nal) ∧
      (split data codec).Pairwise fun a b => a.offset + a.size ≤ b.offset := by
  refine ⟨fun units hne h => ?_, fun data => ⟨fun hlen => scans_split hlen codec, ?_⟩⟩
  · have hscans := scans_split (length_join hne h) codec
    rw [untilStartCode_join] at hscans
    rw [hscans.unique (scans_join h 0)]
    exact map_nalsOf codec units []
  · by_cases hlen : 4 ≤ data.length
    · have hsound := (scans_split hlen codec).sound _ rfl
      rw [untilStartCode_append] at hsound
      exact ⟨fun nal hmem => (hsound.1 nal hmem).1, hsound.2⟩
    · rw [split, if_pos (by omega)]
      exact ⟨by simp, .nil⟩

/-- Start codes of both lengths, and a payload with an emulation-prevention byte. -/
example : split (join [(true, [0x67, 0xAA]), (false, [0x65, 0x00, 0x00, 0x03, 0x01])]) .h264 =
    [⟨4, 2, 7⟩, ⟨9, 5, 5⟩] := by decide

end RemoteCam.Video.Splitting
