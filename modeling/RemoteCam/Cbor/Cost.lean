import RemoteCam.Cbor.Codec
import Mathlib.Tactic.SplitIfs

/-! # What decoding costs

The decoder once more, on the array and its read offset, with a meter: the calls of `decodeValue`,
their nesting, and the size of every string and container each time it has grown. It answers as
`decode` does (`agrees_decodeValue`), and each call is paid for with a byte of its own, except for
the one that fails (`spent_decodeValue`). -/

namespace RemoteCam.Cbor.Cost

open RemoteCam.Lib RemoteCam.Cbor.Utf8 RemoteCam.Cbor.Codec

/-! ### The metered reader -/

structure Meter where
  /-- `offset_`. -/
  offset : ℕ := 0
  /-- The calls of `decodeValue`. -/
  calls : ℕ := 0
  /-- The calls that have not returned. -/
  nested : ℕ := 0
  deepest : ℕ := 0
  /-- The sizes of strings and containers, each with the bytes read for it by then. -/
  built : List (ℕ × ℕ) := []
  deriving DecidableEq, Repr

/-- An operation on the reader; a failed one has moved it, too. -/
def Decoding (α : Type) : Type := Meter → Except Error α × Meter

instance : Monad Decoding where
  pure a := fun m => (.ok a, m)
  bind x f := fun m =>
    match x m with
    | (.ok a, m) => f a m
    | (.error e, m) => (.error e, m)

variable {α β : Type}

def fail (e : Error) : Decoding α := fun m => (.error e, m)

def offset : Decoding ℕ := fun m => (.ok m.offset, m)

/-- A string or a container of this size, begun at `start`. -/
def build (start size : ℕ) : Decoding Unit :=
  fun m => (.ok (), { m with built := (size, m.offset - start) :: m.built })

def Meter.enter (m : Meter) : Meter :=
  { m with
    calls := m.calls + 1
    nested := m.nested + 1
    deepest := max m.deepest (m.nested + 1) }

def Meter.leave (m : Meter) : Meter := { m with nested := m.nested - 1 }

/-- A call of `decodeValue`. -/
def call (x : Decoding α) : Decoding α := fun m =>
  let (answer, m) := x m.enter
  (answer, m.leave)

section Reader
variable (data : Bytes)

def readByte : Decoding UInt8 := fun m =>
  if data.length - m.offset < 1 then (.error .truncated, m)
  else (.ok (data.getD m.offset 0), { m with offset := m.offset + 1 })

def readBigEndian (n : ℕ) : Decoding UInt64 := fun m =>
  if data.length - m.offset < n then (.error .truncated, m)
  else
    (.ok (.ofNat (BigEndian.read ((data.drop m.offset).take n))),
      { m with offset := m.offset + n })

def readBytes (count : UInt64) : Decoding Bytes := fun m =>
  if count.toNat > data.length - m.offset then (.error .truncated, m)
  else
    (.ok ((data.drop m.offset).take count.toNat), { m with offset := m.offset + count.toNat })

/-! ### The decoder -/

def readLong (n : ℕ) (least : UInt64) : Decoding UInt64 := do
  let out ← readBigEndian data n
  if out > least then pure out else fail .nonMinimalInteger

def readArgument (additional : UInt8) : Decoding UInt64 :=
  if additional < 24 then pure additional.toUInt64
  else if additional = 24 then do
    let byte ← readByte data
    if byte.toUInt64 ≥ 24 then pure byte.toUInt64 else fail .nonMinimalInteger
  else if additional = 25 then readLong data 2 0xFF
  else if additional = 26 then readLong data 4 0xFFFF
  else if additional = 27 then readLong data 8 0xFFFFFFFF
  else fail .invalidAdditionalInformation

def decodeCollectionCount (additional : UInt8) : Decoding UInt64 := do
  let count ← readArgument data additional
  if count > kMaxCollectionElements then fail .collectionTooLarge else pure count

/-- The array's loop; `items` are those read so far. -/
def decodeItems (decodeItem : Decoding Value) (start : ℕ) : ℕ → List Value → Decoding (List Value)
  | 0, items => pure items
  | count + 1, items => do
    let item ← decodeItem
    build start (items ++ [item]).length
    decodeItems decodeItem start count (items ++ [item])

def decodeEntries (decodeItem : Decoding Value) (start : ℕ) :
    ℕ → List (Bytes × Value) → Decoding (List (Bytes × Value))
  | 0, entries => pure entries
  | count + 1, entries => do
    let key ← decodeItem
    match key with
    | .text keyText => do
      let item ← decodeItem
      match emplace keyText item entries with
      | some entries => do
        build start entries.length
        decodeEntries decodeItem start count entries
      | none => fail .duplicateMapKey
    | _ => fail .unsupportedMapKey

def decodeSimple (additional : UInt8) : Decoding Value :=
  if additional = 20 then pure (.boolean false)
  else if additional = 21 then pure (.boolean true)
  else if additional = 22 then pure .null
  else if additional = 25 then do
    let bits ← readBigEndian data 2
    pure (.double (halfToDouble bits.toNat))
  else if additional = 26 then do
    let bits ← readBigEndian data 4
    pure (.double (floatToDouble bits.toNat))
  else if additional = 27 then do
    let bits ← readBigEndian data 8
    pure (.double bits)
  else fail .unsupportedSimpleValue

/-- What a value is, after its first byte; `start` is where that was. -/
def decodeContent (decodeItem : Decoding Value) (start : ℕ) (initial : UInt8) : Decoding Value :=
  let major := initial >>> kMajorShift
  let additional := initial &&& kAdditionalMask
  if major = kMajorUnsigned then do
    let value ← readArgument data additional
    pure (.unsigned value)
  else if major = kMajorNegative then do
    let value ← readArgument data additional
    if value > 0x7FFFFFFFFFFFFFFF then fail .integerOverflow
    else pure (.negative (-1 - value.toInt64))
  else if major = kMajorBytes then do
    let count ← readArgument data additional
    let content ← readBytes data count
    build start content.length
    pure (.bytes content)
  else if major = kMajorText then do
    let count ← readArgument data additional
    let content ← readBytes data count
    if isValidUtf8 content then do
      build start content.length
      pure (.text content)
    else fail .invalidUtf8
  else if major = kMajorArray then do
    let count ← decodeCollectionCount data additional
    let items ← decodeItems decodeItem start count.toNat []
    pure (.array items)
  else if major = kMajorMap then do
    let count ← decodeCollectionCount data additional
    let entries ← decodeEntries decodeItem start count.toNat []
    pure (.map entries)
  else if major = kMajorTag then fail .invalidAdditionalInformation
  else if major = kMajorSimple then decodeSimple data additional
  else fail .invalidAdditionalInformation

/-- At a depth from which `levels` levels are left; a call beyond the last one returns at once. -/
def decodeValue : ℕ → Decoding Value
  | 0 => call (fail .nestingLimitExceeded)
  | levels + 1 => call do
    let start ← offset
    let initial ← readByte data
    decodeContent data (decodeValue levels) start initial

def decode : Decoding Value := do
  let value ← decodeValue data (kMaxNestingDepth + 1)
  let read ← offset
  if data.length - read ≠ 0 then fail .trailingBytes else pure value

end Reader

theorem bind_ok {x : Decoding α} {g : α → Decoding β} {m m' : Meter} {a : α}
    (h : x m = (.ok a, m')) : (x >>= g) m = g a m' := by
  change (match x m with | (.ok a, m) => g a m | (.error e, m) => (.error e, m)) = _
  rw [h]

theorem bind_error {x : Decoding α} {g : α → Decoding β} {m m' : Meter} {e : Error}
    (h : x m = (.error e, m')) : (x >>= g) m = (.error e, m') := by
  change (match x m with | (.ok a, m) => g a m | (.error e, m) => (.error e, m)) = _
  rw [h]

/-! ### The same answers -/

/-- The answer on the bytes not yet read, and what is left of them. -/
def Answers (data : Bytes) : Except Error (α × Bytes) → Except Error α × Meter → Prop
  | .ok (a, rest), (.ok a', m) => a' = a ∧ data.drop m.offset = rest
  | .error e, (.error e', _) => e' = e
  | _, _ => False

/-- The operation does on the array what `f` does on the list of bytes. -/
def Agrees (data : Bytes) (x : Decoding α) (f : Bytes → Except Error (α × Bytes)) : Prop :=
  ∀ m : Meter, Answers data (f (data.drop m.offset)) (x m)

namespace Agrees

variable {data : Bytes} {x : Decoding α} {f : Bytes → Except Error (α × Bytes)}

theorem pure (a : α) : Agrees data (pure a) fun bytes => .ok (a, bytes) := fun _ => ⟨rfl, rfl⟩

theorem fail (e : Error) : Agrees data (fail e : Decoding α) fun _ => .error e := fun _ => rfl

theorem bind {g : α → Decoding β} {h : α × Bytes → Except Error (β × Bytes)}
    (hx : Agrees data x f) (hg : ∀ a, Agrees data (g a) fun bytes => h (a, bytes)) :
    Agrees data (x >>= g) fun bytes => f bytes >>= h := by
  intro m
  have hanswers := hx m
  change Answers data (f (data.drop m.offset) >>= h) _
  generalize f (data.drop m.offset) = q at hanswers ⊢
  rcases hm : x m with ⟨_ | a, m'⟩ <;> rcases q with _ | ⟨a', rest⟩ <;> rw [hm] at hanswers
  · rw [bind_error hm]
    exact hanswers
  · exact hanswers.elim
  · exact hanswers.elim
  · obtain ⟨rfl, rfl⟩ := hanswers
    rw [bind_ok hm]
    exact hg a m'

theorem ite {c : Prop} [Decidable c] {y : Decoding α} {g : Bytes → Except Error (α × Bytes)}
    (hx : Agrees data x f) (hy : Agrees data y g) :
    Agrees data (if c then x else y) fun bytes => if c then f bytes else g bytes := by
  split_ifs
  · exact hx
  · exact hy

/-- An operation on the meter alone. -/
theorem after {y : Decoding β} {g : β → Decoding α} (hy : ∀ m, ∃ b m', y m = (.ok b, m') ∧
    m'.offset = m.offset) (hg : ∀ b, Agrees data (g b) f) : Agrees data (y >>= g) f := by
  intro m
  obtain ⟨b, m', hm, hoffset⟩ := hy m
  rw [bind_ok hm, ← hoffset]
  exact hg b m'

theorem build {start size : ℕ} (hx : Agrees data x f) :
    Agrees data (do build start size; x) f :=
  after (fun _ => ⟨_, _, rfl, rfl⟩) fun _ => hx

theorem call (hx : Agrees data x f) : Agrees data (call x) f := by
  intro m
  have hanswers : Answers data (f (data.drop m.offset)) (x m.enter) := hx m.enter
  change Answers data _ ((x m.enter).1, (x m.enter).2.leave)
  generalize x m.enter = r at hanswers ⊢
  generalize f (data.drop m.offset) = q at hanswers ⊢
  rcases r with ⟨_ | a, m'⟩ <;> rcases q with _ | ⟨a', rest⟩ <;> exact hanswers

end Agrees

section Answers
variable {data : Bytes}

theorem agrees_readByte : Agrees data (readByte data) Codec.readByte := by
  intro m
  unfold readByte
  by_cases h : data.length - m.offset < 1
  · rw [if_pos h, List.drop_eq_nil_of_le (by omega)]
    rfl
  · have hlt : m.offset < data.length := by omega
    rw [if_neg h, List.drop_eq_getElem_cons hlt, List.getD_eq_getElem _ _ hlt]
    exact ⟨rfl, rfl⟩

theorem agrees_readBigEndian (n : ℕ) :
    Agrees data (readBigEndian data n) (Codec.readBigEndian n) := by
  intro m
  unfold readBigEndian Codec.readBigEndian
  rw [List.length_drop]
  by_cases h : data.length - m.offset < n
  · rw [if_pos h, if_pos h]
    rfl
  · rw [if_neg h, if_neg h]
    exact ⟨rfl, List.drop_drop.symm⟩

theorem agrees_readBytes (count : UInt64) :
    Agrees data (readBytes data count) (Codec.readBytes count) := by
  intro m
  unfold readBytes Codec.readBytes
  rw [List.length_drop]
  by_cases h : count.toNat > data.length - m.offset
  · rw [if_pos h, if_pos h]
    rfl
  · rw [if_neg h, if_neg h]
    exact ⟨rfl, List.drop_drop.symm⟩

theorem agrees_readLong (n : ℕ) (least : UInt64) :
    Agrees data (readLong data n least) (Codec.readLong n least) :=
  (agrees_readBigEndian n).bind fun out => .ite (.pure out) (.fail _)

theorem agrees_readArgument (additional : UInt8) :
    Agrees data (readArgument data additional) (Codec.readArgument additional) :=
  .ite (.pure _) (.ite (agrees_readByte.bind fun _ => .ite (.pure _) (.fail _))
    (.ite (agrees_readLong _ _) (.ite (agrees_readLong _ _)
      (.ite (agrees_readLong _ _) (.fail _)))))

theorem agrees_decodeCollectionCount (additional : UInt8) :
    Agrees data (decodeCollectionCount data additional)
      (Codec.decodeCollectionCount additional) :=
  (agrees_readArgument additional).bind fun count => .ite (.fail _) (.pure count)

theorem agrees_decodeSimple (additional : UInt8) :
    Agrees data (decodeSimple data additional) (Codec.decodeSimple additional) :=
  .ite (.pure _) (.ite (.pure _) (.ite (.pure _)
    (.ite ((agrees_readBigEndian 2).bind fun _ => .pure _)
      (.ite ((agrees_readBigEndian 4).bind fun _ => .pure _)
        (.ite ((agrees_readBigEndian 8).bind fun _ => .pure _) (.fail _))))))

section Loops
variable {x : Decoding Value} {f : Bytes → Except Error (Value × Bytes)}

/-- The items read so far come first. -/
theorem decodeItems_succ (f : Bytes → Except Error (Value × Bytes)) (count : ℕ)
    (items : List Value) (bytes : Bytes) :
    (do
        let (rest, bytes) ← Codec.decodeItems f (count + 1) bytes
        .ok (items ++ rest, bytes)) =
      (do
        let (item, bytes) ← f bytes
        let (rest, bytes) ← Codec.decodeItems f count bytes
        .ok (items ++ [item] ++ rest, bytes)) := by
  rw [Codec.decodeItems]
  cases f bytes with
  | error e => rfl
  | ok p =>
    obtain ⟨item, bytes⟩ := p
    cases hrest : Codec.decodeItems f count bytes with
    | error e => simp [bind, Except.bind, hrest]
    | ok q => simp [bind, Except.bind, hrest]

theorem agrees_decodeItems (hx : Agrees data x f) (start : ℕ) (count : ℕ) : ∀ items,
    Agrees data (decodeItems x start count items) (fun bytes => do
      let (rest, bytes) ← Codec.decodeItems f count bytes
      .ok (items ++ rest, bytes)) := by
  induction count with
  | zero =>
    intro items m
    exact ⟨(List.append_nil items).symm, rfl⟩
  | succ count ih =>
    intro items
    simp only [decodeItems_succ]
    exact hx.bind fun item => (ih (items ++ [item])).build

theorem agrees_decodeArray (hx : Agrees data x f) (start count : ℕ) :
    Agrees data (decodeItems x start count []) (Codec.decodeItems f count) := by
  intro m
  have hitems := agrees_decodeItems hx start count [] m
  dsimp only at hitems
  cases hrest : Codec.decodeItems f count (data.drop m.offset) with
  | error e =>
    rw [hrest] at hitems
    exact hitems
  | ok q =>
    rw [hrest] at hitems
    exact hitems

theorem agrees_decodeEntries (hx : Agrees data x f) (start : ℕ) (count : ℕ) : ∀ entries,
    Agrees data (decodeEntries x start count entries) (Codec.decodeEntries f count entries) := by
  induction count with
  | zero => exact fun entries => .pure entries
  | succ count ih =>
    intro entries
    refine hx.bind fun key => ?_
    cases key with
    | text keyText =>
      refine hx.bind fun item => ?_
      dsimp only
      cases emplace keyText item entries with
      | none => exact .fail _
      | some entries => exact (ih entries).build
    | _ => exact .fail _

end Loops

/-- **The metered decoder answers as the decoder does.** -/
theorem agrees_decodeValue : ∀ levels,
    Agrees data (decodeValue data levels) (Codec.decodeValue levels)
  | 0 => (Agrees.fail _).call
  | levels + 1 => by
    have hitem := agrees_decodeValue levels
    refine Agrees.call (.after (fun m => ⟨_, m, rfl, rfl⟩) fun start => ?_)
    refine agrees_readByte.bind fun initial => ?_
    unfold decodeContent
    refine .ite ((agrees_readArgument _).bind fun _ => .pure _) (.ite ?_ (.ite ?_ (.ite ?_
      (.ite ?_ (.ite ?_ (.ite (.fail _) (.ite (agrees_decodeSimple _) (.fail _))))))))
    · exact (agrees_readArgument _).bind fun value => .ite (.fail _) (.pure _)
    · exact (agrees_readArgument _).bind fun count => (agrees_readBytes _).bind fun content =>
        (Agrees.pure _).build
    · exact (agrees_readArgument _).bind fun count => (agrees_readBytes _).bind fun content =>
        .ite (Agrees.pure _).build (.fail _)
    · exact (agrees_decodeCollectionCount _).bind fun count =>
        (agrees_decodeArray hitem start count.toNat).bind fun items => .pure _
    · exact (agrees_decodeCollectionCount _).bind fun count =>
        (agrees_decodeEntries hitem start count.toNat []).bind fun entries => .pure _

end Answers

/-! ### The bill -/

/-- What happens from one state of the reader to a later one: at most one call for each byte read,
and `slack` more; at most `levels` calls within each other; and nothing built that is larger than
what was read for it. -/
structure Spent (data : Bytes) (levels slack : ℕ) (m m' : Meter) : Prop where
  forward : m.offset ≤ m'.offset
  inside : m'.offset ≤ data.length
  calls : m'.calls + m.offset ≤ m.calls + m'.offset + slack
  nested : m'.nested = m.nested
  deepest : m'.deepest ≤ max m.deepest (m.nested + levels)
  built : ∀ b ∈ m'.built, b ∈ m.built ∨ b.1 ≤ b.2

section Bill
variable {data : Bytes} {levels low slack : ℕ} {m m' m'' : Meter}

theorem Spent.refl (h : m.offset ≤ data.length) : Spent data levels 0 m m :=
  ⟨le_refl _, h, le_refl _, rfl, le_max_left _ _, fun _ hb => .inl hb⟩

theorem Spent.trans (h : Spent data levels 0 m m') (h' : Spent data levels slack m' m'') :
    Spent data levels slack m m'' where
  forward := h.forward.trans h'.forward
  inside := h'.inside
  calls := by
    have h₁ := h.calls
    have h₂ := h'.calls
    omega
  nested := h'.nested.trans h.nested
  deepest := by
    have h₁ := h'.deepest
    have h₂ := h.deepest
    rw [h.nested] at h₁
    omega
  built b hb := (h'.built b hb).elim (h.built b) .inr

/-- A failure may be a call that has read nothing. -/
def slackOf : Except Error α → ℕ
  | .ok _ => 0
  | .error _ => 1

theorem Spent.of_none (h : Spent data levels 0 m m') (answer : Except Error α) :
    Spent data levels (slackOf answer) m m' :=
  { h with calls := h.calls.trans (Nat.le_add_right _ _) }

/-- From an offset of at least `low` on, the operation keeps to the bill. -/
def Pays (data : Bytes) (levels low : ℕ) (x : Decoding α) : Prop :=
  ∀ m, low ≤ m.offset → m.offset ≤ data.length →
    Spent data levels (slackOf (x m).1) m (x m).2

/-- From an offset of at least `low` on, the offset is at least `low'` with each answer. -/
def Moves (low : ℕ) (x : Decoding α) (low' : α → ℕ) : Prop :=
  ∀ m a m', low ≤ m.offset → x m = (.ok a, m') → low' a ≤ m'.offset

namespace Pays

variable {x : Decoding α} {g : α → Decoding β}

theorem pure (a : α) : Pays data levels low (pure a) := fun _ _ h => .refl h

theorem fail (e : Error) : Pays data levels low (fail e : Decoding α) :=
  fun _ _ h => (Spent.refl h).of_none (.error e : Except Error α)

/-- The second operation starts where the first one has left off. -/
theorem bindFrom {low' : α → ℕ} (hx : Pays data levels low x)
    (hmoves : ∀ m a m', low ≤ m.offset → m.offset ≤ data.length → x m = (.ok a, m') →
      low' a ≤ m'.offset)
    (hg : ∀ a, Pays data levels (low' a) (g a)) : Pays data levels low (x >>= g) := by
  intro m hlow hm
  have hspent := hx m hlow hm
  rcases hrun : x m with ⟨e | a, m'⟩
  · rw [bind_error hrun]
    rwa [hrun] at hspent
  · rw [hrun] at hspent
    rw [bind_ok hrun]
    exact hspent.trans (hg a m' (hmoves m a m' hlow hm hrun) hspent.inside)

theorem bind {low' : α → ℕ} (hx : Pays data levels low x) (hmoves : Moves low x low')
    (hg : ∀ a, Pays data levels (low' a) (g a)) : Pays data levels low (x >>= g) :=
  hx.bindFrom (fun m a m' hlow _ hrun => hmoves m a m' hlow hrun) hg

/-- An operation that only moves forward. -/
theorem next (hx : Pays data levels low x) (hg : ∀ a, Pays data levels low (g a)) :
    Pays data levels low (x >>= g) := by
  refine hx.bindFrom (fun m a m' hlow hm hrun => ?_) hg
  have hspent := hx m hlow hm
  rw [hrun] at hspent
  exact hlow.trans hspent.forward

theorem ite {c : Prop} [Decidable c] {y : Decoding α} (hx : Pays data levels low x)
    (hy : Pays data levels low y) : Pays data levels low (if c then x else y) := by
  split_ifs
  · exact hx
  · exact hy

theorem mono {low' : ℕ} (hx : Pays data levels low x) (h : low ≤ low') :
    Pays data levels low' x := fun m hlow => hx m (h.trans hlow)

/-- Something that is no larger than what has been read. -/
theorem build {start size : ℕ} (hlow : start + size ≤ low) (hx : Pays data levels low x) :
    Pays data levels low (do build start size; x) := by
  refine next (fun m hm h => ?_) fun _ => hx
  refine ⟨le_refl _, h, le_refl _, rfl, le_max_left _ _, fun b hb => ?_⟩
  rcases List.mem_cons.mp hb with rfl | hb
  · exact .inr (Nat.le_sub_of_add_le (by omega))
  · exact .inl hb

end Pays

/-- Bytes that are there are read. -/
theorem Spent.read {n : ℕ} (h : m.offset + n ≤ data.length) :
    Spent data levels 0 m { m with offset := m.offset + n } :=
  ⟨Nat.le_add_right _ _, h, by dsimp only; omega, rfl, le_max_left _ _, fun _ hb => .inl hb⟩

theorem pays_readByte : Pays data levels low (readByte data) := by
  intro m _ h
  unfold readByte
  split_ifs with hempty
  · exact (Spent.refl h).of_none (.error .truncated : Except Error UInt8)
  · exact .read (by omega)

theorem pays_readBigEndian (n : ℕ) : Pays data levels low (readBigEndian data n) := by
  intro m _ h
  unfold readBigEndian
  split_ifs with hshort
  · exact (Spent.refl h).of_none (.error .truncated : Except Error UInt64)
  · exact .read (by omega)

theorem pays_readBytes (count : UInt64) : Pays data levels low (readBytes data count) := by
  intro m _ h
  unfold readBytes
  split_ifs with hshort
  · exact (Spent.refl h).of_none (.error .truncated : Except Error Bytes)
  · exact .read (by omega)

/-- The content is no longer than what is read for it. -/
theorem moves_readBytes (count : UInt64) :
    Moves low (readBytes data count) fun content => low + content.length := by
  intro m content m' hlow hrun
  unfold readBytes at hrun
  split_ifs at hrun with hshort
  · cases hrun
  · obtain ⟨hcontent, rfl⟩ := Prod.mk.inj hrun
    obtain rfl := Except.ok.inj hcontent
    have hlength := List.length_take_le count.toNat (data.drop m.offset)
    dsimp only
    omega

theorem pays_readLong (n : ℕ) (least : UInt64) : Pays data levels low (readLong data n least) :=
  (pays_readBigEndian n).next fun _ => .ite (.pure _) (.fail _)

theorem pays_readArgument (additional : UInt8) :
    Pays data levels low (readArgument data additional) :=
  .ite (.pure _) (.ite (pays_readByte.next fun _ => .ite (.pure _) (.fail _))
    (.ite (pays_readLong _ _) (.ite (pays_readLong _ _) (.ite (pays_readLong _ _) (.fail _)))))

theorem pays_decodeCollectionCount (additional : UInt8) :
    Pays data levels low (decodeCollectionCount data additional) :=
  (pays_readArgument additional).next fun _ => .ite (.fail _) (.pure _)

theorem pays_decodeSimple (additional : UInt8) :
    Pays data levels low (decodeSimple data additional) :=
  .ite (.pure _) (.ite (.pure _) (.ite (.pure _)
    (.ite ((pays_readBigEndian 2).next fun _ => .pure _)
      (.ite ((pays_readBigEndian 4).next fun _ => .pure _)
        (.ite ((pays_readBigEndian 8).next fun _ => .pure _) (.fail _))))))

/-! ### The loops -/

section Loops
variable {x : Decoding Value}

/-- An operation that reads at least one byte when it answers. -/
def Progresses (x : Decoding Value) : Prop := ∀ low, Moves low x fun _ => low + 1

/-- An array has no more items than bytes have been read since its start. -/
theorem pays_decodeItems (hx : Pays data levels 0 x) (hprogress : Progresses x) (start : ℕ) :
    ∀ count items, Pays data levels (start + items.length) (decodeItems x start count items)
  | 0, items => .pure items
  | count + 1, items => by
    refine (hx.mono (Nat.zero_le _)).bind (hprogress _) fun item => .build ?_ ?_
    · rw [List.length_append]
      exact le_refl _
    · have hrest := pays_decodeItems hx hprogress start count (items ++ [item])
      rwa [List.length_append] at hrest

theorem length_emplace {key : Bytes} {item : Value} : ∀ {entries entries' : List (Bytes × Value)},
    emplace key item entries = some entries' → entries'.length = entries.length + 1
  | [], entries', h => by
    obtain rfl := Option.some.inj h
    rfl
  | (k, v) :: entries, entries', h => by
    unfold emplace at h
    split_ifs at h
    · obtain rfl := Option.some.inj h
      rfl
    · obtain ⟨rest, hrest, rfl⟩ := Option.map_eq_some_iff.mp h
      exact congrArg (· + 1) (length_emplace hrest)

/-- A map has no more entries than bytes have been read since its start. -/
theorem pays_decodeEntries (hx : Pays data levels 0 x) (hprogress : Progresses x) (start : ℕ) :
    ∀ count entries,
      Pays data levels (start + entries.length) (decodeEntries x start count entries)
  | 0, entries => .pure entries
  | count + 1, entries => by
    refine (hx.mono (Nat.zero_le _)).next fun key => ?_
    cases key with
    | text keyText =>
      refine (hx.mono (Nat.zero_le _)).bind (hprogress _) fun item => ?_
      cases hemplace : emplace keyText item entries with
      | none => exact .fail _
      | some entries' =>
        have hlength := length_emplace hemplace
        refine .build (by omega) ((pays_decodeEntries hx hprogress start count entries').mono ?_)
        omega
    | _ => exact .fail _

theorem pays_decodeContent (hx : Pays data levels 0 x) (hprogress : Progresses x) (start : ℕ)
    (initial : UInt8) : Pays data levels (start + 1) (decodeContent data x start initial) := by
  unfold decodeContent
  refine .ite ((pays_readArgument _).next fun _ => .pure _) (.ite ?_ (.ite ?_ (.ite ?_
    (.ite ?_ (.ite ?_ (.ite (.fail _) (.ite (pays_decodeSimple _) (.fail _))))))))
  · exact (pays_readArgument _).next fun value => .ite (.fail _) (.pure _)
  · exact (pays_readArgument _).next fun count =>
      (pays_readBytes count).bind (moves_readBytes count) fun content => .build (by omega) (.pure _)
  · exact (pays_readArgument _).next fun count =>
      (pays_readBytes count).bind (moves_readBytes count) fun content =>
        .ite (.build (by omega) (.pure _)) (.fail _)
  · exact (pays_decodeCollectionCount _).next fun count =>
      ((pays_decodeItems hx hprogress start count.toNat []).mono (Nat.le_succ _)).next
        fun items => .pure _
  · exact (pays_decodeCollectionCount _).next fun count =>
      ((pays_decodeEntries hx hprogress start count.toNat []).mono (Nat.le_succ _)).next
        fun entries => .pure _

/-! ### A call -/

/-- What follows the first byte pays for the call with it. -/
theorem Spent.call {levels slack : ℕ} {m m' : Meter}
    (h : Spent data levels slack { m.enter with offset := m.offset + 1 } m') :
    Spent data (levels + 1) slack m m'.leave := by
  obtain ⟨hforward, hinside, hcalls, hnested, hdeepest, hbuilt⟩ := h
  simp only [Meter.enter] at hforward hcalls hnested hdeepest hbuilt
  refine ⟨Nat.le_of_succ_le hforward, hinside, ?_, ?_, ?_, hbuilt⟩
  · change m'.calls + m.offset ≤ m.calls + m'.offset + slack
    omega
  · change m'.nested - 1 = m.nested
    omega
  · change m'.deepest ≤ _
    omega

/-- A call that has read nothing. -/
theorem Spent.call_failed {levels : ℕ} {m : Meter} (h : m.offset ≤ data.length) :
    Spent data (levels + 1) 1 m m.enter.leave := by
  refine ⟨le_refl _, h, ?_, rfl, ?_, fun _ hb => .inl hb⟩
  · change m.calls + 1 + m.offset ≤ m.calls + m.offset + 1
    omega
  · change max m.deepest (m.nested + 1) ≤ _
    omega

/-- **Each call of `decodeValue` is paid for**, and reads a byte if it answers. -/
theorem pays_decodeValue : ∀ levels,
    Pays data (levels + 1) 0 (decodeValue data levels) ∧ Progresses (decodeValue data levels)
  | 0 => ⟨fun _ _ h => .call_failed h, fun _ _ _ _ _ hrun => by cases (Prod.mk.inj hrun).1⟩
  | levels + 1 => by
    obtain ⟨hitem, hprogress⟩ := pays_decodeValue levels
    -- the first byte, and what follows it
    have hrun (m : Meter) :
        (∃ e, decodeValue data (levels + 1) m = (.error e, m.enter.leave)) ∨
          ∃ answer m', decodeValue data (levels + 1) m = (answer, m'.leave) ∧
            Spent data (levels + 1) (slackOf answer)
              { m.enter with offset := m.offset + 1 } m' := by
      by_cases hempty : data.length - m.offset < 1
      · have hread : readByte data m.enter = (.error .truncated, m.enter) := if_pos hempty
        have hbody : (do
            let start ← offset
            let initial ← readByte data
            decodeContent data (decodeValue data levels) start initial) m.enter =
              (.error .truncated, m.enter) := (bind_ok rfl).trans (bind_error hread)
        exact .inl ⟨.truncated, by rw [decodeValue, call, hbody]⟩
      · have hread : readByte data m.enter =
            (.ok (data.getD m.offset 0), { m.enter with offset := m.offset + 1 }) := if_neg hempty
        have hbody : (do
            let start ← offset
            let initial ← readByte data
            decodeContent data (decodeValue data levels) start initial) m.enter =
              decodeContent data (decodeValue data levels) m.offset (data.getD m.offset 0)
                { m.enter with offset := m.offset + 1 } := (bind_ok rfl).trans (bind_ok hread)
        refine .inr ⟨_, _, ?_, pays_decodeContent hitem hprogress m.offset (data.getD m.offset 0)
          { m.enter with offset := m.offset + 1 } (le_refl _) (by dsimp only; omega)⟩
        rw [decodeValue, call, hbody]
    refine ⟨fun m _ h => ?_, fun low m a m' hlow heq => ?_⟩
    · rcases hrun m with ⟨e, he⟩ | ⟨answer, m', hm', hspent⟩
      · rw [he]
        exact .call_failed h
      · rw [hm']
        exact hspent.call
    · rcases hrun m with ⟨e, he⟩ | ⟨answer, m'', hm', hspent⟩
      · rw [he] at heq
        cases (Prod.mk.inj heq).1
      · obtain ⟨-, rfl⟩ := Prod.mk.inj (hm'.symm.trans heq)
        have hforward : m.offset + 1 ≤ m''.offset := hspent.forward
        exact (Nat.succ_le_succ hlow).trans hforward

end Loops

end Bill

/-! ### A whole input -/

theorem decode_eq (data : Bytes) : (decode data {}).1 = Codec.decode data := by
  have hanswers : Answers data (Codec.decodeValue (kMaxNestingDepth + 1) data)
      (decodeValue data (kMaxNestingDepth + 1) {}) := agrees_decodeValue (kMaxNestingDepth + 1) {}
  unfold decode Codec.decode
  generalize Codec.decodeValue (kMaxNestingDepth + 1) data = q at hanswers ⊢
  rcases hrun : decodeValue data (kMaxNestingDepth + 1) {} with ⟨e | value, m⟩ <;>
    rw [hrun] at hanswers <;> rcases q with e' | ⟨value', rest⟩
  · obtain rfl : e = e' := hanswers
    rw [bind_error hrun]
    rfl
  · exact hanswers.elim
  · exact hanswers.elim
  · obtain ⟨rfl, rfl⟩ := hanswers
    have hlength : (data.drop m.offset).length = data.length - m.offset := List.length_drop
    rw [bind_ok hrun, bind_ok (show offset m = (.ok m.offset, m) from rfl)]
    change _ = if (data.drop m.offset).length ≠ 0 then
      Except.error Error.trailingBytes else Except.ok value
    rw [hlength]
    split_ifs <;> rfl

theorem pays_decode (data : Bytes) : Pays data (kMaxNestingDepth + 2) 0 (decode data) :=
  (pays_decodeValue _).1.next fun _ =>
    Pays.next (fun _ _ h => .refl h) fun _ => .ite (.fail _) (.pure _)

/-- **What decoding an input costs.** The answer is that of the decoder; at most one call more than
there are bytes; at most two calls more within each other than levels; the offset stays inside, and
nothing that was built was ever larger than what had been read for it. -/
theorem decode_cost (data : Bytes) :
    (decode data {}).1 = Codec.decode data ∧
      (decode data {}).2.calls ≤ data.length + 1 ∧
      (decode data {}).2.deepest ≤ kMaxNestingDepth + 2 ∧
      (decode data {}).2.offset ≤ data.length ∧
      ∀ size read, (size, read) ∈ (decode data {}).2.built → size ≤ read := by
  obtain ⟨-, hinside, hcalls, -, hdeepest, hbuilt⟩ :=
    pays_decode data {} (le_refl _) (Nat.zero_le _)
  refine ⟨decode_eq data, ?_, ?_, hinside, fun size read hb => ?_⟩
  · have hslack : slackOf (decode data {}).1 ≤ 1 := by
      cases (decode data {}).1 with
      | ok value => exact Nat.zero_le 1
      | error e => exact le_refl 1
    have hle : (decode data {}).2.calls ≤ 0 + (decode data {}).2.offset + _ := hcalls
    omega
  · exact hdeepest.trans (by decide)
  · exact (hbuilt (size, read) hb).resolve_left List.not_mem_nil

/-- An array that declares more items than there are bytes. -/
example : (decode [0x9A, 0, 1, 0x86, 0xA0, 0x61, 0x61] {}).2.calls = 3 := by decide +kernel

end RemoteCam.Cbor.Cost
