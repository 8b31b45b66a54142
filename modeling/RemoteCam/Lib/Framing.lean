import Mathlib.Data.List.Basic

/-! # Splitting a stream into items, chunk by chunk

A `Splitter` looks at the front of a buffer and asks for more, cuts one item off, or reports that
the stream is broken. Its fields say that a verdict once reached does not change when more arrives;
this alone makes the items, the error and the rest independent of how the stream is cut into chunks
(`foldl_push`). -/

namespace RemoteCam.Lib.Framing

variable {β φ ε : Type*}

/-- What the front of a buffer is. -/
inductive Verdict (φ ε : Type*) where
  /-- The front is incomplete. -/
  | more
  /-- The first `n` elements are the item `f`. -/
  | item (f : φ) (n : ℕ)
  /-- The stream is broken here. -/
  | bad (e : ε)

/-- A verdict function whose answers are stable under arrival of more input. -/
structure Splitter (β φ ε : Type*) where
  next : List β → Verdict φ ε
  next_nil : next [] = .more
  pos : ∀ {bs f n}, next bs = .item f n → 0 < n
  le : ∀ {bs f n}, next bs = .item f n → n ≤ bs.length
  item_append : ∀ {bs f n} (ys : List β), next bs = .item f n → next (bs ++ ys) = .item f n
  bad_append : ∀ {bs e} (ys : List β), next bs = .bad e → next (bs ++ ys) = .bad e

/-- The items cut off so far, the error if the stream broke, and the part not cut off. -/
@[ext] structure Parsed (β φ ε : Type*) where
  items : List φ := []
  error : Option ε := none
  rest : List β := []

/-- The same items and error, and the same rest unless the stream broke. -/
def Parsed.Agree (p q : Parsed β φ ε) : Prop :=
  p.items = q.items ∧ p.error = q.error ∧ (q.error = none → p.rest = q.rest)

namespace Splitter

variable (S : Splitter β φ ε)

/-- Cut off items as long as there are complete ones. -/
def parse (bs : List β) : Parsed β φ ε :=
  match _h : S.next bs with
  | .more => { rest := bs }
  | .bad e => { error := some e, rest := bs }
  | .item f n =>
    let p := parse (bs.drop n)
    { p with items := f :: p.items }
termination_by bs.length
decreasing_by
  have h1 := S.pos _h
  have h2 := S.le _h
  rw [List.length_drop]
  omega

variable {S}

theorem parse_more {bs : List β} (h : S.next bs = .more) : S.parse bs = { rest := bs } := by
  rw [parse]; split <;> simp_all

theorem parse_bad {bs : List β} {e : ε} (h : S.next bs = .bad e) :
    S.parse bs = { error := some e, rest := bs } := by
  rw [parse]; split <;> simp_all

theorem parse_item {bs : List β} {f : φ} {n : ℕ} (h : S.next bs = .item f n) :
    S.parse bs = { S.parse (bs.drop n) with items := f :: (S.parse (bs.drop n)).items } := by
  rw [parse]; split <;> simp_all

/-- A broken stream stays broken at the same place. -/
theorem parse_append_error {xs : List β} {e : ε} (h : (S.parse xs).error = some e)
    (ys : List β) : (S.parse (xs ++ ys)).items = (S.parse xs).items ∧
      (S.parse (xs ++ ys)).error = some e := by
  fun_induction S.parse xs with
  | case1 xs hx => simp at h
  | case2 xs e' hx =>
    rw [parse_bad (S.bad_append ys hx)]
    exact ⟨rfl, h⟩
  | case3 xs f n hx p ih =>
    obtain ⟨h1, h2⟩ := ih h
    have hd : (xs ++ ys).drop n = xs.drop n ++ ys := by
      rw [List.drop_append_of_le_length (S.le hx)]
    rw [parse_item (S.item_append ys hx), hd]
    exact ⟨by rw [h1], h2⟩

/-- **What arrives later is parsed after the rest.** -/
theorem parse_append {xs : List β} (h : (S.parse xs).error = none) (ys : List β) :
    S.parse (xs ++ ys) =
      { S.parse ((S.parse xs).rest ++ ys) with
        items := (S.parse xs).items ++ (S.parse ((S.parse xs).rest ++ ys)).items } := by
  fun_induction S.parse xs with
  | case1 xs hx => rfl
  | case2 xs e hx => simp at h
  | case3 xs f n hx p ih =>
    have hd : (xs ++ ys).drop n = xs.drop n ++ ys := by
      rw [List.drop_append_of_le_length (S.le hx)]
    rw [parse_item (S.item_append ys hx), hd, ih h]
    rfl

/-- A complete item at the front is cut off. -/
theorem parse_item_append {bs ys : List β} {f : φ} (h : S.next bs = .item f bs.length) :
    S.parse (bs ++ ys) = { S.parse ys with items := f :: (S.parse ys).items } := by
  rw [parse_item (S.item_append ys h), List.drop_left]

variable (S)

/-- **One more chunk.** A broken stream ignores it. -/
def push (p : Parsed β φ ε) (chunk : List β) : Parsed β φ ε :=
  match p.error with
  | some _ => p
  | none =>
    let q := S.parse (p.rest ++ chunk)
    { q with items := p.items ++ q.items }

variable {S}

theorem push_error {p : Parsed β φ ε} {e : ε} (h : p.error = some e) (chunk : List β) :
    S.push p chunk = p := by
  unfold push; rw [h]

theorem push_none {p : Parsed β φ ε} (h : p.error = none) (chunk : List β) :
    S.push p chunk = { S.parse (p.rest ++ chunk) with
      items := p.items ++ (S.parse (p.rest ++ chunk)).items } := by
  unfold push; rw [h]

theorem foldl_push_error (chunks : List (List β)) {p : Parsed β φ ε} {e : ε}
    (h : p.error = some e) : chunks.foldl S.push p = p := by
  induction chunks with
  | nil => rfl
  | cons c chunks ih => rw [List.foldl_cons, push_error h, ih]

/-- **Chunking does not matter**: the items and the error are those of the whole stream, and the
rest too as long as the stream is not broken. -/
theorem foldl_push (chunks : List (List β)) :
    (chunks.foldl S.push {}).Agree (S.parse chunks.flatten) := by
  suffices h : ∀ (chunks : List (List β)) (xs : List β), (S.parse xs).error = none →
      (chunks.foldl S.push (S.parse xs)).Agree (S.parse (xs ++ chunks.flatten)) by
    have hnil : S.parse [] = {} := parse_more S.next_nil
    have := h chunks [] (by rw [hnil])
    rwa [hnil] at this
  intro chunks
  induction chunks with
  | nil => intro xs _; simp [Parsed.Agree]
  | cons c chunks ih =>
    intro xs hxs
    have hpush : S.push (S.parse xs) c = S.parse (xs ++ c) := by
      rw [push_none hxs, parse_append hxs]
    rw [List.foldl_cons, hpush, List.flatten_cons, ← List.append_assoc]
    rcases he : (S.parse (xs ++ c)).error with _ | e
    · exact ih _ he
    · obtain ⟨h1, h2⟩ := parse_append_error he chunks.flatten
      rw [foldl_push_error chunks he]
      exact ⟨h1.symm, he.trans h2.symm, fun h => by rw [h2] at h; cases h⟩

end Splitter

end RemoteCam.Lib.Framing
