import RemoteCam.Lib.Readers

/-! # Runs with marks

A run leaves marks on its way and ends with a result or at a defect. A reporter stops at the first
mark that it minds and says which error this is; a run without such marks it follows to its end.
`cut` is what it reports, and reporting commutes with sequencing (`cut_bind`), so two readers that
mind different things can be held against one run. `Follows` says that a reader is such a report. -/

namespace RemoteCam.Lib.Marks

open RemoteCam.Lib.Readers

structure Marked (μ δ α : Type) where
  marks : List μ
  outcome : Except δ α

/-- Which error a mark is, if any, and which error a defect is; `caseOf` forgets what an error of
the reader carries. -/
structure Reporter (ε' ε μ δ : Type) where
  caseOf : ε' → ε
  stop : μ → Option ε
  name : δ → ε

variable {μ δ α β σ α' β' ε ε' : Type}

namespace Marked

def fail (d : δ) : Marked μ δ α := ⟨[], .error d⟩

def mark (marks : List μ) : Marked μ δ Unit := ⟨marks, .ok ()⟩

instance : Monad (Marked μ δ) where
  pure a := ⟨[], .ok a⟩
  bind m k :=
    match m.outcome with
    | .ok a => ⟨m.marks ++ (k a).marks, (k a).outcome⟩
    | .error d => ⟨m.marks, .error d⟩

theorem bind_ok {m : Marked μ δ α} {a : α} (h : m.outcome = .ok a) (k : α → Marked μ δ β) :
    m >>= k = ⟨m.marks ++ (k a).marks, (k a).outcome⟩ := by
  change (match m.outcome with
    | .ok a => (⟨m.marks ++ (k a).marks, (k a).outcome⟩ : Marked μ δ β)
    | .error d => ⟨m.marks, .error d⟩) = _
  rw [h]

theorem bind_error {m : Marked μ δ α} {d : δ} (h : m.outcome = .error d) (k : α → Marked μ δ β) :
    m >>= k = ⟨m.marks, .error d⟩ := by
  change (match m.outcome with
    | .ok a => (⟨m.marks ++ (k a).marks, (k a).outcome⟩ : Marked μ δ β)
    | .error d => ⟨m.marks, .error d⟩) = _
  rw [h]

theorem bind_assoc (m : Marked μ δ α) (f : α → Marked μ δ α') (g : α' → Marked μ δ β) :
    m >>= f >>= g = m >>= fun a => f a >>= g := by
  cases hm : m.outcome with
  | error d =>
    rw [bind_error hm, bind_error hm]
    exact bind_error rfl g
  | ok a =>
    rw [bind_ok hm, bind_ok hm]
    cases hf : (f a).outcome with
    | error d => rw [bind_error hf, bind_error rfl]
    | ok b => rw [bind_ok hf, bind_ok rfl, List.append_assoc]

end Marked

/-! ### Reports -/

section Reports
variable (r : Reporter ε' ε μ δ)

/-- The first mark that is an error, or else the end of the run. -/
def cut (m : Marked μ δ α) : Except ε α :=
  match m.marks.findSome? r.stop with
  | some e => .error e
  | none => m.outcome.mapError r.name

@[simp] theorem cut_pure (a : α) : cut r (pure a : Marked μ δ α) = .ok a := rfl

@[simp] theorem cut_fail (d : δ) : cut r (.fail d : Marked μ δ α) = .error (r.name d) := rfl

/-- **Reporting goes step by step.** -/
theorem cut_bind (m : Marked μ δ α) (k : α → Marked μ δ β) :
    cut r (m >>= k) = cut r m >>= fun a => cut r (k a) := by
  cases h : m.outcome with
  | ok a =>
    rw [Marked.bind_ok h]
    unfold cut
    rw [List.findSome?_append, h]
    cases m.marks.findSome? r.stop <;> rfl
  | error d =>
    rw [Marked.bind_error h]
    unfold cut
    rw [h]
    cases m.marks.findSome? r.stop <;> rfl

/-- A mark that the reporter does not mind. -/
theorem cut_mark_bind {marks : List μ} (h : ∀ mark ∈ marks, r.stop mark = none)
    (k : Unit → Marked μ δ α) : cut r (.mark marks >>= k) = cut r (k ()) := by
  rw [cut_bind, cut, Marked.mark, List.findSome?_eq_none_iff.mpr h]
  rfl

theorem cut_mark_stop {mark : μ} {e : ε} (h : r.stop mark = some e) (k : Unit → Marked μ δ α) :
    cut r (.mark [mark] >>= k) = .error e := by
  rw [cut_bind, cut, Marked.mark, List.findSome?_singleton, h]
  rfl

/-- A reporter that minds one mark only. -/
theorem cut_eq [DecidableEq μ] {mark : μ} {e : ε}
    (h : ∀ mark', r.stop mark' = if mark' = mark then some e else none) (m : Marked μ δ α) :
    cut r m = if mark ∈ m.marks then .error e else m.outcome.mapError r.name := by
  unfold cut
  split_ifs with hmem
  · cases hfind : m.marks.findSome? r.stop with
    | none =>
      have hnone := List.findSome?_eq_none_iff.mp hfind mark hmem
      rw [h, if_pos rfl] at hnone
      cases hnone
    | some e' =>
      obtain ⟨mark', -, hstop⟩ := List.exists_of_findSome?_eq_some hfind
      rw [h] at hstop
      split_ifs at hstop
      rw [Option.some.inj hstop]
  · have hnone : m.marks.findSome? r.stop = none :=
      List.findSome?_eq_none_iff.mpr fun mark' hmark => by
        have hne : mark' ≠ mark := fun heq => hmem (heq ▸ hmark)
        rw [h, if_neg hne]
    rw [hnone]

/-- What a reader returns, with the case of its error and `view` of its result. -/
def report (view : α → β) : Except ε' α → Except ε β
  | .ok a => .ok (view a)
  | .error e => .error (r.caseOf e)

/-- On the inputs of `dom` the reader reports on the run. -/
def Follows (dom : List σ → Prop) (view : α → β) (read : List σ → Except ε' (α × List σ))
    (run : List σ → Marked μ δ (β × List σ)) : Prop :=
  ∀ l, dom l → report r (fun p => (view p.1, p.2)) (read l) = cut r (run l)

variable {r} {dom : List σ → Prop} {view : α → β} {view' : α' → β'}

theorem Follows.pure {a : α} {b : β} (h : view a = b) :
    Follows r dom view (fun l => .ok (a, l)) fun l => pure (b, l) := by
  intro l _
  rw [cut_pure, report, h]

theorem Follows.fail {e : ε'} {d : δ} (h : r.caseOf e = r.name d) :
    Follows r dom view (fun _ => .error e) fun _ => .fail d := by
  intro l _
  rw [cut_fail, report, h]

theorem Follows.ite {c : Prop} [Decidable c] {read read' : List σ → Except ε' (α × List σ)}
    {run run' : List σ → Marked μ δ (β × List σ)} (h : Follows r dom view read run)
    (h' : Follows r dom view read' run') :
    Follows r dom view (fun l => if c then read l else read' l)
      fun l => if c then run l else run' l := by
  split_ifs
  · exact h
  · exact h'

/-- What is left of an input of `dom` is one. -/
def Keeps (dom : List σ → Prop) (read : List σ → Except ε' (α × List σ)) : Prop :=
  ∀ l p, dom l → read l = .ok p → dom p.2

theorem Follows.bind {read : List σ → Except ε' (α × List σ)}
    {run : List σ → Marked μ δ (β × List σ)} {k : α × List σ → Except ε' (α' × List σ)}
    {k' : β × List σ → Marked μ δ (β' × List σ)} (h : Follows r dom view read run)
    (hkeeps : Keeps dom read)
    (hk : ∀ a, Follows r dom view' (fun l => k (a, l)) fun l => k' (view a, l)) :
    Follows r dom view' (fun l => read l >>= k) fun l => run l >>= k' := by
  intro l hl
  have hread := h l hl
  dsimp only
  rw [cut_bind, ← hread]
  cases hr : read l with
  | ok p => exact hk p.1 p.2 (hkeeps l p hl hr)
  | error e => rfl

/-- Nothing is read after it. -/
theorem Follows.last {read : List σ → Except ε' (α × List σ)}
    {run : List σ → Marked μ δ (β × List σ)} {f : α → α'} (g : β → β')
    (h : Follows r dom view read run) (hf : ∀ a, view' (f a) = g (view a)) :
    Follows r dom view' (fun l => read l >>= fun p => .ok (f p.1, p.2))
      fun l => run l >>= fun q => Pure.pure (g q.1, q.2) := by
  intro l hl
  dsimp only
  rw [cut_bind, ← h l hl]
  cases read l with
  | ok p =>
    change Except.ok (view' (f p.1), p.2) = Except.ok (g (view p.1), p.2)
    rw [hf]
  | error e => rfl

/-- A result that is only made into another one. -/
theorem Follows.map {read : List σ → Except ε' (α × List σ)}
    {run : List σ → Marked μ δ (β × List σ)} {view' : α' → β} {f : α → α'}
    (h : Follows r dom view read run) (hf : ∀ a, view' (f a) = view a) :
    Follows r dom view' (fun l => read l >>= fun p => .ok (f p.1, p.2)) run := by
  intro l hl
  dsimp only
  rw [← h l hl]
  cases read l with
  | ok p =>
    change Except.ok (view' (f p.1), p.2) = _
    rw [hf]
    rfl
  | error e => rfl

theorem Follows.mark {read : List σ → Except ε' (α × List σ)}
    {run : List σ → Marked μ δ (β × List σ)} {marks : List μ}
    (h : Follows r dom view read run) (hmarks : ∀ mark ∈ marks, r.stop mark = none) :
    Follows r dom view read fun l => .mark marks >>= fun _ => run l := by
  intro l hl
  rw [cut_mark_bind r hmarks, h l hl]

theorem Follows.stop {run : List σ → Marked μ δ (β × List σ)} {mark : μ} {e : ε'}
    (h : r.stop mark = some (r.caseOf e)) :
    Follows r dom view (fun _ => .error e) fun l => .mark [mark] >>= fun _ => run l := by
  intro l _
  rw [cut_mark_stop r h]
  rfl

end Reports

end RemoteCam.Lib.Marks
