import Mathlib.Data.List.Forall2
import Mathlib.Order.Monotone.Basic

/-! # A queue that loses items

Items come in at the end of a queue, are taken from its head and leave one by one, as something that
`R` relates to them. Any of them may be lost on the way: what has left are still items in the order
in which they came, and none of them twice. -/

namespace RemoteCam.Lib.Passing

variable {α β : Type*} {R : β → α → Prop} {out : List β} {hand queue items : List α} {item : α}

/-- What is `out` was there before what is in hand, and that before the queue. -/
def Passed (R : β → α → Prop) (out : List β) (hand queue items : List α) : Prop :=
  ∃ gone, List.Forall₂ R out gone ∧ List.Sublist (gone ++ (hand ++ queue)) items

theorem passed_nil (R : β → α → Prop) (items : List α) : Passed R [] [] [] items :=
  ⟨[], .nil, List.nil_sublist items⟩

theorem Passed.push (h : Passed R out hand queue items) (item : α) :
    Passed R out hand (queue ++ [item]) (items ++ [item]) := by
  obtain ⟨gone, hgone, hsub⟩ := h
  refine ⟨gone, hgone, ?_⟩
  rw [← List.append_assoc hand, ← List.append_assoc]
  exact hsub.append_right [item]

theorem Passed.take (h : Passed R out [] (item :: queue) items) : Passed R out [item] queue items :=
  h

/-- What was in hand is lost. -/
theorem Passed.lose (h : Passed R out hand queue items) : Passed R out [] queue items := by
  obtain ⟨gone, hgone, hsub⟩ := h
  exact ⟨gone, hgone, ((List.sublist_append_right hand queue).append_left gone).trans hsub⟩

/-- The queue is cleared. -/
theorem Passed.clear (h : Passed R out hand queue items) : Passed R out hand [] items := by
  obtain ⟨gone, hgone, hsub⟩ := h
  rw [Passed, List.append_nil]
  exact ⟨gone, hgone, ((List.sublist_append_left hand queue).append_left gone).trans hsub⟩

theorem Passed.leave (h : Passed R out [item] queue items) {b : β} (hb : R b item) :
    Passed R (out ++ [b]) [] queue items := by
  obtain ⟨gone, hgone, hsub⟩ := h
  refine ⟨gone ++ [item], List.rel_append hgone (.cons hb .nil), ?_⟩
  rw [List.append_assoc]
  exact hsub

/-- What has left are items, in order and each once. -/
theorem Passed.sublistForall₂ (h : Passed R out hand queue items) :
    List.SublistForall₂ R out items := by
  obtain ⟨gone, hgone, hsub⟩ := h
  exact List.sublistForall₂_iff.mpr ⟨gone, hgone, (List.sublist_append_left _ _).trans hsub⟩

/-- Each of them is one of the items. -/
theorem exists_of_sublistForall₂ (h : List.SublistForall₂ R out items) {b : β} (hb : b ∈ out) :
    ∃ item ∈ items, R b item := by
  induction h with
  | nil => exact absurd hb List.not_mem_nil
  | cons hr _ ih =>
    rcases List.mem_cons.mp hb with rfl | hb
    · exact ⟨_, List.mem_cons_self, hr⟩
    · obtain ⟨item, hitem, hr⟩ := ih hb
      exact ⟨item, List.mem_cons_of_mem _ hitem, hr⟩
  | cons_right _ ih =>
    obtain ⟨item, hitem, hr⟩ := ih hb
    exact ⟨item, List.mem_cons_of_mem _ hitem, hr⟩

/-- They can be followed back to their places among the items. -/
theorem exists_strictMono (h : List.SublistForall₂ R out items) :
    ∃ index : ℕ → ℕ, StrictMono index ∧
      ∀ i, ∀ b ∈ out[i]?, ∃ item ∈ items[index i]?, R b item := by
  induction h with
  | nil => exact ⟨id, strictMono_id, fun i b hb => absurd hb (by simp)⟩
  | @cons b item out items hr _ ih =>
    obtain ⟨index, hmono, hindex⟩ := ih
    refine ⟨fun i => Nat.casesOn i 0 fun i => index i + 1,
      strictMono_nat_of_lt_succ fun i => ?_, fun i c hc => ?_⟩
    · cases i with
      | zero => exact Nat.succ_pos (index 0)
      | succ i => exact Nat.succ_lt_succ (hmono (Nat.lt_succ_self i))
    · cases i with
      | zero =>
        obtain rfl := Option.some.inj hc
        exact ⟨item, rfl, hr⟩
      | succ i => exact hindex i c hc
  | cons_right _ ih =>
    obtain ⟨index, hmono, hindex⟩ := ih
    exact ⟨fun i => index i + 1, fun i j hij => Nat.succ_lt_succ (hmono hij), hindex⟩

end RemoteCam.Lib.Passing
