import RemoteCam.Lib.Transitions
import RemoteCam.Wire.Codec

/-! # What a session handler may rely on

The events of a listener as its handler and its owner see them, and `protocol`, which says when each
of them may come: the connections are served one after the other, each with one `onConnected`, its
frames and one `onDisconnected`. `Bracketed` is what this means for the list of all events;
`bracketed_of_legal` derives it from the protocol. -/

namespace RemoteCam.Net.SessionHandler

open RemoteCam.Wire.Codec RemoteCam.Lib.Transitions

inductive HRESULT where
  | S_OK
  | E_INVALIDARG
  | ERROR_CONNECTION_ABORTED
  | wsa (error : ℤ)
  deriving DecidableEq, Repr

/-- The calls of a `SessionHandler`. -/
inductive Callback where
  | onConnected
  | onFrame (frame : Frame)
  | onDisconnected (reason : HRESULT)
  deriving DecidableEq, Repr

/-- `closed` is the `closesocket` of a connection, `observed` a `valid()` of the connection's own
thread that says no, `stopped` the return of `stop`. -/
inductive Event where
  | called (connection : ℕ) (callback : Callback)
  | returned (connection : ℕ) (callback : Callback)
  | closed (connection : ℕ)
  | observed (connection : ℕ)
  | started
  | stopped
  deriving DecidableEq, Repr

def Event.isCallback : Event → Bool
  | .called .. | .returned .. => true
  | _ => false

/-- The connection that a callback is about. -/
def Event.owner : Event → Option ℕ
  | .called connection _ | .returned connection _ => some connection
  | _ => none

/-- The callback that an event is the call of, if it is one for the connection. -/
def Event.call? (c : ℕ) : Event → Option Callback
  | .called connection callback => if connection = c then some callback else none
  | _ => none

/-- The calls for a connection, in order. -/
def calls (c : ℕ) (log : List Event) : List Callback := log.filterMap (Event.call? c)

/-- One connection from its first call to its last. -/
def bracket (frames : List Frame) (reason : HRESULT) : List Callback :=
  .onConnected :: frames.map .onFrame ++ [.onDisconnected reason]

/-- A call that has returned. -/
def pair (x : ℕ × Callback) : List Event := [.called x.1 x.2, .returned x.1 x.2]

/-- **What the handler relies on**, where `finished` are the connections that are served. -/
structure Bracketed (finished : ℕ → Prop) (log : List Event) : Prop where
  started : ∀ c, ∃ frames reason, calls c log <+: bracket frames reason
  whole : ∀ c, (finished c ∨ ∃ c' > c, calls c' log ≠ []) →
    ∃ frames reason, calls c log = bracket frames reason
  /-- A call returns before the next one is made. -/
  apart : ∃ (done : List (ℕ × Callback)) (last : Option (ℕ × Callback)),
    log.filter Event.isCallback =
      done.flatMap pair ++ last.toList.map fun x => .called x.1 x.2
  inOrder : (log.filterMap Event.owner).Pairwise (· ≤ ·)
  /-- No frame once the connection was seen to be closed. -/
  observed : ∀ before c after, log = before ++ .observed c :: after →
    ∀ frame, .called c (.onFrame frame) ∉ after
  /-- No frame once a callback has returned from the closed connection. -/
  closed : ∀ before c between callback after,
    log = before ++ .closed c :: between ++ .returned c callback :: after →
    ∀ frame, .called c (.onFrame frame) ∉ after
  stopped : ∀ before after, log = before ++ .stopped :: after → .started ∉ after →
    ∀ e ∈ after, e.isCallback = false

/-! ### The protocol -/

/-- Between the calls for one connection; `dead` once no frame may follow. -/
inductive Stage where
  | waiting
  | calling (callback : Callback)
  | serving (dead : Bool)
  deriving DecidableEq, Repr

structure Phase where
  /-- The connections whose `onDisconnected` has returned; the next one has this number. -/
  served : ℕ := 0
  stage : Stage := .waiting
  closed : Bool := false
  stopped : Bool := false
  deriving DecidableEq, Repr

def Stage.admits : Stage → Callback → Bool
  | .waiting, .onConnected => true
  | .serving dead, .onFrame _ => !dead
  | .serving _, .onDisconnected _ => true
  | _, _ => false

def Stage.isServing : Stage → Bool
  | .serving _ => true
  | _ => false

def enabled (φ : Phase) : Event → Prop
  | .called c callback => c = φ.served ∧ φ.stopped = false ∧ φ.stage.admits callback = true
  | .returned c callback => c = φ.served ∧ φ.stage = .calling callback
  | .closed c => c ≤ φ.served
  | .observed c => c = φ.served ∧ φ.stage.isServing = true
  | .started => True
  | .stopped => φ.stage = .waiting

def next (φ : Phase) : Event → Phase
  | .called _ callback => { φ with stage := .calling callback }
  | .returned _ (.onDisconnected _) =>
    { φ with served := φ.served + 1, stage := .waiting, closed := false }
  | .returned _ _ => { φ with stage := .serving φ.closed }
  | .closed c => { φ with closed := φ.closed || c == φ.served }
  | .observed _ => { φ with stage := .serving true }
  | .started => { φ with stopped := false }
  | .stopped => { φ with stopped := true }

def protocol : Machine Phase Event := ⟨enabled, next⟩

/-! ### The calls so far -/

theorem calls_concat (c : ℕ) (log : List Event) (e : Event) :
    calls c (log ++ [e]) = calls c log ++ (e.call? c).toList := by
  rw [calls, List.filterMap_append]
  cases h : e.call? c with
  | none => rw [List.filterMap_cons_none h]; rfl
  | some callback => rw [List.filterMap_cons_some h]; rfl

/-- The calls for the connection in turn. -/
def Stage.Heard : Stage → List Callback → Prop
  | .waiting, cs => cs = []
  | .calling .onConnected, cs => cs = [.onConnected]
  | .calling (.onDisconnected reason), cs => ∃ frames, cs = bracket frames reason
  | .calling (.onFrame _), cs | .serving _, cs =>
    ∃ frames : List Frame, cs = .onConnected :: frames.map .onFrame

def Phase.last (φ : Phase) : Option (ℕ × Callback) :=
  match φ.stage with
  | .calling callback => some (φ.served, callback)
  | _ => none

theorem heard_called {stage : Stage} {callback : Callback} {cs : List Callback}
    (h : stage.Heard cs) (ha : stage.admits callback = true) :
    (Stage.calling callback).Heard (cs ++ [callback]) := by
  cases stage with
  | waiting =>
    cases callback with
    | onConnected =>
      obtain rfl : cs = [] := h
      rfl
    | onFrame frame => cases ha
    | onDisconnected reason => cases ha
  | calling callback => cases ha
  | serving dead =>
    obtain ⟨frames, rfl⟩ := h
    cases callback with
    | onConnected => cases ha
    | onFrame frame => exact ⟨frames ++ [frame], by rw [List.map_append]; rfl⟩
    | onDisconnected reason => exact ⟨frames, rfl⟩

theorem heard_bracket {stage : Stage} {cs : List Callback} (h : stage.Heard cs) :
    ∃ frames reason, cs <+: bracket frames reason := by
  cases stage with
  | waiting =>
    obtain rfl : cs = [] := h
    exact ⟨[], .S_OK, List.nil_prefix⟩
  | calling callback =>
    cases callback with
    | onConnected =>
      obtain rfl : cs = [.onConnected] := h
      exact ⟨[], .S_OK, [.onDisconnected .S_OK], rfl⟩
    | onFrame frame =>
      obtain ⟨frames, rfl⟩ := h
      exact ⟨frames, .S_OK, List.prefix_append _ _⟩
    | onDisconnected reason =>
      obtain ⟨frames, rfl⟩ := h
      exact ⟨frames, reason, List.prefix_rfl⟩
  | serving dead =>
    obtain ⟨frames, rfl⟩ := h
    exact ⟨frames, .S_OK, List.prefix_append _ _⟩

/-- What the events so far say about the phase they have led to. -/
structure Past (log : List Event) (φ : Phase) : Prop where
  done : ∀ c < φ.served, ∃ frames reason, calls c log = bracket frames reason
  now : φ.stage.Heard (calls φ.served log)
  later : ∀ c, φ.served < c → calls c log = []
  apart : ∃ done : List (ℕ × Callback), log.filter Event.isCallback =
    done.flatMap pair ++ φ.last.toList.map fun x => .called x.1 x.2
  inOrder : (log.filterMap Event.owner).Pairwise (· ≤ ·)
  bound : ∀ c ∈ log.filterMap Event.owner, c ≤ φ.served

theorem past_nil : Past [] {} :=
  ⟨nofun, rfl, fun _ _ => rfl, ⟨[], rfl⟩, .nil, nofun⟩

variable {log : List Event} {φ : Phase}

/-- An event that is no callback. -/
theorem Past.other (P : Past log φ) {e : Event} (he : e.isCallback = false) {ψ : Phase}
    (hserved : ψ.served = φ.served) (hlast : ψ.last = φ.last)
    (hheard : ∀ cs, φ.stage.Heard cs → ψ.stage.Heard cs) : Past (log ++ [e]) ψ := by
  have hcalls : ∀ c, calls c (log ++ [e]) = calls c log := by
    intro c
    rw [calls_concat]
    cases e <;> first | exact List.append_nil _ | cases he
  have howner : (log ++ [e]).filterMap Event.owner = log.filterMap Event.owner := by
    rw [List.filterMap_append]
    cases e <;> first | exact List.append_nil _ | cases he
  refine ⟨?_, ?_, ?_, ?_, ?_, ?_⟩
  · simp only [hcalls, hserved]
    exact P.done
  · rw [hcalls, hserved]
    exact hheard _ P.now
  · simp only [hcalls, hserved]
    exact P.later
  · rw [List.filter_append, List.filter_cons_of_neg (by rw [he]; nofun), hlast]
    simpa using P.apart
  · rw [howner]
    exact P.inOrder
  · rw [howner, hserved]
    exact P.bound

/-- A callback's connection is the one in turn, and comes behind those before. -/
theorem Past.owner (P : Past log φ) {e : Event} (he : e.owner = some φ.served) :
    ((log ++ [e]).filterMap Event.owner).Pairwise (· ≤ ·) ∧
      ∀ c ∈ (log ++ [e]).filterMap Event.owner, c ≤ φ.served := by
  have howner : (log ++ [e]).filterMap Event.owner = log.filterMap Event.owner ++ [φ.served] := by
    rw [List.filterMap_append, List.filterMap_cons_some he]
    rfl
  rw [howner]
  refine ⟨List.pairwise_append.mpr ⟨P.inOrder, List.pairwise_singleton _ _, ?_⟩, ?_⟩
  · intro c hc c' hc'
    rw [List.mem_singleton.mp hc']
    exact P.bound c hc
  · intro c hc
    rcases List.mem_append.mp hc with hc | hc
    · exact P.bound c hc
    · exact (List.mem_singleton.mp hc).le

theorem Past.called (P : Past log φ) {callback : Callback}
    (ha : φ.stage.admits callback = true) :
    Past (log ++ [.called φ.served callback]) { φ with stage := .calling callback } := by
  obtain ⟨hinOrder, hbound⟩ := @P.owner _ _ (.called φ.served callback) rfl
  have hother : ∀ c, c ≠ φ.served → calls c (log ++ [.called φ.served callback]) = calls c log := by
    intro c hc
    rw [calls_concat, Event.call?, if_neg (Ne.symm hc)]
    exact List.append_nil _
  refine ⟨fun c hc => ?_, ?_, fun c hc => ?_, ?_, hinOrder, hbound⟩
  · rw [hother c (Nat.ne_of_lt hc)]
    exact P.done c hc
  · change Stage.Heard _ (calls φ.served _)
    rw [calls_concat, Event.call?, if_pos rfl]
    exact heard_called P.now ha
  · rw [hother c (Nat.ne_of_gt hc)]
    exact P.later c hc
  · obtain ⟨done, hdone⟩ := P.apart
    have hnone : φ.last = none := by
      unfold Phase.last
      cases hstage : φ.stage with
      | calling callback' =>
        rw [hstage] at ha
        cases ha
      | _ => rfl
    rw [hnone] at hdone
    refine ⟨done, ?_⟩
    rw [List.filter_append, hdone]
    simp [Event.isCallback, Phase.last]

theorem Past.returned (P : Past log φ) {callback : Callback}
    (hstage : φ.stage = .calling callback) :
    Past (log ++ [.returned φ.served callback]) (next φ (.returned φ.served callback)) := by
  obtain ⟨hinOrder, hbound⟩ := @P.owner _ _ (.returned φ.served callback) rfl
  have hcalls : ∀ c, calls c (log ++ [.returned φ.served callback]) = calls c log := by
    intro c
    rw [calls_concat]
    exact List.append_nil _
  have hnow := P.now
  rw [hstage] at hnow
  have hapart : ∃ done : List (ℕ × Callback),
      (log ++ [Event.returned φ.served callback]).filter Event.isCallback =
        done.flatMap pair ++ [] := by
    obtain ⟨done, hdone⟩ := P.apart
    have hlast : φ.last = some (φ.served, callback) := by rw [Phase.last, hstage]
    rw [hlast] at hdone
    refine ⟨done ++ [(φ.served, callback)], ?_⟩
    rw [List.filter_append, hdone]
    simp [Event.isCallback, pair]
  cases callback with
  | onDisconnected reason =>
    refine ⟨fun c hc => ?_, ?_, fun c hc => ?_, hapart, hinOrder, fun c hc => ?_⟩
    · rw [hcalls]
      rcases Nat.lt_succ_iff_lt_or_eq.mp hc with hlt | rfl
      · exact P.done c hlt
      · obtain ⟨frames, hframes⟩ := hnow
        exact ⟨frames, reason, hframes⟩
    · change calls (φ.served + 1) _ = []
      rw [hcalls]
      exact P.later _ (Nat.lt_succ_self _)
    · rw [hcalls]
      exact P.later c (Nat.lt_of_succ_lt hc)
    · exact Nat.le_succ_of_le (hbound c hc)
  | onConnected =>
    refine ⟨fun c hc => ?_, ?_, fun c hc => ?_, hapart, hinOrder, hbound⟩
    · rw [hcalls]
      exact P.done c hc
    · change Stage.Heard (.serving _) (calls φ.served _)
      rw [hcalls]
      exact ⟨[], hnow⟩
    · rw [hcalls]
      exact P.later c hc
  | onFrame frame =>
    refine ⟨fun c hc => ?_, ?_, fun c hc => ?_, hapart, hinOrder, hbound⟩
    · rw [hcalls]
      exact P.done c hc
    · change Stage.Heard (.serving _) (calls φ.served _)
      rw [hcalls]
      exact hnow
    · rw [hcalls]
      exact P.later c hc

theorem past_next (past : List Event) (φ : Phase) (e : Event) (P : Past past φ)
    (h : enabled φ e) : Past (past ++ [e]) (next φ e) := by
  cases e with
  | called c callback =>
    obtain ⟨rfl, -, ha⟩ := h
    exact P.called ha
  | returned c callback =>
    obtain ⟨rfl, hstage⟩ := h
    exact P.returned hstage
  | closed c => exact P.other rfl rfl rfl fun _ hcs => hcs
  | observed c =>
    obtain ⟨-, hserving⟩ := h
    cases hstage : φ.stage with
    | serving dead =>
      refine P.other rfl rfl (by simp only [Phase.last, hstage]; rfl) fun cs hcs => ?_
      rw [hstage] at hcs
      exact hcs
    | waiting =>
      rw [hstage] at hserving
      cases hserving
    | calling callback =>
      rw [hstage] at hserving
      cases hserving
  | started => exact P.other rfl rfl rfl fun _ hcs => hcs
  | stopped => exact P.other rfl rfl rfl fun _ hcs => hcs

/-! ### What is ruled out from an event on -/

variable {c : ℕ} {before after : List Event}

/-- No frame may be delivered for the connection any more. -/
def Phase.Dead (c : ℕ) (φ : Phase) : Prop :=
  c < φ.served ∨ c = φ.served ∧
    (φ.stage = .serving true ∨ ∃ reason, φ.stage = .calling (.onDisconnected reason))

/-- The connection is closed, and one more frame at most may be delivered. -/
def Phase.Closed (c : ℕ) (φ : Phase) : Prop := c < φ.served ∨ c = φ.served ∧ φ.closed = true

theorem dead_next (φ : Phase) (e : Event) (D : φ.Dead c) (h : enabled φ e) :
    (next φ e).Dead c ∧ ∀ frame, e ≠ .called c (.onFrame frame) := by
  cases e with
  | called c' callback =>
    obtain ⟨rfl, -, ha⟩ := h
    rcases D with hlt | ⟨rfl, hstage | ⟨reason, hstage⟩⟩
    · refine ⟨.inl hlt, fun frame heq => ?_⟩
      exact absurd (Event.called.inj heq).1 (Nat.ne_of_gt hlt)
    · rw [hstage] at ha
      cases callback with
      | onConnected => cases ha
      | onFrame frame => cases ha
      | onDisconnected reason => exact ⟨.inr ⟨rfl, .inr ⟨reason, rfl⟩⟩, nofun⟩
    · rw [hstage] at ha
      cases ha
  | returned c' callback =>
    obtain ⟨rfl, hcalling⟩ := h
    refine ⟨?_, nofun⟩
    rcases D with hlt | ⟨rfl, hstage | ⟨reason, hstage⟩⟩
    · cases callback with
      | onDisconnected reason => exact .inl (Nat.lt_succ_of_lt hlt)
      | onConnected => exact .inl hlt
      | onFrame frame => exact .inl hlt
    · cases hstage.symm.trans hcalling
    · obtain rfl := Stage.calling.inj (hstage.symm.trans hcalling)
      exact .inl (Nat.lt_succ_self _)
  | observed c' =>
    refine ⟨?_, nofun⟩
    rcases D with hlt | ⟨rfl, -⟩
    · exact .inl hlt
    · exact .inr ⟨rfl, .inl rfl⟩
  | closed c' => exact ⟨D, nofun⟩
  | started => exact ⟨D, nofun⟩
  | stopped => exact ⟨D, nofun⟩

theorem closed_next (φ : Phase) (e : Event) (C : φ.Closed c) : (next φ e).Closed c := by
  cases e with
  | returned c' callback =>
    cases callback with
    | onDisconnected reason =>
      rcases C with hlt | ⟨rfl, -⟩
      · exact .inl (Nat.lt_succ_of_lt hlt)
      · exact .inl (Nat.lt_succ_self _)
    | onConnected => exact C
    | onFrame frame => exact C
  | closed c' =>
    rcases C with hlt | ⟨rfl, hclosed⟩
    · exact .inl hlt
    · exact .inr ⟨rfl, by rw [next, hclosed]; rfl⟩
  | called c' callback => exact C
  | observed c' => exact C
  | started => exact C
  | stopped => exact C

/-- A callback that returns from a closed connection is followed by no frame. -/
theorem dead_returned {callback : Callback} (C : φ.Closed c)
    (h : enabled φ (.returned c callback)) : (next φ (.returned c callback)).Dead c := by
  obtain ⟨rfl, hstage⟩ := h
  rcases C with hlt | ⟨-, hclosed⟩
  · exact absurd hlt (Nat.lt_irrefl _)
  · cases callback with
    | onDisconnected reason => exact .inl (Nat.lt_succ_self _)
    | onConnected => exact .inr ⟨rfl, .inl (by rw [next, hclosed]; nofun)⟩
    | onFrame frame => exact .inr ⟨rfl, .inl (by rw [next, hclosed]; nofun)⟩

theorem Phase.Dead.no_frame (D : φ.Dead c) (h : protocol.Legal (fun _ _ => True) φ after)
    (frame : Frame) : .called c (.onFrame frame) ∉ after := by
  intro hmem
  have hgood := h.along D (fun φ e D he _ => (dead_next φ e D he).1)
    (fun φ e D he _ => (dead_next φ e D he).2)
  exact hgood.forall_mem _ hmem frame rfl

/-- Once stopped, no callback is called until the next start, and none was left to return. -/
theorem stopped_next (φ : Phase) (e : Event) (h : φ.stopped = true ∧ φ.stage = .waiting)
    (he : enabled φ e) (hstarted : e ≠ .started) :
    ((next φ e).stopped = true ∧ (next φ e).stage = .waiting) ∧ e.isCallback = false := by
  obtain ⟨hstopped, hstage⟩ := h
  cases e with
  | called c' callback =>
    rw [he.2.1] at hstopped
    cases hstopped
  | returned c' callback => cases hstage.symm.trans he.2
  | observed c' =>
    obtain ⟨-, hserving⟩ := he
    rw [hstage] at hserving
    cases hserving
  | closed c' => exact ⟨⟨hstopped, hstage⟩, rfl⟩
  | started => exact absurd rfl hstarted
  | stopped => exact ⟨⟨rfl, hstage⟩, rfl⟩

/-- **The protocol brackets the callbacks.** -/
theorem bracketed_of_legal (h : protocol.Legal (fun _ _ => True) {} log) :
    Bracketed (· < (protocol.exec {} log).served) log := by
  have P : Past log (protocol.exec {} log) :=
    h.history past_nil fun past φ e P he _ => past_next past φ e P he
  refine ⟨fun c => ?_, ?_, ?_, P.inOrder, ?_, ?_, ?_⟩
  · rcases Nat.lt_trichotomy c (protocol.exec {} log).served with hlt | rfl | hgt
    · obtain ⟨frames, reason, hcalls⟩ := P.done c hlt
      exact ⟨frames, reason, hcalls ▸ List.prefix_rfl⟩
    · exact heard_bracket P.now
    · exact ⟨[], .S_OK, by rw [P.later c hgt]; exact List.nil_prefix⟩
  · rintro c (hlt | ⟨c', hgt, hcalls⟩)
    · exact P.done c hlt
    · have hle : c' ≤ (protocol.exec {} log).served := by
        by_contra hlater
        exact hcalls (P.later c' (Nat.not_le.mp hlater))
      exact P.done c (Nat.lt_of_lt_of_le hgt hle)
  · obtain ⟨done, hdone⟩ := P.apart
    exact ⟨done, _, hdone⟩
  · rintro before c after rfl frame
    obtain ⟨-, ⟨rfl, -⟩, -, hafter⟩ := Machine.legal_append.mp h
    exact Phase.Dead.no_frame (.inr ⟨rfl, .inl rfl⟩) hafter frame
  · rintro before c between callback after rfl frame
    rw [List.append_assoc, List.cons_append] at h
    obtain ⟨-, hle, -, hrest⟩ := Machine.legal_append.mp h
    obtain ⟨hbetween, hreturned, -, hafter⟩ := Machine.legal_append.mp hrest
    have C : (next (protocol.exec {} before) (.closed c)).Closed c := by
      rcases Nat.lt_or_eq_of_le hle with hlt | rfl
      · exact .inl hlt
      · exact .inr ⟨rfl, by simp [next]⟩
    have C' := hbetween.invariant C fun φ e C _ _ => closed_next φ e C
    exact Phase.Dead.no_frame (dead_returned C' hreturned) hafter frame
  · rintro before after rfl hstarted e hmem
    obtain ⟨-, hwaiting, -, hafter⟩ := Machine.legal_append.mp h
    have hlegal : protocol.Legal (fun _ e => e ≠ .started) _ after :=
      hafter.of_split fun before e' after' hsplit heq => hstarted (by rw [hsplit, heq]; simp)
    have S : (next (protocol.exec {} before) .stopped).stopped = true ∧
        (next (protocol.exec {} before) .stopped).stage = .waiting := ⟨rfl, hwaiting⟩
    have hgood := hlegal.along (I := fun φ => φ.stopped = true ∧ φ.stage = .waiting) S
      (fun φ e h he hne => (stopped_next φ e h he hne).1)
      (fun φ e h he hne => (stopped_next φ e h he hne).2)
    exact hgood.forall_mem e hmem

end RemoteCam.Net.SessionHandler
