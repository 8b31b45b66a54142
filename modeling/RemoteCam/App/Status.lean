import Mathlib.Data.List.Basic

/-! # What the window says about the session

`SessionStatus` shows the events of the controller one after the other. `Marked` are the lists of
events that tell the truth about authentication in time, and `Marked.truthful` is what the window
makes of them; `Owed` is what the controller has to post to keep them so. -/

namespace RemoteCam.App.Status

/-! ### The window -/

/-- Its UTF-16 code units. -/
abbrev QString := List UInt16

/-- A literal of the source. -/
def text (s : String) : QString := s.toList.map fun c => c.val.toUInt16

structure SessionStatus where
  stateLabel : QString := text "Waiting for iPhone"
  detail : QString := text "No phone is connected to the receiver."
  streaming : Bool := false
  unauthenticated : Bool := false
  peer : QString := []
  deriving DecidableEq, Repr

namespace SessionStatus

variable (s : SessionStatus)

/-- `applyEvent` for `session.state`. -/
def applyState (detail : QString) : SessionStatus :=
  if detail = text "awaiting_hello" then
    { s with
      unauthenticated := false
      peer := []
      stateLabel := text "iPhone connected"
      detail := text "Waiting for the phone identity handshake."
      streaming := false }
  else if detail = text "awaiting_trust" then
    { s with
      stateLabel := text "Secure pairing required"
      detail := text
        "The phone is identified, but authenticated pairing is not yet available."
      streaming := false }
  else if detail = text "ready" then
    { s with
      stateLabel :=
        if s.unauthenticated then text "Phone ready, not authenticated" else text "Phone ready"
      detail :=
        if s.unauthenticated then
          s.peer ++ text
            " is preparing video. Pairing was skipped, so control and video are unencrypted."
        else text "The authenticated test session is preparing video."
      streaming := false }
  else if detail = text "streaming" then
    { s with
      stateLabel :=
        if s.unauthenticated then text "Phone streaming, not authenticated"
        else text "Phone streaming"
      detail :=
        if s.unauthenticated then
          text "Encoded video from " ++ s.peer ++
            text " is arriving unauthenticated and unencrypted."
        else text "Encoded phone video is arriving at the Windows backend."
      streaming := true }
  else if text "disconnected" <+: detail then
    { s with
      unauthenticated := false
      peer := []
      stateLabel := text "Waiting for iPhone"
      detail := text "The phone disconnected from the receiver."
      streaming := false }
  else s

def applyEvent (kind detail : QString) : SessionStatus :=
  if kind = text "session.state" then s.applyState detail
  else if kind = text "security.unauthenticated" then
    { s with
      unauthenticated := true
      peer := if detail.length > 64 then detail.take 61 ++ text "..." else detail }
  else if kind = text "session.timeout" then
    { s with stateLabel := text "Phone timed out", detail, streaming := false }
  else if kind = text "video.invalid" ∨ kind = text "video.backpressure" then
    { s with detail := kind ++ text ": " ++ detail }
  else s

end SessionStatus

/-! ### The events -/

/-- An event, and whether the phone had been authenticated when it was posted. -/
structure Post where
  kind : QString
  detail : QString
  authenticated : Bool
  deriving DecidableEq, Repr

/-- What the window shows after the events. -/
def shown (events : List Post) : SessionStatus :=
  events.foldl (fun s e => s.applyEvent e.kind e.detail) {}

/-- The last event that told the state of the session. -/
def current (events : List Post) : Option Post :=
  (events.filter fun e => e.kind = text "session.state").getLast?

/-- The session was told to be ready or streaming. -/
def Post.opens (e : Post) : Prop :=
  e.kind = text "session.state" ∧ (e.detail = text "ready" ∨ e.detail = text "streaming")

structure Truthful (events : List Post) : Prop where
  flagged : ∀ e ∈ current events, e.opens → (shown events).unauthenticated = !e.authenticated
  secure : (shown events).stateLabel = text "Phone ready" ∨
    (shown events).stateLabel = text "Phone streaming" →
    ∃ e ∈ current events, e.opens ∧ e.authenticated = true
  insecure : (shown events).stateLabel = text "Phone ready, not authenticated" ∨
    (shown events).stateLabel = text "Phone streaming, not authenticated" →
    ∃ e ∈ current events, e.opens ∧ e.authenticated = false
  streaming : (shown events).streaming = true →
    ∃ e ∈ current events, e.detail = text "streaming"

/-! ### What the window makes of the events -/

/-- The names of the states that are told. -/
def names : List String :=
  ["awaiting_hello", "awaiting_trust", "ready", "streaming", "disconnected",
    "disconnected_with_error"]

/-- Every state that is told has a name. Before the session is told to be open, and not after, the
window hears of a phone that is not authenticated. -/
inductive Marked : List Post → Prop
  | nil : Marked []
  | concat {events : List Post} {e : Post} (h : Marked events)
      (hnamed : e.kind = text "session.state" → ∃ name ∈ names, e.detail = text name)
      (hflagged : e.opens → (shown events).unauthenticated = !e.authenticated)
      (hannounced : e.kind = text "security.unauthenticated" → ∀ x ∈ current events, ¬ x.opens) :
      Marked (events ++ [e])

theorem shown_concat (events : List Post) (e : Post) :
    shown (events ++ [e]) = (shown events).applyEvent e.kind e.detail := by
  unfold shown
  rw [List.foldl_append, List.foldl_cons, List.foldl_nil]

theorem current_concat_state (events : List Post) {e : Post} (h : e.kind = text "session.state") :
    current (events ++ [e]) = some e := by
  unfold current
  rw [List.filter_append, List.filter_cons_of_pos (by simpa using h), List.filter_nil,
    List.getLast?_concat]

theorem current_concat_other (events : List Post) {e : Post} (h : e.kind ≠ text "session.state") :
    current (events ++ [e]) = current events := by
  unfold current
  rw [List.filter_append, List.filter_cons_of_neg (by simpa using h), List.filter_nil,
    List.append_nil]

theorem text_inj {name other : String} (hname : name ∈ names) (hother : other ∈ names) :
    text name = text other ↔ name = other := by
  have hall : ∀ x ∈ names, ∀ y ∈ names, text x = text y → x = y := by decide
  exact ⟨hall name hname other hother, congrArg text⟩

/-- What one event about the state leaves on the window. -/
theorem applyState_truthful (s : SessionStatus) {name : String} (hname : name ∈ names)
    {authenticated : Bool} (hflag : name = "ready" ∨ name = "streaming" →
      s.unauthenticated = !authenticated) :
    let s' := s.applyState (text name)
    (name = "ready" ∨ name = "streaming" → s'.unauthenticated = !authenticated) ∧
    (s'.stateLabel = text "Phone ready" ∨ s'.stateLabel = text "Phone streaming" →
      (name = "ready" ∨ name = "streaming") ∧ authenticated = true) ∧
    (s'.stateLabel = text "Phone ready, not authenticated" ∨
      s'.stateLabel = text "Phone streaming, not authenticated" →
      (name = "ready" ∨ name = "streaming") ∧ authenticated = false) ∧
    (s'.streaming = true → name = "streaming") := by
  obtain ⟨stateLabel, detail, streaming, unauthenticated, peer⟩ := s
  simp only [names, List.mem_cons, List.not_mem_nil, or_false] at hname
  rcases hname with rfl | rfl | rfl | rfl | rfl | rfl
  all_goals
    revert hflag
    cases authenticated <;> cases unauthenticated <;>
      simp +decide [SessionStatus.applyState]

/-- What any other event leaves on the window. -/
theorem applyEvent_other (s : SessionStatus) {kind : QString} (h : kind ≠ text "session.state")
    (detail : QString) :
    let s' := s.applyEvent kind detail
    (kind ≠ text "security.unauthenticated" → s'.unauthenticated = s.unauthenticated) ∧
      (s'.stateLabel = s.stateLabel ∨ s'.stateLabel = text "Phone timed out") ∧
      (s'.streaming = true → s.streaming = true) := by
  intro s'
  change (_ → (s.applyEvent kind detail).unauthenticated = _) ∧ _
  unfold s' SessionStatus.applyEvent
  rw [if_neg h]
  split_ifs with hskipped hlong htimeout hvideo
  · exact ⟨fun hne => absurd hskipped hne, .inl rfl, id⟩
  · exact ⟨fun hne => absurd hskipped hne, .inl rfl, id⟩
  · exact ⟨fun _ => rfl, .inr rfl, nofun⟩
  · exact ⟨fun _ => rfl, .inl rfl, id⟩
  · exact ⟨fun _ => rfl, .inl rfl, id⟩

/-- **What is shown is true**, if the events are marked. -/
theorem Marked.truthful {events : List Post} (h : Marked events) : Truthful events := by
  induction h with
  | nil =>
    refine ⟨nofun, fun hlabel => ?_, fun hlabel => ?_, nofun⟩ <;>
      exact absurd hlabel (by decide)
  | @concat events e h hname hflag hannounced ih =>
    obtain ⟨flagged, secure, insecure, streaming⟩ := ih
    by_cases hkind : e.kind = text "session.state"
    · obtain ⟨name, hmem, hdetail⟩ := hname hkind
      have hopens : e.opens ↔ name = "ready" ∨ name = "streaming" := by
        rw [Post.opens, hdetail, text_inj hmem (by decide), text_inj hmem (by decide)]
        exact and_iff_right hkind
      obtain ⟨h1, h2, h3, h4⟩ := applyState_truthful (shown events) hmem
        fun hx => hflag (hopens.mpr hx)
      have hshown : shown (events ++ [e]) = (shown events).applyState (text name) := by
        rw [shown_concat, SessionStatus.applyEvent, if_pos hkind, hdetail]
      have hcurrent := current_concat_state events hkind
      constructor <;> rw [hshown, hcurrent]
      · rintro x hx hx'
        obtain rfl := Option.some.inj hx
        exact h1 (hopens.mp hx')
      · exact fun hlabel => ⟨e, rfl, hopens.mpr (h2 hlabel).1, (h2 hlabel).2⟩
      · exact fun hlabel => ⟨e, rfl, hopens.mpr (h3 hlabel).1, (h3 hlabel).2⟩
      · exact fun hs => ⟨e, rfl, by rw [hdetail, h4 hs]⟩
    · obtain ⟨hsame, hlabel, hstreaming⟩ := applyEvent_other (shown events) hkind e.detail
      have hlabel' {l : QString} (hne : l ≠ text "Phone timed out")
          (hl : (shown (events ++ [e])).stateLabel = l) : (shown events).stateLabel = l := by
        rw [shown_concat] at hl
        rcases hlabel with h | h
        · exact h.symm.trans hl
        · exact absurd (hl.symm.trans h) hne
      constructor <;> rw [current_concat_other events hkind]
      · intro x hx hopens
        rw [shown_concat, hsame fun hskipped => hannounced hskipped x hx hopens]
        exact flagged x hx hopens
      · exact fun hl => secure (hl.imp (hlabel' (by decide)) (hlabel' (by decide)))
      · exact fun hl => insecure (hl.imp (hlabel' (by decide)) (hlabel' (by decide)))
      · exact fun hs => streaming (hstreaming (by rwa [← shown_concat]))

/-! ### What is still to be posted -/

/-- The session is told to be open, and the window has heard that the phone is not authenticated. -/
structure Look where
  opened : Bool := false
  unauthenticated : Bool := false
  deriving DecidableEq, Repr

def lookOf (events : List Post) : Look where
  opened := (current events).any fun e => e.detail = text "ready" ∨ e.detail = text "streaming"
  unauthenticated := (shown events).unauthenticated

/-- The look after one more event. -/
def look (l : Look) (kind detail : QString) : Look :=
  if kind = text "session.state" then
    { opened := detail = text "ready" ∨ detail = text "streaming"
      unauthenticated :=
        if detail = text "awaiting_hello" ∨ text "disconnected" <+: detail then false
        else l.unauthenticated }
  else if kind = text "security.unauthenticated" then { l with unauthenticated := true }
  else l

theorem unauthenticated_applyState (s : SessionStatus) (detail : QString) :
    (s.applyState detail).unauthenticated =
      if detail = text "awaiting_hello" ∨ text "disconnected" <+: detail then false
      else s.unauthenticated := by
  unfold SessionStatus.applyState
  by_cases hhello : detail = text "awaiting_hello"
  · rw [if_pos hhello, if_pos (.inl hhello)]
  by_cases htrust : detail = text "awaiting_trust"
  · rw [if_neg hhello, if_pos htrust, htrust]
    rfl
  by_cases hready : detail = text "ready"
  · rw [if_neg hhello, if_neg htrust, if_pos hready, hready]
    rfl
  by_cases hstreaming : detail = text "streaming"
  · rw [if_neg hhello, if_neg htrust, if_neg hready, if_pos hstreaming, hstreaming]
    rfl
  rw [if_neg hhello, if_neg htrust, if_neg hready, if_neg hstreaming]
  by_cases hended : text "disconnected" <+: detail
  · rw [if_pos hended, if_pos (.inr hended)]
  · rw [if_neg hended, if_neg (not_or.mpr ⟨hhello, hended⟩)]

theorem lookOf_concat (events : List Post) (e : Post) :
    lookOf (events ++ [e]) = look (lookOf events) e.kind e.detail := by
  unfold look
  by_cases hstate : e.kind = text "session.state"
  · rw [if_pos hstate, lookOf, current_concat_state events hstate, shown_concat,
      SessionStatus.applyEvent, if_pos hstate, unauthenticated_applyState]
    rfl
  · rw [if_neg hstate, lookOf, current_concat_other events hstate, shown_concat]
    by_cases hskipped : e.kind = text "security.unauthenticated"
    · rw [if_pos hskipped, SessionStatus.applyEvent, if_neg hstate, if_pos hskipped]
      rfl
    · rw [if_neg hskipped, (applyEvent_other (shown events) hstate e.detail).1 hskipped]
      rfl

/-- What is to be posted keeps the events marked, and leaves the look as it should be. -/
def Owed (authenticated : Bool) (target : Look) : Look → List (QString × QString) → Prop
  | l, [] => l = target
  | l, (kind, detail) :: saying =>
    (kind = text "session.state" → (∃ name ∈ names, detail = text name) ∧
      (detail = text "ready" ∨ detail = text "streaming" → l.unauthenticated = !authenticated)) ∧
    (kind = text "security.unauthenticated" → l.opened = false) ∧
    Owed authenticated target (look l kind detail) saying

/-- One event is posted. -/
theorem Marked.post {events : List Post} (h : Marked events) {kind detail : QString}
    {authenticated : Bool}
    (hstate : kind = text "session.state" → (∃ name ∈ names, detail = text name) ∧
      (detail = text "ready" ∨ detail = text "streaming" →
        (lookOf events).unauthenticated = !authenticated))
    (hskipped : kind = text "security.unauthenticated" → (lookOf events).opened = false) :
    Marked (events ++ [⟨kind, detail, authenticated⟩]) := by
  refine h.concat (fun hkind => (hstate hkind).1) (fun hopens => (hstate hopens.1).2 hopens.2)
    fun hkind x hx hopens => ?_
  have hclosed := hskipped hkind
  unfold lookOf at hclosed
  rw [Option.mem_def.mp hx] at hclosed
  simp only [Option.any_some, decide_eq_false_iff_not] at hclosed
  exact hclosed hopens.2

end RemoteCam.App.Status
