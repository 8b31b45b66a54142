import RemoteCam.Backend.Admission
import RemoteCam.Backend.Handshake
import RemoteCam.Lib.Negotiation

/-! # A format change as the controller sees it

`sendFormat` opens a proposal, and `handleFormatAck` and `handleFormatReject` read the answer to it:
`deal_next` says that a step of the controller does this to the `Deal` with the phone and nothing
else. An answer that was expected when it arrived is no mismatch when it is judged, since the other
threads can neither close the proposal nor begin a reset while it is open. -/

namespace RemoteCam.Backend.FormatChange

open RemoteCam.Lib.Negotiation RemoteCam.Backend.Session RemoteCam.Backend.Effects
open RemoteCam.Backend.Invariants RemoteCam.Backend.Phases
open RemoteCam.Backend.Handshake (Pc.settled admitsFormat settled_step)

variable {υ : Type*} {made : υ → StreamConfig → Prop} {cfg : SessionConfig} {s s' : Sys}
  {a : Session.Action}

/-- The committed generation with its configuration, and the pending one. -/
def deal (st : Stream) : Deal StreamConfig where
  committed := (st.streamGeneration, st.streamConfig)
  proposed := st.pendingStreamConfig.map (st.pendingFormatGeneration, ·)

/-- The answer that the network thread is about to judge. -/
def heard : Pc → List (Word υ)
  | .formatAck generation => [.accept generation]
  | .formatReject generation => [.reject generation]
  | _ => []

/-- The answer in a message. -/
def answers : ControlMessage → List (Word υ)
  | .formatAck (some generation) => [.accept generation]
  | .formatReject (some generation) => [.reject generation]
  | _ => []

/-- `handleFormatAck` or `handleFormatReject` is about to fail the session. -/
def mismatch (s : Sys) : Bool :=
  match s.pc net with
  | .formatAck generation | .formatReject generation =>
    !(s.stream.pendingStreamConfig.isSome && s.stream.pendingFormatGeneration = generation &&
      !s.stream.resettingConsumer)
  | _ => false

/-- The configuration that the step proposes. -/
def proposal (s : Sys) : Session.Action → Option StreamConfig
  | .run t true =>
    match s.pc t with
    | .sendFormat config => if admitsFormat s.stream config then some config else none
    | _ => none
  | _ => none

/-- While a change is pending no consumer is reset, and the session streams or has failed. -/
structure Exclusive (s : Sys) : Prop where
  resetting : s.stream.pendingStreamConfig.isSome → s.stream.resettingConsumer = false
  streaming : s.stream.pendingStreamConfig.isSome →
    s.stream.state = .streaming ∨ s.stream.state = .failed
  handshake : Pc.handshake (s.pc net) →
    s.stream.pendingStreamConfig = none ∧ s.stream.state ≠ .streaming

/-! ### Where a frame leads -/

/-- Places that only a frame leads to. -/
def Pc.ofFrame : Pc → Bool
  | .hello _ _ | .authResponse _ | .streamStart | .formatAck _ | .formatReject _
  | .videoEnqueue _ => true
  | _ => false

theorem heard_of_frame {pc : Pc} (h : Pc.ofFrame pc = false) : heard (υ := υ) pc = [] := by
  cases pc <;> first | rfl | cases h

/-- After a step of its own the network thread stands elsewhere. -/
theorem ofFrame_step {ok : Bool} {pc : Pc} (hpc : s.pc net = pc) :
    Pc.ofFrame ((step cfg s net ok pc).pc net) = false := by
  cases pc with
  | idle =>
    rw [step, hpc]
    rfl
  | serving =>
    rw [step, hpc]
    rfl
  | hello deviceId verdict =>
    simp only [step, handleHello]
    split_ifs <;> simp [Pc.ofFrame]
  | authResponse verdict =>
    cases verdict
    · simp [step, handleAuthResponse, Pc.ofFrame]
    · simp [step, handleAuthResponse, Pc.ofFrame]
    · simp only [step, handleAuthResponse]
      split_ifs <;> simp [Pc.ofFrame]
  | handshakeSend => cases ok <;> simp [step, Pc.ofFrame]
  | streamStart =>
    simp only [step, startStream]
    split_ifs <;> simp [Pc.ofFrame]
  | formatAck generation =>
    simp only [step, handleFormatAck]
    split
    · simp [Pc.ofFrame]
    · split_ifs <;> simp [Pc.ofFrame]
  | formatReject generation =>
    simp only [step, handleFormatReject]
    split_ifs <;> simp [Pc.ofFrame]
  | requestKeyframe => cases ok <;> simp [step, Pc.ofFrame]
  | videoEnqueue arrived =>
    simp only [step, enqueue]
    split_ifs <;> simp [Pc.ofFrame]
  | sendFormat config =>
    simp only [step, sendFormat]
    split_ifs <;> simp [Pc.ofFrame]
  | setConsumer consumer =>
    simp only [step, replaceConsumer]
    split_ifs <;> simp [Pc.ofFrame]
  | resetCall consumer config generation connection after =>
    cases consumer <;> simp [step, resetCall, Pc.ofFrame]
  | resetClear after => cases after <;> simp [step, resetClear, Pc.ofFrame]
  | drainEnter =>
    simp only [step, drainEnter]
    split_ifs <;> simp [Sys.drainReturn, Pc.ofFrame]
  | drainTake =>
    simp only [step, drainTake]
    split
    · split_ifs <;> simp [Sys.drainReturn, Pc.ofFrame]
    · simp [Sys.drainReturn, Pc.ofFrame]
  | consume queued consumer => cases ok <;> simp [step, drainConsume, Pc.ofFrame]
  | drainRemove queued =>
    simp only [step, drainRemove]
    split
    · split_ifs <;> simp [Pc.ofFrame]
    · simp [Pc.ofFrame]
  | _ =>
    simp [step, protocolFailure, malformedControl, becomeReady, resetLock, Sys.drainReturn,
      Pc.ofFrame]

theorem heard_next_run {t : Thread} {ok : Bool} :
    heard (υ := υ) ((next cfg s (.run t ok)).pc net) = if t = net then [] else heard (s.pc net) := by
  split_ifs with ht
  · subst ht
    exact heard_of_frame (ofFrame_step rfl)
  · rw [next, pc_step_of_ne (Ne.symm ht)]

/-- A message is heard if it is an answer and the session streams. -/
theorem heard_controlPc (cfg : SessionConfig) (state : State) (trusted : Bool)
    (message : ControlMessage) :
    (answers (υ := υ) message = [] → heard (υ := υ) (controlPc cfg state trusted message) = []) ∧
      (state = .streaming → trusted = true →
        heard (υ := υ) (controlPc cfg state trusted message) = answers message) := by
  cases message with
  | formatAck generation =>
    cases generation
    · simp only [controlPc, trustedPc]
      split_ifs <;> exact ⟨fun _ => rfl, fun _ _ => rfl⟩
    · refine ⟨fun h => (by cases h), ?_⟩
      rintro rfl rfl
      rfl
  | formatReject generation =>
    cases generation
    · simp only [controlPc, trustedPc]
      split_ifs <;> exact ⟨fun _ => rfl, fun _ _ => rfl⟩
    · refine ⟨fun h => (by cases h), ?_⟩
      rintro rfl rfl
      rfl
  | _ =>
    simp only [controlPc, trustedPc]
    split_ifs <;> exact ⟨fun _ => rfl, fun _ _ => rfl⟩

/-! ### While a change is pending -/

/-- A step begins a reset only if nothing is pending after it. -/
theorem resetting_effect (e : Effect cfg s a s') (h : s'.stream.resettingConsumer = true) :
    s.stream.resettingConsumer = true ∨ s'.stream.pendingStreamConfig = none := by
  cases e with
  | connect | disconnect | formatAck => exact .inr rfl
  | startStream hpc hstate hpending => exact .inr hpending
  | replaceReset hpc hmutex hstate hpending => exact .inr hpending
  | resetCall hpc =>
    rename_i consumer _ _ _ _
    cases consumer <;> exact .inl h
  | resetClear => cases h
  | _ => exact .inl h

theorem sendFormat_resetting {t : Thread} {config : StreamConfig} {ok : Bool}
    (h : s.stream.resettingConsumer = true) : sendFormat s t config ok = s.goto t .idle := by
  unfold sendFormat
  dsimp only
  rw [if_pos (by simp [h])]

theorem net_of_publishes {t : Thread} (hb : Base s) (h : Pc.publishes (s.pc t)) :
    t = net ∧ Pc.handshake (s.pc t) := by
  have hshake : Pc.handshake (s.pc t) := by
    cases hpc : s.pc t <;> rw [hpc] at h <;> first | rfl | cases h
  exact ⟨Admission.net_of_handshake hb hshake, hshake⟩

/-- A handshake handler is entered in the handshake. -/
theorem handshake_next (h : Pc.handshake ((next cfg s a).pc net)) (hb : Base s) :
    Pc.handshake (s.pc net) ∨ s.stream.state = .awaitingHello ∨ s.stream.state = .awaitingTrust := by
  have hgoto {s₁ : Sys} {pc : Pc} (hpc : Pc.handshake ((s₁.goto net pc).pc net)) :
      Pc.handshake pc := by rwa [pc_goto_self] at hpc
  cases a with
  | connect => cases hgoto h
  | disconnect => cases hgoto h
  | receive inbound =>
    cases inbound with
    | violation => cases hgoto h
    | ignored => exact .inl h
    | undecodable => cases hgoto h
    | control message => exact .inr ((controlPc_spec cfg _ _ message).2.2.2 (hgoto h))
    | video frame =>
      have hno := (videoPc_spec s.stream frame s.arrivals).2.2.2
      rw [hgoto h] at hno
      cases hno
  | call t c =>
    by_cases ht : net = t
    · subst ht
      cases c <;> cases hgoto h
    · rw [next, pc_goto_of_ne _ ht] at h
      exact .inl h
  | watchdog =>
    rw [next, watchdog] at h
    split_ifs at h <;> exact .inl h
  | tick => exact .inl h
  | run t ok =>
    by_cases ht : net = t
    · subst ht
      by_cases hsettled : Pc.settled (s.pc net) = true
      · have hnet : Pc.ofNet (s.pc net) = true := hb.roles net
        have hsettled' := @settled_step cfg s ok _ rfl hnet hsettled
        unfold Pc.settled at hsettled'
        rw [next] at h
        rw [h] at hsettled'
        cases hsettled'
      · cases hpc : s.pc net with
        | hello | authResponse | authenticated => exact .inl rfl
        | idle =>
          rw [next, hpc, step, hpc] at h
          cases h
        | handshakeSend =>
          rw [next, hpc, step] at h
          cases ok <;> cases hgoto h
        | _ =>
          rw [hpc] at hsettled
          exact absurd rfl hsettled
    · rw [next, pc_step_of_ne ht] at h
      exact .inl h

theorem Exclusive.settled (h : Exclusive s) (hstate : s.stream.state ≠ .streaming)
    (hfailed : s.stream.state ≠ .failed) : s.stream.pendingStreamConfig = none := by
  by_contra hsome
  rcases h.streaming (Option.isSome_iff_ne_none.mpr hsome) with h | h
  · exact hstate h
  · exact hfailed h

theorem exclusive_next (hb : Base s) (h : Exclusive s) (he : enabled s a) :
    Exclusive (next cfg s a) := by
  have hturn := turn_next cfg he
  have hresetting := resetting_effect (next_effect cfg he)
  have hbefore (hshake : Pc.handshake ((next cfg s a).pc net)) :
      s.stream.pendingStreamConfig = none ∧ s.stream.state ≠ .streaming := by
    rcases handshake_next hshake hb with hpc | hstate | hstate
    · exact h.handshake hpc
    · have hne : s.stream.state ≠ .streaming := by rw [hstate]; decide
      exact ⟨h.settled hne (by rw [hstate]; decide), hne⟩
    · have hne : s.stream.state ≠ .streaming := by rw [hstate]; decide
      exact ⟨h.settled hne (by rw [hstate]; decide), hne⟩
  have hpropose {t : Thread} {ok : Bool} {config : StreamConfig} (ha : a = .run t ok)
      (hpc : s.pc t = .sendFormat config) (hreset : s.stream.resettingConsumer = true) :
      (next cfg s a).stream.pendingStreamConfig = s.stream.pendingStreamConfig := by
    subst ha
    rw [next, hpc, step, sendFormat_resetting hreset]
    rfl
  generalize hterms : terms (next cfg s a).stream = τ at hturn
  have hpending : (next cfg s a).stream.pendingStreamConfig = τ.pendingStreamConfig := by
    rw [← hterms]
    rfl
  have hstate : (next cfg s a).stream.state = τ.state := by
    rw [← hterms]
    rfl
  -- a step that leaves the pending change as it is
  have hkeep (hsame : τ.pendingStreamConfig = s.stream.pendingStreamConfig)
      (hstates : τ.pendingStreamConfig.isSome → τ.state = .streaming ∨ τ.state = .failed)
      (hstarts : τ.state = .streaming → s.stream.state = .streaming ∨
        s.pc net = .streamStart ∧ s.stream.state = .ready) : Exclusive (next cfg s a) := by
    refine ⟨fun hsome => ?_, fun hsome => ?_, fun hshake => ⟨?_, fun hs => ?_⟩⟩
    · rw [hpending, hsame] at hsome
      by_contra hreset
      rcases hresetting (by simpa using hreset) with hr | hr
      · rw [h.resetting hsome] at hr
        cases hr
      · rw [hpending, hsame] at hr
        rw [hr] at hsome
        cases hsome
    · rw [hpending] at hsome
      rw [hstate]
      exact hstates hsome
    · rw [hpending, hsame]
      exact (hbefore hshake).1
    · rw [hstate] at hs
      rcases hstarts hs with hs | ⟨hpc, hready⟩
      · exact (hbefore hshake).2 hs
      · rcases handshake_next hshake hb with hshake | hs | hs
        · rw [hpc] at hshake
          cases hshake
        · rw [hready] at hs
          cases hs
        · rw [hready] at hs
          cases hs
  -- a step that leaves none
  have hnone (hno : τ.pendingStreamConfig = none)
      (hstarts : τ.state = .streaming → s.stream.state = .streaming) :
      Exclusive (next cfg s a) := by
    rw [← hpending] at hno
    refine ⟨fun hsome => ?_, fun hsome => ?_, fun hshake => ⟨hno, fun hs => ?_⟩⟩
    · rw [hno] at hsome
      cases hsome
    · rw [hno] at hsome
      cases hsome
    · rw [hstate] at hs
      exact (hbefore hshake).2 (hstarts hs)
  cases hturn with
  | keep => exact hkeep rfl h.streaming .inl
  | fail => exact hkeep rfl (fun _ => .inr rfl) fun hs => by cases hs
  | @publish t ok state trusted hpc hpublished =>
    obtain ⟨rfl, hshake⟩ := net_of_publishes hb hpc
    refine hkeep rfl (fun hsome => ?_) fun hs => ?_
    · have hsome' : s.stream.pendingStreamConfig.isSome := hsome
      rw [(h.handshake hshake).1] at hsome'
      cases hsome'
    · have hs' : state = .streaming := hs
      rcases hpublished with h | ⟨h, -⟩
      · rw [hs'] at h
        cases h
      · rw [hs'] at h
        cases h
  | @start t ok hpc hready =>
    obtain rfl : t = net := eq_net_of_role (hb.roles t) (by rw [hpc]; rfl)
    exact hkeep rfl (fun _ => .inl rfl) fun _ => .inr ⟨hpc, hready⟩
  | commit => exact hnone rfl id
  | reject => exact hnone rfl id
  | @propose t ok config hpc hstreaming hno =>
    refine ⟨fun hsome => ?_, fun _ => .inl (hstate.trans hstreaming), fun hshake => ?_⟩
    · by_contra hreset
      rcases hresetting (by simpa using hreset) with hr | hr
      · rw [hpropose rfl hpc hr, hno] at hsome
        cases hsome
      · rw [hr] at hsome
        cases hsome
    · exact absurd hstreaming (hbefore hshake).2
  | connect =>
    refine hnone rfl fun hs => ?_
    have hs' : (if cfg.serviceIdValid && cfg.initialStream.valid then State.awaitingHello
        else .failed) = .streaming := hs
    split_ifs at hs'
  | disconnect => exact hnone rfl fun hs => by cases hs

/-! ### The deal -/

/-- An answer that is expected is no mismatch. -/
theorem mismatch_of_expected (h : Exclusive s)
    (hexpected : ∀ w ∈ heard (υ := υ) (s.pc net), Expected made (deal s.stream) w) :
    mismatch s = false := by
  have hmatch {g : ℕ} {c : StreamConfig} (hc : (deal s.stream).proposed = some (g, c)) :
      (!(s.stream.pendingStreamConfig.isSome && s.stream.pendingFormatGeneration = g &&
        !s.stream.resettingConsumer)) = false := by
    obtain ⟨pending, hsome, hpair⟩ := Option.map_eq_some_iff.mp hc
    obtain ⟨rfl, rfl⟩ := Prod.mk.inj hpair
    have hreset := h.resetting (by rw [hsome]; rfl)
    simp [hsome, hreset]
  unfold mismatch
  cases hpc : s.pc net with
  | formatAck g =>
    rw [hpc] at hexpected
    obtain ⟨c, hc⟩ := hexpected (.accept g) (List.mem_singleton_self _)
    exact hmatch hc
  | formatReject g =>
    rw [hpc] at hexpected
    obtain ⟨c, hc⟩ := hexpected (.reject g) (List.mem_singleton_self _)
    exact hmatch hc
  | _ => rfl

theorem sendFormat_refused {t : Thread} {config : StreamConfig} {ok : Bool}
    (h : admitsFormat s.stream config = false) : sendFormat s t config ok = s.goto t .idle := by
  unfold sendFormat
  dsimp only
  rw [if_pos]
  by_contra hgate
  push Not at hgate
  obtain ⟨h1, h2, h3, h4, h5, h6⟩ := hgate
  have hadmits : admitsFormat s.stream config = true := by
    have hsome : s.stream.connection.isSome := Option.isSome_iff_ne_none.mpr h2
    simp_all [admitsFormat]
  rw [hadmits] at h
  cases h

theorem deal_sendFormat {t : Thread} {config : StreamConfig} (ok : Bool)
    (h : admitsFormat s.stream config = true) :
    (deal s.stream).proposed = none ∧ deal (sendFormat s t config ok).stream =
      { deal s.stream with
        proposed := if ok then some (s.stream.nextFormatGeneration, config) else none } := by
  unfold admitsFormat at h
  simp only [Bool.and_eq_true, decide_eq_true_eq, Option.isNone_iff_eq_none] at h
  obtain ⟨⟨⟨⟨⟨hvalid, hsome⟩, htrusted⟩, hstate⟩, hnone⟩, hreset⟩ := h
  have hconnection : s.stream.connection ≠ none := Option.isSome_iff_ne_none.mp hsome
  refine ⟨by rw [deal, hnone]; rfl, ?_⟩
  unfold sendFormat
  dsimp only
  rw [if_neg (by simp_all)]
  cases ok <;> rfl

/-- An expected answer is read when it is judged. -/
theorem deal_judged {ok : Bool} {w : Word υ} (hx : Exclusive s)
    (hheard : heard (υ := υ) (s.pc net) = [w]) (hexpected : Expected made (deal s.stream) w) :
    (∀ u, w ≠ .item u) ∧
      deal (next cfg s (.run net ok)).stream = (deal s.stream).read w := by
  have hsettle {g : ℕ} {c : StreamConfig} (hc : (deal s.stream).proposed = some (g, c)) :
      s.stream.pendingStreamConfig = some c ∧ s.stream.pendingFormatGeneration = g ∧
        s.stream.resettingConsumer = false := by
    obtain ⟨pending, hsome, hpair⟩ := Option.map_eq_some_iff.mp hc
    obtain ⟨rfl, rfl⟩ := Prod.mk.inj hpair
    exact ⟨hsome, rfl, hx.resetting (by rw [hsome]; rfl)⟩
  cases hpc : s.pc net with
  | formatAck g =>
    rw [hpc] at hheard
    obtain rfl := List.singleton_inj.mp hheard
    obtain ⟨c, hc⟩ := hexpected
    obtain ⟨hpending, hgeneration, hreset⟩ := hsettle hc
    refine ⟨fun u h => (by cases h), ?_⟩
    simp only [next, hpc, step, handleFormatAck, hpending, hgeneration, hreset, Bool.not_false,
      and_self, if_true]
    rw [Deal.read, hc]
    rfl
  | formatReject g =>
    rw [hpc] at hheard
    obtain rfl := List.singleton_inj.mp hheard
    obtain ⟨c, hc⟩ := hexpected
    obtain ⟨hpending, hgeneration, hreset⟩ := hsettle hc
    refine ⟨fun u h => (by cases h), ?_⟩
    simp only [next, hpc, step, handleFormatReject, hpending, hgeneration, hreset, Bool.not_false,
      Option.isSome_some, and_self, if_true]
    rfl
  | _ =>
    rw [hpc] at hheard
    cases hheard

/-- Steps that take no frame and neither open nor close the connection. -/
def inside : Session.Action → Bool
  | .connect | .disconnect | .receive _ => false
  | _ => true

/-- **What a step does to the deal**: it makes a proposal while none is open, reads the answer that
the network thread has heard, or leaves everything as it is. -/
theorem deal_next (hb : Base s) (hx : Exclusive s) (he : enabled s a) (ha : inside a = true)
    (hexpected : ∀ w ∈ heard (υ := υ) (s.pc net), Expected made (deal s.stream) w) :
    (∃ config, proposal s a = some config ∧ (deal s.stream).proposed = none ∧
      deal (next cfg s a).stream =
        { deal s.stream with proposed := some (s.stream.nextFormatGeneration, config) } ∧
      heard (υ := υ) ((next cfg s a).pc net) = heard (s.pc net)) ∨
    proposal s a = none ∧
      ((deal (next cfg s a).stream = deal s.stream ∧
        heard (υ := υ) ((next cfg s a).pc net) = heard (s.pc net)) ∨
      ∃ w : Word υ, heard (s.pc net) = [w] ∧ (∀ u, w ≠ .item u) ∧
        heard (υ := υ) ((next cfg s a).pc net) = [] ∧
        deal (next cfg s a).stream = (deal s.stream).read w) := by
  by_cases hrun : ∃ t ok, a = .run t ok
  · obtain ⟨t, ok, rfl⟩ := hrun
    rw [heard_next_run]
    by_cases hpc : ∃ config, s.pc t = .sendFormat config
    · obtain ⟨config, hpc⟩ := hpc
      have ht : t ≠ net := ne_net_of_role (hb.roles t) (by rw [hpc]; rfl)
      rw [if_neg ht, next, hpc, step]
      cases hadmits : admitsFormat s.stream config with
      | false =>
        refine .inr ⟨?_, .inl ⟨?_, rfl⟩⟩
        · cases ok <;> simp [proposal, hpc, hadmits]
        · rw [sendFormat_refused hadmits]
          rfl
      | true =>
        obtain ⟨hnone, hdeal⟩ := @deal_sendFormat s t config ok hadmits
        cases ok with
        | true => exact .inl ⟨config, by simp [proposal, hpc, hadmits], hnone, hdeal, rfl⟩
        | false =>
          refine .inr ⟨rfl, .inl ⟨hdeal.trans ?_, rfl⟩⟩
          rw [if_neg (by decide), ← hnone]
    · have hno : proposal s (.run t ok) = none := by
        cases ok with
        | false => rfl
        | true =>
          unfold proposal
          dsimp only
          split
          · next config h => exact absurd ⟨config, h⟩ hpc
          · rfl
      refine .inr ⟨hno, ?_⟩
      by_cases hjudges : t = net ∧ ∃ w, heard (υ := υ) (s.pc net) = [w]
      · obtain ⟨rfl, w, hw⟩ := hjudges
        obtain ⟨hitem, hdeal⟩ := @deal_judged _ made cfg s ok w hx hw
          (hexpected w (by rw [hw]; exact List.mem_singleton_self w))
        exact .inr ⟨w, hw, hitem, if_pos rfl, hdeal⟩
      · have hsame : (if t = net then [] else heard (υ := υ) (s.pc net)) = heard (s.pc net) := by
          split_ifs with ht
          · cases h : s.pc net with
            | formatAck g => exact absurd ⟨ht, _, by rw [h]; rfl⟩ hjudges
            | formatReject g => exact absurd ⟨ht, _, by rw [h]; rfl⟩ hjudges
            | _ => rfl
          · rfl
        refine .inl ⟨?_, hsame⟩
        have hturn := turn_next cfg he
        generalize hterms : terms (next cfg s (.run t ok)).stream = τ at hturn
        have hdeal : deal (next cfg s (.run t ok)).stream =
            ⟨(τ.streamGeneration, τ.streamConfig),
              τ.pendingStreamConfig.map (τ.pendingFormatGeneration, ·)⟩ := by
          rw [← hterms]
          rfl
        rw [hdeal]
        cases hturn with
        | commit h =>
          obtain rfl : t = net := eq_net_of_role (hb.roles t) (by rw [h]; rfl)
          exact absurd ⟨rfl, _, by rw [h]; rfl⟩ hjudges
        | reject h =>
          obtain rfl : t = net := eq_net_of_role (hb.roles t) (by rw [h]; rfl)
          exact absurd ⟨rfl, _, by rw [h]; rfl⟩ hjudges
        | propose h => exact absurd ⟨_, h⟩ hpc
        | _ => rfl
  · refine .inr ⟨?_, .inl ?_⟩
    · unfold proposal
      split
      · exact absurd ⟨_, _, rfl⟩ hrun
      · rfl
    · cases a with
      | connect => cases ha
      | disconnect => cases ha
      | receive inbound => cases ha
      | run t ok => exact absurd ⟨t, ok, rfl⟩ hrun
      | call t c => exact ⟨rfl, by rw [next, pc_goto_of_ne _ (Ne.symm he.1)]⟩
      | watchdog =>
        rw [next, watchdog]
        split_ifs <;> exact ⟨rfl, rfl⟩
      | tick => exact ⟨rfl, rfl⟩

end RemoteCam.Backend.FormatChange
