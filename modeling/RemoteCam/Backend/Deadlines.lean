import RemoteCam.Backend.Invariants
import RemoteCam.Backend.Receive
import RemoteCam.Security.Integrity

/-! # What extends a deadline

The watchdog measures every deadline from one of the seven `times` of a session. `Worthless` lists
the frames that are no progress, by the state they are received in: from the receipt of such a frame
to the next one the network thread leaves the times as they are, whatever the other threads do
meanwhile. -/

namespace RemoteCam.Backend.Deadlines

open RemoteCam.Lib.Transitions RemoteCam.Backend.Session RemoteCam.Backend.Effects
open RemoteCam.Backend.Invariants RemoteCam.Backend.Receive RemoteCam.Control.Messages
open RemoteCam.Video.Annexb
open RemoteCam.Wire.Codec (Frame)

structure Times where
  connectedAt : ℕ
  trustAt : ℕ
  readyAt : ℕ
  pendingFormatAt : ℕ
  streamingAt : ℕ
  lastVideoAt : ℕ
  lastActivity : ℕ
  deriving DecidableEq

def times (a : Activity) : Times where
  connectedAt := a.connectedAt
  trustAt := a.trustAt
  readyAt := a.readyAt
  pendingFormatAt := a.pendingFormatAt
  streamingAt := a.streamingAt
  lastVideoAt := a.lastVideoAt
  lastActivity := a.lastActivity

/-- The access unit that `handleVideo` accepts. -/
def validUnit (codec : Codec) (f : Frame) : Bool :=
  let report := inspect f.payload codec
  report.isAnnexB && report.hasVideoSlice && isKeyframe f == report.hasKeyframeSlice &&
    (!isKeyframe f || report.isSelfContainedKeyframe)

inductive Worthless (rx : Receiver) (st : Stream) (f : Frame) : Prop
  | audio (hchannel : f.channel = kAudio)
  /-- Answered with `protocolFailure`. -/
  | violation (hopen : (unwrap rx f).1 = .violation)
  | malformedCbor {g : Frame} {e : Control.Messages.Error} (hopen : (unwrap rx f).1 = .frame g)
      (hchannel : g.channel = kControl) (hdecode : Message.decode g.payload = .error e)
  | malformedShape {g : Frame} {m : Message} (hopen : (unwrap rx f).1 = .frame g)
      (hchannel : g.channel = kControl) (hdecode : Message.decode g.payload = .ok m)
      (hshape : shape m = some false)
  /-- Unknown, or a type that only the PC sends. -/
  | unknownType {g : Frame} {m : Message} (hopen : (unwrap rx f).1 = .frame g)
      (hchannel : g.channel = kControl) (hdecode : Message.decode g.payload = .ok m)
      (hshape : shape m = none)
  | untrusted {g : Frame} {m : Message} (hopen : (unwrap rx f).1 = .frame g)
      (hchannel : g.channel = kControl) (hdecode : Message.decode g.payload = .ok m)
      (htype : m.type ≠ literal "hello" ∧ m.type ≠ literal "auth_response")
      (htrusted : st.trusted = false)
  | untimely (hchannel : f.channel = kVideo)
      (hstate : st.trusted = false ∨ st.state ≠ .streaming ∨ st.pendingStreamConfig.isSome ∨
        st.resettingConsumer)
  | invalidUnit {g : Frame} (hopen : (unwrap rx f).1 = .frame g) (hchannel : g.channel = kVideo)
      (hunit : validUnit st.streamConfig.codec g = false)
  | delta {g : Frame} (hopen : (unwrap rx f).1 = .frame g) (hchannel : g.channel = kVideo)
      (hdelta : isKeyframe g = false) (hwaiting : st.waitingForKeyframe)

/-! ### Where such a frame leads -/

/-- Places of the network thread that lead back to `serving` without progress; a delta only while
the session waits for a keyframe. -/
def Pc.barren : Pc → Bool
  | .serving | .fail | .malformed | .videoDrop | .videoInvalid => true
  | .hello _ verdict => verdict = .refused
  | .authResponse verdict => verdict = .malformed
  | .videoEnqueue x => !x.unit.keyframe
  | _ => false

/-- Messages that are no progress in any state. -/
def ControlMessage.barren : ControlMessage → Bool
  | .hello _ verdict => verdict = .refused
  | .authResponse verdict => verdict = .malformed
  | .formatAck generation | .formatReject generation => generation.isNone
  | .streamStart fieldsEmpty => !fieldsEmpty
  | .progress wellFormed => !wellFormed
  | .pcToPhone | .unknown => true

def ControlMessage.handshake : ControlMessage → Bool
  | .hello _ _ | .authResponse _ => true
  | _ => false

theorem controlPc_barren (cfg : SessionConfig) (state : State) (trusted : Bool)
    {m : ControlMessage} (h : ControlMessage.barren m) :
    Pc.barren (controlPc cfg state trusted m) := by
  cases m with
  | hello deviceId verdict =>
    simp only [controlPc]
    split_ifs
    · rfl
    · exact h
  | authResponse verdict =>
    simp only [controlPc]
    split_ifs
    · rfl
    · rfl
    · exact h
  | formatAck generation =>
    cases generation with
    | some g => cases h
    | none =>
      simp only [controlPc, trustedPc]
      split_ifs <;> rfl
  | formatReject generation =>
    cases generation with
    | some g => cases h
    | none =>
      simp only [controlPc, trustedPc]
      split_ifs <;> rfl
  | streamStart fieldsEmpty =>
    cases fieldsEmpty
    · simp only [controlPc, trustedPc]
      split_ifs <;> trivial
    · cases h
  | progress wellFormed =>
    cases wellFormed
    · simp only [controlPc, trustedPc]
      split_ifs <;> trivial
    · cases h
  | pcToPhone =>
    simp only [controlPc, trustedPc]
    split_ifs <;> rfl
  | unknown =>
    simp only [controlPc, trustedPc]
    split_ifs <;> rfl

/-- An untrusted peer is heard in the handshake only. -/
theorem controlPc_untrusted (cfg : SessionConfig) (state : State) {m : ControlMessage}
    (h : ControlMessage.handshake m = false) : Pc.barren (controlPc cfg state false m) := by
  cases m with
  | hello deviceId verdict => cases h
  | authResponse verdict => cases h
  | _ =>
    simp only [controlPc, Bool.not_false, if_true]
    split_ifs <;> rfl

/-- What has not the shape of a message of the phone is no progress. -/
theorem controlMessage_barren (judge : Judge) {m : Message} (h : shape m ≠ some true) :
    ControlMessage.barren (controlMessage judge m) := by
  unfold controlMessage
  split_ifs with hhello hauth hpc hack hreject hstart
  · rw [shape, if_pos hhello] at h
    have hnone : parseHello m = none := by simpa using h
    rw [helloMessage, hnone]
    rfl
  · rw [shape, if_neg hhello, if_pos hauth] at h
    have hnone : parseAuthResponse m = none := by simpa using h
    rw [authMessage, hnone]
    rfl
  · rfl
  · rw [shape, if_neg hhello, if_neg hauth, if_pos hack] at h
    have hnone : parseFormatAck m = none := by simpa using h
    rw [hnone]
    rfl
  · rw [shape, if_neg hhello, if_neg hauth, if_neg hack, if_pos hreject] at h
    have hnone : parseFormatReject m = none := by simpa using h
    rw [hnone]
    rfl
  · have hcaps : m.type ≠ literal "caps" := by
      rw [hstart]
      decide
    rw [shape, if_neg hhello, if_neg hauth, if_neg hack, if_neg hreject, if_neg hcaps,
      if_pos hstart] at h
    simpa [ControlMessage.barren] using h
  · split
    · rename_i wellFormed hshape
      cases wellFormed
      · rfl
      · exact absurd hshape h
    · rfl

theorem controlMessage_handshake (judge : Judge) {m : Message}
    (h : m.type ≠ literal "hello" ∧ m.type ≠ literal "auth_response") :
    ControlMessage.handshake (controlMessage judge m) = false := by
  unfold controlMessage
  rw [if_neg h.1, if_neg h.2]
  split_ifs
  · rfl
  · rfl
  · rfl
  · rfl
  · split <;> rfl

theorem inbound_control (judge : Judge) {g : Frame} {m : Message} (hchannel : g.channel = kControl)
    (hdecode : Message.decode g.payload = .ok m) :
    inbound judge (.frame g) = .violation ∨
      inbound judge (.frame g) = .control (controlMessage judge m) := by
  have hvideo : g.channel ≠ kVideo := by rw [hchannel]; decide
  have haudio : g.channel ≠ kAudio := by rw [hchannel]; decide
  simp only [inbound, if_neg haudio, if_neg hvideo, if_pos hchannel, hdecode]
  split_ifs
  · exact .inl rfl
  · exact .inr rfl

theorem inbound_video (judge : Judge) {g : Frame} (hchannel : g.channel = kVideo) :
    inbound judge (.frame g) = .video ⟨isKeyframe g, g.payload, g.ptsMicros.toNat⟩ := by
  have haudio : g.channel ≠ kAudio := by rw [hchannel]; decide
  rw [inbound, if_neg fun h => h.1 hchannel, if_neg haudio, if_pos hchannel]

/-- Only the reserved channel is not looked at; what is opened keeps its channel. -/
theorem unwrap_spec (rx : Receiver) (f : Frame) :
    ((unwrap rx f).1 = .ignored → f.channel = kAudio) ∧
      ∀ g, (unwrap rx f).1 = .frame g → g.channel = f.channel := by
  unfold unwrap
  split
  · exact ⟨nofun, nofun⟩
  · cases rx.protector with
    | none =>
      dsimp only
      split
      · exact ⟨nofun, nofun⟩
      · exact ⟨nofun, fun g hg => by rw [Opened.frame.inj hg]⟩
    | some p =>
      dsimp only
      split
      · rename_i haudio
        exact ⟨fun _ => haudio, nofun⟩
      · split
        · exact ⟨nofun, nofun⟩
        · exact ⟨nofun, fun g hg => by rw [← Opened.frame.inj hg]⟩

/-! ### The frame is received -/

variable {cfg : SessionConfig} {s : Sys} {a : Action} {rx : Receiver} {f : Frame}

/-- The network thread is on a way without progress. -/
def Idling (s : Sys) : Prop :=
  Pc.barren (s.pc net) ∧ ∀ x, s.pc net = .videoEnqueue x → s.stream.waitingForKeyframe

theorem Idling.of_pc {s₁ : Sys} {pc : Pc} (hbarren : Pc.barren pc)
    (hwaiting : ∀ x, pc = .videoEnqueue x → s₁.stream.waitingForKeyframe) :
    Idling (s₁.goto net pc) := by
  unfold Idling
  rw [pc_goto_self]
  exact ⟨hbarren, hwaiting⟩

/-- A place that is no `handleVideo` about to append. -/
theorem Idling.of_away {s₁ : Sys} {pc : Pc} (hbarren : Pc.barren pc)
    (haway : Pc.enqueues pc = false) : Idling (s₁.goto net pc) := by
  refine .of_pc hbarren fun x hx => ?_
  rw [hx] at haway
  cases haway

theorem controlPc_away (cfg : SessionConfig) (state : State) (trusted : Bool)
    (m : ControlMessage) : Pc.enqueues (controlPc cfg state trusted m) = false :=
  (plain_iff.mp (controlPc_spec cfg state trusted m).1).2.2

/-- Video that is not accepted, and a delta. -/
theorem videoPc_barren {st : Stream} {frame : VideoFrame} {arrival : ℕ}
    (h : Pc.enqueues (videoPc st frame arrival) = false ∨ frame.keyframe = false) :
    Pc.barren (videoPc st frame arrival) := by
  unfold videoPc at h ⊢
  dsimp only at h ⊢
  split_ifs at h ⊢
  · rfl
  · rfl
  · rfl
  · rcases h with h | h
    · cases h
    · simp [Pc.barren, h]

theorem videoPc_untimely {st : Stream} (frame : VideoFrame) (arrival : ℕ)
    (h : st.trusted = false ∨ st.state ≠ .streaming ∨ st.pendingStreamConfig.isSome ∨
      st.resettingConsumer) : Pc.enqueues (videoPc st frame arrival) = false := by
  unfold videoPc
  dsimp only
  split_ifs with h1 h2 h3
  · rfl
  · rfl
  · rfl
  · push Not at h1 h2
    rcases h with h | h | h | h
    · simp [h] at h1
    · exact absurd h2.1 h
    · simp [h] at h2
    · simp [h] at h2

theorem videoPc_invalid {st : Stream} {g : Frame} (arrival : ℕ)
    (h : validUnit st.streamConfig.codec g = false) :
    Pc.enqueues (videoPc st ⟨isKeyframe g, g.payload, g.ptsMicros.toNat⟩ arrival) = false := by
  unfold videoPc
  dsimp only
  split_ifs with h1 h2 h3
  · rfl
  · rfl
  · rfl
  · exfalso
    push Not at h3
    obtain ⟨hannexb, hslice, hflag, hself⟩ := h3
    have hvalid : validUnit st.streamConfig.codec g = true := by
      simp only [validUnit, Bool.and_eq_true, Bool.or_eq_true, beq_iff_eq, Bool.not_eq_true']
      refine ⟨⟨⟨by simpa using hannexb, by simpa using hslice⟩, by simpa using hflag⟩, ?_⟩
      by_cases hk : isKeyframe g = true
      · exact .inr (by simpa using hself hk)
      · exact .inl (by simpa using hk)
    rw [h] at hvalid
    cases hvalid

/-- A worthless frame puts the network thread on a way without progress. -/
theorem idling_onFrame (judge : Judge) (hw : Worthless rx s.stream f)
    (hpc : s.pc net = .serving) : Idling (onFrame cfg s (inbound judge (unwrap rx f).1)) := by
  have hviolation : Idling (onFrame cfg s .violation) := .of_away rfl rfl
  have hignored : Idling (onFrame cfg s .ignored) := by
    refine ⟨by rw [onFrame, hpc]; rfl, fun x hx => ?_⟩
    rw [onFrame, hpc] at hx
    cases hx
  have hcontrol (m : ControlMessage)
      (h : Pc.barren (controlPc cfg s.stream.state s.stream.trusted m)) :
      Idling (onFrame cfg s (.control m)) :=
    .of_away h (controlPc_away cfg s.stream.state s.stream.trusted m)
  have hmessage {g : Frame} {m : Message} (hopen : (unwrap rx f).1 = .frame g)
      (hchannel : g.channel = kControl) (hdecode : Message.decode g.payload = .ok m)
      (h : Pc.barren (controlPc cfg s.stream.state s.stream.trusted (controlMessage judge m))) :
      Idling (onFrame cfg s (inbound judge (unwrap rx f).1)) := by
    rw [hopen]
    rcases inbound_control judge hchannel hdecode with hm | hm
    · rw [hm]
      exact hviolation
    · rw [hm]
      exact hcontrol _ h
  cases hw with
  | audio hchannel =>
    cases hopen : (unwrap rx f).1 with
    | violation => exact hviolation
    | ignored => exact hignored
    | frame g =>
      have hg : g.channel = kAudio := ((unwrap_spec rx f).2 g hopen).trans hchannel
      have hvideo : g.channel ≠ kVideo := by rw [hg]; decide
      simp only [inbound, if_pos hg]
      split_ifs
      · exact hviolation
      · exact hignored
  | violation hopen =>
    rw [hopen]
    exact hviolation
  | @malformedCbor g e hopen hchannel hdecode =>
    have hvideo : g.channel ≠ kVideo := by rw [hchannel]; decide
    have haudio : g.channel ≠ kAudio := by rw [hchannel]; decide
    simp only [hopen, inbound, if_neg haudio, if_neg hvideo, if_pos hchannel, hdecode]
    split_ifs
    · exact hviolation
    · exact .of_away rfl rfl
  | malformedShape hopen hchannel hdecode hshape =>
    have hunfit := controlMessage_barren judge (by rw [hshape]; decide)
    exact hmessage hopen hchannel hdecode (controlPc_barren cfg _ _ hunfit)
  | unknownType hopen hchannel hdecode hshape =>
    have hunfit := controlMessage_barren judge (by rw [hshape]; decide)
    exact hmessage hopen hchannel hdecode (controlPc_barren cfg _ _ hunfit)
  | untrusted hopen hchannel hdecode htype htrusted =>
    refine hmessage hopen hchannel hdecode ?_
    rw [htrusted]
    exact controlPc_untrusted cfg _ (controlMessage_handshake judge htype)
  | untimely hchannel hstate =>
    cases hopen : (unwrap rx f).1 with
    | violation => exact hviolation
    | ignored => exact hignored
    | frame g =>
      have hg : g.channel = kVideo := ((unwrap_spec rx f).2 g hopen).trans hchannel
      rw [inbound_video judge hg]
      have haway := videoPc_untimely ⟨isKeyframe g, g.payload, g.ptsMicros.toNat⟩ s.arrivals hstate
      exact .of_away (videoPc_barren (.inl haway)) haway
  | @invalidUnit g hopen hchannel hunit =>
    rw [hopen, inbound_video judge hchannel]
    have haway := videoPc_invalid s.arrivals hunit
    exact .of_away (videoPc_barren (.inl haway)) haway
  | @delta g hopen hchannel hdelta hwaiting =>
    rw [hopen, inbound_video judge hchannel]
    exact .of_pc (videoPc_barren (.inr hdelta)) fun _ _ => hwaiting

/-! ### Until the next frame -/

/-- The network thread leaves the times as they are. -/
def keepsTimes (cfg : SessionConfig) (s : Sys) (a : Action) : Prop :=
  ∀ ok, a = .run net ok → times (next cfg s a).activity = times s.activity

/-- The last critical section of `handleVideo` meets a delta in a session that waits. -/
def dropsDelta (s : Sys) : Prop :=
  ∃ x, s.pc net = .videoEnqueue x ∧ x.unit.keyframe = false ∧ s.stream.waitingForKeyframe

/-- Steps other than the end of a frame or of a connection. -/
def duringFrame : Action → Bool
  | .call _ _ | .run _ _ | .watchdog | .tick => true
  | .connect | .disconnect | .receive _ => false

theorem enqueue_delta {x : Arrived} (t : Thread) (hdelta : x.unit.keyframe = false)
    (hwaiting : s.stream.waitingForKeyframe) :
    enqueue cfg s t x = { s with stream := countDrop s.stream }.goto t .serving := by
  have hdrop : s.stream.waitingForKeyframe ∧ (!x.unit.keyframe) = true := by
    simp [hdelta, hwaiting]
  rw [enqueue, if_pos hdrop]

theorem keepsTimes_of_dropsDelta (h : dropsDelta s) : keepsTimes cfg s a := by
  rintro ok rfl
  obtain ⟨x, hpc, hdelta, hwaiting⟩ := h
  rw [next, hpc, step, enqueue_delta net hdelta hwaiting]
  rfl

/-- A step of the network thread on a way without progress. -/
theorem idling_step (h : Idling s) (ok : Bool) :
    Idling (step cfg s net ok (s.pc net)) ∧
      times (step cfg s net ok (s.pc net)).activity = times s.activity := by
  obtain ⟨hbarren, hwaiting⟩ := h
  cases hpc : s.pc net with
  | serving => exact ⟨⟨by rw [step, hpc]; rfl, fun x hx => hwaiting x hx⟩, rfl⟩
  | fail => exact ⟨.of_away rfl rfl, rfl⟩
  | malformed => exact ⟨.of_away rfl rfl, rfl⟩
  | videoDrop => exact ⟨.of_away rfl rfl, rfl⟩
  | videoInvalid => exact ⟨.of_away rfl rfl, rfl⟩
  | hello deviceId verdict =>
    rw [hpc] at hbarren
    obtain rfl : verdict = .refused := by simpa [Pc.barren] using hbarren
    exact ⟨.of_away rfl rfl, rfl⟩
  | authResponse verdict =>
    rw [hpc] at hbarren
    obtain rfl : verdict = .malformed := by simpa [Pc.barren] using hbarren
    exact ⟨.of_away rfl rfl, rfl⟩
  | videoEnqueue x =>
    rw [hpc] at hbarren
    have hdelta : x.unit.keyframe = false := by simpa [Pc.barren] using hbarren
    rw [step, enqueue_delta net hdelta (hwaiting x hpc)]
    exact ⟨.of_away rfl rfl, rfl⟩
  | _ =>
    rw [hpc] at hbarren
    cases hbarren

/-- Only the network thread ends the wait for a keyframe. -/
theorem waiting_effect {s' : Sys} (e : Effect cfg s a s') (hw : s.stream.waitingForKeyframe)
    (hkey : ∀ t ok x, a = .run t ok → s.pc t = .videoEnqueue x → x.unit.keyframe = false) :
    s'.stream.waitingForKeyframe := by
  cases e with
  | @append t ok x activity hpc hmeets =>
    have hdelta := hkey t ok x rfl hpc
    rw [hmeets hw] at hdelta
    cases hdelta
  | @resetCall t ok consumer config generation connection after hpc =>
    cases consumer <;> exact hw
  | @consume t taken queued consumer hpc hmutex => cases taken <;> exact hw
  | connect hpc => rfl
  | disconnect hpc => rfl
  | flush hfrom hto hdropped => rfl
  | formatAck hpc hpending hresetting => rfl
  | _ => exact hw

/-- Another thread steps. -/
theorem Idling.of_same {s' : Sys} (h : Idling s) (hpc : s'.pc net = s.pc net)
    (hwaiting : s.stream.waitingForKeyframe → s'.stream.waitingForKeyframe) : Idling s' := by
  obtain ⟨hbarren, hw⟩ := h
  refine ⟨by rwa [hpc], fun x hx => hwaiting (hw x ?_)⟩
  rwa [← hpc]

/-- **While one frame is handled**, whatever thread steps. -/
theorem idling_next (hb : Base s) (h : Idling s) (he : enabled s a) (ha : duringFrame a) :
    Idling (next cfg s a) ∧ keepsTimes cfg s a := by
  have hkey : ∀ t ok x, a = .run t ok → s.pc t = .videoEnqueue x → x.unit.keyframe = false := by
    rintro t ok x - hpc
    obtain rfl : t = net := eq_net_of_role (hb.roles t) (by rw [hpc]; rfl)
    have hbarren := h.1
    rw [hpc] at hbarren
    simpa [Pc.barren] using hbarren
  have hother (hpc : (next cfg s a).pc net = s.pc net) : Idling (next cfg s a) :=
    h.of_same hpc fun hw => waiting_effect (next_effect cfg he) hw hkey
  cases a with
  | connect => cases ha
  | disconnect => cases ha
  | receive inbound => cases ha
  | tick => exact ⟨hother rfl, fun _ h => by cases h⟩
  | watchdog =>
    refine ⟨hother ?_, fun _ h => by cases h⟩
    rw [next, watchdog]
    split_ifs <;> rfl
  | call t c => exact ⟨hother (pc_goto_of_ne s he.1.symm _), fun _ h => by cases h⟩
  | run t ok =>
    by_cases ht : t = net
    · subst ht
      refine ⟨(idling_step h ok).1, fun ok' hok => ?_⟩
      rw [hok]
      exact (idling_step h ok').2
    · refine ⟨hother (pc_step_of_ne (Ne.symm ht) ok (s.pc t)), fun ok' hok => ?_⟩
      obtain ⟨rfl, -⟩ := Action.run.inj hok
      exact absurd rfl ht

/-- A frame by itself moves no time. -/
theorem times_onFrame (inbound : Inbound) :
    times (onFrame cfg s inbound).activity = times s.activity := by
  cases inbound <;> rfl

/-- **Worthless traffic extends no deadline.** A frame is received in any reachable state, and other
threads step in between as they like: if it is worthless, its handling leaves the times as they are,
and in any case the step that drops a delta does. -/
theorem times_of_frame (cfg : SessionConfig) (consumer : Option ConsumerId) (judge : Judge)
    (rx : Receiver) (f : Frame) (before during : List Action)
    (h : (controller cfg).Legal (fun _ _ => True) (.start cfg consumer)
      (before ++ .receive (inbound judge (unwrap rx f).1) :: during))
    (hduring : ∀ a ∈ during, duringFrame a) :
    let s := (controller cfg).exec (.start cfg consumer) before
    let received := onFrame cfg s (inbound judge (unwrap rx f).1)
    (Worthless rx s.stream f →
      times received.activity = times s.activity ∧
        (controller cfg).Legal (keepsTimes cfg) received during) ∧
      (controller cfg).Legal (fun s a => dropsDelta s → keepsTimes cfg s a) received during := by
  intro s received
  obtain ⟨hbefore, he, -, hlegal⟩ := Machine.legal_append.mp h
  have hb : Base s := hbefore.invariant (base_start cfg consumer) fun s a hb he _ => base_next hb he
  have hb' : Base (next cfg s (.receive (inbound judge (unwrap rx f).1))) := base_next hb he
  have hframe : (controller cfg).Legal (fun _ a => duringFrame a) received during := by
    refine hlegal.of_split fun before a after hsplit => hduring a ?_
    rw [hsplit]
    simp
  refine ⟨fun hw => ⟨times_onFrame _, ?_⟩, ?_⟩
  · refine hframe.along (I := fun s => Base s ∧ Idling s) ⟨hb', idling_onFrame judge hw he⟩ ?_ ?_
    · rintro s a ⟨hb, hi⟩ he ha
      exact ⟨base_next hb he, (idling_next hb hi he ha).1⟩
    · rintro s a ⟨hb, hi⟩ he ha
      exact (idling_next hb hi he ha).2
  · refine hframe.along (I := fun _ => True) trivial (fun _ _ _ _ _ => trivial) ?_
    rintro s a - - - hdrop
    exact keepsTimes_of_dropsDelta hdrop

/-- A controller with a trust policy, before any protector. -/
def plainReceiver : Receiver := ⟨Security.Integrity.summing, true, false, none⟩

def refusing : Judge := ⟨fun _ => .refused, fun _ => false⟩

def deltaFrame : Frame := ⟨kVideo, 0, 0, deltaSample.payload⟩

/-- A consumer is replaced while the delta is handled, and time passes. -/
def replacedMeanwhile : List Action :=
  [.call 1 (.setConsumer (some 2)), .tick, .run 1 true, .run net true, .watchdog, .run 1 true]

/-- A delta right after the reset of the stream. -/
theorem times_of_deltaFrame :
    let s := (controller {}).exec (.start {} (some 1)) bringUp
    let received := onFrame {} s (.video deltaSample)
    times received.activity = times s.activity ∧
      (controller {}).Legal (keepsTimes {}) received replacedMeanwhile :=
  (times_of_frame {} (some 1) refusing plainReceiver deltaFrame bringUp replacedMeanwhile
    (by decide) (by decide)).1 (.delta (g := deltaFrame) (by decide) rfl (by decide) (by decide))

end RemoteCam.Backend.Deadlines
