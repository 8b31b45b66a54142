import RemoteCam.Backend.Delivery
import RemoteCam.Link.Agreement

/-! # From the encoder to the consumer

A unit that the phone's encoder puts out waits for the main actor, then on the queue of the
transport, then on the line, then in the queue of the PC, and may be lost in each of these places.
`carriedOver_of_run`: what the consumers of the PC take is nothing but such units, unchanged, each
once at most, and in the order in which they were put out when the main actor handles them so.

On the PC a unit is known by its number among the units received, on the phone by its place. -/

namespace RemoteCam.Link.Delivery

open RemoteCam.Lib.Transitions
open RemoteCam.Backend.Session (net Arrived ConsumerId Event QueuedAccessUnit SessionConfig Sys
  Thread Pc VideoFrame videoPc)
open RemoteCam.Backend.Effects RemoteCam.Backend.Invariants
open RemoteCam.Backend.Delivery (Pc.inFlight Pipeline delivered drainedBefore inFlight_of_moves
  returnPc_outOfFlight pipeline_effect)
open RemoteCam.Backend.Handshake (Line)
open RemoteCam.Phone.Transport
open RemoteCam.Phone.Session (Client RemoteHost)
open RemoteCam.Phone.Parts (videos videoOf)
open RemoteCam.Phone.Hello (settle drained submitted_initial)
open RemoteCam.Phone.Keyframes (AppTask.unit unitOf mute_next units_eraseIdx drained_send_video)
open RemoteCam.Link.System RemoteCam.Link.PcSide

variable {cfg : SessionConfig}

/-! ### Places in a list -/

/-- Elements that stand at increasing places of a list are a sublist of it. -/
theorem sublist_of_places {α β : Type} {f : α → β} {place : α → ℕ} :
    ∀ {ys : List β} {base : ℕ} {xs : List α}, (xs.map place).Pairwise (· < ·) →
      (∀ x ∈ xs, base ≤ place x ∧ ys[place x - base]? = some (f x)) → (xs.map f).Sublist ys := by
  intro ys
  induction ys with
  | nil =>
    intro base xs _ hat
    cases xs with
    | nil => exact .slnil
    | cons x xs => exact absurd (hat x List.mem_cons_self).2 (by simp)
  | cons y ys ih =>
    intro base xs hsorted hat
    cases xs with
    | nil => exact List.nil_sublist _
    | cons x xs =>
      rw [List.map_cons, List.pairwise_cons] at hsorted
      have hlater : ∀ z ∈ xs, place x < place z := fun z hz => hsorted.1 _ (List.mem_map_of_mem hz)
      have htail {z : α} (hz : z ∈ x :: xs) (hlt : base < place z) :
          base + 1 ≤ place z ∧ ys[place z - (base + 1)]? = some (f z) := by
        have hget := (hat z hz).2
        rw [show place z - base = place z - (base + 1) + 1 by omega, List.getElem?_cons_succ] at hget
        exact ⟨hlt, hget⟩
      obtain ⟨hbase, hget⟩ := hat x List.mem_cons_self
      rcases hbase.eq_or_lt with heq | hlt
      · rw [← heq, Nat.sub_self, List.getElem?_cons_zero] at hget
        obtain rfl := Option.some.inj hget
        refine (@ih (base + 1) xs hsorted.2 fun z hz => ?_).cons_cons _
        exact htail (List.mem_cons_of_mem _ hz) (heq ▸ hlater z hz)
      · have hsorted' : ((x :: xs).map place).Pairwise (· < ·) := List.pairwise_cons.mpr hsorted
        refine (@ih (base + 1) _ hsorted' fun z hz => htail hz ?_).cons _
        rcases List.mem_cons.mp hz with rfl | hz
        · exact hlt
        · exact hlt.trans (hlater z hz)

/-! ### The PC -/

section Pc
variable {s s' : Sys} {b : Backend.Session.Action} {x : Arrived}

/-- The frame that has become the unit. -/
def frameOf (x : Arrived) : VideoFrame := ⟨x.unit.keyframe, x.unit.bytes, x.unit.ptsMicros⟩

def Event.consumed (e : Event) : Option Arrived :=
  match e.callback with
  | .consume queued true => some queued.toArrived
  | _ => none

/-- The units that consumers took, the newest first. -/
def consumed (log : List Event) : List Arrived := log.filterMap Event.consumed

theorem delivered_eq (log : List Event) : delivered log = (consumed log).map (·.arrival) := by
  unfold delivered consumed
  rw [List.map_filterMap]
  congr 1
  funext e
  unfold Backend.Delivery.Event.delivery Event.consumed
  cases e.callback with
  | reset config generation connection => rfl
  | consume queued taken => cases taken <;> rfl

/-- The unit is queued, about to be, or at a consumer. -/
def Held (s : Sys) (x : Arrived) : Prop :=
  Enqueued s x ∨ ∃ t q, Pc.inFlight (s.pc t) = some q ∧ q.toArrived = x

theorem inFlight_goto {s₁ : Sys} {t u : Thread} {pc : Pc} {q : QueuedAccessUnit}
    (hpool : s₁.pool = s.pool) (hpc : Pc.inFlight pc = none)
    (h : Pc.inFlight ((s₁.goto t pc).pc u) = some q) : Pc.inFlight (s.pc u) = some q := by
  have hsame : s.pc u = (s₁.goto t pc).pc u := by
    refine pc_of_goto hpool rfl fun heq => ?_
    rw [← heq, hpc] at h
    cases h
  rw [hsame]
  exact h

/-- **What is held** was held before, or has just been received. -/
theorem held_effect (hr : Roles s) (e : Effect cfg s b s') (h : Held s' x) :
    Held s x ∨ ∃ frame, b = .receive (.video frame) ∧
      videoPc s.stream frame s.arrivals = .videoEnqueue x := by
  rcases h with h | ⟨u, q, hq, rfl⟩
  · rcases enqueued_effect hr e h with ⟨h, -⟩ | hfresh
    · exact .inl (.inl h)
    · exact .inr hfresh
  · left
    have hback {s₁ : Sys} {t : Thread} {pc : Pc} (hpool : s₁.pool = s.pool)
        (hpc : Pc.inFlight pc = none) (h : Pc.inFlight ((s₁.goto t pc).pc u) = some q) :
        Held s q.toArrived := .inr ⟨u, q, inFlight_goto hpool hpc h, rfl⟩
    cases e with
    | still hstate => exact .inr ⟨u, q, hq, rfl⟩
    | plain hfrom hvalid hto hstate => exact hback rfl (inFlight_of_moves hto).1 hq
    | connect hpc => exact hback rfl rfl hq
    | disconnect hpc => exact hback rfl rfl hq
    | arrive hpc =>
      exact hback rfl (Backend.Delivery.inFlight_of_outside (videoPc_outside _ _ _).1) hq
    | flush hfrom hto hdropped => exact hback rfl (inFlight_of_moves hto).1 hq
    | append hpc hkey => exact hback rfl rfl hq
    | startStream hpc hstate hpending hresetting => exact hback rfl rfl hq
    | formatAck hpc hpending hresetting => exact hback rfl rfl hq
    | resetLock hpc hmutex => exact hback rfl rfl hq
    | @resetCall t ok consumer config generation connection after hpc =>
      cases consumer <;> exact hback rfl rfl hq
    | @resetClear t ok after hpc => cases after <;> exact hback rfl rfl hq
    | replaceReset hpc hmutex hstate hpending hresetting => exact hback rfl rfl hq
    | replace hpc hmutex hskip => exact hback rfl rfl hq
    | drainBusy hpc hdraining => exact hback rfl (returnPc_outOfFlight _).1 hq
    | drainEnter hpc hdraining => exact hback rfl rfl hq
    | drainStop hpc => exact hback rfl (returnPc_outOfFlight _).1 hq
    | @drainTake t ok queued rest consumer hpc hqueue hconsumer hresetting =>
      by_cases ht : u = t
      · subst ht
        rw [pc_goto_self] at hq
        cases hq
        exact .inl (.inr ⟨q, by rw [hqueue]; exact List.mem_cons_self, rfl⟩)
      · rw [pc_goto_of_ne _ ht] at hq
        exact .inr ⟨u, q, hq, rfl⟩
    | @consume t taken queued consumer hpc hmutex =>
      by_cases ht : u = t
      · subst ht
        rw [pc_goto_self] at hq
        cases taken with
        | false => cases hq
        | true =>
          cases hq
          exact .inr ⟨u, q, by rw [hpc]; rfl, rfl⟩
      · rw [pc_goto_of_ne _ ht] at hq
        exact .inr ⟨u, q, hq, rfl⟩
    | pop hpc hqueue htoken => exact hback rfl rfl hq
    | keep hpc htoken => exact hback rfl rfl hq

/-- A step makes at most one callback, on a unit in flight. -/
theorem log_effect (e : Effect cfg s b s') : ∃ new, s'.log = new ++ s.log ∧
    ∀ y ∈ consumed new, Held s y := by
  have hsame {s₁ : Sys} (h : s₁.log = s.log) : ∃ new, s₁.log = new ++ s.log ∧
      ∀ y ∈ consumed new, Held s y := ⟨[], h, nofun⟩
  cases e with
  | @resetCall t ok consumer config generation connection after hpc =>
    cases consumer with
    | none => exact hsame rfl
    | some consumer =>
      refine ⟨[⟨consumer, .reset config generation connection, s.settled⟩], rfl, ?_⟩
      exact fun y hy => absurd hy List.not_mem_nil
  | @resetClear t ok after hpc => cases after <;> exact hsame rfl
  | @consume t taken queued consumer hpc hmutex =>
    refine ⟨[⟨consumer, .consume queued taken, s.settled⟩], rfl, fun y hy => ?_⟩
    cases taken with
    | false => exact absurd hy List.not_mem_nil
    | true =>
      obtain rfl := List.mem_singleton.mp hy
      exact .inr ⟨t, queued, by rw [hpc]; rfl, rfl⟩
  | _ => exact hsame rfl

/-- The video frames that a step receives. -/
def videoIn : Backend.Session.Action → List VideoFrame
  | .receive (.video frame) => [frame]
  | _ => []

theorem arrivals_next (he : Backend.Session.enabled s b) :
    (Backend.Session.next cfg s b).arrivals = s.arrivals + (videoIn b).length := by
  have hsame (h : ∀ frame, b ≠ .receive (.video frame)) :
      (Backend.Session.next cfg s b).arrivals = s.arrivals := by
    have e := next_effect cfg he
    revert e
    generalize Backend.Session.next cfg s b = s'
    intro e
    cases e with
    | arrive hpc => exact absurd rfl (h _)
    | @resetCall t ok consumer config generation connection after hpc => cases consumer <;> rfl
    | @resetClear t ok after hpc => cases after <;> rfl
    | _ => rfl
  cases b with
  | receive inbound =>
    cases inbound with
    | video frame => rfl
    | _ => exact hsame nofun
  | _ => exact hsame nofun

/-- The unit that a frame leads to has the frame's content and number. -/
theorem frame_of_enqueue {st : Backend.Session.Stream} {frame : VideoFrame} {arrival : ℕ}
    (h : videoPc st frame arrival = .videoEnqueue x) :
    frameOf x = frame ∧ x.arrival = arrival := by
  unfold videoPc at h
  dsimp only at h
  split_ifs at h
  obtain rfl := Pc.videoEnqueue.inj h
  exact ⟨rfl, rfl⟩

/-- What is held, and what consumers have taken since `old`, are frames received since `base`. -/
structure Traced (base : ℕ) (old : List Event) (frames : List VideoFrame) (s : Sys) : Prop where
  count : s.arrivals = base + frames.length
  held : ∀ x, Held s x → base ≤ x.arrival ∧ frames[x.arrival - base]? = some (frameOf x)
  log : ∃ new, s.log = new ++ old ∧
    ∀ x ∈ consumed new, base ≤ x.arrival ∧ frames[x.arrival - base]? = some (frameOf x)

variable {base : ℕ} {old : List Event} {frames : List VideoFrame}

theorem getElem?_append_of_some {α : Type} {l more : List α} {i : ℕ} {a : α}
    (h : l[i]? = some a) : (l ++ more)[i]? = some a := by
  rw [List.getElem?_append_left (List.getElem?_eq_some_iff.mp h).1, h]

theorem Traced.next (hr : Roles s) (h : Traced base old frames s)
    (he : Backend.Session.enabled s b) :
    Traced base old (frames ++ videoIn b) (Backend.Session.next cfg s b) := by
  have e := next_effect cfg he
  refine ⟨?_, fun x hx => ?_, ?_⟩
  · rw [arrivals_next he, h.count, List.length_append, Nat.add_assoc]
  · rcases held_effect hr e hx with hx | ⟨frame, rfl, henqueue⟩
    · exact (h.held x hx).imp_right getElem?_append_of_some
    · obtain ⟨hunit, harrival⟩ := frame_of_enqueue henqueue
      rw [harrival, h.count, hunit, Nat.add_sub_cancel_left]
      exact ⟨Nat.le_add_right _ _, List.getElem?_concat_length⟩
  · obtain ⟨new, hlog, hnew⟩ := h.log
    obtain ⟨more, hmore, hheld⟩ := log_effect e
    refine ⟨more ++ new, by rw [hmore, hlog, List.append_assoc], fun x hx => ?_⟩
    unfold consumed at hx
    rw [List.filterMap_append] at hx
    rcases List.mem_append.mp hx with hx | hx
    · exact (h.held x (hheld x hx)).imp_right getElem?_append_of_some
    · exact (hnew x hx).imp_right getElem?_append_of_some

/-- When a connection begins, nothing is held, once no thread is draining. -/
theorem traced_connect (hdrained : s.Free Pc.drains) :
    Traced s.arrivals s.log [] (Backend.Session.next cfg s .connect) := by
  refine ⟨rfl, fun x hx => ?_, [], rfl, nofun⟩
  rcases hx with (hx | ⟨q, hq, -⟩) | ⟨t, q, hq, -⟩
  · change (Backend.Session.onConnected cfg s).pc net = _ at hx
    rw [Backend.Session.onConnected, pc_goto_self] at hx
    cases hx
  · exact absurd hq List.not_mem_nil
  · have hfree := Backend.Delivery.inFlight_of_outside (hdrained t)
    rw [inFlight_goto (s := s) rfl rfl hq] at hfree
    cases hfree

/-- What consumers have taken is a part of the frames, in their order. -/
theorem Traced.sublist (h : Traced base old frames s) (hp : Pipeline s) :
    ∃ new, s.log = new ++ old ∧ ((consumed new).reverse.map frameOf).Sublist frames := by
  obtain ⟨new, hlog, hnew⟩ := h.log
  have hsorted := hp.inOrder
  rw [delivered_eq, hlog, consumed, List.filterMap_append, List.map_append] at hsorted
  refine ⟨new, hlog, @sublist_of_places _ _ frameOf (·.arrival) frames base _ ?_ fun x hx => ?_⟩
  · rw [List.map_reverse, List.pairwise_reverse]
    exact (List.pairwise_append.mp hsorted).1
  · exact hnew x (List.mem_reverse.mp hx)

end Pc

/-! ### The phone -/

/-- The units that the transport was given and that wait for the main actor. -/
def onTheWay (s : Client) : List EncodedAccessUnit :=
  (videos s.transport).map Prod.snd ++ s.tasks.filterMap AppTask.unit

/-- A unit is handled when no other one waits before it. -/
def inTurn (p : Pair) : Action → Prop
  | .phone (.run i _ _) =>
    ∀ task ∈ p.phone.tasks[i]?, (AppTask.unit task).isSome = true →
      (p.phone.tasks.take i).filterMap AppTask.unit = []
  | _ => True

instance (p : Pair) (a : Action) : Decidable (inTurn p a) := by
  unfold inTurn; split <;> infer_instance

/-- What was put out, the oldest first. -/
def output (p : Pair) : List EncodedAccessUnit := (p.made.map Prod.fst).reverse

/-- Units are lost on the way, but none comes up twice; they keep their order if they are handled in
turn. -/
structure Kept (strict : Prop) (p : Pair) : Prop where
  units : (onTheWay p.phone).Subperm (output p)
  order : strict → (onTheWay p.phone).Sublist (output p)

section Phone
variable {strict : Prop} {p : Pair}

/-- A step that neither puts out a unit nor handles one. -/
theorem onTheWay_of_mute {a : Phone.Session.Action} (he : Phone.Session.enabled p.phone a)
    (hencode : ∀ unit, a ≠ .encode unit) (hunit : unitOf p.phone a = none) :
    onTheWay (Phone.Session.next p.phone a) = onTheWay p.phone := by
  have hturn : Phone.Keyframes.inTurn p.phone a := by
    cases a with
    | encode unit => exact hencode unit rfl
    | run i outcome restored =>
      intro task htask hsome
      have hnone : AppTask.unit task = none := by
        unfold unitOf at hunit
        dsimp only at hunit
        rwa [htask] at hunit
      rw [hnone] at hsome
      cases hsome
    | _ => trivial
  obtain ⟨hmute, -⟩ := mute_next he hturn hunit
  unfold onTheWay
  rw [hmute.videos, hmute.waiting]

/-- The transport takes the unit, or drops it. -/
theorem videos_send (t : RemoteCamTransport) (unit : EncodedAccessUnit) :
    (videos (t.send (.video unit))).map Prod.snd = (videos t).map Prod.snd ∨
      (videos (t.send (.video unit))).map Prod.snd = (videos t).map Prod.snd ++ [unit] := by
  unfold videos
  rw [drained_send_video]
  split_ifs
  · unfold settle
    cases (drained t).1 with
    | none => exact .inl (congrArg _ (congrArg _ (List.append_nil _)))
    | some c =>
      right
      rw [List.filterMap_append, List.map_append]
      rfl
  · exact .inl rfl

/-- A unit is handled: it leaves its place, and may come last among those that were sent. -/
theorem onTheWay_of_unit {i : ℕ} {outcome restored : Phone.Session.Outcome}
    {unit : EncodedAccessUnit} (hi : i < p.phone.tasks.length)
    (hunit : unitOf p.phone (.run i outcome restored) = some unit) :
    let sent := (videos p.phone.transport).map Prod.snd
    let before := (p.phone.tasks.take i).filterMap AppTask.unit
    let after := (p.phone.tasks.drop (i + 1)).filterMap AppTask.unit
    onTheWay p.phone = sent ++ (before ++ unit :: after) ∧
      (onTheWay (Phone.Session.next p.phone (.run i outcome restored)) = sent ++ (before ++ after) ∨
        onTheWay (Phone.Session.next p.phone (.run i outcome restored)) =
          sent ++ [unit] ++ (before ++ after)) := by
  intro sent before after
  have htask : AppTask.unit p.phone.tasks[i] = some unit := by
    unfold unitOf at hunit
    dsimp only at hunit
    rwa [List.getElem?_eq_getElem hi] at hunit
  obtain ⟨hall, hothers⟩ := units_eraseIdx hi
  rw [htask] at hall
  refine ⟨congrArg (sent ++ ·) hall, ?_⟩
  have hrun : p.phone.tasks[i] = Phone.Session.AppTask.accessUnit unit := by
    cases h : p.phone.tasks[i] with
    | accessUnit u =>
      rw [h] at htask
      rw [Option.some.inj htask]
    | _ =>
      rw [h] at htask
      cases htask
  rw [Phone.Effects.next_run hi, hrun]
  unfold onTheWay Phone.Session.resume Phone.Session.sendVideo
  dsimp only
  split_ifs
  · exact .inl (congrArg (sent ++ ·) hothers)
  · dsimp only
    rw [hothers]
    exact (videos_send p.phone.transport unit).imp (congrArg (· ++ _)) (congrArg (· ++ _))

theorem kept_phone {a : Phone.Session.Action} (h : Kept strict p)
    (he : enabled cfg p (.phone a)) (hturn : strict → inTurn p (.phone a)) :
    Kept strict (next cfg p (.phone a)) := by
  obtain ⟨he, -, hcarried⟩ := he
  have hmade (hencode : ∀ unit, a ≠ .encode unit) :
      output (next cfg p (.phone a)) = output p := by
    cases a with
    | encode unit => exact absurd rfl (hencode unit)
    | _ => rfl
  have hmute (hencode : ∀ unit, a ≠ .encode unit) (hunit : unitOf p.phone a = none) :
      Kept strict (next cfg p (.phone a)) := by
    have hway : onTheWay (next cfg p (.phone a)).phone = onTheWay p.phone :=
      onTheWay_of_mute he hencode hunit
    constructor
    · rw [hway, hmade hencode]
      exact h.units
    · rw [hway, hmade hencode]
      exact h.order
  cases a with
  | encode unit =>
    obtain ⟨c, hc⟩ := Option.isSome_iff_exists.mp hcarried
    have hway : onTheWay (next cfg p (.phone (.encode unit))).phone =
        onTheWay p.phone ++ [unit] := by
      change (videos p.phone.transport).map Prod.snd ++
        (p.phone.tasks ++ [Phone.Session.AppTask.accessUnit unit]).filterMap AppTask.unit = _
      rw [List.filterMap_append, ← List.append_assoc]
      rfl
    have hout : output (next cfg p (.phone (.encode unit))) = output p ++ [unit] := by
      unfold output System.next
      dsimp only
      rw [hc]
      simp
    constructor
    · rw [hway, hout]
      exact (List.subperm_append_right [unit]).mpr h.units
    · rw [hway, hout]
      exact fun hs => (h.order hs).append_right [unit]
  | run i outcome restored =>
    cases hunit : unitOf p.phone (.run i outcome restored) with
    | none => exact hmute nofun hunit
    | some unit =>
      have hi : i < p.phone.tasks.length := he
      obtain ⟨hold, hnew⟩ := onTheWay_of_unit hi hunit
      set sent := (videos p.phone.transport).map Prod.snd
      set before := (p.phone.tasks.take i).filterMap AppTask.unit with hbefore
      set after := (p.phone.tasks.drop (i + 1)).filterMap AppTask.unit
      have hunits := h.units
      have horder := h.order
      rw [hold] at hunits horder
      have hmove : (sent ++ [unit] ++ (before ++ after)).Perm (sent ++ (before ++ unit :: after)) := by
        rw [List.append_assoc]
        exact (@List.perm_middle _ unit before _).symm.append_left sent
      have hdrop : (sent ++ (before ++ after)).Sublist (sent ++ (before ++ unit :: after)) :=
        ((List.sublist_cons_self unit after).append_left before).append_left sent
      have hout : output (next cfg p (.phone (.run i outcome restored))) = output p := rfl
      rcases hnew with hnew | hnew
      · constructor
        · rw [hout]
          exact hnew ▸ hdrop.subperm.trans hunits
        · rw [hout]
          exact fun hs => hnew ▸ hdrop.trans (horder hs)
      · constructor
        · rw [hout]
          exact hnew ▸ hmove.subperm.trans hunits
        · rw [hout]
          intro hs
          have hfirst : before = [] := by
            refine hturn hs p.phone.tasks[i] (List.getElem?_eq_getElem hi) ?_
            have htask := hunit
            unfold unitOf at htask
            dsimp only at htask
            rw [List.getElem?_eq_getElem hi] at htask
            exact Option.isSome_iff_exists.mpr ⟨unit, htask⟩
          have hsame : sent ++ [unit] ++ (before ++ after) = sent ++ (before ++ unit :: after) := by
            rw [hfirst, List.append_assoc]
            rfl
          exact (hnew.trans hsame) ▸ horder hs
  | _ => exact hmute nofun rfl

end Phone

/-! ### The line -/

section Line
variable {p : Pair}

/-- The units that the PC has received. -/
def heardUnits (p : Pair) : List EncodedAccessUnit :=
  (((drained p.phone.transport).2.take p.received).filterMap videoOf).map Prod.snd

theorem heardUnits_sublist (p : Pair) : (heardUnits p).Sublist (onTheWay p.phone) := by
  have htaken : (heardUnits p).Sublist ((videos p.phone.transport).map Prod.snd) :=
    ((List.take_sublist _ _).filterMap videoOf).map Prod.snd
  exact htaken.trans (List.sublist_append_left _ _)

/-- What has been said stays said. -/
theorem initial_phone {a : Phone.Session.Action} (he : enabled cfg p (.phone a)) :
    (drained p.phone.transport).2 <+: (drained (Phone.Session.next p.phone a).transport).2 := by
  obtain ⟨he, hsmooth, hcarried⟩ := he
  cases hreceives : PhoneSide.receives a with
  | true =>
    obtain ⟨frames, rfl⟩ := Agreement.data_of_receives hreceives hsmooth
    obtain ⟨n, -, rfl⟩ := Agreement.taken_of_carried hcarried
    exact (congrArg (·.line.2) (PhoneSide.view_received he)).symm ▸ List.prefix_rfl
  | false => exact (@PhoneSide.turn p.phone p.encoder a he hsmooth hreceives).initial

theorem heardUnits_phone {a : Phone.Session.Action} (he : enabled cfg p (.phone a))
    (hreceived : p.received ≤ (drained p.phone.transport).2.length) :
    heardUnits (next cfg p (.phone a)) = heardUnits p := by
  obtain ⟨more, hmore⟩ := initial_phone he
  change (((drained (Phone.Session.next p.phone a).transport).2.take p.received).filterMap
    videoOf).map Prod.snd = _
  rw [← hmore, List.take_append_of_le_length hreceived]
  rfl

/-- The video frames that a step of the PC receives. -/
def heardIn : Backend.Handshake.Action → List VideoFrame
  | .session b => videoIn b
  | _ => []

/-- A step of the PC is one of the controller that receives the same, or leaves it as it is. -/
theorem session_next {l : Line} {a : Backend.Handshake.Action}
    (he : Backend.Handshake.enabled cfg l a) :
    (Backend.Handshake.next cfg l a).session = l.session ∧ heardIn a = [] ∨
      ∃ b, Backend.Session.enabled l.session b ∧
        (Backend.Handshake.next cfg l a).session = Backend.Session.next cfg l.session b ∧
        videoIn b = heardIn a ∧ (b = .connect → a = .session .connect) := by
  cases a with
  | session b => exact .inr ⟨b, he.1, by cases b <;> rfl, rfl, congrArg _⟩
  | hello d answer => exact .inr ⟨_, he.1, rfl, rfl, nofun⟩
  | send ok =>
    rcases session_cases he with hsame | ⟨b, hb, hnext, h | ⟨d, answer, h, -⟩ | ⟨ok', -, rfl⟩⟩
    · exact .inl ⟨hsame, rfl⟩
    · cases h
    · cases h
    · exact .inr ⟨_, hb, hnext, rfl, nofun⟩
  | recover ok => exact .inl ⟨rfl, rfl⟩
  | command c ok =>
    refine .inl ⟨?_, rfl⟩
    simp only [Backend.Handshake.next]
    split_ifs <;> rfl

/-- The PC receives the next content of the line, or nothing. -/
theorem heardUnits_pc {a : Backend.Handshake.Action} {d : Details}
    (he : enabled cfg p (.pc a d)) :
    (heardUnits (next cfg p (.pc a d))).map frame = (heardUnits p).map frame ++ heardIn a := by
  obtain ⟨-, -, hcarried⟩ := he
  cases htakes : takes a with
  | false =>
    have hnone : heardIn a = [] := by
      cases a with
      | session b =>
        cases b with
        | receive inbound => cases htakes
        | _ => rfl
      | _ => rfl
    rw [hnone, List.append_nil]
    change ((((drained p.phone.transport).2.take
      (if takes a then p.received + 1 else p.received)).filterMap videoOf).map Prod.snd).map frame
        = _
    rw [htakes]
    rfl
  | true =>
    obtain ⟨content, hcontent, hreceives⟩ := hcarried htakes
    obtain ⟨c, hunread⟩ := Agreement.unread_of_coming hcontent
    have hline : (drained p.phone.transport).2[p.received]? = some (c, content) := by
      have hhead := congrArg List.head? hunread
      rwa [Agreement.unread, List.head?_drop] at hhead
    have hheard : heardUnits (next cfg p (.pc a d)) =
        heardUnits p ++ ((videoOf (c, content)).map Prod.snd).toList := by
      change (((drained p.phone.transport).2.take
        (if takes a then p.received + 1 else p.received)).filterMap videoOf).map Prod.snd = _
      rw [htakes, if_pos rfl, List.take_add_one, hline, List.filterMap_append, List.map_append]
      cases content <;> rfl
    rw [hheard, List.map_append]
    congr 1
    cases content with
    | control said =>
      cases a with
      | session b =>
        cases b with
        | receive inbound =>
          cases inbound with
          | video received => cases said <;> exact absurd hreceives id
          | _ => rfl
        | _ => rfl
      | _ => rfl
    | video unit =>
      cases a with
      | session b =>
        cases b with
        | receive inbound =>
          cases inbound with
          | video received =>
            obtain rfl : received = frame unit := hreceives
            rfl
          | _ => exact absurd hreceives id
        | _ => cases htakes
      | hello d answer => exact absurd hreceives id
      | _ => cases htakes

end Line

/-! ### Runs -/

/-- No connection begins while a thread drains the queue of the one before. -/
def drainedFirst (l : Line) (a : Backend.Handshake.Action) : Prop :=
  a = .session .connect → l.session.Free Pc.drains

instance (l : Line) (a : Backend.Handshake.Action) : Decidable (drainedFirst l a) := by
  unfold drainedFirst; infer_instance

/-- What `Backend.Delivery` keeps of the PC. -/
structure Flows (s : Sys) : Prop where
  base : Base s
  one : OneDrainer s
  pipeline : Pipeline s

theorem flows_start (cfg : SessionConfig) (consumer : Option ConsumerId) :
    Flows (.start cfg consumer) :=
  ⟨base_start cfg consumer, oneDrainer_start cfg consumer,
    Backend.Delivery.pipeline_start cfg consumer⟩

theorem Flows.next {l : Line} {a : Backend.Handshake.Action} (h : Flows l.session)
    (he : Backend.Handshake.enabled cfg l a) (hdrained : drainedFirst l a) :
    Flows (Backend.Handshake.next cfg l a).session := by
  rcases session_next he with ⟨hsame, -⟩ | ⟨b, hb, hnext, -, hconnect⟩
  · rw [hsame]
    exact h
  · have hcond : drainedBefore l.session b := fun hb => hdrained (hconnect hb)
    have e := next_effect cfg hb
    rw [hnext]
    exact ⟨base_next h.base hb, oneDrainer_effect h.one e hcond,
      pipeline_effect h.base h.one h.pipeline e hcond⟩

structure Inv (strict : Prop) (base : ℕ) (old : List Event) (p : Pair) : Prop where
  flows : Flows p.pc.session
  received : p.received ≤ (drained p.phone.transport).2.length
  traced : Traced base old ((heardUnits p).map frame) p.pc.session
  kept : Kept strict p

section Inv
variable {strict : Prop} {base : ℕ} {old : List Event} {p : Pair}

theorem received_pc {a : Backend.Handshake.Action} {d : Details} (he : enabled cfg p (.pc a d))
    (h : p.received ≤ (drained p.phone.transport).2.length) :
    (next cfg p (.pc a d)).received ≤ (drained p.phone.transport).2.length := by
  change (if takes a then p.received + 1 else p.received) ≤ _
  split_ifs with htakes
  · obtain ⟨content, hcontent, -⟩ := he.2.2 htakes
    obtain ⟨x, hx, -⟩ := Option.map_eq_some_iff.mp hcontent
    have hlt := (List.getElem?_eq_some_iff.mp hx).1
    exact hlt.trans_le (submitted_initial p.phone.transport).length_le
  · exact h

theorem Inv.next {a : Action} (h : Inv strict base old p) (he : enabled cfg p a)
    (hturn : strict → inTurn p a) : Inv strict base old (next cfg p a) := by
  cases a with
  | pc a d =>
    have hflows : Flows (System.next cfg p (.pc a d)).pc.session :=
      h.flows.next he.1 fun hconnect => absurd hconnect he.2.1.1
    refine ⟨hflows, received_pc he h.received, ?_, ⟨h.kept.units, h.kept.order⟩⟩
    rw [heardUnits_pc he]
    change Traced base old _ (Backend.Handshake.next cfg p.pc a).session
    rcases session_next he.1 with ⟨hsame, hnone⟩ | ⟨b, hb, hnext, hvideo, -⟩
    · rw [hsame, hnone, List.append_nil]
      exact h.traced
    · rw [hnext, ← hvideo]
      exact h.traced.next h.flows.base.roles hb
  | phone a =>
    refine ⟨h.flows, h.received.trans (initial_phone he).length_le, ?_,
      kept_phone h.kept he hturn⟩
    rw [heardUnits_phone he h.received]
    exact h.traced

theorem inv_start {line : Line} (h : Flows line.session)
    (hidle : line.session.pc net = .idle) (hdrained : line.session.Free Pc.drains) (allows : Bool)
    (host : RemoteHost) (discovered : Option NWEndpoint) :
    Inv strict line.session.arrivals line.session.log
      (.start cfg line allows host discovered) := by
  obtain ⟨hsaid, -⟩ := Agreement.view_start allows host discovered
  have hflows : Flows (Backend.Handshake.next cfg line (.session .connect)).session :=
    h.next ⟨hidle, trivial⟩ fun _ => hdrained
  have hnone : onTheWay (Pair.start cfg line allows host discovered).phone = [] := by
    have hvideos : videos (Pair.start cfg line allows host discovered).phone.transport = [] := by
      unfold videos
      rw [show (drained (Pair.start cfg line allows host discovered).phone.transport).2 = [] from
        hsaid]
      rfl
    unfold onTheWay
    rw [hvideos]
    unfold Pair.start Phone.Session.next Phone.Session.AppModel.connect
    dsimp only
    split <;> rfl
  refine ⟨hflows, Nat.zero_le _, traced_connect hdrained, ?_, fun _ => ?_⟩
  · rw [hnone]
    exact List.nil_subperm
  · rw [hnone]
    exact List.nil_sublist _

/-- The unit that a frame was made of. -/
def unitFrom (f : VideoFrame) : EncodedAccessUnit := ⟨f.payload, f.keyframe, f.ptsMicros⟩

theorem Inv.taken (h : Inv strict base old p) : ∃ new, p.pc.session.log = new ++ old ∧
    ((consumed new).reverse.map origin).Sublist (onTheWay p.phone) := by
  obtain ⟨new, hlog, hsub⟩ := h.traced.sublist h.flows.pipeline
  have hunits := hsub.map unitFrom
  rw [List.map_map, List.map_map] at hunits
  refine ⟨new, hlog, List.Sublist.trans ?_ (heardUnits_sublist p)⟩
  rwa [show unitFrom ∘ frame = id from rfl, List.map_id] at hunits

end Inv

/-- **From the encoder to the consumer.** In every run on one connection, what consumers have taken
since it began are units that the encoder put out since then, with their bytes, times and flags,
each once at most; and in the order in which they were put out, if their tasks run in that order. -/
theorem carriedOver_of_run (cfg : SessionConfig) (consumer : Option ConsumerId)
    (before : List Backend.Handshake.Action) (allows : Bool) (host : RemoteHost)
    (discovered : Option NWEndpoint) (as : List Action)
    (past : (Backend.Handshake.line cfg).Legal drainedFirst (.start cfg consumer) before)
    (hidle :
      ((Backend.Handshake.line cfg).exec (.start cfg consumer) before).session.pc net = .idle)
    (hdrained :
      ((Backend.Handshake.line cfg).exec (.start cfg consumer) before).session.Free Pc.drains)
    (h : (system cfg).Legal (fun _ _ => True) (.start cfg
      ((Backend.Handshake.line cfg).exec (.start cfg consumer) before) allows host discovered) as) :
    let line := (Backend.Handshake.line cfg).exec (.start cfg consumer) before
    let start := Pair.start cfg line allows host discovered
    let p := (system cfg).exec start as
    ∃ new, p.pc.session.log = new ++ line.session.log ∧
      ((consumed new).reverse.map origin).Subperm (output p) ∧
      ((system cfg).Legal inTurn start as →
        ((consumed new).reverse.map origin).Sublist (output p)) := by
  intro line start p
  have hflows : Flows line.session :=
    past.invariant (I := fun l => Flows l.session) (flows_start cfg consumer)
      fun _ _ hs he hc => hs.next he hc
  have hstart (strict : Prop) : Inv strict line.session.arrivals line.session.log start :=
    inv_start hflows hidle hdrained allows host discovered
  have hinv : Inv False line.session.arrivals line.session.log p :=
    h.invariant (hstart False) fun _ _ hs he _ => hs.next he False.elim
  obtain ⟨new, hlog, htaken⟩ := hinv.taken
  refine ⟨new, hlog, htaken.subperm.trans hinv.kept.units, fun hturn => ?_⟩
  have hordered : Inv True line.session.arrivals line.session.log p :=
    hturn.invariant (hstart True) fun _ _ hs he ht => hs.next he fun _ => ht
  exact htaken.trans (hordered.kept.order trivial)

/-- Two units are put out and handled in turn; both come to the consumer. -/
def watched : List Action :=
  List.flatten [Agreement.opening, [.phone (.encode Agreement.picture)], Agreement.working 0 1,
    [.phone (.encode Agreement.picture)], Agreement.working 0 1, Agreement.sending 2,
    [Agreement.atPc (.session (.receive (.video (frame Agreement.picture))))],
    Agreement.runs net 6, [Agreement.atPc (.session (.receive (.video (frame Agreement.picture))))],
    Agreement.runs net 6]

def watching : Pair := .start Agreement.trusting (.start Agreement.trusting (some 7)) true
  Agreement.desktop none

theorem carriedOver_of_run_watched :
    (consumed ((system Agreement.trusting).exec watching watched).pc.session.log).map origin =
        [Agreement.picture, Agreement.picture] ∧
      ∃ new, ((system Agreement.trusting).exec watching watched).pc.session.log = new ++ [] ∧
        ((consumed new).reverse.map origin).Sublist
          (output ((system Agreement.trusting).exec watching watched)) := by
  have hlegal : (system Agreement.trusting).Legal (fun _ _ => True) watching watched := by
    decide +kernel
  have hturn : (system Agreement.trusting).Legal inTurn watching watched := by decide +kernel
  obtain ⟨new, hlog, -, hsub⟩ := carriedOver_of_run Agreement.trusting (some 7) [] true
    Agreement.desktop none watched trivial rfl (by decide) hlegal
  exact ⟨by decide +kernel, new, hlog, hsub hturn⟩

end RemoteCam.Link.Delivery
