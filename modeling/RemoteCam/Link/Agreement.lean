import RemoteCam.Link.PcSide
import RemoteCam.Link.PhoneSide

/-! # The two sides agree on the format

The PC has written some messages that the phone has not handled, and the phone has said some words
that the PC has not heard. `Agrees` relates the two: what is on the line to the PC is in order, and
once all of it is read the deal is the one the phone works on, by the `Stage` it has reached.

`agreed_of_run`: no answer of the phone is a mismatch; and as long as no rebuild overtakes a unit on
its way to the main actor, every unit that is enqueued was encoded under the configuration that the
PC has committed. -/

namespace RemoteCam.Link.Agreement

open RemoteCam.Lib.Negotiation RemoteCam.Lib.Transitions
open RemoteCam.Backend.Session (net Sys SessionConfig StreamConfig ConsumerId)
open RemoteCam.Backend.Handshake (Line)
open RemoteCam.Backend.FormatChange (deal heard mismatch mismatch_of_expected)
open RemoteCam.Phone.Transport
open RemoteCam.Phone.Session (Client AppTask RemoteHost)
open RemoteCam.Phone.Streaming
open RemoteCam.Phone.Hello (settle drained submitted_initial)
open RemoteCam.Link.System RemoteCam.Link.PcSide

variable {strict : Prop} {cfg : SessionConfig} {p p' : Pair}

/-! ### What is on its way -/

/-- What the PC has not received, once the phone's transport has sent all. -/
def unread (p : Pair) : List (ConnectionId × Content) :=
  (view p.phone).line.2.drop p.received

def words (contents : List (ConnectionId × Content)) : List (Word EncodedAccessUnit) :=
  contents.filterMap fun x => word x.2

/-- What the network thread of the PC has heard and will hear. -/
def incoming (p : Pair) : List (Word EncodedAccessUnit) :=
  heard (p.pc.session.pc net) ++ words (unread p)

/-- The orders that the phone has not handled. -/
def outstanding (p : Pair) : List PeerMessage :=
  ((view p.phone).messages ++ p.sent).filter isOrder

/-- The PC knows of the stream, or will. -/
def announced (p : Pair) : Prop :=
  Announced p.pc.session ∨ ∃ x ∈ unread p, x.2 = .control .streamStart

/-- The unit was put out under the configuration, as far as units are looked at. -/
def Made (strict : Prop) (made : List (EncodedAccessUnit × StreamConfiguration))
    (unit : EncodedAccessUnit) (c : StreamConfig) : Prop := strict → (unit, format c) ∈ made

/-- The deal that the phone works on. -/
def agreed (p : Pair) : Deal StreamConfig :=
  settled (deal p.pc.session.stream) (incoming p)

/-! ### The invariant -/

/-- How far the phone is. -/
inductive Stage (greeted announced : Prop) (d : Deal StreamConfig) (v : View)
    (encoder : Option StreamConfiguration) (orders : List PeerMessage) : Prop
  | ended (hline : v.line.1 = none)
  | quiet (hgreeted : ¬ greeted) (hannounced : ¬ announced) (hsuspended : v.suspended = true)
      (hjobs : v.jobs = []) (horders : orders = [])
  | starting (hgreeted : greeted) (hannounced : ¬ announced) (hsuspended : v.suspended = true)
      (hwork : orders = [.ready (some (format d.committed.2))] ∧ v.jobs = [] ∨
        orders = [] ∧ (v.jobs = [] ∨
          ∃ task, v.jobs = [task] ∧ Starts (format d.committed.2) v.current encoder task))
  | live (hgreeted : greeted) (hjobs : v.jobs = [])
      (hcurrent : v.current = some (format d.committed.2))
      (hencoder : ∀ x ∈ encoder, x = format d.committed.2)
      (horders : orders = [] ∨ ∃ g c, d.proposed = some (g, c) ∧
        orders = [.setFormat (some g) (some (format c))])
  | changing {g : ℕ} {c : StreamConfig} (hgreeted : greeted) (hsuspended : v.suspended = true)
      (hproposed : d.proposed = some (g, c)) (hcurrent : v.current = some (format d.committed.2))
      (horders : orders = [])
      (hjobs : v.jobs = [] ∨
        ∃ task, v.jobs = [task] ∧ Rebuilds (format d.committed.2) (format c) g encoder task)

structure Agrees (strict : Prop) (p : Pair) : Prop where
  sensible : Sensible (Made strict p.made) (deal p.pc.session.stream) (incoming p)
  stage : Stage (.ready ∈ p.pc.written) (announced p) (agreed p) (view p.phone) p.encoder
    (outstanding p)

structure Inv (strict : Prop) (cfg : SessionConfig) (p : Pair) : Prop where
  sound : Sound cfg p.pc
  received : p.received ≤ (view p.phone).line.2.length
  held : ∀ x, Enqueued p.pc.session x →
    x.unit.generation = p.pc.session.stream.streamGeneration ∧
      Made strict p.made (origin x) p.pc.session.stream.streamConfig
  stands : Closed p.pc.session ∨ Open p.pc ∧ Agrees strict p

theorem Stage.mono {greeted greeted' announced announced' : Prop} {d : Deal StreamConfig} {v : View}
    {encoder : Option StreamConfiguration} {orders : List PeerMessage}
    (h : Stage greeted announced d v encoder orders) (hgreeted : greeted' ↔ greeted)
    (hannounced : announced' → announced) : Stage greeted' announced' d v encoder orders := by
  cases h with
  | ended hline => exact .ended hline
  | quiet hg ha => exact .quiet (hg ∘ hgreeted.mp) (ha ∘ hannounced) ‹_› ‹_› ‹_›
  | starting hg ha => exact .starting (hgreeted.mpr hg) (ha ∘ hannounced) ‹_› ‹_›
  | live hg => exact .live (hgreeted.mpr hg) ‹_› ‹_› ‹_› ‹_›
  | changing hg => exact .changing (hgreeted.mpr hg) ‹_› ‹_› ‹_› ‹_› ‹_›

/-- With nothing proposed the deal that the phone works on is that of the PC. -/
theorem agreed_of_none (h : Agrees strict p)
    (hnone : (deal p.pc.session.stream).proposed = none) :
    agreed p = deal p.pc.session.stream :=
  h.sensible.settled_of_none hnone

/-! ### Steps of the PC -/

theorem unread_of_coming {content : Content} (h : content ∈ p.coming) :
    ∃ c, unread p = (c, content) :: (view p.phone).line.2.drop (p.received + 1) := by
  unfold Pair.coming at h
  obtain ⟨⟨c, content'⟩, hget, rfl⟩ := Option.map_eq_some_iff.mp h
  obtain ⟨rest, hrest⟩ := submitted_initial p.phone.transport
  have hline : (view p.phone).line.2[p.received]? = some (c, content') := by
    change (drained p.phone.transport).2[p.received]? = _
    rw [← hrest, List.getElem?_append_left (List.getElem?_eq_some_iff.mp hget).1, hget]
  obtain ⟨hlt, hat⟩ := List.getElem?_eq_some_iff.mp hline
  refine ⟨c, ?_⟩
  unfold unread
  rw [List.drop_eq_getElem_cons hlt, hat]

section PcStep
variable {d : Details} {a : Backend.Handshake.Action}

theorem outstanding_pc : outstanding (next cfg p (.pc a d)) =
    outstanding p ++ orders cfg d p.pc a := by
  unfold outstanding
  change ((view p.phone).messages ++ (p.sent ++ _)).filter isOrder = _
  rw [← List.append_assoc, List.filter_append]
  rfl

theorem unread_pc (h : takes a = false) : unread (next cfg p (.pc a d)) = unread p := by
  unfold unread
  change (view p.phone).line.2.drop (if takes a then p.received + 1 else p.received) = _
  rw [h]
  rfl

/-- What is enqueued keeps to what the PC has committed. -/
theorem held_pc (h : Inv strict cfg p) (he : Backend.Handshake.enabled cfg p.pc a)
    (hcarried : carried p (.pc a d)) {x : Backend.Session.Arrived}
    (hx : Enqueued (next cfg p (.pc a d)).pc.session x) :
    x.unit.generation = (next cfg p (.pc a d)).pc.session.stream.streamGeneration ∧
      Made strict p.made (origin x) (next cfg p (.pc a d)).pc.session.stream.streamConfig := by
  rcases enqueued_next h.sound he hcarried hx with ⟨hx, hgeneration, hconfig⟩ |
    ⟨htakes, hcontent, hstate, hgeneration, hstream⟩
  · obtain ⟨hx, hmade⟩ := h.held x hx
    exact ⟨hx.trans hgeneration.symm, by rwa [← hconfig] at hmade⟩
  · change x.unit.generation = (Backend.Handshake.next cfg p.pc a).session.stream.streamGeneration ∧
      Made strict p.made (origin x)
        (Backend.Handshake.next cfg p.pc a).session.stream.streamConfig
    rw [hstream]
    refine ⟨hgeneration, ?_⟩
    rcases h.stands with hclosed | ⟨-, hagrees⟩
    · exact absurd hstate (not_streaming_of_closed h.sound.base hclosed)
    · obtain ⟨content, hcontent', hreceives⟩ := hcarried htakes
      have hserving := (hears h.sound he hreceives).serving
      obtain ⟨c, hunread⟩ := unread_of_coming hcontent
      have hsensible := hagrees.sensible
      unfold incoming words at hsensible
      rw [hserving, hunread] at hsensible
      exact (sensible_cons.mp hsensible).1

theorem written_pc (ha : goesOn a)
    (hgreeted : .ready ∈ (Backend.Handshake.next cfg p.pc a).written → .ready ∈ p.pc.written) :
    .ready ∈ (Backend.Handshake.next cfg p.pc a).written ↔ .ready ∈ p.pc.written :=
  ⟨hgreeted, fun h => (written_initial ha.1).subset h⟩

/-- An answer that is expected finds the session streaming. -/
theorem streaming_of_expected {υ : Type*} {made : υ → StreamConfig → Prop} {s : Sys} {w : Word υ}
    (hexclusive : Backend.FormatChange.Exclusive s) (halive : s.stream.state ≠ .failed)
    (h : Expected made (deal s.stream) w) (hitem : ∀ u, w ≠ .item u) :
    s.stream.state = .streaming := by
  have hproposed : ∃ x, (deal s.stream).proposed = some x := by
    cases w with
    | accept n | reject n =>
      obtain ⟨c, hc⟩ := h
      exact ⟨_, hc⟩
    | item u => exact absurd rfl (hitem u)
  obtain ⟨x, hx⟩ := hproposed
  obtain ⟨pending, hpending, -⟩ := Option.map_eq_some_iff.mp hx
  exact (hexclusive.streaming (by rw [hpending]; rfl)).resolve_right halive

/-- Only the phone's `stream_start` is read as one. -/
theorem start_of_receives {content : Content}
    (h : Receives content (.session (.receive (.control (.streamStart true))))) :
    content = .control .streamStart := by
  cases content with
  | video unit => cases h
  | control said =>
    cases said with
    | streamStart => rfl
    | hello allow => cases h
    | _ =>
      exfalso
      simp [Receives, readings] at h

/-- **The PC receives a content.** -/
theorem agrees_receive (h : Inv strict cfg p) (hopen : Open p.pc) (hagrees : Agrees strict p)
    (he : Backend.Handshake.enabled cfg p.pc a) (ha : goesOn a) (htakes : takes a = true)
    (hcarried : carried p (.pc a d)) : Agrees strict (next cfg p (.pc a d)) := by
  obtain ⟨content, hcontent, hreceives⟩ := hcarried htakes
  have hhears := hears h.sound he hreceives
  obtain ⟨c, hunread⟩ := unread_of_coming hcontent
  have hunread' : unread (next cfg p (.pc a d)) = (view p.phone).line.2.drop (p.received + 1) := by
    unfold unread
    change (view p.phone).line.2.drop (if takes a then p.received + 1 else p.received) = _
    rw [htakes]
    rfl
  have hincoming : incoming (next cfg p (.pc a d)) =
      heard ((Backend.Handshake.next cfg p.pc a).session.pc net) ++
        words ((view p.phone).line.2.drop (p.received + 1)) := by
    unfold incoming
    rw [hunread']
    rfl
  have hbefore : incoming p = (word content).toList ++
      words ((view p.phone).line.2.drop (p.received + 1)) := by
    unfold incoming words
    rw [hhears.serving, hunread, List.filterMap_cons]
    cases word content <;> rfl
  -- a unit is read, an answer is heard, anything else says nothing
  have hread : incoming p = incoming (next cfg p (.pc a d)) ∨
      ∃ u, incoming p = .item u :: incoming (next cfg p (.pc a d)) := by
    rw [hincoming, hbefore]
    cases hword : word content with
    | none =>
      rw [hhears.other (by simp [hword])]
      exact .inl rfl
    | some w =>
      by_cases hitem : ∃ u, w = .item u
      · obtain ⟨u, rfl⟩ := hitem
        rw [hhears.other (by simp [hword])]
        exact .inr ⟨u, rfl⟩
      · have hsensible := hagrees.sensible
        rw [hbefore, hword] at hsensible
        have hstate := streaming_of_expected h.sound.exclusive hopen.alive
          (sensible_cons.mp hsensible).1 fun u hu => hitem ⟨u, hu⟩
        rw [hhears.answer w hword (fun u hu => hitem ⟨u, hu⟩) hstate]
        exact .inl rfl
  have hannounced : announced (next cfg p (.pc a d)) → announced p := by
    rintro (hpc | ⟨x, hx, hstart⟩)
    · rcases announced_next h.sound he ha hpc with hpc | rfl
      · exact .inl hpc
      · refine .inr ⟨(c, content), by rw [hunread]; exact List.mem_cons_self, ?_⟩
        exact start_of_receives hreceives
    · refine .inr ⟨x, ?_, hstart⟩
      rw [hunread'] at hx
      rw [hunread]
      exact List.mem_cons_of_mem _ hx
  have horders : outstanding (next cfg p (.pc a d)) = outstanding p := by
    rw [outstanding_pc, orders_of_unwritten hhears.written, List.append_nil]
  have hdeal : deal (next cfg p (.pc a d)).pc.session.stream = deal p.pc.session.stream :=
    congrArg deal hhears.stream
  obtain ⟨hsensible, hstage⟩ := hagrees
  have hagreed : agreed (next cfg p (.pc a d)) = agreed p := by
    unfold agreed
    rw [hdeal]
    rcases hread with hread | ⟨u, hread⟩ <;> rw [hread]
    rfl
  refine ⟨?_, ?_⟩
  · rw [hdeal]
    rcases hread with hread | ⟨u, hread⟩
    · rwa [← hread]
    · rw [hread] at hsensible
      exact (sensible_cons.mp hsensible).2
  · rw [horders, hagreed]
    exact hstage.mono (written_pc ha fun hready => by rwa [hhears.written] at hready) hannounced

/-- The answer that the PC has heard is expected. -/
theorem expected_of_heard (h : Agrees strict p) : ∀ w ∈ heard (p.pc.session.pc net),
    Expected (Made strict p.made) (deal p.pc.session.stream) w := by
  intro w hw
  have hsensible := h.sensible
  unfold incoming at hsensible
  cases hpc : p.pc.session.pc net with
  | formatAck g | formatReject g =>
    rw [hpc] at hw hsensible
    rw [List.mem_singleton.mp hw]
    exact (sensible_cons.mp hsensible).1
  | _ =>
    rw [hpc] at hw
    cases hw

/-- **A step of the PC that receives nothing.** -/
theorem agrees_turn (h : Inv strict cfg p) (hopen : Open p.pc) (hagrees : Agrees strict p)
    (he : Backend.Handshake.enabled cfg p.pc a) (ha : goesOn a) (htakes : takes a = false)
    (hend : a ≠ .session .disconnect) : Agrees strict (next cfg p (.pc a d)) := by
  have hannounced : announced (next cfg p (.pc a d)) → announced p := by
    rintro (hpc | hstart)
    · rcases announced_next h.sound he ha hpc with hpc | rfl
      · exact .inl hpc
      · cases htakes
    · rw [unread_pc htakes] at hstart
      exact .inr hstart
  have hincoming : incoming (next cfg p (.pc a d)) =
      heard ((Backend.Handshake.next cfg p.pc a).session.pc net) ++ words (unread p) := by
    unfold incoming
    rw [unread_pc htakes]
    rfl
  have horders := @outstanding_pc cfg p d a
  -- the deal that the phone works on stays, and so does the stage
  have hkeeps (hdeal : agreed (next cfg p (.pc a d)) = agreed p)
      (hsensible : Sensible (Made strict p.made)
        (deal (Backend.Handshake.next cfg p.pc a).session.stream) (incoming (next cfg p (.pc a d))))
      (hnone : orders cfg d p.pc a = [])
      (hgreeted : .ready ∈ (Backend.Handshake.next cfg p.pc a).written → .ready ∈ p.pc.written) :
      Agrees strict (next cfg p (.pc a d)) := by
    refine ⟨hsensible, ?_⟩
    rw [hdeal, horders, hnone, List.append_nil]
    exact hagrees.stage.mono (written_pc ha hgreeted) hannounced
  have hsensible := hagrees.sensible
  cases @turn cfg p.pc a d _ _ h.sound hopen he ha htakes hend (expected_of_heard hagrees) with
  | stays hdeal hheard hnone hgreeted =>
    have hline : incoming (next cfg p (.pc a d)) = incoming p := by
      rw [hincoming, hheard]
      rfl
    refine hkeeps ?_ ?_ hnone hgreeted
    · unfold agreed
      rw [hline]
      exact congrArg (settled · _) hdeal
    · rw [hline, hdeal]
      exact hsensible
  | @judges w hw hitem hdeal hheard hnone hgreeted =>
    have hline : incoming p = w :: incoming (next cfg p (.pc a d)) := by
      rw [hincoming, hheard]
      unfold incoming
      rw [hw]
      rfl
    refine hkeeps ?_ ?_ hnone hgreeted
    · unfold agreed
      rw [hline]
      exact congrArg (settled · _) hdeal
    · rw [hdeal]
      rw [hline] at hsensible
      exact (sensible_cons.mp hsensible).2
  | greets hno hstate hdeal hheard hready hgreeted =>
    have hline : incoming (next cfg p (.pc a d)) = incoming p := by
      rw [hincoming, hheard]
      rfl
    have hpending := h.sound.exclusive.settled hstate hopen.alive
    have hagreed := agreed_of_none hagrees (by rw [deal, hpending]; rfl)
    have hagreed' : agreed (next cfg p (.pc a d)) = agreed p := by
      unfold agreed
      rw [hline]
      exact congrArg (settled · _) hdeal
    refine ⟨?_, ?_⟩
    · rw [hline]
      exact hdeal ▸ hsensible
    · rw [hagreed', hagreed, horders, hready]
      cases hagrees.stage with
      | ended hover => exact .ended hover
      | quiet _ ha' hsuspended hjobs hnone =>
        rw [hnone]
        exact .starting hgreeted (ha' ∘ hannounced) hsuspended (.inl ⟨rfl, hjobs⟩)
      | starting hg => exact absurd hg hno
      | live hg => exact absurd hg hno
      | changing hg => exact absurd hg hno
  | @proposes c hnone hstate hdeal hheard hsets hgreeted =>
    have hline : incoming (next cfg p (.pc a d)) = incoming p := by
      rw [hincoming, hheard]
      rfl
    obtain ⟨hsensible', hsettled⟩ :=
      hsensible.propose hnone (some (p.pc.session.stream.nextFormatGeneration, c))
    have hagreed := agreed_of_none hagrees hnone
    have hagreed' : agreed (next cfg p (.pc a d)) =
        { deal p.pc.session.stream with
          proposed := some (p.pc.session.stream.nextFormatGeneration, c) } := by
      unfold agreed
      rw [hline]
      exact (congrArg (settled · _) hdeal).trans hsettled
    have hstarted : announced p := .inl (.inl hstate)
    refine ⟨?_, ?_⟩
    · rw [hline]
      exact hdeal ▸ hsensible'
    · have hstage := hagrees.stage
      rw [hagreed] at hstage
      rw [hagreed', horders, hsets]
      cases hstage with
      | ended hover => exact .ended hover
      | quiet _ ha' => exact absurd hstarted ha'
      | starting _ ha' => exact absurd hstarted ha'
      | live hg hjobs hcurrent hencoder hwaiting =>
        have hempty : outstanding p = [] := by
          refine hwaiting.resolve_right ?_
          rintro ⟨g, c', hproposed, -⟩
          rw [hnone] at hproposed
          cases hproposed
        rw [hempty]
        exact .live ((written_pc ha hgreeted).mpr hg) hjobs hcurrent hencoder
          (.inr ⟨_, c, rfl, rfl⟩)
      | changing _ _ hproposed =>
        rw [hnone] at hproposed
        cases hproposed

theorem inv_pc (h : Inv strict cfg p) (he : Backend.Handshake.enabled cfg p.pc a)
    (ha : goesOn a) (hcarried : carried p (.pc a d)) : Inv strict cfg (next cfg p (.pc a d)) := by
  refine ⟨h.sound.next he, ?_, fun x hx => held_pc h he hcarried hx, ?_⟩
  · change (if takes a then p.received + 1 else p.received) ≤ (view p.phone).line.2.length
    split_ifs with htakes
    · obtain ⟨content, hcontent, -⟩ := hcarried htakes
      obtain ⟨c, hunread⟩ := unread_of_coming hcontent
      by_contra hlong
      have hnil : unread p = [] := List.drop_eq_nil_of_le (by omega)
      rw [hnil] at hunread
      cases hunread
    · exact h.received
  · rcases h.stands with hclosed | ⟨hopen, hagrees⟩
    · exact .inl (closed_next h.sound hclosed he ha)
    · by_cases hend : a = .session .disconnect
      · subst hend
        exact .inl (.inl (Backend.Invariants.pc_goto_self ..))
      · refine (open_or_closed h.sound hopen he ha).symm.imp_right fun hopen' => ⟨hopen', ?_⟩
        cases htakes : takes a with
        | true => exact agrees_receive h hopen hagrees he ha htakes hcarried
        | false => exact agrees_turn h hopen hagrees he ha htakes hend

end PcStep

/-! ### What the phone adds -/

theorem Made.mono {made made' : List (EncodedAccessUnit × StreamConfiguration)}
    {unit : EncodedAccessUnit} {c : StreamConfig} (h : Made strict made unit c)
    (hmade : ∀ x ∈ made, x ∈ made') : Made strict made' unit c := fun hs => hmade _ (h hs)

theorem words_append (contents new : List (ConnectionId × Content)) :
    words (contents ++ new) = words contents ++ words new := List.filterMap_append

/-- What is said on a connection. -/
def spoken (c : ConnectionId) (said : List ControlMessage) : List (ConnectionId × Content) :=
  said.map fun message => (c, .control message)

theorem line_tell {v : View} {c : ConnectionId} (h : v.line.1 = some c)
    (said : List ControlMessage) : (v.tell said).line = (some c, v.line.2 ++ spoken c said) := by
  unfold View.tell spoken
  dsimp only
  generalize hline : v.line = line at h ⊢
  clear hline
  induction said generalizing line with
  | nil => exact Prod.ext h (List.append_nil _).symm
  | cons message said ih =>
    have hsettle : settle line (.send (.control message)) =
        (some c, line.2 ++ [(c, .control message)]) := by
      unfold settle
      rw [h]
      rfl
    rw [List.foldl_cons, hsettle, ih _ rfl, List.map_cons, List.append_assoc]
    rfl

/-- Only answers count. -/
theorem words_spoken {c : ConnectionId} {said : List ControlMessage}
    (h : ∀ m ∈ said, isAnswer m = false) : words (spoken c said) = [] := by
  refine List.filterMap_eq_nil_iff.mpr fun x hx => ?_
  obtain ⟨m, hm, rfl⟩ := List.mem_map.mp hx
  have hno := h m hm
  cases m <;> first | rfl | cases hno

theorem not_start_of_report {c : ConnectionId} {said : List ControlMessage}
    (h : ∀ m ∈ said, isReport m = true) : ∀ x ∈ spoken c said, x.2 ≠ .control .streamStart := by
  intro x hx
  obtain ⟨m, hm, rfl⟩ := List.mem_map.mp hx
  rintro ⟨⟩
  cases h _ hm

theorem not_answer_of_report {m : ControlMessage} (h : isReport m = true) : isAnswer m = false := by
  unfold isReport at h
  simp only [Bool.and_eq_true, Bool.not_eq_true'] at h
  exact h.1

/-- The line and the messages tell nothing about the stage, as long as the connection lasts. -/
theorem Stage.with_line {greeted announced : Prop} {d : Deal StreamConfig} {v : View}
    {encoder : Option StreamConfiguration} {orders : List PeerMessage}
    (h : Stage greeted announced d v encoder orders) (hline : v.line.1 ≠ none)
    (line : Option ConnectionId × List (ConnectionId × Content)) (messages : List PeerMessage) :
    Stage greeted announced d { v with line, messages } encoder orders := by
  cases h with
  | ended h => exact absurd h hline
  | quiet hg ha hs hj ho => exact .quiet hg ha hs hj ho
  | starting hg ha hs hw => exact .starting hg ha hs hw
  | live hg hj hc he ho => exact .live hg hj hc he ho
  | changing hg hs hp hc ho hj => exact .changing hg hs hp hc ho hj

/-- The phone adds to what it has said. -/
structure Extends (p p' : Pair) (new : List (ConnectionId × Content)) : Prop where
  pc : p'.pc = p.pc
  received : p'.received = p.received
  made : ∀ x ∈ p.made, x ∈ p'.made
  line : (view p'.phone).line.2 = (view p.phone).line.2 ++ new

variable {new : List (ConnectionId × Content)}

theorem Extends.unread_eq (h : Extends p p' new)
    (hreceived : p.received ≤ (view p.phone).line.2.length) : unread p' = unread p ++ new := by
  unfold unread
  rw [h.line, h.received, List.drop_append_of_le_length hreceived]

theorem Extends.incoming_eq (h : Extends p p' new)
    (hreceived : p.received ≤ (view p.phone).line.2.length) :
    incoming p' = incoming p ++ words new := by
  unfold incoming
  rw [h.unread_eq hreceived, words_append, h.pc, List.append_assoc]

theorem Extends.announced_of (h : Extends p p' new)
    (hreceived : p.received ≤ (view p.phone).line.2.length)
    (hnew : ∀ x ∈ new, x.2 ≠ .control .streamStart) (ha : announced p') : announced p := by
  unfold announced at ha ⊢
  rw [h.pc, h.unread_eq hreceived] at ha
  refine ha.imp_right ?_
  rintro ⟨x, hx, hstart⟩
  rcases List.mem_append.mp hx with hx | hx
  · exact ⟨x, hx, hstart⟩
  · exact absurd hstart (hnew x hx)

theorem Extends.agrees (h : Extends p p' new)
    (hreceived : p.received ≤ (view p.phone).line.2.length) (hagrees : Agrees strict p)
    (hnew : Sensible (Made strict p'.made) (agreed p) (words new))
    (hstage : Stage (.ready ∈ p.pc.written) (announced p') (settled (agreed p) (words new))
      (view p'.phone) p'.encoder (outstanding p')) : Agrees strict p' := by
  have hincoming := h.incoming_eq hreceived
  refine ⟨?_, ?_⟩
  · rw [hincoming, h.pc]
    exact sensible_append.mpr ⟨hagrees.sensible.mono fun u c hu => hu.mono h.made, hnew⟩
  · have hagreed : agreed p' = settled (agreed p) (words new) := by
      unfold agreed
      rw [hincoming, h.pc, settled_append]
    rw [hagreed, h.pc]
    exact hstage

/-- Nothing that counts is said. -/
theorem Extends.keeps (h : Extends p p' new)
    (hreceived : p.received ≤ (view p.phone).line.2.length) (hagrees : Agrees strict p)
    (hnew : words new = [])
    (hstage : Stage (.ready ∈ p.pc.written) (announced p') (agreed p) (view p'.phone) p'.encoder
      (outstanding p')) : Agrees strict p' := by
  refine h.agrees hreceived hagrees ?_ ?_
  · rw [hnew]
    trivial
  · rw [hnew]
    exact hstage

/-! ### Steps of the phone -/

section PhoneStep
variable {a : Phone.Session.Action}

theorem made_phone : ∀ x ∈ p.made, x ∈ (next cfg p (.phone a)).made := by
  intro x hx
  cases a with
  | encode unit => exact List.mem_append_right _ hx
  | _ => exact hx

theorem sent_phone (h : PhoneSide.receives a = false) : (next cfg p (.phone a)).sent = p.sent := by
  cases a with
  | network callback =>
    cases callback with
    | received receipt => cases h
    | _ => rfl
  | _ => rfl

theorem extends_phone {v : View} (hview : view (next cfg p (.phone a)).phone = v)
    (hline : v.line.2 = (view p.phone).line.2 ++ new) :
    Extends p (next cfg p (.phone a)) new where
  pc := rfl
  received := rfl
  made := made_phone
  line := by rw [hview, hline]

theorem outstanding_phone {v : View} (hview : view (next cfg p (.phone a)).phone = v)
    (h : PhoneSide.receives a = false) :
    outstanding (next cfg p (.phone a)) = (v.messages ++ p.sent).filter isOrder := by
  unfold outstanding
  rw [sent_phone h, hview]

/-- The messages that are received. -/
theorem taken_of_carried {frames : List PeerFrame} (h : frames <+: p.sent.map .message) :
    ∃ n ≤ p.sent.length, frames = (p.sent.take n).map .message := by
  refine ⟨frames.length, by simpa using h.length_le, ?_⟩
  rw [List.map_take]
  exact List.prefix_iff_eq_take.mp h

/-- What the PC has written arrives. -/
theorem agrees_received (h : Inv strict cfg p) (hagrees : Agrees strict p) {frames : List PeerFrame}
    (he : Phone.Session.enabled p.phone (.network (.received (.data frames))))
    (hcarried : frames <+: p.sent.map .message) :
    Agrees strict (next cfg p (.phone (.network (.received (.data frames))))) := by
  obtain ⟨n, hn, rfl⟩ := taken_of_carried hcarried
  have hview : view (next cfg p (.phone (.network (.received
      (.data ((p.sent.take n).map .message)))))).phone = _ :=
    @PhoneSide.view_received p.phone (p.sent.take n) he
  have hx := @extends_phone cfg p _ _ _ hview (List.append_nil _).symm
  have horders : outstanding (next cfg p (.phone (.network (.received
      (.data ((p.sent.take n).map .message)))))) = outstanding p := by
    unfold outstanding
    rw [hview]
    change ((view p.phone).messages ++ p.sent.take n ++
      p.sent.drop ((p.sent.take n).map PeerFrame.message).length).filter isOrder = _
    rw [List.length_map, List.length_take_of_le hn, List.append_assoc, List.take_append_drop]
  refine hx.keeps h.received hagrees rfl ?_
  rw [horders, hview]
  by_cases hover : (view p.phone).line.1 = none
  · exact .ended hover
  · exact (hagrees.stage.mono Iff.rfl (hx.announced_of h.received nofun)).with_line hover _ _

/-- After the end. -/
theorem agrees_over (h : Inv strict cfg p) (hagrees : Agrees strict p)
    (hover : (view p.phone).line.1 = none)
    (hline : (view (next cfg p (.phone a)).phone).line = (view p.phone).line) :
    Agrees strict (next cfg p (.phone a)) := by
  have hx := @extends_phone cfg p _ _ _ rfl
    ((congrArg Prod.snd hline).trans (List.append_nil _).symm)
  refine hx.keeps h.received hagrees rfl (.ended ?_)
  exact (congrArg Prod.fst hline).trans hover

/-- The end. -/
theorem agrees_ends (h : Inv strict cfg p) (hagrees : Agrees strict p)
    (hends : (view p.phone).Ends (view (next cfg p (.phone a)).phone)) :
    Agrees strict (next cfg p (.phone a)) := by
  have hx := @extends_phone cfg p _ _ _ rfl
    ((congrArg Prod.snd hends).trans (List.append_nil _).symm)
  exact hx.keeps h.received hagrees rfl (.ended (congrArg Prod.fst hends))

/-- A report. -/
theorem agrees_reports (h : Inv strict cfg p) (hagrees : Agrees strict p)
    (hreceives : PhoneSide.receives a = false) {c : ConnectionId}
    (hc : (view p.phone).line.1 = some c) {said : List ControlMessage}
    (hsaid : ∀ m ∈ said, isReport m = true)
    (hview : view (next cfg p (.phone a)).phone = (view p.phone).tell said)
    (hencoder : (next cfg p (.phone a)).encoder = p.encoder) :
    Agrees strict (next cfg p (.phone a)) := by
  have hx := @extends_phone cfg p _ _ _ hview (congrArg Prod.snd (line_tell hc said))
  have horders : outstanding (next cfg p (.phone a)) = outstanding p := by
    rw [outstanding_phone hview hreceives]
    rfl
  refine hx.keeps h.received hagrees (words_spoken fun m hm => not_answer_of_report (hsaid m hm)) ?_
  rw [hencoder, horders, hview]
  exact (hagrees.stage.mono Iff.rfl
    (hx.announced_of h.received (not_start_of_report hsaid))).with_line (by rw [hc]; nofun) _ _

/-- A unit goes out. -/
theorem agrees_sends (h : Inv strict cfg p) (hagrees : Agrees strict p)
    (hreceives : PhoneSide.receives a = false) {c : ConnectionId}
    (hc : (view p.phone).line.1 = some c) {unit : EncodedAccessUnit}
    (hlive : p.phone.session.videoSuspended = false)
    (htimely : strict → ∃ c ∈ p.encoder, (unit, c) ∈ p.made)
    (hview : view (next cfg p (.phone a)).phone =
      { view p.phone with line := settle (view p.phone).line (.send (.video unit)) })
    (hencoder : (next cfg p (.phone a)).encoder = p.encoder) :
    Agrees strict (next cfg p (.phone a)) := by
  have hline : (settle (view p.phone).line (.send (.video unit))).2 =
      (view p.phone).line.2 ++ [(c, .video unit)] := by
    unfold settle
    rw [hc]
    rfl
  have hx := @extends_phone cfg p _ _ _ hview hline
  have horders : outstanding (next cfg p (.phone a)) = outstanding p := by
    rw [outstanding_phone hview hreceives]
    rfl
  have hasleep (hsuspended : (view p.phone).suspended = true) : False := by
    rw [show (view p.phone).suspended = false from hlive] at hsuspended
    cases hsuspended
  refine hx.agrees h.received hagrees ?_ ?_
  · refine sensible_cons.mpr ⟨fun hs => ?_, trivial⟩
    obtain ⟨x, hx', hmade⟩ := htimely hs
    cases hagrees.stage with
    | ended hover =>
      rw [hc] at hover
      cases hover
    | quiet _ _ hsuspended => exact (hasleep hsuspended).elim
    | starting _ _ hsuspended => exact (hasleep hsuspended).elim
    | live _ _ _ hfits =>
      rw [hfits x hx'] at hmade
      exact made_phone _ hmade
    | changing _ hsuspended => exact (hasleep hsuspended).elim
  · rw [hencoder, horders, hview]
    exact (hagrees.stage.mono Iff.rfl (hx.announced_of h.received (by simp))).with_line
      (by rw [hc]; nofun) _ _

theorem only_of_singleton {α : Type} {before after : List α} {x y : α}
    (h : before ++ x :: after = [y]) : before = [] ∧ x = y ∧ after = [] := by
  rcases List.append_eq_singleton_iff.mp h with ⟨rfl, h⟩ | ⟨-, h⟩
  · obtain ⟨rfl, rfl⟩ := List.cons.inj h
    exact ⟨rfl, rfl, rfl⟩
  · cases h

/-- **An order is the only one**: the first `ready`, or the `set_format` of what is proposed. -/
theorem Stage.of_order {greeted announced : Prop} {d : Deal StreamConfig} {v : View}
    {encoder : Option StreamConfiguration} {before after : List PeerMessage} {order : PeerMessage}
    (h : Stage greeted announced d v encoder (before ++ order :: after)) (hline : v.line.1 ≠ none) :
    (before = [] ∧ after = []) ∧ greeted ∧ v.jobs = [] ∧
      (¬ announced ∧ v.suspended = true ∧ order = .ready (some (format d.committed.2)) ∨
        v.current = some (format d.committed.2) ∧ (∀ x ∈ encoder, x = format d.committed.2) ∧
          ∃ g c, d.proposed = some (g, c) ∧ order = .setFormat (some g) (some (format c))) := by
  have hsome : before ++ order :: after ≠ [] := by simp
  cases h with
  | ended hover => exact absurd hover hline
  | quiet _ _ _ _ ho => exact absurd ho hsome
  | starting hg ha hs hw =>
    rcases hw with ⟨ho, hj⟩ | ⟨ho, -⟩
    · obtain ⟨hb, ho, hl⟩ := only_of_singleton ho
      exact ⟨⟨hb, hl⟩, hg, hj, .inl ⟨ha, hs, ho⟩⟩
    · exact absurd ho hsome
  | live hg hj hc he ho =>
    rcases ho with ho | ⟨g, c, hp, ho⟩
    · exact absurd ho hsome
    · obtain ⟨hb, ho, hl⟩ := only_of_singleton ho
      exact ⟨⟨hb, hl⟩, hg, hj, .inr ⟨hc, he, g, c, hp, ho⟩⟩
  | changing _ _ _ _ ho => exact absurd ho hsome

/-- An order that is handled without effect is gone. -/
theorem Stage.drops {greeted announced : Prop} {d : Deal StreamConfig} {v : View}
    {encoder : Option StreamConfiguration} {before after : List PeerMessage} {message : PeerMessage}
    (h : Stage greeted announced d v encoder (before ++ ([message].filter isOrder ++ after)))
    (hline : v.line.1 ≠ none) : Stage greeted announced d v encoder (before ++ after) := by
  cases horder : isOrder message with
  | false =>
    rw [List.filter_singleton, horder] at h
    exact h
  | true =>
    rw [List.filter_singleton, horder] at h
    obtain ⟨⟨rfl, rfl⟩, hg, hj, ⟨ha, hs, -⟩ | ⟨hc, he, -⟩⟩ := h.of_order hline
    · exact .starting hg ha hs (.inr ⟨rfl, .inl hj⟩)
    · exact .live hg hj hc he (.inl rfl)

/-- A message of the PC is handled. -/
theorem agrees_handles (h : Inv strict cfg p) (hagrees : Agrees strict p)
    (hreceives : PhoneSide.receives a = false) {c : ConnectionId}
    (hc : (view p.phone).line.1 = some c) {before after : List PeerMessage} {message : PeerMessage}
    {v : View} (hmessages : (view p.phone).messages = before ++ message :: after)
    (hhandled : Handled message { view p.phone with messages := before ++ after } v)
    (hview : view (next cfg p (.phone a)).phone = v)
    (hencoder : (next cfg p (.phone a)).encoder = p.encoder) :
    Agrees strict (next cfg p (.phone a)) := by
  have hstage := hagrees.stage
  have hbefore : outstanding p = before.filter isOrder ++ ([message].filter isOrder ++
      (after ++ p.sent).filter isOrder) := by
    unfold outstanding
    rw [hmessages, List.append_assoc, List.filter_append, List.cons_append,
      ← List.singleton_append, List.filter_append]
  have hafter (hsame : v.messages = before ++ after) : outstanding (next cfg p (.phone a)) =
      before.filter isOrder ++ (after ++ p.sent).filter isOrder := by
    rw [outstanding_phone hview hreceives, hsame, List.append_assoc, List.filter_append]
  have hgoes : (view p.phone).line.1 ≠ none := by rw [hc]; nofun
  rw [hbefore] at hstage
  cases hhandled with
  | ends hends => exact agrees_ends h hagrees (by rw [hview]; exact hends)
  | keeps =>
    have hx := @extends_phone cfg p _ _ _ hview (List.append_nil _).symm
    refine hx.keeps h.received hagrees rfl ?_
    rw [hencoder, hafter rfl, hview]
    exact ((hstage.drops hgoes).mono Iff.rfl (hx.announced_of h.received nofun)).with_line hgoes _ _
  | @starts c' generation hmessage =>
    subst hmessage
    have hx := @extends_phone cfg p _ _ _ hview (List.append_nil _).symm
    obtain ⟨⟨hb, hl⟩, hg, hj, ⟨ha, hs, ho⟩ | ⟨-, -, _, _, -, ho⟩⟩ := hstage.of_order hgoes
    · obtain rfl := Option.some.inj (PeerMessage.ready.inj ho)
      refine hx.keeps h.received hagrees rfl ?_
      rw [hencoder, hafter rfl, hview, hb, show (after ++ p.sent).filter isOrder = [] from hl]
      refine .starting hg (ha ∘ hx.announced_of h.received nofun) rfl
        (.inr ⟨rfl, .inr ⟨.startStreaming _ generation, ?_, .streaming⟩⟩)
      exact congrArg (· ++ _) hj
    · cases ho
  | @refuses g fields code text hmessage =>
    subst hmessage
    have hx := @extends_phone cfg p _ _ _ hview
      (congrArg Prod.snd (line_tell (v := { view p.phone with messages := before ++ after }) hc _))
    obtain ⟨⟨hb, hl⟩, hg, hj, ⟨-, -, ho⟩ | ⟨hcurrent, hfits, g', c', hp, ho⟩⟩ :=
      hstage.of_order hgoes
    · cases ho
    · obtain ⟨hg', -⟩ := PeerMessage.setFormat.inj ho
      obtain rfl := Option.some.inj hg'
      refine hx.agrees h.received hagrees (sensible_cons.mpr ⟨⟨c', hp⟩, trivial⟩) ?_
      rw [hencoder, hafter rfl, hview, hb, show (after ++ p.sent).filter isOrder = [] from hl]
      exact .live hg hj hcurrent hfits (.inl rfl)
  | @changes g taskGeneration c' hmessage =>
    subst hmessage
    have hx := @extends_phone cfg p _ _ _ hview (List.append_nil _).symm
    obtain ⟨⟨hb, hl⟩, hg, hj, ⟨-, -, ho⟩ | ⟨hcurrent, hfits, g', c'', hp, ho⟩⟩ :=
      hstage.of_order hgoes
    · cases ho
    · obtain ⟨hg', hc'⟩ := PeerMessage.setFormat.inj ho
      obtain rfl := Option.some.inj hg'
      obtain rfl := Option.some.inj hc'
      refine hx.keeps h.received hagrees rfl ?_
      rw [hencoder, hafter rfl, hview, hb, show (after ++ p.sent).filter isOrder = [] from hl]
      refine .changing hg rfl hp hcurrent rfl
        (.inr ⟨.reconfigure _ taskGeneration g, ?_, .asked⟩)
      exact congrArg (· ++ _) hj

/-- A job that runs is the only one, of a start or of a change. -/
theorem Stage.of_job {greeted announced : Prop} {d : Deal StreamConfig} {v : View}
    {encoder : Option StreamConfiguration} {orders : List PeerMessage} {before after : List AppTask}
    {task : AppTask} (h : Stage greeted announced d v encoder orders) (hline : v.line.1 ≠ none)
    (hjobs : v.jobs = before ++ task :: after) :
    (before = [] ∧ after = []) ∧ greeted ∧ v.suspended = true ∧ orders = [] ∧
      (¬ announced ∧ Starts (format d.committed.2) v.current encoder task ∨
        ∃ g c, d.proposed = some (g, c) ∧ v.current = some (format d.committed.2) ∧
          Rebuilds (format d.committed.2) (format c) g encoder task) := by
  have hsome : v.jobs ≠ [] := by simp [hjobs]
  cases h with
  | ended hover => exact absurd hover hline
  | quiet _ _ _ hj => exact absurd hj hsome
  | starting hg ha hs hw =>
    rcases hw with ⟨-, hj⟩ | ⟨ho, hj | ⟨task', hj, hstarts⟩⟩
    · exact absurd hj hsome
    · exact absurd hj hsome
    · obtain ⟨hb, rfl, hl⟩ := only_of_singleton (hjobs.symm.trans hj)
      exact ⟨⟨hb, hl⟩, hg, hs, ho, .inl ⟨ha, hstarts⟩⟩
  | live _ hj => exact absurd hj hsome
  | @changing g c hg hs hp hc ho hj =>
    rcases hj with hj | ⟨task', hj, hrebuilds⟩
    · exact absurd hj hsome
    · obtain ⟨hb, rfl, hl⟩ := only_of_singleton (hjobs.symm.trans hj)
      exact ⟨⟨hb, hl⟩, hg, hs, ho, .inr ⟨g, c, hp, hc, hrebuilds⟩⟩

/-- A part of a start or of a change runs. -/
theorem agrees_works (h : Inv strict cfg p) (hagrees : Agrees strict p)
    (hreceives : PhoneSide.receives a = false) {c : ConnectionId}
    (hc : (view p.phone).line.1 = some c) {before after : List AppTask} {task : AppTask}
    {outcome restored : Phone.Session.Outcome} {s₁ : Client}
    (hjobs : (view p.phone).jobs = before ++ task :: after)
    (hs₁ : view s₁ = { view p.phone with jobs := before ++ after })
    (hview : view (next cfg p (.phone a)).phone =
      view (Phone.Session.resume s₁ outcome restored task))
    (hencoder : (next cfg p (.phone a)).encoder =
      encoderAfter s₁ p.encoder outcome restored task) :
    Agrees strict (next cfg p (.phone a)) := by
  obtain ⟨⟨rfl, rfl⟩, hg, hsuspended, horders, hwork⟩ :=
    hagrees.stage.of_job (by rw [hc]; nofun) hjobs
  have hline₁ : (view s₁).line = (view p.phone).line := by rw [hs₁]
  have hcurrent₁ : s₁.app.currentConfiguration = (view p.phone).current := congrArg View.current hs₁
  have hc₁ : (view s₁).line.1 = some c := by rw [hline₁, hc]
  have hspoken (said : List ControlMessage) :
      ((view s₁).tell said).line.2 = (view p.phone).line.2 ++ spoken c said := by
    rw [line_tell hc₁, hline₁]
  have houtstanding {v : View} (hv : view (next cfg p (.phone a)).phone = v)
      (hmessages : v.messages = (view s₁).messages) : outstanding (next cfg p (.phone a)) = [] := by
    rw [outstanding_phone hv hreceives, hmessages, hs₁]
    exact horders
  have hjobs₁ : (view s₁).jobs = [] := by rw [hs₁]; rfl
  have hsuspended₁ : (view s₁).suspended = true := by rw [hs₁]; exact hsuspended
  have hover {v : View} (hv : view (next cfg p (.phone a)).phone = v) (hends : (view s₁).Ends v) :
      Agrees strict (next cfg p (.phone a)) := by
    refine agrees_ends h hagrees ?_
    unfold View.Ends
    rw [hv, ← hline₁]
    exact hends
  rcases hwork with ⟨ha, hstarts⟩ | ⟨g, c', hp, hcurrent, hrebuilds⟩
  · rw [← hcurrent₁] at hstarts
    have hstarted := started outcome restored hstarts
    rw [← hview, ← hencoder] at hstarted
    generalize hv : view (next cfg p (.phone a)).phone = v at hstarted
    cases hstarted with
    | ends hends => exact hover hv hends
    | @goes said current jobs hsaid hjobs' =>
      have hx := @extends_phone cfg p _ _ _ hv (hspoken said)
      refine hx.keeps h.received hagrees
        (words_spoken fun m hm => not_answer_of_report (hsaid m hm)) ?_
      rw [houtstanding hv rfl, hv]
      rw [hjobs₁] at hjobs'
      exact .starting hg (ha ∘ hx.announced_of h.received (not_start_of_report hsaid)) hsuspended₁
        (.inr ⟨rfl, hjobs'⟩)
    | @live said hsaid hfits =>
      have hx := @extends_phone cfg p _ _ _ hv (hspoken said)
      refine hx.keeps h.received hagrees (words_spoken hsaid) ?_
      rw [houtstanding hv rfl, hv]
      exact .live hg hjobs₁ rfl hfits (.inl rfl)
  · rw [← hcurrent₁] at hcurrent
    have hrebuilt := rebuilt outcome restored hrebuilds hcurrent
    rw [← hview, ← hencoder] at hrebuilt
    generalize hv : view (next cfg p (.phone a)).phone = v at hrebuilt
    cases hrebuilt with
    | ends hends => exact hover hv hends
    | @goes jobs hjobs' =>
      have hx := @extends_phone cfg p _ _ _ hv (hspoken [])
      refine hx.keeps h.received hagrees rfl ?_
      rw [houtstanding hv rfl, hv]
      rw [hjobs₁] at hjobs'
      exact .changing hg hsuspended₁ hp hcurrent rfl hjobs'
    | accepts hfits =>
      have hx := @extends_phone cfg p _ _ _ hv (hspoken [.cameraState, .formatAcknowledged g])
      have hread : settled (υ := EncodedAccessUnit) (agreed p) [.accept g] = ⟨(g, c'), none⟩ := by
        simp [settled, Deal.read, hp]
      refine hx.agrees h.received hagrees (sensible_cons.mpr ⟨⟨c', hp⟩, trivial⟩) ?_
      rw [houtstanding hv rfl, hv, show words (spoken c [.cameraState, .formatAcknowledged g]) =
        [.accept g] from rfl, hread]
      exact .live hg hjobs₁ rfl hfits (.inl rfl)
    | @rejects code message hfits =>
      have hx := @extends_phone cfg p _ _ _ hv
        (hspoken [.cameraState, .formatRejected g code message])
      refine hx.agrees h.received hagrees (sensible_cons.mpr ⟨⟨c', hp⟩, trivial⟩) ?_
      rw [houtstanding hv rfl, hv]
      exact .live hg hjobs₁ rfl hfits (.inl rfl)

theorem data_of_receives (hreceives : PhoneSide.receives a = true)
    (hsmooth : smooth p.phone (.phone a)) : ∃ frames, a = .network (.received (.data frames)) := by
  cases a with
  | network callback =>
    cases callback with
    | received receipt =>
      cases receipt with
      | data frames => exact ⟨frames, rfl⟩
      | _ => exact absurd hsmooth not_false
    | _ => cases hreceives
  | _ => cases hreceives

/-- **A step of the phone.** -/
theorem agrees_phone (h : Inv strict cfg p) (hagrees : Agrees strict p)
    (he : Phone.Session.enabled p.phone a) (hsmooth : smooth p.phone (.phone a))
    (hcarried : carried p (.phone a)) (htimely : strict → timely p (.phone a)) :
    Agrees strict (next cfg p (.phone a)) := by
  cases hreceives : PhoneSide.receives a with
  | true =>
    obtain ⟨frames, rfl⟩ := data_of_receives hreceives hsmooth
    exact agrees_received h hagrees he hcarried
  | false =>
    have hturn := @PhoneSide.turn p.phone p.encoder a he hsmooth hreceives
    by_cases hover : (view p.phone).line.1 = none
    · exact agrees_over h hagrees hover (hturn.ended hover)
    · obtain ⟨c, hc⟩ := Option.ne_none_iff_exists'.mp hover
      generalize hview : view (Phone.Session.next p.phone a) = v at hturn
      generalize hencoder : (Phone.Keyframes.encoderCalled p.phone a).getD p.encoder = encoder
        at hturn
      cases hturn with
      | reports hsaid => exact agrees_reports h hagrees hreceives hc hsaid hview hencoder
      | sends hunit hlive =>
        exact agrees_sends h hagrees hreceives hc hlive (fun hs => htimely hs _ hunit hlive) hview
          hencoder
      | ends hends => exact agrees_ends h hagrees (by rw [← hview] at hends; exact hends)
      | handles hmessages hhandled =>
        exact agrees_handles h hagrees hreceives hc hmessages hhandled hview hencoder
      | works hjobs hs₁ => exact agrees_works h hagrees hreceives hc hjobs hs₁ hview hencoder

theorem inv_phone (h : Inv strict cfg p) (he : Phone.Session.enabled p.phone a)
    (hsmooth : smooth p.phone (.phone a)) (hcarried : carried p (.phone a))
    (htimely : strict → timely p (.phone a)) : Inv strict cfg (next cfg p (.phone a)) := by
  refine ⟨h.sound, ?_, fun x hx => ?_, ?_⟩
  · have hinitial : (view p.phone).line.2 <+: (view (Phone.Session.next p.phone a)).line.2 := by
      cases hreceives : PhoneSide.receives a with
      | true =>
        obtain ⟨frames, rfl⟩ := data_of_receives hreceives hsmooth
        obtain ⟨n, -, rfl⟩ := taken_of_carried hcarried
        exact (congrArg (·.line.2) (PhoneSide.view_received he)).symm ▸ List.prefix_rfl
      | false => exact (@PhoneSide.turn p.phone p.encoder a he hsmooth hreceives).initial
    exact h.received.trans hinitial.length_le
  · obtain ⟨hgeneration, hmade⟩ := h.held x hx
    exact ⟨hgeneration, hmade.mono made_phone⟩
  · exact h.stands.imp_right fun ⟨hopen, hagrees⟩ =>
      ⟨hopen, agrees_phone h hagrees he hsmooth hcarried htimely⟩

end PhoneStep

/-! ### Runs -/

theorem sound_start (cfg : SessionConfig) (consumer : Option ConsumerId) :
    Sound cfg (.start cfg consumer) where
  base := Backend.Invariants.base_start cfg consumer
  phase := Backend.Handshake.phase_start cfg consumer
  exclusive := ⟨nofun, nofun, fun h => by
    have hpc : (Line.start cfg consumer).session.pc net = .idle :=
      Backend.Invariants.pc_start cfg consumer net
    rw [hpc] at h
    cases h⟩
  outbox := nofun

/-- The phone that has asked for a connection has said nothing. -/
theorem view_start (allows : Bool) (host : RemoteHost) (discovered : Option NWEndpoint) :
    (view (Phone.Session.next (.start allows) (.connect host discovered))).line.2 = [] ∧
      (view (Phone.Session.next (.start allows) (.connect host discovered))).jobs = [] ∧
      (view (Phone.Session.next (.start allows) (.connect host discovered))).messages = [] ∧
      (view (Phone.Session.next (.start allows) (.connect host discovered))).suspended = true := by
  unfold Phone.Session.next Phone.Session.AppModel.connect
  dsimp only
  split
  · exact ⟨rfl, rfl, rfl, rfl⟩
  · exact ⟨rfl, rfl, rfl, rfl⟩

theorem inv_start {line : Line} (h : Sound cfg line) (hidle : line.session.pc net = .idle)
    (allows : Bool) (host : RemoteHost) (discovered : Option NWEndpoint) :
    Inv strict cfg (.start cfg line allows host discovered) := by
  obtain ⟨hsaid, hjobs, hmessages, hsuspended⟩ := view_start allows host discovered
  have hserving : (Pair.start cfg line allows host discovered).pc.session.pc net = .serving :=
    Backend.Invariants.pc_goto_self ..
  have hstate : (Pair.start cfg line allows host discovered).pc.session.stream.state =
      if cfg.serviceIdValid && cfg.initialStream.valid then .awaitingHello else .failed := rfl
  have hunread : unread (.start cfg line allows host discovered) = [] := by
    unfold unread
    rw [show (view (Pair.start cfg line allows host discovered).phone).line.2 = [] from hsaid]
    rfl
  have hincoming : incoming (.start cfg line allows host discovered) = [] := by
    unfold incoming
    rw [hserving, hunread]
    rfl
  have horders : outstanding (.start cfg line allows host discovered) = [] := by
    unfold outstanding
    rw [show (view (Pair.start cfg line allows host discovered).phone).messages = [] from hmessages]
    rfl
  refine ⟨h.next (a := .session .connect) ⟨hidle, trivial⟩, Nat.zero_le _, fun x hx => ?_, ?_⟩
  · rcases hx with hpc | ⟨q, hq, -⟩
    · rw [hserving] at hpc
      cases hpc
    · cases hq
  · by_cases hvalid : (cfg.serviceIdValid && cfg.initialStream.valid) = true
    · rw [if_pos hvalid] at hstate
      refine .inr ⟨⟨⟨nofun, fun hpc => ?_⟩, by rw [hstate]; nofun⟩, ?_, ?_⟩
      · rw [hserving] at hpc
        cases hpc
      · rw [hincoming]
        trivial
      · refine .quiet nofun ?_ hsuspended hjobs horders
        rintro ((hs | hpc) | ⟨x, hx, -⟩)
        · rw [hstate] at hs
          cases hs
        · rw [hserving] at hpc
          cases hpc
        · rw [hunread] at hx
          cases hx
    · rw [if_neg hvalid] at hstate
      exact .inl (.inr ⟨hstate, .inr (.inl hserving)⟩)

theorem inv_next {a : Action} (h : Inv strict cfg p) (he : enabled cfg p a)
    (htimely : strict → timely p a) : Inv strict cfg (next cfg p a) := by
  obtain ⟨he, hsmooth, hcarried⟩ := he
  cases a with
  | pc a d => exact inv_pc h he hsmooth hcarried
  | phone a => exact inv_phone h he hsmooth hcarried htimely

theorem Inv.mismatch (h : Inv strict cfg p) : mismatch p.pc.session = false := by
  rcases h.stands with hclosed | ⟨-, hagrees⟩
  · unfold Backend.FormatChange.mismatch
    rcases hclosed with hpc | ⟨-, hpc | hpc | hpc | hpc⟩ <;> rw [hpc]
  · exact mismatch_of_expected h.sound.exclusive (expected_of_heard hagrees)

theorem encoded_of_inv (h : Inv True cfg p) : Encoded p := fun x hx => by
  obtain ⟨hgeneration, hmade⟩ := h.held x hx
  exact ⟨hgeneration, hmade trivial⟩

/-- **The two sides agree on the format.** On a connection on which nothing fails, whatever the PC
has been through before, no answer of the phone is a mismatch; and if every unit that goes out was
put out under the configuration of the encoder by then, what is enqueued has the committed
generation and was encoded under its configuration. -/
theorem agreed_of_run (cfg : SessionConfig) (consumer : Option ConsumerId)
    (before : List Backend.Handshake.Action) (allows : Bool) (host : RemoteHost)
    (discovered : Option NWEndpoint) (as : List Action)
    (past : (Backend.Handshake.line cfg).Legal (fun _ _ => True) (.start cfg consumer) before)
    (hidle :
      ((Backend.Handshake.line cfg).exec (.start cfg consumer) before).session.pc net = .idle)
    (h : (system cfg).Legal (fun _ _ => True) (.start cfg
      ((Backend.Handshake.line cfg).exec (.start cfg consumer) before) allows host discovered) as) :
    let start := Pair.start cfg ((Backend.Handshake.line cfg).exec (.start cfg consumer) before)
      allows host discovered
    mismatch ((system cfg).exec start as).pc.session = false ∧
      ((system cfg).Legal timely start as → Encoded ((system cfg).exec start as)) := by
  intro start
  have hsound : Sound cfg ((Backend.Handshake.line cfg).exec (.start cfg consumer) before) :=
    past.invariant (sound_start cfg consumer) fun _ _ hs he _ => hs.next he
  have hstart (strict : Prop) : Inv strict cfg start :=
    inv_start hsound hidle allows host discovered
  refine ⟨?_, fun htimely => ?_⟩
  · have hinv : Inv False cfg ((system cfg).exec start as) :=
      h.invariant (hstart False) fun _ _ hs he _ => inv_next hs he False.elim
    exact hinv.mismatch
  · have hinv : Inv True cfg ((system cfg).exec start as) :=
      htimely.invariant (hstart True) fun _ _ hs he ht => inv_next hs he fun _ => ht
    exact encoded_of_inv hinv

/-! ### A unit that is overtaken -/

/-- A PC with a trust policy. -/
def trusting : SessionConfig := { sessionSecurity := false }

def desktop : RemoteHost := ⟨"PC", "pc", 7777, .manual⟩

/-- The PC begins with the default format; this is the one it changes to. -/
def fullHd : StreamConfig := { width := 1920, height := 1080 }

def picture : EncodedAccessUnit := ⟨Backend.Session.keyframeSample.payload, true, 0⟩

def connected : Pair := .start trusting (.start trusting none) true desktop none

def atPc (a : Backend.Handshake.Action) : Action := .pc a { allowUnauthenticated := some true }

def runs (t n : ℕ) : List Action := List.replicate n (atPc (.session (.run t true)))

/-- The PC receives a message, and its network thread takes some steps. -/
def hearing (message : Backend.Session.ControlMessage) (n : ℕ) : List Action :=
  atPc (.session (.receive (.control message))) :: runs net n

/-- The phone receives a message and handles it. -/
def handling (message : PeerMessage) : List Action :=
  [.phone (Phone.Session.received message), .phone (.handle 0)]

/-- Task `i` of the phone runs, and each time the next one that moves up. -/
def working (i n : ℕ) : List Action := List.replicate n (.phone (.run i .ok .ok))

def sending (n : ℕ) : List Action := List.replicate n (.phone .dequeue)

/-- The handshake and the start of the stream. -/
def opening : List Action :=
  sending 1 ++ [.phone (.network .ready), .phone (.handle 0)] ++ sending 1 ++
    [atPc (.hello "phone" .trusted)] ++ runs net 1 ++ List.replicate 2 (atPc (.send true)) ++
    handling (.serverInfo (some true) none) ++ handling (.ready (some (format {}))) ++
    working 0 3 ++ sending 6 ++ hearing (.progress true) 1 ++ hearing (.progress true) 1 ++
    hearing (.streamStart true) 4 ++ hearing (.progress true) 1 ++ hearing (.progress true) 1 ++
    hearing (.progress true) 1

/-- A change of the format, as task `i` of the phone. -/
def changing (i : ℕ) : List Action :=
  atPc (.session (.call 1 (.sendFormat fullHd))) :: runs 1 1 ++
    handling (.setFormat (some 1) (some (format fullHd))) ++ working i 3

/-- What the phone has said reaches the PC: the answer, then a unit. -/
def arrival : List Action :=
  sending 3 ++ hearing (.progress true) 1 ++ hearing (.formatAck (some 1)) 5 ++
    [atPc (.session (.receive (.video (frame picture))))]

/-- The encoder puts out a unit after the change. -/
def afterwards : List Action :=
  opening ++ changing 0 ++ .phone (.encode picture) :: working 0 1 ++ arrival

theorem agreed_of_run_afterwards :
    mismatch ((system trusting).exec connected afterwards).pc.session = false ∧
      Encoded ((system trusting).exec connected afterwards) := by
  have hlegal : (system trusting).Legal (fun _ _ => True) connected afterwards := by
    decide +kernel
  have htimely : (system trusting).Legal timely connected afterwards := by decide +kernel
  obtain ⟨hmismatch, hencoded⟩ :=
    agreed_of_run trusting none [] true desktop none afterwards trivial rfl hlegal
  exact ⟨hmismatch, hencoded htimely⟩

/-- The encoder puts out a unit before the change, and its task runs after the rebuild. -/
def overtaken : List Action :=
  opening ++ .phone (.encode picture) :: changing 1 ++ working 0 1 ++ arrival

/-- The unit has the new generation and was encoded under the old configuration. -/
theorem not_encoded_of_overtaken : (system trusting).Legal (fun _ _ => True) connected overtaken ∧
    ¬ Encoded ((system trusting).exec connected overtaken) := by
  refine ⟨by decide +kernel, fun h => ?_⟩
  have hpc : ((system trusting).exec connected overtaken).pc.session.pc net =
      .videoEnqueue ⟨⟨picture.data, .h264, true, 0, 1⟩, 1, 0⟩ := by decide +kernel
  have hno : (picture, format
      ((system trusting).exec connected overtaken).pc.session.stream.streamConfig) ∉
      ((system trusting).exec connected overtaken).made := by decide +kernel
  exact hno (h _ (.inl hpc)).2

end RemoteCam.Link.Agreement
