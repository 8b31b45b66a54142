import RemoteCam.Backend.FormatChange

/-! # After the handshake

`ready` is the last message of a handshake and is written once on a connection: from then on the
connection is `Opened`, and no frame leads back into a handshake. -/

namespace RemoteCam.Backend.Opening

open RemoteCam.Backend.Session RemoteCam.Backend.Effects RemoteCam.Backend.Invariants
open RemoteCam.Backend.Phases RemoteCam.Backend.Handshake

variable {cfg : SessionConfig} {l : Line} {a : Handshake.Action}

/-- The phone is trusted and the handshake is over. -/
structure Opened (l : Line) : Prop where
  settled : Pc.settled (l.session.pc net) = true
  state : l.session.stream.state = .ready ∨ l.session.stream.state = .streaming ∨
    l.session.stream.state = .failed
  trusted : l.session.stream.trusted = true
  outbox : l.outbox = []

/-- `ready` is not written before the connection is open, and it is the last message of an outbox.
-/
structure Greets (l : Line) : Prop where
  opened : .ready ∈ l.written → Opened l
  last : l.session.pc net = .handshakeSend →
    .ready ∉ l.outbox ∨ l.outbox <:+ [.serverInfo, .ready]

theorem Opened.aside {l' : Line} (h : Opened l) (e : Aside l l') : Opened l' where
  settled := by
    rw [e.pc]
    exact h.settled
  state := by
    rcases e.state with hs | hs
    · rw [hs]
      exact h.state
    · exact .inr (.inr hs)
  trusted := e.trusted.trans h.trusted
  outbox := e.outbox.trans h.outbox

theorem Opened.frame (h : Opened l) (inbound : Inbound) (hpc : l.session.pc net = .serving)
    {l' : Line} (hsession : l'.session = onFrame cfg l.session inbound)
    (houtbox : l'.outbox = l.outbox) : Opened l' where
  settled := by
    rw [hsession]
    refine settled_onFrame inbound hpc ?_
    rcases h.state with hs | hs | hs <;> rw [hs] <;> decide
  state := by
    rw [hsession, stream_onFrame]
    exact h.state
  trusted := by
    rw [hsession, stream_onFrame]
    exact h.trusted
  outbox := houtbox.trans h.outbox

/-- **An open connection stays open** until it ends. -/
theorem opened_next (hb : Base l.session) (h : Opened l) (he : Handshake.enabled cfg l a)
    (ha : a ≠ .session .disconnect) : Opened (Handshake.next cfg l a) := by
  have hplace {pc : Pc} (hpc : l.session.pc net = pc) (hno : Pc.settled pc = false) : False := by
    have hsettled := h.settled
    rw [hpc, hno] at hsettled
    cases hsettled
  cases a with
  | session a =>
    cases a with
    | connect => exact absurd (hplace he.1 rfl) not_false
    | disconnect => exact absurd rfl ha
    | receive inbound => exact h.frame inbound he.1 rfl rfl
    | call t c => exact h.aside (aside_call he.1)
    | watchdog => exact h.aside aside_watchdog
    | tick => exact h.aside aside_tick
    | run t ok =>
      by_cases ht : t = net
      · subst ht
        have hnet : Pc.ofNet (l.session.pc net) = true := hb.roles net
        obtain ⟨hstate, htrusted⟩ := @opened_step cfg _ ok he.1 h.settled h.state
        have howed : owed l net = l.outbox := by
          have hsettled := h.settled
          unfold owed
          cases hpc : l.session.pc net <;> rw [hpc] at hsettled <;> first | rfl | cases hsettled
        exact ⟨settled_step rfl hnet h.settled, hstate, htrusted.trans h.trusted,
          howed.trans h.outbox⟩
      · exact h.aside (aside_run hb ht he.1)
  | hello d answer =>
    exact @Opened.frame cfg l h (.control (.hello d answer.verdict)) he.1 _ rfl rfl
  | send ok => exact absurd (hplace he rfl) not_false
  | recover ok => exact ⟨h.settled, h.state, h.trusted, h.outbox⟩
  | command c ok =>
    simp only [Handshake.next]
    split_ifs
    · exact ⟨h.settled, h.state, h.trusted, h.outbox⟩
    · exact h

/-- A frame leads into no sending. -/
theorem ne_handshakeSend_onFrame {s : Sys} (inbound : Inbound) (hpc : s.pc net = .serving) :
    (onFrame cfg s inbound).pc net ≠ .handshakeSend := by
  intro h
  have hanswers := @answers_onFrame cfg s inbound hpc
  rw [h] at hanswers
  cases hanswers

/-- The network thread begins to send after a `hello` or a proof, with a new outbox. -/
theorem outbox_of_sending {ok : Bool} (hb : Base l.session)
    (hbusy : l.session.pc net ≠ .idle ∧ l.session.pc net ≠ .serving ∧
      l.session.pc net ≠ .handshakeSend)
    (h : (Session.next cfg l.session (.run net ok)).pc net = .handshakeSend) :
    owed l net = announced l.answer ∨ owed l net = [.ready] := by
  have hnet : Pc.ofNet (l.session.pc net) = true := hb.roles net
  obtain ⟨h1, h2, h3⟩ := hbusy
  cases hpc : l.session.pc net with
  | hello d v => exact .inl (by rw [owed, hpc])
  | authenticated => exact .inr (by rw [owed, hpc])
  | idle => exact absurd hpc h1
  | serving => exact absurd hpc h2
  | handshakeSend => exact absurd hpc h3
  | authResponse v =>
    rw [Session.next, hpc] at h
    cases v
    · simp [step, handleAuthResponse] at h
    · simp [step, handleAuthResponse] at h
    · simp only [step, handleAuthResponse] at h
      split_ifs at h <;> simp at h
  | _ =>
    have hsettled := @settled_step cfg l.session ok _ rfl hnet (by rw [hpc]; rfl)
    rw [Session.next] at h
    rw [h] at hsettled
    cases hsettled

theorem greets_next (hb : Base l.session) (hphase : Phase cfg False l) (h : Greets l)
    (he : Handshake.enabled cfg l a) (ha : a ≠ .session .disconnect) :
    Greets (Handshake.next cfg l a) := by
  constructor
  · intro hready
    rcases mem_written_next rfl (by decide : Message.ready ≠ .authConfirm) hready with hready | ⟨rfl, rest, houtbox⟩
    · exact opened_next hb (h.opened hready) he ha
    · have hpc : l.session.pc net = .handshakeSend := he
      have hrest : rest = [] := by
        rcases h.last hpc with hno | hlast
        · rw [houtbox] at hno
          exact absurd List.mem_cons_self hno
        · rw [houtbox] at hlast
          simpa [List.suffix_cons_iff] using hlast
      subst hrest
      have hnext : Handshake.next cfg l (.send true) =
          { l with
            session := l.session.goto net .serving
            outbox := []
            written := l.written ++ [.ready] } := by
        simp [Handshake.next, sendNext, houtbox, Session.next, hpc, step]
      rw [hnext]
      cases hphase with
      | sending _ hstate hrecovery _ huntrusted htrusted =>
        cases ht : l.session.stream.trusted with
        | false =>
          obtain ⟨hwaits, hall⟩ := huntrusted ht
          rw [houtbox] at hall
          have hmem : Message.ready ∈ announced l.answer := by
            rw [← hall]
            simp
          rcases hwaits with hanswer | ⟨hanswer, -⟩ <;> rw [hanswer] at hmem <;>
            simp [announced] at hmem
        | true =>
          refine ⟨?_, ?_, ht, rfl⟩
          · simp [Pc.settled, Pc.handshake]
          · rw [ht, if_pos rfl] at hstate
            rcases hstate with hs | hs
            · exact .inr (.inr hs)
            · exact .inl hs
      | down hpc' => rw [hpc] at hpc'; cases hpc'
      | greeting hpc' =>
        rw [hpc] at hpc'
        rcases hpc' with h | h | h | ⟨_, h, _⟩ <;> cases h
      | waiting hpc' =>
        rw [hpc] at hpc'
        rcases hpc' with h | h | h | ⟨_, h, _⟩ <;> cases h
      | confirmed hpc' => rw [hpc] at hpc'; cases hpc'
      | broken hpc' =>
        rw [hpc] at hpc'
        rcases hpc' with h | ⟨h | h | h, -⟩ <;> cases h
      | opened hpc' => rw [hpc] at hpc'; cases hpc'
  · have hnew {answer : Answer} {outbox : List Message}
        (h : outbox = announced answer ∨ outbox = [.ready]) :
        .ready ∉ outbox ∨ outbox <:+ [.serverInfo, .ready] := by
      rcases h with rfl | rfl
      · cases answer <;> simp [announced]
      · exact .inr ⟨[.serverInfo], rfl⟩
    intro hpc'
    cases a with
    | session a =>
      cases a with
      | connect => simp [Handshake.next, advance, Session.next, onConnected] at hpc'
      | disconnect => exact absurd rfl ha
      | receive inbound => exact absurd hpc' (ne_handshakeSend_onFrame inbound he.1)
      | call t c =>
        have e := @aside_call cfg l t c he.1
        change (advance cfg l (.call t c)).session.pc net = _ at hpc'
        rw [e.pc] at hpc'
        exact h.last hpc'
      | watchdog =>
        have e := @aside_watchdog cfg l
        change (advance cfg l .watchdog).session.pc net = _ at hpc'
        rw [e.pc] at hpc'
        exact h.last hpc'
      | tick => exact h.last hpc'
      | run t ok =>
        by_cases ht : t = net
        · subst ht
          exact hnew (outbox_of_sending hb ⟨he.1.1, he.1.2.1, he.2⟩ hpc')
        · have e := @aside_run cfg l t ok hb ht he.1
          change (advance cfg l (.run t ok)).session.pc net = _ at hpc'
          rw [e.pc] at hpc'
          have houtbox : (Handshake.next cfg l (.session (.run t ok))).outbox = l.outbox := e.outbox
          rw [houtbox]
          exact h.last hpc'
    | hello d answer => exact absurd hpc' (ne_handshakeSend_onFrame _ he.1)
    | send ok =>
      have hpc : l.session.pc net = .handshakeSend := he
      simp only [Handshake.next, sendNext] at hpc' ⊢
      split at hpc'
      · exact h.last hpc
      · next message rest houtbox =>
        cases ok with
        | false => simp [Session.next, hpc, step] at hpc'
        | true =>
          by_cases hrest : rest = []
          · simp [Session.next, hpc, step, hrest] at hpc'
          · rcases h.last hpc with hno | hlast
            · rw [houtbox] at hno
              exact .inl fun hmem => hno (List.mem_cons_of_mem _ hmem)
            · rw [houtbox] at hlast
              exact .inr ((List.suffix_cons message rest).trans hlast)
    | recover ok => exact h.last hpc'
    | command c ok =>
      simp only [Handshake.next] at hpc' ⊢
      split_ifs at hpc' ⊢ <;> exact h.last hpc'

end RemoteCam.Backend.Opening
