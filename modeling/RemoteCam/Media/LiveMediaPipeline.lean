import RemoteCam.Backend.Session

/-! # The live media pipeline

`LiveMediaPipeline`: `consume` and `reset` come from the network thread, `run` is the worker. A step
is one critical section of `queueMutex_` or one call of the decoder; what the decoder, the transform
and the sink answer is part of the action, and so is whether a decoder can be made. A decoder goes
on from the unit it was given last, so after a gap it needs a keyframe: whatever empties the queue
sets `waitingForKeyframe`. Ghosts number the units and the resets and keep the calls of the decoder.
-/

namespace RemoteCam.Media.LiveMediaPipeline

open RemoteCam.Lib.Transitions RemoteCam.Video.Annexb
open RemoteCam.Backend.Session (StreamConfig EncodedAccessUnit)

def kMaxQueuedUnits : ℕ := 8
def kMaxQueuedBytes : ℕ := 20 * 1024 * 1024

/-- An access unit and, as ghosts, its number in the order of `consume` and the number of resets
before it. -/
structure Consumed where
  unit : EncodedAccessUnit
  index : ℕ
  resets : ℕ
  deriving DecidableEq, Repr

/-! ### One push -/

inductive PipelineResult where
  | published
  | invalidAnnexB
  | keyframeMissingParameterSets
  | decoderNeedsMoreInput
  | decodeFailed
  | transformFailed
  | sinkFailed
  deriving DecidableEq, Repr

/-- `S_OK`, `S_FALSE` or a failure. -/
inductive DecodeResult where
  | frame
  | moreInput
  | failed
  deriving DecidableEq, Repr

/-- What a push is answered, as far as it comes. -/
structure Answers where
  decode : DecodeResult := .frame
  transformed : Bool := true
  published : Bool := true
  deriving DecidableEq, Repr

/-- Why the unit is not given to the decoder, if it is not. -/
def refusal (unit : EncodedAccessUnit) : Option PipelineResult :=
  let report := inspect unit.bytes unit.codec
  if !report.isAnnexB then some .invalidAnnexB
  else if unit.keyframe && (!report.hasKeyframeSlice || !report.hasParameterSets) then
    some .keyframeMissingParameterSets
  else none

/-- `VideoPipeline::push`, without effects. -/
def push (unit : EncodedAccessUnit) (answers : Answers) : PipelineResult :=
  match refusal unit with
  | some result => result
  | none =>
    match answers.decode with
    | .moreInput => .decoderNeedsMoreInput
    | .failed => .decodeFailed
    | .frame =>
      if !answers.transformed then .transformFailed
      else if !answers.published then .sinkFailed
      else .published

/-! ### The machine -/

/-- Where the worker stands: it waits; it has taken a unit; its decoder has the unit's codec; no
decoder could be made; the push failed; the decoder was flushed; the loop has ended. -/
inductive Worker where
  | waiting
  | holding (x : Consumed)
  | pushing (x : Consumed)
  | refused
  | failed
  | flushed
  | stopped
  deriving DecidableEq, Repr

def Worker.unit : Worker → Option Consumed
  | .holding x | .pushing x => some x
  | _ => none

def Worker.isHolding : Worker → Bool
  | .holding _ => true
  | _ => false

def Worker.isPushing : Worker → Bool
  | .pushing _ => true
  | _ => false

/-- The next thing the worker does with the queue is to empty it. -/
def Worker.fails : Worker → Bool
  | .refused | .failed | .flushed => true
  | _ => false

/-- A call that the decoder notices: a unit, a flush, its replacement by `selectCodec`, and its end
for the resets up to that number. -/
inductive Call where
  | decode (x : Consumed)
  | flush
  | select (codec : Codec) (created : Bool)
  | reset (resets : ℕ)
  deriving DecidableEq, Repr

structure Sys where
  queue : List Consumed := []
  queueBytes : ℕ := 0
  waitingForKeyframe : Bool := true
  pendingReset : Option (StreamConfig × ℕ) := none
  streamFrameRate : ℕ := 30
  /-- `codec`, `decoder` and `pipeline`: the codec of the decoder, if there is one. -/
  decoder : Option Codec := none
  worker : Worker := .waiting
  stopRequested : Bool := false
  /-- Ghost: the units offered to `consume`. -/
  consumed : ℕ := 0
  /-- Ghost: the calls of `reset`. -/
  resets : ℕ := 0
  /-- Ghost: the codec of the units since the last reset. -/
  shared : Option Codec := none
  /-- Ghost: the calls of the decoder, the newest first. -/
  log : List Call := []
  deriving DecidableEq, Repr

def clear (s : Sys) : Sys := { s with queue := [], queueBytes := 0, waitingForKeyframe := true }

/-- The caller learns nothing from `consume`: it returns true whatever becomes of the unit. -/
def consume (s : Sys) (unit : EncodedAccessUnit) : Sys :=
  let s' := { s with consumed := s.consumed + 1, shared := some unit.codec }
  if s.waitingForKeyframe && !unit.keyframe then s'
  else if s.queue.length ≥ kMaxQueuedUnits ∨ s.queueBytes + unit.bytes.length > kMaxQueuedBytes then
    clear s'
  else
    { s' with
      waitingForKeyframe := if unit.keyframe then false else s.waitingForKeyframe
      queue := s.queue ++ [⟨unit, s.consumed, s.resets⟩]
      queueBytes := s.queueBytes + unit.bytes.length }

def reset (s : Sys) (config : StreamConfig) (generation : ℕ) : Sys :=
  { clear s with
    streamFrameRate := if config.fps ≠ 0 then config.fps else s.streamFrameRate
    pendingReset := some (config, generation)
    resets := s.resets + 1
    shared := none }

/-- The worker's block: a pending reset goes before the queue. -/
def take (s : Sys) : Sys :=
  if s.pendingReset.isSome then
    { s with pendingReset := none, decoder := none, log := .reset s.resets :: s.log }
  else
    match s.queue with
    | [] => s
    | x :: queue =>
      { s with
        queue
        queueBytes := s.queueBytes - x.unit.bytes.length
        worker := .holding x }

def selectCodec (s : Sys) (x : Consumed) (created : Bool) : Sys :=
  if s.decoder = some x.unit.codec then { s with worker := .pushing x }
  else
    { s with
      decoder := if created then some x.unit.codec else none
      log := .select x.unit.codec created :: s.log
      worker := if created then .pushing x else .refused }

/-- The loop goes on, or recovers. -/
def afterPush : PipelineResult → Worker
  | .published | .decoderNeedsMoreInput => .waiting
  | _ => .failed

def decode (s : Sys) (x : Consumed) (answers : Answers) : Sys :=
  { s with
    log := if (refusal x.unit).isNone then .decode x :: s.log else s.log
    worker := afterPush (push x.unit answers) }

/-- One step of the worker is `take`, `select`, `push`, `flush`, `recover` or `exit`. -/
inductive Action where
  | consume (unit : EncodedAccessUnit)
  | reset (config : StreamConfig) (generation : ℕ)
  | requestStop
  | take
  | select (created : Bool)
  | push (answers : Answers)
  | flush
  | recover
  | exit
  deriving DecidableEq, Repr

def next (s : Sys) : Action → Sys
  | .consume unit => consume s unit
  | .reset config generation => reset s config generation
  | .requestStop => { s with stopRequested := true }
  | .take => take s
  | .select created =>
    match s.worker with
    | .holding x => selectCodec s x created
    | _ => s
  | .push answers =>
    match s.worker with
    | .pushing x => decode s x answers
    | _ => s
  | .flush => { s with log := .flush :: s.log, worker := .flushed }
  | .recover => { clear s with worker := .waiting }
  | .exit => { s with worker := .stopped }

/-- Units between two resets share a codec. The worker takes what is there, unless it was asked to
stop. -/
def enabled (s : Sys) : Action → Prop
  | .consume unit => s.shared = none ∨ s.shared = some unit.codec
  | .reset .. | .requestStop => True
  | .take =>
    s.worker = .waiting ∧ s.stopRequested = false ∧ (s.pendingReset.isSome ∨ s.queue ≠ [])
  | .select _ => s.worker.isHolding
  | .push _ => s.worker.isPushing
  | .flush => s.worker = .failed
  | .recover => s.worker = .refused ∨ s.worker = .flushed
  | .exit => s.worker = .waiting ∧ s.stopRequested = true

instance decidableEnabled (s : Sys) : ∀ a, Decidable (enabled s a)
  | .consume unit => inferInstanceAs (Decidable (s.shared = none ∨ s.shared = some unit.codec))
  | .reset .. | .requestStop => .isTrue trivial
  | .take => inferInstanceAs (Decidable (s.worker = .waiting ∧ s.stopRequested = false ∧
      (s.pendingReset.isSome = true ∨ s.queue ≠ [])))
  | .select _ => inferInstanceAs (Decidable (s.worker.isHolding = true))
  | .push _ => inferInstanceAs (Decidable (s.worker.isPushing = true))
  | .flush => inferInstanceAs (Decidable (s.worker = .failed))
  | .recover => inferInstanceAs (Decidable (s.worker = .refused ∨ s.worker = .flushed))
  | .exit => inferInstanceAs (Decidable (s.worker = .waiting ∧ s.stopRequested = true))

def machine : Machine Sys Action := ⟨enabled, next⟩

instance (s : Sys) (a : Action) : Decidable (machine.enabled s a) := decidableEnabled s a

/-! ### What is asked for -/

/-- The unit that the decoder was given last, with no other call since. -/
def lastDecoded : List Call → Option Consumed
  | .decode x :: _ => some x
  | _ => none

/-- `x` can be decoded after `p`. -/
def Links (p : Option Consumed) (x : Consumed) : Prop :=
  x.unit.keyframe = true ∨ ∃ q, p = some q ∧ x.index = q.index + 1

/-- Every unit given to the decoder can be decoded after what it was given before. -/
def Decodable : List Call → Prop
  | [] => True
  | .decode x :: older => Links (lastDecoded older) x ∧ Decodable older
  | _ :: older => Decodable older

/-- No unit is decoded that was consumed before a reset for which the decoder has been replaced. -/
def Fresh : List Call → Prop
  | [] => True
  | .decode x :: older => (∀ n, .reset n ∈ older → n ≤ x.resets) ∧ Fresh older
  | _ :: older => Fresh older

/-- The queue is within its limits, and its bytes are counted. -/
structure Bounded (queue : List Consumed) (queueBytes : ℕ) : Prop where
  units : queue.length ≤ kMaxQueuedUnits
  bytes : queueBytes ≤ kMaxQueuedBytes
  sum : queueBytes = (queue.map fun x => x.unit.bytes.length).sum

/-! ### Feeds -/

/-- `x` follows `p` in the order of `consume`, with the same codec. -/
def Succeeds (p : Option Consumed) (x : Consumed) : Prop :=
  x.unit.keyframe = true ∨
    ∃ q, p = some q ∧ x.index = q.index + 1 ∧ x.unit.codec = q.unit.codec

/-- The units can be decoded one after the other, the first of them after `p`. -/
def Feeds : Option Consumed → List Consumed → Prop
  | _, [] => True
  | p, x :: xs => Succeeds p x ∧ Feeds (some x) xs

/-- The last of the units, or `p`. -/
def reach : Option Consumed → List Consumed → Option Consumed
  | p, [] => p
  | _, x :: xs => reach (some x) xs

theorem reach_append (x : Consumed) :
    ∀ (p : Option Consumed) (xs : List Consumed), reach p (xs ++ [x]) = some x
  | _, [] => rfl
  | _, y :: xs => reach_append x (some y) xs

theorem feeds_append {x : Consumed} : ∀ {p : Option Consumed} {xs : List Consumed}, Feeds p xs →
    Succeeds (reach p xs) x → Feeds p (xs ++ [x])
  | _, [], _, hx => ⟨hx, trivial⟩
  | _, _ :: _, h, hx => ⟨h.1, feeds_append h.2 hx⟩

theorem Succeeds.links {p : Option Consumed} {x : Consumed} (h : Succeeds p x) : Links p x := by
  rcases h with hkey | ⟨q, hq, hindex, -⟩
  · exact .inl hkey
  · exact .inr ⟨q, hq, hindex⟩

/-! ### The invariant -/

/-- The unit after which the first unit of the queue comes to the decoder. A pending reset comes in
between. -/
def anchor (s : Sys) : Option Consumed :=
  if s.pendingReset.isSome then none
  else
    match s.worker.unit with
    | some x => some x
    | none => lastDecoded s.log

/-- The next unit offered to `consume` comes right after `p`. -/
def Latest (s : Sys) (p : Consumed) : Prop :=
  p.index + 1 = s.consumed ∧ s.shared = some p.unit.codec

/-- The queue can be decoded after what is before it. If no keyframe is waited for, then so can the
next unit after the queue. -/
structure Feed (s : Sys) : Prop where
  chain : Feeds (anchor s) s.queue
  last : s.waitingForKeyframe = false → ∃ p, reach (anchor s) s.queue = some p ∧ Latest s p

structure Inv (s : Sys) : Prop where
  bounded : Bounded s.queue s.queueBytes
  gate : s.waitingForKeyframe = true → s.queue = []
  feed : s.worker.fails = false → Feed s
  current : ∀ x ∈ s.queue, x.resets = s.resets
  settled : ∀ n, .reset n ∈ s.log → n ≤ s.resets
  /-- A decoder that was given a unit last is there, and of its codec. -/
  decoder : ∀ p, lastDecoded s.log = some p → s.decoder = some p.unit.codec
  held : ∀ x, s.worker.unit = some x →
    Succeeds (lastDecoded s.log) x ∧ ∀ n, .reset n ∈ s.log → n ≤ x.resets
  pushing : ∀ x, s.worker = .pushing x → s.decoder = some x.unit.codec
  decodable : Decodable s.log
  fresh : Fresh s.log

variable {s : Sys}

theorem bounded_nil : Bounded [] 0 := ⟨Nat.zero_le _, Nat.zero_le _, rfl⟩

theorem inv_start : Inv {} where
  bounded := bounded_nil
  gate _ := rfl
  feed _ := ⟨trivial, nofun⟩
  current := nofun
  settled := nofun
  decoder := nofun
  held := nofun
  pushing := nofun
  decodable := trivial
  fresh := trivial

/-- A unit that is let in comes right after the last one, or is a keyframe after a gap. -/
theorem Inv.admitted (I : Inv s) {unit : EncodedAccessUnit}
    (h : s.shared = none ∨ s.shared = some unit.codec)
    (hgate : ¬ (s.waitingForKeyframe && !unit.keyframe) = true) (hfails : s.worker.fails = false) :
    Succeeds (reach (anchor s) s.queue) ⟨unit, s.consumed, s.resets⟩ := by
  by_cases hkey : unit.keyframe = true
  · exact .inl hkey
  · have hopen : s.waitingForKeyframe = false := by simpa [hkey] using hgate
    obtain ⟨p, hp, hindex, hshared⟩ := (I.feed hfails).last hopen
    refine .inr ⟨p, hp, hindex.symm, ?_⟩
    rw [hshared] at h
    rcases h with h | h
    · cases h
    · exact (Option.some.inj h).symm

theorem Inv.consume (I : Inv s) {unit : EncodedAccessUnit}
    (h : s.shared = none ∨ s.shared = some unit.codec) : Inv (consume s unit) := by
  unfold LiveMediaPipeline.consume
  by_cases hgate : (s.waitingForKeyframe && !unit.keyframe) = true
  · rw [if_pos hgate]
    refine { I with feed := fun hfails => ⟨(I.feed hfails).chain, fun hopen => ?_⟩ }
    have hwaiting : s.waitingForKeyframe = false := hopen
    rw [hwaiting] at hgate
    cases hgate
  · rw [if_neg hgate]
    by_cases hfull : s.queue.length ≥ kMaxQueuedUnits ∨
        s.queueBytes + unit.bytes.length > kMaxQueuedBytes
    · rw [if_pos hfull]
      exact { I with
        bounded := bounded_nil
        gate := fun _ => rfl
        feed := fun _ => ⟨trivial, nofun⟩
        current := nofun }
    · rw [if_neg hfull]
      rw [not_or, Nat.not_le, Nat.not_lt] at hfull
      exact { I with
        bounded :=
          { units := by rw [List.length_append]; exact hfull.1
            bytes := hfull.2
            sum := by simp [I.bounded.sum] }
        gate := fun hwaiting => by
          cases hkey : unit.keyframe with
          | true => simp [hkey] at hwaiting
          | false =>
            have hopen : s.waitingForKeyframe = true := by simpa [hkey] using hwaiting
            rw [hopen, hkey] at hgate
            exact absurd rfl hgate
        feed := fun hfails =>
          { chain := feeds_append (I.feed hfails).chain (I.admitted h hgate hfails)
            last := fun _ => ⟨_, reach_append _ _ _, rfl, rfl⟩ }
        current := fun x hx => by
          rcases List.mem_append.mp hx with hx | hx
          · exact I.current x hx
          · rw [List.mem_singleton.mp hx] }

theorem Inv.reset (I : Inv s) (config : StreamConfig) (generation : ℕ) :
    Inv (reset s config generation) :=
  { I with
    bounded := bounded_nil
    gate := fun _ => rfl
    feed := fun _ => ⟨trivial, nofun⟩
    current := nofun
    settled := fun n hn => Nat.le_succ_of_le (I.settled n hn) }

/-- The queue was emptied with the reset, so what is there now begins with a keyframe. -/
theorem Inv.take_reset (I : Inv s) (hworker : s.worker = .waiting)
    (hpending : s.pendingReset.isSome = true) :
    Inv { s with pendingReset := none, decoder := none, log := .reset s.resets :: s.log } := by
  have F := I.feed (by rw [hworker]; rfl)
  have hunit : s.worker.unit = none := by rw [hworker]; rfl
  have hanchor : anchor s = none := if_pos hpending
  have hafter : anchor { s with
      pendingReset := none, decoder := none, log := .reset s.resets :: s.log } = none := by
    unfold anchor
    dsimp only
    rw [hunit]
    rfl
  exact { I with
    feed := fun _ =>
      { chain := by rw [hafter, ← hanchor]; exact F.chain
        last := fun hopen => by rw [hafter, ← hanchor]; exact F.last hopen }
    settled := fun n hn => by
      rcases List.mem_cons.mp hn with hn | hn
      · rw [Call.reset.inj hn]
      · exact I.settled n hn
    decoder := nofun
    held := fun x hx => by
      rw [hunit] at hx
      cases hx
    pushing := fun x hx => by
      rw [hworker] at hx
      cases hx }

theorem Inv.take_unit (I : Inv s) (hworker : s.worker = .waiting)
    (hpending : ¬ s.pendingReset.isSome = true) {x : Consumed} {queue : List Consumed}
    (hqueue : s.queue = x :: queue) :
    Inv { s with
      queue, queueBytes := s.queueBytes - x.unit.bytes.length, worker := .holding x } := by
  have F := I.feed (by rw [hworker]; rfl)
  have hunit : s.worker.unit = none := by rw [hworker]; rfl
  have hanchor : anchor s = lastDecoded s.log := by
    unfold anchor
    rw [if_neg hpending, hunit]
  have hafter : anchor { s with
      queue, queueBytes := s.queueBytes - x.unit.bytes.length, worker := .holding x } = some x :=
    if_neg hpending
  obtain ⟨hunits, hbytes, hsum⟩ := I.bounded
  have hchain := F.chain
  have hlast := F.last
  have hcurrent := I.current
  rw [hqueue, hanchor] at hchain hlast
  rw [hqueue] at hunits hsum hcurrent
  rw [List.map_cons, List.sum_cons] at hsum
  obtain ⟨hx, hrest⟩ := List.forall_mem_cons.mp hcurrent
  exact { I with
    bounded :=
      { units := Nat.le_of_succ_le hunits
        bytes := Nat.le_trans (Nat.sub_le _ _) hbytes
        sum := by rw [hsum, Nat.add_sub_cancel_left] }
    gate := fun hwaiting => by
      have hempty := I.gate hwaiting
      rw [hqueue] at hempty
      cases hempty
    feed := fun _ =>
      { chain := by rw [hafter]; exact hchain.2
        last := fun hopen => by rw [hafter]; exact hlast hopen }
    current := hrest
    held := fun y hy => by
      obtain rfl := Option.some.inj hy
      exact ⟨hchain.1, fun n hn => hx ▸ I.settled n hn⟩
    pushing := nofun }

theorem Inv.take (I : Inv s) (hworker : s.worker = .waiting) : Inv (take s) := by
  unfold LiveMediaPipeline.take
  split_ifs with hpending
  · exact I.take_reset hworker hpending
  · cases hqueue : s.queue with
    | nil => exact I
    | cons x queue => exact I.take_unit hworker hpending hqueue

/-- The feed only sees the unit that the worker has, not what it does with it. -/
theorem Feed.of_worker {s' : Sys} (F : Feed s) (hanchor : anchor s' = anchor s)
    (hqueue : s'.queue = s.queue) (hwaiting : s'.waitingForKeyframe = s.waitingForKeyframe)
    (hconsumed : s'.consumed = s.consumed) (hshared : s'.shared = s.shared) : Feed s' := by
  refine ⟨by rw [hanchor, hqueue]; exact F.chain, fun hopen => ?_⟩
  rw [hwaiting] at hopen
  unfold Latest
  rw [hanchor, hqueue, hconsumed, hshared]
  exact F.last hopen

theorem Inv.selectCodec (I : Inv s) {x : Consumed} (hworker : s.worker = .holding x)
    (created : Bool) : Inv (selectCodec s x created) := by
  have F := I.feed (by rw [hworker]; rfl)
  have hunit : s.worker.unit = some x := by rw [hworker]; rfl
  obtain ⟨hlink, hsettled⟩ := I.held x hunit
  unfold LiveMediaPipeline.selectCodec
  by_cases hcodec : s.decoder = some x.unit.codec
  · rw [if_pos hcodec]
    exact { I with
      feed := fun _ => F.of_worker (by unfold anchor; rw [hunit]; rfl) rfl rfl rfl rfl
      held := fun y hy => by
        obtain rfl := Option.some.inj hy
        exact ⟨hlink, hsettled⟩
      pushing := fun y hy => by
        rw [← Worker.pushing.inj hy]
        exact hcodec }
  · -- A unit that follows the last one finds the decoder of its codec, so this one is a keyframe.
    have hkey : x.unit.keyframe = true := by
      rcases hlink with hkey | ⟨q, hq, -, hsame⟩
      · exact hkey
      · exact absurd (hsame ▸ I.decoder q hq) hcodec
    have hsettled' :
        ∀ n, Call.reset n ∈ Call.select x.unit.codec created :: s.log → n ≤ s.resets := by
      intro n hn
      rcases List.mem_cons.mp hn with hn | hn
      · cases hn
      · exact I.settled n hn
    rw [if_neg hcodec]
    cases created with
    | true =>
      rw [if_pos rfl, if_pos rfl]
      exact { I with
        feed := fun _ => F.of_worker (by unfold anchor; rw [hunit]; rfl) rfl rfl rfl rfl
        settled := hsettled'
        decoder := nofun
        held := fun y hy => by
          obtain rfl := Option.some.inj hy
          refine ⟨.inl hkey, fun n hn => ?_⟩
          rcases List.mem_cons.mp hn with hn | hn
          · cases hn
          · exact hsettled n hn
        pushing := fun y hy => by
          rw [← Worker.pushing.inj hy] }
    | false =>
      rw [if_neg Bool.false_ne_true, if_neg Bool.false_ne_true]
      exact { I with
        feed := nofun
        settled := hsettled'
        decoder := nofun
        held := nofun
        pushing := nofun }

/-- A unit that is not given to the decoder is a failure. -/
theorem afterPush_refused {unit : EncodedAccessUnit} {result : PipelineResult} (answers : Answers)
    (h : refusal unit = some result) : afterPush (push unit answers) = .failed := by
  unfold push
  rw [h]
  unfold refusal at h
  dsimp only at h ⊢
  split_ifs at h
  · obtain rfl := Option.some.inj h
    rfl
  · obtain rfl := Option.some.inj h
    rfl

theorem afterPush_cases (result : PipelineResult) :
    afterPush result = .waiting ∨ afterPush result = .failed := by
  cases result <;> simp [afterPush]

theorem Inv.decode (I : Inv s) {x : Consumed} (hworker : s.worker = .pushing x)
    (answers : Answers) : Inv (decode s x answers) := by
  have F := I.feed (by rw [hworker]; rfl)
  have hunit : s.worker.unit = some x := by rw [hworker]; rfl
  obtain ⟨hlink, hsettled⟩ := I.held x hunit
  have hcodec := I.pushing x hworker
  unfold LiveMediaPipeline.decode
  cases hrefusal : refusal x.unit with
  | some result =>
    rw [afterPush_refused answers hrefusal]
    exact { I with
      feed := nofun
      held := nofun
      pushing := nofun }
  | none =>
    have hnone : (afterPush (push x.unit answers)).unit = none := by
      rcases afterPush_cases (push x.unit answers) with h | h <;> rw [h] <;> rfl
    exact { I with
      feed := fun _ => F.of_worker (by unfold anchor; rw [hunit, hnone]; rfl) rfl rfl rfl rfl
      settled := fun n hn => by
        rcases List.mem_cons.mp hn with hn | hn
        · cases hn
        · exact I.settled n hn
      decoder := fun p hp => by
        obtain rfl := Option.some.inj hp
        exact hcodec
      held := fun y hy => by
        rw [hnone] at hy
        cases hy
      pushing := fun y hy => by
        rcases afterPush_cases (push x.unit answers) with h | h
        · cases h.symm.trans hy
        · cases h.symm.trans hy
      decodable := ⟨hlink.links, I.decodable⟩
      fresh := ⟨hsettled, I.fresh⟩ }

theorem Inv.flush (I : Inv s) : Inv { s with log := .flush :: s.log, worker := .flushed } :=
  { I with
    feed := nofun
    settled := fun n hn => by
      rcases List.mem_cons.mp hn with hn | hn
      · cases hn
      · exact I.settled n hn
    decoder := nofun
    held := nofun
    pushing := nofun }

theorem Inv.recover (I : Inv s) : Inv { clear s with worker := .waiting } :=
  { I with
    bounded := bounded_nil
    gate := fun _ => rfl
    feed := fun _ => ⟨trivial, nofun⟩
    current := nofun
    held := nofun
    pushing := nofun }

theorem Inv.exit (I : Inv s) (hworker : s.worker = .waiting) : Inv { s with worker := .stopped } :=
  have F := I.feed (by rw [hworker]; rfl)
  { I with
    feed := fun _ => F.of_worker (by unfold anchor; rw [hworker]; rfl) rfl rfl rfl rfl
    held := nofun
    pushing := nofun }

theorem inv_next (s : Sys) (a : Action) (I : Inv s) (h : machine.enabled s a) :
    Inv (machine.next s a) := by
  change enabled s a at h
  change Inv (next s a)
  cases a with
  | consume unit => exact I.consume h
  | reset config generation => exact I.reset config generation
  | requestStop =>
    exact { I with feed := fun hfails => (I.feed hfails).of_worker rfl rfl rfl rfl rfl }
  | take => exact I.take h.1
  | select created =>
    rw [next]
    cases hworker : s.worker with
    | holding x => exact I.selectCodec hworker created
    | _ => exact I
  | push answers =>
    rw [next]
    cases hworker : s.worker with
    | pushing x => exact I.decode hworker answers
    | _ => exact I
  | flush => exact I.flush
  | recover => exact I.recover
  | exit => exact I.exit h.1

/-- **Every unit given to the decoder can be decoded**: it is a keyframe, or it comes right after
the unit that the decoder was given just before, with no flush and no other decoder in between. No
unit from before a reset comes to the decoder that was made after it, and the queue stays within its
limits. -/
theorem decodable_run {as : List Action} (h : machine.Legal (fun _ _ => True) {} as) :
    Decodable (machine.exec {} as).log ∧ Fresh (machine.exec {} as).log ∧
      Bounded (machine.exec {} as).queue (machine.exec {} as).queueBytes := by
  have I : Inv (machine.exec {} as) :=
    h.invariant inv_start fun s a I ha _ => inv_next s a I ha
  exact ⟨I.decodable, I.fresh, I.bounded⟩

def keyframeSample : EncodedAccessUnit where
  bytes := [0, 0, 0, 1, 0x67, 0, 0, 0, 0, 1, 0x68, 0, 0, 0, 0, 1, 0x65, 0]
  codec := .h264
  keyframe := true
  ptsMicros := 0
  generation := 0

def deltaSample : EncodedAccessUnit where
  bytes := [0, 0, 0, 1, 0x41, 0]
  codec := .h264
  keyframe := false
  ptsMicros := 33333
  generation := 0

/-- A reset, a keyframe and two more units; the second of them comes while the sink fails. -/
def failingRun : List Action :=
  [.reset {} 0, .take, .consume keyframeSample, .consume deltaSample, .take, .select true, .push {},
    .take, .select true, .push { published := false }, .consume deltaSample, .flush, .recover,
    .consume deltaSample]

theorem decodable_run_failing :
    (machine.exec {} failingRun).log = [.flush, .decode ⟨deltaSample, 1, 1⟩,
      .decode ⟨keyframeSample, 0, 1⟩, .select .h264 true, .reset 1] ∧
    Decodable (machine.exec {} failingRun).log ∧ Fresh (machine.exec {} failingRun).log ∧
      Bounded (machine.exec {} failingRun).queue (machine.exec {} failingRun).queueBytes :=
  ⟨by decide, decodable_run (by decide)⟩

end RemoteCam.Media.LiveMediaPipeline
