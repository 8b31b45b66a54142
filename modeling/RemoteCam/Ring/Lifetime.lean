import RemoteCam.Lib.Transitions
import RemoteCam.Ring.ShmRing

/-! # Consumers and producers of the ring

Any number of `FrameRing` instances of any processes on one section name. A call is split where it
holds the write guard: each block under the guard is one step, and so is everything else that a call
does at once. The section lives as long as an instance has it mapped.

`lifetimes_of_run`: the count is the number of open consumers, there is at most one claim, it is
that of its process, and no frame outlives its generation. -/

namespace RemoteCam.Ring.Lifetime

open RemoteCam.Lib.Transitions RemoteCam.Ring.ShmRing

/-! ### The machine -/

/-- The creation time tells processes with one id apart. -/
structure Process where
  pid : ℕ
  startTime : ℕ
  pid_ne_zero : pid ≠ 0
  deriving DecidableEq

/-- Where the call of an instance stands. -/
inductive Calling where
  | nothing
  /-- Before the guarded block of `create`; `existed` as `openOrCreateSection` has it. -/
  | creating (existed : Bool)
  /-- Before the checks of `open`, which are guarded if it is writable. -/
  | opening
  /-- Before a read-only `open` loads the generation. -/
  | loading
  /-- Before the guarded blocks of `close`. -/
  | closing
  | releasing
  /-- `close` is left to unmap the section. -/
  | unmapping
  deriving DecidableEq, Repr

structure FrameRing where
  process : Process
  /-- `view_`. -/
  view : Bool := false
  /-- `writeGuard_`. -/
  writeGuard : Bool := false
  owner : Bool := false
  producerClaim : Bool := false
  consumerGeneration : ℕ := 0
  calling : Calling := .nothing
  /-- What an attempt of `readLatest` has loaded from `writeSeq`. -/
  seq : Option ℕ := none
  deriving DecidableEq

structure Camera where
  /-- The section, while it exists. -/
  mapping : Option RingHeader := none
  instances : List FrameRing := []
  /-- Ghost: the generation in which a slot was published. -/
  origin : Fin 4 → ℕ := fun _ => 0
  deriving DecidableEq

inductive Action where
  | construct (process : Process)
  /-- `create` and `open` begin with `close`. -/
  | create (i : ℕ)
  | openRing (i : ℕ) (writable : Bool)
  | close (i : ℕ)
  /-- The next step of a call; `live` is what `producerClaimIsLive` says. -/
  | run (i : ℕ) (live : Bool)
  | writeFrame (i : ℕ) (src : Option (List UInt8)) (info : FrameInfo) (qpc : ℕ)
  /-- `readLatest` loads `writeSeq`. -/
  | loadSeq (i : ℕ)
  /-- `readLatest` looks at the slot. -/
  | readSlot (i : ℕ) (dstCapacity : ℕ)
  deriving DecidableEq

def Camera.put (s : Camera) (i : ℕ) (r : FrameRing) : Camera :=
  { s with instances := s.instances.set i r }

/-- The process of a claim has an instance open, so it has not ended. -/
def Camera.running (s : Camera) (pid startTime : ℕ) : Bool :=
  s.instances.any fun r => r.view && r.process.pid = pid && r.process.startTime = startTime

/-- A new section is filled with zeros. -/
def attach (s : Camera) (i : ℕ) (r : FrameRing) : Camera :=
  match s.mapping with
  | some _ => s.put i { r with view := true, writeGuard := true, calling := .creating true }
  | none =>
    { (s.put i { r with view := true, writeGuard := true, calling := .creating false }) with
      mapping := some {}
      origin := fun _ => 0 }

/-- The guarded block of `create`. -/
def createBlock (s : Camera) (h : RingHeader) (i : ℕ) (r : FrameRing) (existed : Bool) : Camera :=
  let h' := if existed then h.attachConsumer else .ok RingHeader.initialized
  match h' with
  | .error _ => s.put i { r with calling := .unmapping }
  | .ok h' =>
    { (s.put i
        { r with owner := true, consumerGeneration := h'.consumerGeneration, calling := .nothing })
      with mapping := some h' }

/-- The checks of `open`, and the claim if it is writable. -/
def openBlock (s : Camera) (h : RingHeader) (i : ℕ) (r : FrameRing) (live : Bool) : Camera :=
  if ¬ h.laidOut ∨ !h.hasActiveConsumer then s.put i { r with calling := .unmapping }
  else if r.writeGuard then
    match h.claimProducer r.process.pid r.process.startTime live with
    | .error _ => s.put i { r with calling := .unmapping }
    | .ok h' =>
      { (s.put i
          { r with
            producerClaim := true
            consumerGeneration := h'.consumerGeneration
            calling := .nothing })
        with mapping := some h' }
  else s.put i { r with calling := .loading }

/-- The section goes with its last mapping. -/
def unmap (s : Camera) (i : ℕ) (r : FrameRing) : Camera :=
  let s := s.put i { process := r.process }
  if s.instances.any fun r => r.view then s else { s with mapping := none }

def runNext (s : Camera) (h : RingHeader) (i : ℕ) (r : FrameRing) (live : Bool) : Camera :=
  match r.calling with
  | .nothing => s
  | .creating existed => createBlock s h i r existed
  | .opening => openBlock s h i r live
  | .loading =>
    s.put i { r with consumerGeneration := h.consumerGeneration, calling := .nothing }
  | .closing =>
    if r.owner then
      { (s.put i { r with owner := false, calling := .releasing }) with
        mapping := some h.closeConsumer }
    else s.put i { r with calling := .releasing }
  | .releasing =>
    if r.producerClaim then
      { (s.put i { r with producerClaim := false, calling := .unmapping }) with
        mapping := some (h.closeProducer r.process.pid r.process.startTime) }
    else s.put i { r with calling := .unmapping }
  | .unmapping => unmap s i r

/-- What `writeFrame` returns, and the section after it. -/
def FrameRing.writeFrame (r : FrameRing) (mapping : Option RingHeader) (src : Option (List UInt8))
    (info : FrameInfo) (qpc : ℕ) : HResult × Option RingHeader :=
  if !r.view then (.invalidState, mapping)
  else
    match src, mapping with
    | none, _ => (.pointer, mapping)
    | _, none => (.invalidState, mapping)
    | some src, some h =>
      if src.length = 0 ∨ src.length > kRingSlotBytes then (.invalidArg, mapping)
      else if !r.writeGuard then (.invalidHandle, mapping)
      else
        let (result, h') := h.publish r.consumerGeneration src info qpc
        (result, some h')

/-- The slot a frame is published to is of the generation. -/
def written (s : Camera) (result : HResult) (mapping : Option RingHeader) : Camera :=
  match result, s.mapping with
  | .sOk, some h =>
    { s with
      mapping
      origin := Function.update s.origin (slotIndex h.writeSeq) h.consumerGeneration }
  | _, _ => { s with mapping }

def next (s : Camera) : Action → Camera
  | .construct process => { s with instances := s.instances ++ [{ process }] }
  | .create i =>
    match s.instances[i]? with
    | some r => attach s i r
    | none => s
  | .openRing i writable =>
    match s.instances[i]?, s.mapping with
    | some r, some _ => s.put i { r with view := true, writeGuard := writable, calling := .opening }
    | _, _ => s
  | .close i =>
    match s.instances[i]? with
    | some r => s.put i { r with calling := .closing }
    | none => s
  | .run i live =>
    match s.instances[i]?, s.mapping with
    | some r, some h => runNext s h i r live
    | _, _ => s
  | .writeFrame i src info qpc =>
    match s.instances[i]? with
    | some r =>
      let (result, mapping) := r.writeFrame s.mapping src info qpc
      written s result mapping
    | none => s
  | .loadSeq i =>
    match s.instances[i]?, s.mapping with
    | some r, some h => s.put i { r with seq := some h.writeSeq }
    | _, _ => s
  | .readSlot i _ =>
    match s.instances[i]? with
    | some r => s.put i { r with seq := none }
    | none => s

/-- An instance makes one call at a time. A claim whose process is running is live. -/
def enabled (s : Camera) : Action → Prop
  | .construct _ => True
  | .create i | .openRing i _ =>
    ∃ r ∈ s.instances[i]?, r.calling = .nothing ∧ r.view = false
  | .close i => ∃ r ∈ s.instances[i]?, r.calling = .nothing ∧ r.view = true ∧ r.seq = none
  | .loadSeq i => ∃ r ∈ s.instances[i]?, r.calling = .nothing ∧ r.view = true
  | .run i live =>
    (∃ r ∈ s.instances[i]?, r.calling ≠ .nothing) ∧
      ∀ h ∈ s.mapping, s.running h.ownerPid h.ownerStartTime = true → live = true
  | .writeFrame i _ _ _ => ∃ r ∈ s.instances[i]?, r.calling = .nothing
  | .readSlot i _ => ∃ r ∈ s.instances[i]?, r.calling = .nothing ∧ r.seq.isSome = true

def camera : Machine Camera Action := ⟨enabled, next⟩

/-- The generation is not changed 2^32 - 1 times. -/
def unwrapped (s : Camera) : Action → Prop
  | .run i _ => ∀ r ∈ s.instances[i]?, r.calling = .creating true →
    ∀ h ∈ s.mapping, h.consumerCount = 0 → h.consumerGeneration < uint32Max
  | _ => True

instance (s : Camera) (a : Action) : Decidable (enabled s a) := by
  cases a <;> unfold enabled <;> infer_instance

instance (s : Camera) (a : Action) : Decidable (camera.enabled s a) :=
  inferInstanceAs (Decidable (enabled s a))

instance (s : Camera) (a : Action) : Decidable (unwrapped s a) := by
  cases a <;> unfold unwrapped <;> infer_instance

/-! ### The lifetimes -/

def Camera.consumers (s : Camera) : ℕ := s.instances.countP fun r => r.owner
def Camera.claims (s : Camera) : ℕ := s.instances.countP fun r => r.producerClaim

/-- The slot that an attempt of `readLatest` is about to look at was published in the generation of
the instance or later. -/
def FrameRing.current (r : FrameRing) (origin : Fin 4 → ℕ) : Prop :=
  ∀ seq ∈ r.seq, seq ≠ 0 → r.consumerGeneration ≤ origin (slotIndex (seq - 1))

structure Sound (s : Camera) : Prop where
  count : ∀ h ∈ s.mapping, h.consumerCount = s.consumers
  none : s.mapping = none → s.consumers = 0 ∧ s.claims = 0
  writes : ∀ r ∈ s.instances, r.calling = .nothing → ∀ src info qpc,
    (r.writeFrame s.mapping src info qpc).1 = .sOk →
      0 < s.consumers ∧ ∃ h ∈ s.mapping, h.consumerGeneration = r.consumerGeneration
  reads : ∀ r ∈ s.instances, r.current s.origin
  single : s.claims ≤ 1
  own : ∀ r ∈ s.instances, r.producerClaim = true → ∀ h ∈ s.mapping,
    h.ownerPid = r.process.pid ∧ h.ownerStartTime = r.process.startTime
  closes : ∀ r ∈ s.instances, r.owner = true → ∀ h ∈ s.mapping,
    0 < h.consumerCount ∧ h.closeConsumer.consumerCount = s.consumers - 1
  spares : ∀ r ∈ s.instances, ∀ h ∈ s.mapping,
    (h.ownerPid = r.process.pid ∧ h.ownerStartTime = r.process.startTime) ∨
      h.closeProducer r.process.pid r.process.startTime = h

/-! ### The invariant -/

/-- The section is initialized and open to an instance. -/
def FrameRing.settled (r : FrameRing) : Bool :=
  r.view && (r.calling = .nothing || r.calling = .loading || r.calling = .closing ||
    r.calling = .releasing)

/-- The instance fits the section it has mapped. -/
structure Placed (mapping : Option RingHeader) (origin : Fin 4 → ℕ) (r : FrameRing) : Prop where
  mapped : r.view = true → mapping.isSome = true
  detached : r.view = false → r.calling = .nothing
  quiet : r.view = false ∨ r.calling ≠ .nothing → r.seq = none
  owner : r.owner = true → r.view = true ∧ (r.calling = .nothing ∨ r.calling = .closing)
  claim : r.producerClaim = true → r.view = true ∧
    (r.calling = .nothing ∨ r.calling = .closing ∨ r.calling = .releasing)
  settled : r.settled = true → ∃ h, mapping = some h ∧ h.laidOut ∧
    (r.calling = .loading ∨ r.consumerGeneration ≤ h.consumerGeneration)
  creating : r.calling = .creating false → mapping = some {}
  current : r.current origin

/-- A section in use. -/
structure Valid (origin : Fin 4 → ℕ) (h : RingHeader) : Prop where
  laidOut : h.laidOut
  published : ∀ k, origin k ≤ h.consumerGeneration
  latest : h.writeSeq ≠ 0 → origin (slotIndex (h.writeSeq - 1)) = h.consumerGeneration
  generation : h.consumerGeneration ≤ uint32Max

def Camera.creators (s : Camera) : ℕ :=
  s.instances.countP fun r => r.calling = .creating false

/-- **The invariant.** The counters of the header count instances; a new section has one creator. -/
structure Inv (s : Camera) : Prop where
  placed : ∀ r ∈ s.instances, Placed s.mapping s.origin r
  count : ∀ h ∈ s.mapping, h.consumerCount = s.consumers
  claims : ∀ h ∈ s.mapping, s.claims = if h.ownerPid = 0 then 0 else 1
  own : ∀ r ∈ s.instances, r.producerClaim = true → ∀ h ∈ s.mapping,
    h.ownerPid = r.process.pid ∧ h.ownerStartTime = r.process.startTime
  header : ∀ h ∈ s.mapping,
    (h = {} ∧ s.origin = fun _ => 0) ∧ s.creators = 1 ∨ Valid s.origin h ∧ s.creators = 0

section Counting
variable {s : Camera} {i : ℕ} {r r' : FrameRing} {p : FrameRing → Bool}

theorem countP_set (hr : s.instances[i]? = some r) :
    (s.instances.set i r').countP p + (if p r then 1 else 0) =
      s.instances.countP p + (if p r' then 1 else 0) := by
  obtain ⟨hi, rfl⟩ := List.getElem?_eq_some_iff.mp hr
  have hle : (if p s.instances[i] then 1 else 0) ≤ s.instances.countP p := by
    split_ifs with h
    · exact List.countP_pos_iff.mpr ⟨_, List.getElem_mem hi, h⟩
    · exact Nat.zero_le _
  rw [List.countP_set hi]
  omega

theorem countP_set_of_eq (hr : s.instances[i]? = some r) (heq : p r' = p r) :
    (s.instances.set i r').countP p = s.instances.countP p := by
  have h := @countP_set s i r r' p hr
  rw [heq] at h
  omega

theorem mem_set {x : FrameRing} (hx : x ∈ s.instances.set i r') : x ∈ s.instances ∨ x = r' :=
  List.mem_or_eq_of_mem_set hx

theorem pos_of_mem {x : FrameRing} (hx : x ∈ s.instances) (hp : p x = true) :
    0 < s.instances.countP p := List.countP_pos_iff.mpr ⟨x, hx, hp⟩

theorem eq_false_of_countP (h : s.instances.countP p = 0) {x : FrameRing} (hx : x ∈ s.instances) :
    p x = false := by
  by_contra hp
  have hpos := pos_of_mem hx (Bool.of_not_eq_false hp)
  omega

end Counting

section Invariant
variable {s : Camera} {i : ℕ} {r r' x : FrameRing} {h h' : RingHeader} {a : Action}
  {origin origin' : Fin 4 → ℕ}

/-- The section after a step that other instances have to live with. -/
structure Later (origin origin' : Fin 4 → ℕ) (h h' : RingHeader) : Prop where
  laidOut : h.laidOut → h'.laidOut
  generation : h.consumerGeneration ≤ h'.consumerGeneration
  origin : ∀ k, origin k ≤ origin' k

theorem Placed.later (hx : Placed (some h) origin x) (hl : Later origin origin' h h')
    (hzero : x.calling = .creating false → h' = {}) : Placed (some h') origin' x := by
  refine ⟨fun _ => rfl, hx.detached, hx.quiet, hx.owner, hx.claim, fun hs => ?_, fun hc => ?_, ?_⟩
  · obtain ⟨h₀, heq, hlaid, hgen⟩ := hx.settled hs
    obtain rfl := Option.some.inj heq
    exact ⟨h', rfl, hl.laidOut hlaid, hgen.imp_right fun hle => hle.trans hl.generation⟩
  · rw [hzero hc]
  · exact fun seq hseq hne => (hx.current seq hseq hne).trans (hl.origin _)

theorem not_laidOut_zero : ¬ RingHeader.laidOut {} := by decide

/-- A settled instance has an initialized section. -/
theorem Inv.valid (hinv : Inv s) (hm : s.mapping = some h) (hx : x ∈ s.instances)
    (hs : x.settled = true) : Valid s.origin h ∧ s.creators = 0 := by
  refine (hinv.header h hm).resolve_left ?_
  rintro ⟨⟨rfl, -⟩, -⟩
  obtain ⟨h₀, heq, hlaid, -⟩ := (hinv.placed x hx).settled hs
  rw [hm] at heq
  obtain rfl := Option.some.inj heq
  exact not_laidOut_zero hlaid

/-- A step that changes one instance and leaves the section. -/
theorem Inv.put (hinv : Inv s) (hr : s.instances[i]? = some r)
    (hplaced : Placed s.mapping s.origin r') (howner : r'.owner = r.owner)
    (hclaim : r'.producerClaim = r.producerClaim) (hprocess : r'.process = r.process)
    (hcreating : r'.calling = .creating false ↔ r.calling = .creating false) :
    Inv (s.put i r') := by
  have hmem : r ∈ s.instances := List.mem_of_getElem? hr
  have hcreators : (s.put i r').creators = s.creators :=
    countP_set_of_eq hr (by simp only [hcreating])
  constructor
  · intro x hx
    rcases mem_set hx with hx | rfl
    · exact hinv.placed x hx
    · exact hplaced
  · intro h hm
    exact (hinv.count h hm).trans (countP_set_of_eq hr howner).symm
  · intro h hm
    exact (countP_set_of_eq hr hclaim).trans (hinv.claims h hm)
  · intro x hx hc h hm
    rcases mem_set hx with hx | rfl
    · exact hinv.own x hx hc h hm
    · rw [hprocess]
      exact hinv.own r hmem (hclaim.symm.trans hc) h hm
  · intro h hm
    rw [hcreators]
    exact hinv.header h hm

/-- A step under the guard that changes one instance and an initialized section. -/
theorem Inv.put_mapping (hinv : Inv s) (hm : s.mapping = some h) (hr : s.instances[i]? = some r)
    (hlater : Later s.origin origin' h h') (hplaced : Placed (some h') origin' r')
    (hcount : h'.consumerCount + (if r.owner then 1 else 0) =
      h.consumerCount + (if r'.owner then 1 else 0))
    (hclaims : (if h'.ownerPid = 0 then 0 else 1) + (if r.producerClaim then 1 else 0) =
      (if h.ownerPid = 0 then 0 else 1) + (if r'.producerClaim then 1 else 0))
    (hown : ∀ x ∈ s.instances.set i r', x.producerClaim = true →
      h'.ownerPid = x.process.pid ∧ h'.ownerStartTime = x.process.startTime)
    (hvalid : Valid origin' h') (hcreators : (s.put i r').creators = 0) :
    Inv { (s.put i r') with mapping := some h', origin := origin' } := by
  have hnone {x : FrameRing} (hx : x ∈ s.instances.set i r') : x.calling ≠ .creating false := by
    have hfalse := @eq_false_of_countP (s.put i r') _ hcreators x hx
    simpa using hfalse
  constructor
  · intro x hx
    by_cases hxr : x = r'
    · rw [hxr]
      exact hplaced
    · have hold := (mem_set hx).resolve_right hxr
      have hpl := hinv.placed x hold
      rw [hm] at hpl
      exact hpl.later hlater fun hc => absurd hc (hnone hx)
  · rintro h₀ hm₀
    obtain rfl := Option.some.inj hm₀
    have hset := @countP_set s i r r' (fun r => r.owner) hr
    have hold := hinv.count h hm
    unfold Camera.consumers at hold ⊢
    dsimp only [Camera.put]
    omega
  · rintro h₀ hm₀
    obtain rfl := Option.some.inj hm₀
    have hset := @countP_set s i r r' (fun r => r.producerClaim) hr
    have hold := hinv.claims h hm
    unfold Camera.claims at hold ⊢
    dsimp only [Camera.put]
    omega
  · rintro x hx hc h₀ hm₀
    obtain rfl := Option.some.inj hm₀
    exact hown x hx hc
  · rintro h₀ hm₀
    obtain rfl := Option.some.inj hm₀
    exact .inr ⟨hvalid, hcreators⟩

theorem creators_put (r' : FrameRing) (hr : s.instances[i]? = some r)
    (hnew : r'.calling ≠ .creating false) :
    (s.put i r').creators + (if r.calling = .creating false then 1 else 0) = s.creators := by
  have hset := @countP_set s i r r' (fun r => r.calling = .creating false) hr
  simp only [hnew, decide_false, Bool.false_eq_true, if_false, Nat.add_zero,
    decide_eq_true_eq] at hset
  exact hset

/-- A step that makes no claim leaves the claims where they are. -/
theorem Inv.own_put (hinv : Inv s) (hm : s.mapping = some h) (hr : s.instances[i]? = some r)
    (hpid : h'.ownerPid = h.ownerPid) (hstart : h'.ownerStartTime = h.ownerStartTime)
    (hclaim : r'.producerClaim = r.producerClaim) (hprocess : r'.process = r.process) :
    ∀ x ∈ s.instances.set i r', x.producerClaim = true →
      h'.ownerPid = x.process.pid ∧ h'.ownerStartTime = x.process.startTime := by
  intro x hx hc
  rw [hpid, hstart]
  rcases mem_set hx with hx | rfl
  · exact hinv.own x hx hc h hm
  · rw [hprocess]
    exact hinv.own r (List.mem_of_getElem? hr) (hclaim.symm.trans hc) h hm

theorem Valid.later {h h' : RingHeader} (hv : Valid s.origin h) (hlaid : h'.laidOut)
    (hgen : h'.consumerGeneration = h.consumerGeneration) (hseq : h'.writeSeq = h.writeSeq) :
    Valid s.origin h' := by
  refine ⟨hlaid, ?_, ?_, ?_⟩
  · rw [hgen]
    exact hv.published
  · rw [hgen, hseq]
    exact hv.latest
  · rw [hgen]
    exact hv.generation

theorem inv_attach (hinv : Inv s) (hr : s.instances[i]? = some r)
    (hidle : r.calling = .nothing ∧ r.view = false) : Inv (attach s i r) := by
  have hmem : r ∈ s.instances := List.mem_of_getElem? hr
  have hpl := hinv.placed r hmem
  have howner : r.owner = false := by
    by_contra ho
    have hv := (hpl.owner (Bool.of_not_eq_false ho)).1
    rw [hidle.2] at hv
    cases hv
  have hclaim : r.producerClaim = false := by
    by_contra hc
    have hv := (hpl.claim (Bool.of_not_eq_false hc)).1
    rw [hidle.2] at hv
    cases hv
  have hseq : r.seq = none := hpl.quiet (.inl hidle.2)
  unfold attach
  split
  · next h hm =>
    refine hinv.put hr ?_ rfl rfl rfl (by simp [hidle.1])
    refine ⟨fun _ => (by rw [hm]; rfl), fun hv => (by cases hv), fun _ => hseq, fun ho => ?_,
      fun hc => ?_, fun hs => ?_, fun hc => (by simp at hc), fun seq hx => ?_⟩
    · change r.owner = true at ho
      rw [howner] at ho
      cases ho
    · change r.producerClaim = true at hc
      rw [hclaim] at hc
      cases hc
    · simp [FrameRing.settled] at hs
    · change seq ∈ r.seq at hx
      rw [hseq] at hx
      cases hx
  · next hm =>
    -- no instance has it mapped
    have hviews : ∀ x ∈ s.instances, x.view = false := fun x hx => by
      by_contra hv
      have hsome := (hinv.placed x hx).mapped (Bool.of_not_eq_false hv)
      rw [hm] at hsome
      cases hsome
    have hempty : ∀ x ∈ s.instances, x.owner = false ∧ x.producerClaim = false ∧
        x.calling = .nothing ∧ x.seq = none := fun x hx => by
      have hplx := hinv.placed x hx
      have hd := hplx.detached (hviews x hx)
      refine ⟨?_, ?_, hd, hplx.quiet (.inl (hviews x hx))⟩
      · by_contra ho
        have hv := (hplx.owner (Bool.of_not_eq_false ho)).1
        rw [hviews x hx] at hv
        cases hv
      · by_contra hc
        have hv := (hplx.claim (Bool.of_not_eq_false hc)).1
        rw [hviews x hx] at hv
        cases hv
    have hzero {p : FrameRing → Bool} (hp : ∀ x ∈ s.instances, p x = false) :
        s.instances.countP p = 0 := List.countP_eq_zero.mpr fun x hx => by simp [hp x hx]
    have hr' {p : FrameRing → Bool} {r' : FrameRing} (hp : ∀ x ∈ s.instances, p x = false) :
        (s.instances.set i r').countP p = if p r' then 1 else 0 := by
      have hset := @countP_set s i r r' p hr
      rw [hzero hp, hp r hmem] at hset
      simpa using hset
    have howners := @hr' (fun r => r.owner)
      { r with view := true, writeGuard := true, calling := .creating false }
      fun x hx => (hempty x hx).1
    have hclaims := @hr' (fun r => r.producerClaim)
      { r with view := true, writeGuard := true, calling := .creating false }
      fun x hx => (hempty x hx).2.1
    have hcreators := @hr' (fun r => r.calling = .creating false)
      { r with view := true, writeGuard := true, calling := .creating false }
      fun x hx => by simp [(hempty x hx).2.2.1]
    constructor
    · intro x hx
      rcases mem_set hx with hx | rfl
      · obtain ⟨howner, hclaim, hcalling, hseq⟩ := hempty x hx
        have hview := hviews x hx
        refine ⟨fun hv => ?_, fun _ => hcalling, fun _ => hseq, fun ho => ?_, fun hc => ?_,
          fun hs => ?_, fun hc => ?_, fun seq hx => ?_⟩
        · rw [hview] at hv
          cases hv
        · rw [howner] at ho
          cases ho
        · rw [hclaim] at hc
          cases hc
        · simp [FrameRing.settled, hview] at hs
        · exact absurd (hcalling.symm.trans hc) (by simp)
        · rw [hseq] at hx
          cases hx
      · refine ⟨fun _ => rfl, fun hv => (by cases hv), fun _ => hseq, fun ho => ?_, fun hc => ?_,
          fun hs => ?_, fun _ => rfl, fun seq hx => ?_⟩
        · change r.owner = true at ho
          rw [howner] at ho
          cases ho
        · change r.producerClaim = true at hc
          rw [hclaim] at hc
          cases hc
        · simp [FrameRing.settled] at hs
        · change seq ∈ r.seq at hx
          rw [hseq] at hx
          cases hx
    · intro h hm'
      obtain rfl := Option.some.inj hm'
      refine Eq.symm (howners.trans ?_)
      rw [howner]
      rfl
    · intro h hm'
      obtain rfl := Option.some.inj hm'
      refine hclaims.trans ?_
      rw [hclaim]
      rfl
    · intro x hx hc
      rcases mem_set hx with hx | rfl
      · rw [(hempty x hx).2.1] at hc
        cases hc
      · change r.producerClaim = true at hc
        rw [hclaim] at hc
        cases hc
    · intro h hm'
      obtain rfl := Option.some.inj hm'
      exact .inl ⟨⟨rfl, rfl⟩, hcreators⟩

/-- A call that fails is left to unmap the section. -/
theorem inv_failed (hinv : Inv s) (hr : s.instances[i]? = some r)
    (hbusy : r.calling = .creating true ∨ r.calling = .opening) :
    Inv (s.put i { r with calling := .unmapping }) := by
  have hpl := hinv.placed r (List.mem_of_getElem? hr)
  refine hinv.put hr ?_ rfl rfl rfl ?_
  · refine ⟨hpl.mapped, fun hv => ?_, fun _ => hpl.quiet (.inr ?_), fun ho => ?_, fun hc => ?_,
      fun hs => ?_, fun hc => ?_, hpl.current⟩
    · have hd := hpl.detached hv
      rcases hbusy with hb | hb <;> rw [hb] at hd <;> cases hd
    · rcases hbusy with hb | hb <;> rw [hb] <;> simp
    · rcases (hpl.owner ho).2 with hb' | hb' <;> rcases hbusy with hb | hb <;> rw [hb] at hb' <;>
        cases hb'
    · rcases (hpl.claim hc).2 with hb' | hb' | hb' <;> rcases hbusy with hb | hb <;>
        rw [hb] at hb' <;> cases hb'
    · simp [FrameRing.settled] at hs
    · cases hc
  · rcases hbusy with hb | hb <;> rw [hb] <;> simp

/-- An instance in `create` or `open` is neither a consumer nor a producer. -/
theorem Placed.idle {mapping : Option RingHeader} (hpl : Placed mapping origin r)
    (hbusy : (∃ existed, r.calling = .creating existed) ∨ r.calling = .opening ∨
      r.calling = .loading ∨ r.calling = .unmapping) :
    r.owner = false ∧ r.producerClaim = false ∧ r.view = true ∧ r.seq = none := by
  have hne : r.calling ≠ .nothing ∧ r.calling ≠ .closing ∧ r.calling ≠ .releasing := by
    rcases hbusy with ⟨existed, hb⟩ | hb | hb | hb <;> rw [hb] <;> simp
  refine ⟨?_, ?_, ?_, hpl.quiet (.inr hne.1)⟩
  · by_contra ho
    rcases (hpl.owner (Bool.of_not_eq_false ho)).2 with hb | hb
    · exact hne.1 hb
    · exact hne.2.1 hb
  · by_contra hc
    rcases (hpl.claim (Bool.of_not_eq_false hc)).2 with hb | hb | hb
    · exact hne.1 hb
    · exact hne.2.1 hb
    · exact hne.2.2 hb
  · by_contra hv
    exact hne.1 (hpl.detached (Bool.of_not_eq_true hv))

/-- The instance that `create` makes a consumer, or `open` a producer. -/
theorem placed_idle (hlaid : h'.laidOut) (hview : r'.view = true)
    (hcalling : r'.calling = .nothing) (hgen : r'.consumerGeneration = h'.consumerGeneration)
    (hseq : r'.seq = none) : Placed (some h') origin' r' := by
  refine ⟨fun _ => rfl, fun hv => ?_, fun _ => hseq, fun _ => ⟨hview, .inl hcalling⟩,
    fun _ => ⟨hview, .inl hcalling⟩, fun _ => ⟨h', rfl, hlaid, .inr hgen.le⟩, fun hc => ?_,
    fun seq hx => ?_⟩
  · rw [hview] at hv
    cases hv
  · rw [hcalling] at hc
    cases hc
  · rw [hseq] at hx
    cases hx

/-- An initialized section is valid, and nobody is creating it. -/
theorem Inv.valid_of_laidOut (hinv : Inv s) (hm : s.mapping = some h) (hlaid : h.laidOut) :
    Valid s.origin h ∧ s.creators = 0 := by
  refine (hinv.header h hm).resolve_left ?_
  rintro ⟨⟨rfl, -⟩, -⟩
  exact not_laidOut_zero hlaid

theorem inv_initialized (hinv : Inv s) (hm : s.mapping = some h) (hr : s.instances[i]? = some r)
    (hcalling : r.calling = .creating false) :
    Inv { (s.put i { r with
      owner := true, consumerGeneration := RingHeader.initialized.consumerGeneration,
      calling := .nothing }) with mapping := some RingHeader.initialized } := by
  have hpl := hinv.placed r (List.mem_of_getElem? hr)
  obtain ⟨howner, hclaim, hview, hseq⟩ := hpl.idle (.inl ⟨false, hcalling⟩)
  have hzero : h = {} := Option.some.inj (hm.symm.trans (hpl.creating hcalling))
  subst hzero
  obtain ⟨⟨-, horigin⟩, hone⟩ := (hinv.header _ hm).resolve_right
    fun hv => not_laidOut_zero hv.1.laidOut
  refine @Inv.put_mapping s i r _ {} .initialized s.origin hinv hm hr ?_ ?_ ?_ ?_ ?_ ?_ ?_
  · exact ⟨fun hlaid => absurd hlaid not_laidOut_zero, Nat.zero_le _, fun _ => le_refl _⟩
  · exact placed_idle (by decide) hview rfl rfl hseq
  · simp [howner, RingHeader.initialized]
  · simp [hclaim, RingHeader.initialized]
  · exact hinv.own_put hm hr rfl rfl rfl rfl
  · refine ⟨by decide, fun k => ?_, fun hne => absurd rfl hne, by decide⟩
    rw [horigin]
    exact Nat.zero_le _
  · have hput := creators_put { r with
      owner := true, consumerGeneration := RingHeader.initialized.consumerGeneration,
      calling := .nothing } hr (by simp)
    rw [if_pos hcalling] at hput
    omega

/-- What `create` does to a section with consumers, or without. -/
theorem attachConsumer_ok (heq : h.attachConsumer = .ok h') :
    h.laidOut ∧ (h.consumerCount = 0 ∧ h'.consumerCount = 1 ∧
      h'.consumerGeneration = h.nextGeneration ∧ h'.writeSeq = 0 ∨
      h.consumerCount ≠ 0 ∧ h' = { h with consumerCount := h.consumerCount + 1 }) ∧
    h'.laidOut ∧ h'.ownerPid = h.ownerPid ∧ h'.ownerStartTime = h.ownerStartTime := by
  unfold RingHeader.attachConsumer at heq
  split_ifs at heq with hlaid hcount
  all_goals obtain rfl := Except.ok.inj heq
  · exact ⟨hlaid, .inl ⟨hcount, rfl, rfl, rfl⟩, hlaid, rfl, rfl⟩
  · exact ⟨hlaid, .inr ⟨hcount, rfl⟩, hlaid, rfl, rfl⟩

theorem nextGeneration_eq (hlt : h.consumerGeneration < uint32Max) :
    h.nextGeneration = h.consumerGeneration + 1 := by
  have hmod : u32 (h.consumerGeneration + 1) = h.consumerGeneration + 1 := by
    unfold u32
    unfold uint32Max at hlt
    omega
  unfold RingHeader.nextGeneration
  rw [hmod, if_neg (Nat.succ_ne_zero _)]

theorem inv_attached (hinv : Inv s) (hm : s.mapping = some h) (hr : s.instances[i]? = some r)
    (hcalling : r.calling = .creating true) (heq : h.attachConsumer = .ok h')
    (hgen : h.consumerCount = 0 → h.consumerGeneration < uint32Max) :
    Inv { (s.put i { r with
      owner := true, consumerGeneration := h'.consumerGeneration, calling := .nothing })
      with mapping := some h' } := by
  have hpl := hinv.placed r (List.mem_of_getElem? hr)
  obtain ⟨howner, hclaim, hview, hseq⟩ := hpl.idle (.inl ⟨true, hcalling⟩)
  obtain ⟨hlaid, hcases, hlaid', hpid, hstart⟩ := attachConsumer_ok heq
  obtain ⟨hvalid, hcreators⟩ := hinv.valid_of_laidOut hm hlaid
  have hput : (s.put i { r with
      owner := true, consumerGeneration := h'.consumerGeneration,
      calling := .nothing }).creators = 0 := by
    have h' := creators_put { r with
      owner := true, consumerGeneration := h'.consumerGeneration, calling := .nothing } hr
      (by simp)
    rw [if_neg (by rw [hcalling]; simp)] at h'
    omega
  have hgeneration : h.consumerGeneration ≤ h'.consumerGeneration ∧ Valid s.origin h' := by
    rcases hcases with ⟨hcount, -, hnext, hwrite⟩ | ⟨hcount, rfl⟩
    · rw [nextGeneration_eq (hgen hcount)] at hnext
      have hlt := hgen hcount
      refine ⟨by omega, hlaid', fun k => ?_, fun hne => absurd hwrite hne, by omega⟩
      exact (hvalid.published k).trans (by omega)
    · exact ⟨le_refl _, hvalid.later hlaid' rfl rfl⟩
  refine hinv.put_mapping hm hr ⟨fun _ => hlaid', hgeneration.1, fun _ => le_refl _⟩
    (placed_idle hlaid' hview rfl rfl hseq) ?_ ?_ (hinv.own_put hm hr hpid hstart rfl rfl)
    hgeneration.2 hput
  · rcases hcases with ⟨hcount, hone, -⟩ | ⟨hcount, rfl⟩
    · simp [howner, hcount, hone]
    · simp [howner]
  · simp [hclaim, hpid]

theorem inv_createBlock {existed : Bool} (hinv : Inv s) (hm : s.mapping = some h)
    (hr : s.instances[i]? = some r) (hcalling : r.calling = .creating existed)
    (hgen : existed = true → h.consumerCount = 0 → h.consumerGeneration < uint32Max) :
    Inv (createBlock s h i r existed) := by
  unfold createBlock
  cases existed with
  | false => exact inv_initialized hinv hm hr hcalling
  | true =>
    dsimp only
    rw [if_pos rfl]
    cases heq : h.attachConsumer with
    | error e => exact inv_failed hinv hr (.inl hcalling)
    | ok h' => exact inv_attached hinv hm hr hcalling heq (hgen rfl)

theorem inv_openBlock {live : Bool} (hinv : Inv s) (hm : s.mapping = some h)
    (hr : s.instances[i]? = some r) (hcalling : r.calling = .opening)
    (hlive : s.running h.ownerPid h.ownerStartTime = true → live = true) :
    Inv (openBlock s h i r live) := by
  have hpl := hinv.placed r (List.mem_of_getElem? hr)
  obtain ⟨howner, hclaim, hview, hseq⟩ := hpl.idle (.inr (.inl hcalling))
  unfold openBlock
  split_ifs with hbad hguard
  · exact inv_failed hinv hr (.inr hcalling)
  · have hlaid : h.laidOut := not_not.mp (not_or.mp hbad).1
    obtain ⟨hvalid, hcreators⟩ := hinv.valid_of_laidOut hm hlaid
    cases heq : h.claimProducer r.process.pid r.process.startTime live with
    | error e => exact inv_failed hinv hr (.inr hcalling)
    | ok h' =>
      unfold RingHeader.claimProducer at heq
      split_ifs at heq with hfree
      obtain rfl := Except.ok.inj heq
      -- a claim that is there is that of a running process
      have hfree : h.ownerPid = 0 := by
        by_contra hpid
        have hone := hinv.claims h hm
        rw [if_neg hpid] at hone
        have hpos : 0 < s.claims := by omega
        obtain ⟨x, hx, hxc⟩ := List.countP_pos_iff.mp hpos
        obtain ⟨hxpid, hxstart⟩ := hinv.own x hx hxc h hm
        refine hfree ⟨hpid, hlive ?_⟩
        refine List.any_eq_true.mpr ⟨x, hx, ?_⟩
        simp [((hinv.placed x hx).claim hxc).1, hxpid, hxstart]
      have hclaims : s.claims = 0 := by
        rw [hinv.claims h hm, if_pos hfree]
      refine @Inv.put_mapping s i r _ h _ s.origin hinv hm hr ?_ ?_ ?_ ?_ ?_ ?_ ?_
      · exact ⟨id, le_refl _, fun _ => le_refl _⟩
      · exact placed_idle hlaid hview rfl rfl hseq
      · simp [howner]
      · simp [hclaim, hfree, r.process.pid_ne_zero]
      · intro x hx hxc
        rcases mem_set hx with hx | rfl
        · rw [eq_false_of_countP hclaims hx] at hxc
          cases hxc
        · exact ⟨rfl, rfl⟩
      · exact hvalid.later hlaid rfl rfl
      · have hput := creators_put { r with
          producerClaim := true
          consumerGeneration := h.consumerGeneration
          calling := .nothing } hr (by simp)
        rw [if_neg (by rw [hcalling]; simp)] at hput
        exact hput.trans hcreators
  · have hlaid : h.laidOut := not_not.mp (not_or.mp hbad).1
    refine hinv.put hr ?_ rfl rfl rfl (by simp [hcalling])
    refine ⟨hpl.mapped, fun hv => ?_, fun _ => hseq, fun ho => ?_, fun hc => ?_, fun hs => ?_,
      fun hc => (by cases hc), hpl.current⟩
    · exact absurd (hv.symm.trans hview) (by simp)
    · exact absurd (ho.symm.trans howner) (by simp)
    · exact absurd (hc.symm.trans hclaim) (by simp)
    · exact ⟨h, hm, hlaid, .inl rfl⟩

theorem inv_loading (hinv : Inv s) (hm : s.mapping = some h) (hr : s.instances[i]? = some r)
    (hcalling : r.calling = .loading) :
    Inv (s.put i { r with consumerGeneration := h.consumerGeneration, calling := .nothing }) := by
  have hpl := hinv.placed r (List.mem_of_getElem? hr)
  obtain ⟨howner, hclaim, hview, hseq⟩ := hpl.idle (.inr (.inr (.inl hcalling)))
  obtain ⟨h₀, heq, hlaid, -⟩ := hpl.settled (by simp [FrameRing.settled, hview, hcalling])
  obtain rfl := Option.some.inj (hm.symm.trans heq)
  refine hinv.put hr ?_ rfl rfl rfl (by simp [hcalling])
  rw [hm]
  exact placed_idle hlaid hview rfl rfl hseq

/-- A step of `close` to the next one. -/
theorem placed_closing {mapping : Option RingHeader} {calling : Calling}
    (hpl : Placed mapping origin r) (hview : r.view = true) (hseq : r.seq = none)
    (hsettled : r.settled = true)
    (hstanding : r.calling ≠ .loading)
    (howner : r'.owner = true → calling = .closing)
    (hclaim : r'.producerClaim = true → calling = .closing ∨ calling = .releasing)
    (hr' : r'.view = r.view ∧ r'.seq = r.seq ∧ r'.consumerGeneration = r.consumerGeneration ∧
      r'.calling = calling)
    (hcalling : calling = .closing ∨ calling = .releasing ∨ calling = .unmapping) :
    Placed mapping origin r' := by
  obtain ⟨hv', hs', hg', hc'⟩ := hr'
  obtain ⟨h₀, heq, hlaid, hgen⟩ := hpl.settled hsettled
  refine ⟨fun _ => (by rw [heq]; rfl), fun hv => ?_, fun _ => hs'.trans hseq, fun ho => ?_,
    fun hc => ?_, fun _ => ?_, fun hc => ?_, fun seq hx => ?_⟩
  · rw [hv', hview] at hv
    cases hv
  · exact ⟨hv'.trans hview, .inr (hc'.trans (howner ho))⟩
  · exact ⟨hv'.trans hview, .inr ((hclaim hc).imp hc'.trans hc'.trans)⟩
  · rw [hg']
    exact ⟨h₀, heq, hlaid, .inr (hgen.resolve_left hstanding)⟩
  · rw [hc'] at hc
    rcases hcalling with hx | hx | hx <;> rw [hx] at hc <;> cases hc
  · rw [hs', hseq] at hx
    cases hx

theorem inv_close (hinv : Inv s) (hr : s.instances[i]? = some r)
    (hidle : r.calling = .nothing ∧ r.view = true ∧ r.seq = none) :
    Inv (s.put i { r with calling := .closing }) := by
  have hpl := hinv.placed r (List.mem_of_getElem? hr)
  refine hinv.put hr ?_ rfl rfl rfl (by simp [hidle.1])
  refine placed_closing hpl hidle.2.1 hidle.2.2 (by simp [FrameRing.settled, hidle]) ?_
    (fun _ => rfl) (fun _ => .inl rfl) ⟨rfl, rfl, rfl, rfl⟩ (.inl rfl)
  rw [hidle.1]
  simp

theorem inv_closing (hinv : Inv s) (hm : s.mapping = some h) (hr : s.instances[i]? = some r)
    (hcalling : r.calling = .closing) (howner : r.owner = true) :
    Inv { (s.put i { r with owner := false, calling := .releasing }) with
      mapping := some h.closeConsumer } := by
  have hmem : r ∈ s.instances := List.mem_of_getElem? hr
  have hpl := hinv.placed r hmem
  have hview := (hpl.owner howner).1
  have hsettled : r.settled = true := by simp [FrameRing.settled, hview, hcalling]
  obtain ⟨hvalid, hcreators⟩ := hinv.valid hm hmem hsettled
  have hpos : 0 < h.consumerCount := by
    rw [hinv.count h hm]
    exact pos_of_mem hmem howner
  have hcount : h.closeConsumer.consumerCount = h.consumerCount - 1 := if_neg (by omega)
  have hput := creators_put { r with owner := false, calling := .releasing } hr (by simp)
  rw [if_neg (by rw [hcalling]; simp)] at hput
  refine @Inv.put_mapping s i r _ h h.closeConsumer s.origin hinv hm hr
    ⟨id, le_refl _, fun _ => le_refl _⟩ ?_ ?_ rfl (hinv.own_put hm hr rfl rfl rfl rfl)
    (hvalid.later hvalid.laidOut rfl rfl) (hput.trans hcreators)
  · have hlater : Placed (some h.closeConsumer) s.origin r := by
      rw [hm] at hpl
      exact hpl.later ⟨id, le_refl _, fun _ => le_refl _⟩ fun hc =>
        absurd (hcalling.symm.trans hc) (by simp)
    exact placed_closing hlater hview (hpl.quiet (.inr (by rw [hcalling]; simp))) hsettled
      (by rw [hcalling]; simp) (fun ho => by cases ho) (fun _ => .inr rfl) ⟨rfl, rfl, rfl, rfl⟩
      (.inr (.inl rfl))
  · rw [hcount, howner]
    simp only [if_true, Bool.false_eq_true, if_false]
    omega

theorem inv_releasing (hinv : Inv s) (hm : s.mapping = some h) (hr : s.instances[i]? = some r)
    (hcalling : r.calling = .releasing) (hclaim : r.producerClaim = true) :
    Inv { (s.put i { r with producerClaim := false, calling := .unmapping }) with
      mapping := some (h.closeProducer r.process.pid r.process.startTime) } := by
  have hmem : r ∈ s.instances := List.mem_of_getElem? hr
  have hpl := hinv.placed r hmem
  have hview := (hpl.claim hclaim).1
  have hsettled : r.settled = true := by simp [FrameRing.settled, hview, hcalling]
  obtain ⟨hvalid, hcreators⟩ := hinv.valid hm hmem hsettled
  have hown := hinv.own r hmem hclaim h hm
  have hpid : h.ownerPid ≠ 0 := by
    rw [hown.1]
    exact r.process.pid_ne_zero
  have hclose : h.closeProducer r.process.pid r.process.startTime =
      { h with ownerPid := 0, ownerStartTime := 0 } := if_pos hown
  have howner : r.owner = false := by
    by_contra ho
    rcases (hpl.owner (Bool.of_not_eq_false ho)).2 with hx | hx <;> rw [hcalling] at hx <;> cases hx
  have hput := creators_put { r with producerClaim := false, calling := .unmapping } hr
    (by simp)
  rw [if_neg (by rw [hcalling]; simp)] at hput
  have hnone : (s.put i { r with
      producerClaim := false, calling := .unmapping }).instances.countP
        (fun r => r.producerClaim) = 0 := by
    have hset := @countP_set s i r { r with producerClaim := false, calling := .unmapping }
      (fun r => r.producerClaim) hr
    have hone := hinv.claims h hm
    rw [if_neg hpid, Camera.claims] at hone
    simp only [hclaim, if_true, Bool.false_eq_true, if_false] at hset
    dsimp only [Camera.put]
    omega
  rw [hclose]
  refine @Inv.put_mapping s i r _ h _ s.origin hinv hm hr ⟨id, le_refl _, fun _ => le_refl _⟩
    ?_ rfl ?_ ?_ (hvalid.later hvalid.laidOut rfl rfl) (hput.trans hcreators)
  · have hlater : Placed (some { h with ownerPid := 0, ownerStartTime := 0 }) s.origin r := by
      rw [hm] at hpl
      exact hpl.later ⟨id, le_refl _, fun _ => le_refl _⟩ fun hc =>
        absurd (hcalling.symm.trans hc) (by simp)
    refine placed_closing hlater hview (hpl.quiet (.inr (by rw [hcalling]; simp))) hsettled
      (by rw [hcalling]; simp) (fun ho => ?_) (fun hc => by cases hc) ⟨rfl, rfl, rfl, rfl⟩
      (.inr (.inr rfl))
    exact absurd (ho.symm.trans howner) (by simp)
  · simp [hclaim, hpid]
  · intro x hx hxc
    rw [eq_false_of_countP (s := s.put i { r with
      producerClaim := false, calling := .unmapping }) hnone hx] at hxc
    cases hxc

/-- A step of `close` that finds nothing to do under the guard. -/
theorem inv_passed {calling : Calling} (hinv : Inv s) (hr : s.instances[i]? = some r)
    (hstep : r.calling = .closing ∧ calling = .releasing ∧ r.owner = false ∨
      r.calling = .releasing ∧ calling = .unmapping ∧ r.producerClaim = false) :
    Inv (s.put i { r with calling }) := by
  have hpl := hinv.placed r (List.mem_of_getElem? hr)
  have hbusy : r.calling = .closing ∨ r.calling = .releasing := hstep.imp And.left And.left
  have hne : r.calling ≠ .nothing := by
    rcases hbusy with h | h <;> rw [h] <;> simp
  have hview : r.view = true := by
    by_contra hv
    exact hne (hpl.detached (Bool.of_not_eq_true hv))
  refine hinv.put hr ?_ rfl rfl rfl ?_
  · refine placed_closing hpl hview (hpl.quiet (.inr hne)) ?_ ?_ (fun ho => ?_) (fun hc => ?_)
      ⟨rfl, rfl, rfl, rfl⟩ ?_
    · rcases hbusy with h | h <;> simp [FrameRing.settled, hview, h]
    · rcases hbusy with h | h <;> rw [h] <;> simp
    · change r.owner = true at ho
      rcases hstep with ⟨-, -, h⟩ | ⟨h, -, -⟩
      · rw [h] at ho
        cases ho
      · rcases (hpl.owner ho).2 with h' | h' <;> rw [h] at h' <;> cases h'
    · change r.producerClaim = true at hc
      rcases hstep with ⟨-, h, -⟩ | ⟨-, -, h⟩
      · exact .inr h
      · rw [h] at hc
        cases hc
    · rcases hstep with ⟨-, h, -⟩ | ⟨-, h, -⟩
      · exact .inr (.inl h)
      · exact .inr (.inr h)
  · rcases hstep with ⟨h, h', -⟩ | ⟨h, h', -⟩ <;> rw [h, h'] <;> simp

theorem inv_unmap (hinv : Inv s) (hr : s.instances[i]? = some r)
    (hcalling : r.calling = .unmapping) : Inv (unmap s i r) := by
  have hpl := hinv.placed r (List.mem_of_getElem? hr)
  obtain ⟨howner, hclaim, -⟩ := hpl.idle (.inr (.inr (.inr hcalling)))
  have hput : Inv (s.put i { process := r.process }) := by
    refine hinv.put hr ?_ howner.symm hclaim.symm rfl (by simp [hcalling])
    exact ⟨fun hv => (by cases hv), fun _ => rfl, fun _ => rfl, fun ho => (by cases ho),
      fun hc => (by cases hc), fun hs => (by simp [FrameRing.settled] at hs),
      fun hc => (by cases hc), fun seq hx => (by cases hx)⟩
  unfold unmap
  dsimp only
  split_ifs with hviews
  · exact hput
  · have hview : ∀ x ∈ (s.put i { process := r.process }).instances, x.view = false := by
      intro x hx
      by_contra hv
      exact hviews (List.any_eq_true.mpr ⟨x, hx, Bool.of_not_eq_false hv⟩)
    refine ⟨fun x hx => ?_, fun h hm => (by cases hm), fun h hm => (by cases hm),
      fun x hx hc h hm => (by cases hm), fun h hm => (by cases hm)⟩
    have hplx := hput.placed x hx
    have hcall := hplx.detached (hview x hx)
    refine ⟨fun hv => ?_, hplx.detached, hplx.quiet, hplx.owner, hplx.claim, fun hs => ?_,
      fun hc => ?_, hplx.current⟩
    · rw [hview x hx] at hv
      cases hv
    · simp [FrameRing.settled, hview x hx] at hs
    · exact absurd (hcall.symm.trans hc) (by simp)

/-- What a frame that is published changes of the header. -/
theorem publish_spec (h : RingHeader) (generation : ℕ) (src : List UInt8) (info : FrameInfo)
    (qpc : ℕ) :
    h.publish generation src info qpc = (.fileNotFound, h) ∨
      (h.publish generation src info qpc).1 = .sOk ∧ h.hasActiveConsumer = true ∧
        h.consumerGeneration = generation ∧
        ((h.publish generation src info qpc).2.laidOut ↔ h.laidOut) ∧
        (h.publish generation src info qpc).2.consumerCount = h.consumerCount ∧
        (h.publish generation src info qpc).2.consumerGeneration = h.consumerGeneration ∧
        (h.publish generation src info qpc).2.ownerPid = h.ownerPid ∧
        (h.publish generation src info qpc).2.ownerStartTime = h.ownerStartTime ∧
        (h.publish generation src info qpc).2.writeSeq = u64 (h.writeSeq + 1) := by
  unfold RingHeader.publish
  split_ifs with hbad
  · exact .inl rfl
  · simp only [not_or, not_not, Bool.not_eq_true, Bool.not_eq_false'] at hbad
    refine .inr ⟨rfl, hbad.2.1, hbad.2.2, ?_⟩
    dsimp only
    unfold RingHeader.republish
    split_ifs <;> exact ⟨Iff.rfl, rfl, rfl, rfl, rfl, rfl⟩

/-- A `writeFrame` publishes, or leaves the section as it is. -/
theorem writeFrame_spec (r : FrameRing) (mapping : Option RingHeader) (src : Option (List UInt8))
    (info : FrameInfo) (qpc : ℕ) :
    (r.writeFrame mapping src info qpc).1 ≠ .sOk ∧
        (r.writeFrame mapping src info qpc).2 = mapping ∨
      r.view = true ∧ ∃ h bytes, mapping = some h ∧
        h.publish r.consumerGeneration bytes info qpc ≠ (.fileNotFound, h) ∧
        r.writeFrame mapping src info qpc =
          (.sOk, some (h.publish r.consumerGeneration bytes info qpc).2) := by
  unfold FrameRing.writeFrame
  by_cases hview : r.view = false
  · rw [if_pos (by rw [hview]; rfl)]
    exact .inl ⟨by simp, rfl⟩
  · rw [if_neg (by simpa using hview)]
    split
    · exact .inl ⟨by simp, rfl⟩
    · exact .inl ⟨by simp, rfl⟩
    · next bytes h =>
      split_ifs
      · exact .inl ⟨by simp, rfl⟩
      · exact .inl ⟨by simp, rfl⟩
      · rcases publish_spec h r.consumerGeneration bytes info qpc with hno | ⟨hok, -⟩
        · rw [hno]
          exact .inl ⟨by simp, rfl⟩
        · refine .inr ⟨by simpa using hview, h, bytes, rfl, fun hno => ?_, ?_⟩
          · rw [hno] at hok
            cases hok
          · exact Prod.ext hok rfl

/-- The slot of the frame before the one that comes. -/
theorem slotIndex_pred (seq : ℕ) (hne : u64 (seq + 1) ≠ 0) :
    slotIndex (u64 (seq + 1) - 1) = slotIndex seq := by
  unfold u64 at hne ⊢
  unfold slotIndex
  refine Fin.ext ?_
  dsimp only
  omega

theorem inv_writeFrame {src : Option (List UInt8)} {info : FrameInfo} {qpc : ℕ} (hinv : Inv s)
    (hr : s.instances[i]? = some r) (hidle : r.calling = .nothing) :
    Inv (written s (r.writeFrame s.mapping src info qpc).1
      (r.writeFrame s.mapping src info qpc).2) := by
  have hmem : r ∈ s.instances := List.mem_of_getElem? hr
  rcases writeFrame_spec r s.mapping src info qpc with ⟨hno, hsame⟩ |
    ⟨hview, h, bytes, hm, hpublish, heq⟩
  · have hto : written s (r.writeFrame s.mapping src info qpc).1
        (r.writeFrame s.mapping src info qpc).2 = s := by
      rw [hsame]
      unfold written
      split
      · next hok _ => exact absurd hok hno
      · rfl
    rw [hto]
    exact hinv
  · obtain ⟨hvalid, hcreators⟩ := hinv.valid hm hmem (by simp [FrameRing.settled, hview, hidle])
    obtain ⟨-, -, -, hlaid, hcount, hgen, hpid, hstart, hseq⟩ :=
      (publish_spec h r.consumerGeneration bytes info qpc).resolve_left hpublish
    rw [heq]
    unfold written
    dsimp only
    rw [hm]
    dsimp only
    generalize (h.publish r.consumerGeneration bytes info qpc).2 = h' at *
    have horigin : ∀ k, s.origin k ≤
        Function.update s.origin (slotIndex h.writeSeq) h.consumerGeneration k := fun k => by
      by_cases hk : k = slotIndex h.writeSeq
      · subst hk
        rw [Function.update_self]
        exact hvalid.published _
      · rw [Function.update_of_ne hk]
    constructor
    · intro x hx
      have hpl := hinv.placed x hx
      rw [hm] at hpl
      refine hpl.later ⟨hlaid.mpr, hgen.ge, horigin⟩ fun hc => ?_
      have hfalse := eq_false_of_countP hcreators hx
      simp [hc] at hfalse
    · intro h₀ hm₀
      obtain rfl := Option.some.inj hm₀
      exact hcount.trans (hinv.count h hm)
    · intro h₀ hm₀
      obtain rfl := Option.some.inj hm₀
      rw [hpid]
      exact hinv.claims h hm
    · intro x hx hc h₀ hm₀
      obtain rfl := Option.some.inj hm₀
      rw [hpid, hstart]
      exact hinv.own x hx hc h hm
    · intro h₀ hm₀
      obtain rfl := Option.some.inj hm₀
      refine .inr ⟨⟨hlaid.mpr hvalid.laidOut, fun k => ?_, fun hne => ?_, ?_⟩, hcreators⟩
      · dsimp only
        rw [hgen]
        by_cases hk : k = slotIndex h.writeSeq
        · subst hk
          rw [Function.update_self]
        · rw [Function.update_of_ne hk]
          exact hvalid.published k
      · dsimp only
        rw [hseq] at hne ⊢
        rw [slotIndex_pred _ hne, Function.update_self, hgen]
      · rw [hgen]
        exact hvalid.generation

/-- An instance that looks at the frames. -/
theorem inv_seq {seq : Option ℕ} (hinv : Inv s) (hr : s.instances[i]? = some r)
    (hidle : r.calling = .nothing) (hview : seq.isSome = true → r.view = true)
    (hcurrent : ({ r with seq } : FrameRing).current s.origin) : Inv (s.put i { r with seq }) := by
  have hpl := hinv.placed r (List.mem_of_getElem? hr)
  refine hinv.put hr ?_ rfl rfl rfl Iff.rfl
  refine ⟨hpl.mapped, hpl.detached, fun hq => ?_, hpl.owner, hpl.claim, hpl.settled, hpl.creating,
    hcurrent⟩
  rcases hq with hv | hc
  · by_contra hne
    rw [hview (Option.isSome_iff_ne_none.mpr hne)] at hv
    cases hv
  · exact absurd hidle hc

theorem inv_loadSeq (hinv : Inv s) (hm : s.mapping = some h) (hr : s.instances[i]? = some r)
    (hidle : r.calling = .nothing) (hview : r.view = true) :
    Inv (s.put i { r with seq := some h.writeSeq }) := by
  have hmem : r ∈ s.instances := List.mem_of_getElem? hr
  have hsettled : r.settled = true := by simp [FrameRing.settled, hview, hidle]
  obtain ⟨hvalid, -⟩ := hinv.valid hm hmem hsettled
  obtain ⟨h₀, heq, -, hgen⟩ := (hinv.placed r hmem).settled hsettled
  obtain rfl := Option.some.inj (hm.symm.trans heq)
  refine inv_seq hinv hr hidle (fun _ => hview) fun seq hx hne => ?_
  obtain rfl := Option.some.inj hx
  rw [hvalid.latest hne]
  exact hgen.resolve_left (by rw [hidle]; simp)

theorem inv_construct {process : Process} (hinv : Inv s) :
    Inv { s with instances := s.instances ++ [{ process := process }] } := by
  have hcount (p : FrameRing → Bool) (hp : p { process := process } = false) :
      (s.instances ++ [({ process := process } : FrameRing)]).countP p = s.instances.countP p := by
    rw [List.countP_append]
    simp [hp]
  refine ⟨fun x hx => ?_, fun h hm => ?_, fun h hm => ?_, fun x hx hc h hm => ?_, fun h hm => ?_⟩
  · rcases List.mem_append.mp hx with hx | hx
    · exact hinv.placed x hx
    · rw [List.mem_singleton.mp hx]
      exact ⟨fun hv => (by cases hv), fun _ => rfl, fun _ => rfl, fun ho => (by cases ho),
        fun hc => (by cases hc), fun hs => (by simp [FrameRing.settled] at hs),
        fun hc => (by cases hc), fun seq hx => (by cases hx)⟩
  · exact (hinv.count h hm).trans (hcount (fun r => r.owner) rfl).symm
  · exact (hcount (fun r => r.producerClaim) rfl).trans (hinv.claims h hm)
  · rcases List.mem_append.mp hx with hx | hx
    · exact hinv.own x hx hc h hm
    · rw [List.mem_singleton.mp hx] at hc
      cases hc
  · have hcreators : Camera.creators
        { s with instances := s.instances ++ [{ process := process }] } = s.creators :=
      hcount (fun r => r.calling = .creating false) (by simp)
    rw [hcreators]
    exact hinv.header h hm

theorem inv_run {live : Bool} (hinv : Inv s) (he : enabled s (.run i live))
    (hc : unwrapped s (.run i live)) : Inv (next s (.run i live)) := by
  obtain ⟨⟨r, hr, hbusy⟩, hlive⟩ := he
  have hr : s.instances[i]? = some r := hr
  simp only [next]
  rw [hr]
  cases hm : s.mapping with
  | none => exact hinv
  | some h =>
    simp only [runNext]
    cases hcalling : r.calling with
    | nothing => exact absurd hcalling hbusy
    | creating existed =>
      refine inv_createBlock hinv hm hr hcalling fun hex hcount => ?_
      exact hc r hr (by rw [hcalling, hex]) h hm hcount
    | opening => exact inv_openBlock hinv hm hr hcalling (hlive h hm)
    | loading => exact inv_loading hinv hm hr hcalling
    | closing =>
      dsimp only
      split_ifs with howner
      · exact inv_closing hinv hm hr hcalling howner
      · exact inv_passed hinv hr (.inl ⟨hcalling, rfl, Bool.of_not_eq_true howner⟩)
    | releasing =>
      dsimp only
      split_ifs with hclaim
      · exact inv_releasing hinv hm hr hcalling hclaim
      · exact inv_passed hinv hr (.inr ⟨hcalling, rfl, Bool.of_not_eq_true hclaim⟩)
    | unmapping => exact inv_unmap hinv hr hcalling

/-- A read-only or writable `open` maps the section. -/
theorem inv_openRing {writable : Bool} (hinv : Inv s) (hm : s.mapping = some h)
    (hr : s.instances[i]? = some r) (hidle : r.calling = .nothing ∧ r.view = false) :
    Inv (s.put i { r with view := true, writeGuard := writable, calling := .opening }) := by
  have hpl := hinv.placed r (List.mem_of_getElem? hr)
  refine hinv.put hr ?_ rfl rfl rfl (by simp [hidle.1])
  refine ⟨fun _ => (by rw [hm]; rfl), fun hv => (by cases hv), fun _ => hpl.quiet (.inl hidle.2),
    fun ho => ?_, fun hc => ?_, fun hs => ?_, fun hc => (by cases hc), hpl.current⟩
  · have hv := (hpl.owner ho).1
    rw [hidle.2] at hv
    cases hv
  · have hv := (hpl.claim hc).1
    rw [hidle.2] at hv
    cases hv
  · simp [FrameRing.settled] at hs

/-- **Every step keeps the counters.** -/
theorem inv_next (hinv : Inv s) (he : enabled s a) (hc : unwrapped s a) : Inv (next s a) := by
  cases a with
  | construct process => exact inv_construct hinv
  | create i =>
    obtain ⟨r, hr, hidle⟩ := he
    have hr : s.instances[i]? = some r := hr
    simp only [next]
    rw [hr]
    exact inv_attach hinv hr hidle
  | openRing i writable =>
    obtain ⟨r, hr, hidle⟩ := he
    have hr : s.instances[i]? = some r := hr
    simp only [next]
    rw [hr]
    cases hm : s.mapping with
    | none => exact hinv
    | some h => exact inv_openRing hinv hm hr hidle
  | close i =>
    obtain ⟨r, hr, hidle⟩ := he
    have hr : s.instances[i]? = some r := hr
    simp only [next]
    rw [hr]
    exact inv_close hinv hr hidle
  | run i live => exact inv_run hinv he hc
  | writeFrame i src info qpc =>
    obtain ⟨r, hr, hidle⟩ := he
    have hr : s.instances[i]? = some r := hr
    simp only [next]
    rw [hr]
    exact inv_writeFrame hinv hr hidle
  | loadSeq i =>
    obtain ⟨r, hr, hidle, hview⟩ := he
    have hr : s.instances[i]? = some r := hr
    simp only [next]
    rw [hr]
    cases hm : s.mapping with
    | none => exact hinv
    | some h => exact inv_loadSeq hinv hm hr hidle hview
  | readSlot i dstCapacity =>
    obtain ⟨r, hr, hidle, -⟩ := he
    have hr : s.instances[i]? = some r := hr
    simp only [next]
    rw [hr]
    exact inv_seq hinv hr hidle (fun hsome => by cases hsome) fun seq hx => by cases hx

end Invariant

theorem inv_start : Inv {} :=
  ⟨fun _ hx => (by cases hx), fun _ hm => (by cases hm), fun _ hm => (by cases hm),
    fun _ hx => (by cases hx), fun _ hm => (by cases hm)⟩

theorem sound_of_inv {s : Camera} (h : Inv s) : Sound s := by
  refine ⟨h.count, fun hnone => ?_, fun r hr hidle src info qpc hok => ?_,
    fun r hr => (h.placed r hr).current, ?_, h.own, fun r hr howner header hm => ?_,
    fun r hr header hm => ?_⟩
  · have hview : ∀ r ∈ s.instances, r.view = false := fun r hr => by
      by_contra hv
      have hsome := (h.placed r hr).mapped (Bool.of_not_eq_false hv)
      rw [hnone] at hsome
      cases hsome
    refine ⟨List.countP_eq_zero.mpr fun r hr howner => ?_,
      List.countP_eq_zero.mpr fun r hr hclaim => ?_⟩
    · have hv := ((h.placed r hr).owner howner).1
      rw [hview r hr] at hv
      cases hv
    · have hv := ((h.placed r hr).claim hclaim).1
      rw [hview r hr] at hv
      cases hv
  · rcases writeFrame_spec r s.mapping src info qpc with ⟨hno, -⟩ |
      ⟨hview, header, bytes, hm, hpublish, -⟩
    · exact absurd hok hno
    · obtain ⟨-, hactive, hgen, -⟩ :=
        (publish_spec header r.consumerGeneration bytes info qpc).resolve_left hpublish
      refine ⟨?_, header, hm, hgen⟩
      rw [← h.count header hm]
      exact Nat.pos_of_ne_zero (by simpa [RingHeader.hasActiveConsumer] using hactive)
  · cases hm : s.mapping with
    | none =>
      have hzero : s.claims = 0 := List.countP_eq_zero.mpr fun r hr hclaim => by
        have hsome := (h.placed r hr).mapped ((h.placed r hr).claim hclaim).1
        rw [hm] at hsome
        cases hsome
      omega
    | some header =>
      rw [h.claims header hm]
      split_ifs <;> omega
  · have hpos : 0 < header.consumerCount := by
      rw [h.count header hm]
      exact pos_of_mem hr howner
    refine ⟨hpos, ?_⟩
    rw [← h.count header hm]
    exact if_neg (by omega)
  · unfold RingHeader.closeProducer
    split_ifs with hown
    · exact .inl hown
    · exact .inr rfl

/-- **The lifetimes**, in every run of calls that does not exhaust the generations. -/
theorem lifetimes_of_run (as : List Action) (h : camera.Legal unwrapped {} as) :
    Sound (camera.exec {} as) :=
  sound_of_inv (h.invariant inv_start fun _ _ hi he hc => inv_next hi he hc)

def process (pid startTime : ℕ) (h : pid ≠ 0) : Process := ⟨pid, startTime, h⟩

/-- A consumer and a producer that publishes; the consumer closes and another one comes, of the next
generation. -/
def replaced : List Action :=
  [.construct (process 4 1 (by decide)), .construct (process 7 2 (by decide)),
    .construct (process 9 3 (by decide)), .create 0, .run 0 false, .openRing 1 true, .run 1 false,
    .writeFrame 1 (some [1, 2, 3, 4, 5, 6]) { width := 2, height := 2, stride := 2 } 0, .loadSeq 0,
    .readSlot 0 64, .close 0, .run 0 true, .run 0 true, .create 2, .run 2 true, .run 0 true,
    .loadSeq 2]

theorem lifetimes_of_replaced :
    (camera.exec {} replaced).mapping.map (·.consumerGeneration) = some 2 ∧
      Sound (camera.exec {} replaced) :=
  ⟨by decide +kernel, lifetimes_of_run replaced (by decide +kernel)⟩

end RemoteCam.Ring.Lifetime
