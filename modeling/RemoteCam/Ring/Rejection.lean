import RemoteCam.Ring.ReadLatest

/-! # What `readLatest` turns down

The exits of a call of `readLatest`, on the machine of `writeFrame`, `create` and `readLatest`. The
reader judges the size and the geometry of a slot before it looks at the slot's sequence again, so
what it judges may be of two frames, or of a slot that is being reset.

`served_of_run`: where all frames are sane and fit, a call ends with a frame, with nothing
published, or contended, in runs where an attempt loads the geometry of the frame whose size it has
loaded, and finds a format in the header. -/

namespace RemoteCam.Ring.Rejection

open RemoteCam.Lib.Transitions
open RemoteCam.Ring.ShmRing RemoteCam.Ring.ReadLatest

/-! ### Exits -/

/-- `sFalse` three times: nothing published, eight attempts contended, and geometry rejected. -/
inductive Exit where
  | sOk
  | nothing
  | contended
  | insufficientBuffer
  | rejected
  deriving DecidableEq, Repr

/-- After the eighth attempt the call ends. -/
def exhausted (a : Attempt) : Option Exit := if a.attempt + 1 < 8 then none else some .contended

/-- How the next access ends the call, if it does. -/
def exit (s : Shared) (a : Attempt) : Option Exit :=
  let slot := s.slotAt a.seq
  match a.looking with
  | .loadSeq => if s.ring.writeSeq = 0 then some .nothing else none
  | .loadSlotSeq => if slot.slotSeq % 2 = 1 then exhausted a else none
  | .loadBytesUsed =>
    if slot.slotBytesUsed = 0 ∨ slot.slotBytesUsed > kRingSlotBytes then exhausted a
    else if slot.slotBytesUsed > a.dstCapacity then some .insufficientBuffer
    else none
  | .loadPts =>
    if !geometryIsSane { a.candidate with ptsMicros := slot.slotPts } then some .rejected else none
  | .copy =>
    if a.dst.length < a.candidate.bytesUsed then none
    else if slot.slotSeq ≠ a.before then exhausted a
    else some .sOk
  | _ => none

theorem retry_eq_none_iff (a : Attempt) : Shared.retry a = none ↔ exhausted a ≠ none := by
  unfold Shared.retry exhausted
  split_ifs <;> simp

/-- The call is over after an access that is an exit. -/
theorem reader_lookNext_eq_none_iff (s : Shared) (a : Attempt) :
    (s.lookNext a).reader = none ↔ exit s a ≠ none := by
  unfold Shared.lookNext exit
  cases a.looking with
  | loadWidth | loadHeight | loadStride | loadFormat => simp
  | _ =>
    dsimp only
    split_ifs <;> simp [retry_eq_none_iff]

/-- The frame has sane geometry and fits. -/
structure Good (capacity : ℕ) (f : Frame) : Prop where
  sane : geometryIsSane (f.infoOf 0) = true
  fits : f.src.length ≤ capacity

/-- The call does not end because of a frame: it ends with one, or before the first of the
generation, or contended. -/
def Served (s : Shared) : Action → Prop
  | .look => ∀ a ∈ s.reader, ∀ e ∈ exit s a, e ≠ .insufficientBuffer ∧ e ≠ .rejected ∧
      (e = .nothing → ∀ p ∈ s.published, p.generation ≠ s.generation)
  | _ => True

/-! ### The machine, with the frames that the sizes are of -/

structure State where
  shared : Shared := {}
  /-- Ghost: the frame whose size the slot has. -/
  sized : Fin 4 → Option Frame := fun _ => none
  /-- Ghost: the frame whose size the attempt has loaded. -/
  taken : Option Frame := none

/-- The store of a size. -/
def sizedBy (sized : Fin 4 → Option Frame) : Block → Fin 4 → Option Frame
  | .writeFrame f (.fill seq _ (.bytesUsed _ :: _)) => Function.update sized (slotIndex seq) (some f)
  | .create (.reset (.slot k (.bytesUsed _) :: _)) => Function.update sized k none
  | _ => sized

def next (s : State) (x : Action) : State :=
  { shared := ReadLatest.next s.shared x
    sized := match x, s.shared.held with
      | .block, some b => sizedBy s.sized b
      | _, _ => s.sized
    taken := match x, s.shared.reader with
      | .look, some a =>
        if a.looking = .loadBytesUsed then s.sized (slotIndex (a.seq - 1)) else s.taken
      | _, _ => s.taken }

def reading : Machine State Action := ⟨fun s x => ReadLatest.enabled s.shared x, next⟩

/-- An attempt loads the geometry of the frame whose size it has loaded, and a format. -/
def State.steadyLook (s : State) (a : Attempt) : Prop :=
  let slot := s.shared.slotAt a.seq
  match a.looking with
  | .loadWidth => ∀ f ∈ s.taken, slot.slotWidth = f.info.width
  | .loadHeight => ∀ f ∈ s.taken, slot.slotHeight = f.info.height
  | .loadStride => ∀ f ∈ s.taken, slot.slotStride = f.info.stride
  | .loadFormat => s.shared.ring.format = kFourccNv12
  | _ => True

def steady (s : State) : Action → Prop
  | .look => ∀ a ∈ s.shared.reader, s.steadyLook a
  | .block => ∀ b ∈ s.shared.held, b.counts
  | _ => True

/-- The frames are good for all buffers. -/
def suits (capacity : ℕ) : Action → Prop
  | .writeFrame f => Good capacity f
  | .readLatest dstCapacity => capacity ≤ dstCapacity
  | _ => True

/-! ### The invariant -/

def Block.good (capacity : ℕ) : Block → Prop
  | .writeFrame f (.fill _ _ todo) =>
    Good capacity f ∧ ∀ v, .bytesUsed v ∈ todo → v = f.src.length
  | .writeFrame f _ => Good capacity f
  | .create (.reset todo) => ∀ word ∈ todo, word.empties
  | .create _ => True

/-- What an attempt has loaded by then is of the frame whose size it has loaded. -/
structure Judging (capacity rank : ℕ) (candidate : FrameInfo) (f : Frame) : Prop where
  good : Good capacity f
  bytesUsed : candidate.bytesUsed = f.src.length
  width : 3 < rank → candidate.width = f.info.width
  height : 4 < rank → candidate.height = f.info.height
  stride : 5 < rank → candidate.stride = f.info.stride
  format : 6 < rank → candidate.format = kFourccNv12

structure Inv (capacity : ℕ) (s : Shared) (sized : Fin 4 → Option Frame) (taken : Option Frame) :
    Prop where
  sizes : ∀ k, (s.ring.slots k).slotBytesUsed = (sized k).elim 0 (·.src.length)
  good : ∀ k, ∀ f ∈ sized k, Good capacity f
  block : ∀ b ∈ s.held, Block.good capacity b
  counted : ∀ p ∈ s.published, p.generation ≤ s.generation ∧
    (p.generation = s.generation → s.ring.writeSeq ≠ 0)
  buffer : ∀ a ∈ s.reader, capacity ≤ a.dstCapacity
  attempt : ∀ a ∈ s.reader, 2 < a.looking.rank →
    ∃ f ∈ taken, Judging capacity a.looking.rank a.candidate f

/-- Geometry is sane whatever the number and the time. -/
theorem geometryIsSane_congr {i j : FrameInfo} (hwidth : i.width = j.width)
    (hheight : i.height = j.height) (hstride : i.stride = j.stride) (hformat : i.format = j.format)
    (hbytesUsed : i.bytesUsed = j.bytesUsed) : geometryIsSane i = geometryIsSane j := by
  unfold geometryIsSane
  simp only [hwidth, hheight, hstride, hformat, hbytesUsed]

theorem Judging.sane {capacity rank : ℕ} {candidate : FrameInfo} {f : Frame}
    (h : Judging capacity rank candidate f) (hrank : 6 < rank) (pts : ℕ) :
    geometryIsSane { candidate with ptsMicros := pts } = true := by
  have hformat : (f.infoOf 0).format = kFourccNv12 := format_of_sane h.good.sane
  rw [← h.good.sane]
  exact geometryIsSane_congr (h.width (by omega)) (h.height (by omega)) (h.stride (by omega))
    ((h.format hrank).trans hformat.symm) h.bytesUsed

section Steps
variable {capacity : ℕ} {s : Shared} {sized : Fin 4 → Option Frame} {taken : Option Frame}

/-- A step of a block that stores no size and counts nothing. -/
theorem Inv.keep (h : Inv capacity s sized taken) {s' : Shared}
    (hsizes : ∀ k, (s'.ring.slots k).slotBytesUsed = (s.ring.slots k).slotBytesUsed)
    (hseq : s'.ring.writeSeq = s.ring.writeSeq) (hgeneration : s'.generation = s.generation)
    (hpublished : s'.published = s.published) (hreader : s'.reader = s.reader)
    (hblock : ∀ b ∈ s'.held, Block.good capacity b) : Inv capacity s' sized taken := by
  refine ⟨fun k => (hsizes k).trans (h.sizes k), h.good, hblock, ?_, ?_, ?_⟩
  · rw [hseq, hgeneration, hpublished]
    exact h.counted
  · rw [hreader]
    exact h.buffer
  · rw [hreader]
    exact h.attempt

theorem slotBytesUsed_storeSlotSeq (s : Shared) (k j : Fin 4) (v : ℕ) :
    ((s.storeSlotSeq k v).ring.slots j).slotBytesUsed = (s.ring.slots j).slotBytesUsed := by
  unfold Shared.storeSlotSeq
  dsimp only
  rw [Function.update_apply]
  split_ifs with hj
  · rw [hj]
  · rfl

theorem slotBytesUsed_storeSlot (s : Shared) (k j : Fin 4) (store : SlotStore) :
    ((s.storeSlot k store).ring.slots j).slotBytesUsed =
      if j = k then (store.put (s.ring.slots k)).slotBytesUsed
      else (s.ring.slots j).slotBytesUsed := by
  unfold Shared.storeSlot
  dsimp only
  rw [Function.update_apply]
  split_ifs <;> rfl

/-- A store of the size, of the frame or of 0. -/
theorem Inv.size (h : Inv capacity s sized taken) (k : Fin 4) (v : ℕ) (o : Option Frame)
    (hv : v = o.elim 0 (·.src.length)) (hgood : ∀ f ∈ o, Good capacity f) {b : Block}
    (hb : Block.good capacity b) :
    Inv capacity { s.storeSlot k (.bytesUsed v) with held := some b }
      (Function.update sized k o) taken := by
  refine ⟨fun j => ?_, fun j => ?_, ?_, h.counted, h.buffer, h.attempt⟩
  · rw [show ({ s.storeSlot k (.bytesUsed v) with held := some b } : Shared).ring =
      (s.storeSlot k (.bytesUsed v)).ring from rfl, slotBytesUsed_storeSlot, Function.update_apply]
    split_ifs
    · exact hv
    · exact h.sizes j
  · rw [Function.update_apply]
    split_ifs
    · exact hgood
    · exact h.good j
  · intro b' hb'
    obtain rfl := Option.some.inj hb'
    exact hb

/-- A store to a slot that is not one of the size. -/
theorem Inv.store (h : Inv capacity s sized taken) (k : Fin 4) {store : SlotStore}
    (hstore : ∀ v, store ≠ .bytesUsed v) {b : Block} (hb : Block.good capacity b) :
    Inv capacity { s.storeSlot k store with held := some b } sized taken := by
  refine h.keep (fun j => ?_) rfl rfl rfl rfl fun b' hb' => ?_
  · rw [show ({ s.storeSlot k store with held := some b } : Shared).ring =
      (s.storeSlot k store).ring from rfl, slotBytesUsed_storeSlot]
    split_ifs with hj
    · rw [hj]
      cases store with
      | bytesUsed v => exact absurd rfl (hstore v)
      | _ => rfl
    · rfl
  · obtain rfl := Option.some.inj hb'
    exact hb

/-- The sizes that a frame stores. -/
theorem bytesUsed_mem_stores {f : Frame} {v : ℕ} (h : .bytesUsed v ∈ f.stores) :
    v = f.src.length := by
  unfold Frame.stores at h
  rw [List.mem_append, List.mem_mapIdx] at h
  obtain ⟨_, _, hbyte⟩ | h := h
  · cases hbyte
  · simpa using h

theorem Inv.writeNext (h : Inv capacity s sized taken) {f : Frame} {w : Writing}
    (hheld : s.held = some (.writeFrame f w)) (hcounts : (Block.writeFrame f w).counts) :
    Inv capacity (s.writeNext f w) (sizedBy sized (.writeFrame f w)) taken := by
  have hblock := h.block _ hheld
  have hrelease : Inv capacity s.release sized taken :=
    h.keep (fun _ => rfl) rfl rfl rfl rfl fun _ hb => (by cases hb)
  have hgoto (w' : Writing) (hw : Block.good capacity (.writeFrame f w')) :
      Inv capacity (s.gotoWrite f w') sized taken :=
    h.keep (fun _ => rfl) rfl rfl rfl rfl fun b hb => by
      obtain rfl := Option.some.inj hb
      exact hw
  have hgood : Good capacity f := by
    cases w with
    | fill => exact hblock.1
    | _ => exact hblock
  cases w with
  | loadMagic =>
    rw [Shared.writeNext]
    split_ifs
    · exact hrelease
    · exact hgoto _ hgood
  | loadCount =>
    rw [Shared.writeNext]
    split_ifs
    · exact hrelease
    · exact hgoto _ hgood
  | loadGeneration =>
    rw [Shared.writeNext]
    split_ifs
    · exact hrelease
    · exact hgoto _ hgood
  | loadWriteSeq => exact hgoto _ hgood
  | loadSlotSeq seq => exact hgoto _ hgood
  | markOdd seq slotSeq =>
    refine h.keep (slotBytesUsed_storeSlotSeq s _ · _) rfl rfl rfl rfl fun b hb => ?_
    obtain rfl := Option.some.inj hb
    exact ⟨hgood, fun _ => bytesUsed_mem_stores⟩
  | fill seq writing todo =>
    cases todo with
    | nil =>
      rw [Shared.writeNext]
      split_ifs
      · exact hrelease
      · exact hgoto _ hgood
    | cons store todo =>
      have hrest : Block.good capacity (.writeFrame f (.fill seq writing todo)) :=
        ⟨hgood, fun v hv => hblock.2 v (List.mem_cons_of_mem _ hv)⟩
      cases store with
      | bytesUsed v =>
        exact h.size (slotIndex seq) v (some f) (hblock.2 v List.mem_cons_self)
          (fun f' hf' => Option.some.inj hf' ▸ hgood) hrest
      | _ => exact h.store (slotIndex seq) (fun _ heq => (by cases heq)) hrest
  | reloadGeneration seq writing =>
    rw [Shared.writeNext]
    split_ifs
    · exact hrelease
    · exact hgoto _ hgood
  | markEven seq writing =>
    refine h.keep (slotBytesUsed_storeSlotSeq s _ · _) rfl rfl rfl rfl fun b hb => ?_
    obtain rfl := Option.some.inj hb
    exact hgood
  | compare seq todo =>
    cases todo with
    | nil => exact h.keep (fun _ => rfl) rfl rfl rfl rfl fun b hb => Option.some.inj hb ▸ hgood
    | cons g todo =>
      rw [Shared.writeNext]
      split_ifs
      · exact hgoto _ hgood
      · exact hgoto _ hgood
  | republish seq todo =>
    cases todo with
    | nil => exact h.keep (fun _ => rfl) rfl rfl rfl rfl fun b hb => Option.some.inj hb ▸ hgood
    | cons g todo =>
      cases g <;>
      exact h.keep (fun _ => rfl) rfl rfl rfl rfl fun b hb => Option.some.inj hb ▸ hgood
  | storeSeq seq =>
    have hseq : u64 (seq + 1) ≠ 0 := by
      have hlt : seq + 1 < 2 ^ 64 := hcounts
      rw [u64, Nat.mod_eq_of_lt hlt]
      exact Nat.succ_ne_zero seq
    refine ⟨h.sizes, h.good, fun _ hb => (by cases hb), fun p hp => ?_, h.buffer, h.attempt⟩
    obtain hp | hp := List.mem_append.mp hp
    · exact ⟨(h.counted p hp).1, fun _ => hseq⟩
    · rw [List.mem_singleton.mp hp]
      exact ⟨Nat.le_refl _, fun _ => hseq⟩

theorem Inv.clear (h : Inv capacity s sized taken) {word : Word} {todo : List Word}
    (hheld : s.held = some (.create (.reset (word :: todo)))) :
    Inv capacity ((s.clear word).gotoCreate (.reset todo))
      (sizedBy sized (.create (.reset (word :: todo)))) taken := by
  have hblock : ∀ word' ∈ word :: todo, word'.empties := h.block _ hheld
  have hrest : Block.good capacity (.create (.reset todo)) :=
    fun word' hword' => hblock word' (List.mem_cons_of_mem _ hword')
  have hheld' : ∀ b ∈ some (Block.create (.reset todo)), Block.good capacity b := fun b hb =>
    Option.some.inj hb ▸ hrest
  cases word with
  | writeSeq =>
    refine ⟨h.sizes, h.good, hheld', fun p hp => ?_, h.buffer, h.attempt⟩
    have hle := (h.counted p hp).1
    exact ⟨Nat.le_succ_of_le hle, fun heq => absurd heq (Nat.ne_of_lt (Nat.lt_succ_of_le hle))⟩
  | slotSeq k => exact h.keep (slotBytesUsed_storeSlotSeq s k · 0) rfl rfl rfl rfl hheld'
  | slot k store =>
    cases store with
    | bytesUsed v =>
      exact h.size k v none (hblock (.slot k (.bytesUsed v)) List.mem_cons_self) nofun hrest
    | _ => exact h.store k (fun _ heq => (by cases heq)) hrest
  | geometry g => cases g <;> exact h.keep (fun _ => rfl) rfl rfl rfl rfl hheld'
  | _ => exact h.keep (fun _ => rfl) rfl rfl rfl rfl hheld'

theorem Inv.createNext (h : Inv capacity s sized taken) {c : Creating}
    (hheld : s.held = some (.create c)) :
    Inv capacity (s.createNext c) (sizedBy sized (.create c)) taken := by
  have hrelease : Inv capacity s.release sized taken :=
    h.keep (fun _ => rfl) rfl rfl rfl rfl fun _ hb => (by cases hb)
  have hgoto (ring : RingHeader) (c' : Creating) (hslots : ring.slots = s.ring.slots)
      (hseq : ring.writeSeq = s.ring.writeSeq) (hc : Block.good capacity (.create c')) :
      Inv capacity { s with ring := ring, held := some (.create c') } sized taken :=
    h.keep (fun k => by rw [hslots]) hseq rfl rfl rfl fun b hb => Option.some.inj hb ▸ hc
  have hreset : Block.good capacity (.create (.reset (resetPublishedFrames ++ resetRequested))) :=
    (by decide : ∀ word ∈ resetPublishedFrames ++ resetRequested, word.empties)
  cases c with
  | loadMagic =>
    rw [Shared.createNext]
    split_ifs
    · exact hrelease
    · exact hgoto s.ring .loadCount rfl rfl trivial
  | loadCount =>
    rw [Shared.createNext]
    split_ifs
    · exact hgoto s.ring .bumpGeneration rfl rfl trivial
    · exact hrelease
    · exact hgoto s.ring (.attach _) rfl rfl trivial
  | bumpGeneration =>
    rw [Shared.createNext]
    dsimp only
    split_ifs
    · exact hgoto { s.ring with consumerGeneration := u32 (s.ring.consumerGeneration + 1) }
        .skipZero rfl rfl trivial
    · exact hgoto { s.ring with consumerGeneration := u32 (s.ring.consumerGeneration + 1) }
        (.reset _) rfl rfl hreset
  | skipZero => exact hgoto { s.ring with consumerGeneration := 1 } (.reset _) rfl rfl hreset
  | reset todo =>
    cases todo with
    | nil => exact h.keep (fun _ => rfl) rfl rfl rfl rfl fun _ hb => (by cases hb)
    | cons word todo => exact h.clear hheld
  | attach count => exact h.keep (fun _ => rfl) rfl rfl rfl rfl fun _ hb => (by cases hb)

/-- The reader changes nothing but its attempt. -/
theorem Inv.look (h : Inv capacity s sized taken) {s' : Shared} {taken' : Option Frame}
    (hring : s'.ring = s.ring) (hgeneration : s'.generation = s.generation)
    (hpublished : s'.published = s.published) (hheld : s'.held = s.held)
    (hattempt : ∀ a ∈ s'.reader, capacity ≤ a.dstCapacity ∧
      (2 < a.looking.rank → ∃ f ∈ taken', Judging capacity a.looking.rank a.candidate f)) :
    Inv capacity s' sized taken' := by
  refine ⟨?_, h.good, ?_, ?_, fun a ha => (hattempt a ha).1, fun a ha => (hattempt a ha).2⟩
  · rw [hring]
    exact h.sizes
  · rw [hheld]
    exact h.block
  · rw [hring, hgeneration, hpublished]
    exact h.counted

theorem retry_capacity {a a' : Attempt} (h : a' ∈ Shared.retry a) :
    a'.dstCapacity = a.dstCapacity ∧ a'.looking = .loadSeq := by
  unfold Shared.retry at h
  split_ifs at h
  · obtain rfl := Option.some.inj h
    exact ⟨rfl, rfl⟩
  · cases h

end Steps

/-! ### Runs -/

section
variable {capacity : ℕ} {s : State} {a : Attempt}

theorem Inv.lookNext (h : Inv capacity s.shared s.sized s.taken) (hreader : s.shared.reader = some a)
    (hsteady : s.steadyLook a) {taken : Option Frame}
    (hsize : a.looking = .loadBytesUsed → taken = s.sized (slotIndex (a.seq - 1)))
    (hsame : a.looking ≠ .loadBytesUsed → taken = s.taken) :
    Inv capacity (s.shared.lookNext a) s.sized taken := by
  have hcapacity := h.buffer a hreader
  have hattempt := h.attempt a hreader
  have hdone : Inv capacity { s.shared with reader := none } s.sized taken :=
    h.look rfl rfl rfl rfl fun _ ha => (by cases ha)
  have hretry : Inv capacity { s.shared with reader := Shared.retry a } s.sized taken :=
    h.look rfl rfl rfl rfl fun a' ha' => by
      obtain ⟨hcap, hlooking⟩ := retry_capacity ha'
      rw [hcap, hlooking]
      exact ⟨hcapacity, fun hrank => absurd hrank (by decide)⟩
  have hgo (rank : ℕ) {a' : Attempt} (hcap : a'.dstCapacity = a.dstCapacity)
      (hrank : a'.looking.rank = rank)
      (hjudging : 2 < rank → ∃ f ∈ taken, Judging capacity rank a'.candidate f) :
      Inv capacity { s.shared with reader := some a' } s.sized taken :=
    h.look rfl rfl rfl rfl fun a'' ha'' => by
      obtain rfl := Option.some.inj ha''
      exact ⟨hcap ▸ hcapacity, hrank ▸ hjudging⟩
  unfold State.steadyLook at hsteady
  unfold Shared.lookNext
  cases hlooking : a.looking with
  | loadSeq =>
    dsimp only
    split_ifs
    · exact hdone
    · exact hgo 1 rfl rfl fun hrank => absurd hrank (by decide)
  | loadSlotSeq =>
    dsimp only
    split_ifs
    · exact hretry
    · exact hgo 2 rfl rfl fun hrank => absurd hrank (by decide)
  | loadBytesUsed =>
    dsimp only
    split_ifs with hbytes hfits
    · exact hretry
    · exact hdone
    · refine hgo 3 rfl rfl fun _ => ?_
      have hstored := h.sizes (slotIndex (a.seq - 1))
      rw [hsize hlooking]
      cases hsized : s.sized (slotIndex (a.seq - 1)) with
      | none =>
        rw [hsized] at hstored
        exact absurd (.inl hstored) hbytes
      | some f =>
        rw [hsized] at hstored
        exact ⟨f, rfl, h.good _ f hsized, hstored, fun hrank => absurd hrank (by decide),
          fun hrank => absurd hrank (by decide), fun hrank => absurd hrank (by decide),
          fun hrank => absurd hrank (by decide)⟩
  | loadWidth =>
    rw [hlooking] at hsteady hattempt
    obtain ⟨f, hf, hj⟩ := hattempt (by decide)
    exact hgo 4 rfl rfl fun _ => ⟨f, hsame (by simp [hlooking]) ▸ hf, hj.good, hj.bytesUsed,
      fun _ => hsteady f hf, fun hrank => absurd hrank (by decide),
      fun hrank => absurd hrank (by decide), fun hrank => absurd hrank (by decide)⟩
  | loadHeight =>
    rw [hlooking] at hsteady hattempt
    obtain ⟨f, hf, hj⟩ := hattempt (by decide)
    exact hgo 5 rfl rfl fun _ => ⟨f, hsame (by simp [hlooking]) ▸ hf, hj.good, hj.bytesUsed,
      fun _ => hj.width (by decide), fun _ => hsteady f hf, fun hrank => absurd hrank (by decide),
      fun hrank => absurd hrank (by decide)⟩
  | loadStride =>
    rw [hlooking] at hsteady hattempt
    obtain ⟨f, hf, hj⟩ := hattempt (by decide)
    exact hgo 6 rfl rfl fun _ => ⟨f, hsame (by simp [hlooking]) ▸ hf, hj.good, hj.bytesUsed,
      fun _ => hj.width (by decide), fun _ => hj.height (by decide), fun _ => hsteady f hf,
      fun hrank => absurd hrank (by decide)⟩
  | loadFormat =>
    rw [hlooking] at hsteady hattempt
    obtain ⟨f, hf, hj⟩ := hattempt (by decide)
    exact hgo 7 rfl rfl fun _ => ⟨f, hsame (by simp [hlooking]) ▸ hf, hj.good, hj.bytesUsed,
      fun _ => hj.width (by decide), fun _ => hj.height (by decide), fun _ => hj.stride (by decide),
      fun _ => hsteady⟩
  | loadPts =>
    rw [hlooking] at hattempt
    obtain ⟨f, hf, hj⟩ := hattempt (by decide)
    dsimp only
    split_ifs
    · exact hdone
    · exact hgo 8 rfl rfl fun _ => ⟨f, hsame (by simp [hlooking]) ▸ hf, hj.good, hj.bytesUsed,
        fun _ => hj.width (by decide), fun _ => hj.height (by decide),
        fun _ => hj.stride (by decide), fun _ => hj.format (by decide)⟩
  | copy =>
    dsimp only
    split_ifs
    · rw [hlooking] at hattempt
      exact hgo 8 rfl rfl fun hrank =>
        hsame (by simp [hlooking]) ▸ hattempt hrank
    · exact hretry
    · exact h.look rfl rfl rfl rfl fun _ ha => (by cases ha)

theorem Inv.next {x : Action} (h : Inv capacity s.shared s.sized s.taken) (hsteady : steady s x)
    (hsuits : suits capacity x) :
    Inv capacity (next s x).shared (next s x).sized (next s x).taken := by
  cases x with
  | openProducer => exact h.keep (fun _ => rfl) rfl rfl rfl rfl h.block
  | writeFrame f =>
    exact h.keep (fun _ => rfl) rfl rfl rfl rfl fun b hb => Option.some.inj hb ▸ hsuits
  | create => exact h.keep (fun _ => rfl) rfl rfl rfl rfl fun b hb => Option.some.inj hb ▸ trivial
  | close => exact h.keep (fun _ => rfl) rfl rfl rfl rfl h.block
  | block =>
    unfold Rejection.next ReadLatest.next
    cases hheld : s.shared.held with
    | none => exact h
    | some b =>
      have hcounts : b.counts := hsteady b hheld
      cases b with
      | writeFrame f w => exact h.writeNext hheld hcounts
      | create c => exact h.createNext hheld
  | readLatest dstCapacity =>
    refine h.look rfl rfl rfl rfl fun a ha => ?_
    obtain rfl := Option.some.inj ha
    exact ⟨hsuits, fun hrank => absurd (show 2 < 0 from hrank) (by decide)⟩
  | look =>
    unfold Rejection.next ReadLatest.next
    cases hreader : s.shared.reader with
    | none => exact h
    | some a =>
      exact h.lookNext hreader (hsteady a hreader) (fun heq => if_pos heq) fun hne => if_neg hne

theorem eq_contended_of_mem {e : Exit} (h : e ∈ exhausted a) : e = .contended := by
  unfold exhausted at h
  split_ifs at h
  · cases h
  · exact (Option.some.inj h).symm

/-- An attempt ends as it should. -/
theorem Inv.served {x : Action} (h : Inv capacity s.shared s.sized s.taken) : Served s.shared x := by
  cases x with
  | look =>
    intro a ha e he
    have hattempt := h.attempt a ha
    have hcapacity := h.buffer a ha
    have hcontended (hmem : e ∈ exhausted a) : e ≠ .insufficientBuffer ∧ e ≠ .rejected ∧
        (e = .nothing → ∀ p ∈ s.shared.published, p.generation ≠ s.shared.generation) := by
      rw [eq_contended_of_mem hmem]
      exact ⟨nofun, nofun, nofun⟩
    unfold exit at he
    cases hlooking : a.looking with
    | loadSeq =>
      rw [hlooking] at he
      dsimp only at he
      split_ifs at he with hzero
      · obtain rfl := Option.some.inj he
        exact ⟨nofun, nofun, fun _ p hp heq => (h.counted p hp).2 heq hzero⟩
      · cases he
    | loadSlotSeq =>
      rw [hlooking] at he
      dsimp only at he
      split_ifs at he
      · exact hcontended he
      · cases he
    | loadBytesUsed =>
      rw [hlooking] at he
      dsimp only at he
      split_ifs at he with hbytes hfits
      · exact hcontended he
      · have hsize := h.sizes (slotIndex (a.seq - 1))
        have hlarge : capacity < (s.shared.ring.slots (slotIndex (a.seq - 1))).slotBytesUsed :=
          Nat.lt_of_le_of_lt hcapacity hfits
        cases hsized : s.sized (slotIndex (a.seq - 1)) with
        | none =>
          rw [hsized] at hsize
          exact absurd (.inl hsize) hbytes
        | some f =>
          rw [hsize, hsized] at hlarge
          exact absurd (h.good _ f hsized).fits (Nat.not_le_of_lt hlarge)
      · cases he
    | loadPts =>
      rw [hlooking] at he hattempt
      obtain ⟨f, hf, hj⟩ := hattempt (by decide)
      dsimp only at he
      rw [hj.sane (by decide)] at he
      cases he
    | copy =>
      rw [hlooking] at he
      dsimp only at he
      split_ifs at he
      · cases he
      · exact hcontended he
      · obtain rfl := Option.some.inj he
        exact ⟨nofun, nofun, nofun⟩
    | loadWidth | loadHeight | loadStride | loadFormat =>
      rw [hlooking] at he
      cases he
  | _ => trivial

end

theorem inv_init (capacity : ℕ) : Inv capacity {} (fun _ => none) none :=
  ⟨fun _ => rfl, fun _ _ hf => (by cases hf), fun _ hb => (by cases hb), fun _ hp => (by cases hp),
    fun _ ha => (by cases ha), fun _ ha => (by cases ha)⟩

instance (s : State) (x : Action) : Decidable (reading.enabled s x) :=
  inferInstanceAs (Decidable (ReadLatest.enabled s.shared x))

instance (s : State) (a : Attempt) : Decidable (s.steadyLook a) := by
  unfold State.steadyLook
  exact a.looking.casesOn (.isTrue trivial) (.isTrue trivial) (.isTrue trivial)
    (Option.decidableForallMem _) (Option.decidableForallMem _) (Option.decidableForallMem _)
    (Nat.decEq _ _) (.isTrue trivial) (.isTrue trivial)

instance (s : State) (x : Action) : Decidable (steady s x) :=
  x.casesOn (.isTrue trivial) (fun _ => .isTrue trivial) (.isTrue trivial) (.isTrue trivial)
    (Option.decidableForallMem _) (fun _ => .isTrue trivial) (Option.decidableForallMem _)

instance (capacity : ℕ) (f : Frame) : Decidable (Good capacity f) :=
  decidable_of_iff (geometryIsSane (f.infoOf 0) = true ∧ f.src.length ≤ capacity)
    ⟨fun h => ⟨h.1, h.2⟩, fun h => ⟨h.sane, h.fits⟩⟩

instance (capacity : ℕ) (x : Action) : Decidable (suits capacity x) :=
  x.casesOn (.isTrue trivial) (fun f => inferInstanceAs (Decidable (Good capacity f)))
    (.isTrue trivial) (.isTrue trivial) (.isTrue trivial) (fun _ => Nat.decLe _ _) (.isTrue trivial)

instance (s : Shared) (x : Action) : Decidable (Served s x) :=
  x.casesOn (.isTrue trivial) (fun _ => .isTrue trivial) (.isTrue trivial) (.isTrue trivial)
    (.isTrue trivial) (fun _ => .isTrue trivial) (Option.decidableForallMem _)

/-- A frame of four by two pixels. -/
def wide (b : UInt8) : Frame :=
  { src := List.replicate 12 b, info := { width := 4, height := 2, stride := 4 }, qpc := 0 }

/-- The frames become wider while an attempt has loaded the size of the first: it finds the width of
the fifth, which that size does not hold. -/
def widened : List Action :=
  .openProducer :: writing 1 28 ++ .readLatest 12 :: List.replicate 3 .look ++
    (writing 2 26 ++ writing 3 26 ++ writing 4 26 ++ .writeFrame (wide 5) :: List.replicate 34 .block) ++
      List.replicate 5 .look

end RemoteCam.Ring.Rejection
