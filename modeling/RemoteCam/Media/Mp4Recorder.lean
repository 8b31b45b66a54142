import RemoteCam.Lib.Transitions
import RemoteCam.Ring.ShmRing

/-! # The recorder

`Mp4Recorder`: callers of `start` and `stop`, one at a time under `lifecycleMutex_`, any callers of
`enqueue`, and the worker. A step is one critical section of `queueMutex_` or `statusMutex_`, or
what a thread does between two of them; what Windows, the writer and the conversion answer is part
of the action. `enqueue` and the worker's `take` change the queue and the snapshot in one section.
`start` and `discardAndFail` do not: what `Conserved` says fails where a frame comes between the two
sections of `start`, and while two or more frames are between the two of `discardAndFail`. -/

namespace RemoteCam.Media.Mp4Recorder

open RemoteCam.Lib.Transitions
open RemoteCam.Ring.ShmRing (kRingMaxWidth kRingMaxHeight)

/-! ### Data -/

abbrev Path := List Char

inductive HRESULT where
  | S_OK
  | S_FALSE
  | E_POINTER
  | E_INVALIDARG
  | MF_E_INVALIDREQUEST
  | MF_E_NOTACCEPTING
  | ERROR_NOT_ENOUGH_MEMORY
  | other (code : ℤ)
  deriving DecidableEq, Repr

structure Mp4RecorderConfig where
  outputPath : Path := []
  width : ℕ := 1920
  height : ℕ := 1080
  fpsNumerator : ℕ := 30
  fpsDenominator : ℕ := 1
  bitrateBitsPerSecond : ℕ := 12000000
  queueCapacity : ℕ := 4
  deriving DecidableEq, Repr

inductive Mp4RecorderState where
  | idle
  | starting
  | recording
  | finalizing
  | completed
  | failed
  deriving DecidableEq, Repr

inductive Mp4EncoderPath where
  | unknown
  | hardwareTransformsEnabled
  | softwareOnly
  deriving DecidableEq, Repr

structure Mp4RecorderSnapshot where
  state : Mp4RecorderState := .idle
  encoderPath : Mp4EncoderPath := .unknown
  submittedFrames : ℕ := 0
  writtenFrames : ℕ := 0
  droppedFrames : ℕ := 0
  duration100ns : ℤ := 0
  queuedFrames : ℕ := 0
  error : HRESULT := .S_OK
  outputPath : Path := []
  partialPath : Path := []
  deriving DecidableEq, Repr

structure BgraPreviewFrame where
  pixels : List UInt8
  width : ℕ
  height : ℕ
  stride : ℕ
  ptsMicros : ℕ
  deriving DecidableEq, Repr

def kMaximumQueueCapacity : ℕ := 16

def hasMp4Extension (path : Path) : Bool :=
  if path.length < 4 then false
  else (path.drop (path.length - 4)).map Char.toUpper = ['.', 'M', 'P', '4']

def frameDuration (config : Mp4RecorderConfig) : ℕ :=
  10000000 * config.fpsDenominator / config.fpsNumerator

def validateConfig (config : Mp4RecorderConfig) : HRESULT :=
  if config.outputPath = [] ∨ !hasMp4Extension config.outputPath ∨ config.width = 0 ∨
      config.height = 0 ∨ config.width % 2 ≠ 0 ∨ config.height % 2 ≠ 0 ∨
      config.width > kRingMaxWidth ∨ config.height > kRingMaxHeight ∨ config.fpsNumerator = 0 ∨
      config.fpsDenominator = 0 ∨ config.bitrateBitsPerSecond = 0 ∨ config.queueCapacity = 0 ∨
      config.queueCapacity > kMaximumQueueCapacity then
    .E_INVALIDARG
  else if frameDuration config = 0 ∨ config.width * config.height * 4 > 2 ^ 64 - 1 ∨
      config.width * config.height * 3 / 2 > 2 ^ 32 - 1 then
    .E_INVALIDARG
  else .S_OK

def validFrame (frame : BgraPreviewFrame) (config : Mp4RecorderConfig) : Bool :=
  if frame.width ≠ config.width ∨ frame.height ≠ config.height ∨
      frame.stride < frame.width * 4 then
    false
  else frame.stride * frame.height ≤ frame.pixels.length

/-- A name next to the output, of this process and of this recording. -/
def makePartialPath (outputPath : Path) (processId sequence : ℕ) : Path :=
  outputPath.take (outputPath.length - 4) ++ ".partial.".toList ++ (toString processId).toList ++
    ".".toList ++ (toString sequence).toList ++ ".mp4".toList

/-! ### Timestamps -/

def kLongLongMaximum : ℤ := 2 ^ 63 - 1

/-- `origin` is `originMicros_`, once there is one. -/
structure MonotonicTimeline where
  origin : Option ℕ := none
  last : ℤ := -1
  duration : ℤ := 0
  deriving DecidableEq, Repr

def MonotonicTimeline.next (t : MonotonicTimeline) (ptsMicros : ℕ) : ℤ × MonotonicTimeline :=
  match t.origin with
  | none => (0, { t with origin := some ptsMicros, last := 0 })
  | some origin =>
    let delta : ℤ := ptsMicros - origin
    let candidate :=
      if ptsMicros ≥ origin then
        if delta > kLongLongMaximum / 10 then kLongLongMaximum else delta * 10
      else 0
    let minimumNext :=
      if t.last > kLongLongMaximum - t.duration then kLongLongMaximum else t.last + t.duration
    let candidate := if candidate < minimumNext then minimumNext else candidate
    (candidate, { t with last := candidate })

/-! ### The machine -/

/-- What the owner of `lifecycleMutex_` does next: `start` joins the last worker and deletes a stale
file, opens the session, replaces the snapshot and creates the thread, or takes the session back and
says so; `stop` joins the worker. -/
inductive Lifecycle where
  | free
  | joining (config : Mp4RecorderConfig) (partialPath : Path)
  | opening (config : Mp4RecorderConfig) (partialPath : Path)
  | opened (config : Mp4RecorderConfig) (partialPath : Path)
  | ready
  | undoing
  | failing
  | stopping
  deriving DecidableEq, Repr

def Lifecycle.inStart : Lifecycle → Bool
  | .free | .stopping => false
  | _ => true

def Lifecycle.isJoining : Lifecycle → Bool
  | .joining .. => true
  | _ => false

/-- `start` has opened the session and not returned. -/
def Lifecycle.starting : Lifecycle → Bool
  | .opened .. | .ready | .undoing | .failing => true
  | _ => false

/-- Between the two sections of `start`. -/
def Lifecycle.isOpened : Lifecycle → Bool
  | .opened .. => true
  | _ => false

/-- What the worker does next. With `failing` it enters `discardAndFail`; `discarding` is between
the two sections of it. -/
inductive Worker where
  | idle
  | begin
  | opening
  | opened (path : Mp4EncoderPath)
  | looping
  | encoding (frame : BgraPreviewFrame)
  | wrote (timestamp : ℤ)
  | finishing
  | finalizing
  | moving
  | failing (error : HRESULT) (currentFrames : ℕ)
  | discarding (error : HRESULT) (discarded : ℕ)
  deriving DecidableEq, Repr

/-- The frames that the worker has taken from the queue and not accounted for. -/
def Worker.hand : Worker → ℕ
  | .encoding _ | .wrote _ => 1
  | .failing _ currentFrames => currentFrames
  | .discarding _ discarded => discarded
  | _ => 0

/-- The loop has ended, with nothing left in the queue. -/
def Worker.ending : Worker → Bool
  | .finishing | .finalizing | .moving => true
  | _ => false

structure Sys where
  queue : List BgraPreviewFrame := []
  config : Mp4RecorderConfig := {}
  partialPath : Path := []
  sessionActive : Bool := false
  stopRequested : Bool := false
  status : Mp4RecorderSnapshot := {}
  /-- `g_partialSequence`. -/
  partialSequence : ℕ := 0
  lifecycle : Lifecycle := .free
  worker : Worker := .idle
  /-- The worker's own. -/
  timeline : MonotonicTimeline := {}
  deriving DecidableEq, Repr

/-- `start` up to its first section. -/
def start (s : Sys) (requested : Mp4RecorderConfig) (absolute : Option Path) (processId : ℕ) :
    Sys :=
  if validateConfig requested ≠ .S_OK then s
  else
    match absolute with
    | none => s
    | some outputPath =>
      let s := { s with partialSequence := s.partialSequence + 1 }
      if s.sessionActive then s
      else
        { s with
          lifecycle := .joining { requested with outputPath }
            (makePartialPath outputPath processId s.partialSequence) }

/-- The rest of `start`, section by section. -/
def starting (s : Sys) (ok : Bool) : Sys :=
  match s.lifecycle with
  | .joining config partialPath =>
    { s with lifecycle := if ok then .opening config partialPath else .free }
  | .opening config partialPath =>
    { s with
      config
      partialPath
      queue := []
      stopRequested := false
      sessionActive := true
      lifecycle := .opened config partialPath }
  | .opened config partialPath =>
    { s with
      status := { state := .starting, outputPath := config.outputPath, partialPath }
      lifecycle := .ready }
  | .ready =>
    if ok then { s with worker := .begin, lifecycle := .free } else { s with lifecycle := .undoing }
  | .undoing => { s with sessionActive := false, lifecycle := .failing }
  | .failing =>
    { s with
      status :=
        { s.status with
          state := .failed
          error := .ERROR_NOT_ENOUGH_MEMORY
          partialPath := [] }
      lifecycle := .free }
  | .free | .stopping => s

def enqueue (s : Sys) (frame : Option BgraPreviewFrame) : Sys × HRESULT :=
  match frame with
  | none => (s, .E_POINTER)
  | some frame =>
    if !s.sessionActive || s.stopRequested then (s, .MF_E_NOTACCEPTING)
    else if !validFrame frame s.config then (s, .E_INVALIDARG)
    else
      let dropped := decide (s.queue.length ≥ s.config.queueCapacity)
      let queue := (if dropped then s.queue.tail else s.queue) ++ [frame]
      ({ s with
          queue
          status :=
            { s.status with
              submittedFrames := s.status.submittedFrames + 1
              droppedFrames :=
                if dropped then s.status.droppedFrames + 1 else s.status.droppedFrames
              queuedFrames := queue.length } },
        if dropped then .S_FALSE else .S_OK)

def stop (s : Sys) : Sys :=
  { s with
    stopRequested := s.stopRequested || s.sessionActive
    sessionActive := false
    lifecycle := .stopping }

/-- One step of the worker. Its copies of the configuration and the path are those of the session,
which do not change while there is a worker. -/
def work (s : Sys) (answer : Except HRESULT Mp4EncoderPath) : Sys :=
  match s.worker with
  | .idle => s
  | .begin => { s with worker := .opening }
  | .opening =>
    match answer with
    | .ok path => { s with worker := .opened path }
    | .error e => { s with worker := .failing e 0 }
  | .opened path =>
    { s with
      status := { s.status with state := .recording, encoderPath := path }
      timeline := { duration := frameDuration s.config }
      worker := .looping }
  | .looping =>
    match s.queue with
    | [] => if s.stopRequested then { s with worker := .finishing } else s
    | frame :: queue =>
      { s with
        queue
        status := { s.status with queuedFrames := queue.length }
        worker := .encoding frame }
  | .encoding frame =>
    match answer with
    | .ok _ =>
      let (timestamp, timeline) := s.timeline.next frame.ptsMicros
      { s with timeline, worker := .wrote timestamp }
    | .error e => { s with worker := .failing e 1 }
  | .wrote timestamp =>
    { s with
      status :=
        { s.status with
          writtenFrames := s.status.writtenFrames + 1
          duration100ns := timestamp + s.timeline.duration }
      worker := .looping }
  | .finishing => { s with status := { s.status with state := .finalizing }, worker := .finalizing }
  | .finalizing =>
    match answer with
    | .ok _ => { s with worker := .moving }
    | .error e => { s with worker := .failing e 0 }
  | .moving =>
    match answer with
    | .ok _ =>
      { s with
        status :=
          { s.status with
            state := .completed
            error := .S_OK
            queuedFrames := 0
            partialPath := [] }
        worker := .idle }
    | .error e =>
      { s with
        status := { s.status with state := .failed, error := e, queuedFrames := 0 }
        worker := .idle }
  | .failing error currentFrames =>
    { s with
      queue := []
      stopRequested := true
      sessionActive := false
      worker := .discarding error (currentFrames + s.queue.length) }
  | .discarding error discarded =>
    { s with
      status :=
        { s.status with
          state := .failed
          error
          droppedFrames := s.status.droppedFrames + discarded
          queuedFrames := 0
          partialPath := [] }
      worker := .idle }

inductive Action where
  | start (requested : Mp4RecorderConfig) (absolute : Option Path) (processId : ℕ)
  | starting (ok : Bool)
  | enqueue (frame : Option BgraPreviewFrame)
  | stop
  | stopping
  | work (answer : Except HRESULT Mp4EncoderPath)

def next (s : Sys) : Action → Sys
  | .start requested absolute processId => start s requested absolute processId
  | .starting ok => starting s ok
  | .enqueue frame => (enqueue s frame).1
  | .stop => stop s
  | .stopping => { s with lifecycle := .free }
  | .work answer => work s answer

/-- A call of `start` or `stop` waits for the one before it, and joins the worker when it has ended.
-/
def enabled (s : Sys) : Action → Prop
  | .start .. | .stop => s.lifecycle = .free
  | .starting _ =>
    s.lifecycle.inStart = true ∧ (s.lifecycle.isJoining = true → s.worker = .idle)
  | .enqueue _ => True
  | .stopping => s.lifecycle = .stopping ∧ s.worker = .idle
  | .work _ => s.worker ≠ .idle ∧ (s.worker = .looping → s.stopRequested = true ∨ s.queue ≠ [])

instance decidableEnabled (s : Sys) : ∀ a, Decidable (enabled s a)
  | .start .. | .stop => inferInstanceAs (Decidable (s.lifecycle = .free))
  | .starting _ => inferInstanceAs (Decidable
      (s.lifecycle.inStart = true ∧ (s.lifecycle.isJoining = true → s.worker = .idle)))
  | .enqueue _ => .isTrue trivial
  | .stopping => inferInstanceAs (Decidable (s.lifecycle = .stopping ∧ s.worker = .idle))
  | .work _ => inferInstanceAs (Decidable (s.worker ≠ .idle ∧
      (s.worker = .looping → s.stopRequested = true ∨ s.queue ≠ [])))

def machine : Machine Sys Action := ⟨enabled, next⟩

instance (s : Sys) (a : Action) : Decidable (machine.enabled s a) := decidableEnabled s a

/-! ### What is asked for -/

/-- The frames accepted are written, dropped or queued, or one of them is on its way; at the end of
a recording they are written or dropped. -/
structure Conserved (s : Sys) : Prop where
  count : s.status.writtenFrames + s.status.droppedFrames + s.queue.length ≤
      s.status.submittedFrames ∧
    s.status.submittedFrames ≤
      s.status.writtenFrames + s.status.droppedFrames + s.queue.length + 1
  ended : s.status.state = .completed ∨ (s.status.state = .failed ∧ s.queue = []) →
    s.status.submittedFrames = s.status.writtenFrames + s.status.droppedFrames

/-- The frame goes into the queue. -/
def accepts (s : Sys) (frame : Option BgraPreviewFrame) : Bool :=
  match frame with
  | none => false
  | some frame => s.sessionActive && !s.stopRequested && validFrame frame s.config

/-- The frames that `discardAndFail` is about to discard. -/
def discards (s : Sys) : ℕ :=
  match s.worker with
  | .failing _ currentFrames => currentFrames + s.queue.length
  | _ => 0

/-- No frame is accepted between the two sections of `start`, and `discardAndFail` discards one
frame at most. -/
def orderly (s : Sys) : Action → Prop
  | .enqueue frame => accepts s frame = true → s.lifecycle.isOpened = false
  | .work _ => discards s ≤ 1
  | _ => True

instance decidableOrderly (s : Sys) : ∀ a, Decidable (orderly s a)
  | .enqueue frame =>
    inferInstanceAs (Decidable (accepts s frame = true → s.lifecycle.isOpened = false))
  | .work _ => inferInstanceAs (Decidable (discards s ≤ 1))
  | .start .. | .starting _ | .stop | .stopping => .isTrue trivial

/-! ### The invariant -/

structure Inv (s : Sys) : Prop where
  count : s.lifecycle.isOpened = false → s.status.submittedFrames =
    s.status.writtenFrames + s.status.droppedFrames + s.queue.length + s.worker.hand
  window : s.lifecycle.isOpened = true → s.queue = []
  hand : s.worker.hand ≤ 1
  /-- There is no worker from the join on until `start` has created one. -/
  alone : s.lifecycle.inStart = true → s.lifecycle.isJoining = false → s.worker = .idle
  stopped : s.stopRequested = true → s.sessionActive = false
  ending : s.worker.ending = true → s.queue = [] ∧ s.sessionActive = false
  completed : s.status.state = .completed →
    s.worker = .idle ∧ s.queue = [] ∧ (s.lifecycle.isOpened = false → s.sessionActive = false)
  failed : s.status.state = .failed → s.worker = .idle
  ready : s.lifecycle = .ready → s.status.state = .starting
  capacity : 0 < s.config.queueCapacity
  requested : ∀ config partialPath, (s.lifecycle = .joining config partialPath ∨
    s.lifecycle = .opening config partialPath) → 0 < config.queueCapacity

variable {s : Sys}

/-- **Outside `start`'s window the invariant is what is asked for.** -/
theorem Inv.conserved (I : Inv s) (h : s.lifecycle.isOpened = false) : Conserved s := by
  have hcount := I.count h
  have hhand := I.hand
  refine ⟨by omega, fun hended => ?_⟩
  rcases hended with hstate | ⟨hstate, hqueue⟩
  · obtain ⟨hworker, hqueue, -⟩ := I.completed hstate
    rw [hcount, hworker, hqueue]
    rfl
  · rw [hcount, I.failed hstate, hqueue]
    rfl

theorem inv_start : Inv {} where
  count _ := rfl
  window := nofun
  hand := Nat.zero_le _
  alone := nofun
  stopped := nofun
  ending := nofun
  completed := nofun
  failed := nofun
  ready := nofun
  capacity := by decide
  requested := by
    rintro config partialPath (h | h)
    · cases h
    · cases h

theorem pos_of_valid {config : Mp4RecorderConfig} (h : validateConfig config = .S_OK) :
    0 < config.queueCapacity := by
  unfold validateConfig at h
  split_ifs at h with hbad
  simp only [not_or] at hbad
  omega

theorem Inv.start (I : Inv s) (hfree : s.lifecycle = .free) (requested : Mp4RecorderConfig)
    (absolute : Option Path) (processId : ℕ) : Inv (start s requested absolute processId) := by
  unfold Mp4Recorder.start
  split_ifs with hvalid
  · exact I
  · have hpos := pos_of_valid (not_not.mp hvalid)
    cases absolute with
    | none => exact I
    | some outputPath =>
      dsimp only
      split_ifs
      · exact { I with }
      · have hopened : s.lifecycle.isOpened = false := by rw [hfree]; rfl
        exact { I with
          count := fun _ => I.count hopened
          window := nofun
          alone := nofun
          completed := fun hstate =>
            have hold := I.completed hstate
            ⟨hold.1, hold.2.1, fun _ => hold.2.2 hopened⟩
          ready := nofun
          requested := by
            rintro config partialPath (h | h)
            · rw [← (Lifecycle.joining.inj h).1]
              exact hpos
            · cases h }

/-- The queue after a frame, and what was dropped for it. -/
theorem length_enqueue {queue : List BgraPreviewFrame} {capacity : ℕ} (hpos : 0 < capacity)
    (frame : BgraPreviewFrame) :
    ((if decide (queue.length ≥ capacity) = true then queue.tail else queue) ++ [frame]).length +
      (if decide (queue.length ≥ capacity) = true then 1 else 0) = queue.length + 1 := by
  by_cases hfull : queue.length ≥ capacity
  · simp only [decide_eq_true hfull, if_true, List.length_append, List.length_tail,
      List.length_singleton]
    omega
  · simp only [decide_eq_false hfull, Bool.false_eq_true, if_false, List.length_append,
      List.length_singleton]

theorem Inv.enqueue (I : Inv s) {frame : Option BgraPreviewFrame}
    (hok : accepts s frame = true → s.lifecycle.isOpened = false) : Inv (enqueue s frame).1 := by
  unfold Mp4Recorder.enqueue
  cases frame with
  | none => exact I
  | some frame =>
    dsimp only
    by_cases hclosed : (!s.sessionActive || s.stopRequested) = true
    · rw [if_pos hclosed]
      exact I
    · rw [if_neg hclosed]
      by_cases hinvalid : (!validFrame frame s.config) = true
      · rw [if_pos hinvalid]
        exact I
      · rw [if_neg hinvalid]
        obtain ⟨hactive, hgoing⟩ : s.sessionActive = true ∧ s.stopRequested = false := by
          simpa using hclosed
        have hvalid : validFrame frame s.config = true := by simpa using hinvalid
        have hopened : s.lifecycle.isOpened = false :=
          hok (by rw [accepts, hactive, hgoing, hvalid]; rfl)
        have hlength := @length_enqueue s.queue _ I.capacity frame
        have hcount := I.count hopened
        exact { I with
          count := fun _ => by
            dsimp only
            split_ifs at hlength ⊢ <;> omega
          window := fun h => by
            rw [hopened] at h
            cases h
          ending := fun h => by
            rw [(I.ending h).2] at hactive
            cases hactive
          completed := fun hstate => by
            rw [(I.completed hstate).2.2 hopened] at hactive
            cases hactive }

/-- `start` goes on, or returns, outside its window. -/
theorem Inv.goto (I : Inv s) (hopened : s.lifecycle.isOpened = false) {lifecycle : Lifecycle}
    (hopened' : lifecycle.isOpened = false)
    (halone : lifecycle.inStart = true → lifecycle.isJoining = false → s.worker = .idle)
    (hready : lifecycle ≠ .ready)
    (hrequested : ∀ config partialPath, (lifecycle = .joining config partialPath ∨
      lifecycle = .opening config partialPath) → 0 < config.queueCapacity) :
    Inv { s with lifecycle } :=
  { I with
    count := fun _ => I.count hopened
    window := fun h => by
      have hwindow : lifecycle.isOpened = true := h
      rw [hopened'] at hwindow
      cases hwindow
    alone := halone
    completed := fun hstate =>
      have hold := I.completed hstate
      ⟨hold.1, hold.2.1, fun _ => hold.2.2 hopened⟩
    ready := fun h => absurd h hready
    requested := hrequested }

theorem requested_of_free {config : Mp4RecorderConfig} {partialPath : Path} {lifecycle : Lifecycle}
    (hfree : lifecycle = .free ∨ lifecycle = .undoing ∨ lifecycle = .failing)
    (h : lifecycle = .joining config partialPath ∨ lifecycle = .opening config partialPath) :
    0 < config.queueCapacity := by
  rcases hfree with rfl | rfl | rfl <;> rcases h with h | h <;> cases h

theorem Inv.starting (I : Inv s) {ok : Bool} (h : enabled s (.starting ok)) :
    Inv (starting s ok) := by
  obtain ⟨hinStart, hjoin⟩ := h
  have halone := I.alone hinStart
  unfold Mp4Recorder.starting
  cases hlifecycle : s.lifecycle with
  | free =>
    rw [hlifecycle] at hinStart
    cases hinStart
  | stopping =>
    rw [hlifecycle] at hinStart
    cases hinStart
  | joining config partialPath =>
    have hopened : s.lifecycle.isOpened = false := by rw [hlifecycle]; rfl
    have hidle : s.worker = .idle := hjoin (by rw [hlifecycle]; rfl)
    cases ok with
    | true =>
      refine I.goto hopened rfl (fun _ _ => hidle) nofun ?_
      rintro config' partialPath' (h | h)
      · cases h
      · rw [← (Lifecycle.opening.inj h).1]
        exact I.requested config partialPath (.inl hlifecycle)
    | false => exact I.goto hopened rfl nofun nofun fun _ _ => requested_of_free (.inl rfl)
  | opening config partialPath =>
    have hidle : s.worker = .idle := halone (by rw [hlifecycle]; rfl)
    exact { I with
      count := nofun
      window := fun _ => rfl
      alone := fun _ _ => hidle
      stopped := nofun
      ending := fun hending => by
        rw [hidle] at hending
        cases hending
      completed := fun _ => ⟨hidle, rfl, nofun⟩
      ready := nofun
      capacity := I.requested config partialPath (.inr hlifecycle)
      requested := by
        rintro config' partialPath' (h | h)
        · cases h
        · cases h }
  | opened config partialPath =>
    have hidle : s.worker = .idle := halone (by rw [hlifecycle]; rfl)
    have hqueue : s.queue = [] := I.window (by rw [hlifecycle]; rfl)
    exact { I with
      count := fun _ => by
        dsimp only
        rw [hidle, hqueue]
        rfl
      window := nofun
      alone := fun _ _ => hidle
      completed := nofun
      failed := nofun
      ready := fun _ => rfl
      requested := by
        rintro config' partialPath' (h | h)
        · cases h
        · cases h }
  | ready =>
    have hopened : s.lifecycle.isOpened = false := by rw [hlifecycle]; rfl
    have hidle : s.worker = .idle := halone (by rw [hlifecycle]; rfl)
    have hstate := I.ready hlifecycle
    cases ok with
    | true =>
      have hcount := I.count hopened
      rw [hidle] at hcount
      exact { I with
        count := fun _ => hcount
        window := nofun
        hand := Nat.zero_le _
        alone := nofun
        ending := nofun
        completed := fun h => by cases hstate.symm.trans h
        failed := fun h => by cases hstate.symm.trans h
        ready := nofun
        requested := fun _ _ => requested_of_free (.inl rfl) }
    | false =>
      exact I.goto hopened rfl (fun _ _ => hidle) nofun
        fun _ _ => requested_of_free (.inr (.inl rfl))
  | undoing =>
    have hopened : s.lifecycle.isOpened = false := by rw [hlifecycle]; rfl
    have hidle : s.worker = .idle := halone (by rw [hlifecycle]; rfl)
    have J : Inv { s with lifecycle := .failing } :=
      I.goto hopened rfl (fun _ _ => hidle) nofun fun _ _ => requested_of_free (.inr (.inr rfl))
    exact { J with
      stopped := fun _ => rfl
      ending := fun hending => ⟨(I.ending hending).1, rfl⟩
      completed := fun hstate =>
        have hold := I.completed hstate
        ⟨hold.1, hold.2.1, fun _ => rfl⟩ }
  | failing =>
    have hopened : s.lifecycle.isOpened = false := by rw [hlifecycle]; rfl
    have hidle : s.worker = .idle := halone (by rw [hlifecycle]; rfl)
    have J : Inv { s with lifecycle := .free } :=
      I.goto hopened rfl nofun nofun fun _ _ => requested_of_free (.inl rfl)
    exact { J with
      completed := nofun
      failed := fun _ => hidle
      ready := nofun }

theorem Inv.stop (I : Inv s) (hfree : s.lifecycle = .free) : Inv (stop s) := by
  have hopened : s.lifecycle.isOpened = false := by rw [hfree]; rfl
  exact { I with
    count := fun _ => I.count hopened
    window := nofun
    alone := nofun
    stopped := fun _ => rfl
    ending := fun h => ⟨(I.ending h).1, rfl⟩
    completed := fun hstate => ⟨(I.completed hstate).1, (I.completed hstate).2.1, fun _ => rfl⟩
    ready := nofun
    requested := by
      rintro config partialPath (h | h)
      · cases h
      · cases h }

/-! ### The worker -/

/-- While there is a worker, `start` is not past its join and no recording has ended. -/
theorem Inv.busy (I : Inv s) (h : s.worker ≠ .idle) :
    s.lifecycle.isOpened = false ∧ s.lifecycle ≠ .ready ∧
      s.status.state ≠ .completed ∧ s.status.state ≠ .failed := by
  refine ⟨?_, fun hready => ?_, fun hstate => h (I.completed hstate).1,
    fun hstate => h (I.failed hstate)⟩
  · cases hlifecycle : s.lifecycle with
    | opened config partialPath =>
      exact absurd (I.alone (by rw [hlifecycle]; rfl) (by rw [hlifecycle]; rfl)) h
    | _ => rfl
  · exact h (I.alone (by rw [hready]; rfl) (by rw [hready]; rfl))

/-- A step of the worker that leaves the session as it is. -/
theorem Inv.worked (I : Inv s) (hbusy : s.worker ≠ .idle) {worker : Worker}
    {queue : List BgraPreviewFrame} {status : Mp4RecorderSnapshot} {timeline : MonotonicTimeline}
    (hcount : status.submittedFrames =
      status.writtenFrames + status.droppedFrames + queue.length + worker.hand)
    (hhand : worker.hand ≤ 1)
    (hending : worker.ending = true → queue = [] ∧ s.sessionActive = false)
    (hcompleted : status.state = .completed →
      worker = .idle ∧ queue = [] ∧ s.sessionActive = false)
    (hfailed : status.state = .failed → worker = .idle) :
    Inv { s with worker, queue, status, timeline } := by
  obtain ⟨hopened, hready, -, -⟩ := I.busy hbusy
  exact { I with
    count := fun _ => hcount
    window := fun h => by
      have hwindow : s.lifecycle.isOpened = true := h
      rw [hopened] at hwindow
      cases hwindow
    hand := hhand
    alone := fun hinStart hjoining => absurd (I.alone hinStart hjoining) hbusy
    ending := hending
    completed := fun hstate =>
      have hnew := hcompleted hstate
      ⟨hnew.1, hnew.2.1, fun _ => hnew.2.2⟩
    failed := hfailed
    ready := fun h => absurd h hready }

/-- A step of the worker that also leaves the state of the recording as it is. -/
theorem Inv.advanced (I : Inv s) (hbusy : s.worker ≠ .idle) {worker : Worker}
    {queue : List BgraPreviewFrame} {status : Mp4RecorderSnapshot} {timeline : MonotonicTimeline}
    (hstate : status.state = s.status.state)
    (hcount : status.submittedFrames =
      status.writtenFrames + status.droppedFrames + queue.length + worker.hand)
    (hhand : worker.hand ≤ 1)
    (hending : worker.ending = true → queue = [] ∧ s.sessionActive = false) :
    Inv { s with worker, queue, status, timeline } := by
  obtain ⟨-, -, hcompleted, hfailed⟩ := I.busy hbusy
  refine I.worked hbusy hcount hhand hending (fun h => ?_) fun h => ?_
  · exact absurd (hstate.symm.trans h) hcompleted
  · exact absurd (hstate.symm.trans h) hfailed

theorem Inv.work (I : Inv s) {answer : Except HRESULT Mp4EncoderPath}
    (h : enabled s (.work answer)) (hok : orderly s (.work answer)) : Inv (work s answer) := by
  obtain ⟨hbusy, -⟩ := h
  obtain ⟨hopened, -, hcompleted, -⟩ := I.busy hbusy
  have hcount := I.count hopened
  unfold Mp4Recorder.work
  cases hworker : s.worker with
  | idle => exact absurd hworker hbusy
  | begin =>
    rw [hworker] at hcount
    exact I.advanced hbusy rfl hcount (Nat.zero_le _) nofun
  | opening =>
    rw [hworker] at hcount
    cases answer with
    | ok path => exact I.advanced hbusy rfl hcount (Nat.zero_le _) nofun
    | error e => exact I.advanced hbusy rfl hcount (Nat.zero_le _) nofun
  | opened path =>
    rw [hworker] at hcount
    exact I.worked hbusy hcount (Nat.zero_le _) nofun nofun nofun
  | looping =>
    rw [hworker] at hcount
    cases hqueue : s.queue with
    | nil =>
      rw [hqueue] at hcount
      dsimp only
      split_ifs with hstop
      · exact I.advanced hbusy rfl hcount (Nat.zero_le _) (fun _ => ⟨rfl, I.stopped hstop⟩)
      · exact I
    | cons frame queue =>
      rw [hqueue, List.length_cons] at hcount
      have hcount' : s.status.submittedFrames =
          s.status.writtenFrames + s.status.droppedFrames + queue.length + 1 := by
        have hhand : Worker.hand .looping = 0 := rfl
        omega
      exact I.advanced hbusy rfl hcount' (Nat.le_refl 1) nofun
  | encoding frame =>
    rw [hworker] at hcount
    cases answer with
    | ok path => exact I.advanced hbusy rfl hcount (Nat.le_refl 1) nofun
    | error e => exact I.advanced hbusy rfl hcount (Nat.le_refl 1) nofun
  | wrote timestamp =>
    rw [hworker] at hcount
    have hcount' : s.status.submittedFrames =
        s.status.writtenFrames + 1 + s.status.droppedFrames + s.queue.length + 0 := by
      have hhand : Worker.hand (.wrote timestamp) = 1 := rfl
      omega
    exact I.advanced hbusy rfl hcount' (Nat.zero_le _) nofun
  | finishing =>
    have hend := I.ending (by rw [hworker]; rfl)
    rw [hworker] at hcount
    exact I.worked hbusy hcount (Nat.zero_le _) (fun _ => hend) nofun nofun
  | finalizing =>
    have hend := I.ending (by rw [hworker]; rfl)
    rw [hworker] at hcount
    cases answer with
    | ok path => exact I.advanced hbusy rfl hcount (Nat.zero_le _) (fun _ => hend)
    | error e => exact I.advanced hbusy rfl hcount (Nat.zero_le _) nofun
  | moving =>
    obtain ⟨hqueue, hactive⟩ := I.ending (by rw [hworker]; rfl)
    rw [hworker] at hcount
    cases answer with
    | ok path =>
      exact I.worked hbusy hcount (Nat.zero_le _) nofun (fun _ => ⟨rfl, hqueue, hactive⟩)
        fun _ => rfl
    | error e => exact I.worked hbusy hcount (Nat.zero_le _) nofun nofun fun _ => rfl
  | failing error currentFrames =>
    have hfew : discards s ≤ 1 := hok
    rw [discards, hworker] at hfew
    rw [hworker] at hcount
    have hcount' : s.status.submittedFrames = s.status.writtenFrames + s.status.droppedFrames +
        0 + (currentFrames + s.queue.length) := by
      have hhand : Worker.hand (.failing error currentFrames) = currentFrames := rfl
      omega
    have J := @Inv.advanced s I hbusy (.discarding error (currentFrames + s.queue.length)) []
      s.status s.timeline rfl hcount' hfew nofun
    exact { J with
      stopped := fun _ => rfl
      ending := nofun
      completed := fun h => absurd h hcompleted }
  | discarding error discarded =>
    rw [hworker] at hcount
    have hcount' : s.status.submittedFrames = s.status.writtenFrames +
        (s.status.droppedFrames + discarded) + s.queue.length + 0 := by
      have hhand : Worker.hand (.discarding error discarded) = discarded := rfl
      omega
    exact I.worked hbusy hcount' (Nat.zero_le _) nofun nofun fun _ => rfl

theorem inv_next (s : Sys) (a : Action) (I : Inv s) (h : enabled s a) (hok : orderly s a) :
    Inv (next s a) := by
  cases a with
  | start requested absolute processId => exact I.start h requested absolute processId
  | starting ok => exact I.starting h
  | enqueue frame => exact I.enqueue hok
  | stop => exact I.stop h
  | stopping =>
    have hopened : s.lifecycle.isOpened = false := by rw [h.1]; rfl
    exact I.goto hopened rfl nofun nofun fun _ _ => requested_of_free (.inl rfl)
  | work answer => exact I.work h hok

/-! ### The frames of a recording -/

/-- **Frames are conserved**, in every state of an orderly run that is not between the two sections
of `start`. -/
theorem conserved_run {as : List Action} (h : machine.Legal orderly {} as)
    (hopened : (machine.exec {} as).lifecycle.isOpened = false) :
    Conserved (machine.exec {} as) := by
  have I : Inv (machine.exec {} as) := h.invariant inv_start inv_next
  exact I.conserved hopened

def sampleConfig : Mp4RecorderConfig :=
  { outputPath := ['a', '.', 'm', 'p', '4'], width := 4, height := 2, queueCapacity := 2 }

def sampleFrame : BgraPreviewFrame := ⟨List.replicate 32 0, 4, 2, 16, 0⟩

/-- `start` up to its first section. -/
def sampleStart : List Action :=
  [.start sampleConfig (some sampleConfig.outputPath) 7, .starting true, .starting true]

/-- The rest of `start`, and the worker up to its loop. -/
def sampleReady : List Action := [.starting true, .starting true] ++
  List.replicate 3 (.work (.ok .softwareOnly))

/-- The worker writes a frame, and ends the recording. -/
def sampleFinish : List Action := List.replicate 3 (.work (.ok .softwareOnly)) ++ [.stop] ++
  List.replicate 4 (.work (.ok .softwareOnly)) ++ [.stopping]

theorem conserved_run_sample :
    Conserved (machine.exec {}
      (sampleStart ++ sampleReady ++ [.enqueue (some sampleFrame)] ++ sampleFinish)) :=
  conserved_run (by decide) (by decide)

/-- The frame of an early caller. -/
def earlyRun : List Action :=
  sampleStart ++ [.enqueue (some sampleFrame)] ++ sampleReady ++ sampleFinish

/-- The encoder fails while two more frames are queued. -/
def failingRun : List Action :=
  sampleStart ++ sampleReady ++ List.replicate 2 (.enqueue (some sampleFrame)) ++
    [.work (.ok .softwareOnly), .enqueue (some sampleFrame), .work (.error (.other 1)),
      .work (.ok .softwareOnly)]

/-- A recording that is completed with one frame written and none accepted, and one that has lost
three frames when `discardAndFail` leaves the queue. -/
theorem not_conserved_run :
    (machine.Legal (fun _ _ => True) {} earlyRun ∧
      (machine.exec {} earlyRun).lifecycle.starting = false ∧
      (machine.exec {} earlyRun).status.state = .completed ∧
      (machine.exec {} earlyRun).status.submittedFrames = 0 ∧
      (machine.exec {} earlyRun).status.writtenFrames = 1 ∧
      ¬Conserved (machine.exec {} earlyRun)) ∧
    (machine.Legal (fun _ _ => True) {} failingRun ∧
      (machine.exec {} failingRun).lifecycle.starting = false ∧
      (machine.exec {} failingRun).status.submittedFrames = 3 ∧
      (machine.exec {} failingRun).queue = [] ∧
      ¬Conserved (machine.exec {} failingRun)) := by
  refine ⟨⟨by decide, by decide, by decide, by decide, by decide, fun C => ?_⟩,
    ⟨by decide, by decide, by decide, by decide, fun C => ?_⟩⟩
  · exact absurd C.count.1 (by decide)
  · exact absurd C.count.2 (by decide)

end RemoteCam.Media.Mp4Recorder
