import RemoteCam.Media.Mp4Recorder
import Mathlib.Data.List.Perm.Subperm
import Mathlib.Logic.Function.Basic

/-! # What a recording leaves on disk

The recorder with its files: `openWriter` and its two attempts, the samples that the writer is
given, `DeleteFileW` and `MoveFileExW`. Until `finalize` succeeds a writer may leave anything under
the partial path. A session is what a `start` that went through has begun; `before` is the disk as
`start` found it when the last worker had ended. -/

namespace RemoteCam.Media.Publication

open RemoteCam.Lib.Transitions
open RemoteCam.Media.Mp4Recorder

/-! ### Files -/

/-- A frame and its timestamp, as `writeNv12` gets them. -/
abbrev Sample := BgraPreviewFrame × ℤ

inductive File where
  | other (content : List UInt8)
  | recording (samples : List Sample)
  deriving DecidableEq, Repr

abbrev Disk := Path → Option File

def E_OUTOFMEMORY : HRESULT := .other 0x8007000E

/-- What `openWriter` does next: it creates a writer and opens it with hardware transforms, or
discards that one, creates another and opens it without. -/
inductive Attempt where
  | creating
  | hardware
  | retrying
  | recreating
  | software
  deriving DecidableEq, Repr

/-- What is kept of a session beside the state: the frames accepted, those that the cap dropped, and
the samples that the writer has taken. -/
structure Session where
  output : Path
  partialPath : Path
  before : Disk
  accepted : List BgraPreviewFrame := []
  dropped : List BgraPreviewFrame := []
  samples : List Sample := []
  finalized : Bool := false

structure Rec where
  sys : Sys := {}
  disk : Disk
  attempt : Attempt := .creating
  /-- The samples of the writer, while there is one. -/
  writer : Option (List Sample) := none
  session : Option Session := none

/-- `DeleteFileW`, which a writer that holds the file is in the way of. -/
def Rec.deleted (r : Rec) (path : Path) : Disk :=
  if r.writer.isSome then r.disk else Function.update r.disk path none

/-- What a writer has left under the partial path. -/
def Rec.left (r : Rec) (residue : Option File) : Disk :=
  Function.update r.disk r.sys.partialPath residue

/-! ### The machine -/

/-- The section of `start` after its join. -/
def joined (r : Rec) (config : Mp4RecorderConfig) (partialPath : Path) : Rec :=
  { r with
    sys := starting r.sys true
    disk := r.deleted partialPath
    session := some { output := config.outputPath, partialPath, before := r.disk } }

def Session.enqueued (σ : Session) (s : Sys) (frame : BgraPreviewFrame) : Session :=
  { σ with
    accepted := σ.accepted ++ [frame]
    dropped :=
      if s.queue.length ≥ s.config.queueCapacity then σ.dropped ++ s.queue.take 1 else σ.dropped }

/-- A step of a caller. -/
def control (r : Rec) : Mp4Recorder.Action → Rec
  | .starting true =>
    match r.sys.lifecycle with
    | .joining config partialPath => joined r config partialPath
    | _ => { r with sys := starting r.sys true }
  | .enqueue (some frame) =>
    { r with
      sys := (enqueue r.sys (some frame)).1
      session :=
        if accepts r.sys (some frame) then r.session.map (·.enqueued r.sys frame)
        else r.session }
  | a => { r with sys := Mp4Recorder.next r.sys a }

/-- The worker goes on with no answer to wait for. -/
def Rec.goesOn (r : Rec) : Sys := Mp4Recorder.work r.sys (.ok .unknown)

/-- `openWriter`, call by call; `answer` is that of the factory or of `open`. -/
def openWriter (r : Rec) (answer : Except HRESULT Unit) (residue : Option File) : Rec :=
  match r.attempt, answer with
  | .creating, .ok _ => { r with writer := some [], attempt := .hardware }
  | .creating, .error _ => { r with sys := Mp4Recorder.work r.sys (.error E_OUTOFMEMORY) }
  | .hardware, .ok _ =>
    { r with
      sys := Mp4Recorder.work r.sys (.ok .hardwareTransformsEnabled)
      disk := r.left residue }
  | .hardware, .error _ => { r with disk := r.left residue, writer := none, attempt := .retrying }
  | .retrying, _ => { r with disk := r.deleted r.sys.partialPath, attempt := .recreating }
  | .recreating, .ok _ => { r with writer := some [], attempt := .software }
  | .recreating, .error _ => { r with sys := Mp4Recorder.work r.sys (.error E_OUTOFMEMORY) }
  | .software, .ok _ =>
    { r with sys := Mp4Recorder.work r.sys (.ok .softwareOnly), disk := r.left residue }
  | .software, .error e =>
    { r with sys := Mp4Recorder.work r.sys (.error e), disk := r.left residue, writer := none }

/-- A step of the worker; `residue` is what the writer leaves under the partial path by it. -/
def work (r : Rec) (answer : Except HRESULT Unit) (residue : Option File) : Rec :=
  match r.sys.worker with
  | .begin => { r with sys := r.goesOn, attempt := .creating }
  | .opening => openWriter r answer residue
  | .encoding frame =>
    match answer with
    | .ok _ =>
      let sample := (frame, (r.sys.timeline.next frame.ptsMicros).1)
      { r with
        sys := r.goesOn
        disk := r.left residue
        writer := r.writer.map (· ++ [sample])
        session := r.session.map fun σ => { σ with samples := σ.samples ++ [sample] } }
    | .error e =>
      { r with sys := Mp4Recorder.work r.sys (.error e), disk := r.left residue, writer := none }
  | .finalizing =>
    match answer with
    | .ok _ =>
      { r with
        sys := r.goesOn
        disk := r.left (r.writer.map .recording)
        writer := none
        session := r.session.map fun σ => { σ with finalized := true } }
    | .error e =>
      { r with sys := Mp4Recorder.work r.sys (.error e), disk := r.left residue, writer := none }
  | .moving =>
    match answer with
    | .ok _ =>
      { r with
        sys := r.goesOn
        disk := Function.update
          (Function.update r.disk r.sys.config.outputPath (r.disk r.sys.partialPath))
          r.sys.partialPath none }
    | .error e => { r with sys := Mp4Recorder.work r.sys (.error e) }
  | .discarding .. => { r with sys := r.goesOn, disk := r.deleted r.sys.partialPath }
  | .idle | .opened _ | .looping | .wrote _ | .finishing | .failing .. => { r with sys := r.goesOn }

inductive Action where
  | control (a : Mp4Recorder.Action)
  | work (answer : Except HRESULT Unit) (residue : Option File)

def next (r : Rec) : Action → Rec
  | .control a => control r a
  | .work answer residue => work r answer residue

/-- The worker's own steps are those with the files. -/
def isCall : Mp4Recorder.Action → Bool
  | .work _ => false
  | _ => true

def enabled (r : Rec) : Action → Prop
  | .control a => isCall a = true ∧ Mp4Recorder.enabled r.sys a
  | .work .. => Mp4Recorder.enabled r.sys (.work (.ok .unknown))

instance decidableEnabled (r : Rec) : ∀ a, Decidable (enabled r a)
  | .control a =>
    have := Mp4Recorder.decidableEnabled r.sys a
    inferInstanceAs (Decidable (isCall a = true ∧ Mp4Recorder.enabled r.sys a))
  | .work _ _ => Mp4Recorder.decidableEnabled r.sys (.work (.ok .unknown))

def machine : Machine Rec Action := ⟨enabled, next⟩

instance (r : Rec) (a : Action) : Decidable (machine.enabled r a) := decidableEnabled r a

/-! ### What is asked for -/

/-- Every frame that was accepted and not dropped is given or queued, in the order of arrival. -/
structure Accounted (σ : Session) (given queue : List BgraPreviewFrame) : Prop where
  inOrder : (given ++ queue).Sublist σ.accepted
  all : (given ++ queue ++ σ.dropped).Perm σ.accepted

/-- The file is the recording of every frame accepted in the session, less those that the cap
dropped. -/
def Complete (σ : Session) (file : Option File) : Prop :=
  ∃ samples, file = some (.recording samples) ∧ Accounted σ (samples.map Prod.fst) []

/-- `start` has begun its session and not returned. -/
def inside : Lifecycle → Bool
  | .free | .stopping | .joining .. => false
  | _ => true

/-- The session has no worker, and none is to come. -/
def ended (s : Sys) : Prop := s.worker = .idle ∧ inside s.lifecycle = false

/-- How a session ends: the recording is under the output path, or `finalize` has succeeded and the
recording is where the snapshot says, or neither file is there. -/
inductive Outcome (σ : Session) (r : Rec) : Prop where
  | completed (state : r.sys.status.state = .completed) (named : r.sys.status.partialPath = [])
      (finalized : σ.finalized = true) (output : Complete σ (r.disk σ.output))
      (gone : r.disk σ.partialPath = none)
  | notMoved (state : r.sys.status.state = .failed)
      (named : r.sys.status.partialPath = σ.partialPath)
      (finalized : σ.finalized = true) (output : r.disk σ.output = σ.before σ.output)
      (kept : Complete σ (r.disk σ.partialPath))
  | failed (state : r.sys.status.state = .failed) (named : r.sys.status.partialPath = [])
      (finalized : σ.finalized = false) (output : r.disk σ.output = σ.before σ.output)
      (gone : r.disk σ.partialPath = none)

/-- What is promised of the files of a session. -/
structure Published (σ : Session) (r : Rec) : Prop where
  replaced : r.disk σ.output ≠ σ.before σ.output →
    σ.finalized = true ∧ Complete σ (r.disk σ.output)
  others : ∀ path, path ≠ σ.output → path ≠ σ.partialPath → r.disk path = σ.before path
  outcome : ended r.sys → Outcome σ r

/-! ### The threads -/

/-- A partial path is longer than the output path it is made from. -/
theorem makePartialPath_ne (output : Path) (processId sequence : ℕ) :
    output ≠ makePartialPath output processId sequence := by
  intro h
  have hlength := congrArg List.length h
  have htext : ".partial.".toList.length = 9 := by decide
  simp only [makePartialPath, List.length_append, List.length_take, htext] at hlength
  omega

/-- Who may do what: what the recorder's own sections keep, files or not. -/
structure Control (s : Sys) : Prop where
  alone : s.lifecycle.inStart = true → s.lifecycle.isJoining = false → s.worker = .idle
  stopped : s.stopRequested = true → s.sessionActive = false
  ending : s.worker.ending = true → s.queue = [] ∧ s.sessionActive = false
  discarding : ∀ error discarded, s.worker = .discarding error discarded → s.sessionActive = false
  resting : s.worker = .idle → s.lifecycle.starting = false → s.sessionActive = false
  failing : s.lifecycle = .failing → s.sessionActive = false
  apart : ∀ config partialPath, s.lifecycle = .joining config partialPath →
    config.outputPath ≠ partialPath

variable {s : Sys}

theorem Control.start (C : Control s) (hfree : s.lifecycle = .free)
    (requested : Mp4RecorderConfig) (absolute : Option Path) (processId : ℕ) :
    Control (start s requested absolute processId) := by
  unfold Mp4Recorder.start
  split_ifs
  · exact C
  · cases absolute with
    | none => exact C
    | some outputPath =>
      dsimp only
      split_ifs
      · exact { C with }
      · exact { C with
          alone := fun _ hjoining => by cases hjoining
          resting := fun hidle _ => C.resting hidle (by rw [hfree]; rfl)
          failing := fun h => by cases h
          apart := fun config partialPath h => by
            cases h
            exact makePartialPath_ne outputPath processId _ }

theorem Control.starting (C : Control s) {ok : Bool} (h : Mp4Recorder.enabled s (.starting ok)) :
    Control (starting s ok) := by
  obtain ⟨hinStart, hjoin⟩ := h
  have hidle : s.worker = .idle := by
    cases hjoining : s.lifecycle.isJoining with
    | true => exact hjoin hjoining
    | false => exact C.alone hinStart hjoining
  have hending : s.worker.ending ≠ true := by
    rw [hidle]
    exact Bool.false_ne_true
  unfold Mp4Recorder.starting
  cases hlifecycle : s.lifecycle with
  | free => exact C
  | stopping => exact C
  | joining config partialPath =>
    have hactive := C.resting hidle (by rw [hlifecycle]; rfl)
    exact { C with
      alone := fun _ _ => hidle
      resting := fun _ _ => hactive
      failing := fun h => by cases ok <;> cases h
      apart := fun _ _ h => by cases ok <;> cases h }
  | opening config partialPath =>
    exact { C with
      alone := fun _ _ => hidle
      stopped := fun hstop => by cases hstop
      ending := fun h => absurd h hending
      discarding := fun error discarded h => by cases hidle.symm.trans h
      resting := fun _ hstarting => by cases hstarting
      failing := fun h => by cases h
      apart := fun _ _ h => by cases h }
  | opened config partialPath =>
    exact { C with
      alone := fun _ _ => hidle
      resting := fun _ hstarting => by cases hstarting
      failing := fun h => by cases h
      apart := fun _ _ h => by cases h }
  | ready =>
    cases ok with
    | true =>
      exact { C with
        alone := fun h => by cases h
        ending := fun h => by cases h
        discarding := fun error discarded h => by cases h
        resting := fun h => by cases h
        failing := fun h => by cases h
        apart := fun _ _ h => by cases h }
    | false =>
      exact { C with
        alone := fun _ _ => hidle
        resting := fun _ hstarting => by cases hstarting
        failing := fun h => by cases h
        apart := fun _ _ h => by cases h }
  | undoing =>
    exact { C with
      alone := fun _ _ => hidle
      stopped := fun _ => rfl
      ending := fun h => absurd h hending
      discarding := fun _ _ _ => rfl
      resting := fun _ _ => rfl
      failing := fun _ => rfl
      apart := fun _ _ h => by cases h }
  | failing =>
    have hactive := C.failing hlifecycle
    exact { C with
      alone := fun _ _ => hidle
      resting := fun _ _ => hactive
      failing := fun _ => hactive
      apart := fun _ _ h => by cases h }

theorem Control.enqueue (C : Control s) (frame : Option BgraPreviewFrame) :
    Control (enqueue s frame).1 := by
  unfold Mp4Recorder.enqueue
  cases frame with
  | none => exact C
  | some frame =>
    dsimp only
    split_ifs with hclosed
    all_goals first
      | exact C
      | exact { C with
          ending := fun h => by
            rw [(C.ending h).2] at hclosed
            exact absurd rfl hclosed }

theorem Control.stop (C : Control s) : Control (stop s) :=
  { C with
    alone := fun h => by cases h
    stopped := fun _ => rfl
    ending := fun h => ⟨(C.ending h).1, rfl⟩
    discarding := fun _ _ _ => rfl
    resting := fun _ _ => rfl
    failing := fun _ => rfl
    apart := fun _ _ h => by cases h }

/-- A step of the worker that stays in its loop or goes on to its end. -/
theorem Control.worked (C : Control s) (hbusy : s.worker ≠ .idle) {worker : Worker}
    {queue : List BgraPreviewFrame} {status : Mp4RecorderSnapshot} {timeline : MonotonicTimeline}
    (hending : worker.ending = true → queue = [] ∧ s.sessionActive = false)
    (hdiscarding : ∀ error discarded, worker ≠ .discarding error discarded)
    (hidle : worker = .idle → s.sessionActive = false) :
    Control { s with worker, queue, status, timeline } :=
  { C with
    alone := fun h1 h2 => absurd (C.alone h1 h2) hbusy
    ending := hending
    discarding := fun error discarded h => absurd h (hdiscarding error discarded)
    resting := fun h _ => hidle h }

theorem Control.work (C : Control s) (hbusy : s.worker ≠ .idle)
    (answer : Except HRESULT Mp4EncoderPath) : Control (Mp4Recorder.work s answer) := by
  unfold Mp4Recorder.work
  cases hworker : s.worker with
  | idle => exact C
  | begin => exact C.worked hbusy nofun nofun nofun
  | opening =>
    cases answer with
    | ok path => exact C.worked hbusy nofun nofun nofun
    | error e => exact C.worked hbusy nofun nofun nofun
  | opened path => exact C.worked hbusy nofun nofun nofun
  | looping =>
    cases hqueue : s.queue with
    | nil =>
      dsimp only
      split_ifs with hstop
      · exact C.worked hbusy (fun _ => ⟨rfl, C.stopped hstop⟩) nofun nofun
      · exact C
    | cons frame queue => exact C.worked hbusy nofun nofun nofun
  | encoding frame =>
    cases answer with
    | ok path => exact C.worked hbusy nofun nofun nofun
    | error e => exact C.worked hbusy nofun nofun nofun
  | wrote timestamp => exact C.worked hbusy nofun nofun nofun
  | finishing =>
    have hend := C.ending (by rw [hworker]; rfl)
    exact C.worked hbusy (fun _ => hend) nofun nofun
  | finalizing =>
    have hend := C.ending (by rw [hworker]; rfl)
    cases answer with
    | ok path => exact C.worked hbusy (fun _ => hend) nofun nofun
    | error e => exact C.worked hbusy nofun nofun nofun
  | moving =>
    have hend := C.ending (by rw [hworker]; rfl)
    cases answer with
    | ok path => exact C.worked hbusy nofun nofun fun _ => hend.2
    | error e => exact C.worked hbusy nofun nofun fun _ => hend.2
  | failing error currentFrames =>
    exact { C with
      alone := fun h1 h2 => absurd (C.alone h1 h2) hbusy
      stopped := fun _ => rfl
      ending := nofun
      discarding := fun _ _ _ => rfl
      resting := nofun
      failing := fun _ => rfl }
  | discarding error discarded =>
    exact C.worked hbusy nofun nofun fun _ => C.discarding error discarded hworker

theorem Control.next (C : Control s) (a : Mp4Recorder.Action) (h : Mp4Recorder.enabled s a) :
    Control (Mp4Recorder.next s a) := by
  cases a with
  | start requested absolute processId => exact C.start h requested absolute processId
  | starting ok => exact C.starting h
  | enqueue frame => exact C.enqueue frame
  | stop => exact C.stop
  | stopping =>
    have hactive := C.resting h.2 (by rw [h.1]; rfl)
    exact { C with
      alone := fun h => by cases h
      resting := fun _ _ => hactive
      failing := fun h => by cases h
      apart := fun _ _ h => by cases h }
  | work answer => exact C.work h.1 answer

/-! ### The files -/

/-- The recording is not finished, and nothing has been moved. -/
structure Untouched (σ : Session) (r : Rec) : Prop where
  finalized : σ.finalized = false
  output : r.disk σ.output = σ.before σ.output

structure Named (σ : Session) (s : Sys) : Prop where
  partialPath : s.partialPath = σ.partialPath
  output : s.config.outputPath = σ.output
  snapshot : s.status.partialPath = σ.partialPath

/-- `start` on its way, after the join. -/
def Begun (σ : Session) (s : Sys) : Prop :=
  match s.lifecycle with
  | .opening config partialPath =>
    config.outputPath = σ.output ∧ partialPath = σ.partialPath ∧ σ.accepted = [] ∧ σ.dropped = []
  | .opened config partialPath =>
    config.outputPath = σ.output ∧ partialPath = σ.partialPath ∧ s.config = config ∧
      s.partialPath = partialPath ∧ Accounted σ [] s.queue
  | .ready => Named σ s ∧ Accounted σ [] s.queue
  | _ => True

/-- A worker that may still write the recording, with the frames it has taken from the queue. -/
structure Running (σ : Session) (r : Rec) (given : List BgraPreviewFrame) : Prop where
  untouched : Untouched σ r
  named : Named σ r.sys
  accounted : Accounted σ given r.sys.queue

/-- The recording is finished under the partial path. -/
structure Sealed (σ : Session) (r : Rec) : Prop where
  finalized : σ.finalized = true
  output : r.disk σ.output = σ.before σ.output
  named : Named σ r.sys
  complete : Complete σ (r.disk σ.partialPath)

/-- The attempts during which there is a writer. -/
def Attempt.holds : Attempt → Bool
  | .hardware | .software => true
  | _ => false

/-- The file under the partial path may be held. -/
def mayHold (r : Rec) : Bool :=
  match r.sys.worker with
  | .opening => r.attempt.holds
  | .opened _ | .looping | .encoding _ | .wrote _ | .finishing | .finalizing => true
  | _ => false

/-- How far a session is. -/
def Stage (σ : Session) (r : Rec) : Prop :=
  match r.sys.worker with
  | .idle =>
    if inside r.sys.lifecycle then
      Untouched σ r ∧ r.disk σ.partialPath = none ∧ σ.samples = [] ∧ Begun σ r.sys
    else Outcome σ r
  | .begin => Running σ r [] ∧ σ.samples = []
  | .opening => Running σ r [] ∧ σ.samples = [] ∧ (r.attempt.holds = true → r.writer = some [])
  | .opened _ | .looping | .wrote _ | .finishing | .finalizing =>
    Running σ r (σ.samples.map Prod.fst) ∧ r.writer = some σ.samples
  | .encoding frame =>
    Running σ r (σ.samples.map Prod.fst ++ [frame]) ∧ r.writer = some σ.samples
  | .moving => Sealed σ r
  | .failing .. | .discarding .. => Untouched σ r ∧ Named σ r.sys

structure Held (σ : Session) (r : Rec) : Prop where
  apart : σ.output ≠ σ.partialPath
  others : ∀ path, path ≠ σ.output → path ≠ σ.partialPath → r.disk path = σ.before path
  stage : Stage σ r

structure Inv (r : Rec) : Prop where
  control : Control r.sys
  closed : mayHold r = false → r.writer = none
  begun : r.session = none → ended r.sys
  held : ∀ σ, r.session = some σ → Held σ r

variable {r : Rec} {σ : Session}

theorem Accounted.taken {given queue : List BgraPreviewFrame} {frame : BgraPreviewFrame}
    (h : Accounted σ given (frame :: queue)) : Accounted σ (given ++ [frame]) queue := by
  have hsplit : given ++ [frame] ++ queue = given ++ frame :: queue := by
    rw [List.append_assoc, List.singleton_append]
  exact ⟨by rw [hsplit]; exact h.inOrder, by rw [hsplit]; exact h.all⟩

/-- `enqueue` keeps account of the frame it takes and of the one it drops. -/
theorem Accounted.enqueued {given : List BgraPreviewFrame} (h : Accounted σ given s.queue)
    (frame : BgraPreviewFrame) :
    Accounted (σ.enqueued s frame) given
      ((if decide (s.queue.length ≥ s.config.queueCapacity) then s.queue.tail else s.queue) ++
        [frame]) := by
  by_cases hfull : s.queue.length ≥ s.config.queueCapacity
  · rw [if_pos (decide_eq_true hfull)]
    constructor
    · rw [← List.append_assoc]
      exact (((List.tail_sublist s.queue).append_left given).trans h.inOrder).append_right [frame]
    · have hdropped : (σ.enqueued s frame).dropped = σ.dropped ++ s.queue.take 1 := if_pos hfull
      have hqueue : s.queue.take 1 ++ s.queue.tail = s.queue := by
        rw [← List.drop_one, List.take_append_drop]
      rw [hdropped]
      refine List.perm_iff_count.mpr fun a => ?_
      have hall := h.all.count_eq a
      have hcount := congrArg (List.count a) hqueue
      simp only [Session.enqueued, List.count_append] at hall hcount ⊢
      omega
  · rw [if_neg (by simpa using hfull)]
    constructor
    · rw [← List.append_assoc]
      exact h.inOrder.append_right [frame]
    · have hdropped : (σ.enqueued s frame).dropped = σ.dropped := if_neg hfull
      rw [hdropped]
      refine List.perm_iff_count.mpr fun a => ?_
      have hall := h.all.count_eq a
      simp only [Session.enqueued, List.count_append] at hall ⊢
      omega

/-! ### The callers -/

/-- What a stage is about. -/
theorem Stage.congr {s' : Sys} (h : Stage σ r) (hworker : s'.worker = r.sys.worker)
    (hqueue : s'.queue = r.sys.queue) (hconfig : s'.config = r.sys.config)
    (hpart : s'.partialPath = r.sys.partialPath) (hstatus : s'.status = r.sys.status)
    (hinside : inside r.sys.lifecycle = false) (hinside' : inside s'.lifecycle = false) :
    Stage σ { r with sys := s' } := by
  have hnamed (N : Named σ r.sys) : Named σ s' :=
    ⟨hpart.trans N.partialPath, (congrArg _ hconfig).trans N.output,
      (congrArg _ hstatus).trans N.snapshot⟩
  have hrunning {given : List BgraPreviewFrame} (R : Running σ r given) :
      Running σ { r with sys := s' } given :=
    ⟨⟨R.untouched.finalized, R.untouched.output⟩, hnamed R.named, by
      dsimp only
      rw [hqueue]
      exact R.accounted⟩
  unfold Stage at h ⊢
  dsimp only
  rw [hworker]
  cases hw : r.sys.worker with
  | idle =>
    simp only [hw, hinside, hinside', Bool.false_eq_true, if_false] at h ⊢
    cases h with
    | completed state named finalized output gone =>
      exact .completed (by dsimp only; rw [hstatus]; exact state)
        (by dsimp only; rw [hstatus]; exact named) finalized output gone
    | notMoved state named finalized output kept =>
      exact .notMoved (by dsimp only; rw [hstatus]; exact state)
        (by dsimp only; rw [hstatus]; exact named) finalized output kept
    | failed state named finalized output gone =>
      exact .failed (by dsimp only; rw [hstatus]; exact state)
        (by dsimp only; rw [hstatus]; exact named) finalized output gone
  | moving =>
    simp only [hw] at h ⊢
    exact ⟨h.finalized, h.output, hnamed h.named, h.complete⟩
  | failing error currentFrames =>
    simp only [hw] at h ⊢
    exact ⟨⟨h.1.finalized, h.1.output⟩, hnamed h.2⟩
  | discarding error discarded =>
    simp only [hw] at h ⊢
    exact ⟨⟨h.1.finalized, h.1.output⟩, hnamed h.2⟩
  | _ =>
    simp only [hw] at h ⊢
    exact ⟨hrunning h.1, h.2⟩

/-- `start` outside its session, or `stop`. -/
theorem Inv.turned (I : Inv r) {s' : Sys} (hcontrol : Control s')
    (hworker : s'.worker = r.sys.worker) (hqueue : s'.queue = r.sys.queue)
    (hconfig : s'.config = r.sys.config) (hpart : s'.partialPath = r.sys.partialPath)
    (hstatus : s'.status = r.sys.status) (hinside : inside r.sys.lifecycle = false)
    (hinside' : inside s'.lifecycle = false) : Inv { r with sys := s' } where
  control := hcontrol
  closed hclosed := I.closed (by rw [← hclosed, mayHold, mayHold, hworker])
  begun hnone := ⟨hworker.trans (I.begun hnone).1, hinside'⟩
  held σ hσ :=
    have H := I.held σ hσ
    ⟨H.apart, H.others,
      H.stage.congr hworker hqueue hconfig hpart hstatus hinside hinside'⟩

/-- `start` in its session. -/
theorem Inv.advance (I : Inv r) {s' : Sys} (hcontrol : Control s') (hσ : r.session = some σ)
    (hidle : r.sys.worker = .idle) (hstage : Stage σ { r with sys := s' }) :
    Inv { r with sys := s' } where
  control := hcontrol
  closed _ := I.closed (by rw [mayHold, hidle])
  begun hnone := by cases hσ.symm.trans hnone
  held σ' hσ' := by
    cases Option.some.inj (hσ.symm.trans hσ')
    exact ⟨(I.held σ hσ).apart, (I.held σ hσ).others, hstage⟩

/-- What `start` has found when it is in its session. -/
theorem Inv.session (I : Inv r) (hidle : r.sys.worker = .idle)
    (hinside : inside r.sys.lifecycle = true) :
    ∃ σ, r.session = some σ ∧ Untouched σ r ∧ r.disk σ.partialPath = none ∧ σ.samples = [] ∧
      Begun σ r.sys := by
  cases hσ : r.session with
  | none =>
    rw [(I.begun hσ).2] at hinside
    cases hinside
  | some σ =>
    have hstage := (I.held σ hσ).stage
    simp only [Stage, hidle, hinside, if_true] at hstage
    exact ⟨σ, rfl, hstage⟩

theorem stage_of_begun {s' : Sys} (hidle : s'.worker = .idle) (hinside : inside s'.lifecycle = true)
    (huntouched : Untouched σ r) (hgone : r.disk σ.partialPath = none) (hsamples : σ.samples = [])
    (hbegun : Begun σ s') : Stage σ { r with sys := s' } := by
  unfold Stage
  dsimp only
  rw [hidle]
  dsimp only
  rw [if_pos hinside]
  exact ⟨⟨huntouched.finalized, huntouched.output⟩, hgone, hsamples, hbegun⟩

theorem Inv.starting (I : Inv r) {ok : Bool}
    (h : Mp4Recorder.enabled r.sys (.starting ok))
    (hnew : r.sys.lifecycle.isJoining = true → ok = false) :
    Inv { r with sys := starting r.sys ok } := by
  have hcontrol := I.control.starting h
  obtain ⟨hinStart, hjoin⟩ := h
  have hidle : r.sys.worker = .idle := by
    cases hjoining : r.sys.lifecycle.isJoining with
    | true => exact hjoin hjoining
    | false => exact I.control.alone hinStart hjoining
  unfold Mp4Recorder.starting at hcontrol ⊢
  cases hlifecycle : r.sys.lifecycle with
  | free => exact I
  | stopping => exact I
  | joining config partialPath =>
    have hok : ok = false := hnew (by rw [hlifecycle]; rfl)
    subst hok
    rw [hlifecycle] at hcontrol
    exact I.turned hcontrol rfl rfl rfl rfl rfl (by rw [hlifecycle]; rfl) rfl
  | opening config partialPath =>
    rw [hlifecycle] at hcontrol
    obtain ⟨σ, hσ, huntouched, hgone, hsamples, hbegun⟩ :=
      I.session hidle (by rw [hlifecycle]; rfl)
    rw [Begun, hlifecycle] at hbegun
    obtain ⟨houtput, hpart, haccepted, hdropped⟩ := hbegun
    have haccounted : Accounted σ [] [] :=
      ⟨List.nil_sublist _, by rw [haccepted, hdropped]; exact List.Perm.refl []⟩
    exact I.advance hcontrol hσ hidle (stage_of_begun hidle rfl huntouched hgone hsamples
      ⟨houtput, hpart, rfl, rfl, haccounted⟩)
  | opened config partialPath =>
    rw [hlifecycle] at hcontrol
    obtain ⟨σ, hσ, huntouched, hgone, hsamples, hbegun⟩ :=
      I.session hidle (by rw [hlifecycle]; rfl)
    rw [Begun, hlifecycle] at hbegun
    obtain ⟨houtput, hpart, hconfig, hpath, haccounted⟩ := hbegun
    exact I.advance hcontrol hσ hidle (stage_of_begun hidle rfl huntouched hgone hsamples
      ⟨⟨hpath.trans hpart, (congrArg _ hconfig).trans houtput, hpart⟩, haccounted⟩)
  | ready =>
    rw [hlifecycle] at hcontrol
    obtain ⟨σ, hσ, huntouched, hgone, hsamples, hbegun⟩ :=
      I.session hidle (by rw [hlifecycle]; rfl)
    rw [Begun, hlifecycle] at hbegun
    obtain ⟨hnamed, haccounted⟩ := hbegun
    cases ok with
    | true =>
      exact I.advance hcontrol hσ hidle
        ⟨⟨⟨huntouched.finalized, huntouched.output⟩,
          ⟨hnamed.partialPath, hnamed.output, hnamed.snapshot⟩, haccounted⟩, hsamples⟩
    | false =>
      exact I.advance hcontrol hσ hidle
        (stage_of_begun hidle rfl huntouched hgone hsamples trivial)
  | undoing =>
    rw [hlifecycle] at hcontrol
    obtain ⟨σ, hσ, huntouched, hgone, hsamples, -⟩ := I.session hidle (by rw [hlifecycle]; rfl)
    exact I.advance hcontrol hσ hidle
      (stage_of_begun hidle rfl huntouched hgone hsamples trivial)
  | failing =>
    rw [hlifecycle] at hcontrol
    obtain ⟨σ, hσ, huntouched, hgone, -, -⟩ := I.session hidle (by rw [hlifecycle]; rfl)
    refine I.advance hcontrol hσ hidle ?_
    unfold Stage
    dsimp only
    rw [hidle]
    exact .failed rfl rfl huntouched.finalized huntouched.output hgone

theorem inside_of_starting {l : Lifecycle} (h : l.starting = true) : inside l = true := by
  cases l <;> first | rfl | cases h

/-- What a frame that is accepted changes, beside the counters. -/
structure Queued (s s' : Sys) (frame : BgraPreviewFrame) : Prop where
  worker : s'.worker = s.worker
  lifecycle : s'.lifecycle = s.lifecycle
  config : s'.config = s.config
  partialPath : s'.partialPath = s.partialPath
  snapshot : s'.status.partialPath = s.status.partialPath
  queue : s'.queue = (if decide (s.queue.length ≥ s.config.queueCapacity) then s.queue.tail
    else s.queue) ++ [frame]

theorem enqueue_of_accepts {frame : BgraPreviewFrame} (h : accepts s (some frame) = true) :
    Queued s (enqueue s (some frame)).1 frame := by
  simp only [accepts, Bool.and_eq_true, Bool.not_eq_true'] at h
  obtain ⟨⟨hactive, hgoing⟩, hvalid⟩ := h
  unfold enqueue
  dsimp only
  rw [hactive, hgoing, hvalid]
  exact ⟨rfl, rfl, rfl, rfl, rfl, rfl⟩

theorem enqueue_of_refuses {frame : BgraPreviewFrame} (h : accepts s (some frame) = false) :
    (enqueue s (some frame)).1 = s := by
  simp only [accepts, Bool.and_eq_false_iff, Bool.not_eq_false'] at h
  unfold enqueue
  dsimp only
  rcases h with (hactive | hstopped) | hinvalid
  · rw [hactive]
    rfl
  · rw [hstopped, Bool.or_true]
    rfl
  · rw [hinvalid]
    split_ifs with hclosed hvalid
    · rfl
    · rfl
    · exact absurd rfl hvalid
    · exact absurd rfl hvalid

/-- A frame is accepted in `start`'s session or while the worker runs. -/
theorem Stage.enqueued (C : Control r.sys) (h : Stage σ r) {frame : BgraPreviewFrame} {s' : Sys}
    (hactive : r.sys.sessionActive = true) (hqueued : Queued r.sys s' frame)
    (session : Option Session) :
    Stage (σ.enqueued r.sys frame) { r with sys := s', session } := by
  have hnamed (N : Named σ r.sys) : Named (σ.enqueued r.sys frame) s' :=
    ⟨hqueued.partialPath.trans N.partialPath, (congrArg _ hqueued.config).trans N.output,
      hqueued.snapshot.trans N.snapshot⟩
  have haccounted {given : List BgraPreviewFrame} (A : Accounted σ given r.sys.queue) :
      Accounted (σ.enqueued r.sys frame) given s'.queue := by
    rw [hqueued.queue]
    exact A.enqueued frame
  have hrunning {given : List BgraPreviewFrame} (R : Running σ r given) :
      Running (σ.enqueued r.sys frame) { r with sys := s', session } given :=
    ⟨⟨R.untouched.finalized, R.untouched.output⟩, hnamed R.named, haccounted R.accounted⟩
  unfold Stage at h ⊢
  dsimp only
  rw [hqueued.worker]
  cases hw : r.sys.worker with
  | idle =>
    have hstarting : r.sys.lifecycle.starting = true := by
      cases hstarting : r.sys.lifecycle.starting with
      | true => rfl
      | false => cases hactive.symm.trans (C.resting hw hstarting)
    simp only [hw, hqueued.lifecycle, inside_of_starting hstarting, if_true] at h ⊢
    obtain ⟨huntouched, hgone, hsamples, hbegun⟩ := h
    refine ⟨⟨huntouched.finalized, huntouched.output⟩, hgone, hsamples, ?_⟩
    unfold Begun at hbegun ⊢
    rw [hqueued.lifecycle]
    cases hlifecycle : r.sys.lifecycle with
    | opening config partialPath =>
      rw [hlifecycle] at hstarting
      cases hstarting
    | opened config partialPath =>
      simp only [hlifecycle] at hbegun
      obtain ⟨houtput, hpart, hconfig, hpath, A⟩ := hbegun
      exact ⟨houtput, hpart, hqueued.config.trans hconfig, hqueued.partialPath.trans hpath,
        haccounted A⟩
    | ready =>
      simp only [hlifecycle] at hbegun
      exact ⟨hnamed hbegun.1, haccounted hbegun.2⟩
    | _ => trivial
  | moving =>
    have hended := (C.ending (by rw [hw]; rfl)).2
    cases hactive.symm.trans hended
  | failing error currentFrames =>
    simp only [hw] at h ⊢
    exact ⟨⟨h.1.finalized, h.1.output⟩, hnamed h.2⟩
  | discarding error discarded =>
    simp only [hw] at h ⊢
    exact ⟨⟨h.1.finalized, h.1.output⟩, hnamed h.2⟩
  | _ =>
    simp only [hw] at h ⊢
    exact ⟨hrunning h.1, h.2⟩

theorem Inv.enqueue (I : Inv r) (frame : BgraPreviewFrame) :
    Inv (Publication.control r (.enqueue (some frame))) := by
  have hcontrol := I.control.enqueue (some frame)
  unfold Publication.control
  dsimp only
  cases haccepts : accepts r.sys (some frame) with
  | false =>
    rw [enqueue_of_refuses haccepts]
    exact I
  | true =>
    have hqueued := enqueue_of_accepts haccepts
    have hactive : r.sys.sessionActive = true := by
      simp only [accepts, Bool.and_eq_true] at haccepts
      exact haccepts.1.1
    rw [if_pos rfl]
    refine ⟨hcontrol, fun hclosed => I.closed ?_, fun hnone => ?_, fun σ' hσ' => ?_⟩
    · rw [← hclosed, mayHold, mayHold, hqueued.worker]
    · obtain ⟨hidle, hinside⟩ := I.begun (Option.map_eq_none_iff.mp hnone)
      exact ⟨hqueued.worker.trans hidle, by rw [hqueued.lifecycle]; exact hinside⟩
    · obtain ⟨σ, hσ, rfl⟩ := Option.map_eq_some_iff.mp hσ'
      have H := I.held σ hσ
      exact ⟨H.apart, H.others, H.stage.enqueued I.control hactive hqueued _⟩

/-- `start` begins a session. -/
theorem Inv.joined (I : Inv r) {config : Mp4RecorderConfig} {partialPath : Path}
    (h : Mp4Recorder.enabled r.sys (.starting true))
    (hlifecycle : r.sys.lifecycle = .joining config partialPath) :
    Inv (joined r config partialPath) := by
  have hidle : r.sys.worker = .idle := h.2 (by rw [hlifecycle]; rfl)
  have hcontrol := I.control.starting h
  have hwriter : r.writer = none := I.closed (by rw [mayHold, hidle])
  have hdisk : r.deleted partialPath = Function.update r.disk partialPath none := by
    rw [Rec.deleted, hwriter]
    rfl
  have hapart := I.control.apart config partialPath hlifecycle
  have hsys : Mp4Recorder.starting r.sys true =
      { r.sys with lifecycle := .opening config partialPath } := by
    rw [Mp4Recorder.starting, hlifecycle]
    rfl
  unfold Publication.joined
  rw [hsys] at hcontrol ⊢
  rw [hdisk]
  refine ⟨hcontrol, fun _ => hwriter, fun hnone => ?_, fun σ hσ => ?_⟩
  · cases hnone
  · cases hσ
    refine ⟨hapart, fun path _ hpath => Function.update_of_ne hpath _ _, ?_⟩
    unfold Stage
    dsimp only
    rw [hidle]
    dsimp only
    rw [if_pos (show inside (.opening config partialPath) = true from rfl)]
    exact ⟨⟨rfl, Function.update_of_ne hapart _ _⟩, Function.update_self .., rfl, rfl, rfl, rfl,
      rfl⟩

theorem Inv.start (I : Inv r) (hfree : r.sys.lifecycle = .free) (requested : Mp4RecorderConfig)
    (absolute : Option Path) (processId : ℕ) :
    Inv { r with sys := start r.sys requested absolute processId } := by
  have hcontrol := I.control.start hfree requested absolute processId
  have hinside : inside r.sys.lifecycle = false := by
    rw [hfree]
    rfl
  unfold Mp4Recorder.start at hcontrol ⊢
  split_ifs at hcontrol ⊢
  · exact I
  · cases absolute with
    | none => exact I
    | some outputPath =>
      dsimp only at hcontrol ⊢
      split_ifs at hcontrol ⊢
      · exact I.turned hcontrol rfl rfl rfl rfl rfl hinside hinside
      · exact I.turned hcontrol rfl rfl rfl rfl rfl hinside rfl

theorem Inv.call (I : Inv r) {a : Mp4Recorder.Action} (h : enabled r (.control a)) :
    Inv (Publication.control r a) := by
  obtain ⟨hcall, h⟩ := h
  cases a with
  | start requested absolute processId => exact I.start h requested absolute processId
  | starting ok =>
    unfold Publication.control
    cases ok with
    | false => exact I.starting h fun _ => rfl
    | true =>
      dsimp only
      cases hlifecycle : r.sys.lifecycle with
      | joining config partialPath => exact I.joined h hlifecycle
      | _ => exact I.starting h fun hjoining => by rw [hlifecycle] at hjoining; cases hjoining
  | enqueue frame =>
    cases frame with
    | none => exact I
    | some frame => exact I.enqueue frame
  | stop =>
    have hfree : r.sys.lifecycle = .free := h
    exact I.turned I.control.stop rfl rfl rfl rfl rfl (by rw [hfree]; rfl) rfl
  | stopping =>
    exact I.turned (I.control.next .stopping h) rfl rfl rfl rfl rfl (by rw [h.1]; rfl) rfl
  | work answer => cases hcall

/-! ### The worker -/

theorem Inv.of_held {r' : Rec} (hcontrol : Control r'.sys)
    (hclosed : mayHold r' = false → r'.writer = none) (hσ : r'.session = some σ)
    (H : Held σ r') : Inv r' where
  control := hcontrol
  closed := hclosed
  begun hnone := by cases hσ.symm.trans hnone
  held σ' hσ' := by
    cases Option.some.inj (hσ.symm.trans hσ')
    exact H

/-- A step of the worker that changes the partial file at most. -/
theorem Held.step (H : Held σ r) {r' : Rec}
    (hdisk : ∀ path, path ≠ σ.partialPath → r'.disk path = r.disk path) (hstage : Stage σ r') :
    Held σ r' :=
  ⟨H.apart, fun path houtput hpath => (hdisk path hpath).trans (H.others path houtput hpath),
    hstage⟩

theorem left_of_ne (N : Named σ r.sys) (residue : Option File) {path : Path}
    (h : path ≠ σ.partialPath) : r.left residue path = r.disk path :=
  Function.update_of_ne (by rw [N.partialPath]; exact h) _ _

theorem deleted_of_ne (N : Named σ r.sys) {path : Path} (h : path ≠ σ.partialPath) :
    r.deleted r.sys.partialPath path = r.disk path := by
  unfold Rec.deleted
  split_ifs
  · rfl
  · exact Function.update_of_ne (by rw [N.partialPath]; exact h) _ _

theorem Untouched.frame {r' : Rec} (U : Untouched σ r)
    (hdisk : r'.disk σ.output = r.disk σ.output) : Untouched σ r' :=
  ⟨U.finalized, hdisk.trans U.output⟩

theorem Named.frame {s' : Sys} (N : Named σ s) (hpath : s'.partialPath = s.partialPath)
    (hconfig : s'.config = s.config) (hsnapshot : s'.status.partialPath = s.status.partialPath) :
    Named σ s' :=
  ⟨hpath.trans N.partialPath, (congrArg _ hconfig).trans N.output, hsnapshot.trans N.snapshot⟩

theorem Running.frame {r' : Rec} {given : List BgraPreviewFrame} (R : Running σ r given)
    (hdisk : r'.disk σ.output = r.disk σ.output) (hpath : r'.sys.partialPath = r.sys.partialPath)
    (hconfig : r'.sys.config = r.sys.config)
    (hsnapshot : r'.sys.status.partialPath = r.sys.status.partialPath)
    (hqueue : r'.sys.queue = r.sys.queue) : Running σ r' given :=
  ⟨R.untouched.frame hdisk, R.named.frame hpath hconfig hsnapshot, by
    rw [hqueue]
    exact R.accounted⟩

theorem Inv.exists_session (I : Inv r) (hbusy : r.sys.worker ≠ .idle) :
    ∃ σ, r.session = some σ := by
  cases hσ : r.session with
  | none => exact absurd (I.begun hσ).1 hbusy
  | some σ => exact ⟨σ, rfl⟩

/-- A step of the worker in a session, which changes the partial file at most. -/
theorem Inv.worked (I : Inv r) (hσ : r.session = some σ) (hbusy : r.sys.worker ≠ .idle)
    {answer : Except HRESULT Mp4EncoderPath} {s' : Sys}
    (hsys : Mp4Recorder.work r.sys answer = s') {disk : Disk} {attempt : Attempt}
    {writer : Option (List Sample)}
    (hdisk : ∀ path, path ≠ σ.partialPath → disk path = r.disk path)
    (hclosed : mayHold { r with sys := s', disk, attempt, writer } = false → writer = none)
    (hstage : Stage σ { r with sys := s', disk, attempt, writer }) :
    Inv { r with sys := Mp4Recorder.work r.sys answer, disk, attempt, writer } := by
  have hcontrol := I.control.work hbusy answer
  rw [hsys] at hcontrol ⊢
  exact .of_held hcontrol hclosed hσ ((I.held σ hσ).step hdisk hstage)

/-- `openWriter` leaves a writer with no samples, or none. -/
theorem Inv.openWriter (I : Inv r) (hworker : r.sys.worker = .opening)
    (answer : Except HRESULT Unit) (residue : Option File) :
    Inv (openWriter r answer residue) := by
  have hbusy : r.sys.worker ≠ .idle := by
    rw [hworker]
    exact nofun
  obtain ⟨σ, hσ⟩ := I.exists_session hbusy
  have H := I.held σ hσ
  have hstage := H.stage
  simp only [Stage, hworker] at hstage
  obtain ⟨R, hsamples, hwriter⟩ := hstage
  have hleft : r.left residue σ.output = r.disk σ.output := left_of_ne R.named residue H.apart
  have hdeleted : r.deleted r.sys.partialPath σ.output = r.disk σ.output :=
    deleted_of_ne R.named H.apart
  -- The answers that end `openWriter`, and those that do not.
  have hfail (e : HRESULT) : Mp4Recorder.work r.sys (.error e) =
      { r.sys with worker := .failing e 0 } := by rw [Mp4Recorder.work, hworker]
  have hopen (path : Mp4EncoderPath) : Mp4Recorder.work r.sys (.ok path) =
      { r.sys with worker := .opened path } := by rw [Mp4Recorder.work, hworker]
  have hstaged {r' : Rec} (hworker' : r'.sys.worker = .opening) (R' : Running σ r' [])
      (hwriter' : r'.attempt.holds = true → r'.writer = some []) : Stage σ r' := by
    simp only [Stage, hworker']
    exact ⟨R', hsamples, hwriter'⟩
  have hcreated (attempt : Attempt) (hholds : attempt.holds = true) :
      Inv { r with writer := some [], attempt } := by
    refine .of_held I.control (fun h => ?_) hσ (H.step (fun _ _ => rfl)
      (hstaged hworker (R.frame rfl rfl rfl rfl rfl) fun _ => rfl))
    simp only [mayHold, hworker, hholds, Bool.true_eq_false] at h
  have hrefused (attempt : Attempt) (hnone : r.writer = none) :
      Inv { r with sys := Mp4Recorder.work r.sys (.error E_OUTOFMEMORY), attempt } :=
    I.worked hσ hbusy (hfail _) (fun _ _ => rfl) (fun _ => hnone)
      ⟨R.untouched.frame rfl, R.named.frame rfl rfl rfl⟩
  have hopened (path : Mp4EncoderPath) (attempt : Attempt) (hholds : r.attempt.holds = true) :
      Inv { r with sys := Mp4Recorder.work r.sys (.ok path), disk := r.left residue, attempt } := by
    refine I.worked hσ hbusy (hopen path) (fun _ => left_of_ne R.named residue)
      (fun h => by cases h) ⟨?_, ?_⟩
    · rw [hsamples]
      exact R.frame hleft rfl rfl rfl rfl
    · rw [hsamples]
      exact hwriter hholds
  unfold Publication.openWriter
  cases hattempt : r.attempt with
  | creating =>
    cases answer with
    | ok _ => exact hcreated .hardware rfl
    | error e => exact hrefused _ (I.closed (by rw [mayHold, hworker, hattempt]; rfl))
  | hardware =>
    cases answer with
    | ok _ => exact hopened .hardwareTransformsEnabled _ (by rw [hattempt]; rfl)
    | error e =>
      exact .of_held I.control (fun _ => rfl) hσ (H.step (fun _ => left_of_ne R.named residue)
        (hstaged hworker (R.frame hleft rfl rfl rfl rfl) fun h => by cases h))
  | retrying =>
    have hnone : r.writer = none := I.closed (by rw [mayHold, hworker, hattempt]; rfl)
    exact .of_held I.control (fun _ => hnone) hσ (H.step (fun _ => deleted_of_ne R.named)
      (hstaged hworker (R.frame hdeleted rfl rfl rfl rfl) fun h => by cases h))
  | recreating =>
    cases answer with
    | ok _ => exact hcreated .software rfl
    | error e => exact hrefused _ (I.closed (by rw [mayHold, hworker, hattempt]; rfl))
  | software =>
    cases answer with
    | ok _ => exact hopened .softwareOnly _ (by rw [hattempt]; rfl)
    | error e =>
      exact I.worked hσ hbusy (hfail e) (fun _ => left_of_ne R.named residue) (fun _ => rfl)
        ⟨R.untouched.frame hleft, R.named.frame rfl rfl rfl⟩

/-- `start` is not in its session while the worker runs. -/
theorem Control.outside (C : Control s) (hbusy : s.worker ≠ .idle) :
    inside s.lifecycle = false := by
  cases hlifecycle : s.lifecycle with
  | free => rfl
  | stopping => rfl
  | joining config partialPath => rfl
  | _ => exact absurd (C.alone (by rw [hlifecycle]; rfl) (by rw [hlifecycle]; rfl)) hbusy

/-- The end of a session. -/
theorem stage_of_outcome {s' : Sys} {disk : Disk} (hidle : s'.worker = .idle)
    (hinside : inside s'.lifecycle = false) (houtcome : Outcome σ { r with sys := s', disk }) :
    Stage σ { r with sys := s', disk } := by
  unfold Stage
  dsimp only
  rw [hidle]
  dsimp only
  rw [hinside]
  exact houtcome

/-- A call of the writer that fails leaves no writer. -/
theorem Inv.refused (I : Inv r) (hσ : r.session = some σ) (hbusy : r.sys.worker ≠ .idle)
    (hU : Untouched σ r) (N : Named σ r.sys) {e : HRESULT} {currentFrames : ℕ}
    (residue : Option File)
    (hsys : Mp4Recorder.work r.sys (.error e) = { r.sys with worker := .failing e currentFrames }) :
    Inv { r with
      sys := Mp4Recorder.work r.sys (.error e)
      disk := r.left residue
      writer := none } :=
  I.worked hσ hbusy hsys (fun _ => left_of_ne N residue) (fun _ => rfl)
    ⟨hU.frame (left_of_ne N residue (I.held σ hσ).apart), N.frame rfl rfl rfl⟩

theorem Inv.looping (I : Inv r) (hσ : r.session = some σ) (hbusy : r.sys.worker ≠ .idle)
    (hworker : r.sys.worker = .looping)
    (hwake : r.sys.stopRequested = true ∨ r.sys.queue ≠ []) : Inv { r with sys := r.goesOn } := by
  have hstage := (I.held σ hσ).stage
  simp only [Stage, hworker] at hstage
  obtain ⟨R, hwriter⟩ := hstage
  cases hqueue : r.sys.queue with
  | nil =>
    have hstop : r.sys.stopRequested = true := by
      rcases hwake with hstop | hnonempty
      · exact hstop
      · exact absurd hqueue hnonempty
    have hsys : Mp4Recorder.work r.sys (.ok .unknown) = { r.sys with worker := .finishing } := by
      rw [Mp4Recorder.work, hworker]
      dsimp only
      rw [hqueue]
      dsimp only
      rw [if_pos hstop]
    exact I.worked hσ hbusy hsys (fun _ _ => rfl) (fun h => by cases h)
      ⟨R.frame rfl rfl rfl rfl rfl, hwriter⟩
  | cons frame queue =>
    have hsys : Mp4Recorder.work r.sys (.ok .unknown) =
        { r.sys with
          queue
          status := { r.sys.status with queuedFrames := queue.length }
          worker := .encoding frame } := by
      rw [Mp4Recorder.work, hworker]
      dsimp only
      rw [hqueue]
    have haccounted := R.accounted
    rw [hqueue] at haccounted
    exact I.worked hσ hbusy hsys (fun _ _ => rfl) (fun h => by cases h)
      ⟨⟨R.untouched.frame rfl, R.named.frame rfl rfl rfl, haccounted.taken⟩, hwriter⟩

theorem Inv.encoding (I : Inv r) (hσ : r.session = some σ) (hbusy : r.sys.worker ≠ .idle)
    {frame : BgraPreviewFrame} (hworker : r.sys.worker = .encoding frame)
    (answer : Except HRESULT Unit) (residue : Option File) : Inv (work r answer residue) := by
  have H := I.held σ hσ
  have hstage := H.stage
  simp only [Stage, hworker] at hstage
  obtain ⟨R, hwriter⟩ := hstage
  unfold Publication.work Rec.goesOn
  rw [hworker]
  cases answer with
  | error e =>
    exact I.refused hσ hbusy R.untouched R.named residue (by rw [Mp4Recorder.work, hworker])
  | ok _ =>
    have hsys : Mp4Recorder.work r.sys (.ok .unknown) =
        { r.sys with
          timeline := (r.sys.timeline.next frame.ptsMicros).2
          worker := .wrote (r.sys.timeline.next frame.ptsMicros).1 } := by
      rw [Mp4Recorder.work, hworker]
    have hcontrol := I.control.work hbusy (.ok .unknown)
    dsimp only
    rw [hsys] at hcontrol ⊢
    rw [hσ, hwriter]
    refine .of_held hcontrol (fun h => by cases h) rfl
      ⟨H.apart, fun path houtput hpath => (left_of_ne R.named residue hpath).trans
        (H.others path houtput hpath), ⟨⟨?_, ?_, ?_⟩, rfl⟩⟩
    · exact ⟨R.untouched.finalized,
        (left_of_ne R.named residue H.apart).trans R.untouched.output⟩
    · exact ⟨R.named.partialPath, R.named.output, R.named.snapshot⟩
    · rw [List.map_append]
      exact ⟨R.accounted.inOrder, R.accounted.all⟩

theorem Inv.finalizing (I : Inv r) (hσ : r.session = some σ) (hbusy : r.sys.worker ≠ .idle)
    (hworker : r.sys.worker = .finalizing) (answer : Except HRESULT Unit)
    (residue : Option File) : Inv (work r answer residue) := by
  have H := I.held σ hσ
  have hstage := H.stage
  simp only [Stage, hworker] at hstage
  obtain ⟨R, hwriter⟩ := hstage
  unfold Publication.work Rec.goesOn
  rw [hworker]
  cases answer with
  | error e =>
    exact I.refused hσ hbusy R.untouched R.named residue (by rw [Mp4Recorder.work, hworker])
  | ok _ =>
    have hsys : Mp4Recorder.work r.sys (.ok .unknown) = { r.sys with worker := .moving } := by
      rw [Mp4Recorder.work, hworker]
    have hqueue : r.sys.queue = [] := (I.control.ending (by rw [hworker]; rfl)).1
    have haccounted := R.accounted
    rw [hqueue] at haccounted
    have hcontrol := I.control.work hbusy (.ok .unknown)
    dsimp only
    rw [hsys] at hcontrol ⊢
    rw [hσ, hwriter]
    refine .of_held hcontrol (fun _ => rfl) rfl
      ⟨H.apart, fun path houtput hpath => (left_of_ne R.named _ hpath).trans
        (H.others path houtput hpath), ⟨rfl, ?_, ?_, σ.samples, ?_, ?_⟩⟩
    · exact (left_of_ne R.named _ H.apart).trans R.untouched.output
    · exact ⟨R.named.partialPath, R.named.output, R.named.snapshot⟩
    · dsimp only [Rec.left]
      rw [R.named.partialPath]
      exact Function.update_self ..
    · exact ⟨haccounted.inOrder, haccounted.all⟩

theorem Inv.moving (I : Inv r) (hσ : r.session = some σ) (hbusy : r.sys.worker ≠ .idle)
    (hworker : r.sys.worker = .moving) (answer : Except HRESULT Unit) (residue : Option File) :
    Inv (work r answer residue) := by
  have H := I.held σ hσ
  have hstage := H.stage
  simp only [Stage, hworker] at hstage
  have hinside := I.control.outside hbusy
  have hnone : r.writer = none := I.closed (by rw [mayHold, hworker])
  unfold Publication.work Rec.goesOn
  rw [hworker]
  cases answer with
  | error e =>
    have hsys : Mp4Recorder.work r.sys (.error e) =
        { r.sys with
          status := { r.sys.status with state := .failed, error := e, queuedFrames := 0 }
          worker := .idle } := by rw [Mp4Recorder.work, hworker]
    exact I.worked hσ hbusy hsys (fun _ _ => rfl) (fun _ => hnone)
      (stage_of_outcome rfl hinside
        (.notMoved rfl hstage.named.snapshot hstage.finalized hstage.output hstage.complete))
  | ok _ =>
    have hsys : Mp4Recorder.work r.sys (.ok .unknown) =
        { r.sys with
          status :=
            { r.sys.status with
              state := .completed
              error := .S_OK
              queuedFrames := 0
              partialPath := [] }
          worker := .idle } := by rw [Mp4Recorder.work, hworker]
    have hcontrol := I.control.work hbusy (.ok .unknown)
    dsimp only
    rw [hsys] at hcontrol ⊢
    rw [hstage.named.partialPath, hstage.named.output]
    refine .of_held hcontrol (fun _ => hnone) hσ
      ⟨H.apart, fun path houtput hpath => ?_,
        stage_of_outcome rfl hinside (.completed rfl rfl hstage.finalized ?_ ?_)⟩
    · dsimp only
      rw [Function.update_of_ne hpath, Function.update_of_ne houtput]
      exact H.others path houtput hpath
    · dsimp only
      rw [Function.update_of_ne H.apart, Function.update_self]
      exact hstage.complete
    · exact Function.update_self ..

theorem Inv.discarding (I : Inv r) (hσ : r.session = some σ) (hbusy : r.sys.worker ≠ .idle)
    {error : HRESULT} {discarded : ℕ} (hworker : r.sys.worker = .discarding error discarded) :
    Inv { r with sys := r.goesOn, disk := r.deleted r.sys.partialPath } := by
  have H := I.held σ hσ
  have hstage := H.stage
  simp only [Stage, hworker] at hstage
  obtain ⟨huntouched, hnamed⟩ := hstage
  have hinside := I.control.outside hbusy
  have hnone : r.writer = none := I.closed (by rw [mayHold, hworker])
  have hsys : Mp4Recorder.work r.sys (.ok .unknown) =
      { r.sys with
        status :=
          { r.sys.status with
            state := .failed
            error
            droppedFrames := r.sys.status.droppedFrames + discarded
            queuedFrames := 0
            partialPath := [] }
        worker := .idle } := by rw [Mp4Recorder.work, hworker]
  refine I.worked hσ hbusy hsys (fun _ => deleted_of_ne hnamed) (fun _ => hnone)
    (stage_of_outcome rfl hinside (.failed rfl rfl huntouched.finalized ?_ ?_))
  · exact (deleted_of_ne hnamed H.apart).trans huntouched.output
  · dsimp only [Rec.deleted]
    rw [hnone, hnamed.partialPath]
    exact Function.update_self ..

theorem Inv.work (I : Inv r) {answer : Except HRESULT Unit} {residue : Option File}
    (h : enabled r (.work answer residue)) : Inv (work r answer residue) := by
  obtain ⟨hbusy, hwake⟩ := h
  obtain ⟨σ, hσ⟩ := I.exists_session hbusy
  have hstage := (I.held σ hσ).stage
  cases hworker : r.sys.worker with
  | idle => exact absurd hworker hbusy
  | encoding frame => exact I.encoding hσ hbusy hworker answer residue
  | finalizing => exact I.finalizing hσ hbusy hworker answer residue
  | moving => exact I.moving hσ hbusy hworker answer residue
  | opening =>
    unfold Publication.work
    rw [hworker]
    exact I.openWriter hworker answer residue
  | looping =>
    unfold Publication.work
    rw [hworker]
    exact I.looping hσ hbusy hworker (hwake hworker)
  | discarding error discarded =>
    unfold Publication.work
    rw [hworker]
    exact I.discarding hσ hbusy hworker
  | begin =>
    simp only [Stage, hworker] at hstage
    obtain ⟨R, hsamples⟩ := hstage
    have hnone : r.writer = none := I.closed (by rw [mayHold, hworker])
    have hsys : Mp4Recorder.work r.sys (.ok .unknown) = { r.sys with worker := .opening } := by
      rw [Mp4Recorder.work, hworker]
    unfold Publication.work
    rw [hworker]
    exact I.worked hσ hbusy hsys (fun _ _ => rfl) (fun _ => hnone)
      ⟨R.frame rfl rfl rfl rfl rfl, hsamples, fun h => by cases h⟩
  | opened path =>
    simp only [Stage, hworker] at hstage
    obtain ⟨R, hwriter⟩ := hstage
    have hsys : Mp4Recorder.work r.sys (.ok .unknown) =
        { r.sys with
          status := { r.sys.status with state := .recording, encoderPath := path }
          timeline := { duration := frameDuration r.sys.config }
          worker := .looping } := by rw [Mp4Recorder.work, hworker]
    unfold Publication.work
    rw [hworker]
    exact I.worked hσ hbusy hsys (fun _ _ => rfl) (fun h => by cases h)
      ⟨R.frame rfl rfl rfl rfl rfl, hwriter⟩
  | wrote timestamp =>
    simp only [Stage, hworker] at hstage
    obtain ⟨R, hwriter⟩ := hstage
    have hsys : Mp4Recorder.work r.sys (.ok .unknown) =
        { r.sys with
          status :=
            { r.sys.status with
              writtenFrames := r.sys.status.writtenFrames + 1
              duration100ns := timestamp + r.sys.timeline.duration }
          worker := .looping } := by rw [Mp4Recorder.work, hworker]
    unfold Publication.work
    rw [hworker]
    exact I.worked hσ hbusy hsys (fun _ _ => rfl) (fun h => by cases h)
      ⟨R.frame rfl rfl rfl rfl rfl, hwriter⟩
  | finishing =>
    simp only [Stage, hworker] at hstage
    obtain ⟨R, hwriter⟩ := hstage
    have hsys : Mp4Recorder.work r.sys (.ok .unknown) =
        { r.sys with
          status := { r.sys.status with state := .finalizing }
          worker := .finalizing } := by rw [Mp4Recorder.work, hworker]
    unfold Publication.work
    rw [hworker]
    exact I.worked hσ hbusy hsys (fun _ _ => rfl) (fun h => by cases h)
      ⟨R.frame rfl rfl rfl rfl rfl, hwriter⟩
  | failing error currentFrames =>
    simp only [Stage, hworker] at hstage
    have hnone : r.writer = none := I.closed (by rw [mayHold, hworker])
    have hsys : Mp4Recorder.work r.sys (.ok .unknown) =
        { r.sys with
          queue := []
          stopRequested := true
          sessionActive := false
          worker := .discarding error (currentFrames + r.sys.queue.length) } := by
      rw [Mp4Recorder.work, hworker]
    unfold Publication.work
    rw [hworker]
    exact I.worked hσ hbusy hsys (fun _ _ => rfl) (fun _ => hnone)
      ⟨hstage.1.frame rfl, hstage.2.frame rfl rfl rfl⟩

/-! ### Runs -/

/-- The recorder of a process that has made some partial paths already. -/
def init (disk : Disk) (partialSequence : ℕ) : Rec := { sys := { partialSequence }, disk }

theorem inv_init (disk : Disk) (partialSequence : ℕ) : Inv (init disk partialSequence) where
  control :=
    { alone := fun h => by cases h
      stopped := fun _ => rfl
      ending := fun h => by cases h
      discarding := fun _ _ h => by cases h
      resting := fun _ _ => rfl
      failing := fun h => by cases h
      apart := fun _ _ h => by cases h }
  closed _ := rfl
  begun _ := ⟨rfl, rfl⟩
  held σ hσ := by cases hσ

theorem inv_next (r : Rec) (a : Action) (I : Inv r) (h : enabled r a) : Inv (next r a) := by
  cases a with
  | control a => exact I.call h
  | work answer residue => exact I.work h

/-- While a session goes on nothing is moved. -/
theorem Stage.output (h : Stage σ r) :
    Outcome σ r ∨ (r.disk σ.output = σ.before σ.output ∧ ¬ended r.sys) := by
  unfold Stage at h
  cases hworker : r.sys.worker with
  | idle =>
    simp only [hworker] at h
    split_ifs at h with hinside
    · exact .inr ⟨h.1.output, fun hended => by cases hinside.symm.trans hended.2⟩
    · exact .inl h
  | moving =>
    simp only [hworker] at h
    exact .inr ⟨h.output, fun hended => by cases hworker.symm.trans hended.1⟩
  | failing error currentFrames =>
    simp only [hworker] at h
    exact .inr ⟨h.1.output, fun hended => by cases hworker.symm.trans hended.1⟩
  | discarding error discarded =>
    simp only [hworker] at h
    exact .inr ⟨h.1.output, fun hended => by cases hworker.symm.trans hended.1⟩
  | _ =>
    simp only [hworker] at h
    exact .inr ⟨h.1.untouched.output, fun hended => by cases hworker.symm.trans hended.1⟩

theorem Held.published (H : Held σ r) : Published σ r where
  replaced hreplaced := by
    rcases H.stage.output with h | ⟨h, -⟩
    · cases h with
      | completed _ _ finalized output _ => exact ⟨finalized, output⟩
      | notMoved _ _ _ output _ => exact absurd output hreplaced
      | failed _ _ _ output _ => exact absurd output hreplaced
    · exact absurd h hreplaced
  others := H.others
  outcome hended := by
    rcases H.stage.output with h | ⟨-, h⟩
    · exact h
    · exact absurd hended h

/-- **The output is replaced by a finished recording or not at all**: in every state of every run,
whatever was on disk before. -/
theorem published_of_run (disk : Disk) (partialSequence : ℕ) {as : List Action}
    (h : machine.Legal (fun _ _ => True) (init disk partialSequence) as) :
    ∀ σ, (machine.exec (init disk partialSequence) as).session = some σ →
      Published σ (machine.exec (init disk partialSequence) as) := by
  have I : Inv (machine.exec (init disk partialSequence) as) :=
    h.invariant (inv_init disk partialSequence) fun r a I ha _ => inv_next r a I ha
  exact fun σ hσ => (I.held σ hσ).published

/-- An earlier file under the output path. -/
def sampleDisk : Disk := fun path =>
  if path = sampleConfig.outputPath then some (.other [1]) else none

/-- `start`, and the worker up to the second of `openWriter`'s attempts. -/
def sampleOpening : List Action :=
  (sampleStart ++ List.replicate 2 (Mp4Recorder.Action.starting true)).map .control ++
    [.work (.ok ()) none, .work (.ok ()) none, .work (.error (.other 1)) (some (.other [0])),
      .work (.ok ()) none, .work (.ok ()) none]

/-- A frame is written, and `stop` waits for the end. -/
def sampleRecording : List Action := List.flatten
  [[.work (.ok ()) none, .work (.ok ()) none, .control (.enqueue (some sampleFrame)),
      .work (.ok ()) none, .work (.ok ()) (some (.other [2])), .work (.ok ()) none, .control .stop],
    List.replicate 4 (.work (.ok ()) none), [.control .stopping]]

/-- The second attempt fails as well. -/
def sampleRefused : List Action :=
  [.work (.error (.other 1)) (some (.other [0])), .work (.ok ()) none, .work (.ok ()) none]

theorem published_of_run_sample :
    ((∀ σ, (machine.exec (init sampleDisk 0) (sampleOpening ++ sampleRecording)).session = some σ →
        Published σ (machine.exec (init sampleDisk 0) (sampleOpening ++ sampleRecording))) ∧
      (machine.exec (init sampleDisk 0) (sampleOpening ++ sampleRecording)).disk
        sampleConfig.outputPath = some (.recording [(sampleFrame, 0)])) ∧
    (∀ σ, (machine.exec (init sampleDisk 0) (sampleOpening ++ sampleRefused)).session = some σ →
        Published σ (machine.exec (init sampleDisk 0) (sampleOpening ++ sampleRefused))) ∧
      (machine.exec (init sampleDisk 0) (sampleOpening ++ sampleRefused)).disk
        sampleConfig.outputPath = some (.other [1]) :=
  ⟨⟨published_of_run sampleDisk 0 (by decide), by decide⟩,
    published_of_run sampleDisk 0 (by decide), by decide⟩

end RemoteCam.Media.Publication
