import Mathlib.Data.List.Forall2
import RemoteCam.Phone.Parts

/-! # Overtaken tasks

`startStreaming` and `reconfigure` capture the generation of the stream they are started for. A part
of them that runs in a later generation is overtaken: it has nothing left to do. `harmless_of_run`:
it does nothing, in runs where the parts behind the last `await` of a task run in its generation,
and so does a part that finds `camera.prepare` to have failed, as long as the encoder has the
session of another task. -/

namespace RemoteCam.Phone.Generations

open RemoteCam.Lib.Transitions RemoteCam.Phone.Transport RemoteCam.Phone.Session
open RemoteCam.Phone.Parts

/-! ### The machine -/

structure Supervised where
  client : Client
  /-- Ghost: the generations that the tasks have captured. -/
  captured : List (Option ℕ) := []
  /-- The generation of the task that configured the encoder's session. -/
  encoder : Option ℕ := none
  deriving DecidableEq

/-- A part hands its generation on to the next one; a new task captures one. -/
def Supervised.capturedAfter (s : Supervised) (a : Action) : List (Option ℕ) :=
  let tasks := (next s.client a).tasks
  match a with
  | .run i _ _ =>
    s.captured.eraseIdx i ++
      (tasks.drop (s.client.tasks.length - 1)).map fun _ => (s.captured[i]?).join
  | _ => s.captured ++ (tasks.drop s.client.tasks.length).map AppTask.generation

def Supervised.encoderAfter (s : Supervised) : Action → Option ℕ
  | .disconnect => none
  | .handle i =>
    match s.client.events[i]? with
    | none => s.encoder
    | some event => if endsCapture s.client event then none else s.encoder
  | .run i outcome restored =>
    match (s.client.tasks[i]?).bind (encoderCall s.client outcome restored) with
    | none => s.encoder
    | some none => none
    | some (some _) => (s.captured[i]?).join
  | _ => s.encoder

def supervised : Machine Supervised Action where
  enabled s a := enabled s.client a
  next s a := ⟨next s.client a, s.capturedAfter a, s.encoderAfter a⟩

def Supervised.start (allowsUnauthenticatedConnections : Bool) : Supervised :=
  { client := Client.start allowsUnauthenticatedConnections }

/-! ### What is overtaken -/

/-- Task `i` has captured a generation that is over. -/
def Supervised.overtaken (s : Supervised) (i : ℕ) : Prop :=
  ∃ g ∈ (s.captured[i]?).join, g ≠ s.client.app.streamGeneration

/-- The encoder has a session of another task. -/
def Supervised.foreign (s : Supervised) (i : ℕ) : Prop :=
  s.encoder.isSome = true ∧ s.encoder ≠ (s.captured[i]?).join

/-- No message, no phase, no end of the suspension, no change of the configuration. -/
structure Idle (s s' : Client) : Prop where
  transport : s'.transport = s.transport
  session : s'.session = s.session
  connectionPhase : s'.app.connectionPhase = s.app.connectionPhase
  currentConfiguration : s'.app.currentConfiguration = s.app.currentConfiguration

/-- A part leaves the generation alone, so it stays in it to its end; a part that is overtaken does
nothing, and nothing to the encoder of another task. -/
def harmless (s : Supervised) : Action → Prop
  | .run i outcome restored =>
    (next s.client (.run i outcome restored)).app.streamGeneration =
      s.client.app.streamGeneration ∧
    (s.overtaken i → Idle s.client (next s.client (.run i outcome restored)) ∧
      ∀ task ∈ s.client.tasks[i]?, s.foreign i → encoderCall s.client outcome restored task = none)
  | _ => True

/-- A failed `camera.prepare` makes the part invalidate the encoder. -/
def AppTask.invalidates (outcome : Outcome) : AppTask → Bool
  | .startPrepared _ _ | .reconfigurePrepared _ _ _ _ => outcome ≠ .ok
  | _ => false

def timely (s : Supervised) : Action → Prop
  | .run i outcome _ => ∀ task ∈ s.client.tasks[i]?, s.overtaken i →
    AppTask.blind task = false ∧ (AppTask.invalidates outcome task = true → ¬ s.foreign i)
  | _ => True

instance (s : Supervised) (a : Action) : Decidable (supervised.enabled s a) :=
  inferInstanceAs (Decidable (enabled s.client a))

instance (s : Supervised) (i : ℕ) : Decidable (s.overtaken i) :=
  inferInstanceAs (Decidable (∃ g ∈ (s.captured[i]?).join, g ≠ s.client.app.streamGeneration))

instance (s : Supervised) (i : ℕ) : Decidable (s.foreign i) :=
  inferInstanceAs (Decidable (_ ∧ _))

instance (s : Supervised) (a : Action) : Decidable (timely s a) :=
  match a with
  | .run i outcome _ =>
    inferInstanceAs (Decidable (∀ task ∈ s.client.tasks[i]?, s.overtaken i →
      AppTask.blind task = false ∧ (AppTask.invalidates outcome task = true → ¬ s.foreign i)))
  | .connect .. | .disconnect | .setAllowsUnauthenticated _ | .reconnect | .dequeue | .network _
  | .processed .. | .handle _ | .telemetry _ | .updateCamera | .encode _ | .encoderError _ =>
    .isTrue trivial

/-! ### Tasks -/

/-- Other actions leave the tasks that there are. -/
theorem tasks_next {s : Client} {a : Action} (h : ∀ i outcome restored, a ≠ .run i outcome restored) :
    ∃ added, (next s a).tasks = s.tasks ++ added := by
  have hsame {s' : Client} (h : s'.tasks = s.tasks) : ∃ added, s'.tasks = s.tasks ++ added :=
    ⟨[], by rw [h, List.append_nil]⟩
  have hdoes {s' : Client} (h : Does AppTask.silent False s s') :
      ∃ added, s'.tasks = s.tasks ++ added := by
    obtain ⟨added, hadded, -⟩ := h.tasks
    exact ⟨added, hadded⟩
  cases a with
  | connect host discovered =>
    unfold next AppModel.connect
    dsimp only
    split
    · exact hsame rfl
    · exact hsame rfl
  | disconnect => exact hdoes ((does_suspend _).trans (does_disconnect.trans (does_app _)))
  | setAllowsUnauthenticated | dequeue | encoderError => exact hsame rfl
  | reconnect =>
    unfold next reconnect
    dsimp only
    split <;> exact hsame rfl
  | network callback =>
    unfold next
    dsimp only
    split <;> exact hsame rfl
  | processed i error =>
    unfold next
    dsimp only
    split <;> exact hsame rfl
  | handle i =>
    unfold next
    dsimp only
    split
    · exact hsame rfl
    · let s₁ : Client := { s with events := s.events.eraseIdx i }
      have hevent : Does AppTask.silent False s s₁ := .quiet rfl rfl id
      exact hdoes (hevent.trans (does_handle _))
  | run i outcome restored => exact absurd rfl (h i outcome restored)
  | telemetry snapshot => exact hdoes ((does_app _).trans (does_sendTelemetry _ _))
  | updateCamera => exact hdoes (.await s _ nofun)
  | encode unit => exact ⟨[.accessUnit unit], rfl⟩

theorem tasks_resume {s : Client} (outcome restored : Outcome) (task : AppTask) :
    ∃ added, (resume s outcome restored task).tasks = s.tasks ++ added ∧
      ∀ task' ∈ added, AppTask.continues task task' := by
  by_cases hunit : ∃ unit, task = .accessUnit unit
  · obtain ⟨unit, rfl⟩ := hunit
    refine ⟨[], ?_, fun task' h => absurd h List.not_mem_nil⟩
    rw [List.append_nil]
    unfold resume sendVideo
    dsimp only
    split <;> rfl
  · exact (does_resume outcome restored task fun unit h => hunit ⟨unit, h⟩).tasks

/-! ### Generations -/

/-- What is captured, against what the part still knows. -/
def Knows (task : AppTask) (captured : Option ℕ) : Prop :=
  AppTask.blind task = false → AppTask.generation task = captured

def Inv (s : Supervised) : Prop := List.Forall₂ Knows s.client.tasks s.captured

theorem forall₂_eraseIdx {α β : Type*} {R : α → β → Prop} {l : List α} {l' : List β}
    (h : List.Forall₂ R l l') (i : ℕ) : List.Forall₂ R (l.eraseIdx i) (l'.eraseIdx i) := by
  induction h generalizing i with
  | nil => exact .nil
  | cons hab h ih =>
    cases i with
    | zero => exact h
    | succ i => exact .cons hab (ih i)

/-- The task that goes on, and what it has captured. -/
theorem Inv.knows {s : Supervised} (hinv : Inv s) {i : ℕ} (hi : i < s.client.tasks.length) :
    Knows s.client.tasks[i] (s.captured[i]?).join := by
  have hlen := hinv.length_eq
  have hi' : i < s.captured.length := hlen ▸ hi
  rw [List.getElem?_eq_getElem hi']
  exact hinv.get hi hi'

theorem Inv.next {s : Supervised} {a : Action} (hinv : Inv s) (ha : enabled s.client a) :
    Inv (supervised.next s a) := by
  by_cases hrun : ∃ i outcome restored, a = .run i outcome restored
  · obtain ⟨i, outcome, restored, rfl⟩ := hrun
    have hi : i < s.client.tasks.length := ha
    have hnext := @Effects.next_run s.client i outcome restored hi
    set kept : Client := { s.client with tasks := s.client.tasks.eraseIdx i } with hkept
    obtain ⟨added, hadded, hcontinues⟩ :=
      @tasks_resume kept outcome restored s.client.tasks[i]
    have hlen : (s.client.tasks.eraseIdx i).length = s.client.tasks.length - 1 :=
      List.length_eraseIdx_of_lt hi
    have hcaptured : s.capturedAfter (.run i outcome restored) =
        s.captured.eraseIdx i ++ added.map fun _ => (s.captured[i]?).join := by
      unfold Supervised.capturedAfter
      dsimp only
      rw [hnext, hadded, ← hlen, List.drop_left]
    have hnew : List.Forall₂ Knows added (added.map fun _ => (s.captured[i]?).join) := by
      refine List.forall₂_map_right_iff.mpr (List.forall₂_same.mpr fun task ht hblind => ?_)
      obtain ⟨hsees, -, hsame⟩ := hcontinues task ht
      exact (hsame hblind).trans (hinv.knows hi hsees)
    have htasks : (Session.next s.client (.run i outcome restored)).tasks =
        s.client.tasks.eraseIdx i ++ added := by rw [hnext, hadded]
    unfold Inv supervised
    dsimp only
    rw [hcaptured, htasks]
    exact List.rel_append (forall₂_eraseIdx hinv i) hnew
  · have hother : ∀ i outcome restored, a ≠ .run i outcome restored :=
      fun i outcome restored h => hrun ⟨i, outcome, restored, h⟩
    obtain ⟨added, hadded⟩ := @tasks_next s.client a hother
    have hcaptured : s.capturedAfter a = s.captured ++ added.map AppTask.generation := by
      unfold Supervised.capturedAfter
      dsimp only
      split
      · exact absurd rfl (hother _ _ _)
      · rw [hadded, List.drop_left]
    have hnew : List.Forall₂ Knows added (added.map AppTask.generation) :=
      List.forall₂_map_right_iff.mpr (List.forall₂_same.mpr fun task _ _ => rfl)
    unfold Inv supervised
    dsimp only
    rw [hcaptured, hadded]
    exact List.rel_append hinv hnew

section Parts
variable {s : Client}

theorem generation_disconnect (h : s.app.currentConfiguration = none) :
    (RemoteCamSession.disconnect s).app.streamGeneration = s.app.streamGeneration := by
  unfold RemoteCamSession.disconnect updatePhase onPhaseChange setVideoSuspended
  dsimp only
  rw [h]
  rfl

theorem generation_markStreaming (configuration : StreamConfiguration) (announceStart : Bool) :
    (markStreaming s configuration announceStart).app.streamGeneration =
      s.app.streamGeneration := by
  unfold markStreaming
  split
  · rfl
  · cases announceStart <;> rfl

theorem generation_foldl_sendControl (messages : List ControlMessage) :
    (messages.foldl sendControl s).app.streamGeneration = s.app.streamGeneration := by
  induction messages generalizing s with
  | nil => rfl
  | cons message messages ih => exact ih

theorem generation_startLive (configuration : StreamConfiguration) :
    (startLive s configuration).app.streamGeneration = s.app.streamGeneration := by
  unfold startLive sendTelemetry
  dsimp only
  split
  · exact (generation_foldl_sendControl _).trans (generation_markStreaming configuration true)
  · exact generation_markStreaming configuration true

theorem generation_startFailed (generation : ℕ) (error : String) :
    (startFailed s generation error).app.streamGeneration = s.app.streamGeneration := by
  unfold startFailed
  split <;> rfl

theorem generation_reconfigureFailed (previous : Option StreamConfiguration)
    (taskGeneration formatGeneration : ℕ) (error : String) (restored : Outcome) :
    (reconfigureFailed s previous taskGeneration formatGeneration error
      restored).app.streamGeneration = s.app.streamGeneration := by
  unfold reconfigureFailed
  split
  · split <;> rfl
  · rfl

/-- A part of a task stays in its generation. -/
theorem generation_resume (outcome restored : Outcome) (task : AppTask) :
    (resume s outcome restored task).app.streamGeneration = s.app.streamGeneration := by
  cases task with
  | accessUnit unit =>
    unfold resume sendVideo
    dsimp only
    split <;> rfl
  | cameraUpdate => cases outcome <;> rfl
  | startStreaming configuration generation =>
    unfold resume startStreaming
    dsimp only
    split
    · split
      · exact generation_startFailed _ _
      · exact generation_startFailed _ _
      · rfl
    · rfl
  | startPrepared configuration generation =>
    unfold resume startPrepared
    dsimp only
    split
    · exact generation_startFailed _ _
    · split
      · split
        · rfl
        · exact generation_startLive _
      · rfl
  | startAnnounced configuration => exact generation_startLive _
  | startStopped error => exact generation_disconnect rfl
  | reconfigure configuration taskGeneration formatGeneration =>
    unfold resume reconfigure
    dsimp only
    split
    · split
      · exact generation_reconfigureFailed _ _ _ _ _
      · rfl
    · rfl
  | reconfigureStopped configuration previous taskGeneration formatGeneration =>
    unfold resume reconfigureStopped
    dsimp only
    split
    · split
      · exact generation_reconfigureFailed _ _ _ _ _
      · rfl
    · rfl
  | reconfigurePrepared configuration previous taskGeneration formatGeneration =>
    unfold resume reconfigurePrepared
    dsimp only
    split
    · exact generation_reconfigureFailed _ _ _ _ _
    · split
      · split
        · exact generation_markStreaming _ _
        · rfl
      · rfl
  | reconfigureRestored previous taskGeneration formatGeneration error =>
    unfold resume reconfigureRestored
    dsimp only
    split
    · rfl
    · split
      · exact generation_markStreaming _ _
      · rfl
  | reconfigureAbandoned => exact generation_disconnect rfl

theorem Idle.refl (s : Client) : Idle s s := ⟨rfl, rfl, rfl, rfl⟩

/-- The parts that look at the generation do nothing in another one. -/
theorem idle_resume {task : AppTask} {g : ℕ} (hg : AppTask.generation task = some g)
    (hne : g ≠ s.app.streamGeneration) (outcome restored : Outcome) :
    Idle s (resume s outcome restored task) := by
  cases task with
  | accessUnit | cameraUpdate | startAnnounced | startStopped | reconfigureAbandoned => cases hg
  | startStreaming configuration generation =>
    obtain rfl := Option.some.inj hg
    unfold resume startStreaming
    dsimp only
    rw [if_neg hne]
    exact .refl s
  | startPrepared configuration generation =>
    obtain rfl := Option.some.inj hg
    unfold resume startPrepared startFailed
    cases outcome with
    | ok => dsimp only; rw [if_neg hne]; exact .refl s
    | error error => dsimp only; rw [if_neg hne]; exact .refl s
  | reconfigure configuration taskGeneration formatGeneration =>
    obtain rfl := Option.some.inj hg
    unfold resume reconfigure
    dsimp only
    rw [if_neg hne]
    exact .refl s
  | reconfigureStopped configuration previous taskGeneration formatGeneration =>
    obtain rfl := Option.some.inj hg
    unfold resume reconfigureStopped
    dsimp only
    rw [if_neg hne]
    exact .refl s
  | reconfigurePrepared configuration previous taskGeneration formatGeneration =>
    obtain rfl := Option.some.inj hg
    unfold resume reconfigurePrepared reconfigureFailed
    cases outcome with
    | ok => dsimp only; rw [if_neg hne]; exact .refl s
    | error error => dsimp only; rw [if_neg hne]; exact .refl s
  | reconfigureRestored previous taskGeneration formatGeneration error =>
    obtain rfl := Option.some.inj hg
    unfold resume reconfigureRestored
    cases outcome with
    | ok => dsimp only; rw [if_neg hne]; exact .refl s
    | error error => exact ⟨rfl, rfl, rfl, rfl⟩

theorem encoderCall_overtaken {task : AppTask} {g : ℕ} (hg : AppTask.generation task = some g)
    (hne : g ≠ s.app.streamGeneration) {outcome : Outcome} (restored : Outcome)
    (hcall : AppTask.invalidates outcome task = false) :
    encoderCall s outcome restored task = none := by
  cases task with
  | accessUnit | cameraUpdate | startAnnounced | startStopped | reconfigureAbandoned |
    reconfigureRestored => rfl
  | startStreaming configuration generation =>
    obtain rfl := Option.some.inj hg
    exact if_neg hne
  | reconfigure configuration taskGeneration formatGeneration =>
    obtain rfl := Option.some.inj hg
    exact if_neg hne
  | reconfigureStopped configuration previous taskGeneration formatGeneration =>
    obtain rfl := Option.some.inj hg
    exact if_neg hne
  | startPrepared | reconfigurePrepared =>
    cases outcome with
    | ok => rfl
    | error error => cases hcall

end Parts

theorem harmless_step {s : Supervised} {a : Action} (hinv : Inv s) (ha : enabled s.client a)
    (htimely : timely s a) : harmless s a := by
  cases a with
  | run i outcome restored =>
    have hi : i < s.client.tasks.length := ha
    have hnext := @Effects.next_run s.client i outcome restored hi
    have htask : s.client.tasks[i]? = some s.client.tasks[i] := List.getElem?_eq_getElem hi
    refine ⟨?_, fun hovertaken => ?_⟩
    · rw [hnext]
      exact generation_resume _ _ _
    · obtain ⟨hsees, hencoder⟩ := htimely _ htask hovertaken
      obtain ⟨g, hg, hne⟩ := hovertaken
      have hgeneration : AppTask.generation s.client.tasks[i] = some g :=
        (hinv.knows hi hsees).trans hg
      refine ⟨?_, fun task hmem hforeign => ?_⟩
      · have hidle := @idle_resume { s.client with tasks := s.client.tasks.eraseIdx i }
          s.client.tasks[i] g hgeneration hne outcome restored
        rw [hnext]
        exact ⟨hidle.transport, hidle.session, hidle.connectionPhase, hidle.currentConfiguration⟩
      · obtain rfl := Option.some.inj (htask.symm.trans hmem)
        exact encoderCall_overtaken hgeneration hne restored
          (Bool.eq_false_iff.mpr fun h => hencoder h hforeign)
  | _ => trivial

/-- **Overtaken parts.** In every run that is timely no part of `startStreaming` or `reconfigure`
does anything in another generation than its own. -/
theorem harmless_of_run (allows : Bool) (as : List Action)
    (h : supervised.Legal timely (Supervised.start allows) as) :
    supervised.Legal harmless (Supervised.start allows) as :=
  h.along (I := Inv) .nil (fun _ _ hinv ha _ => hinv.next ha)
    fun _ _ hinv ha htimely => harmless_step hinv ha htimely

/-- A format change comes while the camera is prepared for the start of the stream: the start is
overtaken and the change goes on. -/
def changedWhileStarting : List Action :=
  opening "10.0.0.2" ++ agreement ++
    [.run 0 .ok .ok, received (.setFormat (some 1) (some configurationSample)), .handle 0,
      .run 0 .ok .ok, .run 0 .ok .ok, .run 0 .ok .ok, .run 0 .ok .ok]

theorem harmless_of_changedWhileStarting :
    (supervised.exec (Supervised.start true) (changedWhileStarting.take 12)).overtaken 0 ∧
      supervised.Legal harmless (Supervised.start true) changedWhileStarting :=
  ⟨by decide +kernel, harmless_of_run true changedWhileStarting (by decide +kernel)⟩

/-- The user disconnects while the live activity of a new stream starts. -/
def disconnectedWhileStarting : List Action :=
  opening "10.0.0.2" ++ agreement ++ [.run 0 .ok .ok, .run 0 .ok .ok, .disconnect]

/-- The task goes on: the video is no longer suspended and the phase is `streaming` again. -/
theorem not_harmless_of_disconnectedWhileStarting :
    supervised.Legal (fun _ _ => True) (Supervised.start true)
      (disconnectedWhileStarting ++ [.run 0 .ok .ok]) ∧
    ¬ supervised.Legal harmless (Supervised.start true)
      (disconnectedWhileStarting ++ [.run 0 .ok .ok]) := by
  refine ⟨by decide +kernel, fun h => ?_⟩
  obtain ⟨-, -, -, hidle⟩ := h.last
  have hovertaken :
      (supervised.exec (Supervised.start true) disconnectedWhileStarting).overtaken 0 := by
    decide +kernel
  have hphase := (hidle hovertaken).1.connectionPhase
  revert hphase
  decide +kernel

end RemoteCam.Phone.Generations
