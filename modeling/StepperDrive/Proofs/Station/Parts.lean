import StepperDrive.Proofs.Task.Coherent
import StepperDrive.Proofs.Emergency.Phase
import StepperDrive.Station.Operation
/-!
# What each request does to a station

The requests that make up the running drive are the submissions and edits of the intake, the
polls of the motor task, of the coordinator and of the button, emergency events posted on the
bus, and the panel's service (`StationOp.inPipeline`); taking a command off the queue by hand
and the multi-poll `run` and `settle` are not among them.

`Station.Applied` lists what such a request does, by the part it touches: a quiet request
leaves the task and the coordinator, the gate and the status, and adds to the queue exactly the
command it reports accepted; a poll of the coordinator is `Coordinator.poll` on the bus; a
poll of the motor task is one `MotorTask.Polled` step on the task and the bus.
-/

namespace StepperDrive

namespace BoundedQueue

variable {α : Type} {q q' : BoundedQueue α} {a : α}

theorem trySend_eq_some (h : q.trySend a = some q') : q' = { q with items := q.items ++ [a] } := by
  unfold trySend at h
  split at h
  · contradiction
  · cases h
    rfl

end BoundedQueue

namespace Bus

/-- The bus with commands added at the end of its queue. -/
def enqueue (bus : Bus) (ps : List MotorParameters) : Bus :=
  { bus with commands := { bus.commands with items := bus.commands.items ++ ps } }

@[simp] theorem enqueue_nil (bus : Bus) : bus.enqueue [] = bus := by
  simp [enqueue]

theorem postEmergency_bus (bus : Bus) (e : EmergencyEvent) :
    (bus.postEmergency e).1 = { bus with emergency := (bus.postEmergency e).1.emergency } := by
  unfold postEmergency
  split <;> rfl

end Bus

/-- The commands a submission reports accepted. -/
def StationOp.accepted : StationOp → StationReply → List MotorParameters
  | .trySubmit, .command r | .submit, .submitted r _ | .handleQuery _, .submitted r _ =>
    r.toOption.toList
  | _, _ => []

/-- Whether a request is a step of the running drive. -/
def StationOp.inPipeline : StationOp → Bool
  | .receiveCommand | .run .. | .settle .. => false
  | _ => true

theorem Except.toOption_mapError {ε ε' α : Type} (f : ε → ε') (r : Except ε α) :
    (r.mapError f).toOption = r.toOption := by
  cases r <;> rfl

namespace Intake

/-- A single submission adds to the queue exactly the command it reports accepted. -/
theorem trySubmit_bus (i : Intake) (bus : Bus) :
    (i.trySubmit bus).2.1 = bus.enqueue (i.trySubmit bus).2.2.toOption.toList := by
  unfold trySubmit
  split
  · simp [Except.toOption]
  · split
    · rename_i q sent
      rw [BoundedQueue.trySend_eq_some sent]
      rfl
    · simp [Except.toOption]

variable {δ : Type} [Delay δ]

theorem postWithBackoff_bus (backoff : Nat) (p : MotorParameters) (bus : Bus) (retries : Nat) (d : δ) :
    (postWithBackoff backoff p bus retries d).1 =
      bus.enqueue (postWithBackoff backoff p bus retries d).2.2.toOption.toList := by
  cases sent : bus.commands.trySend p with
  | none =>
    rw [postWithBackoff_full backoff p bus sent]
    simp [Except.toOption]
  | some q =>
    -- a queue with room takes the command at the first attempt
    have posted : postWithBackoff backoff p bus retries d = ({ bus with commands := q }, d, .ok p) := by
      cases retries <;> simp only [postWithBackoff, sent]
    rw [posted, BoundedQueue.trySend_eq_some sent]
    rfl

/-- A submission with back-off adds to the queue exactly the command it reports accepted. -/
theorem submit_bus (i : Intake) (bus : Bus) (d : δ) :
    (i.submit bus d).2.1 = bus.enqueue (i.submit bus d).2.2.2.toOption.toList := by
  unfold submit
  split
  · simp [Except.toOption]
  · exact postWithBackoff_bus _ _ _ _ _

end Intake

namespace ButtonMonitor

theorem poll_bus (b : ButtonMonitor) (reading : Option Bool) (bus : Bus) :
    (b.poll reading bus).2.1 = { bus with emergency := (b.poll reading bus).2.1.emergency } := by
  unfold poll
  split
  · rfl
  · dsimp only
    split
    · rfl
    · exact Bus.postEmergency_bus _ _

end ButtonMonitor

namespace Station

variable {σ : Type}

/-- Posting feedback writes only the queue of feedback and the count of dropped events. -/
theorem postFeedback_frame (s : Station σ) (es : List FeedbackEvent) :
    (s.postFeedback es).task = s.task ∧ (s.postFeedback es).coordinator = s.coordinator ∧
      (s.postFeedback es).bus = { s.bus with feedback := (s.postFeedback es).bus.feedback } := by
  induction es generalizing s with
  | nil => exact ⟨rfl, rfl, rfl⟩
  | cons e es ih =>
    unfold postFeedback
    split
    · exact ih _
    · exact ih _

theorem showAlarms_eq (s : Station σ) (es : List FeedbackEvent) :
    s.showAlarms es = { s with panel := (s.showAlarms es).panel } := by
  unfold showAlarms
  split <;> rfl

/-- What a request of the running drive does, by the part of the station it touches. -/
inductive Applied [CoilOutput σ] (s : Station σ) (op : StationOp) (reply : StationReply)
    (s' : Station σ) : Prop
  /-- The task, the coordinator, the gate and the status stay; the queue gains the commands
  reported accepted. -/
  | quiet (task : s'.task = s.task) (coordinator : s'.coordinator = s.coordinator)
      (gate : s'.bus.gate = s.bus.gate) (status : s'.bus.status = s.bus.status)
      (queued : s'.bus.commands.items = s.bus.commands.items ++ op.accepted reply)
  /-- The coordinator is polled. -/
  | coordinated {now : Nat} (polled : op = .pollCoordinator now) (task : s'.task = s.task)
      (coordinator : s'.coordinator = (s.coordinator.poll s.bus now).1)
      (bus : s'.bus = (s.coordinator.poll s.bus now).2.1)
  /-- The motor task is polled, on the task and the bus. -/
  | polled {now : Nat} {r : Except DriveError TaskPoll} {w' : TaskWorld σ}
      (polled : op = .pollTask now) (step : MotorTask.Polled now ⟨s.task, s.bus, []⟩ r w')
      (task : s'.task = w'.task) (coordinator : s'.coordinator = s.coordinator)
      (bus : s'.bus = { w'.bus with feedback := s'.bus.feedback })

variable [CoilOutput σ] {s s' : Station σ} {reply : StationReply}

theorem pollTask_polled {now : Nat} {r : Except DriveError TaskPoll} (h : s.pollTask now = .ok (s', r)) :
    ∃ w', MotorTask.Polled now ⟨s.task, s.bus, []⟩ r w' ∧
      s' = ({ s with task := w'.task, bus := w'.bus } : Station σ).postFeedback w'.emitted := by
  unfold pollTask at h
  obtain ⟨⟨r', w'⟩, ran, answered⟩ := bind_eq_ok.mp h
  obtain ⟨rfl, rfl⟩ := Prod.mk.inj (pure_eq_ok.mp answered).symm
  exact ⟨w', MotorTask.poll_polled ran, rfl⟩

/-- A poll of the motor task through the station: one step of the task, its feedback posted. -/
theorem apply_pollTask {now : Nat} (h : s.apply (.pollTask now) = .ok (s', reply)) :
    ∃ r w', MotorTask.Polled now ⟨s.task, s.bus, []⟩ r w' ∧ s'.task = w'.task ∧
      s'.coordinator = s.coordinator ∧ s'.bus = { w'.bus with feedback := s'.bus.feedback } := by
  obtain ⟨⟨s₁, r⟩, polled, answered⟩ := bind_eq_ok.mp h
  obtain ⟨rfl, -⟩ := Prod.mk.inj (pure_eq_ok.mp answered).symm
  obtain ⟨w', step, rfl⟩ := pollTask_polled polled
  obtain ⟨task, coordinator, bus⟩ := postFeedback_frame ({ s with task := w'.task, bus := w'.bus } : Station σ)
    w'.emitted
  exact ⟨r, w', step, task, coordinator, bus⟩

/-- A request that writes neither the task, the coordinator, the gate, the status nor the queue. -/
theorem Applied.aside {op : StationOp} (task : s'.task = s.task)
    (coordinator : s'.coordinator = s.coordinator) (gate : s'.bus.gate = s.bus.gate)
    (status : s'.bus.status = s.bus.status) (commands : s'.bus.commands = s.bus.commands)
    (nothing : op.accepted reply = []) : Applied s op reply s' :=
  .quiet task coordinator gate status (by rw [nothing, List.append_nil, commands])

/-- A submission: the queue gains the command reported accepted. -/
theorem Applied.submitted {op : StationOp} {r : Except IntakeError MotorParameters}
    (task : s'.task = s.task) (coordinator : s'.coordinator = s.coordinator)
    (posted : s'.bus = s.bus.enqueue r.toOption.toList) (accepted : op.accepted reply = r.toOption.toList) :
    Applied s op reply s' :=
  .quiet task coordinator (by rw [posted]; rfl) (by rw [posted]; rfl) (by rw [posted, accepted]; rfl)

/-- Every request of the running drive is one of the three kinds of `Applied`. -/
theorem apply_applied {op : StationOp} (inPipeline : op.inPipeline = true)
    (h : s.apply op = .ok (s', reply)) : Applied s op reply s' := by
  cases op with
  | pollTask now =>
    obtain ⟨r, w', step, task, coordinator, bus⟩ := apply_pollTask h
    exact .polled rfl step task coordinator bus
  | pollCoordinator now =>
    simp only [apply, pollCoordinator] at h
    generalize polled : s.coordinator.poll s.bus now = out at h
    obtain ⟨c, bus, alarms⟩ := out
    cases h
    rw [showAlarms_eq]
    exact .coordinated rfl rfl (by rw [polled]) (by rw [polled])
  | trySubmit =>
    simp only [apply] at h
    have posted := Intake.trySubmit_bus s.intake s.bus
    generalize s.intake.trySubmit s.bus = out at h posted
    obtain ⟨i, bus, r⟩ := out
    cases h
    exact .submitted rfl rfl posted (congrArg Option.toList (Except.toOption_mapError _ r))
  | submit =>
    simp only [apply] at h
    have posted := Intake.submit_bus s.intake s.bus DelayTally.zero
    generalize s.intake.submit s.bus DelayTally.zero = out at h posted
    obtain ⟨i, bus, d, r⟩ := out
    cases h
    exact .submitted rfl rfl posted (congrArg Option.toList (Except.toOption_mapError _ r))
  | handleQuery query =>
    simp only [apply] at h
    have posted : (s.intake.handleQuery query s.bus DelayTally.zero).2.1 =
        s.bus.enqueue (s.intake.handleQuery query s.bus DelayTally.zero).2.2.2.toOption.toList :=
      Intake.submit_bus _ _ _
    generalize s.intake.handleQuery query s.bus DelayTally.zero = out at h posted
    obtain ⟨i, bus, d, r⟩ := out
    cases h
    exact .submitted rfl rfl posted (congrArg Option.toList (Except.toOption_mapError _ r))
  | postEmergency e =>
    simp only [apply, Station.postEmergency] at h
    have posted := Bus.postEmergency_bus s.bus e
    generalize s.bus.postEmergency e = out at h posted
    obtain ⟨bus, taken⟩ := out
    cases h
    exact .aside rfl rfl (by rw [posted]) (by rw [posted]) (by rw [posted]) rfl
  | pollButton reading =>
    simp only [apply, Station.pollButton] at h
    have posted := ButtonMonitor.poll_bus s.button reading s.bus
    generalize s.button.poll reading s.bus = out at h posted
    obtain ⟨b, bus, r⟩ := out
    cases h
    exact .aside rfl rfl (by rw [posted]) (by rw [posted]) (by rw [posted]) rfl
  | applyField key value =>
    simp only [apply] at h
    split at h
    · cases h
      exact .aside rfl rfl rfl rfl rfl rfl
    · cases h
      exact .aside rfl rfl rfl rfl rfl rfl
  | receiveFeedback =>
    simp only [apply, receiveFeedback] at h
    split at h
    · cases h
      exact .aside rfl rfl rfl rfl rfl rfl
    · cases h
      exact .aside rfl rfl rfl rfl rfl rfl
  | applyQuery | setTemplate | prepare | inspect | servicePanel =>
    cases h
    exact .aside rfl rfl rfl rfl rfl rfl
  | receiveCommand | run | settle => cases inPipeline

end Station

end StepperDrive
