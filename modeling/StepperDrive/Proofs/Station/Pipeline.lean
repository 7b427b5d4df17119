import StepperDrive.Proofs.Station.Parts
/-!
# The running drive is safe

The drive runs as an interleaving of atomic requests (`StationOp.inPipeline`): submissions to
the intake, polls of the motor task, of the coordinator and of the button, and emergency events
posted on the bus, at any times. `Station.Runs` follows such an interleaving from a station,
keeping two histories beside it: the commands the intake reported accepted into the queue, and
the commands the motor task took off its head.

Every state of every interleaving from a new station satisfies `Station.Safe`:

* the gate is the image of the coordinator's phase, and the alarm blinks exactly while an
  emergency lasts;
* the commands taken, followed by those still queued, are the commands accepted: none is lost,
  repeated or reordered, so the commands started are a prefix of those accepted;
* the published speed is the controller's, after every poll of the motor task, failed or not.

and every step from it satisfies `Station.SafeStep`: a command is taken only in a poll that
reads the gate as open, from a task with no move under way; with the gate at `stopped` no coil
step is written; and the gate moves to `stopped` only at a moment when the controller's speed
is zero.
-/

namespace StepperDrive

namespace Station

variable {σ : Type} {s s' : Station σ}

/-- The command a step took from the head of the queue: the head, when the queue after the step
is the rest. -/
def took (s s' : Station σ) : List MotorParameters :=
  match s.bus.commands.tryReceive with
  | some (p, q) => if s'.bus.commands = q then [p] else []
  | none => []

/-- A step that does not shorten the queue takes nothing from it. -/
theorem took_of_le (h : s.bus.commands.items.length ≤ s'.bus.commands.items.length) :
    s.took s' = [] := by
  unfold took
  split
  · rename_i p q received
    have shorter : q.items.length < s.bus.commands.items.length := by
      rw [BoundedQueue.tryReceive_items received]
      simp
    rw [if_neg]
    intro taken
    rw [taken] at h
    omega
  · rfl

theorem took_of_tryReceive {p : MotorParameters}
    (h : s.bus.commands.tryReceive = some (p, s'.bus.commands)) : s.took s' = [p] := by
  simp [took, h]

/-- The invariant of the running drive, with the commands accepted into the queue and those
taken from it. -/
structure Safe (s : Station σ) (accepted started : List MotorParameters) : Prop where
  /-- The gate is the image of the phase; the alarm is active exactly during an emergency. -/
  sound : s.coordinator.Sound s.bus
  /-- The commands taken and those queued are the commands accepted, in order. -/
  fifo : started ++ s.bus.commands.items = accepted
  /-- The published status is true to the controller. -/
  coherent : TaskWorld.Coherent ⟨s.task, s.bus, []⟩

/-- A new station is safe: no emergency, nothing queued, and the motor at rest. -/
theorem safe_new (config : SystemConfig) (envelope : Envelope) (capacity : Nat) (coils : σ)
    (frameMs : Nat) (route : AlarmRoute) :
    (Station.new config envelope capacity coils frameMs route).Safe [] [] where
  sound := ⟨rfl, by simp [Station.new, Coordinator.new, AlarmBlinker.new, AlarmBlinker.isActive]⟩
  fifo := rfl
  coherent := ⟨(Controller.currentSpeed_of_currentStepPeriod rfl).symm, fun _ => rfl, fun _ => by
    simp [Station.new, MotorTask.new, Controller.ofConfig, Controller.withParts]⟩

variable [CoilOutput σ]

/-- What a step of the running drive never does. -/
structure SafeStep (s : Station σ) (op : StationOp) (s' : Station σ) : Prop where
  /-- A command is taken only by a poll of the motor task that reads the gate as open, from a
  task waiting for a command with no move under way, or parked. -/
  takes : s.took s' ≠ [] → (∃ now, op = .pollTask now) ∧ s.bus.gate = .normal ∧
    (s.task.state = .awaitingCommand ∧ s.task.controller.state ≠ .ramping ∨ s.task.state = .parked)
  /-- With the gate at `stopped` the only coil write is the release of the coils. -/
  parks : s.bus.gate = .stopped →
    s'.task.controller = s.task.controller ∨ s'.task.controller = s.task.controller.disable.1
  /-- The gate moves to `stopped` only while the motor task stands still with a zero speed. -/
  stops : s.bus.gate ≠ .stopped → s'.bus.gate = .stopped →
    s'.task = s.task ∧ Binary.eq s.task.controller.currentSpeed 0 = true

/-- The states of the running drive from `s₀`, with the commands the intake reported accepted
into the queue and those the motor task took from it, oldest first. -/
inductive Runs (s₀ : Station σ) : Station σ → List MotorParameters → List MotorParameters → Prop
  | start : Runs s₀ s₀ [] []
  | step {s s' : Station σ} {accepted started : List MotorParameters} {op : StationOp}
      {reply : StationReply} (before : Runs s₀ s accepted started) (inPipeline : op.inPipeline = true)
      (applied : s.apply op = .ok (s', reply)) :
      Runs s₀ s' (accepted ++ op.accepted reply) (started ++ s.took s')

variable {op : StationOp} {reply : StationReply} {accepted started : List MotorParameters}

/-- Each step keeps the invariant. -/
theorem Safe.step (h : s.Safe accepted started) (applied : Applied s op reply s') :
    s'.Safe (accepted ++ op.accepted reply) (started ++ s.took s') := by
  cases applied with
  | quiet task coordinator gate status queued =>
    have nothing : s.took s' = [] := took_of_le (by rw [queued]; simp)
    refine ⟨?_, ?_, h.coherent.congr task status⟩
    · rw [coordinator]
      exact h.sound.of_gate_eq gate
    · rw [nothing, queued, List.append_nil, ← List.append_assoc, h.fifo]
  | @coordinated now polled task coordinator bus =>
    have none : op.accepted reply = [] := by rw [polled]; rfl
    have nothing : s.took s' = [] := took_of_le (by rw [bus, Coordinator.poll_frame.1])
    refine ⟨?_, ?_, h.coherent.congr task (by rw [bus, Coordinator.poll_frame.2])⟩
    · rw [coordinator, bus]
      exact h.sound.poll
    · rw [nothing, none, bus, Coordinator.poll_frame.1, List.append_nil, List.append_nil, h.fifo]
  | @polled now r w' polled step task coordinator bus =>
    have none : op.accepted reply = [] := by rw [polled]; rfl
    have gate : s'.bus.gate = s.bus.gate := by rw [bus]; exact step.gate_eq
    have commands : s'.bus.commands = w'.bus.commands := by rw [bus]
    refine ⟨?_, ?_, (step.coherent h.coherent).congr task (by rw [bus])⟩
    · rw [coordinator]
      exact h.sound.of_gate_eq gate
    · rw [none, List.append_nil]
      rcases step.commands with same | ⟨-, -, p, taken⟩
      · -- the queue is left as it was
        have kept : s'.bus.commands = s.bus.commands := commands.trans same
        rw [took_of_le (by rw [kept]), List.append_nil, kept, h.fifo]
      · -- the head is taken: it moves from the queue to the commands taken
        rw [← commands] at taken
        rw [took_of_tryReceive taken, List.append_assoc, List.singleton_append,
          ← BoundedQueue.tryReceive_items taken, h.fifo]

/-- No step of a safe drive takes a command out of turn, steps the motor while parked, or parks
the gate while the motor moves. -/
theorem Safe.safeStep (h : s.Safe accepted started) (applied : Applied s op reply s') :
    s.SafeStep op s' := by
  cases applied with
  | quiet task coordinator gate status queued =>
    have nothing : s.took s' = [] := took_of_le (by rw [queued]; simp)
    refine ⟨fun taken => absurd nothing taken, fun _ => .inl (by rw [task]), ?_⟩
    intro running stopped
    rw [gate] at stopped
    exact absurd stopped running
  | @coordinated now polled task coordinator bus =>
    have nothing : s.took s' = [] := took_of_le (by rw [bus, Coordinator.poll_frame.1])
    refine ⟨fun taken => absurd nothing taken, fun _ => .inl (by rw [task]), ?_⟩
    intro running stopped
    rw [bus] at stopped
    -- the coordinator reads the published speed, which is the controller's
    have atRest := Coordinator.poll_stops_at_rest stopped running
    rw [h.coherent.published] at atRest
    exact ⟨task, atRest⟩
  | @polled now r w' polled step task coordinator bus =>
    have gate : s'.bus.gate = s.bus.gate := by rw [bus]; exact step.gate_eq
    refine ⟨?_, ?_, ?_⟩
    · intro taken
      rcases step.commands with same | ⟨normal, state, -⟩
      · have kept : s'.bus.commands = s.bus.commands := by rw [bus]; exact same
        exact absurd (took_of_le (by rw [kept])) taken
      · refine ⟨⟨now, polled⟩, normal, ?_⟩
        rcases state with waiting | parked
        · have waiting : s.task.state = .awaitingCommand := waiting
          exact .inl ⟨waiting, h.coherent.settled (by rw [waiting]; rfl)⟩
        · exact .inr parked
    · intro stopped
      rw [task]
      exact step.controller_of_stopped stopped
    · intro running stopped
      rw [gate] at stopped
      exact absurd stopped running

/-- Every state of a run from a safe station is safe. -/
theorem Runs.safe {s₀ : Station σ} (h : Runs s₀ s accepted started) (initial : s₀.Safe [] []) :
    s.Safe accepted started := by
  induction h with
  | start => exact initial
  | step _ inPipeline applied ih => exact ih.step (apply_applied inPipeline applied)

/-- Every interleaving of the drive's requests from a new station keeps the gate the image of
the coordinator's phase and the alarm to the emergency, starts the accepted commands in order,
and keeps the published speed the controller's; and no step from there takes a command while
the gate is closed or a move is under way, steps the motor while the gate is at `stopped`, or
moves the gate to `stopped` while the motor has a speed. -/
theorem Runs.stays_safe {config : SystemConfig} {envelope : Envelope} {capacity : Nat} {coils : σ}
    {frameMs : Nat} {route : AlarmRoute}
    (h : Runs (Station.new config envelope capacity coils frameMs route) s accepted started) :
    s.Safe accepted started ∧
      ∀ op s' reply, op.inPipeline = true → s.apply op = .ok (s', reply) → s.SafeStep op s' := by
  have safe := h.safe (safe_new config envelope capacity coils frameMs route)
  exact ⟨safe, fun _ _ _ inPipeline applied => safe.safeStep (apply_applied inPipeline applied)⟩

/-- A command of 100 steps at 10 steps/s, accelerating and braking at 10 steps/s². -/
def hundredSteps : MotorParameters :=
  { MotorParameters.zero with
    finalPosition := 100
    speed := 10
    acceleration := 10
    deceleration := 10 }

/-- A new standard station with one recorded motor. -/
def standardStation : Station Recorder :=
  Station.new SystemConfig.standard SystemConfig.standard.envelope commandDepth Recorder.empty
    defaultFrameMs .panel

set_option maxRecDepth 20000 in
/-- A run of five requests stays safe: a command is set and submitted, the motor task takes it
at 0 ms, an emergency is pressed and the coordinator sees it at 1 ms. The command accepted is
the one started, and the gate has gone to `stopped` with the motor still before its first
step. -/
theorem stays_safe_emergency :
    ∃ s accepted started, Runs standardStation s accepted started ∧
      accepted = [hundredSteps] ∧ started = [hundredSteps] ∧ s.bus.gate = .stopped ∧
      s.task.state = .moving ∧
      (s.Safe accepted started ∧
        ∀ op s' reply, op.inPipeline = true → s.apply op = .ok (s', reply) → s.SafeStep op s') := by
  have set := @Runs.step _ _ _ _ _ _ _ (.setTemplate hundredSteps) _
    (@Runs.start Recorder _ standardStation) rfl rfl
  have submitted := @Runs.step _ _ _ _ _ _ _ .trySubmit _ set rfl rfl
  have taken := @Runs.step _ _ _ _ _ _ _ (.pollTask 0) _ submitted rfl rfl
  have pressed := @Runs.step _ _ _ _ _ _ _ (.postEmergency .pressed) _ taken rfl rfl
  have seen := @Runs.step _ _ _ _ _ _ _ (.pollCoordinator 1) _ pressed rfl rfl
  exact ⟨_, _, _, seen, by decide +kernel, by decide +kernel, by decide +kernel, by decide +kernel,
    Runs.stays_safe seen⟩

end Station

end StepperDrive
