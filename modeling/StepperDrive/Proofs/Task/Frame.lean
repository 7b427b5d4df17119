import StepperDrive.Proofs.Task.Poll
/-!
# What a poll of the motor task leaves alone

A poll reads the gate and never writes it; of the bus it writes only the published status and
the command queue. The queue loses at most its head, and only in a poll that finds the gate
open and the task waiting for a command, or parked and about to resume. With the gate at
`stopped` the only coil write of a poll is the release of the coils.
-/

namespace StepperDrive

namespace MotorTask

variable {σ : Type} [CoilOutput σ] {now : Nat} {w w' : TaskWorld σ}

theorem Finished.bus_eq {r : Except DriveError Unit} (h : Finished now w r w') : w'.bus = w.bus := by
  cases h <;> rfl

theorem Stepped.bus_eq {r : Except DriveError Nat} (h : Stepped now w r w') :
    w'.bus = { w.bus with status := w'.bus.status } := by
  cases h with
  | fault => rfl
  | pending => rfl
  | stepped => rfl
  | ended _ _ finished =>
    rw [finished.bus_eq]
    rfl

theorem WoundDown.bus_eq {r : Except DriveError Nat} (h : WoundDown now w r w') :
    w'.bus = { w.bus with status := w'.bus.status } := by
  cases h with
  | brake _ _ _ stepped => exact stepped.bus_eq
  | braking _ _ stepped => exact stepped.bus_eq
  | dwellCut => rfl
  | still => rfl

theorem Parked.bus_eq {r : Except DriveError Nat} (h : Parked w r w') :
    w'.bus = { w.bus with status := w'.bus.status } := by
  cases h <;> rfl

theorem Ran.gate_eq {r : Except DriveError Nat} (h : Ran now w r w') : w'.bus.gate = w.bus.gate := by
  cases h with
  | start _ _ _ stepped => rw [stepped.bus_eq]
  | move _ stepped => rw [stepped.bus_eq]
  | idle | dwellOver | dwell | parked => rfl

/-- With the gate open, the queue loses at most its head, and only to a waiting task. -/
theorem Ran.commands {r : Except DriveError Nat} (h : Ran now w r w') :
    w'.bus.commands = w.bus.commands ∨
      w.task.state = .awaitingCommand ∧ ∃ p, w.bus.commands.tryReceive = some (p, w'.bus.commands) := by
  cases h with
  | start waiting head _ stepped =>
    refine .inr ⟨waiting, ?_⟩
    rw [stepped.bus_eq]
    exact ⟨_, head⟩
  | move _ stepped =>
    left
    rw [stepped.bus_eq]
  | idle | dwellOver | dwell | parked => exact .inl rfl

theorem Polled.gate_eq {r : Except DriveError TaskPoll} (h : Polled now w r w') :
    w'.bus.gate = w.bus.gate := by
  cases h with
  | stopped _ parked => rw [parked.bus_eq]
  | stopping _ wound => rw [wound.bus_eq]
  | normal _ _ ran => exact ran.gate_eq
  | resumed _ _ ran => exact ran.gate_eq

/-- A poll takes a command from the queue only when it reads the gate as open and finds the
task waiting for a command, or parked; it takes the head and nothing else. -/
theorem Polled.commands {r : Except DriveError TaskPoll} (h : Polled now w r w') :
    w'.bus.commands = w.bus.commands ∨
      w.bus.gate = .normal ∧ (w.task.state = .awaitingCommand ∨ w.task.state = .parked) ∧
        ∃ p, w.bus.commands.tryReceive = some (p, w'.bus.commands) := by
  cases h with
  | stopped _ parked =>
    left
    rw [parked.bus_eq]
  | stopping _ wound =>
    left
    rw [wound.bus_eq]
  | normal gate _ ran =>
    rcases ran.commands with same | ⟨waiting, taken⟩
    · exact .inl same
    · exact .inr ⟨gate, .inl waiting, taken⟩
  | resumed gate parked ran =>
    -- resuming leaves the queue as it was
    rcases ran.commands with same | ⟨-, taken⟩
    · exact .inl same
    · exact .inr ⟨gate, .inr parked, taken⟩

/-- With the gate at `stopped` a poll leaves the controller as it was, or with its coils
released: no step is written. -/
theorem Polled.controller_of_stopped {r : Except DriveError TaskPoll} (h : Polled now w r w')
    (stopped : w.bus.gate = .stopped) :
    w'.task.controller = w.task.controller ∨ w'.task.controller = w.task.controller.disable.1 := by
  cases h with
  | stopped _ parked =>
    cases parked with
    | already => exact .inl rfl
    | fault => exact .inr rfl
    | park => exact .inr rfl
  | stopping gate => simp [gate] at stopped
  | normal gate => simp [gate] at stopped
  | resumed gate => simp [gate] at stopped

/-- With the gate open, a poll of a moving task is one tick of its move. -/
theorem Polled.stepped_of_moving {r : Except DriveError TaskPoll} (h : Polled now w r w')
    (normal : w.bus.gate = .normal) (moving : w.task.state = .moving) :
    ∃ r₀, Stepped now w r₀ w' := by
  cases h with
  | stopped gate | stopping gate =>
    rw [gate] at normal
    cases normal
  | resumed _ parked =>
    rw [moving] at parked
    cases parked
  | normal _ _ ran =>
    cases ran with
    | move _ stepped => exact ⟨_, stepped⟩
    | idle waiting | start waiting =>
      rw [moving] at waiting
      cases waiting
    | dwellOver dwelling | dwell dwelling =>
      rw [moving] at dwelling
      cases dwelling
    | parked parked =>
      rw [moving] at parked
      cases parked

end MotorTask

end StepperDrive
