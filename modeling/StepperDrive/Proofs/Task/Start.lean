import StepperDrive.Proofs.Task.Steady
import StepperDrive.Proofs.Motion.Timing
import StepperDrive.Proofs.Station.Pipeline
/-!
# Polls that overflow

With the gate open, a poll that finds the task waiting and a command at the head of the queue
takes the command, sets the controller up for it, plans the move and ticks once. The first tick
of a new move starts the move's clock at the time of the poll; unless the first period is under
a ms, the step is not due, and the poll asks when it will be: the time of the poll plus the
first period saturated to a 64-bit count of ms. That sum is computed with a check, so a first
period that saturates (a speed of `1e-20` steps/s gives `1e23` ms) makes the poll overflow at
every time but zero. The intake lets such a command through: its speed is positive.

Every later poll of the move ticks it. On a controller that keeps to its goal the tick itself
never overflows, and before `2 ^ 62` ms neither does the end of a dwell of a signed 64-bit
length; what is left is the same sum, the due time of the next step on the move's clock. A
saturated period that did not overflow at the first poll, taken at 0 ms, is due at the end of
the 64-bit clock: no later poll overflows, and none takes the step.

`polls_trap_iff` gives both conditions: the poll that takes a command whose positions and dwell
are signed 64-bit values overflows exactly when planning the move does, or when the move's first
step is not due at once and its due time passes the 64-bit clock; a later poll of a moving task
the drive reaches overflows exactly when its step is not due and the step's due time passes
the 64-bit clock.
-/

namespace StepperDrive

namespace MotorTask

variable {σ : Type} [CoilOutput σ] {w : TaskWorld σ} {now : Nat}

/-- With the gate open, a poll of a task that is not parked overflows exactly when running the
task does. -/
theorem traps_poll_of_open (normal : w.bus.gate = .normal) (awake : w.task.state ≠ .parked) :
    Traps (poll now) w ↔ Traps (run now) w := by
  unfold poll
  rw [traps_bind_of_ok (run_get w)]
  simp only [normal]
  rw [if_neg awake]
  have answer : ∀ (sleep : Nat) (w' : TaskWorld σ),
      ¬ Traps (getTask >>= fun t => pure (⟨t.state, sleep⟩ : TaskPoll)) w' := by
    intro sleep w'
    rw [traps_bind_of_ok (run_getTask w')]
    exact not_traps_pure
  rw [traps_bind_of_safe answer]

/-- A waiting task takes the command at the head of the queue, starts it and ticks once. -/
theorem traps_run_of_receive {p : MotorParameters} {q : BoundedQueue MotorParameters}
    (waiting : w.task.state = .awaitingCommand) (head : w.bus.commands.tryReceive = some (p, q)) :
    Traps (run now) w ↔
      Traps (start p >>= fun _ => step now) { w with bus := { w.bus with commands := q } } := by
  unfold run
  rw [traps_bind_of_ok (run_getTask w)]
  simp only [waiting]
  rw [traps_bind_of_ok (run_get w)]
  simp only [head]
  rw [traps_bind_of_ok (run_set _ _)]

/-- Starting a command and ticking once overflows when planning the move does, and otherwise
exactly when the tick of the planned move does. -/
theorem traps_start_then_step {p : MotorParameters} :
    Traps (start p >>= fun _ => step now) w ↔
      (∃ o, (w.task.controller.configuredFor p).moveTo p.finalPosition = .error o) ∨
      ∃ c, (w.task.controller.configuredFor p).moveTo p.finalPosition = .ok c ∧
        Traps (step now) { w with
          task := { w.task with
            controller := c
            dwellMs := (max p.dwellMs 0).toNat
            stopRequested := false
            state := .moving }
          emitted := w.emitted ++ [.stepMode p.stepMode] } := by
  have started := run_start p w
  cases planned : (w.task.controller.configuredFor p).moveTo p.finalPosition with
  | error o =>
    rw [planned] at started
    exact iff_of_true (traps_bind_of_error started) (.inl ⟨o, rfl⟩)
  | ok c =>
    rw [planned] at started
    rw [traps_bind_of_ok started]
    simp

/-- The poll that starts a command overflows exactly when planning its move does, or when the
move's first step is not due at once and its due time, the time of the poll plus the first
period, passes the 64-bit clock. -/
theorem poll_start_traps_iff {p : MotorParameters} {q : BoundedQueue MotorParameters}
    (normal : w.bus.gate = .normal) (waiting : w.task.state = .awaitingCommand)
    (head : w.bus.commands.tryReceive = some (p, q))
    (positions : Word.IsInt64 p.currentPosition ∧ Word.IsInt64 p.finalPosition)
    (dwell : Word.IsInt64 p.dwellMs) (early : now < 2 ^ 62) :
    Traps (poll now) w ↔
      (∃ o, (w.task.controller.configuredFor p).moveTo p.finalPosition = .error o) ∨
      ∃ c, (w.task.controller.configuredFor p).moveTo p.finalPosition = .ok c ∧
        c.state = .ramping ∧ 0 < c.motion.nextStepPeriod.toUInt64 ∧
        Word.uint64Max < now + c.motion.nextStepPeriod.toUInt64 := by
  rw [traps_poll_of_open normal (by rw [waiting]; decide), traps_run_of_receive waiting head,
    traps_start_then_step]
  refine or_congr_right (exists_congr fun c => and_congr_right fun planned => ?_)
  rw [traps_step]
  -- the dwell ends within the 64-bit clock, so finishing the move never overflows
  have dwellFits : ¬ Word.uint64Max < now + (max p.dwellMs 0).toNat := by
    rw [Word.isInt64_iff] at dwell
    unfold Word.uint64Max
    omega
  by_cases ramping : c.state = .ramping
  case neg =>
    simp [ramping, Controller.tick_of_not_ramping ramping, dwellFits]
  obtain ⟨atStart, atTarget, heading, fresh, away⟩ := Controller.moveTo_ramping planned ramping
  simp only [Controller.configuredFor, Motion.atRest_position] at atStart heading away
  have apart : c.motion.position ≠ c.motion.goal := by
    rw [atStart, atTarget]
    exact fun same => away same.symm
  by_cases wait : 0 < c.motion.nextStepPeriod.toUInt64
  · -- the first step waits: the poll asks when it is due
    rw [Controller.tick_of_isNewMove ramping apart fresh wait]
    have started : (c.motion.seenAt now).lastStepMs = now :=
      Motion.seenAt_lastStepMs_of_isNewMove _ _ fresh
    constructor
    · rintro (⟨o, ticked⟩ | ⟨c', d, ticked, ⟨rfl, late⟩ | ⟨done, -⟩⟩)
      · cases ticked
      · cases ticked
        obtain ⟨-, -, overdue⟩ := Controller.timeToNextStep_eq_error.mp late
        rw [started, Motion.seenAt_nextStepPeriod] at overdue
        exact ⟨ramping, wait, overdue⟩
      · cases ticked
        cases done
    · rintro ⟨-, -, overdue⟩
      refine .inr ⟨_, _, rfl, .inl ⟨rfl, Controller.timeToNextStep_eq_error.mpr ⟨ramping, ?_, ?_⟩⟩⟩
      · exact Motion.seenAt_isNewMove _ _
      · rw [started, Motion.seenAt_nextStepPeriod]
        exact overdue
  · -- the first step is due at once: it is taken, or its write fails, with no wait asked
    have onward : Word.IsInt64 (c.motion.position + c.motion.direction.sign) := by
      rw [atStart, heading]
      simp only [Word.isInt64_iff] at positions ⊢
      unfold Direction.ofSteps
      split <;> simp only [Direction.sign] <;> omega
    have travel : Word.IsInt64 (c.motion.goal - c.motion.position) := by
      obtain ⟨profile, planTravel, -, -⟩ := Controller.moveTo_eq_ok.mp planned
      simpa only [atStart, atTarget, Controller.configuredFor, Motion.atRest_position] using
        planTravel
    obtain ⟨c', r, ticked⟩ : ∃ c' r, c.tick now = .ok (c', r) :=
      Controller.tick_ok_of_int64 travel onward
    have notPending : r ≠ .ok .pending := by
      rintro rfl
      cases Controller.tick_ticked ticked with
      | pending _ _ early =>
        rw [Motion.seenAt_lastStepMs_of_isNewMove _ _ fresh] at early
        omega
    simp only [ticked, wait, false_and, and_false, iff_false]
    rintro (⟨o, ticked'⟩ | ⟨c'', d, ticked', stays⟩)
    · cases ticked'
    · cases ticked'
      rcases stays with ⟨rfl, -⟩ | ⟨-, -, -, late⟩
      · exact notPending rfl
      · exact dwellFits late

/-! ## Later polls -/

/-- A moving task runs by ticking its move. -/
theorem traps_run_of_moving (moving : w.task.state = .moving) :
    Traps (run now) w ↔ Traps (step now) w := by
  unfold run
  rw [traps_bind_of_ok (run_getTask w)]
  simp only [moving]

/-- A tick of a move whose controller keeps to its goal, in a task whose dwell would end within
the 64-bit clock, overflows exactly when the step is not due and its due time, on the clock the
tick starts, passes the 64-bit clock. -/
theorem traps_step_of_steady {span : Nat} (steady : w.task.controller.Steady span)
    (dwellFits : now + w.task.dwellMs ≤ Word.uint64Max) :
    Traps (step now) w ↔
      w.task.controller.PendingAt now ∧ Word.uint64Max < (w.task.controller.motion.seenAt now).dueMs := by
  rw [traps_step]
  constructor
  · rintro (⟨o, trapped⟩ | ⟨c, d, ticked, ⟨rfl, late⟩ | ⟨-, -, -, past⟩⟩)
    · -- the tick of a controller that keeps to its goal never overflows
      obtain ⟨c', r, tick, -⟩ := steady.tick now
      rw [tick] at trapped
      cases trapped
    · obtain ⟨-, -, rfl⟩ := Controller.tick_eq_pending ticked
      obtain ⟨-, -, overdue⟩ := Controller.timeToNextStep_eq_error.mp late
      exact ⟨⟨_, ticked⟩, by simpa [Motion.dueMs] using overdue⟩
    · exact absurd past (Nat.not_lt.mpr dwellFits)
  · rintro ⟨⟨c, ticked⟩, overdue⟩
    obtain ⟨ramping, -, rfl⟩ := Controller.tick_eq_pending ticked
    refine .inr ⟨_, .pending, ticked, .inl ⟨rfl, Controller.timeToNextStep_eq_error.mpr
      ⟨ramping, Motion.seenAt_isNewMove _ _, ?_⟩⟩⟩
    simpa [Motion.dueMs] using overdue

/-- With the gate open, a poll of a moving task whose controller keeps to its goal and whose
dwell is a signed 64-bit length, before `2 ^ 62` ms, overflows exactly when the step is not due
and its due time passes the 64-bit clock. -/
theorem poll_moving_traps_iff {span : Nat} (normal : w.bus.gate = .normal)
    (moving : w.task.state = .moving) (steady : w.task.controller.Steady span)
    (dwell : w.task.dwellMs < 2 ^ 63) (early : now < 2 ^ 62) :
    Traps (poll now) w ↔
      w.task.controller.PendingAt now ∧ Word.uint64Max < (w.task.controller.motion.seenAt now).dueMs := by
  have dwellFits : now + w.task.dwellMs ≤ Word.uint64Max := by
    unfold Word.uint64Max
    omega
  rw [traps_poll_of_open normal (by rw [moving]; decide), traps_run_of_moving moving,
    traps_step_of_steady steady dwellFits]

end MotorTask

/-! ## Overflow over a command's polls -/

/-- With the gate open and before `2 ^ 62` ms: the poll that takes a command whose positions and
dwell are signed 64-bit values overflows exactly when planning its move does, or when the move's
first step is not due at once and its due time, the time of the poll plus the first period,
passes the 64-bit clock; and every later poll of a moving task the drive reaches, with a dwell of
a signed 64-bit length, overflows exactly when its step is not due and the step's due time passes
the 64-bit clock. -/
theorem polls_trap_iff {σ : Type} [CoilOutput σ] :
    (∀ (w : TaskWorld σ) (now : Nat) (p : MotorParameters) (q : BoundedQueue MotorParameters),
      w.bus.gate = .normal → w.task.state = .awaitingCommand →
      w.bus.commands.tryReceive = some (p, q) →
      (Word.IsInt64 p.currentPosition ∧ Word.IsInt64 p.finalPosition) → Word.IsInt64 p.dwellMs →
      now < 2 ^ 62 →
      (MotorTask.Traps (MotorTask.poll now) w ↔
        (∃ o, (w.task.controller.configuredFor p).moveTo p.finalPosition = .error o) ∨
        ∃ c, (w.task.controller.configuredFor p).moveTo p.finalPosition = .ok c ∧
          c.state = .ramping ∧ 0 < c.motion.nextStepPeriod.toUInt64 ∧
          Word.uint64Max < now + c.motion.nextStepPeriod.toUInt64)) ∧
    ∀ (w : TaskWorld σ) (now : Nat), MotorTask.Reached w.task → w.bus.gate = .normal →
      w.task.state = .moving → w.task.dwellMs < 2 ^ 63 → now < 2 ^ 62 →
      (MotorTask.Traps (MotorTask.poll now) w ↔
        w.task.controller.PendingAt now ∧
          Word.uint64Max < (w.task.controller.motion.seenAt now).dueMs) := by
  refine ⟨fun w now p q normal waiting head positions dwell early =>
    MotorTask.poll_start_traps_iff normal waiting head positions dwell early, ?_⟩
  intro w now reached normal moving dwell early
  -- the task keeps its controller to its goal
  obtain ⟨span, steady⟩ := reached.steady
  exact MotorTask.poll_moving_traps_iff normal moving steady dwell early

/-- A command of 100 steps at `1e-20` steps/s: its first period saturates. -/
def slowCommand : MotorParameters :=
  { MotorParameters.zero with
    finalPosition := 100
    speed := 1 / 100000000000000000000
    acceleration := 10
    deceleration := 10 }

set_option maxRecDepth 20000 in
/-- The standard station takes `slowCommand` through its intake unchanged. Polled first at 1 ms,
the motor task overflows on it. A new standard task that took it at 0 ms is still waiting for
its first step at 1000 ms, which is due at the end of the 64-bit clock, and does not overflow. -/
theorem polls_trap_iff_slow :
    ∃ (s₁ s₂ : Station Recorder) (w : TaskWorld Recorder),
      Station.standardStation.apply (.setTemplate slowCommand) = .ok (s₁, .none) ∧
      s₁.apply .trySubmit = .ok (s₂, .command (.ok slowCommand)) ∧
      (s₂.bus.gate = .normal ∧ s₂.task.state = .awaitingCommand ∧
        s₂.bus.commands.tryReceive = some (slowCommand, ⟨commandDepth, []⟩) ∧
        (Word.IsInt64 slowCommand.currentPosition ∧ Word.IsInt64 slowCommand.finalPosition) ∧
        Word.IsInt64 slowCommand.dwellMs ∧ 1 < 2 ^ 62) ∧
      (MotorTask.Traps (MotorTask.poll 1) ⟨s₂.task, s₂.bus, []⟩ ↔
        (∃ o, (s₂.task.controller.configuredFor slowCommand).moveTo
          slowCommand.finalPosition = .error o) ∨
        ∃ c, (s₂.task.controller.configuredFor slowCommand).moveTo
            slowCommand.finalPosition = .ok c ∧
          c.state = .ramping ∧ 0 < c.motion.nextStepPeriod.toUInt64 ∧
          Word.uint64Max < 1 + c.motion.nextStepPeriod.toUInt64) ∧
      (MotorTask.Reached w.task ∧ w.bus.gate = .normal ∧ w.task.state = .moving ∧
        w.task.dwellMs < 2 ^ 63 ∧ 1000 < 2 ^ 62) ∧
      (MotorTask.Traps (MotorTask.poll 1000) w ↔
        w.task.controller.PendingAt 1000 ∧
          Word.uint64Max < (w.task.controller.motion.seenAt 1000).dueMs) := by
  have taken := @MotorTask.Reached.poll _ _ _ _
    { Bus.new commandDepth with commands := ⟨commandDepth, [slowCommand]⟩ } _ [] _ 0 _
    MotorTask.reached_standard (by decide) rfl
  refine ⟨_, _, ⟨_, Bus.new commandDepth, []⟩, rfl, rfl,
    ⟨?normal, ?waiting, ?head, ?positions, ?dwell, ?early⟩,
    polls_trap_iff.1 _ 1 _ _ ?normal ?waiting ?head ?positions ?dwell ?early,
    ⟨taken, rfl, ?moving, ?dwellTask, ?later⟩,
    polls_trap_iff.2 _ 1000 taken rfl ?moving ?dwellTask ?later⟩
  all_goals decide +kernel

set_option maxRecDepth 20000 in
/-- The intake of the standard station accepts `slowCommand`, at a speed of `1e-20` steps/s, and
queues it unchanged; the motor task that takes it at 1 ms, well inside the clock, overflows. -/
theorem slowCommand_traps_after_intake :
    ∃ (s₁ s₂ : Station Recorder) (o : Overflow),
      Station.standardStation.apply (.setTemplate slowCommand) = .ok (s₁, .none) ∧
      s₁.apply .trySubmit = .ok (s₂, .command (.ok slowCommand)) ∧
      s₂.apply (.pollTask 1) = .error o :=
  ⟨_, _, _, rfl, rfl, rfl⟩

end StepperDrive
