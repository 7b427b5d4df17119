import StepperDrive.Proofs.Task.Frame
/-!
# The published status stays true to the controller

The emergency side decides that the motor is at rest from the speed published on the bus, which
only the motor task writes, and only on some paths of a poll: a failed coil write, a failed
release of the coils and a dwell leave it as it was. It is never stale where it matters:
every path that skips the publication leaves the controller's speed as it was, and a task
that takes a new command does so at rest, with a published speed of zero.

`TaskWorld.Coherent` is that invariant, with the two facts about rest that carry it; every
block of a poll keeps it (`Polled.coherent`).
-/

namespace StepperDrive

/-- Whether the task is between moves: waiting for a command or dwelling. -/
def TaskState.betweenMoves : TaskState → Bool
  | .awaitingCommand | .dwelling _ => true
  | .moving | .parked => false

namespace Controller

variable {σ : Type} {c c' : Controller σ}

/-- A controller with no move under way reports a zero last period, hence no speed. -/
def StillAtRest (c : Controller σ) : Prop :=
  c.state ≠ .ramping → c.motion.currentStepPeriod = 0

/-- The speed reads only the last period and the direction. -/
theorem currentSpeed_congr (period : c'.motion.currentStepPeriod = c.motion.currentStepPeriod)
    (direction : c'.motion.direction = c.motion.direction) : c'.currentSpeed = c.currentSpeed := by
  unfold currentSpeed
  rw [period, direction]

/-- A planned move has not stepped yet. -/
theorem moveTo_currentStepPeriod {target : Int} (h : c.moveTo target = .ok c') :
    c'.motion.currentStepPeriod = 0 := by
  obtain ⟨profile, -, -, rfl⟩ := moveTo_eq_ok.mp h
  split <;> rfl

/-- A stop request moves only the goal and the stop margin. -/
theorem requestStop_keeps (h : c.requestStop = .ok c') :
    c'.state = c.state ∧ c'.motion.currentStepPeriod = c.motion.currentStepPeriod ∧
      c'.motion.direction = c.motion.direction := by
  by_cases ramping : c.state = .ramping
  · obtain ⟨-, -, -, rfl⟩ := (requestStop_eq_ok ramping).mp h
    exact ⟨rfl, rfl, rfl⟩
  · rw [requestStop_of_not_ramping ramping] at h
    cases h
    exact ⟨rfl, rfl, rfl⟩

theorem stillAtRest_abort : c.abort.StillAtRest := fun _ => rfl

variable [CoilOutput σ] {now : Nat}

theorem Ticked.stillAtRest {r : Except MotorError Tick} (h : Ticked c now c' r)
    (still : c.StillAtRest) : c'.StillAtRest := by
  cases h with
  | idle => exact still
  | atGoal => exact fun _ => rfl
  | arrived => exact fun _ => rfl
  | pending ramping | fault ramping | stepped ramping => exact fun moving => absurd ramping moving

/-- A tick that ends the move leaves no move under way. -/
theorem Ticked.not_ramping_of_isDone {d : Tick} (h : Ticked c now c' (.ok d)) (done : d.isDone = true) :
    c'.state ≠ .ramping := by
  cases h with
  | idle notRamping => exact notRamping
  | atGoal | arrived => simp
  | pending | stepped => cases done

/-- A failed coil write takes no step: the speed stays. -/
theorem Ticked.currentSpeed_of_fault {e : MotorError} (h : Ticked c now c' (.error e)) :
    c'.currentSpeed = c.currentSpeed := by
  cases h with
  | fault => exact currentSpeed_congr (by simp) (by simp)

end Controller

namespace TaskWorld

variable {σ : Type}

/-- The published speed is the controller's; a controller with no move under way has a zero
last period; and a task between moves has no move under way. -/
structure Coherent (w : TaskWorld σ) : Prop where
  published : w.bus.status.speed = w.task.controller.currentSpeed
  still : w.task.controller.StillAtRest
  settled : w.task.state.betweenMoves = true → w.task.controller.state ≠ .ramping

variable {w w' : TaskWorld σ}

/-- The invariant reads only the task and the published status. -/
theorem Coherent.congr (hw : w.Coherent) (task : w'.task = w.task)
    (status : w'.bus.status = w.bus.status) : w'.Coherent where
  published := by rw [status, task]; exact hw.published
  still := by rw [task]; exact hw.still
  settled := by rw [task]; exact hw.settled

theorem coherent_published (still : w.task.controller.StillAtRest)
    (settled : w.task.state.betweenMoves = true → w.task.controller.state ≠ .ramping) :
    w.published.Coherent :=
  ⟨rfl, still, settled⟩

/-- Ending a dwell keeps the world coherent. -/
theorem Coherent.endDwell {due : Nat} (hw : w.Coherent) (dwelling : w.task.state = .dwelling due) :
    Coherent { w with task := { w.task with state := .awaitingCommand } } :=
  ⟨hw.published, hw.still, fun _ => hw.settled (by rw [dwelling]; rfl)⟩

/-- A task at rest publishes and reports a zero speed. -/
theorem Coherent.speed_eq_zero (hw : w.Coherent) (between : w.task.state.betweenMoves = true) :
    w.bus.status.speed = 0 ∧ w.task.controller.currentSpeed = 0 := by
  have idle := Controller.currentSpeed_of_currentStepPeriod (hw.still (hw.settled between))
  exact ⟨hw.published.trans idle, idle⟩

end TaskWorld

namespace MotorTask

variable {σ : Type} {w w' : TaskWorld σ} [CoilOutput σ] {now : Nat}

theorem Finished.coherent {r : Except DriveError Unit} (h : Finished now w r w') (hw : w.Coherent)
    (ended : w.task.controller.state ≠ .ramping) : w'.Coherent := by
  cases h with
  | fault => exact ⟨hw.published, hw.still, hw.settled⟩
  | cut => exact ⟨hw.published, hw.still, fun _ => ended⟩
  | dwell => exact ⟨hw.published, hw.still, fun _ => ended⟩

/-- A tick of a move keeps the world coherent: every outcome is published except a failed coil
write, which keeps the speed. -/
theorem Stepped.coherent {r : Except DriveError Nat} (h : Stepped now w r w') (hw : w.Coherent)
    (moving : w.task.state = .moving) : w'.Coherent := by
  have underWay : w.task.state.betweenMoves = false := by rw [moving]; rfl
  cases h with
  | fault ticked =>
    have ticked := Controller.tick_ticked ticked
    refine ⟨hw.published.trans (ticked.currentSpeed_of_fault).symm, ticked.stillAtRest hw.still, ?_⟩
    simp [underWay]
  | pending ticked =>
    refine TaskWorld.coherent_published ((Controller.tick_ticked ticked).stillAtRest hw.still) ?_
    simp [underWay]
  | stepped ticked =>
    refine TaskWorld.coherent_published ((Controller.tick_ticked ticked).stillAtRest hw.still) ?_
    simp [underWay]
  | ended ticked done finished =>
    have ticked := Controller.tick_ticked ticked
    have ended := ticked.not_ramping_of_isDone done
    exact finished.coherent
      (TaskWorld.coherent_published (ticked.stillAtRest hw.still) fun _ => ended) ended

/-- With the gate open a poll keeps the world coherent. A new command is taken at rest: the
speed published before it is zero, as is that of the planned move. -/
theorem Ran.coherent {r : Except DriveError Nat} (h : Ran now w r w') (hw : w.Coherent) :
    w'.Coherent := by
  cases h with
  | idle | dwell | parked => exact hw
  | start waiting _ planned stepped =>
    have atRest := hw.speed_eq_zero (by rw [waiting]; rfl)
    have fresh := Controller.moveTo_currentStepPeriod planned
    refine stepped.coherent ⟨?_, fun _ => fresh, ?_⟩ rfl
    · exact atRest.1.trans (Controller.currentSpeed_of_currentStepPeriod fresh).symm
    · intro between
      cases between
  | move moving stepped => exact stepped.coherent hw moving
  | dwellOver dwelling => exact hw.endDwell dwelling

/-- With the gate at `stopping` a poll keeps the world coherent: shortening the move keeps its
speed. -/
theorem WoundDown.coherent {r : Except DriveError Nat} (h : WoundDown now w r w')
    (hw : w.Coherent) : w'.Coherent := by
  cases h with
  | brake moving _ shortened stepped =>
    obtain ⟨state, period, direction⟩ := Controller.requestStop_keeps shortened
    refine stepped.coherent ⟨?_, ?_, ?_⟩ moving
    · exact hw.published.trans (Controller.currentSpeed_congr period direction).symm
    · intro notRamping
      rw [period]
      exact hw.still (state ▸ notRamping)
    · intro between
      simp [moving, TaskState.betweenMoves] at between
  | braking moving _ stepped => exact stepped.coherent hw moving
  | dwellCut dwelling => exact hw.endDwell dwelling
  | still => exact hw

theorem Parked.coherent {r : Except DriveError Nat} (h : Parked w r w') (hw : w.Coherent) :
    w'.Coherent := by
  cases h with
  | already => exact hw
  | fault => exact ⟨hw.published, hw.still, hw.settled⟩
  | park =>
    refine TaskWorld.coherent_published hw.still ?_
    intro between
    cases between

/-- Every poll keeps the world coherent, whether it succeeds or fails: after it the published
speed is the controller's. -/
theorem Polled.coherent {r : Except DriveError TaskPoll} (h : Polled now w r w') (hw : w.Coherent) :
    w'.Coherent := by
  cases h with
  | stopped _ parked => exact parked.coherent hw
  | stopping _ wound => exact wound.coherent hw
  | normal _ _ ran => exact ran.coherent hw
  | resumed _ _ ran =>
    -- resuming abandons the move and publishes the aborted controller
    refine ran.coherent (TaskWorld.coherent_published Controller.stillAtRest_abort ?_)
    intro _
    simp [Controller.abort]

end MotorTask

end StepperDrive
