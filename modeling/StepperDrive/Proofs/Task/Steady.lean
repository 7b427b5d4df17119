import StepperDrive.Proofs.Task.Frame
import StepperDrive.Proofs.Motion.Steady
/-!
# The motor task keeps to its goal

The controller the motor task owns keeps to its goal (`Controller.Steady`) through every poll.
A tick keeps it, and so do a stop request and a release of the coils; abandoning a parked move
leaves the motor at rest where it stands; a new command sets the controller at rest at the
command's position and plans the move from there, which keeps it whenever the command's
positions are signed 64-bit values, as they are on the drive's bus.

`MotorTask.Reached` is the set of tasks the drive can reach: a new task around a controller
reached in a session, then polls at any times, each against whatever bus the other parties of
the drive left, with the commands on it in range. Main statement: `MotorTask.Reached.steady`.
-/

namespace StepperDrive

set_option autoImplicit false

/-- A command whose positions are signed 64-bit values. -/
def MotorParameters.InRange (p : MotorParameters) : Prop :=
  Word.IsInt64 p.currentPosition ∧ Word.IsInt64 p.finalPosition

instance : DecidablePred MotorParameters.InRange :=
  fun _ => inferInstanceAs (Decidable (_ ∧ _))

/-- Set up for a command in range, the controller stands at rest at the command's position. -/
theorem Controller.steady_configuredFor {σ : Type} {c : Controller σ} {p : MotorParameters}
    (inRange : p.InRange) (span : Nat) : (c.configuredFor p).Steady span :=
  Controller.steady_atRest inRange.1 (by simp [Controller.configuredFor]) rfl

namespace MotorTask

variable {σ : Type} [CoilOutput σ] {now span : Nat} {w w' : TaskWorld σ}

theorem Finished.steady {r : Except DriveError Unit} (h : Finished now w r w')
    (steady : w.task.controller.Steady span) : w'.task.controller.Steady span := by
  cases h <;> exact steady.disable

theorem Stepped.steady {r : Except DriveError Nat} (h : Stepped now w r w')
    (steady : w.task.controller.Steady span) : w'.task.controller.Steady span := by
  cases h with
  | fault ticked | pending ticked | stepped ticked =>
    exact steady.ticked (Controller.tick_ticked ticked)
  | ended ticked _ finished => exact finished.steady (steady.ticked (Controller.tick_ticked ticked))

/-- With the gate open, a poll keeps the controller to its goal, for the span of the command it
starts if it starts one. -/
theorem Ran.steady {r : Except DriveError Nat} (h : Ran now w r w')
    (commands : ∀ p ∈ w.bus.commands.items, p.InRange) (steady : w.task.controller.Steady span) :
    ∃ span', w'.task.controller.Steady span' := by
  cases h with
  | idle | dwellOver | dwell | parked => exact ⟨span, steady⟩
  | move _ stepped => exact ⟨span, stepped.steady steady⟩
  | start _ head planned stepped =>
    -- the command started is the one at the head of the queue
    have inRange :=
      commands _ (by rw [BoundedQueue.tryReceive_items head]; exact List.mem_cons_self)
    exact ⟨_, stepped.steady
      ((Controller.steady_configuredFor inRange 0).moveTo inRange.2 planned)⟩

theorem WoundDown.steady {r : Except DriveError Nat} (h : WoundDown now w r w')
    (steady : w.task.controller.Steady span) : w'.task.controller.Steady span := by
  cases h with
  | brake _ _ shortened stepped =>
    obtain ⟨c, stop, shorter⟩ := steady.requestStop
    rw [shortened] at stop
    cases stop
    exact stepped.steady shorter
  | braking _ _ stepped => exact stepped.steady steady
  | dwellCut | still => exact steady

theorem Parked.steady {r : Except DriveError Nat} (h : Parked w r w')
    (steady : w.task.controller.Steady span) : w'.task.controller.Steady span := by
  cases h with
  | already => exact steady
  | fault | park => exact steady.disable

/-- Every poll against a bus whose commands are in range keeps the controller to its goal. -/
theorem Polled.steady {r : Except DriveError TaskPoll} (h : Polled now w r w')
    (commands : ∀ p ∈ w.bus.commands.items, p.InRange) (steady : w.task.controller.Steady span) :
    ∃ span', w'.task.controller.Steady span' := by
  cases h with
  | stopped _ parked => exact ⟨span, parked.steady steady⟩
  | stopping _ wound => exact ⟨span, wound.steady steady⟩
  | normal _ _ ran => exact ran.steady commands steady
  | resumed _ _ ran =>
    exact ran.steady commands (steady.abort : w.task.controller.abort.Steady 0)

/-- Motor tasks the drive can reach: a new task around a controller reached in a session, then
polls at any times, each against whatever bus the other parties of the drive left, with the
commands on it in range. A poll that ends in a motor fault keeps the world it got to. -/
inductive Reached : MotorTask σ → Prop
  | new {c : Controller σ} {span : Nat} (timing : Timing) (reached : c.Reachable span) :
      Reached (MotorTask.new c timing)
  | poll {t t' : MotorTask σ} {bus bus' : Bus} {emitted emitted' : List FeedbackEvent}
      {now : Nat} {r : Except DriveError TaskPoll} (reached : Reached t)
      (commands : ∀ p ∈ bus.commands.items, p.InRange)
      (polled : (poll now).run.run ⟨t, bus, emitted⟩ = .ok (r, ⟨t', bus', emitted'⟩)) :
      Reached t'

/-- A new task around the standard controller is one the drive reaches. -/
theorem reached_standard : Reached (MotorTask.new
    (Controller.withParts Recorder.empty .standard .standard .standard)
    SystemConfig.standard.timing) :=
  .new _ (.built _ _ _ _)

/-- The controller of every task the drive reaches keeps to its goal. -/
theorem Reached.steady {t : MotorTask σ} (h : Reached t) : ∃ span, t.controller.Steady span := by
  induction h with
  | new timing reached => exact ⟨_, reached.steady⟩
  | poll _ commands polled ih =>
    obtain ⟨span, steady⟩ := ih
    exact (poll_polled polled).steady commands steady

end MotorTask

end StepperDrive
