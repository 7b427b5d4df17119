import StepperDrive.Proofs.Motion.Spec
import StepperDrive.Task.Motor
/-!
# Running the motor task's steps

A step of the motor task runs in `TaskM` from a world to an answer and a world: a value, a
`DriveError` that keeps the world as the step left it, or an overflow that ends everything.
The building blocks get their run equations here, so that later proofs follow a poll statement
by statement and never unfold the monad.

`Traps x w` says that running `x` from `w` overflows. It passes through a bind as far as the
statements before it succeed; `traps_finish` and `traps_step` give its exact condition for
finishing a move and for one tick of it.
-/

namespace StepperDrive

namespace TaskWorld

variable {σ : Type} (w : TaskWorld σ) (c : Controller σ)

/-- The world with the task's controller replaced. -/
def withController : TaskWorld σ := { w with task := { w.task with controller := c } }

/-- The world with the task's controller published on the bus. -/
def published : TaskWorld σ :=
  { w with bus := { w.bus with status := ⟨w.task.controller.motion.position,
    w.task.controller.currentSpeed, w.task.controller.isComplete⟩ } }

@[simp] theorem withController_task : (w.withController c).task = { w.task with controller := c } :=
  rfl
@[simp] theorem withController_bus : (w.withController c).bus = w.bus := rfl
@[simp] theorem withController_emitted : (w.withController c).emitted = w.emitted := rfl
@[simp] theorem published_task : w.published.task = w.task := rfl
@[simp] theorem published_emitted : w.published.emitted = w.emitted := rfl
@[simp] theorem published_bus : w.published.bus = { w.bus with status := ⟨w.task.controller.motion.position,
    w.task.controller.currentSpeed, w.task.controller.isComplete⟩ } := rfl

end TaskWorld

namespace MotorTask

variable {σ α β : Type}

/-! ## Run equations -/

theorem run_bind (x : TaskM σ α) (f : α → TaskM σ β) (w : TaskWorld σ) :
    (x >>= f).run.run w = (x.run.run w).bind fun
      | (.ok a, w') => (f a).run.run w'
      | (.error e, w') => .ok (.error e, w') := by
  simp only [ExceptT.run_bind, StateT.run_bind]
  congr 1
  funext ⟨r, w'⟩
  cases r <;> rfl

@[simp] theorem run_pure (a : α) (w : TaskWorld σ) :
    (pure a : TaskM σ α).run.run w = .ok (.ok a, w) := rfl

@[simp] theorem run_get (w : TaskWorld σ) : (get : TaskM σ _).run.run w = .ok (.ok w, w) := rfl

@[simp] theorem run_set (w w' : TaskWorld σ) : (set w' : TaskM σ _).run.run w = .ok (.ok (), w') :=
  rfl

@[simp] theorem run_getTask (w : TaskWorld σ) :
    (getTask : TaskM σ _).run.run w = .ok (.ok w.task, w) := rfl

@[simp] theorem run_setTask (t : MotorTask σ) (w : TaskWorld σ) :
    (setTask t).run.run w = .ok (.ok (), { w with task := t }) := rfl

@[simp] theorem run_emit (e : FeedbackEvent) (w : TaskWorld σ) :
    (emit e : TaskM σ Unit).run.run w = .ok (.ok (), { w with emitted := w.emitted ++ [e] }) := rfl

@[simp] theorem run_publish (w : TaskWorld σ) :
    (publish : TaskM σ Unit).run.run w = .ok (.ok (), w.published) := rfl

theorem run_setTask_controller (w : TaskWorld σ) (c : Controller σ) :
    (setTask { w.task with controller := c }).run.run w = .ok (.ok (), w.withController c) := rfl

@[simp] theorem run_trap_ok (a : α) (w : TaskWorld σ) :
    (trap (.ok a)).run.run w = .ok (.ok a, w) := rfl

@[simp] theorem run_trap_error (o : Overflow) (w : TaskWorld σ) :
    (trap (.error o) : TaskM σ α).run.run w = .error o := rfl

@[simp] theorem run_orFail_ok (a : α) (w : TaskWorld σ) :
    (orFail (.ok a)).run.run w = .ok (.ok a, w) := rfl

@[simp] theorem run_orFail_error (e : MotorError) (w : TaskWorld σ) :
    (orFail (.error e) : TaskM σ α).run.run w = .ok (.error (.motor e), w) := rfl

/-- Starting a command sets the controller up for it, reports its step mode and plans its move;
only the planning can overflow. -/
theorem run_start (p : MotorParameters) (w : TaskWorld σ) : (start p).run.run w =
    ((w.task.controller.configuredFor p).moveTo p.finalPosition).map fun c =>
      (.ok (), { w with
        task := { w.task with
          controller := c
          dwellMs := (max p.dwellMs 0).toNat
          stopRequested := false
          state := .moving }
        emitted := w.emitted ++ [.stepMode p.stepMode] }) := by
  unfold start
  simp only [run_bind, run_getTask, run_setTask, run_emit, Except.bind]
  cases (w.task.controller.configuredFor p).moveTo p.finalPosition <;> simp [Except.map]

section Bind

variable {x : TaskM σ α} {f : α → TaskM σ β} {w w₁ : TaskWorld σ}

theorem run_bind_of_ok {a : α} (h : x.run.run w = .ok (.ok a, w₁)) :
    (x >>= f).run.run w = (f a).run.run w₁ := by
  rw [run_bind, h]
  rfl

theorem run_bind_of_fail {e : DriveError} (h : x.run.run w = .ok (.error e, w₁)) :
    (x >>= f).run.run w = .ok (.error e, w₁) := by
  rw [run_bind, h]
  rfl

theorem run_bind_of_error {o : Overflow} (h : x.run.run w = .error o) :
    (x >>= f).run.run w = .error o := by
  rw [run_bind, h]
  rfl

end Bind

theorem run_start_of_ok {p : MotorParameters} (w : TaskWorld σ) {c : Controller σ}
    (planned : (w.task.controller.configuredFor p).moveTo p.finalPosition = .ok c) :
    (start p).run.run w = .ok (.ok (), { w with
      task := { w.task with
        controller := c
        dwellMs := (max p.dwellMs 0).toNat
        stopRequested := false
        state := .moving }
      emitted := w.emitted ++ [.stepMode p.stepMode] }) := by
  rw [run_start, planned]
  rfl

theorem run_start_of_error {p : MotorParameters} (w : TaskWorld σ) {o : Overflow}
    (planned : (w.task.controller.configuredFor p).moveTo p.finalPosition = .error o) :
    (start p).run.run w = .error o := by
  rw [run_start, planned]
  rfl

theorem run_resume (w : TaskWorld σ) : (resume : TaskM σ Unit).run.run w =
    .ok (.ok (), TaskWorld.published { w with
      task := { w.task with controller := w.task.controller.abort, state := .awaitingCommand } }) :=
  rfl

/-- A poll answers the task's state after the block its gate chose, or that block's failure. -/
theorem run_answer {x : TaskM σ Nat} {r : Except DriveError TaskPoll}
    (h : (x >>= fun sleep => getTask >>= fun t => pure (⟨t.state, sleep⟩ : TaskPoll)).run.run w =
      .ok (r, w')) :
    ∃ r₀, x.run.run w = .ok (r₀, w') ∧ r = r₀.map fun sleep => ⟨w'.task.state, sleep⟩ := by
  cases hx : x.run.run w with
  | error o =>
    rw [run_bind_of_error hx] at h
    cases h
  | ok outcome =>
    obtain ⟨r₀, w₀⟩ := outcome
    cases r₀ with
    | error e =>
      rw [run_bind_of_fail hx] at h
      cases h
      exact ⟨_, rfl, rfl⟩
    | ok sleep =>
      rw [run_bind_of_ok hx, run_bind_of_ok (run_getTask _), run_pure] at h
      cases h
      exact ⟨_, rfl, rfl⟩

/-! ## Overflow -/

/-- Running `x` from `w` ends the whole computation with an overflow. -/
def Traps (x : TaskM σ α) (w : TaskWorld σ) : Prop := ∃ o, x.run.run w = .error o

variable {x : TaskM σ α} {f : α → TaskM σ β} {w w' : TaskWorld σ}

theorem traps_iff_isOk : Traps x w ↔ (x.run.run w).isOk = false := by
  unfold Traps
  cases x.run.run w <;> simp [Except.isOk, Except.toBool]

instance : Decidable (Traps x w) := decidable_of_iff _ traps_iff_isOk.symm

theorem traps_bind_of_ok {a : α} (h : x.run.run w = .ok (.ok a, w')) :
    Traps (x >>= f) w ↔ Traps (f a) w' := by
  unfold Traps
  rw [run_bind_of_ok h]

theorem not_traps_bind_of_fail {e : DriveError} (h : x.run.run w = .ok (.error e, w')) :
    ¬ Traps (x >>= f) w := by
  unfold Traps
  rw [run_bind_of_fail h]
  simp

theorem traps_bind_of_error {o : Overflow} (h : x.run.run w = .error o) : Traps (x >>= f) w :=
  ⟨o, run_bind_of_error h⟩

theorem not_traps_pure {a : α} : ¬ Traps (pure a : TaskM σ α) w := by
  rintro ⟨o, h⟩
  cases h

/-- A statement followed by steps that never overflow overflows exactly when it does. -/
theorem traps_bind_of_safe (safe : ∀ a w', ¬ Traps (f a) w') : Traps (x >>= f) w ↔ Traps x w := by
  cases hx : x.run.run w with
  | error o => exact iff_of_true (traps_bind_of_error hx) ⟨o, hx⟩
  | ok r =>
    obtain ⟨r, w'⟩ := r
    have quiet : ¬ Traps x w := by simp [Traps, hx]
    cases r with
    | error e => exact iff_of_false (not_traps_bind_of_fail hx) quiet
    | ok a =>
      refine iff_of_false ?_ quiet
      rw [traps_bind_of_ok hx]
      exact safe a w'

theorem traps_bind_pure {g : α → β} : Traps (x >>= fun a => pure (g a)) w ↔ Traps x w :=
  traps_bind_of_safe fun _ _ => not_traps_pure

variable [CoilOutput σ]

/-- Releasing the coils records the output's state and fails as the output does. -/
theorem run_disableCoils (w : TaskWorld σ) : disableCoils.run.run w =
    .ok (w.task.controller.disable.2.mapError .motor,
      { w with task := { w.task with controller := w.task.controller.disable.1 } }) := by
  unfold disableCoils
  simp only [run_bind, run_getTask, Except.bind, run_setTask]
  cases w.task.controller.disable.2 <;> simp [Except.mapError]

theorem run_disableCoils_of_error {e : MotorError} (released : w.task.controller.disable.2 = .error e) :
    disableCoils.run.run w = .ok (.error (.motor e), w.withController w.task.controller.disable.1) := by
  rw [run_disableCoils, released]
  rfl

theorem run_disableCoils_of_ok (released : w.task.controller.disable.2 = .ok ()) :
    disableCoils.run.run w = .ok (.ok (), w.withController w.task.controller.disable.1) := by
  rw [run_disableCoils, released]
  rfl

/-- Finishing a move overflows exactly when the coils are released, the move was not cut short
by an emergency, and the end of its dwell lies past the 64-bit clock. -/
theorem traps_finish {now : Nat} :
    Traps (finish now) w ↔ w.task.controller.disable.2 = .ok () ∧ w.task.stopRequested = false ∧
      Word.uint64Max < now + w.task.dwellMs := by
  unfold finish
  cases released : w.task.controller.disable.2 with
  | error e =>
    have failed : disableCoils.run.run w = .ok (.error (.motor e),
        { w with task := { w.task with controller := w.task.controller.disable.1 } }) := by
      rw [run_disableCoils, released]
      rfl
    simp [not_traps_bind_of_fail failed]
  | ok u =>
    have done : disableCoils.run.run w = .ok (.ok (),
        { w with task := { w.task with controller := w.task.controller.disable.1 } }) := by
      rw [run_disableCoils, released]
      rfl
    rw [traps_bind_of_ok done, traps_bind_of_ok (run_emit _ _), traps_bind_of_ok (run_getTask _)]
    dsimp only
    cases stop : w.task.stopRequested
    case true => simp [Traps]
    case false =>
      -- only the end of the dwell is computed with a check
      by_cases fits : now + w.task.dwellMs ≤ Word.uint64Max
      · rw [if_neg Bool.false_ne_true, Word.addUInt64_of_le fits,
          traps_bind_of_ok (run_trap_ok _ _)]
        simp [Traps]
        omega
      · rw [if_neg Bool.false_ne_true, Word.addUInt64_of_lt (Nat.lt_of_not_le fits)]
        simp [traps_bind_of_error (run_trap_error _ _)]
        omega

/-- One tick of the move overflows exactly when the tick itself does, when a step that is not
due asks for a wait past the 64-bit clock, or when a move that ends overflows in `finish`. -/
theorem traps_step {now : Nat} :
    Traps (step now) w ↔ (∃ o, w.task.controller.tick now = .error o) ∨
      ∃ c d, w.task.controller.tick now = .ok (c, .ok d) ∧
        ((d = .pending ∧ ∃ o, c.timeToNextStep now = .error o) ∨
          (d.isDone ∧ c.disable.2 = .ok () ∧ w.task.stopRequested = false ∧
            Word.uint64Max < now + w.task.dwellMs)) := by
  unfold step
  rw [traps_bind_of_ok (run_getTask w)]
  cases ticked : w.task.controller.tick now with
  | error o => exact iff_of_true (traps_bind_of_error (run_trap_error o w)) (.inl ⟨o, rfl⟩)
  | ok r =>
    obtain ⟨c, r⟩ := r
    rw [traps_bind_of_ok (run_trap_ok _ w)]
    dsimp only
    rw [traps_bind_of_ok (run_setTask _ w)]
    cases r with
    | error e => simp [not_traps_bind_of_fail (run_orFail_error e _)]
    | ok d =>
      rw [traps_bind_of_ok (run_orFail_ok d _), traps_bind_of_ok (run_publish _)]
      cases d with
      | pending =>
        cases waited : c.timeToNextStep now with
        | error o => simp [Traps, waited]
        | ok wait => simp [Traps, waited, Tick.isDone]
      | stepped hint => simp [not_traps_pure, Tick.isDone]
      | arrived =>
        rw [traps_bind_pure, traps_finish]
        simp [Tick.isDone]
      | complete =>
        rw [traps_bind_pure, traps_finish]
        simp [Tick.isDone]

end MotorTask

end StepperDrive
