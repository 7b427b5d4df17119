import Mathlib
import StepperDrive.Motion.Operation
/-!
# What the controller's operations do

The controller's operations are programs over checked arithmetic; this module says once, for
each of them, what it leaves behind, so that statements about whole sessions never unfold an
operation again.

* `Profile.plan` moves in the direction of its step count and brakes over at most half of it
  (`plan_direction`, `plan_stopMargin_mul_two_le`).
* `Controller.moveTo` checks the travel, plans it, and either completes at once or sets up the
  planned motion (`moveTo_eq_ok`); `requestStop` pulls the goal in to the stop distance
  (`requestStop_eq_ok`).
* `Motion.distanceToGo` is the steps left exactly when goal less position is a signed 64-bit
  value (`distanceToGo_eq_ok`); `Motion.toGo`, `stopDistance` and `braked` are what the
  operations compute from it then.
* `Controller.Ticked` lists the six things one tick can do, and `tick_ticked` says that every
  tick that returns does one of them. A tick can only overflow on a due step, when the distance
  to go or the position one step on is not a signed 64-bit value (`tick_eq_error`).
-/

namespace StepperDrive

set_option autoImplicit false

/-! ## Checked arithmetic -/

section Except

variable {ε α β : Type}

/-- A bind in `Except` succeeds exactly when both of its halves do. -/
theorem bind_eq_ok {x : Except ε α} {f : α → Except ε β} {b : β} :
    x >>= f = .ok b ↔ ∃ a, x = .ok a ∧ f a = .ok b := by
  cases x with
  | error e => simp [bind, Except.bind]
  | ok a => simp [bind, Except.bind]

/-- A value returned in `Except` is the one the computation succeeds with. -/
theorem pure_eq_ok {a b : α} : (pure a : Except ε α) = .ok b ↔ a = b := by
  simp [pure, Except.pure]

end Except

namespace Word

variable {op : Overflow} {a b x v : Int}

/-- A signed check succeeds, with the value itself, exactly on signed 64-bit values. -/
theorem checkInt64_eq_ok : checkInt64 op x = .ok v ↔ IsInt64 x ∧ x = v := by
  unfold checkInt64
  split
  · rename_i h
    simp [h]
  · rename_i h
    simp [h]

theorem addInt64_eq_ok : addInt64 a b = .ok v ↔ IsInt64 (a + b) ∧ a + b = v := checkInt64_eq_ok

theorem subInt64_eq_ok : subInt64 a b = .ok v ↔ IsInt64 (a - b) ∧ a - b = v := checkInt64_eq_ok

theorem mulInt64_eq_ok : mulInt64 a b = .ok v ↔ IsInt64 (a * b) ∧ a * b = v := checkInt64_eq_ok

/-- An unsigned product succeeds, with the product itself, exactly below the 64-bit bound. -/
theorem mulUInt64_eq_ok {m n p : Nat} : mulUInt64 m n = .ok p ↔ m * n ≤ uint64Max ∧ m * n = p := by
  unfold mulUInt64 checkUInt64
  split
  · rename_i h
    simp [h]
  · rename_i h
    simp [h]

/-- An unsigned sum within the 64-bit bound is the sum itself. -/
theorem addUInt64_of_le {m n : Nat} (h : m + n ≤ uint64Max) : addUInt64 m n = .ok (m + n) := by
  unfold addUInt64 checkUInt64
  rw [if_pos h]

/-- An unsigned sum past the 64-bit bound traps. -/
theorem addUInt64_of_lt {m n : Nat} (h : uint64Max < m + n) : addUInt64 m n = .error .add := by
  unfold addUInt64 checkUInt64
  rw [if_neg (Nat.not_le.mpr h)]

/-- The signed 64-bit range with its bounds written out. -/
theorem isInt64_iff : IsInt64 x ↔ -9223372036854775808 ≤ x ∧ x ≤ 9223372036854775807 := by
  simp only [IsInt64, int64Min, int64Max]

/-- Counts below `2 ^ 63` read the same as signed values. -/
theorem wrapInt64_of_lt {n : Nat} (h : n < 2 ^ 63) : wrapInt64 n = n := by
  have below : n < 9223372036854775808 := by omega
  unfold wrapInt64
  rw [if_pos below]

end Word

/-! ## Directions and plans -/

namespace Direction

/-- A direction's sign is its own inverse. -/
@[simp] theorem sign_mul_sign (d : Direction) : d.sign * d.sign = 1 := by
  cases d <;> rfl

/-- The sign of a step count's direction turns the count into its magnitude. -/
theorem sign_ofSteps_mul (steps : Int) : (ofSteps steps).sign * steps = steps.natAbs := by
  have magnitude := sign_ofSteps_mul_natAbs steps
  calc (ofSteps steps).sign * steps
      = (ofSteps steps).sign * ((ofSteps steps).sign * steps.natAbs) := by rw [magnitude]
    _ = steps.natAbs := by rw [← Int.mul_assoc, sign_mul_sign, Int.one_mul]

end Direction

namespace Profile

variable {steps : Int} {speed acceleration deceleration : Binary32} {p : Profile}

/-- A plan runs in the direction of its step count, the zero plan included. -/
theorem plan_direction (h : plan steps speed acceleration deceleration = .ok p) :
    p.direction = Direction.ofSteps steps := by
  unfold plan at h
  dsimp only at h
  split at h
  · cases h
    rfl
  · obtain ⟨doubled, -, planned⟩ := bind_eq_ok.mp h
    cases planned
    rfl

/-- Only a plan of some steps moves. -/
theorem steps_ne_zero_of_plan (h : plan steps speed acceleration deceleration = .ok p)
    (moving : p.isZero = false) : steps ≠ 0 := by
  rintro rfl
  unfold plan at h
  simp only [Int.natAbs_zero, decide_true, Bool.true_or, if_true] at h
  cases h
  cases moving

/-- A plan brakes over at most half of its distance: a margin that would take half or more
is cut to half, rounded down. -/
theorem plan_stopMargin_mul_two_le (h : plan steps speed acceleration deceleration = .ok p) :
    p.stopMargin * 2 ≤ steps.natAbs := by
  unfold plan at h
  dsimp only at h
  split at h
  · cases h
    simp [zero]
  · obtain ⟨doubled, hdoubled, planned⟩ := bind_eq_ok.mp h
    obtain ⟨-, rfl⟩ := Word.mulUInt64_eq_ok.mp hdoubled
    cases planned
    have halved : ∀ n margin : Nat, (if n ≤ margin * 2 then n / 2 else margin) * 2 ≤ n := by
      intro n margin
      split <;> omega
    exact halved _ _

end Profile

/-! ## The motion's updates -/

namespace Motion

/-- The steps between the position and the goal: what `distanceToGo` gives when their difference
is a signed 64-bit value. -/
def toGo (m : Motion) : Nat := (m.goal - m.position).natAbs

/-- The fewest steps the move can stop in, at the steps it has left. -/
def stopDistance (m : Motion) : Nat := m.stopDistanceAt m.toGo

/-- The switch to braking, made at the steps the move has left. -/
def braked (m : Motion) : Motion := m.brakedAt m.toGo

theorem brakedAt_toGo (m : Motion) : m.brakedAt m.toGo = m.braked := rfl

/-- The distance to go is the steps left, exactly when their signed difference does not
overflow. -/
theorem distanceToGo_eq_ok {m : Motion} {d : Nat} :
    m.distanceToGo = .ok d ↔ Word.IsInt64 (m.goal - m.position) ∧ d = m.toGo := by
  simp only [distanceToGo, bind_eq_ok, Word.subInt64_eq_ok, pure_eq_ok]
  constructor
  · rintro ⟨travel, ⟨inRange, rfl⟩, rfl⟩
    exact ⟨inRange, rfl⟩
  · rintro ⟨inRange, rfl⟩
    exact ⟨_, ⟨inRange, rfl⟩, rfl⟩

theorem distanceToGo_of_int64 {m : Motion} (inRange : Word.IsInt64 (m.goal - m.position)) :
    m.distanceToGo = .ok m.toGo :=
  distanceToGo_eq_ok.mpr ⟨inRange, rfl⟩

/-- The distance to go overflows exactly when the signed difference of goal and position does. -/
theorem distanceToGo_eq_error {m : Motion} :
    (∃ o, m.distanceToGo = .error o) ↔ ¬ Word.IsInt64 (m.goal - m.position) := by
  constructor
  · rintro ⟨o, failed⟩ inRange
    cases failed.symm.trans (distanceToGo_of_int64 inRange)
  · intro outOfRange
    cases toGo : m.distanceToGo with
    | error o => exact ⟨o, rfl⟩
    | ok d => exact absurd (distanceToGo_eq_ok.mp toGo).1 outOfRange

variable (m : Motion) (now : Nat)

/-- Seeing a motion only starts its clock. -/
theorem seenAt_eq :
    m.seenAt now =
      { m with lastStepMs := if m.isNewMove then now else m.lastStepMs, isNewMove := false } := by
  unfold seenAt
  cases m with
  | mk position goal direction current next cruise accel decel margin isNew last =>
    cases isNew <;> rfl

/-- The braking switch only changes the ramp rate. -/
theorem braked_eq :
    m.braked =
      { m with accelRate := if m.toGo ≤ m.stopMargin then -m.decelRate else m.accelRate } := by
  unfold braked brakedAt
  split <;> rfl

@[simp] theorem seenAt_position : (m.seenAt now).position = m.position := by rw [seenAt_eq]
@[simp] theorem seenAt_goal : (m.seenAt now).goal = m.goal := by rw [seenAt_eq]
@[simp] theorem seenAt_direction : (m.seenAt now).direction = m.direction := by rw [seenAt_eq]
@[simp] theorem seenAt_currentStepPeriod :
    (m.seenAt now).currentStepPeriod = m.currentStepPeriod := by rw [seenAt_eq]
@[simp] theorem seenAt_nextStepPeriod : (m.seenAt now).nextStepPeriod = m.nextStepPeriod := by
  rw [seenAt_eq]
@[simp] theorem seenAt_stopMargin : (m.seenAt now).stopMargin = m.stopMargin := by rw [seenAt_eq]
@[simp] theorem seenAt_isNewMove : (m.seenAt now).isNewMove = false := by rw [seenAt_eq]
@[simp] theorem seenAt_cruiseStepPeriod :
    (m.seenAt now).cruiseStepPeriod = m.cruiseStepPeriod := by rw [seenAt_eq]
@[simp] theorem seenAt_accelRate : (m.seenAt now).accelRate = m.accelRate := by rw [seenAt_eq]
@[simp] theorem seenAt_decelRate : (m.seenAt now).decelRate = m.decelRate := by rw [seenAt_eq]
@[simp] theorem seenAt_toGo : (m.seenAt now).toGo = m.toGo := by
  simp [toGo]

/-- A new move's clock starts when it is first seen. -/
theorem seenAt_lastStepMs_of_isNewMove (fresh : m.isNewMove = true) :
    (m.seenAt now).lastStepMs = now := by
  rw [seenAt_eq]
  simp [fresh]

@[simp] theorem braked_position : m.braked.position = m.position := by rw [braked_eq]
@[simp] theorem braked_goal : m.braked.goal = m.goal := by rw [braked_eq]
@[simp] theorem braked_direction : m.braked.direction = m.direction := by rw [braked_eq]
@[simp] theorem braked_currentStepPeriod : m.braked.currentStepPeriod = m.currentStepPeriod := by
  rw [braked_eq]
@[simp] theorem braked_stopMargin : m.braked.stopMargin = m.stopMargin := by rw [braked_eq]
@[simp] theorem braked_decelRate : m.braked.decelRate = m.decelRate := by rw [braked_eq]
@[simp] theorem braked_nextStepPeriod : m.braked.nextStepPeriod = m.nextStepPeriod := by
  rw [braked_eq]
@[simp] theorem braked_cruiseStepPeriod : m.braked.cruiseStepPeriod = m.cruiseStepPeriod := by
  rw [braked_eq]

variable (p : Int)

@[simp] theorem steppedTo_position : (m.steppedTo p now).position = p := rfl
@[simp] theorem steppedTo_goal : (m.steppedTo p now).goal = m.goal := rfl
@[simp] theorem steppedTo_direction : (m.steppedTo p now).direction = m.direction := rfl
@[simp] theorem steppedTo_stopMargin : (m.steppedTo p now).stopMargin = m.stopMargin := rfl
@[simp] theorem steppedTo_nextStepPeriod : (m.steppedTo p now).nextStepPeriod = m.rampedPeriod :=
  rfl

@[simp] theorem atRest_position : (atRest p).position = p := rfl
@[simp] theorem atRest_goal : (atRest p).goal = p := rfl
@[simp] theorem atRest_currentStepPeriod : (atRest p).currentStepPeriod = 0 := rfl
@[simp] theorem atRest_stopMargin : (atRest p).stopMargin = 0 := rfl

variable (start target : Int) (profile : Profile)

@[simp] theorem planned_position : (planned start target profile).position = start := rfl
@[simp] theorem planned_goal : (planned start target profile).goal = target := rfl
@[simp] theorem planned_direction : (planned start target profile).direction = profile.direction :=
  rfl
@[simp] theorem planned_currentStepPeriod : (planned start target profile).currentStepPeriod = 0 :=
  rfl
@[simp] theorem planned_stopMargin :
    (planned start target profile).stopMargin = profile.stopMargin := rfl
@[simp] theorem planned_isNewMove : (planned start target profile).isNewMove = true := rfl

/-- The stop distance is never more than the distance to go. -/
theorem stopDistance_le_toGo : m.stopDistance ≤ m.toGo :=
  Nat.min_le_right _ _

/-- The stop distance is never more than the stop margin. -/
theorem stopDistance_le_stopMargin : m.stopDistance ≤ m.stopMargin :=
  Nat.le_trans (Nat.min_le_left _ _) (Nat.min_le_left _ _)

/-- The stop distance is never more than the braking distance. -/
theorem stopDistance_le_brakingDistance : m.stopDistance ≤ m.brakingDistance :=
  Nat.le_trans (Nat.min_le_left _ _) (Nat.min_le_right _ _)

end Motion

/-! ## Planning and stopping -/

namespace Controller

variable {σ : Type} {c c' : Controller σ}

/-- A controller whose last step period is zero reports zero speed. -/
theorem currentSpeed_of_currentStepPeriod (h : c.motion.currentStepPeriod = 0) :
    c.currentSpeed = 0 := by
  unfold currentSpeed
  rw [h, if_pos (by decide)]

/-- Planning checks the travel from the position to the target, plans it, and completes at
once when the plan moves nothing. -/
theorem moveTo_eq_ok {target : Int} :
    c.moveTo target = .ok c' ↔ ∃ profile : Profile,
      Word.IsInt64 (target - c.motion.position) ∧
      Profile.plan (target - c.motion.position) c.speed c.acceleration c.deceleration =
        .ok profile ∧
      c' = if profile.isZero then { c with motion := .atRest c.motion.position, state := .complete }
        else { c with motion := .planned c.motion.position target profile, state := .ramping } := by
  simp only [moveTo, bind_eq_ok, Word.subInt64_eq_ok]
  constructor
  · rintro ⟨travel, ⟨inRange, rfl⟩, profile, planned, result⟩
    refine ⟨profile, inRange, planned, ?_⟩
    split at result
    · rename_i zero
      rw [if_pos zero]
      exact (pure_eq_ok.mp result).symm
    · rename_i moving
      rw [if_neg moving]
      exact (pure_eq_ok.mp result).symm
  · rintro ⟨profile, inRange, planned, rfl⟩
    refine ⟨_, ⟨inRange, rfl⟩, profile, planned, ?_⟩
    split <;> rfl

/-- A planned move that is under way starts from the position, ends at the target, runs in the
direction of the travel and has not been seen by a tick. -/
theorem moveTo_ramping {target : Int} (h : c.moveTo target = .ok c') (ramping : c'.state = .ramping) :
    c'.motion.position = c.motion.position ∧ c'.motion.goal = target ∧
      c'.motion.direction = Direction.ofSteps (target - c.motion.position) ∧
      c'.motion.isNewMove = true ∧ target ≠ c.motion.position := by
  obtain ⟨profile, -, planned, rfl⟩ := moveTo_eq_ok.mp h
  cases moving : profile.isZero
  case true => simp [moving] at ramping
  have travel := Profile.steps_ne_zero_of_plan planned moving
  simp only [Bool.false_eq_true, if_false, Motion.planned_position, Motion.planned_goal,
    Motion.planned_direction, Profile.plan_direction planned, Motion.planned_isNewMove, true_and]
  omega

/-- A move that plans nothing completes at once, at rest where it stands. -/
theorem moveTo_not_ramping {target : Int} (h : c.moveTo target = .ok c')
    (notRamping : c'.state ≠ .ramping) :
    c' = { c with motion := .atRest c.motion.position, state := .complete } := by
  obtain ⟨profile, -, -, rfl⟩ := moveTo_eq_ok.mp h
  cases moving : profile.isZero
  case true => simp
  case false => simp [moving] at notRamping

/-- A relative move checks its target and plans the move to it. -/
theorem moveBy_eq_ok {delta : Int} :
    c.moveBy delta = .ok c' ↔
      Word.IsInt64 (c.motion.position + delta) ∧ c.moveTo (c.motion.position + delta) = .ok c' := by
  simp only [moveBy, bind_eq_ok, Word.addInt64_eq_ok]
  constructor
  · rintro ⟨target, ⟨inRange, rfl⟩, planned⟩
    exact ⟨inRange, planned⟩
  · rintro ⟨inRange, planned⟩
    exact ⟨_, ⟨inRange, rfl⟩, planned⟩

/-- Without a move under way there is nothing to stop. -/
theorem requestStop_of_not_ramping (h : c.state ≠ .ramping) : c.requestStop = .ok c := by
  simp [requestStop, h, pure, Except.pure]

/-- Stopping a move under way pulls its goal in to the stop distance ahead of the position,
which becomes its stop margin; it overflows exactly when the distance to go, that offset or that
goal does. -/
theorem requestStop_eq_ok (h : c.state = .ramping) :
    c.requestStop = .ok c' ↔
      Word.IsInt64 (c.motion.goal - c.motion.position) ∧
      Word.IsInt64 (c.motion.direction.sign * Word.wrapInt64 c.motion.stopDistance) ∧
      Word.IsInt64
        (c.motion.position + c.motion.direction.sign * Word.wrapInt64 c.motion.stopDistance) ∧
      c' = { c with
        motion := { c.motion with
          stopMargin := c.motion.stopDistance
          goal := c.motion.position +
            c.motion.direction.sign * Word.wrapInt64 c.motion.stopDistance } } := by
  simp only [requestStop, h, ne_eq, not_true_eq_false, ↓reduceIte, bind_eq_ok,
    Motion.distanceToGo_eq_ok, Word.mulInt64_eq_ok, Word.addInt64_eq_ok, pure_eq_ok]
  constructor
  · rintro ⟨toGo, ⟨travel, rfl⟩, offset, ⟨offsetInRange, rfl⟩, goal, ⟨goalInRange, rfl⟩, rfl⟩
    exact ⟨travel, offsetInRange, goalInRange, rfl⟩
  · rintro ⟨travel, offsetInRange, goalInRange, rfl⟩
    exact ⟨_, ⟨travel, rfl⟩, _, ⟨offsetInRange, rfl⟩, _, ⟨goalInRange, rfl⟩, rfl⟩

/-- Asking for the time to the next step overflows exactly when a move under way, already seen
by a tick, has its next step due past the 64-bit clock. -/
theorem timeToNextStep_eq_error {now : Nat} :
    (∃ o, c.timeToNextStep now = .error o) ↔ c.state = .ramping ∧ c.motion.isNewMove = false ∧
      Word.uint64Max < c.motion.lastStepMs + c.motion.nextStepPeriod.toUInt64 := by
  unfold timeToNextStep
  by_cases ramping : c.state = .ramping
  case neg => simp [ramping, pure, Except.pure]
  cases fresh : c.motion.isNewMove
  case true => simp [ramping, pure, Except.pure]
  by_cases fits : c.motion.lastStepMs + c.motion.nextStepPeriod.toUInt64 ≤ Word.uint64Max
  · simp [ramping, Word.addUInt64_of_le fits, bind, Except.bind, pure, Except.pure]
    omega
  · simp [ramping, Word.addUInt64_of_lt (Nat.lt_of_not_le fits), bind, Except.bind]
    omega

end Controller

/-! ## Ticking -/

namespace Controller

variable {σ : Type} [CoilOutput σ]

/-- Everything one tick at `now` can do to a controller `c`, with the controller it leaves and
what it reports. A due step checks the distance to go, makes the braking switch and advances the
sequencer before the coil write; only a write that succeeds moves the position. -/
inductive Ticked (c : Controller σ) (now : Nat) : Controller σ → Except MotorError Tick → Prop
  /-- No move is under way: nothing changes. -/
  | idle (notRamping : c.state ≠ .ramping) : Ticked c now c (.ok .complete)
  /-- The move stands at its goal: it completes at rest. -/
  | atGoal (ramping : c.state = .ramping) (atGoal : c.motion.position = c.motion.goal) :
      Ticked c now { c with motion := { c.motion with currentStepPeriod := 0 }, state := .complete }
        (.ok .complete)
  /-- The next step is not due: only the move's clock may start. -/
  | pending (ramping : c.state = .ramping) (away : c.motion.position ≠ c.motion.goal)
      (early : now - (c.motion.seenAt now).lastStepMs < c.motion.nextStepPeriod.toUInt64) :
      Ticked c now { c with motion := c.motion.seenAt now } (.ok .pending)
  /-- The coil write of a due step failed: the position stays. -/
  | fault {coils : σ} {e : MotorError} (ramping : c.state = .ramping)
      (away : c.motion.position ≠ c.motion.goal)
      (due : c.motion.nextStepPeriod.toUInt64 ≤ now - (c.motion.seenAt now).lastStepMs)
      (write : CoilOutput.write c.coils (c.sequencer.advance c.stepMode c.motion.direction).2 =
        (coils, .error e))
      (travel : Word.IsInt64 (c.motion.goal - c.motion.position)) :
      Ticked c now { c with
        sequencer := (c.sequencer.advance c.stepMode c.motion.direction).1
        coils := coils
        motion := (c.motion.seenAt now).braked } (.error e)
  /-- A due step was taken and the goal lies further on. -/
  | stepped {coils : σ} (ramping : c.state = .ramping) (away : c.motion.position ≠ c.motion.goal)
      (due : c.motion.nextStepPeriod.toUInt64 ≤ now - (c.motion.seenAt now).lastStepMs)
      (write : CoilOutput.write c.coils (c.sequencer.advance c.stepMode c.motion.direction).2 =
        (coils, .ok ()))
      (short : c.motion.position + c.motion.direction.sign ≠ c.motion.goal)
      (travel : Word.IsInt64 (c.motion.goal - c.motion.position))
      (inRange : Word.IsInt64 (c.motion.position + c.motion.direction.sign)) :
      Ticked c now { c with
        sequencer := (c.sequencer.advance c.stepMode c.motion.direction).1
        coils := coils
        motion :=
          (c.motion.seenAt now).braked.steppedTo (c.motion.position + c.motion.direction.sign) now }
        (.ok (.stepped (sleepHint c.timing (c.motion.seenAt now).braked.rampedPeriod)))
  /-- A due step reached the goal: the move completes at rest. -/
  | arrived {coils : σ} (ramping : c.state = .ramping) (away : c.motion.position ≠ c.motion.goal)
      (due : c.motion.nextStepPeriod.toUInt64 ≤ now - (c.motion.seenAt now).lastStepMs)
      (write : CoilOutput.write c.coils (c.sequencer.advance c.stepMode c.motion.direction).2 =
        (coils, .ok ()))
      (reach : c.motion.position + c.motion.direction.sign = c.motion.goal)
      (travel : Word.IsInt64 (c.motion.goal - c.motion.position))
      (inRange : Word.IsInt64 (c.motion.position + c.motion.direction.sign)) :
      Ticked c now { c with
        sequencer := (c.sequencer.advance c.stepMode c.motion.direction).1
        coils := coils
        motion :=
          { (c.motion.seenAt now).braked.steppedTo c.motion.goal now with currentStepPeriod := 0 }
        state := .complete } (.ok .arrived)

variable {c c' : Controller σ} {now : Nat}

/-- Every tick that returns does one of the things `Ticked` lists. -/
theorem tick_ticked {r : Except MotorError Tick} (h : c.tick now = .ok (c', r)) :
    Ticked c now c' r := by
  unfold tick at h
  by_cases ramping : c.state = .ramping
  case neg =>
    rw [if_pos ramping] at h
    cases h
    exact .idle ramping
  rw [if_neg (fun notRamping => notRamping ramping)] at h
  by_cases atGoal : c.motion.position = c.motion.goal
  · rw [if_pos atGoal] at h
    cases h
    exact .atGoal ramping atGoal
  rw [if_neg atGoal] at h
  dsimp only at h
  split at h
  · rename_i early
    cases h
    exact .pending ramping atGoal (by simpa using early)
  rename_i late
  have due : c.motion.nextStepPeriod.toUInt64 ≤ now - (c.motion.seenAt now).lastStepMs := by
    simpa using Nat.le_of_not_lt late
  -- the distance to go is taken, checked, before the step
  obtain ⟨toGo, measured, h⟩ := bind_eq_ok.mp h
  obtain ⟨travel, rfl⟩ := Motion.distanceToGo_eq_ok.mp measured
  simp only [Motion.seenAt_goal, Motion.seenAt_position] at travel
  rw [Motion.brakedAt_toGo] at h
  simp only [Motion.braked_direction, Motion.seenAt_direction] at h
  generalize write :
    CoilOutput.write c.coils (c.sequencer.advance c.stepMode c.motion.direction).2 = written at h
  obtain ⟨coils, verdict⟩ := written
  cases verdict with
  | error e =>
    cases h
    exact .fault ramping atGoal due write travel
  | ok u =>
    simp only [Motion.braked_position, Motion.seenAt_position, bind, Except.bind] at h
    split at h
    · cases h
    rename_i position hposition
    obtain ⟨inRange, rfl⟩ := Word.addInt64_eq_ok.mp hposition
    -- the new position is compared with the goal, which the step leaves where it was
    split at h
    · rename_i reach
      simp only [Motion.steppedTo_goal, Motion.braked_goal, Motion.seenAt_goal] at reach
      rw [reach] at h
      cases h
      exact .arrived ramping atGoal due write reach travel (reach ▸ inRange)
    · rename_i short
      simp only [Motion.steppedTo_goal, Motion.braked_goal, Motion.seenAt_goal] at short
      cases h
      exact .stepped ramping atGoal due write short travel inRange

/-- A tick overflows only on a step taken by a move under way, and only when the distance to
the goal or the position one step on is not a signed 64-bit value. -/
theorem tick_eq_error {o : Overflow} (h : c.tick now = .error o) :
    c.state = .ramping ∧ c.motion.position ≠ c.motion.goal ∧
      (¬ Word.IsInt64 (c.motion.goal - c.motion.position) ∨
        ¬ Word.IsInt64 (c.motion.position + c.motion.direction.sign)) := by
  unfold tick at h
  by_cases ramping : c.state = .ramping
  case neg =>
    rw [if_pos ramping] at h
    cases h
  rw [if_neg (fun notRamping => notRamping ramping)] at h
  by_cases atGoal : c.motion.position = c.motion.goal
  · rw [if_pos atGoal] at h
    cases h
  rw [if_neg atGoal] at h
  dsimp only at h
  split at h
  · cases h
  refine ⟨ramping, atGoal, ?_⟩
  by_cases travel : Word.IsInt64 (c.motion.goal - c.motion.position)
  case neg => exact .inl travel
  refine .inr fun inRange => ?_
  have measured : (c.motion.seenAt now).distanceToGo = .ok (c.motion.seenAt now).toGo :=
    Motion.distanceToGo_of_int64 (by simpa using travel)
  rw [measured] at h
  simp only [bind, Except.bind] at h
  rw [Motion.brakedAt_toGo] at h
  simp only [Motion.braked_direction, Motion.seenAt_direction, Motion.braked_position,
    Motion.seenAt_position] at h
  generalize CoilOutput.write c.coils (c.sequencer.advance c.stepMode c.motion.direction).2 =
    written at h
  obtain ⟨coils, verdict⟩ := written
  cases verdict with
  | error e => cases h
  | ok u =>
    have stepOk : Word.addInt64 c.motion.position c.motion.direction.sign =
        .ok (c.motion.position + c.motion.direction.sign) :=
      Word.addInt64_eq_ok.mpr ⟨inRange, rfl⟩
    simp only [stepOk] at h
    split at h <;> cases h

/-- A tick moves the position by at most one step: a step of a move under way, in its direction,
keeping its goal and its direction. -/
theorem Ticked.position_eq_or_step {r : Except MotorError Tick} (h : Ticked c now c' r) :
    c'.motion.position = c.motion.position ∨
      c.state = .ramping ∧ c.motion.position ≠ c.motion.goal ∧
      c'.motion.position = c.motion.position + c.motion.direction.sign ∧
      c'.motion.goal = c.motion.goal ∧ c'.motion.direction = c.motion.direction := by
  cases h with
  | idle => exact .inl rfl
  | atGoal => exact .inl rfl
  | pending => exact .inl (by simp)
  | fault => exact .inl (by simp)
  | stepped ramping away => exact .inr ⟨ramping, away, by simp, by simp, by simp⟩
  | arrived ramping away _ _ reach =>
    exact .inr ⟨ramping, away, by simp [reach], by simp, by simp⟩

/-- A tick returns whenever the distance to the goal and the position one step on are signed
64-bit values. -/
theorem tick_ok_of_int64 (travel : Word.IsInt64 (c.motion.goal - c.motion.position))
    (h : Word.IsInt64 (c.motion.position + c.motion.direction.sign)) :
    ∃ c' r, c.tick now = .ok (c', r) := by
  cases result : c.tick now with
  | error o =>
    rcases (tick_eq_error result).2.2 with outOfRange | outOfRange
    · exact absurd travel outOfRange
    · exact absurd h outOfRange
  | ok pair => exact ⟨pair.1, pair.2, rfl⟩

/-- Without a move under way a tick does nothing. -/
theorem tick_of_not_ramping (h : c.state ≠ .ramping) : c.tick now = .ok (c, .ok .complete) := by
  unfold tick
  rw [if_pos h]
  rfl

/-- The first tick of a new move starts the move's clock, and waits when the first period is
at least a whole ms. -/
theorem tick_of_isNewMove (ramping : c.state = .ramping) (away : c.motion.position ≠ c.motion.goal)
    (fresh : c.motion.isNewMove = true) (wait : 0 < c.motion.nextStepPeriod.toUInt64) :
    c.tick now = .ok ({ c with motion := c.motion.seenAt now }, .ok .pending) := by
  have early : now - (c.motion.seenAt now).lastStepMs < (c.motion.seenAt now).nextStepPeriod.toUInt64 := by
    rw [Motion.seenAt_lastStepMs_of_isNewMove _ _ fresh, Motion.seenAt_nextStepPeriod]
    omega
  unfold tick
  rw [if_neg (fun notRamping => notRamping ramping), if_neg away]
  dsimp only
  rw [if_pos early]
  rfl

end Controller

end StepperDrive
