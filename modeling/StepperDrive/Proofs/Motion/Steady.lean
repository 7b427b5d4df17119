import StepperDrive.Proofs.Motion.Spec
/-!
# Keeping to the goal

Whatever a session does to a controller from its construction on (planning, stopping,
redeclaring the position, changing the kinematics, ticking at any times, with coil writes that
may fail at any point), the controller's position and goal stay in step:

* at rest (idle or complete) the goal is the position and the last step period is zero, so the
  controller reports zero speed;
* while a move is under way its goal lies ahead in the move's direction, no further than the
  distance of the move that planned it.

`Controller.Steady` is that invariant, together with the ranges that keep the checked
arithmetic from trapping; `Controller.Reachable` is the set of controllers a session can reach,
each with the distance of its move as a ghost. Each operation keeps the invariant
(`Steady.apply`), so it holds all along every session (`Reachable.steady`). Main statement:
`Reachable.keeps_to_goal`, which adds that a tick moves at most one step, in the move's
direction and never past the goal, and that neither the distance to go, a tick nor a stop request
can overflow.
-/

namespace StepperDrive

set_option autoImplicit false

/-! ## Sessions -/

/-- The positions and offsets an operation names are signed 64-bit values, as the arguments of
the operations are. -/
def ControllerOp.InRange : ControllerOp → Prop
  | .setPosition p | .moveTo p | .moveBy p | .moveToBlocking p => Word.IsInt64 p
  | _ => True

/-- The distance of the move under way after `op` on a controller at `position`: an operation
that plans a move spans the distance to its target, any other keeps `span`. -/
def ControllerOp.spanAfter (position : Int) (span : Nat) : ControllerOp → Nat
  | .moveTo t | .moveToBlocking t => (t - position).natAbs
  | .moveBy d => d.natAbs
  | _ => span

namespace Direction

variable {d : Direction} {x : Int}

/-- A signed distance ahead in a direction is its magnitude. -/
theorem sign_mul_eq_natAbs (ahead : 0 ≤ d.sign * x) : d.sign * x = x.natAbs := by
  cases d <;> simp only [sign] at * <;> omega

/-- One step in the direction of a distance ahead, and not yet covered, leaves it ahead and one
shorter. -/
theorem step_ahead (ahead : 0 ≤ d.sign * x) (away : x ≠ 0) :
    0 ≤ d.sign * (x - d.sign) ∧ (x - d.sign).natAbs + 1 = x.natAbs := by
  cases d <;> simp only [sign] at * <;> omega

end Direction

namespace Controller

variable {σ : Type}

/-- The controller keeps to its goal, for a move of at most `span` steps: at rest it stands at
its goal with a zero period; under way its goal lies ahead in the move's direction, within
`span`. Position, goal, their difference and the stop margin stay in range of their words. -/
structure Steady (c : Controller σ) (span : Nat) : Prop where
  /-- The position is a signed 64-bit value. -/
  position_int64 : Word.IsInt64 c.motion.position
  /-- The goal is a signed 64-bit value. -/
  goal_int64 : Word.IsInt64 c.motion.goal
  /-- The distance from the position to the goal is a signed 64-bit value. -/
  travel_int64 : Word.IsInt64 (c.motion.goal - c.motion.position)
  /-- The stop margin reads the same as a signed value. -/
  margin_lt : c.motion.stopMargin < 2 ^ 63
  /-- At rest the goal is the position and the last step period zero. -/
  rest : c.state ≠ .ramping → c.motion.position = c.motion.goal ∧ c.motion.currentStepPeriod = 0
  /-- Under way the goal lies ahead in the move's direction. -/
  ahead : c.state = .ramping → 0 ≤ c.motion.direction.sign * (c.motion.goal - c.motion.position)
  /-- Under way the goal is within the move's span. -/
  within : c.state = .ramping → c.motion.toGo ≤ span

variable {c c' : Controller σ} {span : Nat}

/-- The invariant reads only the state and the position, goal, direction, last period and stop
margin of the motion. -/
theorem Steady.congr (h : Steady c span) (state : c'.state = c.state)
    (position : c'.motion.position = c.motion.position) (goal : c'.motion.goal = c.motion.goal)
    (direction : c'.motion.direction = c.motion.direction)
    (period : c'.motion.currentStepPeriod = c.motion.currentStepPeriod)
    (margin : c'.motion.stopMargin = c.motion.stopMargin) : Steady c' span where
  position_int64 := position ▸ h.position_int64
  goal_int64 := goal ▸ h.goal_int64
  travel_int64 := goal ▸ position ▸ h.travel_int64
  margin_lt := margin ▸ h.margin_lt
  rest := state ▸ position ▸ goal ▸ period ▸ h.rest
  ahead := state ▸ position ▸ goal ▸ direction ▸ h.ahead
  within := by
    intro ramping
    have := h.within (state ▸ ramping)
    simpa [Motion.toGo, position, goal] using this

/-- The goal is no further than the position can go in the move's direction before it leaves
the signed 64-bit range. -/
theorem Steady.toGo_le_stepsToLimit (h : Steady c span) :
    c.motion.toGo ≤ c.motion.stepsToLimit := by
  by_cases ramping : c.state = .ramping
  case neg => simp [Motion.toGo, (h.rest ramping).1]
  have ahead := h.ahead ramping
  have goalRange := Word.isInt64_iff.mp h.goal_int64
  unfold Motion.toGo Motion.stepsToLimit
  cases hd : c.motion.direction <;>
    simp only [hd, Direction.sign, Word.int64Max, Word.int64Min] at ahead ⊢ <;> omega

/-- A controller at rest at a signed 64-bit position keeps to its goal, for any span. -/
theorem steady_atRest {position : Int} (inRange : Word.IsInt64 position)
    (notRamping : c.state ≠ .ramping) (motion : c.motion = .atRest position) : Steady c span where
  position_int64 := by simpa [motion] using inRange
  goal_int64 := by simpa [motion] using inRange
  travel_int64 := by simp [motion, Word.isInt64_iff]
  margin_lt := by simp [motion]
  rest := fun _ => by simp [motion]
  ahead := fun ramping => absurd ramping notRamping
  within := fun ramping => absurd ramping notRamping

/-- A new controller stands at rest at zero. -/
theorem steady_withParts (coils : σ) (table : CoilTable) (defaults : MotorDefaults)
    (timing : Timing) : Steady (withParts coils table defaults timing) 0 :=
  steady_atRest (show Word.IsInt64 0 by decide) (by simp [withParts]) rfl

/-! ## Planning and stopping -/

/-- Redeclaring the position leaves the controller idle at it. -/
theorem Steady.setPosition {position : Int} (inRange : Word.IsInt64 position) :
    Steady (c.setPosition position) span :=
  steady_atRest inRange (by simp [Controller.setPosition]) rfl

/-- Aborting leaves the controller idle where it stands. -/
theorem Steady.abort {span' : Nat} (h : Steady c span) : Steady c.abort span' :=
  steady_atRest h.position_int64 (by simp [Controller.abort]) rfl

/-- A stop request does not overflow, and keeps the controller to its goal: the new goal lies
between the position and the old one. -/
theorem Steady.requestStop (h : Steady c span) :
    ∃ c', c.requestStop = .ok c' ∧ Steady c' span := by
  by_cases ramping : c.state = .ramping
  case neg => exact ⟨c, requestStop_of_not_ramping ramping, h⟩
  have toGo := h.ahead ramping
  have toGoMagnitude := Direction.sign_mul_eq_natAbs toGo
  have shorter := c.motion.stopDistance_le_toGo
  have margin : c.motion.stopDistance < 2 ^ 63 :=
    Nat.lt_of_le_of_lt c.motion.stopDistance_le_stopMargin h.margin_lt
  have unwrapped := Word.wrapInt64_of_lt margin
  have positionRange := Word.isInt64_iff.mp h.position_int64
  have goalRange := Word.isInt64_iff.mp h.goal_int64
  have within := h.within ramping
  -- the offset has the stop distance as magnitude, and no more than the distance to go
  have offset : Word.IsInt64 (c.motion.direction.sign * Word.wrapInt64 c.motion.stopDistance) := by
    rw [unwrapped, Word.isInt64_iff]
    cases hd : c.motion.direction <;> simp only [Direction.sign] <;> omega
  have goal : Word.IsInt64
      (c.motion.position + c.motion.direction.sign * Word.wrapInt64 c.motion.stopDistance) := by
    rw [unwrapped, Word.isInt64_iff]
    simp only [Motion.toGo] at shorter
    cases hd : c.motion.direction <;> simp only [hd, Direction.sign] at toGoMagnitude ⊢ <;> omega
  refine ⟨_, (requestStop_eq_ok ramping).mpr ⟨h.travel_int64, offset, goal, rfl⟩, ?_⟩
  refine
    { position_int64 := h.position_int64
      goal_int64 := goal
      travel_int64 := ?_
      margin_lt := margin
      rest := fun notRamping => absurd ramping notRamping
      ahead := fun _ => ?_
      within := fun _ => ?_ }
  all_goals
    simp only [Motion.toGo] at shorter within ⊢
    rw [unwrapped]
  · rw [Word.isInt64_iff]
    cases hd : c.motion.direction <;> simp only [Direction.sign] <;> omega
  · cases hd : c.motion.direction <;> simp only [Direction.sign] <;> omega
  · cases hd : c.motion.direction <;> simp only [Direction.sign] <;> omega

/-- Planning a move from a signed 64-bit position to a signed 64-bit target leaves the
controller keeping to its goal, for a span of the planned distance, whatever it did before. -/
theorem steady_moveTo {target : Int} (position : Word.IsInt64 c.motion.position)
    (inRange : Word.IsInt64 target) (planned : c.moveTo target = .ok c') :
    Steady c' (target - c.motion.position).natAbs := by
  obtain ⟨profile, travel, plan, rfl⟩ := moveTo_eq_ok.mp planned
  split
  case isTrue => exact steady_atRest position (by simp) rfl
  -- a move under way: its direction and margin come from the plan
  have direction := Profile.plan_direction plan
  have margin := Profile.plan_stopMargin_mul_two_le plan
  have travelRange := Word.isInt64_iff.mp travel
  exact
    { position_int64 := position
      goal_int64 := inRange
      travel_int64 := travel
      margin_lt := by simp only [Motion.planned_stopMargin]; omega
      rest := fun notRamping => absurd rfl notRamping
      ahead := fun _ => by
        simp only [Motion.planned_direction, Motion.planned_goal, Motion.planned_position,
          direction, Direction.sign_ofSteps_mul]
        omega
      within := fun _ => by simp [Motion.toGo] }

/-- Planning a move to a signed 64-bit target keeps the controller to its goal, for a span of
the planned distance. -/
theorem Steady.moveTo {target : Int} (h : Steady c span) (inRange : Word.IsInt64 target)
    (planned : c.moveTo target = .ok c') :
    Steady c' (target - c.motion.position).natAbs :=
  steady_moveTo h.position_int64 inRange planned

/-- Planning a move by a signed 64-bit offset keeps the controller to its goal, for a span of
the offset. -/
theorem Steady.moveBy {delta : Int} (h : Steady c span) (planned : c.moveBy delta = .ok c') :
    Steady c' delta.natAbs := by
  obtain ⟨inRange, moved⟩ := moveBy_eq_ok.mp planned
  have offset : c.motion.position + delta - c.motion.position = delta := by omega
  have := h.moveTo inRange moved
  rwa [offset] at this

/-! ## Ticking -/

variable [CoilOutput σ]

/-- A tick keeps the controller to its goal. -/
theorem Steady.ticked {now : Nat} {r : Except MotorError Tick} (h : Steady c span)
    (ticked : Ticked c now c' r) : Steady c' span := by
  cases ticked with
  | idle => exact h
  | atGoal ramping atGoal =>
    exact
      { position_int64 := h.position_int64
        goal_int64 := h.goal_int64
        travel_int64 := h.travel_int64
        margin_lt := h.margin_lt
        rest := fun _ => ⟨atGoal, rfl⟩
        ahead := fun complete => by cases complete
        within := fun complete => by cases complete }
  | pending => exact h.congr rfl (by simp) (by simp) (by simp) (by simp) (by simp)
  | fault => exact h.congr rfl (by simp) (by simp) (by simp) (by simp) (by simp)
  | stepped ramping away _ _ short =>
    have toGo := h.ahead ramping
    have step := Direction.step_ahead toGo (by omega : c.motion.goal - c.motion.position ≠ 0)
    have travel := Word.isInt64_iff.mp h.travel_int64
    have positionRange := Word.isInt64_iff.mp h.position_int64
    have goalRange := Word.isInt64_iff.mp h.goal_int64
    have within := h.within ramping
    simp only [Motion.toGo] at within
    -- the step lands between the old position and the goal
    have landed : Word.IsInt64 (c.motion.position + c.motion.direction.sign) := by
      rw [Word.isInt64_iff]
      cases hd : c.motion.direction <;> simp only [hd, Direction.sign] at toGo ⊢ <;> omega
    exact
      { position_int64 := by simpa using landed
        goal_int64 := by simpa using h.goal_int64
        travel_int64 := by
          simp only [Motion.steppedTo_goal, Motion.braked_goal, Motion.seenAt_goal,
            Motion.steppedTo_position, Word.isInt64_iff]
          cases hd : c.motion.direction <;> simp only [hd, Direction.sign] at toGo ⊢ <;> omega
        margin_lt := by simpa using h.margin_lt
        rest := fun notRamping => absurd ramping notRamping
        ahead := fun _ => by
          simpa [Int.sub_sub] using step.1
        within := fun _ => by
          simp only [Motion.toGo, Motion.steppedTo_goal, Motion.braked_goal,
            Motion.seenAt_goal, Motion.steppedTo_position, ← Int.sub_sub]
          omega }
  | arrived ramping away _ _ reach =>
    exact
      { position_int64 := by simpa using h.goal_int64
        goal_int64 := by simpa using h.goal_int64
        travel_int64 := by simp [Word.isInt64_iff]
        margin_lt := by simpa using h.margin_lt
        rest := fun _ => ⟨by simp, rfl⟩
        ahead := fun complete => by cases complete
        within := fun complete => by cases complete }

/-- A tick never overflows on a controller that keeps to its goal, and keeps it so. -/
theorem Steady.tick (h : Steady c span) (now : Nat) :
    ∃ c' r, c.tick now = .ok (c', r) ∧ Steady c' span := by
  have moves : ∃ c' r, c.tick now = .ok (c', r) := by
    cases result : c.tick now with
    | ok pair => exact ⟨pair.1, pair.2, rfl⟩
    | error o =>
      -- an overflow needs a distance or a step off the signed range, which the goal ahead
      -- rules out
      obtain ⟨ramping, away, outOfRange⟩ := tick_eq_error result
      rcases outOfRange with outOfRange | outOfRange
      · exact absurd h.travel_int64 outOfRange
      have toGo := h.ahead ramping
      have positionRange := Word.isInt64_iff.mp h.position_int64
      have goalRange := Word.isInt64_iff.mp h.goal_int64
      apply absurd _ outOfRange
      rw [Word.isInt64_iff]
      cases hd : c.motion.direction <;> simp only [hd, Direction.sign] at toGo ⊢ <;> omega
  obtain ⟨c', r, ticked⟩ := moves
  exact ⟨c', r, ticked, h.ticked (tick_ticked ticked)⟩

/-- Releasing the coils changes nothing but the coils. -/
theorem Steady.disable (h : Steady c span) : Steady c.disable.1 span :=
  h.congr rfl rfl rfl rfl rfl rfl

section Runs

variable {P : Controller σ → Prop}
  (keep : ∀ {c c' : Controller σ} {now : Nat} {r : Except MotorError Tick},
    Ticked c now c' r → P c → P c')
include keep

/-- A property every tick keeps holds after a run of ticks over a span of time. -/
theorem tickSpanFrom_keeps {untilPosition : Option Int} {fuel now : Nat} {acc s : TickSpan}
    (h : P c) (run : tickSpanFrom untilPosition fuel c now acc = .ok (c', s)) : P c' := by
  induction fuel generalizing c now acc with
  | zero =>
    cases run
    exact h
  | succ fuel ih =>
    simp only [Controller.tickSpanFrom] at run
    split at run
    · cases run
      exact h
    obtain ⟨⟨ticked, r⟩, tick, rest⟩ := bind_eq_ok.mp run
    have kept := keep (tick_ticked tick) h
    split at rest
    all_goals first
      | exact ih kept rest
      | (cases rest; exact kept)

variable {δ : Type} [Delay δ]

/-- A property every tick and every release of the coils keeps holds after a move is run to
its end. -/
theorem runFrom_keeps (release : ∀ {c : Controller σ}, P c → P c.disable.1) {fuel now : Nat}
    {d d' : δ} {r : Except MotorError Unit} (h : P c) (run : runFrom fuel c now d = .ok (c', d', r)) :
    P c' := by
  induction fuel generalizing c now d with
  | zero =>
    cases run
    exact h
  | succ fuel ih =>
    simp only [Controller.runFrom] at run
    obtain ⟨⟨ticked, r⟩, tick, rest⟩ := bind_eq_ok.mp run
    have kept := keep (tick_ticked tick) h
    -- after the tick the run fails, releases the coils, or sleeps and goes on
    split at rest
    · cases rest
      exact kept
    · cases rest
      exact release kept
    · cases rest
      exact release kept
    · obtain ⟨wait, -, later⟩ := bind_eq_ok.mp rest
      split at later
      · exact ih kept later
      · obtain ⟨_, -, later⟩ := bind_eq_ok.mp later
        exact ih kept later
    · split at rest
      · exact ih kept rest
      · obtain ⟨_, -, later⟩ := bind_eq_ok.mp rest
        exact ih kept later

end Runs

/-- A run of ticks keeps the controller to its goal. -/
theorem Steady.tickSpanFrom {untilPosition : Option Int} {fuel now : Nat} {acc s : TickSpan}
    (h : Steady c span) (run : tickSpanFrom untilPosition fuel c now acc = .ok (c', s)) :
    Steady c' span :=
  tickSpanFrom_keeps (fun ticked steady => Steady.ticked steady ticked) h run

variable {δ : Type} [Delay δ]

/-- Running a move to its end keeps the controller to its goal. -/
theorem Steady.runFrom {fuel now : Nat} {d d' : δ} {r : Except MotorError Unit}
    (h : Steady c span) (run : runFrom fuel c now d = .ok (c', d', r)) : Steady c' span :=
  runFrom_keeps (fun ticked steady => Steady.ticked steady ticked) Steady.disable h run

/-! ## Sessions keep to the goal -/

/-- Every operation on positions in range keeps the controller to its goal, for the span of the
move under way after it. -/
theorem Steady.apply {op : ControllerOp} {r : ControllerReply} (h : Steady c span)
    (inRange : op.InRange) (applied : c.apply op = .ok (c', r)) :
    Steady c' (op.spanAfter c.motion.position span) := by
  cases op with
  | setSpeed | setAcceleration | setDeceleration | setStepMode =>
    cases applied
    exact h.congr rfl rfl rfl rfl rfl rfl
  | setPosition position =>
    cases applied
    exact Steady.setPosition inRange
  | abort =>
    cases applied
    exact h.abort
  | disable =>
    cases applied
    exact h.disable
  | requestStop =>
    obtain ⟨stopped, stop, rest⟩ := bind_eq_ok.mp applied
    cases rest
    obtain ⟨stopped', stop', steady⟩ := h.requestStop
    rw [stop] at stop'
    cases stop'
    exact steady
  | moveTo target =>
    obtain ⟨moved, planned, rest⟩ := bind_eq_ok.mp applied
    cases rest
    exact h.moveTo inRange planned
  | moveBy delta =>
    obtain ⟨moved, planned, rest⟩ := bind_eq_ok.mp applied
    cases rest
    exact h.moveBy planned
  | tick now =>
    obtain ⟨⟨ticked, _⟩, tick, rest⟩ := bind_eq_ok.mp applied
    cases rest
    exact h.ticked (tick_ticked tick)
  | ticks start stop untilPosition =>
    obtain ⟨⟨ticked, _⟩, run, rest⟩ := bind_eq_ok.mp applied
    cases rest
    obtain ⟨⟨ticked', _⟩, span, rest⟩ := bind_eq_ok.mp run
    cases rest
    exact h.tickSpanFrom span
  | timeToNextStep now =>
    obtain ⟨wait, -, rest⟩ := bind_eq_ok.mp applied
    cases rest
    exact h
  | runToCompletion =>
    obtain ⟨⟨ran, _⟩, run, rest⟩ := bind_eq_ok.mp applied
    cases rest
    exact h.runFrom run
  | moveToBlocking target =>
    obtain ⟨⟨ran, _⟩, blocking, rest⟩ := bind_eq_ok.mp applied
    cases rest
    obtain ⟨moved, planned, run⟩ := bind_eq_ok.mp blocking
    exact (h.moveTo inRange planned).runFrom run

/-- Controllers a session can reach from construction, each with the distance of the move that
set up its move under way. -/
inductive Reachable : Controller σ → Nat → Prop
  /-- A newly built controller. -/
  | built (coils : σ) (table : CoilTable) (defaults : MotorDefaults) (timing : Timing) :
      Reachable (withParts coils table defaults timing) 0
  /-- One more operation on positions in range, which did not trap. -/
  | step {c c' : Controller σ} {span : Nat} {op : ControllerOp} {r : ControllerReply} :
      Reachable c span → op.InRange → c.apply op = .ok (c', r) →
        Reachable c' (op.spanAfter c.motion.position span)

/-- Every controller a session reaches keeps to its goal. -/
theorem Reachable.steady (h : Reachable c span) : Steady c span := by
  induction h with
  | built coils table defaults timing => exact steady_withParts coils table defaults timing
  | step _ inRange applied ih => exact ih.apply inRange applied

/-- What keeping to the goal promises of a controller, for a move of at most `span` steps: at
rest it stands at its goal with a zero step period and zero speed; the distance to go never
overflows, and under way the goal lies ahead in the move's direction, that distance within
`span`; a stop request never overflows; and a tick never overflows and moves the position by at
most one step, of a move under way, in its direction and never past its goal. -/
def KeepsToGoal (c : Controller σ) (span : Nat) : Prop :=
  (c.state ≠ .ramping →
    c.motion.position = c.motion.goal ∧ c.motion.currentStepPeriod = 0 ∧ c.currentSpeed = 0) ∧
  (∃ toGo, c.motion.distanceToGo = .ok toGo ∧
    (c.state = .ramping →
      0 ≤ c.motion.direction.sign * (c.motion.goal - c.motion.position) ∧ toGo ≤ span)) ∧
  (∃ c', c.requestStop = .ok c') ∧
  ∀ now, ∃ c' r, c.tick now = .ok (c', r) ∧
    (c'.motion.position = c.motion.position ∨
      c.state = .ramping ∧ c'.motion.position = c.motion.position + c.motion.direction.sign ∧
        c'.motion.goal = c.motion.goal ∧ c'.motion.direction = c.motion.direction ∧
        0 ≤ c.motion.direction.sign * (c.motion.goal - c'.motion.position))

/-- Every controller a session reaches from construction keeps to its goal, whatever the
operations, their times and the coil writes that fail. -/
theorem Reachable.keeps_to_goal (h : Reachable c span) : KeepsToGoal c span := by
  have steady := h.steady
  refine ⟨fun notRamping => ?_,
    ⟨_, Motion.distanceToGo_of_int64 steady.travel_int64,
      fun ramping => ⟨steady.ahead ramping, steady.within ramping⟩⟩, ?_, fun now => ?_⟩
  · obtain ⟨atGoal, period⟩ := steady.rest notRamping
    exact ⟨atGoal, period, currentSpeed_of_currentStepPeriod period⟩
  · obtain ⟨c', stop, -⟩ := steady.requestStop
    exact ⟨c', stop⟩
  · obtain ⟨c', r, tick, -⟩ := steady.tick now
    refine ⟨c', r, tick, ?_⟩
    rcases (tick_ticked tick).position_eq_or_step with
      same | ⟨ramping, away, stepped, goal, direction⟩
    · exact .inl same
    -- the step is one of the move's, so the goal it heads for is still ahead after it
    have step := Direction.step_ahead (steady.ahead ramping)
      (by omega : c.motion.goal - c.motion.position ≠ 0)
    refine .inr ⟨ramping, stepped, goal, direction, ?_⟩
    rw [stepped, ← Int.sub_sub]
    exact step.1

/-- The standard controller at the start of a move of a hundred steps. -/
def hundredStepMove : Controller Recorder :=
  match (withParts Recorder.empty .standard .standard .standard).moveTo 100 with
  | .ok c => c
  | .error _ => withParts Recorder.empty .standard .standard .standard

set_option maxRecDepth 20000 in
theorem reachable_hundredStepMove : hundredStepMove.Reachable 100 :=
  @Reachable.step _ _ (withParts Recorder.empty .standard .standard .standard) hundredStepMove 0
    (.moveTo 100) .none (.built _ _ _ _) (show Word.IsInt64 100 by decide) rfl

set_option maxRecDepth 20000 in
/-- In the middle of the standard move of a hundred steps, one step taken by the ticks at 0 and
60 ms, the controller keeps to its goal. -/
theorem keeps_to_goal_mid_move :
    ∃ c : Controller Recorder, Reachable c 100 ∧ c.state = .ramping ∧ c.motion.position = 1 ∧
      KeepsToGoal c 100 := by
  have first := @Reachable.step _ _ _ _ _ (.tick 0) _ reachable_hundredStepMove trivial rfl
  have second := @Reachable.step _ _ _ _ _ (.tick 60) _ first trivial rfl
  exact ⟨_, second, by decide +kernel, by decide +kernel, second.keeps_to_goal⟩

end Controller

end StepperDrive
