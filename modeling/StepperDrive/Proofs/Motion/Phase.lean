import StepperDrive.Proofs.Motion.Spec
/-!
# The coil phase and the position

A due step advances the sequencer one phase in the move's direction before it writes the coils,
and a write that fails returns before the position moves. So every step moves the phase and the
position together, and every failed step write moves the phase alone: the phase runs ahead of
the position by one step for each failure, and a retry after a failure lands two phases on.

`Controller.PhaseRun` is a run of a controller in one step mode: ticks at any times, any of
whose coil writes may fail, between operations that neither tick, redeclare the position nor
change the step mode. Main statement: over every such run the phase moves, modulo the cycle, by
the net change of position plus the signed number of failed step writes
(`PhaseRun.phase_modEq`). A failed tick itself keeps the position, goal, state, periods and
stop margin, and moves only the phase, the braking switch and the move's clock
(`tick_fault_frame`).
-/

namespace StepperDrive

set_option autoImplicit false

/-- A step moves the phase by the direction's sign around the mode's cycle. -/
theorem nextPhase_modEq (mode : StepMode) (phase : Nat) (d : Direction) :
    (nextPhase mode phase d : Int) ≡ phase + d.sign [ZMOD mode.phaseCount] := by
  have nonneg : 0 ≤ ((phase : Int) % mode.phaseCount + d.sign) % mode.phaseCount :=
    Int.emod_nonneg _ (by have := mode.phaseCount_pos; omega)
  unfold nextPhase
  rw [Int.toNat_of_nonneg nonneg]
  -- reducing the phase into the cycle first does not change its class
  exact (Int.mod_modEq _ _).trans ((Int.mod_modEq _ _).add_right _)

namespace Sequencer

variable (s : Sequencer) (mode : StepMode) (d : Direction)

@[simp] theorem advance_phase : (s.advance mode d).1.phase = nextPhase mode s.phase d := rfl

@[simp] theorem advance_table : (s.advance mode d).1.table = s.table := rfl

end Sequencer

namespace Motion

variable (m : Motion) (now : Nat)

/-- Starting the clock does not change whether the braking switch is made. -/
theorem seenAt_braked_accelRate : (m.seenAt now).braked.accelRate = m.braked.accelRate := by
  simp only [braked_eq, seenAt_toGo, seenAt_stopMargin, seenAt_decelRate, seenAt_accelRate]

end Motion

/-- Operations that neither tick, redeclare the position nor change the step mode. -/
def ControllerOp.KeepsPhase : ControllerOp → Prop
  | .setSpeed _ | .setAcceleration _ | .setDeceleration _ | .abort | .requestStop | .moveTo _
  | .moveBy _ | .disable | .timeToNextStep _ => True
  | _ => False

namespace Controller

variable {σ : Type}

/-- The signed count of failed step writes in what a tick of `c` reports: the direction of the
move for a failed write, nothing otherwise. -/
def faultSign (c : Controller σ) : Except MotorError Tick → Int
  | .error _ => c.motion.direction.sign
  | .ok _ => 0

variable {c c' : Controller σ}

/-- Planning leaves the sequencer, the step mode and the position. -/
theorem moveTo_keeps_phase {target : Int} (h : c.moveTo target = .ok c') :
    c'.sequencer = c.sequencer ∧ c'.stepMode = c.stepMode ∧
      c'.motion.position = c.motion.position := by
  obtain ⟨profile, -, -, rfl⟩ := moveTo_eq_ok.mp h
  split <;> exact ⟨rfl, rfl, rfl⟩

/-- A stop request leaves the sequencer, the step mode and the position. -/
theorem requestStop_keeps_phase (h : c.requestStop = .ok c') :
    c'.sequencer = c.sequencer ∧ c'.stepMode = c.stepMode ∧
      c'.motion.position = c.motion.position := by
  by_cases ramping : c.state = .ramping
  · obtain ⟨-, -, -, rfl⟩ := (requestStop_eq_ok ramping).mp h
    exact ⟨rfl, rfl, rfl⟩
  · rw [requestStop_of_not_ramping ramping] at h
    cases h
    exact ⟨rfl, rfl, rfl⟩

variable [CoilOutput σ]

/-- An operation that keeps the phase leaves the sequencer, the step mode and the position. -/
theorem apply_keeps_phase {op : ControllerOp} {reply : ControllerReply} (keeps : op.KeepsPhase)
    (h : c.apply op = .ok (c', reply)) :
    c'.sequencer = c.sequencer ∧ c'.stepMode = c.stepMode ∧
      c'.motion.position = c.motion.position := by
  cases op
  case setSpeed | setAcceleration | setDeceleration | abort | disable =>
    cases h
    exact ⟨rfl, rfl, rfl⟩
  case timeToNextStep now =>
    obtain ⟨wait, -, rest⟩ := bind_eq_ok.mp h
    cases rest
    exact ⟨rfl, rfl, rfl⟩
  case requestStop =>
    obtain ⟨stopped, stop, rest⟩ := bind_eq_ok.mp h
    cases rest
    exact requestStop_keeps_phase stop
  case moveTo target =>
    obtain ⟨moved, planned, rest⟩ := bind_eq_ok.mp h
    cases rest
    exact moveTo_keeps_phase planned
  case moveBy delta =>
    obtain ⟨moved, planned, rest⟩ := bind_eq_ok.mp h
    cases rest
    exact moveTo_keeps_phase (moveBy_eq_ok.mp planned).2
  all_goals exact keeps.elim

variable {now : Nat} {r : Except MotorError Tick}

/-- A tick whose coil write fails keeps the position, goal, direction, state, periods and stop
margin; it moves the sequencer one step on and may make the braking switch. -/
theorem tick_fault_frame {e : MotorError} (h : c.tick now = .ok (c', .error e)) :
    c'.motion.position = c.motion.position ∧ c'.motion.goal = c.motion.goal ∧
      c'.motion.direction = c.motion.direction ∧ c'.state = c.state ∧
      c'.motion.currentStepPeriod = c.motion.currentStepPeriod ∧
      c'.motion.nextStepPeriod = c.motion.nextStepPeriod ∧
      c'.motion.cruiseStepPeriod = c.motion.cruiseStepPeriod ∧
      c'.motion.stopMargin = c.motion.stopMargin ∧
      c'.sequencer = (c.sequencer.advance c.stepMode c.motion.direction).1 ∧
      c'.motion.accelRate = c.motion.braked.accelRate := by
  generalize result : (Except.error e : Except MotorError Tick) = failed at h
  cases tick_ticked h with
  | fault => simp [Motion.seenAt_braked_accelRate]
  | idle | atGoal | pending | stepped | arrived => cases result

/-- One tick moves the phase by the step it takes and by the step whose write failed, and keeps
the step mode. -/
theorem Ticked.phase_step_modEq (h : Ticked c now c' r) :
    c'.stepMode = c.stepMode ∧
      (c'.sequencer.phase : Int) ≡
        c.sequencer.phase + (c'.motion.position - c.motion.position) + c.faultSign r
        [ZMOD c.stepMode.phaseCount] := by
  cases h with
  | idle | atGoal | pending =>
    refine ⟨rfl, ?_⟩
    simp only [Motion.seenAt_position, Int.sub_self, Int.add_zero, faultSign]
    exact Int.ModEq.refl _
  | fault =>
    refine ⟨rfl, ?_⟩
    simp only [Sequencer.advance_phase, Motion.braked_position, Motion.seenAt_position,
      Int.sub_self, Int.add_zero, faultSign]
    exact nextPhase_modEq _ _ _
  | stepped =>
    refine ⟨rfl, ?_⟩
    simp only [Sequencer.advance_phase, Motion.steppedTo_position, add_sub_cancel_left,
      faultSign, Int.add_zero]
    exact nextPhase_modEq _ _ _
  | arrived _ _ _ _ reach =>
    refine ⟨rfl, ?_⟩
    simp only [Sequencer.advance_phase, Motion.steppedTo_position, ← reach,
      add_sub_cancel_left, faultSign, Int.add_zero]
    exact nextPhase_modEq _ _ _

/-- A run of a controller in one step mode: ticks at any times, whose coil writes may fail,
between operations that keep the phase. The index counts the failed step writes, each signed by
the direction of its move. -/
inductive PhaseRun : Controller σ → Controller σ → Int → Prop
  /-- Nothing happens. -/
  | done (c : Controller σ) : PhaseRun c c 0
  /-- A tick that returns, then the rest of the run. -/
  | tick {c c₁ c₂ : Controller σ} {now : Nat} {r : Except MotorError Tick} {k : Int} :
      c.tick now = .ok (c₁, r) → PhaseRun c₁ c₂ k → PhaseRun c c₂ (c.faultSign r + k)
  /-- An operation that keeps the phase, then the rest of the run. -/
  | keep {c c₁ c₂ : Controller σ} {op : ControllerOp} {reply : ControllerReply} {k : Int} :
      op.KeepsPhase → c.apply op = .ok (c₁, reply) → PhaseRun c₁ c₂ k →
        PhaseRun c c₂ k

variable {k : Int}

/-- A run keeps the step mode. -/
theorem PhaseRun.stepMode_eq (h : PhaseRun c c' k) : c'.stepMode = c.stepMode := by
  induction h with
  | done => rfl
  | tick tick _ ih => exact ih.trans (tick_ticked tick).phase_step_modEq.1
  | keep keeps applied _ ih => exact ih.trans (apply_keeps_phase keeps applied).2.1

/-- Over every run in one step mode, the phase moves, modulo the mode's cycle, by the net change
of position plus the signed number of failed step writes. -/
theorem PhaseRun.phase_modEq (h : PhaseRun c c' k) :
    (c'.sequencer.phase : Int) ≡ c.sequencer.phase + (c'.motion.position - c.motion.position) + k
      [ZMOD c.stepMode.phaseCount] := by
  induction h with
  | done => simp [Int.ModEq.refl]
  | @tick c c₁ c₂ now r k tick rest ih =>
    obtain ⟨mode, step⟩ := (tick_ticked tick).phase_step_modEq
    rw [mode] at ih
    calc (c₂.sequencer.phase : Int)
        ≡ c₁.sequencer.phase + (c₂.motion.position - c₁.motion.position) + k
          [ZMOD c.stepMode.phaseCount] := ih
      _ ≡ c.sequencer.phase + (c₁.motion.position - c.motion.position) + c.faultSign r +
            (c₂.motion.position - c₁.motion.position) + k [ZMOD c.stepMode.phaseCount] :=
          (step.add_right _).add_right _
      _ = c.sequencer.phase + (c₂.motion.position - c.motion.position) + (c.faultSign r + k) := by
          ring
  | keep keeps applied rest ih =>
    obtain ⟨sequencer, mode, position⟩ := apply_keeps_phase keeps applied
    rw [mode, sequencer, position] at ih
    exact ih

/-- A move of three steps under way on pins that refuse every write, its first step due. -/
def refusingMove : Controller (FourPinCoils BudgetPins) :=
  { new (FourPinCoils.new (BudgetPins.new (some 0))) with
    motion := { Motion.atRest 0 with goal := 3 }
    state := .ramping }

/-- The same move after its first step was refused: the phase is one step on. -/
def refusedMove : Controller (FourPinCoils BudgetPins) :=
  { refusingMove with sequencer := ⟨.standard, 1⟩ }

/-- The first tick of the move fails the write and leaves the phase one step ahead of the
position. -/
theorem refusingMove_phase_runs_ahead :
    PhaseRun refusingMove refusedMove 1 ∧
      (refusedMove.sequencer.phase : Int) ≡
        refusingMove.sequencer.phase +
          (refusedMove.motion.position - refusingMove.motion.position) + 1
        [ZMOD refusingMove.stepMode.phaseCount] :=
  have refused : refusingMove.tick 0 = .ok (refusedMove, .error .pin) := rfl
  have run : PhaseRun refusingMove refusedMove 1 := .tick refused (.done _)
  ⟨run, PhaseRun.phase_modEq run⟩

set_option maxRecDepth 20000 in
/-- On coils whose pins refuse every write, the first due step of a move to 10 fails: the tick
reports the failure with the position still at 0 and the phase moved on to 1. -/
theorem refused_step_moves_phase :
    ((new (FourPinCoils.new (BudgetPins.new (some 0)))).applyAll
        [.moveTo 10, .tick 0, .tick 100]).map
        (fun steps => steps.map fun (c, r) =>
          (c.sequencer.phase, c.motion.position, r matches .tick (.error _))) =
      .ok [(0, 0, false), (0, 0, false), (1, 0, true)] := by
  rfl

end Controller

end StepperDrive
