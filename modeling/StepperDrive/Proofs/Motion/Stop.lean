import StepperDrive.Proofs.Motion.Steady
import StepperDrive.Proofs.Binary.Order
/-!
# Stopping a move

`requestStop` pulls the goal of a move under way in to its stop distance `m`, the least of the
stop margin, the braking distance and the distance to go, and makes `m` the stop margin
(`Controller.shortened`). On a controller that keeps to its goal this never extends or
reverses the move: the new goal lies between the position and the old one. A second request
finds the stop distance already `m` and changes nothing.

From then on the distance to go stays within the stop margin (`Controller.Braking`), so every
step a later tick takes is a braking step: the one-way switch has set the ramp rate to the
negated deceleration. That rate is negative, since a positive stop distance needs a positive
braking distance, and that needs a positive deceleration. Each step brings the motor one step
closer to the new goal, so a run of ticks (`Controller.Ticks`) takes at most `m` steps, and one
that completes does so at that goal. `Reachable.stops_as_asked` says all of this for every
controller a session can reach.
-/

namespace StepperDrive

set_option autoImplicit false

namespace Motion

variable (m : Motion) (now : Nat)

/-- A positive braking distance needs a positive deceleration. -/
theorem lt_decelRate_of_brakingDistance_pos (h : 0 < m.brakingDistance) :
    Binary.lt 0 m.decelRate = true := by
  cases positive : Binary.lt 0 m.decelRate
  · simp [brakingDistance, positive] at h
  · rfl

/-- Within the stop margin the switch to braking is made. -/
theorem braked_accelRate_of_le (h : m.toGo ≤ m.stopMargin) :
    m.braked.accelRate = -m.decelRate := by
  rw [braked_eq]
  simp [h]

variable (p : Int)

@[simp] theorem steppedTo_accelRate : (m.steppedTo p now).accelRate = m.accelRate := rfl
@[simp] theorem steppedTo_decelRate : (m.steppedTo p now).decelRate = m.decelRate := rfl

end Motion

namespace Controller

variable {σ : Type} {c c' : Controller σ} {span : Nat}

/-- A move cut short to its stop distance: the stop distance becomes the stop margin, and the
goal lies that many steps ahead of the position. -/
def shortened (c : Controller σ) : Controller σ :=
  { c with
    motion := { c.motion with
      stopMargin := c.motion.stopDistance
      goal := c.motion.position + c.motion.direction.sign * c.motion.stopDistance } }

@[simp] theorem shortened_state : c.shortened.state = c.state := rfl
@[simp] theorem shortened_position : c.shortened.motion.position = c.motion.position := rfl
@[simp] theorem shortened_direction : c.shortened.motion.direction = c.motion.direction := rfl
@[simp] theorem shortened_stopMargin : c.shortened.motion.stopMargin = c.motion.stopDistance := rfl
@[simp] theorem shortened_decelRate : c.shortened.motion.decelRate = c.motion.decelRate := rfl

theorem Steady.stopDistance_lt (h : Steady c span) : c.motion.stopDistance < 2 ^ 63 :=
  Nat.lt_of_le_of_lt c.motion.stopDistance_le_stopMargin h.margin_lt

/-- A stop request on a move under way that keeps to its goal cuts it short. -/
theorem Steady.requestStop_eq (h : Steady c span) (ramping : c.state = .ramping) :
    c.requestStop = .ok c.shortened := by
  obtain ⟨c', stop, -⟩ := h.requestStop
  obtain ⟨-, -, -, rfl⟩ := (requestStop_eq_ok ramping).mp stop
  rw [stop, Word.wrapInt64_of_lt h.stopDistance_lt]
  rfl

/-- The shortened goal lies the stop distance ahead of the position, and no further than the old
goal. -/
theorem Steady.shortened_between (h : Steady c span) (ramping : c.state = .ramping) :
    c.shortened.motion.toGo = c.motion.stopDistance ∧
    0 ≤ c.motion.direction.sign * (c.shortened.motion.goal - c.motion.position) ∧
    0 ≤ c.motion.direction.sign * (c.motion.goal - c.shortened.motion.goal) := by
  have toGo := Direction.sign_mul_eq_natAbs (h.ahead ramping)
  have shorter := c.motion.stopDistance_le_toGo
  simp only [Motion.toGo] at shorter
  simp only [shortened, Motion.toGo]
  cases hd : c.motion.direction <;> simp only [hd, Direction.sign] at toGo ⊢ <;> omega

/-- A shortened move keeps its stop distance: the braking distance reads only the last period
and the deceleration, and the distance to go is the stop distance already. -/
theorem Steady.shortened_stopDistance (h : Steady c span) (ramping : c.state = .ramping) :
    c.shortened.motion.stopDistance = c.motion.stopDistance := by
  have braking : c.shortened.motion.brakingDistance = c.motion.brakingDistance := rfl
  have toGo := (h.shortened_between ramping).1
  have least := c.motion.stopDistance_le_brakingDistance
  show min (min c.motion.stopDistance c.shortened.motion.brakingDistance)
    c.shortened.motion.toGo = c.motion.stopDistance
  rw [braking, toGo]
  omega

/-- A move already cut short to its stop margin is its own shortening. -/
theorem shortened_eq_self (margin : c.motion.stopDistance = c.motion.stopMargin)
    (goal : c.motion.goal = c.motion.position + c.motion.direction.sign * c.motion.stopMargin) :
    c.shortened = c := by
  unfold shortened
  rw [margin, ← goal]

/-- Stopping is idempotent: a second request leaves a shortened move as it is. -/
theorem Steady.requestStop_shortened (h : Steady c span) (ramping : c.state = .ramping) :
    c.shortened.requestStop = .ok c.shortened := by
  obtain ⟨c', stop, steady⟩ := h.requestStop
  rw [h.requestStop_eq ramping] at stop
  cases stop
  rw [steady.requestStop_eq ramping, shortened_eq_self (h.shortened_stopDistance ramping) rfl]

/-- The motor is braking: the goal is within the stop margin, and a positive stop margin comes
with a positive deceleration. -/
structure Braking (c : Controller σ) : Prop where
  within : c.motion.toGo ≤ c.motion.stopMargin
  decelerates : 0 < c.motion.stopMargin → Binary.lt 0 c.motion.decelRate = true

/-- A move cut short is braking. -/
theorem Steady.braking_shortened (h : Steady c span) (ramping : c.state = .ramping) :
    Braking c.shortened where
  within := by rw [(h.shortened_between ramping).1, shortened_stopMargin]
  decelerates := by
    intro positive
    have least := c.motion.stopDistance_le_brakingDistance
    exact c.motion.lt_decelRate_of_brakingDistance_pos (by simp at positive; omega)

/-- The coil steps a tick wrote: one for a step taken, none otherwise. -/
def written : Except MotorError Tick → Nat
  | .ok (.stepped _) | .ok .arrived => 1
  | _ => 0

variable [CoilOutput σ]

/-- Ticks at the times `times` take `c` to `c'`, writing `steps` coil steps. -/
inductive Ticks : Controller σ → List Nat → Nat → Controller σ → Prop
  | nil (c : Controller σ) : Ticks c [] 0 c
  | tick {c c₁ c' : Controller σ} {now : Nat} {r : Except MotorError Tick} {times : List Nat}
      {steps : Nat} (ticked : c.tick now = .ok (c₁, r)) (rest : Ticks c₁ times steps c') :
      Ticks c (now :: times) (written r + steps) c'

variable {now : Nat} {r : Except MotorError Tick}

/-- A tick keeps the goal, the stop margin, the deceleration and the direction. -/
theorem Ticked.keeps (h : Ticked c now c' r) :
    c'.motion.goal = c.motion.goal ∧ c'.motion.stopMargin = c.motion.stopMargin ∧
      c'.motion.decelRate = c.motion.decelRate ∧ c'.motion.direction = c.motion.direction := by
  cases h <;> simp

/-- On a controller that keeps to its goal, a tick brings the motor one step closer to the goal
for each step it writes. -/
theorem Steady.written_add_toGo (h : Steady c span) (ticked : Ticked c now c' r) :
    written r + c'.motion.toGo ≤ c.motion.toGo := by
  cases ticked with
  | idle => simp [written]
  | atGoal | pending | fault => simp [written, Motion.toGo]
  | stepped ramping away =>
    -- the step is one of the move's, toward a goal still ahead
    have step := Direction.step_ahead (h.ahead ramping)
      (by omega : c.motion.goal - c.motion.position ≠ 0)
    simp only [written, Motion.toGo, Motion.steppedTo_goal, Motion.braked_goal,
      Motion.seenAt_goal, Motion.steppedTo_position, ← Int.sub_sub]
    omega
  | arrived ramping away =>
    simp only [written, Motion.toGo]
    simp only [Motion.steppedTo_goal, Motion.braked_goal, Motion.seenAt_goal,
      Motion.steppedTo_position, Int.sub_self, Int.natAbs_zero]
    omega

/-- A tick keeps a braking motor braking. -/
theorem Braking.ticked (hb : Braking c) (h : Steady c span) (ticked : Ticked c now c' r) :
    Braking c' := by
  obtain ⟨_, margin, decel, _⟩ := ticked.keeps
  have closer := h.written_add_toGo ticked
  refine ⟨?_, ?_⟩
  · rw [margin]
    have := hb.within
    omega
  · rw [margin, decel]
    exact hb.decelerates

/-- Every step a braking motor takes is a braking step: it leaves the ramp rate negative. -/
theorem Braking.brakes (hb : Braking c) (ticked : Ticked c now c' r) (wrote : written r = 1) :
    Binary.lt c'.motion.accelRate 0 = true := by
  -- a step is taken only away from the goal, so with a positive stop margin
  have brakingStep : ∀ (away : c.motion.position ≠ c.motion.goal),
      Binary.lt ((c.motion.seenAt now).braked.accelRate) 0 = true := by
    intro away
    have toGo : 0 < c.motion.toGo := by
      simp only [Motion.toGo]
      omega
    have within := hb.within
    rw [Motion.braked_accelRate_of_le _ (by simpa using within), Motion.seenAt_decelRate]
    exact Binary.neg_lt_zero (hb.decelerates (by omega))
  cases ticked with
  | idle | atGoal | pending | fault => simp [written] at wrote
  | stepped _ away => simpa using brakingStep away
  | arrived _ away => simpa using brakingStep away

/-- A run of ticks from a braking motor that keeps to its goal keeps both, keeps the goal, and
takes no more steps than the distance it had to go. -/
theorem Ticks.braking {times : List Nat} {steps : Nat} (run : Ticks c times steps c') :
    Steady c span → Braking c →
      steps + c'.motion.toGo ≤ c.motion.toGo ∧ c'.motion.goal = c.motion.goal ∧
        Steady c' span ∧ Braking c' := by
  induction run with
  | nil c => exact fun h hb => ⟨by simp, rfl, h, hb⟩
  | tick ticked _ ih =>
    intro h hb
    have step := tick_ticked ticked
    obtain ⟨closer, goal, steady, braking⟩ := ih (h.ticked step) (hb.ticked h step)
    have one := h.written_add_toGo step
    exact ⟨by omega, goal.trans step.keeps.1, steady, braking⟩

/-- What a stop request promises of a controller. With no move under way it does nothing, and
any request is idempotent. On a move under way it cuts the move short to its stop distance
`m`, the least of the stop margin, the braking distance and the distance to go: `m` becomes
the stop margin and the goal lies `m` steps ahead, between the position and the old goal.
After it every run of ticks writes at most `m` steps, each a braking step with a negative ramp
rate, and a run that completes stands at the new goal. -/
def StopsAsAsked (c : Controller σ) : Prop :=
  (c.state ≠ .ramping → c.requestStop = .ok c) ∧
  (∀ c', c.requestStop = .ok c' → c'.requestStop = .ok c') ∧
  (c.state = .ramping →
    c.requestStop = .ok c.shortened ∧
    0 ≤ c.motion.direction.sign * (c.shortened.motion.goal - c.motion.position) ∧
    0 ≤ c.motion.direction.sign * (c.motion.goal - c.shortened.motion.goal) ∧
    ∀ times steps c'', Ticks c.shortened times steps c'' →
      steps ≤ c.motion.stopDistance ∧
      (c''.state = .complete → c''.motion.position = c.shortened.motion.goal) ∧
      ∀ now c₂ r, c''.tick now = .ok (c₂, r) → written r = 1 →
        Binary.lt c₂.motion.accelRate 0 = true)

/-- Every controller a session reaches stops as it is asked to. -/
theorem Reachable.stops_as_asked (h : Reachable c span) : c.StopsAsAsked := by
  have steady := h.steady
  refine ⟨requestStop_of_not_ramping, fun c' stop => ?_, fun ramping => ?_⟩
  · by_cases ramping : c.state = .ramping
    · rw [steady.requestStop_eq ramping] at stop
      cases stop
      exact steady.requestStop_shortened ramping
    · rw [requestStop_of_not_ramping ramping] at stop
      cases stop
      exact requestStop_of_not_ramping ramping
  obtain ⟨toGo, ahead, behind⟩ := steady.shortened_between ramping
  obtain ⟨c', stop, steadyShort⟩ := steady.requestStop
  rw [steady.requestStop_eq ramping] at stop
  cases stop
  refine ⟨steady.requestStop_eq ramping, ahead, behind, fun times steps c'' run => ?_⟩
  obtain ⟨closer, goal, steadyAfter, braking⟩ :=
    run.braking steadyShort (steady.braking_shortened ramping)
  refine ⟨by omega, fun complete => ?_, fun now c₂ r ticked wrote =>
    braking.brakes (tick_ticked ticked) wrote⟩
  -- a completed move stands at its goal, which the ticks kept
  rw [← goal]
  exact (steadyAfter.rest (by rw [complete]; simp)).1

end Controller

end StepperDrive
