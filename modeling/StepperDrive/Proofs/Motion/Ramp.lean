import StepperDrive.Proofs.Motion.Plan
import StepperDrive.Proofs.Motion.Stop
/-!
# The ramp of a move

Each step sets the next period by the recurrence `p' = p · (1 - (a · p) · p)` in single
precision, floored at the cruise period. From a positive finite period a `+`-signed or zero rate
gives a factor at most one, so a period no longer (`rampedPeriod_le`), and a `-`-signed rate a
factor at least one, so a period no shorter (`le_rampedPeriod`). From `+∞` a positive rate falls
to the cruise period, a negative one stays at `+∞`, and a zero rate gives NaN, as `0 · ∞`.

`Motion.Ramp` is what a move planned from finite positive kinematics keeps through every tick and
stop request (`Ticked.ramp`, `requestStop_ramp`, `Continues.ramp`). Its last field says where NaN
comes from: a zero rate at an infinite cruise period, that is, an acceleration whose rate per
ms² underflows to `+0` with a cruise speed whose period overflows.

`Controller.RampLaws` gathers what follows along every run of ticks and stop requests after
`moveTo` (`moveTo_rampLaws`): the next period is at least the cruise period but in that NaN
case, a step at a positive rate does not lengthen it and one at a negative rate does not
shorten it, and the switch to braking is never undone. `creeping_next_not_above_cruise` runs
into the NaN case at a speed of `1e-37` steps/s and rates of `1e-40` steps/s².
-/

namespace StepperDrive

set_option autoImplicit false

namespace Motion

open Binary

variable {m : Motion}

/-- Once braking, the switch leaves the rate as it is. -/
theorem braked_accelRate_of_braking (braking : m.accelRate = -m.decelRate) :
    m.braked.accelRate = m.accelRate := by
  rw [braked_eq]
  dsimp only
  split_ifs
  · exact braking.symm
  · rfl

/-! ## One step of the ramp -/

theorem rampedPeriod_fits (hc : m.cruiseStepPeriod.Fits) : m.rampedPeriod.Fits := by
  simp only [rampedPeriod]
  split_ifs
  · exact hc
  · exact mul_fits Format.binary32_precision_pos Format.binary32_emax_pos _ _

/-- The floor keeps the ramp at or above the cruise period, unless it has become NaN. -/
theorem rampedPeriod_above (hc : m.cruiseStepPeriod ≠ nan) :
    m.rampedPeriod = nan ∨ le m.cruiseStepPeriod m.rampedPeriod = true := by
  simp only [rampedPeriod]
  generalize m.nextStepPeriod * (1 - m.accelRate * m.nextStepPeriod * m.nextStepPeriod) = r
  split_ifs with below
  · exact .inr (le_refl_of_ne_nan hc)
  · by_cases hr : r = nan
    · exact .inl hr
    · exact .inr (le_of_lt_eq_false hr hc (by simpa using below))

theorem rampedPeriod_of_nan (hp : m.nextStepPeriod = nan) : m.rampedPeriod = nan := by
  simp [rampedPeriod, hp]

/-- From `+∞` a positive rate falls to the cruise period at once: the factor
`1 - (a · ∞) · ∞` is `-∞`. -/
theorem rampedPeriod_of_inf_of_pos (hp : m.nextStepPeriod = inf false)
    (ha : lt 0 m.accelRate = true) (hc : lt 0 m.cruiseStepPeriod = true) :
    m.rampedPeriod = m.cruiseStepPeriod := by
  have scaled : m.accelRate * inf false = (inf false : Binary32) := by
    rcases positive_cases ha with ⟨k, e, hk, rate⟩ | rate
    · simp [rate, hk.ne']
    · simp [rate]
  have below : lt (inf true) m.cruiseStepPeriod = true := by
    rcases positive_cases hc with ⟨n, r, -, cruise⟩ | cruise <;> simp [cruise, lt, compare?]
  simp [rampedPeriod, hp, scaled, one_eq, Binary.sub_eq_add_neg, below]

/-- From `+∞` a negative rate stays at `+∞`: the factor `1 - (a · ∞) · ∞` is `+∞`. -/
theorem rampedPeriod_of_inf_of_neg (hp : m.nextStepPeriod = inf false)
    (ha : lt m.accelRate 0 = true) : m.rampedPeriod = inf false := by
  have scaled : m.accelRate * inf false = (inf true : Binary32) := by
    rcases negative_cases ha with ⟨k, e, hk, rate⟩ | rate
    · simp [rate, hk.ne']
    · simp [rate]
  simp [rampedPeriod, hp, scaled, one_eq, Binary.sub_eq_add_neg, lt_inf_false]

/-- From `+∞` a zero rate gives NaN: zero times infinity. -/
theorem rampedPeriod_of_inf_of_isZero (hp : m.nextStepPeriod = inf false)
    (ha : m.accelRate.isZero = true) : m.rampedPeriod = nan := by
  have scaled : m.accelRate * inf false = (nan : Binary32) := by
    match m.accelRate, ha with
    | .finite s 0 e, _ => simp
  simp [rampedPeriod, hp, scaled, one_eq, Binary.sub_eq_add_neg]

/-- From a positive finite period the ramp is a number. -/
theorem rampedPeriod_ne_nan {k : Nat} {e : Int} (hk : 0 < k)
    (hp : m.nextStepPeriod = finite false k e) (ha : m.accelRate ≠ nan)
    (hc : m.cruiseStepPeriod ≠ nan) : m.rampedPeriod ≠ nan := by
  simp only [rampedPeriod, hp]
  split_ifs
  · exact hc
  · rw [one_eq]
    exact mul_ne_nan_left (finite_sub_ne_nan (mul_ne_nan_right (mul_ne_nan_right ha hk) hk) _ _ _) hk

/-- At a rate that is `+`-signed or zero, a step does not lengthen a positive finite period:
the factor `1 - (a · p) · p` is at most one. -/
theorem rampedPeriod_le {k : Nat} {e : Int} (hk : 0 < k)
    (hp : m.nextStepPeriod = finite false k e) (fits : (finite false k e : Binary32).Fits)
    (ha : m.accelRate.nonneg = true ∨ m.accelRate.isZero = true)
    (above : le m.cruiseStepPeriod m.nextStepPeriod = true) :
    le m.rampedPeriod m.nextStepPeriod = true := by
  have term : (m.accelRate * finite false k e * finite false k e).nonneg = true ∨
      (m.accelRate * finite false k e * finite false k e).isZero = true := by
    rcases ha with pos | zero
    · exact .inl (mul_nonneg_of_nonneg (mul_nonneg_of_nonneg pos hk) hk)
    · exact .inr (isZero_mul (isZero_mul zero _ _ _) _ _ _)
  have factor : le (finite false 8388608 (-23) - m.accelRate * finite false k e * finite false k e)
      (finite false 8388608 (-23) : Binary32) = true :=
    sub_le_of_nonneg Format.binary32_precision_pos (by decide) term
  have product := mul_le_self Format.binary32_precision_pos fits hk factor (by norm_num)
  simp only [rampedPeriod, hp]
  rw [one_eq]
  split_ifs
  · rwa [hp] at above
  · exact product

/-- At a `-`-signed rate, a step does not shorten a positive finite period: the factor
`1 - (a · p) · p` is at least one, and then the floor cannot bind. -/
theorem le_rampedPeriod {k : Nat} {e : Int} (hk : 0 < k)
    (hp : m.nextStepPeriod = finite false k e) (fits : (finite false k e : Binary32).Fits)
    (ha : m.accelRate.nonpos = true) :
    le m.nextStepPeriod m.rampedPeriod = true := by
  have term : (m.accelRate * finite false k e * finite false k e).nonpos = true :=
    mul_nonpos_of_nonpos (mul_nonpos_of_nonpos ha hk) hk
  have factor : le (finite false 8388608 (-23) : Binary32)
      (finite false 8388608 (-23) - m.accelRate * finite false k e * finite false k e) = true :=
    le_sub_of_nonpos Format.binary32_precision_pos (by decide) (by norm_num) term
  have product := le_mul_self Format.binary32_precision_pos fits hk factor (by norm_num)
  simp only [rampedPeriod, hp]
  rw [one_eq]
  split_ifs with below
  · exact le_trans_of_le product (le_of_lt_true below)
  · exact product

/-! ## What the ramp keeps -/

/-- What the ramp of a move planned from finite positive kinematics keeps: a positive cruise
period, periods the format holds, a `+`-signed deceleration, the planned `+`-signed rate or the
braking one, and a next period not below the cruise period. The next period leaves the finite
numbers in two ways only: `+∞` at an infinite cruise period (which has no stop margin) or while
braking, and NaN at an infinite cruise period with a zero rate. -/
structure Ramp (m : Motion) : Prop where
  cruise_pos : lt 0 m.cruiseStepPeriod = true
  cruise_fits : m.cruiseStepPeriod.Fits
  next_fits : m.nextStepPeriod.Fits
  decel_nonneg : m.decelRate.nonneg = true
  rate : m.accelRate.nonneg = true ∨ m.accelRate = -m.decelRate
  above : m.nextStepPeriod = nan ∨ le m.cruiseStepPeriod m.nextStepPeriod = true
  margin_of_inf : m.cruiseStepPeriod = inf false → m.stopMargin = 0
  of_inf : m.nextStepPeriod = inf false →
    m.cruiseStepPeriod = inf false ∨ lt m.accelRate 0 = true
  of_nan : m.nextStepPeriod = nan → m.accelRate.isZero = true ∧ m.cruiseStepPeriod = inf false

namespace Ramp

/-- A well-formed plan starts a ramp: its first period is the larger of the first-step and
cruise periods, both numbers, and only an infinite cruise period makes it `+∞`. -/
theorem planned {p : Profile} (hp : p.WellFormed) (start target : Int) :
    (Motion.planned start target p).Ramp := by
  have initial : p.initialStepPeriod ≠ nan := ne_nan_of_le_left hp.initial_le
  have cruise : p.cruiseStepPeriod ≠ nan := ne_nan_of_lt_right hp.cruise_pos
  have first : (Motion.planned start target p).nextStepPeriod =
      if lt p.initialStepPeriod p.cruiseStepPeriod then p.cruiseStepPeriod
      else p.initialStepPeriod :=
    max_of_ne_nan initial cruise
  refine ⟨hp.cruise_pos, hp.cruise_fits, ?_, hp.decel_nonneg, .inl hp.accel_nonneg, ?_,
    hp.margin_of_inf, ?_, ?_⟩
  · rw [first]
    split_ifs
    · exact hp.cruise_fits
    · exact hp.initial_fits
  · right
    show le p.cruiseStepPeriod (Motion.planned start target p).nextStepPeriod = true
    rw [first]
    split_ifs with below
    · exact le_refl_of_ne_nan cruise
    · exact le_of_lt_eq_false initial cruise (by simpa using below)
  · intro next
    rw [first] at next
    split_ifs at next
    · exact .inl next
    · -- the first-step period is finite
      have bounded := hp.initial_le
      rw [next] at bounded
      simp [le, compare?, maxFinite32] at bounded
  · intro next
    rw [first] at next
    split_ifs at next
    · exact absurd next cruise
    · exact absurd next initial

variable (h : m.Ramp)
include h

theorem cruise_ne_nan : m.cruiseStepPeriod ≠ nan := ne_nan_of_lt_right h.cruise_pos

theorem accel_ne_nan : m.accelRate ≠ nan := by
  rcases h.rate with signed | braking
  · rintro nan
    simp [nan, nonneg] at signed
  · have decel := h.decel_nonneg
    rw [braking]
    cases hd : m.decelRate <;> simp_all [nonneg]

/-- The next period is NaN, `+∞`, or a positive finite value. -/
theorem next_cases : m.nextStepPeriod = nan ∨ m.nextStepPeriod = inf false ∨
    ∃ k e, 0 < k ∧ m.nextStepPeriod = finite false k e := by
  rcases h.above with nan | above
  · exact .inl nan
  rcases positive_cases (lt_of_lt_of_le_true h.cruise_pos above) with ⟨k, e, hk, next⟩ | next
  · exact .inr (.inr ⟨k, e, hk, next⟩)
  · exact .inr (.inl next)

theorem seenAt (now : Nat) : (m.seenAt now).Ramp := by
  rw [seenAt_eq]
  exact { h with }

/-- The braking switch keeps the ramp of a move away from its goal: a NaN period comes with no
stop margin, so the switch is not made then. -/
theorem braked (away : m.position ≠ m.goal) : m.braked.Ramp := by
  unfold Motion.braked Motion.brakedAt
  split_ifs with within
  case neg => exact h
  refine { h with rate := .inr rfl, of_inf := ?_, of_nan := ?_ }
  · -- a negative rate before the switch was the braking one already
    intro next
    rcases h.of_inf next with cruise | negative
    · exact .inl cruise
    · rcases h.rate with signed | braking
      · have negSigned := nonpos_of_lt negative
        simp [nonpos_eq_false_of_nonneg signed] at negSigned
      · exact .inr (braking ▸ negative)
  · intro next
    have margin := h.margin_of_inf (h.of_nan next).2
    have toGo : 0 < m.toGo := by
      unfold toGo
      omega
    omega

/-- A step keeps the ramp. From a finite period a step gives a number, and reaches `+∞` only
at a negative rate; from `+∞` a zero rate gives NaN, which the ramp allows only at an infinite
cruise period. -/
theorem steppedTo (p : Int) (now : Nat) : (m.steppedTo p now).Ramp := by
  refine { h with
    next_fits := rampedPeriod_fits h.cruise_fits
    above := rampedPeriod_above h.cruise_ne_nan
    of_inf := ?_
    of_nan := ?_ }
  · show m.rampedPeriod = inf false → m.cruiseStepPeriod = inf false ∨ lt m.accelRate 0 = true
    intro stepped
    rcases h.next_cases with nan | inf | ⟨k, e, hk, finite⟩
    · rw [rampedPeriod_of_nan nan] at stepped
      cases stepped
    · rcases sign_cases h.accel_ne_nan with pos | zero | neg
      · exact .inl (rampedPeriod_of_inf_of_pos inf pos h.cruise_pos ▸ stepped)
      · rw [rampedPeriod_of_inf_of_isZero inf zero] at stepped
        cases stepped
      · exact .inr neg
    · by_cases neg : lt m.accelRate 0 = true
      · exact .inr neg
      have signed : m.accelRate.nonneg = true ∨ m.accelRate.isZero = true := by
        rcases sign_cases h.accel_ne_nan with pos | zero | neg'
        · exact .inl (nonneg_of_lt pos)
        · exact .inr zero
        · exact absurd neg' neg
      have above := h.above.resolve_left (by rw [finite]; simp)
      have bound := rampedPeriod_le hk finite (finite ▸ h.next_fits) signed above
      rw [stepped, finite] at bound
      simp [le, compare?] at bound
  · show m.rampedPeriod = nan → m.accelRate.isZero = true ∧ m.cruiseStepPeriod = inf false
    intro stepped
    rcases h.next_cases with nan | inf | ⟨k, e, hk, finite⟩
    · exact h.of_nan nan
    · rcases sign_cases h.accel_ne_nan with pos | zero | neg
      · rw [rampedPeriod_of_inf_of_pos inf pos h.cruise_pos] at stepped
        exact absurd stepped h.cruise_ne_nan
      · refine ⟨zero, (h.of_inf inf).resolve_right ?_⟩
        simp [(lt_eq_false_of_isZero zero).2]
      · rw [rampedPeriod_of_inf_of_neg inf neg] at stepped
        cases stepped
    · exact absurd stepped (rampedPeriod_ne_nan hk finite h.accel_ne_nan h.cruise_ne_nan)

/-- A smaller stop margin, with any goal, keeps the ramp. -/
theorem shorten {margin : Nat} (goal : Int) (shorter : margin ≤ m.stopMargin) :
    { m with stopMargin := margin, goal := goal }.Ramp :=
  { h with
    margin_of_inf := fun cruise => Nat.eq_zero_of_le_zero (h.margin_of_inf cruise ▸ shorter) }

/-- At a positive rate a step does not lengthen the period. -/
theorem rampedPeriod_le_of_pos (ha : lt 0 m.accelRate = true) :
    le m.rampedPeriod m.nextStepPeriod = true := by
  rcases h.next_cases with nan | inf | ⟨k, e, hk, finite⟩
  · -- NaN comes with a zero rate, which is not positive
    simp [(lt_eq_false_of_isZero (h.of_nan nan).1).1] at ha
  · rw [rampedPeriod_of_inf_of_pos inf ha h.cruise_pos, inf]
    exact le_inf_false h.cruise_ne_nan
  · exact rampedPeriod_le hk finite (finite ▸ h.next_fits) (.inl (nonneg_of_lt ha))
      (h.above.resolve_left (by rw [finite]; simp))

/-- At a negative rate a step does not shorten the period. -/
theorem le_rampedPeriod_of_neg (ha : lt m.accelRate 0 = true) :
    le m.nextStepPeriod m.rampedPeriod = true := by
  rcases h.next_cases with nan | inf | ⟨k, e, hk, finite⟩
  · simp [(lt_eq_false_of_isZero (h.of_nan nan).1).2] at ha
  · rw [rampedPeriod_of_inf_of_neg inf ha, inf]
    rfl
  · exact le_rampedPeriod hk finite (finite ▸ h.next_fits) (nonpos_of_lt ha)

end Ramp

end Motion

namespace Controller

open Binary

variable {σ : Type} {c c' : Controller σ}

/-- A stop request keeps the ramp: it only shortens the stop margin and pulls in the goal. -/
theorem requestStop_ramp (h : c.requestStop = .ok c') (ramp : c.state = .ramping → c.motion.Ramp) :
    c'.state = .ramping → c'.motion.Ramp := by
  by_cases ramping : c.state = .ramping
  · obtain ⟨-, -, -, rfl⟩ := (requestStop_eq_ok ramping).mp h
    exact fun _ => (ramp ramping).shorten _ c.motion.stopDistance_le_stopMargin
  · rw [requestStop_of_not_ramping ramping] at h
    cases h
    exact ramp

/-- A stop request leaves the rates as they are. -/
theorem requestStop_rates (h : c.requestStop = .ok c') :
    c'.motion.accelRate = c.motion.accelRate ∧ c'.motion.decelRate = c.motion.decelRate := by
  by_cases ramping : c.state = .ramping
  · obtain ⟨-, -, -, rfl⟩ := (requestStop_eq_ok ramping).mp h
    exact ⟨rfl, rfl⟩
  · rw [requestStop_of_not_ramping ramping] at h
    cases h
    exact ⟨rfl, rfl⟩

/-- A move planned from finite positive kinematics starts a ramp. -/
theorem moveTo_ramp {target : Int} (hs : c.speed.PositiveFinite)
    (ha : c.acceleration.PositiveFinite) (hd : c.deceleration.PositiveFinite)
    (h : c.moveTo target = .ok c') : c'.state = .ramping → c'.motion.Ramp := by
  obtain ⟨profile, -, planned, rfl⟩ := moveTo_eq_ok.mp h
  cases moving : profile.isZero
  · simp only [Bool.false_eq_true, if_false]
    exact fun _ => Motion.Ramp.planned (Profile.plan_wellFormed hs ha hd planned moving) _ _
  · simp

variable [CoilOutput σ] {now : Nat} {r : Except MotorError Tick}

/-- A tick keeps the ramp of a move under way. -/
theorem Ticked.ramp (h : Ticked c now c' r) (ramp : c.state = .ramping → c.motion.Ramp) :
    c'.state = .ramping → c'.motion.Ramp := by
  cases h with
  | idle => exact ramp
  | atGoal => simp
  | pending ramping => exact fun _ => (ramp ramping).seenAt now
  | fault ramping away => exact fun _ => ((ramp ramping).seenAt now).braked (by simpa using away)
  | stepped ramping away =>
    exact fun _ => (((ramp ramping).seenAt now).braked (by simpa using away)).steppedTo _ _
  | arrived => simp

/-- The controllers a planned move passes through: any ticks and stop requests, and nothing
else. -/
inductive Continues : Controller σ → Controller σ → Prop
  | refl (c : Controller σ) : Continues c c
  | tick {c c₁ c₂ : Controller σ} (now : Nat) {r : Except MotorError Tick}
      (ticked : c.tick now = .ok (c₁, r)) (rest : Continues c₁ c₂) : Continues c c₂
  | stop {c c₁ c₂ : Controller σ} (stopped : c.requestStop = .ok c₁) (rest : Continues c₁ c₂) :
      Continues c c₂

/-- Every controller a move passes through keeps its ramp. -/
theorem Continues.ramp (h : Continues c c') (ramp : c.state = .ramping → c.motion.Ramp) :
    c'.state = .ramping → c'.motion.Ramp := by
  induction h with
  | refl => exact ramp
  | tick now ticked _ ih => exact ih ((tick_ticked ticked).ramp ramp)
  | stop stopped _ ih => exact ih (requestStop_ramp stopped ramp)

/-- A tick that steps moves the next period the way the rate it stepped at says: no longer at a
positive rate, no shorter at a negative one. -/
theorem Ticked.monotone (h : Ticked c now c' r) (ramp : c.state = .ramping → c.motion.Ramp)
    (moved : c'.motion.position ≠ c.motion.position) :
    (lt 0 c'.motion.accelRate = true →
      le c'.motion.nextStepPeriod c.motion.nextStepPeriod = true) ∧
    (lt c'.motion.accelRate 0 = true →
      le c.motion.nextStepPeriod c'.motion.nextStepPeriod = true) := by
  cases h with
  | idle => exact absurd rfl moved
  | atGoal => exact absurd rfl moved
  | pending => simp at moved
  | fault => simp at moved
  | stepped ramping away | arrived ramping away =>
    -- both step from the braked motion, and differ only in what they do after the step
    have step := ((ramp ramping).seenAt now).braked (by simpa using away)
    exact ⟨fun pos => by simpa using step.rampedPeriod_le_of_pos pos,
      fun neg => by simpa using step.le_rampedPeriod_of_neg neg⟩

/-- A tick of a braking move leaves its rates as they are. -/
theorem Ticked.rates_of_braking (h : Ticked c now c' r)
    (braking : c.motion.accelRate = -c.motion.decelRate) :
    c'.motion.accelRate = c.motion.accelRate ∧ c'.motion.decelRate = c.motion.decelRate := by
  have braked : (c.motion.seenAt now).braked.accelRate = c.motion.accelRate := by
    rw [Motion.braked_accelRate_of_braking (by simpa using braking)]
    simp
  cases h with
  | idle => exact ⟨rfl, rfl⟩
  | atGoal => exact ⟨rfl, rfl⟩
  | pending => simp
  | fault => exact ⟨braked, by simp⟩
  | stepped => exact ⟨braked, by simp⟩
  | arrived => exact ⟨braked, by simp⟩

omit [CoilOutput σ] in
/-- A step that keeps the rates of a braking move keeps it braking, so rates kept by the rest
of a run from there are kept from before the step. -/
theorem rates_of_braking_step {c₁ c₂ : Controller σ}
    (step : c₁.motion.accelRate = c.motion.accelRate ∧ c₁.motion.decelRate = c.motion.decelRate)
    (rest : c₁.motion.accelRate = -c₁.motion.decelRate →
      c₂.motion.accelRate = c₁.motion.accelRate ∧ c₂.motion.decelRate = c₁.motion.decelRate)
    (braking : c.motion.accelRate = -c.motion.decelRate) :
    c₂.motion.accelRate = c.motion.accelRate ∧ c₂.motion.decelRate = c.motion.decelRate := by
  obtain ⟨accel, decel⟩ := step
  obtain ⟨accel', decel'⟩ := rest (by rw [accel, decel]; exact braking)
  exact ⟨accel'.trans accel, decel'.trans decel⟩

/-- Once a move brakes, no later tick or stop request changes its rates. -/
theorem Continues.rates_of_braking (h : Continues c c') :
    c.motion.accelRate = -c.motion.decelRate →
      c'.motion.accelRate = c.motion.accelRate ∧ c'.motion.decelRate = c.motion.decelRate := by
  induction h with
  | refl => exact fun _ => ⟨rfl, rfl⟩
  | tick now ticked _ ih =>
    exact fun braking =>
      rates_of_braking_step ((tick_ticked ticked).rates_of_braking braking) ih braking
  | stop stopped _ ih =>
    exact fun braking => rates_of_braking_step (requestStop_rates stopped) ih braking

/-- The laws of a move's ramp over the ticks and stop requests after it is planned at `c₀`.
While the move is under way its next period is at least the cruise period, unless it is NaN,
which it is only at a zero rate and an infinite cruise period. A step taken at a positive rate
does not lengthen the next period, and one taken at a negative rate does not shorten it. A rate
switched to braking stays as it is. -/
structure RampLaws (c₀ : Controller σ) : Prop where
  above : ∀ c, c₀.Continues c → c.state = .ramping →
    le c.motion.cruiseStepPeriod c.motion.nextStepPeriod = true ∨
      c.motion.nextStepPeriod = .nan ∧ c.motion.accelRate.isZero = true ∧
        c.motion.cruiseStepPeriod = .inf false
  monotone : ∀ c c' now r, c₀.Continues c → c.tick now = .ok (c', r) →
    c'.motion.position ≠ c.motion.position →
      (lt 0 c'.motion.accelRate = true →
        le c'.motion.nextStepPeriod c.motion.nextStepPeriod = true) ∧
      (lt c'.motion.accelRate 0 = true →
        le c.motion.nextStepPeriod c'.motion.nextStepPeriod = true)
  braking_stays : ∀ c c', c₀.Continues c → c.Continues c' →
    c.motion.accelRate = -c.motion.decelRate → c'.motion.accelRate = c.motion.accelRate

/-- A move planned from finite positive speed, acceleration and deceleration keeps the ramp
laws through every sequence of ticks and stop requests. -/
theorem moveTo_rampLaws (c c₀ : Controller σ) (target : Int) (hs : c.speed.PositiveFinite)
    (ha : c.acceleration.PositiveFinite) (hd : c.deceleration.PositiveFinite)
    (planned : c.moveTo target = .ok c₀) : c₀.RampLaws := by
  have start := moveTo_ramp hs ha hd planned
  refine ⟨?_, ?_, ?_⟩
  · intro c₁ run ramping
    have ramp := run.ramp start ramping
    rcases ramp.above with nan | above
    · exact .inr ⟨nan, ramp.of_nan nan⟩
    · exact .inl above
  · intro c₁ c₂ now r run ticked moved
    exact (tick_ticked ticked).monotone (run.ramp start) moved
  · intro c₁ c₂ _ later braking
    exact (later.rates_of_braking braking).1

set_option maxRecDepth 20000 in
/-- The standard controller's move of a hundred steps keeps the ramp laws. -/
theorem standard_move_rampLaws :
    (Controller.new Recorder.empty).speed.PositiveFinite ∧
      (Controller.new Recorder.empty).acceleration.PositiveFinite ∧
      (Controller.new Recorder.empty).deceleration.PositiveFinite ∧
      ∃ c₀, (Controller.new Recorder.empty).moveTo 100 = .ok c₀ ∧ c₀.RampLaws := by
  have hs : (Controller.new Recorder.empty).speed.PositiveFinite := ⟨_, _, by decide, rfl, by decide⟩
  have ha : (Controller.new Recorder.empty).acceleration.PositiveFinite :=
    ⟨_, _, by decide, rfl, by decide⟩
  have hd : (Controller.new Recorder.empty).deceleration.PositiveFinite :=
    ⟨_, _, by decide, rfl, by decide⟩
  exact ⟨hs, ha, hd, _, rfl, moveTo_rampLaws _ _ 100 hs ha hd rfl⟩

/-- The standard controller set to a speed of `1e-37` steps/s and rates of `1e-40` steps/s², as
single-precision values. -/
def creeping : Controller Recorder :=
  { Controller.new Recorder.empty with
    speed := .finite false 8920298 (-146)
    acceleration := .finite false 71362 (-149)
    deceleration := .finite false 71362 (-149) }

set_option maxRecDepth 20000 in
/-- At those kinematics the rate `a / 10⁶` is `+0` and the cruise period `+∞`, so the first step
takes the next period to NaN: the move is under way with a next period that is not at or above
its cruise period. -/
theorem creeping_next_not_above_cruise :
    ∃ c₀ c, creeping.moveTo 100 = .ok c₀ ∧ c₀.Continues c ∧ c.state = .ramping ∧
      le c.motion.cruiseStepPeriod c.motion.nextStepPeriod = false :=
  ⟨_, _, rfl, .tick 0 rfl (.tick 18446744073709551615 rfl (.refl _)), rfl, rfl⟩

end Controller

end StepperDrive
