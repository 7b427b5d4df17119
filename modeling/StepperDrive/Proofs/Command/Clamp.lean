import StepperDrive.Command.Intake
import StepperDrive.Proofs.Motion.Plan
/-!
# Clamping commands into the envelope

Clamping is a projection onto the commands the envelope admits (`Envelope.Admits`): positions
in `[0, maxPosition]`, a dwell of at least zero, and rates that are `+`-signed numbers at most
their bound. For a valid envelope whose rate bounds are single-precision values, every command
clamps to an admitted one (`clampParameters_admits`) and an admitted command is left as it is
(`clampParameters_of_admits`), so clamping twice is clamping once and preparing a command twice
changes nothing more than preparing it once.

Clamped rates are never negative or NaN, so the kinematics check refuses a clamped command
exactly when one of its rates is a zero, and names the first (`checkKinematics_of_nonneg`).
-/

namespace StepperDrive

set_option autoImplicit false

namespace Binary

variable {f : Format} {x y : Binary f}

theorem neg_ne_nan (hx : x ≠ nan) : -x ≠ nan := by
  cases x with
  | nan => exact absurd rfl hx
  | inf s => simp
  | finite s m q => simp

/-- A `+`-signed number is its own magnitude. -/
theorem abs_of_nonneg (h : x.nonneg = true) : x.abs = x := by
  cases x with
  | nan => cases h
  | inf s => cases s <;> simp_all [nonneg, abs]
  | finite s m q => cases s <;> simp_all [nonneg, abs]

theorem abs_nonneg (hx : x ≠ nan) : x.abs.nonneg = true := by
  cases x with
  | nan => exact absurd rfl hx
  | inf s => rfl
  | finite s m q => rfl

/-- A `+`-signed number is at least zero. -/
theorem zero_le_of_nonneg (h : x.nonneg = true) : le 0 x = true := by
  cases x with
  | nan => cases h
  | inf s =>
    cases s
    · rfl
    · cases h
  | finite s m q =>
    cases s
    · rw [zero_eq, le_finite, decide_eq_true_eq]
      simpa using value_nonneg (f := f) m q
    · cases h

/-- A `+`-signed number is positive exactly when it is not a zero. -/
theorem lt_zero_of_nonneg (h : x.nonneg = true) : lt 0 x = !x.isZero := by
  cases x with
  | nan => cases h
  | inf s =>
    cases s
    · rfl
    · cases h
  | finite s m q =>
    cases s
    · rw [zero_eq, lt_finite]
      rcases Nat.eq_zero_or_pos m with rfl | hm
      · simp [isZero]
      · have : m ≠ 0 := hm.ne'
        simp [isZero, this]
        positivity
    · cases h

/-- A finite number between `-y` and a `+`-signed `y` has magnitude at most `y`. -/
theorem abs_le_of_between (hy : y.nonneg = true) {s : Bool} {m : Nat} {q : Int}
    (above : le (finite s m q) y = true) (below : le (-y) (finite s m q) = true) :
    le (finite s m q).abs y = true := by
  cases s
  · exact above
  cases y with
  | nan => cases hy
  | inf t =>
    cases t
    · rfl
    · cases hy
  | finite t n r =>
    cases t
    · rw [neg_finite, le_finite, decide_eq_true_eq] at below
      rw [abs, le_finite, decide_eq_true_eq]
      simp only [value_finite, Bool.not_false, if_true, Bool.false_eq_true, if_false] at below ⊢
      linarith
    · cases hy

/-- Half a positive single-precision value of the format is a `+`-signed number at most it. -/
theorem half_le {y : Binary32} (hy : lt 0 y = true) (fits : y.Fits) :
    (y / 2).nonneg = true ∧ le (y / 2) y = true := by
  rcases positive_cases hy with ⟨m, q, hm, rfl⟩ | rfl
  · rw [two_eq, div_finite, if_neg (by norm_num)]
    refine ⟨Format.round_nonneg _ _ _, ?_⟩
    apply Format.round_le_of_le Format.binary32_precision_pos hm.ne' (by norm_num) fits
    rw [value_finite, if_neg Bool.false_ne_true]
    calc ((m : Nat) : ℚ) / ((8388608 : Nat) : ℚ) * 2 ^ (q - -22) = m * 2 ^ q / 2 := by
          rw [zpow_sub₀ two_ne_zero]
          norm_num
          ring
      _ ≤ m * 2 ^ q := by
          have : (0 : ℚ) ≤ m * 2 ^ q := by positivity
          linarith
  · exact ⟨rfl, rfl⟩

end Binary

open Binary

/-- A rate within a bound: a `+`-signed number, so neither NaN nor `-0`, at most the bound. -/
def RateWithin (bound r : Binary32) : Prop := r.nonneg = true ∧ le r bound = true

theorem RateWithin.zero_le {bound r : Binary32} (h : RateWithin bound r) : le 0 r = true :=
  zero_le_of_nonneg h.1

theorem RateWithin.ne_nan {bound r : Binary32} (h : RateWithin bound r) : r ≠ .nan :=
  ne_nan_of_le_left h.2

section Rates

variable {bound : Binary32}

/-- A rate clamped into a positive bound of the format, then taken as a magnitude, lies within
the bound: the fallback is half the bound, and any other value was between `-bound` and
`bound` already. -/
theorem clampRate_within (positive : lt 0 bound = true) (fits : bound.Fits) (v : Binary32) :
    RateWithin bound (clampRate v bound).abs := by
  unfold clampRate
  split
  · obtain ⟨half, le_half⟩ := half_le positive fits
    rw [abs_of_nonneg half]
    exact ⟨half, le_half⟩
  · rename_i kept
    simp only [Bool.or_eq_true, Bool.not_eq_true', not_or, Bool.not_eq_false] at kept
    obtain ⟨⟨finite, not_above⟩, not_below⟩ := kept
    have hv : v ≠ .nan := by rintro rfl; cases finite
    have hb : bound ≠ .nan := ne_nan_of_lt_right positive
    have above := le_of_lt_eq_false hb hv (Bool.eq_false_iff.mpr not_above)
    have below := le_of_lt_eq_false hv (neg_ne_nan hb) (Bool.eq_false_iff.mpr not_below)
    cases v with
    | nan => exact absurd rfl hv
    | inf s => cases finite
    | finite s m q =>
      exact ⟨abs_nonneg hv, abs_le_of_between (nonneg_of_lt positive) above below⟩

/-- A rate within a positive bound clamps to itself. -/
theorem clampRate_of_within (positive : lt 0 bound = true) {r : Binary32}
    (h : RateWithin bound r) : (clampRate r bound).abs = r := by
  obtain ⟨sign, le_bound⟩ := h
  have below : le (-bound) r = true := by
    cases r with
    | nan => cases sign
    | inf s =>
      cases s
      · exact le_inf_false (neg_ne_nan (ne_nan_of_lt_right positive))
      · cases sign
    | finite s m q =>
      cases s
      · exact le_of_nonpos (nonpos_of_lt (neg_lt_zero positive)) m q
      · cases sign
  cases r with
  | nan => cases sign
  | inf s =>
    cases s
    · -- only an infinite bound admits `+∞`, and half of it is `+∞` again
      rcases positive_cases positive with ⟨m, q, -, rfl⟩ | rfl
      · cases le_bound
      · rfl
    · cases sign
  | finite s m q =>
    unfold clampRate
    rw [lt_eq_false_of_le le_bound, lt_eq_false_of_le below]
    exact abs_of_nonneg sign

end Rates

namespace Envelope

variable {e : Envelope}

/-- Into a positive bound, a position stays at least zero and at most the bound. -/
theorem clampPosition_within (positive : 0 < e.maxPosition) (x : Int) :
    0 ≤ e.clampPosition x ∧ e.clampPosition x ≤ e.maxPosition := by
  unfold clampPosition
  split_ifs with low high
  · exact ⟨le_rfl, positive.le⟩
  · exact ⟨Int.emod_nonneg _ positive.ne', (Int.emod_lt_of_pos _ positive).le⟩
  · omega

/-- A position between zero and the bound is left as it is. -/
theorem clampPosition_of_within {x : Int} (h : 0 ≤ x ∧ x ≤ e.maxPosition) :
    e.clampPosition x = x := by
  unfold clampPosition
  split_ifs <;> omega

/-- What a valid envelope admits: positions between zero and the bound, a dwell of at least
zero, and rates within their bounds. -/
structure Admits (e : Envelope) (p : MotorParameters) : Prop where
  current : 0 ≤ p.currentPosition ∧ p.currentPosition ≤ e.maxPosition
  final : 0 ≤ p.finalPosition ∧ p.finalPosition ≤ e.maxPosition
  dwell : 0 ≤ p.dwellMs
  speed : RateWithin e.maxSpeed p.speed
  acceleration : RateWithin e.maxAcceleration p.acceleration
  deceleration : RateWithin e.maxAcceleration p.deceleration

theorem isValid_iff :
    e.isValid = true ↔ 0 < e.maxPosition ∧ lt 0 e.maxSpeed = true ∧ lt 0 e.maxAcceleration = true := by
  simp [isValid, and_assoc]

end Envelope

section Clamp

variable {e : Envelope}

/-- Clamping into a valid envelope whose rate bounds are values of the format gives a command
the envelope admits. -/
theorem clampParameters_admits (valid : e.isValid = true)
    (fits : e.maxSpeed.Fits ∧ e.maxAcceleration.Fits) (p : MotorParameters) :
    e.Admits (clampParameters e p) := by
  obtain ⟨position, speed, accel⟩ := Envelope.isValid_iff.mp valid
  exact ⟨Envelope.clampPosition_within position _, Envelope.clampPosition_within position _,
    le_max_right _ _, clampRate_within speed fits.1 _, clampRate_within accel fits.2 _,
    clampRate_within accel fits.2 _⟩

/-- A command a valid envelope admits is left as it is. -/
theorem clampParameters_of_admits (valid : e.isValid = true) {p : MotorParameters}
    (h : e.Admits p) : clampParameters e p = p := by
  obtain ⟨-, speed, accel⟩ := Envelope.isValid_iff.mp valid
  unfold clampParameters
  rw [Envelope.clampPosition_of_within h.current, Envelope.clampPosition_of_within h.final,
    max_eq_left h.dwell, Envelope.clampSpeed, Envelope.clampAcceleration,
    Envelope.clampAcceleration, clampRate_of_within speed h.speed,
    clampRate_of_within accel h.acceleration, clampRate_of_within accel h.deceleration]

end Clamp

namespace MotorParameters

/-- The rates of a command with their fields, in the order they are checked. -/
def rates (p : MotorParameters) : List (ParameterField × Binary32) :=
  [(.speed, p.speed), (.acceleration, p.acceleration), (.deceleration, p.deceleration)]

/-- The first rate field of a command that holds a zero, in checking order. -/
def firstZeroRate (p : MotorParameters) : Option ParameterField :=
  (p.rates.find? fun r => r.2.isZero).map Prod.fst

end MotorParameters

/-- For rates that are `+`-signed, the kinematics check refuses exactly the commands with a
zero rate, naming the first. -/
theorem checkKinematics_of_nonneg {p : MotorParameters} (speed : p.speed.nonneg = true)
    (accel : p.acceleration.nonneg = true) (decel : p.deceleration.nonneg = true) :
    checkKinematics p =
      p.firstZeroRate.elim (.ok ()) fun field => .error (.degenerateKinematics field) := by
  unfold checkKinematics MotorParameters.firstZeroRate MotorParameters.rates
  rw [lt_zero_of_nonneg speed, lt_zero_of_nonneg accel, lt_zero_of_nonneg decel]
  rcases speedZero : p.speed.isZero <;> rcases accelZero : p.acceleration.isZero <;>
    rcases decelZero : p.deceleration.isZero <;> simp [speedZero, accelZero, decelZero]

namespace Intake

/-- Preparing clamps the template in place and checks the clamped command. -/
theorem prepare_eq (i : Intake) :
    i.prepare = ({ i with template := clampParameters i.envelope i.template },
      (checkKinematics (clampParameters i.envelope i.template)).map
        fun _ => clampParameters i.envelope i.template) := by
  unfold prepare
  dsimp only
  split <;> rename_i checked <;> rw [checked] <;> rfl

end Intake

/-- What clamping into an envelope settles about a command `p`. -/
structure ClampSettles (e : Envelope) (p : MotorParameters) : Prop where
  /-- The clamped command is one the envelope admits. -/
  admits : e.Admits (clampParameters e p)
  /-- Negative positions go to zero, positions past the bound wrap around it, the rest stay. -/
  positions : ∀ x, e.clampPosition x =
    if x < 0 then 0 else if e.maxPosition < x then x % e.maxPosition else x
  stepMode : (clampParameters e p).stepMode = p.stepMode
  idempotent : clampParameters e (clampParameters e p) = clampParameters e p
  /-- A second preparation returns what the first did and leaves the same template. -/
  prepare_twice : ∀ config template,
    (Intake.mk e config template).prepare.1.prepare = (Intake.mk e config template).prepare
  /-- The clamped command is refused exactly for a zero rate, the first one named. -/
  kinematics : checkKinematics (clampParameters e p) =
    (clampParameters e p).firstZeroRate.elim (.ok ()) fun field => .error (.degenerateKinematics field)

/-- Every command is settled by clamping into a valid envelope whose rate bounds, finite or
not, are single-precision values. -/
theorem clamping_settles_commands {e : Envelope} (valid : e.isValid = true)
    (fits : e.maxSpeed.Fits ∧ e.maxAcceleration.Fits) (p : MotorParameters) : ClampSettles e p := by
  have admits (q : MotorParameters) := clampParameters_admits valid fits q
  have idempotent (q : MotorParameters) := clampParameters_of_admits valid (admits q)
  have positive := (Envelope.isValid_iff.mp valid).1
  refine ⟨admits p, fun x => ?_, rfl, idempotent p, fun config template => ?_, ?_⟩
  · -- a valid envelope's bound is positive, so only the sign and the bound decide
    unfold Envelope.clampPosition
    simp only [not_le.mpr positive, or_false]
  · rw [Intake.prepare_eq, Intake.prepare_eq]
    dsimp only
    rw [idempotent template]
  · obtain ⟨-, -, -, speed, accel, decel⟩ := admits p
    exact checkKinematics_of_nonneg speed.1 accel.1 decel.1

/-- A command outside the standard envelope everywhere: a negative position, a position past
the bound, a negative dwell, a NaN speed, an infinite acceleration and a negative deceleration. -/
def strayCommand : MotorParameters := ⟨-5, 5000, -3, .nan, .inf false, -80, .half⟩

set_option maxRecDepth 20000 in
example : clampParameters Envelope.standard strayCommand = ⟨0, 904, 0, 50, 50, 80, .half⟩ := by
  decide

set_option maxRecDepth 20000 in
theorem clamping_settles_strayCommand :
    Envelope.standard.isValid = true ∧
      (Envelope.standard.maxSpeed.Fits ∧ Envelope.standard.maxAcceleration.Fits) ∧
      ClampSettles Envelope.standard strayCommand :=
  ⟨by decide, by decide, clamping_settles_commands (by decide) (by decide) strayCommand⟩

end StepperDrive
