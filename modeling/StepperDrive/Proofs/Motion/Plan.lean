import StepperDrive.Proofs.Binary.Operations
import StepperDrive.Proofs.Motion.Spec
/-!
# What a plan fixes about a move's periods and rates

`Profile.plan` computes a move's constants in single precision. A plan that moves, made from
finite positive speed, acceleration and deceleration (`Binary.PositiveFinite`), is
`Profile.WellFormed` (`plan_wellFormed`):

* its cruise period `1000 / v` is positive (`lt_zero_thousand_div`): the largest finite speed
  still leaves it above the least subnormal, and a reachable speed that underflows to `+0`
  makes it `+∞`, never `-∞`, since that speed is a root of a quotient of `+`-signed numbers;
* its first period `1000 / √(2·a)` is finite (`initial_le_maxFinite32`);
* its rates `a / 10⁶` and `d / 10⁶` are `+`-signed, though they may be `+0`;
* a cruise period that overflows to `+∞` comes with no stop margin
  (`margin_eq_zero_of_period_inf`): its speed is below `2 ^ -100`, whose square rounds to `+0`.
-/

namespace StepperDrive

set_option autoImplicit false

namespace Format

theorem binary32_precision_pos : 0 < binary32.precision := by decide

theorem binary32_emax_pos : 0 < binary32.emax := by decide

end Format

namespace Binary

/-! ## Single-precision constants -/

theorem one_eq : (1 : Binary32) = .finite false 8388608 (-23) := rfl
theorem two_eq : (2 : Binary32) = .finite false 8388608 (-22) := rfl
theorem thousand_eq : (1000 : Binary32) = .finite false 16384000 (-14) := rfl

/-- The largest finite single-precision value, `(2 ^ 24 - 1) · 2 ^ 104`. -/
def maxFinite32 : Binary32 := .finite false 16777215 104

/-- A thousand over a single-precision value of at least `2 ^ -100` is at most the largest finite
value. -/
theorem thousand_div_le_maxFinite32 {k : Nat} {e : Int}
    (low : (2 : ℚ) ^ (-100 : Int) ≤ (finite false k e : Binary32).value) :
    le (1000 / finite false k e) maxFinite32 = true := by
  have hk : k ≠ 0 := by
    rintro rfl
    simp at low
    linarith [zpow_pos (two_pos : (0 : ℚ) < 2) (-100)]
  rw [thousand_eq, div_finite, if_neg hk]
  apply Format.round_le_of_le Format.binary32_precision_pos (by norm_num) hk (by decide)
  simp only [value_finite, Bool.false_eq_true, if_false] at low ⊢
  calc ((16384000 : Nat) : ℚ) / k * 2 ^ (-14 - e) = 16384000 * 2 ^ (-14 : Int) / (k * 2 ^ e) := by
        rw [zpow_sub₀ two_ne_zero]
        field_simp
        push_cast
        ring
    _ ≤ 16384000 * 2 ^ (-14 : Int) / 2 ^ (-100 : Int) :=
        div_le_div_of_nonneg_left (by positivity) (zpow_pos two_pos _) low
    _ ≤ ((16777215 : Nat) : ℚ) * 2 ^ (104 : Int) := by norm_num

/-- A thousand over a `+`-signed single-precision value is positive: over the largest finite
value it is still above the least subnormal, and over `+0` it is `+∞`. -/
theorem lt_zero_thousand_div {m : Nat} {q : Int} (fits : (finite false m q : Binary32).Fits) :
    lt 0 (1000 / finite false m q : Binary32) = true := by
  rcases Nat.eq_zero_or_pos m with rfl | hm
  · rfl
  obtain ⟨small, -, top⟩ := fits
  have hq : q ≤ 104 := top
  have low : le (finite false 1 Format.binary32.qmin : Binary32) (1000 / finite false m q) = true := by
    rw [thousand_eq, div_finite, if_neg hm.ne']
    apply Format.le_round_of_le Format.binary32_precision_pos (by norm_num) hm.ne' (by decide)
    have half : (1 / 2 : ℚ) ≤ (16384000 : Nat) / m := by
      have : (m : ℚ) < 2 ^ 24 := by exact_mod_cast small
      rw [le_div_iff₀ (by exact_mod_cast hm)]
      push_cast
      linarith
    calc (finite false 1 Format.binary32.qmin : Binary32).value = 1 / 2 * 2 ^ (-148 : Int) := by
          norm_num [Format.qmin, Format.binary32]
      _ ≤ (16384000 : Nat) / m * 2 ^ (-14 - q) :=
          mul_le_mul half (zpow_le_zpow_right₀ one_le_two (by omega)) (by positivity)
            (by positivity)
  exact lt_of_lt_of_le_true (by decide) low

/-- Twice a positive finite single-precision value is at least `2 ^ -148`. -/
theorem le_two_mul {m : Nat} {q : Int} (hm : 0 < m) (fits : (finite false m q : Binary32).Fits) :
    le (finite false 1 (-148) : Binary32) (2 * finite false m q) = true := by
  have hq : -149 ≤ q := fits.2.1
  rw [two_eq, mul_finite]
  apply Format.le_round_of_le Format.binary32_precision_pos (by positivity) one_ne_zero
    (by decide)
  have one : (1 : ℚ) ≤ m := by exact_mod_cast hm
  calc (finite false 1 (-148) : Binary32).value = 2 ^ (-148 : Int) := by simp
    _ ≤ 2 ^ (q + 1) := zpow_le_zpow_right₀ one_le_two (by omega)
    _ = 8388608 * 2 ^ (-22 + q) := by
        rw [show q + 1 = 23 + (-22 + q) by ring, zpow_add₀ two_ne_zero]
        norm_num
    _ ≤ ((8388608 * m : Nat) : ℚ) / ((1 : Nat) : ℚ) * 2 ^ (-22 + q) := by
        push_cast
        rw [div_one]
        gcongr
        linarith

/-- The first period `1000 / √(2·a)` of a positive finite acceleration is finite: the root is
at least `2 ^ -75`. -/
theorem initial_le_maxFinite32 {m : Nat} {q : Int} (hm : 0 < m)
    (fits : (finite false m q : Binary32).Fits) :
    le (1000 / sqrt (2 * finite false m q)) maxFinite32 = true := by
  rcases cases_of_positive_le one_pos (le_two_mul hm fits) with ⟨k, e, twice, low⟩ | twice
  · rw [twice]
    have hk : k ≠ 0 := by
      rintro rfl
      simp at low
      linarith [zpow_pos (two_pos : (0 : ℚ) < 2) (-148)]
    have root : le (finite false 1 (-75)) (finite false k e : Binary32).sqrt = true := by
      apply le_sqrt Format.binary32_precision_pos hk (by decide)
      refine le_trans (le_of_eq ?_) low
      norm_num
    rcases cases_of_positive_le one_pos root with ⟨k', e', rooted, low'⟩ | rooted
    · rw [rooted]
      apply thousand_div_le_maxFinite32
      refine le_trans ?_ low'
      norm_num
    · rw [rooted]
      rfl
  · rw [twice]
    rfl

/-- A zero over anything truncates to a count of zero. -/
theorem zero_div_toUInt64 (y : Binary32) :
    (roundHalfAway (finite false 0 Format.binary32.qmin / y)).toUInt64 = 0 := by
  cases y with
  | nan => rfl
  | inf s => cases s <;> rfl
  | finite s n r =>
    rw [div_finite]
    by_cases hn : n = 0
    · simp only [hn, if_true]
      rfl
    · rw [if_neg hn, Format.round_zero]
      cases s <;> rfl

/-- A cruise period that overflows to `+∞` comes from a speed whose square is `+0`, so the stop
margin `round(v² / y)` is zero whatever `y` is. -/
theorem margin_eq_zero_of_period_inf {m : Nat} {q : Int} (fits : (finite false m q : Binary32).Fits)
    (overflow : (1000 / finite false m q : Binary32) = inf false) (y : Binary32) :
    (roundHalfAway (finite false m q * finite false m q / y)).toUInt64 = 0 := by
  have square : (finite false m q * finite false m q : Binary32) =
      finite false 0 Format.binary32.qmin := by
    rw [mul_finite]
    rcases Nat.eq_zero_or_pos m with rfl | hm
    · simp
    -- the speed is below `2 ^ -100`, or its period would be finite
    have tiny : (finite false m q : Binary32).value < 2 ^ (-100 : Int) := by
      by_contra big
      have bounded := thousand_div_le_maxFinite32 (not_lt.mp big)
      rw [overflow] at bounded
      simp [le, compare?, maxFinite32] at bounded
    apply Format.round_eq_zero Format.binary32_precision_pos Format.binary32_emax_pos false
      (by positivity) one_ne_zero
    simp only [value_finite, Bool.false_eq_true, if_false] at tiny
    have speed : (0 : ℚ) ≤ m * 2 ^ q := by positivity
    calc 2 * (((m * m : Nat) : ℚ) / ((1 : Nat) : ℚ) * 2 ^ (q + q)) = 2 * (m * 2 ^ q) ^ 2 := by
          push_cast
          rw [zpow_add₀ two_ne_zero]
          ring
      _ < 2 * (2 ^ (-100 : Int)) ^ 2 := by gcongr
      _ ≤ 2 ^ Format.binary32.qmin := by norm_num [Format.qmin, Format.binary32]
  rw [square]
  exact zero_div_toUInt64 y

end Binary

namespace Profile

open Binary

variable {steps : Int} {speed acceleration deceleration : Binary32} {p : Profile}

theorem million_eq : million = .finite false 16000000 (-4) := rfl

/-- A plan that moves sets its periods, rates and margin from the kinematics as written; its
cruise speed is the requested speed, or the reachable speed when that is lower. -/
theorem plan_of_moving (h : plan steps speed acceleration deceleration = .ok p)
    (moving : p.isZero = false) :
    ∃ cruise : Binary32,
      (cruise = speed ∨ lt cruise speed = true ∧
        cruise = sqrt (2 * acceleration * deceleration * ofNat steps.natAbs /
          (acceleration + deceleration))) ∧
      p.initialStepPeriod = 1000 / sqrt (2 * acceleration) ∧
      p.cruiseStepPeriod = periodOf cruise ∧
      p.accelRate = acceleration / million ∧ p.decelRate = deceleration / million ∧
      p.stopMargin ≤ (roundHalfAway (cruise * cruise / (2 * deceleration))).toUInt64 := by
  unfold plan at h
  dsimp only at h
  split at h
  · cases h
    cases moving
  · obtain ⟨doubled, hdoubled, planned⟩ := bind_eq_ok.mp h
    obtain ⟨-, rfl⟩ := Word.mulUInt64_eq_ok.mp hdoubled
    cases planned
    refine ⟨_, ?_, rfl, rfl, rfl, rfl, ?_⟩
    · split_ifs with clamped
      · exact .inr ⟨clamped, rfl⟩
      · exact .inl rfl
    · dsimp only
      split_ifs <;> omega

/-- A rate per ms² of a positive finite rate per s² is `+`-signed. -/
theorem div_million_nonneg {x : Binary32} (hx : x.PositiveFinite) : (x / million).nonneg = true := by
  obtain ⟨m, q, -, rfl, -⟩ := hx
  rw [million_eq, div_finite, if_neg (by norm_num)]
  exact Format.round_nonneg _ _ _

/-- The cruise speed of a plan from finite positive kinematics is a `+`-signed finite value of
the format: the reachable speed is a root of a quotient of `+`-signed numbers, never `-0`. -/
theorem cruise_finite {cruise : Binary32} (hs : speed.PositiveFinite)
    (ha : acceleration.PositiveFinite) (hd : deceleration.PositiveFinite)
    (chosen : cruise = speed ∨ lt cruise speed = true ∧
      cruise = sqrt (2 * acceleration * deceleration * ofNat steps.natAbs /
        (acceleration + deceleration))) :
    ∃ m q, cruise = finite false m q ∧ (finite false m q : Binary32).Fits := by
  obtain ⟨ms, qs, -, rfl, fits⟩ := hs
  rcases chosen with rfl | ⟨below, reachable⟩
  · exact ⟨ms, qs, rfl, fits⟩
  obtain ⟨ma, qa, -, rfl, -⟩ := ha
  obtain ⟨md, qd, -, rfl, -⟩ := hd
  have distance : (ofNat steps.natAbs : Binary32).nonpos = false :=
    nonpos_eq_false_of_nonneg (Format.round_nonneg _ _ _)
  have unsigned : cruise.nonpos = false := by
    rw [reachable]
    apply sqrt_nonpos_eq_false
    apply div_nonpos_eq_false _ (add_nonpos_eq_false rfl rfl)
    exact mul_nonpos_eq_false (mul_nonpos_eq_false (mul_nonpos_eq_false rfl rfl) rfl) distance
  have fitsCruise : cruise.Fits := reachable ▸
    sqrt_fits Format.binary32_precision_pos Format.binary32_emax_pos _
  cases cruise with
  | nan => simp at below
  | inf s => cases s <;> simp_all [nonpos, lt, compare?]
  | finite s m q =>
    cases s
    · exact ⟨m, q, rfl, fitsCruise⟩
    · simp [nonpos] at unsigned

/-- The bounds a plan from finite positive kinematics keeps on its ramp: a positive cruise
period, a finite first period, `+`-signed rates, and no stop margin when the cruise period
overflows to `+∞`. -/
structure WellFormed (p : Profile) : Prop where
  cruise_pos : lt 0 p.cruiseStepPeriod = true
  cruise_fits : p.cruiseStepPeriod.Fits
  initial_fits : p.initialStepPeriod.Fits
  initial_le : le p.initialStepPeriod maxFinite32 = true
  accel_nonneg : p.accelRate.nonneg = true
  decel_nonneg : p.decelRate.nonneg = true
  margin_of_inf : p.cruiseStepPeriod = .inf false → p.stopMargin = 0

/-- A plan that moves, from finite positive speed, acceleration and deceleration, is
well formed. -/
theorem plan_wellFormed (hs : speed.PositiveFinite) (ha : acceleration.PositiveFinite)
    (hd : deceleration.PositiveFinite) (h : plan steps speed acceleration deceleration = .ok p)
    (moving : p.isZero = false) : p.WellFormed := by
  obtain ⟨cruise, chosen, initial, period, accel, decel, margin⟩ := plan_of_moving h moving
  obtain ⟨m, q, rfl, fits⟩ := cruise_finite hs ha hd chosen
  have accelRate := div_million_nonneg ha
  have decelRate := div_million_nonneg hd
  obtain ⟨ma, qa, hma, rfl, fitsa⟩ := ha
  refine ⟨?_, ?_, ?_, ?_, accel ▸ accelRate, decel ▸ decelRate, ?_⟩
  · rw [period]
    exact lt_zero_thousand_div fits
  · rw [period]
    exact div_fits Format.binary32_precision_pos Format.binary32_emax_pos _ _
  · rw [initial]
    exact div_fits Format.binary32_precision_pos Format.binary32_emax_pos _ _
  · rw [initial]
    exact initial_le_maxFinite32 hma fitsa
  · intro overflow
    rw [period] at overflow
    have none := margin_eq_zero_of_period_inf fits overflow (2 * deceleration)
    omega

end Profile

end StepperDrive
