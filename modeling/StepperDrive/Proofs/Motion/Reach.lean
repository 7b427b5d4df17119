import StepperDrive.Proofs.Binary.Error
import StepperDrive.Proofs.Motion.Spec
/-!
# The reachable speed and the stop margin in single precision

`Profile.plan` takes the fastest speed a move of `n` steps allows as `√(2·a·d·n / (a + d))`,
computed in single precision, and brakes over `round(v² / 2d)` steps. With rates from `2 ^ -30`
to `2 ^ 30` steps/s² (`ModerateRate`) and up to `2 ^ 60` steps every intermediate value of that
formula stays in the normal range, so each operation is one rounding from its exact value
(`Binary.Approx`):

* the computed root squares to within ten roundings of the exact `2·a·d·n / (a + d)`
  (`reachable_squareApprox`), and braking from it is within fourteen roundings of
  `a·n / (a + d)` steps (`braking_approx_reachable`); braking from a slower speed is at most that
  (`braking_below_of_le`);
* so the braking distance is at most `2 ^ 61` steps and doubling it never overflows
  (`brakingSteps_cruiseOf_le`): such a move is always planned, never faster than the distance
  allows beyond rounding, and a request beyond that is always clamped (`plan_within_reach`).

Beyond these rates the formula leaves the format. At `10 ^ 20` steps/s² the product `2·a·d`
overflows to `+∞`, so does the root, the requested speed is kept, its square overflows, and
doubling the saturated margin traps (`plan_traps_at_large_rates`).

A symmetric move that the distance limits brakes over `n / 2` steps up to rounding, and the
margin is cut to `⌊n / 2⌋` when twice the rounded margin reaches `n`. Up to `2 ^ 20` steps the
rounding error is below half a step and the split is exact (`stopMargin_halves`); at `10 ^ 9`
steps it falls 64 steps short (`symmetric_split_misses_half`).

A profile counts as triangular when twice its margin covers the move. After the split that holds
for an even move only: an odd move braking over `⌊n / 2⌋` steps is split all the same, yet not
counted as triangular (`isTriangular_iff_even_split`, `oddSplit_not_triangular`).
-/

namespace StepperDrive

set_option autoImplicit false

namespace Profile

open Binary

/-- A rate the planning arithmetic stays in the normal range for: a positive finite value from
`2 ^ -30` to `2 ^ 30` steps/s². -/
structure ModerateRate (x : Binary32) : Prop where
  positive : x.PositiveFinite
  low : (2 : ℚ) ^ (-30 : Int) ≤ x.value
  high : x.value ≤ 2 ^ (30 : Int)

/-- The square of the fastest speed `n` steps allow from rest to rest at acceleration `A` and
deceleration `D`, in exact arithmetic: `v² · (1 / 2A + 1 / 2D) = n`. -/
def reachSquare (n : Nat) (A D : ℚ) : ℚ := 2 * A * D * n / (A + D)

/-- The reachable speed as `plan` computes it. -/
def reachable (n : Nat) (acceleration deceleration : Binary32) : Binary32 :=
  sqrt (2 * acceleration * deceleration * ofNat n / (acceleration + deceleration))

/-- The speed `plan` cruises at: the requested speed, or the reachable one when that is lower. -/
def cruiseOf (n : Nat) (speed acceleration deceleration : Binary32) : Binary32 :=
  if lt (reachable n acceleration deceleration) speed then reachable n acceleration deceleration
  else speed

/-- The braking distance from `cruise` as `plan` computes it before halving: `v² / 2d`, rounded
half away from zero and truncated to a count. -/
def brakingSteps (cruise deceleration : Binary32) : Nat :=
  (roundHalfAway (cruise * cruise / (2 * deceleration))).toUInt64

/-! ## The plan of a move that moves -/

section Plan

variable {steps : Int} {speed acceleration deceleration : Binary32}

/-- A move of some steps at usable rates is planned unless doubling its braking distance
overflows. It cruises at `cruiseOf`, records whether that lowered the speed, and brakes over its
braking distance or half the move, whichever is less. -/
theorem plan_eq_ok_of_room (moving : steps.natAbs ≠ 0) (hs : usable speed = true)
    (ha : usable acceleration = true) (hd : usable deceleration = true)
    (room : brakingSteps (cruiseOf steps.natAbs speed acceleration deceleration) deceleration * 2 ≤
      Word.uint64Max) :
    ∃ p, plan steps speed acceleration deceleration = .ok p ∧
      p.speedClamped = lt (reachable steps.natAbs acceleration deceleration) speed ∧
      p.cruiseSpeed = cruiseOf steps.natAbs speed acceleration deceleration ∧
      p.stopMargin = if steps.natAbs ≤ brakingSteps p.cruiseSpeed deceleration * 2 then
        steps.natAbs / 2 else brakingSteps p.cruiseSpeed deceleration := by
  have doubled := Word.mulUInt64_eq_ok.mpr ⟨room, rfl⟩
  unfold brakingSteps cruiseOf reachable at doubled
  unfold plan
  simp only [moving, hs, ha, hd, decide_false, Bool.not_true, Bool.or_false, Bool.false_eq_true,
    if_false]
  rw [doubled]
  exact ⟨_, rfl, rfl, rfl, rfl⟩

/-- A move at a rate that is not usable plans no motion. -/
theorem plan_of_not_usable (hs : usable speed = false) :
    plan steps speed acceleration deceleration = .ok (zero (Direction.ofSteps steps)) := by
  simp [plan, hs, pure, Except.pure]

end Plan

/-! ## Magnitudes at moderate rates -/

section Magnitudes

variable {a d : Binary32} {n : Nat}

theorem ModerateRate.pos (h : ModerateRate a) : 0 < a.value :=
  (zpow_pos two_pos _).trans_le h.low

theorem usable_of_positiveFinite (h : a.PositiveFinite) : usable a = true := by
  obtain ⟨m, q, hm, rfl, -⟩ := h
  unfold usable
  rw [zero_eq, lt_finite, decide_eq_true_eq]
  simp only [value_finite, Bool.false_eq_true, if_false, Nat.cast_zero, zero_mul]
  positivity

theorem ModerateRate.usable (h : ModerateRate a) : usable a = true :=
  usable_of_positiveFinite h.positive

/-- The harmonic mean `2AD / (A + D)` of two moderate rates lies between them, so it is
moderate too. -/
theorem harmonic_between (ha : ModerateRate a) (hd : ModerateRate d) :
    (2 : ℚ) ^ (-30 : Int) ≤ 2 * a.value * d.value / (a.value + d.value) ∧
      2 * a.value * d.value / (a.value + d.value) ≤ 2 ^ (30 : Int) := by
  have hA := ha.pos
  have hD := hd.pos
  have sum : 0 < a.value + d.value := add_pos hA hD
  constructor
  · rw [le_div_iff₀ sum]
    have left := mul_le_mul_of_nonneg_left hd.low hA.le
    have right := mul_le_mul_of_nonneg_left ha.low hD.le
    linarith
  · rw [div_le_iff₀ sum]
    have left := mul_le_mul_of_nonneg_left hd.high hA.le
    have right := mul_le_mul_of_nonneg_left ha.high hD.le
    linarith

/-- The exact reachable square of a move of one to `2 ^ 60` steps at moderate rates is from
`2 ^ -30` to `2 ^ 90`. -/
theorem reachSquare_between (ha : ModerateRate a) (hd : ModerateRate d) (moving : 1 ≤ n)
    (far : n ≤ 2 ^ 60) :
    (2 : ℚ) ^ (-30 : Int) ≤ reachSquare n a.value d.value ∧
      reachSquare n a.value d.value ≤ 2 ^ (90 : Int) := by
  obtain ⟨low, high⟩ := harmonic_between ha hd
  have hn : (1 : ℚ) ≤ n := by exact_mod_cast moving
  have hn' : (n : ℚ) ≤ 2 ^ 60 := by exact_mod_cast far
  have split : reachSquare n a.value d.value =
      2 * a.value * d.value / (a.value + d.value) * n := by
    unfold reachSquare
    ring
  rw [split]
  constructor
  · exact low.trans (le_mul_of_one_le_right ((zpow_pos two_pos _).le.trans low) hn)
  · calc 2 * a.value * d.value / (a.value + d.value) * n ≤ 2 ^ (30 : Int) * 2 ^ 60 :=
          mul_le_mul high hn' (by positivity) (by positivity)
      _ = 2 ^ (90 : Int) := by norm_num

/-- The exact braking distance from the reachable speed, `A·n / (A + D)`, is from `2 ^ -61` to
`2 ^ 60` steps. -/
theorem braking_between (ha : ModerateRate a) (hd : ModerateRate d) (moving : 1 ≤ n)
    (far : n ≤ 2 ^ 60) :
    (2 : ℚ) ^ (-61 : Int) ≤ reachSquare n a.value d.value / (2 * d.value) ∧
      reachSquare n a.value d.value / (2 * d.value) ≤ 2 ^ (60 : Int) := by
  have hA := ha.pos
  have hD := hd.pos
  have sum : 0 < a.value + d.value := add_pos hA hD
  have hn : (1 : ℚ) ≤ n := by exact_mod_cast moving
  have hn' : (n : ℚ) ≤ 2 ^ 60 := by exact_mod_cast far
  have split : reachSquare n a.value d.value / (2 * d.value) =
      a.value / (a.value + d.value) * n := by
    unfold reachSquare
    field_simp
  -- the share `A / (A + D)` is below one, and at least `2 ^ -30 / 2 ^ 31`
  have shareLow : (2 : ℚ) ^ (-61 : Int) ≤ a.value / (a.value + d.value) := by
    rw [le_div_iff₀ sum]
    have sumHigh : a.value + d.value ≤ 2 ^ (31 : Int) := by
      have := add_le_add ha.high hd.high
      rw [← two_mul, show (2 : ℚ) * 2 ^ (30 : Int) = 2 ^ (31 : Int) by norm_num] at this
      exact this
    calc (2 : ℚ) ^ (-61 : Int) * (a.value + d.value) ≤ 2 ^ (-61 : Int) * 2 ^ (31 : Int) :=
          mul_le_mul_of_nonneg_left sumHigh (by positivity)
      _ = 2 ^ (-30 : Int) := by norm_num
      _ ≤ a.value := ha.low
  have shareHigh : a.value / (a.value + d.value) ≤ 1 := by
    rw [div_le_one sum]
    linarith
  rw [split]
  constructor
  · exact shareLow.trans (le_mul_of_one_le_right ((zpow_pos two_pos _).le.trans shareLow) hn)
  · calc a.value / (a.value + d.value) * n ≤ 1 * 2 ^ 60 :=
          mul_le_mul shareHigh hn' (by positivity) zero_le_one
      _ = 2 ^ (60 : Int) := by norm_num

end Magnitudes

/-! ## The error of the reachable speed and of the braking distance -/

section Error

variable {a d : Binary32} {n : Nat}

theorem two_approx : Approx (2 : Binary32) 2 1 := by
  have two := approx_ofNat (n := 2) (by norm_num) (by norm_num)
  rw [Nat.cast_ofNat] at two
  exact two

/-- Twice a moderate rate is within two roundings of twice its value. -/
theorem two_mul_approx (ha : ModerateRate a) : Approx (2 * a) (2 * a.value) 2 := by
  apply two_approx.mul (approx_self ha.positive) (by norm_num)
  · calc (2 : ℚ) ^ (-125 : Int) ≤ 2 * 2 ^ (-30 : Int) := by norm_num
      _ ≤ 2 * a.value := by linarith [ha.low]
  · calc 2 * a.value ≤ 2 * 2 ^ (30 : Int) := by linarith [ha.high]
      _ ≤ 2 ^ (126 : Int) := by norm_num

/-- The operand of the root in `reachable` is within seven roundings of `reachSquare`: three
products, a sum and a quotient, each rounded once, over the rounded step count. -/
theorem radicand_approx (ha : ModerateRate a) (hd : ModerateRate d) (moving : 1 ≤ n)
    (far : n ≤ 2 ^ 60) :
    Approx (2 * a * d * ofNat n / (a + d)) (reachSquare n a.value d.value) 7 := by
  have hA := ha.pos
  have hD := hd.pos
  have hn : (1 : ℚ) ≤ n := by exact_mod_cast moving
  have hn' : (n : ℚ) ≤ 2 ^ 60 := by exact_mod_cast far
  have productLow : (2 : ℚ) ^ (-60 : Int) ≤ a.value * d.value :=
    calc (2 : ℚ) ^ (-60 : Int) = 2 ^ (-30 : Int) * 2 ^ (-30 : Int) := by norm_num
      _ ≤ a.value * d.value := mul_le_mul ha.low hd.low (by positivity) hA.le
  have productHigh : a.value * d.value ≤ 2 ^ (60 : Int) :=
    calc a.value * d.value ≤ 2 ^ (30 : Int) * 2 ^ (30 : Int) :=
          mul_le_mul ha.high hd.high hD.le (by positivity)
      _ = 2 ^ (60 : Int) := by norm_num
  have scaledLow : a.value * d.value ≤ a.value * d.value * n :=
    le_mul_of_one_le_right (mul_pos hA hD).le hn
  have scaledHigh : a.value * d.value * n ≤ 2 ^ (60 : Int) * 2 ^ 60 :=
    mul_le_mul productHigh hn' (by positivity) (by positivity)
  have tiny : (2 : ℚ) ^ (-125 : Int) ≤ 2 * 2 ^ (-60 : Int) := by norm_num
  have huge : (2 : ℚ) * (2 ^ (60 : Int) * 2 ^ 60) ≤ 2 ^ (126 : Int) := by norm_num
  have twoAD : Approx (2 * a * d) (2 * a.value * d.value) 3 :=
    (two_mul_approx ha).mul (approx_self hd.positive) (by norm_num)
      (by linarith) (by linarith)
  have numerator : Approx (2 * a * d * ofNat n) (2 * a.value * d.value * n) 5 :=
    twoAD.mul (approx_ofNat moving (hn'.trans (by norm_num))) (by norm_num)
      (by linarith) (by linarith)
  have denominator : Approx (a + d) (a.value + d.value) 1 := by
    have sum := (approx_self ha.positive).add (approx_self hd.positive) (by norm_num)
      (by linarith [ha.low, show (2 : ℚ) ^ (-125 : Int) ≤ 2 ^ (-30 : Int) by norm_num])
      (by linarith [ha.high, hd.high, show (2 : ℚ) * 2 ^ (30 : Int) ≤ 2 ^ (126 : Int) by norm_num])
    simpa using sum
  obtain ⟨low, high⟩ := reachSquare_between ha hd moving far
  exact numerator.div denominator (add_pos hA hD) (by norm_num)
    ((show (2 : ℚ) ^ (-125 : Int) ≤ 2 ^ (-30 : Int) by norm_num).trans low)
    (high.trans (by norm_num))

/-- The reachable speed squares to within ten roundings of `reachSquare`: seven for its
operand, three for the root. -/
theorem reachable_squareApprox (ha : ModerateRate a) (hd : ModerateRate d) (moving : 1 ≤ n)
    (far : n ≤ 2 ^ 60) : SquareApprox (reachable n a d) (reachSquare n a.value d.value) 10 := by
  obtain ⟨low, high⟩ := reachSquare_between ha hd moving far
  exact (radicand_approx ha hd moving far).sqrt (by norm_num)
    ((show (2 : ℚ) ^ (-240 : Int) ≤ 2 ^ (-30 : Int) by norm_num).trans low)
    (high.trans (by norm_num))

/-- Braking from the reachable speed takes within fourteen roundings of `reachSquare / 2D`
steps, before the rounding to a count. -/
theorem braking_approx_reachable (ha : ModerateRate a) (hd : ModerateRate d) (moving : 1 ≤ n)
    (far : n ≤ 2 ^ 60) :
    Approx (reachable n a d * reachable n a d / (2 * d))
      (reachSquare n a.value d.value / (2 * d.value)) 14 := by
  obtain ⟨low, high⟩ := reachSquare_between ha hd moving far
  obtain ⟨brakeLow, brakeHigh⟩ := braking_between ha hd moving far
  have squared := (reachable_squareApprox ha hd moving far).mul_self (by norm_num)
    ((show (2 : ℚ) ^ (-125 : Int) ≤ 2 ^ (-30 : Int) by norm_num).trans low)
    (high.trans (by norm_num))
  exact squared.div (two_mul_approx hd) (mul_pos two_pos hd.pos) (by norm_num)
    ((show (2 : ℚ) ^ (-125 : Int) ≤ 2 ^ (-61 : Int) by norm_num).trans brakeLow)
    (brakeHigh.trans (by norm_num))

/-- Braking from a speed at most the reachable one takes at most fourteen roundings above
`reachSquare / 2D` steps. The speed may be arbitrarily small, so only this upper bound holds. -/
theorem braking_below_of_le {speed : Binary32} {m : Nat} {q : Int} (hs : speed = finite false m q)
    (ha : ModerateRate a) (hd : ModerateRate d) (moving : 1 ≤ n) (far : n ≤ 2 ^ 60)
    (below : speed.value ≤ (reachable n a d).value) :
    Below (speed * speed / (2 * d)) (reachSquare n a.value d.value / (2 * d.value)) 14 := by
  obtain ⟨low, high⟩ := reachSquare_between ha hd moving far
  obtain ⟨brakeLow, brakeHigh⟩ := braking_between ha hd moving far
  have squared : Below (speed * speed) (reachSquare n a.value d.value) 11 :=
    Below.mul_self_of_le hs (reachable_squareApprox ha hd moving far) below
      (by norm_num) ((show (2 : ℚ) ^ (-126 : Int) ≤ 2 ^ (-30 : Int) by norm_num).trans low)
      (high.trans (by norm_num))
  -- named before use: matching `Below.div` against the goal directly unfolds `Below` and is slow
  have braked := squared.div (two_mul_approx hd) ((zpow_pos two_pos _).le.trans low)
    (mul_pos two_pos hd.pos) (by norm_num)
    ((show (2 : ℚ) ^ (-126 : Int) ≤ 2 ^ (-61 : Int) by norm_num).trans brakeLow)
    (brakeHigh.trans (by norm_num))
  exact braked

/-- A braking distance at most fourteen roundings above `2 ^ 60` steps is at most `2 ^ 61`
steps once rounded to a count. -/
theorem toUInt64_le_of_below {y : Binary32} {X : ℚ} (hy : Below y X 14) (hX : X ≤ 2 ^ (60 : Int)) :
    (roundHalfAway y).toUInt64 ≤ 2 ^ 61 := by
  obtain ⟨m, q, rfl, bound⟩ := hy
  apply toUInt64_roundHalfAway_le (by norm_num)
  calc (finite false m q : Binary32).value ≤ X * (1 + roundoff) ^ 14 := bound
    _ ≤ 2 ^ (60 : Int) * 2 := mul_le_mul hX (growth_le_two (by norm_num)) (growth_pos 14).le
        (by positivity)
    _ = 2 ^ 61 := by norm_num

/-- The braking distance at the speed `plan` cruises at is at most `2 ^ 61` steps, whatever
speed is asked for: far from overflowing when doubled. -/
theorem brakingSteps_cruiseOf_le {speed : Binary32} (hs : usable speed = true)
    (ha : ModerateRate a) (hd : ModerateRate d) (moving : 1 ≤ n) (far : n ≤ 2 ^ 60) :
    brakingSteps (cruiseOf n speed a d) d ≤ 2 ^ 61 := by
  obtain ⟨-, brakeHigh⟩ := braking_between ha hd moving far
  obtain ⟨mc, qc, reached, -⟩ := reachable_squareApprox ha hd moving far
  unfold brakingSteps cruiseOf
  split_ifs with faster
  · exact toUInt64_le_of_below (braking_approx_reachable ha hd moving far).below brakeHigh
  -- a speed the reachable one is not below is finite, and at most the reachable speed
  rcases positive_cases hs with ⟨m, q, -, rfl⟩ | rfl
  · have below := value_le_of_lt_eq_false rfl reached (Bool.eq_false_iff.mpr faster)
    exact toUInt64_le_of_below (braking_below_of_le rfl ha hd moving far below) brakeHigh
  · rw [reached] at faster
    simp [lt, compare?] at faster

end Error

/-! ## What a move at moderate rates cruises at -/

/-- A move of one to `2 ^ 60` steps at a finite positive speed and moderate rates is planned
without overflow. Its cruise speed squared is never above the exact reachable square
`2·a·d·n / (a + d)` by more than ten roundings, and a requested speed whose square is above
that is always lowered. -/
theorem plan_within_reach {steps : Int} {speed acceleration deceleration : Binary32}
    (moving : 1 ≤ steps.natAbs) (far : steps.natAbs ≤ 2 ^ 60) (hs : speed.PositiveFinite)
    (ha : ModerateRate acceleration) (hd : ModerateRate deceleration) :
    ∃ p, plan steps speed acceleration deceleration = .ok p ∧
      p.cruiseSpeed.value ^ 2 ≤
        reachSquare steps.natAbs acceleration.value deceleration.value * (1 + roundoff) ^ 10 ∧
      (reachSquare steps.natAbs acceleration.value deceleration.value * (1 + roundoff) ^ 10 <
        speed.value ^ 2 → p.speedClamped = true) := by
  have usable := usable_of_positiveFinite hs
  have braking := brakingSteps_cruiseOf_le usable ha hd moving far
  obtain ⟨p, planned, clamped, cruise, -⟩ := plan_eq_ok_of_room
    (show steps.natAbs ≠ 0 by omega) usable ha.usable hd.usable (by unfold Word.uint64Max; omega)
  obtain ⟨mc, qc, reached, near⟩ := reachable_squareApprox ha hd moving far
  obtain ⟨ms, qs, -, rfl, -⟩ := hs
  refine ⟨p, planned, ?_, fun above => ?_⟩
  · rw [cruise, cruiseOf]
    split_ifs with faster
    · exact near.high
    -- the requested speed is at most the reachable one
    · have below := value_le_of_lt_eq_false rfl reached (Bool.eq_false_iff.mpr faster)
      exact (pow_le_pow_left₀ (value_nonneg ms qs) below 2).trans near.high
  · rw [clamped, reached, lt_finite, decide_eq_true_eq]
    have squares := (reached ▸ near.high).trans_lt above
    exact lt_of_pow_lt_pow_left₀ 2 (value_nonneg ms qs) squares

/-- A rate of 100 steps/s² is moderate. -/
theorem moderateRate_hundred : ModerateRate (100 : Binary32) := by
  have hundred : (100 : Binary32) = finite false 13107200 (-17) := by decide
  refine ⟨⟨13107200, -17, by decide, hundred, by decide⟩, ?_, ?_⟩ <;>
    rw [hundred, value_finite] <;> norm_num

/-- Planning a hundred steps at 1000 steps/s with rates of 100 steps/s². -/
theorem plan_within_reach_hundred_steps :
    1 ≤ (100 : Int).natAbs ∧ (100 : Int).natAbs ≤ 2 ^ 60 ∧ (1000 : Binary32).PositiveFinite ∧
      ModerateRate (100 : Binary32) ∧
      ∃ p, plan 100 1000 100 100 = .ok p ∧
        p.cruiseSpeed.value ^ 2 ≤
          reachSquare 100 (100 : Binary32).value (100 : Binary32).value * (1 + roundoff) ^ 10 ∧
        (reachSquare 100 (100 : Binary32).value (100 : Binary32).value * (1 + roundoff) ^ 10 <
          (1000 : Binary32).value ^ 2 → p.speedClamped = true) := by
  have speed : (1000 : Binary32).PositiveFinite := ⟨16384000, -14, by decide, by decide, by decide⟩
  exact ⟨by decide, by decide, speed, moderateRate_hundred,
    plan_within_reach (by decide) (by decide) speed moderateRate_hundred moderateRate_hundred⟩

/-- At `10 ^ 20` steps/s² the product `2·a·d` overflows to `+∞`, the requested speed of
`10 ^ 20` steps/s is kept, and doubling the saturated stop margin traps. -/
theorem plan_traps_at_large_rates :
    (100000000000000000000 : Binary32) = finite false 11368684 43 ∧
      plan 100 100000000000000000000 100000000000000000000 100000000000000000000 =
        .error .multiply :=
  ⟨by decide, rfl⟩

/-! ## Symmetric moves split evenly -/

/-- Fourteen roundings move a value of at most `2 ^ 19` down by at most half a unit. -/
theorem sub_half_le_div_growth {x : ℚ} (small : x ≤ 2 ^ 19) :
    x - 1 / 2 ≤ x / (1 + roundoff) ^ 14 := by
  rw [le_div_iff₀ (growth_pos 14)]
  rcases le_or_gt (1 / 2) x with big | tiny
  · have growth : (1 + roundoff) ^ 14 ≤ 1 + 2 ^ (-20 : Int) := by
      unfold roundoff
      norm_num
    calc (x - 1 / 2) * (1 + roundoff) ^ 14 ≤ (x - 1 / 2) * (1 + 2 ^ (-20 : Int)) :=
          mul_le_mul_of_nonneg_left growth (by linarith)
      _ ≤ x := by
          rw [mul_one_add, show (2 : ℚ) ^ (-20 : Int) = 1 / 2 ^ 20 by norm_num]
          linarith
  · have shrunk := mul_le_mul_of_nonpos_left (one_le_growth 14) (by linarith : x - 1 / 2 ≤ 0)
    linarith

/-- Braking from the reachable speed of a symmetric move of at most `2 ^ 20` steps takes at
least half the move, rounded down: fourteen roundings lose less than half a step there. -/
theorem half_le_brakingSteps_reachable {a : Binary32} {n : Nat} (ha : ModerateRate a)
    (moving : 1 ≤ n) (short : n ≤ 2 ^ 20) : n / 2 ≤ brakingSteps (reachable n a a) a := by
  obtain ⟨m, q, braked, near⟩ := braking_approx_reachable ha ha moving (short.trans (by norm_num))
  have half : reachSquare n a.value a.value / (2 * a.value) = n / 2 := by
    have := ha.pos
    unfold reachSquare
    field_simp
    ring
  rw [half] at near
  unfold brakingSteps
  rw [braked]
  apply le_toUInt64_roundHalfAway (by omega)
  have floor : ((n / 2 : Nat) : ℚ) ≤ n / 2 := Nat.cast_div_le
  have small : (n : ℚ) / 2 ≤ 2 ^ 19 := by
    have : (n : ℚ) ≤ 2 ^ 20 := by exact_mod_cast short
    linarith
  calc ((n / 2 : Nat) : ℚ) - 1 / 2 ≤ n / 2 - 1 / 2 := by linarith
    _ ≤ n / 2 / (1 + roundoff) ^ 14 := sub_half_le_div_growth small
    _ ≤ (finite false m q : Binary32).value := braked ▸ near.low

/-- A move brakes over at most half of its distance, whatever its deceleration; and a symmetric
move of one to `2 ^ 20` steps at a moderate rate, when the distance limits its speed, brakes over
exactly half of it, rounded down. -/
theorem stopMargin_halves (steps : Int) (speed acceleration : Binary32) :
    (∀ (deceleration : Binary32) (p : Profile),
      plan steps speed acceleration deceleration = .ok p → p.stopMargin * 2 ≤ steps.natAbs) ∧
    (1 ≤ steps.natAbs → steps.natAbs ≤ 2 ^ 20 → ModerateRate acceleration →
      ∃ p, symmetric steps speed acceleration = .ok p ∧
        (p.speedClamped = true → p.stopMargin = steps.natAbs / 2)) := by
  refine ⟨fun _ _ h => plan_stopMargin_mul_two_le h, fun moving short ha => ?_⟩
  cases hs : usable speed
  · exact ⟨_, plan_of_not_usable hs, fun clamped => by cases clamped⟩
  have braking := brakingSteps_cruiseOf_le hs ha ha moving (short.trans (by norm_num))
  obtain ⟨p, planned, clamped, cruise, margin⟩ := plan_eq_ok_of_room
    (show steps.natAbs ≠ 0 by omega) hs ha.usable ha.usable (by unfold Word.uint64Max; omega)
  refine ⟨p, planned, fun faster => ?_⟩
  rw [clamped] at faster
  have half : steps.natAbs / 2 ≤ brakingSteps p.cruiseSpeed acceleration := by
    rw [cruise, cruiseOf, if_pos faster]
    exact half_le_brakingSteps_reachable ha moving short
  -- a margin of at least half the move is cut to half; one of exactly `⌊n / 2⌋` is kept
  rw [margin]
  split_ifs <;> omega

/-- A symmetric move of 40 steps at 1000 steps/s and 100 steps/s², limited by its distance, is
split evenly: it brakes over 20 steps. -/
theorem symmetric_forty_splits_evenly :
    1 ≤ (40 : Int).natAbs ∧ (40 : Int).natAbs ≤ 2 ^ 20 ∧ ModerateRate (100 : Binary32) ∧
      ∃ p, symmetric 40 1000 100 = .ok p ∧ p.speedClamped = true ∧ p.stopMargin = 20 := by
  obtain ⟨p, planned, half⟩ :=
    (stopMargin_halves 40 1000 100).2 (by decide) (by decide) moderateRate_hundred
  have clamped : p.speedClamped = true := by
    have run : (symmetric 40 1000 100).toOption.map (fun p => p.speedClamped) = some true := by
      decide +kernel
    simpa only [planned, Except.toOption, Option.map_some, Option.some.injEq] using run
  exact ⟨by decide, by decide, moderateRate_hundred, p, planned, clamped, half clamped⟩

/-- A symmetric move of `10 ^ 9 + 1` steps at `10 ^ 9` steps/s and 100 steps/s² is limited by
its distance, yet brakes over 64 steps less than half of it: the rounded braking distance falls
below half the move, and the halving does not apply. -/
theorem symmetric_split_misses_half :
    ∃ p, symmetric 1000000001 1000000000 100 = .ok p ∧ p.speedClamped = true ∧
      p.stopMargin + 64 = (1000000001 : Int).natAbs / 2 := by
  have run : (symmetric 1000000001 1000000000 100).toOption.map
      (fun p => (p.speedClamped, p.stopMargin)) = some (true, 499999936) := by
    decide +kernel
  cases planned : symmetric 1000000001 1000000000 100 with
  | error e => simp [planned, Except.toOption] at run
  | ok p =>
    simp only [planned, Except.toOption, Option.map_some, Option.some.injEq, Prod.mk.injEq] at run
    exact ⟨p, rfl, run.1, by rw [run.2]; decide⟩

/-! ## Triangular profiles -/

section Triangle

variable {steps : Int} {speed acceleration deceleration : Binary32} {p : Profile}

/-- A planned move of some steps at usable rates covers the whole distance, and brakes over
half of it exactly when twice its braking distance reaches it. -/
theorem plan_moving_margin (h : plan steps speed acceleration deceleration = .ok p)
    (moving : steps.natAbs ≠ 0) (hs : usable speed = true) (ha : usable acceleration = true)
    (hd : usable deceleration = true) :
    p.totalSteps = steps.natAbs ∧
      p.stopMargin =
        if steps.natAbs ≤
            brakingSteps (cruiseOf steps.natAbs speed acceleration deceleration) deceleration * 2
        then steps.natAbs / 2
        else brakingSteps (cruiseOf steps.natAbs speed acceleration deceleration) deceleration := by
  unfold plan at h
  simp only [moving, hs, ha, hd, decide_false, Bool.not_true, Bool.or_false, Bool.false_eq_true,
    if_false] at h
  obtain ⟨doubled, hdoubled, planned⟩ := bind_eq_ok.mp h
  obtain ⟨-, rfl⟩ := Word.mulUInt64_eq_ok.mp hdoubled
  cases planned
  exact ⟨rfl, rfl⟩

/-- A planned move at usable rates is triangular exactly when the planner split it in two and
the split is even: an odd move brakes over `⌊n / 2⌋` steps, and twice that falls one step short
of the move. -/
theorem isTriangular_iff_even_split (moving : steps ≠ 0) (hs : usable speed = true)
    (ha : usable acceleration = true) (hd : usable deceleration = true)
    (h : plan steps speed acceleration deceleration = .ok p) :
    p.isTriangular = true ↔
      steps.natAbs ≤
          brakingSteps (cruiseOf steps.natAbs speed acceleration deceleration) deceleration * 2 ∧
        steps.natAbs % 2 = 0 := by
  obtain ⟨total, margin⟩ := plan_moving_margin h (Int.natAbs_ne_zero.mpr moving) hs ha hd
  simp only [isTriangular, isZero, total, margin, Bool.and_eq_true, Bool.not_eq_eq_eq_not,
    Bool.not_true, beq_eq_false_iff_ne, ne_eq, decide_eq_true_eq]
  split_ifs <;> omega

/-- A move of three steps at 10 steps/s, 10 steps/s² each way is split in two, one step braking,
and is not triangular. -/
theorem threeSteps_split_not_triangular :
    ∃ p, plan 3 10 10 10 = .ok p ∧
      (p.isTriangular = true ↔
        (3 : Int).natAbs ≤ brakingSteps (cruiseOf (3 : Int).natAbs 10 10 10) 10 * 2 ∧
          (3 : Int).natAbs % 2 = 0) := by
  have run : (plan 3 10 10 10).toOption.isSome = true := by decide +kernel
  cases planned : plan 3 10 10 10 with
  | error e => simp [planned, Except.toOption] at run
  | ok p =>
    exact ⟨p, rfl, isTriangular_iff_even_split (by decide) (by decide +kernel) (by decide +kernel)
      (by decide +kernel) planned⟩

/-- The planner splits a move of three steps at 10 steps/s, 10 steps/s² each way, since twice
its braking distance of two steps reaches the move, yet the profile does not count as
triangular: it brakes over one step. -/
theorem oddSplit_not_triangular :
    ∃ p, plan 3 10 10 10 = .ok p ∧ brakingSteps (cruiseOf 3 10 10 10) 10 = 2 ∧
      p.stopMargin = 1 ∧ p.isTriangular = false := by
  have run : (plan 3 10 10 10).toOption.map (fun p => (p.stopMargin, p.isTriangular)) =
      some (1, false) := by
    decide +kernel
  have braking : brakingSteps (cruiseOf 3 10 10 10) 10 = 2 := by decide +kernel
  cases planned : plan 3 10 10 10 with
  | error e => simp [planned, Except.toOption] at run
  | ok p =>
    simp only [planned, Except.toOption, Option.map_some, Option.some.injEq, Prod.mk.injEq] at run
    exact ⟨p, rfl, braking, run.1, run.2⟩

end Triangle

end Profile

end StepperDrive
