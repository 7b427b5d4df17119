import StepperDrive.Binary.Convert
import StepperDrive.Proofs.Binary.Operations
import StepperDrive.Word
/-!
# The error of rounding

Rounding to nearest moves a value by at most half a quantum (`Format.significand_near`). In the
normal range the quantum is at most `2 ^ (1 - precision)` times the value, so a rounded positive
value is within a factor `1 + 2 ^ -precision` of the exact one, either way
(`Format.round_bounds_of_normal`): the standard model of floating-point error. Below the normal
range a rounded value never exceeds the least normal value (`Format.round_le_of_subnormal`), and a
value at most the largest finite one does not overflow (`Format.round_finite_of_le`).

In single precision the factor is `1 + 2 ^ -24` (`Binary.roundoff`), and a value `k` such
factors from an exact rational is `Within` `k` roundings of it; errors compound by adding
levels (`Within.trans`, `.mul`, `.div`, `.add`). `Binary.Approx x X k` says a computed value is
within `k` roundings of `X`, and each operation well inside the normal range adds one
(`Approx.mul`, `.div`, `.add`); a root is stated on its square (`Approx.sqrt`, three more). A
value that may fall below the normal range keeps only the bound from above (`Binary.Below`).
Rounding half away from zero and truncating to a count keeps every count the value reaches
within half a unit (`le_toUInt64_roundHalfAway`) and every power of two above it
(`toUInt64_roundHalfAway_le`).
-/

namespace StepperDrive

set_option autoImplicit false

/-- The nearest natural to `a / b` is within half a unit of it. -/
theorem divRoundEven_near (a b : Nat) (hb : 0 < b) :
    2 * (divRoundEven a b * b) ≤ 2 * a + b ∧ 2 * a ≤ 2 * (divRoundEven a b * b) + b := by
  have parts := Nat.div_add_mod a b
  have small := Nat.mod_lt a hb
  have same : a / b * b = b * (a / b) := Nat.mul_comm _ _
  have up : (a / b + 1) * b = b * (a / b) + b := by rw [Nat.add_mul, Nat.one_mul, same]
  unfold divRoundEven
  dsimp only
  split_ifs <;> simp only [up, same] <;> omega

namespace Format

variable {f : Format} {num den : Nat} {scale : Int}

/-- The significand, at the quantum, is within half a quantum of the exact value. -/
theorem significand_near (num : Nat) (hden : den ≠ 0) (scale : Int) :
    |(f.significand num den scale : ℚ) * 2 ^ f.quantum num den scale - num / den * 2 ^ scale| ≤
      2 ^ f.quantum num den scale / 2 := by
  obtain ⟨a, b, hb, ratio, eq⟩ := significand_spec (f := f) hden scale
  obtain ⟨below, above⟩ := divRoundEven_near a b hb
  have unit : (0 : ℚ) < 2 ^ f.quantum num den scale := zpow_pos two_pos _
  have hb' : (0 : ℚ) < b := by exact_mod_cast hb
  -- in quanta, the nearest natural is within a half of `a / b`
  have near : |(divRoundEven a b : ℚ) - a / b| ≤ 1 / 2 := by
    have below' : 2 * ((divRoundEven a b : ℚ) * b) ≤ 2 * a + b := by exact_mod_cast below
    have above' : 2 * (a : ℚ) ≤ 2 * ((divRoundEven a b : ℚ) * b) + b := by exact_mod_cast above
    have key : (divRoundEven a b : ℚ) - a / b = (2 * ((divRoundEven a b : ℚ) * b) - 2 * a) / (2 * b) := by
      field_simp
    have half : (1 : ℚ) / 2 * (2 * b) = b := by ring
    rw [key, abs_div, abs_of_pos (show (0 : ℚ) < 2 * b by positivity), div_le_iff₀ (by positivity),
      half, abs_le]
    constructor <;> linarith only [below', above']
  have exact : (num : ℚ) / den * 2 ^ scale = a / b * 2 ^ f.quantum num den scale := by
    rw [ratio, div_mul_cancel₀ _ unit.ne']
  rw [eq, exact, ← sub_mul, abs_mul, abs_of_pos unit]
  calc |(divRoundEven a b : ℚ) - a / b| * 2 ^ f.quantum num den scale
      ≤ 1 / 2 * 2 ^ f.quantum num den scale := mul_le_mul_of_nonneg_right near unit.le
    _ = 2 ^ f.quantum num den scale / 2 := by ring

/-- A rounded value that did not overflow is the significand at the quantum, carried or not. -/
theorem round_value (hp : 0 < f.precision) (hnum : num ≠ 0) (hden : den ≠ 0) {m : Nat} {e : Int}
    (h : f.round false num den scale = .finite false m e) :
    (m : ℚ) * 2 ^ e = f.significand num den scale * 2 ^ f.quantum num den scale := by
  rw [f.round_eq hnum hden] at h
  unfold pack at h
  split_ifs at h with carry
  · cases h
    have value := carry_value (f := f) hp false (f.quantum num den scale)
    rw [Nat.pow_eq] at carry
    simpa [carry] using value
  · cases h
    rfl

/-- In the normal range the quantum is the last of `precision` bits below the leading one. -/
theorem quantum_of_normal (hnum : num ≠ 0) (hden : den ≠ 0)
    (normal : (2 : ℚ) ^ (f.qmin + f.precision - 1) ≤ num / den * 2 ^ scale) :
    f.quantum num den scale = leadExponent num den + scale + 1 - f.precision := by
  have high := (value_bounds hnum hden scale).2
  have lead : f.qmin + f.precision - 1 < leadExponent num den + scale + 1 :=
    (zpow_lt_zpow_iff_right₀ one_lt_two).mp (normal.trans_lt high)
  unfold quantum
  omega

/-- In the normal range, rounding to nearest that does not overflow keeps a positive value
within a factor `1 + 2 ^ -precision` either way: the significand has all `precision` bits, so
half a quantum is at most `2 ^ -precision` of it. -/
theorem round_bounds_of_normal (hp : 0 < f.precision) (hnum : num ≠ 0) (hden : den ≠ 0)
    (normal : (2 : ℚ) ^ (f.qmin + f.precision - 1) ≤ num / den * 2 ^ scale) {m : Nat} {e : Int}
    (h : f.round false num den scale = .finite false m e) :
    (num : ℚ) / den * 2 ^ scale / (1 + 2 ^ (-(f.precision : Int))) ≤ m * 2 ^ e ∧
      (m : ℚ) * 2 ^ e ≤ num / den * 2 ^ scale * (1 + 2 ^ (-(f.precision : Int))) := by
  have quantum := quantum_of_normal hnum hden normal
  have unit : (0 : ℚ) < 2 ^ f.quantum num den scale := zpow_pos two_pos _
  have ulp : (0 : ℚ) < 2 ^ (-(f.precision : Int)) := zpow_pos two_pos _
  have cast : ((2 ^ (f.precision - 1) : Nat) : ℚ) = 2 ^ ((f.precision : Int) - 1) := by
    rw [two_zpow_natCast]
    congr 1
    omega
  -- the leading bit: `2 ^ (precision - 1)` quanta are at most the value
  have top : (2 : ℚ) ^ ((f.precision : Int) - 1) * 2 ^ f.quantum num den scale ≤
      num / den * 2 ^ scale := by
    rw [← zpow_add₀ two_ne_zero, quantum,
      show (f.precision : Int) - 1 + (leadExponent num den + scale + 1 - f.precision) =
        leadExponent num den + scale by ring]
    exact (value_bounds hnum hden scale).1
  have bits : 2 ^ (f.precision - 1) ≤ f.significand num den scale := by
    apply le_significand hden
    rw [cast]
    exact top
  have full : (2 : ℚ) ^ ((f.precision : Int) - 1) ≤ f.significand num den scale := by
    rw [← cast]
    exact_mod_cast bits
  -- so half a quantum is at most `2 ^ -precision` of the significand, and of the value
  have half : (2 : ℚ) ^ f.quantum num den scale / 2 =
      2 ^ ((f.precision : Int) - 1) * 2 ^ f.quantum num den scale * 2 ^ (-(f.precision : Int)) := by
    rw [mul_right_comm, ← zpow_add₀ two_ne_zero,
      show (f.precision : Int) - 1 + -(f.precision : Int) = -1 by ring, zpow_neg_one]
    ring
  have ofSignificand : (2 : ℚ) ^ f.quantum num den scale / 2 ≤
      f.significand num den scale * 2 ^ f.quantum num den scale * 2 ^ (-(f.precision : Int)) := by
    rw [half]
    exact mul_le_mul_of_nonneg_right (mul_le_mul_of_nonneg_right full unit.le) ulp.le
  have ofValue : (2 : ℚ) ^ f.quantum num den scale / 2 ≤
      num / den * 2 ^ scale * 2 ^ (-(f.precision : Int)) := by
    rw [half]
    exact mul_le_mul_of_nonneg_right top ulp.le
  have near := abs_le.mp (significand_near (f := f) num hden scale)
  rw [round_value hp hnum hden h]
  constructor
  · rw [div_le_iff₀ (by positivity), mul_one_add]
    linarith [near.1]
  · rw [mul_one_add]
    linarith [near.2]

/-- A positive value below the normal range rounds to at most the least normal value. -/
theorem round_le_of_subnormal (hp : 0 < f.precision) (he : 0 < f.emax) (hnum : num ≠ 0)
    (hden : den ≠ 0) (small : (num : ℚ) / den * 2 ^ scale ≤ 2 ^ (f.qmin + f.precision - 1)) :
    Binary.le (f.round false num den scale) (.finite false (2 ^ (f.precision - 1)) f.qmin) = true := by
  apply round_le_of_le hp hnum hden
  · refine ⟨Nat.pow_lt_pow_right (by decide) (by omega), le_rfl, ?_⟩
    unfold qmin qmax
    omega
  · rw [Binary.value_finite, if_neg Bool.false_ne_true, Nat.cast_pow, Nat.cast_ofNat,
      ← zpow_natCast, ← zpow_add₀ two_ne_zero, Nat.cast_sub hp]
    convert small using 2
    push_cast
    ring

/-- A positive value at most the largest finite value does not overflow. -/
theorem round_finite_of_le (hp : 0 < f.precision) (he : 0 < f.emax) (hnum : num ≠ 0)
    (hden : den ≠ 0) (small : (num : ℚ) / den * 2 ^ scale ≤ ((2 ^ f.precision - 1 : Nat) : ℚ) * 2 ^ f.qmax) :
    ∃ m e, f.round false num den scale = .finite false m e := by
  have fits : (Binary.finite false (2 ^ f.precision - 1) f.qmax : Binary f).Fits := by
    refine ⟨by have := Nat.two_pow_pos f.precision; omega, ?_, le_rfl⟩
    unfold qmin qmax
    omega
  have bounded := round_le_of_le hp hnum hden fits (by simpa using small)
  have sign := round_nonneg (f := f) num den scale
  cases rounded : f.round false num den scale with
  | nan => rw [rounded] at bounded; simp at bounded
  | inf s =>
    rw [rounded] at bounded sign
    cases s
    · simp [Binary.le, Binary.compare?] at bounded
    · cases sign
  | finite s m e =>
    rw [rounded] at sign
    cases s
    · exact ⟨m, e, rfl⟩
    · cases sign

end Format

namespace Binary

/-- The relative error of one single-precision rounding in the normal range, `2 ^ -24`. -/
def roundoff : ℚ := 2 ^ (-24 : Int)

theorem roundoff_pos : 0 < roundoff := zpow_pos two_pos _

theorem one_le_growth (k : Nat) : 1 ≤ (1 + roundoff) ^ k :=
  one_le_pow₀ (by linarith [roundoff_pos])

theorem growth_pos (k : Nat) : 0 < (1 + roundoff) ^ k :=
  zero_lt_one.trans_le (one_le_growth k)

theorem growth_mono {i j : Nat} (h : i ≤ j) : (1 + roundoff) ^ i ≤ (1 + roundoff) ^ j :=
  pow_le_pow_right₀ (by linarith [roundoff_pos]) h

/-- Up to 64 roundings grow a value by at most a factor of two. -/
theorem growth_le_two {k : Nat} (hk : k ≤ 64) : (1 + roundoff) ^ k ≤ 2 :=
  (growth_mono hk).trans (by unfold roundoff; norm_num)

/-- `v` is within `k` roundings of `X`: at least `X / (1 + 2 ^ -24) ^ k` and at most
`X · (1 + 2 ^ -24) ^ k`. -/
structure Within (v X : ℚ) (k : Nat) : Prop where
  low : X / (1 + roundoff) ^ k ≤ v
  high : v ≤ X * (1 + roundoff) ^ k

namespace Within

variable {v w X Y : ℚ} {i j k : Nat}

theorem refl (X : ℚ) : Within X X 0 := ⟨by simp, by simp⟩

theorem exact_nonneg (h : Within v X k) (hv : 0 ≤ v) : 0 ≤ X :=
  nonneg_of_mul_nonneg_left (hv.trans h.high) (growth_pos k)

theorem nonneg_of_exact (h : Within v X k) (hX : 0 ≤ X) : 0 ≤ v :=
  (div_nonneg hX (growth_pos k).le).trans h.low

/-- Errors compound: `i` roundings away from a value `j` roundings away from `X`. -/
theorem trans (h : Within v w i) (h' : Within w X j) : Within v X (i + j) := by
  constructor
  · calc X / (1 + roundoff) ^ (i + j) = X / (1 + roundoff) ^ j / (1 + roundoff) ^ i := by
          rw [pow_add, div_div, mul_comm]
      _ ≤ w / (1 + roundoff) ^ i := div_le_div_of_nonneg_right h'.low (growth_pos i).le
      _ ≤ v := h.low
  · calc v ≤ w * (1 + roundoff) ^ i := h.high
      _ ≤ X * (1 + roundoff) ^ j * (1 + roundoff) ^ i :=
          mul_le_mul_of_nonneg_right h'.high (growth_pos i).le
      _ = X * (1 + roundoff) ^ (i + j) := by rw [pow_add, mul_assoc, mul_comm ((1 + roundoff) ^ j)]

theorem mono (h : Within v X i) (hX : 0 ≤ X) (hij : i ≤ j) : Within v X j :=
  ⟨(div_le_div_of_nonneg_left hX (growth_pos i) (growth_mono hij)).trans h.low,
    h.high.trans (mul_le_mul_of_nonneg_left (growth_mono hij) hX)⟩

theorem mul (h : Within v X i) (h' : Within w Y j) (hX : 0 ≤ X) (hY : 0 ≤ Y) :
    Within (v * w) (X * Y) (i + j) := by
  constructor
  · calc X * Y / (1 + roundoff) ^ (i + j) = X / (1 + roundoff) ^ i * (Y / (1 + roundoff) ^ j) := by
          rw [pow_add, div_mul_div_comm]
      _ ≤ v * w := mul_le_mul h.low h'.low (div_nonneg hY (growth_pos j).le) (h.nonneg_of_exact hX)
  · calc v * w ≤ X * (1 + roundoff) ^ i * (Y * (1 + roundoff) ^ j) :=
          mul_le_mul h.high h'.high (h'.nonneg_of_exact hY) (mul_nonneg hX (growth_pos i).le)
      _ = X * Y * (1 + roundoff) ^ (i + j) := by rw [pow_add]; ring

theorem div (h : Within v X i) (h' : Within w Y j) (hX : 0 ≤ X) (hY : 0 < Y) :
    Within (v / w) (X / Y) (i + j) := by
  have hw : 0 < w := (div_pos hY (growth_pos j)).trans_le h'.low
  constructor
  · calc X / Y / (1 + roundoff) ^ (i + j) = X / (1 + roundoff) ^ i / (Y * (1 + roundoff) ^ j) := by
          rw [pow_add]
          field_simp
      _ ≤ v / w := div_le_div₀ (h.nonneg_of_exact hX) h.low hw h'.high
  · calc v / w ≤ X * (1 + roundoff) ^ i / (Y / (1 + roundoff) ^ j) :=
          div_le_div₀ (mul_nonneg hX (growth_pos i).le) h.high (div_pos hY (growth_pos j)) h'.low
      _ = X / Y * (1 + roundoff) ^ (i + j) := by
          rw [pow_add]
          field_simp

theorem add (h : Within v X k) (h' : Within w Y k) : Within (v + w) (X + Y) k :=
  ⟨by rw [add_div]; exact add_le_add h.low h'.low, by rw [add_mul]; exact add_le_add h.high h'.high⟩

/-- Within 64 roundings a value is at least half the exact one. -/
theorem half_le (h : Within v X k) (hX : 0 ≤ X) (levels : k ≤ 64) : X / 2 ≤ v :=
  (div_le_div_of_nonneg_left hX (growth_pos k) (growth_le_two levels)).trans h.low

/-- Within 64 roundings a value is at most twice the exact one. -/
theorem le_twice (h : Within v X k) (hX : 0 ≤ X) (levels : k ≤ 64) : v ≤ X * 2 :=
  h.high.trans (mul_le_mul_of_nonneg_left (growth_le_two levels) hX)

end Within

/-- `x` is a `+`-signed finite single-precision value within `k` roundings of the rational `X`. -/
def Approx (x : Binary32) (X : ℚ) (k : Nat) : Prop :=
  ∃ m e, x = finite false m e ∧ Within x.value X k

theorem Approx.nonneg {x : Binary32} {X : ℚ} {k : Nat} (h : Approx x X k) : 0 ≤ X := by
  obtain ⟨m, e, rfl, near⟩ := h
  exact near.exact_nonneg (value_nonneg m e)

/-- A positive finite value is its own value, within no rounding. -/
theorem approx_self {x : Binary32} (hx : x.PositiveFinite) : Approx x x.value 0 := by
  obtain ⟨m, e, -, rfl, -⟩ := hx
  exact ⟨m, e, rfl, Within.refl _⟩

/-- One rounding of an exact positive value in the normal range is within one rounding of it. -/
theorem approx_round {num den : Nat} {scale : Int} (hnum : num ≠ 0) (hden : den ≠ 0)
    (normal : (2 : ℚ) ^ (-126 : Int) ≤ num / den * 2 ^ scale)
    (small : (num : ℚ) / den * 2 ^ scale ≤ 2 ^ (127 : Int)) :
    Approx (Format.binary32.round false num den scale) (num / den * 2 ^ scale) 1 := by
  obtain ⟨m, e, rounded⟩ := Format.round_finite_of_le (f := Format.binary32) (by decide) (by decide)
    hnum hden (small.trans (by norm_num [Format.binary32, Format.qmax]))
  obtain ⟨lower, upper⟩ := Format.round_bounds_of_normal (f := Format.binary32) (by decide) hnum hden
    (by rw [show (2 : ℚ) ^ (Format.binary32.qmin + (Format.binary32.precision : Int) - 1) =
      2 ^ (-126 : Int) by norm_num [Format.binary32, Format.qmin]]; exact normal) rounded
  have unit : (1 : ℚ) + 2 ^ (-((Format.binary32.precision : Nat) : Int)) = 1 + roundoff := rfl
  rw [unit] at lower upper
  refine ⟨m, e, rounded, ?_, ?_⟩ <;>
    simp only [rounded, value_finite, Bool.false_eq_true, if_false, pow_one]
  · exact lower
  · exact upper

/-- One rounding of an exact value within `k ≤ 64` roundings of `X`, for `X` well inside the
normal range, is within `k + 1` roundings of `X`. -/
theorem approx_round_of_range {num den : Nat} {scale : Int} (hden : den ≠ 0) {X : ℚ} {k : Nat}
    (near : Within (num / den * 2 ^ scale) X k) (levels : k ≤ 64)
    (normal : (2 : ℚ) ^ (-125 : Int) ≤ X) (small : X ≤ 2 ^ (126 : Int)) :
    Approx (Format.binary32.round false num den scale) X (k + 1) := by
  have hX : 0 ≤ X := (zpow_pos two_pos _).le.trans normal
  have normal' : (2 : ℚ) ^ (-126 : Int) ≤ num / den * 2 ^ scale :=
    calc (2 : ℚ) ^ (-126 : Int) = 2 ^ (-125 : Int) / 2 := by norm_num
      _ ≤ X / 2 := div_le_div_of_nonneg_right normal two_pos.le
      _ ≤ num / den * 2 ^ scale := near.half_le hX levels
  have small' : (num : ℚ) / den * 2 ^ scale ≤ 2 ^ (127 : Int) :=
    calc (num : ℚ) / den * 2 ^ scale ≤ X * 2 := near.le_twice hX levels
      _ ≤ 2 ^ (126 : Int) * 2 := mul_le_mul_of_nonneg_right small two_pos.le
      _ = 2 ^ (127 : Int) := by norm_num
  have hnum : num ≠ 0 := by
    rintro rfl
    simp only [Nat.cast_zero, zero_div, zero_mul] at normal'
    linarith [zpow_pos (two_pos : (0 : ℚ) < 2) (-126)]
  obtain ⟨m, e, rounded, once⟩ := approx_round hnum hden normal' small'
  exact ⟨m, e, rounded, by rw [Nat.add_comm k 1]; exact once.trans near⟩

/-- The exact product of two `+`-signed values, as `mul` hands it to rounding. -/
theorem mul_exact (m n : Nat) (q r : Int) :
    ((m * n : Nat) : ℚ) / ((1 : Nat) : ℚ) * 2 ^ (q + r) =
      (finite false m q : Binary32).value * (finite false n r : Binary32).value := by
  simp only [value_finite, Bool.false_eq_true, if_false]
  rw [zpow_add₀ two_ne_zero]
  push_cast
  ring

/-- The exact quotient of two `+`-signed values, as `div` hands it to rounding. -/
theorem div_exact (m n : Nat) (q r : Int) :
    (m : ℚ) / (n : ℚ) * 2 ^ (q - r) =
      (finite false m q : Binary32).value / (finite false n r : Binary32).value := by
  simp only [value_finite, Bool.false_eq_true, if_false]
  rw [zpow_sub₀ two_ne_zero]
  ring

theorem ne_zero_of_value_pos {n : Nat} {r : Int} (h : 0 < (finite false n r : Binary32).value) :
    n ≠ 0 := by
  rintro rfl
  simp at h

/-- A product of values within `i` and `j` roundings, well inside the normal range, is within
`i + j + 1` roundings of the exact product. -/
theorem Approx.mul {x y : Binary32} {X Y : ℚ} {i j : Nat} (hx : Approx x X i) (hy : Approx y Y j)
    (levels : i + j ≤ 64) (normal : (2 : ℚ) ^ (-125 : Int) ≤ X * Y)
    (small : X * Y ≤ 2 ^ (126 : Int)) : Approx (x * y) (X * Y) (i + j + 1) := by
  have hX := hx.nonneg
  have hY := hy.nonneg
  obtain ⟨m, q, rfl, nx⟩ := hx
  obtain ⟨n, r, rfl, ny⟩ := hy
  rw [mul_finite]
  apply approx_round_of_range one_ne_zero _ levels normal small
  rw [mul_exact]
  exact nx.mul ny hX hY

/-- A quotient of values within `i` and `j` roundings, well inside the normal range, is within
`i + j + 1` roundings of the exact quotient. -/
theorem Approx.div {x y : Binary32} {X Y : ℚ} {i j : Nat} (hx : Approx x X i) (hy : Approx y Y j)
    (hY : 0 < Y) (levels : i + j ≤ 64) (normal : (2 : ℚ) ^ (-125 : Int) ≤ X / Y)
    (small : X / Y ≤ 2 ^ (126 : Int)) : Approx (x / y) (X / Y) (i + j + 1) := by
  have hX := hx.nonneg
  obtain ⟨m, q, rfl, nx⟩ := hx
  obtain ⟨n, r, rfl, ny⟩ := hy
  have hn := ne_zero_of_value_pos ((div_pos hY (growth_pos j)).trans_le ny.low)
  rw [div_finite, if_neg hn]
  apply approx_round_of_range hn _ levels normal small
  rw [div_exact]
  exact nx.div ny hX hY

/-- A sum of values within `i` and `j` roundings, well inside the normal range, is within
`max i j + 1` roundings of the exact sum. -/
theorem Approx.add {x y : Binary32} {X Y : ℚ} {i j : Nat} (hx : Approx x X i) (hy : Approx y Y j)
    (levels : Max.max i j ≤ 64) (normal : (2 : ℚ) ^ (-125 : Int) ≤ X + Y)
    (small : X + Y ≤ 2 ^ (126 : Int)) : Approx (x + y) (X + Y) (Max.max i j + 1) := by
  have hX := hx.nonneg
  have hY := hy.nonneg
  obtain ⟨m, q, rfl, nx⟩ := hx
  obtain ⟨n, r, rfl, ny⟩ := hy
  obtain ⟨w, s, exact, sum⟩ := add_finite_cases (f := Format.binary32) false false m n q r
  -- both terms loosen to the larger number of roundings
  have near : Within (w * 2 ^ s) (X + Y) (Max.max i j) := by
    rw [exact]
    exact (nx.mono hX (le_max_left i j)).add (ny.mono hY (le_max_right i j))
  have positive : 0 < w := by
    have exactPos : (0 : ℚ) < w * 2 ^ s :=
      (div_pos ((zpow_pos two_pos _).trans_le normal) (growth_pos _)).trans_le near.low
    exact_mod_cast pos_of_mul_pos_left exactPos (zpow_pos two_pos s).le
  rw [sum, if_neg positive.ne', decide_eq_false (not_lt.mpr positive.le)]
  apply approx_round_of_range one_ne_zero _ levels normal small
  rw [natAbs_cast positive.le, Nat.cast_one, div_one]
  exact near

/-- A natural number from one to `2 ^ 126` is within one rounding of itself. -/
theorem approx_ofNat {n : Nat} (low : 1 ≤ n) (high : (n : ℚ) ≤ 2 ^ (126 : Int)) :
    Approx (ofNat n : Binary32) n 1 := by
  have exact : ((n : Nat) : ℚ) / ((1 : Nat) : ℚ) * 2 ^ (0 : Int) = n := by simp
  apply approx_round_of_range one_ne_zero _ (by norm_num) _ high
  · rw [exact]
    exact Within.refl _
  · calc (2 : ℚ) ^ (-125 : Int) ≤ 1 := zpow_le_one_of_nonpos₀ one_le_two (by norm_num)
      _ ≤ n := by exact_mod_cast low

/-! ## Square roots -/

/-- The root of a positive finite value is the rounded integer root of some `N`, with a half
unit added when that root is inexact, where `N · 4 ^ E` is the value and `N` has at least
`precision + 2` digits in base four. -/
theorem sqrt_finite_cases {f : Format} {m : Nat} (q : Int) (hm : m ≠ 0) :
    ∃ (N : Nat) (E : Int), 4 ^ (f.precision + 2) ≤ N ∧
      (N : ℚ) * 2 ^ E * 2 ^ E = (finite false m q : Binary f).value ∧
      (finite false m q : Binary f).sqrt = if isqrt N * isqrt N = N then f.round false (isqrt N) 1 E
        else f.round false (2 * isqrt N + 1) 2 E := by
  simp only [sqrt]
  rw [if_neg hm]
  simp only [Bool.false_eq_true, if_false]
  refine ⟨_, _, ?_, ?_, rfl⟩
  · rw [Nat.pow_eq]
    split_ifs <;> exact Nat.le_mul_of_pos_left _ (by omega)
  · rw [value_finite]
    simp only [Bool.false_eq_true, if_false]
    by_cases odd : q % 2 = 1
    · simp only [odd, if_true]
      rw [scaled_four_pow, show 2 * ((f.precision + 2 : Nat) : Int) +
          2 * ((q - 1) / 2 - ((f.precision + 2 : Nat) : Int)) = q - 1 by omega,
        zpow_sub₀ two_ne_zero, zpow_one]
      push_cast
      ring
    · simp only [odd, if_false]
      rw [scaled_four_pow, show 2 * ((f.precision + 2 : Nat) : Int) +
          2 * (q / 2 - ((f.precision + 2 : Nat) : Int)) = q by omega]

/-- The integer root `t` of `N`, with half a unit added, squares to within one rounding of `N`
once `t ≥ 2 ^ 26`: the square is off by at most `t + 1`, and `N ≥ t²`. -/
theorem half_root_within {t N : Nat} (low : t * t ≤ N) (high : N < (t + 1) * (t + 1))
    (ht : 2 ^ 26 ≤ t) : Within (((t : ℚ) + 1 / 2) ^ 2) N 1 := by
  have hT : (2 : ℚ) ^ 26 ≤ t := by exact_mod_cast ht
  have lowQ : (t : ℚ) * t ≤ N := by exact_mod_cast low
  have highQ : (N : ℚ) + 1 ≤ (t + 1) * (t + 1) := by exact_mod_cast high
  have hu := roundoff_pos
  -- a `2 ^ -24` share of `t²` is at least `4 t`, which covers the error of the root
  have share : 4 * (t : ℚ) ≤ roundoff * (t * t) := by
    have scale : roundoff * 2 ^ 26 = 4 := by unfold roundoff; norm_num
    nlinarith
  have ut : 0 ≤ roundoff * t := mul_nonneg hu.le (by positivity)
  constructor
  · rw [pow_one, div_le_iff₀ (by linarith)]
    nlinarith
  · rw [pow_one]
    have grown : roundoff * (t * t) ≤ roundoff * N := mul_le_mul_of_nonneg_left lowQ hu.le
    nlinarith

/-- A square root within `k` roundings: `x` is a `+`-signed finite value whose square is within
`k` roundings of `X`. The root of `X` need not be rational, so its error is stated on the square. -/
def SquareApprox (x : Binary32) (X : ℚ) (k : Nat) : Prop :=
  ∃ m e, x = finite false m e ∧ Within (x.value ^ 2) X k

/-- Rounding an exact root whose square is within `k` roundings of `X` gives a value whose
square is within `k + 2` of it: one rounding of the root is two of its square. -/
theorem squareApprox_round {num den : Nat} {scale : Int} (hnum : num ≠ 0) (hden : den ≠ 0)
    {X : ℚ} {k : Nat} (near : Within (((num : ℚ) / den * 2 ^ scale) ^ 2) X k) (levels : k ≤ 64)
    (normal : (2 : ℚ) ^ (-240 : Int) ≤ X) (small : X ≤ 2 ^ (240 : Int)) :
    SquareApprox (Format.binary32.round false num den scale) X (k + 2) := by
  have hX : 0 ≤ X := (zpow_pos two_pos _).le.trans normal
  have hy : (0 : ℚ) ≤ num / den * 2 ^ scale := by positivity
  have normal' : (2 : ℚ) ^ (-126 : Int) ≤ num / den * 2 ^ scale := by
    refine (pow_le_pow_iff_left₀ (by positivity) hy two_ne_zero).mp ?_
    calc ((2 : ℚ) ^ (-126 : Int)) ^ 2 ≤ 2 ^ (-240 : Int) / 2 := by norm_num
      _ ≤ X / 2 := div_le_div_of_nonneg_right normal two_pos.le
      _ ≤ _ := near.half_le hX levels
  have small' : (num : ℚ) / den * 2 ^ scale ≤ 2 ^ (127 : Int) := by
    refine (pow_le_pow_iff_left₀ hy (by positivity) two_ne_zero).mp ?_
    calc ((num : ℚ) / den * 2 ^ scale) ^ 2 ≤ X * 2 := near.le_twice hX levels
      _ ≤ 2 ^ (240 : Int) * 2 := mul_le_mul_of_nonneg_right small two_pos.le
      _ ≤ (2 ^ (127 : Int)) ^ 2 := by norm_num
  obtain ⟨m, e, rounded, once⟩ := approx_round hnum hden normal' small'
  refine ⟨m, e, rounded, ?_⟩
  rw [pow_two] at near
  have squared := (once.mul once hy hy).trans near
  rw [← pow_two] at squared
  rw [Nat.add_comm k 2]
  exact squared

/-- The root of a value within `k` roundings of `X` squares to within `k + 3` roundings of `X`:
the integer root under it adds one, its rounding two. -/
theorem Approx.sqrt {x : Binary32} {X : ℚ} {k : Nat} (hx : Approx x X k) (levels : k ≤ 60)
    (normal : (2 : ℚ) ^ (-240 : Int) ≤ X) (small : X ≤ 2 ^ (240 : Int)) :
    SquareApprox x.sqrt X (k + 3) := by
  have hX := hx.nonneg
  obtain ⟨m, q, rfl, near⟩ := hx
  have hm := ne_zero_of_value_pos
    ((div_pos ((zpow_pos two_pos _).trans_le normal) (growth_pos k)).trans_le near.low)
  obtain ⟨N, E, digits, scaled, root⟩ := sqrt_finite_cases (f := Format.binary32) q hm
  obtain ⟨below, above⟩ := isqrt_spec N
  have ht : 2 ^ 26 ≤ isqrt N := by
    by_contra short
    have square : (isqrt N + 1) * (isqrt N + 1) ≤ 2 ^ 26 * 2 ^ 26 :=
      Nat.mul_le_mul (by omega) (by omega)
    have four : 4 ^ (Format.binary32.precision + 2) = 2 ^ 26 * 2 ^ 26 := by decide
    omega
  have unit : (0 : ℚ) ≤ 2 ^ E * 2 ^ E := by positivity
  rw [root]
  split_ifs with whole
  · -- an exact integer root squares back to the value itself
    apply squareApprox_round (by omega) one_ne_zero _ (by omega) normal small
    have exact : (((isqrt N : Nat) : ℚ) / ((1 : Nat) : ℚ) * 2 ^ E) ^ 2 =
        (finite false m q : Binary32).value := by
      have back : (N : ℚ) = isqrt N * isqrt N := by exact_mod_cast whole.symm
      rw [← scaled, back]
      ring
    rw [exact]
    exact near.mono hX (by omega)
  · -- an inexact one, with the half unit, is one rounding off it
    apply squareApprox_round (by omega) two_ne_zero _ (by omega) normal small
    have exact : (((2 * isqrt N + 1 : Nat) : ℚ) / ((2 : Nat) : ℚ) * 2 ^ E) ^ 2 =
        ((isqrt N : ℚ) + 1 / 2) ^ 2 * (2 ^ E * 2 ^ E) := by
      push_cast
      ring
    have square := ((half_root_within below above ht).mul (Within.refl (2 ^ E * 2 ^ E))
      (by positivity) unit).trans (by rw [← mul_assoc, scaled]; exact near)
    rw [exact, show k + 1 = 1 + 0 + k by omega]
    exact square

/-- The square of a value whose square is within `k` roundings of `X` is within `k + 1`. -/
theorem SquareApprox.mul_self {x : Binary32} {X : ℚ} {k : Nat} (hx : SquareApprox x X k)
    (levels : k ≤ 64) (normal : (2 : ℚ) ^ (-125 : Int) ≤ X) (small : X ≤ 2 ^ (126 : Int)) :
    Approx (x * x) X (k + 1) := by
  obtain ⟨m, q, rfl, near⟩ := hx
  rw [mul_finite]
  apply approx_round_of_range one_ne_zero _ levels normal small
  rw [mul_exact, ← pow_two]
  exact near

/-! ## Upper bounds -/

/-- `x` is a `+`-signed finite value at most `k` roundings above `X`. Unlike `Approx` it may be
far below `X`, even zero: a bound from above survives the subnormal range. -/
def Below (x : Binary32) (X : ℚ) (k : Nat) : Prop :=
  ∃ m e, x = finite false m e ∧ x.value ≤ X * (1 + roundoff) ^ k

theorem Approx.below {x : Binary32} {X : ℚ} {k : Nat} (h : Approx x X k) : Below x X k := by
  obtain ⟨m, e, rfl, near⟩ := h
  exact ⟨m, e, rfl, near.high⟩

/-- One rounding of an exact value at most `k ≤ 64` roundings above `X`, for `X` in the normal
range, is at most `k + 1` roundings above `X`: in the normal range rounding adds one factor, and
below it the result is at most the least normal value, which `X` is not below. -/
theorem below_round {num den : Nat} {scale : Int} (hden : den ≠ 0) {X : ℚ} {k : Nat}
    (bound : (num : ℚ) / den * 2 ^ scale ≤ X * (1 + roundoff) ^ k) (levels : k ≤ 64)
    (normal : (2 : ℚ) ^ (-126 : Int) ≤ X) (small : X ≤ 2 ^ (126 : Int)) :
    Below (Format.binary32.round false num den scale) X (k + 1) := by
  have hX : 0 ≤ X := (zpow_pos two_pos _).le.trans normal
  have grown : X ≤ X * (1 + roundoff) ^ (k + 1) := le_mul_of_one_le_right hX (one_le_growth _)
  rcases Nat.eq_zero_or_pos num with rfl | hnum
  · rw [Format.round_zero]
    exact ⟨0, _, rfl, by simpa using mul_nonneg hX (growth_pos (k + 1)).le⟩
  have top : (num : ℚ) / den * 2 ^ scale ≤ 2 ^ (127 : Int) :=
    calc (num : ℚ) / den * 2 ^ scale ≤ X * (1 + roundoff) ^ k := bound
      _ ≤ 2 ^ (126 : Int) * 2 := mul_le_mul small (growth_le_two levels) (growth_pos k).le (by positivity)
      _ = 2 ^ (127 : Int) := by norm_num
  rcases le_or_gt ((2 : ℚ) ^ (-126 : Int)) ((num : ℚ) / den * 2 ^ scale) with big | tiny
  · obtain ⟨m, e, rounded, once⟩ := approx_round hnum.ne' hden big top
    refine ⟨m, e, rounded, ?_⟩
    calc (Format.binary32.round false num den scale).value
        ≤ (num : ℚ) / den * 2 ^ scale * (1 + roundoff) ^ 1 := once.high
      _ ≤ X * (1 + roundoff) ^ k * (1 + roundoff) := by
          rw [pow_one]
          exact mul_le_mul_of_nonneg_right bound (by linarith [roundoff_pos])
      _ = X * (1 + roundoff) ^ (k + 1) := by rw [pow_succ, mul_assoc]
  · obtain ⟨m, e, rounded⟩ := Format.round_finite_of_le (f := Format.binary32) (by decide)
      (by decide) hnum.ne' hden (top.trans (by norm_num [Format.binary32, Format.qmax]))
    have tiny' : (num : ℚ) / den * 2 ^ scale ≤
        2 ^ (Format.binary32.qmin + (Format.binary32.precision : Int) - 1) := by
      rw [show (2 : ℚ) ^ (Format.binary32.qmin + (Format.binary32.precision : Int) - 1) =
        2 ^ (-126 : Int) by norm_num [Format.binary32, Format.qmin]]
      exact tiny.le
    have least := Format.round_le_of_subnormal (by decide) (by decide) hnum.ne' hden tiny'
    rw [rounded, le_finite, decide_eq_true_eq] at least
    refine ⟨m, e, rounded, ?_⟩
    calc (Format.binary32.round false num den scale).value
        ≤ (finite false (2 ^ (Format.binary32.precision - 1)) Format.binary32.qmin : Binary32).value :=
          rounded ▸ least
      _ = 2 ^ (-126 : Int) := by norm_num [Format.binary32, Format.qmin]
      _ ≤ X * (1 + roundoff) ^ (k + 1) := normal.trans grown

/-- A finite value that another is not below is at most it. -/
theorem value_le_of_lt_eq_false {x y : Binary32} {m n : Nat} {q r : Int}
    (hx : x = finite false m q) (hy : y = finite false n r) (h : lt y x = false) :
    x.value ≤ y.value := by
  subst hx hy
  rw [lt_finite, decide_eq_false_iff_not, not_lt] at h
  exact h

/-- A value at most the root of `X` (up to `k` roundings on the square) squares to at most
`k + 1` roundings above `X`. -/
theorem Below.mul_self_of_le {x c : Binary32} {X : ℚ} {k m : Nat} {q : Int}
    (hx : x = finite false m q) (hc : SquareApprox c X k) (below : x.value ≤ c.value)
    (levels : k ≤ 64) (normal : (2 : ℚ) ^ (-126 : Int) ≤ X) (small : X ≤ 2 ^ (126 : Int)) :
    Below (x * x) X (k + 1) := by
  obtain ⟨n, r, rfl, near⟩ := hc
  subst hx
  rw [mul_finite]
  apply below_round one_ne_zero _ levels normal small
  rw [mul_exact, ← pow_two]
  exact (pow_le_pow_left₀ (value_nonneg m q) below 2).trans near.high

/-- A quotient of a value at most `i` roundings above `X` by one within `j` roundings of `Y` is
at most `i + j + 1` roundings above `X / Y`. -/
theorem Below.div {x y : Binary32} {X Y : ℚ} {i j : Nat} (hx : Below x X i) (hy : Approx y Y j)
    (hX : 0 ≤ X) (hY : 0 < Y) (levels : i + j ≤ 64) (normal : (2 : ℚ) ^ (-126 : Int) ≤ X / Y)
    (small : X / Y ≤ 2 ^ (126 : Int)) : Below (x / y) (X / Y) (i + j + 1) := by
  obtain ⟨m, q, rfl, ux⟩ := hx
  obtain ⟨n, r, rfl, ny⟩ := hy
  have hn := ne_zero_of_value_pos ((div_pos hY (growth_pos j)).trans_le ny.low)
  rw [div_finite, if_neg hn]
  apply below_round hn _ levels normal small
  rw [div_exact]
  calc (finite false m q : Binary32).value / (finite false n r : Binary32).value
      ≤ X * (1 + roundoff) ^ i / (Y / (1 + roundoff) ^ j) :=
        div_le_div₀ (mul_nonneg hX (growth_pos i).le) ux (div_pos hY (growth_pos j)) ny.low
    _ = X / Y * (1 + roundoff) ^ (i + j) := by
        rw [pow_add]
        field_simp

/-! ## Rounding to a count -/

/-- A `+`-signed value with a nonnegative exponent is a whole number, its own truncation. -/
theorem truncMagnitude_of_nonneg {m : Nat} {q : Int} (hq : 0 ≤ q) :
    ((truncMagnitude m q : Nat) : ℚ) = m * 2 ^ q := by
  unfold truncMagnitude
  rw [if_pos hq, Nat.pow_eq, Nat.cast_mul, Nat.cast_pow, Nat.cast_ofNat, ← zpow_natCast,
    Int.toNat_of_nonneg hq]

/-- A negative exponent divides by the unit `2 ^ -q` that truncation and rounding to a whole
number divide by. -/
theorem mul_zpow_of_neg (m : Nat) {q : Int} (hq : ¬ 0 ≤ q) :
    (m : ℚ) * 2 ^ q = m / ((Nat.pow 2 (-q).toNat : Nat) : ℚ) := by
  rw [Nat.pow_eq, Nat.cast_pow, Nat.cast_ofNat, ← zpow_natCast, Int.toNat_of_nonneg (by omega),
    zpow_neg, div_inv_eq_mul]

/-- Truncation toward zero is the floor of a `+`-signed value. -/
theorem le_truncMagnitude_iff {K m : Nat} {q : Int} :
    K ≤ truncMagnitude m q ↔ (K : ℚ) ≤ m * 2 ^ q := by
  by_cases hq : 0 ≤ q
  · rw [← truncMagnitude_of_nonneg hq]
    exact Nat.cast_le.symm
  · have unit : 0 < Nat.pow 2 (-q).toNat := by
      rw [Nat.pow_eq]
      positivity
    unfold truncMagnitude
    rw [if_neg hq, Nat.le_div_iff_mul_le unit, mul_zpow_of_neg m hq,
      le_div_iff₀ (by exact_mod_cast unit)]
    exact_mod_cast Iff.rfl

variable {f : Format}

/-- A `+`-signed value at least a count `K` truncates to at least `K`. -/
theorem le_toUInt64 {K m : Nat} {q : Int} (hK : K ≤ Word.uint64Max)
    (h : (K : ℚ) ≤ (finite false m q : Binary f).value) : K ≤ (finite false m q : Binary f).toUInt64 := by
  simp only [value_finite, Bool.false_eq_true, if_false] at h
  exact Nat.le_min.mpr ⟨le_truncMagnitude_iff.mpr h, hK⟩

/-- A `+`-signed value at most a count `B` truncates to at most `B`. -/
theorem toUInt64_le {B m : Nat} {q : Int} (h : (finite false m q : Binary f).value ≤ B) :
    (finite false m q : Binary f).toUInt64 ≤ B := by
  simp only [value_finite, Bool.false_eq_true, if_false] at h
  refine (Nat.min_le_left _ _).trans (Nat.le_of_lt_succ ?_)
  by_contra above
  have := le_truncMagnitude_iff.mp (Nat.le_of_not_lt above)
  push_cast at this
  linarith

/-- A `+`-signed number at least the count `K` truncates to at least `K`; `+∞` saturates. -/
theorem le_toUInt64_of_le {K : Nat} {x : Binary f} (hK : K ≤ Word.uint64Max)
    (sign : x.nonneg = true) (h : le (finite false K 0) x = true) : K ≤ x.toUInt64 := by
  match x, sign with
  | .inf false, _ => exact hK
  | .finite false m q, _ =>
    rw [le_finite, decide_eq_true_eq] at h
    exact le_toUInt64 hK (by simpa using h)

/-- A `+`-signed number at most a finite value `T` truncates to at most any count above `T`. -/
theorem toUInt64_le_of_le {B n : Nat} {r : Int} {x : Binary f} (sign : x.nonneg = true)
    (h : le x (finite false n r) = true) (hB : (finite false n r : Binary f).value ≤ B) :
    x.toUInt64 ≤ B := by
  match x, sign with
  | .inf false, _ => simp [le, compare?] at h
  | .finite false m q, _ =>
    rw [le_finite, decide_eq_true_eq] at h
    exact toUInt64_le (h.trans hB)

/-- Rounding half away from zero to a whole number, then truncating, gives at least every count
`K` below `2 ^ 24` that the value reaches within half a unit. -/
theorem le_toUInt64_roundHalfAway {K m : Nat} {q : Int} (hK : K < 2 ^ 24)
    (h : (K : ℚ) - 1 / 2 ≤ (finite false m q : Binary32).value) :
    K ≤ (roundHalfAway (finite false m q : Binary32)).toUInt64 := by
  have room : K ≤ Word.uint64Max := by unfold Word.uint64Max; omega
  simp only [roundHalfAway]
  split_ifs with hq
  · -- a value with no fraction is a whole number already
    apply le_toUInt64 room
    simp only [value_finite, Bool.false_eq_true, if_false] at h ⊢
    rw [← truncMagnitude_of_nonneg hq] at h ⊢
    have below : (K : ℚ) < (truncMagnitude m q : ℚ) + 1 := by linarith
    have : K < truncMagnitude m q + 1 := by exact_mod_cast below
    exact_mod_cast Nat.le_of_lt_succ this
  · rcases Nat.eq_zero_or_pos K with rfl | hK0
    · exact Nat.zero_le _
    set U := Nat.pow 2 (-q).toNat with hU
    have unit : 0 < U := by rw [hU, Nat.pow_eq]; positivity
    have scaled : (m : ℚ) * 2 ^ q = m / U := by
      rw [hU]
      exact mul_zpow_of_neg m hq
    -- the whole number chosen is at least `K`
    have chosen : K ≤ (2 * m + U) / (2 * U) := by
      rw [Nat.le_div_iff_mul_le (by omega)]
      simp only [value_finite, Bool.false_eq_true, if_false, scaled] at h
      rw [le_div_iff₀ (by exact_mod_cast unit)] at h
      have : ((K * (2 * U) : Nat) : ℚ) ≤ ((2 * m + U : Nat) : ℚ) := by push_cast; linarith
      exact_mod_cast this
    have fits : (finite false K 0 : Binary32).Fits :=
      ⟨hK, by decide, by decide⟩
    apply le_toUInt64_of_le room (Format.round_nonneg _ _ _)
    apply Format.le_round_of_le (by decide) (by omega) one_ne_zero fits
    simp only [value_finite, Bool.false_eq_true, if_false, zpow_zero, mul_one, Nat.cast_one, div_one]
    exact_mod_cast chosen

/-- Rounding half away from zero, then truncating, keeps a value at most `2 ^ j` at most `2 ^ j`. -/
theorem toUInt64_roundHalfAway_le {j m : Nat} {q : Int} (hj : j ≤ 100)
    (h : (finite false m q : Binary32).value ≤ 2 ^ j) :
    (roundHalfAway (finite false m q : Binary32)).toUInt64 ≤ 2 ^ j := by
  simp only [roundHalfAway]
  split_ifs with hq
  · exact toUInt64_le (by exact_mod_cast h)
  · set U := Nat.pow 2 (-q).toNat with hU
    have unit : 0 < U := by rw [hU, Nat.pow_eq]; positivity
    have scaled : (m : ℚ) * 2 ^ q = m / U := by
      rw [hU]
      exact mul_zpow_of_neg m hq
    -- the whole number chosen is at most `2 ^ j`
    have chosen : (2 * m + U) / (2 * U) ≤ 2 ^ j := by
      rw [Nat.div_le_iff_le_mul_add_pred (by omega)]
      simp only [value_finite, Bool.false_eq_true, if_false, scaled] at h
      rw [div_le_iff₀ (by exact_mod_cast unit)] at h
      have whole : m ≤ 2 ^ j * U := by exact_mod_cast h
      rw [show 2 * U * 2 ^ j = 2 * (2 ^ j * U) by ring]
      omega
    rcases Nat.eq_zero_or_pos ((2 * m + U) / (2 * U)) with zero | positive
    · rw [zero, Format.round_zero]
      exact toUInt64_le (by simp)
    have fits : (finite false 1 (j : Int) : Binary32).Fits :=
      ⟨by decide, by simp only [Format.qmin, Format.binary32]; omega,
        by simp only [Format.qmax, Format.binary32]; omega⟩
    apply toUInt64_le_of_le (Format.round_nonneg _ _ _)
      (Format.round_le_of_le (by decide) positive.ne' one_ne_zero fits ?_) (by simp)
    simp only [value_finite, Bool.false_eq_true, if_false, zpow_zero, mul_one, Nat.cast_one, div_one,
      one_mul, zpow_natCast]
    exact_mod_cast chosen

end Binary

end StepperDrive
