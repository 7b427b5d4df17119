import StepperDrive.Proofs.Binary.Rounding
/-!
# What the arithmetic keeps

Every operation settles NaN, the infinities and zeros by hand and rounds the exact result of
two finite operands once, so what `Rounding` says of `Format.round` carries over to the
operations: their results fit the format, a product takes the sign of its operands, NaN only
comes from a NaN operand or from `∞ · 0`, `∞ - ∞`, `0 / 0` and `∞ / ∞`. Against a positive
value `p` of the format, multiplying by a number at most one gives at most `p`
(`mul_le_self`) and by a number at least one at least `p` (`le_mul_self`); taking a `+`-signed
number from a value of the format gives at most it (`sub_le_of_nonneg`), and a `-`-signed one at
least it (`le_sub_of_nonpos`).

The square root takes an integer root `isqrt`, the largest `r` with `r * r ≤ n`
(`isqrt_spec`), so the root of a value at least `4 · T²` is at least `T` (`le_sqrt`).

Sums, products, quotients and roots of numbers that are not `-`-signed are not `-`-signed
either: a chain of them from positive operands never ends at `-0`.
-/

namespace StepperDrive

set_option autoImplicit false

/-! ## The integer square root -/

theorem isqrt_go_spec (n : Nat) : ∀ k r, r * r ≤ n → n < (r + 2 ^ k) * (r + 2 ^ k) →
    isqrt.go n k r * isqrt.go n k r ≤ n ∧ n < (isqrt.go n k r + 1) * (isqrt.go n k r + 1)
  | 0, r, low, high => by simpa [isqrt.go] using And.intro low high
  | k + 1, r, low, high => by
    -- the bit `2 ^ k` is kept exactly when the root still fits under `n`
    unfold isqrt.go
    dsimp only
    rw [Nat.pow_eq]
    split
    · rename_i fits
      apply isqrt_go_spec n k _ fits
      have double : r + 2 ^ k + 2 ^ k = r + 2 ^ (k + 1) := by rw [Nat.pow_succ]; ring
      rwa [double]
    · rename_i above
      exact isqrt_go_spec n k r low (Nat.lt_of_not_le above)

/-- `isqrt n` is the largest root under `n`. -/
theorem isqrt_spec (n : Nat) : isqrt n * isqrt n ≤ n ∧ n < (isqrt n + 1) * (isqrt n + 1) := by
  apply isqrt_go_spec n _ 0 (by simp)
  have top := Nat.lt_log2_self (n := n)
  calc n < 2 ^ (n.log2 + 1) := top
    _ ≤ 2 ^ (2 * (n.log2 / 2 + 1)) := Nat.pow_le_pow_right (by decide) (by omega)
    _ = (0 + 2 ^ (n.log2 / 2 + 1)) * (0 + 2 ^ (n.log2 / 2 + 1)) := by rw [pow_mul']; ring

namespace Binary

variable {f : Format}

/-! ## Products -/

@[simp] theorem mul_finite (a b : Bool) (m n : Nat) (q r : Int) :
    (finite a m q : Binary f) * finite b n r = f.round (a != b) (m * n) 1 (q + r) := rfl

@[simp] theorem inf_mul_inf (a b : Bool) : (inf a : Binary f) * inf b = inf (a != b) := rfl

@[simp] theorem finite_mul_inf (a b : Bool) (m : Nat) (q : Int) :
    (finite a m q : Binary f) * inf b = if m = 0 then nan else inf (a != b) := rfl

@[simp] theorem inf_mul_finite (a b : Bool) (n : Nat) (r : Int) :
    (inf a : Binary f) * finite b n r = if n = 0 then nan else inf (a != b) := rfl

@[simp] theorem nan_mul (y : Binary f) : nan * y = nan := rfl

@[simp] theorem mul_nan (x : Binary f) : x * nan = nan := by
  cases x <;> rfl

theorem mul_fits (hp : 0 < f.precision) (he : 0 < f.emax) (x y : Binary f) : (x * y).Fits := by
  cases x with
  | nan => trivial
  | inf a =>
    cases y with
    | nan => trivial
    | inf b => trivial
    | finite b n r =>
      rw [inf_mul_finite]
      split_ifs <;> trivial
  | finite a m q =>
    cases y with
    | nan => trivial
    | inf b =>
      rw [finite_mul_inf]
      split_ifs <;> trivial
    | finite b n r => exact Format.round_fits hp he _ _ _ _

theorem mul_ne_nan_right {x : Binary f} (hx : x ≠ nan) {s : Bool} {m : Nat} {q : Int} (hm : 0 < m) :
    x * finite s m q ≠ nan := by
  cases x with
  | nan => exact absurd rfl hx
  | inf a => simp [hm.ne']
  | finite a n r => exact Format.round_ne_nan _ _ _ _

theorem mul_ne_nan_left {y : Binary f} (hy : y ≠ nan) {s : Bool} {m : Nat} {q : Int} (hm : 0 < m) :
    finite s m q * y ≠ nan := by
  cases y with
  | nan => exact absurd rfl hy
  | inf a => simp [hm.ne']
  | finite a n r => exact Format.round_ne_nan _ _ _ _

/-- A `+`-signed number times a positive finite value is `+`-signed. -/
theorem mul_nonneg_of_nonneg {x : Binary f} (hx : x.nonneg = true) {m : Nat} {q : Int} (hm : 0 < m) :
    (x * finite false m q).nonneg = true := by
  cases x with
  | nan => simp [nonneg] at hx
  | inf s =>
    cases s
    · simp [hm.ne', nonneg]
    · simp [nonneg] at hx
  | finite s n r =>
    cases s
    · exact Format.round_nonneg _ _ _
    · simp [nonneg] at hx

/-- A `-`-signed number times a positive finite value is `-`-signed. -/
theorem mul_nonpos_of_nonpos {x : Binary f} (hx : x.nonpos = true) {m : Nat} {q : Int} (hm : 0 < m) :
    (x * finite false m q).nonpos = true := by
  cases x with
  | nan => simp [nonpos] at hx
  | inf s =>
    cases s
    · simp [nonpos] at hx
    · simp [hm.ne', nonpos]
  | finite s n r =>
    cases s
    · simp [nonpos] at hx
    · exact Format.round_nonpos _ _ _

/-- A `-`-signed number is below every `+`-signed finite value. -/
theorem le_of_nonpos {x : Binary f} (hx : x.nonpos = true) (m : Nat) (q : Int) :
    le x (finite false m q) = true := by
  cases x with
  | nan => simp [nonpos] at hx
  | inf s =>
    cases s
    · simp [nonpos] at hx
    · rfl
  | finite s n r =>
    cases s
    · simp [nonpos] at hx
    · rw [le_finite, decide_eq_true_eq]
      exact (value_nonpos n r).trans (value_nonneg m q)

/-- A positive value of the format times a number at most one is at most that value. -/
theorem mul_le_self {m k : Nat} {q e : Int} {y : Binary f} (hp : 0 < f.precision)
    (fits : (finite false m q : Binary f).Fits) (hm : 0 < m)
    (small : le y (finite false k e) = true) (unit : (finite false k e : Binary f).value = 1) :
    le (finite false m q * y) (finite false m q) = true := by
  cases y with
  | nan => simp at small
  | inf s =>
    cases s
    · simp [le, compare?] at small
    · simp only [finite_mul_inf, hm.ne', if_false]
      rfl
  | finite s n r =>
    cases s
    · rw [le_finite, decide_eq_true_eq, unit] at small
      rcases Nat.eq_zero_or_pos n with rfl | hn
      · -- a zero factor gives zero
        rw [mul_finite, Nat.mul_zero]
        unfold Format.round
        rw [if_pos (.inl rfl), le_finite, decide_eq_true_eq]
        simpa using value_nonneg (f := f) m q
      rw [mul_finite]
      apply Format.round_le_of_le hp (Nat.mul_ne_zero hm.ne' hn.ne') one_ne_zero fits
      have factor : (n : ℚ) * 2 ^ r ≤ 1 := by simpa using small
      simp only [value_finite, Bool.false_eq_true, if_false, Nat.cast_mul, Nat.cast_one, div_one]
      calc (m : ℚ) * n * 2 ^ (q + r) = m * 2 ^ q * (n * 2 ^ r) := by
            rw [zpow_add₀ two_ne_zero]
            ring
        _ ≤ m * 2 ^ q * 1 := mul_le_mul_of_nonneg_left factor (by positivity)
        _ = m * 2 ^ q := mul_one _
    · -- a negative factor gives a `-`-signed product
      rw [mul_finite]
      exact le_of_nonpos (Format.round_nonpos _ _ _) m q

/-- A positive value of the format times a number at least one is at least that value. -/
theorem le_mul_self {m k : Nat} {q e : Int} {y : Binary f} (hp : 0 < f.precision)
    (fits : (finite false m q : Binary f).Fits) (hm : 0 < m)
    (big : le (finite false k e) y = true) (unit : (finite false k e : Binary f).value = 1) :
    le (finite false m q) (finite false m q * y) = true := by
  cases y with
  | nan => simp at big
  | inf s =>
    cases s
    · simp only [finite_mul_inf, hm.ne', if_false]
      rfl
    · simp [le, compare?] at big
  | finite s n r =>
    rw [le_finite, decide_eq_true_eq, unit] at big
    cases s
    · have factor : 1 ≤ (n : ℚ) * 2 ^ r := by simpa using big
      have hn : 0 < n := by
        rcases Nat.eq_zero_or_pos n with rfl | hn
        · simp at factor
          linarith
        · exact hn
      rw [mul_finite]
      apply Format.le_round_of_le hp (Nat.mul_ne_zero hm.ne' hn.ne') one_ne_zero fits
      simp only [value_finite, Bool.false_eq_true, if_false, Nat.cast_mul, Nat.cast_one, div_one]
      calc (m : ℚ) * 2 ^ q = m * 2 ^ q * 1 := (mul_one _).symm
        _ ≤ m * 2 ^ q * (n * 2 ^ r) := mul_le_mul_of_nonneg_left factor (by positivity)
        _ = m * n * 2 ^ (q + r) := by
            rw [zpow_add₀ two_ne_zero]
            ring
    · have := value_nonpos (f := f) n r
      linarith

/-- A zero times a finite value is a zero. -/
theorem isZero_mul {x : Binary f} (hx : x.isZero = true) (b : Bool) (n : Nat) (r : Int) :
    (x * finite b n r).isZero = true := by
  match x, hx with
  | .finite s 0 q, _ => simp [isZero]

/-! ## Sums and differences -/

theorem sub_eq_add_neg (x y : Binary f) : x - y = x + -y := rfl

@[simp] theorem finite_add_inf (a b : Bool) (m : Nat) (q : Int) :
    (finite a m q : Binary f) + inf b = inf b := rfl

@[simp] theorem nan_add (y : Binary f) : nan + y = nan := rfl
@[simp] theorem add_nan (x : Binary f) : x + nan = nan := by cases x <;> rfl
@[simp] theorem inf_add_inf (a b : Bool) : (inf a : Binary f) + inf b = if a = b then inf a else nan :=
  rfl
@[simp] theorem inf_add_finite (a b : Bool) (n : Nat) (r : Int) :
    (inf a : Binary f) + finite b n r = inf a := rfl

/-- The sum of two finite values: an exact integer `w` at the scale `2 ^ s`, rounded unless it
is zero. -/
theorem add_finite_cases (a b : Bool) (m n : Nat) (q r : Int) :
    ∃ w s : Int, (w : ℚ) * 2 ^ s = (finite a m q : Binary f).value + (finite b n r : Binary f).value ∧
      (finite a m q : Binary f) + finite b n r =
        if w = 0 then finite (a && b) 0 f.qmin else f.round (decide (w < 0)) w.natAbs 1 s := by
  refine ⟨signedNat a (m * Nat.pow 2 (q - Min.min q r).toNat) +
    signedNat b (n * Nat.pow 2 (r - Min.min q r).toNat), Min.min q r, ?_, rfl⟩
  rw [Int.cast_add, add_mul, signedNat_scaled a m (min_le_left q r),
    signedNat_scaled b n (min_le_right q r)]

theorem natAbs_cast {w : Int} (h : 0 ≤ w) : ((w.natAbs : Nat) : ℚ) = w := by
  have back : ((w.natAbs : Nat) : Int) = w := Int.natAbs_of_nonneg h
  have cast := congrArg (fun z : Int => (z : ℚ)) back
  simpa only [Int.cast_natCast] using cast

theorem finite_sub_ne_nan {y : Binary f} (hy : y ≠ nan) (s : Bool) (m : Nat) (q : Int) :
    finite s m q - y ≠ nan := by
  rw [sub_eq_add_neg]
  cases y with
  | nan => exact absurd rfl hy
  | inf t => simp
  | finite t n r =>
    obtain ⟨w, e, -, sum⟩ := add_finite_cases (f := f) s (!t) m n q r
    rw [neg_finite, sum]
    split_ifs
    · simp
    · exact Format.round_ne_nan _ _ _ _

/-- Adding a finite number of value at most zero to a `+`-signed value of the format gives at
most that value. -/
theorem add_le_of_value_nonpos {k n : Nat} {e r : Int} {b : Bool} (hp : 0 < f.precision)
    (fits : (finite false k e : Binary f).Fits) (h : (finite b n r : Binary f).value ≤ 0) :
    le (finite false k e + finite b n r : Binary f) (finite false k e) = true := by
  obtain ⟨w, d, scaled, sum⟩ := add_finite_cases (f := f) false b k n e r
  rw [sum]
  split_ifs with zero
  · rw [Bool.false_and, le_finite, decide_eq_true_eq]
    simpa using value_nonneg (f := f) k e
  by_cases neg : w < 0
  · rw [decide_eq_true neg]
    exact le_of_nonpos (Format.round_nonpos _ _ _) k e
  rw [decide_eq_false neg]
  apply Format.round_le_of_le hp (Int.natAbs_ne_zero.mpr zero) one_ne_zero fits
  have whole : ((w.natAbs : Nat) : ℚ) = w := natAbs_cast (not_lt.mp neg)
  rw [Nat.cast_one, div_one, whole, scaled]
  linarith

/-- Taking a `+`-signed number or a zero from a value of the format gives at most that value. -/
theorem sub_le_of_nonneg {k : Nat} {e : Int} {t : Binary f} (hp : 0 < f.precision)
    (fits : (finite false k e : Binary f).Fits) (ht : t.nonneg = true ∨ t.isZero = true) :
    le (finite false k e - t) (finite false k e) = true := by
  rw [sub_eq_add_neg]
  cases t with
  | nan => simp [nonneg, isZero] at ht
  | inf s =>
    cases s
    · rfl
    · simp [nonneg, isZero] at ht
  | finite s n r =>
    rw [neg_finite]
    apply add_le_of_value_nonpos hp fits
    cases s
    · exact value_nonpos n r
    · -- a `-`-signed number taken away has to be a zero
      cases n with
      | zero => simp
      | succ n => simp [nonneg, isZero] at ht

/-- Taking a `-`-signed number from a positive value of the format gives at least that value. -/
theorem le_sub_of_nonpos {k : Nat} {e : Int} {t : Binary f} (hp : 0 < f.precision)
    (fits : (finite false k e : Binary f).Fits) (hk : 0 < k) (ht : t.nonpos = true) :
    le (finite false k e) (finite false k e - t) = true := by
  rw [sub_eq_add_neg]
  cases t with
  | nan => simp [nonpos] at ht
  | inf s =>
    cases s
    · simp [nonpos] at ht
    · rfl
  | finite s n r =>
    cases s
    · simp [nonpos] at ht
    · obtain ⟨w, d, scaled, sum⟩ := add_finite_cases (f := f) false false k n e r
      rw [neg_finite, Bool.not_true, sum]
      -- both terms are `+`-signed and the first is positive, so the exact sum is positive
      have pos : (0 : ℚ) < w * 2 ^ d := by
        rw [scaled]
        have : (0 : ℚ) < (finite false k e : Binary f).value := by simp; positivity
        linarith [value_nonneg (f := f) n r]
      have wpos : 0 < w := by
        have : (0 : ℚ) < w := pos_of_mul_pos_left pos (zpow_pos two_pos d).le
        exact_mod_cast this
      rw [if_neg wpos.ne', decide_eq_false (not_lt.mpr wpos.le)]
      apply Format.le_round_of_le hp (Int.natAbs_ne_zero.mpr wpos.ne') one_ne_zero fits
      have whole : ((w.natAbs : Nat) : ℚ) = w := natAbs_cast wpos.le
      rw [Nat.cast_one, div_one, whole, scaled]
      linarith [value_nonneg (f := f) n r]

/-! ## Quotients and roots -/

@[simp] theorem div_finite (a b : Bool) (m n : Nat) (q r : Int) :
    (finite a m q : Binary f) / finite b n r =
      if n = 0 then (if m = 0 then nan else inf (a != b)) else f.round (a != b) m n (q - r) := rfl

@[simp] theorem finite_div_inf (a b : Bool) (m : Nat) (q : Int) :
    (finite a m q : Binary f) / inf b = zero (a != b) := rfl

@[simp] theorem nan_div (y : Binary f) : nan / y = nan := rfl
@[simp] theorem div_nan (x : Binary f) : x / nan = nan := by cases x <;> rfl
@[simp] theorem inf_div_inf (a b : Bool) : (inf a : Binary f) / inf b = nan := rfl
@[simp] theorem inf_div_finite (a b : Bool) (n : Nat) (r : Int) :
    (inf a : Binary f) / finite b n r = inf (a != b) := rfl

theorem div_fits (hp : 0 < f.precision) (he : 0 < f.emax) (x y : Binary f) : (x / y).Fits := by
  have zeroFits : ∀ s : Bool, (zero s : Binary f).Fits := fun _ =>
    ⟨Nat.two_pow_pos _, le_rfl, by unfold Format.qmin Format.qmax; omega⟩
  cases x with
  | nan => trivial
  | inf a =>
    cases y with
    | nan => trivial
    | inf b => trivial
    | finite b n r => trivial
  | finite a m q =>
    cases y with
    | nan => trivial
    | inf b => exact zeroFits _
    | finite b n r =>
      rw [div_finite]
      split_ifs
      · trivial
      · trivial
      · exact Format.round_fits hp he _ _ _ _

theorem sqrt_fits (hp : 0 < f.precision) (he : 0 < f.emax) (x : Binary f) : x.sqrt.Fits := by
  cases x with
  | nan => trivial
  | inf s =>
    simp only [sqrt]
    split_ifs <;> trivial
  | finite s m q =>
    simp only [sqrt]
    split_ifs
    all_goals first
      | exact Format.round_fits hp he _ _ _ _
      | exact ⟨Nat.two_pow_pos _, le_rfl, by unfold Format.qmin Format.qmax; omega⟩
      | trivial

/-- The rounded root `isqrt N · 2 ^ E`, with a half unit for an inexact root, is at least a
value `T` of the format once `4 · T² ≤ N · 4 ^ E`: the integer root loses less than one unit. -/
theorem le_round_root {k N : Nat} {e E : Int} (hp : 0 < f.precision)
    (fits : (finite false k e : Binary f).Fits) (hN : 1 ≤ N)
    (h : 4 * (finite false k e : Binary f).value ^ 2 ≤ N * 2 ^ E * 2 ^ E) :
    le (finite false k e)
      (if isqrt N * isqrt N = N then f.round false (isqrt N) 1 E
        else f.round false (2 * isqrt N + 1) 2 E) = true := by
  obtain ⟨-, above⟩ := isqrt_spec N
  set t := isqrt N
  set T := (finite false k e : Binary f).value
  have hT : 0 ≤ T := value_nonneg k e
  have unit : (0 : ℚ) < 2 ^ E := zpow_pos two_pos E
  have ht : 1 ≤ t := by
    by_contra small
    have zero : t = 0 := by omega
    rw [zero] at above
    omega
  -- `N < (t + 1)²`, so the root `2 T` of `4 T²` is below `(t + 1) · 2 ^ E`
  have root : 2 * T < (t + 1) * 2 ^ E := by
    have below : (N : ℚ) < (t + 1) * (t + 1) := by exact_mod_cast above
    have sq : (2 * T) ^ 2 < ((t + 1) * 2 ^ E) ^ 2 :=
      calc (2 * T) ^ 2 = 4 * T ^ 2 := by ring
        _ ≤ (N : ℚ) * 2 ^ E * 2 ^ E := h
        _ < ((t : ℚ) + 1) * (t + 1) * 2 ^ E * 2 ^ E := by
            apply mul_lt_mul_of_pos_right _ unit
            exact mul_lt_mul_of_pos_right below unit
        _ = (((t : ℚ) + 1) * 2 ^ E) ^ 2 := by ring
    exact (pow_lt_pow_iff_left₀ (by positivity) (by positivity) two_ne_zero).mp sq
  have low : T ≤ t * 2 ^ E := by
    have split : ((t : ℚ) + 1) * 2 ^ E = t * 2 ^ E + 2 ^ E := by ring
    rcases le_or_gt (2 ^ E) T with big | small
    · linarith
    · have : (1 : ℚ) * 2 ^ E ≤ t * 2 ^ E :=
        mul_le_mul_of_nonneg_right (by exact_mod_cast ht) unit.le
      linarith
  split_ifs
  · apply Format.le_round_of_le hp (by omega) one_ne_zero fits
    rw [Nat.cast_one, div_one]
    exact low
  · apply Format.le_round_of_le hp (by omega) two_ne_zero fits
    calc T ≤ t * 2 ^ E := low
      _ ≤ ((2 * t + 1 : Nat) : ℚ) / (2 : Nat) * 2 ^ E := by
          apply mul_le_mul_of_nonneg_right _ unit.le
          push_cast
          linarith

/-- `c · 4 ^ K · 2 ^ E · 2 ^ E` as one power of two. -/
theorem scaled_four_pow (c K : Nat) (E : Int) :
    ((c * Nat.pow 4 K : Nat) : ℚ) * 2 ^ E * 2 ^ E = c * 2 ^ (2 * (K : Int) + 2 * E) := by
  rw [Nat.pow_eq, Nat.cast_mul, Nat.cast_pow, show ((4 : Nat) : ℚ) = 2 ^ (2 : Int) by norm_num,
    ← zpow_natCast, ← zpow_mul, mul_assoc, mul_assoc, ← zpow_add₀ two_ne_zero,
    ← zpow_add₀ two_ne_zero]
  congr 2
  ring

/-- The root of a positive value at least `4 · T²` is at least `T`, for a value `T` of the
format: the root keeps `precision + 2` bits beyond the significand, so the integer root under
it is within a unit of the exact root. -/
theorem le_sqrt {m k : Nat} {q e : Int} (hp : 0 < f.precision) (hm : m ≠ 0)
    (fits : (finite false k e : Binary f).Fits)
    (h : 4 * (finite false k e : Binary f).value ^ 2 ≤ (finite false m q : Binary f).value) :
    le (finite false k e : Binary f) (finite false m q : Binary f).sqrt = true := by
  simp only [sqrt]
  rw [if_neg hm]
  simp only [Bool.false_eq_true, if_false]
  apply le_round_root hp fits
  · split_ifs <;> rw [Nat.pow_eq] <;> exact Nat.one_le_iff_ne_zero.mpr (by positivity)
  · refine h.trans (le_of_eq ?_)
    rw [value_finite]
    simp only [Bool.false_eq_true, if_false]
    by_cases odd : q % 2 = 1
    · simp only [odd, if_true]
      rw [scaled_four_pow, show 2 * ((f.precision + 2 : Nat) : Int) +
          2 * ((q - 1) / 2 - ((f.precision + 2 : Nat) : Int)) = q - 1 by omega,
        zpow_sub₀ two_ne_zero, zpow_one]
      push_cast
      ring
    · simp only [odd, if_false]
      rw [scaled_four_pow, show 2 * ((f.precision + 2 : Nat) : Int) +
          2 * (q / 2 - ((f.precision + 2 : Nat) : Int)) = q by omega]

/-! ## Results that are not `-`-signed -/

/-- A product of numbers that are not `-`-signed is not `-`-signed. -/
theorem mul_nonpos_eq_false {x y : Binary f} (hx : x.nonpos = false) (hy : y.nonpos = false) :
    (x * y).nonpos = false := by
  rcases x with _ | ⟨_ | _⟩ | ⟨_ | _, m, q⟩ <;> rcases y with _ | ⟨_ | _⟩ | ⟨_ | _, n, r⟩ <;>
    simp_all [nonpos]
  all_goals first
    | split_ifs <;> rfl
    | exact nonpos_eq_false_of_nonneg (Format.round_nonneg _ _ _)

/-- A quotient of numbers that are not `-`-signed is not `-`-signed. -/
theorem div_nonpos_eq_false {x y : Binary f} (hx : x.nonpos = false) (hy : y.nonpos = false) :
    (x / y).nonpos = false := by
  rcases x with _ | ⟨_ | _⟩ | ⟨_ | _, m, q⟩ <;> rcases y with _ | ⟨_ | _⟩ | ⟨_ | _, n, r⟩ <;>
    simp_all [nonpos, zero]
  all_goals try split_ifs
  all_goals first
    | rfl
    | exact nonpos_eq_false_of_nonneg (Format.round_nonneg _ _ _)

/-- A sum of numbers that are not `-`-signed is not `-`-signed. -/
theorem add_nonpos_eq_false {x y : Binary f} (hx : x.nonpos = false) (hy : y.nonpos = false) :
    (x + y).nonpos = false := by
  rcases x with _ | ⟨_ | _⟩ | ⟨_ | _, m, q⟩ <;> rcases y with _ | ⟨_ | _⟩ | ⟨_ | _, n, r⟩ <;>
    simp_all [nonpos]
  -- two `+`-signed finite terms: the exact sum is not negative
  obtain ⟨w, s, scaled, sum⟩ := add_finite_cases (f := f) false false m n q r
  have nonneg : 0 ≤ w := by
    have sumNonneg : (0 : ℚ) ≤ w * 2 ^ s := by
      rw [scaled]
      linarith [value_nonneg (f := f) m q, value_nonneg (f := f) n r]
    exact_mod_cast nonneg_of_mul_nonneg_left sumNonneg (zpow_pos two_pos s)
  rw [sum]
  split_ifs
  · rfl
  · rw [decide_eq_false (not_lt.mpr nonneg)]
    exact nonpos_eq_false_of_nonneg (Format.round_nonneg _ _ _)

/-- The root of a number that is not `-`-signed is not `-`-signed. -/
theorem sqrt_nonpos_eq_false {x : Binary f} (hx : x.nonpos = false) : x.sqrt.nonpos = false := by
  rcases x with _ | ⟨_ | _⟩ | ⟨_ | _, m, q⟩ <;> simp_all [nonpos, sqrt]
  split_ifs
  all_goals first
    | rfl
    | exact nonpos_eq_false_of_nonneg (Format.round_nonneg _ _ _)

end Binary

end StepperDrive
