import Mathlib
import StepperDrive.Binary.Arith
/-!
# Values and order of binary floating-point numbers

A finite binary value `± m · 2 ^ q` stands for a rational, `Binary.value`. `compare?` lines two
finite values up on the smaller exponent and compares integers; scaled back, that is the order
of their values (`compare?_finite`). With the infinities as the two ends, every value that is
not NaN has a place in `WithBot (WithTop ℚ)` (`Binary.toExtended`), and there `lt` and `le` are
the order of that line (`lt_eq_true_iff`, `le_eq_true_iff`). So comparisons of numbers chain,
and two numbers always compare one way or the other; only NaN stands outside.

`Fits` says that a finite value is one the format holds: a significand of at most `precision`
bits and an exponent from `qmin` to `qmax`. Every result of the arithmetic fits.
-/

namespace StepperDrive

set_option autoImplicit false

namespace Binary

variable {f : Format}

theorem zero_eq : (0 : Binary f) = .finite false 0 f.qmin := rfl

@[simp] theorem neg_finite (s : Bool) (m : Nat) (q : Int) :
    -(finite s m q : Binary f) = finite (!s) m q := rfl

@[simp] theorem neg_inf (s : Bool) : -(inf s : Binary f) = inf (!s) := rfl

@[simp] theorem neg_nan : -(nan : Binary f) = nan := rfl

/-! ## The value of a finite number -/

/-- The rational a finite value stands for; zero for NaN and the infinities. -/
def value : Binary f → ℚ
  | .finite s m q => (signedNat s m : ℚ) * 2 ^ q
  | _ => 0

@[simp] theorem value_finite (s : Bool) (m : Nat) (q : Int) :
    (finite s m q : Binary f).value = (if s then -(m : ℚ) else m) * 2 ^ q := by
  cases s <;> simp [value, signedNat]

theorem value_nonneg (m : Nat) (q : Int) : 0 ≤ (finite false m q : Binary f).value := by
  rw [value_finite]
  simp only [Bool.false_eq_true, if_false]
  positivity

theorem value_nonpos (m : Nat) (q : Int) : (finite true m q : Binary f).value ≤ 0 := by
  rw [value_finite]
  simp only [if_true, neg_mul, neg_nonpos]
  positivity

/-- The integers `compare?` compares, brought back to the scale of the values. -/
theorem signedNat_scaled (s : Bool) (m : Nat) {q t : Int} (h : t ≤ q) :
    ((signedNat s (m * Nat.pow 2 (q - t).toNat) : Int) : ℚ) * 2 ^ t =
      (finite s m q : Binary f).value := by
  have scale : (2 : ℚ) ^ (q - t).toNat * 2 ^ t = 2 ^ q := by
    rw [← zpow_natCast, Int.toNat_of_nonneg (by omega), ← zpow_add₀ two_ne_zero, sub_add_cancel]
  cases s <;> simp [signedNat, mul_assoc, scale]

/-- Multiplying by a positive constant keeps the comparison. -/
theorem compare_mul_pos (x y : Int) {c : ℚ} (hc : 0 < c) :
    compare x y = compare ((x : ℚ) * c) ((y : ℚ) * c) := by
  rcases lt_trichotomy x y with lt | rfl | gt
  · have scaled : (x : ℚ) * c < y * c := mul_lt_mul_of_pos_right (by exact_mod_cast lt) hc
    rw [compare_lt_iff_lt.mpr lt, compare_lt_iff_lt.mpr scaled]
  · simp
  · have scaled : (y : ℚ) * c < x * c := mul_lt_mul_of_pos_right (by exact_mod_cast gt) hc
    rw [compare_gt_iff_gt.mpr gt, compare_gt_iff_gt.mpr scaled]

/-- Two finite values compare as their values do. -/
theorem compare?_finite (a b : Bool) (m n : Nat) (q r : Int) :
    compare? (finite a m q : Binary f) (finite b n r) =
      some (compare (finite a m q : Binary f).value (finite b n r : Binary f).value) := by
  rw [← signedNat_scaled a m (min_le_left q r), ← signedNat_scaled b n (min_le_right q r),
    ← compare_mul_pos _ _ (zpow_pos two_pos _)]
  rfl

theorem some_compare_lt (v w : ℚ) : (some (compare v w) == some Ordering.lt) = decide (v < w) := by
  rcases lt_trichotomy v w with h | rfl | h
  · simp [compare_lt_iff_lt.mpr h, h]
  · simp
  · simp [compare_gt_iff_gt.mpr h, not_lt.mpr h.le]

theorem some_compare_le (v w : ℚ) :
    (some (compare v w) == some Ordering.lt || some (compare v w) == some Ordering.eq) =
      decide (v ≤ w) := by
  rcases lt_trichotomy v w with h | rfl | h
  · simp [compare_lt_iff_lt.mpr h, h.le]
  · simp
  · simp [compare_gt_iff_gt.mpr h, not_le.mpr h]

theorem lt_finite (a b : Bool) (m n : Nat) (q r : Int) :
    lt (finite a m q : Binary f) (finite b n r) =
      decide ((finite a m q : Binary f).value < (finite b n r : Binary f).value) := by
  rw [lt, compare?_finite, some_compare_lt]

theorem le_finite (a b : Bool) (m n : Nat) (q r : Int) :
    le (finite a m q : Binary f) (finite b n r) =
      decide ((finite a m q : Binary f).value ≤ (finite b n r : Binary f).value) := by
  rw [le, compare?_finite, some_compare_le]

/-! ## The order on the extended line -/

/-- The place of a value on the rational line with both ends: the infinities are the ends,
and NaN, which compares with nothing, is put at the bottom. -/
def toExtended : Binary f → WithBot (WithTop ℚ)
  | .nan | .inf true => ⊥
  | .inf false => ((⊤ : WithTop ℚ) : WithBot (WithTop ℚ))
  | .finite s m q => (((finite s m q : Binary f).value : WithTop ℚ) : WithBot (WithTop ℚ))

theorem lt_eq_true_iff {x y : Binary f} (hx : x ≠ nan) (hy : y ≠ nan) :
    lt x y = true ↔ x.toExtended < y.toExtended := by
  cases x with
  | nan => exact absurd rfl hx
  | inf s =>
    cases y with
    | nan => exact absurd rfl hy
    | inf t => cases s <;> cases t <;> simp [lt, compare?, toExtended]
    | finite t n r => cases s <;> simp [lt, compare?, toExtended]
  | finite s m q =>
    cases y with
    | nan => exact absurd rfl hy
    | inf t =>
      cases t
      · exact iff_of_true rfl (WithBot.coe_lt_coe.mpr (WithTop.coe_lt_top _))
      · simp [lt, compare?, toExtended]
    | finite t n r => simp [lt_finite, toExtended]

theorem le_eq_true_iff {x y : Binary f} (hx : x ≠ nan) (hy : y ≠ nan) :
    le x y = true ↔ x.toExtended ≤ y.toExtended := by
  cases x with
  | nan => exact absurd rfl hx
  | inf s =>
    cases y with
    | nan => exact absurd rfl hy
    | inf t => cases s <;> cases t <;> simp [le, compare?, toExtended]
    | finite t n r => cases s <;> simp [le, compare?, toExtended]
  | finite s m q =>
    cases y with
    | nan => exact absurd rfl hy
    | inf t =>
      cases t
      · exact iff_of_true rfl (WithBot.coe_le_coe.mpr le_top)
      · simp [le, compare?, toExtended]
    | finite t n r => simp [le_finite, toExtended]

@[simp] theorem lt_nan_left (y : Binary f) : lt nan y = false := rfl

@[simp] theorem lt_nan_right (x : Binary f) : lt x nan = false := by
  cases x <;> rfl

@[simp] theorem le_nan_left (y : Binary f) : le nan y = false := rfl

@[simp] theorem le_nan_right (x : Binary f) : le x nan = false := by
  cases x <;> rfl

theorem ne_nan_of_le_left {x y : Binary f} (h : le x y = true) : x ≠ nan := by
  rintro rfl
  simp at h

theorem ne_nan_of_le_right {x y : Binary f} (h : le x y = true) : y ≠ nan := by
  rintro rfl
  simp at h

theorem ne_nan_of_lt_left {x y : Binary f} (h : lt x y = true) : x ≠ nan := by
  rintro rfl
  simp at h

theorem ne_nan_of_lt_right {x y : Binary f} (h : lt x y = true) : y ≠ nan := by
  rintro rfl
  simp at h

theorem le_refl_of_ne_nan {x : Binary f} (hx : x ≠ nan) : le x x = true :=
  (le_eq_true_iff hx hx).mpr le_rfl

theorem le_trans_of_le {x y z : Binary f} (xy : le x y = true) (yz : le y z = true) :
    le x z = true := by
  have hx := ne_nan_of_le_left xy
  have hy := ne_nan_of_le_right xy
  have hz := ne_nan_of_le_right yz
  rw [le_eq_true_iff hx hy] at xy
  rw [le_eq_true_iff hy hz] at yz
  exact (le_eq_true_iff hx hz).mpr (xy.trans yz)

theorem lt_of_lt_of_le_true {x y z : Binary f} (xy : lt x y = true) (yz : le y z = true) :
    lt x z = true := by
  have hx := ne_nan_of_lt_left xy
  have hy := ne_nan_of_lt_right xy
  have hz := ne_nan_of_le_right yz
  rw [lt_eq_true_iff hx hy] at xy
  rw [le_eq_true_iff hy hz] at yz
  exact (lt_eq_true_iff hx hz).mpr (lt_of_lt_of_le xy yz)

theorem le_of_lt_true {x y : Binary f} (h : lt x y = true) : le x y = true := by
  have hx := ne_nan_of_lt_left h
  have hy := ne_nan_of_lt_right h
  exact (le_eq_true_iff hx hy).mpr ((lt_eq_true_iff hx hy).mp h).le

/-- Two numbers compare one way or the other. -/
theorem le_of_lt_eq_false {x y : Binary f} (hx : x ≠ nan) (hy : y ≠ nan) (h : lt x y = false) :
    le y x = true := by
  rw [le_eq_true_iff hy hx]
  rw [← Bool.not_eq_true, lt_eq_true_iff hx hy] at h
  exact not_lt.mp h

theorem lt_eq_false_of_le {x y : Binary f} (h : le y x = true) : lt x y = false := by
  have hy := ne_nan_of_le_left h
  have hx := ne_nan_of_le_right h
  rw [le_eq_true_iff hy hx] at h
  rw [← Bool.not_eq_true, lt_eq_true_iff hx hy]
  exact not_lt.mpr h

/-! ## Signs -/

/-- Whether the value is a number of sign `+`: a `+`-signed finite value or `+∞`. -/
def nonneg : Binary f → Bool
  | .finite false _ _ | .inf false => true
  | _ => false

/-- Whether the value is a number of sign `-`: a `-`-signed finite value or `-∞`. -/
def nonpos : Binary f → Bool
  | .finite true _ _ | .inf true => true
  | _ => false

/-- A positive number is `+`-signed. -/
theorem nonneg_of_lt {x : Binary f} (h : lt 0 x = true) : x.nonneg = true := by
  rw [zero_eq] at h
  cases x with
  | nan => simp at h
  | inf s => cases s <;> simp_all [lt, compare?, nonneg]
  | finite s m q =>
    cases s
    · rfl
    · have neg := value_nonpos (f := f) m q
      simp only [lt_finite, decide_eq_true_eq] at h
      simp at h neg
      linarith

/-- A negative number is `-`-signed. -/
theorem nonpos_of_lt {x : Binary f} (h : lt x 0 = true) : x.nonpos = true := by
  rw [zero_eq] at h
  cases x with
  | nan => simp at h
  | inf s => cases s <;> simp_all [lt, compare?, nonpos]
  | finite s m q =>
    cases s
    · have pos := value_nonneg (f := f) m q
      simp only [lt_finite, decide_eq_true_eq] at h
      simp at h pos
      linarith
    · rfl

/-- The negation of a positive value is negative. -/
theorem neg_lt_zero {x : Binary f} (h : lt 0 x = true) : lt (-x) 0 = true := by
  rw [zero_eq] at h ⊢
  cases x with
  | nan => simp [lt, compare?] at h
  | inf negative =>
    cases negative
    · rfl
    · simp [lt, compare?] at h
  | finite negative m q =>
    cases negative <;> simpa [lt, compare?, signedNat, compare_lt_iff_lt, min_comm] using h

/-- A `+`-signed value is not negative. -/
theorem nonpos_eq_false_of_nonneg {x : Binary f} (h : x.nonneg = true) : x.nonpos = false := by
  cases x with
  | nan => simp [nonneg] at h
  | inf s => cases s <;> simp_all [nonneg, nonpos]
  | finite s m q => cases s <;> simp_all [nonneg, nonpos]

/-- A positive number is a `+`-signed finite value with a nonzero significand, or `+∞`. -/
theorem positive_cases {x : Binary f} (h : lt 0 x = true) :
    (∃ m q, 0 < m ∧ x = finite false m q) ∨ x = inf false := by
  rw [zero_eq] at h
  cases x with
  | nan => simp at h
  | inf s =>
    cases s
    · exact .inr rfl
    · simp [lt, compare?] at h
  | finite s m q =>
    rw [lt_finite, decide_eq_true_eq] at h
    cases s
    · refine .inl ⟨m, q, Nat.pos_of_ne_zero fun zero => ?_, rfl⟩
      simp [zero] at h
    · have neg := value_nonpos (f := f) m q
      simp at h neg
      linarith

/-- A negative number is a `-`-signed finite value with a nonzero significand, or `-∞`. -/
theorem negative_cases {x : Binary f} (h : lt x 0 = true) :
    (∃ m q, 0 < m ∧ x = finite true m q) ∨ x = inf true := by
  rw [zero_eq] at h
  cases x with
  | nan => simp at h
  | inf s =>
    cases s
    · simp [lt, compare?] at h
    · exact .inr rfl
  | finite s m q =>
    rw [lt_finite, decide_eq_true_eq] at h
    cases s
    · have pos := value_nonneg (f := f) m q
      simp at h pos
      linarith
    · refine .inl ⟨m, q, Nat.pos_of_ne_zero fun zero => ?_, rfl⟩
      simp [zero] at h

/-- A zero is neither positive nor negative. -/
theorem lt_eq_false_of_isZero {x : Binary f} (h : x.isZero = true) :
    lt 0 x = false ∧ lt x 0 = false := by
  match x, h with
  | .finite s 0 q, _ =>
    rw [zero_eq, lt_finite, lt_finite]
    simp

/-- Every number is positive, a zero, or negative. -/
theorem sign_cases {x : Binary f} (hx : x ≠ nan) :
    lt 0 x = true ∨ x.isZero = true ∨ lt x 0 = true := by
  cases x with
  | nan => exact absurd rfl hx
  | inf s => cases s <;> simp [lt, compare?, zero_eq]
  | finite s m q =>
    rcases Nat.eq_zero_or_pos m with rfl | hm
    · exact .inr (.inl rfl)
    rw [zero_eq, lt_finite, lt_finite, decide_eq_true_eq, decide_eq_true_eq]
    cases s
    · left
      simp
      positivity
    · right; right
      simp
      positivity

/-- A number at least a positive finite value is a `+`-signed finite value at least as large, or
`+∞`. -/
theorem cases_of_positive_le {k : Nat} {e : Int} {y : Binary f} (hk : 0 < k)
    (h : le (finite false k e) y = true) :
    (∃ n r, y = finite false n r ∧
      (finite false k e : Binary f).value ≤ (finite false n r : Binary f).value) ∨ y = inf false := by
  cases y with
  | nan => simp at h
  | inf s =>
    cases s
    · exact .inr rfl
    · simp [le, compare?] at h
  | finite s n r =>
    rw [le_finite, decide_eq_true_eq] at h
    cases s
    · exact .inl ⟨n, r, rfl, h⟩
    · have pos : (0 : ℚ) < (finite false k e : Binary f).value := by simp; positivity
      linarith [value_nonpos (f := f) n r]

/-- Nothing is below `+∞`'s place: `lt (+∞) y` never holds. -/
theorem lt_inf_false (y : Binary f) : lt (inf false) y = false := by
  cases y with
  | nan => rfl
  | inf s => cases s <;> rfl
  | finite s n r => rfl

/-- Every number is at most `+∞`. -/
theorem le_inf_false {x : Binary f} (hx : x ≠ nan) : le x (inf false) = true := by
  cases x with
  | nan => exact absurd rfl hx
  | inf s => cases s <;> rfl
  | finite s n r => rfl

/-- Of two numbers the larger is the one `lt` picks. -/
theorem max_of_ne_nan {x y : Binary f} (hx : x ≠ nan) (hy : y ≠ nan) :
    Binary.max x y = if lt x y then y else x := by
  have hx' : x.isNaN = false := by cases x <;> simp_all [isNaN]
  have hy' : y.isNaN = false := by cases y <;> simp_all [isNaN]
  simp [Binary.max, hx', hy']

/-! ## Values the format holds -/

/-- A finite value the format holds: a significand of at most `precision` bits and an exponent
from `qmin` to `qmax`. -/
def Fits : Binary f → Prop
  | .finite _ m q => m < 2 ^ f.precision ∧ f.qmin ≤ q ∧ q ≤ f.qmax
  | _ => True

instance (x : Binary f) : Decidable x.Fits :=
  match x with
  | .finite _ m q => inferInstanceAs (Decidable (m < 2 ^ f.precision ∧ f.qmin ≤ q ∧ q ≤ f.qmax))
  | .nan => isTrue trivial
  | .inf _ => isTrue trivial

/-- A finite value of the format above zero. -/
def PositiveFinite (x : Binary f) : Prop :=
  ∃ m q, 0 < m ∧ x = finite false m q ∧ (finite false m q : Binary f).Fits

/-- A finite value the format holds is below `2 ^ (qmax + precision)` in magnitude. -/
theorem value_lt_of_fits {s : Bool} {m : Nat} {q : Int} (fits : (finite s m q : Binary f).Fits) :
    |(finite s m q : Binary f).value| < 2 ^ (f.qmax + f.precision) := by
  obtain ⟨small, -, top⟩ := fits
  have mag : |(finite s m q : Binary f).value| = m * 2 ^ q := by
    cases s <;> simp [abs_of_nonneg, abs_mul]
  rw [mag]
  calc (m : ℚ) * 2 ^ q < 2 ^ f.precision * 2 ^ q := by
        apply mul_lt_mul_of_pos_right _ (zpow_pos two_pos _)
        exact_mod_cast small
    _ = 2 ^ (q + f.precision) := by
        rw [zpow_add₀ two_ne_zero, zpow_natCast, mul_comm]
    _ ≤ 2 ^ (f.qmax + f.precision) := zpow_le_zpow_right₀ one_le_two (by omega)

end Binary

end StepperDrive
