import StepperDrive.Proofs.Binary.Order
/-!
# Correct rounding never crosses a value of the format

`Format.round` finds the leading exponent `L` of the exact value `v = num / den · 2 ^ scale`,
takes the quantum `q = max (L + 1 - precision) qmin`, rounds `v / 2 ^ q` to the nearest natural
(`Format.significand`) and packs it, carrying into a new leading bit or overflowing to
infinity (`Format.pack`). From the two bounds `2 ^ L ≤ v < 2 ^ (L + 1)` (`leadExponent_spec`)
and the nearest-natural bounds of `divRoundEven`, rounding a value below a value `u` of the
format gives at most `u` (`round_le_of_le`), and rounding a value above `u` gives at least `u`
(`le_round_of_le`): a value of the format is whole in quanta at every exponent it can meet.
Rounding results fit the format (`round_fits`), are never NaN, carry the requested sign, and a
value below half the least subnormal rounds to zero (`round_eq_zero`).
-/

namespace StepperDrive

set_option autoImplicit false

/-! ## The nearest natural to a quotient -/

theorem div_le_divRoundEven (a b : Nat) : a / b ≤ divRoundEven a b := by
  unfold divRoundEven
  dsimp only
  split_ifs <;> omega

theorem divRoundEven_le_succ (a b : Nat) : divRoundEven a b ≤ a / b + 1 := by
  unfold divRoundEven
  dsimp only
  split_ifs <;> omega

/-- A quotient at most `K` rounds to at most `K`. -/
theorem divRoundEven_le {a b K : Nat} (hb : 0 < b) (h : a ≤ K * b) : divRoundEven a b ≤ K := by
  have quot : a / b ≤ K := Nat.div_le_of_le_mul (by rwa [Nat.mul_comm] at h)
  rcases Nat.lt_or_eq_of_le quot with lt | eq
  · exact (divRoundEven_le_succ a b).trans lt
  -- the quotient is `K` itself, so nothing is left over to round up
  have parts := Nat.div_add_mod a b
  rw [eq] at parts
  have comm : b * K = K * b := Nat.mul_comm _ _
  have rem : a % b = 0 := by omega
  unfold divRoundEven
  simp [rem, hb, eq]

/-- A quotient at least `K` rounds to at least `K`. -/
theorem le_divRoundEven {a b K : Nat} (hb : 0 < b) (h : K * b ≤ a) : K ≤ divRoundEven a b :=
  ((Nat.le_div_iff_mul_le hb).mpr h).trans (div_le_divRoundEven a b)

/-- A quotient below one half rounds to zero. -/
theorem divRoundEven_eq_zero {a b : Nat} (h : 2 * a < b) : divRoundEven a b = 0 := by
  have quot : a / b = 0 := Nat.div_eq_of_lt (by omega)
  have rem : a % b = a := Nat.mod_eq_of_lt (by omega)
  unfold divRoundEven
  simp [quot, rem, h]

/-! ## The leading exponent -/

theorem two_zpow_natCast (k : Nat) : ((2 ^ k : Nat) : ℚ) = (2 : ℚ) ^ (k : Int) := by
  rw [zpow_natCast]
  push_cast
  rfl

theorem ratioGePow_iff {num den : Nat} (e : Int) :
    ratioGePow num den e = true ↔ (den : ℚ) * 2 ^ e ≤ num := by
  unfold ratioGePow
  split
  · rename_i nonneg
    rw [decide_eq_true_iff, Nat.pow_eq, ← Nat.cast_le (α := ℚ), Nat.cast_mul, two_zpow_natCast,
      Int.toNat_of_nonneg nonneg]
  · rename_i neg
    have unit : (2 : ℚ) ^ (-e).toNat * 2 ^ e = 1 := by
      rw [← zpow_natCast, Int.toNat_of_nonneg (by omega), ← zpow_add₀ two_ne_zero, neg_add_cancel,
        zpow_zero]
    rw [decide_eq_true_iff, Nat.pow_eq, ← Nat.cast_le (α := ℚ), Nat.cast_mul, Nat.cast_pow,
      Nat.cast_ofNat, ← mul_le_mul_iff_of_pos_right (zpow_pos two_pos e), mul_assoc, unit, mul_one]

/-- The leading exponent of a positive quotient: `2 ^ L ≤ num / den < 2 ^ (L + 1)`. -/
theorem leadExponent_spec {num den : Nat} (hnum : num ≠ 0) (hden : den ≠ 0) :
    (den : ℚ) * 2 ^ leadExponent num den ≤ num ∧
      (num : ℚ) < den * 2 ^ (leadExponent num den + 1) := by
  have numLow : (2 : ℚ) ^ (num.log2 : Int) ≤ num := by
    rw [← two_zpow_natCast]
    exact_mod_cast Nat.log2_self_le hnum
  have numHigh : (num : ℚ) < 2 ^ ((num.log2 : Int) + 1) := by
    rw [show (num.log2 : Int) + 1 = ((num.log2 + 1 : Nat) : Int) by push_cast; rfl,
      ← two_zpow_natCast]
    exact_mod_cast Nat.lt_log2_self
  have denLow : (2 : ℚ) ^ (den.log2 : Int) ≤ den := by
    rw [← two_zpow_natCast]
    exact_mod_cast Nat.log2_self_le hden
  have denHigh : (den : ℚ) < 2 ^ ((den.log2 : Int) + 1) := by
    rw [show (den.log2 : Int) + 1 = ((den.log2 + 1 : Nat) : Int) by push_cast; rfl,
      ← two_zpow_natCast]
    exact_mod_cast Nat.lt_log2_self
  unfold leadExponent
  dsimp only
  by_cases ge : ratioGePow num den ((num.log2 : Int) - den.log2) = true
  · -- the leading bits alone decide
    rw [if_pos ge]
    refine ⟨(ratioGePow_iff _).mp ge, ?_⟩
    calc (num : ℚ) < 2 ^ ((num.log2 : Int) + 1) := numHigh
      _ = 2 ^ (den.log2 : Int) * 2 ^ ((num.log2 : Int) - den.log2 + 1) := by
          rw [← zpow_add₀ two_ne_zero]
          ring_nf
      _ ≤ den * 2 ^ ((num.log2 : Int) - den.log2 + 1) :=
          mul_le_mul_of_nonneg_right denLow (by positivity)
  · -- one step down
    rw [if_neg ge]
    rw [ratioGePow_iff, not_le] at ge
    refine ⟨?_, by simpa using ge⟩
    calc (den : ℚ) * 2 ^ ((num.log2 : Int) - den.log2 - 1)
        ≤ 2 ^ ((den.log2 : Int) + 1) * 2 ^ ((num.log2 : Int) - den.log2 - 1) :=
          mul_le_mul_of_nonneg_right denHigh.le (by positivity)
      _ = 2 ^ (num.log2 : Int) := by
          rw [← zpow_add₀ two_ne_zero]
          ring_nf
      _ ≤ num := numLow

/-! ## Rounding in two steps -/

namespace Format

variable (f : Format)

/-- The exponent of the last significand bit of the rounded value of `num / den · 2 ^ scale`. -/
def quantum (num den : Nat) (scale : Int) : Int :=
  max (leadExponent num den + scale + 1 - f.precision) f.qmin

/-- The exact value `num / den · 2 ^ scale` in quanta, rounded to the nearest natural. -/
def significand (num den : Nat) (scale : Int) : Nat :=
  let shift := scale - f.quantum num den scale
  if 0 ≤ shift then divRoundEven (num * Nat.pow 2 shift.toNat) den
  else divRoundEven num (den * Nat.pow 2 (-shift).toNat)

/-- The value `± n · 2 ^ q` in the format: a significand that carried into a new leading bit
moves up one exponent, and an exponent past `qmax` is an infinity. -/
def pack (negative : Bool) (n : Nat) (q : Int) : Binary f :=
  if n = Nat.pow 2 f.precision then
    if f.qmax < q + 1 then .inf negative
    else .finite negative (Nat.pow 2 (f.precision - 1)) (q + 1)
  else if f.qmax < q then .inf negative
  else .finite negative n q

theorem round_eq {negative : Bool} {num den : Nat} (hnum : num ≠ 0) (hden : den ≠ 0)
    (scale : Int) :
    f.round negative num den scale =
      f.pack negative (f.significand num den scale) (f.quantum num den scale) := by
  unfold round
  rw [if_neg (by omega)]
  rfl

variable {f} {num den : Nat} {scale : Int}

theorem qmin_le_quantum : f.qmin ≤ f.quantum num den scale := le_max_right _ _

theorem lead_le_quantum (num den : Nat) (scale : Int) :
    leadExponent num den + scale + 1 - f.precision ≤ f.quantum num den scale := le_max_left _ _

theorem quantum_eq_of_lt (h : f.qmin < f.quantum num den scale) :
    f.quantum num den scale = leadExponent num den + scale + 1 - f.precision := by
  unfold quantum at *
  omega

/-- The significand is the nearest natural to a fraction equal to the value in quanta. -/
theorem significand_spec (hden : den ≠ 0) (scale : Int) :
    ∃ a b : Nat, 0 < b ∧ (a : ℚ) / b = num / den * 2 ^ scale / 2 ^ f.quantum num den scale ∧
      f.significand num den scale = divRoundEven a b := by
  unfold significand
  dsimp only
  have inQuanta : (num : ℚ) / den * 2 ^ scale / 2 ^ f.quantum num den scale =
      num / den * 2 ^ (scale - f.quantum num den scale) := by
    rw [zpow_sub₀ two_ne_zero, mul_div_assoc]
  rw [inQuanta]
  split
  · rename_i nonneg
    refine ⟨num * Nat.pow 2 (scale - f.quantum num den scale).toNat, den,
      Nat.pos_of_ne_zero hden, ?_, rfl⟩
    rw [Nat.pow_eq, Nat.cast_mul, two_zpow_natCast, Int.toNat_of_nonneg nonneg]
    ring
  · rename_i neg
    refine ⟨num, den * Nat.pow 2 (-(scale - f.quantum num den scale)).toNat,
      Nat.mul_pos (Nat.pos_of_ne_zero hden) (Nat.two_pow_pos _), ?_, rfl⟩
    rw [Nat.pow_eq, Nat.cast_mul, two_zpow_natCast, Int.toNat_of_nonneg (by omega), zpow_neg]
    field_simp

theorem significand_le {K : Nat} (hden : den ≠ 0)
    (h : (num : ℚ) / den * 2 ^ scale ≤ K * 2 ^ f.quantum num den scale) :
    f.significand num den scale ≤ K := by
  obtain ⟨a, b, hb, ratio, eq⟩ := significand_spec (f := f) hden scale
  rw [eq]
  apply divRoundEven_le hb
  have scaled : (a : ℚ) ≤ K * b := by
    rw [← div_le_iff₀ (by exact_mod_cast hb), ratio, div_le_iff₀ (zpow_pos two_pos _)]
    exact h
  exact_mod_cast scaled

theorem le_significand {K : Nat} (hden : den ≠ 0)
    (h : (K : ℚ) * 2 ^ f.quantum num den scale ≤ num / den * 2 ^ scale) :
    K ≤ f.significand num den scale := by
  obtain ⟨a, b, hb, ratio, eq⟩ := significand_spec (f := f) hden scale
  rw [eq]
  apply le_divRoundEven hb
  have scaled : (K : ℚ) * b ≤ a := by
    rw [← le_div_iff₀ (by exact_mod_cast hb), ratio, le_div_iff₀ (zpow_pos two_pos _)]
    exact h
  exact_mod_cast scaled

theorem significand_eq_zero (hden : den ≠ 0)
    (h : 2 * ((num : ℚ) / den * 2 ^ scale) < 2 ^ f.quantum num den scale) :
    f.significand num den scale = 0 := by
  obtain ⟨a, b, hb, ratio, eq⟩ := significand_spec (f := f) hden scale
  rw [eq]
  apply divRoundEven_eq_zero
  have scaled : 2 * (a : ℚ) < b := by
    have half : 2 * ((a : ℚ) / b) < 1 := by
      rw [ratio, mul_div_assoc', div_lt_one (zpow_pos two_pos _)]
      exact h
    rwa [mul_div_assoc', div_lt_one (by exact_mod_cast hb)] at half
  exact_mod_cast scaled

/-- The exact value lies in the binade of its leading exponent. -/
theorem value_bounds (hnum : num ≠ 0) (hden : den ≠ 0) (scale : Int) :
    (2 : ℚ) ^ (leadExponent num den + scale) ≤ num / den * 2 ^ scale ∧
      (num : ℚ) / den * 2 ^ scale < 2 ^ (leadExponent num den + scale + 1) := by
  obtain ⟨low, high⟩ := leadExponent_spec hnum hden
  have hd : (0 : ℚ) < den := by exact_mod_cast Nat.pos_of_ne_zero hden
  have hs : (0 : ℚ) < 2 ^ scale := zpow_pos two_pos _
  constructor
  · rw [zpow_add₀ two_ne_zero]
    apply mul_le_mul_of_nonneg_right _ hs.le
    rw [le_div_iff₀ hd, mul_comm]
    exact low
  · rw [add_right_comm, zpow_add₀ two_ne_zero]
    apply mul_lt_mul_of_pos_right _ hs
    rw [div_lt_iff₀ hd, mul_comm]
    exact high

/-- The significand never needs more than one bit beyond the format's. -/
theorem significand_le_two_pow (hnum : num ≠ 0) (hden : den ≠ 0) :
    f.significand num den scale ≤ 2 ^ f.precision := by
  apply significand_le hden
  calc (num : ℚ) / den * 2 ^ scale ≤ 2 ^ (leadExponent num den + scale + 1) :=
        (value_bounds hnum hden scale).2.le
    _ ≤ 2 ^ ((f.precision : Int) + f.quantum num den scale) :=
        zpow_le_zpow_right₀ one_le_two (by have := lead_le_quantum (f := f) num den scale; omega)
    _ = ((2 ^ f.precision : Nat) : ℚ) * 2 ^ f.quantum num den scale := by
        rw [zpow_add₀ two_ne_zero, two_zpow_natCast]

/-! ## Packing -/

theorem carry_value (hp : 0 < f.precision) (negative : Bool) (q : Int) :
    (Binary.finite negative (Nat.pow 2 (f.precision - 1)) (q + 1) : Binary f).value =
      (Binary.finite negative (Nat.pow 2 f.precision) q : Binary f).value := by
  have bits : (2 : ℚ) ^ (f.precision - 1) * 2 ^ (q + 1) = 2 ^ f.precision * 2 ^ q := by
    rw [← zpow_natCast, ← zpow_natCast (2 : ℚ) f.precision, ← zpow_add₀ two_ne_zero,
      ← zpow_add₀ two_ne_zero, Nat.cast_sub hp]
    congr 1
    push_cast
    ring
  cases negative <;> simp [bits]

/-- A packed `+` value below a value of the format is at most that value. -/
theorem pack_le_of_le {n m : Nat} {q e : Int} (hp : 0 < f.precision) (hn : n ≤ 2 ^ f.precision)
    (room : q + 1 ≤ f.qmax ∨ n < 2 ^ f.precision ∧ q ≤ f.qmax)
    (h : (n : ℚ) * 2 ^ q ≤ (Binary.finite false m e : Binary f).value) :
    Binary.le (f.pack false n q) (.finite false m e) = true := by
  unfold pack
  rw [Nat.pow_eq]
  split_ifs with carry big big'
  · omega
  · rw [Binary.le_finite, decide_eq_true_eq, carry_value hp, Nat.pow_eq, ← carry]
    simpa using h
  · omega
  · rw [Binary.le_finite, decide_eq_true_eq]
    simpa using h

/-- A value of the format below a packed `+` value is at most it, or the pack overflowed. -/
theorem le_pack_of_le {n m : Nat} {q e : Int} (hp : 0 < f.precision)
    (h : (Binary.finite false m e : Binary f).value ≤ n * 2 ^ q) :
    Binary.le (.finite false m e) (f.pack false n q) = true := by
  unfold pack
  rw [Nat.pow_eq]
  split_ifs with carry big big'
  · rfl
  · rw [Binary.le_finite, decide_eq_true_eq, carry_value hp, Nat.pow_eq, ← carry]
    simpa using h
  · rfl
  · rw [Binary.le_finite, decide_eq_true_eq]
    simpa using h

theorem pack_fits {negative : Bool} {n : Nat} {q : Int} (hp : 0 < f.precision)
    (hn : n ≤ 2 ^ f.precision) (low : f.qmin ≤ q) : (f.pack negative n q).Fits := by
  unfold pack
  rw [Nat.pow_eq, Nat.pow_eq]
  split_ifs with carry big big'
  · trivial
  · exact ⟨Nat.pow_lt_pow_right (by decide) (by omega), by omega, by omega⟩
  · trivial
  · exact ⟨by omega, low, by omega⟩

/-! ## What rounding gives -/

theorem round_fits (hp : 0 < f.precision) (he : 0 < f.emax) (negative : Bool) (num den : Nat)
    (scale : Int) : (f.round negative num den scale).Fits := by
  by_cases zero : num = 0 ∨ den = 0
  · unfold round
    rw [if_pos zero]
    exact ⟨Nat.two_pow_pos _, le_rfl, by unfold qmin qmax; omega⟩
  have hnum : num ≠ 0 := by tauto
  have hden : den ≠ 0 := by tauto
  rw [f.round_eq hnum hden]
  exact pack_fits hp (significand_le_two_pow hnum hden) qmin_le_quantum

theorem pack_ne_nan (negative : Bool) (n : Nat) (q : Int) : f.pack negative n q ≠ .nan := by
  unfold pack
  split_ifs <;> simp

theorem round_ne_nan (negative : Bool) (num den : Nat) (scale : Int) :
    f.round negative num den scale ≠ .nan := by
  unfold round
  split_ifs
  · simp
  · exact pack_ne_nan _ _ _

/-- A zero numerator rounds to the zero of the given sign. -/
@[simp] theorem round_zero (negative : Bool) (den : Nat) (scale : Int) :
    f.round negative 0 den scale = .finite negative 0 f.qmin := by
  unfold round
  rw [if_pos (.inl rfl)]

theorem round_nonneg (num den : Nat) (scale : Int) : (f.round false num den scale).nonneg = true := by
  by_cases zero : num = 0 ∨ den = 0
  · unfold round
    rw [if_pos zero]
    rfl
  rw [f.round_eq (by tauto) (by tauto)]
  unfold pack
  split_ifs <;> rfl

theorem round_nonpos (num den : Nat) (scale : Int) : (f.round true num den scale).nonpos = true := by
  by_cases zero : num = 0 ∨ den = 0
  · unfold round
    rw [if_pos zero]
    rfl
  rw [f.round_eq (by tauto) (by tauto)]
  unfold pack
  split_ifs <;> rfl

/-- Rounding a positive value below a `+` value of the format gives at most that value. -/
theorem round_le_of_le {m : Nat} {e : Int} (hp : 0 < f.precision) (hnum : num ≠ 0)
    (hden : den ≠ 0) (fits : (Binary.finite false m e : Binary f).Fits)
    (h : (num : ℚ) / den * 2 ^ scale ≤ (Binary.finite false m e : Binary f).value) :
    Binary.le (f.round false num den scale) (.finite false m e) = true := by
  obtain ⟨small, low, top⟩ := fits
  rw [f.round_eq hnum hden]
  have bound : (Binary.finite false m e : Binary f).value = m * 2 ^ e := by simp
  rw [bound] at h
  -- the quantum is no coarser than the bound's exponent, or the bound would be below `2 ^ L`
  have fine : f.quantum num den scale ≤ e := by
    by_contra coarse
    rw [not_le] at coarse
    have lead := quantum_eq_of_lt (lt_of_le_of_lt low coarse)
    have below : (m : ℚ) * 2 ^ e < 2 ^ (leadExponent num den + scale) :=
      calc (m : ℚ) * 2 ^ e < ((2 ^ f.precision : Nat) : ℚ) * 2 ^ e :=
            mul_lt_mul_of_pos_right (by exact_mod_cast small) (zpow_pos two_pos _)
        _ = 2 ^ ((f.precision : Int) + e) := by rw [two_zpow_natCast, ← zpow_add₀ two_ne_zero]
        _ ≤ 2 ^ (leadExponent num den + scale) := zpow_le_zpow_right₀ one_le_two (by omega)
    linarith [(value_bounds hnum hden scale).1]
  -- so the bound is a whole number `K` of quanta
  set q := f.quantum num den scale
  set K := m * 2 ^ (e - q).toNat
  have whole : (K : ℚ) * 2 ^ q = m * 2 ^ e := by
    rw [Nat.cast_mul, two_zpow_natCast, Int.toNat_of_nonneg (by omega), mul_assoc,
      ← zpow_add₀ two_ne_zero, sub_add_cancel]
  have hn : f.significand num den scale ≤ K := significand_le hden (whole ▸ h)
  have room : q + 1 ≤ f.qmax ∨ f.significand num den scale < 2 ^ f.precision ∧ q ≤ f.qmax := by
    rcases lt_or_ge q e with lt | ge
    · exact .inl (by omega)
    · have same : (e - q).toNat = 0 := by omega
      simp only [K, same, pow_zero, mul_one] at hn
      exact .inr ⟨by omega, by omega⟩
  apply pack_le_of_le hp (significand_le_two_pow hnum hden) room
  rw [bound, ← whole]
  exact mul_le_mul_of_nonneg_right (by exact_mod_cast hn) (zpow_pos two_pos _).le

/-- Rounding a value above a `+` value of the format gives at least that value. -/
theorem le_round_of_le {m : Nat} {e : Int} (hp : 0 < f.precision) (hnum : num ≠ 0)
    (hden : den ≠ 0) (fits : (Binary.finite false m e : Binary f).Fits)
    (h : (Binary.finite false m e : Binary f).value ≤ num / den * 2 ^ scale) :
    Binary.le (.finite false m e) (f.round false num den scale) = true := by
  obtain ⟨small, low, -⟩ := fits
  rw [f.round_eq hnum hden]
  apply le_pack_of_le hp
  have bound : (Binary.finite false m e : Binary f).value = m * 2 ^ e := by simp
  rw [bound] at h ⊢
  set q := f.quantum num den scale
  rcases le_or_gt q e with fine | coarse
  · -- the bound is a whole number of quanta, and rounding does not drop below it
    have whole : ((m * 2 ^ (e - q).toNat : Nat) : ℚ) * 2 ^ q = m * 2 ^ e := by
      rw [Nat.cast_mul, two_zpow_natCast, Int.toNat_of_nonneg (by omega), mul_assoc,
        ← zpow_add₀ two_ne_zero, sub_add_cancel]
    have hn := le_significand hden (whole.symm ▸ h)
    rw [← whole]
    exact mul_le_mul_of_nonneg_right (by exact_mod_cast hn) (zpow_pos two_pos _).le
  · -- the value has a full significand, and the bound is below its binade
    have lead := quantum_eq_of_lt (lt_of_le_of_lt low coarse)
    have top : ((2 ^ (f.precision - 1) : Nat) : ℚ) * 2 ^ q =
        2 ^ (leadExponent num den + scale) := by
      rw [two_zpow_natCast, ← zpow_add₀ two_ne_zero]
      congr 1
      omega
    have hn : 2 ^ (f.precision - 1) ≤ f.significand num den scale :=
      le_significand hden (top ▸ (value_bounds hnum hden scale).1)
    calc (m : ℚ) * 2 ^ e ≤ ((2 ^ f.precision : Nat) : ℚ) * 2 ^ e :=
          mul_le_mul_of_nonneg_right (by exact_mod_cast small.le) (zpow_pos two_pos _).le
      _ = 2 ^ ((f.precision : Int) + e) := by rw [two_zpow_natCast, ← zpow_add₀ two_ne_zero]
      _ ≤ 2 ^ (leadExponent num den + scale) := zpow_le_zpow_right₀ one_le_two (by omega)
      _ = ((2 ^ (f.precision - 1) : Nat) : ℚ) * 2 ^ q := top.symm
      _ ≤ f.significand num den scale * 2 ^ q :=
          mul_le_mul_of_nonneg_right (by exact_mod_cast hn) (zpow_pos two_pos _).le

/-- A value below half the least subnormal rounds to zero. -/
theorem round_eq_zero (hp : 0 < f.precision) (he : 0 < f.emax) (negative : Bool) (hnum : num ≠ 0)
    (hden : den ≠ 0) (h : 2 * ((num : ℚ) / den * 2 ^ scale) < 2 ^ f.qmin) :
    f.round negative num den scale = .finite negative 0 f.qmin := by
  have low := (value_bounds hnum hden scale).1
  -- the leading exponent is below `qmin - 1`, so the quantum is `qmin`
  have lead : leadExponent num den + scale < f.qmin - 1 := by
    have : (2 : ℚ) ^ (leadExponent num den + scale) < 2 ^ (f.qmin - 1) := by
      rw [zpow_sub₀ two_ne_zero, zpow_one]
      linarith
    exact (zpow_lt_zpow_iff_right₀ one_lt_two).mp this
  have q : f.quantum num den scale = f.qmin := by
    unfold quantum
    omega
  have n : f.significand num den scale = 0 := significand_eq_zero hden (q ▸ h)
  rw [f.round_eq hnum hden, n, q]
  unfold pack
  rw [if_neg (by rw [Nat.pow_eq]; exact (Nat.two_pow_pos _).ne), if_neg (by unfold qmin qmax; omega)]

end Format

end StepperDrive
