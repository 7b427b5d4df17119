import StepperDrive.Proofs.Binary.Nearest
/-!
# The shortest decimal reads back

A decimal `± digits · 10 ^ exponent` has the magnitude `Decimal.magnitude`. Reading a decimal
rounds that magnitude once (`Decimal.toBinary`); when it lies in the rounding interval of a
value in its one encoding, the result is that value (`Decimal.toBinary_of_mem`): the shortcuts
for huge and tiny exponents never fire there (`not_huge_of_lt`, `not_tiny_of_le`), since
`10 ^ (top - 1)` and `10 ^ top` bound the magnitude by the number of digits above the point
(`Decimal.magnitude_bounds`).

The search for the shortest decimal tests grid points with exact comparisons
(`compareScaled_eq`) and returns only points the interval contains
(`RoundingInterval.search_contains`); when it runs out, the exact decimal of the value is used.
Either way, after trailing zeros are stripped, the shortest decimal keeps the sign and lies in
the interval (`Binary.shortest_mem`).
-/

namespace StepperDrive

set_option autoImplicit false

namespace Decimal

/-- The magnitude `digits · 10 ^ exponent` of a decimal. -/
def magnitude (d : Decimal) : ℚ := d.digits * 10 ^ d.exponent

/-- Moving a factor ten between the digits and the exponent keeps the magnitude. -/
theorem magnitude_shift (negative : Bool) (k : Nat) (e : Int) :
    (⟨negative, 10 * k, e⟩ : Decimal).magnitude = (⟨negative, k, e + 1⟩ : Decimal).magnitude := by
  simp only [magnitude, zpow_add_one₀ (show (10 : ℚ) ≠ 0 by norm_num)]
  push_cast
  ring

theorem normalize_go (fuel : Nat) (d : Decimal) :
    (normalize.go fuel d).negative = d.negative ∧ (normalize.go fuel d).magnitude = d.magnitude := by
  induction fuel generalizing d with
  | zero => exact ⟨rfl, rfl⟩
  | succ fuel ih =>
    unfold normalize.go
    split_ifs with zeros
    · obtain ⟨sign, value⟩ := ih ⟨d.negative, d.digits / 10, d.exponent + 1⟩
      refine ⟨sign, value.trans ?_⟩
      rw [← magnitude_shift, Nat.mul_div_cancel' (Nat.dvd_of_mod_eq_zero zeros)]
    · exact ⟨rfl, rfl⟩

/-- Stripping trailing zeros keeps the sign and the magnitude. -/
theorem normalize_spec (d : Decimal) :
    d.normalize.negative = d.negative ∧ d.normalize.magnitude = d.magnitude := by
  unfold normalize
  split_ifs with zero
  · exact ⟨rfl, by simp [magnitude, zero]⟩
  · exact normalize_go _ d

/-- The exact decimal of `± m · 2 ^ q` has magnitude `m · 2 ^ q`. -/
theorem ofBinaryExact_spec (negative : Bool) (m : Nat) (q : Int) :
    (ofBinaryExact negative m q).negative = negative ∧
      (ofBinaryExact negative m q).magnitude = m * 2 ^ q := by
  unfold ofBinaryExact
  split_ifs with nonneg
  · refine ⟨rfl, ?_⟩
    rw [magnitude, Nat.pow_eq, Nat.cast_mul, two_zpow_natCast, Int.toNat_of_nonneg nonneg,
      zpow_zero, mul_one]
  · refine ⟨rfl, ?_⟩
    -- `10 ^ q = 2 ^ q · 5 ^ q`, and the `5 ^ -q` of the digits cancels the last factor
    have five : ((5 ^ (-q).toNat : Nat) : ℚ) * 5 ^ q = 1 := by
      rw [Nat.cast_pow, Nat.cast_ofNat, ← zpow_natCast, Int.toNat_of_nonneg (by omega),
        ← zpow_add₀ (by norm_num), neg_add_cancel, zpow_zero]
    simp only [magnitude, Nat.pow_eq, Nat.cast_mul]
    rw [show (10 : ℚ) = 2 * 5 by norm_num, mul_zpow]
    calc (m : ℚ) * ((5 ^ (-q).toNat : Nat) : ℚ) * (2 ^ q * 5 ^ q)
        = m * 2 ^ q * (((5 ^ (-q).toNat : Nat) : ℚ) * 5 ^ q) := by ring
      _ = m * 2 ^ q := by rw [five, mul_one]

end Decimal

/-- Naturals compare as their casts scaled by the same positive factor. -/
theorem compare_natCast_mul (a b : Nat) {r : ℚ} (hr : 0 < r) :
    compare a b = compare ((a : ℚ) * r) ((b : ℚ) * r) := by
  rcases lt_trichotomy a b with lt | rfl | gt
  · have scaled : (a : ℚ) * r < b * r := mul_lt_mul_of_pos_right (by exact_mod_cast lt) hr
    rw [compare_lt_iff_lt.mpr lt, compare_lt_iff_lt.mpr scaled]
  · simp
  · have scaled : (b : ℚ) * r < a * r := mul_lt_mul_of_pos_right (by exact_mod_cast gt) hr
    rw [compare_gt_iff_gt.mpr gt, compare_gt_iff_gt.mpr scaled]

/-- `compareScaled` compares the two rationals it stands for. -/
theorem compareScaled_eq (c : Nat) (g : Int) (k : Nat) (t : Int) :
    compareScaled c g k t = compare ((c : ℚ) * 10 ^ g) (k * 2 ^ t) := by
  have ten : (10 : ℚ) ^ g = 10 ^ g.toNat / 10 ^ (-g).toNat := by
    rw [← zpow_natCast, ← zpow_natCast, ← zpow_sub₀ (by norm_num), Int.toNat_sub_toNat_neg]
  have two : (2 : ℚ) ^ t = 2 ^ t.toNat / 2 ^ (-t).toNat := by
    rw [← zpow_natCast, ← zpow_natCast, ← zpow_sub₀ (by norm_num), Int.toNat_sub_toNat_neg]
  have hr : (0 : ℚ) < (10 ^ (-g).toNat * 2 ^ (-t).toNat)⁻¹ := by positivity
  unfold compareScaled
  rw [compare_natCast_mul _ _ hr, ten, two]
  congr 1 <;> simp only [Nat.pow_eq] <;> push_cast <;> field_simp

namespace RoundingInterval

/-- A decimal `contains` accepts lies in the interval. -/
theorem mem_of_contains {I : RoundingInterval} {c : Nat} {g : Int} (h : I.contains c g = true) :
    I.Mem (c * 10 ^ g) := by
  simp only [contains, compareScaled_eq, Bool.and_eq_true, Bool.or_eq_true, beq_iff_eq,
    compare_gt_iff_gt, compare_eq_iff_eq, compare_lt_iff_lt] at h
  exact h

theorem nearer_cases (I : RoundingInterval) (tie : Tie) (c : Nat) (g : Int) :
    I.nearer tie c g = c ∨ I.nearer tie c g = c + 1 := by
  unfold nearer
  split
  · exact .inl rfl
  · exact .inr rfl
  · split
    · split_ifs <;> simp
    · exact .inr rfl

/-- Every decimal the search returns lies in the interval. -/
theorem search_contains {I : RoundingInterval} {tie : Tie} {e : Int} {c : Nat} {g : Int} :
    ∀ {fuel n : Nat}, I.search tie e fuel n = some (c, g) → I.contains c g = true
  | 0, _, h => by simp [search] at h
  | fuel + 1, n, h => by
    unfold search at h
    dsimp only at h
    split at h
    · rename_i low high
      cases h
      rcases nearer_cases I tie (floorScaled I.center I.unit (e + 1 - n)) (e + 1 - n) with eq | eq <;>
        rw [eq] <;> assumption
    · cases h
      assumption
    · cases h
      assumption
    · exact search_contains h

end RoundingInterval


namespace Binary

variable {f : Format}

/-- The shortest decimal of a positive finite value keeps its sign and lies in its rounding
interval: it is a point the search accepted, or the exact decimal when the search runs out. -/
theorem shortest_mem {tie : Tie} {s : Bool} {m : Nat} {q : Int} (hm : 0 < m) {d : Decimal}
    (h : (finite s m q : Binary f).shortest tie = some d) :
    d.negative = s ∧ (RoundingInterval.ofFinite f m q).Mem d.magnitude := by
  simp only [shortest] at h
  rw [if_neg hm.ne'] at h
  cases h
  rw [(Decimal.normalize_spec _).1, (Decimal.normalize_spec _).2]
  split
  · rename_i c g found
    exact ⟨rfl, RoundingInterval.mem_of_contains (RoundingInterval.search_contains found)⟩
  · obtain ⟨sign, value⟩ := Decimal.ofBinaryExact_spec s m q
    exact ⟨sign, value ▸ RoundingInterval.mem_center hm⟩

end Binary

namespace Decimal

/-- `digitCount n` is the number of decimal digits of a positive `n`. -/
theorem digitCount_bounds {n : Nat} (hn : 0 < n) :
    10 ^ (digitCount n - 1) ≤ n ∧ n < 10 ^ digitCount n := by
  have len := Nat.length_toDigits_pos (b := 10) (n := n)
  refine ⟨?_, (Nat.length_toDigits_le_iff (by norm_num) len).mp le_rfl⟩
  by_contra small
  rcases Nat.eq_zero_or_pos (digitCount n - 1) with zero | pos
  · rw [zero] at small
    omega
  · have := (Nat.length_toDigits_le_iff (by norm_num) pos).mpr (not_le.mp small)
    unfold digitCount at this
    omega

/-- A decimal between `10 ^ (top - 1)` and `10 ^ top`, `top` counting the digits above the point. -/
theorem magnitude_bounds {d : Decimal} (hd : 0 < d.digits) :
    (10 : ℚ) ^ (d.exponent + digitCount d.digits - 1) ≤ d.magnitude ∧
      d.magnitude < 10 ^ (d.exponent + digitCount d.digits) := by
  obtain ⟨low, high⟩ := digitCount_bounds hd
  have ten : (0 : ℚ) < 10 ^ d.exponent := by positivity
  have low' : (10 : ℚ) ^ (digitCount d.digits - 1 : Nat) ≤ d.digits := by exact_mod_cast low
  have high' : (d.digits : ℚ) < 10 ^ (digitCount d.digits) := by exact_mod_cast high
  have len := Nat.length_toDigits_pos (b := 10) (n := d.digits)
  constructor
  · rw [show d.exponent + digitCount d.digits - 1 = d.exponent + (digitCount d.digits - 1 : Nat) by
      unfold digitCount; omega, zpow_add₀ (by norm_num), zpow_natCast, magnitude, mul_comm]
    exact mul_le_mul_of_nonneg_right low' ten.le
  · rw [zpow_add₀ (by norm_num), zpow_natCast, magnitude, mul_comm (10 ^ d.exponent)]
    exact mul_lt_mul_of_pos_right high' ten

/-- A decimal below `2 ^ (emax + 1)` passes the reader's overflow check: it has at most
`emax + 2` digits above the point. -/
theorem not_huge_of_lt {d : Decimal} (hd : 0 < d.digits) {emax : Nat}
    (below : d.magnitude < 2 ^ ((emax : Int) + 1)) :
    ¬((emax : Int) + 2 < d.exponent + digitCount d.digits) := by
  intro huge
  have powers : (2 : ℚ) ^ ((emax : Int) + 1) ≤ 10 ^ (d.exponent + digitCount d.digits - 1) :=
    calc (2 : ℚ) ^ ((emax : Int) + 1) = 2 ^ (emax + 1) := by norm_cast
      _ ≤ 10 ^ (emax + 1) := pow_le_pow_left₀ (by norm_num) (by norm_num) _
      _ = 10 ^ ((emax : Int) + 1) := by norm_cast
      _ ≤ 10 ^ (d.exponent + digitCount d.digits - 1) :=
          zpow_le_zpow_right₀ (by norm_num) (by omega)
  linarith [(magnitude_bounds hd).1]

/-- A decimal of at least `2 ^ q / 2` passes the reader's underflow check at any `t` no
greater than `q` or `2`: it has at least `t - 2` digits above the point. -/
theorem not_tiny_of_le {d : Decimal} (hd : 0 < d.digits) {q t : Int} (hq : t ≤ q) (ht : t ≤ 2)
    (above : 2 ^ q / 2 ≤ d.magnitude) : ¬(d.exponent + digitCount d.digits < t - 2) := by
  intro tiny
  -- below the point ten's powers are the smaller
  have flip : (10 : ℚ) ^ (d.exponent + digitCount d.digits) ≤
      2 ^ (d.exponent + digitCount d.digits) := by
    obtain ⟨k, hk⟩ := Int.eq_ofNat_of_zero_le (show 0 ≤ -(d.exponent + digitCount d.digits) by omega)
    rw [show d.exponent + digitCount d.digits = -(k : Int) by omega, zpow_neg, zpow_neg,
      zpow_natCast, zpow_natCast]
    exact inv_anti₀ (by positivity) (pow_le_pow_left₀ (by norm_num) (by norm_num) _)
  have powers : (10 : ℚ) ^ (d.exponent + digitCount d.digits) ≤ 2 ^ q / 2 :=
    calc (10 : ℚ) ^ (d.exponent + digitCount d.digits)
        ≤ 2 ^ (d.exponent + digitCount d.digits) := flip
      _ ≤ 2 ^ (q - 1) := zpow_le_zpow_right₀ one_le_two (by omega)
      _ = 2 ^ q / 2 := by rw [zpow_sub_one₀ two_ne_zero, div_eq_mul_inv]
  linarith [(magnitude_bounds hd).2]

/-- A decimal in the rounding interval of a value in its one encoding reads as that value. -/
theorem toBinary_of_mem {f : Format} (hp : 2 ≤ f.precision) {s : Bool}
    {m : Nat} {q : Int} (canon : (Binary.finite s m q : Binary f).Canonical) (hm : 0 < m)
    {d : Decimal} (sign : d.negative = s)
    (mem : (RoundingInterval.ofFinite f m q).Mem d.magnitude) :
    d.toBinary f = .finite s m q := by
  obtain ⟨low, high, -, -⟩ := RoundingInterval.mem_ofFinite hm mem
  obtain ⟨small, qlow, qhigh, full⟩ := canon
  have unit : (0 : ℚ) < 2 ^ q := zpow_pos two_pos _
  have one : (1 : ℚ) ≤ m := by exact_mod_cast hm
  have positive : (2 : ℚ) ^ q / 2 ≤ d.magnitude := by nlinarith
  have digits : 0 < d.digits := by
    by_contra zero
    have : d.magnitude = 0 := by simp [magnitude, Nat.eq_zero_of_not_pos zero]
    linarith [div_pos unit two_pos]
  -- below the largest finite magnitude, `2 ^ (emax + 1)`
  have below : d.magnitude < 2 ^ ((f.emax : Int) + 1) := by
    have top : (m : ℚ) + 1 ≤ 2 ^ f.precision := by exact_mod_cast small
    calc d.magnitude ≤ (m + 1 / 2) * 2 ^ q := high
      _ < 2 ^ f.precision * 2 ^ q := by nlinarith
      _ = 2 ^ ((f.precision : Int) + q) := by rw [zpow_add₀ two_ne_zero, zpow_natCast]
      _ ≤ 2 ^ ((f.emax : Int) + 1) :=
          zpow_le_zpow_right₀ one_le_two (by unfold Format.qmax at qhigh; omega)
  unfold toBinary
  rw [if_neg digits.ne', if_neg (not_huge_of_lt digits below),
    if_neg (not_tiny_of_le digits qlow (by unfold Format.qmin; omega) positive), sign]
  split_ifs with nonneg
  · apply f.round_of_mem hp ⟨small, qlow, qhigh, full⟩ hm (by simp [Nat.pow_eq, digits.ne']) one_ne_zero
    rwa [Nat.pow_eq, Nat.cast_mul, Nat.cast_pow, Nat.cast_one, div_one, zpow_zero, mul_one,
      Nat.cast_ofNat, ← zpow_natCast, Int.toNat_of_nonneg nonneg]
  · apply f.round_of_mem hp ⟨small, qlow, qhigh, full⟩ hm digits.ne' (by simp [Nat.pow_eq])
    rwa [Nat.pow_eq, Nat.cast_pow, Nat.cast_ofNat, zpow_zero, mul_one, ← zpow_natCast,
      Int.toNat_of_nonneg (by omega), zpow_neg, div_inv_eq_mul]

end Decimal

end StepperDrive
