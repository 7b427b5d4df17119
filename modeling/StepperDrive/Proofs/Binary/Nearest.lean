import StepperDrive.Decimal.Shortest
import StepperDrive.Proofs.Binary.Error
/-!
# The values that round to a value of the format

A finite value of a format stands for the interval of rationals that round to it:
`RoundingInterval.ofFinite` gives it in quarter units, half a unit `2 ^ q` either way of
`m · 2 ^ q`, with its ends when `m` is even, and only a quarter unit down at the least
significand of a binade above the subnormals. The main result, `Format.round_of_mem`, is that
`Format.round` maps every positive rational of that interval to the value itself, provided the
value is in its one encoding (`Binary.Canonical`). Rounding in that case either keeps the
value's quantum and finds its significand as the nearest natural
(`Format.significand_eq_of_near`), or, just below the least significand of a binade, works at
half the quantum and carries.

Values the format holds round to themselves (`Format.round_exact`), so a conversion into a
format that holds a value exactly is that format's encoding of it, and widening single to
double precision and narrowing back is the identity on single-precision values
(`Binary.toBinary64_canonical`).
-/

namespace StepperDrive

set_option autoImplicit false

/-- A quotient within half a unit of `n` rounds to `n`; one exactly half a unit away does only
when `n` is even. -/
theorem divRoundEven_eq_of_near {a b n : Nat} (hb : 0 < b)
    (low : 2 * (n * b) ≤ 2 * a + b) (high : 2 * a ≤ 2 * (n * b) + b)
    (tie : 2 * a + b = 2 * (n * b) ∨ 2 * a = 2 * (n * b) + b → n % 2 = 0) :
    divRoundEven a b = n := by
  have parts := Nat.div_add_mod' a b
  have small := Nat.mod_lt a hb
  -- the quotient is `n` or one below it
  have below : a / b ≤ n := by
    by_contra big
    have : (n + 1) * b ≤ a / b * b := Nat.mul_le_mul_right b (by omega)
    rw [Nat.add_one_mul n b] at this
    omega
  have above : n ≤ a / b + 1 := by
    by_contra low'
    have : (a / b + 2) * b ≤ n * b := Nat.mul_le_mul_right b (by omega)
    rw [Nat.add_mul] at this
    omega
  unfold divRoundEven
  dsimp only
  rcases Nat.lt_or_eq_of_le below with lt | eq
  · obtain rfl : n = a / b + 1 := by omega
    rw [Nat.add_one_mul (a / b) b] at low high tie
    split_ifs <;> omega
  · subst eq
    split_ifs <;> omega

namespace Binary

variable {f : Format}

/-- A value in the one encoding its format gives it: NaN, an infinity, or a finite value that
fits, with a full significand unless it is subnormal. -/
def Canonical : Binary f → Prop
  | .finite _ m q =>
    m < 2 ^ f.precision ∧ f.qmin ≤ q ∧ q ≤ f.qmax ∧ (2 ^ (f.precision - 1) ≤ m ∨ q = f.qmin)
  | _ => True

instance (x : Binary f) : Decidable x.Canonical :=
  match x with
  | .finite _ m q => inferInstanceAs (Decidable (m < 2 ^ f.precision ∧ f.qmin ≤ q ∧ q ≤ f.qmax ∧
      (2 ^ (f.precision - 1) ≤ m ∨ q = f.qmin)))
  | .nan => isTrue trivial
  | .inf _ => isTrue trivial

/-- A positive `k · 2 ^ e` with `k` of at most `precision` bits and `e` no lower than the
normal range needs has an encoding: the significand shifted up to a full one. -/
theorem exists_canonical {k : Nat} {e : Int} (hk : 0 < k) (small : k < 2 ^ f.precision)
    (low : f.qmin + f.precision - 1 ≤ e) (high : e ≤ f.qmax) (s : Bool) :
    ∃ m q, (finite s m q : Binary f).Canonical ∧ 0 < m ∧ (m : ℚ) * 2 ^ q = k * 2 ^ e := by
  have lead : k.log2 < f.precision := (Nat.log2_lt hk.ne').mpr small
  have shift : k.log2 + (f.precision - 1 - k.log2) = f.precision - 1 := by omega
  refine ⟨k * 2 ^ (f.precision - 1 - k.log2), e - (f.precision - 1 - k.log2 : Nat), ⟨?_, ?_, ?_, .inl ?_⟩,
    by positivity, ?_⟩
  · calc k * 2 ^ (f.precision - 1 - k.log2) < 2 ^ (k.log2 + 1) * 2 ^ (f.precision - 1 - k.log2) :=
          Nat.mul_lt_mul_of_pos_right Nat.lt_log2_self (Nat.two_pow_pos _)
      _ = 2 ^ f.precision := by rw [← Nat.pow_add]; congr 1; omega
  · omega
  · omega
  · calc 2 ^ (f.precision - 1) = 2 ^ k.log2 * 2 ^ (f.precision - 1 - k.log2) := by
          rw [← Nat.pow_add, shift]
      _ ≤ k * 2 ^ (f.precision - 1 - k.log2) := Nat.mul_le_mul_right _ (Nat.log2_self_le hk.ne')
  · rw [Nat.cast_mul, two_zpow_natCast, mul_assoc, ← zpow_add₀ two_ne_zero, add_sub_cancel]

end Binary

namespace RoundingInterval

/-- The rational `v` lies in the interval. -/
def Mem (I : RoundingInterval) (v : ℚ) : Prop :=
  ((I.lower : ℚ) * 2 ^ I.unit < v ∨ I.closed ∧ v = I.lower * 2 ^ I.unit) ∧
    (v < I.upper * 2 ^ I.unit ∨ I.closed ∧ v = I.upper * 2 ^ I.unit)

variable {f : Format} {m : Nat} {q : Int} {v : ℚ}

theorem quarter_unit : (2 : ℚ) ^ (q - 2) = 2 ^ q / 4 := by
  rw [zpow_sub₀ two_ne_zero]
  norm_num

/-- The interval of `m · 2 ^ q` reaches half a unit `2 ^ q` either way, its ends only for even
`m`, and at the least significand of a binade above the subnormals only a quarter unit down. -/
theorem mem_ofFinite (hm : 0 < m) (mem : (ofFinite f m q).Mem v) :
    ((m : ℚ) - 1 / 2) * 2 ^ q ≤ v ∧ v ≤ (m + 1 / 2) * 2 ^ q ∧
      (v = (m - 1 / 2) * 2 ^ q ∨ v = (m + 1 / 2) * 2 ^ q → m % 2 = 0) ∧
      (m = 2 ^ (f.precision - 1) → f.qmin < q → ((m : ℚ) - 1 / 4) * 2 ^ q ≤ v) := by
  obtain ⟨low, high⟩ := mem
  simp only [ofFinite, Nat.pow_eq, quarter_unit] at low high
  have upper : ((4 * m + 2 : Nat) : ℚ) * (2 ^ q / 4) = (m + 1 / 2) * 2 ^ q := by
    push_cast
    ring
  rw [upper] at high
  have half : ((4 * m - 2 : Nat) : ℚ) * (2 ^ q / 4) = (m - 1 / 2) * 2 ^ q := by
    rw [Nat.cast_sub (by omega)]
    push_cast
    ring
  have fourth : ((4 * m - 1 : Nat) : ℚ) * (2 ^ q / 4) = (m - 1 / 4) * 2 ^ q := by
    rw [Nat.cast_sub (by omega)]
    push_cast
    ring
  have unit : (0 : ℚ) < 2 ^ q := zpow_pos two_pos _
  by_cases narrow : m = 2 ^ (f.precision - 1) ∧ f.qmin < q
  · rw [if_pos narrow, fourth] at low
    have above : ((m : ℚ) - 1 / 4) * 2 ^ q ≤ v := by
      rcases low with lt | ⟨-, eq⟩
      · exact lt.le
      · exact eq.ge
    refine ⟨by linarith, by rcases high with lt | ⟨-, eq⟩ <;> linarith, ?_, fun _ _ => above⟩
    rintro (eq | eq)
    · linarith
    · rcases high with lt | ⟨closed, -⟩
      · linarith
      · simpa using closed
  · rw [if_neg narrow, half] at low
    refine ⟨by rcases low with lt | ⟨-, eq⟩ <;> linarith,
      by rcases high with lt | ⟨-, eq⟩ <;> linarith, ?_, fun hm' hq => absurd ⟨hm', hq⟩ narrow⟩
    rintro (eq | eq)
    · rcases low with lt | ⟨closed, -⟩
      · linarith
      · simpa using closed
    · rcases high with lt | ⟨closed, -⟩
      · linarith
      · simpa using closed

/-- A positive value lies in its own interval. -/
theorem mem_center (hm : 0 < m) : (ofFinite f m q).Mem (m * 2 ^ q) := by
  have lower : (ofFinite f m q).lower + 1 ≤ 4 * m := by
    simp only [ofFinite]
    split_ifs <;> omega
  have lower' : ((ofFinite f m q).lower : ℚ) + 1 ≤ 4 * m := by exact_mod_cast lower
  have unitEq : (ofFinite f m q).unit = q - 2 := rfl
  have unit : (0 : ℚ) < 2 ^ q := zpow_pos two_pos _
  refine ⟨.inl ?_, .inl ?_⟩
  · rw [unitEq, quarter_unit]
    nlinarith
  · simp only [ofFinite, quarter_unit]
    push_cast
    nlinarith

end RoundingInterval

namespace Format

variable {f : Format} {num den : Nat} {scale : Int}

/-- The leading exponent of the exact value is the exponent of the binade it lies in. -/
theorem lead_eq_of_bounds (hnum : num ≠ 0) (hden : den ≠ 0) {e : Int}
    (low : (2 : ℚ) ^ e ≤ num / den * 2 ^ scale) (high : (num : ℚ) / den * 2 ^ scale < 2 ^ (e + 1)) :
    leadExponent num den + scale = e := by
  obtain ⟨low', high'⟩ := value_bounds hnum hden scale
  have up : e < leadExponent num den + scale + 1 :=
    (zpow_lt_zpow_iff_right₀ one_lt_two).mp (low.trans_lt high')
  have down : leadExponent num den + scale < e + 1 :=
    (zpow_lt_zpow_iff_right₀ one_lt_two).mp (low'.trans_lt high)
  omega

/-- A value within half a quantum of `n` quanta has significand `n`, when at exactly half a
quantum `n` is even. -/
theorem significand_eq_of_near {n : Nat} (hden : den ≠ 0)
    (low : ((n : ℚ) - 1 / 2) * 2 ^ f.quantum num den scale ≤ num / den * 2 ^ scale)
    (high : (num : ℚ) / den * 2 ^ scale ≤ (n + 1 / 2) * 2 ^ f.quantum num den scale)
    (tie : (num : ℚ) / den * 2 ^ scale = (n - 1 / 2) * 2 ^ f.quantum num den scale ∨
      (num : ℚ) / den * 2 ^ scale = (n + 1 / 2) * 2 ^ f.quantum num den scale → n % 2 = 0) :
    f.significand num den scale = n := by
  obtain ⟨a, b, hb, ratio, eq⟩ := significand_spec (f := f) hden scale
  rw [eq]
  have unit : (0 : ℚ) < 2 ^ f.quantum num den scale := zpow_pos two_pos _
  have hb' : (0 : ℚ) < b := by exact_mod_cast hb
  -- in quanta the value is the fraction `a / b`
  have inQuanta : (num : ℚ) / den * 2 ^ scale = a / b * 2 ^ f.quantum num den scale := by
    rw [ratio, div_mul_cancel₀ _ unit.ne']
  rw [inQuanta] at low high tie
  have low' : ((n : ℚ) - 1 / 2) * b ≤ a := by
    rw [← le_div_iff₀ hb']
    exact le_of_mul_le_mul_right low unit
  have high' : (a : ℚ) ≤ (n + 1 / 2) * b := by
    rw [← div_le_iff₀ hb']
    exact le_of_mul_le_mul_right high unit
  apply divRoundEven_eq_of_near hb
  · have scaled : 2 * ((n : ℚ) * b) ≤ 2 * a + b := by linarith
    exact_mod_cast scaled
  · have scaled : 2 * (a : ℚ) ≤ 2 * (n * b) + b := by linarith
    exact_mod_cast scaled
  · intro exact
    apply tie
    have exact' : 2 * (a : ℚ) + b = 2 * (n * b) ∨ 2 * (a : ℚ) = 2 * (n * b) + b := by
      exact_mod_cast exact
    rcases exact' with below | above
    · left
      rw [show (a : ℚ) / b = n - 1 / 2 by rw [div_eq_iff hb'.ne']; linarith]
    · right
      rw [show (a : ℚ) / b = n + 1 / 2 by rw [div_eq_iff hb'.ne']; linarith]

/-- A positive value in the rounding interval of a value in its one encoding rounds to it. The
quantum is that of the value, except just below the least significand of a binade, where it
is half as large and the significand carries into the value's. -/
theorem round_of_mem (hp : 2 ≤ f.precision) {s : Bool} {m : Nat} {q : Int}
    (canon : (Binary.finite s m q : Binary f).Canonical) (hm : 0 < m) (hnum : num ≠ 0)
    (hden : den ≠ 0) (mem : (RoundingInterval.ofFinite f m q).Mem (num / den * 2 ^ scale)) :
    f.round s num den scale = .finite s m q := by
  obtain ⟨small, qlow, qhigh, full⟩ := canon
  obtain ⟨low, high, tie, narrow⟩ := RoundingInterval.mem_ofFinite hm mem
  have unit : (0 : ℚ) < 2 ^ q := zpow_pos two_pos _
  have least : ((2 ^ (f.precision - 1) : Nat) : ℚ) * 2 ^ q = 2 ^ (q + f.precision - 1) := by
    rw [two_zpow_natCast, ← zpow_add₀ two_ne_zero]
    congr 1
    omega
  have twice : ((2 ^ f.precision : Nat) : ℚ) = 2 * (2 ^ (f.precision - 1) : Nat) := by
    push_cast
    rw [← pow_succ']
    congr 1
    omega
  have one_le : (1 : ℚ) ≤ (2 ^ (f.precision - 1) : Nat) := by exact_mod_cast Nat.one_le_two_pow
  -- the value is below the next binade
  have top : (num : ℚ) / den * 2 ^ scale < 2 ^ (q + f.precision - 1 + 1) := by
    have below : (m : ℚ) + 1 ≤ (2 ^ f.precision : Nat) := by exact_mod_cast small
    rw [zpow_add_one₀ two_ne_zero, ← least]
    nlinarith
  rw [round_eq f hnum hden]
  by_cases carry : m = 2 ^ (f.precision - 1) ∧ f.qmin < q ∧
      (num : ℚ) / den * 2 ^ scale < m * 2 ^ q
  · -- just below the least significand of a binade: half the quantum, and a carry
    obtain ⟨rfl, hq, below⟩ := carry
    have lowEnough := narrow rfl hq
    have binade : leadExponent num den + scale = q + f.precision - 1 - 1 := by
      apply lead_eq_of_bounds hnum hden
      · rw [zpow_sub_one₀ two_ne_zero, ← least]
        nlinarith
      · rw [sub_add_cancel, ← least]
        exact below
    have quantum : f.quantum num den scale = q - 1 := by
      unfold quantum
      omega
    have half : (2 : ℚ) ^ (q - 1) = 2 ^ q / 2 := by
      rw [zpow_sub_one₀ two_ne_zero, div_eq_mul_inv]
    have sig : f.significand num den scale = 2 ^ f.precision := by
      apply significand_eq_of_near hden <;> rw [quantum, half, twice]
      · linarith
      · nlinarith
      · intro _
        rw [Nat.pow_mod]
        simp [show f.precision ≠ 0 by omega]
    unfold pack
    rw [sig, quantum, if_pos (Nat.pow_eq ..).symm, if_neg (show ¬f.qmax < q - 1 + 1 by omega),
      sub_add_cancel, Nat.pow_eq]
  · have quantum : f.quantum num den scale = q := by
      by_cases atMin : q = f.qmin
      · have lead := (value_bounds hnum hden scale).1
        have : leadExponent num den + scale < q + f.precision - 1 + 1 :=
          (zpow_lt_zpow_iff_right₀ one_lt_two).mp (lead.trans_lt top)
        unfold quantum
        omega
      · have normal : 2 ^ (f.precision - 1) ≤ m := full.resolve_right atMin
        have binade : leadExponent num den + scale = q + f.precision - 1 := by
          apply lead_eq_of_bounds hnum hden _ top
          rw [← least]
          rcases Nat.lt_or_eq_of_le normal with above | rfl
          · have above' : ((2 ^ (f.precision - 1) : Nat) : ℚ) + 1 ≤ m := by exact_mod_cast above
            nlinarith
          · by_contra under
            exact carry ⟨rfl, lt_of_le_of_ne qlow (Ne.symm atMin), not_le.mp under⟩
        unfold quantum
        omega
    have sig : f.significand num den scale = m := by
      apply significand_eq_of_near hden <;> rw [quantum]
      · exact low
      · exact high
      · exact tie
    unfold pack
    rw [sig, quantum, if_neg (show m ≠ Nat.pow 2 f.precision by rw [Nat.pow_eq]; omega),
      if_neg (show ¬f.qmax < q by omega)]

/-- Rounding a value the format holds gives that value. -/
theorem round_exact (hp : 2 ≤ f.precision) {s : Bool} {m : Nat} {q : Int}
    (canon : (Binary.finite s m q : Binary f).Canonical) (hm : 0 < m) (hnum : num ≠ 0)
    (hden : den ≠ 0) (value : (m : ℚ) * 2 ^ q = num / den * 2 ^ scale) :
    f.round s num den scale = .finite s m q :=
  round_of_mem hp canon hm hnum hden (value ▸ RoundingInterval.mem_center hm)

end Format

namespace Binary

/-- Converting a finite value into a format that holds it exactly gives that format's encoding
of it. -/
theorem convert_of_value_eq {f g : Format} (hp : 2 ≤ g.precision) {s : Bool} {m m' : Nat}
    {q q' : Int} (canon : (finite s m' q' : Binary g).Canonical) (hm' : 0 < m')
    (value : (m' : ℚ) * 2 ^ q' = m * 2 ^ q) :
    (finite s m q : Binary f).convert g = finite s m' q' := by
  have hm : m ≠ 0 := by
    rintro rfl
    have pos : (0 : ℚ) < m' * 2 ^ q' := mul_pos (by exact_mod_cast hm') (zpow_pos two_pos _)
    rw [value, Nat.cast_zero, zero_mul] at pos
    exact lt_irrefl 0 pos
  exact g.round_exact hp canon hm' hm one_ne_zero (by rw [value, Nat.cast_one, div_one])

/-- Widening to double precision gives a double in its one encoding, and narrowing it back
gives the single-precision value again. -/
theorem toBinary64_canonical {x : Binary32} (canon : x.Canonical) :
    x.toBinary64.Canonical ∧ x.toBinary64.toBinary32 = x := by
  cases x with
  | nan => exact ⟨trivial, rfl⟩
  | inf s => exact ⟨trivial, rfl⟩
  | finite s m q =>
    obtain ⟨small, qlow, qhigh, full⟩ := canon
    rcases Nat.eq_zero_or_pos m with rfl | hm
    · -- zero keeps its sign and sits at the least exponent of either format
      have atMin : q = Format.binary32.qmin := full.resolve_left (by decide)
      subst atMin
      cases s <;> decide
    · -- every single-precision value is a double with a longer significand
      have small64 : m < 2 ^ Format.binary64.precision :=
        small.trans_le (Nat.pow_le_pow_right (by decide) (by decide))
      obtain ⟨m', q', canon64, pos, value⟩ := exists_canonical (f := Format.binary64) (e := q) hm small64
        (by simp only [Format.qmin, Format.binary32, Format.binary64] at qlow ⊢; omega)
        (by simp only [Format.qmax, Format.binary32, Format.binary64] at qhigh ⊢; omega) s
      have widened : (finite s m q : Binary32).toBinary64 = finite s m' q' :=
        convert_of_value_eq (by decide) canon64 pos value
      rw [widened]
      exact ⟨canon64, convert_of_value_eq (by decide) ⟨small, qlow, qhigh, full⟩ hm value.symm⟩

end Binary

end StepperDrive
