import StepperDrive.Proofs.Decimal.Shortest
import StepperDrive.Command.Intake
import StepperDrive.Decimal.Layout
/-!
# Numbers written as text read back

The intake reads a value's text by trimming white space, reading a numeral and rounding it once
to double precision (`readNumber`). This module shows that what the drive writes reads back:

* the plain positional text of a decimal (`Layout.plain.decimalText`) has no white space and
  reads as a decimal of the same sign and magnitude (`read_decimalText`); the digits of a
  natural read back through `natOfDigits` (`natOfDigits_toDigits`, `natOfDigits_append`);
* the shortest decimal of a double in its one encoding reads back as the double itself,
  whichever way ties between candidates are settled (`readNumber_binaryText`);
* a 64-bit integer that double precision holds exactly (`ExactDouble`), or the largest one,
  which rounds up to `2 ^ 63` and saturates back (together `ExactInt64`), reads back after
  truncation to 64 bits (`readNumber_int`).

Both rest on the text being made of digits, the point and the minus sign (`NumeralChar`), which
trimming leaves alone.
-/

namespace StepperDrive

set_option autoImplicit false

/-! ## Digits -/

/-- Reading digits from a running value multiplies it by ten per digit. -/
theorem foldl_digits (ds : List Char) (init : Nat) :
    ds.foldl (fun n c => 10 * n + (c.toNat - '0'.toNat)) init =
      init * 10 ^ ds.length + natOfDigits ds := by
  induction ds generalizing init with
  | nil => simp [natOfDigits]
  | cons c ds ih =>
    have first : natOfDigits (c :: ds) =
        ds.foldl (fun n c => 10 * n + (c.toNat - '0'.toNat)) (10 * 0 + (c.toNat - '0'.toNat)) :=
      rfl
    rw [List.foldl_cons, first, ih, ih, List.length_cons, pow_succ]
    ring

theorem natOfDigits_append (xs ys : List Char) :
    natOfDigits (xs ++ ys) = natOfDigits xs * 10 ^ ys.length + natOfDigits ys := by
  rw [natOfDigits, List.foldl_append]
  exact foldl_digits ys _

@[simp] theorem natOfDigits_zeros (k : Nat) : natOfDigits (List.replicate k '0') = 0 := by
  induction k with
  | zero => rfl
  | succ k ih =>
    rw [List.replicate_succ', natOfDigits_append, ih]
    rfl

@[simp] theorem natOfDigits_toDigits (n : Nat) : natOfDigits (Nat.toDigits 10 n) = n :=
  Nat.ofDigitChars_ten_toDigits

theorem isDigit_of_mem_toDigits {n : Nat} {c : Char} (h : c ∈ Nat.toDigits 10 n) :
    c.isDigit = true :=
  Nat.isDigit_of_mem_toDigits (by norm_num) (by norm_num) h

theorem toLower_of_isDigit {c : Char} (h : c.isDigit = true) : c.toLower = c := by
  have bounds := Char.isDigit_iff_toNat.mp h
  unfold Char.toLower
  rw [dif_neg]
  rintro ⟨upper, -⟩
  have : 'A'.toNat ≤ c.toNat := upper
  simp at bounds this
  omega

/-! ## Reading a numeral -/

/-- `span` stops where the predicate first fails. -/
theorem span_append_of_stop {α : Type} {p : α → Bool} {ws rest : List α} (hw : ∀ c ∈ ws, p c = true)
    (hr : ∀ c r, rest = c :: r → p c = false) : (ws ++ rest).span p = (ws, rest) := by
  rw [List.span_eq_takeWhile_dropWhile, List.takeWhile_append_of_pos hw,
    List.dropWhile_append_of_pos hw]
  cases rest with
  | nil => simp
  | cons c r => simp [hr c r rfl]

/-- A list whose every element passes is taken whole. -/
theorem span_of_forall {α : Type} {p : α → Bool} {ws : List α} (hw : ∀ c ∈ ws, p c = true) :
    ws.span p = (ws, []) := by
  simpa using @span_append_of_stop α p ws [] hw (by simp)

namespace Numeral

/-- Digits alone read as an integer. -/
theorem readUnsigned_whole (negative : Bool) {ws : List Char} (hw : ∀ c ∈ ws, c.isDigit = true)
    (hne : ws ≠ []) :
    readUnsigned? negative ws = some (.finite ⟨negative, natOfDigits ws, 0⟩) := by
  have whole : ws.span Char.isDigit = (ws, []) :=
    span_of_forall hw
  unfold readUnsigned?
  rw [whole]
  simp [hne]

/-- Digits, a point and digits read as a decimal with as many places as digits after the point. -/
theorem readUnsigned_point (negative : Bool) {ws fs : List Char} (hw : ∀ c ∈ ws, c.isDigit = true)
    (hf : ∀ c ∈ fs, c.isDigit = true) (hne : ws ≠ []) :
    readUnsigned? negative (ws ++ '.' :: fs) =
      some (.finite ⟨negative, natOfDigits (ws ++ fs), -(fs.length : Int)⟩) := by
  have whole : (ws ++ '.' :: fs).span Char.isDigit = (ws, '.' :: fs) :=
    span_append_of_stop hw (by rintro c r ⟨rfl, -⟩; decide)
  have frac : fs.span Char.isDigit = (fs, []) :=
    span_of_forall hf
  rw [List.span_eq_takeWhile_dropWhile, Prod.mk.injEq] at frac
  unfold readUnsigned?
  rw [whole]
  simp [frac.1, frac.2, hne]

/-- A text of digits, a point and a minus sign reads as a numeral, with the sign. -/
theorem read?_signed {s : String} (negative : Bool) {cs : List Char} {c : Char} {r : List Char}
    (text : s.toList = (if negative then ['-'] else []) ++ cs) (hc : cs = c :: r)
    (digit : c.isDigit = true) : read? s = readUnsigned? negative cs := by
  have sign : splitSign ((if negative then ['-'] else []) ++ cs) = (negative, cs) := by
    cases negative
    · rw [hc]
      unfold splitSign
      split <;> simp_all
    · rfl
  -- the first letter is a digit, so the text is no word
  have lower : (cs.map Char.toLower).head? = some c := by simp [hc, toLower_of_isDigit digit]
  have notWord : ∀ w : String, (w.toList.head?.all fun x => !x.isDigit) = true →
      String.ofList (cs.map Char.toLower) ≠ w := by
    intro w hw eq
    rw [← eq, String.toList_ofList, lower] at hw
    simp [digit] at hw
  unfold read?
  rw [text, sign]
  simp [notWord "inf" (by decide), notWord "infinity" (by decide), notWord "nan" (by decide)]

end Numeral

/-! ## Reading positional text -/

/-- The characters of a positional numeral: digits, the point and the minus sign. -/
def NumeralChar (c : Char) : Prop := c.isDigit = true ∨ c = '.' ∨ c = '-'

theorem isWhiteSpace_of_numeralChar {c : Char} (h : NumeralChar c) : Text.isWhiteSpace c = false := by
  rcases h with digit | rfl | rfl
  · have bounds := Char.isDigit_iff_toNat.mp digit
    simp only [Char.reduceToNat] at bounds
    simp only [Text.isWhiteSpace, Bool.or_eq_false_iff, Bool.and_eq_false_iff,
      decide_eq_false_iff_not, not_le, beq_eq_false_iff_ne, ne_eq]
    omega
  · decide
  · decide

/-- Trimming leaves a numeral's text as it is. -/
theorem trim_of_numeralChars {s : String} (h : ∀ c ∈ s.toList, NumeralChar c) :
    Text.trim s = s := by
  have front : s.toList.dropWhile Text.isWhiteSpace = s.toList :=
    List.dropWhile_eq_self_iff.mpr fun hl => by
      rw [isWhiteSpace_of_numeralChar (h _ (List.getElem_mem hl))]
      decide
  have back : s.toList.reverse.dropWhile Text.isWhiteSpace = s.toList.reverse :=
    List.dropWhile_eq_self_iff.mpr fun hl => by
      rw [isWhiteSpace_of_numeralChar (h _ (List.mem_reverse.mp (List.getElem_mem hl)))]
      decide
  rw [Text.trim, front, back, List.reverse_reverse, String.ofList_toList]

/-- A sign before digits and points makes a numeral's text. -/
theorem numeralChars_of_text {s : String} {negative : Bool} {cs : List Char}
    (text : s.toList = (if negative then ['-'] else []) ++ cs)
    (chars : ∀ c ∈ cs, c.isDigit = true ∨ c = '.') : ∀ c ∈ s.toList, NumeralChar c := by
  intro c mem
  rw [text, List.mem_append] at mem
  rcases mem with sign | body
  · have minus : c = '-' := by cases negative <;> simp_all
    exact .inr (.inr minus)
  · rcases chars c body with digit | point
    · exact .inl digit
    · exact .inr (.inl point)

theorem toList_sign (negative : Bool) :
    (if negative then "-" else "").toList = if negative then ['-'] else [] := by
  cases negative <;> rfl

/-- The positional text of `digits · 10 ^ exponent`, with a minus sign or without, is made of
numeral characters and reads back as a decimal of the same sign and magnitude. -/
theorem read_positionalText (negative : Bool) (digits : Nat) (exponent : Int) :
    (∀ c ∈ ((if negative then "-" else "") ++ Layout.plain.positionalText digits exponent).toList,
        NumeralChar c) ∧
      ∃ d : Decimal, Numeral.read? ((if negative then "-" else "") ++
        Layout.plain.positionalText digits exponent) = some (.finite d) ∧
      d.negative = negative ∧ d.magnitude = digits * 10 ^ exponent := by
  have allDigits : ∀ c ∈ Nat.toDigits 10 digits, c.isDigit = true := fun _ => isDigit_of_mem_toDigits
  obtain ⟨c, r, first⟩ : ∃ c r, Nat.toDigits 10 digits = c :: r :=
    List.exists_cons_of_ne_nil (List.ne_nil_of_length_pos Nat.length_toDigits_pos)
  have digit : c.isDigit = true := allDigits c (by simp [first])
  unfold Layout.positionalText
  simp only [Layout.plain, Nat.toString_eq_ofList_toDigits, String.length_ofList,
    String.toList_ofList, Bool.false_eq_true, ↓reduceIte]
  by_cases nonneg : 0 ≤ exponent
  · -- digits and trailing zeros
    rw [if_pos nonneg]
    have text : ((if negative then "-" else "") ++
        (String.ofList (Nat.toDigits 10 digits) ++ padding exponent.toNat '0' ++ "")).toList =
        (if negative then ['-'] else []) ++
          (Nat.toDigits 10 digits ++ List.replicate exponent.toNat '0') := by
      simp [toList_sign, padding]
    have chars : ∀ c ∈ Nat.toDigits 10 digits ++ List.replicate exponent.toNat '0',
        c.isDigit = true ∨ c = '.' := by
      intro c mem
      rcases List.mem_append.mp mem with digit | zero
      · exact .inl (allDigits c digit)
      · rw [List.eq_of_mem_replicate zero]
        exact .inl rfl
    refine ⟨numeralChars_of_text text chars, ?_⟩
    rw [Numeral.read?_signed negative text (by rw [first]; rfl) digit,
      Numeral.readUnsigned_whole negative (by simpa [or_imp, forall_and] using allDigits)
        (by simp)]
    refine ⟨_, rfl, rfl, ?_⟩
    rw [Decimal.magnitude, natOfDigits_append, natOfDigits_zeros, natOfDigits_toDigits,
      List.length_replicate]
    push_cast
    rw [add_zero, mul_one, ← zpow_natCast, Int.toNat_of_nonneg nonneg]
  rw [if_neg nonneg]
  by_cases short : (-exponent).toNat < (Nat.toDigits 10 digits).length
  · -- a point inside the digits
    rw [if_pos short]
    set ds := Nat.toDigits 10 digits
    set whole := ds.length - (-exponent).toNat
    have text : ((if negative then "-" else "") ++ (String.ofList (ds.take whole) ++ "." ++
        String.ofList (ds.drop whole))).toList =
        (if negative then ['-'] else []) ++ (ds.take whole ++ '.' :: ds.drop whole) := by
      simp [toList_sign]
    have lead : ds.take whole ++ '.' :: ds.drop whole =
        c :: (r.take (whole - 1) ++ '.' :: ds.drop whole) := by
      rw [first, show whole = whole - 1 + 1 by omega, List.take_succ_cons]
      simp
    have chars : ∀ c ∈ ds.take whole ++ '.' :: ds.drop whole, c.isDigit = true ∨ c = '.' := by
      intro c mem
      rcases List.mem_append.mp mem with digit | rest
      · exact .inl (allDigits c (List.mem_of_mem_take digit))
      · rcases List.mem_cons.mp rest with point | digit
        · exact .inr point
        · exact .inl (allDigits c (List.mem_of_mem_drop digit))
    refine ⟨numeralChars_of_text text chars, ?_⟩
    rw [Numeral.read?_signed negative text lead digit,
      Numeral.readUnsigned_point negative (fun c h => allDigits c (List.mem_of_mem_take h))
        (fun c h => allDigits c (List.mem_of_mem_drop h)) (by simp [ds]; omega)]
    refine ⟨_, rfl, rfl, ?_⟩
    rw [Decimal.magnitude, List.take_append_drop, natOfDigits_toDigits, List.length_drop]
    show (digits : ℚ) * 10 ^ (-((ds.length - whole : Nat) : Int)) = digits * 10 ^ exponent
    have wholeEq : whole = ds.length - (-exponent).toNat := rfl
    congr 2
    omega
  · -- a point, zeros, then the digits
    rw [if_neg short]
    set ds := Nat.toDigits 10 digits
    have text : ((if negative then "-" else "") ++ ("0." ++
        padding ((-exponent).toNat - ds.length) '0' ++ String.ofList ds)).toList =
        (if negative then ['-'] else []) ++
          (['0'] ++ '.' :: (List.replicate ((-exponent).toNat - ds.length) '0' ++ ds)) := by
      simp [toList_sign, padding]
    have fracDigits : ∀ c ∈ List.replicate ((-exponent).toNat - ds.length) '0' ++ ds,
        c.isDigit = true := by
      intro c mem
      rcases List.mem_append.mp mem with zero | digit
      · rw [List.eq_of_mem_replicate zero]
        rfl
      · exact allDigits c digit
    have chars : ∀ c ∈ ['0'] ++ '.' :: (List.replicate ((-exponent).toNat - ds.length) '0' ++ ds),
        c.isDigit = true ∨ c = '.' := by
      intro c mem
      simp only [List.cons_append, List.nil_append, List.mem_cons] at mem
      rcases mem with rfl | rfl | rest
      · exact .inl rfl
      · exact .inr rfl
      · exact .inl (fracDigits c rest)
    refine ⟨numeralChars_of_text text chars, ?_⟩
    rw [Numeral.read?_signed negative text rfl (by decide),
      Numeral.readUnsigned_point negative (by simp) fracDigits (by simp)]
    refine ⟨_, rfl, rfl, ?_⟩
    rw [Decimal.magnitude, natOfDigits_append, natOfDigits_append, natOfDigits_zeros,
      natOfDigits_toDigits, List.length_append, List.length_replicate]
    have zero : natOfDigits ['0'] = 0 := rfl
    rw [zero]
    push_cast
    rw [zero_mul, zero_mul, zero_add, zero_add]
    congr 2
    omega

/-- The plain text of a decimal is made of numeral characters and reads back as a decimal of
the same sign and magnitude. -/
theorem read_decimalText (d : Decimal) :
    (∀ c ∈ (Layout.plain.decimalText d).toList, NumeralChar c) ∧
      ∃ d' : Decimal, Numeral.read? (Layout.plain.decimalText d) = some (.finite d') ∧
      d'.negative = d.negative ∧ d'.magnitude = d.magnitude := by
  unfold Layout.decimalText
  dsimp only
  by_cases zero : d.digits = 0
  · rw [if_pos zero]
    obtain ⟨chars, d', read, sign, value⟩ := read_positionalText d.negative 0 0
    exact ⟨chars, d', read, sign, by rw [value, Decimal.magnitude, zero]; simp⟩
  · -- the plain layout is positional throughout
    rw [if_neg zero, if_pos (show Layout.plain.positional _ = true from rfl)]
    exact read_positionalText d.negative d.digits d.exponent

/-! ## Reading back what is written -/

/-- The shortest decimal of a double, written plainly, reads back as the double itself. -/
theorem readNumber_binaryText (tie : Tie) {y : Binary64} (canon : y.Canonical) :
    readNumber (Layout.plain.binaryText tie y) = y := by
  cases y with
  | nan => cases tie <;> decide +kernel
  | inf s => cases tie <;> cases s <;> decide +kernel
  | finite s m q =>
    rcases Nat.eq_zero_or_pos m with rfl | hm
    · -- zero is written `0` or `-0`
      have atMin : q = Format.binary64.qmin := canon.2.2.2.resolve_left (by decide)
      subst atMin
      cases tie <;> cases s <;> decide +kernel
    · obtain ⟨d, found⟩ : ∃ d, (Binary.finite s m q : Binary64).shortest tie = some d := by
        simp only [Binary.shortest, if_neg hm.ne']
        exact ⟨_, rfl⟩
      obtain ⟨sign, mem⟩ := Binary.shortest_mem hm found
      obtain ⟨chars, d', read, sign', value⟩ := read_decimalText d
      unfold readNumber Layout.binaryText
      rw [found]
      dsimp only
      rw [trim_of_numeralChars chars, read]
      exact Decimal.toBinary_of_mem (by decide) canon hm (sign'.trans sign) (value ▸ mem)

/-- An integer is written as its digits, after a minus sign when it is negative. -/
theorem toString_int (n : Int) :
    toString n = (if decide (n < 0) then "-" else "") ++ Layout.plain.positionalText n.natAbs 0 := by
  have plain : ∀ k : Nat, Layout.plain.positionalText k 0 = toString k := fun k => by
    simp [Layout.positionalText, Layout.plain, padding]
  cases n with
  | ofNat k =>
    rw [plain]
    simp
    rfl
  | negSucc k =>
    rw [plain]
    simp
    rfl

/-- An integer double precision holds exactly: a significand of at most 53 bits times a power
of two. -/
def ExactDouble (n : Int) : Prop := ∃ k e : Nat, k < 2 ^ 53 ∧ n.natAbs = k * 2 ^ e

/-- A 64-bit integer that reading through double precision restores: one that double precision
holds exactly, or the largest, which rounds up to `2 ^ 63` and saturates back. -/
def ExactInt64 (n : Int) : Prop := Word.IsInt64 n ∧ (ExactDouble n ∨ n = Word.int64Max)

/-- Truncating a finite value whose magnitude is the natural `N` gives `N`. -/
theorem truncMagnitude_of_value {m N : Nat} {q : Int} (value : (m : ℚ) * 2 ^ q = N) :
    Binary.truncMagnitude m q = N := by
  unfold Binary.truncMagnitude
  split_ifs with nonneg
  · rw [Nat.pow_eq, ← Nat.cast_inj (R := ℚ), Nat.cast_mul, two_zpow_natCast,
      Int.toNat_of_nonneg nonneg, value]
  · have scaled : m = N * 2 ^ (-q).toNat := by
      rw [← Nat.cast_inj (R := ℚ), Nat.cast_mul, two_zpow_natCast, Int.toNat_of_nonneg (by omega),
        ← value, mul_assoc, ← zpow_add₀ two_ne_zero, add_neg_cancel, zpow_zero, mul_one]
    rw [Nat.pow_eq, scaled, Nat.mul_div_cancel _ (Nat.two_pow_pos _)]

theorem signedNat_natAbs (n : Int) : signedNat (decide (n < 0)) n.natAbs = n := by
  unfold signedNat
  split_ifs with negative
  · rw [Int.ofNat_natAbs_of_nonpos (le_of_lt (by simpa using negative)), neg_neg]
  · exact Int.natAbs_of_nonneg (by simpa using negative)

/-- A finite value with the sign and magnitude of a 64-bit integer truncates back to it. -/
theorem toInt64_of_value {f : Format} {m : Nat} {q n : Int} (range : Word.IsInt64 n)
    (center : (m : ℚ) * 2 ^ q = n.natAbs) :
    (Binary.finite (decide (n < 0)) m q : Binary f).toInt64 = n := by
  simp only [Binary.toInt64, Binary.toIntSat]
  rw [truncMagnitude_of_value center, signedNat_natAbs]
  unfold Word.IsInt64 Word.int64Min Word.int64Max at range
  rw [if_neg (by omega), if_neg (by omega)]

/-- A decimal without digits reads as a zero, which truncates to `0`. -/
theorem toInt64_toBinary_of_zero {d : Decimal} (digits : d.digits = 0) :
    (d.toBinary Format.binary64).toInt64 = 0 := by
  have nothing : Binary.truncMagnitude 0 Format.binary64.qmin = 0 := by
    simp [Binary.truncMagnitude]
  unfold Decimal.toBinary
  rw [if_pos digits]
  cases d.negative <;> simp [Binary.toInt64, Binary.toIntSat, nothing, signedNat]

/-- A 64-bit integer that reading through double precision restores, read from its text and
truncated back to 64 bits, is itself. -/
theorem readNumber_int {n : Int} (exact : ExactInt64 n) : (readNumber (toString n)).toInt64 = n := by
  obtain ⟨range, restored⟩ := exact
  rcases restored with ⟨k, e, small, abs⟩ | rfl
  · obtain ⟨chars, d, read, sign, value⟩ := read_positionalText (decide (n < 0)) n.natAbs 0
    have magnitude : d.magnitude = n.natAbs := by rw [value, zpow_zero, mul_one]
    unfold readNumber
    rw [toString_int, trim_of_numeralChars chars, read]
    show (d.toBinary Format.binary64).toInt64 = n
    rcases Nat.eq_zero_or_pos k with rfl | hk
    · -- zero, of either sign
      have zero : n = 0 := by simpa using abs
      have digits : d.digits = 0 := by
        rw [zero, Decimal.magnitude] at magnitude
        exact_mod_cast (mul_eq_zero.mp magnitude).resolve_right (zpow_ne_zero _ (by norm_num))
      rw [toInt64_toBinary_of_zero digits, zero]
    · -- the integer is a double, which its decimal rounds to exactly
      have bound : n.natAbs ≤ 2 ^ 63 := by
        unfold Word.IsInt64 Word.int64Min Word.int64Max at range
        omega
      have expBound : e < 64 := by
        by_contra big
        have : 2 ^ 64 ≤ k * 2 ^ e :=
          (Nat.pow_le_pow_right (by norm_num) (by omega)).trans (Nat.le_mul_of_pos_left _ hk)
        omega
      obtain ⟨m, q, canon, pos, held⟩ := Binary.exists_canonical (f := Format.binary64) (e := e) hk
        small (by simp only [Format.qmin, Format.binary64]; omega)
        (by simp only [Format.qmax, Format.binary64]; omega) (decide (n < 0))
      have center : (m : ℚ) * 2 ^ q = n.natAbs := by
        rw [held, abs]
        push_cast
        rw [zpow_natCast]
      rw [Decimal.toBinary_of_mem (by decide) canon pos sign
        (magnitude.trans center.symm ▸ RoundingInterval.mem_center pos), toInt64_of_value range center]
  · decide +kernel

end StepperDrive
