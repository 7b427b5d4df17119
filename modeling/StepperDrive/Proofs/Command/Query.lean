import StepperDrive.Proofs.Decimal.Readback
/-!
# Queries restore the command they were written from

A command is written as a query by giving each field under its long name or short key
(`ParameterField.key`) with its text (`MotorParameters.fieldText`): a rate as the shortest
decimal of its double-precision value, a position or the dwell as its integer, the step mode as
its index. `queryText` joins the seven pieces with `&`.

`queryPairs_queryText` reads such a query back into the pairs it was written from, whatever
request text surrounds it, and `Intake.applyPairs_fields` applies them field by field: a rate
comes back because reading the shortest decimal rounds to the double it was printed from and
every single-precision value survives widening, and a count comes back when double precision
holds it (`ExactInt64`). `query_round_trip` assembles these with the general reading of a
query: the left fold of `Intake.applyStep` over its pairs, which leaves a field that no pair
names as it was (`MotorParameters.Same`).
-/

namespace StepperDrive

set_option autoImplicit false

namespace ParameterField

/-- The short key of the field. -/
def shortKey : ParameterField → String
  | .speed => "rs"
  | .acceleration => "ra"
  | .deceleration => "rd"
  | .currentPosition => "cis"
  | .finalPosition => "fis"
  | .stepMode => "sm"
  | .dwellTime => "dt"

/-- The field's long name, or its short key when `short` is set. -/
def key (f : ParameterField) (short : Bool) : String := if short then f.shortKey else f.name

theorem ofKey?_key (f : ParameterField) (short : Bool) : ofKey? (f.key short) = some f := by
  cases f <;> cases short <;> rfl

/-- The seven fields. -/
def all : List ParameterField :=
  [.speed, .acceleration, .deceleration, .currentPosition, .finalPosition, .stepMode, .dwellTime]

theorem mem_all (f : ParameterField) : f ∈ all := by
  cases f <;> decide

end ParameterField

namespace MotorParameters

/-- `p` and `p'` hold the same value in the field `f`. -/
def Same (f : ParameterField) (p p' : MotorParameters) : Prop :=
  match f with
  | .speed => p.speed = p'.speed
  | .acceleration => p.acceleration = p'.acceleration
  | .deceleration => p.deceleration = p'.deceleration
  | .currentPosition => p.currentPosition = p'.currentPosition
  | .finalPosition => p.finalPosition = p'.finalPosition
  | .stepMode => p.stepMode = p'.stepMode
  | .dwellTime => p.dwellMs = p'.dwellMs

theorem Same.refl (f : ParameterField) (p : MotorParameters) : Same f p p := by
  cases f <;> rfl

theorem Same.trans {f : ParameterField} {p q r : MotorParameters} (h : Same f p q)
    (h' : Same f q r) : Same f p r := by
  cases f <;> exact Eq.trans h h'

/-- Commands that agree in every field are equal. -/
theorem eq_of_same {p p' : MotorParameters} (h : ∀ f, Same f p p') : p = p' := by
  cases p
  cases p'
  simp only [MotorParameters.mk.injEq]
  exact ⟨h .currentPosition, h .finalPosition, h .dwellTime, h .speed, h .acceleration,
    h .deceleration, h .stepMode⟩

/-- Setting a field leaves every other field as it was. -/
theorem same_setField {f g : ParameterField} (hne : g ≠ f) (p : MotorParameters)
    (x : Binary64) : Same g (p.setField f x) p := by
  cases f <;> cases g <;> simp_all [setField, Same]

/-- The text of the field `f` of `p` in a query: a rate as the shortest decimal of its double,
a tie between two candidates settled by `tie`; a position or the dwell as its integer; the step
mode as its index. -/
def fieldText (tie : Tie) (p : MotorParameters) : ParameterField → String
  | .speed => Layout.plain.binaryText tie p.speed.toBinary64
  | .acceleration => Layout.plain.binaryText tie p.acceleration.toBinary64
  | .deceleration => Layout.plain.binaryText tie p.deceleration.toBinary64
  | .currentPosition => toString p.currentPosition
  | .finalPosition => toString p.finalPosition
  | .stepMode => toString p.stepMode.index
  | .dwellTime => toString p.dwellMs

/-- A command whose every field a query restores: rates in their one encoding (as every
single-precision value of the drive is) and counts that reading through double precision
restores. -/
structure Writable (p : MotorParameters) : Prop where
  speed : p.speed.Canonical
  acceleration : p.acceleration.Canonical
  deceleration : p.deceleration.Canonical
  currentPosition : ExactInt64 p.currentPosition
  finalPosition : ExactInt64 p.finalPosition
  dwell : ExactInt64 p.dwellMs

/-- A rate written through double precision and read back is the rate. -/
theorem toBinary32_readNumber (tie : Tie) {x : Binary32} (canon : x.Canonical) :
    (readNumber (Layout.plain.binaryText tie x.toBinary64)).toBinary32 = x := by
  obtain ⟨wide, back⟩ := Binary.toBinary64_canonical canon
  rw [readNumber_binaryText tie wide, back]

/-- A step mode written as its index and read back is the mode. -/
theorem stepMode_readNumber (m : StepMode) :
    (StepMode.ofIndex? (readNumber (toString m.index)).toInt64).getD .wave = m := by
  have small : m.index < 3 := by cases m <;> decide
  have restored : ((readNumber (toString (m.index : Int))).toInt64) = m.index :=
    readNumber_int ⟨by unfold Word.IsInt64 Word.int64Min Word.int64Max; omega,
      .inl ⟨m.index, 0, by omega, by simp⟩⟩
  rw [show toString m.index = toString (m.index : Int) from rfl, restored, StepMode.ofIndex?_index]
  rfl

/-- Reading the text of a field of a writable command sets that field to its value. -/
theorem same_setField_fieldText {p : MotorParameters} (w : p.Writable) (tie : Tie)
    (f : ParameterField) (t : MotorParameters) :
    Same f (t.setField f (readNumber (p.fieldText tie f))) p := by
  cases f <;> simp only [Same, setField, fieldText]
  case speed => exact toBinary32_readNumber tie w.speed
  case acceleration => exact toBinary32_readNumber tie w.acceleration
  case deceleration => exact toBinary32_readNumber tie w.deceleration
  case currentPosition => exact readNumber_int w.currentPosition
  case finalPosition => exact readNumber_int w.finalPosition
  case stepMode => exact stepMode_readNumber p.stepMode
  case dwellTime => exact readNumber_int w.dwell

end MotorParameters

/-! ## Splitting a query -/

/-- A character that may stand inside a query's names and values: no `&`, blank or `?`. -/
def QueryChar (c : Char) : Prop := c ≠ '&' ∧ c ≠ ' ' ∧ c ≠ '?'

instance (c : Char) : Decidable (QueryChar c) := inferInstanceAs (Decidable (_ ∧ _ ∧ _))

theorem forall_mem_intercalate {α : Type} {P : α → Prop} {sep : List α} :
    ∀ {ls : List (List α)}, (∀ c ∈ sep, P c) → (∀ l ∈ ls, ∀ c ∈ l, P c) →
      ∀ c ∈ sep.intercalate ls, P c
  | [], _, _ => by simp
  | [l], _, hl => by simpa using hl l (by simp)
  | l :: l' :: zs, hsep, hl => by
    rw [List.intercalate_cons_cons]
    intro c mem
    simp only [List.mem_append] at mem
    rcases mem with (inL | inSep) | rest
    · exact hl l (by simp) c inL
    · exact hsep c inSep
    · exact forall_mem_intercalate hsep (fun l'' mem'' => hl l'' (by simp_all)) c rest

theorem queryChar_of_numeralChar {c : Char} (h : NumeralChar c) : QueryChar c := by
  rcases h with digit | rfl | rfl
  · refine ⟨?_, ?_, ?_⟩ <;> (rintro rfl; revert digit; decide)
  · decide
  · decide

/-- Every character of a list without `x` passes the test `· != x`. -/
theorem bne_of_not_mem {x : Char} {l : List Char} (h : x ∉ l) : ∀ c ∈ l, (c != x) = true :=
  fun c mem => by simpa using fun same : c = x => h (same ▸ mem)

theorem toList_mark (r : String) : ("?" ++ r).toList = '?' :: r.toList := by simp

theorem span_mark (r : String) :
    ("?" ++ r).toList.span (· != '?') = ([], '?' :: r.toList) := by
  rw [toList_mark]
  exact @span_append_of_stop Char _ [] _ (by simp) (by rintro c r ⟨rfl, -⟩; rfl)

/-- Only the first `?` counts: what stands before it is dropped. -/
theorem queryPairs_after_mark {t : String} (r : String) (h : '?' ∉ t.toList) :
    queryPairs (t ++ ("?" ++ r)) = queryPairs ("?" ++ r) := by
  have split : (t ++ ("?" ++ r)).toList.span (· != '?') = (t.toList, '?' :: r.toList) := by
    rw [String.toList_append, toList_mark]
    exact span_append_of_stop (bne_of_not_mem h) (by rintro c r ⟨rfl, -⟩; rfl)
  unfold queryPairs
  dsimp only
  rw [split, span_mark]

/-- A query without `?` is read whole. -/
theorem queryPairs_unmarked {r : String} (h : '?' ∉ r.toList) :
    queryPairs ("?" ++ r) = queryPairs r := by
  have whole : r.toList.span (· != '?') = (r.toList, []) :=
    span_of_forall (bne_of_not_mem h)
  unfold queryPairs
  dsimp only
  rw [whole, span_mark]

/-- A query ends at its first blank. -/
theorem queryPairs_cut {r : String} (u : String) (h : ' ' ∉ r.toList) :
    queryPairs ("?" ++ (r ++ (" " ++ u))) = queryPairs ("?" ++ r) := by
  have upTo : (r.toList ++ ' ' :: u.toList).takeWhile (· != ' ') = r.toList.takeWhile (· != ' ') := by
    have clear := bne_of_not_mem h
    rw [List.takeWhile_append_of_pos clear, List.takeWhile_eq_self_iff.mpr clear]
    simp
  unfold queryPairs
  dsimp only
  rw [span_mark, span_mark]
  dsimp only
  rw [String.toList_append, show (" " ++ u).toList = ' ' :: u.toList by simp, upTo]

/-- A name clear of `=` and a value, joined by `=`, are split back at the first `=`. -/
theorem span_piece {k v : String} (h : '=' ∉ k.toList) :
    (k ++ "=" ++ v).toList.span (· != '=') = (k.toList, '=' :: v.toList) := by
  rw [show (k ++ "=" ++ v).toList = k.toList ++ '=' :: v.toList by simp]
  exact span_append_of_stop (bne_of_not_mem h) (by rintro c r ⟨rfl, -⟩; rfl)

/-- A piece `name=value` of names and values clear of the separators is clear of them too, but
for its `=`. -/
theorem piece_chars {k v : String} (name : ∀ c ∈ k.toList, c ≠ '=' ∧ QueryChar c)
    (value : ∀ c ∈ v.toList, QueryChar c) : ∀ c ∈ (k ++ "=" ++ v).toList, QueryChar c := by
  intro c inPiece
  simp only [String.toList_append, List.mem_append] at inPiece
  rcases inPiece with (inName | equals) | inValue
  · exact (name c inName).2
  · simp only [show ("=" : String).toList = ['='] by simp, List.mem_singleton] at equals
    subst equals
    decide
  · exact value c inValue

/-- Pieces joined by `&` hold no blank and no `?`. -/
theorem joined_chars {pieces : List String} (clear : ∀ piece ∈ pieces, ∀ c ∈ piece.toList, QueryChar c) :
    ∀ c ∈ ("&".intercalate pieces).toList, c ≠ ' ' ∧ c ≠ '?' := by
  rw [String.toList_intercalate]
  refine forall_mem_intercalate (P := fun c => c ≠ ' ' ∧ c ≠ '?') (by simp) ?_
  intro l mem c inL
  obtain ⟨piece, pieceMem, rfl⟩ := List.mem_map.mp mem
  exact (clear piece pieceMem c inL).2

/-- A query of `name=value` pieces joined by `&`, with no `?` or blank, and names clear of `=`
and values clear of `&`, is read as the pairs it was written from. -/
theorem queryPairs_intercalate {pairs : List (String × String)} (hne : pairs ≠ [])
    (names : ∀ kv ∈ pairs, ∀ c ∈ kv.1.toList, c ≠ '=' ∧ QueryChar c)
    (values : ∀ kv ∈ pairs, ∀ c ∈ kv.2.toList, QueryChar c) :
    queryPairs ("&".intercalate (pairs.map fun kv => kv.1 ++ "=" ++ kv.2)) = pairs := by
  set pieces := pairs.map fun kv => kv.1 ++ "=" ++ kv.2
  have pieceChars : ∀ piece ∈ pieces, ∀ c ∈ piece.toList, QueryChar c := by
    intro piece mem
    obtain ⟨kv, kvMem, rfl⟩ := List.mem_map.mp mem
    exact piece_chars (names kv kvMem) (values kv kvMem)
  have bodyChars := joined_chars pieceChars
  have unmarked : ("&".intercalate pieces).toList.span (· != '?') =
      (("&".intercalate pieces).toList, []) := by
    have clear : ∀ c ∈ ("&".intercalate pieces).toList, (c != '?') = true := fun c mem => by
      simpa using (bodyChars c mem).2
    exact span_of_forall clear
  have unbroken : ("&".intercalate pieces).toList.takeWhile (· != ' ') =
      ("&".intercalate pieces).toList :=
    List.takeWhile_eq_self_iff.mpr fun c mem => by simpa using (bodyChars c mem).1
  have split : List.splitOn '&' ("&".intercalate pieces).toList = pieces.map String.toList := by
    rw [String.toList_intercalate]
    refine List.splitOn_intercalate '&' (fun l mem amp => ?_) (by simpa [pieces] using hne)
    obtain ⟨piece, pieceMem, rfl⟩ := List.mem_map.mp mem
    exact (pieceChars piece pieceMem '&' amp).1 rfl
  unfold queryPairs
  dsimp only
  rw [unmarked]
  dsimp only
  rw [unbroken, split, List.map_map, List.filterMap_map]
  conv_rhs => rw [← List.filterMap_some (l := pairs)]
  refine List.filterMap_congr fun kv mem => ?_
  have clearName : '=' ∉ kv.1.toList := fun mem' => (names kv mem '=' mem').1 rfl
  simp only [Function.comp, span_piece clearName, String.ofList_toList]

/-- What stands before the query (a text ending in its only `?`, or nothing when no `?` follows)
and after it (nothing, or a blank and any text) does not change its pairs. -/
theorem queryPairs_framed {pre body post : String} (noMark : '?' ∉ body.toList)
    (noBlank : ' ' ∉ body.toList)
    (before : (pre = "" ∧ '?' ∉ post.toList) ∨ ∃ t, '?' ∉ t.toList ∧ pre = t ++ "?")
    (after : post = "" ∨ ∃ u, post = " " ++ u) :
    queryPairs (pre ++ body ++ post) = queryPairs body := by
  have marked : queryPairs (pre ++ body ++ post) = queryPairs ("?" ++ (body ++ post)) := by
    rcases before with ⟨rfl, clear⟩ | ⟨t, clear, rfl⟩
    · have whole : '?' ∉ (body ++ post).toList := by
        simpa [String.toList_append] using ⟨noMark, clear⟩
      rw [String.empty_append, queryPairs_unmarked whole]
    · rw [String.append_assoc, String.append_assoc, queryPairs_after_mark _ clear]
  rw [marked]
  rcases after with rfl | ⟨u, rfl⟩
  · rw [String.append_empty, queryPairs_unmarked noMark]
  · rw [queryPairs_cut u noBlank, queryPairs_unmarked noMark]

/-! ## Applying a query -/

namespace Intake

/-- One step of applying a query: a pair with a known name sets its field and is counted, any
other pair is passed over. -/
def applyStep (acc : Intake × Nat) (kv : String × String) : Intake × Nat :=
  match acc.1.applyField kv.1 kv.2 with
  | .ok (next, _) => (next, acc.2 + 1)
  | .error _ => acc

/-- Applying pairs is the left fold of `applyStep`, counting from any start. -/
theorem foldl_applyStep (i : Intake) (pairs : List (String × String)) (n : Nat) :
    pairs.foldl applyStep (i, n) = ((i.applyPairs pairs).1, (i.applyPairs pairs).2 + n) := by
  induction pairs generalizing i n with
  | nil => simp [applyPairs]
  | cons kv rest ih =>
    obtain ⟨k, v⟩ := kv
    rw [List.foldl_cons, applyPairs]
    cases applied : i.applyField k v with
    | ok r =>
      obtain ⟨next, f⟩ := r
      have step : applyStep (i, n) (k, v) = (next, n + 1) := by simp [applyStep, applied]
      rw [step, ih]
      dsimp only
      simp only [Prod.mk.injEq, true_and]
      omega
    | error e =>
      have step : applyStep (i, n) (k, v) = (i, n) := by simp [applyStep, applied]
      rw [step]
      exact ih i n

/-- A known name sets its field from the value read as a double; any other name is refused. -/
theorem applyField_cases (i : Intake) (k v : String) :
    (∃ f, ParameterField.ofKey? k = some f ∧
      i.applyField k v = .ok ({ i with template := i.template.setField f (readNumber v) }, f)) ∨
    (ParameterField.ofKey? k = none ∧ ∃ e, i.applyField k v = .error e) := by
  unfold applyField
  cases ParameterField.ofKey? k with
  | none => exact .inr ⟨rfl, _, rfl⟩
  | some f => exact .inl ⟨f, rfl, rfl⟩

/-- Applying pairs changes only the template. -/
theorem applyPairs_keeps (i : Intake) (pairs : List (String × String)) :
    (i.applyPairs pairs).1 = { i with template := (i.applyPairs pairs).1.template } := by
  induction pairs generalizing i with
  | nil => rfl
  | cons kv rest ih =>
    obtain ⟨k, v⟩ := kv
    rcases applyField_cases i k v with ⟨f, -, applied⟩ | ⟨-, e, refused⟩
    · rw [applyPairs, applied]
      dsimp only
      rw [ih]
    · rw [applyPairs, refused]
      exact ih i

/-- A field that no pair names keeps its value. -/
theorem applyPairs_frame (i : Intake) (pairs : List (String × String)) (f : ParameterField)
    (unnamed : ∀ kv ∈ pairs, ParameterField.ofKey? kv.1 ≠ some f) :
    MotorParameters.Same f (i.applyPairs pairs).1.template i.template := by
  induction pairs generalizing i with
  | nil => exact MotorParameters.Same.refl f _
  | cons kv rest ih =>
    obtain ⟨k, v⟩ := kv
    have restUnnamed : ∀ kv ∈ rest, ParameterField.ofKey? kv.1 ≠ some f :=
      fun kv mem => unnamed kv (List.mem_cons_of_mem _ mem)
    rcases applyField_cases i k v with ⟨g, named, applied⟩ | ⟨-, e, refused⟩
    · have other : f ≠ g := fun same => unnamed (k, v) List.mem_cons_self (same ▸ named)
      rw [applyPairs, applied]
      dsimp only
      exact (ih _ restUnnamed).trans (MotorParameters.same_setField other _ _)
    · rw [applyPairs, refused]
      exact ih i restUnnamed

end Intake

/-! ## Writing a command as a query -/

namespace Intake

/-- Applying the pairs that write some fields of `p` counts every pair, sets the fields named to
their values in `p` and keeps the others. -/
theorem applyPairs_fields {p : MotorParameters} (w : p.Writable) (tie : Tie) (i : Intake)
    (fields : List (ParameterField × Bool)) :
    (i.applyPairs (fields.map fun e => (e.1.key e.2, p.fieldText tie e.1))).2 = fields.length ∧
      ∀ g, MotorParameters.Same g
        (i.applyPairs (fields.map fun e => (e.1.key e.2, p.fieldText tie e.1))).1.template
        (if g ∈ fields.map Prod.fst then p else i.template) := by
  induction fields generalizing i with
  | nil => exact ⟨rfl, fun g => MotorParameters.Same.refl g _⟩
  | cons e rest ih =>
    obtain ⟨f, short⟩ := e
    have applied : i.applyField (f.key short) (p.fieldText tie f) =
        .ok ({ i with template := i.template.setField f (readNumber (p.fieldText tie f)) }, f) := by
      simp [applyField, ParameterField.ofKey?_key]
    obtain ⟨count, same⟩ := ih { i with template := i.template.setField f (readNumber (p.fieldText tie f)) }
    simp only [List.map_cons, applyPairs, applied, List.length_cons]
    refine ⟨by rw [count], fun g => ?_⟩
    by_cases later : g ∈ rest.map Prod.fst
    · have := same g
      rw [if_pos later] at this
      rwa [if_pos (List.mem_cons_of_mem _ later)]
    · have := same g
      rw [if_neg later] at this
      by_cases here : g = f
      · subst here
        rw [if_pos List.mem_cons_self]
        exact this.trans (MotorParameters.same_setField_fieldText w tie g _)
      · rw [if_neg (by simp [here, later])]
        exact this.trans (MotorParameters.same_setField here _ _)

end Intake

/-- The query that writes the given fields of `p`, each under its long name or short key, in
the given order. -/
def queryText (tie : Tie) (p : MotorParameters) (fields : List (ParameterField × Bool)) : String :=
  "&".intercalate (fields.map fun e => e.1.key e.2 ++ "=" ++ p.fieldText tie e.1)

theorem key_chars (f : ParameterField) (short : Bool) :
    ∀ c ∈ (f.key short).toList, c ≠ '=' ∧ QueryChar c := by
  cases f <;> cases short <;> simp [ParameterField.key, ParameterField.shortKey, ParameterField.name, QueryChar]

theorem binaryText_chars {f : Format} (tie : Tie) (x : Binary f) :
    ∀ c ∈ (Layout.plain.binaryText tie x).toList, QueryChar c := by
  cases x with
  | nan => simp [Layout.binaryText, Layout.plain, QueryChar]
  | inf s => cases s <;> simp [Layout.binaryText, Layout.plain, QueryChar]
  | finite s m q =>
    unfold Layout.binaryText
    cases (Binary.finite s m q : Binary f).shortest tie with
    | none => simp [Layout.plain, QueryChar]
    | some d => exact fun c mem => queryChar_of_numeralChar ((read_decimalText d).1 c mem)

theorem intText_chars (n : Int) : ∀ c ∈ (toString n).toList, QueryChar c := by
  rw [toString_int]
  exact fun c mem => queryChar_of_numeralChar ((read_positionalText _ _ _).1 c mem)

theorem fieldText_chars (tie : Tie) (p : MotorParameters) (f : ParameterField) :
    ∀ c ∈ (p.fieldText tie f).toList, QueryChar c := by
  cases f with
  | speed => exact binaryText_chars tie _
  | acceleration => exact binaryText_chars tie _
  | deceleration => exact binaryText_chars tie _
  | currentPosition => exact intText_chars _
  | finalPosition => exact intText_chars _
  | stepMode => exact intText_chars p.stepMode.index
  | dwellTime => exact intText_chars _

/-- The query of some fields of `p` is read as the pairs it was written from, whatever stands
before it (a text ending in its only `?`, or nothing when the rest holds no `?`) and after it
(nothing, or a blank and any text). -/
theorem queryPairs_queryText (tie : Tie) (p : MotorParameters) {fields : List (ParameterField × Bool)}
    (hne : fields ≠ []) {pre post : String}
    (before : (pre = "" ∧ '?' ∉ post.toList) ∨ ∃ t, '?' ∉ t.toList ∧ pre = t ++ "?")
    (after : post = "" ∨ ∃ u, post = " " ++ u) :
    queryPairs (pre ++ queryText tie p fields ++ post) =
      fields.map fun e => (e.1.key e.2, p.fieldText tie e.1) := by
  have body : queryText tie p fields = "&".intercalate
      ((fields.map fun e => (e.1.key e.2, p.fieldText tie e.1)).map fun kv => kv.1 ++ "=" ++ kv.2) := by
    rw [List.map_map]
    rfl
  have names : ∀ kv ∈ fields.map (fun e => (e.1.key e.2, p.fieldText tie e.1)),
      ∀ c ∈ kv.1.toList, c ≠ '=' ∧ QueryChar c := by
    intro kv mem
    obtain ⟨e, -, rfl⟩ := List.mem_map.mp mem
    exact key_chars e.1 e.2
  have values : ∀ kv ∈ fields.map (fun e => (e.1.key e.2, p.fieldText tie e.1)),
      ∀ c ∈ kv.2.toList, QueryChar c := by
    intro kv mem
    obtain ⟨e, -, rfl⟩ := List.mem_map.mp mem
    exact fieldText_chars tie p e.1
  have clear := joined_chars fun piece mem => by
    obtain ⟨kv, kvMem, rfl⟩ := List.mem_map.mp mem
    exact piece_chars (names kv kvMem) (values kv kvMem)
  rw [body, queryPairs_framed (fun mark => (clear '?' mark).2 rfl)
    (fun blank => (clear ' ' blank).1 rfl) before after,
    queryPairs_intercalate (by simpa using hne) names values]

/-- Writing a command as a query and applying it restores the command. Every field of a writable
command, written under its long name or short key and in any order of the seven fields, is read
back to its value, so the template becomes the command and all seven fields count, whatever
stands before the query (a text ending in its only `?`, or nothing when no `?` follows) and after
it (nothing, or a blank and any text). And any query is the left fold of `applyField` over its
pairs, a field that no pair names keeping its value. -/
theorem query_round_trip (tie : Tie) (i : Intake) (p : MotorParameters)
    (fields : List (ParameterField × Bool)) (pre post : String) (writable : p.Writable)
    (order : (fields.map Prod.fst).Perm ParameterField.all)
    (before : (pre = "" ∧ '?' ∉ post.toList) ∨ ∃ t, '?' ∉ t.toList ∧ pre = t ++ "?")
    (after : post = "" ∨ ∃ u, post = " " ++ u) :
    i.applyQuery (pre ++ queryText tie p fields ++ post) = ({ i with template := p }, 7) ∧
      ∀ q : String, i.applyQuery q = (queryPairs q).foldl Intake.applyStep (i, 0) ∧
        ∀ f, (∀ kv ∈ queryPairs q, ParameterField.ofKey? kv.1 ≠ some f) →
          MotorParameters.Same f (i.applyQuery q).1.template i.template := by
  have seven : fields.length = 7 := by
    rw [← List.length_map (f := Prod.fst), order.length_eq]
    rfl
  refine ⟨?_, fun q => ⟨?_, fun f unnamed => Intake.applyPairs_frame i _ f unnamed⟩⟩
  · have hne : fields ≠ [] := by
      rintro rfl
      simp at seven
    obtain ⟨count, same⟩ := Intake.applyPairs_fields writable tie i fields
    -- every field is named, so every field is read back
    have template : (i.applyPairs (fields.map fun e => (e.1.key e.2, p.fieldText tie e.1))).1.template
        = p := by
      refine MotorParameters.eq_of_same fun g => ?_
      have := same g
      rwa [if_pos (order.mem_iff.mpr (ParameterField.mem_all g))] at this
    rw [Intake.applyQuery, queryPairs_queryText tie p hne before after, Prod.ext_iff,
      Intake.applyPairs_keeps, template, count, seven]
    exact ⟨rfl, rfl⟩
  · rw [Intake.applyQuery, Intake.foldl_applyStep, Nat.add_zero]

/-- A command with a negative position and a rate of `0.1`, its fields under mixed keys and
in a shuffled order, sent as the path of a request line, is restored. -/
theorem query_round_trip_request_line :
    (Intake.ofConfig SystemConfig.standard).applyQuery
        ("GET /move?" ++ queryText .up ⟨-3, 400, 250, 50, 12, .finite false 13421773 (-27), .half⟩
          [(.finalPosition, true), (.speed, false), (.stepMode, true), (.dwellTime, false),
            (.deceleration, true), (.currentPosition, false), (.acceleration, true)] ++
          " HTTP/1.1") =
      ({ Intake.ofConfig SystemConfig.standard with
          template := ⟨-3, 400, 250, 50, 12, .finite false 13421773 (-27), .half⟩ }, 7) :=
  (query_round_trip .up _ _ _ _ _
    ⟨by decide, by decide, by decide, ⟨by decide, .inl ⟨3, 0, by decide, by decide⟩⟩,
      ⟨by decide, .inl ⟨25, 4, by decide, by decide⟩⟩,
      ⟨by decide, .inl ⟨125, 1, by decide, by decide⟩⟩⟩
    (by decide) (.inr ⟨"GET /move", by simp, rfl⟩) (.inr ⟨"HTTP/1.1", rfl⟩)).1

/-- Where the round trip stops: a count that double precision cannot hold, `2 ^ 53 + 1`, is
read back as `2 ^ 53`; and with nothing before the query, a `?` after it leaves no pairs, so no
field is set. -/
theorem query_round_trip_limits :
    ((Intake.ofConfig SystemConfig.standard).applyQuery
        "rs=1&ra=1&rd=1&cis=0&fis=9007199254740993&sm=0&dt=0").1.template.finalPosition =
      9007199254740992 ∧
    ((Intake.ofConfig SystemConfig.standard).applyQuery
        "rs=1&ra=1&rd=1&cis=0&fis=5&sm=0&dt=0 ?").2 = 0 := by
  constructor <;> decide +kernel

end StepperDrive
