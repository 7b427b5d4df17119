import StepperDrive.Motion.Controller
/-!
# Four pins and the pattern they remember

`FourPinCoils` remembers the last pattern it set on all four lines and skips a write of that
pattern. The memory is only as good as the pins it describes: a write that fails half way has
moved some lines and not the memory.

To speak of the lines at all, a pin bank has to read back what was set on it
(`PinReadback`): an accepted write puts its line at its level and leaves the others, as an
output pin does. Over such a bank:

* a write that goes to the pins and succeeds leaves them showing its pattern
  (`shows_setFrom_of_done`);
* the memory is true (`Agrees`) of new coils and stays true through every successful write
  (`Agrees.write_ok`); a failed write leaves it as it was and moves each line at most to the
  pattern's level (`write_error`);
* so a write that succeeds leaves the pins short of its pattern exactly when it was skipped on
  a memory the pins no longer bear out, which only a failed write that moved a line can bring
  about (`write_shows_iff`). Releasing the coils is such a write of the all-off pattern
  (`Controller.disable_shows_off_iff`).
-/

namespace StepperDrive

set_option autoImplicit false

/-- A pin bank whose lines read back: an accepted write puts its line at its level and leaves
the other lines where they were. -/
class PinReadback (β : Type) [PinBank β] where
  /-- The level of line `i`. -/
  level : β → Fin 4 → Bool
  /-- An accepted write puts its line at its level. -/
  level_set_self {b b' : β} {i : Fin 4} {v : Bool} : PinBank.set b i v = some b' → level b' i = v
  /-- An accepted write leaves the other lines. -/
  level_set_of_ne {b b' : β} {i j : Fin 4} {v : Bool} :
    PinBank.set b i v = some b' → j ≠ i → level b' j = level b j

namespace BudgetPins

/-- In-memory pins read back their levels. -/
instance : PinReadback BudgetPins where
  level b i := b.levels.get i
  level_set_self := by
    intro b b' i v h
    simp only [PinBank.set] at h
    split at h
    · cases h
      exact Vector.getElem_set_self i.isLt
    · cases h
  level_set_of_ne := by
    intro b b' i j v h ne
    simp only [PinBank.set] at h
    split at h
    · cases h
      exact Vector.getElem_set_ne i.isLt j.isLt (Fin.val_ne_of_ne ne.symm)
    · cases h

end BudgetPins

namespace FourPinCoils

variable {β : Type} [PinBank β] [PinReadback β]

open PinReadback

/-- The lines show a pattern: each of the four is at the pattern's level. -/
def Shows (b : β) (p : CoilPattern) : Prop := ∀ i : Fin 4, level b i = p.isEnergized i

instance (b : β) (p : CoilPattern) : Decidable (Shows b p) :=
  inferInstanceAs (Decidable (∀ i : Fin 4, level b i = p.isEnergized i))

/-- The remembered pattern, if any, is what the lines show. -/
def Agrees (c : FourPinCoils β) : Prop := ∀ q, c.current = some q → Shows c.pins q

/-! ## Setting the lines one after another -/

variable (p : CoilPattern)

/-- Setting lines in order leaves a line it was not given where it was. -/
theorem level_setFrom_of_not_mem (pins : β) (lines : List (Fin 4)) {j : Fin 4}
    (absent : j ∉ lines) : level (setFrom p pins lines).1 j = level pins j := by
  induction lines generalizing pins with
  | nil => rfl
  | cons i rest ih =>
    simp only [List.mem_cons, not_or] at absent
    cases set : PinBank.set pins i (p.isEnergized i) with
    | none => simp only [setFrom, set]
    | some pins' =>
      simp only [setFrom, set]
      rw [ih pins' absent.2, level_set_of_ne set absent.1]

/-- Setting lines in order to the end leaves each line it was given at the pattern's level. -/
theorem level_setFrom_of_done (pins : β) (lines : List (Fin 4)) {j : Fin 4}
    (done : (setFrom p pins lines).2 = true) (given : j ∈ lines) :
    level (setFrom p pins lines).1 j = p.isEnergized j := by
  induction lines generalizing pins with
  | nil => cases given
  | cons i rest ih =>
    cases set : PinBank.set pins i (p.isEnergized i) with
    | none => simp [setFrom, set] at done
    | some pins' =>
      simp only [setFrom, set] at done ⊢
      by_cases later : j ∈ rest
      · exact ih pins' done later
      -- the line is set here and not again, so it keeps the level set here
      have first : j = i := by simpa [later] using given
      subst first
      rw [level_setFrom_of_not_mem p pins' rest later, level_set_self set]

/-- However far it gets, setting lines in order leaves each line where it was or at the
pattern's level. -/
theorem level_setFrom (pins : β) (lines : List (Fin 4)) (j : Fin 4) :
    level (setFrom p pins lines).1 j = p.isEnergized j ∨
      level (setFrom p pins lines).1 j = level pins j := by
  induction lines generalizing pins with
  | nil => exact .inr rfl
  | cons i rest ih =>
    cases set : PinBank.set pins i (p.isEnergized i) with
    | none => simp [setFrom, set]
    | some pins' =>
      simp only [setFrom, set]
      rcases ih pins' with moved | kept
      · exact .inl moved
      rw [kept]
      by_cases here : j = i
      · subst here
        exact .inl (level_set_self set)
      · exact .inr (level_set_of_ne set here)

/-- Setting all four lines to the end leaves them showing the pattern. -/
theorem shows_setFrom_of_done (pins : β) (done : (setFrom p pins [0, 1, 2, 3]).2 = true) :
    Shows (setFrom p pins [0, 1, 2, 3]).1 p :=
  fun i => level_setFrom_of_done p pins _ done (by revert i; decide)

/-! ## One write -/

variable {p} {c c' : FourPinCoils β} {r : Except MotorError Unit}

omit [PinReadback β] in
/-- Everything a write can do: skip the remembered pattern, set all four lines and remember the
pattern, or fail part way with the memory as it was. -/
theorem write_cases (h : c.write p = (c', r)) :
    (c.current = some p ∧ c' = c ∧ r = .ok ()) ∨
    (c.current ≠ some p ∧ (setFrom p c.pins [0, 1, 2, 3]).2 = true ∧
      c' = ⟨(setFrom p c.pins [0, 1, 2, 3]).1, some p⟩ ∧ r = .ok ()) ∨
    (c.current ≠ some p ∧ (setFrom p c.pins [0, 1, 2, 3]).2 = false ∧
      c' = { c with pins := (setFrom p c.pins [0, 1, 2, 3]).1 } ∧ r = .error .pin) := by
  unfold write at h
  by_cases remembered : c.current = some p
  · rw [if_pos remembered] at h
    cases h
    exact .inl ⟨remembered, rfl, rfl⟩
  rw [if_neg remembered] at h
  rcases set : setFrom p c.pins [0, 1, 2, 3] with ⟨pins, _ | _⟩
  all_goals rw [set] at h; cases h
  · exact .inr (.inr ⟨remembered, rfl, rfl, rfl⟩)
  · exact .inr (.inl ⟨remembered, rfl, rfl, rfl⟩)

/-- New coils remember nothing, so their memory is true. -/
theorem agrees_new (pins : β) : (new pins).Agrees := by
  intro q remembered
  cases remembered

/-- A successful write keeps the memory true. -/
theorem Agrees.write_ok (agrees : c.Agrees) (h : c.write p = (c', .ok ())) : c'.Agrees := by
  rcases write_cases h with ⟨-, rfl, -⟩ | ⟨-, done, rfl, -⟩ | ⟨-, -, -, failed⟩
  · exact agrees
  · intro q remembered
    cases remembered
    exact shows_setFrom_of_done p c.pins done
  · cases failed

/-- A failed write keeps the memory and moves each line at most to the pattern's level. -/
theorem write_error {e : MotorError} (h : c.write p = (c', .error e)) :
    c'.current = c.current ∧
      ∀ j, level c'.pins j = p.isEnergized j ∨ level c'.pins j = level c.pins j := by
  rcases write_cases h with ⟨-, -, skipped⟩ | ⟨-, -, -, written⟩ | ⟨-, -, rfl, -⟩
  · cases skipped
  · cases written
  · exact ⟨rfl, level_setFrom p c.pins _⟩

/-- A failed write keeps a true memory true exactly when it leaves every line where it was, or
nothing is remembered. -/
theorem Agrees.write_error_iff {e : MotorError} (agrees : c.Agrees)
    (h : c.write p = (c', .error e)) :
    c'.Agrees ↔ ∀ q, c.current = some q → ∀ j, level c'.pins j = level c.pins j := by
  obtain ⟨remembered, -⟩ := write_error h
  constructor
  · intro agrees' q current j
    rw [agrees' q (remembered.trans current) j, agrees q current j]
  · intro unmoved q current j
    rw [remembered] at current
    rw [unmoved q current j, agrees q current j]

/-- A write that succeeds leaves the lines showing its pattern exactly when it went to the pins
or the remembered pattern was true. -/
theorem shows_of_write_ok_iff (h : c.write p = (c', .ok ())) :
    Shows c'.pins p ↔ (c.current = some p → Shows c.pins p) := by
  rcases write_cases h with
    ⟨remembered, rfl, -⟩ | ⟨fresh, done, rfl, -⟩ | ⟨-, -, -, failed⟩
  · exact ⟨fun shows _ => shows, fun shows => shows remembered⟩
  · exact ⟨fun _ remembered => absurd remembered fresh,
      fun _ => shows_setFrom_of_done p c.pins done⟩
  · cases failed

/-- What a write does to the pins and to the truth of the memory. A write that succeeds leaves
the lines showing its pattern unless it was skipped on a remembered pattern the lines do not
show; and a true memory stays true exactly when the write succeeds or leaves every line where
it was. -/
theorem write_shows_iff (h : c.write p = (c', r)) :
    (r = .ok () → (Shows c'.pins p ↔ (c.current = some p → Shows c.pins p))) ∧
      (c.Agrees →
        (c'.Agrees ↔ r = .ok () ∨
          ∀ q, c.current = some q → ∀ j, level c'.pins j = level c.pins j)) := by
  refine ⟨fun ok => shows_of_write_ok_iff (ok ▸ h), fun agrees => ?_⟩
  cases r with
  | ok u => exact ⟨fun _ => .inl rfl, fun _ => agrees.write_ok h⟩
  | error e =>
    rw [agrees.write_error_iff h]
    exact ⟨.inr, fun | .inl failed => by cases failed | .inr unmoved => unmoved⟩

/-- Four pins that take five writes, after the all-off pattern was written in full and the
pattern of line 0 failed on line 1, with line 0 already raised. -/
def staleOff : FourPinCoils BudgetPins :=
  (((new (BudgetPins.new (some 5))).write .off).1.write ⟨1⟩).1

/-- Writing all-off to those pins is skipped on the stale memory: it succeeds, and the lines show
all-off exactly as little as they did before. -/
theorem staleOff_write_shows_iff :
    staleOff.write .off = ((staleOff.write .off).1, .ok ()) ∧
      (((.ok () : Except MotorError Unit) = .ok () →
          (Shows (staleOff.write .off).1.pins .off ↔
            (staleOff.current = some .off → Shows staleOff.pins .off))) ∧
        (staleOff.Agrees →
          ((staleOff.write .off).1.Agrees ↔ (.ok () : Except MotorError Unit) = .ok () ∨
            ∀ q, staleOff.current = some q →
              ∀ j, level (staleOff.write .off).1.pins j = level staleOff.pins j))) :=
  have written : staleOff.write .off = ((staleOff.write .off).1, .ok ()) := rfl
  ⟨written, write_shows_iff written⟩

/-- The write of all-off that follows a half-done write is reported as done while line 0 is
still high. -/
theorem staleOff_reported_released :
    (staleOff.write .off).2 = .ok () ∧ ¬ Shows (staleOff.write .off).1.pins .off :=
  ⟨rfl, by decide⟩

end FourPinCoils

/-! ## Releasing the coils -/

namespace Controller

variable {β : Type} [PinBank β] [PinReadback β] {c : Controller (FourPinCoils β)}

open FourPinCoils in
/-- Releasing four-pin coils that reports success leaves every line low exactly when the write
of the all-off pattern went to the pins or the remembered all-off pattern was true. -/
theorem disable_shows_off_iff (h : c.disable.2 = .ok ()) :
    Shows c.disable.1.coils.pins .off ↔
      (c.coils.current = some .off → Shows c.coils.pins .off) :=
  shows_of_write_ok_iff (show c.coils.write .off = (c.disable.1.coils, .ok ()) from Prod.ext rfl h)

end Controller

end StepperDrive
