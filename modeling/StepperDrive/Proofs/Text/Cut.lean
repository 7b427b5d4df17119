import Mathlib.Data.String.Basic
import StepperDrive.Config.Read
import StepperDrive.Command.Intake
/-!
# Cutting texts to a byte budget

Names and messages kept in fixed-size buffers are cut by `Text.takeBytes`: characters are
copied one at a time while the next one still fits in the bytes left, and copying stops for
good at the first one that does not. Every character takes at least one byte, so a longer
prefix never takes fewer bytes, and stopping at the first misfit leaves the longest prefix
that fits (`takeBytes_longestFit`). A prefix of the character list ends between two
characters, so a cut never splits the encoding of one.

Unknown field names in intake errors are cut to `nameBudget` (32) bytes, and the details of
configuration errors, read failures and parse failures alike, to `detailBudget` (128) bytes
(`error_texts_longest_fit`).
-/

namespace StepperDrive

set_option autoImplicit false

namespace Text

/-- `t` is the longest prefix of `s`, cut between two characters, whose UTF-8 encoding has at
most `budget` bytes. -/
structure LongestFit (s : String) (budget : Nat) (t : String) : Prop where
  /-- The characters of `t` begin those of `s`. -/
  starts : t.toList <+: s.toList
  /-- `t` fits the budget. -/
  fits : t.utf8ByteSize ≤ budget
  /-- Every prefix of `s` that fits is a prefix of `t`. -/
  maximal : ∀ p : List Char, p <+: s.toList → String.utf8Len p ≤ budget → p <+: t.toList

variable {cs p : List Char} {budget : Nat}

theorem takeBytesList_prefix (cs : List Char) (budget : Nat) :
    takeBytesList cs budget <+: cs := by
  induction cs generalizing budget with
  | nil => exact List.nil_prefix
  | cons c cs ih =>
    rw [takeBytesList.eq_2]
    split
    · exact List.cons_prefix_cons.mpr ⟨rfl, ih _⟩
    · exact List.nil_prefix

theorem utf8Len_takeBytesList_le (cs : List Char) (budget : Nat) :
    String.utf8Len (takeBytesList cs budget) ≤ budget := by
  induction cs generalizing budget with
  | nil => simp [takeBytesList]
  | cons c cs ih =>
    rw [takeBytesList.eq_2]
    split
    · have rest := ih (budget - c.utf8Size)
      rw [String.utf8Len_cons]
      omega
    · simp

/-- A prefix that fits is kept whole: the first character that does not fit lies past it. -/
theorem prefix_takeBytesList (hp : p <+: cs) (hfit : String.utf8Len p ≤ budget) :
    p <+: takeBytesList cs budget := by
  induction cs generalizing p budget with
  | nil =>
    rw [List.prefix_nil.mp hp]
    exact List.nil_prefix
  | cons c cs ih =>
    rcases List.prefix_cons_iff.mp hp with rfl | ⟨t, rfl, ht⟩
    · exact List.nil_prefix
    · rw [String.utf8Len_cons] at hfit
      have fitsHead : c.utf8Size ≤ budget := by omega
      rw [takeBytesList.eq_2, if_pos fitsHead]
      exact List.cons_prefix_cons.mpr ⟨rfl, ih ht (by omega)⟩

theorem takeBytes_longestFit (s : String) (budget : Nat) :
    LongestFit s budget (takeBytes s budget) where
  starts := by
    rw [takeBytes, String.toList_ofList]
    exact takeBytesList_prefix _ _
  fits := by
    rw [takeBytes, String.utf8ByteSize_ofList]
    exact utf8Len_takeBytesList_le _ _
  maximal _ hp hfit := by
    rw [takeBytes, String.toList_ofList]
    exact prefix_takeBytesList hp hfit

end Text

example : Text.takeBytes "ééé" 5 = "éé" := by decide

theorem error_texts_longest_fit :
    (∀ key, ∃ name, IntakeError.ofUnknownKey key = .unrecognizedField name ∧
      Text.LongestFit key 32 name) ∧
    (∀ detail, ∃ cut, ConfigError.ofIo detail = .io cut ∧ Text.LongestFit detail 128 cut) ∧
    (∀ (reader : ConfigReader) text e, reader.decode text = .error e →
      ∃ cut, SystemConfig.parse reader text = .error (.parse cut) ∧ Text.LongestFit e 128 cut) := by
  refine ⟨fun key => ⟨_, rfl, Text.takeBytes_longestFit key 32⟩,
    fun detail => ⟨_, rfl, Text.takeBytes_longestFit detail 128⟩, ?_⟩
  intro reader text e unread
  refine ⟨_, ?_, Text.takeBytes_longestFit e 128⟩
  rw [SystemConfig.parse, unread]
  rfl

/-- An unclosed table header fails to read, and the failure keeps the reader's whole message. -/
theorem unclosed_header_longest_fit :
    ∃ cut, SystemConfig.parse .toml "[envelope\nmax_position = " = .error (.parse cut) ∧
      Text.LongestFit "expected ]" 128 cut :=
  error_texts_longest_fit.2.2 .toml "[envelope\nmax_position = " "expected ]" rfl

end StepperDrive
