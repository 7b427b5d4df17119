import Mathlib.Data.List.Induction
import StepperDrive.Emergency.Button
/-!
# Debouncing over whole histories

A debouncer is fed samples of its input and resets. It fires exactly on the active sample that
completes a run of `required` of them, a run being counted back to the last inactive sample or
reset, or to the start (`fires_iff_completes_run`). Its count is the length of that run, cut at
the 16-bit maximum (`count_feedAll_new`); since a requirement is at most 255, the cut never
reaches it and a hold fires once however long it lasts (`count_firings_hold_le_one`).

The button posts a press exactly when its debouncer fires and the one slot of the emergency
queue is free (`poll_posts_iff`), so a hold posts at most one press whatever the other parties
do to the bus between polls, failed readings included (`count_posts_hold_le_one`).
-/

namespace StepperDrive

set_option autoImplicit false

/-- What a debouncer is fed: one sample of its input, or a reset. -/
inductive DebounceInput where
  /-- A sample, active or not. -/
  | sample (active : Bool)
  /-- A reset of the count. -/
  | reset
  deriving DecidableEq, Repr

namespace DebounceInput

/-- Whether the input is an active sample. -/
def isActive : DebounceInput → Bool
  | .sample active => active
  | .reset => false

end DebounceInput

/-- The length of the run of active samples that ends a history (oldest input first): the
active samples since the last inactive sample or reset, or since the start. -/
def heldSamples (hist : List DebounceInput) : Nat :=
  (hist.reverse.takeWhile DebounceInput.isActive).length

@[simp] theorem heldSamples_nil : heldSamples [] = 0 := rfl

theorem heldSamples_append_singleton (hist : List DebounceInput) (i : DebounceInput) :
    heldSamples (hist ++ [i]) = if i.isActive then heldSamples hist + 1 else 0 := by
  unfold heldSamples
  rw [List.reverse_append, List.reverse_singleton, List.singleton_append]
  by_cases active : i.isActive
  · rw [List.takeWhile_cons_of_pos active, if_pos active, List.length_cons]
  · rw [List.takeWhile_cons_of_neg active, if_neg active, List.length_nil]

namespace Debouncer

/-- Feeds one input: the debouncer after it, and whether it fired. A reset never fires. -/
def feed (d : Debouncer) : DebounceInput → Debouncer × Bool
  | .sample active => d.update active
  | .reset => (d.reset, false)

/-- The debouncer after a history of inputs, oldest first. -/
def feedAll (d : Debouncer) (hist : List DebounceInput) : Debouncer :=
  hist.foldl (fun d i => (d.feed i).1) d

/-- Whether each of a sequence of inputs fired, fed in order. -/
def firings (d : Debouncer) : List DebounceInput → List Bool
  | [] => []
  | i :: is => (d.feed i).2 :: (d.feed i).1.firings is

variable {d : Debouncer}

@[simp] theorem feed_required (i : DebounceInput) : (d.feed i).1.required = d.required := by
  cases i with
  | sample active => cases active <;> rfl
  | reset => rfl

/-- One input in terms of the count: an active sample adds one, saturating, and fires when the
count reaches the requirement; anything else clears the count and never fires. -/
theorem feed_eq (i : DebounceInput) :
    d.feed i = if i.isActive then
      (⟨d.required, min (d.count + 1) Word.uint16Max⟩,
        min (d.count + 1) Word.uint16Max == d.required)
    else (⟨d.required, 0⟩, false) := by
  cases i with
  | sample active =>
    cases active
    · rfl
    · simp [feed, update, DebounceInput.isActive]
  | reset => rfl

theorem feedAll_append_singleton (hist : List DebounceInput) (i : DebounceInput) :
    d.feedAll (hist ++ [i]) = ((d.feedAll hist).feed i).1 := by
  simp [feedAll, List.foldl_append]

@[simp] theorem feedAll_required (hist : List DebounceInput) :
    (d.feedAll hist).required = d.required := by
  induction hist using List.reverseRecOn with
  | nil => rfl
  | append_singleton hist i ih => rw [feedAll_append_singleton, feed_required, ih]

/-- The count of a new debouncer after a history is the run of active samples that ends the
history, cut at the 16-bit maximum. -/
theorem count_feedAll_new (r : Nat) (hist : List DebounceInput) :
    ((new r).feedAll hist).count = min (heldSamples hist) Word.uint16Max := by
  induction hist using List.reverseRecOn with
  | nil => rfl
  | append_singleton hist i ih =>
    rw [feedAll_append_singleton, feed_eq, heldSamples_append_singleton]
    by_cases active : i.isActive
    · simp only [active, if_true, ih]
      omega
    · simp [active]

/-- An input fires exactly when it is an active sample that brings the count to the
requirement. -/
theorem feed_fires_iff (i : DebounceInput) :
    (d.feed i).2 = true ↔
      i = .sample true ∧ min (d.count + 1) Word.uint16Max = d.required := by
  rw [feed_eq]
  cases i with
  | sample active => cases active <;> simp [DebounceInput.isActive, beq_iff_eq]
  | reset => simp [DebounceInput.isActive]

/-- Once the count has reached a requirement below the 16-bit maximum, a hold fires no more:
the count only grows, and saturates above the requirement. -/
theorem count_firings_hold_eq_zero (below : d.required < Word.uint16Max)
    (reached : d.required ≤ d.count) (k : Nat) :
    (d.firings (List.replicate k (.sample true))).count true = 0 := by
  induction k generalizing d with
  | zero => rfl
  | succ k ih =>
    have fired : (d.feed (.sample true)).2 = false := by
      rw [Bool.eq_false_iff, ne_eq, feed_fires_iff]
      omega
    have next : (d.feed (.sample true)).1.count = min (d.count + 1) Word.uint16Max := by
      rw [feed_eq]
      rfl
    rw [List.replicate_succ, firings, List.count_cons, fired]
    have rest := ih (d := (d.feed (.sample true)).1) (by simpa using below)
      (by rw [feed_required, next]; omega)
    simp [rest]

/-- A hold fires at most once, from any count, when the requirement is below the 16-bit
maximum. -/
theorem count_firings_hold_le_one (below : d.required < Word.uint16Max) (k : Nat) :
    (d.firings (List.replicate k (.sample true))).count true ≤ 1 := by
  induction k generalizing d with
  | zero => simp [firings]
  | succ k ih =>
    rw [List.replicate_succ, firings, List.count_cons]
    have below' : (d.feed (.sample true)).1.required < Word.uint16Max := by simpa using below
    by_cases fired : (d.feed (.sample true)).2 = true
    · -- the first sample completes the run: the count now equals the requirement
      have reached : (d.feed (.sample true)).1.required ≤ (d.feed (.sample true)).1.count := by
        obtain ⟨-, hit⟩ := feed_fires_iff _ |>.mp fired
        rw [feed_required, feed_eq]
        simp only [DebounceInput.isActive, if_true]
        omega
      simp [fired, count_firings_hold_eq_zero below' reached k]
    · simpa [fired] using ih below'

/-- A hold of five samples fires once, on the third, and a new hold after a release starts
counting again. -/
example : (new 3).firings ([true, true, true, true, true, false, true, true].map .sample) =
    [false, false, true, false, false, false, false, false] := by decide

end Debouncer

/-- A debouncer fed a history from its construction fires on the next input exactly when that
input is an active sample completing a run of `required` (a requirement of zero acting as one),
for every requirement an 8-bit count can give. -/
theorem fires_iff_completes_run {r : Nat} (hr : r < Word.uint16Max)
    (hist : List DebounceInput) (i : DebounceInput) :
    (((Debouncer.new r).feedAll hist).feed i).2 = true ↔
      i = .sample true ∧ heldSamples hist + 1 = max r 1 := by
  rw [Debouncer.feed_fires_iff, Debouncer.count_feedAll_new, Debouncer.feedAll_required]
  show _ ∧ _ = max r 1 ↔ _
  -- the cut at the 16-bit maximum lies above every requirement, so it never decides
  have wide : 1 < Word.uint16Max := by decide
  constructor
  · rintro ⟨rfl, hit⟩
    exact ⟨rfl, by omega⟩
  · rintro ⟨rfl, held⟩
    exact ⟨rfl, by omega⟩

namespace ButtonMonitor

variable {b : ButtonMonitor} {bus : Bus}

/-- A poll whose reading fails changes nothing. -/
@[simp] theorem poll_none : b.poll none bus = (b, bus, .error .pin) := rfl

/-- A reading is fed to the debouncer, and a firing posts a press if the emergency queue takes
it. -/
theorem poll_some (active : Bool) :
    b.poll (some active) bus =
      if (b.debouncer.update active).2 then
        ({ b with debouncer := (b.debouncer.update active).1 },
          (bus.postEmergency .pressed).1, .ok (bus.postEmergency .pressed).2)
      else ({ b with debouncer := (b.debouncer.update active).1 }, bus, .ok false) := by
  rcases h : b.debouncer.update active with ⟨d, fired⟩
  cases fired <;> simp [poll, h]

@[simp] theorem poll_debouncer (active : Bool) :
    (b.poll (some active) bus).1.debouncer = (b.debouncer.update active).1 := by
  rw [poll_some]
  split <;> rfl

theorem postEmergency_taken (e : EmergencyEvent) :
    (bus.postEmergency e).2 = !bus.emergency.isFull := by
  unfold Bus.postEmergency BoundedQueue.trySend
  cases bus.emergency.isFull <;> rfl

/-- The button posts a press exactly when its debouncer fires and the emergency queue has room;
the press then joins the queue, and otherwise the bus is left as it was. -/
theorem poll_posts_iff (active : Bool) :
    ((b.poll (some active) bus).2.2 = .ok true ↔
      (b.debouncer.update active).2 = true ∧ bus.emergency.isFull = false) ∧
    (b.poll (some active) bus).2.1 =
      if (b.debouncer.update active).2 && !bus.emergency.isFull then
        { bus with emergency := { bus.emergency with items := bus.emergency.items ++ [.pressed] } }
      else bus := by
  rw [poll_some]
  by_cases fired : (b.debouncer.update active).2 = true
  · simp only [fired, if_true, Bool.true_and, postEmergency_taken]
    cases full : bus.emergency.isFull
    · simp [Bus.postEmergency, BoundedQueue.trySend, full]
    · simp [Bus.postEmergency, BoundedQueue.trySend, full]
  · simp [fired]

/-- The results of polling the button once per reading, each poll against the bus as the other
parties left it. -/
def pollEach (b : ButtonMonitor) : List (Option Bool × Bus) → List (Except MotorError Bool)
  | [] => []
  | (reading, bus) :: rest => (b.poll reading bus).2.2 :: (b.poll reading bus).1.pollEach rest

/-- The inputs the debouncer sees in a run of polls: the readings that succeeded. -/
def samples (polls : List (Option Bool × Bus)) : List DebounceInput :=
  polls.filterMap fun p => p.1.map .sample

@[simp] theorem samples_nil : samples [] = [] := rfl

@[simp] theorem samples_cons_none (rest : List (Option Bool × Bus)) :
    samples ((none, bus) :: rest) = samples rest := rfl

@[simp] theorem samples_cons_some (active : Bool) (rest : List (Option Bool × Bus)) :
    samples ((some active, bus) :: rest) = .sample active :: samples rest := rfl

/-- A run of polls posts no more presses than its debouncer fires. -/
theorem count_posts_le_firings (polls : List (Option Bool × Bus)) :
    (b.pollEach polls).count (.ok true) ≤ (b.debouncer.firings (samples polls)).count true := by
  induction polls generalizing b with
  | nil => simp [pollEach, Debouncer.firings]
  | cons p rest ih =>
    obtain ⟨reading, bus⟩ := p
    cases reading with
    | none => simpa [pollEach] using ih (b := b)
    | some active =>
      have later := ih (b := (b.poll (some active) bus).1)
      rw [poll_debouncer] at later
      simp only [pollEach, samples_cons_some, Debouncer.firings, Debouncer.feed, List.count_cons]
      by_cases posted : (b.poll (some active) bus).2.2 = .ok true
      · have fired := ((poll_posts_iff active).1.mp posted).1
        simp only [posted, fired, beq_self_eq_true, if_true]
        omega
      · simp only [posted, beq_iff_eq, if_false]
        omega

/-- The readings of a hold are active or failed, so the debouncer sees only active samples. -/
theorem samples_of_hold {polls : List (Option Bool × Bus)}
    (hold : ∀ p ∈ polls, p.1 ≠ some false) :
    samples polls = List.replicate (samples polls).length (.sample true) := by
  induction polls with
  | nil => rfl
  | cons p rest ih =>
    obtain ⟨reading, bus⟩ := p
    have rest_hold := ih fun q mem => hold q (List.mem_cons_of_mem _ mem)
    cases reading with
    | none => simpa using rest_hold
    | some active =>
      have active_eq : active = true := by
        cases active
        · exact absurd rfl (hold _ List.mem_cons_self)
        · rfl
      subst active_eq
      rw [samples_cons_some, List.length_cons, List.replicate_succ, ← rest_hold]

end ButtonMonitor

/-- What debouncing with a requirement of `r` samples promises over every history of samples
and resets: the debouncer fires exactly on the active sample that completes a run of the
requirement, hence at most once per hold, and the button posts a press exactly when it fires
and the emergency slot is free, hence at most one press per hold. -/
structure OncePerHold (r : Nat) : Prop where
  fires_iff : ∀ hist i, (((Debouncer.new r).feedAll hist).feed i).2 = true ↔
    i = .sample true ∧ heldSamples hist + 1 = max r 1
  hold_fires_once : ∀ hist k,
    (((Debouncer.new r).feedAll hist).firings (List.replicate k (.sample true))).count true ≤ 1
  posts_iff : ∀ (b : ButtonMonitor) (bus : Bus) (active : Bool),
    ((b.poll (some active) bus).2.2 = .ok true ↔
      (b.debouncer.update active).2 = true ∧ bus.emergency.isFull = false) ∧
    (b.poll (some active) bus).2.1 =
      if (b.debouncer.update active).2 && !bus.emergency.isFull then
        { bus with emergency := { bus.emergency with items := bus.emergency.items ++ [.pressed] } }
      else bus
  hold_posts_once : ∀ hist period (polls : List (Option Bool × Bus)),
    (∀ p ∈ polls, p.1 ≠ some false) →
    ((ButtonMonitor.mk ((Debouncer.new r).feedAll hist) period).pollEach polls).count (.ok true) ≤ 1

/-- Every requirement an 8-bit count can give is debounced once per hold: the count saturates
at the 16-bit maximum, above any such requirement. -/
theorem debouncing_once_per_hold {r : Nat} (hr : r < Word.uint16Max) : OncePerHold r := by
  have below (hist : List DebounceInput) :
      ((Debouncer.new r).feedAll hist).required < Word.uint16Max := by
    rw [Debouncer.feedAll_required]
    show max r 1 < Word.uint16Max
    have wide : 1 < Word.uint16Max := by decide
    omega
  refine ⟨fires_iff_completes_run hr, fun hist => Debouncer.count_firings_hold_le_one (below hist),
    fun _ _ active => ButtonMonitor.poll_posts_iff active, ?_⟩
  intro hist period polls hold
  calc _ ≤ (((Debouncer.new r).feedAll hist).firings (ButtonMonitor.samples polls)).count true :=
        ButtonMonitor.count_posts_le_firings polls
    _ ≤ 1 := by
        rw [ButtonMonitor.samples_of_hold hold]
        exact Debouncer.count_firings_hold_le_one (below hist) _

theorem debouncing_once_per_hold_three : 3 < Word.uint16Max ∧ OncePerHold 3 :=
  ⟨by decide, debouncing_once_per_hold (by decide)⟩

end StepperDrive
