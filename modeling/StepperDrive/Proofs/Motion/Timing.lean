import StepperDrive.Proofs.Motion.Spec
/-!
# When the next step falls due

A tick and `timeToNextStep` read the same clock in two ways. A tick takes a step once the time
since the last step reaches the next period truncated to whole ms; `timeToNextStep` adds that
period to the time of the last step and reports what is left of it, capped at the 32-bit range.

For a move under way whose position is not yet its goal the two agree: the report is the least
wait after which a tick no longer finds its step pending, capped at the 32-bit range, whenever
the due time fits the 64-bit clock (`timeToNextStep_waits_for_due`); for a move no tick has seen
yet it is the first period, which is the wait the first tick starts. A move whose goal was
pulled in to its position by a stop request is the exception: its next tick completes it at
once, while `timeToNextStep` still reports the period (`stopped_move_reports_wait`).
-/

namespace StepperDrive

set_option autoImplicit false

namespace Binary

variable {f : Format}

/-- Truncating into a smaller range is truncating into the larger one and capping. -/
theorem toNatSat_of_le {b B : Nat} (le : b ≤ B) (x : Binary f) :
    x.toNatSat b = Nat.min (x.toNatSat B) b := by
  cases x with
  | nan => rfl
  | inf s => cases s <;> simp [toNatSat, le]
  | finite s m q =>
    cases s
    · simp only [toNatSat, Bool.false_eq_true, if_false]
      change (Min.min _ b : Nat) = Min.min (Min.min _ B) b
      rw [Nat.min_assoc, Nat.min_eq_right le]
    · simp [toNatSat]

/-- A 32-bit truncation is the 64-bit one capped at the 32-bit range. -/
theorem toUInt32_eq_min (x : Binary f) : x.toUInt32 = Nat.min x.toUInt64 Word.uint32Max :=
  toNatSat_of_le (by decide) x

end Binary

/-- The time the next step of a move falls due on its clock: the time of the last step and the
next period truncated to whole ms. -/
def Motion.dueMs (m : Motion) : Nat := m.lastStepMs + m.nextStepPeriod.toUInt64

namespace Controller

variable {σ : Type} [CoilOutput σ] {c : Controller σ} {now t : Nat}

/-- A tick at `now` finds the step of the move not yet due. -/
def PendingAt (c : Controller σ) (now : Nat) : Prop := ∃ c', c.tick now = .ok (c', .ok .pending)

/-- A tick before the step is due only starts the move's clock. -/
theorem tick_of_early (ramping : c.state = .ramping) (away : c.motion.position ≠ c.motion.goal)
    (early : now - (c.motion.seenAt now).lastStepMs < c.motion.nextStepPeriod.toUInt64) :
    c.tick now = .ok ({ c with motion := c.motion.seenAt now }, .ok .pending) := by
  have early' :
      now - (c.motion.seenAt now).lastStepMs < (c.motion.seenAt now).nextStepPeriod.toUInt64 := by
    rwa [Motion.seenAt_nextStepPeriod]
  unfold tick
  rw [if_neg (fun notRamping => notRamping ramping), if_neg away]
  dsimp only
  rw [if_pos early']
  rfl

/-- A tick that finds the step pending is one of a move under way short of its goal, and only
starts the move's clock. -/
theorem tick_eq_pending {c' : Controller σ} (h : c.tick now = .ok (c', .ok .pending)) :
    c.state = .ramping ∧ c.motion.position ≠ c.motion.goal ∧
      c' = { c with motion := c.motion.seenAt now } := by
  generalize reported : (Except.ok .pending : Except MotorError Tick) = r at h
  cases tick_ticked h with
  | pending ramping away => exact ⟨ramping, away, rfl⟩
  | idle | atGoal | fault | stepped | arrived => cases reported

/-- Under way and short of the goal, a tick finds its step pending exactly while the time since
the last step, on the clock the tick starts, is below the next period. -/
theorem pendingAt_iff (ramping : c.state = .ramping) (away : c.motion.position ≠ c.motion.goal) :
    c.PendingAt now ↔
      now - (c.motion.seenAt now).lastStepMs < c.motion.nextStepPeriod.toUInt64 := by
  constructor
  · rintro ⟨c', tick⟩
    generalize reported : (Except.ok .pending : Except MotorError Tick) = r at tick
    cases tick_ticked tick with
    | pending _ _ early => exact early
    | idle notRamping => exact absurd ramping notRamping
    | atGoal _ atGoal => exact absurd atGoal away
    | fault | stepped | arrived => cases reported
  · intro early
    exact ⟨_, tick_of_early ramping away early⟩

/-- On a move already seen by a tick, and from its last step on, a tick finds its step pending
exactly before the due time. -/
theorem pendingAt_iff_lt_dueMs (ramping : c.state = .ramping)
    (away : c.motion.position ≠ c.motion.goal) (seen : c.motion.isNewMove = false)
    (late : c.motion.lastStepMs ≤ t) : c.PendingAt t ↔ t < c.motion.dueMs := by
  have unchanged : (c.motion.seenAt t).lastStepMs = c.motion.lastStepMs := by
    simp [Motion.seenAt_eq, seen]
  rw [pendingAt_iff ramping away, unchanged, Motion.dueMs]
  omega

omit [CoilOutput σ] in
/-- On a move already seen by a tick, the time to the next step is what is left of the due time,
capped at the 32-bit range; asking traps when the due time is past the 64-bit clock. -/
theorem timeToNextStep_eq_ok_iff (ramping : c.state = .ramping) (seen : c.motion.isNewMove = false)
    {n : Nat} :
    c.timeToNextStep now = .ok n ↔
      c.motion.dueMs ≤ Word.uint64Max ∧ n = Nat.min (c.motion.dueMs - now) Word.uint32Max := by
  unfold timeToNextStep
  rw [if_neg (fun notRamping => notRamping ramping), seen]
  by_cases fits : c.motion.dueMs ≤ Word.uint64Max
  · simp only [Bool.false_eq_true, ↓reduceIte, Motion.dueMs] at fits ⊢
    rw [Word.addUInt64_of_le fits]
    simp [bind, Except.bind, pure, Except.pure, fits, eq_comm]
  · simp only [Bool.false_eq_true, ↓reduceIte, Motion.dueMs] at fits ⊢
    rw [Word.addUInt64_of_lt (Nat.lt_of_not_le fits)]
    simp [bind, Except.bind, fits]

/-- What `timeToNextStep` reports of a move under way whose position is not its goal.

Once a tick has seen the move, and from its last step on, the least wait after which a tick no
longer finds the step pending is what is left of the due time; the report is that wait capped at
the 32-bit range whenever the due time fits the 64-bit clock, and it is positive exactly when a
tick now finds the step pending. For a move no tick has seen yet, the report is the first period
capped at the 32-bit range, and a first tick at any time `t` starts a wait of exactly that
period. -/
theorem timeToNextStep_waits_for_due (ramping : c.state = .ramping)
    (away : c.motion.position ≠ c.motion.goal) :
    (c.motion.isNewMove = false → c.motion.lastStepMs ≤ now →
      IsLeast {k | ¬ c.PendingAt (now + k)} (c.motion.dueMs - now) ∧
        (∀ n, c.timeToNextStep now = .ok n ↔
          c.motion.dueMs ≤ Word.uint64Max ∧
            n = Nat.min (c.motion.dueMs - now) Word.uint32Max) ∧
        ∀ n, c.timeToNextStep now = .ok n → (c.PendingAt now ↔ 0 < n)) ∧
    (c.motion.isNewMove = true →
      c.timeToNextStep now = .ok (Nat.min c.motion.nextStepPeriod.toUInt64 Word.uint32Max) ∧
        ∀ t, IsLeast {k | ¬ PendingAt { c with motion := c.motion.seenAt t } (t + k)}
          c.motion.nextStepPeriod.toUInt64) := by
  -- the least wait of a move already seen, from any time after its last step
  have least : ∀ {c : Controller σ} {t : Nat}, c.state = .ramping →
      c.motion.position ≠ c.motion.goal → c.motion.isNewMove = false →
      c.motion.lastStepMs ≤ t →
      IsLeast {k | ¬ c.PendingAt (t + k)} (c.motion.dueMs - t) := by
    intro c t ramping away seen late
    have pending : ∀ k, c.PendingAt (t + k) ↔ t + k < c.motion.dueMs := fun k =>
      pendingAt_iff_lt_dueMs ramping away seen (Nat.le_add_right_of_le late)
    refine ⟨?_, fun k due => ?_⟩
    · show ¬ c.PendingAt (t + (c.motion.dueMs - t))
      rw [pending]
      omega
    · have := (pending k).not.mp due
      omega
  refine ⟨fun seen late => ⟨least ramping away seen late,
    fun n => timeToNextStep_eq_ok_iff ramping seen, fun n reported => ?_⟩,
    fun fresh => ⟨?_, ?_⟩⟩
  · obtain ⟨-, rfl⟩ := (timeToNextStep_eq_ok_iff ramping seen).mp reported
    rw [pendingAt_iff_lt_dueMs ramping away seen late, Nat.lt_min]
    have positive : 0 < Word.uint32Max := by decide
    omega
  · unfold timeToNextStep
    rw [if_neg (fun notRamping => notRamping ramping), if_pos fresh, Binary.toUInt32_eq_min]
    rfl
  · intro t
    -- the first tick at `t` starts the clock there, so the step falls due one period later
    have started := @least { c with motion := c.motion.seenAt t } t ramping
      (by simpa using away) (by simp) (by simp [Motion.seenAt_lastStepMs_of_isNewMove _ _ fresh])
    simpa [Motion.dueMs, Motion.seenAt_lastStepMs_of_isNewMove _ _ fresh] using started

/-- A move of five steps under way, its last step at 2 ms and its next period 10 ms. -/
def waitingMove : Controller Recorder :=
  { new Recorder.empty with
    motion := { Motion.atRest 0 with goal := 5, nextStepPeriod := 10, lastStepMs := 2 }
    state := .ramping }

/-- Asked at 5 ms, the move reports the 7 ms left before its step falls due at 12 ms. -/
theorem waitingMove_waits_for_due :
    (waitingMove.state = .ramping ∧ waitingMove.motion.position ≠ waitingMove.motion.goal) ∧
    (waitingMove.motion.isNewMove = false → waitingMove.motion.lastStepMs ≤ 5 →
      IsLeast {k | ¬ waitingMove.PendingAt (5 + k)} (waitingMove.motion.dueMs - 5) ∧
        (∀ n, waitingMove.timeToNextStep 5 = .ok n ↔
          waitingMove.motion.dueMs ≤ Word.uint64Max ∧
            n = Nat.min (waitingMove.motion.dueMs - 5) Word.uint32Max) ∧
        ∀ n, waitingMove.timeToNextStep 5 = .ok n → (waitingMove.PendingAt 5 ↔ 0 < n)) ∧
    (waitingMove.motion.isNewMove = true →
      waitingMove.timeToNextStep 5 =
          .ok (Nat.min waitingMove.motion.nextStepPeriod.toUInt64 Word.uint32Max) ∧
        ∀ t, IsLeast
          {k | ¬ PendingAt { waitingMove with motion := waitingMove.motion.seenAt t } (t + k)}
          waitingMove.motion.nextStepPeriod.toUInt64) :=
  ⟨⟨rfl, by decide⟩, timeToNextStep_waits_for_due rfl (by decide)⟩

set_option maxRecDepth 20000 in
/-- A move to 100 seen by a tick at 0 and then stopped before its first step has its goal pulled
in to its position: a tick at 0 completes it at once, while the time to the next step is still
reported as the first period of 49 ms. -/
theorem stopped_move_reports_wait :
    ((new Recorder.empty).applyAll
        [.moveTo 100, .tick 0, .requestStop, .timeToNextStep 0, .tick 0]).map
      (fun steps => steps.map fun (c, r) =>
        (c.state, c.motion.isNewMove, c.motion.lastStepMs, c.motion.position - c.motion.goal, r)) =
      .ok [(.ramping, true, 0, -100, .none), (.ramping, false, 0, -100, .tick (.ok .pending)),
        (.ramping, false, 0, 0, .none), (.ramping, false, 0, 0, .wait 49),
        (.complete, false, 0, 0, .tick (.ok .complete))] := by
  rfl

end Controller

end StepperDrive
