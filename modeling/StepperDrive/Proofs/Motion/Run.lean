import StepperDrive.Proofs.Motion.Steady
import StepperDrive.Proofs.Motion.Timing
/-!
# Running a move to its end

`runFrom` ticks the controller on a clock of its own. After a pending tick it sleeps what
`timeToNextStep` reports, at least 1 ms; after a step it sleeps the hint the step gave, which
may be nothing; once the move completes it releases the coils.

On a coil output that never fails, each step of a move is therefore taken at the first tick at
or after it falls due, and the whole run follows one schedule: `Motion.arrival` is the time of
the last step on it. The run ends with the controller at its goal, complete and at rest, after
one write per step of the patterns the sequencer walks through and one all-off write
(`RunsOut`), exactly when that time fits the 64-bit clock; otherwise the clock overflows on the
way (`runFrom_runsOut`). The fuel of `runToCompletion` always suffices, whatever the coils do
(`runToCompletion_eq_runFrom`): each tick that does not end the run either takes a step toward
the edge of the signed 64-bit range or moves the clock on by at least 1 ms.

A blocking move with positive rates therefore fails only when its plan overflows, which rates
large enough to overflow the square of the cruise speed make happen, or when its schedule runs
past the clock, which rates small enough to saturate the step period make happen. Main
statement: `blocking_moves_reach_targets`.
-/

namespace StepperDrive

set_option autoImplicit false

/-- The coil output after each pattern of a list has been written in turn. -/
def CoilOutput.writeAll {σ : Type} [CoilOutput σ] (s : σ) : List CoilPattern → σ
  | [] => s
  | p :: ps => writeAll (CoilOutput.write s p).1 ps

/-- A coil output whose writes never fail. -/
def CoilOutput.NeverFails (σ : Type) [CoilOutput σ] : Prop :=
  ∀ (s : σ) (p : CoilPattern), (CoilOutput.write s p).2 = .ok ()

/-- A recorder takes every write. -/
theorem Recorder.neverFails : CoilOutput.NeverFails Recorder := fun _ _ => rfl

/-- A table with no invalid pattern has no all-off pattern in its cycles. -/
theorem CoilTable.ne_off_of_mem_sequence {t : CoilTable} {mode : StepMode} {p : CoilPattern}
    (valid : t.firstInvalid? = none) (mem : p ∈ t.sequence mode) : p ≠ .off := by
  have inTable : p ∈ t.patterns := by
    cases mode <;> simp_all [CoilTable.patterns, CoilTable.sequence]
  have isValid := List.find?_eq_none.mp valid p inTable
  rintro rfl
  exact isValid (by decide)

/-- The outputs after writing two lists are the output after writing one after the other. -/
theorem CoilOutput.writeAll_append {σ : Type} [CoilOutput σ] (s : σ) (ps qs : List CoilPattern) :
    CoilOutput.writeAll s (ps ++ qs) = CoilOutput.writeAll (CoilOutput.writeAll s ps) qs := by
  induction ps generalizing s with
  | nil => rfl
  | cons p ps ih => exact ih _

namespace Sequencer

/-- The sequencer after `n` steps in direction `d`, with the patterns of those steps in order. -/
def walk (s : Sequencer) (mode : StepMode) (d : Direction) : Nat → Sequencer × List CoilPattern
  | 0 => (s, [])
  | n + 1 => Prod.map id (List.cons (s.advance mode d).2) ((s.advance mode d).1.walk mode d n)

variable (s : Sequencer) (mode : StepMode) (d : Direction) (n : Nat)

@[simp] theorem walk_zero : s.walk mode d 0 = (s, []) := rfl

theorem walk_succ :
    s.walk mode d (n + 1) =
      (((s.advance mode d).1.walk mode d n).1,
        (s.advance mode d).2 :: ((s.advance mode d).1.walk mode d n).2) := rfl

/-- A walk writes one pattern per step. -/
@[simp] theorem length_walk : (s.walk mode d n).2.length = n := by
  induction n generalizing s with
  | zero => rfl
  | succ n ih => simp [walk_succ, ih]

/-- A walk keeps its table. -/
@[simp] theorem walk_table : (s.walk mode d n).1.table = s.table := by
  induction n generalizing s with
  | zero => rfl
  | succ n ih => exact ih _

/-- A step writes a pattern of the mode's cycle. -/
theorem advance_mem_sequence : (s.advance mode d).2 ∈ s.table.sequence mode := by
  have inCycle : nextPhase mode s.phase d < (s.table.sequence mode).length := by
    rw [CoilTable.length_sequence]
    exact nextPhase_lt mode s.phase d
  show (s.table.sequence mode).getD (nextPhase mode s.phase d) .off ∈ _
  rw [List.getD_eq_getElem _ _ inCycle]
  exact List.getElem_mem inCycle

/-- On a table with no invalid pattern, every step of a walk energises some coil. -/
theorem ne_off_of_mem_walk (valid : s.table.firstInvalid? = none) :
    ∀ p ∈ (s.walk mode d n).2, p ≠ .off := by
  induction n generalizing s with
  | zero => simp
  | succ n ih =>
    intro p mem
    rw [walk_succ, List.mem_cons] at mem
    rcases mem with rfl | later
    · exact CoilTable.ne_off_of_mem_sequence valid (advance_mem_sequence s mode d)
    · exact ih (s.advance mode d).1 valid p later

end Sequencer

namespace Motion

/-- The motion after its step at `τ`: the braking switch made, one step toward the goal, and
the period of the step after. -/
def stepAt (m : Motion) (τ : Nat) : Motion := m.braked.steppedTo (m.position + m.direction.sign) τ

/-- The time of the last of the next `n` steps of a move whose next tick comes at `now`: each
step is taken at the first tick at or after it falls due, and after a step the next tick comes
once the sleep the step hints is over. -/
def arrival (timing : Timing) : Nat → Motion → Nat → Nat
  | 0, _, now => now
  | n + 1, m, now =>
    let m := m.seenAt now
    let τ := Nat.max now m.dueMs
    if n = 0 then τ
    else
      arrival timing n (m.stepAt τ)
        (τ + (Controller.sleepHint timing (m.stepAt τ).nextStepPeriod).getD 0)

variable {m : Motion} {timing : Timing} {n now t : Nat}

/-- A motion a tick has already seen is seen unchanged. -/
theorem seenAt_of_seen (seen : m.isNewMove = false) : m.seenAt now = m := by
  simp [seenAt, seen]

/-- A tick no earlier than the last step of a move sees it with its last step no later than
itself. -/
theorem seenAt_lastStepMs_le (started : m.isNewMove = false → m.lastStepMs ≤ now) :
    (m.seenAt now).lastStepMs ≤ now := by
  cases fresh : m.isNewMove
  · rw [seenAt_of_seen fresh]
    exact started fresh
  · rw [seenAt_lastStepMs_of_isNewMove _ _ fresh]

/-- From the last step of a move on, its step falls due by a tick exactly when the time since
the last step on the tick's clock reaches the period. -/
theorem dueMs_seenAt_le_iff (started : m.isNewMove = false → m.lastStepMs ≤ now) :
    (m.seenAt now).dueMs ≤ now ↔
      m.nextStepPeriod.toUInt64 ≤ now - (m.seenAt now).lastStepMs := by
  have lastLe := seenAt_lastStepMs_le started
  simp only [dueMs, seenAt_nextStepPeriod]
  omega

/-- No step of the schedule comes before its next tick. -/
theorem le_arrival : now ≤ arrival timing n m now := by
  induction n generalizing m now with
  | zero => exact Nat.le_refl now
  | succ n ih =>
    simp only [arrival]
    split
    · exact Nat.le_max_left now _
    · exact Nat.le_trans (Nat.le_trans (Nat.le_max_left now _) (Nat.le_add_right _ _)) ih

/-- No step of the schedule comes before the first one falls due. -/
theorem dueMs_le_arrival : (m.seenAt now).dueMs ≤ arrival timing (n + 1) m now := by
  simp only [arrival]
  split
  · exact Nat.le_max_right now _
  · exact Nat.le_trans (Nat.le_trans (Nat.le_max_right now _) (Nat.le_add_right _ _)) le_arrival

/-- Ticks before the first step falls due leave the schedule as it is. -/
theorem arrival_seenAt (early : now ≤ (m.seenAt now).dueMs) (late : t ≤ (m.seenAt now).dueMs) :
    arrival timing (n + 1) (m.seenAt now) t = arrival timing (n + 1) m now := by
  simp only [arrival, seenAt_of_seen (seenAt_isNewMove m now), Nat.max_eq_right early,
    Nat.max_eq_right late]

/-- A tick once the first step is due takes it, and the schedule goes on from that step. -/
theorem arrival_of_due (due : (m.seenAt now).dueMs ≤ now) :
    arrival timing (n + 2) m now =
      arrival timing (n + 1) ((m.seenAt now).stepAt now)
        (now +
          (Controller.sleepHint timing ((m.seenAt now).stepAt now).nextStepPeriod).getD 0) := by
  conv_lhs => rw [arrival]
  simp only [Nat.max_eq_left due, Nat.add_one_ne_zero, if_false]

/-- A last step is taken at the first tick at or after it falls due. -/
theorem arrival_one_of_due (due : (m.seenAt now).dueMs ≤ now) : arrival timing 1 m now = now := by
  simp [arrival, Nat.max_eq_left due]

end Motion

/-- With positive rates, a plan of some steps moves. -/
theorem Profile.plan_moves {steps : Int} {speed acceleration deceleration : Binary32} {p : Profile}
    (speedOk : Profile.usable speed) (accelerationOk : Profile.usable acceleration)
    (decelerationOk : Profile.usable deceleration) (travel : steps ≠ 0)
    (h : Profile.plan steps speed acceleration deceleration = .ok p) : p.isZero = false := by
  unfold Profile.plan at h
  dsimp only at h
  split at h
  · rename_i still
    simp [speedOk, accelerationOk, decelerationOk] at still
    omega
  · obtain ⟨doubled, -, planned⟩ := bind_eq_ok.mp h
    cases planned
    simpa [Profile.isZero] using travel

namespace Controller

variable {σ δ : Type} [CoilOutput σ] [Delay δ] {c c₁ : Controller σ} {now fuel : Nat}
  {d : δ}

/-! ## One turn of the loop -/

/-- A tick that completes the move ends the run with the coils released. -/
theorem runFrom_succ_of_done {t : Tick} (tick : c.tick now = .ok (c₁, .ok t))
    (done : t = .arrived ∨ t = .complete) :
    runFrom (fuel + 1) c now d = .ok (c₁.disable.1, d, c₁.disable.2) := by
  rcases done with rfl | rfl <;> simp [runFrom, tick, bind, Except.bind, pure, Except.pure]

/-- The sleep after a pending tick, what is left of the due time capped at the 32-bit range
and at least 1 ms, lasts at least 1 ms and ends no later than the due time. -/
theorem pending_sleep_le {due : Nat} (early : now < due) :
    1 ≤ Nat.max (Nat.min (due - now) Word.uint32Max) 1 ∧
      now + Nat.max (Nat.min (due - now) Word.uint32Max) 1 ≤ due := by
  have short : Nat.max (Nat.min (due - now) Word.uint32Max) 1 ≤ due - now :=
    Nat.max_le.mpr ⟨Nat.min_le_left _ _, by omega⟩
  exact ⟨Nat.le_max_right _ _, by omega⟩

/-- After a pending tick the run sleeps until the step falls due, at least 1 ms. -/
theorem runFrom_succ_of_pending {wait : Nat} (tick : c.tick now = .ok (c₁, .ok .pending))
    (reported : c₁.timeToNextStep now = .ok wait)
    (fits : now + Nat.max wait 1 ≤ Word.uint64Max) :
    runFrom (fuel + 1) c now d =
      runFrom fuel c₁ (now + Nat.max wait 1) (Delay.waitMs d (Nat.max wait 1)) := by
  have awake : Nat.max wait 1 ≠ 0 := Nat.ne_zero_of_lt (Nat.le_max_right wait 1)
  simp [runFrom, tick, reported, bind, Except.bind, awake, Word.addUInt64_of_le fits]

/-- A pending tick whose wait cannot be told ends the run with that overflow. -/
theorem runFrom_succ_of_pending_error {o : Overflow} (tick : c.tick now = .ok (c₁, .ok .pending))
    (reported : c₁.timeToNextStep now = .error o) : runFrom (fuel + 1) c now d = .error o := by
  simp [runFrom, tick, reported, bind, Except.bind]

/-- A pending tick whose wait runs past the 64-bit clock ends the run with an overflow. -/
theorem runFrom_succ_of_pending_past {wait : Nat} (tick : c.tick now = .ok (c₁, .ok .pending))
    (reported : c₁.timeToNextStep now = .ok wait)
    (past : Word.uint64Max < now + Nat.max wait 1) : runFrom (fuel + 1) c now d = .error .add := by
  have awake : Nat.max wait 1 ≠ 0 := Nat.ne_zero_of_lt (Nat.le_max_right wait 1)
  simp [runFrom, tick, reported, bind, Except.bind, awake, Word.addUInt64_of_lt past]

/-- After a step the run sleeps the hint the step gave, if any. -/
theorem runFrom_succ_of_stepped {hint : Option Nat}
    (tick : c.tick now = .ok (c₁, .ok (.stepped hint)))
    (fits : now + hint.getD 0 ≤ Word.uint64Max) :
    runFrom (fuel + 1) c now d = runFrom fuel c₁ (now + hint.getD 0)
      (if hint.getD 0 = 0 then d else Delay.waitMs d (hint.getD 0)) := by
  by_cases awake : hint.getD 0 = 0
  · simp [runFrom, tick, bind, Except.bind, awake]
  · simp [runFrom, tick, bind, Except.bind, awake, Word.addUInt64_of_le fits]

/-- A step whose hint runs past the 64-bit clock ends the run with an overflow. -/
theorem runFrom_succ_of_stepped_error {hint : Option Nat}
    (tick : c.tick now = .ok (c₁, .ok (.stepped hint))) (clock : now ≤ Word.uint64Max)
    (past : Word.uint64Max < now + hint.getD 0) : runFrom (fuel + 1) c now d = .error .add := by
  have awake : hint.getD 0 ≠ 0 := by omega
  simp [runFrom, tick, bind, Except.bind, awake, Word.addUInt64_of_lt past]

/-! ## Enough fuel -/

/-- A pending tick leaves the steps the position can take before it leaves the signed 64-bit
range as they were. -/
theorem Ticked.stepsToLimit_of_pending (h : Ticked c now c₁ (.ok .pending)) :
    c₁.motion.stepsToLimit = c.motion.stepsToLimit := by
  generalize reported : (Except.ok .pending : Except MotorError Tick) = r at h
  cases h with
  | pending => simp [Motion.stepsToLimit]
  | idle | atGoal | fault | stepped | arrived => cases reported

/-- A step that goes on with the move spends one of the steps the position can take before it
leaves the signed 64-bit range. -/
theorem Ticked.stepsToLimit_of_stepped {hint : Option Nat}
    (h : Ticked c now c₁ (.ok (.stepped hint))) :
    c₁.motion.stepsToLimit + 1 = c.motion.stepsToLimit := by
  generalize reported : (Except.ok (.stepped hint) : Except MotorError Tick) = r at h
  cases h with
  | stepped _ _ _ _ _ _ inRange =>
    rw [Word.isInt64_iff] at inRange
    simp only [Motion.stepsToLimit, Motion.steppedTo_direction, Motion.braked_direction,
      Motion.seenAt_direction, Motion.steppedTo_position]
    cases hd : c.motion.direction <;>
      simp only [hd, Direction.sign, Word.int64Max, Word.int64Min] at inRange ⊢ <;> omega
  | idle | atGoal | pending | fault | arrived => cases reported

/-- A run with more fuel than the steps the position can take before it leaves the signed
64-bit range and the ms left on the 64-bit clock ends before its fuel does: one unit more
changes nothing.

The induction is on the fuel. Each turn of the loop that goes on either takes a step, which
spends one of the steps to the edge of the range, or sleeps at least 1 ms after a pending tick,
which spends that much of the clock; a sleep past the clock ends the run with an overflow. -/
theorem runFrom_succ_of_enough (clock : now ≤ Word.uint64Max)
    (enough : c.motion.stepsToLimit + (Word.uint64Max - now) < fuel) :
    runFrom (fuel + 1) c now d = runFrom fuel c now d := by
  induction fuel generalizing c now d with
  | zero => omega
  | succ fuel ih =>
    cases result : c.tick now with
    | error o => simp [runFrom, result, bind, Except.bind]
    | ok pair =>
      obtain ⟨c₁, r⟩ := pair
      have ticked := tick_ticked result
      cases r with
      | error e => simp [runFrom, result, bind, Except.bind, pure, Except.pure]
      | ok t =>
        cases t with
        | arrived =>
          rw [runFrom_succ_of_done result (.inl rfl), runFrom_succ_of_done result (.inl rfl)]
        | complete =>
          rw [runFrom_succ_of_done result (.inr rfl), runFrom_succ_of_done result (.inr rfl)]
        | pending =>
          have same := ticked.stepsToLimit_of_pending
          cases reported : c₁.timeToNextStep now with
          | error o =>
            rw [runFrom_succ_of_pending_error result reported,
              runFrom_succ_of_pending_error result reported]
          | ok wait =>
            by_cases fits : now + Nat.max wait 1 ≤ Word.uint64Max
            case neg =>
              rw [runFrom_succ_of_pending_past result reported (Nat.lt_of_not_le fits),
                runFrom_succ_of_pending_past result reported (Nat.lt_of_not_le fits)]
            -- the sleep spends at least 1 ms of the clock
            have awake : 1 ≤ Nat.max wait 1 := Nat.le_max_right wait 1
            rw [runFrom_succ_of_pending result reported fits,
              runFrom_succ_of_pending result reported fits]
            exact ih fits (by omega)
        | stepped hint =>
          have fewer := ticked.stepsToLimit_of_stepped
          by_cases fits : now + hint.getD 0 ≤ Word.uint64Max
          case neg =>
            rw [runFrom_succ_of_stepped_error result clock (Nat.lt_of_not_le fits),
              runFrom_succ_of_stepped_error result clock (Nat.lt_of_not_le fits)]
          rw [runFrom_succ_of_stepped result fits, runFrom_succ_of_stepped result fits]
          exact ih fits (by omega)

/-- The fuel of `runToCompletion` always suffices: the run from time zero gives what a run with
any more fuel gives. -/
theorem runToCompletion_eq_runFrom (enough : c.runFuel ≤ fuel) :
    c.runToCompletion d = runFrom fuel c 0 d := by
  induction fuel, enough using Nat.le_induction with
  | base => rfl
  | succ fuel more ih =>
    have spare : c.motion.stepsToLimit + (Word.uint64Max - 0) < fuel := by
      simp only [runFuel] at more
      omega
    rw [ih, runFrom_succ_of_enough (Nat.zero_le _) spare]

/-! ## The end of a run -/

/-- `c'` is the move of `c` run to its end: at the goal, complete and at rest, the sequencer
walked one step per unit of the distance to go, the coils given each step's pattern in turn and
then the all-off pattern, and nothing else changed. -/
structure RunsOut (c c' : Controller σ) : Prop where
  /-- The position is the goal. -/
  position : c'.motion.position = c.motion.goal
  /-- The move is at rest. -/
  rest : c'.motion.currentStepPeriod = 0
  /-- The sequencer walked the distance to go. -/
  sequencer :
    c'.sequencer = (c.sequencer.walk c.stepMode c.motion.direction c.motion.toGo).1
  /-- Each step's pattern was written, then the all-off pattern. -/
  coils : c'.coils = CoilOutput.writeAll c.coils
    ((c.sequencer.walk c.stepMode c.motion.direction c.motion.toGo).2 ++ [.off])
  /-- The move completed and nothing else changed. -/
  frame : c' = { c with
    coils := c'.coils, sequencer := c'.sequencer, motion := c'.motion, state := .complete }

variable {c' : Controller σ}

/-- A tick that only starts the move's clock leaves the end of the run as it is. -/
theorem RunsOut.of_seenAt (h : RunsOut { c with motion := c.motion.seenAt now } c') :
    RunsOut c c' where
  position := by simpa using h.position
  rest := h.rest
  sequencer := by simpa using h.sequencer
  coils := by simpa using h.coils
  frame := h.frame

/-- A step toward the goal comes first in the end of the run. -/
theorem RunsOut.of_step {m : Motion} {coils : σ}
    (write : CoilOutput.write c.coils (c.sequencer.advance c.stepMode c.motion.direction).2 =
      (coils, .ok ()))
    (toGo : c.motion.toGo = m.toGo + 1) (goal : m.goal = c.motion.goal)
    (direction : m.direction = c.motion.direction)
    (h : RunsOut { c with
      sequencer := (c.sequencer.advance c.stepMode c.motion.direction).1
      coils := coils
      motion := m } c') :
    RunsOut c c' where
  position := h.position.trans goal
  rest := h.rest
  sequencer := by
    rw [h.sequencer, toGo, Sequencer.walk_succ]
    simp [direction]
  coils := by
    rw [h.coils, toGo, Sequencer.walk_succ]
    simp [direction, CoilOutput.writeAll, write]
  frame := h.frame

/-- The first tick at the goal ends the run where it stands. -/
theorem runsOut_of_atGoal (atGoal : c.motion.position = c.motion.goal) :
    RunsOut c ({ c with
      motion := { c.motion with currentStepPeriod := 0 }, state := .complete } :
        Controller σ).disable.1 where
  position := atGoal
  rest := rfl
  sequencer := by simp [Motion.toGo, atGoal, disable]
  coils := by simp [Motion.toGo, atGoal, CoilOutput.writeAll, disable]
  frame := rfl

/-! ## The run -/

/-- Releasing the coils of an output that never fails succeeds. -/
theorem disable_ok (never : CoilOutput.NeverFails σ) (c : Controller σ) : c.disable.2 = .ok () :=
  never c.coils .off

variable {span : Nat}

/-- Running a move under way on a coil output that never fails, with fuel for each step and
each ms left on the clock: the clock overflows on the way exactly when the last step of the
schedule falls past it, and otherwise the run ends the move.

The induction is on the fuel. A pending tick leaves the schedule as it is and moves the clock on
by at least 1 ms, up to the due time; a step leaves one step fewer: either way one unit of fuel
pays for it. -/
theorem runFrom_runsOut (never : CoilOutput.NeverFails σ) (steady : Steady c span)
    (ramping : c.state = .ramping)
    (started : c.motion.isNewMove = false → c.motion.lastStepMs ≤ now)
    (clock : now ≤ Word.uint64Max)
    (enough : c.motion.toGo + (Word.uint64Max - now) + 2 ≤ fuel) :
    (Word.uint64Max < c.motion.arrival c.timing c.motion.toGo now →
      ∃ o, runFrom fuel c now d = .error o) ∧
    (c.motion.arrival c.timing c.motion.toGo now ≤ Word.uint64Max →
      ∃ c' d', runFrom fuel c now d = .ok (c', d', .ok ()) ∧ RunsOut c c') := by
  induction fuel generalizing c now d with
  | zero => omega
  | succ fuel ih =>
    obtain ⟨c₁, r, tick, steady₁⟩ := steady.tick now
    cases tick_ticked tick with
    | idle notRamping => exact absurd ramping notRamping
    | fault _ _ _ write => exact absurd (never c.coils _) (by rw [write]; simp)
    | atGoal _ atGoal =>
      have stays : c.motion.toGo = 0 := by simp [Motion.toGo, atGoal]
      rw [runFrom_succ_of_done tick (.inr rfl), disable_ok never, stays]
      exact ⟨fun past => absurd past (Nat.not_lt.mpr clock),
        fun _ => ⟨_, d, rfl, runsOut_of_atGoal atGoal⟩⟩
    | pending _ away early =>
      -- the tick only starts the clock; the run sleeps toward the due time
      have toGo : c.motion.toGo = c.motion.toGo - 1 + 1 := by
        simp only [Motion.toGo]
        omega
      have dueAfter : now < (c.motion.seenAt now).dueMs :=
        Nat.lt_of_not_le fun due =>
          Nat.not_le.mpr early ((Motion.dueMs_seenAt_le_iff started).mp due)
      by_cases fits : (c.motion.seenAt now).dueMs ≤ Word.uint64Max
      · have reported :
            ({ c with motion := c.motion.seenAt now } : Controller σ).timeToNextStep now =
              .ok (Nat.min ((c.motion.seenAt now).dueMs - now) Word.uint32Max) :=
          (timeToNextStep_eq_ok_iff (c := { c with motion := c.motion.seenAt now }) ramping
            (Motion.seenAt_isNewMove _ _)).mpr ⟨fits, rfl⟩
        obtain ⟨awake, landed⟩ := pending_sleep_le dueAfter
        obtain ⟨d', run⟩ : ∃ d', runFrom (fuel + 1) c now d = runFrom fuel _ _ d' :=
          ⟨_, runFrom_succ_of_pending tick reported (by omega)⟩
        have lastLe := Motion.seenAt_lastStepMs_le started
        have clock' :
            now + Nat.max (Nat.min ((c.motion.seenAt now).dueMs - now) Word.uint32Max) 1 ≤
              Word.uint64Max := by
          omega
        have later := ih (d := d') steady₁ ramping (fun _ => by dsimp only; omega) clock'
          (by simp only [Motion.seenAt_toGo]; omega)
        simp only [Motion.seenAt_toGo] at later
        rw [toGo, Motion.arrival_seenAt (Nat.le_of_lt dueAfter) landed, ← toGo] at later
        rw [run]
        refine ⟨later.1, fun fitsAll => ?_⟩
        obtain ⟨c', d'', ran, out⟩ := later.2 fitsAll
        exact ⟨c', d'', ran, out.of_seenAt⟩
      · -- the due time is past the clock: asking for the wait overflows
        obtain ⟨o, reported⟩ : ∃ o,
            ({ c with motion := c.motion.seenAt now } : Controller σ).timeToNextStep now =
              .error o :=
          timeToNextStep_eq_error.mpr
            ⟨ramping, Motion.seenAt_isNewMove _ _, by simpa [Motion.dueMs] using fits⟩
        rw [runFrom_succ_of_pending_error tick reported]
        refine ⟨fun _ => ⟨o, rfl⟩, fun fitsAll => absurd fitsAll (Nat.not_le.mpr ?_)⟩
        rw [toGo]
        exact Nat.lt_of_lt_of_le (Nat.lt_of_not_le fits) Motion.dueMs_le_arrival
    | stepped _ away due write short =>
      -- the step is taken now; the schedule goes on from it after the hinted sleep
      have dueBefore := (Motion.dueMs_seenAt_le_iff started).mpr due
      have step := Direction.step_ahead (steady.ahead ramping) (by omega)
      have stepDist : ((c.motion.seenAt now).braked.steppedTo
          (c.motion.position + c.motion.direction.sign) now).toGo + 1 =
            c.motion.toGo := by
        simpa [Motion.toGo, Int.sub_sub] using step.2
      obtain ⟨k, toGo⟩ : ∃ k, ((c.motion.seenAt now).braked.steppedTo
          (c.motion.position + c.motion.direction.sign) now).toGo = k + 1 := by
        refine Nat.exists_eq_add_one.mpr ?_
        simp only [Motion.toGo, Motion.steppedTo_goal, Motion.braked_goal,
          Motion.seenAt_goal, Motion.steppedTo_position]
        omega
      have schedule : c.motion.arrival c.timing c.motion.toGo now =
          ((c.motion.seenAt now).braked.steppedTo (c.motion.position + c.motion.direction.sign)
            now).arrival c.timing (k + 1)
            (now + (sleepHint c.timing (c.motion.seenAt now).braked.rampedPeriod).getD 0) := by
        rw [← stepDist, toGo, Motion.arrival_of_due dueBefore]
        simp [Motion.stepAt]
      by_cases fits :
          now + (sleepHint c.timing (c.motion.seenAt now).braked.rampedPeriod).getD 0 ≤
            Word.uint64Max
      · obtain ⟨d', run⟩ : ∃ d', runFrom (fuel + 1) c now d = runFrom fuel _ _ d' :=
          ⟨_, runFrom_succ_of_stepped tick fits⟩
        have later := @ih _
          (now + (sleepHint c.timing (c.motion.seenAt now).braked.rampedPeriod).getD 0) d'
          steady₁ ramping (fun _ => Nat.le_add_right _ _) fits (by dsimp only; omega)
        dsimp only at later
        rw [toGo, ← schedule] at later
        rw [run]
        refine ⟨later.1, fun fitsAll => ?_⟩
        obtain ⟨c', d'', ran, out⟩ := later.2 fitsAll
        exact ⟨c', d'', ran, out.of_step write stepDist.symm (by simp) (by simp)⟩
      · rw [runFrom_succ_of_stepped_error tick clock (Nat.lt_of_not_le fits), schedule]
        exact ⟨fun _ => ⟨_, rfl⟩,
          fun fitsAll => absurd (Nat.lt_of_lt_of_le (Nat.lt_of_not_le fits) Motion.le_arrival)
            (Nat.not_lt.mpr fitsAll)⟩
    | arrived _ away due write reach =>
      -- the last step: the run ends with the coils released
      have dueBefore := (Motion.dueMs_seenAt_le_iff started).mpr due
      have lastStep : c.motion.toGo = 1 := by
        simp only [Motion.toGo, ← reach]
        cases c.motion.direction <;> simp [Direction.sign]
      rw [runFrom_succ_of_done tick (.inl rfl), disable_ok never, lastStep,
        Motion.arrival_one_of_due dueBefore]
      refine ⟨fun past => absurd past (Nat.not_lt.mpr clock), fun _ => ⟨_, d, rfl, ?_⟩⟩
      exact RunsOut.of_step write (by simpa [Motion.toGo] using lastStep) (by simp)
        (by simp) (runsOut_of_atGoal (by simp))

/-! ## Moves run to their end -/

omit [CoilOutput σ] in
/-- The sequencer's walk over a move from the position to `target`: one step per unit of the
travel, in its direction. -/
def walkTo (c : Controller σ) (target : Int) : Sequencer × List CoilPattern :=
  c.sequencer.walk c.stepMode (Direction.ofSteps (target - c.motion.position))
    (target - c.motion.position).natAbs

/-- `c'` is `c` after a move to `target` run to its end: at the target, complete and at rest,
its sequencer walked over the travel, its coils given each pattern of the walk in turn and then
the all-off pattern, and nothing else changed. -/
structure MovedTo (c : Controller σ) (target : Int) (c' : Controller σ) : Prop where
  /-- The position is the target. -/
  position : c'.motion.position = target
  /-- The move is at rest. -/
  rest : c'.motion.currentStepPeriod = 0
  /-- The sequencer walked over the travel. -/
  sequencer : c'.sequencer = (c.walkTo target).1
  /-- Each pattern of the walk was written, then the all-off pattern. -/
  coils : c'.coils = CoilOutput.writeAll c.coils ((c.walkTo target).2 ++ [.off])
  /-- The move completed and nothing else changed. -/
  frame : c' = { c with
    coils := c'.coils, sequencer := c'.sequencer, motion := c'.motion, state := .complete }

theorem MovedTo.state {target : Int} (h : MovedTo c target c') : c'.state = .complete := by
  rw [h.frame]

/-- The end of a planned move's run is the end of the move to its target. -/
theorem RunsOut.movedTo {target : Int} {profile : Profile}
    (plan : Profile.plan (target - c.motion.position) c.speed c.acceleration c.deceleration =
      .ok profile)
    (h : RunsOut { c with
      motion := .planned c.motion.position target profile, state := .ramping } c') :
    MovedTo c target c' where
  position := by simpa using h.position
  rest := h.rest
  sequencer := by
    rw [h.sequencer]
    simp [walkTo, Motion.toGo, Profile.plan_direction plan]
  coils := by
    rw [h.coils]
    simp [walkTo, Motion.toGo, Profile.plan_direction plan]
  frame := h.frame

omit [CoilOutput σ] in
/-- With the travel in range, planning fails exactly when the plan overflows. -/
theorem moveTo_eq_error_iff {target : Int} (travel : Word.IsInt64 (target - c.motion.position)) :
    (∃ o, c.moveTo target = .error o) ↔
      ∃ o, Profile.plan (target - c.motion.position) c.speed c.acceleration c.deceleration =
        .error o := by
  constructor
  · rintro ⟨o, failed⟩
    cases planned : Profile.plan (target - c.motion.position) c.speed c.acceleration
      c.deceleration with
    | error o' => exact ⟨o', rfl⟩
    | ok profile => cases failed.symm.trans (moveTo_eq_ok.mpr ⟨profile, travel, planned, rfl⟩)
  · rintro ⟨o, failed⟩
    cases moved : c.moveTo target with
    | error o' => exact ⟨o', rfl⟩
    | ok c₁ =>
      obtain ⟨profile, -, planned, -⟩ := moveTo_eq_ok.mp moved
      cases failed.symm.trans planned

/-- A move planned with positive rates from a signed 64-bit position to a signed 64-bit target,
run to its end on a coil output that never fails: the run overflows exactly when the last step
of its schedule falls past the 64-bit clock, and otherwise it ends the move at the target. -/
theorem runToCompletion_of_moveTo (never : CoilOutput.NeverFails σ)
    (speed : Profile.usable c.speed) (acceleration : Profile.usable c.acceleration)
    (deceleration : Profile.usable c.deceleration) (position : Word.IsInt64 c.motion.position)
    {target : Int} (inRange : Word.IsInt64 target) (planned : c.moveTo target = .ok c₁) :
    ((∃ o, c₁.runToCompletion d = .error o) ↔
      Word.uint64Max < c₁.motion.arrival c.timing (target - c.motion.position).natAbs 0) ∧
    ∀ c' d' r, c₁.runToCompletion d = .ok (c', d', r) →
      r = .ok () ∧ MovedTo c target c' := by
  have steady := steady_moveTo position inRange planned
  obtain ⟨profile, -, plan, rfl⟩ := moveTo_eq_ok.mp planned
  cases moving : profile.isZero
  · -- a move under way: the run follows its schedule
    simp only [moving, Bool.false_eq_true, if_false] at steady ⊢
    have toGo : (Motion.planned c.motion.position target profile).toGo =
        (target - c.motion.position).natAbs := by
      simp [Motion.toGo]
    have limit := steady.toGo_le_stepsToLimit
    dsimp only at limit
    have run := runFrom_runsOut (d := d) never steady rfl (fun seen => by simp at seen)
      (Nat.zero_le Word.uint64Max)
      (show _ ≤ runFuel { c with
          motion := .planned c.motion.position target profile, state := .ramping } by
        simp only [runFuel]
        omega)
    dsimp only at run
    rw [toGo] at run
    refine ⟨⟨?_, run.1⟩, fun c' d' r ran => ?_⟩
    · rintro ⟨o, failed⟩
      refine Nat.lt_of_not_le fun fits => ?_
      obtain ⟨c', d', ran, -⟩ := run.2 fits
      cases ran.symm.trans failed
    · have fits : _ ≤ Word.uint64Max := Nat.le_of_not_lt fun past => by
        obtain ⟨o, failed⟩ := run.1 past
        cases ran.symm.trans failed
      obtain ⟨c'', d'', ran', out⟩ := run.2 fits
      cases ran.symm.trans ran'
      exact ⟨rfl, out.movedTo plan⟩
  · -- a move of no steps: with positive rates the target is the position
    have still : target = c.motion.position := by
      by_contra moved
      have := Profile.plan_moves speed acceleration deceleration (sub_ne_zero.mpr moved) plan
      rw [moving] at this
      cases this
    subst still
    simp only [if_true]
    have run : runToCompletion { c with motion := .atRest c.motion.position, state := .complete } d
        = .ok ({ c with motion := .atRest c.motion.position, state := .complete }.disable.1, d,
          .ok ()) := by
      rw [runToCompletion, runFuel, runFrom_succ_of_done (tick_of_not_ramping (by simp)) (.inr rfl),
        disable_ok never]
    rw [run]
    refine ⟨⟨?_, fun past => ?_⟩, fun c' d' r ran => ?_⟩
    · rintro ⟨o, failed⟩
      cases failed
    · simp [Motion.arrival] at past
    · cases ran
      exact ⟨rfl,
        { position := rfl
          rest := rfl
          sequencer := by simp [walkTo, disable]
          coils := by simp [walkTo, disable, CoilOutput.writeAll]
          frame := rfl }⟩

/-- A move to a signed 64-bit target with positive rates, planned and run to its end on a coil
output that never fails: it fails exactly when its plan overflows or the last step of its
schedule falls past the 64-bit clock, and otherwise it ends at the target. -/
theorem moveToBlocking_runs_out (never : CoilOutput.NeverFails σ)
    (speed : Profile.usable c.speed) (acceleration : Profile.usable c.acceleration)
    (deceleration : Profile.usable c.deceleration) (position : Word.IsInt64 c.motion.position)
    {target : Int} (inRange : Word.IsInt64 target)
    (travel : Word.IsInt64 (target - c.motion.position)) :
    ((∃ o, c.moveToBlocking target d = .error o) ↔
      (∃ o, Profile.plan (target - c.motion.position) c.speed c.acceleration c.deceleration =
        .error o) ∨
      ∃ c₁, c.moveTo target = .ok c₁ ∧
        Word.uint64Max < c₁.motion.arrival c.timing (target - c.motion.position).natAbs 0) ∧
    ∀ c' d' r, c.moveToBlocking target d = .ok (c', d', r) →
      r = .ok () ∧ MovedTo c target c' := by
  cases planned : c.moveTo target with
  | error o =>
    have blocked : c.moveToBlocking target d = .error o := by
      simp [moveToBlocking, planned, bind, Except.bind]
    rw [blocked]
    exact ⟨⟨fun _ => .inl ((moveTo_eq_error_iff travel).mp ⟨o, planned⟩),
        fun _ => ⟨o, rfl⟩⟩,
      fun c' d' r ran => by cases ran⟩
  | ok c₁ =>
    have blocked : c.moveToBlocking target d = c₁.runToCompletion d := by
      simp [moveToBlocking, planned, bind, Except.bind]
    obtain ⟨fails, ends⟩ :=
      runToCompletion_of_moveTo (d := d) never speed acceleration deceleration position inRange
        planned
    rw [blocked]
    refine ⟨⟨fun failed => .inr ⟨c₁, rfl, fails.mp failed⟩, ?_⟩, ends⟩
    rintro (⟨o, failed⟩ | ⟨c₂, same, past⟩)
    · obtain ⟨profile, -, plan, -⟩ := moveTo_eq_ok.mp planned
      cases failed.symm.trans plan
    · cases same
      exact fails.mpr past

/-- Relative moves, each planned and run to its end in turn on a clock starting at zero; the
first overflow or failed run stops them. -/
def moveByEach (c : Controller σ) (d : δ) :
    List Int → Except Overflow (Controller σ × δ × Except MotorError Unit)
  | [] => .ok (c, d, .ok ())
  | delta :: rest => do
    let c ← c.moveBy delta
    let (c, d, r) ← c.runToCompletion d
    match r with
    | .error e => return (c, d, .error e)
    | .ok () => moveByEach c d rest

/-- Relative moves with positive rates on a coil output that never fails, each run to its end:
they end at the start plus the sum of the offsets, after writing each move's walk and one
all-off pattern per move; on a table with no invalid pattern, exactly the sum of the offsets'
sizes of those writes energise coils. -/
theorem moveByEach_sums (never : CoilOutput.NeverFails σ)
    (speed : Profile.usable c.speed) (acceleration : Profile.usable c.acceleration)
    (deceleration : Profile.usable c.deceleration) (position : Word.IsInt64 c.motion.position)
    (deltas : List Int) {d' : δ} {r : Except MotorError Unit}
    (ran : c.moveByEach d deltas = .ok (c', d', r)) :
    r = .ok () ∧ c'.motion.position = c.motion.position + deltas.sum ∧
      ∃ ps, c'.coils = CoilOutput.writeAll c.coils ps ∧
        ps.length = (deltas.map Int.natAbs).sum + deltas.length ∧
        (c.sequencer.table.firstInvalid? = none →
          (ps.filter (· ≠ .off)).length = (deltas.map Int.natAbs).sum) := by
  induction deltas generalizing c d with
  | nil =>
    cases ran
    exact ⟨rfl, by simp, [], rfl, rfl, fun _ => rfl⟩
  | cons delta rest ih =>
    simp only [moveByEach, bind_eq_ok] at ran
    obtain ⟨c₁, moved, ⟨c₂, d₂, r₂⟩, run, rest'⟩ := ran
    obtain ⟨inRange, planned⟩ := moveBy_eq_ok.mp moved
    obtain ⟨-, ends⟩ := runToCompletion_of_moveTo (d := d) never speed acceleration deceleration
      position inRange planned
    obtain ⟨rfl, step⟩ := ends c₂ d₂ r₂ run
    -- the first move ends at its target with nothing but coils, sequencer, motion and state changed
    have kept : c₂.speed = c.speed ∧ c₂.acceleration = c.acceleration ∧
        c₂.deceleration = c.deceleration ∧ c₂.sequencer.table = c.sequencer.table := by
      rw [step.frame]
      exact ⟨rfl, rfl, rfl, by rw [step.sequencer, walkTo, Sequencer.walk_table]⟩
    obtain ⟨done, sum, ps, coils, count, energised⟩ := ih
      (kept.1 ▸ speed) (kept.2.1 ▸ acceleration) (kept.2.2.1 ▸ deceleration)
      (step.position ▸ inRange) rest'
    have travel : c.motion.position + delta - c.motion.position = delta := by omega
    refine ⟨done, by rw [sum, step.position, List.sum_cons]; omega,
      (c.walkTo (c.motion.position + delta)).2 ++ [.off] ++ ps, ?_, ?_, fun valid => ?_⟩
    · simp only [coils, step.coils, CoilOutput.writeAll_append]
    · simp [count, walkTo, travel]
      omega
    · have walked := Sequencer.ne_off_of_mem_walk c.sequencer c.stepMode
        (Direction.ofSteps delta) delta.natAbs valid
      rw [List.filter_append, List.filter_append,
        List.filter_eq_self.mpr (by simpa [walkTo, travel] using walked),
        List.length_append, List.length_append, energised (kept.2.2.2 ▸ valid)]
      simp [walkTo, travel]

/-- Blocking moves with positive rates, from a signed 64-bit position, on a coil output that
never fails. A move to a signed 64-bit target within the signed 64-bit travel fails exactly when
its plan overflows or its last step falls past the 64-bit clock. Otherwise it ends at the target,
complete and at rest with zero speed, having written one pattern per step, each the sequencer's
next in the move's direction and energising coils on a table with no invalid pattern, and then
the all-off pattern. Relative moves run one after another end at the start plus the sum of the
offsets, after as many energising writes as the sum of the offsets' sizes. -/
theorem blocking_moves_reach_targets (never : CoilOutput.NeverFails σ)
    (speed : Profile.usable c.speed) (acceleration : Profile.usable c.acceleration)
    (deceleration : Profile.usable c.deceleration) (position : Word.IsInt64 c.motion.position) :
    (∀ target, Word.IsInt64 target → Word.IsInt64 (target - c.motion.position) →
      ((∃ o, c.moveToBlocking target d = .error o) ↔
        (∃ o, Profile.plan (target - c.motion.position) c.speed c.acceleration c.deceleration =
          .error o) ∨
        ∃ c₁, c.moveTo target = .ok c₁ ∧
          Word.uint64Max < c₁.motion.arrival c.timing (target - c.motion.position).natAbs 0) ∧
      ∀ c' d' r, c.moveToBlocking target d = .ok (c', d', r) →
        r = .ok () ∧ c'.motion.position = target ∧ c'.state = .complete ∧
        c'.currentSpeed = 0 ∧ c'.sequencer = (c.walkTo target).1 ∧
        c'.coils = CoilOutput.writeAll c.coils ((c.walkTo target).2 ++ [.off]) ∧
        (c.walkTo target).2.length = (target - c.motion.position).natAbs ∧
        (c.sequencer.table.firstInvalid? = none → ∀ p ∈ (c.walkTo target).2, p ≠ .off)) ∧
    ∀ deltas c' d' r, c.moveByEach d deltas = .ok (c', d', r) →
      r = .ok () ∧ c'.motion.position = c.motion.position + deltas.sum ∧
      ∃ ps, c'.coils = CoilOutput.writeAll c.coils ps ∧
        ps.length = (deltas.map Int.natAbs).sum + deltas.length ∧
        (c.sequencer.table.firstInvalid? = none →
          (ps.filter (· ≠ .off)).length = (deltas.map Int.natAbs).sum) := by
  refine ⟨fun target inRange travel => ?_, fun deltas c' d' r ran =>
    moveByEach_sums never speed acceleration deceleration position deltas ran⟩
  obtain ⟨fails, ends⟩ := moveToBlocking_runs_out (d := d) never speed acceleration deceleration
    position inRange travel
  refine ⟨fails, fun c' d' r ran => ?_⟩
  obtain ⟨ok, moved⟩ := ends c' d' r ran
  exact ⟨ok, moved.position, moved.state, currentSpeed_of_currentStepPeriod moved.rest,
    moved.sequencer, moved.coils, by simp [walkTo], Sequencer.ne_off_of_mem_walk _ _ _ _⟩

/-- A standard controller on a recorder creeping at `1e-20` steps/s: its first period saturates
the 64-bit clock. -/
def creepingController : Controller Recorder :=
  { new Recorder.empty with speed := 1 / 100000000000000000000 }

set_option maxRecDepth 20000 in
/-- The creeping controller meets every assumption; its first step of a move by two falls due
at the end of the 64-bit clock and its second past it, so the move overflows. -/
theorem creepingController_reaches_targets :
    (CoilOutput.NeverFails Recorder ∧ Profile.usable creepingController.speed ∧
      Profile.usable creepingController.acceleration ∧
      Profile.usable creepingController.deceleration ∧
      Word.IsInt64 creepingController.motion.position) ∧
    ((∀ target, Word.IsInt64 target →
      Word.IsInt64 (target - creepingController.motion.position) →
      ((∃ o, creepingController.moveToBlocking target DelayTally.zero = .error o) ↔
        (∃ o, Profile.plan (target - creepingController.motion.position) creepingController.speed
          creepingController.acceleration creepingController.deceleration = .error o) ∨
        ∃ c₁, creepingController.moveTo target = .ok c₁ ∧
          Word.uint64Max < c₁.motion.arrival creepingController.timing
            (target - creepingController.motion.position).natAbs 0) ∧
      ∀ c' d' r, creepingController.moveToBlocking target DelayTally.zero = .ok (c', d', r) →
        r = .ok () ∧ c'.motion.position = target ∧ c'.state = .complete ∧
        c'.currentSpeed = 0 ∧ c'.sequencer = (creepingController.walkTo target).1 ∧
        c'.coils = CoilOutput.writeAll creepingController.coils
          ((creepingController.walkTo target).2 ++ [.off]) ∧
        (creepingController.walkTo target).2.length =
          (target - creepingController.motion.position).natAbs ∧
        (creepingController.sequencer.table.firstInvalid? = none →
          ∀ p ∈ (creepingController.walkTo target).2, p ≠ .off)) ∧
    ∀ deltas c' d' r, creepingController.moveByEach DelayTally.zero deltas = .ok (c', d', r) →
      r = .ok () ∧ c'.motion.position = creepingController.motion.position + deltas.sum ∧
      ∃ ps, c'.coils = CoilOutput.writeAll creepingController.coils ps ∧
        ps.length = (deltas.map Int.natAbs).sum + deltas.length ∧
        (creepingController.sequencer.table.firstInvalid? = none →
          (ps.filter (· ≠ .off)).length = (deltas.map Int.natAbs).sum)) ∧
    ∃ o, creepingController.moveToBlocking 2 DelayTally.zero = .error o := by
  have assumptions : CoilOutput.NeverFails Recorder ∧ Profile.usable creepingController.speed ∧
      Profile.usable creepingController.acceleration ∧
      Profile.usable creepingController.deceleration ∧
      Word.IsInt64 creepingController.motion.position :=
    ⟨Recorder.neverFails, by decide, by decide, by decide, by decide⟩
  have moves := blocking_moves_reach_targets (d := DelayTally.zero) assumptions.1 assumptions.2.1
    assumptions.2.2.1 assumptions.2.2.2.1 assumptions.2.2.2.2
  refine ⟨assumptions, moves, (moves.1 2 (by decide) (by decide)).1.mpr (.inr ⟨_, rfl, ?_⟩)⟩
  decide

/-- A standard controller on a recorder with speed, acceleration and deceleration of `1e20`:
the square of its cruise speed overflows single precision. -/
def rushingController : Controller Recorder :=
  { new Recorder.empty with
    speed := 100000000000000000000
    acceleration := 100000000000000000000
    deceleration := 100000000000000000000 }

/-- With positive rates, a move of the rushing controller by 100 steps fails before its first
step: the stop margin saturates the 64-bit range and doubling it overflows. -/
theorem rushing_move_overflows :
    Profile.usable rushingController.speed ∧ Profile.usable rushingController.acceleration ∧
      Profile.usable rushingController.deceleration ∧
      rushingController.moveToBlocking 100 DelayTally.zero = .error .multiply :=
  ⟨by decide, by decide, by decide, rfl⟩

end Controller

end StepperDrive
