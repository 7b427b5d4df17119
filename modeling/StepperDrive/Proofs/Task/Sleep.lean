import StepperDrive.Proofs.Station.Progress
import StepperDrive.Proofs.Motion.Timing
import StepperDrive.Proofs.Motion.Ramp
import StepperDrive.Proofs.Motion.Steady
import StepperDrive.Proofs.Binary.Error
/-!
# Sleeping until the next step

A tick that steps hints how long its caller may sleep: the next period rounded half away from
zero, less the lookahead. The step itself falls due when the time since the last step reaches the
next period truncated to whole ms, and that is what `timeToNextStep` reports. The rounded
period is at most one above the truncated one (`Binary.toUInt32_roundHalfAway_le`), so the hint
is at most a ms late, and never late with a lookahead of at least a ms; with no lookahead, a
period whose fraction is at least a half makes it one ms late (`eager_hint_oversleeps`).

The bound needs the period to be a value of the format. Every period a ramp computes is one,
except that the ramp is floored at the cruise period, which is the quotient `1000 / v` the plan
computed: `Controller.CruiseFits` says so of a move under way, every operation keeps it
(`CruiseFits.apply`), and so does every poll of the motor task (`Polled.cruiseFits`).

A poll of the motor task that leaves it moving asks either for the hint of the step it took or,
when the step was not yet due, for the reported time less the task's lookahead but at least a
ms; both end by the next step's due time, the hint up to a ms after it
(`MotorTask.Polled.wakesByDue`). Main statement: `sleeps_end_by_due`.
-/

namespace StepperDrive

set_option autoImplicit false

namespace Binary

variable {f : Format}

/-- A `-`-signed number truncates to zero. -/
theorem toNatSat_of_nonpos {x : Binary f} (h : x.nonpos = true) (bound : Nat) :
    x.toNatSat bound = 0 := by
  cases x with
  | nan => rfl
  | inf s => cases s <;> simp_all [nonpos, toNatSat]
  | finite s m q => cases s <;> simp_all [nonpos, toNatSat]

/-- Rounding half away from zero lands at most one above the truncation: `⌊v + 1/2⌋ ≤ ⌊v⌋ + 1`. -/
theorem div_roundHalfAway_le (m U : Nat) (unit : 0 < U) : (2 * m + U) / (2 * U) ≤ m / U + 1 := by
  have remainder := Nat.lt_div_mul_add (a := m) unit
  apply Nat.le_of_lt_succ
  rw [Nat.div_lt_iff_lt_mul (by omega)]
  have expand : (m / U + 1 + 1) * (2 * U) = 2 * (m / U * U) + 4 * U := by ring
  rw [expand]
  generalize m / U * U = whole at remainder
  omega

/-- A 32-bit truncation is at most the 64-bit one. -/
theorem toUInt32_le_toUInt64 (x : Binary f) : x.toUInt32 ≤ x.toUInt64 := by
  rw [toUInt32_eq_min]
  exact Nat.min_le_left _ _

/-- A value the format holds, rounded half away from zero to a whole number and then truncated
to a 32-bit count, is at most one above its own truncation. -/
theorem toUInt32_roundHalfAway_le {x : Binary32} (fits : x.Fits) :
    (roundHalfAway x).toUInt32 ≤ x.toUInt32 + 1 := by
  cases x with
  | nan => simp [roundHalfAway]
  | inf s => simp [roundHalfAway]
  | finite s m q =>
    cases s
    case true =>
      simp only [roundHalfAway]
      split_ifs
      · exact Nat.le_succ _
      · rw [toUInt32, toNatSat_of_nonpos (Format.round_nonpos _ _ _)]
        exact Nat.zero_le _
    simp only [roundHalfAway]
    split_ifs with hq
    · exact Nat.le_succ _
    set U := Nat.pow 2 (-q).toNat with hU
    have unit : 2 ≤ U := by
      rw [hU, Nat.pow_eq]
      exact Nat.le_self_pow (by omega) 2
    -- the truncation is `⌊m / U⌋`, below `2 ^ 23` since the significand is below `2 ^ 24`
    have small : m < 2 ^ 24 := fits.1
    have half : m / U < 2 ^ 23 := by
      rw [Nat.div_lt_iff_lt_mul (by omega)]
      omega
    have truncated : (finite false m q : Binary32).toUInt32 = m / U := by
      simp only [toUInt32, toNatSat, Bool.false_eq_true, if_false, truncMagnitude, if_neg hq]
      exact Nat.min_eq_left (by rw [← hU]; omega)
    rw [truncated]
    have chosen := div_roundHalfAway_le m U (by omega)
    rcases Nat.eq_zero_or_pos ((2 * m + U) / (2 * U)) with zero | positive
    · rw [zero, Format.round_zero]
      simp [toUInt32, toNatSat, truncMagnitude]
    -- the whole number chosen is a value of the format, so rounding keeps it
    have fitsNext : (finite false (m / U + 1) 0 : Binary32).Fits := by
      refine ⟨?_, by decide, by decide⟩
      show m / U + 1 < 2 ^ 24
      omega
    have value : (((2 * m + U) / (2 * U) : Nat) : ℚ) / (1 : Nat) * 2 ^ (0 : Int) ≤
        (finite false (m / U + 1) 0 : Binary32).value := by
      simp only [Nat.cast_one, div_one, zpow_zero, mul_one, value_finite, Bool.false_eq_true,
        if_false]
      exact_mod_cast chosen
    have bounded := Format.round_le_of_le (f := Format.binary32) (by decide) positive.ne'
      one_ne_zero fitsNext value
    have wide := toUInt64_le_of_le (Format.round_nonneg _ _ _) bounded (B := m / U + 1) (by simp)
    exact (toUInt32_le_toUInt64 _).trans wide

end Binary

namespace Controller

variable {σ : Type}

/-- A sleep hint of a period the format holds is at most the period truncated to a 32-bit
count, plus one, less the lookahead. -/
theorem sleepHint_le {timing : Timing} {p : Binary32} (fits : p.Fits) {ms : Nat}
    (h : sleepHint timing p = some ms) : ms ≤ p.toUInt32 + 1 - timing.lookaheadMs := by
  unfold sleepHint at h
  dsimp only at h
  split_ifs at h
  cases h
  have rounded := Binary.toUInt32_roundHalfAway_le fits
  omega

/-! ## Cruise periods under way -/

/-- Under way, the cruise period is a value the format holds: the quotient the plan computed. -/
def CruiseFits (c : Controller σ) : Prop := c.state = .ramping → c.motion.cruiseStepPeriod.Fits

variable {c c' : Controller σ}

theorem cruiseFits_of_not_ramping (h : c.state ≠ .ramping) : c.CruiseFits :=
  fun ramping => absurd ramping h

/-- A move planned from any kinematics cruises at a period the format holds. -/
theorem cruiseFits_moveTo {target : Int} (h : c.moveTo target = .ok c') : c'.CruiseFits := by
  intro ramping
  obtain ⟨profile, -, planned, rfl⟩ := moveTo_eq_ok.mp h
  cases moving : profile.isZero
  case true => simp [moving] at ramping
  obtain ⟨cruise, -, -, period, -⟩ := Profile.plan_of_moving planned moving
  simp only [Bool.false_eq_true, if_false]
  show profile.cruiseStepPeriod.Fits
  rw [period, Profile.periodOf]
  exact Binary.div_fits Format.binary32_precision_pos Format.binary32_emax_pos _ _

theorem CruiseFits.requestStop (h : c.CruiseFits) (stopped : c.requestStop = .ok c') :
    c'.CruiseFits := by
  by_cases ramping : c.state = .ramping
  · obtain ⟨-, -, -, rfl⟩ := (requestStop_eq_ok ramping).mp stopped
    exact h
  · rw [requestStop_of_not_ramping ramping] at stopped
    cases stopped
    exact h

variable [CoilOutput σ]

/-- A tick keeps the cruise period of the move. -/
theorem CruiseFits.ticked {now : Nat} {r : Except MotorError Tick} (h : c.CruiseFits)
    (ticked : Ticked c now c' r) : c'.CruiseFits := by
  cases ticked with
  | idle => exact h
  | atGoal | arrived => exact cruiseFits_of_not_ramping (by simp)
  | pending ramping | fault ramping | stepped ramping =>
    exact fun _ => by simpa [Motion.steppedTo] using h ramping

/-- Every operation keeps the cruise period of a move under way a value of the format. -/
theorem CruiseFits.apply {op : ControllerOp} {r : ControllerReply} (h : c.CruiseFits)
    (applied : c.apply op = .ok (c', r)) : c'.CruiseFits := by
  have release : ∀ {c : Controller σ}, c.CruiseFits → c.disable.1.CruiseFits := fun h => h
  cases op with
  | setSpeed | setAcceleration | setDeceleration | setStepMode | disable =>
    cases applied
    exact h
  | setPosition | abort =>
    cases applied
    exact cruiseFits_of_not_ramping (by simp [setPosition, abort])
  | requestStop =>
    obtain ⟨stopped, stop, rest⟩ := bind_eq_ok.mp applied
    cases rest
    exact h.requestStop stop
  | moveTo target =>
    obtain ⟨moved, planned, rest⟩ := bind_eq_ok.mp applied
    cases rest
    exact cruiseFits_moveTo planned
  | moveBy delta =>
    obtain ⟨moved, planned, rest⟩ := bind_eq_ok.mp applied
    cases rest
    exact cruiseFits_moveTo (moveBy_eq_ok.mp planned).2
  | tick now =>
    obtain ⟨⟨ticked, _⟩, tick, rest⟩ := bind_eq_ok.mp applied
    cases rest
    exact h.ticked (tick_ticked tick)
  | ticks start stop untilPosition =>
    obtain ⟨⟨ticked, _⟩, run, rest⟩ := bind_eq_ok.mp applied
    cases rest
    obtain ⟨⟨ticked', _⟩, span, rest⟩ := bind_eq_ok.mp run
    cases rest
    exact tickSpanFrom_keeps (fun ticked h => h.ticked ticked) h span
  | timeToNextStep now =>
    obtain ⟨wait, -, rest⟩ := bind_eq_ok.mp applied
    cases rest
    exact h
  | runToCompletion =>
    obtain ⟨⟨ran, _⟩, run, rest⟩ := bind_eq_ok.mp applied
    cases rest
    exact runFrom_keeps (fun ticked h => h.ticked ticked) release h run
  | moveToBlocking target =>
    obtain ⟨⟨ran, _⟩, blocking, rest⟩ := bind_eq_ok.mp applied
    cases rest
    obtain ⟨moved, planned, run⟩ := bind_eq_ok.mp blocking
    exact runFrom_keeps (fun ticked h => h.ticked ticked) release (cruiseFits_moveTo planned) run

/-- Every controller a session reaches cruises, under way, at a period the format holds. -/
theorem Reachable.cruiseFits {span : Nat} (h : Reachable c span) : c.CruiseFits := by
  induction h with
  | built => exact cruiseFits_of_not_ramping (by simp [withParts])
  | step _ _ applied ih => exact ih.apply applied

/-! ## Waking before the next step -/

/-- Waking `sleep` ms after `now` comes at most one ms after the next step of `c` falls due, and
not after it when `c` wakes sleepers at least one ms early. -/
def WakesByDue (c : Controller σ) (now sleep : Nat) : Prop :=
  now + sleep ≤ c.motion.dueMs + 1 ∧ (1 ≤ c.timing.lookaheadMs → now + sleep ≤ c.motion.dueMs)

omit [CoilOutput σ] in
theorem wakesByDue_of_le {now sleep : Nat} (h : now + sleep ≤ c.motion.dueMs) :
    c.WakesByDue now sleep :=
  ⟨by omega, fun _ => h⟩

variable {now : Nat}

/-- A tick that finds its step not yet due leaves a move whose report of the time to its step is
positive and ends by the due time. -/
theorem Ticked.wait_le_due {wait : Nat} (ticked : Ticked c now c' (.ok .pending))
    (waited : c'.timeToNextStep now = .ok wait) : 1 ≤ wait ∧ now + wait ≤ c'.motion.dueMs := by
  generalize reported : (Except.ok .pending : Except MotorError Tick) = r at ticked
  cases ticked with
  | pending ramping away early =>
    obtain ⟨-, rfl⟩ := (timeToNextStep_eq_ok_iff (c := { c with motion := c.motion.seenAt now })
      ramping (Motion.seenAt_isNewMove _ _)).mp waited
    simp only [Motion.dueMs, Motion.seenAt_nextStepPeriod] at early ⊢
    have positive : 0 < Word.uint32Max := by decide
    simp only [show ∀ a b : Nat, Nat.min a b = min a b from fun _ _ => rfl]
    omega
  | idle | atGoal | fault | stepped | arrived => cases reported

/-- After a tick that steps, the next step falls due one truncated period after it, and the
hint is at most that period capped to 32 bits, plus one, less the lookahead. -/
theorem Ticked.hint_le {hint : Option Nat} (fits : c.CruiseFits)
    (ticked : Ticked c now c' (.ok (.stepped hint))) :
    c'.state = .ramping ∧ c'.motion.isNewMove = false ∧ c'.timing = c.timing ∧
      c'.motion.dueMs = now + c'.motion.nextStepPeriod.toUInt64 ∧
      ∀ ms, hint = some ms → ms ≤ c'.motion.nextStepPeriod.toUInt32 + 1 - c.timing.lookaheadMs := by
  generalize reported : (Except.ok (.stepped hint) : Except MotorError Tick) = r at ticked
  cases ticked with
  | stepped ramping away =>
    cases reported
    refine ⟨ramping, by simp [Motion.steppedTo, Motion.braked_eq], rfl, ?_, fun ms hinted => ?_⟩
    · simp [Motion.dueMs, Motion.steppedTo]
    · have cruise : ((c.motion.seenAt now).braked).cruiseStepPeriod.Fits := by
        simpa using fits ramping
      exact sleepHint_le (Motion.rampedPeriod_fits cruise) hinted
  | idle | atGoal | pending | fault | arrived => cases reported

/-- On every controller a session reaches, the hint of a tick that steps is at most one ms
above the time then reported to the next step, and not above it with a lookahead. -/
theorem Reachable.hint_le_wait {span ms wait : Nat} (reach : Reachable c span)
    (ticked : c.tick now = .ok (c', .ok (.stepped (some ms))))
    (waited : c'.timeToNextStep now = .ok wait) :
    ms ≤ wait + 1 ∧ (1 ≤ c.timing.lookaheadMs → ms ≤ wait) := by
  obtain ⟨ramping, seen, -, due, hinted⟩ := (tick_ticked ticked).hint_le reach.cruiseFits
  obtain ⟨-, rfl⟩ := (timeToNextStep_eq_ok_iff ramping seen).mp waited
  have bound := hinted ms rfl
  rw [due, Nat.add_sub_cancel_left, ← Binary.toUInt32_eq_min]
  omega

end Controller

namespace MotorTask

variable {σ : Type} [CoilOutput σ] {now : Nat} {w w' : TaskWorld σ}

open Controller

/-! ## The task's move cruises at a period of the format -/

theorem Finished.cruiseFits {r : Except DriveError Unit} (h : Finished now w r w')
    (fits : w.task.controller.CruiseFits) : w'.task.controller.CruiseFits := by
  cases h <;> exact fits

theorem Stepped.cruiseFits {r : Except DriveError Nat} (h : Stepped now w r w')
    (fits : w.task.controller.CruiseFits) : w'.task.controller.CruiseFits := by
  cases h with
  | fault ticked | pending ticked | stepped ticked => exact fits.ticked (tick_ticked ticked)
  | ended ticked _ finished => exact finished.cruiseFits (fits.ticked (tick_ticked ticked))

theorem Ran.cruiseFits {r : Except DriveError Nat} (h : Ran now w r w')
    (fits : w.task.controller.CruiseFits) : w'.task.controller.CruiseFits := by
  cases h with
  | idle | dwellOver | dwell | parked => exact fits
  | start _ _ planned stepped => exact stepped.cruiseFits (cruiseFits_moveTo planned)
  | move _ stepped => exact stepped.cruiseFits fits

theorem WoundDown.cruiseFits {r : Except DriveError Nat} (h : WoundDown now w r w')
    (fits : w.task.controller.CruiseFits) : w'.task.controller.CruiseFits := by
  cases h with
  | brake _ _ shortened stepped => exact stepped.cruiseFits (fits.requestStop shortened)
  | braking _ _ stepped => exact stepped.cruiseFits fits
  | dwellCut | still => exact fits

theorem Parked.cruiseFits {r : Except DriveError Nat} (h : Parked w r w')
    (fits : w.task.controller.CruiseFits) : w'.task.controller.CruiseFits := by
  cases h <;> exact fits

/-- Every poll keeps the cruise period of the task's move a value of the format. -/
theorem Polled.cruiseFits {r : Except DriveError TaskPoll} (h : Polled now w r w')
    (fits : w.task.controller.CruiseFits) : w'.task.controller.CruiseFits := by
  cases h with
  | stopped _ parked => exact parked.cruiseFits fits
  | stopping _ wound => exact wound.cruiseFits fits
  | normal _ _ ran => exact ran.cruiseFits fits
  | resumed _ _ ran => exact ran.cruiseFits (cruiseFits_of_not_ramping (by simp [abort]))

/-! ## Sleeps end by the next step -/

/-- A poll's answer carries the sleep its block asked for and the state after it. -/
theorem answer_of_map {r₀ : Except DriveError Nat} {s : TaskState} {p : TaskPoll}
    (h : r₀.map (fun sleep => (⟨s, sleep⟩ : TaskPoll)) = .ok p) : r₀ = .ok p.sleepMs ∧ p.state = s := by
  cases r₀ with
  | error e => cases h
  | ok n =>
    cases h
    exact ⟨rfl, rfl⟩

/-- A tick of the move that answers, leaving the task moving, asks for a sleep that ends by the
next step's due time, or one ms after it when the controller has no lookahead. -/
theorem Stepped.wakesByDue {sleep : Nat} (h : Stepped now w (.ok sleep) w')
    (fits : w.task.controller.CruiseFits) (moving : w'.task.state = .moving) :
    w'.task.controller.WakesByDue now sleep := by
  generalize answered : (Except.ok sleep : Except DriveError Nat) = r at h
  cases h with
  | fault => cases answered
  | @pending c wait ticked waited =>
    cases answered
    obtain ⟨positive, due⟩ := (tick_ticked ticked).wait_le_due waited
    apply wakesByDue_of_le
    simp only [TaskWorld.published_task, TaskWorld.withController_task]
    omega
  | @stepped c hint ticked =>
    cases answered
    obtain ⟨-, -, timing, due, hinted⟩ := (tick_ticked ticked).hint_le fits
    simp only [WakesByDue, TaskWorld.published_task, TaskWorld.withController_task, timing, due]
    have narrow := Binary.toUInt32_le_toUInt64 c.motion.nextStepPeriod
    cases hint with
    | none =>
      simp only [Option.getD_none]
      omega
    | some ms =>
      have bound := hinted ms rfl
      simp only [Option.getD_some]
      omega
  | @ended c _ r₀ _ ticked done finished =>
    -- a move that ends leaves the task waiting or dwelling
    cases r₀ with
    | error e => cases answered
    | ok u =>
      rcases finished.state_eq with ⟨-, waiting⟩ | ⟨-, dwelling⟩
      · rw [waiting] at moving
        cases moving
      · rw [dwelling] at moving
        cases moving

theorem Ran.wakesByDue {sleep : Nat} (h : Ran now w (.ok sleep) w')
    (fits : w.task.controller.CruiseFits) (moving : w'.task.state = .moving) :
    w'.task.controller.WakesByDue now sleep := by
  cases h with
  | start _ _ planned stepped => exact stepped.wakesByDue (cruiseFits_moveTo planned) moving
  | move _ stepped => exact stepped.wakesByDue fits moving
  | idle waiting | parked waiting | dwell waiting =>
    rw [waiting] at moving
    cases moving
  | dwellOver => cases moving

theorem WoundDown.wakesByDue {sleep : Nat} (h : WoundDown now w (.ok sleep) w')
    (fits : w.task.controller.CruiseFits) (moving : w'.task.state = .moving) :
    w'.task.controller.WakesByDue now sleep := by
  cases h with
  | brake _ _ shortened stepped => exact stepped.wakesByDue (fits.requestStop shortened) moving
  | braking _ _ stepped => exact stepped.wakesByDue fits moving
  | dwellCut => cases moving
  | still idle =>
    rcases idle with waiting | parked
    · rw [waiting] at moving
      cases moving
    · rw [parked] at moving
      cases moving

/-- With the gate at `stopped`, a poll that answers leaves the task parked. -/
theorem Parked.parks {r : Except DriveError Nat} {n : Nat} (h : Parked w r w') (ok : r = .ok n) :
    w'.task.state = .parked := by
  cases h with
  | already parked => exact parked
  | fault => cases ok
  | park => rfl

/-- A poll that answers with the task moving asks for a sleep that ends by the due time of the
move's next step, or one ms after it when the controller has no lookahead. -/
theorem Polled.wakesByDue {answer : TaskPoll} (h : Polled now w (.ok answer) w')
    (fits : w.task.controller.CruiseFits) (moving : answer.state = .moving) :
    w'.task.controller.WakesByDue now answer.sleepMs := by
  generalize answered : (Except.ok answer : Except DriveError TaskPoll) = r at h
  -- every path answers the state after it and the sleep of its block
  cases h with
  | @stopped r₀ _ _ parked =>
    obtain ⟨asked, state⟩ := answer_of_map answered.symm
    have parks := parked.parks asked
    rw [state, parks] at moving
    cases moving
  | @stopping r₀ _ _ wound =>
    obtain ⟨asked, state⟩ := answer_of_map answered.symm
    rw [asked] at wound
    exact wound.wakesByDue fits (state ▸ moving)
  | @normal r₀ _ _ _ ran =>
    obtain ⟨asked, state⟩ := answer_of_map answered.symm
    rw [asked] at ran
    exact ran.wakesByDue fits (state ▸ moving)
  | @resumed r₀ _ _ _ ran =>
    obtain ⟨asked, state⟩ := answer_of_map answered.symm
    rw [asked] at ran
    exact ran.wakesByDue (cruiseFits_of_not_ramping (by simp [abort])) (state ▸ moving)

end MotorTask

namespace Controller

set_option maxRecDepth 20000 in
/-- A controller built with the standard table and kinematics but no lookahead: its move to 100
takes its first step at 49 ms and hints a sleep of 25 ms, while its next step falls due 24 ms
later. -/
theorem eager_first_step :
    ∃ (c c' : Controller Recorder) (span : Nat), Reachable c span ∧
      c.tick 49 = .ok (c', .ok (.stepped (some 25))) ∧ c'.timeToNextStep 49 = .ok 24 :=
  have planned := @Reachable.step _ _ _ _ 0 (.moveTo 100) .none
    (.built Recorder.empty .standard .standard ⟨100, 2, 0⟩) (show Word.IsInt64 100 by decide) rfl
  have started := @Reachable.step _ _ _ _ _ (.tick 0) (.tick (.ok .pending)) planned trivial rfl
  ⟨_, _, _, started, rfl, rfl⟩

end Controller

open Controller in
/-- How late a caller that sleeps as told wakes. On every controller a session reaches, the
hint of a tick that steps is at most one ms above the time it then reports to the next step, and
not above it when the controller wakes sleepers at least a ms early. Every sleep a poll of the
motor task asks for while the task moves ends by the due time of the move's next step, or a ms
after it without a lookahead; the cruise period this rests on stays a value of the format
through every poll, so it holds along every run of the task from a controller at rest. -/
theorem sleeps_end_by_due {σ : Type} [CoilOutput σ] :
    (∀ (c c' : Controller σ) (span now ms wait : Nat), Reachable c span →
      c.tick now = .ok (c', .ok (.stepped (some ms))) → c'.timeToNextStep now = .ok wait →
      ms ≤ wait + 1 ∧ (1 ≤ c.timing.lookaheadMs → ms ≤ wait)) ∧
    (∀ (w w' : TaskWorld σ) (now : Nat) (answer : TaskPoll), w.task.controller.CruiseFits →
      (MotorTask.poll now).run.run w = .ok (.ok answer, w') → answer.state = .moving →
      w'.task.controller.WakesByDue now answer.sleepMs) ∧
    (∀ (w w' : TaskWorld σ) (now : Nat) (r : Except DriveError TaskPoll),
      w.task.controller.CruiseFits → (MotorTask.poll now).run.run w = .ok (r, w') →
      w'.task.controller.CruiseFits) :=
  ⟨fun _ _ _ _ _ _ reach ticked waited => reach.hint_le_wait ticked waited,
    fun _ _ _ _ fits polled moving => (MotorTask.poll_polled polled).wakesByDue fits moving,
    fun _ _ _ _ fits polled => (MotorTask.poll_polled polled).cruiseFits fits⟩

/-- The first step of the standard move to 100 without a lookahead hints a sleep one ms above
the 24 ms it reports, as far above as the bound allows. -/
theorem eager_hint_within_one :
    ∃ (c c' : Controller Recorder) (span : Nat), Controller.Reachable c span ∧
      c.tick 49 = .ok (c', .ok (.stepped (some 25))) ∧ c'.timeToNextStep 49 = .ok 24 ∧
      25 ≤ 24 + 1 ∧ (1 ≤ c.timing.lookaheadMs → 25 ≤ 24) := by
  obtain ⟨c, c', span, reach, ticked, waited⟩ := Controller.eager_first_step
  exact ⟨c, c', span, reach, ticked, waited,
    sleeps_end_by_due.1 c c' span 49 25 24 reach ticked waited⟩

/-- A hint need not end by the step it waits for: without a lookahead, the first step of the
standard move to 100 hints 25 ms while the next step is due 24 ms later. -/
theorem eager_hint_oversleeps :
    ¬ ∀ (c c' : Controller Recorder) (span now ms wait : Nat), Controller.Reachable c span →
      c.tick now = .ok (c', .ok (.stepped (some ms))) → c'.timeToNextStep now = .ok wait →
      ms ≤ wait := by
  intro bound
  obtain ⟨c, c', span, reach, ticked, waited⟩ := Controller.eager_first_step
  exact absurd (bound c c' span 49 25 24 reach ticked waited) (by decide)

end StepperDrive