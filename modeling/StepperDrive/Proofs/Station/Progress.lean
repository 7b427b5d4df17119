import StepperDrive.Proofs.Station.Episode
/-!
# Polls that ask for no sleep

A caller that polls the motor task again at once when a poll asks for no sleep, as a virtual
clock does, counts on that poll having done something. With a positive idle period it has, on
every path but one: a tick that answers zero took a step, and a move that ends, a dwell that
ends or a command that starts changes the task's state. Every other path asks for the idle
period or for at least a ms.

The exception is a dwell that is not over. It asks for the time left, kept to its low 32 bits
and capped by the idle period, so a time left that is a multiple of `2 ^ 32` ms reads as zero;
the poll then leaves the world as it found it, and polling again at the same time answers the
same, forever.

`MotorTask.poll_stalls_iff` is the exact condition, for every world with a positive idle
period. A coil step shows in the position: a tick that writes one moves the motor one step
(`Controller.Ticked.position_of_stepped`), and without a change of state nothing else moves
it. `longDwell_polls_stall` is such a stall reached from a new station by a command of the
intake with a dwell of `2 ^ 32` ms.
-/

namespace StepperDrive

theorem Direction.add_sign_ne (d : Direction) (x : Int) : x + d.sign ≠ x := by
  cases d <;> simp [Direction.sign]

/-- The low 32 bits of a time left vanish exactly on multiples of `2 ^ 32`. -/
theorem Word.truncUInt32_sub_eq_zero {a b : Nat} (h : b ≤ a) :
    Word.truncUInt32 ((a : Int) - b) = 0 ↔ (a - b) % 4294967296 = 0 := by
  unfold Word.truncUInt32
  omega

namespace Controller

variable {σ : Type} {c c' : Controller σ}

/-- A stop request leaves the motor where it is. -/
theorem requestStop_position (h : c.requestStop = .ok c') :
    c'.motion.position = c.motion.position := by
  by_cases ramping : c.state = .ramping
  · obtain ⟨-, -, -, rfl⟩ := (requestStop_eq_ok ramping).mp h
    rfl
  · rw [requestStop_of_not_ramping ramping] at h
    cases h
    rfl

variable [CoilOutput σ] {now : Nat}

/-- A tick that reports a step moved the motor one step in the move's direction. -/
theorem Ticked.position_of_stepped {hint : Option Nat} (h : Ticked c now c' (.ok (.stepped hint))) :
    c'.motion.position = c.motion.position + c.motion.direction.sign := by
  cases h
  simp

end Controller

namespace MotorTask

variable {σ : Type} [CoilOutput σ] {now : Nat} {w w' : TaskWorld σ}

/-- A poll stood still: the task is in the state it was in, and the motor where it was. -/
def StoodStill (w w' : TaskWorld σ) : Prop :=
  w'.task.state = w.task.state ∧ w'.task.controller.motion.position = w.task.controller.motion.position

/-- A move that finishes leaves the task waiting after an emergency, and dwelling otherwise. -/
theorem Finished.state_eq (h : Finished now w (.ok ()) w') :
    w.task.stopRequested = true ∧ w'.task.state = .awaitingCommand ∨
      w.task.stopRequested = false ∧ w'.task.state = .dwelling (now + w.task.dwellMs) := by
  cases h with
  | cut _ stop => exact .inl ⟨stop, rfl⟩
  | dwell _ stop => exact .inr ⟨stop, rfl⟩

/-- A tick of a move that answers keeps the task's state, unless the move finished. -/
theorem Stepped.state_of_ok {r : Except DriveError Nat} {n : Nat} (h : Stepped now w r w')
    (ok : r = .ok n) :
    w'.task.state = w.task.state ∨
      w.task.stopRequested = true ∧ w'.task.state = .awaitingCommand ∨
      w.task.stopRequested = false ∧ w'.task.state = .dwelling (now + w.task.dwellMs) := by
  cases h with
  | fault => cases ok
  | pending | stepped => exact .inl rfl
  | @ended c _ r₀ _ _ _ finished =>
    cases r₀ with
    | error e => cases ok
    | ok u => exact .inr finished.state_eq

/-- A tick of a move that asks for no sleep took a step or finished the move. -/
theorem Stepped.progress {r : Except DriveError Nat} (h : Stepped now w r w')
    (moving : w.task.state = .moving) (zero : r = .ok 0) : ¬ StoodStill w w' := by
  rintro ⟨state, position⟩
  cases h with
  | fault => cases zero
  | @pending c wait _ _ =>
    -- a step not yet due asks for at least a ms
    have atLeastOne := Nat.le_max_right (wait - w.task.timing.lookaheadMs) 1
    simp only [Except.ok.injEq] at zero
    omega
  | stepped ticked =>
    have moved := (Controller.tick_ticked ticked).position_of_stepped
    simp only [TaskWorld.published_task, TaskWorld.withController_task] at position
    exact Direction.add_sign_ne _ _ (moved.symm.trans position)
  | @ended c _ r₀ _ _ _ finished =>
    cases r₀ with
    | error e => cases zero
    | ok u =>
      -- the finished move leaves the task waiting or dwelling, no longer moving
      rcases finished.state_eq with ⟨-, waiting⟩ | ⟨-, dwelling⟩
      · rw [state, moving] at waiting
        cases waiting
      · rw [state, moving] at dwelling
        cases dwelling

/-- A tick that answers from a moving task leaves it in a state other than parked. -/
theorem Stepped.state_ne_parked {r : Except DriveError Nat} {n : Nat} (h : Stepped now w r w')
    (moving : w.task.state = .moving) (ok : r = .ok n) : w'.task.state ≠ .parked := by
  rcases h.state_of_ok ok with same | ⟨-, waiting⟩ | ⟨-, dwelling⟩
  · rw [same, moving]
    simp
  · simp [waiting]
  · simp [dwelling]

/-- With the gate open, a poll that asks for no sleep and stands still is a dwell not yet over
whose time left is a multiple of `2 ^ 32` ms, and it leaves the world as it was. -/
theorem Ran.stall {r : Except DriveError Nat} (h : Ran now w r w') (idle : 0 < w.task.timing.idlePollMs)
    (zero : r = .ok 0) (still : StoodStill w w') :
    ∃ due, w.task.state = .dwelling due ∧ now < due ∧ (due - now) % 4294967296 = 0 ∧ w' = w := by
  cases h with
  | idle | parked =>
    simp only [Except.ok.injEq, MotorTask.idle] at zero
    omega
  | start waiting _ _ stepped =>
    -- the command started moves the task on from waiting, to its move or its dwell
    have moved := still.1
    rw [waiting] at moved
    rcases stepped.state_of_ok zero with same | ⟨fresh, -⟩ | ⟨-, dwelling⟩
    · rw [same] at moved
      cases moved
    · cases fresh
    · rw [dwelling] at moved
      cases moved
  | move moving stepped => exact absurd still (stepped.progress moving zero)
  | dwellOver dwelling =>
    have ended := still.1
    rw [dwelling] at ended
    cases ended
  | @dwell due dwelling early =>
    have idlePositive : 0 < w.task.idle := idle
    have truncated : Word.truncUInt32 ((due : Int) - now) = 0 := by
      simp only [Except.ok.injEq] at zero
      omega
    refine ⟨due, dwelling, by omega, ?_, rfl⟩
    exact (Word.truncUInt32_sub_eq_zero (by omega)).mp truncated

/-- With the gate open, a task that is not parked is not parked after a poll that answers. -/
theorem Ran.state_ne_parked {r : Except DriveError Nat} {n : Nat} (h : Ran now w r w')
    (awake : w.task.state ≠ .parked) (ok : r = .ok n) : w'.task.state ≠ .parked := by
  cases h with
  | idle | dwell => exact awake
  | start _ _ _ stepped => exact stepped.state_ne_parked rfl ok
  | move moving stepped => exact stepped.state_ne_parked moving ok
  | dwellOver => simp
  | parked parked => exact absurd parked awake

/-- With the gate at `stopping`, a poll that asks for no sleep took a step or finished the
move: shortening the move leaves the motor where it is. -/
theorem WoundDown.progress {r : Except DriveError Nat} (h : WoundDown now w r w')
    (idle : 0 < w.task.timing.idlePollMs) (zero : r = .ok 0) : ¬ StoodStill w w' := by
  cases h with
  | brake moving _ shortened stepped =>
    intro still
    refine stepped.progress moving zero ⟨still.1, ?_⟩
    exact still.2.trans (Controller.requestStop_position shortened).symm
  | braking moving _ stepped => exact stepped.progress moving zero
  | dwellCut | still =>
    simp only [Except.ok.injEq, MotorTask.idle] at zero
    omega

/-- With the gate at `stopped`, a poll that answers asks for the idle period. -/
theorem Parked.sleep_eq {r : Except DriveError Nat} {n : Nat} (h : Parked w r w') (ok : r = .ok n) :
    n = w.task.idle := by
  cases h with
  | already | park =>
    simp only [Except.ok.injEq] at ok
    exact ok.symm
  | fault => cases ok

/-- A poll answers the sleep its block asked for. -/
theorem answer_of_ok {r₀ : Except DriveError Nat} {s : TaskState} {p : TaskPoll}
    (h : r₀.map (fun sleep => (⟨s, sleep⟩ : TaskPoll)) = .ok p) : r₀ = .ok p.sleepMs := by
  cases r₀ with
  | error e => cases h
  | ok n =>
    cases h
    rfl

/-- A poll that asks for no sleep and stands still reads the gate as open and finds a dwell not
yet over whose time left is a multiple of `2 ^ 32` ms; it leaves the world as it was. -/
theorem Polled.stall {r : Except DriveError TaskPoll} {p : TaskPoll} (h : Polled now w r w')
    (idle : 0 < w.task.timing.idlePollMs) (ok : r = .ok p) (zero : p.sleepMs = 0)
    (still : StoodStill w w') :
    w.bus.gate = .normal ∧
      ∃ due, w.task.state = .dwelling due ∧ now < due ∧ (due - now) % 4294967296 = 0 ∧ w' = w := by
  -- each path answers the sleep of its block, which is the one to look at
  cases h with
  | stopped _ parked =>
    have asked := parked.sleep_eq (answer_of_ok ok)
    have idlePositive : 0 < w.task.idle := idle
    omega
  | stopping _ wound =>
    have answered := answer_of_ok ok
    rw [zero] at answered
    exact absurd still (wound.progress idle answered)
  | normal gate _ ran =>
    have answered := answer_of_ok ok
    rw [zero] at answered
    exact ⟨gate, ran.stall idle answered still⟩
  | resumed _ parked ran =>
    -- the resumed task waits for a command, so the poll leaves it unparked
    exact absurd (still.1.trans parked) (ran.state_ne_parked (by simp) (answer_of_ok ok))

/-- A dwell not yet over whose time left is a multiple of `2 ^ 32` ms, polled with the gate open,
asks for no sleep and leaves the world as it was. -/
theorem Polled.stall_of_dwell {r : Except DriveError TaskPoll} {due : Nat} (h : Polled now w r w')
    (normal : w.bus.gate = .normal) (dwelling : w.task.state = .dwelling due) (early : now < due)
    (wrapped : (due - now) % 4294967296 = 0) :
    r = .ok ⟨w.task.state, 0⟩ ∧ w' = w := by
  have truncated := (Word.truncUInt32_sub_eq_zero (by omega)).mpr wrapped
  cases h with
  | stopped gate | stopping gate =>
    rw [normal] at gate
    cases gate
  | resumed _ parked =>
    rw [dwelling] at parked
    cases parked
  | normal _ _ ran =>
    cases ran with
    | idle waiting | start waiting =>
      rw [dwelling] at waiting
      cases waiting
    | move moving =>
      rw [dwelling] at moving
      cases moving
    | parked parked =>
      rw [dwelling] at parked
      cases parked
    | dwellOver dwelling' past =>
      rw [dwelling] at dwelling'
      cases dwelling'
      omega
    | dwell dwelling' =>
      rw [dwelling] at dwelling'
      cases dwelling'
      rw [truncated, Nat.zero_min]
      exact ⟨rfl, rfl⟩

/-- With a positive idle period, a poll that answers asks for no sleep and stands still, neither
changing the task's state nor stepping the motor, exactly when it reads the gate as open and
finds a dwell not yet over whose time left is a multiple of `2 ^ 32` ms; such a poll leaves the
world as it was, so every later poll at the same time does the same. -/
theorem poll_stalls_iff {p : TaskPoll} (idle : 0 < w.task.timing.idlePollMs)
    (h : (poll now).run.run w = .ok (.ok p, w')) :
    (p.sleepMs = 0 ∧ StoodStill w w' ↔
      w.bus.gate = .normal ∧
        ∃ due, w.task.state = .dwelling due ∧ now < due ∧ (due - now) % 4294967296 = 0) ∧
    (p.sleepMs = 0 ∧ StoodStill w w' → w' = w) := by
  have polled := poll_polled h
  refine ⟨⟨fun ⟨zero, still⟩ => ?_, fun ⟨normal, due, dwelling, early, wrapped⟩ => ?_⟩,
    fun ⟨zero, still⟩ => ?_⟩
  · obtain ⟨normal, due, dwelling, early, wrapped, -⟩ := polled.stall idle rfl zero still
    exact ⟨normal, due, dwelling, early, wrapped⟩
  · obtain ⟨answered, rfl⟩ := polled.stall_of_dwell normal dwelling early wrapped
    cases answered
    exact ⟨rfl, rfl, rfl⟩
  · obtain ⟨-, -, -, -, -, unchanged⟩ := polled.stall idle rfl zero still
    exact unchanged

end MotorTask

namespace Station

/-- A move of no steps at 10 steps/s with a dwell of `2 ^ 32` ms after it. -/
def longDwell : MotorParameters :=
  { MotorParameters.zero with
    dwellMs := 4294967296
    speed := 10
    acceleration := 10
    deceleration := 10 }

/-- The standard station dwelling after `longDwell`, taken and finished in one poll at 0 ms. -/
def dwellingStation : Station Recorder :=
  standardStation.afterAll [.setTemplate longDwell, .trySubmit, .pollTask 0]

/-- What the motor task of `dwellingStation` reads and writes when polled. -/
def dwellingWorld : TaskWorld Recorder := ⟨dwellingStation.task, dwellingStation.bus, []⟩

set_option maxRecDepth 20000 in
theorem poll_stalls_iff_longDwell :
    0 < dwellingWorld.task.timing.idlePollMs ∧
    (MotorTask.poll 0).run.run dwellingWorld =
      .ok (.ok ⟨.dwelling 4294967296, 0⟩, dwellingWorld) ∧
    ((0 = 0 ∧ MotorTask.StoodStill dwellingWorld dwellingWorld ↔
      dwellingWorld.bus.gate = .normal ∧ ∃ due, dwellingWorld.task.state = .dwelling due ∧
        0 < due ∧ (due - 0) % 4294967296 = 0) ∧
      (0 = 0 ∧ MotorTask.StoodStill dwellingWorld dwellingWorld → dwellingWorld = dwellingWorld)) :=
  have idle : 0 < dwellingWorld.task.timing.idlePollMs := by decide
  have polled : (MotorTask.poll 0).run.run dwellingWorld =
      .ok (.ok ⟨.dwelling 4294967296, 0⟩, dwellingWorld) := by
    rfl
  ⟨idle, polled, MotorTask.poll_stalls_iff idle polled⟩

set_option maxRecDepth 20000 in
/-- The intake accepts `longDwell` as it is; the first poll at 0 ms takes it, finishes it at
once and dwells, asking for no sleep; the second poll at 0 ms asks for no sleep again and writes
no coil step, with the task still dwelling. Each entry is the poll's answer, the task's state,
the coil steps written and the position after one request. -/
theorem longDwell_polls_stall :
    ({ Intake.new SystemConfig.standard.envelope IntakeConfig.standard with
        template := longDwell }.prepare).2 = .ok longDwell ∧
    ((standardStation.applyAll [.setTemplate longDwell, .trySubmit, .pollTask 0, .pollTask 0]).map
      fun run => run.2.map fun step =>
        ((match step.1 with
          | .polled (.ok p) => some p
          | _ => none), step.2.task.state, step.2.task.controller.coils.steps,
          step.2.task.controller.motion.position)).toOption =
    some [(none, .awaitingCommand, 0, 0), (none, .awaitingCommand, 0, 0),
      (some ⟨.dwelling 4294967296, 0⟩, .dwelling 4294967296, 0, 0),
      (some ⟨.dwelling 4294967296, 0⟩, .dwelling 4294967296, 0, 0)] := by
  decide

end Station

end StepperDrive
