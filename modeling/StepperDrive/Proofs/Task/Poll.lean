import StepperDrive.Proofs.Task.Spec
/-!
# What a poll of the motor task can do

One inversion relation for each block of a poll lists every way the block ends without an
overflow, with its answer and the world it leaves: `Finished` for the end of a move, `Stepped`
for one tick of it, `Ran` for a poll with the gate open, `WoundDown` for the gate at `stopping`,
`Parked` for the gate at `stopped`, and `Polled` for the whole poll. Each is proved once from
the code (`finish_finished`, …, `poll_polled`), and what a poll keeps or changes is a case
analysis on them.
-/

namespace StepperDrive

namespace MotorTask

variable {σ : Type} [CoilOutput σ] {now : Nat}

/-- Everything finishing a move at `now` can do: the coils are released, and unless that fails
the move is counted and the task waits for its next command, at once after an emergency and
after the dwell otherwise. -/
inductive Finished (now : Nat) (w : TaskWorld σ) : Except DriveError Unit → TaskWorld σ → Prop
  | fault {e : MotorError} (released : w.task.controller.disable.2 = .error e) :
      Finished now w (.error (.motor e)) (w.withController w.task.controller.disable.1)
  | cut (released : w.task.controller.disable.2 = .ok ()) (stop : w.task.stopRequested = true) :
      Finished now w (.ok ()) { w with
        task := { w.task with
          controller := w.task.controller.disable.1
          completedMoves := min (w.task.completedMoves + 1) Word.uint32Max
          state := .awaitingCommand }
        emitted := w.emitted ++ [.idle] }
  | dwell (released : w.task.controller.disable.2 = .ok ()) (stop : w.task.stopRequested = false)
      (fits : now + w.task.dwellMs ≤ Word.uint64Max) :
      Finished now w (.ok ()) { w with
        task := { w.task with
          controller := w.task.controller.disable.1
          completedMoves := min (w.task.completedMoves + 1) Word.uint32Max
          state := .dwelling (now + w.task.dwellMs) }
        emitted := w.emitted ++ [.idle] }

/-- Everything one tick of the move at `now` can do. The tick's controller is kept even when
its coil write failed; every other outcome is published, and a move that ends is finished. -/
inductive Stepped (now : Nat) (w : TaskWorld σ) : Except DriveError Nat → TaskWorld σ → Prop
  | fault {c : Controller σ} {e : MotorError}
      (ticked : w.task.controller.tick now = .ok (c, .error e)) :
      Stepped now w (.error (.motor e)) (w.withController c)
  | pending {c : Controller σ} {wait : Nat}
      (ticked : w.task.controller.tick now = .ok (c, .ok .pending))
      (waited : c.timeToNextStep now = .ok wait) :
      Stepped now w (.ok (max (wait - w.task.timing.lookaheadMs) 1)) (w.withController c).published
  | stepped {c : Controller σ} {hint : Option Nat}
      (ticked : w.task.controller.tick now = .ok (c, .ok (.stepped hint))) :
      Stepped now w (.ok (hint.getD 0)) (w.withController c).published
  | ended {c : Controller σ} {d : Tick} {r : Except DriveError Unit} {w' : TaskWorld σ}
      (ticked : w.task.controller.tick now = .ok (c, .ok d)) (done : d.isDone = true)
      (finished : Finished now (w.withController c).published r w') :
      Stepped now w (r.map fun _ => 0) w'

variable {w w' : TaskWorld σ}

theorem finish_finished {r : Except DriveError Unit} (h : (finish now).run.run w = .ok (r, w')) :
    Finished now w r w' := by
  unfold finish at h
  cases released : w.task.controller.disable.2 with
  | error e =>
    rw [run_bind_of_fail (run_disableCoils_of_error released)] at h
    cases h
    exact .fault released
  | ok u =>
    rw [run_bind_of_ok (run_disableCoils_of_ok released), run_bind_of_ok (run_emit _ _),
      run_bind_of_ok (run_getTask _)] at h
    -- the flag is split as a field, so that both worlds see the same value
    obtain ⟨⟨c, timing, state, dwell, stop, moves⟩, bus, emitted⟩ := w
    cases stop
    · simp only [TaskWorld.withController_task, Bool.false_eq_true, ↓reduceIte] at h
      -- only the end of the dwell is computed with a check
      by_cases fits : now + dwell ≤ Word.uint64Max
      · rw [Word.addUInt64_of_le fits, run_bind_of_ok (run_trap_ok _ _), run_setTask] at h
        cases h
        exact .dwell released rfl fits
      · rw [Word.addUInt64_of_lt (Nat.lt_of_not_le fits),
          run_bind_of_error (run_trap_error _ _)] at h
        cases h
    · simp only [TaskWorld.withController_task, ↓reduceIte, run_setTask] at h
      cases h
      exact .cut released rfl

/-- A tick that ends the move hands the world on to `finish`. -/
theorem stepped_of_finish {c : Controller σ} {d : Tick} {r : Except DriveError Nat}
    (ticked : w.task.controller.tick now = .ok (c, .ok d)) (done : d.isDone = true)
    (h : (finish now >>= fun _ => pure 0 : TaskM σ Nat).run.run (w.withController c).published =
      .ok (r, w')) :
    Stepped now w r w' := by
  cases finished : (finish now).run.run (w.withController c).published with
  | error o =>
    rw [run_bind_of_error finished] at h
    cases h
  | ok outcome =>
    obtain ⟨fr, wf⟩ := outcome
    cases fr with
    | error e =>
      rw [run_bind_of_fail finished] at h
      cases h
      exact .ended ticked done (finish_finished finished)
    | ok u =>
      rw [run_bind_of_ok finished, run_pure] at h
      cases h
      exact .ended ticked done (finish_finished finished)

theorem step_stepped {r : Except DriveError Nat} (h : (step now).run.run w = .ok (r, w')) :
    Stepped now w r w' := by
  unfold step at h
  rw [run_bind_of_ok (run_getTask w)] at h
  cases ticked : w.task.controller.tick now with
  | error o =>
    rw [ticked, run_bind_of_error (run_trap_error o w)] at h
    cases h
  | ok outcome =>
    obtain ⟨c, res⟩ := outcome
    rw [ticked, run_bind_of_ok (run_trap_ok _ w)] at h
    dsimp only at h
    rw [run_bind_of_ok (run_setTask_controller w c)] at h
    cases res with
    | error e =>
      rw [run_bind_of_fail (run_orFail_error e _)] at h
      cases h
      exact .fault ticked
    | ok d =>
      rw [run_bind_of_ok (run_orFail_ok d _), run_bind_of_ok (run_publish _)] at h
      cases d with
      | pending =>
        dsimp only at h
        cases waited : c.timeToNextStep now with
        | error o =>
          rw [waited, run_bind_of_error (run_trap_error o _)] at h
          cases h
        | ok wait =>
          rw [waited, run_bind_of_ok (run_trap_ok wait _), run_pure] at h
          cases h
          exact .pending ticked waited
      | stepped hint =>
        dsimp only at h
        rw [run_pure] at h
        cases h
        exact .stepped ticked
      | arrived => exact stepped_of_finish ticked rfl h
      | complete => exact stepped_of_finish ticked rfl h

/-- Everything a poll with the gate open does to a task that is not parked: a waiting task
takes the next command, if any, and starts it; a moving task ticks; a dwelling task waits for
the end of its dwell. -/
inductive Ran (now : Nat) (w : TaskWorld σ) : Except DriveError Nat → TaskWorld σ → Prop
  | idle (waiting : w.task.state = .awaitingCommand) (empty : w.bus.commands.tryReceive = none) :
      Ran now w (.ok w.task.idle) w
  | start {p : MotorParameters} {q : BoundedQueue MotorParameters} {c : Controller σ}
      {r : Except DriveError Nat} {w' : TaskWorld σ}
      (waiting : w.task.state = .awaitingCommand) (head : w.bus.commands.tryReceive = some (p, q))
      (planned : (w.task.controller.configuredFor p).moveTo p.finalPosition = .ok c)
      (stepped : Stepped now { w with
        bus := { w.bus with commands := q }
        task := { w.task with
          controller := c
          dwellMs := (max p.dwellMs 0).toNat
          stopRequested := false
          state := .moving }
        emitted := w.emitted ++ [.stepMode p.stepMode] } r w') :
      Ran now w r w'
  | move {r : Except DriveError Nat} {w' : TaskWorld σ} (moving : w.task.state = .moving)
      (stepped : Stepped now w r w') : Ran now w r w'
  | dwellOver {due : Nat} (dwelling : w.task.state = .dwelling due) (past : due ≤ now) :
      Ran now w (.ok 0) { w with task := { w.task with state := .awaitingCommand } }
  | dwell {due : Nat} (dwelling : w.task.state = .dwelling due) (early : ¬ due ≤ now) :
      Ran now w (.ok (min (Word.truncUInt32 (due - now)) w.task.idle)) w
  | parked (parked : w.task.state = .parked) : Ran now w (.ok w.task.idle) w

/-- Everything a poll with the gate at `stopping` does: a moving task shortens its move once
and ticks; a dwell is abandoned; a waiting or parked task is left alone. -/
inductive WoundDown (now : Nat) (w : TaskWorld σ) : Except DriveError Nat → TaskWorld σ → Prop
  | brake {c : Controller σ} {r : Except DriveError Nat} {w' : TaskWorld σ}
      (moving : w.task.state = .moving) (fresh : w.task.stopRequested = false)
      (shortened : w.task.controller.requestStop = .ok c)
      (stepped : Stepped now { w with task := { w.task with controller := c, stopRequested := true } }
        r w') :
      WoundDown now w r w'
  | braking {r : Except DriveError Nat} {w' : TaskWorld σ} (moving : w.task.state = .moving)
      (again : w.task.stopRequested = true) (stepped : Stepped now w r w') : WoundDown now w r w'
  | dwellCut {due : Nat} (dwelling : w.task.state = .dwelling due) :
      WoundDown now w (.ok w.task.idle) { w with task := { w.task with state := .awaitingCommand } }
  | still (idle : w.task.state = .awaitingCommand ∨ w.task.state = .parked) :
      WoundDown now w (.ok w.task.idle) w

/-- Everything a poll with the gate at `stopped` does: the coils are released and the task
parks, once. -/
inductive Parked (w : TaskWorld σ) : Except DriveError Nat → TaskWorld σ → Prop
  | already (parked : w.task.state = .parked) : Parked w (.ok w.task.idle) w
  | fault {e : MotorError} (awake : w.task.state ≠ .parked)
      (released : w.task.controller.disable.2 = .error e) :
      Parked w (.error (.motor e)) (w.withController w.task.controller.disable.1)
  | park (awake : w.task.state ≠ .parked) (released : w.task.controller.disable.2 = .ok ()) :
      Parked w (.ok w.task.idle) (TaskWorld.published { w with
        task := { w.task with
          controller := w.task.controller.disable.1
          state := .parked
          stopRequested := false }
        emitted := w.emitted ++ [.idle] })

/-- Everything one poll at `now` does, by the gate it reads; with the gate open a parked task
first abandons its move where it stands. The answer names the task's state after the poll. -/
inductive Polled (now : Nat) (w : TaskWorld σ) : Except DriveError TaskPoll → TaskWorld σ → Prop
  | stopped {r : Except DriveError Nat} {w' : TaskWorld σ} (gate : w.bus.gate = .stopped)
      (parked : Parked w r w') : Polled now w (r.map fun sleep => ⟨w'.task.state, sleep⟩) w'
  | stopping {r : Except DriveError Nat} {w' : TaskWorld σ} (gate : w.bus.gate = .stopping)
      (wound : WoundDown now w r w') : Polled now w (r.map fun sleep => ⟨w'.task.state, sleep⟩) w'
  | normal {r : Except DriveError Nat} {w' : TaskWorld σ} (gate : w.bus.gate = .normal)
      (awake : w.task.state ≠ .parked) (ran : Ran now w r w') :
      Polled now w (r.map fun sleep => ⟨w'.task.state, sleep⟩) w'
  | resumed {r : Except DriveError Nat} {w' : TaskWorld σ} (gate : w.bus.gate = .normal)
      (parked : w.task.state = .parked)
      (ran : Ran now (TaskWorld.published { w with
        task := { w.task with controller := w.task.controller.abort, state := .awaitingCommand } })
        r w') :
      Polled now w (r.map fun sleep => ⟨w'.task.state, sleep⟩) w'

theorem run_ran {r : Except DriveError Nat} (h : (run now).run.run w = .ok (r, w')) :
    Ran now w r w' := by
  unfold run at h
  rw [run_bind_of_ok (run_getTask w)] at h
  cases state : w.task.state with
  | awaitingCommand =>
    rw [state] at h
    dsimp only at h
    rw [run_bind_of_ok (run_get w)] at h
    cases head : w.bus.commands.tryReceive with
    | none =>
      rw [head, run_pure] at h
      cases h
      exact .idle state head
    | some pq =>
      obtain ⟨p, q⟩ := pq
      rw [head] at h
      dsimp only at h
      rw [run_bind_of_ok (run_set _ _)] at h
      cases planned : (w.task.controller.configuredFor p).moveTo p.finalPosition with
      | error o =>
        rw [run_bind_of_error (run_start_of_error { w with bus := { w.bus with commands := q } }
          planned)] at h
        cases h
      | ok c =>
        rw [run_bind_of_ok (run_start_of_ok { w with bus := { w.bus with commands := q } }
          planned)] at h
        exact .start state head planned (step_stepped h)
  | moving =>
    rw [state] at h
    exact .move state (step_stepped h)
  | dwelling due =>
    rw [state] at h
    dsimp only at h
    by_cases past : due ≤ now
    · rw [if_pos past, run_bind_of_ok (run_setTask _ _), run_pure] at h
      cases h
      exact .dwellOver state past
    · rw [if_neg past, run_pure] at h
      cases h
      exact .dwell state past
  | parked =>
    rw [state] at h
    dsimp only at h
    rw [run_pure] at h
    cases h
    exact .parked state

theorem windDown_woundDown {r : Except DriveError Nat}
    (h : (windDown now).run.run w = .ok (r, w')) : WoundDown now w r w' := by
  unfold windDown at h
  rw [run_bind_of_ok (run_getTask w)] at h
  -- the state and the flag are split as fields, so that every world sees the same value
  obtain ⟨⟨c, timing, state, dwell, stop, moves⟩, bus, emitted⟩ := w
  cases state with
  | moving =>
    cases stop
    · simp only [Bool.not_false, ↓reduceIte] at h
      cases shortened : c.requestStop with
      | error o =>
        rw [shortened, run_bind_of_error (run_trap_error o _)] at h
        cases h
      | ok c' =>
        rw [shortened, run_bind_of_ok (run_trap_ok c' _), run_bind_of_ok (run_setTask _ _)] at h
        exact .brake rfl rfl shortened (step_stepped h)
    · simp only [Bool.not_true, Bool.false_eq_true, ↓reduceIte] at h
      exact .braking rfl rfl (step_stepped h)
  | dwelling due =>
    dsimp only at h
    rw [run_bind_of_ok (run_setTask _ _), run_pure] at h
    cases h
    exact .dwellCut rfl
  | awaitingCommand =>
    dsimp only at h
    rw [run_pure] at h
    cases h
    exact .still (.inl rfl)
  | parked =>
    dsimp only at h
    rw [run_pure] at h
    cases h
    exact .still (.inr rfl)

theorem park_parked {r : Except DriveError Nat} (h : park.run.run w = .ok (r, w')) :
    Parked w r w' := by
  unfold park at h
  rw [run_bind_of_ok (run_getTask w)] at h
  by_cases parked : w.task.state = .parked
  · rw [if_neg (not_not.mpr parked)] at h
    dsimp only at h
    rw [run_pure] at h
    cases h
    exact .already parked
  rw [if_pos parked] at h
  dsimp only at h
  cases released : w.task.controller.disable.2 with
  | error e =>
    rw [run_bind_of_fail (run_disableCoils_of_error released)] at h
    cases h
    exact .fault parked released
  | ok u =>
    rw [run_bind_of_ok (run_disableCoils_of_ok released), run_bind_of_ok (run_emit _ _),
      run_bind_of_ok (run_getTask _), run_bind_of_ok (run_setTask _ _),
      run_bind_of_ok (run_publish _), run_pure] at h
    cases h
    exact .park parked released

theorem poll_polled {r : Except DriveError TaskPoll} (h : (poll now).run.run w = .ok (r, w')) :
    Polled now w r w' := by
  unfold poll at h
  rw [run_bind_of_ok (run_get w)] at h
  dsimp only at h
  cases gate : w.bus.gate with
  | stopped =>
    rw [gate] at h
    obtain ⟨r₀, slept, rfl⟩ := run_answer h
    exact .stopped gate (park_parked slept)
  | stopping =>
    rw [gate] at h
    obtain ⟨r₀, slept, rfl⟩ := run_answer h
    exact .stopping gate (windDown_woundDown slept)
  | normal =>
    rw [gate] at h
    by_cases parked : w.task.state = .parked
    · rw [if_pos parked, run_bind_of_ok (run_resume w)] at h
      obtain ⟨r₀, slept, rfl⟩ := run_answer h
      exact .resumed gate parked (run_ran slept)
    · rw [if_neg parked] at h
      obtain ⟨r₀, slept, rfl⟩ := run_answer h
      exact .normal gate parked (run_ran slept)

end MotorTask

end StepperDrive
