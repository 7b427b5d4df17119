import StepperDrive.Proofs.Motion.Stop
import StepperDrive.Proofs.Task.Steady
import StepperDrive.Proofs.Station.Pipeline
/-!
# Braking for an emergency

The first poll of a move that reads the gate at `stopping` asks the controller to stop and
ticks; later polls tick the move on, whatever the gate says, until it finishes, parks, or is
abandoned when the task resumes. The stop request cuts the move short to its stop distance `m`
ahead of the position `P` it was made at, and nothing after it moves the goal further out:
ticks keep the goal, a second request pulls it further in, and parking and resuming leave the
motor where it stands.

`Controller.StopsBetween` says that the motor stands between `P` and its stop point `m` steps
on, with any move under way heading there. Every poll that takes no new command keeps it,
whatever the bus holds, since the other parties of the drive only write the bus
(`Polled.stopsBetween`). So the motor comes to rest at most `m` steps past `P`
(`Polls.stops_within`), and `m` is at most the stop margin and the braking distance.
-/

namespace StepperDrive

/-- Taking an item leaves a queue other than it was. -/
theorem BoundedQueue.tryReceive_ne {α : Type} {q q' : BoundedQueue α} {a : α}
    (h : q.tryReceive = some (a, q')) : q' ≠ q := by
  intro same
  have items := BoundedQueue.tryReceive_items h
  rw [same] at items
  have lengths := congrArg List.length items
  simp at lengths

/-- Standing short of the point `m` steps on from `start` is being at most `m` steps past it. -/
theorem Direction.le_of_short {d : Direction} {x start : Int} {m : Nat}
    (short : 0 ≤ d.sign * (start + d.sign * m - x)) : d.sign * (x - start) ≤ m := by
  cases d <;> simp only [Direction.sign] at short ⊢ <;> omega

namespace Controller

variable {σ : Type} {c c' : Controller σ} {span : Nat} {start finish : Int} {d : Direction}

/-- A controller that keeps to its goal stands between `start` and `finish` in direction `d`,
and a move under way heads that way, for a goal no further than `finish`. -/
structure StopsBetween (c : Controller σ) (span : Nat) (start finish : Int) (d : Direction) :
    Prop where
  steady : Steady c span
  passed : 0 ≤ d.sign * (c.motion.position - start)
  short : 0 ≤ d.sign * (finish - c.motion.position)
  heading : c.state = .ramping → c.motion.direction = d ∧ 0 ≤ d.sign * (finish - c.motion.goal)

/-- Abandoning the move leaves the motor where it stands. -/
theorem StopsBetween.abort (h : c.StopsBetween span start finish d) :
    c.abort.StopsBetween span start finish d :=
  ⟨h.steady.abort, h.passed, h.short, by intro ramping; simp [Controller.abort] at ramping⟩

/-- A stop request only pulls the goal in. -/
theorem StopsBetween.requestStop (h : c.StopsBetween span start finish d)
    (stop : c.requestStop = .ok c') : c'.StopsBetween span start finish d := by
  by_cases ramping : c.state = .ramping
  case neg =>
    rw [requestStop_of_not_ramping ramping] at stop
    cases stop
    exact h
  obtain ⟨c'', stop', steady⟩ := h.steady.requestStop
  rw [h.steady.requestStop_eq ramping] at stop stop'
  cases stop
  cases stop'
  obtain ⟨direction, bound⟩ := h.heading ramping
  obtain ⟨-, -, behind⟩ := h.steady.shortened_between ramping
  refine ⟨steady, h.passed, h.short, fun _ => ⟨direction, ?_⟩⟩
  rw [direction] at behind
  cases d <;> simp only [Direction.sign] at bound behind ⊢ <;> omega

/-- A new stop point, `m` steps on from the position of a stop request. -/
theorem Steady.stopsBetween_requestStop (h : Steady c span) (stop : c.requestStop = .ok c') :
    c'.StopsBetween span c.motion.position
      (c.motion.position + c.motion.direction.sign * c.motion.stopDistance) c.motion.direction := by
  have ahead : 0 ≤ c.motion.direction.sign *
      (c.motion.position + c.motion.direction.sign * c.motion.stopDistance - c.motion.position) := by
    cases c.motion.direction <;> simp [Direction.sign]
  by_cases ramping : c.state = .ramping
  · obtain ⟨c'', stop', steady⟩ := h.requestStop
    rw [h.requestStop_eq ramping] at stop stop'
    cases stop
    cases stop'
    exact ⟨steady, by simp, ahead, fun _ => ⟨rfl, by simp [shortened]⟩⟩
  · rw [requestStop_of_not_ramping ramping] at stop
    cases stop
    exact ⟨h, by simp, ahead, fun moving => absurd moving ramping⟩

variable [CoilOutput σ] {now : Nat} {r : Except MotorError Tick}

theorem StopsBetween.disable (h : c.StopsBetween span start finish d) :
    c.disable.1.StopsBetween span start finish d :=
  ⟨h.steady.disable, h.passed, h.short, h.heading⟩

/-- Only a move under way ticks into a move under way. -/
theorem Ticked.ramping_of_ramping (h : Ticked c now c' r) (ramping : c'.state = .ramping) :
    c.state = .ramping := by
  cases h with
  | idle => exact ramping
  | atGoal ramping' | pending ramping' | fault ramping' | stepped ramping' | arrived ramping' =>
    exact ramping'

/-- A tick moves the motor at most one step, toward a goal no further than `finish`. -/
theorem StopsBetween.ticked (h : c.StopsBetween span start finish d) (ticked : Ticked c now c' r) :
    c'.StopsBetween span start finish d := by
  have steady := h.steady.ticked ticked
  obtain ⟨goal, -, -, direction⟩ := ticked.keeps
  have heading : c'.state = .ramping → c'.motion.direction = d ∧ 0 ≤ d.sign * (finish - c'.motion.goal) := by
    intro ramping
    rw [goal, direction]
    exact h.heading (ticked.ramping_of_ramping ramping)
  rcases ticked.position_eq_or_step with same | ⟨ramping, away, stepped, -, -⟩
  · exact ⟨steady, same ▸ h.passed, same ▸ h.short, heading⟩
  -- the step is one of the move's, toward its goal and so no further than `finish`
  obtain ⟨towards, bound⟩ := h.heading ramping
  have toGo := h.steady.ahead ramping
  have passed := h.passed
  have short := h.short
  rw [towards] at toGo stepped
  refine ⟨steady, ?_, ?_, heading⟩ <;> rw [stepped]
  all_goals cases d <;> simp only [Direction.sign] at toGo bound passed short ⊢ <;> omega

end Controller

namespace MotorTask

variable {σ : Type} [CoilOutput σ] {now : Nat} {w w' : TaskWorld σ} {span : Nat}
  {start finish : Int} {d : Direction}

theorem Finished.stopsBetween {r : Except DriveError Unit} (h : Finished now w r w')
    (hb : w.task.controller.StopsBetween span start finish d) :
    w'.task.controller.StopsBetween span start finish d := by
  cases h <;> exact hb.disable

theorem Stepped.stopsBetween {r : Except DriveError Nat} (h : Stepped now w r w')
    (hb : w.task.controller.StopsBetween span start finish d) :
    w'.task.controller.StopsBetween span start finish d := by
  cases h with
  | fault ticked | pending ticked | stepped ticked => exact hb.ticked (Controller.tick_ticked ticked)
  | ended ticked _ finished =>
    exact finished.stopsBetween (hb.ticked (Controller.tick_ticked ticked))

/-- With the gate open, a poll that takes no command moves the motor only by ticking its move. -/
theorem Ran.stopsBetween {r : Except DriveError Nat} (h : Ran now w r w')
    (kept : w'.bus.commands = w.bus.commands)
    (hb : w.task.controller.StopsBetween span start finish d) :
    w'.task.controller.StopsBetween span start finish d := by
  cases h with
  | idle | dwellOver | dwell | parked => exact hb
  | move _ stepped => exact stepped.stopsBetween hb
  | start _ head _ stepped =>
    -- a poll that starts a command has taken it off the queue
    have taken := congrArg Bus.commands stepped.bus_eq
    exact absurd (taken.symm.trans kept) (BoundedQueue.tryReceive_ne head)

theorem WoundDown.stopsBetween {r : Except DriveError Nat} (h : WoundDown now w r w')
    (hb : w.task.controller.StopsBetween span start finish d) :
    w'.task.controller.StopsBetween span start finish d := by
  cases h with
  | brake _ _ shortened stepped => exact stepped.stopsBetween (hb.requestStop shortened)
  | braking _ _ stepped => exact stepped.stopsBetween hb
  | dwellCut | still => exact hb

theorem Parked.stopsBetween {r : Except DriveError Nat} (h : Parked w r w')
    (hb : w.task.controller.StopsBetween span start finish d) :
    w'.task.controller.StopsBetween span start finish d := by
  cases h with
  | already => exact hb
  | fault | park => exact hb.disable

/-- A poll that takes no command keeps the motor between the position of the stop request and
its stop point, whatever the gate says. -/
theorem Polled.stopsBetween {r : Except DriveError TaskPoll} (h : Polled now w r w')
    (kept : w'.bus.commands = w.bus.commands)
    (hb : w.task.controller.StopsBetween span start finish d) :
    w'.task.controller.StopsBetween span start finish d := by
  cases h with
  | stopped _ parked => exact parked.stopsBetween hb
  | stopping _ wound => exact wound.stopsBetween hb
  | normal _ _ ran => exact ran.stopsBetween kept hb
  | resumed _ _ ran => exact ran.stopsBetween kept hb.abort

/-- Polls of the motor task that take no command, each against whatever bus the other parties
of the drive left: the task goes from `t` to `t'`. -/
inductive Polls : MotorTask σ → MotorTask σ → Prop
  | refl (t : MotorTask σ) : Polls t t
  | next {t t₁ t' : MotorTask σ} {bus bus' : Bus} {emitted emitted' : List FeedbackEvent}
      {now : Nat} {r : Except DriveError TaskPoll}
      (polled : (poll now).run.run ⟨t, bus, emitted⟩ = .ok (r, ⟨t₁, bus', emitted'⟩))
      (kept : bus'.commands = bus.commands) (rest : Polls t₁ t') : Polls t t'

theorem Polls.stopsBetween {t t' : MotorTask σ} (h : Polls t t') :
    t.controller.StopsBetween span start finish d →
      t'.controller.StopsBetween span start finish d := by
  induction h with
  | refl => exact id
  | next polled kept _ ih => exact fun hb => ih ((poll_polled polled).stopsBetween kept hb)

/-- The motor comes to rest at most the stop distance past the position at which the task first
polled with the gate at `stopping` during its move: from that poll on, through every later poll
that takes no new command, whatever the gate, the motor stands between that position and the
stop distance past it, in the move's direction. -/
theorem Polls.stops_within {w₁ : TaskWorld σ} {r : Except DriveError TaskPoll} {t : MotorTask σ}
    (steady : w.task.controller.Steady span) (stopping : w.bus.gate = .stopping)
    (moving : w.task.state = .moving) (fresh : w.task.stopRequested = false)
    (first : (poll now).run.run w = .ok (r, w₁)) (later : Polls w₁.task t) :
    0 ≤ w.task.controller.motion.direction.sign *
        (t.controller.motion.position - w.task.controller.motion.position) ∧
      w.task.controller.motion.direction.sign *
        (t.controller.motion.position - w.task.controller.motion.position) ≤
          w.task.controller.motion.stopDistance := by
  -- the first poll is the one that asks to stop
  have braked : w₁.task.controller.StopsBetween span w.task.controller.motion.position
      (w.task.controller.motion.position +
        w.task.controller.motion.direction.sign * w.task.controller.motion.stopDistance)
      w.task.controller.motion.direction := by
    have polled := poll_polled first
    cases polled with
    | stopped gate | normal gate | resumed gate =>
      rw [stopping] at gate
      cases gate
    | stopping _ wound =>
      cases wound with
      | brake _ _ shortened stepped =>
        exact stepped.stopsBetween (steady.stopsBetween_requestStop shortened)
      | braking _ again =>
        rw [fresh] at again
        cases again
      | dwellCut dwelling =>
        rw [moving] at dwelling
        cases dwelling
      | still idle =>
        rw [moving] at idle
        simp at idle
  have bound := later.stopsBetween braked
  exact ⟨bound.passed, Direction.le_of_short bound.short⟩

end MotorTask

/-- A stop request on a controller reached in a session cuts its move short toward its stop
point `m` steps on, and the ticks after it take at most `m` steps, each braking, and complete
there. In the drive, for every task it reaches, the motor comes to rest at most the stop margin
and at most the braking distance past the position at which the task first polled with the gate
at `stopping` during its move, through every later poll that takes no new command. -/
theorem stop_request_bounds_braking {σ : Type} [CoilOutput σ] :
    (∀ (c : Controller σ) (span : Nat), c.Reachable span → c.StopsAsAsked) ∧
    ∀ (w w₁ : TaskWorld σ) (now : Nat) (r : Except DriveError TaskPoll) (t : MotorTask σ),
      MotorTask.Reached w.task → w.bus.gate = .stopping → w.task.state = .moving →
      w.task.stopRequested = false → (MotorTask.poll now).run.run w = .ok (r, w₁) →
      MotorTask.Polls w₁.task t →
      0 ≤ w.task.controller.motion.direction.sign *
          (t.controller.motion.position - w.task.controller.motion.position) ∧
        w.task.controller.motion.direction.sign *
          (t.controller.motion.position - w.task.controller.motion.position) ≤
            min w.task.controller.motion.stopMargin w.task.controller.motion.brakingDistance := by
  refine ⟨fun c span reached => reached.stops_as_asked, ?_⟩
  intro w w₁ now r t reached stopping moving fresh first later
  -- the task keeps its controller to its goal, for the span of the move under way
  obtain ⟨span, steady⟩ := reached.steady
  obtain ⟨passed, within⟩ := MotorTask.Polls.stops_within steady stopping moving fresh first later
  have margin := w.task.controller.motion.stopDistance_le_stopMargin
  have braking := w.task.controller.motion.stopDistance_le_brakingDistance
  exact ⟨passed, by omega⟩

set_option maxRecDepth 20000 in
/-- The standard task two steps into the move of `Station.hundredSteps`, reached by polls at 0,
223 and 334 ms, then polled at 433 ms with the gate at `stopping`: its stop distance is 4 steps,
and the motor comes to rest within them. -/
theorem stop_request_bounds_braking_mid_move :
    Controller.hundredStepMove.StopsAsAsked ∧
      ∃ (w w₁ : TaskWorld Recorder) (r : Except DriveError TaskPoll),
        MotorTask.Reached w.task ∧ w.bus.gate = .stopping ∧ w.task.state = .moving ∧
        w.task.stopRequested = false ∧ w.task.controller.motion.position = 2 ∧
        w.task.controller.motion.stopDistance = 4 ∧
        (MotorTask.poll 433).run.run w = .ok (r, w₁) ∧
        ∀ t, MotorTask.Polls w₁.task t →
          0 ≤ w.task.controller.motion.direction.sign *
              (t.controller.motion.position - w.task.controller.motion.position) ∧
            w.task.controller.motion.direction.sign *
              (t.controller.motion.position - w.task.controller.motion.position) ≤
              min w.task.controller.motion.stopMargin w.task.controller.motion.brakingDistance := by
  have started := @MotorTask.Reached.poll _ _ _ _
    { Bus.new commandDepth with commands := ⟨commandDepth, [Station.hundredSteps]⟩ } _ [] _ 0 _
    MotorTask.reached_standard (by decide) rfl
  have first := @MotorTask.Reached.poll _ _ _ _ (Bus.new commandDepth) _ [] _ 223 _
    started (by decide) rfl
  have second := @MotorTask.Reached.poll _ _ _ _ (Bus.new commandDepth) _ [] _ 334 _
    first (by decide) rfl
  refine ⟨stop_request_bounds_braking.1 _ _ Controller.reachable_hundredStepMove,
    ⟨_, { Bus.new commandDepth with gate := .stopping }, []⟩, _, _, second, rfl,
    by decide +kernel, by decide +kernel, by decide +kernel, by decide +kernel, rfl,
    fun t later => ?_⟩
  exact stop_request_bounds_braking.2 _ _ 433 _ t second rfl (by decide +kernel)
    (by decide +kernel) rfl later

end StepperDrive
