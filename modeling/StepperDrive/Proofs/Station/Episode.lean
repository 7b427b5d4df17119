import StepperDrive.Proofs.Station.Pipeline
/-!
# An emergency the motor task does not see

The motor task learns of an emergency only by reading the gate when it is polled, and nothing
else in the drive touches it: the coordinator, the intake and the button write the bus and
their own state. The coordinator can pass through a whole episode, from `normal` through
`stopping` and `stopped` back to `normal`, between two polls of the motor task: it parks the
gate at once when the published speed is zero, as it is while a new move waits for its first
step. The task then never sees the episode, and its next poll steps the move on.

`Unpolled.poll_continues_move` says so for every interleaving: across requests none of which
polls the motor task the task is left exactly as it was, and the first poll after them with the
gate open is one tick of the move that was under way. `unobserved_episode_steps` is such a run:
a move of 100 steps at 10 steps/s, an emergency pressed and reset around it, and a step of the
old move after the gate is open again.
-/

namespace StepperDrive

/-- Whether a request polls the motor task. -/
def StationOp.pollsTask : StationOp → Bool
  | .pollTask _ => true
  | _ => false

namespace Station

variable {σ : Type} [CoilOutput σ] {s s' : Station σ}

/-- The station after requests, or the station itself when they overflow. -/
def afterAll (s : Station σ) (ops : List StationOp) : Station σ :=
  match s.applyAll ops with
  | .ok (final, _) => final
  | .error _ => s

/-- `s'` follows `s` by requests of the running drive none of which polls the motor task. -/
inductive Unpolled : Station σ → Station σ → Prop
  | refl (s : Station σ) : Unpolled s s
  | step {s s₁ s' : Station σ} {op : StationOp} {reply : StationReply}
      (inPipeline : op.inPipeline = true) (other : op.pollsTask = false)
      (applied : s.apply op = .ok (s₁, reply)) (rest : Unpolled s₁ s') : Unpolled s s'

theorem Applied.task_eq {op : StationOp} {reply : StationReply} (h : Applied s op reply s')
    (other : op.pollsTask = false) : s'.task = s.task := by
  cases h with
  | quiet task => exact task
  | coordinated _ task => exact task
  | polled polled =>
    rw [polled] at other
    cases other

/-- Requests that do not poll the motor task leave it as it was. -/
theorem Unpolled.task_eq (h : Unpolled s s') : s'.task = s.task := by
  induction h with
  | refl => rfl
  | step inPipeline other applied _ ih =>
    rw [ih, (apply_applied inPipeline applied).task_eq other]

/-- A list of requests, none of them a poll of the motor task, that runs without overflow. -/
theorem Unpolled.of_applyAll {ops : List StationOp} {replies : List (StationReply × Station σ)}
    (quiet : ops.all (fun op => op.inPipeline && !op.pollsTask) = true)
    (h : s.applyAll ops = .ok (s', replies)) : Unpolled s s' := by
  induction ops generalizing s replies with
  | nil =>
    cases h
    exact .refl _
  | cons op ops ih =>
    simp only [List.all_cons, Bool.and_eq_true, Bool.not_eq_true'] at quiet
    obtain ⟨⟨inPipeline, other⟩, rest⟩ := quiet
    obtain ⟨⟨s₁, reply⟩, applied, continued⟩ := bind_eq_ok.mp h
    obtain ⟨⟨final, later⟩, ran, answered⟩ := bind_eq_ok.mp continued
    obtain ⟨rfl, -⟩ := Prod.mk.inj (pure_eq_ok.mp answered)
    exact .step inPipeline other applied (ih rest ran)

theorem applyAll_afterAll {ops : List StationOp} (ok : (s.applyAll ops).isOk = true) :
    ∃ replies, s.applyAll ops = .ok (s.afterAll ops, replies) := by
  unfold afterAll
  split
  · rename_i final replies ran
    exact ⟨replies, ran⟩
  · rename_i o ran
    rw [ran] at ok
    cases ok

/-- An episode the motor task does not see leaves its move under way: across requests that do
not poll the motor task the task stays as it was, and once the gate is open its next poll is
one tick of the move it had. -/
theorem Unpolled.poll_continues_move (h : Unpolled s s') (moving : s.task.state = .moving)
    (normal : s'.bus.gate = .normal) :
    s'.task = s.task ∧ ∀ now s'' reply, s'.apply (.pollTask now) = .ok (s'', reply) →
      ∃ r w', MotorTask.Stepped now ⟨s.task, s'.bus, []⟩ r w' ∧ s''.task = w'.task := by
  have task := h.task_eq
  refine ⟨task, ?_⟩
  intro now s'' reply polled
  obtain ⟨r, w', step, task', -, -⟩ := apply_pollTask polled
  obtain ⟨r₀, stepped⟩ := step.stepped_of_moving normal (by rw [task]; exact moving)
  rw [task] at stepped
  exact ⟨r₀, w', stepped, task'⟩

/-- The standard station moving: `hundredSteps` taken at 0 ms, its first step due later. -/
def movingStation : Station Recorder :=
  standardStation.afterAll [.setTemplate hundredSteps, .trySubmit, .pollTask 0]

/-- An emergency pressed and reset, with a poll of the coordinator after each. -/
def unseenEpisode : List StationOp :=
  [.postEmergency .pressed, .pollCoordinator 1, .postEmergency .reset, .pollCoordinator 2]

set_option maxRecDepth 20000 in
theorem poll_continues_move_unseen :
    Unpolled movingStation (movingStation.afterAll unseenEpisode) ∧
    movingStation.task.state = .moving ∧
    (movingStation.afterAll unseenEpisode).bus.gate = .normal ∧
    ((movingStation.afterAll unseenEpisode).task = movingStation.task ∧
      ∀ now s'' reply,
        (movingStation.afterAll unseenEpisode).apply (.pollTask now) = .ok (s'', reply) →
        ∃ r w', MotorTask.Stepped now
          ⟨movingStation.task, (movingStation.afterAll unseenEpisode).bus, []⟩ r w' ∧
          s''.task = w'.task) := by
  obtain ⟨replies, ran⟩ : ∃ replies, movingStation.applyAll unseenEpisode =
      .ok (movingStation.afterAll unseenEpisode, replies) := applyAll_afterAll (by decide)
  have unpolled := Unpolled.of_applyAll (by decide) ran
  exact ⟨unpolled, by decide, by decide,
    Unpolled.poll_continues_move unpolled (by decide) (by decide)⟩

set_option maxRecDepth 20000 in
/-- Along the run the gate goes to `stopped` and back while the motor task is moving and not
polled; the poll at 300 ms then writes a step of the old move. Each entry is the gate, the
task's state and the coil steps written after one request. -/
theorem unobserved_episode_steps :
    ((standardStation.applyAll
        ([.setTemplate hundredSteps, .trySubmit, .pollTask 0] ++ unseenEpisode ++ [.pollTask 300])).map
      fun run => run.2.map fun step =>
        (step.2.bus.gate, step.2.task.state, step.2.task.controller.coils.steps)).toOption =
    some [(.normal, .awaitingCommand, 0), (.normal, .awaitingCommand, 0), (.normal, .moving, 0),
      (.normal, .moving, 0), (.stopped, .moving, 0), (.stopped, .moving, 0), (.normal, .moving, 0),
      (.normal, .moving, 1)] := by
  decide

end Station

end StepperDrive
