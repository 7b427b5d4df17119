import Mathlib.Logic.Relation
import StepperDrive.Proofs.Station.Episode
/-!
# Submitting with back-off while the others run

A submission with back-off reads the gate once, when the command arrives, and then tries to
post it; after a full queue it waits its back-off and tries again. While it waits, the other
parties of the station run: the motor task may take a command off the queue and the
coordinator may close the gate.

`Posting` is the submission between two of its steps: `Posting.start` is its arrival and
`Posting.attempt` one try. Run with nothing in between they are exactly `Intake.submit`
(`Intake.submit_eq_attempts`). A `Station.Step` is a try of the submission or one request of
another party (`StationOp.byOthers`), and `Station.Interleaved` any run of such steps.

The gate is read on arrival only. On an intake that drops commands during an emergency, a
command that arrives while the gate is closed is refused and never posted, and a step that adds
to the queue needs the gate to have been open when the command arrived
(`Station.backoff_queues_only_if_open_on_arrival`); but a command that arrived while the gate
was open may be posted after an emergency has closed it
(`Station.backoff_queues_after_gate_closed`).
-/

namespace StepperDrive

set_option autoImplicit false

/-- A submission with back-off between two of its steps: about to try posting `params` with
`retries` retries left, or finished with its answer. -/
inductive Posting where
  | trying (params : MotorParameters) (retries : Nat)
  | finished (answer : Except IntakeError MotorParameters)
  deriving DecidableEq, Repr

namespace Posting

/-- The arrival of the command: the template is prepared and the gate read, once. -/
def start (i : Intake) (bus : Bus) : Intake × Posting :=
  match i.ready bus with
  | (i, .error e) => (i, .finished (.error e))
  | (i, .ok p) => (i, .trying p i.config.retryAttempts)

/-- One try at posting. On a full queue the submission waits its back-off before the next
try, or gives up when no retries are left. -/
def attempt (bus : Bus) : Posting → Bus × Posting
  | .trying p n =>
    match bus.commands.trySend p with
    | some q => ({ bus with commands := q }, .finished (.ok p))
    | none =>
      match n with
      | 0 => (bus, .finished (.error .queueFull))
      | k + 1 => (bus, .trying p k)
  | .finished r => (bus, .finished r)

/-- Whether the next try puts the command on the queue. -/
def posts (bus : Bus) : Posting → Bool
  | .trying p _ => (bus.commands.trySend p).isSome
  | .finished _ => false

/-- `n` tries, one after another, with nothing in between. -/
def attempts : Nat → Bus → Posting → Bus × Posting
  | 0, bus, posting => (bus, posting)
  | n + 1, bus, posting => attempts n (posting.attempt bus).1 (posting.attempt bus).2

variable {i : Intake} {bus : Bus} {p : MotorParameters} {n : Nat}

/-- A submission that starts trying tries the command that was ready on arrival. -/
theorem ready_of_start_trying (h : (start i bus).2 = trying p n) : (i.ready bus).2 = .ok p := by
  unfold start at h
  rcases readied : i.ready bus with ⟨i', _ | p'⟩
  · rw [readied] at h
    cases h
  · rw [readied] at h
    cases h
    rfl

/-- A command refused on arrival finishes the submission with that refusal. -/
theorem start_of_refused {e : IntakeError} (h : (i.ready bus).2 = .error e) :
    (start i bus).2 = finished (.error e) := by
  unfold start
  rcases readied : i.ready bus with ⟨i', r⟩
  rw [readied] at h
  simp only at h
  rw [h]

theorem attempt_of_full (full : bus.commands.trySend p = none) :
    (trying p (n + 1)).attempt bus = (bus, trying p n) := by
  simp [attempt, full]

/-- A try that does not post leaves the bus as it was. -/
theorem attempt_bus_of_posts_false {posting : Posting} (h : posting.posts bus = false) :
    (posting.attempt bus).1 = bus := by
  cases posting with
  | finished r => rfl
  | trying p n =>
    have full : bus.commands.trySend p = none := by simpa [posts] using h
    cases n <;> simp [attempt, full]

/-- A try leaves a submission trying the same command only from that command, with one retry
more before. -/
theorem attempt_trying {posting : Posting} (h : (posting.attempt bus).2 = trying p n) :
    posting = trying p (n + 1) := by
  cases posting with
  | finished r => cases h
  | trying p' m =>
    simp only [attempt] at h
    split at h
    · cases h
    · split at h
      · cases h
      · cases h
        rfl

theorem attempts_finished (n : Nat) (bus : Bus) (r : Except IntakeError MotorParameters) :
    attempts n bus (finished r) = (bus, finished r) := by
  induction n with
  | zero => rfl
  | succ n ih => exact ih

/-- Alone, the tries of a submission with `n` retries left are `postWithBackoff`. -/
theorem attempts_trying {δ : Type} [Delay δ] (backoff : Nat) (p : MotorParameters) (n : Nat)
    (bus : Bus) (d : δ) :
    attempts (n + 1) bus (trying p n) =
      ((Intake.postWithBackoff backoff p bus n d).1,
        finished (Intake.postWithBackoff backoff p bus n d).2.2) := by
  induction n generalizing d with
  | zero =>
    cases sent : bus.commands.trySend p <;> simp [attempts, attempt, Intake.postWithBackoff, sent]
  | succ n ih =>
    cases sent : bus.commands.trySend p with
    | some q =>
      simp only [attempts, attempt, sent, Intake.postWithBackoff]
      exact attempts_finished _ _ _
    | none =>
      have waited : Intake.postWithBackoff backoff p bus (n + 1) d =
          Intake.postWithBackoff backoff p bus n (Delay.waitMs d backoff) := by
        rw [Intake.postWithBackoff, sent]
      rw [attempts, attempt_of_full sent, waited]
      exact ih _

end Posting

namespace Intake

variable (i : Intake) (bus : Bus)

theorem prepare_config : i.prepare.1.config = i.config := by
  unfold prepare
  dsimp only
  split <;> rfl

theorem ready_config : (i.ready bus).1.config = i.config := prepare_config i

/-- A command is ready only when the gate is open or the intake holds commands during an
emergency. -/
theorem ready_accepts {p : MotorParameters} (h : (i.ready bus).2 = .ok p) :
    (bus.gate.isOpen || i.config.holdDuringEmergency) = true := by
  rw [← ready_config i bus]
  unfold ready at h ⊢
  generalize i.prepare = out at h ⊢
  obtain ⟨i', r⟩ := out
  cases r with
  | error e => cases h
  | ok p' =>
    by_contra closed
    simp only [accepts, closed] at h
    cases h

/-- On an intake that drops commands during an emergency, a command that finds the gate closed
is refused: as halted, or by the preparation. -/
theorem ready_of_closed (dropping : i.config.holdDuringEmergency = false)
    (closed : bus.gate ≠ .normal) :
    ∃ e, (i.ready bus).2 = .error e ∧ (e = .halted ∨ i.prepare.2 = .error e) := by
  have config := ready_config i bus
  unfold ready at config ⊢
  generalize i.prepare = out at config ⊢
  obtain ⟨i', r⟩ := out
  cases r with
  | error e => exact ⟨e, rfl, .inr rfl⟩
  | ok p =>
    have shut : (bus.gate.isOpen || i'.config.holdDuringEmergency) = false := by
      simp only at config
      simp [GateState.isOpen, closed, config, dropping]
    refine ⟨.halted, ?_, .inl rfl⟩
    simp only [accepts, shut]
    rfl

variable {δ : Type} [Delay δ]

/-- Arrival followed by all the tries, with nothing in between, is the submission with
back-off. -/
theorem submit_eq_attempts (d : δ) :
    (i.submit bus d).1 = (Posting.start i bus).1 ∧
      Posting.attempts (i.config.retryAttempts + 1) bus (Posting.start i bus).2 =
        ((i.submit bus d).2.1, .finished (i.submit bus d).2.2.2) := by
  have config := ready_config i bus
  unfold submit Posting.start
  rcases readied : i.ready bus with ⟨i', _ | p⟩
  · exact ⟨rfl, Posting.attempts_finished _ _ _⟩
  · -- the tries are counted with the configuration of the prepared intake, which is `i`'s
    rw [readied] at config
    refine ⟨rfl, ?_⟩
    simp only at config ⊢
    rw [config]
    exact Posting.attempts_trying _ _ _ _ _

end Intake

/-- The requests of the parties that run while a submission waits: the motor task, the
coordinator, the button, emergency events, the panel and feedback. -/
def StationOp.byOthers : StationOp → Bool
  | .pollTask _ | .pollCoordinator _ | .pollButton _ | .postEmergency _ | .servicePanel _
  | .receiveFeedback | .inspect => true
  | _ => false

theorem StationOp.inPipeline_of_byOthers {op : StationOp} (h : op.byOthers = true) :
    op.inPipeline = true := by
  cases op <;> first | rfl | cases h

theorem StationOp.accepted_of_byOthers {op : StationOp} (h : op.byOthers = true)
    (reply : StationReply) : op.accepted reply = [] := by
  cases op <;> first | rfl | cases h

namespace Station

variable {σ : Type}

/-- The station when a submission with back-off arrives, and the submission. -/
def beginPosting (s : Station σ) : Station σ × Posting :=
  ({ s with intake := (Posting.start s.intake s.bus).1 }, (Posting.start s.intake s.bus).2)

variable [CoilOutput σ]

/-- One step while a submission waits: a try of the submission on the station's bus, or one
request of another party. -/
inductive Step : Station σ × Posting → Station σ × Posting → Prop
  | attempt (s : Station σ) (posting : Posting) :
      Step (s, posting) ({ s with bus := (posting.attempt s.bus).1 }, (posting.attempt s.bus).2)
  | other {s s' : Station σ} {reply : StationReply} (posting : Posting) (op : StationOp)
      (byOthers : op.byOthers = true) (applied : s.apply op = .ok (s', reply)) :
      Step (s, posting) (s', posting)

/-- A submission's tries interleaved with the requests of the others. -/
abbrev Interleaved : Station σ × Posting → Station σ × Posting → Prop :=
  Relation.ReflTransGen Step

/-- The others only take commands off the queue: what is left is a suffix of what was there. -/
theorem byOthers_commands_suffix {op : StationOp} {s s' : Station σ} {reply : StationReply}
    (byOthers : op.byOthers = true) (h : s.apply op = .ok (s', reply)) :
    s'.bus.commands.items <:+ s.bus.commands.items := by
  cases apply_applied (StationOp.inPipeline_of_byOthers byOthers) h with
  | quiet _ _ _ _ queued =>
    rw [queued, StationOp.accepted_of_byOthers byOthers, List.append_nil]
  | coordinated _ _ _ bus =>
    rw [bus, (Coordinator.poll_frame).1]
  | polled _ step _ _ bus =>
    rw [bus]
    rcases MotorTask.Polled.commands step with same | ⟨-, -, p, taken⟩
    · rw [same]
    · rw [BoundedQueue.tryReceive_items taken]
      exact List.suffix_cons _ _

/-- A step that adds to the queue is a try that posts. -/
theorem Step.posts_of_added {x y : Station σ × Posting} (h : Step x y)
    (added : ¬ y.1.bus.commands.items <:+ x.1.bus.commands.items) : x.2.posts x.1.bus = true := by
  cases h with
  | attempt s posting =>
    by_contra idle
    apply added
    rw [Posting.attempt_bus_of_posts_false (Bool.eq_false_iff.mpr idle)]
  | other posting op byOthers applied =>
    exact absurd (byOthers_commands_suffix byOthers applied) added

theorem Step.finished {x y : Station σ × Posting} {r : Except IntakeError MotorParameters}
    (h : Step x y) (done : x.2 = .finished r) : y.2 = .finished r := by
  cases h with
  | attempt s posting =>
    simp only at done ⊢
    rw [done]
    rfl
  | other posting op byOthers applied => exact done

theorem Step.trying {x y : Station σ × Posting} {p : MotorParameters} {n : Nat}
    (h : Step x y) (trying : y.2 = .trying p n) : ∃ m, x.2 = .trying p m := by
  cases h with
  | attempt s posting => exact ⟨n + 1, Posting.attempt_trying trying⟩
  | other posting op byOthers applied => exact ⟨n, trying⟩

/-- A finished submission stays finished. -/
theorem Interleaved.finished {x y : Station σ × Posting} {r : Except IntakeError MotorParameters}
    (h : Interleaved x y) (done : x.2 = .finished r) : y.2 = .finished r := by
  induction h with
  | refl => exact done
  | tail _ step ih => exact step.finished ih

/-- A submission that is still trying tries the command it started with. -/
theorem Interleaved.trying {x y : Station σ × Posting} {p : MotorParameters} {n : Nat}
    (h : Interleaved x y) (trying : y.2 = .trying p n) : ∃ m, x.2 = .trying p m := by
  induction h generalizing n with
  | refl => exact ⟨n, trying⟩
  | tail _ step ih =>
    obtain ⟨m, before⟩ := step.trying trying
    exact ih before

/-- On an intake that drops commands during an emergency, the gate read on arrival decides a
submission with back-off, whatever the others do while it waits: a step adds to the queue
only if the gate was open when the command arrived, and a command that found it closed is
refused, as halted or by the preparation. -/
theorem backoff_queues_only_if_open_on_arrival (s₀ : Station σ)
    (dropping : s₀.intake.config.holdDuringEmergency = false) :
    (∀ x y, Interleaved (beginPosting s₀) x → Step x y →
      ¬ y.1.bus.commands.items <:+ x.1.bus.commands.items → s₀.bus.gate = .normal) ∧
    (s₀.bus.gate ≠ .normal → ∀ x, Interleaved (beginPosting s₀) x →
      ∃ e, x.2 = .finished (.error e) ∧ (e = .halted ∨ s₀.intake.prepare.2 = .error e)) := by
  refine ⟨fun x y run step added => ?_, fun closed x run => ?_⟩
  · -- only a submission still trying posts, and it tries the command that was ready on arrival
    have posted := step.posts_of_added added
    obtain ⟨s, posting⟩ := x
    cases posting with
    | finished r => cases posted
    | trying p n =>
      obtain ⟨m, started⟩ := run.trying rfl
      have open_ := s₀.intake.ready_accepts s₀.bus (Posting.ready_of_start_trying started)
      simpa [GateState.isOpen, dropping] using open_
  · obtain ⟨e, refused, why⟩ := s₀.intake.ready_of_closed s₀.bus dropping closed
    exact ⟨e, run.finished (Posting.start_of_refused refused), why⟩

/-- A standard station, with room for one command, that drops commands during an emergency;
one command waits on its queue. -/
def droppingStation : Station Recorder :=
  let config :=
    { SystemConfig.standard with
      intake := { IntakeConfig.standard with holdDuringEmergency := false } }
  (Station.new config config.envelope 1 Recorder.empty defaultFrameMs .panel).afterAll
    [.setTemplate hundredSteps, .trySubmit]

theorem dropping_queues_only_if_open_on_arrival :
    droppingStation.intake.config.holdDuringEmergency = false ∧
    (∀ x y, Interleaved (beginPosting droppingStation) x → Step x y →
      ¬ y.1.bus.commands.items <:+ x.1.bus.commands.items →
        droppingStation.bus.gate = .normal) ∧
    (droppingStation.bus.gate ≠ .normal →
      ∀ x, Interleaved (beginPosting droppingStation) x →
      ∃ e, x.2 = .finished (.error e) ∧
        (e = .halted ∨ droppingStation.intake.prepare.2 = .error e)) :=
  ⟨rfl, backoff_queues_only_if_open_on_arrival droppingStation rfl⟩

set_option maxRecDepth 20000 in
/-- A second command arrives at the dropping station while the gate is open and finds the queue
full. While it waits, the motor task takes the first command, an emergency is posted and the
coordinator closes the gate; the next try then queues the command. -/
theorem backoff_queues_after_gate_closed :
    droppingStation.intake.config.holdDuringEmergency = false ∧
    droppingStation.bus.gate = .normal ∧
    ∃ x y, Interleaved (beginPosting droppingStation) x ∧ Step x y ∧ x.1.bus.gate ≠ .normal ∧
      y.1.bus.commands.items = x.1.bus.commands.items ++ [hundredSteps] :=
  ⟨rfl, rfl, _, _,
    .head (.attempt _ _) (.head (.other _ (.pollTask 0) rfl rfl)
      (.head (.other _ (.postEmergency .pressed) rfl rfl)
        (.single (.other _ (.pollCoordinator 1) rfl rfl)))),
    .attempt _ _, by decide, rfl⟩

end Station

end StepperDrive
