import StepperDrive.Command.Intake
import StepperDrive.Bus.Basic
import StepperDrive.Motion.Controller
/-!
# Submitting commands

A submission prepares the template (`Intake.prepare`: clamp, then check the kinematics) and
posts it on the bus's command queue. While an emergency holds the gate, a command is posted
only if the intake is configured to hold commands during an emergency; otherwise it is refused
as halted.

* `trySubmit` posts once and reports a full queue at once.
* `submit` posts with back-off: after a full queue it waits the configured back-off and tries
  again, up to the configured number of retries, and then reports the queue full. Nothing
  drains the queue while it waits, so a full queue stays full and the submission ends in
  `queueFull` after exactly `retryAttempts` waits (`postWithBackoff_full`).
* `handleQuery` applies a query to the template and submits the result with back-off.
-/

namespace StepperDrive

set_option autoImplicit false

namespace Intake

/-- Whether a command may be posted while the gate is in state `gate`. -/
def accepts (i : Intake) (gate : GateState) : Except IntakeError Unit :=
  if gate.isOpen || i.config.holdDuringEmergency then .ok () else .error .halted

/-- Prepares the template and checks it may be posted now. -/
def ready (i : Intake) (bus : Bus) : Intake × Except IntakeError MotorParameters :=
  let (i, r) := i.prepare
  (i, do let p ← r; i.accepts bus.gate; return p)

/-- Prepares the template and posts it once. -/
def trySubmit (i : Intake) (bus : Bus) : Intake × Bus × Except IntakeError MotorParameters :=
  match i.ready bus with
  | (i, .error e) => (i, bus, .error e)
  | (i, .ok p) =>
    match bus.commands.trySend p with
    | some q => (i, { bus with commands := q }, .ok p)
    | none => (i, bus, .error .queueFull)

/-- Posts `p`, waiting `backoff` ms before each of at most `retries` further attempts. -/
def postWithBackoff {δ : Type} [Delay δ] (backoff : Nat) (p : MotorParameters) (bus : Bus) :
    Nat → δ → Bus × δ × Except IntakeError MotorParameters
  | retries, d =>
    match bus.commands.trySend p with
    | some q => ({ bus with commands := q }, d, .ok p)
    | none =>
      match retries with
      | 0 => (bus, d, .error .queueFull)
      | n + 1 => postWithBackoff backoff p bus n (Delay.waitMs d backoff)

/-- A full queue stays full while the poster waits: posting with back-off waits `retries`
times and then reports the queue full. -/
theorem postWithBackoff_full {δ : Type} [Delay δ] (backoff : Nat) (p : MotorParameters)
    (bus : Bus) (h : bus.commands.trySend p = none) (retries : Nat) (d : δ) :
    postWithBackoff backoff p bus retries d =
      (bus, Delay.waitTimes d backoff retries, .error .queueFull) := by
  induction retries generalizing d with
  | zero => simp [postWithBackoff, h, Delay.waitTimes]
  | succ n ih =>
    simp only [postWithBackoff, h]
    exact ih _

/-- Prepares the template and posts it with back-off. -/
def submit {δ : Type} [Delay δ] (i : Intake) (bus : Bus) (d : δ) :
    Intake × Bus × δ × Except IntakeError MotorParameters :=
  match i.ready bus with
  | (i, .error e) => (i, bus, d, .error e)
  | (i, .ok p) =>
    let (bus, d, r) := postWithBackoff i.config.retryBackoffMs p bus i.config.retryAttempts d
    (i, bus, d, r)

/-- Applies a query to the template and submits it with back-off. -/
def handleQuery {δ : Type} [Delay δ] (i : Intake) (query : String) (bus : Bus) (d : δ) :
    Intake × Bus × δ × Except IntakeError MotorParameters :=
  (i.applyQuery query).1.submit bus d

end Intake

end StepperDrive
