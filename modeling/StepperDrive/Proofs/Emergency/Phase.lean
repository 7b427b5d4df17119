import StepperDrive.Emergency.Coordinator
/-!
# The phases of an emergency

The coordinator keeps the gate the image of its phase and blinks the alarm exactly while an
emergency lasts (`Coordinator.Sound`); handling an event, draining the queue of events and a
whole poll keep both. A poll writes only the gate and the queue of events: the commands and
the published status are left as they were. The gate reaches `stopped` in one place only, the
check after the events are handled, and only when the published speed is zero
(`poll_stops_at_rest`).
-/

namespace StepperDrive

namespace AlarmBlinker

@[simp] theorem isActive_start (a : AlarmBlinker) (now : Nat) : (a.start now).isActive = true := rfl

@[simp] theorem isActive_stop (a : AlarmBlinker) : a.stop.isActive = false := rfl

/-- Blinking never starts or stops the alarm. -/
@[simp] theorem isActive_poll (a : AlarmBlinker) (now : Nat) : (a.poll now).1.isActive = a.isActive := by
  unfold poll
  split
  · rfl
  · rename_i last toggled
    split
    · rfl
    · simp [isActive, toggled]

end AlarmBlinker

namespace Coordinator

/-- The gate is the image of the phase, and the alarm is active exactly while an emergency
lasts. -/
structure Sound (c : Coordinator) (bus : Bus) : Prop where
  gate : bus.gate = c.phase.gate
  alarm : c.alarm.isActive = true ↔ c.phase ≠ .normal

variable {c : Coordinator} {bus : Bus} {now : Nat}

/-- The invariant reads only the gate of the bus. -/
theorem Sound.of_gate_eq {bus' : Bus} (h : Sound c bus) (gate : bus'.gate = bus.gate) : Sound c bus' :=
  ⟨gate.trans h.gate, h.alarm⟩

/-- Everything handling an event can do: a press or a trigger starts an emergency, a press or a
reset after braking ends it, and anything else is ignored. -/
theorem handle_cases (c : Coordinator) (bus : Bus) (e : EmergencyEvent) (now : Nat) :
    (c.phase = .normal ∧ e ≠ .reset ∧ c.handle bus e now =
      (⟨.emergencyTriggered, c.alarm.start now⟩, { bus with gate := .stopping }, [.alarm true])) ∨
    (c.phase = .recovering ∧ e ≠ .trigger ∧ c.handle bus e now =
      (⟨.normal, c.alarm.stop⟩, { bus with gate := .normal }, [.alarm false])) ∨
    c.handle bus e now = (c, bus, []) := by
  cases e <;> cases phase : c.phase <;> simp [handle, phase]

theorem handle_bus (e : EmergencyEvent) :
    (c.handle bus e now).2.1 = { bus with gate := (c.handle bus e now).2.1.gate } := by
  rcases handle_cases c bus e now with ⟨-, -, handled⟩ | ⟨-, -, handled⟩ | handled <;> rw [handled]

/-- No event parks the motor: handling one never moves the gate to `stopped`. -/
theorem handle_gate_stopped {e : EmergencyEvent} (h : (c.handle bus e now).2.1.gate = .stopped) :
    bus.gate = .stopped := by
  rcases handle_cases c bus e now with ⟨-, -, handled⟩ | ⟨-, -, handled⟩ | handled <;>
    rw [handled] at h
  · cases h
  · cases h
  · exact h

theorem Sound.handle (h : Sound c bus) (e : EmergencyEvent) :
    Sound (c.handle bus e now).1 (c.handle bus e now).2.1 := by
  rcases handle_cases c bus e now with ⟨-, -, handled⟩ | ⟨-, -, handled⟩ | handled <;> rw [handled]
  · exact ⟨rfl, by simp⟩
  · exact ⟨rfl, by simp⟩
  · exact h

theorem drain_succ_of_receive {fuel : Nat} {out : List FeedbackEvent} {e : EmergencyEvent}
    {q : BoundedQueue EmergencyEvent} (received : bus.emergency.tryReceive = some (e, q)) :
    drain now (fuel + 1) c bus out =
      drain now fuel (c.handle { bus with emergency := q } e now).1
        (c.handle { bus with emergency := q } e now).2.1
        (out ++ (c.handle { bus with emergency := q } e now).2.2) := by
  simp only [drain, received]

theorem drain_of_empty {fuel : Nat} {out : List FeedbackEvent} (empty : bus.emergency.tryReceive = none) :
    drain now fuel c bus out = (c, bus, out) := by
  cases fuel <;> simp only [drain, empty]

/-- Draining the events writes the gate and the queue of events only, and never moves the gate
to `stopped`; it keeps the coordinator sound. -/
theorem drain_frame (now fuel : Nat) (c : Coordinator) (bus : Bus) (out : List FeedbackEvent) :
    (drain now fuel c bus out).2.1.commands = bus.commands ∧
      (drain now fuel c bus out).2.1.status = bus.status ∧
      ((drain now fuel c bus out).2.1.gate = .stopped → bus.gate = .stopped) := by
  induction fuel generalizing c bus out with
  | zero => exact ⟨rfl, rfl, id⟩
  | succ fuel ih =>
    cases received : bus.emergency.tryReceive with
    | none =>
      rw [drain_of_empty received]
      exact ⟨rfl, rfl, id⟩
    | some eq =>
      obtain ⟨e, q⟩ := eq
      rw [drain_succ_of_receive received]
      obtain ⟨commands, status, stopped⟩ := ih (c.handle { bus with emergency := q } e now).1
        (c.handle { bus with emergency := q } e now).2.1 (out ++ (c.handle { bus with emergency := q } e now).2.2)
      have handled := @handle_bus c { bus with emergency := q } now e
      refine ⟨?_, ?_, fun parked => ?_⟩
      · rw [commands, handled]
      · rw [status, handled]
      · -- taking the event from its queue leaves the gate where it was
        have drained : ({ bus with emergency := q } : Bus).gate = .stopped :=
          handle_gate_stopped (stopped parked)
        exact drained

theorem Sound.drain (fuel : Nat) {out : List FeedbackEvent} (h : Sound c bus) :
    Sound (drain now fuel c bus out).1 (drain now fuel c bus out).2.1 := by
  induction fuel generalizing c bus out with
  | zero => exact h
  | succ fuel ih =>
    cases received : bus.emergency.tryReceive with
    | none =>
      rw [drain_of_empty received]
      exact h
    | some eq =>
      obtain ⟨e, q⟩ := eq
      rw [drain_succ_of_receive received]
      -- taking the event from its queue leaves the gate where it was
      have taken : Sound c { bus with emergency := q } := h.of_gate_eq rfl
      exact ih (taken.handle e)

/-- The coordinator, bus and alarm levels after a poll has handled the pending events. -/
def drained (c : Coordinator) (bus : Bus) (now : Nat) : Coordinator × Bus × List FeedbackEvent :=
  drain now (bus.emergency.size + 1) c bus []

/-- Whether the motor is found at rest while braking: the check a poll makes after the events. -/
def restsBraking (c : Coordinator) (bus : Bus) : Bool :=
  c.phase = .emergencyTriggered && Binary.eq bus.status.speed 0

/-- The coordinator and bus after the events and the check for the motor at rest: a motor at
rest while braking moves the phase on to recovery and parks the gate. -/
def checked (c : Coordinator) (bus : Bus) (now : Nat) : Coordinator × Bus :=
  if restsBraking (c.drained bus now).1 (c.drained bus now).2.1 then
    ({ (c.drained bus now).1 with phase := .recovering }, { (c.drained bus now).2.1 with gate := .stopped })
  else ((c.drained bus now).1, (c.drained bus now).2.1)

/-- A poll is the drain and the check, followed by a blink of the alarm. -/
theorem poll_checked :
    (c.poll bus now).1 = { (c.checked bus now).1 with alarm := ((c.checked bus now).1.alarm.poll now).1 } ∧
      (c.poll bus now).2.1 = (c.checked bus now).2 := by
  unfold poll checked restsBraking drained
  split
  rename_i handled
  rw [handled]
  dsimp only
  split <;> split <;> exact ⟨rfl, rfl⟩

theorem Sound.checked (h : Sound c bus) : Sound (c.checked bus now).1 (c.checked bus now).2 := by
  have drained : Sound (c.drained bus now).1 (c.drained bus now).2.1 := h.drain _
  unfold Coordinator.checked
  split
  · -- the motor rests while braking: the phase moves on to recovery with the gate parked
    rename_i resting
    have braking : (c.drained bus now).1.phase = .emergencyTriggered := by
      simp only [restsBraking, Bool.and_eq_true, decide_eq_true_eq] at resting
      exact resting.1
    refine ⟨rfl, ?_⟩
    rw [drained.alarm, braking]
    simp
  · exact drained

theorem Sound.poll (h : Sound c bus) : Sound (c.poll bus now).1 (c.poll bus now).2.1 := by
  have checked : Sound (c.checked bus now).1 (c.checked bus now).2 := h.checked
  rw [poll_checked.1, poll_checked.2]
  exact ⟨checked.gate, by simpa using checked.alarm⟩

/-- A poll writes neither the commands nor the published status. -/
theorem poll_frame :
    (c.poll bus now).2.1.commands = bus.commands ∧ (c.poll bus now).2.1.status = bus.status := by
  obtain ⟨commands, status, -⟩ := drain_frame now (bus.emergency.size + 1) c bus []
  rw [poll_checked.2]
  unfold checked
  split
  · exact ⟨commands, status⟩
  · exact ⟨commands, status⟩

/-- The gate reaches `stopped` only at a poll that finds the published speed zero. -/
theorem poll_stops_at_rest (stopped : (c.poll bus now).2.1.gate = .stopped)
    (running : bus.gate ≠ .stopped) : Binary.eq bus.status.speed 0 = true := by
  obtain ⟨-, status, parked⟩ := drain_frame now (bus.emergency.size + 1) c bus []
  rw [poll_checked.2] at stopped
  unfold checked at stopped
  split at stopped
  · rename_i resting
    simp only [restsBraking, Bool.and_eq_true, decide_eq_true_eq] at resting
    rw [← status]
    exact resting.2
  · exact absurd (parked stopped) running

end Coordinator

end StepperDrive
