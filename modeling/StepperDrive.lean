import StepperDrive.Binary.Format
import StepperDrive.Binary.Arith
import StepperDrive.Binary.Convert
import StepperDrive.Decimal.Shortest
import StepperDrive.Decimal.Layout
import StepperDrive.Decimal.Read
import StepperDrive.Word
import StepperDrive.Motion.StepMode
import StepperDrive.Coil.Pattern
import StepperDrive.Motion.Sequencer
import StepperDrive.Config.Envelope
import StepperDrive.Config.System
import StepperDrive.Command.Parameters
import StepperDrive.Error
import StepperDrive.Coil.Output
import StepperDrive.Motion.Profile
import StepperDrive.Motion.Controller
import StepperDrive.Motion.Builder
import StepperDrive.Motion.Operation
import StepperDrive.Toml.Node
import StepperDrive.Toml.Lexeme
import StepperDrive.Toml.Document
import StepperDrive.Config.Read
import StepperDrive.Config.Validate
import StepperDrive.Config.Load
import StepperDrive.Command.Intake
import StepperDrive.Bus.Queue
import StepperDrive.Bus.Basic
import StepperDrive.Feedback.Panel
import StepperDrive.Emergency.Button
import StepperDrive.Emergency.Coordinator
import StepperDrive.Task.Motor
import StepperDrive.Command.Submission
import StepperDrive.Station.Basic
import StepperDrive.Station.Operation
import StepperDrive.Demo.SingleMove
import StepperDrive.Main
import StepperDrive.Proofs.Binary.Order
import StepperDrive.Proofs.Binary.Rounding
import StepperDrive.Proofs.Binary.Operations
import StepperDrive.Proofs.Motion.Spec
import StepperDrive.Proofs.Motion.Steady
import StepperDrive.Proofs.Motion.Stop
import StepperDrive.Proofs.Motion.Plan
import StepperDrive.Proofs.Motion.Ramp
import StepperDrive.Proofs.Task.Spec
import StepperDrive.Proofs.Task.Start
import StepperDrive.Proofs.Task.Poll
import StepperDrive.Proofs.Emergency.Phase
import StepperDrive.Proofs.Station.Parts
import StepperDrive.Proofs.Station.Pipeline
import StepperDrive.Proofs.Station.Episode
import StepperDrive.Proofs.Station.Backoff
import StepperDrive.Proofs.Station.Progress
import StepperDrive.Proofs.Task.Brake
import StepperDrive.Proofs.Coil.Pins
import StepperDrive.Proofs.Motion.Phase
import StepperDrive.Proofs.Motion.Timing
import StepperDrive.Proofs.Motion.Run
import StepperDrive.Proofs.Emergency.Debounce
import StepperDrive.Proofs.Command.Clamp
import StepperDrive.Proofs.Binary.Error
import StepperDrive.Proofs.Motion.Reach
import StepperDrive.Proofs.Text.Cut
import StepperDrive.Proofs.Task.Sleep
import StepperDrive.Proofs.Binary.Nearest
import StepperDrive.Proofs.Decimal.Shortest
import StepperDrive.Proofs.Decimal.Readback
import StepperDrive.Proofs.Command.Query
