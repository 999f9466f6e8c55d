import DmOpenarm.Library.Effect
import DmOpenarm.Library.FirstWins
import DmOpenarm.Library.Latest
import DmOpenarm.Library.Quantise
import DmOpenarm.Library.Readings
import DmOpenarm.Library.Runs
import DmOpenarm.YamlLoader
import DmOpenarm.Damiao
import DmOpenarm.Registry
import DmOpenarm.Backend
import DmOpenarm.Reception
import DmOpenarm.Traffic
import DmOpenarm.Operations
import DmOpenarm.CommandTable
import DmOpenarm.Dispatch
import DmOpenarm.MitFrame
import DmOpenarm.Shutdown
import DmOpenarm.Feedback
import DmOpenarm.Library.SharedCell
import DmOpenarm.Snapshots
import DmOpenarm.Session
import DmOpenarm.SessionMoves
import DmOpenarm.Lifecycle
import DmOpenarm.SessionLog
import DmOpenarm.Releasing
import DmOpenarm.Disabling
import DmOpenarm.Failures
import DmOpenarm.Homing
import DmOpenarm.HomeCheck
import DmOpenarm.CommandCalls
import DmOpenarm.DictUpdates
import DmOpenarm.WholeUpdates
import DmOpenarm.Faults
import DmOpenarm.Stopping
import DmOpenarm.ZeroIds
import DmOpenarm.Addressing
import DmOpenarm.Ramping
import DmOpenarm.FifoLines
import DmOpenarm.LineEffects
import DmOpenarm.Arriving
import DmOpenarm.ControlLoop
import DmOpenarm.Numbers
import DmOpenarm.CommandTexts
import DmOpenarm.Batches
import DmOpenarm.Holding
import DmOpenarm.Zeroing
import DmOpenarm.Starting
import DmOpenarm.ExampleExits
import DmOpenarm.Examples
import DmOpenarm.Library.Output
import DmOpenarm.Records
import DmOpenarm.BatchTraffic
import DmOpenarm.ExampleTraffic
import DmOpenarm.HeldPose
import DmOpenarm.SentTargets
import DmOpenarm.WireRamp
import DmOpenarm.ZeroTraffic
import DmOpenarm.Completion
import DmOpenarm.Library.Progress
import DmOpenarm.SessionWire
import DmOpenarm.Library.Speed
import DmOpenarm.RampTiming
import DmOpenarm.Lifetime
import DmOpenarm.Library.Phases
import DmOpenarm.LoopProtocol
import DmOpenarm.EnabledMotors
import DmOpenarm.AskedTargets
import DmOpenarm.RegisterAccess
