import DrsSync.Config
import DrsSync.Math.LastMax
import DrsSync.Math.Midpoint
import DrsSync.Math.Run
import DrsSync.Math.RatedClock
import DrsSync.Math.Saturation
import DrsSync.Math.Seqlock
import DrsSync.Math.Word
import DrsSync.Model.VClock
import DrsSync.Model.PiCtrl
import DrsSync.Model.MinDelay
import DrsSync.Model.Election
import DrsSync.Model.Calibrate
import DrsSync.Model.PulseEngine
import DrsSync.Model.Telemetry
import DrsSync.Model.Node
import DrsSync.Model.StateMachine
import DrsSync.Model.Daemon
import DrsSync.Model.Frame
import DrsSync.Model.Effect
import DrsSync.Clock.Continuity
import DrsSync.Clock.SeqlockReaders
import DrsSync.Discipline.ControllerRange
import DrsSync.Discipline.AntiWindup
import DrsSync.Discipline.CheckedUpdate
import DrsSync.Discipline.Sample
import DrsSync.Discipline.Overflow
import DrsSync.Discipline.PhaseStep
import DrsSync.Cluster.LeaderChoice
import DrsSync.Cluster.DualLeader
import DrsSync.Discipline.Reset
import DrsSync.Cluster.LeaderTimeout
import DrsSync.Cluster.SyncExchange
import DrsSync.Cluster.TermOrder
import DrsSync.Clock.ClockFrame
import DrsSync.Clock.SlewBand
import DrsSync.Cluster.Bully
import DrsSync.Cluster.LockModes
import DrsSync.Cluster.LockedLeader
import DrsSync.Cluster.HealthyLeader
import DrsSync.Cluster.StaleAnnounce
import DrsSync.Discipline.DelayWindow
import DrsSync.Clock.InverseMapping
import DrsSync.Math.ByteFields
import DrsSync.Math.Crc
import DrsSync.Model.Crc32
import DrsSync.Model.Proto
import DrsSync.Pulse.HealthPin
import DrsSync.Wire.Codec
import DrsSync.Wire.Corruption
import DrsSync.Math.SpscRing
import DrsSync.Model.TelemetryUdp
import DrsSync.Telemetry.RecordRing
import DrsSync.Model.CmdChannel
import DrsSync.Command.Mailbox
import DrsSync.Math.PacedClock
import DrsSync.Pulse.PulseThread
import DrsSync.Pulse.EverySecond
import DrsSync.Pulse.RisingEdge
import DrsSync.Discipline.SlewLaw
import DrsSync.Math.LockStep
import DrsSync.Discipline.Symmetry
import DrsSync.Discipline.SlewLoop
import DrsSync.Discipline.Convergence
import DrsSync.Pulse.HealthHysteresis
import DrsSync.Model.AgentDecoder
import DrsSync.Agent.Layout
import DrsSync.Agent.TornRead
import DrsSync.Model.ErrorRing
import DrsSync.Errors.History
import DrsSync.Errors.Reader
import DrsSync.Agent.ErrorList
import DrsSync.Cluster.ElectionTimeout
import DrsSync.Discipline.Calibration
import DrsSync.Math.Streak
import DrsSync.Model.Routine
import DrsSync.Telemetry.WriteSections
import DrsSync.Discipline.StepConfirmation
import DrsSync.Telemetry.Converged
import DrsSync.Cluster.RetryStorm
import DrsSync.Math.Refinement
import DrsSync.Model.EventLoop
import DrsSync.Model.LogFrame
import DrsSync.Cluster.Network
import DrsSync.Wire.Delivery
import DrsSync.Cluster.Provenance
import DrsSync.Math.Tally
import DrsSync.Telemetry.Counters
import DrsSync.Agent.Health
import DrsSync.Math.BitField
import DrsSync.Model.GpioBcm2711
import DrsSync.Pulse.Pins
import DrsSync.Model.PulseTimers
import DrsSync.Pulse.EdgeFrame
import DrsSync.Pulse.Timers
import DrsSync.Cluster.SequenceCheck
import DrsSync.Cluster.Holdover
import DrsSync.Telemetry.Emission
import DrsSync.Telemetry.Stream
import DrsSync.Math.SeqlockMemory
import DrsSync.Telemetry.Snapshot
import DrsSync.Pulse.Alignment
