import DetectorLink.Bytes
import DetectorLink.Command
import DetectorLink.Config.Basic
import DetectorLink.Config.Datum
import DetectorLink.Config.Decode
import DetectorLink.Config.Encode
import DetectorLink.Decimal.Fixed
import DetectorLink.Decimal.Fraction
import DetectorLink.Decimal.Shortest
import DetectorLink.Dispatch
import DetectorLink.HardwareId
import DetectorLink.Link.Basic
import DetectorLink.Link.Board
import DetectorLink.Link.Driver
import DetectorLink.Link.Effect
import DetectorLink.Link.Errno
import DetectorLink.Link.Error
import DetectorLink.Link.Fault
import DetectorLink.Link.Files
import DetectorLink.Link.Hardware
import DetectorLink.Link.Host
import DetectorLink.Link.Intake
import DetectorLink.Link.Kind
import DetectorLink.Link.Loopback
import DetectorLink.Link.Opening
import DetectorLink.Link.Pipe
import DetectorLink.Link.Socket
import DetectorLink.Link.Source
import DetectorLink.Link.Status
import DetectorLink.Link.Stream
import DetectorLink.Main
import DetectorLink.Module.Commander
import DetectorLink.Module.ConfigTable
import DetectorLink.Module.Discovery
import DetectorLink.Module.Dsp
import DetectorLink.Module.Error
import DetectorLink.Module.Field
import DetectorLink.Module.Response
import DetectorLink.Module.StatusTable
import DetectorLink.Module.Timer
import DetectorLink.Module.Transition
import DetectorLink.Module.Verification
import DetectorLink.ModuleType
import DetectorLink.Overflow
import DetectorLink.Packet.Basic
import DetectorLink.Packet.Build
import DetectorLink.Packet.Description
import DetectorLink.Packet.Error
import DetectorLink.Packet.Info
import DetectorLink.Packet.Lvds
import DetectorLink.Packet.Rtdl
import DetectorLink.Packet.Walk
import DetectorLink.Proofs.Dispatch.Accounts
import DetectorLink.Proofs.Dispatch.Copied
import DetectorLink.Proofs.Dispatch.Delivery
import DetectorLink.Proofs.Dispatch.Direct
import DetectorLink.Proofs.Dispatch.FullRing
import DetectorLink.Proofs.Dispatch.Furthest
import DetectorLink.Proofs.Dispatch.Interleaved
import DetectorLink.Proofs.Dispatch.Paths
import DetectorLink.Proofs.Dispatch.Progress
import DetectorLink.Proofs.Dispatch.Scheduled
import DetectorLink.Proofs.Dispatch.Stream
import DetectorLink.Proofs.HardwareId
import DetectorLink.Proofs.Link.Arrivals
import DetectorLink.Proofs.Link.Client
import DetectorLink.Proofs.Link.Connected
import DetectorLink.Proofs.Link.Copying
import DetectorLink.Proofs.Link.Driver
import DetectorLink.Proofs.Link.Effect
import DetectorLink.Proofs.Link.Hardware
import DetectorLink.Proofs.Link.Level
import DetectorLink.Proofs.Link.Medium
import DetectorLink.Proofs.Link.Onlooker
import DetectorLink.Proofs.Link.Pipe
import DetectorLink.Proofs.Link.Reading
import DetectorLink.Proofs.Link.Region
import DetectorLink.Proofs.Link.Registers
import DetectorLink.Proofs.Link.Restart
import DetectorLink.Proofs.Link.Serving
import DetectorLink.Proofs.Link.Simulated
import DetectorLink.Proofs.Link.Watched
import DetectorLink.Proofs.Module.Armings
import DetectorLink.Proofs.Module.Commander
import DetectorLink.Proofs.Module.Commands
import DetectorLink.Proofs.Module.ConfigBlock
import DetectorLink.Proofs.Module.Configured
import DetectorLink.Proofs.Module.Discovered
import DetectorLink.Proofs.Module.Exchange
import DetectorLink.Proofs.Module.Extracted
import DetectorLink.Proofs.Module.Fetched
import DetectorLink.Proofs.Module.Field
import DetectorLink.Proofs.Module.FollowUps
import DetectorLink.Proofs.Module.Locked
import DetectorLink.Proofs.Module.Outcomes
import DetectorLink.Proofs.Module.Rearming
import DetectorLink.Proofs.Module.Refusals
import DetectorLink.Proofs.Module.Sections
import DetectorLink.Proofs.Module.Timer
import DetectorLink.Proofs.Module.Verified
import DetectorLink.Proofs.Module.Verifying
import DetectorLink.Proofs.Packet.Bits
import DetectorLink.Proofs.Packet.Complete
import DetectorLink.Proofs.Packet.Cut
import DetectorLink.Proofs.Packet.Damage
import DetectorLink.Proofs.Packet.Described
import DetectorLink.Proofs.Packet.Frame
import DetectorLink.Proofs.Packet.Framing
import DetectorLink.Proofs.Packet.Header
import DetectorLink.Proofs.Packet.InfoWord
import DetectorLink.Proofs.Packet.Outgoing
import DetectorLink.Proofs.Packet.Parity
import DetectorLink.Proofs.Packet.Parse
import DetectorLink.Proofs.Packet.Pulse
import DetectorLink.Proofs.Packet.Scan
import DetectorLink.Proofs.Packet.Truncation
import DetectorLink.Proofs.Ring.Contents
import DetectorLink.Proofs.Ring.Copying
import DetectorLink.Proofs.Ring.FirstError
import DetectorLink.Proofs.Ring.Occupancy
import DetectorLink.Proofs.Ring.Offsets
import DetectorLink.Proofs.Ring.Places
import DetectorLink.Proofs.Ring.Queue
import DetectorLink.Proofs.Ring.Releases
import DetectorLink.Proofs.Ring.Rollover
import DetectorLink.Proofs.Ring.Threads
import DetectorLink.Proofs.SharedWindow.Chain
import DetectorLink.Proofs.SharedWindow.Holders
import DetectorLink.Proofs.SharedWindow.Log
import DetectorLink.Proofs.SharedWindow.Walkers
import DetectorLink.Proofs.Text.Numeral
import DetectorLink.Proofs.Tool.Accepted
import DetectorLink.Proofs.Tool.Dumped
import DetectorLink.Proofs.Tool.Effect
import DetectorLink.Proofs.Tool.Kept
import DetectorLink.Proofs.Tool.Lines
import DetectorLink.Proofs.Tool.Reception
import DetectorLink.Ring.Basic
import DetectorLink.Ring.Copier
import DetectorLink.Ring.Description
import DetectorLink.Ring.Direct
import DetectorLink.Ring.Index
import DetectorLink.Ring.Storage
import DetectorLink.SharedWindow
import DetectorLink.Text.Blank
import DetectorLink.Text.Column
import DetectorLink.Text.Hex
import DetectorLink.Text.Json
import DetectorLink.Text.Numeral
import DetectorLink.Toml.Blank
import DetectorLink.Toml.Document
import DetectorLink.Toml.Moment
import DetectorLink.Toml.Node
import DetectorLink.Toml.Number
import DetectorLink.Toml.Quoted
import DetectorLink.Tool.Argument
import DetectorLink.Tool.Arguments
import DetectorLink.Tool.Command
import DetectorLink.Tool.Dump
import DetectorLink.Tool.Effect
import DetectorLink.Tool.Error
import DetectorLink.Tool.Failure
import DetectorLink.Tool.Inquiry
import DetectorLink.Tool.Record
import DetectorLink.Tool.Report
import DetectorLink.Tool.Run
import DetectorLink.Tool.Session
import DetectorLink.Tool.Settings
