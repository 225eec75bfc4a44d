import SrtGateway.Scan.Resync
import SrtGateway.Scan.Leftmost
import SrtGateway.Protocol.Framing
import SrtGateway.Protocol.Deframer
import SrtGateway.Protocol.Stream
import SrtGateway.Protocol.Recovery
import SrtGateway.Gf2.Bits
import SrtGateway.Gf2.Register
import SrtGateway.Protocol.Crc
import SrtGateway.Protocol.Corruption
import SrtGateway.Protocol.Burst
import SrtGateway.Protocol.Remainder
import SrtGateway.SerialIo.Reader
import SrtGateway.SerialIo.Replay
import SrtGateway.SerialIo.Capture
import SrtGateway.SerialIo.Resume
import SrtGateway.SerialIo.Outage
import SrtGateway.SerialIo.AutoDetect
import SrtGateway.Json.Value
import SrtGateway.Json.Text
import SrtGateway.Protocol.Control
import SrtGateway.Downlink.Poll
import SrtGateway.Downlink.Fingerprint
import SrtGateway.Downlink.Boot
import SrtGateway.Downlink.Registers
import SrtGateway.Downlink.Wire
import SrtGateway.Downlink.Trace
import SrtGateway.Downlink.Change
import SrtGateway.Protocol.Telemetry
import SrtGateway.Bytes.Struct
import SrtGateway.Protocol.UplinkRecord
import SrtGateway.Protocol.Payload
import SrtGateway.Protocol.NodeStats
import SrtGateway.Store.Tables
import SrtGateway.Effect.Prog
import SrtGateway.Effect.Raise
import SrtGateway.Uplink.RunOnce
import SrtGateway.Uplink.Allowed
import SrtGateway.Uplink.Raising
import SrtGateway.Uplink.System
import SrtGateway.Uplink.ZeroLoss
import SrtGateway.Uplink.Received
import SrtGateway.Uplink.Drain
import SrtGateway.Uplink.Report
import SrtGateway.Uplink.Backoff
import SrtGateway.Store.Connection
import SrtGateway.Store.Layers
import SrtGateway.Store.Atomicity
import SrtGateway.Store.Alone
import SrtGateway.Store.History
import SrtGateway.Store.Resends
import SrtGateway.Store.AppendOnly
import SrtGateway.Store.Inserts
import SrtGateway.Store.Nodes
import SrtGateway.Store.Crash
import SrtGateway.Lists.LastMax
import SrtGateway.Store.Summary
import SrtGateway.Sql.Query
import SrtGateway.Store.Latest
import SrtGateway.Main.Dispatcher
import SrtGateway.Runs.Simulation
import SrtGateway.Uplink.Traced
import SrtGateway.Main.Gateway
import SrtGateway.Store.Independence
import SrtGateway.Main.WireToCloud
import SrtGateway.Uplink.Shared
import SrtGateway.Uplink.Uninterrupted
import SrtGateway.Uplink.Accounting
import SrtGateway.Protocol.Kernel
import SrtGateway.Floats.Nearest
import SrtGateway.Protocol.Doubles
import SrtGateway.Uplink.Doubles
import SrtGateway.Main.Health
import SrtGateway.Runs.Descent
import SrtGateway.Uplink.Outage
import SrtGateway.Store.Ingested
import SrtGateway.Main.Ingest
import SrtGateway.Uplink.Progress
import SrtGateway.Main.Progress
import SrtGateway.Downlink.System
import SrtGateway.Main.Programmed
import SrtGateway.Main.Threads
import SrtGateway.Main.Once
