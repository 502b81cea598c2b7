import LatencyBench.Aggregate
import LatencyBench.Decimal.Fixed
import LatencyBench.Machine
import LatencyBench.Engine
import LatencyBench.Frontend.Auto
import LatencyBench.Frontend.Key
import LatencyBench.Panel
import LatencyBench.Net.Stream
import LatencyBench.WebSocket.Frame
import LatencyBench.WebSocket.FrameDecoder
import LatencyBench.WebSocket.Message
import LatencyBench.Digest.Sha1
import LatencyBench.Text.Base64
import LatencyBench.WebSocket.AcceptKey
import LatencyBench.Http.Head
import LatencyBench.Http.Target
import LatencyBench.WebSocket.Upgrade
import LatencyBench.Run
import LatencyBench.Connection.Intake
import LatencyBench.Connection.Link
import LatencyBench.Connection.Endpoint
import LatencyBench.Peer
import LatencyBench.Wire
import LatencyBench.Host
import LatencyBench.Log.File
import LatencyBench.Frontend.Console
import LatencyBench.Frontend.KeyThread
import LatencyBench.Frontend.Terminal
import LatencyBench.Decimal.Whole
import LatencyBench.Launcher.Arguments
import LatencyBench.Launcher.Help
import LatencyBench.Launcher.Report
import LatencyBench.Decimal.Shortest
import LatencyBench.Log.Filter
import LatencyBench.Log.Line
import LatencyBench.Launcher.Attachment
import LatencyBench.Main
import LatencyBench.HostSession
import LatencyBench.Launcher.Rehearsal
import LatencyBench.Frontend.Scripted
import LatencyBench.Frontend.KeyReader
import LatencyBench.Launcher.ConsoleRehearsal
import LatencyBench.Connection.Caller
import LatencyBench.Session.Script
import LatencyBench.Proofs.Machine.Consistency
import LatencyBench.Proofs.Machine.History
import LatencyBench.Proofs.Machine.Pairing
import LatencyBench.Proofs.Machine.Conservation
import LatencyBench.Proofs.Machine.Handles
import LatencyBench.Proofs.Machine.Writes
import LatencyBench.Proofs.Machine.Endings
import LatencyBench.Proofs.Wire.Completions
import LatencyBench.Proofs.Wire.Accepting
import LatencyBench.Proofs.Wire.Clock
import LatencyBench.Proofs.Run.Keeping
import LatencyBench.Proofs.Run.Queued
import LatencyBench.Proofs.Run.Usage
import LatencyBench.Proofs.Run.Lockstep
import LatencyBench.Proofs.Run.SendControl
import LatencyBench.Proofs.Run.Quota
import LatencyBench.Proofs.Run.SingleConnection
import LatencyBench.Proofs.Run.EarlyMessages
import LatencyBench.Proofs.Loop.Readers
import LatencyBench.Proofs.Loop.Channel
import LatencyBench.Proofs.Loop.Turns
import LatencyBench.Proofs.Loop.PeerSteps
import LatencyBench.Proofs.Loop.Accounts
import LatencyBench.Proofs.Loop.Bookkeeping
import LatencyBench.Proofs.Loop.ClosedLoop
import LatencyBench.Proofs.Run.RoundTrips
import LatencyBench.Proofs.Run.SampleReports
import LatencyBench.Proofs.Run.Shown
import LatencyBench.Proofs.Run.Custody
import LatencyBench.Proofs.Text.Utf8
import LatencyBench.Proofs.WebSocket.Assembling
import LatencyBench.Proofs.WebSocket.Speech
import LatencyBench.Proofs.WebSocket.Reports
import LatencyBench.Proofs.Wire.Reader
import LatencyBench.Proofs.Wire.Hearing
import LatencyBench.Proofs.Wire.Conversation
import LatencyBench.Proofs.Wire.Upgraded
import LatencyBench.Proofs.Run.FrameBoundaries
import LatencyBench.Proofs.Frontend.Closing
import LatencyBench.Proofs.Queue.History
import LatencyBench.Proofs.Host.View
import LatencyBench.Proofs.Frontend.Pacing
import LatencyBench.Proofs.Wire.Serving
import LatencyBench.Proofs.Wire.Discipline
import LatencyBench.Proofs.Wire.Blocks
import LatencyBench.Proofs.Wire.BlockReader
import LatencyBench.Proofs.Wire.RawSession
import LatencyBench.Proofs.WebSocket.Stream
import LatencyBench.Proofs.Wire.Utterances
import LatencyBench.Proofs.Wire.Saying
import LatencyBench.Proofs.Wire.Answering
import LatencyBench.Proofs.Wire.Ledger
import LatencyBench.Proofs.Wire.Delivery
import LatencyBench.Proofs.Frontend.Showing
import LatencyBench.Proofs.Frontend.Returning
import LatencyBench.Proofs.Aggregate.Exact
import LatencyBench.Proofs.Text.Encoding
import LatencyBench.Proofs.Peer.Lines
import LatencyBench.Proofs.Decimal.Printing
