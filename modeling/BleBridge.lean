import BleBridge.Bench.Bridge
import BleBridge.Bench.Disk
import BleBridge.Bench.Peripheral
import BleBridge.Bench.Responder
import BleBridge.Bench.Run
import BleBridge.Bench.Settle
import BleBridge.Bench.Stage
import BleBridge.Bench.Wire
import BleBridge.Bench.World
import BleBridge.BridgeError
import BleBridge.Bus.Answered
import BleBridge.Bus.Broker
import BleBridge.Bus.Client
import BleBridge.Bus.Envelope
import BleBridge.Bus.Mqtt
import BleBridge.Bus.Topic
import BleBridge.Config.Form
import BleBridge.Config.Layers
import BleBridge.Config.Port
import BleBridge.Config.Sections
import BleBridge.Config.Settings
import BleBridge.Config.Variable
import BleBridge.Decimal.Shortest
import BleBridge.Event
import BleBridge.Fault
import BleBridge.Frame.Collect
import BleBridge.Frame.Decoder
import BleBridge.Frame.Layout
import BleBridge.Frame.Packet
import BleBridge.Frame.Reassembler
import BleBridge.Frame.Slots
import BleBridge.IoFault
import BleBridge.Json.Document
import BleBridge.Json.Members
import BleBridge.Json.Number
import BleBridge.Json.Reader
import BleBridge.Json.Token
import BleBridge.Json.Value
import BleBridge.Link.Receiver
import BleBridge.Link.Sender
import BleBridge.Main
import BleBridge.Millis
import BleBridge.Modem.Command
import BleBridge.Modem.Controller
import BleBridge.Modem.Reply
import BleBridge.Mux.Basic
import BleBridge.Mux.Queue
import BleBridge.Mux.Reader
import BleBridge.Mux.Step
import BleBridge.Mux.Writer
import BleBridge.Program.Arguments
import BleBridge.Program.Help
import BleBridge.Program.Line
import BleBridge.Program.LogFilter
import BleBridge.Program.Run
import BleBridge.Proofs.Bench.Errands
import BleBridge.Proofs.Bench.Happenings
import BleBridge.Proofs.Bench.Hearing
import BleBridge.Proofs.Bench.Listening
import BleBridge.Proofs.Bench.Noted
import BleBridge.Proofs.Bench.Subscriptions
import BleBridge.Proofs.Bus.Answered
import BleBridge.Proofs.Bus.Channels
import BleBridge.Proofs.Bus.Correlation
import BleBridge.Proofs.Bus.Delivery
import BleBridge.Proofs.Bus.Disconnection
import BleBridge.Proofs.Bus.Pending
import BleBridge.Proofs.Bus.Rejection
import BleBridge.Proofs.Bus.Topics
import BleBridge.Proofs.Bus.Waiters
import BleBridge.Proofs.Bus.Wire
import BleBridge.Proofs.Frame.Age
import BleBridge.Proofs.Frame.AnyOrder
import BleBridge.Proofs.Frame.AtOnce
import BleBridge.Proofs.Frame.Bounded
import BleBridge.Proofs.Frame.Checked
import BleBridge.Proofs.Frame.Coherence
import BleBridge.Proofs.Frame.Complete
import BleBridge.Proofs.Frame.Gather
import BleBridge.Proofs.Frame.Header
import BleBridge.Proofs.Frame.InOrder
import BleBridge.Proofs.Frame.Merge
import BleBridge.Proofs.Frame.Noise
import BleBridge.Proofs.Frame.Outside
import BleBridge.Proofs.Frame.Provenance
import BleBridge.Proofs.Frame.Remnant
import BleBridge.Proofs.Frame.Slots
import BleBridge.Proofs.Frame.Split
import BleBridge.Proofs.Frame.Stragglers
import BleBridge.Proofs.Frame.Expiry
import BleBridge.Proofs.Frame.Stream
import BleBridge.Proofs.Frame.Tally
import BleBridge.Proofs.Frame.Timing
import BleBridge.Proofs.Frame.Unfinished
import BleBridge.Proofs.Json.Compact
import BleBridge.Proofs.Json.Numeral
import BleBridge.Proofs.Json.RoundTrip
import BleBridge.Proofs.Json.Tokens
import BleBridge.Proofs.Json.Values
import BleBridge.Proofs.Link.RoundTrip
import BleBridge.Proofs.Link.Aborted
import BleBridge.Proofs.Link.Commands
import BleBridge.Proofs.Link.Ending
import BleBridge.Proofs.Link.Numbers
import BleBridge.Proofs.Link.Outcomes
import BleBridge.Proofs.Modem.Accepted
import BleBridge.Proofs.Modem.Intent
import BleBridge.Proofs.Modem.Policies
import BleBridge.Proofs.Modem.Refused
import BleBridge.Proofs.Modem.Reports
import BleBridge.Proofs.Modem.StateQuery
import BleBridge.Proofs.Modem.Verdict
import BleBridge.Proofs.Mux.Answers
import BleBridge.Proofs.Mux.Attribution
import BleBridge.Proofs.Mux.Balance
import BleBridge.Proofs.Mux.Closing
import BleBridge.Proofs.Mux.Deeds
import BleBridge.Proofs.Mux.Exchange
import BleBridge.Proofs.Mux.Failures
import BleBridge.Proofs.Mux.History
import BleBridge.Proofs.Mux.Ledger
import BleBridge.Proofs.Mux.Moves
import BleBridge.Proofs.Mux.Routing
import BleBridge.Proofs.Mux.Steps
import BleBridge.Proofs.Routine.Runs
import BleBridge.Proofs.Service.Careful
import BleBridge.Proofs.Service.Embedded
import BleBridge.Proofs.Service.Monitoring
import BleBridge.Proofs.Service.ReadingTopic
import BleBridge.Proofs.Service.Resources
import BleBridge.Proofs.Service.Settled
import BleBridge.Proofs.Service.Site
import BleBridge.Proofs.Service.Starting
import BleBridge.Proofs.Service.Granted
import BleBridge.Proofs.Service.Subscribed
import BleBridge.Proofs.Service.Unbroken
import BleBridge.Proofs.Service.Writing
import BleBridge.Proofs.Text.Ascii
import BleBridge.Proofs.Text.Cut
import BleBridge.Proofs.Text.Decoded
import BleBridge.Proofs.Text.Lines
import BleBridge.Proofs.Text.Padded
import BleBridge.Proofs.Text.Pieces
import BleBridge.Proofs.Text.Separated
import BleBridge.Proofs.Text.Visible
import BleBridge.Routine
import BleBridge.Service.Agent
import BleBridge.Service.Commands
import BleBridge.Service.Driver
import BleBridge.Service.Instruction
import BleBridge.Service.RawReading
import BleBridge.Service.Summary
import BleBridge.Text.Blank
import BleBridge.Text.Bytes
import BleBridge.Text.Hex
import BleBridge.Text.Printable
import BleBridge.Text.Quoted
import BleBridge.Text.Search
import BleBridge.Yaml.Cursor
import BleBridge.Yaml.Node
import BleBridge.Yaml.Plain
import BleBridge.Yaml.Printer
import BleBridge.Yaml.Quoting
import BleBridge.Yaml.Scalar
import BleBridge.Yaml.Token
import BleBridge.Yaml.Value
