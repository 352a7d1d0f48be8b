import ServerDiscovery.Bytes
import ServerDiscovery.Datagram.Layout
import ServerDiscovery.Decimal.Numeral
import ServerDiscovery.Decimal.Scientific
import ServerDiscovery.Decimal.Shortest
import ServerDiscovery.Discovery.Client
import ServerDiscovery.Discovery.Collector
import ServerDiscovery.Discovery.FanOut
import ServerDiscovery.Discovery.Loopback
import ServerDiscovery.Discovery.Network
import ServerDiscovery.Discovery.Responder
import ServerDiscovery.Discovery.ServerSet
import ServerDiscovery.Discovery.SocketBuffers
import ServerDiscovery.Duration
import ServerDiscovery.Error
import ServerDiscovery.Exchange.Engine
import ServerDiscovery.Exchange.Handshake
import ServerDiscovery.Exchange.Line
import ServerDiscovery.Exchange.Policy
import ServerDiscovery.Exchange.Script
import ServerDiscovery.Exchange.Transport
import ServerDiscovery.Json.Reader
import ServerDiscovery.Json.Value
import ServerDiscovery.Message.ServerInfo
import ServerDiscovery.Message.ServerInfoJson
import ServerDiscovery.Message.ServerList
import ServerDiscovery.Message.Token
import ServerDiscovery.Metrics
import ServerDiscovery.Net.Address
import ServerDiscovery.Net.AddressText
import ServerDiscovery.Proofs.Datagram.Cut
import ServerDiscovery.Proofs.Datagram.Kinds
import ServerDiscovery.Proofs.Datagram.Layout
import ServerDiscovery.Proofs.Decimal.Numeral
import ServerDiscovery.Proofs.Discovery.Collection
import ServerDiscovery.Proofs.Discovery.Found
import ServerDiscovery.Proofs.Discovery.Latest
import ServerDiscovery.Proofs.Discovery.Tasks
import ServerDiscovery.Proofs.Discovery.Writers
import ServerDiscovery.Proofs.Exchange.Attempts
import ServerDiscovery.Proofs.Exchange.Backlog
import ServerDiscovery.Proofs.Exchange.Bursts
import ServerDiscovery.Proofs.Exchange.Calls
import ServerDiscovery.Proofs.Exchange.Counts
import ServerDiscovery.Proofs.Exchange.Deadlines
import ServerDiscovery.Proofs.Exchange.Factor
import ServerDiscovery.Proofs.Exchange.Outcome
import ServerDiscovery.Proofs.Exchange.Pace
import ServerDiscovery.Proofs.Exchange.Schedule
import ServerDiscovery.Proofs.Handshake.ClientHalf
import ServerDiscovery.Proofs.Handshake.Elapsed
import ServerDiscovery.Proofs.Handshake.Phases
import ServerDiscovery.Proofs.Handshake.Reflection
import ServerDiscovery.Proofs.Message.Cut
import ServerDiscovery.Proofs.Message.ServerInfo
import ServerDiscovery.Proofs.Message.ServerList
import ServerDiscovery.Proofs.Metrics.Amounts
import ServerDiscovery.Proofs.Metrics.Balance
import ServerDiscovery.Proofs.Settings.Admission
import ServerDiscovery.Proofs.Settings.Environment
import ServerDiscovery.Proofs.Settings.Fields
import ServerDiscovery.Proofs.Settings.HostAndPort
import ServerDiscovery.Proofs.Settings.Limits
import ServerDiscovery.Proofs.Settings.MasterList
import ServerDiscovery.Proofs.Settings.Reloading
import ServerDiscovery.Proofs.Settings.Saving
import ServerDiscovery.Proofs.Settings.Violations
import ServerDiscovery.Proofs.Text.Replacement
import ServerDiscovery.Proofs.Text.Utf8
import ServerDiscovery.Proofs.Wire.AnyText
import ServerDiscovery.Proofs.Wire.Canonical
import ServerDiscovery.Proofs.Wire.Cursor
import ServerDiscovery.Proofs.Wire.Field
import ServerDiscovery.Proofs.Wire.Integer
import ServerDiscovery.Proofs.Wire.Progress
import ServerDiscovery.Proofs.Wire.Queue
import ServerDiscovery.Proofs.Wire.Scratch
import ServerDiscovery.Proofs.Wire.Text
import ServerDiscovery.Settings.Basic
import ServerDiscovery.Settings.Document
import ServerDiscovery.Settings.Environment
import ServerDiscovery.Settings.File
import ServerDiscovery.Settings.Limits
import ServerDiscovery.Text.Blank
import ServerDiscovery.Text.Utf8
import ServerDiscovery.Toml.Assembly
import ServerDiscovery.Toml.Document
import ServerDiscovery.Toml.Lexeme
import ServerDiscovery.Toml.Value
import ServerDiscovery.Toml.Writer
import ServerDiscovery.Wire.Cursor
import ServerDiscovery.Wire.FieldBuffer
import ServerDiscovery.Wire.Integer
import ServerDiscovery.Wire.Scratch
import ServerDiscovery.Wire.Text
