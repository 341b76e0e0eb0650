import MqttWasi.Library.Action
import MqttWasi.Library.Hoare
import MqttWasi.Codec.Error
import MqttWasi.Codec.Types
import MqttWasi.Codec.Decode
import MqttWasi.Codec.Encode
import MqttWasi.Codec.Topic
import MqttWasi.Codec.Properties
import MqttWasi.Codec.Publish
import MqttWasi.Codec.Subscribe
import MqttWasi.Codec.Connect
import MqttWasi.Codec.Ping
import MqttWasi.Codec.Packet
import MqttWasi.Library.Framing
import MqttWasi.Library.Base128
import MqttWasi.Codec.Theorems.Primitives
import MqttWasi.Codec.Theorems.Encoders
import MqttWasi.Codec.Theorems.Properties
import MqttWasi.Codec.Theorems.FixedHeader
import MqttWasi.Codec.Theorems.Packets
import MqttWasi.Codec.Theorems.Sizes
import MqttWasi.Codec.Theorems.Errors
import MqttWasi.Codec.Theorems.Decoders
import MqttWasi.Frame.Reader
import MqttWasi.Frame.Theorems.Refinement
import MqttWasi.Frame.Theorems.Streams
import MqttWasi.Options
import MqttWasi.Client.Transport
import MqttWasi.Client.Basic
import MqttWasi.Client.Theorems.Specs
import MqttWasi.Client.Theorems.Operations
import MqttWasi.Client.Theorems.Sessions
import MqttWasi.Client.Theorems.Delivery
import MqttWasi.Client.Theorems.Capacity
import MqttWasi.Client.Theorems.Handshake
import MqttWasi.Driver.Broker
import MqttWasi.Driver.Commands
import MqttWasi.Driver.Inbound
import MqttWasi.Driver.Outbound
import MqttWasi.Driver.Requests
import MqttWasi.Driver.Run
import MqttWasi.Driver.Theorems.Frames
import MqttWasi.Client.Theorems.Order
import MqttWasi.Driver.Types
import MqttWasi.Library.FrameQueue
import MqttWasi.Library.Map
import MqttWasi.Library.Transition
import MqttWasi.Library.Machine
import MqttWasi.Driver.Theorems.Moves
import MqttWasi.Driver.Theorems.Steps
import MqttWasi.Driver.Theorems.Commands
import MqttWasi.Driver.Theorems.Dispatch
import MqttWasi.Driver.Theorems.Transport
import MqttWasi.Driver.Theorems.Runs
import MqttWasi.Driver.Theorems.Framing
import MqttWasi.Driver.Theorems.Deliveries
import MqttWasi.Driver.Theorems.EndOfStream
import MqttWasi.Driver.Theorems.Disconnect
import MqttWasi.Driver.Theorems.Accounting
import MqttWasi.Driver.Theorems.KeepAlive
import MqttWasi.Driver.Theorems.Termination
import MqttWasi.Library.Answering
import MqttWasi.Driver.Theorems.Ledger
import MqttWasi.Driver.Theorems.Exchange
import MqttWasi.Driver.Theorems.Quota
import MqttWasi.Driver.Theorems.ResponseTopics
import MqttWasi.Driver.Theorems.Subscriptions
import MqttWasi.Driver.Handle
import MqttWasi.Driver.Theorems.Requests
import MqttWasi.Driver.Futures
import MqttWasi.Driver.Theorems.Roster
import MqttWasi.Limits
import MqttWasi.Codec.Grammar
import MqttWasi.Codec.ClientPacket
import MqttWasi.Codec.ClientReader
import MqttWasi.Codec.Theorems.Readers
import MqttWasi.Codec.Theorems.Grammar
import MqttWasi.Codec.Theorems.RoundTrips
import MqttWasi.Codec.Theorems.NormalForms
import MqttWasi.Codec.Theorems.ClientPackets
import MqttWasi.Codec.Theorems.ClientReader
import MqttWasi.Codec.Theorems.ConnAck
import MqttWasi.Driver.Handshake
import MqttWasi.Driver.Theorems.Handshake
import MqttWasi.Acknowledgements
import MqttWasi.Driver.Theorems.Waiting
import MqttWasi.Driver.Theorems.Traffic
import MqttWasi.Codec.Theorems.Topics
import MqttWasi.Library.Utf8
import MqttWasi.Trace.Basic
import MqttWasi.Trace.Theorems.Hex
import MqttWasi.Trace.Theorems.Traceparent
import MqttWasi.Trace.Theorems.Propagation
import MqttWasi.Library.Panics
import MqttWasi.Codec.Checked
import MqttWasi.Codec.Theorems.Checked
import MqttWasi.Frame.Checked
import MqttWasi.Frame.Theorems.Stickiness
import MqttWasi.Frame.Theorems.Room
import MqttWasi.Client.Theorems.Reading
import MqttWasi.Driver.Theorems.Reading
import MqttWasi.Driver.Theorems.Bounds
import MqttWasi.Driver.Theorems.Rejections
import MqttWasi.Driver.Theorems.Completions
import MqttWasi.Driver.Theorems.Contents
import MqttWasi.Driver.Theorems.Isolation
import MqttWasi.Driver.Theorems.Leaks
import MqttWasi.Driver.Theorems.Replies
import MqttWasi.Driver.Theorems.PacketIds
import MqttWasi.Codec.Theorems.VariableInts
import MqttWasi.Driver.Theorems.Removals
import MqttWasi.Driver.Theorems.Deeds
import MqttWasi.Driver.Theorems.Routing
import MqttWasi.Frame.Server
import MqttWasi.Frame.Theorems.Server
import MqttWasi.Driver.Theorems.Utterances
import MqttWasi.Driver.Theorems.Transcript
import MqttWasi.Library.Emission
import MqttWasi.Client.Theorems.Speech
import MqttWasi.Client.Theorems.Transcript
import MqttWasi.Driver.Theorems.Arrival
import MqttWasi.Library.Consumption
import MqttWasi.Client.Theorems.Listening
import MqttWasi.Agreement
import MqttWasi.Client.Incoming
import MqttWasi.Client.Theorems.Incoming
import MqttWasi.Connect.Address
import MqttWasi.Connect.Theorems.Address
import MqttWasi.Connect.Tcp
import MqttWasi.Connect.Theorems.Tcp
