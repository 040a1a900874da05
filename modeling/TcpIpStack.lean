import TcpIpStack.Lib.Serial
import TcpIpStack.Lib.OrderedMap
import TcpIpStack.Lib.Chunk
import TcpIpStack.Lib.Runs
import TcpIpStack.Wire.Tcp
import TcpIpStack.Tcp.CongestionControl
import TcpIpStack.Tcp.Refinement
import TcpIpStack.Tcp.Sender
import TcpIpStack.Tcp.FailingSend
import TcpIpStack.Tcp.Receiver
import TcpIpStack.Tcp.Stream
import TcpIpStack.Tcp.System
import TcpIpStack.Tcp.FlowControl
import TcpIpStack.Tcp.WindowUpdate
import TcpIpStack.Tcp.Options
import TcpIpStack.Tcp.SegmentSize
import TcpIpStack.Tcp.Timers
import TcpIpStack.Tcp.Link
import TcpIpStack.Tcp.PerfectLink
import TcpIpStack.Stack.Fragmentation
import TcpIpStack.Stack.Reassembly
import TcpIpStack.Stack.AcceptQueue
import TcpIpStack.Stack.Backlog
import TcpIpStack.Stack.StaticArp
import TcpIpStack.Stack.Routes
import TcpIpStack.Stack.Forwarding
import TcpIpStack.Stack.Broadcasts
import TcpIpStack.Stack.Sealing
import TcpIpStack.Stack.Answers
import TcpIpStack.Stack.LinkSize
import TcpIpStack.Stack.SourceAddress
import TcpIpStack.Stack.ErrorCauses
import TcpIpStack.Stack.Exchange
import TcpIpStack.Server.Connection
import TcpIpStack.Server.State
import TcpIpStack.Server.Moves
import TcpIpStack.Server.Pool
import TcpIpStack.Server.Echo
import TcpIpStack.Server.HalfClosed
import TcpIpStack.Server.CompletionQueue
import TcpIpStack.Server.ThreadPool
import TcpIpStack.Wire.Dhcp
import TcpIpStack.Wire.Slices
import TcpIpStack.Dhcp.Client
import TcpIpStack.Dhcp.Moves
import TcpIpStack.Dhcp.LeaseTimers
import TcpIpStack.Dhcp.Binding
import TcpIpStack.Dhcp.LeaseLoss
import TcpIpStack.Wire.Dns
import TcpIpStack.Wire.HeaderChecksum
import TcpIpStack.Dns.Entropy
import TcpIpStack.Dns.Resolver
import TcpIpStack.Dns.Moves
import TcpIpStack.Dns.Servers
import TcpIpStack.Dns.Forgery
import TcpIpStack.Dns.Accounting
import TcpIpStack.Dns.AnswerOwners
import TcpIpStack.Dns.Sockets
import TcpIpStack.Tcp.StrayAcks
import TcpIpStack.Tcp.Counters
import TcpIpStack.Tcp.FinExchange
import TcpIpStack.Tcp.Inbox
import TcpIpStack.Tcp.ReceiveBuffer
import TcpIpStack.Tcp.ReorderBuffer
import TcpIpStack.Tcp.SackReport
import TcpIpStack.Tcp.AckDuty
import TcpIpStack.Tcp.Endings
import TcpIpStack.Lib.FixedPoint
import TcpIpStack.Lib.Row
import TcpIpStack.Tcp.Estimator
import TcpIpStack.Tcp.Flights
import TcpIpStack.Tcp.Stamps
import TcpIpStack.Tcp.Samples
import TcpIpStack.Tcp.Karn
import TcpIpStack.Tcp.Coalescing
import TcpIpStack.Stack.Unconfigured
import TcpIpStack.Stack.WireFidelity
import TcpIpStack.Stack.PassiveOpen
import TcpIpStack.Tcp.RenoWindow
