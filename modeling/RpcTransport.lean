import RpcTransport.Lib.Transition
import RpcTransport.Lib.Checked
import RpcTransport.Lib.Wire
import RpcTransport.Lib.Fifo
import RpcTransport.Lib.RemoteCall
import RpcTransport.Lib.Heap
import RpcTransport.Lib.Regex
import RpcTransport.Lib.Decimal
import RpcTransport.Lib.Dict
import RpcTransport.Lib.Clock
import RpcTransport.Lib.RemoteProgram
import RpcTransport.Lib.Promise
import RpcTransport.Lib.Completion
import RpcTransport.Proto
import RpcTransport.ProtoWire
import RpcTransport.Transport
import RpcTransport.PayloadCreator
import RpcTransport.Server
import RpcTransport.Client
import RpcTransport.EchoValidation
import RpcTransport.ReadBounds
import RpcTransport.ClientRuns
import RpcTransport.Workloads
import RpcTransport.Stream
import RpcTransport.StreamRuns
import RpcTransport.StreamCut
import RpcTransport.StreamDeadline
import RpcTransport.Capnp
import RpcTransport.CapnpStream
import RpcTransport.CapnpConn
import RpcTransport.CapnpRuns
import RpcTransport.Interchange
import RpcTransport.MalformedInput
import RpcTransport.MessageLimit
import RpcTransport.FlagBounds
import RpcTransport.Network
import RpcTransport.LatencyCorrection
import RpcTransport.Buffers
import RpcTransport.RsocketServer
import RpcTransport.RsocketClient
import RpcTransport.CapnpObject
import RpcTransport.ClientOutput
import RpcTransport.RunTransports
import RpcTransport.OutputLines
import RpcTransport.StatsReadBack
import RpcTransport.PlottedRuns
import RpcTransport.ScriptServers
import RpcTransport.Benchmark
import RpcTransport.ServerAbort
import RpcTransport.NetworkRuns
import RpcTransport.CapnpAbort
import RpcTransport.CapnpDown
import RpcTransport.Calculator
import RpcTransport.CalculatorMeaning
import RpcTransport.CalculatorRuns
import RpcTransport.Greeter
import RpcTransport.GreeterInvariants
import RpcTransport.GreeterRuns
import RpcTransport.RsocketBenchmark
import RpcTransport.PlottedBenchmarks
import RpcTransport.HelloStream
import RpcTransport.HelloStreamRuns
