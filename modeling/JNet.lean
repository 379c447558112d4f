import JNet.Lib.LTS
import JNet.Lib.Bytes
import JNet.Lib.Calendar
import JNet.Lib.Decimal
import JNet.Lib.Memory
import JNet.Lib.Records
import JNet.Lib.OrdSet
import JNet.Lib.Handles
import JNet.Lib.Strings
import JNet.Net.Buffer
import JNet.Net.BufferRun
import JNet.Net.Channel
import JNet.Net.TcpConn
import JNet.Net.TcpOutput
import JNet.Net.TcpErrors
import JNet.Net.TcpSends
import JNet.Net.TcpShutdown
import JNet.Net.TcpInput
import JNet.Net.Connection
import JNet.Net.Dispatch
import JNet.Net.Lifecycle
import JNet.Net.TcpServer
import JNet.Net.FirstData
import JNet.Net.EventLoop
import JNet.Net.EventLoopThread
import JNet.Net.EventLoopPool
import JNet.Net.Poller
import JNet.Net.EpollRuns
import JNet.Net.ThreadPool
import JNet.Net.PoolTasks
import JNet.Net.TimeStamp
import JNet.Net.Logger
import JNet.Net.LogRotation
import JNet.Net.TimerQueue
import JNet.Net.TimerRuns
import JNet.Net.TimerIds
import JNet.Net.Descriptors
import JNet.Net.DescriptorOwners
import JNet.Net.DescriptorTwice
import JNet.Net.HttpMsg
import JNet.Net.HttpArgs
import JNet.Net.HttpEncode
import JNet.Net.HttpDecode
import JNet.Net.HttpSafety
import JNet.Net.HttpReplies
import JNet.Net.HttpConn
import JNet.Net.HttpRuns
import JNet.Rpc.ProtobufCodec
import JNet.Rpc.RpcChannel
import JNet.Rpc.RpcCalls
import JNet.Rpc.RpcServer
import JNet.Rpc.RpcSession
import JNet.Rpc.TcpLink
import JNet.Raft.RaftLog
import JNet.Raft.LogLayout
import JNet.Raft.LogAccess
import JNet.Raft.LogRecovery
import JNet.Raft.LogSessions
import JNet.Raft.Raft
import JNet.Raft.Election
import JNet.Raft.Node
import JNet.Raft.Voting
import JNet.Raft.Replication
import JNet.Raft.Following
import JNet.Raft.Leading
import JNet.Net.BufferOwners
import JNet.Rpc.TcpSession
