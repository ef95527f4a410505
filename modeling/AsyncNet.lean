import AsyncNet.Http.DecoderMemory
import AsyncNet.Library.Framing
import AsyncNet.Http.HpackIndex
import AsyncNet.Http.HpackRoundTrip
import AsyncNet.Http.QpackRoundTrip
import AsyncNet.Http.Http2Session
import AsyncNet.Http.H2Reader
import AsyncNet.Http.Http2Segmentation
import AsyncNet.Http.Http2Calls
import AsyncNet.Http.Http2Run
import AsyncNet.Http.Http2Handlers
import AsyncNet.Http.Http2HeaderBlocks
import AsyncNet.Http.Http2Steps
import AsyncNet.Http.Http2Dispatch
import AsyncNet.Http.Http2HandlerCalls
import AsyncNet.Http.Http2Continuation
import AsyncNet.Http.Http2BadBlocks
import AsyncNet.Http.Http2Wire
import AsyncNet.Http.Http2Messages
import AsyncNet.Http.Http2FlowControl
import AsyncNet.Http.Http2Receive
import AsyncNet.Http.Http2Reading
import AsyncNet.Http.Http2Exchange
import AsyncNet.Http.Http2Agreement
import AsyncNet.Http.Http2FrameSize
import AsyncNet.Http.Http2SendWindows
import AsyncNet.Http.Http2PlainDeeds
import AsyncNet.Http.HpackLongString
import AsyncNet.Http.Http2HeaderFields
import AsyncNet.Http.Http2ConnectionWindows
import AsyncNet.Http.Http2ReceiveWindow
import AsyncNet.Http.Http2StreamWindows
import AsyncNet.Http.Http2Promises
import AsyncNet.Http.Http2Flush
import AsyncNet.Http.Http2SendOrder
import AsyncNet.Http.Http2Serving
import AsyncNet.Http.Http1Codec
import AsyncNet.Http.Http1Requests
import AsyncNet.Http.Http1Pipelining
import AsyncNet.Grpc.StreamFraming
import AsyncNet.Http.WebsocketMessages
import AsyncNet.Http.Http3Handshake
import AsyncNet.Http.Http3Requests
import AsyncNet.Http.Http3UniStreams
import AsyncNet.Http.Http1Responses
import AsyncNet.Http.Http1ChunkGrammar
import AsyncNet.Http.Http1Prefixes
import AsyncNet.Http.Http1RoundTrip
import AsyncNet.Grpc.Interceptors
import AsyncNet.Grpc.UnaryCalls
import AsyncNet.Executor.Strand
import AsyncNet.Coroutine.Spawn
import AsyncNet.Io.Posting
import AsyncNet.P2p.TrackerOwnership
import AsyncNet.P2p.TrackerAgreement
import AsyncNet.Io.Awaiters
import AsyncNet.Http.RequestTargets
import AsyncNet.Http.QpackInterop
import AsyncNet.Http.QpackEncoderStream
import AsyncNet.Http.TableEviction
import AsyncNet.Http.H2WireFormat
import AsyncNet.Http.StringBounds
import AsyncNet.Http.HpackOutline
import AsyncNet.Http.ClientRequests
import AsyncNet.Http.Http2ResponseFrames
import AsyncNet.Http.Http2Pushes
import AsyncNet.Http.RequestFidelity
import AsyncNet.Http.WebsocketFrames
import AsyncNet.Http.Uri
import AsyncNet.Http.QueryParameters
import AsyncNet.Http.ClientPool
import AsyncNet.Grpc.WireBounds
import AsyncNet.Grpc.ReaderQueue
import AsyncNet.Library.PriorityQueue
import AsyncNet.Io.Timers
import AsyncNet.Io.Throwing
import AsyncNet.Http.QpackSections
import AsyncNet.Http.H3FrameRoundTrip
import AsyncNet.Http.Http3Completion
import AsyncNet.Http.Http3HeaderLists
import AsyncNet.Http.Http3Sending
import AsyncNet.Grpc.MethodLookup
import AsyncNet.Grpc.Serving
import AsyncNet.Grpc.StreamingStarts
import AsyncNet.P2p.PeerMessages
import AsyncNet.P2p.TrackerLiveness
import AsyncNet.Executor.ProcessManager
import AsyncNet.Executor.WorkerPolicies
import AsyncNet.Executor.Reloads
import AsyncNet.Executor.ThreadWorkers
import AsyncNet.Executor.ForkWorkers
import AsyncNet.Executor.ThreadPool
import AsyncNet.Io.EpollInterest
import AsyncNet.Io.IoUringBackend
import AsyncNet.Io.IoUringOwnership
import AsyncNet.Io.IoUringControl
import AsyncNet.Executor.Schedule
import AsyncNet.Executor.ScheduledTasks
import AsyncNet.Executor.SleepCancellation
import AsyncNet.Http.PrefixIntegers
import AsyncNet.Http.QuicVarints
import AsyncNet.Http.Sha1
import AsyncNet.Io.PollTimeout
import AsyncNet.Io.WorkGuards
import AsyncNet.Io.DnsQueries
import AsyncNet.Io.DnsResponses
import AsyncNet.Http.Http2Connections
import AsyncNet.Grpc.ServerStreams
import AsyncNet.Coroutine.TaskRuns
import AsyncNet.Io.KqueueBackend
import AsyncNet.Io.IocpBackend
