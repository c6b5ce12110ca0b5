import YxAlpha.Http.Context
import YxAlpha.Http.Dispatch
import YxAlpha.Http.HeaderSection
import YxAlpha.Http.InsidePayload
import YxAlpha.Http.KeepAlive
import YxAlpha.Http.Pointers
import YxAlpha.Http.Rejection
import YxAlpha.Http.Request
import YxAlpha.Http.RequestLine
import YxAlpha.Http.RequestText
import YxAlpha.Http.Response
import YxAlpha.Http.Scan
import YxAlpha.Http.Server
import YxAlpha.Http.Serving
import YxAlpha.Http.Termination
import YxAlpha.Http.Transcript
import YxAlpha.Library.Calendar
import YxAlpha.Library.Condition
import YxAlpha.Library.Copying
import YxAlpha.Library.Delimiter
import YxAlpha.Library.FixedWidth
import YxAlpha.Library.LittleEndian
import YxAlpha.Library.Machine
import YxAlpha.Library.Reading
import YxAlpha.Library.RoundRobin
import YxAlpha.Library.SelfDelimiting
import YxAlpha.Library.Suffix
import YxAlpha.Logger.AsyncLogging
import YxAlpha.Logger.BufferExchange
import YxAlpha.Logger.Convert
import YxAlpha.Logger.FixedBuffer
import YxAlpha.Logger.LineOrder
import YxAlpha.Logger.LogFile
import YxAlpha.Logger.LogRecord
import YxAlpha.Logger.LogStream
import YxAlpha.Logger.OnDisk
import YxAlpha.Logger.RecordTime
import YxAlpha.Logger.StartHandshake
import YxAlpha.Logger.StopDrains
import YxAlpha.Net.Acceptor
import YxAlpha.Net.CrossThreadSend
import YxAlpha.Net.FlowControl
import YxAlpha.Net.Flush
import YxAlpha.Net.GracefulShutdown
import YxAlpha.Net.HangUp
import YxAlpha.Net.InetAddr
import YxAlpha.Net.InterestList
import YxAlpha.Net.Lifecycle
import YxAlpha.Net.LoopBalance
import YxAlpha.Net.OutputStream
import YxAlpha.Net.RawTasks
import YxAlpha.Net.ServerInvariant
import YxAlpha.Net.Settling
import YxAlpha.Net.TcpConnection
import YxAlpha.Net.TcpServer
import YxAlpha.Reactor.DispatchThread
import YxAlpha.Reactor.Dispatcher
import YxAlpha.Reactor.DispatcherPool
import YxAlpha.Reactor.Selector
import YxAlpha.Reactor.TaskOrder
import YxAlpha.Reactor.Wakeup
import YxAlpha.Thread.CountDownLatch
import YxAlpha.Thread.CurrentThread
import YxAlpha.Thread.NestedTasks
import YxAlpha.Thread.PoolAsserts
import YxAlpha.Thread.PoolCycles
import YxAlpha.Thread.PoolInvariant
import YxAlpha.Thread.PoolStop
import YxAlpha.Thread.PoolTasks
import YxAlpha.Thread.PoolWakeup
import YxAlpha.Thread.Thread
import YxAlpha.Thread.ThreadPool
import YxAlpha.Time.Timestamp
import YxAlpha.Utility.Buffer
import YxAlpha.Utility.BufferHistory
import YxAlpha.Utility.ByteQueue
import YxAlpha.Utility.Bytes
import YxAlpha.Utility.Extraction
import YxAlpha.Utility.RawBuffer
