import Rialto.Client.Answers
import Rialto.Client.Descriptors
import Rialto.Client.MediaPipeline
import Rialto.Client.Requests
import Rialto.Client.SharedMemory
import Rialto.Client.Unmapping
import Rialto.Common.EventThread
import Rialto.Common.Timer
import Rialto.Ipc.BufferPool
import Rialto.Ipc.Calls
import Rialto.Ipc.ClientChannel
import Rialto.Ipc.DescriptorOwnership
import Rialto.Ipc.Disconnect
import Rialto.Ipc.EventLoop
import Rialto.Ipc.FileDescriptors
import Rialto.Ipc.Places
import Rialto.Ipc.Sending
import Rialto.Ipc.Server
import Rialto.Ipc.ServerCalls
import Rialto.Ipc.ServerClients
import Rialto.Ipc.ServerLifetime
import Rialto.Ipc.ServerSteps
import Rialto.Ipc.SocketLock
import Rialto.Ipc.Subscriptions
import Rialto.Ipc.Timeouts
import Rialto.Keys.Cdm
import Rialto.Keys.CdmData
import Rialto.Keys.ClientRegistry
import Rialto.Keys.Decryption
import Rialto.Keys.DeferredClose
import Rialto.Keys.Effects
import Rialto.Keys.OcdmSession
import Rialto.Keys.Routing
import Rialto.Keys.Sessions
import Rialto.Keys.UsageCounters
import Rialto.Lib.Cyclic
import Rialto.Lib.Endian
import Rialto.Lib.History
import Rialto.Lib.Layout
import Rialto.Lib.Memory
import Rialto.Lib.OrdMap
import Rialto.Lib.Queue
import Rialto.Lib.Remote
import Rialto.Lib.Runs
import Rialto.Lib.WaitFor
import Rialto.Lib.Word
import Rialto.Lib.WordRing
import Rialto.Link.Agreement
import Rialto.Link.AttachSource
import Rialto.Link.ClientSteps
import Rialto.Link.Connection
import Rialto.Link.DataPath
import Rialto.Link.MediaKeys
import Rialto.Link.MediaPipelineCalls
import Rialto.Link.Notifications
import Rialto.Link.Tracking
import Rialto.Link.WebAudioCalls
import Rialto.Logging.EnvVariable
import Rialto.Manager.AppManager
import Rialto.Manager.Instances
import Rialto.Manager.Processes
import Rialto.Media.Accounting
import Rialto.Media.FrameWriter
import Rialto.Media.Frames
import Rialto.Media.FramesV1
import Rialto.Media.FramesV2
import Rialto.Media.ReadRanges
import Rialto.Media.RoundTripV1
import Rialto.Media.Segment
import Rialto.Media.WriterV1
import Rialto.Media.WriterV2
import Rialto.Pipeline.EndOfStream
import Rialto.Pipeline.InFlight
import Rialto.Pipeline.Obligation
import Rialto.Pipeline.Pending
import Rialto.Pipeline.Queues
import Rialto.Pipeline.Region
import Rialto.Pipeline.Requests
import Rialto.Pipeline.Seek
import Rialto.Pipeline.Session
import Rialto.Player.Attach
import Rialto.Player.Buffered
import Rialto.Player.Buffers
import Rialto.Player.BusMessages
import Rialto.Player.Capabilities
import Rialto.Player.Context
import Rialto.Player.PlaybackRate
import Rialto.Player.Shutdown
import Rialto.Player.SubSamples
import Rialto.Player.Underflow
import Rialto.Server.Acts
import Rialto.Server.CircularWait
import Rialto.Server.Execution
import Rialto.Server.MainThread
import Rialto.Server.TaskDiscipline
import Rialto.Server.Threads
import Rialto.Server.Waits
import Rialto.Service.Ownership
import Rialto.Service.Partitions
import Rialto.Service.Players
import Rialto.Service.SessionServer
import Rialto.Shm.Buffer
import Rialto.Shm.Contents
import Rialto.Shm.Isolation
import Rialto.Shm.Mapping
import Rialto.Shm.Sizes
import Rialto.WebAudio.Client
import Rialto.WebAudio.ClientCopy
import Rialto.WebAudio.EosOrder
import Rialto.WebAudio.FrameCounts
import Rialto.WebAudio.HandOver
import Rialto.WebAudio.Ring
import Rialto.WebAudio.Server
import Rialto.WebAudio.Stream
import Rialto.WebAudio.Wakeups
import Rialto.WebAudio.WriteTask
