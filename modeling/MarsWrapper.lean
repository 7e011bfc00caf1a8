import MarsWrapper.Foundation.LittleEndian
import MarsWrapper.Foundation.Block
import MarsWrapper.Foundation.OwnedHeap
import MarsWrapper.Foundation.PartialRun
import MarsWrapper.Foundation.Simulation
import MarsWrapper.Foundation.StreamLoop
import MarsWrapper.Foundation.FieldMap
import MarsWrapper.Foundation.Decimal
import MarsWrapper.Foundation.Postcondition
import MarsWrapper.Foundation.ObservedRun
import MarsWrapper.Foundation.GuardedRun
import MarsWrapper.Foundation.Components
import MarsWrapper.Foundation.SharedCounter
import MarsWrapper.Foundation.MutexThreads
import MarsWrapper.Model.SizeT
import MarsWrapper.Model.AutoBuffer
import MarsWrapper.Model.ImMessage
import MarsWrapper.Model.Stn
import MarsWrapper.Model.LonglinkPacker
import MarsWrapper.Model.ReceiveLoop
import MarsWrapper.Model.MarsTaskProxy
import MarsWrapper.Model.MarsPlus
import MarsWrapper.Model.StnCallBack
import MarsWrapper.Model.Turn
import MarsWrapper.Model.TaskEngine
import MarsWrapper.Model.ShortlinkPacker
import MarsWrapper.Model.TcpEchoServer
import MarsWrapper.Model.ThreadPrograms
import MarsWrapper.Ledger.Ledger
import MarsWrapper.Ledger.Ownership
import MarsWrapper.Ledger.Refinement
import MarsWrapper.Stream.FrameCodec
import MarsWrapper.Ledger.ValidRun
import MarsWrapper.Ledger.Numbering
import MarsWrapper.Ledger.QuietStep
import MarsWrapper.Ledger.StoreFrame
import MarsWrapper.Ledger.Accounting
import MarsWrapper.Tasks.ListenerProtocol
import MarsWrapper.Tasks.RoundTrip
import MarsWrapper.Tasks.SendSizes
import MarsWrapper.Tasks.EngineTasks
import MarsWrapper.Tasks.CorruptFrames
import MarsWrapper.Tasks.PushDelivery
import MarsWrapper.Stream.HostileBytes
import MarsWrapper.Stream.SizeCap
import MarsWrapper.Stream.CompleteFrames
import MarsWrapper.Stream.StaleMemory
import MarsWrapper.Stream.ShortlinkFraming
import MarsWrapper.Stream.Fragmentation
import MarsWrapper.Stream.Heartbeat
import MarsWrapper.Tasks.TaskIds
import MarsWrapper.Tasks.ListenerTransparency
import MarsWrapper.Tasks.Interleaving
import MarsWrapper.Tasks.Linearization
import MarsWrapper.Tasks.TornIds
import MarsWrapper.Tasks.StaticRaces
import MarsWrapper.Tasks.OneThread
import MarsWrapper.Tasks.HostileServer
import MarsWrapper.Tasks.Leaks
import MarsWrapper.Echo.Connection
import MarsWrapper.Echo.Refinement
import MarsWrapper.Echo.EchoRuns
import MarsWrapper.Echo.EchoRoundTrip
