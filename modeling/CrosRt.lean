import CrosRt.Foundations.LabelledRuns
import CrosRt.Foundations.ChainedTable
import CrosRt.Foundations.TracedArray
import CrosRt.Foundations.Draining
import CrosRt.Kernel.Primitives
import CrosRt.Driver.PortRegistry
import CrosRt.Driver.PortRegistryRuns
import CrosRt.Driver.RtQueues
import CrosRt.Driver.RtService
import CrosRt.Driver.IndexBounds
import CrosRt.Driver.NonRtQueue
import CrosRt.Handler.NonRtBackground
import CrosRt.Handler.RtHandler
import CrosRt.Handler.RtHandlerRuns
import CrosRt.Driver.Receive
import CrosRt.Driver.ReceiveAccounting
import CrosRt.Driver.MessageSelector
import CrosRt.Driver.QueueLifetime
import CrosRt.NetCore.NapiDispatch
import CrosRt.NetCore.NapiDispatchRuns
import CrosRt.Handler.NonRtPolling
import CrosRt.Driver.FrameClassification
import CrosRt.Driver.OpenClose
import CrosRt.Driver.KrtdSwitch
import CrosRt.Kernel.Softirq
import CrosRt.Kernel.SoftirqContexts
import CrosRt.NetCore.Gro
import CrosRt.NetCore.GroBatch
import CrosRt.Handler.HandlerGro
import CrosRt.Scripts.PortScripts
import CrosRt.Scripts.PortLogs
import CrosRt.NetCore.GroHandUp
import CrosRt.NetCore.TidPriority
import CrosRt.Scripts.ChainPatterns
import CrosRt.Handler.ModuleLifecycle
import CrosRt.Scripts.LatencyAnalysis
import CrosRt.Foundations.TextPattern
import CrosRt.Scripts.PriorityScript
import CrosRt.Foundations.RingWindow
import CrosRt.Driver.TxRing
import CrosRt.Driver.TxRingView
import CrosRt.Driver.TxRingReset
import CrosRt.Driver.TxRingRuns
import CrosRt.Driver.TxRingSafety
import CrosRt.Driver.TxQueue
import CrosRt.Foundations.Holder
import CrosRt.NetCore.NapiScheduling
import CrosRt.NetCore.NapiOwnership
import CrosRt.Driver.InterruptPoll
import CrosRt.Driver.InterruptPollRuns
import CrosRt.NetCore.FlowLimit
import CrosRt.NetCore.Backlog
import CrosRt.NetCore.BacklogBounds
import CrosRt.NetCore.BacklogQueues
import CrosRt.NetCore.BacklogAccounts
import CrosRt.Foundations.TicketLanes
import CrosRt.NetCore.BacklogOrder
import CrosRt.NetCore.BacklogWaking
import CrosRt.Scripts.ChainScript
import CrosRt.Foundations.SortedVector
import CrosRt.Middleware.ResourceEvent
import CrosRt.Middleware.ResourceEventRuns
import CrosRt.Middleware.ResourceEventWaits
import CrosRt.Middleware.ResourceEventCount
