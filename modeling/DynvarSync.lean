import DynvarSync.Broker.RouteDirection
import DynvarSync.Broker.Lines
import DynvarSync.Windbg.SocketClient
import DynvarSync.Lib.JsonText
import DynvarSync.Lib.CText
import DynvarSync.Ida.CycleDetection
import DynvarSync.Ida.StackDefinition
import DynvarSync.Ida.MemReplies
import DynvarSync.Ida.VRecoveryHistory
import DynvarSync.Ida.VRecoveryMachine
import DynvarSync.Ida.CoreEntryNames
import DynvarSync.Ida.ControllerDisplay
import DynvarSync.Windbg.RequestText
import DynvarSync.Ida.RequestShapes
import DynvarSync.Windbg.RequestDecoding
import DynvarSync.Windbg.MemoryHandler
import DynvarSync.Windbg.StackArgumentAnswers
import DynvarSync.Windbg.RegisterHandler
import DynvarSync.Ida.CoreValues
import DynvarSync.Ida.CoreWaiting
import DynvarSync.Ida.CoreTypes
import DynvarSync.Ida.SelectionRotation
import DynvarSync.Ida.DistinctArguments
import DynvarSync.Ida.PrototypePositions
import DynvarSync.Windbg.ResponseWriters
import DynvarSync.Windbg.ResponseBuffers
import DynvarSync.Windbg.PcUpdateWriter
import DynvarSync.Ida.DuplicateClaims
import DynvarSync.Ida.RetiredRequests
import DynvarSync.Ida.HistoryPruning
import DynvarSync.Windbg.StepSequence
import DynvarSync.Windbg.LineResync
import DynvarSync.Session.Freshness
import DynvarSync.Ida.ProvenRows
import DynvarSync.Session.Transport
import DynvarSync.Windbg.Winsock
import DynvarSync.Session.Draining
import DynvarSync.Session.Channels
import DynvarSync.Ida.MessageQueue
