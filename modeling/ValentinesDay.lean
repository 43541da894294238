import ValentinesDay.Verified.Run
import ValentinesDay.Verified.Pending
import ValentinesDay.Verified.Replay
import ValentinesDay.Verified.Versions
import ValentinesDay.Ports.Runtime
import ValentinesDay.Ports.Firestore
import ValentinesDay.Ports.Persistence
import ValentinesDay.Ports.HomePage
import ValentinesDay.Ports.RouteDrawing
import ValentinesDay.Ports.Riddle
import ValentinesDay.Ports.Lifecycle
import ValentinesDay.Ports.LastPath
import ValentinesDay.Ports.PlayerProgress
import ValentinesDay.Ports.Announcement
import ValentinesDay.Ports.ClueTable
import ValentinesDay.Ports.PassPhrase
import ValentinesDay.Ports.Hearts
import ValentinesDay.Ports.ReadSafety
import ValentinesDay.Ports.RiddleScreen
import ValentinesDay.Ports.Scanner
import ValentinesDay.Ports.ScannerQueue
import ValentinesDay.Ports.FieldTimers
import ValentinesDay.Ports.SharedAnnotations
import ValentinesDay.Ports.Mutations
import ValentinesDay.Verified.OrderedTable
import ValentinesDay.Ports.Queries
import ValentinesDay.Ports.MutationQueue
import ValentinesDay.Ports.PendingBatches
import ValentinesDay.Ports.QueueAgreement
import ValentinesDay.Ports.LocalDocuments
import ValentinesDay.Ports.DocumentSets
import ValentinesDay.Verified.FirstMembers
import ValentinesDay.Ports.QueryLimits
import ValentinesDay.Ports.QueryEngine
import ValentinesDay.Ports.IndexFree
import ValentinesDay.Ports.RemoteStore
import ValentinesDay.Ports.PipelinePhases
import ValentinesDay.Ports.WritePipeline
import ValentinesDay.Verified.Ledger
import ValentinesDay.Verified.Resend
import ValentinesDay.Ports.Backend
import ValentinesDay.Ports.CachedCopies
import ValentinesDay.Ports.SyncInvariant
import ValentinesDay.Ports.BackendSync
import ValentinesDay.Ports.Settling
import ValentinesDay.Ports.StoreChanges
import ValentinesDay.Ports.ViewChanges
import ValentinesDay.Ports.ViewResults
import ValentinesDay.Ports.QueryView
import ValentinesDay.Ports.QueryListeners
import ValentinesDay.Ports.ListenerRuns
