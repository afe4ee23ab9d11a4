import ZeroDowntime.Versioned
import ZeroDowntime.Statements
import ZeroDowntime.Ranked
import ZeroDowntime.ApiSchema
import ZeroDowntime.ApiWrites
import ZeroDowntime.Lineage
import ZeroDowntime.ApiHistory
import ZeroDowntime.Edits
import ZeroDowntime.ApiEdits
import ZeroDowntime.ApiReassign
import ZeroDowntime.ApiReads
import ZeroDowntime.ApiTargets
import ZeroDowntime.Paging
import ZeroDowntime.ApiPaginator
import ZeroDowntime.ApiPages
import ZeroDowntime.LastWrite
import ZeroDowntime.ApiEffective
import ZeroDowntime.ApiVersions
import ZeroDowntime.ApiDeployed
import ZeroDowntime.Runs
import ZeroDowntime.Arrivals
import ZeroDowntime.Upserts
import ZeroDowntime.ApiDevices
import ZeroDowntime.ApiReported
import ZeroDowntime.ApiRegister
import ZeroDowntime.ApiAuth
import ZeroDowntime.ApiAudit
import ZeroDowntime.ApiTriggers
import ZeroDowntime.ApiJournal
import ZeroDowntime.ApiTrail
import ZeroDowntime.DeviceJwt
import ZeroDowntime.MergeJoin
import ZeroDowntime.Reconcile
import ZeroDowntime.Lifecycle
import ZeroDowntime.LifecycleAwaits
import ZeroDowntime.LifecycleTrace
import ZeroDowntime.LifecycleFailures
import ZeroDowntime.AppCycle
import ZeroDowntime.AppConverge
import ZeroDowntime.AppOrder
import ZeroDowntime.AppActions
import ZeroDowntime.ImageReferences
import ZeroDowntime.AppNames
import ZeroDowntime.AppOrphans
import ZeroDowntime.OsLoop
import ZeroDowntime.OsCountdown
import ZeroDowntime.OsWaiting
import ZeroDowntime.OsFreeze
import ZeroDowntime.OsOnce
import ZeroDowntime.AppLoop
import ZeroDowntime.Interlock
import ZeroDowntime.Shipping
import ZeroDowntime.DeviceLogs
import ZeroDowntime.AppLogs
import ZeroDowntime.LogBatches
import ZeroDowntime.Tailing
import ZeroDowntime.LogRanges
import ZeroDowntime.ApiLogPages
import ZeroDowntime.Broadcast
import ZeroDowntime.ApiLogStream
import ZeroDowntime.Grouping
import ZeroDowntime.ApiSummaries
import ZeroDowntime.Serials
import ZeroDowntime.ApiStore
import ZeroDowntime.ApiIntegrity
import ZeroDowntime.ApiDeletable
import ZeroDowntime.Journal
import ZeroDowntime.StatementChanges
import ZeroDowntime.LogFlush
import ZeroDowntime.LogPath
import ZeroDowntime.Past
import ZeroDowntime.AppReports
import ZeroDowntime.DeviceApps
import ZeroDowntime.Fleet
import ZeroDowntime.Convergence
import ZeroDowntime.Onboarding
import ZeroDowntime.Onboarded
import ZeroDowntime.SqlText
import ZeroDowntime.Timescale
import ZeroDowntime.TimescaleFunctions
import ZeroDowntime.TimescaleIntervals
import ZeroDowntime.Viewport
import ZeroDowntime.LogPane
import ZeroDowntime.Wrapping
import ZeroDowntime.LogWrap
import ZeroDowntime.LogViewer
import ZeroDowntime.LogSubscription
import ZeroDowntime.Pipes
import ZeroDowntime.Executer
