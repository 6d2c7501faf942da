import Tymux.Lib.Run
import Tymux.Model.Basic
import Tymux.Model.Layout
import Tymux.Model.Window
import Tymux.Model.Restart
import Tymux.Model.Supervision
import Tymux.Analysis.LayoutGeometry
import Tymux.Analysis.ViewportFloor
import Tymux.Analysis.RestartBudget
import Tymux.Analysis.SupervisorInvariant
import Tymux.Analysis.SupervisionRuns
import Tymux.Analysis.StopSticky
import Tymux.Model.Input
import Tymux.Analysis.KeystrokeOrder
import Tymux.Analysis.PasteIsolation
import Tymux.Model.Attach
import Tymux.Analysis.AttachDelivery
import Tymux.Model.Replay
import Tymux.Model.Engine
import Tymux.Analysis.EngineLayout
import Tymux.Analysis.EngineInvariant
import Tymux.Analysis.EngineConsistency
import Tymux.Lib.Total
import Tymux.Model.Vt.Cell
import Tymux.Model.Vt.Grid
import Tymux.Model.Vt.Reflow
import Tymux.Model.Vt.Screen
import Tymux.Lib.Paired
import Tymux.Model.Vt.Perform
import Tymux.Analysis.Vt.Rows
import Tymux.Analysis.Vt.Grids
import Tymux.Analysis.Vt.Drawing
import Tymux.Analysis.Vt.Screens
import Tymux.Analysis.Vt.Controls
import Tymux.Analysis.LayoutTiling
import Tymux.Lib.Binary32
import Tymux.Model.Persistence
import Tymux.Analysis.PersistedRecords
import Tymux.Analysis.RecordAdmission
import Tymux.Analysis.RecordFixpoint
import Tymux.Analysis.ExitOrder
import Tymux.Model.Scanner
import Tymux.Analysis.Tokenizing
import Tymux.Analysis.Answering
import Tymux.Analysis.QueryWalk
import Tymux.Analysis.Scanning
import Tymux.Analysis.StripAgreement
import Tymux.Analysis.Vte
import Tymux.Analysis.ScannerHandoff
import Tymux.Model.Reader
import Tymux.Analysis.NeverBoth
import Tymux.Analysis.ReplayQueries
import Tymux.Model.Handoff
import Tymux.Analysis.HandoffOperations
import Tymux.Model.Priming
import Tymux.Analysis.LastPrinted
import Tymux.Analysis.LivePayloads
import Tymux.Analysis.Spelling
import Tymux.Analysis.SnapshotPriming
import Tymux.Analysis.Vt.Trimming
import Tymux.Analysis.Vt.Widening
import Tymux.Lib.Overlay
import Tymux.Analysis.Vt.Narrowing
import Tymux.Analysis.Vt.Representation
import Tymux.Analysis.ReplyGenerations
import Tymux.Model.ReplayBudget
import Tymux.Analysis.ReplayBudgets
import Tymux.Analysis.PidSignals
import Tymux.Analysis.ResizeConvergence
import Tymux.Analysis.ExitAccounting
import Tymux.Analysis.SessionIndexing
import Tymux.Model.EngineCalls
import Tymux.Analysis.SessionPlaces
import Tymux.Analysis.EngineIndices
import Tymux.Analysis.PaneRectangles
import Tymux.Model.Processes
import Tymux.Analysis.ProcessLedger
import Tymux.Analysis.OneProcess
import Tymux.Analysis.RecordShape
import Tymux.Analysis.StoredRecords
import Tymux.Analysis.PersistOrder
import Tymux.Analysis.RecordSteps
import Tymux.Analysis.CurrentRecords
import Tymux.Analysis.ReplayLaw
import Tymux.Model.Watching
import Tymux.Analysis.ViewportRelease
import Tymux.Analysis.WindowTrees
import Tymux.Analysis.WindowWatch
import Tymux.Analysis.WatchAgreement
import Tymux.Model.LastWords
import Tymux.Analysis.StreamEnd
import Tymux.Analysis.DeniedCalls
import Tymux.Analysis.ReadBoundaries
import Tymux.Analysis.C1Pairs
import Tymux.Lib.LockOrder
import Tymux.Lib.LockSoundness
import Tymux.Model.Locking
import Tymux.Analysis.DeadlockFreedom
import Tymux.Model.LayoutVec
import Tymux.Analysis.LayoutEdits
import Tymux.Analysis.SplitFloor
import Tymux.Model.Creation
import Tymux.Analysis.FailedCreation
import Tymux.Analysis.SessionPolicies
import Tymux.Analysis.PolicyRuns
import Tymux.Analysis.Vt.Relabelling
import Tymux.Analysis.Vt.RelabelledResize
import Tymux.Analysis.Vt.RelabelledScreens
import Tymux.Analysis.Vt.BlankAttrs
import Tymux.Analysis.Vt.Hyperlinks
import Tymux.Analysis.Vt.HyperlinkRuns
import Tymux.Analysis.Vt.LineCounts
import Tymux.Analysis.ReplyRate
import Tymux.Analysis.PasteContent
import Tymux.Model.FailoverStream
import Tymux.Analysis.ReceiveDiscipline
import Tymux.Model.Config
import Tymux.Analysis.BindingReach
import Tymux.Analysis.StatusMode
import Tymux.Analysis.CopySelection
import Tymux.Analysis.CaptureText
import Tymux.Analysis.Vt.Padding
import Tymux.Analysis.SearchText
import Tymux.Analysis.Vt.RestingGrids
import Tymux.Analysis.Vt.RestingScreens
import Tymux.Analysis.Vt.RestingResize
import Tymux.Analysis.ReadsChangeNothing
import Tymux.Analysis.SgrSequence
import Tymux.Analysis.SgrDiff
import Tymux.Analysis.ReprobeClaims
import Tymux.Lib.UnixPath
import Tymux.Model.Startup
import Tymux.Analysis.FlagPrecedence
import Tymux.Analysis.DefaultSocketPath
import Tymux.Model.Pruning
import Tymux.Analysis.PrunedRecords
import Tymux.Lib.LinkWalk
import Tymux.Model.SocketTrust
import Tymux.Analysis.TrustedSockets
import Tymux.Analysis.Vt.RowsAbove
import Tymux.Analysis.Vt.WritingBelow
import Tymux.Analysis.RestartBanner
import Tymux.Model.SupervisorTask
import Tymux.Analysis.SupervisorWakes
import Tymux.Model.DaemonStartup
import Tymux.Analysis.SoleListener
import Tymux.Analysis.SoloStart
import Tymux.Model.SessionStore
import Tymux.Analysis.SessionStore
