import HermesRuntime.Lib.Interleave
import HermesRuntime.Lib.Table
import HermesRuntime.Payloads
import HermesRuntime.PayloadsProof
import HermesRuntime.Database
import HermesRuntime.RuntimeFunctions
import HermesRuntime.RuntimeFunctionsProof
import HermesRuntime.StoreInvariant
import HermesRuntime.Runtime
import HermesRuntime.Fencing
import HermesRuntime.RuntimeProof
import HermesRuntime.LinearAgreement
import HermesRuntime.Orchestrator
import HermesRuntime.World
import HermesRuntime.WorldProof
import HermesRuntime.Closing
import HermesRuntime.Kanban
import HermesRuntime.KanbanProof
import HermesRuntime.BlockedTask
import HermesRuntime.StaleWorker
import HermesRuntime.OrchestratorProof
import HermesRuntime.Recovery
import HermesRuntime.DoubleExecution
import HermesRuntime.AuditRows
import HermesRuntime.AuditTrail
import HermesRuntime.RunIds
import HermesRuntime.Lib.Firsts
import HermesRuntime.StatusHistory
import HermesRuntime.GuardPolicy
import HermesRuntime.CardMatch
import HermesRuntime.QualityGates
import HermesRuntime.LeaseExact
import HermesRuntime.EventLog
import HermesRuntime.PassOutcome
import HermesRuntime.Raising
import HermesRuntime.PassReports
import HermesRuntime.BoardCards
import HermesRuntime.PayloadContract
import HermesRuntime.UrlFields
import HermesRuntime.ExceptionText
import HermesRuntime.KanbanCalls
import HermesRuntime.KanbanTrace
import HermesRuntime.KanbanDeadline
import HermesRuntime.CallBranches
import HermesRuntime.IssueIsolation
import HermesRuntime.JsonText
import HermesRuntime.EventClasses
import HermesRuntime.TickProgress
import HermesRuntime.Lib.Positional
import HermesRuntime.RunIdOrder
import HermesRuntime.GuardBound
import HermesRuntime.LinearMoves
import HermesRuntime.PollerEnv
import HermesRuntime.Preflight
import HermesRuntime.ChainPin
import HermesRuntime.PinCoverage
import HermesRuntime.Lib.Handler
import HermesRuntime.LinearClient
import HermesRuntime.Tick
import HermesRuntime.TickTrace
import HermesRuntime.TickLayers
import HermesRuntime.TickWrites
import HermesRuntime.TickExit
import HermesRuntime.TickClock
import HermesRuntime.TickStore
import HermesRuntime.Lib.Lease
import HermesRuntime.StoreLease
import HermesRuntime.GuardPasses
import HermesRuntime.Canary
import HermesRuntime.CanaryProof
import HermesRuntime.SettingTexts
import HermesRuntime.TickUnseen
