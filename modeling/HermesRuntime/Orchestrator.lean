import HermesRuntime.Runtime

/-!
# The orchestrator (`selector.py`, `poller.py`, `orchestrator.py`)

One pass reads the issues of Linear, keeps those the label policy finds eligible, and for each
of them recovers an expired lock and executes the issue. A conflict or a block ends the turn of
an issue; any other exception ends the pass.
-/

namespace HermesRuntime

open Proc

/-! ## Selection -/

/-- `SelectionDecision.action` -/
inductive Action where
  | eligible | blocked | ignored
  deriving DecidableEq, Repr

/-- `SelectionDecision` -/
structure SelectionDecision where
  issue : Issue
  action : Action
  reason : Option String := none
  assignee : Option String := none
  risk : Option String := none
  executionMode : Option String := none
  environment : Option String := none
  deriving DecidableEq

/-- The issue of a snapshot. -/
def LinearIssueSnapshot.issue (s : LinearIssueSnapshot) : Issue :=
  ⟨s.identifier, s.labels, s.nodup, s.status⟩

/-- `LinearIssueSelector.select`. All that `classify_issue` raises is an `ExecutionBlocked`. -/
def select (snapshot : LinearIssueSnapshot) : SelectionDecision :=
  let issue := snapshot.issue
  if snapshot.status ≠ "Todo" then
    { issue, action := .ignored, reason := some "Only Todo issues are candidates" }
  else
    match classifyIssue issue with
    | .error exc => { issue, action := .blocked, reason := some exc.message }
    | .ok (assignee, risk, mode, environment) =>
        { issue
          action := .eligible
          assignee := some assignee
          risk := some risk
          executionMode := some mode
          environment := some environment }

/-! ## Polling -/

/-- `reason or fallback` -/
def orText (reason : Option String) (fallback : String) : String :=
  match reason with
  | some r => if r = "" then fallback else r
  | none => fallback

/-- The loop of `LinearIssuePoller.poll`. -/
def pollSnapshots (records : Bool) : List LinearIssueSnapshot → Proc (List SelectionDecision)
  | [] => pure []
  | snapshot :: rest => do
      let decision := select snapshot
      when (decision.action = .blocked && records)
        (recordBlocked snapshot.identifier (orText decision.reason "ExecutionBlocked"))
      let decisions ← pollSnapshots records rest
      pure (if decision.action = .eligible then decision :: decisions else decisions)

/-- `LinearIssuePoller.poll`; `records` says whether it has a block recorder. -/
def poll (records : Bool) : Proc (List SelectionDecision) := do
  let snapshots ← readIssues
  pollSnapshots records snapshots

/-! ## The pass -/

/-- `OrchestratorRunResult` -/
structure OrchestratorRunResult where
  issueId : String
  status : String
  runId : Option String := none
  reason : Option String := none
  deriving DecidableEq

/-- `RuntimeOrchestrator`: its runtime, and which callbacks it is given. -/
structure RuntimeOrchestrator where
  runtime : AgentRuntime
  hasMove : Bool
  pollerRecords : Bool
  records : Bool

/-- The turn of one eligible issue. -/
def RuntimeOrchestrator.processIssue (orch : RuntimeOrchestrator) (issue : Issue) :
    Proc OrchestratorRunResult := do
  let _ ← recover issue.identifier
  tryCatch
    (do
      let context ← orch.runtime.execute orch.hasMove issue
      pure { issueId := issue.identifier, status := "completed", runId := some context.runId })
    fun exc =>
      if exc.isConflict then do
        when orch.records (recordBlocked issue.identifier "RunConflict")
        pure { issueId := issue.identifier, status := "conflict", reason := some "RunConflict" }
      else if exc.isBlocked then do
        let reason := if exc.message = "" then exc.typeName else exc.message
        when orch.records (recordBlocked issue.identifier reason)
        pure { issueId := issue.identifier, status := "blocked", reason := some reason }
      else throw exc

/-- The loop of `run_once`. -/
def RuntimeOrchestrator.processIssues (orch : RuntimeOrchestrator) :
    List SelectionDecision → Proc (List OrchestratorRunResult)
  | [] => pure []
  | decision :: rest => do
      let result ← orch.processIssue decision.issue
      let results ← orch.processIssues rest
      pure (result :: results)

/-- `RuntimeOrchestrator.run_once` -/
def RuntimeOrchestrator.runOnce (orch : RuntimeOrchestrator) :
    Proc (List OrchestratorRunResult) := do
  let decisions ← poll orch.pollerRecords
  orch.processIssues decisions

end HermesRuntime
