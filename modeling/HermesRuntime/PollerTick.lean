import HermesRuntime.Kanban
import HermesRuntime.Orchestrator
import HermesRuntime.PollerGuard

/-!
# The tick (`poller_tick.py`)

The issues a tick starts from are the ones the guard lets through of those it reads. Their status
in Linear is moved by the ids an earlier read has found.

`start` hands an issue to the dispatcher of the board: it looks for a card of the issue once more
and creates one where there is none. The two look at the board in connections of their own, so
what others do may come in between.
-/

namespace HermesRuntime

open Effects

/-! ## Reading -/

/-- `TODO_ISSUES_QUERY`: the first 50 of the Todo issues, in the order Linear lists them. -/
def todoIssues (issues : List LinearIssueSnapshot) : List LinearIssueSnapshot :=
  (issues.filter (·.status = "Todo")).take 50

/-- `guarded_read_issues`, over the issues in Linear and the tasks on the board. -/
def guardedReadIssues (issues : List LinearIssueSnapshot) (tasks : List BoardTask)
    (maxDispatch : Int) : Except Exc (List LinearIssueSnapshot) := do
  let snapshots := todoIssues issues
  if snapshots = [] then
    pure []
  else
    let existing := matchExistingCards tasks (snapshots.map (·.identifier))
    let outcome ← selectWithGuard snapshots existing.keys maxDispatch
    pure outcome.dispatched

/-! ## Moving -/

/-- A node of the answer to `TODO_ISSUES_QUERY`: the issue with its id. -/
structure LinearNode extends LinearIssueSnapshot where
  id : String
  deriving DecidableEq

/-- The issues of the team in Linear, whose identifiers tell them apart. -/
structure LinearTeam where
  nodes : List LinearNode
  nodup : (nodes.map (·.identifier)).Nodup

/-- The issues as `read_issues` returns them. -/
def LinearTeam.issues (team : LinearTeam) : List LinearIssueSnapshot :=
  team.nodes.map (·.toLinearIssueSnapshot)

/-- The nodes of the answer to `TODO_ISSUES_QUERY`. -/
def LinearTeam.todoNodes (team : LinearTeam) : List LinearNode :=
  (team.nodes.filter (·.status = "Todo")).take 50

/-- The loop of `main` that fills `issues_by_id`. -/
def issuesById (nodes : List LinearNode) : Mapping LinearNode :=
  nodes.foldl (fun found n => found.set n.identifier n) ∅

/-- `STATE_IN_PROGRESS` -/
def stateInProgress : String := "f7acf339-dc31-433b-8e26-574a2cae1aba"

/-- `STATE_IN_REVIEW` -/
def stateInReview : String := "39604746-b04c-4488-a8b3-2a1bdfbade04"

/-- `STATE_BLOCKED`, by `POLLER_LINEAR_STATE_BLOCKED`. -/
def stateBlocked (setting : Option String) : String :=
  setting.getD "142dc11e-7d2b-45d6-8122-7f0015d26c7b"

/-- `LINEAR_STATUS_STATES` -/
def linearStatusStates (setting : Option String) : Mapping String :=
  let states : Mapping String :=
    .mk [⟨"In Progress", stateInProgress⟩, ⟨"In Review", stateInReview⟩]
  if stateBlocked setting = "" then states else states.set "Blocked" (stateBlocked setting)

/-- The calls to Linear that change an issue. -/
inductive LinearCall where
  /-- `linear.set_state` -/
  | setState (issueId stateId : String)
  deriving DecidableEq

/-- What comes back from a call to Linear. -/
def LinearCall.Resp : LinearCall → Type
  | .setState _ _ => Except Exc Unit

/-- A call to Linear with its answer. -/
abbrev LinearEvent : Type := Event LinearCall LinearCall.Resp

/-- A program that calls Linear and may raise. -/
abbrev LinearProc (α : Type) : Type := ExceptT Exc (Prog LinearCall LinearCall.Resp) α

/-- `linear.set_state(issue_id, state_id)` -/
def setState (issueId stateId : String) : LinearProc Unit :=
  ExceptT.mk (.call (.setState issueId stateId) .ret)

/-- `move_issue_status` -/
def moveIssueStatus (states : Mapping String) (issuesById : Mapping LinearNode)
    (identifier status : String) : LinearProc Unit :=
  match issuesById.lookup identifier with
  -- an unknown issue is logged and ignored, and so is a status without a state
  | none => pure ()
  | some target =>
      match states.lookup status with
      | none => pure ()
      | some stateId => setState target.id stateId

/-- The orchestrator of `main`, which gives it every callback. -/
def mainOrchestrator (runtime : AgentRuntime) : RuntimeOrchestrator where
  runtime := runtime
  hasMove := true
  pollerRecords := true
  records := true

/-! ## Dispatching -/

/-- The fields `start` gives `create_task`. -/
structure TaskDraft where
  title : String
  body : String
  assignee : String
  createdBy : String
  workspaceKind : String
  priority : Int
  idempotencyKey : String
  deriving DecidableEq

/-- The calls to the board. -/
inductive BoardCall where
  /-- `list_tasks` -/
  | listTasks
  /-- `create_task` -/
  | createTask (draft : TaskDraft)
  deriving DecidableEq

/-- What comes back from a call to the board. -/
def BoardCall.Resp : BoardCall → Type
  | .listTasks => Except Exc (List BoardTask)
  | .createTask _ => Except Exc String

/-- A call to the board with its answer. -/
abbrev BoardEvent : Type := Event BoardCall BoardCall.Resp

/-- A program that calls the board and may raise. -/
abbrev BoardProc (α : Type) : Type := ExceptT Exc (Prog BoardCall BoardCall.Resp) α

/-- `list_tasks(conn)` -/
def listTasks : BoardProc (List BoardTask) := ExceptT.mk (.call .listTasks .ret)

/-- `create_task(conn, …)` -/
def createTask (draft : TaskDraft) : BoardProc String := ExceptT.mk (.call (.createTask draft) .ret)

/-- The key `start` creates the card of an issue with. -/
def runtimeKey (issueId : String) : String := "runtime:linear:" ++ issueId

/-- The card `start` creates. -/
def runtimeDraft (context : ExecutionContext) : TaskDraft where
  title := "[runtime] " ++ context.linearIssueId
  body := "Runtime dispatch for Linear " ++ context.linearIssueId ++ " (agent " ++ context.agent ++
    ").\n\nExecutar a implementacao descrita na issue Linear e concluir este card com evidencia.\n"
  assignee := context.agent
  createdBy := "runtime-poller"
  workspaceKind := "scratch"
  priority := 20
  idempotencyKey := runtimeKey context.linearIssueId

/-- The policy check of `start`. -/
def requiresHuman (context : ExecutionContext) : Bool :=
  context.executionMode ≠ "auto" || context.risk ∈ ["high", "critical"] ||
    context.environment = "production"

/-- `start` -/
def start (context : ExecutionContext) : BoardProc String := do
  if requiresHuman context then
    throw (.executionBlocked "dispatch guard: issue requires human intervention")
  let tasks ← listTasks
  match truthy ((matchExistingCards tasks [context.linearIssueId]).lookup
      context.linearIssueId) with
  | some existing => pure existing
  | none => createTask (runtimeDraft context)

end HermesRuntime
