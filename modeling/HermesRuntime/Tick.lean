import HermesRuntime.KanbanCalls
import HermesRuntime.Lib.Handler
import HermesRuntime.LinearClient
import HermesRuntime.Supabase
import HermesRuntime.TickBound

/-!
# A tick (`poller_tick.py`)

`main` is one program over everything a tick touches: Linear and PostgREST, the board, the clock,
and the heartbeat thread. It is built in layers. The pass of the orchestrator calls the runtime's
callbacks; the adapter's loop calls `start`, `read_task` and the clock; `move_issue_status` and
`start` call Linear and the board. A handler for each layer carries its calls out by those of the
next, and `main` puts the preflight before them all.

* `readTask` — `read_task`
* `carryOut` — what each call of the pass is
* `main` — the whole tick
-/

namespace HermesRuntime

open Effects Prog

/-! ## Calls -/

/-- A row of the board's `tasks`, as `get_task` returns it. -/
structure TaskRow where
  status : String
  assignee : Option String := none
  deriving DecidableEq

/-- A row of the board's `task_runs`, as `latest_run` returns it. -/
structure TaskRun where
  outcome : Option String := none
  metadata : Option (Mapping PyVal) := none
  deriving DecidableEq

/-- The calls of a tick. -/
inductive TickCall where
  /-- The request of `lin.gql(TODO_ISSUES_QUERY, …)`. -/
  | queryTodo
  /-- The request of `linear.set_state`. -/
  | updateIssue (issueId stateId : String)
  /-- The request of `SupabaseStore._post`. -/
  | post (op : StoreOp)
  /-- Read the clock and draw random bits for `new_run_id`. -/
  | entropy
  /-- Start the heartbeat thread. -/
  | startHeartbeat (context : ExecutionContext) (ttlSeconds : Int)
  /-- Stop the heartbeat thread and wait for it: what its requests came to. -/
  | joinHeartbeat (context : ExecutionContext)
  /-- `list_tasks` and `create_task`. -/
  | board (i : BoardCall)
  /-- `get_task` -/
  | getTask (taskId : String)
  /-- `latest_run` -/
  | latestRun (taskId : String)
  | monotonic
  | sleep (seconds : ℚ)
  /-- The adapter polls on, for more turns than are looked at: nothing comes back. -/
  | pollOn
  deriving DecidableEq

/-- What comes back from a call of a tick. -/
def TickCall.Resp : TickCall → Type
  | .queryTodo => HttpReply (List LinearNode)
  | .updateIssue _ _ => HttpReply Bool
  | .post _ => Except Failure Bool
  | .entropy => Nat × Fin (2 ^ 80)
  | .startHeartbeat _ _ => Unit
  | .joinHeartbeat _ => List (Except Failure Bool)
  | .board i => i.Resp
  | .getTask _ => Except Exc (Option TaskRow)
  | .latestRun _ => Except Exc (Option TaskRun)
  | .monotonic => ℚ
  | .sleep _ => Unit
  | .pollOn => Empty

/-- A call of a tick with its answer. -/
abbrev TickEvent : Type := Event TickCall TickCall.Resp

/-- A program over the calls of a tick that may raise. -/
abbrev TickProc (α : Type) : Type := ExceptT Exc (Prog TickCall TickCall.Resp) α

namespace TickProc

/-- Return or raise what a pure computation came to. -/
def settle {α : Type} (x : Except Exc α) : TickProc α := ExceptT.mk (.ret x)

/-- One request to Linear, read by `read`. -/
def queryTodo : TickProc (List LinearNode) :=
  ExceptT.mk (.call .queryTodo fun reply => .ret (todoNodesOf reply))

/-- `linear.set_state(issue_id, state_id)` -/
def setState (issueId stateId : String) : TickProc Bool :=
  ExceptT.mk (.call (.updateIssue issueId stateId) fun reply => .ret (setStateOf reply))

/-- What `_post` returns or raises. -/
def answerOf (r : Except Failure Bool) : Except Exc Bool := r.mapError Failure.exc

/-- `_post`, whose answer is or is not `True`. -/
def post (op : StoreOp) : TickProc Bool :=
  ExceptT.mk (.call (.post op) fun r => .ret (answerOf r))

/-- `list_tasks(conn)` -/
def listTasks : TickProc (List BoardTask) := ExceptT.mk (.call (.board .listTasks) .ret)

/-- `get_task(conn, task_id)` -/
def getTask (taskId : String) : TickProc (Option TaskRow) :=
  ExceptT.mk (.call (.getTask taskId) .ret)

/-- `latest_run(conn, task_id)` -/
def latestRun (taskId : String) : TickProc (Option TaskRun) :=
  ExceptT.mk (.call (.latestRun taskId) .ret)

end TickProc

/-! ## Reading a task -/

/-- `dict(r.metadata or {}) if r else {}` -/
def runMetadata (run : Option TaskRun) : Mapping PyVal := (run.bind (·.metadata)).getD ∅

/-- The snapshot of a task with its latest run. -/
def snapshotOf (taskId : String) (task : TaskRow) (run : Option TaskRun) : KanbanTaskSnapshot where
  taskId := taskId
  status := task.status
  assignee := task.assignee
  metadata := runMetadata run
  latestRun := some { outcome := run.bind (·.outcome), metadata := runMetadata run }

/-- `read_task` -/
def readTask (taskId : String) : TickProc KanbanTaskSnapshot := do
  match ← TickProc.getTask taskId with
  | none => pure { taskId, status := "missing" }
  | some task => do
      let run ← TickProc.latestRun taskId
      pure (snapshotOf taskId task run)

/-! ## The layers under the pass -/

/-- What `move_issue_status` calls. -/
def carryOutLinear : (i : LinearCall) → Prog TickCall TickCall.Resp i.Resp
  | .setState issueId stateId => (do let _ ← TickProc.setState issueId stateId : TickProc Unit).run

/-- What `start` calls. -/
def carryOutBoard : (i : BoardCall) → Prog TickCall TickCall.Resp i.Resp
  | i => .call (.board i) .ret

/-- What the adapter calls. -/
def carryOutKanban : (i : KanbanCall) → Prog TickCall TickCall.Resp i.Resp
  | .start context => do
      let started ← handle carryOutBoard (HermesRuntime.start context).run
      pure (started.map .inl)
  | .readTask taskId => (readTask taskId).run
  | .monotonic => .call .monotonic .ret
  | .sleep seconds => .call (.sleep seconds) .ret

/-- The adapter, for so many turns of its loop. -/
def dispatchTask (polling : KanbanPolling) (fuel : Nat) (context : ExecutionContext) :
    Prog TickCall TickCall.Resp (Except Exc ExecutionResult) := do
  match ← handle carryOutKanban (adapterCall polling fuel context).run with
  | .ok (some result) => pure (.ok result)
  | .error exc => pure (.error exc)
  | .ok none => .call .pollOn Empty.elim

/-- `guarded_read_issues` -/
def guardedRead (bound : Int) : TickProc (List LinearIssueSnapshot) := do
  let nodes ← TickProc.queryTodo
  let snapshots := nodes.map (·.toLinearIssueSnapshot)
  if snapshots = [] then
    pure []
  else do
    let tasks ← TickProc.listTasks
    let existing := matchExistingCards tasks (snapshots.map (·.identifier))
    let outcome ← TickProc.settle (selectWithGuard snapshots existing.keys bound)
    pure outcome.dispatched

/-! ## The pass -/

/-- What the callbacks of `main` close over. -/
structure TickScope where
  runtime : AgentRuntime
  polling : KanbanPolling
  states : Mapping String
  issuesById : Mapping LinearNode
  bound : Int

/-- `SupabaseStore.event`: the payload is validated again, and the answer is empty. -/
def postEvent (context : ExecutionContext) (kind : String) (payload : Mapping PyVal) :
    TickProc Unit := do
  let body ← TickProc.settle (validateEventPayload kind (.mapping payload) >>= jsonBody)
  let _ ← TickProc.post
    (.insertEvent ⟨context.runId, context.linearIssueId, context.agent, kind, body⟩)
  pure ()

/-- What each call of the pass is. -/
def carryOut (t : TickScope) (fuel : Nat) : (i : Call) → Prog TickCall TickCall.Resp i.Resp
  | .entropy => .call .entropy .ret
  | .claim context ttl =>
      .call (.post (.claim (context.claimArgs ttl))) fun r => .ret (SupabaseStore.orRaise
        (.runConflict "Active run already exists for this issue") (TickProc.answerOf r))
  -- `SupabaseStore` is no `LockRejectionSink`
  | .lockRejected _ _ => .ret (.error {
      typeName := "AttributeError"
      message := "'SupabaseStore' object has no attribute 'lock_rejected'" })
  | .startHeartbeat context ttl => .call (.startHeartbeat context ttl) .ret
  | .joinHeartbeat context =>
      .call (.joinHeartbeat context) fun answers => .ret (answers.map TickProc.answerOf)
  | .moveStatus issueId status =>
      handle carryOutLinear (moveIssueStatus t.states t.issuesById issueId status).run
  | .event context kind payload => (postEvent context kind payload).run
  | .dispatch context => dispatchTask t.polling fuel context
  | .finish context status fields =>
      .call (.post (.finish context.runId context.linearIssueId status
          (.object (jsonFields fields)))) fun r => .ret (SupabaseStore.orRaise
        (.runtimeError "Run no longer owns the issue lock") (TickProc.answerOf r))
  | .recover issueId => (TickProc.post (.recover issueId)).run
  | .readIssues => (guardedRead t.bound).run
  -- `record_blocked` writes to the log
  | .recordBlocked _ _ => .ret (.ok ())

/-- `orchestrator.run_once()` -/
def tickPass (t : TickScope) (fuel : Nat) : TickProc (List OrchestratorRunResult) :=
  ExceptT.mk (handle (carryOut t fuel) (mainOrchestrator t.runtime).runOnce.run)

/-! ## The constructors -/

/-- `SupabaseStore.__init__` -/
def supabaseStore (url serviceKey : String) : Except Exc Unit :=
  if !startsWith url "https://" || serviceKey = "" then
    .error (.valueError "HTTPS Supabase URL and server-side key are required")
  else .ok ()

/-- `AgentRuntime.__init__`, over a `SupabaseStore`. -/
def agentRuntime (ttlSeconds heartbeatSeconds : Int) : Except Exc AgentRuntime :=
  if h : 10 ≤ ttlSeconds ∧ 1 ≤ heartbeatSeconds ∧ heartbeatSeconds * 2 < ttlSeconds then
    .ok ⟨false, ttlSeconds, heartbeatSeconds, h.1, h.2.1, h.2.2⟩
  else .error (.valueError "heartbeat must be less than half the lock TTL")

/-- `kanban_dispatch_adapter`, of its durations. -/
def kanbanDispatchAdapter (pollSeconds timeoutSeconds : ℚ) : Except Exc KanbanPolling :=
  if hpoll : 0 < pollSeconds then
    if htimeout : 0 < timeoutSeconds then .ok ⟨pollSeconds, timeoutSeconds, hpoll, htimeout⟩
    else .error (.valueError "timeout_seconds must be positive")
  else .error (.valueError "poll_seconds must be positive")

/-! ## `main` -/

/-- The settings `poller_tick` reads when it is imported. -/
structure TickSettings where
  /-- `CLAIM_TTL_SECONDS` -/
  ttlSeconds : Int := 600
  /-- `HEARTBEAT_SECONDS` -/
  heartbeatSeconds : Int := 30
  /-- `POLL_SECONDS` -/
  pollSeconds : ℚ := 5
  /-- `RUN_TIMEOUT_SECONDS` -/
  timeoutSeconds : ℚ := 3600
  /-- `POLLER_LINEAR_STATE_BLOCKED` -/
  blockedState : Option String := none

/-- What `main` sets up before the pass, once the secrets are there. -/
def tickScope (files : Files) (environ : Mapping String) (s : TickSettings) :
    TickProc TickScope := do
  let environ ← TickProc.settle (exportIntoEnviron files environ)
  let _ ← TickProc.settle (linearKey files)
  let nodes ← TickProc.queryTodo
  let (url, serviceKey) ← TickProc.settle (fromEnvironment environ)
  TickProc.settle (supabaseStore url serviceKey)
  let runtime ← TickProc.settle (agentRuntime s.ttlSeconds s.heartbeatSeconds)
  let polling ← TickProc.settle (kanbanDispatchAdapter s.pollSeconds s.timeoutSeconds)
  pure {
    runtime, polling
    states := linearStatusStates s.blockedState
    issuesById := issuesById nodes
    bound := resolveBound environ }

/-- `main`: the exit status of a tick. -/
def main (files : Files) (environ : Mapping String) (s : TickSettings) (fuel : Nat) :
    TickProc Nat := do
  let missing ← TickProc.settle (missingRequired files environ)
  if missing ≠ [] then
    pure 78
  else do
    let scope ← tickScope files environ s
    tryCatch
      (do
        let _ ← tickPass scope fuel
        pure 0)
      fun _ => pure 1

end HermesRuntime
