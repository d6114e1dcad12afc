import HermesRuntime.Database

/-!
# The runtime functions (`001_runtime_functions.sql`)

The four functions the runtime calls, each one transaction, and the operator's release of a
blocked issue. PostgreSQL runs them serializably for one issue: claims and recoveries take an
advisory lock, heartbeats and finishes the row lock of the execution lock they match.

* `StoreOp.apply` — one call at one time; a call that raises leaves the tables as they were.
* `runOps` — a sequence of calls.
-/

namespace HermesRuntime

open Txn

/-- `Invalid lock TTL` is raised outside this range. -/
def validTtl (ttlSeconds : Int) : Bool := 10 ≤ ttlSeconds && ttlSeconds ≤ 86400

/-! ## `hermes_claim_run` -/

/-- The arguments of `hermes_claim_run`. -/
structure ClaimArgs where
  runId : String
  issueId : String
  agent : String
  risk : Option String
  mode : Option String
  environment : Option String
  ttlSeconds : Int
  deriving DecidableEq

/-- The run a claim inserts. -/
def ClaimArgs.queuedRun (a : ClaimArgs) (startedAt : Option Timestamp) : AgentRun where
  runId := a.runId
  linearIssueId := a.issueId
  agent := a.agent
  status := .queued
  risk := a.risk
  executionMode := a.mode
  environment := a.environment
  startedAt := startedAt

/-- The columns a claim writes once both rows are inserted. -/
def AgentRun.running (now : Timestamp) (x : AgentRun) : AgentRun :=
  { x with status := .running, heartbeatAt := some now }

/-- The lock a claim inserts. -/
def ClaimArgs.lock (a : ClaimArgs) (now : Timestamp) (heartbeatAt : Option Timestamp) :
    AgentExecutionLock where
  linearIssueId := a.issueId
  runId := a.runId
  agent := a.agent
  expiresAt := now + seconds a.ttlSeconds
  heartbeatAt := heartbeatAt

/-- The events a successful claim inserts. -/
def ClaimArgs.startEvents (a : ClaimArgs) (now : Timestamp) : List AgentEvent := [
  ⟨a.runId, a.issueId, a.agent, "run.created", .mk []⟩,
  ⟨a.runId, a.issueId, a.agent, "lock.acquired", .mk [
    ⟨"ttl_seconds", .num a.ttlSeconds 0⟩,
    ⟨"expires_at", .str (isoText (now + seconds a.ttlSeconds))⟩]⟩,
  ⟨a.runId, a.issueId, a.agent, "run.started", .mk [
    ⟨"risk", .ofText a.risk⟩, ⟨"execution_mode", .ofText a.mode⟩,
    ⟨"environment", .ofText a.environment⟩]⟩]

/-- The event a rejected claim leaves on the run that holds the issue. -/
def lockRejectedEvent (holderRun issueId holderAgent attemptedRun : String) : AgentEvent :=
  ⟨holderRun, issueId, holderAgent, "lock.rejected", .mk [
    ⟨"reason", .str "RunConflict"⟩, ⟨"attempted_run_id", .str attemptedRun⟩]⟩

/-- The exception block of a claim: audit the holder, if there is one. -/
def rejectClaim (a : ClaimArgs) : Txn Bool := do
  let lock ← selectLock fun l => l.linearIssueId = a.issueId
  let holder ← match lock with
    | some l => pure (some (l.runId, l.agent))
    | none => do
        let run ← selectLatestRun fun x => x.linearIssueId = a.issueId && x.status.isActive
        pure (run.map fun x => (x.runId, x.agent))
  if let some (holderRun, holderAgent) := holder then
    insertEvents [lockRejectedEvent holderRun a.issueId holderAgent a.runId]
  pure false

/-- `hermes_claim_run` -/
def hermesClaimRun (now : Timestamp) (a : ClaimArgs) : Txn Bool := do
  if !validTtl a.ttlSeconds then raise "Invalid lock TTL"
  let defaults := (← get).defaults
  let inserted ← tryCatch
    (do
      insertRun (a.queuedRun (defaults.startedAt now))
      insertLock (a.lock now (defaults.lockHeartbeatAt now))
      pure true)
    fun
      | .uniqueViolation => rejectClaim a
      | e => throw e
  if inserted then
    let _ ← updateRuns (fun x => x.runId = a.runId && x.linearIssueId = a.issueId)
      (·.running now)
    insertEvents (a.startEvents now)
  pure inserted

/-! ## `hermes_heartbeat_run` -/

/-- The lock of `runId` for `issueId`. -/
def AgentExecutionLock.isOf (runId issueId : String) (l : AgentExecutionLock) : Bool :=
  l.linearIssueId = issueId && l.runId = runId

/-- The lock a heartbeat extends: it has not expired yet. -/
def AgentExecutionLock.isLive (now : Timestamp) (runId issueId : String)
    (l : AgentExecutionLock) : Bool :=
  l.isOf runId issueId && now < l.expiresAt

/-- The columns of a lock a heartbeat writes. -/
def AgentExecutionLock.extended (now : Timestamp) (ttlSeconds : Int) (l : AgentExecutionLock) :
    AgentExecutionLock :=
  { l with heartbeatAt := some now, expiresAt := now + seconds ttlSeconds }

/-- `status in ('running', 'reviewing')` -/
def AgentRun.isAtWork (x : AgentRun) : Bool := x.status = .running || x.status = .reviewing

/-- The column of a run a heartbeat writes. -/
def AgentRun.heartbeat (now : Timestamp) (x : AgentRun) : AgentRun :=
  { x with heartbeatAt := some now }

/-- `hermes_heartbeat_run` -/
def hermesHeartbeatRun (now : Timestamp) (runId issueId : String) (ttlSeconds : Int) :
    Txn Bool := do
  if !validTtl ttlSeconds then raise "Invalid lock TTL"
  let agent ← updateLocks (·.isLive now runId issueId) (·.extended now ttlSeconds)
  if agent.isNone then
    pure false
  else
    updateRuns (fun x => x.runId = runId && x.isAtWork) (·.heartbeat now)

/-! ## `hermes_finish_run` -/

/-- The statuses a run may be finished with. -/
def finalStatus : String → Option RunStatus
  | "completed" => some .completed
  | "failed" => some .failed
  | "blocked" => some .blocked
  | "canceled" => some .canceled
  | _ => none

/-- `coalesce(p_fields, '{}')`, and no document that is not an object. -/
def finishFields : JsonArg → Option JsonObject
  | .null => some ∅
  | .object members => some members
  | .other => none

/-- `coalesce(nullif(v_fields->>'error', ''), fallback)` -/
def errorText (fields : JsonObject) (fallback : String) : Json :=
  .str (((fields.getText "error").filter (· ≠ "")).getD fallback)

/-- The payload of the `run.*` event, by final status. -/
def finishPayload (fields : JsonObject) : RunStatus → JsonObject
  | .completed => jsonbStripNulls (.mk [
      ⟨"commit_sha", .ofText (fields.getText "commit_sha")⟩,
      ⟨"pull_request_url", .ofText (fields.getText "pull_request_url")⟩,
      ⟨"railway_deployment_id", .ofText (fields.getText "railway_deployment_id")⟩,
      ⟨"tests_status", .ofText (fields.getText "tests_status")⟩,
      ⟨"review_status", .ofText (fields.getText "review_status")⟩])
  | .failed => jsonbStripNulls (.mk [
      ⟨"error", errorText fields "RuntimeError"⟩,
      ⟨"error_code", .ofText (fields.getText "error_code")⟩,
      ⟨"kanban_task_id", .ofText (fields.getText "kanban_task_id")⟩,
      ⟨"kanban_outcome", .ofText (fields.getText "kanban_outcome")⟩])
  | .blocked => jsonbStripNulls (.mk [
      ⟨"error", errorText fields "ExecutionBlocked"⟩,
      ⟨"blocked_reason", .ofText (fields.getText "blocked_reason")⟩,
      ⟨"kanban_task_id", .ofText (fields.getText "kanban_task_id")⟩,
      ⟨"tests_status", .ofText (fields.getText "tests_status")⟩,
      ⟨"review_status", .ofText (fields.getText "review_status")⟩])
  | .canceled => jsonbStripNulls (.mk [
      ⟨"canceled_by", .ofText (fields.getText "canceled_by")⟩,
      ⟨"reason", .ofText (fields.getText "reason")⟩])
  | _ => .mk []

/-- The run a finish ends. -/
def AgentRun.isFinishable (runId issueId : String) (x : AgentRun) : Bool :=
  x.runId = runId && x.linearIssueId = issueId && x.isAtWork

/-- The columns a finish writes. -/
def AgentRun.finished (now : Timestamp) (status : RunStatus) (fields : JsonObject)
    (x : AgentRun) : AgentRun :=
  { x with
    status := status
    finishedAt := some now
    commitSha := fields.getText "commit_sha"
    pullRequestUrl := fields.getText "pull_request_url"
    railwayDeploymentId := fields.getText "railway_deployment_id"
    testsStatus := fields.getText "tests_status"
    reviewStatus := fields.getText "review_status"
    error := fields.getText "error" }

/-- The events a finish inserts. -/
def finishEvents (runId issueId agent statusText : String) (status : RunStatus)
    (fields : JsonObject) : List AgentEvent := [
  ⟨runId, issueId, agent, "run." ++ statusText, finishPayload fields status⟩,
  ⟨runId, issueId, agent, "lock.released", .mk [⟨"finished_status", .str statusText⟩]⟩]

/-- `hermes_finish_run` -/
def hermesFinishRun (now : Timestamp) (runId issueId statusText : String) (arg : JsonArg) :
    Txn Bool := do
  let some status := finalStatus statusText | raise "Invalid final status"
  let some fields := finishFields arg | raise "p_fields must be a JSON object"
  let some lock ← selectLock (·.isOf runId issueId) | pure false
  let found ← updateRuns (·.isFinishable runId issueId) (·.finished now status fields)
  if !found then
    pure false
  else do
    insertEvents (finishEvents runId issueId lock.agent statusText status fields)
    deleteLocks (·.isOf runId issueId)
    pure true

/-! ## `hermes_recover_expired_lock` -/

/-- The run of an expired lock. -/
def AgentRun.isAbandoned (runId : String) (x : AgentRun) : Bool :=
  x.runId = runId && (x.isAtWork || x.status = .queued)

/-- The columns a recovery writes. -/
def AgentRun.expired (now : Timestamp) (x : AgentRun) : AgentRun :=
  { x with status := .failed, finishedAt := some now, error := some "LockExpired" }

/-- The events a recovery inserts. -/
def recoverEvents (issueId : String) (lock : AgentExecutionLock) : List AgentEvent := [
  ⟨lock.runId, issueId, lock.agent, "lock.expired", jsonbStripNulls (.mk [
    ⟨"expired_at", .str (isoText lock.expiresAt)⟩,
    ⟨"last_heartbeat_at", .ofText (lock.heartbeatAt.map isoText)⟩])⟩,
  ⟨lock.runId, issueId, lock.agent, "lock.recovered", .mk [
    ⟨"previous_run_id", .str lock.runId⟩]⟩]

/-- `hermes_recover_expired_lock` -/
def hermesRecoverExpiredLock (now : Timestamp) (issueId : String) : Txn Bool := do
  let some lock ← selectLock fun l => l.linearIssueId = issueId | pure false
  if now < lock.expiresAt then
    pure false
  else do
    let _ ← updateRuns (·.isAbandoned lock.runId) (·.expired now)
    insertEvents (recoverEvents issueId lock)
    deleteLocks (·.isOf lock.runId issueId)
    pure true

/-! ## The operator's release -/

/-- The runs the operator releases. -/
def AgentRun.isBlockedOf (issueId : String) (x : AgentRun) : Bool :=
  x.linearIssueId = issueId && x.status = .blocked

/-- The columns the operator writes. -/
def AgentRun.released (now : Timestamp) (x : AgentRun) : AgentRun :=
  { x with status := .canceled, finishedAt := some now, error := some "ReleasedByOperator" }

/-- The runbook's statement that takes a blocked issue out of the index. -/
def operatorRelease (now : Timestamp) (issueId : String) : Txn Bool :=
  updateRuns (·.isBlockedOf issueId) (·.released now)

/-! ## Sequences of calls -/

/-- A call to the store. -/
inductive StoreOp where
  | claim (a : ClaimArgs)
  | heartbeat (runId issueId : String) (ttlSeconds : Int)
  | finish (runId issueId statusText : String) (fields : JsonArg)
  | recover (issueId : String)
  | release (issueId : String)
  | insertEvent (e : AgentEvent)
  deriving DecidableEq

namespace StoreOp

/-- The transaction of a call. -/
def txn (now : Timestamp) : StoreOp → Txn Bool
  | .claim a => hermesClaimRun now a
  | .heartbeat runId issueId ttl => hermesHeartbeatRun now runId issueId ttl
  | .finish runId issueId statusText fields => hermesFinishRun now runId issueId statusText fields
  | .recover issueId => hermesRecoverExpiredLock now issueId
  | .release issueId => operatorRelease now issueId
  | .insertEvent e => do insertEvents [e]; pure true

/-- The tables after a call. -/
def apply (now : Timestamp) (op : StoreOp) (db : Db) : Db :=
  match op.txn now db with
  | .ok (_, db') => db'
  | .error _ => db

end StoreOp

/-- The tables after a sequence of calls at given times. -/
def runOps (ops : List (Timestamp × StoreOp)) (db : Db) : Db :=
  ops.foldl (fun db op => op.2.apply op.1 db) db

end HermesRuntime
