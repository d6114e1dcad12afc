import HermesRuntime.Lib.Prog
import HermesRuntime.Payloads

/-!
# The runtime (`runtime.py`)

`AgentRuntime.execute` takes one Linear issue through claim, dispatch and finish. It is a
program over the calls it makes: to the store, to the dispatcher and to Linear (the injected
callbacks), and to its own heartbeat thread. How any of these answers is left open.

The heartbeat thread calls `store.heartbeat` until a call raises, answers false or the thread
is stopped; the program learns of it when it joins the thread, as the list of answers.
-/

namespace HermesRuntime

open Effects

/-! ## Issues -/

/-- `ALPHABET` -/
def alphabet : List Char := "0123456789ABCDEFGHJKMNPQRSTVWXYZ".toList

/-- `AGENTS` -/
def agents : List (String × String) := [
  ("agent:orchestrator", "orchestrator"),
  ("agent:backend", "dev-backend"),
  ("agent:frontend", "dev-frontend"),
  ("agent:devops", "devops"),
  ("agent:qa", "qualidade"),
  ("agent:review", "code-reviewer"),
  ("agent:github", "github-profile")]

instance neZero_two_pow : NeZero (2 ^ 80) := ⟨Nat.ne_of_gt (Nat.two_pow_pos 80)⟩

/-- `new_run_id`, on the clock in milliseconds and 80 random bits. -/
def newRunId (millis : Nat) (random : Fin (2 ^ 80)) : String :=
  let value := millis * 2 ^ 80 + random
  String.ofList ("run_".toList ++
    (List.range 26).reverse.map fun i => alphabet.getD (value / 32 ^ i % 32) '0')

/-- `Issue`. Its labels are a set: a list without repetitions. -/
structure Issue where
  identifier : String
  labels : List String
  nodup : labels.Nodup
  status : String
  deriving DecidableEq

/-- `one(prefix, default)` of `classify_issue`. -/
def one (issue : Issue) (pre default : String) : Except Exc String :=
  match (issue.labels.filter (startsWith · pre)).map (removePrefix · pre) with
  | [] => .ok default
  | [label] => .ok label
  | _ => .error (.executionBlocked ("Conflicting " ++ pre ++ " labels"))

/-- `classify_issue`: assignee, risk, mode and environment. -/
def classifyIssue (issue : Issue) : Except Exc (String × String × String × String) := do
  if issue.status ≠ "Todo" then
    throw (.executionBlocked "Only Todo issues can start a new run")
  if issue.labels.any fun l => startsWith l "agent:" && (agents.lookup l).isNone then
    throw (.executionBlocked "Unknown agent label")
  match issue.labels.filterMap fun l => agents.lookup l with
  | [agent] =>
      let risk ← one issue "risk:" "low"
      let mode ← one issue "execution:" "auto"
      let environment ← one issue "env:" "local"
      if risk ∉ ["low", "medium", "high", "critical"] || mode ∉ ["auto", "human", "blocked"] ||
          environment ∉ ["local", "preview", "staging", "production"] then
        throw (.executionBlocked "Unknown operational label")
      if mode ≠ "auto" || risk = "critical" || environment = "production" then
        throw (.executionBlocked "This issue requires human intervention")
      pure (agent, risk, mode, environment)
  | _ => throw (.executionBlocked "Orchestrator must classify missing or ambiguous agent labels")

/-- An issue for the QA agent, whose results pass no gates. -/
def qaIssue : Issue := ⟨"LOL-1", ["agent:qa"], by simp, "Todo"⟩

example : classifyIssue qaIssue = .ok ("qualidade", "low", "auto", "local") := by decide

/-! ## Contexts and results -/

/-- `ExecutionContext` -/
structure ExecutionContext where
  runId : String
  linearIssueId : String
  agent : String
  risk : String
  executionMode : String
  environment : String
  deriving DecidableEq

/-- The entries of `items` that are there. -/
def Mapping.ofOptions {β : Type} (items : List (String × Option β))
    (h : (items.map Prod.fst).Nodup) : Mapping β where
  entries := items.filterMap fun e => e.2.map (Sigma.mk e.1)
  nodupKeys := by
    refine List.Nodup.sublist ?_ h
    clear h
    induction items with
    | nil => exact List.Sublist.refl _
    | cons e items ih =>
        obtain ⟨key, value⟩ := e
        cases value with
        | none => exact ih.trans (List.sublist_cons_self _ _)
        | some v => exact ih.cons_cons key

/-- `ExecutionResult` -/
structure ExecutionResult where
  commitSha : Option String := none
  pullRequestUrl : Option String := none
  railwayDeploymentId : Option String := none
  testsStatus : Option String := none
  reviewStatus : Option String := none
  events : List (String × RawPayload) := []
  deriving DecidableEq

/-- `ExecutionResult.fields` -/
def ExecutionResult.fields (r : ExecutionResult) : Mapping String :=
  .ofOptions [
    ("commit_sha", r.commitSha), ("pull_request_url", r.pullRequestUrl),
    ("railway_deployment_id", r.railwayDeploymentId), ("tests_status", r.testsStatus),
    ("review_status", r.reviewStatus)] (by simp)

/-- `LinearIssueSnapshot` -/
structure LinearIssueSnapshot where
  identifier : String
  status : String
  labels : List String
  nodup : labels.Nodup
  deriving DecidableEq

/-! ## Calls -/

/-- The calls the runtime and the orchestrator make. -/
inductive Call where
  /-- Read the clock and draw random bits for `new_run_id`. -/
  | entropy
  /-- `store.claim` -/
  | claim (context : ExecutionContext) (ttlSeconds : Int)
  /-- `store.lock_rejected` -/
  | lockRejected (context : ExecutionContext) (reason : String)
  /-- Start the heartbeat thread. -/
  | startHeartbeat (context : ExecutionContext) (ttlSeconds : Int)
  /-- Stop the heartbeat thread and wait for it: the answers `store.heartbeat` gave it. -/
  | joinHeartbeat (context : ExecutionContext)
  /-- `move_status` -/
  | moveStatus (issueId status : String)
  /-- `store.event` -/
  | event (context : ExecutionContext) (kind : String) (payload : Mapping PyVal)
  /-- `dispatch` -/
  | dispatch (context : ExecutionContext)
  /-- `store.finish` -/
  | finish (context : ExecutionContext) (status : String) (fields : Mapping String)
  /-- `store.recover` -/
  | recover (issueId : String)
  /-- `read_issues` -/
  | readIssues
  /-- `record_blocked` -/
  | recordBlocked (issueId reason : String)
  deriving DecidableEq

/-- What comes back from a call. -/
def Call.Resp : Call → Type
  | .entropy => Nat × Fin (2 ^ 80)
  | .startHeartbeat _ _ => Unit
  | .joinHeartbeat _ => List (Except Exc Bool)
  | .dispatch _ => Except Exc ExecutionResult
  | .recover _ => Except Exc Bool
  | .readIssues => Except Exc (List LinearIssueSnapshot)
  | .claim _ _ | .lockRejected _ _ | .moveStatus _ _ | .event _ _ _ | .finish _ _ _
  | .recordBlocked _ _ => Except Exc Unit

instance (c : Call) : Nonempty c.Resp := by
  cases c <;> first
    | exact ⟨(0, 0)⟩
    | exact ⟨()⟩
    | exact ⟨([] : List _)⟩
    | exact ⟨Except.error (.runtimeError "")⟩

/-- A call with its answer. -/
abbrev CallEvent : Type := Event Call Call.Resp

/-- A program that makes calls and may raise. -/
abbrev Proc (α : Type) : Type := ExceptT Exc (Prog Call Call.Resp) α

namespace Proc

/-- Make a call that cannot raise. -/
def perform (c : Call) : Proc c.Resp := ExceptT.lift (.call c .ret)

/-- Return or raise what a pure computation came to. -/
def settle {α : Type} (x : Except Exc α) : Proc α := ExceptT.mk (.ret x)

/-- Run `x` and keep what it raises as a value. -/
def observe {α : Type} (x : Proc α) : Proc (Except Exc α) :=
  ExceptT.mk (x.run >>= fun o => .ret (.ok o))

/-- `if b: x` -/
def when (b : Bool) (x : Proc Unit) : Proc Unit := if b then x else pure ()

/-- Raise `exc` unless the check passes. -/
def raiseUnless (check : Bool) (exc : Exc) : Proc Unit := if check then pure () else throw exc

/-! The calls that answer or raise. -/

def claim (context : ExecutionContext) (ttlSeconds : Int) : Proc Unit :=
  ExceptT.mk (.call (.claim context ttlSeconds) .ret)

def lockRejected (context : ExecutionContext) (reason : String) : Proc Unit :=
  ExceptT.mk (.call (.lockRejected context reason) .ret)

def moveStatus (issueId status : String) : Proc Unit :=
  ExceptT.mk (.call (.moveStatus issueId status) .ret)

def event (context : ExecutionContext) (kind : String) (payload : Mapping PyVal) : Proc Unit :=
  ExceptT.mk (.call (.event context kind payload) .ret)

def dispatch (context : ExecutionContext) : Proc ExecutionResult :=
  ExceptT.mk (.call (.dispatch context) .ret)

def finish (context : ExecutionContext) (status : String) (fields : Mapping String) : Proc Unit :=
  ExceptT.mk (.call (.finish context status fields) .ret)

def recover (issueId : String) : Proc Bool := ExceptT.mk (.call (.recover issueId) .ret)

def readIssues : Proc (List LinearIssueSnapshot) := ExceptT.mk (.call .readIssues .ret)

def recordBlocked (issueId reason : String) : Proc Unit :=
  ExceptT.mk (.call (.recordBlocked issueId reason) .ret)

end Proc

open Proc

/-! ## Events -/

/-- What `_event_key` tells events apart by. -/
inductive EventKey where
  | task (kind : String) (task status outcome : PyKey)
  | payload (kind json : String)
  deriving DecidableEq

/-- `payload.get(key)` -/
def Mapping.get (payload : Mapping PyVal) (key : String) : PyVal := (payload.lookup key).getD .none

/-- `_event_key`, hashed into a set. -/
def eventKey (kind : String) (payload : Mapping PyVal) : Except Exc EventKey := do
  if payload.get "kanban_task_id" ≠ .none then
    let task ← (payload.get "kanban_task_id").hashKey
    let status ← (payload.get "status").hashKey
    let outcome ← (payload.get "kanban_outcome").hashKey
    pure (.task kind task status outcome)
  else
    let json ← jsonDumps payload
    pure (.payload kind json)

/-- What checks an event before it is posted. What follows takes it as an argument, left out
where it is `validate_event_payload`. -/
abbrev Validator : Type := String → RawPayload → Except Exc (Mapping PyVal)

/-- The first loop of `_persist_events`: validate every event, keep the first of each key. -/
def normalizeEvents (seen : List EventKey) (events : List (String × RawPayload))
    (validate : Validator := validateEventPayload) :
    Except Exc (List (String × Mapping PyVal)) :=
  match events with
  | [] => pure []
  | (kind, payload) :: events => do
      let normalized ← validate kind payload
      let key ← eventKey kind normalized
      if key ∈ seen then
        normalizeEvents seen events validate
      else
        let rest ← normalizeEvents (key :: seen) events validate
        pure ((kind, normalized) :: rest)

/-- The second loop of `_persist_events`. -/
def postEvents (context : ExecutionContext) : List (String × Mapping PyVal) → Proc Unit
  | [] => pure ()
  | (kind, normalized) :: events => do
      event context kind normalized
      postEvents context events

/-- `_persist_events` -/
def persistEvents (context : ExecutionContext) (events : List (String × RawPayload))
    (validate : Validator := validateEventPayload) : Proc Unit := do
  let normalized ← settle (normalizeEvents [] events validate)
  postEvents context normalized

/-! ## Execution -/

/-- `AgentRuntime`, with what its constructor checks of its arguments, and whether its store
is a `LockRejectionSink`. -/
structure AgentRuntime where
  lockRejectionSink : Bool
  ttlSeconds : Int := 600
  heartbeatSeconds : Int := 30
  ttl_ge : 10 ≤ ttlSeconds := by decide
  heartbeat_ge : 1 ≤ heartbeatSeconds := by decide
  heartbeat_lt : heartbeatSeconds * 2 < ttlSeconds := by decide

/-- `AgentRuntime(store)` for a store like `SupabaseStore`, which is no `LockRejectionSink`. -/
def AgentRuntime.ofStore : AgentRuntime := { lockRejectionSink := false }

/-- The errors `pulse` has recorded, given what its heartbeats were answered. -/
def heartbeatErrors : List (Except Exc Bool) → List Exc
  | [] => []
  | .ok true :: rest => heartbeatErrors rest
  | .ok false :: _ => [.runtimeError "Lock ownership lost"]
  | .error e :: _ => [e]

/-- The agents whose results have to pass the test and review gates. -/
def gatedAgents : List String := ["dev-backend", "dev-frontend", "devops"]

/-- The gates hold for what the dispatcher returned. -/
def gatesPassed (agent : String) (result : ExecutionResult) : Bool :=
  agent ∉ gatedAgents ||
    (result.testsStatus = some "passed" && result.reviewStatus = some "approved")

/-- `{"error": error_type, "error_code": error_type}` -/
def errorFields (errorType : String) : Mapping String :=
  .mk [⟨"error", errorType⟩, ⟨"error_code", errorType⟩]

/-- The claim of `execute`: a conflict is reported to the store before it is raised. -/
def claimIssue (rt : AgentRuntime) (context : ExecutionContext) : Proc Unit :=
  tryCatch (claim context rt.ttlSeconds) fun exc => do
    when (exc.isConflict && rt.lockRejectionSink) (lockRejected context "RunConflict")
    throw exc

/-- The `try` block of `execute` up to the gates. -/
def dispatchIssue (hasMove : Bool) (issue : Issue) (context : ExecutionContext)
    (validate : Validator := validateEventPayload) : Proc ExecutionResult := do
  when hasMove (moveStatus issue.identifier "In Progress")
  let payload ← settle (validate "agent.dispatched" (.mapping ∅))
  event context "agent.dispatched" payload
  let result ← dispatch context
  let outcomes ← perform (.joinHeartbeat context)
  persistEvents context result.events validate
  raiseUnless (heartbeatErrors outcomes).isEmpty
    (.runtimeError "Heartbeat failed; execution outcome requires review")
  raiseUnless (gatesPassed context.agent result)
    (.executionBlocked "Required test and review gates are incomplete")
  pure result

/-- The rest of the `try` block: move to review, and finish. -/
def completeIssue (hasMove : Bool) (issue : Issue) (context : ExecutionContext)
    (result : ExecutionResult) : Proc ExecutionContext := do
  when hasMove (moveStatus issue.identifier "In Review")
  finish context "completed" result.fields
  pure context

/-- The `try` block of `execute`. -/
def executeBody (hasMove : Bool) (issue : Issue) (context : ExecutionContext)
    (validate : Validator := validateEventPayload) : Proc ExecutionContext := do
  let result ← dispatchIssue hasMove issue context validate
  completeIssue hasMove issue context result

/-- Persist the events an exception carries, and keep what that raises. -/
def persistCarried (context : ExecutionContext) (exc : Exc)
    (validate : Validator := validateEventPayload) : Proc (Except Exc Unit) :=
  match exc.event with
  | some ev => observe (persistEvents context ev.events validate)
  | none => pure (.ok ())

/-- `finish_error` of the `except` block: the exception, or what persisting its events raised. -/
def finishError (exc : Exc) (persisted : Except Exc Unit) : Exc :=
  match persisted with
  | .error eventExc => eventExc
  | .ok () => exc

/-- `error_type` of the `except` block. -/
def errorType (exc : Exc) (persisted : Except Exc Unit) : String :=
  match persisted, exc.event with
  | .ok (), some ev => ev.errorType
  | _, _ => (finishError exc persisted).typeName

/-- The rest of the `except` block: move a blocked issue, finish, and raise again. -/
def failIssue (hasMove : Bool) (issue : Issue) (context : ExecutionContext) (exc : Exc)
    (persisted : Except Exc Unit) : Proc ExecutionContext := do
  let blocked := (finishError exc persisted).isBlocked
  when (blocked && hasMove) (moveStatus issue.identifier "Blocked")
  finish context (if blocked then "blocked" else "failed") (errorFields (errorType exc persisted))
  throw exc

/-- The `except` block of `execute`. -/
def executeFailed (hasMove : Bool) (issue : Issue) (context : ExecutionContext) (exc : Exc)
    (validate : Validator := validateEventPayload) : Proc ExecutionContext := do
  let _ ← perform (.joinHeartbeat context)
  let persisted ← persistCarried context exc validate
  failIssue hasMove issue context exc persisted

/-- `AgentRuntime.execute`. Every path has stopped and joined the heartbeat thread when it gets
to the `finally` block, which has nothing left to do then. -/
def AgentRuntime.execute (rt : AgentRuntime) (hasMove : Bool) (issue : Issue)
    (validate : Validator := validateEventPayload) : Proc ExecutionContext := do
  let (agent, risk, mode, environment) ← settle (classifyIssue issue)
  let (millis, random) ← perform .entropy
  let context : ExecutionContext :=
    ⟨newRunId millis random, issue.identifier, agent, risk, mode, environment⟩
  claimIssue rt context
  let _ ← perform (.startHeartbeat context rt.ttlSeconds)
  tryCatch (executeBody hasMove issue context validate) fun exc =>
    executeFailed hasMove issue context exc validate

end HermesRuntime
