import HermesRuntime.Runtime

/-!
# The Kanban adapter (`kanban.py`)

`KanbanDispatcherAdapter` hands a run to the Kanban dispatcher and polls its task until it is
done or blocked, its run has failed, or the time is up. What it saw becomes events, and the
metadata of a finished task an `ExecutionResult`.

The callbacks are given by their answers, call by call; clock readings are exact numbers. The
loop has no bound of its own, so it runs on fuel here.
-/

namespace HermesRuntime

/-! ## Snapshots -/

/-- `TERMINAL_DONE_STATUSES` -/
def terminalDoneStatuses : List String := ["done"]

/-- `TERMINAL_BLOCKED_STATUSES` -/
def terminalBlockedStatuses : List String := ["blocked"]

/-- `TERMINAL_FAILED_OUTCOMES` -/
def terminalFailedOutcomes : List String := ["failed", "timed_out", "spawn_failed", "rate_limited"]

/-- `_ALLOWED_RESULT_FIELDS` -/
def allowedResultFields : List String :=
  ["commit_sha", "pull_request_url", "railway_deployment_id", "tests_status", "review_status"]

/-- `KanbanRunSnapshot` -/
structure KanbanRunSnapshot where
  outcome : Option String := none
  metadata : Mapping PyVal := ∅
  deriving DecidableEq

/-- `KanbanTaskSnapshot` -/
structure KanbanTaskSnapshot where
  taskId : String
  status : String
  assignee : Option String := none
  metadata : Mapping PyVal := ∅
  latestRun : Option KanbanRunSnapshot := none
  deriving DecidableEq

/-- `snapshot.latest_run and snapshot.latest_run.outcome` -/
def KanbanTaskSnapshot.outcome (snapshot : KanbanTaskSnapshot) : Option String :=
  snapshot.latestRun.bind (·.outcome)

/-! ## Results -/

/-- `_string_field` -/
def stringField (metadata : Mapping PyVal) (name : String) : Option String :=
  match metadata.lookup name with
  | some (.str s) => if s = "" then none else some s
  | _ => none

/-- `_result_fields` -/
def resultFields (metadata : Mapping PyVal) : Mapping String :=
  .ofOptions (allowedResultFields.map fun name => (name, stringField metadata name))
    (by simp [allowedResultFields])

/-- The fields of a finished task: those of its run, overridden by its own. -/
def KanbanTaskSnapshot.fields (snapshot : KanbanTaskSnapshot) : Mapping String :=
  match snapshot.latestRun with
  | some run => (resultFields run.metadata).update (resultFields snapshot.metadata)
  | none => resultFields snapshot.metadata

/-- `ExecutionResult(**fields, events=events)` -/
def ExecutionResult.ofFields (fields : Mapping String) (events : List (String × RawPayload)) :
    ExecutionResult where
  commitSha := fields.lookup "commit_sha"
  pullRequestUrl := fields.lookup "pull_request_url"
  railwayDeploymentId := fields.lookup "railway_deployment_id"
  testsStatus := fields.lookup "tests_status"
  reviewStatus := fields.lookup "review_status"
  events := events

/-! ## Events -/

/-- A text that counts as true: one that is there and not empty. -/
def truthy (text : Option String) : Option String := text.filter (· ≠ "")

/-- `if text: payload[key] = text` -/
def Mapping.setText (payload : Mapping PyVal) (key : String) (text : Option String) :
    Mapping PyVal :=
  match truthy text with
  | some s => payload.set key (.str s)
  | none => payload

/-- A mapping of strings as a mapping of values. -/
def Mapping.strings (m : Mapping String) : Mapping PyVal where
  entries := m.entries.map fun e => ⟨e.1, .str e.2⟩
  nodupKeys := by
    have hnodup : (m.entries.map Sigma.fst).Nodup := m.nodupKeys
    show ((m.entries.map _).map Sigma.fst).Nodup
    simpa [Function.comp_def] using hnodup

/-- `_event_payload` -/
def eventPayload (context : ExecutionContext) (snapshot : KanbanTaskSnapshot)
    (extra : Mapping PyVal) : Mapping PyVal :=
  let payload : Mapping PyVal := .mk [
    ⟨"run_id", .str context.runId⟩,
    ⟨"linear_issue_id", .str context.linearIssueId⟩,
    ⟨"agent", .str context.agent⟩,
    ⟨"kanban_task_id", .str snapshot.taskId⟩,
    ⟨"status", .str snapshot.status⟩]
  let payload := payload.setText "assignee" snapshot.assignee
  let payload := payload.setText "kanban_outcome" snapshot.outcome
  payload.update (withoutNone extra)

/-- An event of the adapter. -/
def kanbanEvent (kind : String) (context : ExecutionContext) (snapshot : KanbanTaskSnapshot)
    (extra : Mapping PyVal) : String × RawPayload :=
  (kind, .mapping (eventPayload context snapshot extra))

/-! ## The adapter -/

/-- `KanbanDispatcherAdapter`, with the answers of its callbacks to their first, second, … call,
and what its constructor checks. -/
structure KanbanDispatcherAdapter where
  start : ExecutionContext → Except Exc (String ⊕ KanbanTaskSnapshot)
  readTask : Nat → String → Except Exc KanbanTaskSnapshot
  monotonic : Nat → ℚ
  timeoutSeconds : ℚ
  timeout_pos : 0 < timeoutSeconds

/-- How the loop ends. -/
inductive LoopEnd where
  /-- The task is done or blocked. -/
  | terminal
  /-- The run of the task has failed. -/
  | failed (outcome : String)
  /-- The deadline has passed. -/
  | timeout
  /-- Reading the task raised. -/
  | raised (exc : Exc)
  deriving DecidableEq

namespace KanbanDispatcherAdapter

/-- The first snapshot, and how many reads it took. -/
def first (a : KanbanDispatcherAdapter) (context : ExecutionContext) :
    Except Exc (KanbanTaskSnapshot × Nat) := do
  match ← a.start context with
  | .inr snapshot => pure (snapshot, 0)
  | .inl taskId =>
      let snapshot ← a.readTask 0 taskId
      pure (snapshot, 1)

/-- The outcome that makes the loop give up. -/
def failedOutcome (snapshot : KanbanTaskSnapshot) : Option String :=
  snapshot.outcome.filter (· ∈ terminalFailedOutcomes)

/-- The `while` loop: how it ends, at which snapshot, and with which events. -/
def pollTask (a : KanbanDispatcherAdapter) (context : ExecutionContext) (taskId : String)
    (deadline : ℚ) (fuel reads checks : Nat) (snapshot : KanbanTaskSnapshot) (lastStatus : String)
    (events : List (String × RawPayload)) :
    Option (LoopEnd × KanbanTaskSnapshot × List (String × RawPayload)) :=
  match fuel with
  | 0 => none
  | fuel + 1 =>
      if snapshot.status ∈ terminalDoneStatuses ++ terminalBlockedStatuses then
        some (.terminal, snapshot, events)
      else
        match failedOutcome snapshot with
        | some outcome => some (.failed outcome, snapshot, events)
        | none =>
            if deadline ≤ a.monotonic checks then some (.timeout, snapshot, events)
            else
              match a.readTask reads taskId with
              | .error exc => some (.raised exc, snapshot, events)
              | .ok next =>
                  if next.status ≠ lastStatus then
                    a.pollTask context taskId deadline fuel (reads + 1) (checks + 1) next
                      next.status
                      (events ++ [kanbanEvent "kanban.status_changed" context next ∅])
                  else
                    a.pollTask context taskId deadline fuel (reads + 1) (checks + 1) next
                      lastStatus events

/-- What becomes of the loop's end. -/
def conclude (context : ExecutionContext) (ending : LoopEnd) (snapshot : KanbanTaskSnapshot)
    (events : List (String × RawPayload)) : Except Exc ExecutionResult :=
  match ending with
  | .raised exc => .error exc
  | .failed outcome =>
      let extra : Mapping PyVal := .mk [⟨"kanban_outcome", .str outcome⟩]
      .error (.executionEventError "RuntimeError"
        (events ++ [kanbanEvent "kanban.failed" context snapshot extra]))
  | .timeout =>
      .error (.executionEventError "TimeoutError"
        (events ++ [kanbanEvent "kanban.timeout" context snapshot ∅]))
  | .terminal =>
      let fields := snapshot.fields
      if snapshot.status ∈ terminalBlockedStatuses then
        .ok (.ofFields fields (events ++ [kanbanEvent "kanban.blocked" context snapshot ∅]))
      else
        .ok (.ofFields fields
          (events ++ [kanbanEvent "kanban.completed" context snapshot fields.strings]))

/-- The loop on the first snapshot. -/
def poll (a : KanbanDispatcherAdapter) (fuel : Nat) (context : ExecutionContext)
    (initial : KanbanTaskSnapshot) (reads : Nat) :
    Option (LoopEnd × KanbanTaskSnapshot × List (String × RawPayload)) :=
  a.pollTask context initial.taskId (a.monotonic 0 + a.timeoutSeconds) fuel reads 1 initial
    initial.status [kanbanEvent "kanban.dispatched" context initial ∅]

/-- `__call__` -/
def call (a : KanbanDispatcherAdapter) (fuel : Nat) (context : ExecutionContext) :
    Option (Except Exc ExecutionResult) :=
  match a.first context with
  | .error exc => some (.error exc)
  | .ok (initial, reads) =>
      (a.poll fuel context initial reads).map fun (ending, snapshot, events) =>
        conclude context ending snapshot events

end KanbanDispatcherAdapter

end HermesRuntime
