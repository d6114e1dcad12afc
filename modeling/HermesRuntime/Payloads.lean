import HermesRuntime.UrlSplit

/-!
# The event payload contract (`payloads.py`)

`agent_events.payload` is a closed JSON object contract: every event type lists its required
and optional fields, unknown fields are rejected, and every value passes the checks of its
field. `validateEventPayload` returns the normalized payload, which is the candidate without
its `None` entries, or raises.
-/

namespace HermesRuntime

/-! ## The tables -/

/-- `_EVENT_FIELDS`: required and optional fields of each event type. -/
def eventFields : List (String × List String × List String) := [
  ("run.created", [], []),
  ("lock.acquired", ["ttl_seconds", "expires_at"], []),
  ("run.started", [], ["linear_status_to", "risk", "execution_mode", "environment"]),
  ("agent.dispatched", [], ["kanban_task_id", "dispatch_backend", "status", "assignee"]),
  ("kanban.dispatched", ["kanban_task_id", "status"],
    ["assignee", "run_id", "linear_issue_id", "agent"]),
  ("kanban.status_changed", ["kanban_task_id", "status"],
    ["assignee", "kanban_outcome", "run_id", "linear_issue_id", "agent"]),
  ("kanban.completed", ["kanban_task_id", "status"],
    ["commit_sha", "pull_request_url", "railway_deployment_id", "tests_status", "review_status",
      "assignee", "kanban_outcome", "run_id", "linear_issue_id", "agent"]),
  ("kanban.blocked", ["kanban_task_id", "status"],
    ["tests_status", "review_status", "assignee", "kanban_outcome", "run_id", "linear_issue_id",
      "agent"]),
  ("kanban.failed", ["kanban_task_id", "status", "kanban_outcome"],
    ["assignee", "run_id", "linear_issue_id", "agent"]),
  ("kanban.timeout", ["kanban_task_id", "status"],
    ["assignee", "run_id", "linear_issue_id", "agent"]),
  ("tests.completed", ["tests_status"],
    ["command", "exit_code", "total", "passed", "failed", "skipped", "duration_ms",
      "artifact_path"]),
  ("review.completed", ["review_status"], ["reviewer", "artifact_path", "pull_request_url"]),
  ("deploy.requested", ["environment"], ["requested_by", "pull_request_url", "commit_sha"]),
  ("deploy.completed", ["railway_deployment_id", "environment", "deploy_status"],
    ["deployment_url", "commit_sha", "duration_ms"]),
  ("run.completed", [],
    ["commit_sha", "pull_request_url", "railway_deployment_id", "tests_status",
      "review_status"]),
  ("run.failed", ["error"], ["error_code", "kanban_task_id", "kanban_outcome"]),
  ("run.blocked", ["error"],
    ["blocked_reason", "kanban_task_id", "tests_status", "review_status"]),
  ("run.canceled", [], ["canceled_by", "reason"]),
  ("lock.released", [], ["finished_status"]),
  ("lock.rejected", ["reason"], ["attempted_run_id"]),
  ("lock.expired", ["expired_at"], ["last_heartbeat_at", "ttl_seconds"]),
  ("lock.recovered", [], ["recovered_by", "previous_run_id"])]

/-- `_ENUMS` -/
def enums : List (String × List String) := [
  ("tests_status", ["passed", "failed", "skipped"]),
  ("review_status", ["approved", "changes_requested", "blocked"]),
  ("deploy_status", ["succeeded", "failed", "canceled"]),
  ("environment", ["local", "preview", "staging", "production"]),
  ("reason", ["RunConflict"])]

/-- `_DEPLOY_ENVIRONMENTS` -/
def deployEnvironments : List String := ["preview", "staging", "production"]

/-- `_INT_FIELDS` -/
def intFields : List String :=
  ["ttl_seconds", "total", "passed", "failed", "skipped", "duration_ms", "exit_code"]

/-- `_URL_FIELDS` -/
def urlFields : List String := ["pull_request_url", "deployment_url"]

/-- `_SECRET_WORDS` -/
def secretWords : List String :=
  ["token", "secret", "service_role", "authorization", "cookie", "connection string",
    "supabase_service_role_key", "linear_api_key", "github_token", "railway_token",
    "stack trace", "traceback", ".env"]

/-- `[0-9A-HJKMNP-TV-Z]` -/
def isRunIdChar (c : Char) : Bool :=
  c.isDigit || ('A' ≤ c && c ≤ 'H') || c = 'J' || c = 'K' || c = 'M' || c = 'N' ||
    ('P' ≤ c && c ≤ 'T') || ('V' ≤ c && c ≤ 'Z')

/-- `^run_[0-9A-HJKMNP-TV-Z]{26}$`, matched in full. -/
def isRunId (s : String) : Bool :=
  startsWith s "run_" && (s.toList.drop 4).length = 26 && (s.toList.drop 4).all isRunIdChar

/-- `^t_[A-Za-z0-9_\-]+$`, matched in full. -/
def isKanbanTaskId (s : String) : Bool :=
  startsWith s "t_" && !(s.toList.drop 2).isEmpty &&
    (s.toList.drop 2).all fun c => c.isAlphanum || c = '_' || c = '-'

/-- `^[0-9a-fA-F]{40}$`, matched in full. -/
def isCommitSha (s : String) : Bool := s.toList.length = 40 && s.toList.all isHexDigit

/-- `_ID_PATTERNS` -/
def idPatterns : List (String × (String → Bool)) :=
  [("run_id", isRunId), ("kanban_task_id", isKanbanTaskId), ("commit_sha", isCommitSha)]

/-! ## Values -/

/-- Some secret word occurs in `s`, in any letter case. -/
def hasSecretWord (s : String) : Bool := secretWords.any (containsText (lower s))

/-- Raise `PayloadValidationError` unless the check passes. -/
def require (check : Bool) (message : String) : Except Exc Unit :=
  if check then .ok () else .error (.payloadValidationError message)

/-- `value in names`: hashing an unhashable value raises `TypeError`. -/
def isMember (value : PyVal) (names : List String) : Except Exc Bool := do
  let key ← value.hashKey
  pure (names.any fun name => key = .str name)

/-- `_validate_https_url` -/
def validateHttpsUrl (key : String) (value : PyVal) : Except Exc Unit :=
  match value with
  | .str s => do
      let parsed ← urlsplit s
      require (parsed.scheme = "https" && parsed.netloc ≠ "") (key ++ " must be an HTTPS URL")
      require (parsed.query = "" && parsed.fragment = "")
        (key ++ " must not contain query string or fragment")
  | _ => .error (.payloadValidationError (key ++ " must be a string URL"))

/-- A container the contract rejects by name. -/
def isContainer : PyVal → Bool
  | .object cls _ => cls = .mapping || cls = .list || cls = .tuple || cls = .set
  | _ => false

/-- The checks on the text of a string value. -/
def validateText (key : String) : PyVal → Except Exc Unit
  | .str s => do
      require (s ≠ "") (key ++ " must not be empty")
      require (!hasSecretWord s) (key ++ " contains prohibited sensitive text")
  | _ => pure ()

/-- A value an integer field takes: an `int` that is no `bool`, and no negative one except as
exit code. -/
def isIntValue (key : String) : PyVal → Bool
  | .int n => key = "exit_code" || 0 ≤ n
  | _ => false

/-- The enumeration checks: the values of `_ENUMS`, and for deployments the environments. -/
def validateEnum (eventType key : String) (value : PyVal) : Except Exc Unit := do
  if let some names := enums.lookup key then
    let member ← isMember value names
    require (member || (key = "reason" && eventType ≠ "lock.rejected"))
      (key ++ " has an unsupported value")
  if key = "environment" && startsWith eventType "deploy." then
    let member ← isMember value deployEnvironments
    require member "deploy events require preview, staging, or production environment"

/-- `value` is a string the pattern matches in full. -/
def matchesPattern (pattern : String → Bool) : PyVal → Bool
  | .str s => pattern s
  | _ => false

/-- `_validate_value` -/
def validateValue (eventType key : String) (value : PyVal) : Except Exc Unit := do
  require (!isContainer value) (key ++ " must be a scalar value")
  validateText key value
  require (key ∉ intFields || isIntValue key value) (key ++ " must be an integer")
  validateEnum eventType key value
  require ((idPatterns.lookup key).all (matchesPattern · value)) (key ++ " has an invalid format")
  if key ∈ urlFields then
    validateHttpsUrl key value

/-! ## Payloads -/

/-- The payload without its `None` entries. -/
def withoutNone (payload : Mapping PyVal) : Mapping PyVal where
  entries := payload.entries.filter fun e => e.2 ≠ .none
  nodupKeys := payload.nodupKeys.sublist List.filter_sublist

@[simp] theorem entries_withoutNone (payload : Mapping PyVal) :
    (withoutNone payload).entries = payload.entries.filter fun e => e.2 ≠ .none := rfl

/-- The checks of one candidate. The loop of the source checks the entries one by one and
collects those that are not `None`; here the checks come first and the collection after them. -/
def validateFields (eventType : String) (required optional : List String)
    (candidate : Mapping PyVal) : Except Exc (Mapping PyVal) := do
  let unknown := sortedStrings (candidate.keys.filter (· ∉ required ++ optional))
  require unknown.isEmpty
    ("Unsupported payload fields for " ++ eventType ++ ": " ++ ", ".intercalate unknown)
  candidate.entries.forM fun e => if e.2 = .none then pure () else validateValue eventType e.1 e.2
  let normalized := withoutNone candidate
  let missing := sortedStrings (required.filter (· ∉ normalized.keys))
  require missing.isEmpty
    ("Missing payload fields for " ++ eventType ++ ": " ++ ", ".intercalate missing)
  require (eventType ≠ "agent.dispatched" || normalized.entries.isEmpty ||
      "kanban_task_id" ∈ normalized.keys)
    "agent.dispatched payload with dispatch metadata must include kanban_task_id"
  pure normalized

/-- `validate_event_payload` -/
def validateEventPayload (eventType : String) (payload : RawPayload) :
    Except Exc (Mapping PyVal) :=
  match eventFields.lookup eventType with
  | none => .error (.payloadValidationError ("Unknown event type: " ++ eventType))
  | some (required, optional) =>
      match payload with
      | .none => validateFields eventType required optional ∅
      | .mapping items => validateFields eventType required optional items
      | .other => .error (.payloadValidationError "Event payload must be a JSON object")

end HermesRuntime
