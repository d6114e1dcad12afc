import HermesRuntime.Lib.Table
import HermesRuntime.Python

/-!
# The database under the runtime

The three tables `001_runtime_functions.sql` reads and writes, and the statements it writes
them with. The tables themselves are created elsewhere; what the script says of them is all
that is used: `run_id` is the key of `agent_runs` and a partial unique index
(`uq_agent_runs_active_issue`) admits one active run an issue, `linear_issue_id` is the key of
`agent_execution_locks`, and `agent` is never null.

A function body is a `Txn`: an exception carries no database, so everything the body did is
undone, and `tryCatch` is the subtransaction of a `begin … exception … end` block.
-/

namespace HermesRuntime

open Relational

/-! ## Time -/

/-- A `timestamptz`: microseconds since 1970-01-01. -/
abbrev Timestamp : Type := Nat

/-- `make_interval(secs => n)` -/
def seconds (n : Int) : Nat := 1000000 * n.toNat

/-- At least `width` decimal digits. -/
def paddedDigits (width n : Nat) : List Char :=
  let digits := Nat.toDigits 10 n
  List.replicate (width - digits.length) '0' ++ digits

/-- Year, month and day of a day counted from 1970-01-01. -/
def civilDate (day : Nat) : Nat × Nat × Nat :=
  let z := day + 719468
  let era := z / 146097
  let doe := z % 146097
  let yoe := (doe - doe / 1460 + doe / 36524 - doe / 146096) / 365
  let doy := doe - (365 * yoe + yoe / 4 - yoe / 100)
  let mp := (5 * doy + 2) / 153
  let month := if mp < 10 then mp + 3 else mp - 9
  (yoe + era * 400 + (if month ≤ 2 then 1 else 0), month, doy - (153 * mp + 2) / 5 + 1)

/-- The fraction of a second, without the zeros at its end. -/
def fractionDigits (micros : Nat) : List Char :=
  ((paddedDigits 6 micros).reverse.dropWhile (· = '0')).reverse

/-- A timestamp as it stands in a JSON document, in a session that runs on UTC. -/
def isoText (t : Timestamp) : String :=
  let (year, month, day) := civilDate (t / 86400000000)
  let second := t / 1000000 % 86400
  let fraction := fractionDigits (t % 1000000)
  String.ofList (paddedDigits 4 year ++ ['-'] ++ paddedDigits 2 month ++ ['-'] ++
    paddedDigits 2 day ++ ['T'] ++ paddedDigits 2 (second / 3600) ++ [':'] ++
    paddedDigits 2 (second / 60 % 60) ++ [':'] ++ paddedDigits 2 (second % 60) ++
    (if fraction.isEmpty then [] else '.' :: fraction) ++ "+00:00".toList)

example : isoText 1722470400500000 = "2024-08-01T00:00:00.5+00:00" := by decide

/-! ## `jsonb` -/

/-- A `jsonb` value. Numbers are exact decimals `mantissa * 10 ^ -scale`; of an array or an
object inside a document only its text is ever asked for. -/
inductive Json where
  | null
  | bool (b : Bool)
  | num (mantissa : Int) (scale : Nat)
  | str (s : String)
  | container (text : String)
  deriving DecidableEq, Repr

namespace Json

/-- `document->>'key'`, once the value is found. -/
def text : Json → Option String
  | .null => none
  | .bool b => some (if b then "true" else "false")
  | .num m s => some (decimalText m s)
  | .str s => some s
  | .container t => some t

/-- A `text` value inside a document. -/
def ofText : Option String → Json
  | none => .null
  | some s => .str s

end Json

/-- A JSON object. -/
abbrev JsonObject : Type := Mapping Json

/-- `jsonb_strip_nulls` on an object of scalars. -/
def jsonbStripNulls (o : JsonObject) : JsonObject where
  entries := o.entries.filter fun e => e.2 ≠ .null
  nodupKeys := o.nodupKeys.sublist List.filter_sublist

/-- `document->>'key'` -/
def JsonObject.getText (o : JsonObject) (key : String) : Option String :=
  (o.lookup key).bind Json.text

/-- A `jsonb` argument: SQL null, an object, or another document. -/
inductive JsonArg where
  | null
  | object (members : JsonObject)
  | other
  deriving DecidableEq

/-! ## Rows -/

/-- `agent_runs.status` -/
inductive RunStatus where
  | queued | running | reviewing | blocked | completed | failed | canceled
  deriving DecidableEq, Repr

/-- The statuses `uq_agent_runs_active_issue` covers. -/
def RunStatus.isActive : RunStatus → Bool
  | .queued | .running | .reviewing | .blocked => true
  | .completed | .failed | .canceled => false

/-- A row of `agent_runs`. -/
structure AgentRun where
  runId : String
  linearIssueId : String
  agent : String
  status : RunStatus
  risk : Option String
  executionMode : Option String
  environment : Option String
  startedAt : Option Timestamp
  heartbeatAt : Option Timestamp := none
  finishedAt : Option Timestamp := none
  commitSha : Option String := none
  pullRequestUrl : Option String := none
  railwayDeploymentId : Option String := none
  testsStatus : Option String := none
  reviewStatus : Option String := none
  error : Option String := none
  deriving DecidableEq

/-- What a run occupies in the unique indexes of `agent_runs`. -/
inductive RunKey where
  | run (runId : String)
  | activeIssue (linearIssueId : String)
  deriving DecidableEq

def AgentRun.keys (x : AgentRun) : List RunKey :=
  .run x.runId :: if x.status.isActive then [.activeIssue x.linearIssueId] else []

/-- A row of `agent_execution_locks`. -/
structure AgentExecutionLock where
  linearIssueId : String
  runId : String
  agent : String
  expiresAt : Timestamp
  heartbeatAt : Option Timestamp
  deriving DecidableEq

def AgentExecutionLock.keys (l : AgentExecutionLock) : List String := [l.linearIssueId]

/-- A row of `agent_events`. -/
structure AgentEvent where
  runId : String
  linearIssueId : String
  agent : String
  eventType : String
  payload : JsonObject
  deriving DecidableEq

/-- What the columns a row is inserted without are filled with, at a given time. -/
structure ColumnDefaults where
  startedAt : Timestamp → Option Timestamp
  lockHeartbeatAt : Timestamp → Option Timestamp

/-- The tables. -/
structure Db where
  runs : Table AgentRun RunKey AgentRun.keys
  locks : Table AgentExecutionLock String AgentExecutionLock.keys
  events : List AgentEvent
  defaults : ColumnDefaults

/-- The tables as they are created. -/
def Db.empty (defaults : ColumnDefaults) : Db := ⟨.empty, .empty, [], defaults⟩

/-! ## Statements -/

/-- What a statement or a function body can raise. -/
inductive SqlError where
  | uniqueViolation
  | raised (message : String)
  deriving DecidableEq, Repr

/-- A function body. -/
abbrev Txn (α : Type) : Type := StateT Db (Except SqlError) α

namespace Txn

/-- `raise exception` -/
def raise {α : Type} (message : String) : Txn α := throw (.raised message)

/-- `insert into agent_runs` -/
def insertRun (x : AgentRun) : Txn Unit := fun db =>
  match db.runs.insert? x with
  | some runs => .ok ((), { db with runs })
  | none => .error .uniqueViolation

/-- `insert into agent_execution_locks` -/
def insertLock (l : AgentExecutionLock) : Txn Unit := fun db =>
  match db.locks.insert? l with
  | some locks => .ok ((), { db with locks })
  | none => .error .uniqueViolation

/-- `insert into agent_events` -/
def insertEvents (es : List AgentEvent) : Txn Unit := fun db =>
  .ok ((), { db with events := db.events ++ es })

/-- `update agent_runs set … where …`, with the value of `found`. -/
def updateRuns (p : AgentRun → Bool) (f : AgentRun → AgentRun) : Txn Bool := fun db =>
  match db.runs.update? p f with
  | some runs => .ok (db.runs.rows.any p, { db with runs })
  | none => .error .uniqueViolation

/-- `update agent_execution_locks set … where … returning agent` -/
def updateLocks (p : AgentExecutionLock → Bool) (f : AgentExecutionLock → AgentExecutionLock) :
    Txn (Option String) := fun db =>
  match db.locks.update? p f with
  | some locks => .ok ((db.locks.rows.find? p).map (·.agent), { db with locks })
  | none => .error .uniqueViolation

/-- `delete from agent_execution_locks where …` -/
def deleteLocks (p : AgentExecutionLock → Bool) : Txn Unit := fun db =>
  .ok ((), { db with locks := db.locks.delete p })

/-- `select … from agent_execution_locks where …` -/
def selectLock (p : AgentExecutionLock → Bool) : Txn (Option AgentExecutionLock) := fun db =>
  .ok (db.locks.rows.find? p, db)

/-- `order by started_at desc`: nulls come first. -/
def startedLater (x y : AgentRun) : Prop :=
  match x.startedAt, y.startedAt with
  | none, _ => True
  | some _, none => False
  | some s, some t => t ≤ s

instance : DecidableRel startedLater := fun x y => by
  unfold startedLater
  split <;> infer_instance

/-- `select … from agent_runs where … order by started_at desc limit 1` -/
def selectLatestRun (p : AgentRun → Bool) : Txn (Option AgentRun) := fun db =>
  .ok (((db.runs.rows.filter p).insertionSort startedLater).head?, db)

end Txn

end HermesRuntime
