import HermesRuntime.Runtime
import HermesRuntime.RuntimeFunctions

/-!
# The store over PostgREST (`supabase.py`)

Every method of `SupabaseStore` is one request, which the network may answer, lose on the way
back or never deliver (`Delivery`). A method is a function of that, the time of the
transaction and the tables, to what the caller sees and the tables afterwards.
-/

namespace HermesRuntime

/-! ## Requests -/

/-- How a request fails: with an HTTP status, or with an exception of the network or of
decoding the answer. -/
inductive Failure where
  | http (code : Nat)
  | raised (typeName message : String)
  deriving DecidableEq

/-- What `_post` raises. -/
def Failure.exc : Failure → Exc
  | .http code =>
      if code = 409 then .runConflict "Active run already exists for this issue"
      else .runtimeError ("Supabase request failed (HTTP " ++ decimalText code 0 ++ ")")
  | .raised typeName message => { typeName, message }

/-- What becomes of a request. -/
inductive Delivery where
  /-- The transaction runs and its answer comes back. -/
  | answered
  /-- The transaction runs, but its answer is lost. -/
  | lost (f : Failure)
  /-- The transaction never runs. -/
  | refused (f : Failure)
  deriving DecidableEq

/-- The HTTP status PostgREST gives for an error of the database. -/
def SqlError.failure : SqlError → Failure
  | .uniqueViolation => .http 409
  | .raised _ => .http 400

/-- `_post`: one request, its transaction run at `now`. -/
def post (d : Delivery) (now : Timestamp) (op : StoreOp) (db : Db) : Except Exc Bool × Db :=
  match d with
  | .refused f => (.error f.exc, db)
  | .lost f => (.error f.exc, op.apply now db)
  | .answered =>
      match op.txn now db with
      | .ok (b, db') => (.ok b, db')
      | .error e => (.error e.failure.exc, db)

/-! ## JSON bodies -/

/-- A value as `json.dumps` writes it and the server reads it; it refuses `NaN` and the
infinities, which are no JSON. -/
def PyVal.toJson : PyVal → Except Exc Json
  | .none => .ok .null
  | .str s => .ok (.str s)
  | .bool b => .ok (.bool b)
  | .int n => .ok (.num n 0)
  | .float (.finite m s) => .ok (if s = 0 then .num (m * 10) 1 else .num m s)
  | .float _ => .error (Failure.http 400).exc
  | .object cls text =>
      match cls with
      | .list | .tuple | .mapping => .ok (.container text)
      | _ => .error (.typeError "Object is not JSON serializable")

/-- A column value as `json.loads` reads it back. -/
def Json.toPy : Json → PyVal
  | .null => .none
  | .bool b => .bool b
  | .num m 0 => .int m
  | .num m s => .float (.finite m s)
  | .str s => .str s
  | .container text => .object .mapping text

/-- Convert the values of a mapping one by one. -/
def convertEntries {α β : Type} (f : α → Except Exc β) :
    List (Sigma fun _ : String => α) → Except Exc (List (Sigma fun _ : String => β))
  | [] => .ok []
  | e :: es => do
      let v ← f e.2
      let rest ← convertEntries f es
      pure (⟨e.1, v⟩ :: rest)

theorem keys_convertEntries {α β : Type} {f : α → Except Exc β}
    {es : List (Sigma fun _ : String => α)} {es' : List (Sigma fun _ : String => β)}
    (h : convertEntries f es = .ok es') : es'.map Sigma.fst = es.map Sigma.fst := by
  induction es generalizing es' with
  | nil =>
      cases h
      rfl
  | cons e es ih =>
      unfold convertEntries at h
      cases hv : f e.2 with
      | error _ => rw [hv] at h; cases h
      | ok v =>
      cases hr : convertEntries f es with
      | error _ => rw [hv, hr] at h; cases h
      | ok rest =>
          rw [hv, hr] at h
          cases h
          simp [ih hr]

/-- A payload as a JSON object. -/
def jsonBody (payload : Mapping PyVal) : Except Exc JsonObject :=
  match h : convertEntries PyVal.toJson payload.entries with
  | .ok entries => .ok ⟨entries, by
      rw [List.NodupKeys, List.keys, keys_convertEntries h]
      exact payload.nodupKeys⟩
  | .error e => .error e

/-- A mapping of strings as a JSON object. -/
def jsonFields (fields : Mapping String) : JsonObject where
  entries := fields.entries.map fun e => ⟨e.1, .str e.2⟩
  nodupKeys := by
    rw [List.NodupKeys, List.keys, List.map_map]
    exact fields.nodupKeys

/-! ## The methods -/

/-- The arguments of the claim of a context. -/
def ExecutionContext.claimArgs (c : ExecutionContext) (ttlSeconds : Int) : ClaimArgs where
  runId := c.runId
  issueId := c.linearIssueId
  agent := c.agent
  risk := some c.risk
  mode := some c.executionMode
  environment := some c.environment
  ttlSeconds := ttlSeconds

namespace SupabaseStore

/-- `result is not True` raises. -/
def orRaise (e : Exc) : Except Exc Bool → Except Exc Unit
  | .ok true => .ok ()
  | .ok false => .error e
  | .error e' => .error e'

/-- `SupabaseStore.claim` -/
def claim (d : Delivery) (now : Timestamp) (c : ExecutionContext) (ttlSeconds : Int) (db : Db) :
    Except Exc Unit × Db :=
  let (r, db') := post d now (.claim (c.claimArgs ttlSeconds)) db
  (orRaise (.runConflict "Active run already exists for this issue") r, db')

/-- `SupabaseStore.heartbeat` -/
def heartbeat (d : Delivery) (now : Timestamp) (c : ExecutionContext) (ttlSeconds : Int)
    (db : Db) : Except Exc Bool × Db :=
  post d now (.heartbeat c.runId c.linearIssueId ttlSeconds) db

/-- `SupabaseStore.event`: the payload is validated again, and the answer is empty. -/
def event (d : Delivery) (now : Timestamp) (c : ExecutionContext) (kind : String)
    (payload : Mapping PyVal) (db : Db) : Except Exc Unit × Db :=
  match validateEventPayload kind (.mapping payload) >>= jsonBody with
  | .error e => (.error e, db)
  | .ok body =>
      let (r, db') := post d now
        (.insertEvent ⟨c.runId, c.linearIssueId, c.agent, kind, body⟩) db
      (r.map fun _ => (), db')

/-- `SupabaseStore.finish` -/
def finish (d : Delivery) (now : Timestamp) (c : ExecutionContext) (status : String)
    (fields : Mapping String) (db : Db) : Except Exc Unit × Db :=
  let (r, db') := post d now
    (.finish c.runId c.linearIssueId status (.object (jsonFields fields))) db
  (orRaise (.runtimeError "Run no longer owns the issue lock") r, db')

/-- `SupabaseStore.recover` -/
def recover (d : Delivery) (now : Timestamp) (issueId : String) (db : Db) :
    Except Exc Bool × Db :=
  post d now (.recover issueId) db

end SupabaseStore

end HermesRuntime
