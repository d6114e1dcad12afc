import HermesRuntime.PollerTick

/-!
# The client of Linear (`smoke_lib.py`)

A query is one HTTP request. What comes back of it goes through `http_json`, which tells bodies
apart, and `gql`, which looks for errors and for the data.

GraphQL answers are documents of the shape the query asks for, so a document is given here by its
errors or its data.
-/

namespace HermesRuntime

/-! ## Requests -/

/-- What `urlopen` comes to, for a query whose data is a `β`. -/
inductive HttpReply (β : Type) where
  /-- It raises, or what it reads cannot be decoded. -/
  | raised (typeName message : String)
  /-- An `HTTPError`, with the beginning of its body. -/
  | httpError (text : String)
  /-- An answer without a body. -/
  | empty
  /-- The beginning of a body that is no JSON. -/
  | notJson (text : String)
  /-- A document with errors, as `repr` shows them. -/
  | errors (shown : String)
  /-- A document without errors, and its `data`. -/
  | document (data : Option β)
  deriving DecidableEq

/-- The body `http_json` returns. -/
inductive GqlBody (β : Type) where
  | none
  | text (s : String)
  | errors (shown : String)
  | document (data : Option β)
  deriving DecidableEq

variable {β : Type}

/-- `http_json` -/
def httpJson : HttpReply β → Except Exc (GqlBody β)
  | .raised typeName message => .error { typeName, message }
  | .httpError text => .ok (.text text)
  | .empty => .ok .none
  | .notJson text => .ok (.text text)
  | .errors shown => .ok (.errors shown)
  | .document data => .ok (.document data)

/-- `Linear.gql`: the data of an answer. -/
def gql (reply : HttpReply β) : Except Exc (Option β) := do
  match ← httpJson reply with
  | .errors shown => throw (.runtimeError ("Linear GraphQL error: " ++ shown))
  | .document data => pure data
  -- `(body or {}).get("data")`, of what is no document
  | .none => pure none
  | .text s =>
      if s = "" then pure none
      else throw {
        typeName := "AttributeError", message := "'str' object has no attribute 'get'" }

/-! ## What the tick asks -/

/-- The nodes of the answer to `TODO_ISSUES_QUERY`: `(data or {}).get("issues", {}).get("nodes",
[])`. -/
def todoNodesOf (reply : HttpReply (List LinearNode)) : Except Exc (List LinearNode) := do
  let data ← gql reply
  pure (data.getD [])

/-- `Linear.set_state`, by the answer to `issueUpdate`. Whether the update succeeded is returned,
not looked at. -/
def setStateOf (reply : HttpReply Bool) : Except Exc Bool := do
  match ← gql reply with
  | some success => pure success
  | none => throw {
      typeName := "TypeError", message := "'NoneType' object is not subscriptable" }

/-! ## Their exceptions -/

/-- An exception that is none of the runtime's own: no block, no conflict and no
`ExecutionEventError`. -/
def Exc.Plain (e : Exc) : Prop := e.isBlocked = false ∧ e.isConflict = false ∧ e.event = none

/-- **What the client raises is none of the runtime's exceptions**, so that the turn of an issue
never ends in a block or a conflict because of it. -/
theorem plain_of_gql {reply : HttpReply β} {e : Exc} (h : gql reply = .error e) : e.Plain := by
  unfold gql at h
  cases reply with
  | raised typeName message | errors shown =>
      cases h
      exact ⟨rfl, rfl, rfl⟩
  | empty | document data => cases h
  | httpError text | notJson text =>
      by_cases htext : text = ""
      · simp only [httpJson, bind, Except.bind, htext, if_true] at h
        cases h
      · simp only [httpJson, bind, Except.bind, htext, if_false] at h
        cases h
        exact ⟨rfl, rfl, rfl⟩

theorem plain_of_setState {reply : HttpReply Bool} {e : Exc}
    (h : setStateOf reply = .error e) : e.Plain := by
  unfold setStateOf at h
  cases hgql : gql reply with
  | ok data =>
      rw [hgql] at h
      cases data with
      | none =>
          cases h
          exact ⟨rfl, rfl, rfl⟩
      | some success => cases h
  | error e' =>
      rw [hgql] at h
      cases h
      exact plain_of_gql hgql

end HermesRuntime
