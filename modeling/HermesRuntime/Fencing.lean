import HermesRuntime.StoreInvariant
import HermesRuntime.Supabase

/-!
# Fencing: a run that has ended stays ended

Once a run has left `running`, no later call of anyone touches its row, except the operator's
release of a blocked run, and its own heartbeats and finishes are turned away.

* `ended_row_runOps` — the row after any later calls.
* `heartbeat_of_ended`, `finish_of_ended` — what the run's own late calls come to.
* `fencing` — all of it for a reachable state, and what `SupabaseStore.finish` then does.
-/

namespace HermesRuntime

open Relational

/-! ## The row of an ended run -/

/-- The row `x` after later calls: as it was, or released by the operator. -/
def Settled (ops : List (Timestamp × StoreOp)) (x y : AgentRun) : Prop :=
  y = x ∨ (x.status = .blocked ∧
    ∃ t, (t, StoreOp.release x.linearIssueId) ∈ ops ∧ y = x.released t)

theorem not_running_of_settled {ops : List (Timestamp × StoreOp)} {x y : AgentRun}
    (h : Settled ops x y) (hx : x.status ≠ .running) : y.status ≠ .running := by
  rcases h with rfl | ⟨-, t, -, rfl⟩
  · exact hx
  · simp [AgentRun.released]

theorem runId_of_settled {ops : List (Timestamp × StoreOp)} {x y : AgentRun}
    (h : Settled ops x y) : y.runId = x.runId := by
  rcases h with rfl | ⟨-, t, -, rfl⟩ <;> rfl

/-- One call leaves the row of an ended run alone, but for the operator's release. -/
theorem ended_row_apply {db : Db} (hc : db.Consistent) {x : AgentRun} (hx : x ∈ db.runs.rows)
    (hs : x.status ≠ .running) (now : Timestamp) (op : StoreOp) :
    ∃ y ∈ (op.apply now db).runs.rows, Settled [(now, op)] x y := by
  -- The effects on running runs miss the row: the run of a lock is running.
  have hmiss : ∀ {l : AgentExecutionLock}, l ∈ db.locks.rows → x.runId ≠ l.runId :=
    fun hl heq => hs (hc.running_of_lock hl hx heq).2
  cases apply_effect hc now op with
  | idle hruns hlocks => exact ⟨x, by rw [hruns]; exact hx, Or.inl rfl⟩
  | started hop hruns hlocks =>
      exact ⟨x, by rw [hruns]; exact List.mem_append_left _ hx, Or.inl rfl⟩
  | touched hop hl hlive hruns hlocks =>
      refine ⟨x, ?_, Or.inl rfl⟩
      rw [hruns, List.mem_map]
      exact ⟨x, hx, if_neg (hmiss hl)⟩
  | ended hop hl hf hfs hruns hlocks =>
      refine ⟨x, ?_, Or.inl rfl⟩
      rw [hruns, List.mem_map]
      exact ⟨x, hx, if_neg (hmiss hl)⟩
  | @released issueId hop hruns hlocks =>
      refine ⟨_, by rw [hruns]; exact List.mem_map_of_mem hx, ?_⟩
      by_cases hb : x.isBlockedOf issueId = true
      · rw [if_pos hb]
        simp only [AgentRun.isBlockedOf, Bool.and_eq_true, decide_eq_true_eq] at hb
        obtain ⟨rfl, hblocked⟩ := hb
        exact Or.inr ⟨hblocked, now, by simp [hop], rfl⟩
      · rw [if_neg hb]
        exact Or.inl rfl

/-- **The row of an ended run after any later calls.** -/
theorem ended_row_runOps {db : Db} (hc : db.Consistent) {x : AgentRun} (hx : x ∈ db.runs.rows)
    (hs : x.status ≠ .running) (ops : List (Timestamp × StoreOp)) :
    ∃ y ∈ (runOps ops db).runs.rows, Settled ops x y := by
  induction ops generalizing db x with
  | nil => exact ⟨x, hx, Or.inl rfl⟩
  | cons op ops ih =>
      obtain ⟨now, op⟩ := op
      obtain ⟨y, hy, hxy⟩ := ended_row_apply hc hx hs now op
      obtain ⟨z, hz, hyz⟩ :=
        ih (consistent_apply hc now op) hy (not_running_of_settled hxy hs)
      refine ⟨z, hz, ?_⟩
      rcases hxy with rfl | ⟨hb, t, ht, rfl⟩
      · rcases hyz with rfl | ⟨hb, t, ht, rfl⟩
        · exact Or.inl rfl
        · exact Or.inr ⟨hb, t, List.mem_cons_of_mem _ ht, rfl⟩
      · refine Or.inr ⟨hb, t, List.mem_cons.2 (Or.inl (List.mem_singleton.1 ht)), ?_⟩
        rcases hyz with h | ⟨hb', -⟩
        · exact h
        · exact absurd hb' (by simp [AgentRun.released])

/-! ## Its own late calls -/

/-- An ended run holds no lock. -/
theorem not_isOf_of_ended {db : Db} (hc : db.Consistent) {x : AgentRun} (hx : x ∈ db.runs.rows)
    (hs : x.status ≠ .running) (issueId : String) :
    ∀ l ∈ db.locks.rows, l.isOf x.runId issueId = false := by
  intro l hl
  by_contra hof
  obtain ⟨-, hid⟩ := isOf_iff.1 (by simpa using hof : l.isOf x.runId issueId = true)
  exact hs (hc.running_of_lock hl hx hid.symm).2

theorem heartbeat_of_ended {db : Db} (hc : db.Consistent) {x : AgentRun} (hx : x ∈ db.runs.rows)
    (hs : x.status ≠ .running) (now : Timestamp) (issueId : String) (ttl : Int) :
    hermesHeartbeatRun now x.runId issueId ttl db =
      if validTtl ttl then .ok (false, db) else .error (.raised "Invalid lock TTL") := by
  have hfree := not_isOf_of_ended hc hx hs issueId
  rcases heartbeat_cases now x.runId issueId ttl db with
    ⟨hv, h⟩ | ⟨hv, -, h⟩ | ⟨l, hl, hlive, -⟩
  · simp [h, hv]
  · simp [h, hv]
  · simp [AgentExecutionLock.isLive, hfree l hl] at hlive

/-- The arguments a finish accepts. -/
def validFinish (statusText : String) (fields : JsonArg) : Bool :=
  (finalStatus statusText).isSome && (finishFields fields).isSome

theorem finish_of_ended {db : Db} (hc : db.Consistent) {x : AgentRun} (hx : x ∈ db.runs.rows)
    (hs : x.status ≠ .running) (now : Timestamp) (issueId text : String) (arg : JsonArg) :
    (validFinish text arg = true ∧
      hermesFinishRun now x.runId issueId text arg db = .ok (false, db)) ∨
    (validFinish text arg = false ∧
      ∃ e, hermesFinishRun now x.runId issueId text arg db = .error e) := by
  have hfree := not_isOf_of_ended hc hx hs issueId
  rcases finish_cases now x.runId issueId text arg db with
    ⟨hv, h⟩ | ⟨hv, h⟩ | ⟨hv, hv', -, h⟩ | ⟨-, -, -, -, l, hl, hof, -⟩
  · exact Or.inr ⟨by simp [validFinish, hv], _, h⟩
  · exact Or.inr ⟨by simp [validFinish, hv], _, h⟩
  · exact Or.inl ⟨by simp [validFinish, hv, hv'], h⟩
  · exact absurd hof (by simp [hfree l hl])

/-- Whatever becomes of the request, `SupabaseStore.finish` raises for an ended run and changes
nothing. -/
theorem supabase_finish_of_ended {db : Db} (hc : db.Consistent) {x : AgentRun}
    (hx : x ∈ db.runs.rows) (hs : x.status ≠ .running) (d : Delivery) (now : Timestamp)
    {c : ExecutionContext} (hid : c.runId = x.runId) (status : String)
    (fields : Mapping String) :
    ∃ e, SupabaseStore.finish d now c status fields db = (.error e, db) := by
  have htxn := finish_of_ended hc hx hs now c.linearIssueId status (.object (jsonFields fields))
  rw [← hid] at htxn
  cases d with
  | refused f => exact ⟨_, rfl⟩
  | lost f =>
      rcases htxn with ⟨-, h⟩ | ⟨-, e, h⟩ <;>
        exact ⟨f.exc, by simp [SupabaseStore.finish, post, StoreOp.apply, StoreOp.txn, h,
          SupabaseStore.orRaise]⟩
  | answered =>
      rcases htxn with ⟨-, h⟩ | ⟨-, e, h⟩
      · exact ⟨.runtimeError "Run no longer owns the issue lock",
          by simp [SupabaseStore.finish, post, StoreOp.txn, h, SupabaseStore.orRaise]⟩
      · exact ⟨e.failure.exc,
          by simp [SupabaseStore.finish, post, StoreOp.txn, h, SupabaseStore.orRaise]⟩

/-- **Fencing.** Let `x` be the row of a run that is no longer running, in any reachable state.
After any later calls its row is `x` still, or `x` released by the operator; every heartbeat
and finish for it is turned away without a change; and `SupabaseStore.finish` raises. -/
theorem fencing (defaults : ColumnDefaults) (ops later : List (Timestamp × StoreOp))
    {x : AgentRun} (hx : x ∈ (runOps ops (Db.empty defaults)).runs.rows)
    (hs : x.status ≠ .running) :
    let db := runOps later (runOps ops (Db.empty defaults))
    (∃ y ∈ db.runs.rows, Settled later x y) ∧
    (∀ now issueId ttl, hermesHeartbeatRun now x.runId issueId ttl db =
      if validTtl ttl then .ok (false, db) else .error (.raised "Invalid lock TTL")) ∧
    (∀ now issueId text arg,
      if validFinish text arg then
        hermesFinishRun now x.runId issueId text arg db = .ok (false, db)
      else ∃ e, hermesFinishRun now x.runId issueId text arg db = .error e) ∧
    ∀ d now c status fields, c.runId = x.runId →
      ∃ e, SupabaseStore.finish d now c status fields db = (.error e, db) := by
  intro db
  have hc₀ := consistent_runOps (consistent_empty defaults) ops
  have hc : db.Consistent := consistent_runOps hc₀ later
  obtain ⟨y, hy, hxy⟩ := ended_row_runOps hc₀ hx hs later
  have hys := not_running_of_settled hxy hs
  rw [← runId_of_settled hxy]
  refine ⟨⟨y, hy, hxy⟩, heartbeat_of_ended hc hy hys, fun now issueId text arg => ?_,
    fun d now c status fields hid => supabase_finish_of_ended hc hy hys d now hid status fields⟩
  rcases finish_of_ended hc hy hys now issueId text arg with ⟨hv, h⟩ | ⟨hv, h⟩
  · rw [hv]
    exact h
  · rw [hv]
    exact h

/-- A claim of issue `LOL-1`. -/
def sampleClaim (runId : String) : StoreOp :=
  .claim ⟨runId, "LOL-1", "qualidade", some "low", some "auto", some "local", 600⟩

/-- A run is claimed and fails a second later. -/
def failedOps : List (Timestamp × StoreOp) := [
  (0, sampleClaim "run_1"),
  (1000000, .finish "run_1" "LOL-1" "failed" (.object (.mk [⟨"error", .str "RuntimeError"⟩])))]

/-- The row it leaves. -/
def failedRun : AgentRun where
  runId := "run_1"
  linearIssueId := "LOL-1"
  agent := "qualidade"
  status := .failed
  risk := some "low"
  executionMode := some "auto"
  environment := some "local"
  startedAt := some 0
  heartbeatAt := some 0
  finishedAt := some 1000000
  error := some "RuntimeError"

/-- Another run has claimed the issue, and a third claim reuses the old id. -/
theorem fencing_failed :
    let later := [(2000000, sampleClaim "run_2"), (3000000, sampleClaim "run_1")]
    let db := runOps later (runOps failedOps (.empty ⟨some, some⟩))
    (∃ y ∈ db.runs.rows, Settled later failedRun y) ∧
    (∀ now issueId ttl, hermesHeartbeatRun now "run_1" issueId ttl db =
      if validTtl ttl then .ok (false, db) else .error (.raised "Invalid lock TTL")) ∧
    (∀ now issueId text arg,
      if validFinish text arg then
        hermesFinishRun now "run_1" issueId text arg db = .ok (false, db)
      else ∃ e, hermesFinishRun now "run_1" issueId text arg db = .error e) ∧
    ∀ d now c status fields, c.runId = "run_1" →
      ∃ e, SupabaseStore.finish d now c status fields db = (.error e, db) :=
  fencing ⟨some, some⟩ failedOps _ (x := failedRun) (by decide) (by decide)

end HermesRuntime
