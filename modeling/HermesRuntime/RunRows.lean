import HermesRuntime.StoreInvariant

/-!
# The rows of `agent_runs`

What a call does to the rows one by one: a claim adds one, every other call rewrites those there
are.

* `rows_apply` — the rows after a call.
* `map_runId_apply`, `claimColumns_apply`, `not_reviewing_apply` — what no call takes back.
* `completed_apply` — a row is completed by a finish only.
-/

namespace HermesRuntime

/-- What a call makes of a row. -/
inductive Rewrites (op : StoreOp) (now : Timestamp) (x : AgentRun) : AgentRun → Prop
  | kept : Rewrites op now x x
  | beaten (hwork : x.isAtWork = true) : Rewrites op now x (x.heartbeat now)
  | finished {text : String} {arg : JsonArg} {status : RunStatus} {fields : JsonObject}
      (hop : op = .finish x.runId x.linearIssueId text arg)
      (hstatus : finalStatus text = some status)
      (hfields : finishFields arg = some fields) : Rewrites op now x (x.finished now status fields)
  | expired : Rewrites op now x (x.expired now)
  | released : Rewrites op now x (x.released now)

/-- The row a granted claim adds. -/
def StartedRow (op : StoreOp) (now : Timestamp) (x : AgentRun) : Prop :=
  ∃ a startedAt, op = .claim a ∧ x = (a.queuedRun startedAt).running now

/-- A call adds the row of a claim, or rewrites the rows there are. -/
theorem rows_apply (now : Timestamp) (op : StoreOp) (db : Db) :
    (∃ x, StartedRow op now x ∧ (op.apply now db).runs.rows = db.runs.rows ++ [x]) ∨
    ∃ f : AgentRun → AgentRun, (op.apply now db).runs.rows = db.runs.rows.map f ∧
      ∀ x, Rewrites op now x (f x) := by
  have hidle : ∀ db' : Db, db'.runs = db.runs →
      ∃ f : AgentRun → AgentRun, db'.runs.rows = db.runs.rows.map f ∧
        ∀ x, Rewrites op now x (f x) :=
    fun db' h => ⟨id, by rw [h, List.map_id], fun x => .kept⟩
  have hif : ∀ (p : AgentRun → Bool) (f : AgentRun → AgentRun),
      (∀ x, p x = true → Rewrites op now x (f x)) →
        ∀ x, Rewrites op now x (if p x then f x else x) := by
    intro p f h x
    by_cases hp : p x = true
    · rw [if_pos hp]
      exact h x hp
    · rw [if_neg hp]
      exact .kept
  cases op with
  | claim a =>
      rcases claim_cases now a db with ⟨-, h⟩ | ⟨-, -, db', h, hruns, -⟩ | ⟨-, -, h⟩
      · rw [StoreOp.apply_error (.claim a) h]
        exact Or.inr (hidle db rfl)
      · rw [StoreOp.apply_ok (.claim a) h]
        exact Or.inl ⟨_, ⟨a, _, rfl, rfl⟩, hruns⟩
      · rw [StoreOp.apply_ok (.claim a) h]
        exact Or.inr (hidle _ rfl)
  | heartbeat runId issueId ttl =>
      rcases heartbeat_cases now runId issueId ttl db with
        ⟨-, h⟩ | ⟨-, -, h⟩ | ⟨-, -, -, db', h, hruns, -⟩
      · rw [StoreOp.apply_error (.heartbeat runId issueId ttl) h]
        exact Or.inr (hidle db rfl)
      · rw [StoreOp.apply_ok (.heartbeat runId issueId ttl) h]
        exact Or.inr (hidle db rfl)
      · rw [StoreOp.apply_ok (.heartbeat runId issueId ttl) h]
        refine Or.inr ⟨_, hruns, hif _ _ fun x hp => .beaten ?_⟩
        exact (Bool.and_eq_true_iff.1 hp).2
  | finish runId issueId text arg =>
      rcases finish_cases now runId issueId text arg db with
        ⟨-, h⟩ | ⟨-, h⟩ | ⟨-, -, -, h⟩ |
          ⟨status, fields, hstatus, hfields, -, -, -, -, -, -, db', h, hruns, -⟩
      · rw [StoreOp.apply_error (.finish runId issueId text arg) h]
        exact Or.inr (hidle db rfl)
      · rw [StoreOp.apply_error (.finish runId issueId text arg) h]
        exact Or.inr (hidle db rfl)
      · rw [StoreOp.apply_ok (.finish runId issueId text arg) h]
        exact Or.inr (hidle db rfl)
      · rw [StoreOp.apply_ok (.finish runId issueId text arg) h]
        refine Or.inr ⟨_, hruns, hif _ _ fun x hp => .finished ?_ hstatus hfields⟩
        simp only [AgentRun.isFinishable, Bool.and_eq_true, decide_eq_true_eq] at hp
        rw [hp.1.1, hp.1.2]
  | recover issueId =>
      rcases recover_cases now issueId db with ⟨-, h⟩ | ⟨l, -, -, -, db', h, hruns, -⟩
      · rw [StoreOp.apply_ok (.recover issueId) h]
        exact Or.inr (hidle db rfl)
      · rw [StoreOp.apply_ok (.recover issueId) h]
        exact Or.inr ⟨_, hruns, hif _ _ fun x _ => .expired⟩
  | release issueId =>
      obtain ⟨runs, h, hrows⟩ := release_apply now issueId db
      rw [StoreOp.apply_ok (.release issueId) h]
      exact Or.inr ⟨_, hrows, hif _ _ fun x _ => .released⟩
  | insertEvent e => exact Or.inr (hidle _ rfl)

/-- The columns of a run that its claim fills. -/
def AgentRun.claimColumns (x : AgentRun) :
    String × String × String × Option String × Option String × Option String :=
  (x.runId, x.linearIssueId, x.agent, x.risk, x.executionMode, x.environment)

/-- What a claim has filled no call changes. -/
theorem claimColumns_apply {db : Db} {x : AgentRun} (hx : x ∈ db.runs.rows) (now : Timestamp)
    (op : StoreOp) : ∃ y ∈ (op.apply now db).runs.rows, y.claimColumns = x.claimColumns := by
  rcases rows_apply now op db with ⟨y, -, hrows⟩ | ⟨f, hrows, hf⟩
  · exact ⟨x, by rw [hrows]; exact List.mem_append_left _ hx, rfl⟩
  · refine ⟨f x, by rw [hrows]; exact List.mem_map_of_mem hx, ?_⟩
    generalize hy : f x = y
    have hrewrites : Rewrites op now x y := hy ▸ hf x
    cases hrewrites <;> rfl

/-- No run is under review: no call writes that status. -/
theorem not_reviewing_apply {db : Db} (h : ∀ x ∈ db.runs.rows, x.status ≠ .reviewing)
    (now : Timestamp) (op : StoreOp) :
    ∀ x ∈ (op.apply now db).runs.rows, x.status ≠ .reviewing := by
  intro x hx
  rcases rows_apply now op db with ⟨y, ⟨a, startedAt, -, rfl⟩, hrows⟩ | ⟨f, hrows, hf⟩
  · rw [hrows, List.mem_append, List.mem_singleton] at hx
    rcases hx with hx | rfl
    · exact h x hx
    · intro hs
      cases hs
  · rw [hrows, List.mem_map] at hx
    obtain ⟨y, hy, heq⟩ := hx
    have hrewrites : Rewrites op now y x := heq ▸ hf y
    cases hrewrites with
    | kept => exact h _ hy
    | beaten => exact h y hy
    | finished hop hstatus => exact (finalStatus_not_active hstatus).2.2
    | expired | released =>
        intro hs
        cases hs

/-- Calls other than claims keep the run ids. -/
theorem map_runId_apply (now : Timestamp) {op : StoreOp} (hop : ∀ a, op ≠ .claim a) (db : Db) :
    (op.apply now db).runs.rows.map (·.runId) = db.runs.rows.map (·.runId) := by
  rcases rows_apply now op db with ⟨y, ⟨a, startedAt, rfl, -⟩, -⟩ | ⟨f, hrows, hf⟩
  · exact absurd rfl (hop a)
  · rw [hrows, List.map_map]
    refine List.map_congr_left fun x _ => ?_
    show (f x).runId = x.runId
    generalize hy : f x = y
    have hrewrites : Rewrites op now x y := hy ▸ hf x
    cases hrewrites <;> rfl

theorem text_of_finalStatus {text : String} (h : finalStatus text = some .completed) :
    text = "completed" := by
  unfold finalStatus at h
  split at h
  · rfl
  all_goals cases h

/-- A row is completed by a finish only. -/
theorem completed_apply {db : Db} {now : Timestamp} {op : StoreOp} {x : AgentRun}
    (hx : x ∈ (op.apply now db).runs.rows) (hdone : x.status = .completed) :
    x ∈ db.runs.rows ∨ ∃ arg fields y, op = .finish x.runId x.linearIssueId "completed" arg ∧
      finishFields arg = some fields ∧ x = AgentRun.finished now .completed fields y := by
  rcases rows_apply now op db with ⟨y, ⟨a, startedAt, -, rfl⟩, hrows⟩ | ⟨f, hrows, hf⟩
  · rw [hrows, List.mem_append, List.mem_singleton] at hx
    rcases hx with hx | rfl
    · exact Or.inl hx
    · cases hdone
  · rw [hrows, List.mem_map] at hx
    obtain ⟨y, hy, heq⟩ := hx
    have hrewrites : Rewrites op now y x := heq ▸ hf y
    cases hrewrites with
    | kept => exact Or.inl hy
    | beaten hwork =>
        rw [AgentRun.isAtWork, show y.status = .completed from hdone] at hwork
        cases hwork
    | finished hop hstatus hfields =>
        obtain rfl := hdone
        obtain rfl := text_of_finalStatus hstatus
        exact Or.inr ⟨_, _, y, hop, hfields, rfl⟩
    | expired | released => cases hdone

end HermesRuntime
