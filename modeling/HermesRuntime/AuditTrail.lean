import HermesRuntime.AuditRows
import HermesRuntime.CallBranches
import HermesRuntime.Classification
import HermesRuntime.ExecutionProof
import HermesRuntime.RecordedName
import HermesRuntime.Script
import HermesRuntime.WorldProof

/-!
# The audit trail of executions

Executions side by side over one store, recovered by whoever calls for it: which of the rows
they leave in `agent_events` keep the payload contract. Everything posted through
`SupabaseStore.event` does. A finish passes on what the dispatcher returned, or the name of an
exception, and nothing between there and the table looks at it; two kinds of rows carry a run
id, which may spell a secret word.

* `claim_rows`, `finish_rows`, `recover_rows` — the rows one call inserts.
* `step_rows` — the rows one step inserts.
* `audit_rows_accepted_iff` — when all rows of an interleaving are accepted.
-/

namespace HermesRuntime

open Effects Prog Semantics

/-! ## The rows of one call -/

/-- What `op` inserts into `agent_events`. -/
def Inserts (now : Timestamp) (op : StoreOp) (db : Db) (rows : List AgentEvent) : Prop :=
  (op.apply now db).events = db.events ++ rows

theorem inserts_ok {now : Timestamp} {op : StoreOp} {db db' : Db} {b : Bool}
    {rows rows' : List AgentEvent} (h : Inserts now op db rows) (hop : op.txn now db = .ok (b, db'))
    (hevents : db'.events = db.events ++ rows') : rows = rows' := by
  unfold Inserts at h
  rw [StoreOp.apply_ok op hop, hevents] at h
  exact (List.append_cancel_left h).symm

theorem inserts_error {now : Timestamp} {op : StoreOp} {db : Db} {e : SqlError}
    {rows : List AgentEvent} (h : Inserts now op db rows) (hop : op.txn now db = .error e) :
    rows = [] := by
  unfold Inserts at h
  rw [StoreOp.apply_error op hop] at h
  exact List.self_eq_append_right.1 h

/-- The rows of a claim: those of the new run are accepted, and the one that reports a rejection
is where the rejected run id is clean. -/
theorem claim_rows {issue : Issue} {c : ExecutionContext} (hc : IsContextOf issue c) {ttl : Int}
    {now : Timestamp} {db : Db} {rows : List AgentEvent}
    (h : Inserts now (.claim (c.claimArgs ttl)) db rows) (hne : rows ≠ []) :
    (∀ e ∈ rows, RowAccepted e) ↔ (db.Taken c.linearIssueId → CleanText c.runId) := by
  rcases claim_cases now (c.claimArgs ttl) db with
    ⟨-, hop⟩ | ⟨httl, hfree, db', hop, -, -, hevents⟩ | ⟨-, -, hop⟩
  · exact absurd (inserts_error h hop) hne
  · obtain rfl := inserts_ok h hop hevents
    obtain ⟨-, -, -, -, -, -, hrisk, hmode, henv⟩ := classifyIssue_eq_ok_iff.1 hc.1
    have hpos : 0 ≤ ttl := by
      simp only [validTtl, Bool.and_eq_true, decide_eq_true_eq] at httl
      exact le_trans (by decide) httl.1
    refine iff_of_true (fun e he => ?_) fun htaken => absurd htaken hfree.2
    simp only [ClaimArgs.startEvents, List.mem_cons, List.not_mem_nil, or_false] at he
    rcases he with rfl | rfl | rfl
    · exact created_accepted
    · exact acquired_accepted hpos _
    · exact started_accepted hrisk hmode henv
  · obtain rfl := inserts_ok h hop rfl
    rcases holder_cases db c.linearIssueId with ⟨-, hnone⟩ | ⟨run, agent, hsome, -⟩
    · exact absurd (by simp [Db.rejectEvents, ExecutionContext.claimArgs, hnone]) hne
    · have hrows : db.rejectEvents (c.claimArgs ttl) =
          [lockRejectedEvent run c.linearIssueId agent c.runId] := by
        simp [Db.rejectEvents, ExecutionContext.claimArgs, hsome]
      rw [hrows, List.forall_mem_singleton, rejected_accepted_iff]
      exact ⟨fun hclean _ => hclean, fun hclean => hclean (taken_of_holder hsome)⟩

/-- The rows of a recovery are accepted where the id of the recovered run is clean. -/
theorem recover_rows {issueId : String} {now : Timestamp} {db : Db} {rows : List AgentEvent}
    (h : Inserts now (.recover issueId) db rows) (hne : rows ≠ []) :
    (∀ e ∈ rows, RowAccepted e) ↔
      ∀ l ∈ db.locks.rows, l.linearIssueId = issueId → CleanText l.runId := by
  rcases recover_cases now issueId db with ⟨-, hop⟩ | ⟨l, hl, hissue, -, db', hop, -, -, hevents⟩
  · exact absurd (inserts_ok h hop (List.append_nil _).symm) hne
  · obtain rfl := inserts_ok h hop hevents
    have hrows : (∀ e ∈ recoverEvents issueId l, RowAccepted e) ↔ CleanText l.runId := by
      rw [recoverEvents, List.forall_mem_cons, List.forall_mem_singleton, recovered_accepted_iff]
      exact and_iff_right (expired_accepted _ _)
    rw [hrows]
    refine ⟨fun hclean l' hl' hissue' => ?_, fun hclean => hclean l hl hissue⟩
    rw [eq_of_issue db hl' hl (hissue'.trans hissue.symm)]
    exact hclean

/-- A finish inserts the row of its status and that of the lock. -/
theorem finish_rows {runId issueId s : String} {fields : Mapping String} {now : Timestamp}
    {db : Db} {rows : List AgentEvent}
    (h : Inserts now (.finish runId issueId s (.object (jsonFields fields))) db rows)
    (hne : rows ≠ []) : ∃ status agent, finalStatus s = some status ∧
      rows = finishEvents runId issueId agent s status (jsonFields fields) := by
  rcases finish_cases now runId issueId s (.object (jsonFields fields)) db with
    ⟨-, hop⟩ | ⟨-, hop⟩ | ⟨-, -, -, hop⟩ |
      ⟨status, members, hstatus, hmembers, l, -, -, -, -, -, db', hop, -, -, hevents⟩
  · exact absurd (inserts_error h hop) hne
  · exact absurd (inserts_error h hop) hne
  · exact absurd (inserts_ok h hop (List.append_nil _).symm) hne
  · cases hmembers
    exact ⟨status, l.agent, hstatus, inserts_ok h hop hevents⟩

theorem finishEvents_accepted_iff {runId issueId agent s : String} {status : RunStatus}
    {fields : JsonObject} (hs : s ∈ ["completed", "failed", "blocked", "canceled"]) :
    (∀ e ∈ finishEvents runId issueId agent s status fields, RowAccepted e) ↔
      RowAccepted ⟨runId, issueId, agent, "run." ++ s, finishPayload fields status⟩ := by
  rw [finishEvents, List.forall_mem_cons, List.forall_mem_singleton]
  exact and_iff_left (released_accepted hs)

/-- What the calls of the execution were answered makes for a clean finish: a completed run passes
on what the dispatcher returned, any other the name of what was raised. -/
def CleanFinish (tr : List CallEvent) (s : String) : Prop :=
  (s = "completed" → ∀ c result, (⟨.dispatch c, .ok result⟩ : CallEvent) ∈ tr →
    CleanResult result) ∧
  (s = "failed" → NamePasses CleanText (raised (otherCalls s tr))) ∧
  (s = "blocked" → NamePasses (hasSecretWord · = false) (raised (otherCalls s tr)))

theorem ownNames_clean : ∀ name ∈ ownNames, CleanText name := by decide

/-- The rows of a finish of an execution are accepted where what it comes with is clean. -/
theorem execute_finish_rows {rt : AgentRuntime} {b : Bool} {issue : Issue} {tr : List CallEvent}
    {q : Prog Call Call.Resp (Except Exc ExecutionContext)}
    (hreach : Reach (rt.execute b issue).run tr q) {c : ExecutionContext} {s : String}
    {fields : Mapping String} {r : Except Exc Unit}
    (hev : (⟨.finish c s fields, r⟩ : CallEvent) ∈ tr) {now : Timestamp} {db : Db}
    {rows : List AgentEvent} (hne : rows ≠ [])
    (h : Inserts now (.finish c.runId c.linearIssueId s (.object (jsonFields fields))) db rows) :
    (∀ e ∈ rows, RowAccepted e) ↔ CleanFinish tr s := by
  obtain ⟨status, agent, hstatus, rfl⟩ := finish_rows h hne
  rcases finish_of_execute hreach hev with rfl | ⟨rfl | rfl, name, rfl⟩
  · obtain rfl : status = .completed := (Option.some.inj hstatus).symm
    obtain ⟨c', result, hdisp, rfl⟩ := completed_result hreach hev
    rw [finishEvents_accepted_iff (by simp)]
    refine completed_accepted_iff.trans ⟨fun hclean => ⟨fun _ c₁ result₁ hdisp₁ => ?_, ?_, ?_⟩, ?_⟩
    · cases dispatch_unique hreach hdisp₁ hdisp trivial trivial
      exact hclean
    · exact fun heq => absurd heq (by decide)
    · exact fun heq => absurd heq (by decide)
    · exact fun hclean => hclean.1 rfl c' result hdisp
  · obtain rfl : status = .failed := (Option.some.inj hstatus).symm
    have hname := recordedName_iff hreach hev (by decide) ownNames_clean
    rw [finishEvents_accepted_iff (by simp)]
    refine (failed_accepted_iff.trans hname).trans ⟨fun hclean => ⟨?_, fun _ => hclean, ?_⟩, ?_⟩
    · exact fun heq => absurd heq (by decide)
    · exact fun heq => absurd heq (by decide)
    · exact fun hclean => hclean.2.1 rfl
  · obtain rfl : status = .blocked := (Option.some.inj hstatus).symm
    have hname := recordedName_iff hreach hev (by decide) (P := (hasSecretWord · = false))
      fun name hown => (ownNames_clean name hown).2
    rw [finishEvents_accepted_iff (by simp)]
    refine (blocked_accepted_iff.trans hname).trans ⟨fun hclean => ⟨?_, ?_, fun _ => hclean⟩, ?_⟩
    · exact fun heq => absurd heq (by decide)
    · exact fun heq => absurd heq (by decide)
    · exact fun hclean => hclean.2.2 rfl

/-! ## The rows of one step -/

variable {π : Type} [DecidableEq π]

/-- What others than the executions ask of the store: recoveries, heartbeats, releases. -/
def FromOutside : StoreOp → Prop
  | .recover _ | .heartbeat _ _ _ | .release _ => True
  | .claim _ | .finish _ _ _ _ | .insertEvent _ => False

/-- What a step brings along is clean: the run id of a claim that is turned away, what a finish
comes with, the run id of a lock that is recovered. -/
def CleanStep (ls : List (SysLabel π)) (db : Db) : SysLabel π → Prop
  | .call _ ⟨.claim c _, _⟩ => db.Taken c.linearIssueId → CleanText c.runId
  | .call p ⟨.finish _ s _, _⟩ => CleanFinish (eventsOf p ls) s
  | .call _ ⟨.recover i, _⟩ | .env (.store (.recover i)) =>
      ∀ l ∈ db.locks.rows, l.linearIssueId = i → CleanText l.runId
  | _ => True

/-- Every program executes an issue, and nobody else claims, finishes or posts. -/
structure OnlyExecutions (m₀ : SysConfig π (Except Exc ExecutionContext))
    (ls : List (SysLabel π)) : Prop where
  progs : ∀ p, ∃ (rt : AgentRuntime) (b : Bool) (issue : Issue),
    m₀.progs p = (rt.execute b issue).run
  store : ∀ op, .env (.store op) ∈ ls → FromOutside op

theorem events_heartbeat (now : Timestamp) (runId issueId : String) (ttl : Int) (db : Db) :
    ((StoreOp.heartbeat runId issueId ttl).apply now db).events = db.events := by
  rcases heartbeat_cases now runId issueId ttl db with
    ⟨-, hop⟩ | ⟨-, -, hop⟩ | ⟨l, -, -, db', hop, -, -, hevents⟩
  · rw [StoreOp.apply_error (.heartbeat runId issueId ttl) hop]
  · rw [StoreOp.apply_ok (.heartbeat runId issueId ttl) hop]
  · rw [StoreOp.apply_ok (.heartbeat runId issueId ttl) hop]
    exact hevents

theorem events_release (now : Timestamp) (issueId : String) (db : Db) :
    ((StoreOp.release issueId).apply now db).events = db.events := by
  obtain ⟨runs, hop, -⟩ := release_apply now issueId db
  rw [StoreOp.apply_ok (.release issueId) hop]

/-- Rows are only ever added. -/
theorem events_apply (now : Timestamp) (op : StoreOp) (db : Db) :
    db.events <+: (op.apply now db).events := by
  obtain ⟨es, hevents, -⟩ := inserted_events now op db
  rw [hevents]
  exact List.prefix_append _ _

theorem step_events {net : Net} {α : Type} {m m' : SysConfig π α} {l : SysLabel π}
    (h : (system net).Step m l m') : m.world.db.events <+: m'.world.db.events := by
  rcases step_db h with heq | ⟨op, -, heq⟩
  · rw [heq]
  · rw [heq]
    exact events_apply _ op _

/-- The rows a step inserts are accepted where what it brings along is clean. -/
theorem step_rows {net : Net} {m₀ m₁ m m' : SysConfig π (Except Exc ExecutionContext)}
    {ls : List (SysLabel π)} (hrun : (system net).Run m₀ ls m₁) (hexec : OnlyExecutions m₀ ls)
    {l : SysLabel π} (hl : l ∈ ls) (hstep : (system net).Step m l m') {rows : List AgentEvent}
    (hrows : m'.world.db.events = m.world.db.events ++ rows) :
    (∀ e ∈ rows, RowAccepted e) ↔
      (m'.world.db.events ≠ m.world.db.events → CleanStep ls m.world.db l) := by
  by_cases hnil : rows = []
  · subst hnil
    rw [List.append_nil] at hrows
    exact iff_of_true nofun fun hne => absurd hrows hne
  have hne : m'.world.db.events ≠ m.world.db.events := by
    rw [hrows]
    exact fun heq => hnil (List.append_right_eq_self.1 heq)
  rw [forall_prop_of_true hne]
  rcases step_db hstep with heq | ⟨op, hop, heq⟩
  · exact absurd (congrArg Db.events heq) hne
  rw [heq] at hrows hne
  have hprog : ∀ {p ev}, .call p ev ∈ ls → ∃ (rt : AgentRuntime) (b : Bool) (issue : Issue),
      Reach (rt.execute b issue).run (eventsOf p ls) (m₁.progs p) ∧ ev ∈ eventsOf p ls := by
    intro p ev hev
    obtain ⟨rt, b, issue, hp⟩ := hexec.progs p
    exact ⟨rt, b, issue, hp ▸ hrun.reach p, mem_eventsOf.2 hev⟩
  cases hop with
  | claim =>
      obtain ⟨rt, b, issue, hreach, hev⟩ := hprog hl
      have hclaims := (claim_of_execute rt b issue).mem hreach _ hev
      exact claim_rows hclaims hrows hnil
  | event hbody =>
      refine iff_of_true (fun e he => ?_) trivial
      obtain rfl := List.append_cancel_left hrows
      rw [List.mem_singleton.1 he]
      exact event_row_accepted hbody
  | finish =>
      obtain ⟨rt, b, issue, hreach, hev⟩ := hprog hl
      exact execute_finish_rows hreach hev hnil hrows
  | recover => exact recover_rows hrows hnil
  | beat => exact absurd (events_heartbeat _ _ _ _ _) hne
  | @store op =>
      have houtside := hexec.store op hl
      cases op with
      | claim | finish | insertEvent => exact houtside.elim
      | recover i => exact recover_rows hrows hnil
      | heartbeat => exact absurd (events_heartbeat _ _ _ _ _) hne
      | release => exact absurd (events_release _ _ _) hne

/-! ## The rows of an interleaving -/

/-- **When every row of the audit trail is accepted**: every step that inserts rows brings along
clean data. -/
theorem audit_rows_accepted_iff {net : Net}
    {m₀ m₁ : SysConfig π (Except Exc ExecutionContext)} {ls : List (SysLabel π)}
    (hrun : (system net).Run m₀ ls m₁) (hexec : OnlyExecutions m₀ ls) :
    ∃ rows, m₁.world.db.events = m₀.world.db.events ++ rows ∧
      ((∀ e ∈ rows, RowAccepted e) ↔ ∀ m l m', (system net).Passes m₀ ls m₁ m l m' →
        m'.world.db.events ≠ m.world.db.events → CleanStep ls m.world.db l) := by
  obtain ⟨rows, hrows⟩ := hrun.log_prefix (fun m => m.world.db.events) step_events
  exact ⟨rows, hrows.symm, hrun.log_iff (fun m => m.world.db.events) step_events
    (fun hl hstep hnew => step_rows hrun hexec hl hstep hnew) hrows.symm⟩

/-! ## One execution -/

/-- An execution of the issue for the QA agent, over empty tables. -/
def auditStart : SysConfig Unit (Except Exc ExecutionContext) :=
  ⟨fun _ => (AgentRuntime.ofStore.execute true qaIssue).run, .start ⟨[], List.nodup_nil⟩⟩

/-- Everything goes through, and the dispatcher returns `result`. -/
def auditScript (result : ExecutionResult) : Script Unit where
  random := fun _ => 0
  moveStatus := fun _ _ _ => .ok ()
  dispatch := fun _ _ => .ok result

/-- The execution takes its turns to the end. -/
def auditRun (result : ExecutionResult) :
    List (SysLabel Unit) × SysConfig Unit (Except Exc ExecutionContext) :=
  (auditScript result).driver.run ((List.replicate 10 ()).map .inl) auditStart

theorem auditRun_run (result : ExecutionResult) :
    (system reliable).Run auditStart (auditRun result).1 (auditRun result).2 :=
  (auditScript result).driver.run_sound _ _

theorem auditRun_only (result : ExecutionResult) :
    OnlyExecutions auditStart (auditRun result).1 where
  progs := fun _ => ⟨_, _, _, rfl⟩
  store := by
    intro op hop
    obtain ⟨_, -, _, heq⟩ := (auditScript result).driver.mem_run_turns hop
    cases heq

/-- A result with an abbreviated commit id. -/
def shortResult : ExecutionResult := { commitSha := some "a1b2c3d" }

theorem shortResult_row : ((auditRun shortResult).2.world.db.events.any fun e =>
    e.eventType = "run.completed" && !decide (RowAccepted e)) = true := by
  decide +kernel

/-- The row of a run that was completed with an abbreviated commit id is rejected. -/
theorem audit_row_rejected :
    ¬ ∀ (net : Net) (m₀ m₁ : SysConfig Unit (Except Exc ExecutionContext))
      (ls : List (SysLabel Unit)), (system net).Run m₀ ls m₁ → OnlyExecutions m₀ ls →
      ∀ rows, m₁.world.db.events = m₀.world.db.events ++ rows → ∀ e ∈ rows, RowAccepted e := by
  intro h
  obtain ⟨e, he, hrow⟩ := List.any_eq_true.1 shortResult_row
  have haccepted : RowAccepted e := h reliable _ _ _ (auditRun_run shortResult)
    (auditRun_only shortResult) _ (List.nil_append _).symm e he
  simp [haccepted] at hrow

/-- A result with a whole commit id. -/
def wholeResult : ExecutionResult :=
  { commitSha := some "0123456789abcdef0123456789abcdef01234567" }

theorem audit_rows_accepted_iff_whole : ∃ rows,
    (auditRun wholeResult).2.world.db.events = auditStart.world.db.events ++ rows ∧
      ((∀ e ∈ rows, RowAccepted e) ↔ ∀ m l m', (system reliable).Passes auditStart
        (auditRun wholeResult).1 (auditRun wholeResult).2 m l m' →
        m'.world.db.events ≠ m.world.db.events →
          CleanStep (auditRun wholeResult).1 m.world.db l) :=
  audit_rows_accepted_iff (auditRun_run wholeResult) (auditRun_only wholeResult)

end HermesRuntime
