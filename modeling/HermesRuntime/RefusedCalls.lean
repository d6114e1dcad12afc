import HermesRuntime.StoreInvariant

/-!
# Refused calls

A call that raises or answers `false` leaves the runs and the locks as they were. All it may
leave behind is the event of a rejected claim, on the run that holds the issue.

* `refused_tables` — the tables after a refused call.
* `rejectEvents_cases` — whom a rejected claim is reported to.
* `refused_call_changes_nothing` — both for the tables after any calls.
-/

namespace HermesRuntime

open Relational Txn

/-! ## Answers -/

namespace StoreOp

variable {now : Timestamp} (op : StoreOp) {db db' : Db}

/-- What a call is answered. -/
def answer (now : Timestamp) (op : StoreOp) (db : Db) : Except SqlError Bool :=
  (op.txn now db).map Prod.fst

theorem answer_ok {b : Bool} (h : op.txn now db = .ok (b, db')) : op.answer now db = .ok b := by
  rw [answer, h]
  rfl

theorem answer_error {e : SqlError} (h : op.txn now db = .error e) :
    op.answer now db = .error e := by
  rw [answer, h]
  rfl

/-- The events a refused call leaves behind. -/
def rejection (db : Db) : StoreOp → List AgentEvent
  | .claim a => if validTtl a.ttlSeconds then db.rejectEvents a else []
  | _ => []

end StoreOp

/-! ## The tables after a refused call -/

/-- A live lock belongs to a run at work. -/
theorem atWork_of_isLive {db : Db} (hc : db.Consistent) {now : Timestamp} {runId issueId : String}
    {l : AgentExecutionLock} (hl : l ∈ db.locks.rows) (hlive : l.isLive now runId issueId = true) :
    (db.runs.rows.any fun x => x.runId = runId && x.isAtWork) = true := by
  rw [AgentExecutionLock.isLive, Bool.and_eq_true, isOf_iff] at hlive
  obtain ⟨x, hx, hid, -, hs⟩ := hc.run_of_lock l hl
  exact List.any_eq_true.2 ⟨x, hx, by simp [AgentRun.isAtWork, hid, hlive.1.2, hs]⟩

/-- **The tables after a refused call.** -/
theorem refused_tables {db : Db} (hc : db.Consistent) {now : Timestamp} {op : StoreOp}
    (h : op.answer now db ≠ .ok true) : (op.apply now db).runs = db.runs ∧
      (op.apply now db).locks = db.locks ∧
      (op.apply now db).events = db.events ++ op.rejection db := by
  -- A call that returns the tables it was given has changed nothing.
  have hsame : ∀ {db' : Db}, op.apply now db = db' → db' = db → op.rejection db = [] →
      (op.apply now db).runs = db.runs ∧ (op.apply now db).locks = db.locks ∧
        (op.apply now db).events = db.events ++ op.rejection db := by
    intro db' happly hdb hnone
    rw [happly, hdb, hnone, List.append_nil]
    exact ⟨rfl, rfl, rfl⟩
  cases op with
  | claim a =>
      rcases claim_cases now a db with ⟨httl, hrun⟩ | ⟨-, -, db', hrun, -⟩ | ⟨httl, -, hrun⟩
      · exact hsame (StoreOp.apply_error (.claim a) hrun) rfl (by simp [StoreOp.rejection, httl])
      · exact absurd (StoreOp.answer_ok (.claim a) hrun) h
      · rw [StoreOp.apply_ok (.claim a) hrun, StoreOp.rejection, if_pos httl]
        exact ⟨rfl, rfl, rfl⟩
  | heartbeat runId issueId ttl =>
      rcases heartbeat_cases now runId issueId ttl db with
        ⟨-, hrun⟩ | ⟨-, -, hrun⟩ | ⟨l, hl, hlive, db', hrun, -⟩
      · exact hsame (StoreOp.apply_error (.heartbeat runId issueId ttl) hrun) rfl rfl
      · exact hsame (StoreOp.apply_ok (.heartbeat runId issueId ttl) hrun) rfl rfl
      · -- The lock has been written to, but then its run is found at work.
        rw [atWork_of_isLive hc hl hlive] at hrun
        exact absurd (StoreOp.answer_ok (.heartbeat runId issueId ttl) hrun) h
  | finish runId issueId text arg =>
      rcases finish_cases now runId issueId text arg db with
        ⟨-, hrun⟩ | ⟨-, hrun⟩ | ⟨-, -, -, hrun⟩ | ⟨_, _, -, -, _, -, -, _, -, -, db', hrun, -⟩
      · exact hsame (StoreOp.apply_error (.finish runId issueId text arg) hrun) rfl rfl
      · exact hsame (StoreOp.apply_error (.finish runId issueId text arg) hrun) rfl rfl
      · exact hsame (StoreOp.apply_ok (.finish runId issueId text arg) hrun) rfl rfl
      · exact absurd (StoreOp.answer_ok (.finish runId issueId text arg) hrun) h
  | recover issueId =>
      rcases recover_cases now issueId db with ⟨-, hrun⟩ | ⟨_, -, -, -, db', hrun, -⟩
      · exact hsame (StoreOp.apply_ok (.recover issueId) hrun) rfl rfl
      · exact absurd (StoreOp.answer_ok (.recover issueId) hrun) h
  | release issueId =>
      by_cases hblocked : ∀ x ∈ db.runs.rows, x.isBlockedOf issueId = false
      · exact hsame (StoreOp.apply_ok (.release issueId) (updateRuns_none db hblocked)) rfl rfl
      · push Not at hblocked
        obtain ⟨x, hx, hb⟩ := hblocked
        obtain ⟨runs, hrun, -⟩ := release_apply now issueId db
        have hany : (db.runs.rows.any fun x => x.isBlockedOf issueId) = true :=
          List.any_eq_true.2 ⟨x, hx, by simpa using hb⟩
        rw [hany] at hrun
        exact absurd (StoreOp.answer_ok (.release issueId) hrun) h
  | insertEvent e => exact absurd rfl h

/-! ## Whom a rejected claim is reported to -/

/-- A lock names the agent of its run. -/
def Db.SameAgents (db : Db) : Prop :=
  ∀ l ∈ db.locks.rows, ∀ x ∈ db.runs.rows, x.runId = l.runId → x.agent = l.agent

theorem sameAgents_apply {db : Db} (hc : db.Consistent) (ha : db.SameAgents) (now : Timestamp)
    (op : StoreOp) : (op.apply now db).SameAgents := by
  intro l' hl' y hy hid
  have hc' := consistent_apply hc now op
  cases apply_effect hc now op with
  | idle hruns hlocks =>
      rw [hlocks] at hl'
      rw [hruns] at hy
      exact ha l' hl' y hy hid
  | @started a startedAt heartbeatAt hop hruns hlocks =>
      have hnew : (a.queuedRun startedAt).running now ∈ (op.apply now db).runs.rows := by
        rw [hruns]
        simp
      rw [hlocks, List.mem_append, List.mem_singleton] at hl'
      rcases hl' with hl' | rfl
      · -- The run of an older lock is an older one, so it is not the new run.
        obtain ⟨x, hx, hxid, -⟩ := hc.run_of_lock l' hl'
        have hx' : x ∈ (op.apply now db).runs.rows := by
          rw [hruns]
          exact List.mem_append_left _ hx
        obtain rfl : y = x := eq_of_runId _ hy hx' (hid.trans hxid.symm)
        exact ha l' hl' y hx hid
      · rw [eq_of_runId _ hy hnew hid]
        rfl
  | @touched l ttl hop hl hlive hruns hlocks =>
      rw [hlocks, List.mem_map] at hl'
      obtain ⟨l₀, hl₀, rfl⟩ := hl'
      rw [hruns, List.mem_map] at hy
      obtain ⟨x, hx, rfl⟩ := hy
      have hx' : x.runId = l₀.runId := by
        split at hid <;> split at hid <;> exact hid
      have hagent := ha l₀ hl₀ x hx hx'
      split <;> split <;> exact hagent
  | @ended l f hop hl hf hfs hruns hlocks =>
      rw [hlocks, List.mem_filter] at hl'
      rw [hruns, List.mem_map] at hy
      obtain ⟨x, hx, rfl⟩ := hy
      by_cases hended : x.runId = l.runId
      · -- The ended run is at work no more, and so has no lock.
        rw [if_pos hended] at hid
        have hmem : f x ∈ (op.apply now db).runs.rows := by
          rw [hruns, List.mem_map]
          exact ⟨x, hx, if_pos hended⟩
        have hlock : l' ∈ (op.apply now db).locks.rows := by
          rw [hlocks, List.mem_filter]
          exact hl'
        exact absurd (hc'.running_of_lock hlock hmem hid).2 (hfs x).2
      · rw [if_neg hended] at hid ⊢
        exact ha l' hl'.1 x hx hid
  | @released issueId hop hruns hlocks =>
      rw [hlocks] at hl'
      rw [hruns, List.mem_map] at hy
      obtain ⟨x, hx, rfl⟩ := hy
      have hx' : x.runId = l'.runId := by
        split at hid <;> exact hid
      have hagent := ha l' hl' x hx hx'
      split <;> exact hagent

theorem sameAgents_runOps {db : Db} (hc : db.Consistent) (ha : db.SameAgents)
    (ops : List (Timestamp × StoreOp)) : (runOps ops db).SameAgents := by
  induction ops generalizing db with
  | nil => exact ha
  | cons op ops ih => exact ih (consistent_apply hc op.1 op.2) (sameAgents_apply hc ha op.1 op.2)

/-- An issue is taken when it has an active run. -/
theorem taken_iff_active {db : Db} (hc : db.Consistent) {issueId : String} :
    db.Taken issueId ↔
      ∃ x ∈ db.runs.rows, x.linearIssueId = issueId ∧ x.status.isActive = true := by
  constructor
  · rintro (⟨l, hl, rfl⟩ | hactive)
    · obtain ⟨x, hx, -, hissue, hs⟩ := hc.run_of_lock l hl
      exact ⟨x, hx, hissue, by rw [hs]; rfl⟩
    · exact hactive
  · exact Or.inr

/-- **Whom a rejected claim is reported to**: the active run of the issue and its agent, or
nobody. -/
theorem rejectEvents_cases {db : Db} (hc : db.Consistent) (ha : db.SameAgents) (a : ClaimArgs) :
    (¬ db.Taken a.issueId ∧ db.rejectEvents a = []) ∨
      ∃ x ∈ db.runs.rows, x.linearIssueId = a.issueId ∧ x.status.isActive = true ∧
        db.rejectEvents a = [lockRejectedEvent x.runId a.issueId x.agent a.runId] := by
  unfold Db.rejectEvents
  rcases holder_cases db a.issueId with ⟨hfree, hnone⟩ | ⟨run, agent, hholder, hl | hx⟩
  · left
    rw [hnone]
    exact ⟨hfree, rfl⟩
  · right
    obtain ⟨l, hl, hissue, rfl, rfl⟩ := hl
    obtain ⟨x, hx, hid, hi, hs⟩ := hc.run_of_lock l hl
    refine ⟨x, hx, hi.trans hissue, by rw [hs]; rfl, ?_⟩
    rw [hholder, hid, ha l hl x hx hid]
  · right
    obtain ⟨x, hx, hissue, hactive, rfl, rfl⟩ := hx
    rw [hholder]
    exact ⟨x, hx, hissue, hactive, rfl⟩

/-! ## Any calls -/

/-- **A refused call changes nothing.** On the tables after any calls at any times, a call that
is not answered `true` leaves runs and locks as they were, and the events too, but for one
`lock.rejected` of the active run when a claim is answered `false`. A claim with a valid TTL is
answered `true` exactly when its run id is new and the issue has no active run. -/
theorem refused_call_changes_nothing (defaults : ColumnDefaults)
    (ops : List (Timestamp × StoreOp)) (now : Timestamp) :
    let db := runOps ops (Db.empty defaults)
    (∀ op : StoreOp, op.answer now db ≠ .ok true →
      (op.apply now db).runs = db.runs ∧ (op.apply now db).locks = db.locks ∧
        ((∀ a, op = .claim a → op.answer now db ≠ .ok false) →
          (op.apply now db).events = db.events)) ∧
    (∀ a, (StoreOp.claim a).answer now db = .ok false →
      (¬ db.Taken a.issueId ∧ ((StoreOp.claim a).apply now db).events = db.events) ∨
        ∃ x ∈ db.runs.rows, x.linearIssueId = a.issueId ∧ x.status.isActive = true ∧
          ((StoreOp.claim a).apply now db).events =
            db.events ++ [lockRejectedEvent x.runId a.issueId x.agent a.runId]) ∧
    ∀ a, validTtl a.ttlSeconds = true → ((StoreOp.claim a).answer now db = .ok true ↔
      (∀ x ∈ db.runs.rows, x.runId ≠ a.runId) ∧
        ∀ x ∈ db.runs.rows, x.linearIssueId = a.issueId → x.status.isActive = false) := by
  intro db
  have hc : db.Consistent := consistent_runOps (consistent_empty defaults) ops
  have ha : db.SameAgents := sameAgents_runOps (consistent_empty defaults) (by
    intro l hl
    cases hl) ops
  refine ⟨fun op hrefused => ?_, fun a hfalse => ?_, fun a httl => ?_⟩
  · obtain ⟨hruns, hlocks, hevents⟩ := refused_tables hc hrefused
    refine ⟨hruns, hlocks, fun hclaim => ?_⟩
    rw [hevents]
    cases op with
    | claim a =>
        rcases claim_cases now a db with ⟨httl, -⟩ | ⟨-, -, db', hrun, -⟩ | ⟨-, -, hrun⟩
        · simp [StoreOp.rejection, httl]
        · exact absurd (StoreOp.answer_ok (.claim a) hrun) hrefused
        · exact absurd (StoreOp.answer_ok (.claim a) hrun) (hclaim a rfl)
    | heartbeat | finish | recover | release | insertEvent => exact List.append_nil _
  · rcases claim_cases now a db with ⟨-, hrun⟩ | ⟨-, -, db', hrun, -⟩ | ⟨-, -, hrun⟩
    · rw [StoreOp.answer_error (.claim a) hrun] at hfalse
      cases hfalse
    · rw [StoreOp.answer_ok (.claim a) hrun] at hfalse
      cases hfalse
    · rw [StoreOp.apply_ok (.claim a) hrun]
      rcases rejectEvents_cases hc ha a with ⟨hfree, hnone⟩ | ⟨x, hx, hissue, hactive, hone⟩
      · exact Or.inl ⟨hfree, by simp [hnone]⟩
      · exact Or.inr ⟨x, hx, hissue, hactive, by simp [hone]⟩
  · have hclear : db.Free a.runId a.issueId ↔ (∀ x ∈ db.runs.rows, x.runId ≠ a.runId) ∧
        ∀ x ∈ db.runs.rows, x.linearIssueId = a.issueId → x.status.isActive = false := by
      rw [Db.Free, taken_iff_active hc]
      simp
    rw [← hclear]
    rcases claim_cases now a db with ⟨hbad, -⟩ | ⟨-, hfree, db', hrun, -⟩ | ⟨-, hfree, hrun⟩
    · rw [httl] at hbad
      cases hbad
    · exact iff_of_true (StoreOp.answer_ok (.claim a) hrun) hfree
    · rw [StoreOp.answer_ok (.claim a) hrun]
      exact iff_of_false nofun hfree

end HermesRuntime
