import HermesRuntime.RefusedCalls

/-!
# A call, branch by branch

The lists of outcomes (`claim_cases` and so on) say what may have happened. Here it is the other
way round: what a call does where the rows are known to decide it.

* `claim_of_free`, `heartbeat_of_live`, `finish_of_lock`, `recover_of_expired` — the branches that
  write.
* `inserted_events` — a call only adds events, and only of its issue.
* `apply_defaults` — no call changes a column default.
-/

namespace HermesRuntime

open Relational Txn

/-! ## Branches -/

section Branches

variable {now : Timestamp} {db : Db}

theorem claim_of_free {a : ClaimArgs} (httl : validTtl a.ttlSeconds = true)
    (hfree : db.Free a.runId a.issueId) : ∃ db', hermesClaimRun now a db = .ok (true, db') ∧
      db'.runs.rows = db.runs.rows ++ [(a.queuedRun (db.defaults.startedAt now)).running now] ∧
      db'.locks.rows = db.locks.rows ++ [a.lock now (db.defaults.lockHeartbeatAt now)] ∧
      db'.events = db.events ++ a.startEvents now := by
  rcases claim_cases now a db with ⟨hbad, -⟩ | ⟨-, -, h⟩ | ⟨-, hnot, -⟩
  · rw [httl] at hbad
    cases hbad
  · exact h
  · exact absurd hfree hnot

theorem claim_of_not_free {a : ClaimArgs} (httl : validTtl a.ttlSeconds = true)
    (hnot : ¬ db.Free a.runId a.issueId) : hermesClaimRun now a db =
      .ok (false, { db with events := db.events ++ db.rejectEvents a }) := by
  rcases claim_cases now a db with ⟨hbad, -⟩ | ⟨-, hfree, -⟩ | ⟨-, -, h⟩
  · rw [httl] at hbad
    cases hbad
  · exact absurd hfree hnot
  · exact h

theorem claim_of_ttl {a : ClaimArgs} (httl : validTtl a.ttlSeconds = false) :
    hermesClaimRun now a db = .error (.raised "Invalid lock TTL") := by
  simp [hermesClaimRun, httl, bind_apply]

theorem heartbeat_of_ttl {r i : String} {ttl : Int} (httl : validTtl ttl = false) :
    hermesHeartbeatRun now r i ttl db = .error (.raised "Invalid lock TTL") := by
  simp [hermesHeartbeatRun, httl, bind_apply]

theorem heartbeat_of_live (hc : db.Consistent) {r i : String} {ttl : Int}
    (httl : validTtl ttl = true) {l : AgentExecutionLock} (hl : l ∈ db.locks.rows)
    (hlive : l.isLive now r i = true) : ∃ db', hermesHeartbeatRun now r i ttl db = .ok (true, db') ∧
      db'.runs.rows = db.runs.rows.map (fun x =>
        if x.runId = r && x.isAtWork then x.heartbeat now else x) ∧
      db'.locks.rows = db.locks.rows.map (fun l =>
        if l.isLive now r i then l.extended now ttl else l) ∧
      db'.events = db.events := by
  rcases heartbeat_cases now r i ttl db with ⟨hbad, -⟩ | ⟨-, hnone, -⟩ | ⟨-, -, -, db', h, htables⟩
  · rw [httl] at hbad
    cases hbad
  · rw [hnone l hl] at hlive
    cases hlive
  · rw [atWork_of_isLive hc hl hlive] at h
    exact ⟨db', h, htables⟩

theorem heartbeat_of_not_live {r i : String} {ttl : Int} (httl : validTtl ttl = true)
    (hnone : ∀ l ∈ db.locks.rows, l.isLive now r i = false) :
    hermesHeartbeatRun now r i ttl db = .ok (false, db) := by
  rcases heartbeat_cases now r i ttl db with ⟨hbad, -⟩ | ⟨-, -, h⟩ | ⟨l, hl, hlive, -⟩
  · rw [httl] at hbad
    cases hbad
  · exact h
  · rw [hnone l hl] at hlive
    cases hlive

theorem finish_of_lock (hc : db.Consistent) {r i text : String} {arg : JsonArg}
    {status : RunStatus} {fields : JsonObject} (hstatus : finalStatus text = some status)
    (hfields : finishFields arg = some fields) {l : AgentExecutionLock} (hl : l ∈ db.locks.rows)
    (hof : l.isOf r i = true) : ∃ db', hermesFinishRun now r i text arg db = .ok (true, db') ∧
      db'.runs.rows = db.runs.rows.map (fun x =>
        if x.isFinishable r i then x.finished now status fields else x) ∧
      db'.locks.rows = db.locks.rows.filter (fun l => !l.isOf r i) ∧
      db'.events = db.events ++ finishEvents r i l.agent text status fields := by
  obtain ⟨hissue, hid⟩ := isOf_iff.1 hof
  rcases finish_cases now r i text arg db with ⟨hbad, -⟩ | ⟨hbad, -⟩ | ⟨-, -, hnone, -⟩ |
      ⟨status', fields', hstatus', hfields', l', hl', hof', x, hx, hfin, db', h, htables⟩
  · rw [hstatus] at hbad
    cases hbad
  · rw [hfields] at hbad
    cases hbad
  · exfalso
    rcases hnone with hnone | hnone
    · rw [hnone l hl] at hof
      cases hof
    · -- the run of the lock is there to be finished
      obtain ⟨x, hx, hxid, hxi, hs⟩ := hc.run_of_lock l hl
      have hfin := hnone x hx
      simp [AgentRun.isFinishable, AgentRun.isAtWork, hxid, hxi, hissue, hid, hs] at hfin
  · obtain rfl : status' = status := Option.some.inj (hstatus'.symm.trans hstatus)
    obtain rfl : fields' = fields := Option.some.inj (hfields'.symm.trans hfields)
    obtain rfl : l' = l := eq_of_issue db hl' hl ((isOf_iff.1 hof').1.trans hissue.symm)
    exact ⟨db', h, htables⟩

theorem finish_of_no_lock {r i text : String} {arg : JsonArg} (hstatus : (finalStatus text).isSome)
    (hfields : (finishFields arg).isSome) (hnone : ∀ l ∈ db.locks.rows, l.isOf r i = false) :
    hermesFinishRun now r i text arg db = .ok (false, db) := by
  rcases finish_cases now r i text arg db with ⟨hbad, -⟩ | ⟨hbad, -⟩ | ⟨-, -, -, h⟩ |
    ⟨-, -, -, -, l, hl, hof, -⟩
  · rw [hbad] at hstatus
    cases hstatus
  · rw [hbad] at hfields
    cases hfields
  · exact h
  · rw [hnone l hl] at hof
    cases hof

theorem recover_of_expired {i : String} {l : AgentExecutionLock} (hl : l ∈ db.locks.rows)
    (hi : l.linearIssueId = i) (hexpired : l.expiresAt ≤ now) :
    ∃ db', hermesRecoverExpiredLock now i db = .ok (true, db') ∧
      db'.runs.rows = db.runs.rows.map (fun x =>
        if x.isAbandoned l.runId then x.expired now else x) ∧
      db'.locks.rows = db.locks.rows.filter (fun l' => !l'.isOf l.runId i) ∧
      db'.events = db.events ++ recoverEvents i l := by
  rcases recover_cases now i db with ⟨hlive, -⟩ | ⟨l', hl', hi', -, h⟩
  · exact absurd hexpired (Nat.not_le_of_lt (hlive l hl hi))
  · obtain rfl : l' = l := eq_of_issue db hl' hl (hi'.trans hi.symm)
    exact h

theorem recover_of_live {i : String}
    (hlive : ∀ l ∈ db.locks.rows, l.linearIssueId = i → now < l.expiresAt) :
    hermesRecoverExpiredLock now i db = .ok (false, db) := by
  rcases recover_cases now i db with ⟨-, h⟩ | ⟨l, hl, hi, hexpired, -⟩
  · exact h
  · exact absurd hexpired (Nat.not_le_of_lt (hlive l hl hi))

end Branches

/-! ## Inserted events -/

section Inserted

variable {now : Timestamp} {db : Db} {i : String}

theorem issue_of_startEvents {a : ClaimArgs} {e : AgentEvent} (he : e ∈ a.startEvents now) :
    e.linearIssueId = a.issueId := by
  simp only [ClaimArgs.startEvents, List.mem_cons, List.not_mem_nil, or_false] at he
  rcases he with rfl | rfl | rfl <;> rfl

theorem issue_of_rejectEvents {a : ClaimArgs} {e : AgentEvent} (he : e ∈ db.rejectEvents a) :
    e.linearIssueId = a.issueId := by
  unfold Db.rejectEvents at he
  split at he
  · rw [List.mem_singleton.1 he]
    rfl
  · cases he

theorem issue_of_finishEvents {r agent text : String} {status : RunStatus} {fields : JsonObject}
    {e : AgentEvent} (he : e ∈ finishEvents r i agent text status fields) :
    e.linearIssueId = i := by
  simp only [finishEvents, List.mem_cons, List.not_mem_nil, or_false] at he
  rcases he with rfl | rfl <;> rfl

theorem issue_of_recoverEvents {l : AgentExecutionLock} {e : AgentEvent}
    (he : e ∈ recoverEvents i l) : e.linearIssueId = i := by
  simp only [recoverEvents, List.mem_cons, List.not_mem_nil, or_false] at he
  rcases he with rfl | rfl <;> rfl

/-- The events a call inserts are of its issue. -/
theorem inserted_events (now : Timestamp) (op : StoreOp) (db : Db) : ∃ es : List AgentEvent,
    (op.apply now db).events = db.events ++ es ∧ ∀ e ∈ es, e.linearIssueId = op.issue := by
  have hnone : ∀ {db' : Db}, op.apply now db = db' → db'.events = db.events →
      ∃ es : List AgentEvent, (op.apply now db).events = db.events ++ es ∧
        ∀ e ∈ es, e.linearIssueId = op.issue := by
    intro db' happly hevents
    refine ⟨[], by rw [happly, hevents, List.append_nil], fun e he => ?_⟩
    cases he
  cases op with
  | claim a =>
      rcases claim_cases now a db with ⟨-, h⟩ | ⟨-, -, db', h, -, -, hevents⟩ | ⟨-, -, h⟩
      · exact hnone (StoreOp.apply_error (.claim a) h) rfl
      · rw [StoreOp.apply_ok (.claim a) h]
        exact ⟨_, hevents, fun e => issue_of_startEvents⟩
      · rw [StoreOp.apply_ok (.claim a) h]
        exact ⟨_, rfl, fun e => issue_of_rejectEvents⟩
  | heartbeat r i ttl =>
      rcases heartbeat_cases now r i ttl db with ⟨-, h⟩ | ⟨-, -, h⟩ |
        ⟨l, -, -, db', h, -, -, hevents⟩
      · exact hnone (StoreOp.apply_error (.heartbeat r i ttl) h) rfl
      · exact hnone (StoreOp.apply_ok (.heartbeat r i ttl) h) rfl
      · exact hnone (StoreOp.apply_ok (.heartbeat r i ttl) h) hevents
  | finish r i text arg =>
      rcases finish_cases now r i text arg db with ⟨-, h⟩ | ⟨-, h⟩ | ⟨-, -, -, h⟩ |
        ⟨status, fields, -, -, l, -, -, x, -, -, db', h, -, -, hevents⟩
      · exact hnone (StoreOp.apply_error (.finish r i text arg) h) rfl
      · exact hnone (StoreOp.apply_error (.finish r i text arg) h) rfl
      · exact hnone (StoreOp.apply_ok (.finish r i text arg) h) rfl
      · rw [StoreOp.apply_ok (.finish r i text arg) h]
        exact ⟨_, hevents, fun e => issue_of_finishEvents⟩
  | recover i =>
      rcases recover_cases now i db with ⟨-, h⟩ | ⟨l, -, -, -, db', h, -, -, hevents⟩
      · exact hnone (StoreOp.apply_ok (.recover i) h) rfl
      · rw [StoreOp.apply_ok (.recover i) h]
        exact ⟨_, hevents, fun e => issue_of_recoverEvents⟩
  | release i =>
      obtain ⟨runs, h, -⟩ := release_apply now i db
      exact hnone (StoreOp.apply_ok (.release i) h) rfl
  | insertEvent e =>
      refine ⟨[e], rfl, fun e' he => ?_⟩
      rw [List.mem_singleton.1 he]
      rfl

end Inserted

/-! ## Column defaults -/

namespace Txn

variable {α β : Type}

/-- A body that leaves the column defaults alone. -/
def KeepsDefaults (x : Txn α) : Prop :=
  ∀ db a db', x db = .ok (a, db') → db'.defaults = db.defaults

theorem keeps_pure (a : α) : KeepsDefaults (pure a) := by
  intro db b db' h
  cases h
  rfl

theorem keeps_bind {x : Txn α} {f : α → Txn β} (hx : KeepsDefaults x)
    (hf : ∀ a, KeepsDefaults (f a)) : KeepsDefaults (x >>= f) := by
  intro db b db' h
  rw [bind_apply] at h
  cases hrun : x db with
  | error e =>
      rw [hrun] at h
      cases h
  | ok r =>
      rw [hrun] at h
      exact (hf r.1 _ _ _ h).trans (hx _ _ _ hrun)

theorem keeps_raise (message : String) : KeepsDefaults (raise message : Txn α) := by
  intro db a db' h
  cases h

theorem keeps_raise_bind (message : String) (f : α → Txn β) :
    KeepsDefaults (raise message >>= f) := by
  intro db b db' h
  cases h

theorem keeps_tryCatch {x : Txn α} {f : SqlError → Txn α} (hx : KeepsDefaults x)
    (hf : ∀ e, KeepsDefaults (f e)) : KeepsDefaults (tryCatch x f) := by
  intro db a db' h
  rw [tryCatch_apply] at h
  cases hrun : x db with
  | error e =>
      rw [hrun] at h
      exact hf e _ _ _ h
  | ok r =>
      rw [hrun] at h
      cases h
      exact hx _ _ _ hrun

theorem keeps_get : KeepsDefaults (get : Txn Db) := by
  intro db a db' h
  cases h
  rfl

theorem keeps_insertRun (x : AgentRun) : KeepsDefaults (insertRun x) := by
  intro db a db' h
  unfold insertRun at h
  split at h <;> cases h
  rfl

theorem keeps_insertLock (l : AgentExecutionLock) : KeepsDefaults (insertLock l) := by
  intro db a db' h
  unfold insertLock at h
  split at h <;> cases h
  rfl

theorem keeps_insertEvents (es : List AgentEvent) : KeepsDefaults (insertEvents es) := by
  intro db a db' h
  cases h
  rfl

theorem keeps_updateRuns (p : AgentRun → Bool) (f : AgentRun → AgentRun) :
    KeepsDefaults (updateRuns p f) := by
  intro db a db' h
  unfold updateRuns at h
  split at h <;> cases h
  rfl

theorem keeps_updateLocks (p : AgentExecutionLock → Bool)
    (f : AgentExecutionLock → AgentExecutionLock) : KeepsDefaults (updateLocks p f) := by
  intro db a db' h
  unfold updateLocks at h
  split at h <;> cases h
  rfl

theorem keeps_deleteLocks (p : AgentExecutionLock → Bool) : KeepsDefaults (deleteLocks p) := by
  intro db a db' h
  cases h
  rfl

theorem keeps_selectLock (p : AgentExecutionLock → Bool) : KeepsDefaults (selectLock p) := by
  intro db a db' h
  cases h
  rfl

end Txn

theorem keeps_reject (a : ClaimArgs) : KeepsDefaults (rejectClaim a) := by
  intro db b db' h
  rw [rejectClaim_apply] at h
  cases h
  rfl

theorem keeps_claim (now : Timestamp) (a : ClaimArgs) : KeepsDefaults (hermesClaimRun now a) := by
  unfold hermesClaimRun
  by_cases httl : validTtl a.ttlSeconds
  · simp only [httl, Bool.not_true, Bool.false_eq_true, if_false]
    refine keeps_bind keeps_get fun db => keeps_bind (keeps_tryCatch ?_ fun e => ?_) fun b => ?_
    · exact keeps_bind (keeps_insertRun _) fun _ => keeps_bind (keeps_insertLock _) fun _ =>
        keeps_pure _
    · cases e with
      | uniqueViolation => exact keeps_reject a
      | raised message => exact keeps_raise message
    · cases b with
      | false => exact keeps_pure _
      | true =>
          exact keeps_bind (keeps_updateRuns _ _) fun _ => keeps_bind (keeps_insertEvents _)
            fun _ => keeps_pure _
  · simp only [httl, Bool.not_false, if_true]
    exact keeps_raise_bind _ _

theorem keeps_heartbeat (now : Timestamp) (runId issueId : String) (ttl : Int) :
    KeepsDefaults (hermesHeartbeatRun now runId issueId ttl) := by
  unfold hermesHeartbeatRun
  by_cases httl : validTtl ttl
  · simp only [httl, Bool.not_true, Bool.false_eq_true, if_false]
    refine keeps_bind (keeps_updateLocks _ _) fun agent => ?_
    cases agent with
    | none => exact keeps_pure _
    | some agent => exact keeps_updateRuns _ _
  · simp only [httl, Bool.not_false, if_true]
    exact keeps_raise_bind _ _

theorem keeps_finish (now : Timestamp) (runId issueId text : String) (arg : JsonArg) :
    KeepsDefaults (hermesFinishRun now runId issueId text arg) := by
  unfold hermesFinishRun
  cases finalStatus text with
  | none => exact keeps_raise _
  | some status =>
  cases finishFields arg with
  | none => exact keeps_raise _
  | some fields =>
      refine keeps_bind (keeps_selectLock _) fun lock => ?_
      cases lock with
      | none => exact keeps_pure _
      | some lock =>
          refine keeps_bind (keeps_updateRuns _ _) fun found => ?_
          cases found with
          | false => exact keeps_pure _
          | true =>
              exact keeps_bind (keeps_insertEvents _) fun _ => keeps_bind (keeps_deleteLocks _)
                fun _ => keeps_pure _

theorem keeps_recover (now : Timestamp) (issueId : String) :
    KeepsDefaults (hermesRecoverExpiredLock now issueId) := by
  unfold hermesRecoverExpiredLock
  refine keeps_bind (keeps_selectLock _) fun lock => ?_
  cases lock with
  | none => exact keeps_pure _
  | some lock =>
      dsimp only
      split
      · exact keeps_pure _
      · exact keeps_bind (keeps_updateRuns _ _) fun _ => keeps_bind (keeps_insertEvents _)
          fun _ => keeps_bind (keeps_deleteLocks _) fun _ => keeps_pure _

/-- No call changes a column default. -/
theorem apply_defaults (now : Timestamp) (op : StoreOp) (db : Db) :
    (op.apply now db).defaults = db.defaults := by
  have hkeeps : KeepsDefaults (op.txn now) := by
    cases op with
    | claim a => exact keeps_claim now a
    | heartbeat runId issueId ttl => exact keeps_heartbeat now runId issueId ttl
    | finish runId issueId text arg => exact keeps_finish now runId issueId text arg
    | recover issueId => exact keeps_recover now issueId
    | release issueId => exact keeps_updateRuns _ _
    | insertEvent e => exact keeps_bind (keeps_insertEvents _) fun _ => keeps_pure _
  unfold StoreOp.apply
  split
  · rename_i hrun
    exact hkeeps _ _ _ hrun
  · rfl

end HermesRuntime
