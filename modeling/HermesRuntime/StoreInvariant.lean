import HermesRuntime.RuntimeFunctionsProof

/-!
# The store's invariant

The lock table mirrors the runs at work: whoever holds the lock of an issue is a running run of
that issue, and the other way round.

* `Effect` — what one call does to the rows of `agent_runs` and `agent_execution_locks`.
* `apply_effect` — every call has one of these effects.
* `consistent_runOps` — the invariant after any sequence of calls.
* `runOps_lock_iff_running` — the invariant spelled out for the tables as they are created.
-/

namespace HermesRuntime

open Relational

/-! ## The invariant -/

/-- Locks and running runs go together, and no run stays queued. -/
structure Db.Consistent (db : Db) : Prop where
  run_of_lock : ∀ l ∈ db.locks.rows, ∃ x ∈ db.runs.rows,
    x.runId = l.runId ∧ x.linearIssueId = l.linearIssueId ∧ x.status = .running
  lock_of_run : ∀ x ∈ db.runs.rows, x.status = .running →
    ∃ l ∈ db.locks.rows, l.isOf x.runId x.linearIssueId = true
  not_queued : ∀ x ∈ db.runs.rows, x.status ≠ .queued

theorem consistent_empty (defaults : ColumnDefaults) : (Db.empty defaults).Consistent where
  run_of_lock := fun _ hl => absurd hl (by simp [Db.empty])
  lock_of_run := fun _ hx => absurd hx (by simp [Db.empty])
  not_queued := fun _ hx => absurd hx (by simp [Db.empty])

theorem isOf_iff {runId issueId : String} {l : AgentExecutionLock} :
    l.isOf runId issueId = true ↔ l.linearIssueId = issueId ∧ l.runId = runId := by
  simp [AgentExecutionLock.isOf]

/-- Runs with one id are one run. -/
theorem eq_of_runId (db : Db) {x y : AgentRun} (hx : x ∈ db.runs.rows) (hy : y ∈ db.runs.rows)
    (h : x.runId = y.runId) : x = y :=
  db.runs.eq_of_key hx hy (k := .run x.runId) (by simp [AgentRun.keys])
    (by simp [AgentRun.keys, h])

/-- Active runs of one issue are one run. -/
theorem eq_of_active (db : Db) {x y : AgentRun} (hx : x ∈ db.runs.rows) (hy : y ∈ db.runs.rows)
    (hax : x.status.isActive = true) (hay : y.status.isActive = true)
    (h : x.linearIssueId = y.linearIssueId) : x = y :=
  db.runs.eq_of_key hx hy (k := .activeIssue x.linearIssueId) (by simp [AgentRun.keys, hax])
    (by simp [AgentRun.keys, hay, h])

/-- Locks of one issue are one lock. -/
theorem eq_of_issue (db : Db) {l l' : AgentExecutionLock} (hl : l ∈ db.locks.rows)
    (hl' : l' ∈ db.locks.rows) (h : l.linearIssueId = l'.linearIssueId) : l = l' :=
  db.locks.eq_of_key hl hl' (k := l.linearIssueId) (by simp [AgentExecutionLock.keys])
    (by simp [AgentExecutionLock.keys, h])

/-- The run of a lock is at work. -/
theorem Db.Consistent.running_of_lock {db : Db} (h : db.Consistent) {l : AgentExecutionLock}
    (hl : l ∈ db.locks.rows) {x : AgentRun} (hx : x ∈ db.runs.rows) (hid : x.runId = l.runId) :
    x.linearIssueId = l.linearIssueId ∧ x.status = .running := by
  obtain ⟨y, hy, hyid, hyi, hys⟩ := h.run_of_lock l hl
  have heq : x = y := eq_of_runId db hx hy (hid.trans hyid.symm)
  rw [heq]
  exact ⟨hyi, hys⟩

/-! ## Effects -/

/-- The issue a call is for. -/
def StoreOp.issue : StoreOp → String
  | .claim a => a.issueId
  | .heartbeat _ issueId _ => issueId
  | .finish _ issueId _ _ => issueId
  | .recover issueId => issueId
  | .release issueId => issueId
  | .insertEvent e => e.linearIssueId

/-- What the call `op` at time `now` does to the rows. -/
inductive Effect (op : StoreOp) (now : Timestamp) (db db' : Db) : Prop
  /-- Nothing. -/
  | idle (hruns : db'.runs.rows = db.runs.rows) (hlocks : db'.locks.rows = db.locks.rows)
  /-- A claim adds a running run together with its lock. -/
  | started {a : ClaimArgs} {startedAt heartbeatAt : Option Timestamp} (hop : op = .claim a)
      (hruns : db'.runs.rows = db.runs.rows ++ [(a.queuedRun startedAt).running now])
      (hlocks : db'.locks.rows = db.locks.rows ++ [a.lock now heartbeatAt])
  /-- The run that holds the lock, and the lock, get new times. -/
  | touched {l : AgentExecutionLock} {ttl : Int}
      (hop : op = .heartbeat l.runId l.linearIssueId ttl)
      (hl : l ∈ db.locks.rows) (hlive : now < l.expiresAt)
      (hruns : db'.runs.rows = db.runs.rows.map fun x =>
        if x.runId = l.runId then x.heartbeat now else x)
      (hlocks : db'.locks.rows = db.locks.rows.map fun l' =>
        if l'.isLive now l.runId l.linearIssueId then l'.extended now ttl else l')
  /-- The run that holds the lock ends, and the lock goes. -/
  | ended {l : AgentExecutionLock} {f : AgentRun → AgentRun}
      (hop : (∃ text arg, op = .finish l.runId l.linearIssueId text arg) ∨
        (op = .recover l.linearIssueId ∧ l.expiresAt ≤ now))
      (hl : l ∈ db.locks.rows)
      (hf : ∀ x, (f x).runId = x.runId ∧ (f x).linearIssueId = x.linearIssueId)
      (hfs : ∀ x, (f x).status ≠ .queued ∧ (f x).status ≠ .running)
      (hruns : db'.runs.rows = db.runs.rows.map fun x => if x.runId = l.runId then f x else x)
      (hlocks : db'.locks.rows =
        db.locks.rows.filter fun l' => !l'.isOf l.runId l.linearIssueId)
  /-- The operator cancels the blocked run of an issue. -/
  | released {issueId : String} (hop : op = .release issueId)
      (hruns : db'.runs.rows = db.runs.rows.map fun x =>
        if x.isBlockedOf issueId then x.released now else x)
      (hlocks : db'.locks.rows = db.locks.rows)

/-- Filters that pick the run of the lock all pick it by its id alone. -/
theorem map_run_of_lock {db : Db} (h : db.Consistent) {l : AgentExecutionLock}
    (hl : l ∈ db.locks.rows) {p : AgentRun → Bool} (f : AgentRun → AgentRun)
    (hp : ∀ x, x.linearIssueId = l.linearIssueId → x.status = .running →
      p x = decide (x.runId = l.runId))
    (hp' : ∀ x, p x = true → x.runId = l.runId) :
    (db.runs.rows.map fun x => if p x then f x else x) =
      db.runs.rows.map fun x => if x.runId = l.runId then f x else x := by
  refine List.map_congr_left fun x hx => ?_
  by_cases hid : x.runId = l.runId
  · obtain ⟨hissue, hstatus⟩ := h.running_of_lock hl hx hid
    simp [hp x hissue hstatus, hid]
  · have hpx : p x = false := by
      by_contra hne
      exact hid (hp' x (by simpa using hne))
    simp [hpx, hid]

/-- A finish finds the run of the lock at work. -/
theorem map_finishable {db : Db} (hc : db.Consistent) {l : AgentExecutionLock}
    (hl : l ∈ db.locks.rows) (f : AgentRun → AgentRun) :
    (db.runs.rows.map fun x => if x.isFinishable l.runId l.linearIssueId then f x else x) =
      db.runs.rows.map fun x => if x.runId = l.runId then f x else x := by
  refine map_run_of_lock hc hl f (fun x hi hs => ?_) fun x hp => ?_
  · simp [AgentRun.isFinishable, AgentRun.isAtWork, hi, hs]
  · simp only [AgentRun.isFinishable, Bool.and_eq_true, decide_eq_true_eq] at hp
    exact hp.1.1

/-- So does a recovery. -/
theorem map_abandoned {db : Db} (hc : db.Consistent) {l : AgentExecutionLock}
    (hl : l ∈ db.locks.rows) (f : AgentRun → AgentRun) :
    (db.runs.rows.map fun x => if x.isAbandoned l.runId then f x else x) =
      db.runs.rows.map fun x => if x.runId = l.runId then f x else x := by
  refine map_run_of_lock hc hl f (fun x _ hs => ?_) fun x hp => ?_
  · simp [AgentRun.isAbandoned, AgentRun.isAtWork, hs]
  · simp only [AgentRun.isAbandoned, Bool.and_eq_true, decide_eq_true_eq] at hp
    exact hp.1

theorem StoreOp.apply_ok {now : Timestamp} (op : StoreOp) {db db' : Db} {b : Bool}
    (h : op.txn now db = .ok (b, db')) : op.apply now db = db' := by
  simp [StoreOp.apply, h]

theorem StoreOp.apply_error {now : Timestamp} (op : StoreOp) {db : Db} {e : SqlError}
    (h : op.txn now db = .error e) : op.apply now db = db := by
  simp [StoreOp.apply, h]

theorem claim_effect {now : Timestamp} {a : ClaimArgs} {db : Db} :
    Effect (.claim a) now db ((StoreOp.claim a).apply now db) := by
  rcases claim_cases now a db with ⟨-, h⟩ | ⟨-, -, db', h, hruns, hlocks, -⟩ | ⟨-, -, h⟩
  · rw [StoreOp.apply_error (.claim a) h]
    exact .idle rfl rfl
  · rw [StoreOp.apply_ok (.claim a) h]
    exact .started rfl hruns hlocks
  · rw [StoreOp.apply_ok (.claim a) h]
    exact .idle rfl rfl

theorem heartbeat_effect {now : Timestamp} {runId issueId : String} {ttl : Int} {db : Db}
    (hc : db.Consistent) :
    Effect (.heartbeat runId issueId ttl) now db
      ((StoreOp.heartbeat runId issueId ttl).apply now db) := by
  rcases heartbeat_cases now runId issueId ttl db with
    ⟨-, h⟩ | ⟨-, -, h⟩ | ⟨l, hl, hlive, db', h, hruns, hlocks, -⟩
  · rw [StoreOp.apply_error (.heartbeat runId issueId ttl) h]
    exact .idle rfl rfl
  · rw [StoreOp.apply_ok (.heartbeat runId issueId ttl) h]
    exact .idle rfl rfl
  · rw [StoreOp.apply_ok (.heartbeat runId issueId ttl) h]
    simp only [AgentExecutionLock.isLive, Bool.and_eq_true, isOf_iff, decide_eq_true_eq] at hlive
    obtain ⟨⟨rfl, rfl⟩, hlive⟩ := hlive
    refine .touched rfl hl hlive ?_ hlocks
    rw [hruns]
    refine map_run_of_lock hc hl _ (fun x _ hs => ?_) fun x hp => ?_
    · simp [AgentRun.isAtWork, hs]
    · simp only [Bool.and_eq_true, decide_eq_true_eq] at hp
      exact hp.1

theorem finish_effect {now : Timestamp} {runId issueId text : String} {arg : JsonArg} {db : Db}
    (hc : db.Consistent) :
    Effect (.finish runId issueId text arg) now db
      ((StoreOp.finish runId issueId text arg).apply now db) := by
  rcases finish_cases now runId issueId text arg db with
    ⟨-, h⟩ | ⟨-, h⟩ | ⟨-, -, -, h⟩ |
      ⟨status, fields, hstatus, -, l, hl, hof, x, hx, hfin, db', h, hruns, hlocks, -⟩
  · rw [StoreOp.apply_error (.finish runId issueId text arg) h]
    exact .idle rfl rfl
  · rw [StoreOp.apply_error (.finish runId issueId text arg) h]
    exact .idle rfl rfl
  · rw [StoreOp.apply_ok (.finish runId issueId text arg) h]
    exact .idle rfl rfl
  · rw [StoreOp.apply_ok (.finish runId issueId text arg) h]
    obtain ⟨rfl, rfl⟩ := isOf_iff.1 hof
    obtain ⟨hq, hr, -⟩ := finalStatus_not_active hstatus
    exact .ended (f := fun x => x.finished now status fields) (Or.inl ⟨text, arg, rfl⟩) hl
      (fun x => ⟨rfl, rfl⟩) (fun x => ⟨hq, hr⟩) (hruns.trans (map_finishable hc hl _)) hlocks

theorem recover_effect {now : Timestamp} {issueId : String} {db : Db} (hc : db.Consistent) :
    Effect (.recover issueId) now db ((StoreOp.recover issueId).apply now db) := by
  rcases recover_cases now issueId db with ⟨-, h⟩ | ⟨l, hl, rfl, hexp, db', h, hruns, hlocks, -⟩
  · rw [StoreOp.apply_ok (.recover issueId) h]
    exact .idle rfl rfl
  · rw [StoreOp.apply_ok (.recover l.linearIssueId) h]
    exact .ended (f := fun x => x.expired now) (Or.inr ⟨rfl, hexp⟩) hl (fun x => ⟨rfl, rfl⟩)
      (fun x => by simp [AgentRun.expired]) (hruns.trans (map_abandoned hc hl _)) hlocks

/-- Every call has one of the effects. -/
theorem apply_effect {db : Db} (hc : db.Consistent) (now : Timestamp) (op : StoreOp) :
    Effect op now db (op.apply now db) := by
  cases op with
  | claim a => exact claim_effect
  | heartbeat runId issueId ttl => exact heartbeat_effect hc
  | finish runId issueId text arg => exact finish_effect hc
  | recover issueId => exact recover_effect hc
  | release issueId =>
      obtain ⟨runs, h, hrows⟩ := release_apply now issueId db
      rw [StoreOp.apply_ok (.release issueId) h]
      exact .released rfl hrows rfl
  | insertEvent e => exact .idle rfl rfl

/-! ## Every call keeps the invariant -/

/-- A run that starts together with its lock keeps the invariant. -/
theorem consistent_started {now : Timestamp} {a : ClaimArgs}
    {startedAt heartbeatAt : Option Timestamp} {db db' : Db} (hc : db.Consistent)
    (hruns : db'.runs.rows = db.runs.rows ++ [(a.queuedRun startedAt).running now])
    (hlocks : db'.locks.rows = db.locks.rows ++ [a.lock now heartbeatAt]) : db'.Consistent := by
  refine ⟨fun l' hl' => ?_, fun y hy hs => ?_, fun y hy => ?_⟩
  · rw [hlocks, List.mem_append, List.mem_singleton] at hl'
    rcases hl' with hl' | rfl
    · obtain ⟨y, hy, hyid, hyi, hys⟩ := hc.run_of_lock l' hl'
      exact ⟨y, by rw [hruns]; exact List.mem_append_left _ hy, hyid, hyi, hys⟩
    · exact ⟨_, by rw [hruns]; exact List.mem_append_right _ (List.mem_singleton_self _),
        rfl, rfl, rfl⟩
  · rw [hruns, List.mem_append, List.mem_singleton] at hy
    rcases hy with hy | rfl
    · obtain ⟨l', hl', hof⟩ := hc.lock_of_run y hy hs
      exact ⟨l', by rw [hlocks]; exact List.mem_append_left _ hl', hof⟩
    · exact ⟨_, by rw [hlocks]; exact List.mem_append_right _ (List.mem_singleton_self _),
        isOf_iff.2 ⟨rfl, rfl⟩⟩
  · rw [hruns, List.mem_append, List.mem_singleton] at hy
    rcases hy with hy | rfl
    · exact hc.not_queued y hy
    · simp [AgentRun.running]

/-- New times keep the invariant: ids, issues and statuses stay. -/
theorem consistent_touched {now : Timestamp} {l : AgentExecutionLock} {ttl : Int} {db db' : Db}
    (hc : db.Consistent)
    (hruns : db'.runs.rows = db.runs.rows.map fun x =>
      if x.runId = l.runId then x.heartbeat now else x)
    (hlocks : db'.locks.rows = db.locks.rows.map fun l' =>
      if l'.isLive now l.runId l.linearIssueId then l'.extended now ttl else l') :
    db'.Consistent := by
  have hg : ∀ l' : AgentExecutionLock,
      (if l'.isLive now l.runId l.linearIssueId then l'.extended now ttl else l').linearIssueId
          = l'.linearIssueId ∧
        (if l'.isLive now l.runId l.linearIssueId then l'.extended now ttl else l').runId
          = l'.runId := by
    intro l'
    split <;> exact ⟨rfl, rfl⟩
  -- Ids, issues and statuses are those of the rows before.
  have hrow : ∀ y ∈ db'.runs.rows, ∃ x ∈ db.runs.rows, y.runId = x.runId ∧
      y.linearIssueId = x.linearIssueId ∧ y.status = x.status := by
    intro y hy
    rw [hruns, List.mem_map] at hy
    obtain ⟨x, hx, rfl⟩ := hy
    refine ⟨x, hx, ?_⟩
    split <;> exact ⟨rfl, rfl, rfl⟩
  refine ⟨fun l' hl' => ?_, fun y hy hs => ?_, fun y hy => ?_⟩
  · rw [hlocks, List.mem_map] at hl'
    obtain ⟨l₀, hl₀, rfl⟩ := hl'
    obtain ⟨x, hx, hxid, hxi, hxs⟩ := hc.run_of_lock l₀ hl₀
    refine ⟨_, by rw [hruns]; exact List.mem_map_of_mem hx, ?_⟩
    rw [(hg l₀).1, (hg l₀).2]
    split <;> exact ⟨hxid, hxi, hxs⟩
  · obtain ⟨x, hx, hid, hi, hst⟩ := hrow y hy
    obtain ⟨l₀, hl₀, hof⟩ := hc.lock_of_run x hx (hst.symm.trans hs)
    refine ⟨_, by rw [hlocks]; exact List.mem_map_of_mem hl₀, ?_⟩
    rw [isOf_iff] at hof ⊢
    rw [(hg l₀).1, (hg l₀).2, hid, hi]
    exact hof
  · obtain ⟨x, hx, -, -, hst⟩ := hrow y hy
    rw [hst]
    exact hc.not_queued x hx

/-- The run of a lock that ends, and the lock that goes with it, keep the invariant. -/
theorem consistent_ended {l : AgentExecutionLock} {f : AgentRun → AgentRun} {db db' : Db}
    (hc : db.Consistent) (hl : l ∈ db.locks.rows)
    (hfs : ∀ x, (f x).status ≠ .queued ∧ (f x).status ≠ .running)
    (hruns : db'.runs.rows = db.runs.rows.map fun x => if x.runId = l.runId then f x else x)
    (hlocks : db'.locks.rows = db.locks.rows.filter fun l' => !l'.isOf l.runId l.linearIssueId) :
    db'.Consistent := by
  refine ⟨fun l' hl' => ?_, fun y hy hs => ?_, fun y hy => ?_⟩
  · rw [hlocks, List.mem_filter] at hl'
    obtain ⟨hl', hne⟩ := hl'
    obtain ⟨x, hx, hxid, hxi, hxs⟩ := hc.run_of_lock l' hl'
    -- Another lock belongs to another run: the ended one had its own lock's issue.
    have hother : x.runId ≠ l.runId := by
      intro heq
      obtain ⟨hxl, -⟩ := hc.running_of_lock hl hx heq
      have : l' = l := eq_of_issue db hl' hl (hxi.symm.trans hxl)
      subst this
      simp [isOf_iff.2 ⟨rfl, rfl⟩] at hne
    refine ⟨x, ?_, hxid, hxi, hxs⟩
    rw [hruns, List.mem_map]
    exact ⟨x, hx, by simp [hother]⟩
  · rw [hruns, List.mem_map] at hy
    obtain ⟨x, hx, rfl⟩ := hy
    by_cases hid : x.runId = l.runId
    · rw [if_pos hid] at hs
      exact absurd hs (hfs x).2
    · rw [if_neg hid] at hs ⊢
      obtain ⟨l', hl', hof⟩ := hc.lock_of_run x hx hs
      refine ⟨l', ?_, hof⟩
      rw [hlocks, List.mem_filter]
      refine ⟨hl', ?_⟩
      have hne : l'.runId ≠ l.runId := (isOf_iff.1 hof).2 ▸ hid
      simp [AgentExecutionLock.isOf, hne]
  · rw [hruns, List.mem_map] at hy
    obtain ⟨x, hx, rfl⟩ := hy
    split
    · exact (hfs x).1
    · exact hc.not_queued x hx

/-- A blocked run that is cancelled has no lock. -/
theorem consistent_released {now : Timestamp} {issueId : String} {db db' : Db}
    (hc : db.Consistent)
    (hruns : db'.runs.rows = db.runs.rows.map fun x =>
      if x.isBlockedOf issueId then x.released now else x)
    (hlocks : db'.locks.rows = db.locks.rows) : db'.Consistent := by
  refine ⟨fun l' hl' => ?_, fun y hy hs => ?_, fun y hy => ?_⟩
  · rw [hlocks] at hl'
    obtain ⟨x, hx, hxid, hxi, hxs⟩ := hc.run_of_lock l' hl'
    refine ⟨x, ?_, hxid, hxi, hxs⟩
    rw [hruns, List.mem_map]
    exact ⟨x, hx, by simp [AgentRun.isBlockedOf, hxs]⟩
  · rw [hruns, List.mem_map] at hy
    obtain ⟨x, hx, rfl⟩ := hy
    split at hs
    · exact absurd hs (by simp [AgentRun.released])
    · rename_i hb
      rw [if_neg hb, hlocks]
      exact hc.lock_of_run x hx hs
  · rw [hruns, List.mem_map] at hy
    obtain ⟨x, hx, rfl⟩ := hy
    split
    · simp [AgentRun.released]
    · exact hc.not_queued x hx

theorem consistent_of_effect {op : StoreOp} {now : Timestamp} {db db' : Db}
    (hc : db.Consistent) (he : Effect op now db db') : db'.Consistent := by
  cases he with
  | idle hruns hlocks =>
      refine ⟨?_, ?_, ?_⟩
      · rw [hruns, hlocks]; exact hc.run_of_lock
      · rw [hruns, hlocks]; exact hc.lock_of_run
      · rw [hruns]; exact hc.not_queued
  | started hop hruns hlocks => exact consistent_started hc hruns hlocks
  | touched hop hl hlive hruns hlocks => exact consistent_touched hc hruns hlocks
  | ended hop hl hf hfs hruns hlocks => exact consistent_ended hc hl hfs hruns hlocks
  | released hop hruns hlocks => exact consistent_released hc hruns hlocks

theorem consistent_apply {db : Db} (hc : db.Consistent) (now : Timestamp) (op : StoreOp) :
    (op.apply now db).Consistent :=
  consistent_of_effect hc (apply_effect hc now op)

/-- **Any sequence of calls keeps the invariant.** -/
theorem consistent_runOps {db : Db} (hc : db.Consistent) (ops : List (Timestamp × StoreOp)) :
    (runOps ops db).Consistent := by
  induction ops generalizing db with
  | nil => exact hc
  | cons op ops ih => exact ih (consistent_apply hc op.1 op.2)

/-- At most one row passes a filter when all that pass it are one row. -/
theorem length_filter_le_one {α : Type} {rows : List α} (hnodup : rows.Nodup) {p : α → Bool}
    (h : ∀ x ∈ rows, ∀ y ∈ rows, p x = true → p y = true → x = y) :
    (rows.filter p).length ≤ 1 := by
  have hmem : ∀ x ∈ rows.filter p, x ∈ rows ∧ p x = true := fun x hx => List.mem_filter.1 hx
  have hnd := hnodup.filter p
  rcases hf : rows.filter p with _ | ⟨x, _ | ⟨y, rest⟩⟩
  · simp
  · simp
  · rw [hf] at hmem hnd
    obtain ⟨hx, hpx⟩ := hmem x (by simp)
    obtain ⟨hy, hpy⟩ := hmem y (by simp)
    have heq := h x hx y hy hpx hpy
    simp [heq] at hnd

theorem runs_nodup (db : Db) : db.runs.rows.Nodup := by
  have h := db.runs.unique
  refine List.Nodup.of_map (fun x => RunKey.run x.runId) (h.sublist ?_)
  generalize db.runs.rows = rows
  induction rows with
  | nil => exact List.Sublist.refl _
  | cons x rows ih =>
      rw [List.map_cons, List.flatMap_cons, AgentRun.keys, List.cons_append]
      exact (ih.trans (List.sublist_append_right _ _)).cons_cons _

/-- **The store's invariant.** After any calls on the tables as they are created, at any times:
the lock of issue `i` is held by run `r` exactly when `r` is a run of `i` and running, no run is
queued, and no issue has two active runs. -/
theorem runOps_lock_iff_running (defaults : ColumnDefaults) (ops : List (Timestamp × StoreOp)) :
    let db := runOps ops (Db.empty defaults)
    (∀ i r, (∃ l ∈ db.locks.rows, l.linearIssueId = i ∧ l.runId = r) ↔
      ∃ x ∈ db.runs.rows, x.runId = r ∧ x.linearIssueId = i ∧ x.status = .running) ∧
    (∀ x ∈ db.runs.rows, x.status ≠ .queued) ∧
    ∀ i, (db.runs.rows.filter fun x => x.linearIssueId = i && x.status.isActive).length ≤ 1 := by
  intro db
  have hc : db.Consistent := consistent_runOps (consistent_empty defaults) ops
  refine ⟨fun i r => ⟨?_, ?_⟩, hc.not_queued, fun i => ?_⟩
  · rintro ⟨l, hl, rfl, rfl⟩
    exact hc.run_of_lock l hl
  · rintro ⟨x, hx, rfl, rfl, hs⟩
    obtain ⟨l, hl, hof⟩ := hc.lock_of_run x hx hs
    exact ⟨l, hl, isOf_iff.1 hof⟩
  · refine length_filter_le_one (runs_nodup db) fun x hx y hy hpx hpy => ?_
    simp only [Bool.and_eq_true, decide_eq_true_eq] at hpx hpy
    exact eq_of_active db hx hy hpx.2 hpy.2 (hpx.1.trans hpy.1.symm)

end HermesRuntime
