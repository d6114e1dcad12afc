import HermesRuntime.StoreInvariant
import Mathlib.Logic.Function.Basic

/-!
# The event log

Reading the events in the order they were inserted tells the status of every run and the holder
of every lock, as long as nobody but the four functions touches the tables, and the only events
inserted beside theirs are the runtime's own.

* `LogView.read` — what one event says.
* `Tells` — a reading agrees with the tables.
* `logs_apply` — every call logs what it changes.
* `event_log_tells_tables` — the agreement after any calls.
-/

namespace HermesRuntime

open Relational Txn

/-! ## Reading the log -/

/-- What a log says: the status of a run and the holder of an issue. -/
structure LogView where
  status : String → Option RunStatus
  holder : String → Option String

/-- The status an event of this kind gives its run. -/
def statusAfter : String → Option RunStatus
  | "run.started" => some .running
  | "run.completed" => some .completed
  | "run.failed" => some .failed
  | "run.blocked" => some .blocked
  | "run.canceled" => some .canceled
  | "lock.expired" => some .failed
  | _ => none

namespace LogView

/-- Before any event. -/
def nothing : LogView := ⟨fun _ => none, fun _ => none⟩

/-- The next event: `run.started` takes the lock of its issue, and the second event of a closing
pair gives it back. -/
def read (v : LogView) (e : AgentEvent) : LogView where
  status :=
    match statusAfter e.eventType with
    | some s => Function.update v.status e.runId (some s)
    | none => v.status
  holder :=
    if e.eventType = "run.started" then
      Function.update v.holder e.linearIssueId (some e.runId)
    else if e.eventType ∈ ["lock.released", "lock.recovered"] then
      Function.update v.holder e.linearIssueId none
    else v.holder

/-- A log read from its first event on. -/
def ofLog (events : List AgentEvent) : LogView := events.foldl read nothing

/-- The run has started and holds the lock of its issue. -/
def started (v : LogView) (runId issueId : String) : LogView :=
  ⟨Function.update v.status runId (some .running),
    Function.update v.holder issueId (some runId)⟩

/-- The run has ended, and the lock of its issue is gone. -/
def ended (v : LogView) (runId issueId : String) (status : RunStatus) : LogView :=
  ⟨Function.update v.status runId (some status), Function.update v.holder issueId none⟩

@[simp] theorem status_started (v : LogView) (runId issueId : String) :
    (v.started runId issueId).status = Function.update v.status runId (some .running) := rfl

@[simp] theorem holder_started (v : LogView) (runId issueId : String) :
    (v.started runId issueId).holder = Function.update v.holder issueId (some runId) := rfl

@[simp] theorem status_ended (v : LogView) (runId issueId : String) (status : RunStatus) :
    (v.ended runId issueId status).status = Function.update v.status runId (some status) := rfl

@[simp] theorem holder_ended (v : LogView) (runId issueId : String) (status : RunStatus) :
    (v.ended runId issueId status).holder = Function.update v.holder issueId none := rfl

theorem ofLog_append (events more : List AgentEvent) :
    ofLog (events ++ more) = more.foldl read (ofLog events) := List.foldl_append

theorem read_startEvents (v : LogView) (a : ClaimArgs) (now : Timestamp) :
    (a.startEvents now).foldl read v = v.started a.runId a.issueId := rfl

theorem read_finishEvents (v : LogView) {text : String} {status : RunStatus}
    (h : finalStatus text = some status) (runId issueId agent : String) (fields : JsonObject) :
    (finishEvents runId issueId agent text status fields).foldl read v =
      v.ended runId issueId status := by
  unfold finalStatus at h
  split at h <;> cases h <;> rfl

theorem read_recoverEvents (v : LogView) (issueId : String) (l : AgentExecutionLock) :
    (recoverEvents issueId l).foldl read v = v.ended l.runId issueId .failed := rfl

end LogView

/-! ## Agreement with the tables -/

/-- The reading has the status of every run and the holder of every lock. -/
structure Tells (v : LogView) (db : Db) : Prop where
  status : ∀ r s, v.status r = some s ↔ ∃ x ∈ db.runs.rows, x.runId = r ∧ x.status = s
  holder : ∀ i r, v.holder i = some r ↔
    ∃ l ∈ db.locks.rows, l.linearIssueId = i ∧ l.runId = r

theorem tells_empty (defaults : ColumnDefaults) : Tells .nothing (Db.empty defaults) where
  status := fun r s => by simp [LogView.nothing, Db.empty]
  holder := fun i r => by simp [LogView.nothing, Db.empty]

/-- A new running run and its lock. -/
theorem tells_started {v : LogView} {db db' : Db} (h : Tells v db) {x : AgentRun}
    {l : AgentExecutionLock} (hx : x.status = .running) (hid : x.runId = l.runId)
    (hnew : ∀ y ∈ db.runs.rows, y.runId ≠ l.runId)
    (hfree : ∀ l' ∈ db.locks.rows, l'.linearIssueId ≠ l.linearIssueId)
    (hruns : db'.runs.rows = db.runs.rows ++ [x])
    (hlocks : db'.locks.rows = db.locks.rows ++ [l]) :
    Tells (v.started l.runId l.linearIssueId) db' where
  status := fun r s => by
    rw [hruns, LogView.status_started]
    by_cases hr : r = l.runId
    · subst hr
      rw [Function.update_self]
      constructor
      · intro hs
        cases hs
        exact ⟨x, by simp, hid, hx⟩
      · rintro ⟨y, hy, hyid, rfl⟩
        rcases List.mem_append.1 hy with hy | hy
        · exact absurd hyid (hnew y hy)
        · rw [List.mem_singleton.1 hy, hx]
    · rw [Function.update_of_ne hr, h.status]
      have hne : x.runId ≠ r := fun heq => hr (heq.symm.trans hid)
      simp [or_and_right, exists_or, hne]
  holder := fun i r => by
    rw [hlocks, LogView.holder_started]
    by_cases hi : i = l.linearIssueId
    · subst hi
      rw [Function.update_self]
      constructor
      · intro hr
        cases hr
        exact ⟨l, by simp, rfl, rfl⟩
      · rintro ⟨l', hl', hissue, rfl⟩
        rcases List.mem_append.1 hl' with hl' | hl'
        · exact absurd hissue (hfree l' hl')
        · rw [List.mem_singleton.1 hl']
    · rw [Function.update_of_ne hi, h.holder]
      have hne : l.linearIssueId ≠ i := fun heq => hi heq.symm
      simp [or_and_right, exists_or, hne]

/-- The run of a lock ends, and the lock goes. -/
theorem tells_ended {v : LogView} {db db' : Db} (hc : db.Consistent) (h : Tells v db)
    {l : AgentExecutionLock} (hl : l ∈ db.locks.rows) {f : AgentRun → AgentRun} {s : RunStatus}
    (hf : ∀ x, (f x).runId = x.runId ∧ (f x).status = s)
    (hruns : db'.runs.rows = db.runs.rows.map fun x => if x.runId = l.runId then f x else x)
    (hlocks : db'.locks.rows =
      db.locks.rows.filter fun l' => !l'.isOf l.runId l.linearIssueId) :
    Tells (v.ended l.runId l.linearIssueId s) db' where
  status := fun r s' => by
    rw [hruns, LogView.status_ended]
    have hid : ∀ x : AgentRun, (if x.runId = l.runId then f x else x).runId = x.runId := by
      intro x
      split
      · exact (hf x).1
      · rfl
    simp only [List.mem_map, exists_exists_and_eq_and, hid]
    by_cases hr : r = l.runId
    · subst hr
      rw [Function.update_self]
      constructor
      · intro hs
        cases hs
        obtain ⟨x, hx, hxid, -⟩ := hc.run_of_lock l hl
        exact ⟨x, hx, hxid, by rw [if_pos hxid, (hf x).2]⟩
      · rintro ⟨x, -, hxid, hs⟩
        rw [if_pos hxid, (hf x).2] at hs
        rw [hs]
    · rw [Function.update_of_ne hr, h.status]
      refine exists_congr fun x => and_congr_right fun _ => and_congr_right fun hxid => ?_
      rw [if_neg (by rw [hxid]; exact hr)]
  holder := fun i r => by
    rw [hlocks, LogView.holder_ended]
    simp only [List.mem_filter, Bool.not_eq_eq_eq_not, Bool.not_true]
    by_cases hi : i = l.linearIssueId
    · subst hi
      rw [Function.update_self]
      refine iff_of_false nofun ?_
      rintro ⟨l', ⟨hl', hother⟩, hissue, -⟩
      rw [eq_of_issue db hl' hl hissue, isOf_iff.2 ⟨rfl, rfl⟩] at hother
      cases hother
    · rw [Function.update_of_ne hi, h.holder]
      refine exists_congr fun l' => ⟨fun ⟨hl', hissue, hrun⟩ => ⟨⟨hl', ?_⟩, hissue, hrun⟩,
        fun ⟨⟨hl', _⟩, hissue, hrun⟩ => ⟨hl', hissue, hrun⟩⟩
      by_contra hof
      exact hi (hissue.symm.trans (isOf_iff.1 (by simpa using hof)).1)

/-! ## Other events -/

/-- The calls of the runtime: the four functions, and inserts of `agent.dispatched` and of the
events of the board. -/
def StoreOp.IsRuntime : StoreOp → Prop
  | .release _ => False
  | .insertEvent e => e.eventType = "agent.dispatched" ∨ startsWith e.eventType "kanban." = true
  | _ => True

/-- The kinds the log is read for. -/
def lifecycleKinds : List String :=
  ["run.created", "run.completed", "run.failed", "run.blocked", "run.canceled", "lock.released",
    "lock.expired", "lock.recovered"]

theorem kind_of_inserted {e : AgentEvent} (h : (StoreOp.insertEvent e).IsRuntime) :
    e.eventType ∉ "run.started" :: lifecycleKinds := by
  intro hmem
  rcases h with h | h
  · rw [h] at hmem
    exact absurd hmem (by decide)
  · have hall : ∀ kind ∈ "run.started" :: lifecycleKinds, startsWith kind "kanban." = false := by
      decide
    rw [hall _ hmem] at h
    cases h

namespace LogView

/-- Another kind of event says nothing. -/
theorem read_other (v : LogView) {e : AgentEvent}
    (h : e.eventType ∉ "run.started" :: lifecycleKinds) : v.read e = v := by
  have hstatus : statusAfter e.eventType = none := by
    unfold statusAfter
    split
    case h_7 => rfl
    all_goals
      rename_i hkind
      exact absurd (by rw [hkind]; decide) h
  have hstarted : e.eventType ≠ "run.started" := fun heq => h (by rw [heq]; decide)
  have hfreed : e.eventType ∉ ["lock.released", "lock.recovered"] := by
    intro hmem
    have hsub : ∀ kind ∈ ["lock.released", "lock.recovered"],
        kind ∈ "run.started" :: lifecycleKinds := by decide
    exact h (hsub _ hmem)
  rw [read, hstatus, if_neg hstarted, if_neg hfreed]

theorem foldl_other (v : LogView) {events : List AgentEvent}
    (h : ∀ e ∈ events, e.eventType ∉ "run.started" :: lifecycleKinds) :
    events.foldl read v = v := by
  induction events with
  | nil => rfl
  | cons e events ih =>
      obtain ⟨he, hevents⟩ := List.forall_mem_cons.1 h
      rw [List.foldl_cons, read_other v he, ih hevents]

end LogView

/-! ## The events of a run -/

/-- The kinds of a run's events that open or close it. -/
def lifecycle (events : List AgentEvent) (runId : String) : List String :=
  (events.filter fun e => e.runId = runId && e.eventType ∈ lifecycleKinds).map (·.eventType)

/-- The events of a run of this status: its creation, and once it has ended one closing pair. -/
inductive Lifecycle : RunStatus → List String → Prop
  | running : Lifecycle .running ["run.created"]
  | finished {text : String} {status : RunStatus} (h : finalStatus text = some status) :
      Lifecycle status ["run.created", "run." ++ text, "lock.released"]
  | expired : Lifecycle .failed ["run.created", "lock.expired", "lock.recovered"]

theorem lifecycle_append (events more : List AgentEvent) (r : String) :
    lifecycle (events ++ more) r = lifecycle events r ++ lifecycle more r := by
  simp [lifecycle, List.filter_append]

theorem lifecycle_other {events : List AgentEvent}
    (h : ∀ e ∈ events, e.eventType ∉ "run.started" :: lifecycleKinds) (r : String) :
    lifecycle events r = [] := by
  have hnone : (events.filter fun e => e.runId = r && e.eventType ∈ lifecycleKinds) = [] := by
    refine List.filter_eq_nil_iff.2 fun e he => ?_
    have hkind : e.eventType ∉ lifecycleKinds := fun hmem => h e he (List.mem_cons_of_mem _ hmem)
    simp [hkind]
  rw [lifecycle, hnone, List.map_nil]

/-- The events of one run are all in its own lifecycle. -/
theorem lifecycle_of_run {events : List AgentEvent} (runId : String)
    (h : ∀ e ∈ events, e.runId = runId) (r : String) :
    lifecycle events r = if r = runId then
      (events.filter (·.eventType ∈ lifecycleKinds)).map (·.eventType) else [] := by
  unfold lifecycle
  by_cases hr : r = runId
  · rw [if_pos hr, List.filter_congr fun e he => by
      rw [h e he, hr, decide_eq_true rfl, Bool.true_and]]
  · rw [if_neg hr, List.filter_eq_nil_iff.2 fun e he => by simp [h e he, Ne.symm hr], List.map_nil]

theorem lifecycle_startEvents (a : ClaimArgs) (now : Timestamp) (r : String) :
    lifecycle (a.startEvents now) r = if r = a.runId then ["run.created"] else [] := by
  rw [lifecycle_of_run a.runId fun e he => by
    simp only [ClaimArgs.startEvents, List.mem_cons, List.not_mem_nil, or_false] at he
    rcases he with rfl | rfl | rfl <;> rfl]
  rfl

theorem lifecycle_finishEvents {text : String} {status : RunStatus}
    (h : finalStatus text = some status) (runId issueId agent : String) (fields : JsonObject)
    (r : String) : lifecycle (finishEvents runId issueId agent text status fields) r =
      if r = runId then ["run." ++ text, "lock.released"] else [] := by
  rw [lifecycle_of_run runId fun e he => by
    simp only [finishEvents, List.mem_cons, List.not_mem_nil, or_false] at he
    rcases he with rfl | rfl <;> rfl]
  unfold finalStatus at h
  split at h <;> cases h <;> rfl

theorem lifecycle_recoverEvents (issueId : String) (l : AgentExecutionLock) (r : String) :
    lifecycle (recoverEvents issueId l) r =
      if r = l.runId then ["lock.expired", "lock.recovered"] else [] := by
  rw [lifecycle_of_run l.runId fun e he => by
    simp only [recoverEvents, List.mem_cons, List.not_mem_nil, or_false] at he
    rcases he with rfl | rfl <;> rfl]
  rfl

/-! ## Every call logs what it changes -/

/-- What a call logs, and what it changes in the tables. -/
inductive Logs (db db' : Db) : Prop
  /-- Nothing about runs and locks. -/
  | quiet {more : List AgentEvent} (hevents : db'.events = db.events ++ more)
      (hmore : ∀ e ∈ more, e.eventType ∉ "run.started" :: lifecycleKinds)
      (hruns : ∀ r s, (∃ x ∈ db'.runs.rows, x.runId = r ∧ x.status = s) ↔
        ∃ x ∈ db.runs.rows, x.runId = r ∧ x.status = s)
      (hlocks : ∀ i r, (∃ l ∈ db'.locks.rows, l.linearIssueId = i ∧ l.runId = r) ↔
        ∃ l ∈ db.locks.rows, l.linearIssueId = i ∧ l.runId = r)
  /-- A claim. -/
  | started {a : ClaimArgs} {now : Timestamp} {startedAt heartbeatAt : Option Timestamp}
      (hfree : db.Free a.runId a.issueId)
      (hruns : db'.runs.rows = db.runs.rows ++ [(a.queuedRun startedAt).running now])
      (hlocks : db'.locks.rows = db.locks.rows ++ [a.lock now heartbeatAt])
      (hevents : db'.events = db.events ++ a.startEvents now)
  /-- A finish or a recovery. -/
  | ended {l : AgentExecutionLock} {f : AgentRun → AgentRun} {s : RunStatus} {kinds : List String}
      {more : List AgentEvent} (hl : l ∈ db.locks.rows)
      (hf : ∀ x, (f x).runId = x.runId ∧ (f x).status = s)
      (hruns : db'.runs.rows = db.runs.rows.map fun x => if x.runId = l.runId then f x else x)
      (hlocks : db'.locks.rows =
        db.locks.rows.filter fun l' => !l'.isOf l.runId l.linearIssueId)
      (hevents : db'.events = db.events ++ more)
      (hread : ∀ v : LogView, more.foldl .read v = v.ended l.runId l.linearIssueId s)
      (hmore : ∀ r, lifecycle more r = if r = l.runId then kinds else [])
      (hkinds : Lifecycle s ("run.created" :: kinds))

theorem logs_self (db : Db) : Logs db db :=
  .quiet (List.append_nil _).symm nofun (fun _ _ => Iff.rfl) fun _ _ => Iff.rfl

theorem exists_mem_map {α : Type} {rows : List α} {f : α → α} {P : α → Prop}
    (hf : ∀ x, P (f x) ↔ P x) : (∃ y ∈ rows.map f, P y) ↔ ∃ x ∈ rows, P x := by
  simp only [List.mem_map, exists_exists_and_eq_and, hf]

theorem logs_apply {db : Db} (hc : db.Consistent) (now : Timestamp) {op : StoreOp}
    (hop : op.IsRuntime) : Logs db (op.apply now db) := by
  cases op with
  | claim a =>
      rcases claim_cases now a db with
        ⟨-, hrun⟩ | ⟨-, hfree, db', hrun, hruns, hlocks, hevents⟩ | ⟨-, -, hrun⟩
      · rw [StoreOp.apply_error (.claim a) hrun]
        exact logs_self db
      · rw [StoreOp.apply_ok (.claim a) hrun]
        exact .started hfree hruns hlocks hevents
      · rw [StoreOp.apply_ok (.claim a) hrun]
        refine .quiet rfl (fun e he => ?_) (fun _ _ => Iff.rfl) fun _ _ => Iff.rfl
        unfold Db.rejectEvents at he
        split at he
        · rw [List.mem_singleton.1 he]
          show "lock.rejected" ∉ "run.started" :: lifecycleKinds
          decide
        · cases he
  | heartbeat r i ttl =>
      rcases heartbeat_cases now r i ttl db with
        ⟨-, hrun⟩ | ⟨-, -, hrun⟩ | ⟨-, -, -, db', hrun, hruns, hlocks, hevents⟩
      · rw [StoreOp.apply_error (.heartbeat r i ttl) hrun]
        exact logs_self db
      · rw [StoreOp.apply_ok (.heartbeat r i ttl) hrun]
        exact logs_self db
      · rw [StoreOp.apply_ok (.heartbeat r i ttl) hrun]
        refine .quiet (hevents.trans (List.append_nil _).symm) nofun (fun r' s => ?_)
          fun i' r' => ?_
        · rw [hruns, exists_mem_map fun x => ?_]
          split <;> rfl
        · rw [hlocks, exists_mem_map fun l => ?_]
          split <;> rfl
  | finish r i text arg =>
      rcases finish_cases now r i text arg db with
        ⟨-, hrun⟩ | ⟨-, hrun⟩ | ⟨-, -, -, hrun⟩ |
          ⟨status, fields, hstatus, -, l, hl, hof, x, -, -, db', hrun, hruns, hlocks, hevents⟩
      · rw [StoreOp.apply_error (.finish r i text arg) hrun]
        exact logs_self db
      · rw [StoreOp.apply_error (.finish r i text arg) hrun]
        exact logs_self db
      · rw [StoreOp.apply_ok (.finish r i text arg) hrun]
        exact logs_self db
      · rw [StoreOp.apply_ok (.finish r i text arg) hrun]
        obtain ⟨rfl, rfl⟩ := isOf_iff.1 hof
        exact .ended hl (f := fun x => x.finished now status fields) (fun x => ⟨rfl, rfl⟩)
          (hruns.trans (map_finishable hc hl _)) hlocks hevents
          (fun v => v.read_finishEvents hstatus _ _ _ _)
          (lifecycle_finishEvents hstatus _ _ _ _) (.finished hstatus)
  | recover i =>
      rcases recover_cases now i db with
        ⟨-, hrun⟩ | ⟨l, hl, rfl, -, db', hrun, hruns, hlocks, hevents⟩
      · rw [StoreOp.apply_ok (.recover i) hrun]
        exact logs_self db
      · rw [StoreOp.apply_ok (.recover l.linearIssueId) hrun]
        exact .ended hl (f := fun x => x.expired now) (fun x => ⟨rfl, rfl⟩)
          (hruns.trans (map_abandoned hc hl _)) hlocks hevents
          (fun v => v.read_recoverEvents _ _) (lifecycle_recoverEvents _ _) .expired
  | release i => exact hop.elim
  | insertEvent e =>
      have hevents : ((StoreOp.insertEvent e).apply now db).events = db.events ++ [e] := rfl
      refine .quiet hevents (fun e' he' => ?_) (fun _ _ => Iff.rfl) fun _ _ => Iff.rfl
      rw [List.mem_singleton.1 he']
      exact kind_of_inserted hop

/-! ## The log and the tables -/

/-- What is read in the log agrees with the tables, and every run has the events of its status. -/
structure Db.Logged (db : Db) : Prop where
  tells : Tells (.ofLog db.events) db
  lifecycle_of_run : ∀ x ∈ db.runs.rows, Lifecycle x.status (lifecycle db.events x.runId)
  lifecycle_unknown : ∀ r, (∀ x ∈ db.runs.rows, x.runId ≠ r) → lifecycle db.events r = []

theorem logged_empty (defaults : ColumnDefaults) : (Db.empty defaults).Logged where
  tells := tells_empty defaults
  lifecycle_of_run := fun _ hx => absurd hx (by simp [Db.empty])
  lifecycle_unknown := fun _ _ => rfl

theorem logged_quiet {db db' : Db} {more : List AgentEvent} (h : db.Logged)
    (hevents : db'.events = db.events ++ more)
    (hmore : ∀ e ∈ more, e.eventType ∉ "run.started" :: lifecycleKinds)
    (hruns : ∀ r s, (∃ x ∈ db'.runs.rows, x.runId = r ∧ x.status = s) ↔
      ∃ x ∈ db.runs.rows, x.runId = r ∧ x.status = s)
    (hlocks : ∀ i r, (∃ l ∈ db'.locks.rows, l.linearIssueId = i ∧ l.runId = r) ↔
      ∃ l ∈ db.locks.rows, l.linearIssueId = i ∧ l.runId = r) : db'.Logged := by
  have hlife : ∀ r, lifecycle db'.events r = lifecycle db.events r := by
    intro r
    rw [hevents, lifecycle_append, lifecycle_other hmore, List.append_nil]
  refine ⟨?_, fun x hx => ?_, fun r hr => ?_⟩
  · rw [hevents, LogView.ofLog_append, LogView.foldl_other _ hmore]
    exact ⟨fun r s => (h.tells.status r s).trans (hruns r s).symm,
      fun i r => (h.tells.holder i r).trans (hlocks i r).symm⟩
  · obtain ⟨y, hy, hid, hs⟩ := (hruns x.runId x.status).1 ⟨x, hx, rfl, rfl⟩
    rw [hlife, ← hid, ← hs]
    exact h.lifecycle_of_run y hy
  · rw [hlife]
    refine h.lifecycle_unknown r fun y hy hid => ?_
    obtain ⟨x, hx, hxid, -⟩ := (hruns r y.status).2 ⟨y, hy, hid, rfl⟩
    exact hr x hx hxid

theorem logged_started {db db' : Db} {a : ClaimArgs} {now : Timestamp}
    {startedAt heartbeatAt : Option Timestamp} (h : db.Logged) (hfree : db.Free a.runId a.issueId)
    (hruns : db'.runs.rows = db.runs.rows ++ [(a.queuedRun startedAt).running now])
    (hlocks : db'.locks.rows = db.locks.rows ++ [a.lock now heartbeatAt])
    (hevents : db'.events = db.events ++ a.startEvents now) : db'.Logged := by
  have hlife : ∀ r, lifecycle db'.events r =
      lifecycle db.events r ++ if r = a.runId then ["run.created"] else [] := by
    intro r
    rw [hevents, lifecycle_append, lifecycle_startEvents]
  refine ⟨?_, fun x hx => ?_, fun r hr => ?_⟩
  · rw [hevents, LogView.ofLog_append, LogView.read_startEvents]
    exact tells_started h.tells rfl rfl hfree.1
      (fun l hl hi => hfree.2 (Or.inl ⟨l, hl, hi⟩)) hruns hlocks
  · rw [hruns, List.mem_append, List.mem_singleton] at hx
    rw [hlife]
    rcases hx with hx | rfl
    · rw [if_neg (hfree.1 x hx), List.append_nil]
      exact h.lifecycle_of_run x hx
    · show Lifecycle .running
        (lifecycle db.events a.runId ++ if a.runId = a.runId then _ else _)
      rw [if_pos rfl, h.lifecycle_unknown _ hfree.1]
      exact .running
  · rw [hruns] at hr
    have hne : r ≠ a.runId := fun heq =>
      hr ((a.queuedRun startedAt).running now) (by simp) heq.symm
    rw [hlife, if_neg hne, List.append_nil]
    exact h.lifecycle_unknown r fun x hx => hr x (List.mem_append_left _ hx)

theorem logged_ended {db db' : Db} {l : AgentExecutionLock} {f : AgentRun → AgentRun}
    {s : RunStatus} {kinds : List String} {more : List AgentEvent} (hc : db.Consistent)
    (h : db.Logged) (hl : l ∈ db.locks.rows) (hf : ∀ x, (f x).runId = x.runId ∧ (f x).status = s)
    (hruns : db'.runs.rows = db.runs.rows.map fun x => if x.runId = l.runId then f x else x)
    (hlocks : db'.locks.rows = db.locks.rows.filter fun l' => !l'.isOf l.runId l.linearIssueId)
    (hevents : db'.events = db.events ++ more)
    (hread : ∀ v : LogView, more.foldl .read v = v.ended l.runId l.linearIssueId s)
    (hmore : ∀ r, lifecycle more r = if r = l.runId then kinds else [])
    (hkinds : Lifecycle s ("run.created" :: kinds)) : db'.Logged := by
  have hlife : ∀ r, lifecycle db'.events r =
      lifecycle db.events r ++ if r = l.runId then kinds else [] := by
    intro r
    rw [hevents, lifecycle_append, hmore]
  have hid : ∀ x : AgentRun, (if x.runId = l.runId then f x else x).runId = x.runId := by
    intro x
    split
    · exact (hf x).1
    · rfl
  refine ⟨?_, fun y hy => ?_, fun r hr => ?_⟩
  · rw [hevents, LogView.ofLog_append, hread]
    exact tells_ended hc h.tells hl hf hruns hlocks
  · rw [hruns, List.mem_map] at hy
    obtain ⟨x, hx, rfl⟩ := hy
    rw [hlife, hid]
    have hlast := h.lifecycle_of_run x hx
    by_cases hended : x.runId = l.runId
    · -- Until now the run of the lock was running.
      rw [(hc.running_of_lock hl hx hended).2] at hlast
      rw [if_pos hended, if_pos hended, (hf x).2]
      generalize lifecycle db.events x.runId = kinds' at hlast ⊢
      cases hlast with
      | running => exact hkinds
      | finished hs => exact absurd rfl (finalStatus_not_active hs).2.1
    · rw [if_neg hended, if_neg hended, List.append_nil]
      exact hlast
  · have hold : ∀ x ∈ db.runs.rows, x.runId ≠ r := by
      intro x hx heq
      refine hr _ (by rw [hruns]; exact List.mem_map_of_mem hx) ?_
      rw [hid, heq]
    obtain ⟨z, hz, hzid, -⟩ := hc.run_of_lock l hl
    have hne : r ≠ l.runId := fun heq => hold z hz (hzid.trans heq.symm)
    rw [hlife, if_neg hne, List.append_nil]
    exact h.lifecycle_unknown r hold

theorem logged_of_logs {db db' : Db} (hc : db.Consistent) (h : db.Logged) (hlogs : Logs db db') :
    db'.Logged := by
  cases hlogs with
  | quiet hevents hmore hruns hlocks => exact logged_quiet h hevents hmore hruns hlocks
  | started hfree hruns hlocks hevents => exact logged_started h hfree hruns hlocks hevents
  | ended hl hf hruns hlocks hevents hread hmore hkinds =>
      exact logged_ended hc h hl hf hruns hlocks hevents hread hmore hkinds

theorem logged_runOps {db : Db} (hc : db.Consistent) (h : db.Logged)
    {ops : List (Timestamp × StoreOp)} (hops : ∀ op ∈ ops, op.2.IsRuntime) :
    (runOps ops db).Logged := by
  induction ops generalizing db with
  | nil => exact h
  | cons op ops ih =>
      obtain ⟨hop, hops⟩ := List.forall_mem_cons.1 hops
      exact ih (consistent_apply hc op.1 op.2) (logged_of_logs hc h (logs_apply hc op.1 hop)) hops

/-- **The event log tells the tables.** After any of the runtime's calls on the tables as they are
created, reading the events in order gives the status of every run and the holder of every lock,
and every run has been created once and, unless it is running, closed by one pair of events. -/
theorem event_log_tells_tables (defaults : ColumnDefaults) {ops : List (Timestamp × StoreOp)}
    (hops : ∀ op ∈ ops, op.2.IsRuntime) :
    let db := runOps ops (Db.empty defaults)
    Tells (.ofLog db.events) db ∧
      ∀ x ∈ db.runs.rows, Lifecycle x.status (lifecycle db.events x.runId) := by
  intro db
  have h := logged_runOps (consistent_empty defaults) (logged_empty defaults) hops
  exact ⟨h.tells, h.lifecycle_of_run⟩

/-- A run that was dispatched and then lost its lock. -/
theorem event_log_tells_tables_recovered :
    let db := runOps [
        (0, .claim ⟨"run_1", "LOL-1", "dev-backend", none, none, none, 10⟩),
        (1000000, .insertEvent ⟨"run_1", "LOL-1", "dev-backend", "agent.dispatched", ∅⟩),
        (20000000, .recover "LOL-1")] (Db.empty ⟨fun _ => none, fun _ => none⟩)
    Tells (.ofLog db.events) db ∧
      ∀ x ∈ db.runs.rows, Lifecycle x.status (lifecycle db.events x.runId) := by
  refine event_log_tells_tables _ fun op hop => ?_
  simp only [List.mem_cons, List.not_mem_nil, or_false] at hop
  rcases hop with rfl | rfl | rfl
  · trivial
  · exact Or.inl rfl
  · trivial

end HermesRuntime
