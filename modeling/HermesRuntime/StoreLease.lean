import HermesRuntime.IssueIsolation
import HermesRuntime.Lib.Lease
import HermesRuntime.RunRows

/-!
# The store is a lease

What the four functions and the operator's release amount to, over the tables: every issue is
leased to one run at a time (`Lib.Lease`). A claim acquires the issue until its TTL is over, a
heartbeat renews it, a finish closes it, and parks it when the run is blocked; a recovery ends a
lease that has expired, and the release unparks the issue.

* `StoreOp.request` — what a call asks of the leases.
* `Represents` — the tables stand for these leases.
* `store_is_lease` — the store answers every sequence of calls as the leases do.
* `granted_claims_apart` — between two granted claims of an issue the first run has been ended.
* `granted_within_claim` — heartbeats and finishes are granted within the lease of their run.
-/

namespace HermesRuntime

open Leasing Machines Relational

/-! ## The calls as requests -/

/-- The leases of the issues, to runs. -/
abbrev IssueLeases : Type := Leases String String Timestamp

/-- What a call asks of the leases: nothing, where it only inserts an event; and an error, where
its arguments are refused before anything is looked at. -/
def StoreOp.request (now : Timestamp) :
    StoreOp → Except SqlError (Option (Request String String Timestamp))
  | .claim a =>
      if validTtl a.ttlSeconds then
        .ok (some (.acquire a.issueId a.runId (now + seconds a.ttlSeconds)))
      else .error (.raised "Invalid lock TTL")
  | .heartbeat r i ttl =>
      if validTtl ttl then .ok (some (.renew i r (now + seconds ttl)))
      else .error (.raised "Invalid lock TTL")
  | .finish r i text arg =>
      match finalStatus text, finishFields arg with
      | none, _ => .error (.raised "Invalid final status")
      | some _, none => .error (.raised "p_fields must be a JSON object")
      | some status, some _ => .ok (some (.close i r (status = .blocked)))
  | .recover i => .ok (some (.expire i))
  | .release i => .ok (some (.unpark i))
  | .insertEvent _ => .ok none

/-- The calls and their requests. -/
inductive RequestOf (now : Timestamp) : StoreOp → Request String String Timestamp → Prop
  | claim {a : ClaimArgs} :
      RequestOf now (.claim a) (.acquire a.issueId a.runId (now + seconds a.ttlSeconds))
  | heartbeat {r i : String} {ttl : Int} :
      RequestOf now (.heartbeat r i ttl) (.renew i r (now + seconds ttl))
  | finish {r i text : String} {arg : JsonArg} {status : RunStatus}
      (hstatus : finalStatus text = some status) :
      RequestOf now (.finish r i text arg) (.close i r (status = .blocked))
  | recover {i : String} : RequestOf now (.recover i) (.expire i)
  | release {i : String} : RequestOf now (.release i) (.unpark i)

theorem request_cases {now : Timestamp} {op : StoreOp} {q : Request String String Timestamp}
    (h : op.request now = .ok (some q)) : RequestOf now op q := by
  cases op with
  | claim a | heartbeat r i ttl =>
      simp only [StoreOp.request] at h
      split at h <;> cases h
      constructor
  | finish r i text arg =>
      simp only [StoreOp.request] at h
      split at h <;> cases h
      rename_i hstatus _
      exact .finish hstatus
  | recover i | release i =>
      cases h
      constructor
  | insertEvent event => cases h

/-- Only the insertion of an event asks for nothing. -/
theorem insertEvent_of_request {now : Timestamp} {op : StoreOp} (h : op.request now = .ok none) :
    ∃ event, op = .insertEvent event := by
  cases op with
  | claim a | heartbeat r i ttl | finish r i text arg =>
      simp only [StoreOp.request] at h
      split at h <;> cases h
  | recover i | release i => cases h
  | insertEvent event => exact ⟨event, rfl⟩

/-- A call on the leases. -/
def leaseStep (s : IssueLeases) (x : Timestamp × StoreOp) : Except SqlError Bool × IssueLeases :=
  match x.2.request x.1 with
  | .error e => (.error e, s)
  | .ok none => (.ok true, s)
  | .ok (some q) => (.ok (s.step (x.1, q)).1, (s.step (x.1, q)).2)

/-- A call on the tables. -/
def storeStep (db : Db) (x : Timestamp × StoreOp) : Except SqlError Bool × Db :=
  (x.2.answer x.1 db, x.2.apply x.1 db)

/-! ## The tables as leases -/

/-- How an issue stands, by the tables. -/
def Db.Stands (db : Db) (i : String) : Slot String Timestamp → Prop
  | .free => ¬ db.Taken i
  | .held r e => ∃ l ∈ db.locks.rows, l.isOf r i = true ∧ l.expiresAt = e
  | .parked r => ∃ x ∈ db.runs.rows, x.runId = r ∧ x.linearIssueId = i ∧ x.status = .blocked

/-- The tables stand for these leases. -/
structure Represents (db : Db) (s : IssueLeases) : Prop where
  consistent : db.Consistent
  not_reviewing : ∀ x ∈ db.runs.rows, x.status ≠ .reviewing
  used : ∀ r, r ∈ s.used ↔ r ∈ db.runs.rows.map (·.runId)
  stands : ∀ i, db.Stands i (s.slot i)

theorem represents_empty (defaults : ColumnDefaults) :
    Represents (Db.empty defaults) Leases.initial where
  consistent := consistent_empty defaults
  not_reviewing := by simp [Db.empty]
  used := by simp [Db.empty, Leases.initial]
  stands := by
    intro i
    show ¬ (Db.empty defaults).Taken i
    simp [Db.Taken, Db.empty]

section Stands

variable {db : Db} {s : IssueLeases} (h : Represents db s) {i r : String}
include h

/-- A lock and a blocked run exclude each other. -/
theorem Represents.no_lock_of_blocked {x : AgentRun} (hx : x ∈ db.runs.rows)
    (hs : x.status = .blocked) : ∀ l ∈ db.locks.rows, l.linearIssueId ≠ x.linearIssueId := by
  intro l hl hissue
  obtain ⟨y, hy, -, hyissue, hys⟩ := h.consistent.run_of_lock l hl
  obtain rfl : y = x := eq_of_active db hy hx (by rw [hys]; rfl) (by rw [hs]; rfl)
    (hyissue.trans hissue)
  cases hs.symm.trans hys

theorem Represents.free_iff : s.slot i = .free ↔ ¬ db.Taken i := by
  have hstands := h.stands i
  cases hslot : s.slot i with
  | free =>
      rw [hslot] at hstands
      exact iff_of_true rfl hstands
  | held r e =>
      rw [hslot] at hstands
      obtain ⟨l, hl, hof, -⟩ := hstands
      exact iff_of_false (fun heq => by cases heq)
        (not_not_intro (Or.inl ⟨l, hl, (isOf_iff.1 hof).1⟩))
  | parked r =>
      rw [hslot] at hstands
      obtain ⟨x, hx, -, hissue, hs⟩ := hstands
      exact iff_of_false (fun heq => by cases heq)
        (not_not_intro (Or.inr ⟨x, hx, hissue, by rw [hs]; rfl⟩))

theorem Represents.held_iff {e : Timestamp} : s.slot i = .held r e ↔
    ∃ l ∈ db.locks.rows, l.isOf r i = true ∧ l.expiresAt = e := by
  have hstands := h.stands i
  constructor
  · intro hslot
    rw [hslot] at hstands
    exact hstands
  · rintro ⟨l, hl, hof, rfl⟩
    obtain ⟨rfl, rfl⟩ := isOf_iff.1 hof
    cases hslot : s.slot l.linearIssueId with
    | free => exact absurd (Or.inl ⟨l, hl, rfl⟩) (h.free_iff.1 hslot)
    | held r' e' =>
        rw [hslot] at hstands
        obtain ⟨l', hl', hof', rfl⟩ := hstands
        obtain ⟨hissue, rfl⟩ := isOf_iff.1 hof'
        rw [eq_of_issue db hl' hl hissue]
    | parked r' =>
        rw [hslot] at hstands
        obtain ⟨x, hx, -, hissue, hs⟩ := hstands
        exact absurd hissue.symm (h.no_lock_of_blocked hx hs l hl)

theorem Represents.parked_iff : s.slot i = .parked r ↔
    ∃ x ∈ db.runs.rows, x.runId = r ∧ x.linearIssueId = i ∧ x.status = .blocked := by
  have hstands := h.stands i
  constructor
  · intro hslot
    rw [hslot] at hstands
    exact hstands
  · rintro ⟨x, hx, rfl, rfl, hs⟩
    have hactive : x.status.isActive = true := by rw [hs]; rfl
    cases hslot : s.slot x.linearIssueId with
    | free => exact absurd (Or.inr ⟨x, hx, rfl, hactive⟩) (h.free_iff.1 hslot)
    | held r' e' =>
        obtain ⟨l, hl, hof, -⟩ := h.held_iff.1 hslot
        exact absurd (isOf_iff.1 hof).1 (h.no_lock_of_blocked hx hs l hl)
    | parked r' =>
        rw [hslot] at hstands
        obtain ⟨y, hy, rfl, hissue, hys⟩ := hstands
        rw [eq_of_active db hy hx (by rw [hys]; rfl) hactive hissue]

/-! ## One call -/

/-- A claim meets nothing in its way when its issue is free and its run id is new. -/
theorem Represents.grants_acquire (now : Timestamp) (a : ClaimArgs) (e : Timestamp) :
    Leases.grants now (.acquire a.issueId a.runId e) s = true ↔ db.Free a.runId a.issueId := by
  rw [Leases.grants_acquire_iff, h.free_iff, h.used]
  unfold Db.Free
  simp only [List.mem_map, not_exists, not_and]
  exact And.comm

theorem Represents.grants_renew (now : Timestamp) (e : Timestamp) :
    Leases.grants now (.renew i r e) s = true ↔ ∃ l ∈ db.locks.rows, l.isLive now r i = true := by
  simp only [Leases.grants_renew_iff, h.held_iff, AgentExecutionLock.isLive, Bool.and_eq_true,
    decide_eq_true_eq]
  constructor
  · rintro ⟨e', ⟨l, hl, hof, rfl⟩, hlive⟩
    exact ⟨l, hl, hof, hlive⟩
  · rintro ⟨l, hl, hof, hlive⟩
    exact ⟨l.expiresAt, ⟨l, hl, hof, rfl⟩, hlive⟩

theorem Represents.grants_close (now : Timestamp) (park : Bool) :
    Leases.grants now (.close i r park) s = true ↔ ∃ l ∈ db.locks.rows, l.isOf r i = true := by
  rw [Leases.grants_close_iff]
  constructor
  · rintro ⟨e, he⟩
    obtain ⟨l, hl, hof, -⟩ := h.held_iff.1 he
    exact ⟨l, hl, hof⟩
  · rintro ⟨l, hl, hof⟩
    exact ⟨l.expiresAt, h.held_iff.2 ⟨l, hl, hof, rfl⟩⟩

theorem Represents.grants_expire (now : Timestamp) :
    Leases.grants now (.expire i) s = true ↔
      ∃ l ∈ db.locks.rows, l.linearIssueId = i ∧ l.expiresAt ≤ now := by
  simp only [Leases.grants_expire_iff, h.held_iff]
  constructor
  · rintro ⟨r, e, ⟨l, hl, hof, rfl⟩, hexpired⟩
    exact ⟨l, hl, (isOf_iff.1 hof).1, hexpired⟩
  · rintro ⟨l, hl, rfl, hexpired⟩
    exact ⟨l.runId, l.expiresAt, ⟨l, hl, isOf_iff.2 ⟨rfl, rfl⟩, rfl⟩, hexpired⟩

theorem Represents.grants_unpark (now : Timestamp) :
    Leases.grants now (.unpark i) s = true ↔ ∃ x ∈ db.runs.rows, x.isBlockedOf i = true := by
  simp only [Leases.grants_unpark_iff, h.parked_iff, AgentRun.isBlockedOf, Bool.and_eq_true,
    decide_eq_true_eq]
  constructor
  · rintro ⟨r, x, hx, -, hissue, hs⟩
    exact ⟨x, hx, hissue, hs⟩
  · rintro ⟨x, hx, hissue, hs⟩
    exact ⟨x.runId, x, hx, rfl, hissue, hs⟩

end Stands

theorem isActive_eq_false {status : RunStatus} (hq : status ≠ .queued) (hr : status ≠ .running)
    (hv : status ≠ .reviewing) (hb : status ≠ .blocked) : status.isActive = false := by
  cases status with
  | queued => exact absurd rfl hq
  | running => exact absurd rfl hr
  | reviewing => exact absurd rfl hv
  | blocked => exact absurd rfl hb
  | completed | failed | canceled => rfl

/-- The lease of a lock that ends: parked by a run that is blocked, and free after any other. -/
theorem stands_ended {db db' : Db} {l : AgentExecutionLock} {f : AgentRun → AgentRun}
    (hc : db.Consistent) (hc' : db'.Consistent)
    (hreview : ∀ x ∈ db'.runs.rows, x.status ≠ .reviewing)
    (hl : l ∈ db.locks.rows)
    (hf : ∀ x, (f x).runId = x.runId ∧ (f x).linearIssueId = x.linearIssueId)
    (hfs : ∀ x, (f x).status ≠ .queued ∧ (f x).status ≠ .running)
    (hruns : db'.runs.rows = db.runs.rows.map fun x => if x.runId = l.runId then f x else x) :
    ((∀ x, (f x).status = .blocked) → db'.Stands l.linearIssueId (.parked l.runId)) ∧
      ((∀ x, (f x).status ≠ .blocked) → db'.Stands l.linearIssueId .free) := by
  obtain ⟨x, hx, hid, hissue, hs⟩ := hc.run_of_lock l hl
  constructor
  · intro hblocked
    refine ⟨f x, ?_, (hf x).1.trans hid, (hf x).2.trans hissue, hblocked x⟩
    rw [hruns, List.mem_map]
    exact ⟨x, hx, if_pos hid⟩
  · intro hnot
    show ¬ db'.Taken l.linearIssueId
    rw [taken_iff_active hc']
    rintro ⟨y, hy, hyissue, hactive⟩
    have hyreview := hreview y hy
    rw [hruns, List.mem_map] at hy
    obtain ⟨z, hz, rfl⟩ := hy
    split at hactive
    · -- the ended run is active no more
      rename_i hzid
      rw [if_pos hzid] at hyreview
      rw [isActive_eq_false (hfs z).1 (hfs z).2 hyreview (hnot z)] at hactive
      cases hactive
    · -- another active run of the issue would be the run of the lock
      rename_i hzid
      rw [if_neg hzid] at hyissue
      obtain rfl : z = x := eq_of_active db hz hx hactive (by rw [hs]; rfl)
        (hyissue.trans hissue.symm)
      exact hzid hid

/-! ## Every call -/

section Calls

variable {db : Db} {s : IssueLeases} (h : Represents db s) {now : Timestamp}
include h

/-- A refused call changes neither. -/
theorem Represents.refused {op : StoreOp} (hanswer : op.answer now db ≠ .ok true) :
    Represents (op.apply now db) s := by
  obtain ⟨hruns, hlocks, -⟩ := refused_tables h.consistent hanswer
  have hstands : ∀ i slot, db.Stands i slot → (op.apply now db).Stands i slot := by
    intro i slot hslot
    cases slot with
    | free =>
        show ¬ (op.apply now db).Taken i
        unfold Db.Taken
        rw [hruns, hlocks]
        exact hslot
    | held r e =>
        obtain ⟨l, hl, hof⟩ := hslot
        exact ⟨l, by rw [hlocks]; exact hl, hof⟩
    | parked r =>
        obtain ⟨x, hx, hrow⟩ := hslot
        exact ⟨x, by rw [hruns]; exact hx, hrow⟩
  refine ⟨consistent_apply h.consistent now op, ?_, fun r => ?_, fun i => hstands i _ (h.stands i)⟩
  · rw [hruns]
    exact h.not_reviewing
  · rw [hruns]
    exact h.used r

/-- A granted call: the issue stands as the request has it, and the others as before. -/
theorem Represents.granted {op : StoreOp} {q : Request String String Timestamp}
    (hissue : q.resource = op.issue)
    (hused : ∀ r, r ∈ (op.apply now db).runs.rows.map (·.runId) ↔
      r ∈ db.runs.rows.map (·.runId) ∨ r ∈ Leases.newOwner q)
    (hstands : (op.apply now db).Stands op.issue (Leases.target q)) :
    Represents (op.apply now db) (Leases.granted q s) := by
  refine ⟨consistent_apply h.consistent now op, not_reviewing_apply h.not_reviewing now op,
    fun r => ?_, fun i => ?_⟩
  · rw [Leases.mem_used_granted, hused, h.used]
  by_cases hi : i = q.resource
  · rw [hi, Leases.slot_granted_self, hissue]
    exact hstands
  rw [Leases.slot_granted_of_ne hi]
  have hother : op.issue ≠ i := fun heq => hi (heq.symm.trans hissue.symm)
  -- The rows of another issue are those before the call.
  have hruns : ∀ {x}, x ∈ (op.apply now db).runs.rows ∧ x.linearIssueId = i ↔
      x ∈ db.runs.rows ∧ x.linearIssueId = i := by
    intro x
    rw [← mem_runs_only, runs_apply_other h.consistent hother, mem_runs_only]
  have hlocks : ∀ {l}, l ∈ (op.apply now db).locks.rows ∧ l.linearIssueId = i ↔
      l ∈ db.locks.rows ∧ l.linearIssueId = i := by
    intro l
    rw [← mem_locks_only, locks_apply_other h.consistent hother, mem_locks_only]
  have hbefore := h.stands i
  cases hslot : s.slot i with
  | free =>
      rw [hslot] at hbefore
      show ¬ (op.apply now db).Taken i
      rintro (⟨l, hl, hli⟩ | ⟨x, hx, hxi, hactive⟩)
      · exact hbefore (Or.inl ⟨l, hlocks.1 ⟨hl, hli⟩⟩)
      · obtain ⟨hx, -⟩ := hruns.1 ⟨hx, hxi⟩
        exact hbefore (Or.inr ⟨x, hx, hxi, hactive⟩)
  | held r e =>
      rw [hslot] at hbefore
      obtain ⟨l, hl, hof, he⟩ := hbefore
      exact ⟨l, (hlocks.2 ⟨hl, (isOf_iff.1 hof).1⟩).1, hof, he⟩
  | parked r =>
      rw [hslot] at hbefore
      obtain ⟨x, hx, hid, hxi, hs⟩ := hbefore
      exact ⟨x, (hruns.2 ⟨hx, hxi⟩).1, hid, hxi, hs⟩

omit h in
/-- Run ids are used by claims only. -/
theorem used_of_not_claim {op : StoreOp} {q : Request String String Timestamp}
    (hop : ∀ a, op ≠ .claim a) (hq : Leases.newOwner q = ∅) (r : String) :
    r ∈ (op.apply now db).runs.rows.map (·.runId) ↔
      r ∈ db.runs.rows.map (·.runId) ∨ r ∈ Leases.newOwner q := by
  rw [map_runId_apply now hop, hq]
  simp

/-- What is to be shown of a call with valid arguments: it is answered as the request is granted,
and where it is, the tables stand for the leases afterwards. -/
theorem Represents.call {op : StoreOp} {q : Request String String Timestamp}
    (hrequest : op.request now = .ok (some q))
    (hyes : Leases.grants now q s = true → op.answer now db = .ok true ∧
      Represents (op.apply now db) (Leases.granted q s))
    (hno : Leases.grants now q s = false → op.answer now db = .ok false) :
    (storeStep db (now, op)).1 = (leaseStep s (now, op)).1 ∧
      Represents (storeStep db (now, op)).2 (leaseStep s (now, op)).2 := by
  have hlease : leaseStep s (now, op) = (.ok (s.step (now, q)).1, (s.step (now, q)).2) := by
    unfold leaseStep
    rw [hrequest]
  rw [hlease]
  rcases Leases.step_cases s (now, q) with ⟨hgrants, hstep⟩ | ⟨hgrants, hstep⟩
  · rw [hstep]
    exact hyes hgrants
  · rw [hstep]
    have hanswer := hno hgrants
    refine ⟨hanswer, h.refused ?_⟩
    rw [hanswer]
    intro heq
    cases heq

/-- A call whose arguments are refused. -/
theorem Represents.call_error {op : StoreOp} {e : SqlError} (hrequest : op.request now = .error e)
    (hrun : op.txn now db = .error e) :
    (storeStep db (now, op)).1 = (leaseStep s (now, op)).1 ∧
      Represents (storeStep db (now, op)).2 (leaseStep s (now, op)).2 := by
  have hlease : leaseStep s (now, op) = (.error e, s) := by
    unfold leaseStep
    rw [hrequest]
  have hanswer := op.answer_error hrun
  rw [hlease]
  refine ⟨hanswer, h.refused ?_⟩
  rw [hanswer]
  intro heq
  cases heq

theorem Represents.claim (a : ClaimArgs) :
    (storeStep db (now, .claim a)).1 = (leaseStep s (now, .claim a)).1 ∧
      Represents (storeStep db (now, .claim a)).2 (leaseStep s (now, .claim a)).2 := by
  cases httl : validTtl a.ttlSeconds with
  | false => exact h.call_error (by simp [StoreOp.request, httl]) (claim_of_ttl httl)
  | true =>
      have hgrants := h.grants_acquire now a (now + seconds a.ttlSeconds)
      refine h.call (q := .acquire a.issueId a.runId (now + seconds a.ttlSeconds))
        (by simp only [StoreOp.request, httl, if_true]) (fun hyes => ?_) fun hno => ?_
      · obtain ⟨db', hrun, hruns, hlocks, -⟩ := @claim_of_free now db a httl (hgrants.1 hyes)
        have happly : (StoreOp.claim a).apply now db = db' := StoreOp.apply_ok (.claim a) hrun
        refine ⟨StoreOp.answer_ok (.claim a) hrun, h.granted rfl (fun r => ?_) ?_⟩
        · rw [happly, hruns, List.map_append, List.mem_append]
          simp [Leases.newOwner, AgentRun.running, ClaimArgs.queuedRun]
        · rw [happly]
          refine ⟨a.lock now (db.defaults.lockHeartbeatAt now), ?_, isOf_iff.2 ⟨rfl, rfl⟩, rfl⟩
          rw [hlocks]
          simp
      · refine StoreOp.answer_ok (.claim a) (claim_of_not_free httl fun hfree => ?_)
        rw [hgrants.2 hfree] at hno
        cases hno

theorem Represents.heartbeat (r i : String) (ttl : Int) :
    (storeStep db (now, .heartbeat r i ttl)).1 = (leaseStep s (now, .heartbeat r i ttl)).1 ∧
      Represents (storeStep db (now, .heartbeat r i ttl)).2
        (leaseStep s (now, .heartbeat r i ttl)).2 := by
  cases httl : validTtl ttl with
  | false => exact h.call_error (by simp [StoreOp.request, httl]) (heartbeat_of_ttl httl)
  | true =>
      have hgrants := h.grants_renew (i := i) (r := r) now (now + seconds ttl)
      refine h.call (q := .renew i r (now + seconds ttl))
        (by simp only [StoreOp.request, httl, if_true]) (fun hyes => ?_) fun hno => ?_
      · obtain ⟨l, hl, hlive⟩ := hgrants.1 hyes
        obtain ⟨db', hrun, -, hlocks, -⟩ := heartbeat_of_live h.consistent httl hl hlive
        refine ⟨StoreOp.answer_ok (.heartbeat r i ttl) hrun,
          h.granted rfl (used_of_not_claim (fun a heq => by cases heq) rfl) ?_⟩
        rw [StoreOp.apply_ok (.heartbeat r i ttl) hrun]
        refine ⟨l.extended now ttl, ?_, (Bool.and_eq_true_iff.1 hlive).1, rfl⟩
        rw [hlocks, List.mem_map]
        exact ⟨l, hl, if_pos hlive⟩
      · refine StoreOp.answer_ok (.heartbeat r i ttl) (heartbeat_of_not_live httl fun l hl => ?_)
        by_contra hlive
        rw [hgrants.2 ⟨l, hl, by simpa using hlive⟩] at hno
        cases hno

theorem Represents.finish (r i text : String) (arg : JsonArg) :
    (storeStep db (now, .finish r i text arg)).1 = (leaseStep s (now, .finish r i text arg)).1 ∧
      Represents (storeStep db (now, .finish r i text arg)).2
        (leaseStep s (now, .finish r i text arg)).2 := by
  cases hstatus : finalStatus text with
  | none =>
      refine h.call_error (e := .raised "Invalid final status")
        (by simp [StoreOp.request, hstatus]) ?_
      show hermesFinishRun now r i text arg db = _
      unfold hermesFinishRun
      rw [hstatus]
      rfl
  | some status =>
  cases hfields : finishFields arg with
  | none =>
      refine h.call_error (e := .raised "p_fields must be a JSON object")
        (by simp [StoreOp.request, hstatus, hfields]) ?_
      show hermesFinishRun now r i text arg db = _
      unfold hermesFinishRun
      rw [hstatus, hfields]
      rfl
  | some fields =>
      have hgrants := h.grants_close (i := i) (r := r) now (status = .blocked)
      refine h.call (q := .close i r (status = .blocked))
        (by simp only [StoreOp.request, hstatus, hfields]) (fun hyes => ?_) fun hno => ?_
      · obtain ⟨l, hl, hof⟩ := hgrants.1 hyes
        obtain ⟨db', hrun, hruns, -, -⟩ :=
          @finish_of_lock now db h.consistent r i text arg status fields hstatus hfields l hl hof
        obtain ⟨rfl, rfl⟩ := isOf_iff.1 hof
        have happly := StoreOp.apply_ok (.finish l.runId l.linearIssueId text arg) hrun
        refine ⟨StoreOp.answer_ok (.finish l.runId l.linearIssueId text arg) hrun,
          h.granted rfl (used_of_not_claim (fun a heq => by cases heq) rfl) ?_⟩
        have hended := stands_ended (f := fun x => x.finished now status fields) h.consistent
          (consistent_apply h.consistent now (.finish l.runId l.linearIssueId text arg))
          (not_reviewing_apply h.not_reviewing now (.finish l.runId l.linearIssueId text arg)) hl
          (fun x => ⟨rfl, rfl⟩) (fun x => ⟨(finalStatus_not_active hstatus).1,
            (finalStatus_not_active hstatus).2.1⟩)
          (by rw [happly, hruns]; exact map_finishable h.consistent hl _)
        by_cases hblocked : status = .blocked
        · rw [decide_eq_true hblocked]
          exact hended.1 fun x => hblocked
        · rw [decide_eq_false hblocked]
          exact hended.2 fun x => hblocked
      · refine StoreOp.answer_ok (.finish r i text arg) (finish_of_no_lock (by rw [hstatus]; rfl)
          (by rw [hfields]; rfl) fun l hl => ?_)
        by_contra hof
        rw [hgrants.2 ⟨l, hl, by simpa using hof⟩] at hno
        cases hno

theorem Represents.recover (i : String) :
    (storeStep db (now, .recover i)).1 = (leaseStep s (now, .recover i)).1 ∧
      Represents (storeStep db (now, .recover i)).2 (leaseStep s (now, .recover i)).2 := by
  have hgrants := h.grants_expire (i := i) now
  refine h.call rfl (fun hyes => ?_) fun hno => ?_
  · obtain ⟨l, hl, rfl, hexpired⟩ := hgrants.1 hyes
    obtain ⟨db', hrun, hruns, -, -⟩ := recover_of_expired hl rfl hexpired
    have happly := StoreOp.apply_ok (.recover l.linearIssueId) hrun
    refine ⟨StoreOp.answer_ok (.recover l.linearIssueId) hrun,
      h.granted rfl (used_of_not_claim (fun a heq => by cases heq) rfl) ?_⟩
    have hended := stands_ended (f := fun x => x.expired now) h.consistent
      (consistent_apply h.consistent now (.recover l.linearIssueId))
      (not_reviewing_apply h.not_reviewing now (.recover l.linearIssueId)) hl
      (fun x => ⟨rfl, rfl⟩) (fun x => by simp [AgentRun.expired])
      (by rw [happly, hruns]; exact map_abandoned h.consistent hl _)
    exact hended.2 fun x => by simp [AgentRun.expired]
  · refine StoreOp.answer_ok (.recover i) (recover_of_live fun l hl hissue => ?_)
    by_contra hexpired
    rw [hgrants.2 ⟨l, hl, hissue, Nat.le_of_not_lt hexpired⟩] at hno
    cases hno

theorem Represents.release (i : String) :
    (storeStep db (now, .release i)).1 = (leaseStep s (now, .release i)).1 ∧
      Represents (storeStep db (now, .release i)).2 (leaseStep s (now, .release i)).2 := by
  have hgrants := h.grants_unpark (i := i) now
  obtain ⟨runs, hrun, hrows⟩ := release_apply now i db
  have hanswer : (StoreOp.release i).answer now db =
      .ok (db.runs.rows.any fun x => x.isBlockedOf i) := StoreOp.answer_ok (.release i) hrun
  refine h.call rfl (fun hyes => ?_) fun hno => ?_
  · obtain ⟨x, hx, hblocked⟩ := hgrants.1 hyes
    refine ⟨hanswer.trans (congrArg _ (List.any_eq_true.2 ⟨x, hx, hblocked⟩)),
      h.granted rfl (used_of_not_claim (fun a heq => by cases heq) rfl) ?_⟩
    show ¬ ((StoreOp.release i).apply now db).Taken i
    rw [taken_iff_active (consistent_apply h.consistent now (.release i)),
      StoreOp.apply_ok (.release i) hrun, hrows]
    rintro ⟨y, hy, hyissue, hactive⟩
    obtain ⟨z, hz, rfl⟩ := List.mem_map.1 hy
    split at hactive
    · cases hactive
    · -- another active run of the issue would be the blocked one
      rename_i hnot
      rw [if_neg hnot] at hyissue
      simp only [AgentRun.isBlockedOf, Bool.and_eq_true, decide_eq_true_eq] at hblocked hnot
      obtain rfl : z = x := eq_of_active db hz hx hactive (by rw [hblocked.2]; rfl)
        (hyissue.trans hblocked.1.symm)
      exact hnot hblocked
  · refine hanswer.trans (congrArg _ ?_)
    by_contra hany
    obtain ⟨x, hx, hblocked⟩ := List.any_eq_true.1 (Bool.eq_true_of_not_eq_false hany)
    rw [hgrants.2 ⟨x, hx, hblocked⟩] at hno
    cases hno

theorem Represents.insertEvent (e : AgentEvent) :
    (storeStep db (now, .insertEvent e)).1 = (leaseStep s (now, .insertEvent e)).1 ∧
      Represents (storeStep db (now, .insertEvent e)).2 (leaseStep s (now, .insertEvent e)).2 := by
  refine ⟨rfl, consistent_apply h.consistent now (.insertEvent e), h.not_reviewing, h.used,
    fun i => ?_⟩
  have hstands := h.stands i
  show ((StoreOp.insertEvent e).apply now db).Stands i (s.slot i)
  cases hslot : s.slot i <;> rw [hslot] at hstands <;> exact hstands

end Calls

/-- **Call by call the tables do what the leases do.** -/
theorem store_simulates : Simulates storeStep leaseStep Represents := by
  intro db s x h
  obtain ⟨now, op⟩ := x
  cases op with
  | claim a => exact h.claim a
  | heartbeat r i ttl => exact h.heartbeat r i ttl
  | finish r i text arg => exact h.finish r i text arg
  | recover i => exact h.recover i
  | release i => exact h.release i
  | insertEvent e => exact h.insertEvent e

/-- **The store is a lease.** Whatever calls are made at whatever times, the tables answer each of
them as the leases do, errors included, and stand for the leases at the end. -/
theorem store_is_lease (defaults : ColumnDefaults) (ops : List (Timestamp × StoreOp)) :
    history storeStep ops (Db.empty defaults) = history leaseStep ops Leases.initial ∧
      Represents (runOps ops (Db.empty defaults)) (final leaseStep ops Leases.initial) :=
  store_simulates.history (represents_empty defaults) ops

/-! ## What callers see -/

/-- A call with its time and its answer. -/
abbrev StoreEntry : Type := (Timestamp × StoreOp) × Except SqlError Bool

/-- The request of a call, if it is one with valid arguments. -/
def requestOf (x : Timestamp × StoreOp) : Option (Timestamp × Request String String Timestamp) :=
  match x.2.request x.1 with
  | .ok (some q) => some (x.1, q)
  | _ => none

/-- A call and its answer as a request and its. -/
def entryOf (e : StoreEntry) : Option (Leases.Entry String String Timestamp) :=
  match requestOf e.1, e.2 with
  | some x, .ok b => some (x, b)
  | _, _ => none

theorem requestOf_eq_some {x : Timestamp × StoreOp}
    {y : Timestamp × Request String String Timestamp} (h : requestOf x = some y) :
    x.2.request x.1 = .ok (some y.2) ∧ y.1 = x.1 := by
  unfold requestOf at h
  split at h
  · rename_i q hq
    cases h
    exact ⟨hq, rfl⟩
  · cases h

theorem entryOf_eq_some {e : StoreEntry} {y : Leases.Entry String String Timestamp}
    (h : entryOf e = some y) : requestOf e.1 = some y.1 ∧ e.2 = .ok y.2 := by
  unfold entryOf at h
  split at h
  · rename_i x b hx hb
    cases h
    exact ⟨hx, hb⟩
  · cases h

/-- The requests of a history of calls are a history of the leases. -/
theorem history_requests (defaults : ColumnDefaults) (ops : List (Timestamp × StoreOp)) :
    (history storeStep ops (Db.empty defaults)).filterMap entryOf =
      history Leases.step (ops.filterMap requestOf) Leases.initial := by
  rw [(store_simulates.history (represents_empty defaults) ops).1]
  refine (history_filterMap (fun s x y hxy => ?_) (fun s x hx => ?_) ops Leases.initial).1
  · obtain ⟨hrequest, htime⟩ := requestOf_eq_some hxy
    have hstep : leaseStep s x = (.ok (s.step y).1, (s.step y).2) := by
      unfold leaseStep
      rw [hrequest, ← htime]
    rw [hstep]
    exact ⟨by simp [entryOf, hxy], rfl⟩
  · refine ⟨by simp [entryOf, hx], ?_⟩
    unfold requestOf at hx
    unfold leaseStep
    split at hx
    · cases hx
    · rename_i hnone
      split
      · rfl
      · rfl
      · rename_i q hq
        exact absurd hq (hnone q)

/-- A call that was answered `true` is an event inserted, or a request that was granted. -/
theorem entryOf_granted {ops : List (Timestamp × StoreOp)} {defaults : ColumnDefaults}
    {e : StoreEntry} (he : e ∈ history storeStep ops (Db.empty defaults)) (hok : e.2 = .ok true) :
    (∃ event, e.1.2 = .insertEvent event) ∨
      ∃ q, e.1.2.request e.1.1 = .ok (some q) ∧ entryOf e = some ((e.1.1, q), true) := by
  rw [(store_simulates.history (represents_empty defaults) ops).1] at he
  obtain ⟨s, hs⟩ := answer_of_mem he
  obtain ⟨⟨now, op⟩, answer⟩ := e
  obtain rfl : answer = .ok true := hok
  cases hrequest : op.request now with
  | error err =>
      unfold leaseStep at hs
      rw [hrequest] at hs
      cases hs
  | ok q =>
      cases q with
      | some q => exact Or.inr ⟨q, rfl, by simp [entryOf, requestOf, hrequest]⟩
      | none => exact Or.inl (insertEvent_of_request hrequest)

/-! ## Histories of calls -/

/-- The call has ended the run `r` of issue `i`: by a finish of its own, or by a recovery. -/
def EndsRun (r i : String) (e : StoreEntry) : Prop :=
  e.2 = .ok true ∧ ((∃ text arg, e.1.2 = .finish r i text arg) ∨ e.1.2 = .recover i)

/-- The call is a finish as blocked. -/
def IsBlocking (e : StoreEntry) : Prop := ∃ r i arg, e.1.2 = .finish r i "blocked" arg

/-- The call has released issue `i`. -/
def FreesIssue (i : String) (e : StoreEntry) : Prop := e.2 = .ok true ∧ e.1.2 = .release i

section Entries

variable {e : StoreEntry} {y : Leases.Entry String String Timestamp} {i r : String}

theorem endsRun_of_entry (he : entryOf e = some y) (h : Leases.Ends i r y) : EndsRun r i e := by
  obtain ⟨hx, hb⟩ := entryOf_eq_some he
  obtain ⟨hrequest, -⟩ := requestOf_eq_some hx
  obtain ⟨htrue, ⟨park, hq⟩ | hq⟩ := h
  · rw [hq] at hrequest
    refine ⟨by rw [hb, htrue], Or.inl ?_⟩
    generalize e.1.2 = op at hrequest
    cases request_cases hrequest
    exact ⟨_, _, rfl⟩
  · rw [hq] at hrequest
    refine ⟨by rw [hb, htrue], Or.inr ?_⟩
    generalize e.1.2 = op at hrequest
    cases request_cases hrequest
    rfl

theorem freesIssue_of_entry (he : entryOf e = some y) (h : Leases.Unparks i y) :
    FreesIssue i e := by
  obtain ⟨hx, hb⟩ := entryOf_eq_some he
  obtain ⟨hrequest, -⟩ := requestOf_eq_some hx
  rw [h.2] at hrequest
  refine ⟨by rw [hb, h.1], ?_⟩
  generalize e.1.2 = op at hrequest
  cases request_cases hrequest
  rfl

theorem parks_of_entry (he : entryOf e = some y) (h : IsBlocking e) : Leases.Parks y := by
  obtain ⟨hx, -⟩ := entryOf_eq_some he
  obtain ⟨hrequest, -⟩ := requestOf_eq_some hx
  obtain ⟨r, i, arg, heq⟩ := h
  rw [heq] at hrequest
  generalize hq : y.1.2 = q at hrequest
  cases request_cases hrequest with
  | finish hstatus =>
      cases hstatus
      exact ⟨i, r, hq⟩

end Entries

section Histories

variable {defaults : ColumnDefaults} {ops : List (Timestamp × StoreOp)}

/-- **Between two granted claims of an issue the first run has been ended.** In every sequence of
calls on the tables as they are created: no two claims that are answered `true` are for one run id;
and where they are for one issue, a finish of the first run or a recovery of the issue has been
answered `true` in between, and after a finish as blocked a release of the issue too. -/
theorem granted_claims_apart {pre mid post : List StoreEntry} {t t' : Timestamp} {a b : ClaimArgs}
    (h : history storeStep ops (Db.empty defaults) =
      pre ++ ((t, .claim a), .ok true) :: (mid ++ ((t', .claim b), .ok true) :: post)) :
    a.runId ≠ b.runId ∧ (a.issueId = b.issueId → ∃ mid₁ e mid₂, mid = mid₁ ++ e :: mid₂ ∧
      EndsRun a.runId a.issueId e ∧ (IsBlocking e → ∃ e' ∈ mid₂, FreesIssue a.issueId e')) := by
  have hclaim : ∀ t (a : ClaimArgs), ((t, .claim a), .ok true) ∈
      history storeStep ops (Db.empty defaults) → entryOf ((t, .claim a), .ok true) =
        some ((t, .acquire a.issueId a.runId (t + seconds a.ttlSeconds)), true) := by
    intro t a hmem
    rcases entryOf_granted hmem rfl with ⟨event, heq⟩ | ⟨q, hrequest, hentry⟩
    · cases heq
    · cases request_cases hrequest
      exact hentry
  have hleases := history_requests defaults ops
  rw [h, List.filterMap_append, List.filterMap_cons_some (hclaim t a (by simp [h])),
    List.filterMap_append, List.filterMap_cons_some (hclaim t' b (by simp [h]))] at hleases
  obtain ⟨hruns, hissue⟩ := Leases.acquired_apart hleases.symm
  refine ⟨hruns, fun heq => ?_⟩
  obtain ⟨low₁, x, low₂, hmid, hends, hparks⟩ := hissue heq
  obtain ⟨mid₁, mid', rfl, -, hrest⟩ := List.filterMap_eq_append_iff.1 hmid
  obtain ⟨skipped, e, mid₂, rfl, -, he, hlow₂⟩ := List.filterMap_eq_cons_iff.1 hrest
  refine ⟨mid₁ ++ skipped, e, mid₂, by simp, endsRun_of_entry he hends, fun hblocking => ?_⟩
  obtain ⟨y, hy, hunparks⟩ := hparks (parks_of_entry he hblocking)
  rw [← hlow₂] at hy
  obtain ⟨e', he', hentry⟩ := List.mem_filterMap.1 hy
  exact ⟨e', he', freesIssue_of_entry hentry hunparks⟩

/-- A claim of issue `LOL-1` for ten minutes. -/
def leaseClaim (runId : String) : ClaimArgs :=
  ⟨runId, "LOL-1", "qualidade", none, none, none, 600⟩

/-- A run that beats once, is recovered, and another run after it. -/
def leaseOps : List (Timestamp × StoreOp) := [
  (0, .claim (leaseClaim "run_1")), (300000000, .heartbeat "run_1" "LOL-1" 600),
  (900000000, .recover "LOL-1"), (900000000, .claim (leaseClaim "run_2"))]

theorem granted_claims_apart_recovered : ∃ mid₁ e mid₂,
    ([((300000000, .heartbeat "run_1" "LOL-1" 600), .ok true),
      ((900000000, .recover "LOL-1"), .ok true)] : List StoreEntry) = mid₁ ++ e :: mid₂ ∧
    EndsRun "run_1" "LOL-1" e := by
  have hhistory : history storeStep leaseOps (Db.empty ⟨fun _ => none, fun _ => none⟩) =
      [] ++ ((0, .claim (leaseClaim "run_1")), .ok true) ::
        ([((300000000, .heartbeat "run_1" "LOL-1" 600), .ok true),
          ((900000000, .recover "LOL-1"), .ok true)] ++
          ((900000000, .claim (leaseClaim "run_2")), .ok true) :: []) := by
    rfl
  obtain ⟨-, hended⟩ := granted_claims_apart hhistory
  obtain ⟨mid₁, e, mid₂, hmid, hends, -⟩ := hended rfl
  exact ⟨mid₁, e, mid₂, hmid, hends⟩

/-- **Heartbeats and finishes are granted within the lease of their run.** In every sequence of
calls on the tables as they are created, a heartbeat or a finish of run `r` for issue `i` that is
answered `true` comes after a claim of this run for this issue that was answered `true`, and
nothing in between has ended the run. -/
theorem granted_within_claim {pre post : List StoreEntry} {t : Timestamp} {op : StoreOp}
    {r i : String} (h : history storeStep ops (Db.empty defaults) =
      pre ++ ((t, op), .ok true) :: post)
    (hop : (∃ ttl, op = .heartbeat r i ttl) ∨ ∃ text arg, op = .finish r i text arg) :
    ∃ pre₁ t' a pre₂, pre = pre₁ ++ ((t', .claim a), .ok true) :: pre₂ ∧ a.runId = r ∧
      a.issueId = i ∧ ∀ e ∈ pre₂, ¬ EndsRun r i e := by
  have hmem : ∀ e ∈ pre, e ∈ history storeStep ops (Db.empty defaults) := by
    intro e he
    rw [h]
    exact List.mem_append_left _ he
  obtain ⟨q, hentry, hholds⟩ : ∃ q, entryOf ((t, op), .ok true) = some ((t, q), true) ∧
      ∀ s : IssueLeases, Leases.grants t q s = true → s.Holds i r := by
    rcases entryOf_granted (e := ((t, op), .ok true)) (by rw [h]; simp) rfl with
      ⟨event, heq⟩ | ⟨q, hrequest, hentry⟩
    · rcases hop with ⟨ttl, rfl⟩ | ⟨text, arg, rfl⟩ <;> cases heq
    · refine ⟨q, hentry, fun s hgrants => ?_⟩
      rcases hop with ⟨ttl, rfl⟩ | ⟨text, arg, rfl⟩
      · cases request_cases hrequest
        obtain ⟨e, he, -⟩ := Leases.grants_renew_iff.1 hgrants
        exact ⟨e, he⟩
      · cases request_cases hrequest
        exact Leases.grants_close_iff.1 hgrants
  have hleases := history_requests defaults ops
  rw [h, List.filterMap_append, List.filterMap_cons_some hentry] at hleases
  obtain ⟨xs₁, xs₂, -, hpre, htrue, -⟩ := history_cut hleases.symm
  have hgrants : Leases.grants t q (final Leases.step xs₁ Leases.initial) = true := by
    rcases Leases.step_cases (final Leases.step xs₁ Leases.initial) (t, q) with
      ⟨hgrants, -⟩ | ⟨-, hstep⟩
    · exact hgrants
    · rw [hstep] at htrue
      cases htrue
  obtain ⟨low₁, t', e, low₂, hlow, hends⟩ := Leases.acquired_of_holds (hholds _ hgrants)
  rw [hpre] at hlow
  obtain ⟨pre₁, pre', rfl, -, hrest⟩ := List.filterMap_eq_append_iff.1 hlow
  obtain ⟨skipped, e', pre₂, rfl, -, he', hlow₂⟩ := List.filterMap_eq_cons_iff.1 hrest
  obtain ⟨hx, hb⟩ := entryOf_eq_some he'
  obtain ⟨hrequest, htime⟩ := requestOf_eq_some hx
  obtain ⟨⟨now, op'⟩, answer⟩ := e'
  obtain rfl : answer = .ok true := hb
  obtain rfl : t' = now := htime
  obtain ⟨a, rfl, hid, hissue⟩ : ∃ a : ClaimArgs, op' = .claim a ∧ a.runId = r ∧ a.issueId = i := by
    cases request_cases hrequest
    exact ⟨_, rfl, rfl, rfl⟩
  refine ⟨pre₁ ++ skipped, t', a, pre₂, by simp, hid, hissue, fun e₂ he₂ hended => ?_⟩
  -- An entry that ends the run would be a request that ends the lease.
  rcases entryOf_granted (hmem e₂ (by simp [he₂])) hended.1 with
    ⟨event, heq⟩ | ⟨q', hrequest', hentry'⟩
  · rcases hended.2 with ⟨text, arg, heq'⟩ | heq' <;> cases heq.symm.trans heq'
  · have hlow : ((e₂.1.1, q'), true) ∈ low₂ := by
      rw [← hlow₂]
      exact List.mem_filterMap.2 ⟨e₂, he₂, hentry'⟩
    refine hends _ hlow ⟨rfl, ?_⟩
    rcases hended.2 with ⟨text, arg, heq'⟩ | heq'
    · rw [heq'] at hrequest'
      cases request_cases hrequest'
      exact Or.inl ⟨_, rfl⟩
    · rw [heq'] at hrequest'
      cases request_cases hrequest'
      exact Or.inr rfl

theorem granted_within_claim_beaten : ∃ pre₁ t' a pre₂,
    ([((0, .claim (leaseClaim "run_1")), .ok true)] : List StoreEntry) =
      pre₁ ++ ((t', .claim a), .ok true) :: pre₂ ∧ a.runId = "run_1" ∧ a.issueId = "LOL-1" := by
  have hhistory : history storeStep leaseOps (Db.empty ⟨fun _ => none, fun _ => none⟩) =
      [((0, .claim (leaseClaim "run_1")), .ok true)] ++
        ((300000000, .heartbeat "run_1" "LOL-1" 600), .ok true) ::
          [((900000000, .recover "LOL-1"), .ok true),
            ((900000000, .claim (leaseClaim "run_2")), .ok true)] := by
    rfl
  obtain ⟨pre₁, t', a, pre₂, hpre, hid, hissue, -⟩ :=
    granted_within_claim hhistory (Or.inl ⟨600, rfl⟩)
  exact ⟨pre₁, t', a, pre₂, hpre, hid, hissue⟩

end Histories

end HermesRuntime
