import HermesRuntime.CallBranches
import HermesRuntime.WorldProof

/-!
# Issues are isolated in the store

Two of the statements pick a run by its id alone, so that a call stays within its issue is no
property of the statements: it follows from the invariant that a lock names a run of its own
issue.

* `Db.only` — the store of one issue: its rows and its events.
* `apply_only_other` — a call leaves the stores of the other issues as they were.
* `only_apply` — on the store of its own issue a call does what it does on the whole store. A
  claim whose run id another issue has is the one that looks further.
* `issues_isolated` — both after any calls, and what follows: calls for different issues commute.
-/

namespace HermesRuntime

open Relational Txn

/-! ## The store of one issue -/

/-- The rows and the events of an issue, in a store of their own. -/
def Db.only (issueId : String) (db : Db) : Db where
  runs := db.runs.delete fun x => x.linearIssueId ≠ issueId
  locks := db.locks.delete fun l => l.linearIssueId ≠ issueId
  events := db.events.filter fun e => e.linearIssueId = issueId
  defaults := db.defaults

section Only

variable {db db' : Db} {i j : String} {now : Timestamp}

@[simp] theorem runs_only :
    (db.only i).runs.rows = db.runs.rows.filter fun x => x.linearIssueId = i := by
  simp [Db.only]

@[simp] theorem locks_only :
    (db.only i).locks.rows = db.locks.rows.filter fun l => l.linearIssueId = i := by
  simp [Db.only]

@[simp] theorem events_only :
    (db.only i).events = db.events.filter fun e => e.linearIssueId = i := rfl

@[simp] theorem defaults_only : (db.only i).defaults = db.defaults := rfl

/-- Stores with the same rows are the same. -/
theorem db_ext (hruns : db.runs.rows = db'.runs.rows) (hlocks : db.locks.rows = db'.locks.rows)
    (hevents : db.events = db'.events) (hdefaults : db.defaults = db'.defaults) : db = db' := by
  obtain ⟨runs, locks, events, defaults⟩ := db
  obtain ⟨runs', locks', events', defaults'⟩ := db'
  obtain rfl : runs = runs' := Table.ext hruns
  obtain rfl : locks = locks' := Table.ext hlocks
  obtain rfl : events = events' := hevents
  obtain rfl : defaults = defaults' := hdefaults
  rfl

theorem runs_apply_other (hc : db.Consistent) {op : StoreOp} (hj : op.issue ≠ j) :
    ((op.apply now db).only j).runs.rows = (db.only j).runs.rows := by
  rw [runs_only, runs_only]
  -- a written run of the call's issue is not one of the other
  have hother : ∀ {x y : AgentRun}, x.linearIssueId = op.issue → y.linearIssueId = x.linearIssueId →
      decide (x.linearIssueId = j) = false ∧ decide (y.linearIssueId = j) = false := by
    intro x y hx hy
    rw [hy, hx, decide_eq_false hj]
    exact ⟨rfl, rfl⟩
  cases apply_effect hc now op with
  | idle hruns hlocks => rw [hruns]
  | @started a startedAt heartbeatAt hop hruns hlocks =>
      subst hop
      have hnot : a.issueId ≠ j := hj
      rw [hruns, List.filter_append, List.filter_cons_of_neg, List.filter_nil, List.append_nil]
      exact fun h => hnot (of_decide_eq_true h)
  | touched hop hl hlive hruns hlocks =>
      subst hop
      rw [hruns]
      exact filter_map_other fun x hx hid => hother (hc.running_of_lock hl hx hid).1 rfl
  | @ended l f hop hl hf hfs hruns hlocks =>
      have hissue : op.issue = l.linearIssueId := by
        rcases hop with ⟨text, arg, rfl⟩ | ⟨rfl, -⟩ <;> rfl
      rw [hruns]
      exact filter_map_other fun x hx hid =>
        hother ((hc.running_of_lock hl hx hid).1.trans hissue.symm) (hf x).2
  | released hop hruns hlocks =>
      subst hop
      rw [hruns]
      refine filter_map_other fun x hx hb => hother ?_ rfl
      simp only [AgentRun.isBlockedOf, Bool.and_eq_true, decide_eq_true_eq] at hb
      exact hb.1

theorem locks_apply_other (hc : db.Consistent) {op : StoreOp} (hj : op.issue ≠ j) :
    ((op.apply now db).only j).locks.rows = (db.only j).locks.rows := by
  rw [locks_only, locks_only]
  cases apply_effect hc now op with
  | idle hruns hlocks => rw [hlocks]
  | @started a startedAt heartbeatAt hop hruns hlocks =>
      subst hop
      have hnot : a.issueId ≠ j := hj
      rw [hlocks, List.filter_append, List.filter_cons_of_neg, List.filter_nil, List.append_nil]
      exact fun h => hnot (of_decide_eq_true h)
  | @touched l ttl hop hl hlive hruns hlocks =>
      subst hop
      have hnot : l.linearIssueId ≠ j := hj
      rw [hlocks]
      refine filter_map_other fun l' hl' hlive' => ?_
      simp only [AgentExecutionLock.isLive, Bool.and_eq_true, isOf_iff] at hlive'
      simp [AgentExecutionLock.extended, hlive'.1.1, hnot]
  | @ended l f hop hl hf hfs hruns hlocks =>
      have hissue : op.issue = l.linearIssueId := by
        rcases hop with ⟨text, arg, rfl⟩ | ⟨rfl, -⟩ <;> rfl
      rw [hlocks, List.filter_filter]
      refine List.filter_congr fun l' _ => ?_
      by_cases hl' : l'.linearIssueId = j
      · have hne : j ≠ l.linearIssueId := fun h => hj (hissue.trans h.symm)
        simp [AgentExecutionLock.isOf, hl', hne]
      · simp [hl']
  | released hop hruns hlocks => rw [hlocks]

/-- **Other issues are left alone.** -/
theorem apply_only_other (hc : db.Consistent) {op : StoreOp} (hj : op.issue ≠ j) :
    (op.apply now db).only j = db.only j := by
  obtain ⟨es, hevents, hes⟩ := inserted_events now op db
  refine db_ext (runs_apply_other hc hj) (locks_apply_other hc hj) ?_ (apply_defaults now op db)
  have hnone : es.filter (fun e => e.linearIssueId = j) = [] := by
    refine List.filter_eq_nil_iff.2 fun e he => ?_
    simp [hes e he, hj]
  rw [events_only, events_only, hevents, List.filter_append, hnone, List.append_nil]

theorem mem_runs_only {x : AgentRun} :
    x ∈ (db.only i).runs.rows ↔ x ∈ db.runs.rows ∧ x.linearIssueId = i := by
  rw [runs_only, List.mem_filter, decide_eq_true_eq]

theorem mem_locks_only {l : AgentExecutionLock} :
    l ∈ (db.only i).locks.rows ↔ l ∈ db.locks.rows ∧ l.linearIssueId = i := by
  rw [locks_only, List.mem_filter, decide_eq_true_eq]

theorem consistent_only (hc : db.Consistent) : (db.only i).Consistent where
  run_of_lock := by
    intro l hl
    obtain ⟨hl, hissue⟩ := mem_locks_only.1 hl
    obtain ⟨x, hx, hid, hi, hs⟩ := hc.run_of_lock l hl
    exact ⟨x, mem_runs_only.2 ⟨hx, hi.trans hissue⟩, hid, hi, hs⟩
  lock_of_run := by
    intro x hx hs
    obtain ⟨hx, hissue⟩ := mem_runs_only.1 hx
    obtain ⟨l, hl, hof⟩ := hc.lock_of_run x hx hs
    exact ⟨l, mem_locks_only.2 ⟨hl, (isOf_iff.1 hof).1.trans hissue⟩, hof⟩
  not_queued := fun x hx => hc.not_queued x (mem_runs_only.1 hx).1

/-! ## A call on the store of its issue -/

/-- On the store of its issue the call is answered and writes what it does on the whole store. -/
def StoreOp.Within (now : Timestamp) (op : StoreOp) (db : Db) : Prop :=
  op.answer now (db.only op.issue) = op.answer now db ∧
    op.apply now (db.only op.issue) = (op.apply now db).only op.issue

theorem within_of_error (op : StoreOp) {e : SqlError}
    (h : op.txn now db = .error e) (h' : op.txn now (db.only op.issue) = .error e) :
    op.Within now db := by
  refine ⟨?_, ?_⟩
  · rw [op.answer_error h, op.answer_error h']
  · rw [op.apply_error h, op.apply_error h']

theorem within_of_ok (op : StoreOp) {b : Bool} {db₁ db₂ : Db} (h : op.txn now db = .ok (b, db₁))
    (h' : op.txn now (db.only op.issue) = .ok (b, db₂))
    (hruns : db₂.runs.rows = db₁.runs.rows.filter fun x => x.linearIssueId = op.issue)
    (hlocks : db₂.locks.rows = db₁.locks.rows.filter fun l => l.linearIssueId = op.issue)
    (hevents : db₂.events = db₁.events.filter fun e => e.linearIssueId = op.issue) :
    op.Within now db := by
  have hd := apply_defaults now op (db.only op.issue)
  rw [op.apply_ok h', defaults_only, ← apply_defaults now op db, op.apply_ok h] at hd
  refine ⟨?_, ?_⟩
  · rw [op.answer_ok h, op.answer_ok h']
  · rw [op.apply_ok h, op.apply_ok h']
    exact db_ext (by rw [runs_only, hruns]) (by rw [locks_only, hlocks]) hevents hd

/-- A call that changes nothing. -/
theorem within_of_same (op : StoreOp) {b : Bool} (h : op.txn now db = .ok (b, db))
    (h' : op.txn now (db.only op.issue) = .ok (b, db.only op.issue)) : op.Within now db :=
  within_of_ok op h h' runs_only locks_only rfl

theorem taken_only : (db.only i).Taken i ↔ db.Taken i := by
  unfold Db.Taken
  simp only [mem_locks_only, mem_runs_only]
  constructor
  · rintro (⟨l, ⟨hl, -⟩, hi⟩ | ⟨x, ⟨hx, -⟩, hx'⟩)
    · exact Or.inl ⟨l, hl, hi⟩
    · exact Or.inr ⟨x, hx, hx'⟩
  · rintro (⟨l, hl, hi⟩ | ⟨x, hx, hx'⟩)
    · exact Or.inl ⟨l, ⟨hl, hi⟩, hi⟩
    · exact Or.inr ⟨x, ⟨hx, hx'.1⟩, hx'⟩

theorem holder_only : (db.only i).holder i = db.holder i := by
  have hactive : (db.only i).activeRuns i = db.activeRuns i := by
    unfold Db.activeRuns
    rw [runs_only, List.filter_filter]
    congr 1
    refine List.filter_congr fun x _ => ?_
    by_cases hx : x.linearIssueId = i <;> simp [hx]
  unfold Db.holder
  rw [hactive, locks_only, List.find?_filter]
  simp

theorem rejectEvents_only {a : ClaimArgs} :
    (db.only a.issueId).rejectEvents a = db.rejectEvents a := by
  unfold Db.rejectEvents
  rw [holder_only]

theorem within_claim {a : ClaimArgs} (httl : validTtl a.ttlSeconds = true)
    (hown : ∀ x ∈ db.runs.rows, x.runId = a.runId → x.linearIssueId = a.issueId) :
    (StoreOp.claim a).Within now db := by
  have hfree_iff : (db.only a.issueId).Free a.runId a.issueId ↔ db.Free a.runId a.issueId := by
    unfold Db.Free
    rw [taken_only]
    refine and_congr_left fun _ => ?_
    simp only [mem_runs_only]
    exact ⟨fun h x hx hid => h x ⟨hx, hown x hx hid⟩ hid, fun h x hx => h x hx.1⟩
  by_cases hfree : db.Free a.runId a.issueId
  · obtain ⟨db₁, h, hruns, hlocks, hevents⟩ := @claim_of_free now _ _ httl hfree
    obtain ⟨db₂, h', hruns', hlocks', hevents'⟩ := @claim_of_free now _ _ httl (hfree_iff.2 hfree)
    refine within_of_ok _ h h' ?_ ?_ ?_
    · rw [hruns', hruns, runs_only, filter_append_own]
      · rfl
      · intro x hx
        rw [List.mem_singleton.1 hx]
        exact decide_eq_true rfl
    · rw [hlocks', hlocks, locks_only, filter_append_own]
      · rfl
      · intro l hl
        rw [List.mem_singleton.1 hl]
        exact decide_eq_true rfl
    · rw [hevents', hevents, filter_append_own]
      · rfl
      · exact fun e he => decide_eq_true (issue_of_startEvents he)
  · have h := @claim_of_not_free now _ _ httl hfree
    have h' := @claim_of_not_free now _ _ httl (mt hfree_iff.1 hfree)
    refine within_of_ok _ h h' runs_only locks_only ?_
    refine Eq.trans ?_
      (filter_append_own fun e he => decide_eq_true (issue_of_rejectEvents he)).symm
    show (db.only a.issueId).events ++ (db.only a.issueId).rejectEvents a = _
    rw [rejectEvents_only, events_only]

theorem isLive_only {r : String} {l : AgentExecutionLock} (hlive : l.isLive now r i = true) :
    l ∈ (db.only i).locks.rows ↔ l ∈ db.locks.rows := by
  simp only [AgentExecutionLock.isLive, Bool.and_eq_true, isOf_iff] at hlive
  rw [mem_locks_only]
  exact and_iff_left hlive.1.1

theorem within_heartbeat (hc : db.Consistent) {r : String} {ttl : Int} :
    (StoreOp.heartbeat r i ttl).Within now db := by
  by_cases httl : validTtl ttl
  · by_cases hlive : ∃ l ∈ db.locks.rows, l.isLive now r i = true
    · obtain ⟨l, hl, hlive⟩ := hlive
      obtain ⟨db₁, h, hruns, hlocks, hevents⟩ := heartbeat_of_live hc httl hl hlive
      obtain ⟨db₂, h', hruns', hlocks', hevents'⟩ :=
        heartbeat_of_live (consistent_only hc) httl ((isLive_only hlive).2 hl) hlive
      refine within_of_ok _ h h' ?_ ?_ ?_
      · rw [hruns', hruns, runs_only]
        refine (filter_map_own fun x => ?_).symm
        split <;> rfl
      · rw [hlocks', hlocks, locks_only]
        refine (filter_map_own fun l' => ?_).symm
        split <;> rfl
      · rw [hevents', hevents]
        rfl
    · have hnone : ∀ l ∈ db.locks.rows, l.isLive now r i = false := by
        simpa using hlive
      exact within_of_same (.heartbeat r i ttl) (heartbeat_of_not_live httl hnone)
        (heartbeat_of_not_live httl fun l hl => hnone l (mem_locks_only.1 hl).1)
  · have hbad : validTtl ttl = false := by simpa using httl
    exact within_of_error (.heartbeat r i ttl) (heartbeat_of_ttl hbad) (heartbeat_of_ttl hbad)

/-- The locks a call for an issue writes to are all in its store. -/
theorem filter_isOf {r : String} :
    (db.only i).locks.rows.filter (fun l => !l.isOf r i) =
      (db.locks.rows.filter fun l => !l.isOf r i).filter fun l => l.linearIssueId = i := by
  rw [locks_only, List.filter_filter, List.filter_filter]
  exact List.filter_congr fun l _ => Bool.and_comm _ _

theorem within_finish (hc : db.Consistent) {r text : String} {arg : JsonArg} :
    (StoreOp.finish r i text arg).Within now db := by
  cases hstatus : finalStatus text with
  | none =>
      have herror : ∀ db : Db, hermesFinishRun now r i text arg db =
          .error (.raised "Invalid final status") := by
        intro db
        unfold hermesFinishRun
        rw [hstatus]
        rfl
      exact within_of_error (.finish r i text arg) (herror _) (herror _)
  | some status =>
  cases hfields : finishFields arg with
  | none =>
      have herror : ∀ db : Db, hermesFinishRun now r i text arg db =
          .error (.raised "p_fields must be a JSON object") := by
        intro db
        unfold hermesFinishRun
        rw [hstatus, hfields]
        rfl
      exact within_of_error (.finish r i text arg) (herror _) (herror _)
  | some fields =>
      by_cases hlock : ∃ l ∈ db.locks.rows, l.isOf r i = true
      · obtain ⟨l, hl, hof⟩ := hlock
        have hl' : l ∈ (db.only i).locks.rows := mem_locks_only.2 ⟨hl, (isOf_iff.1 hof).1⟩
        obtain ⟨db₁, h, hruns, hlocks, hevents⟩ := finish_of_lock hc hstatus hfields hl hof
        obtain ⟨db₂, h', hruns', hlocks', hevents'⟩ :=
          finish_of_lock (consistent_only hc) hstatus hfields hl' hof
        refine within_of_ok (.finish r i text arg) h h' ?_ ?_ ?_
        · rw [hruns', hruns, runs_only]
          refine (filter_map_own fun x => ?_).symm
          split <;> rfl
        · rw [hlocks', hlocks, filter_isOf]
          rfl
        · rw [hevents', hevents, filter_append_own]
          · rfl
          · exact fun e he => decide_eq_true (issue_of_finishEvents he)
      · have hnone : ∀ l ∈ db.locks.rows, l.isOf r i = false := by
          simpa using hlock
        have hs : (finalStatus text).isSome := by rw [hstatus]; rfl
        have hf : (finishFields arg).isSome := by rw [hfields]; rfl
        exact within_of_same (.finish r i text arg) (finish_of_no_lock hs hf hnone)
          (finish_of_no_lock hs hf fun l hl => hnone l (mem_locks_only.1 hl).1)

theorem within_recover : (StoreOp.recover i).Within now db := by
  by_cases hexp : ∃ l ∈ db.locks.rows, l.linearIssueId = i ∧ l.expiresAt ≤ now
  · obtain ⟨l, hl, hi, hexpired⟩ := hexp
    obtain ⟨db₁, h, hruns, hlocks, hevents⟩ := recover_of_expired hl hi hexpired
    obtain ⟨db₂, h', hruns', hlocks', hevents'⟩ :=
      recover_of_expired (mem_locks_only.2 ⟨hl, hi⟩) hi hexpired
    refine within_of_ok (.recover i) h h' ?_ ?_ ?_
    · rw [hruns', hruns, runs_only]
      refine (filter_map_own fun x => ?_).symm
      split <;> rfl
    · rw [hlocks', hlocks, filter_isOf]
      rfl
    · rw [hevents', hevents, filter_append_own]
      · rfl
      · exact fun e he => decide_eq_true (issue_of_recoverEvents he)
  · have hlive : ∀ l ∈ db.locks.rows, l.linearIssueId = i → now < l.expiresAt :=
      fun l hl hi => Nat.lt_of_not_le fun hle => hexp ⟨l, hl, hi, hle⟩
    exact within_of_same (.recover i) (recover_of_live hlive)
      (recover_of_live fun l hl => hlive l (mem_locks_only.1 hl).1)

theorem within_release : (StoreOp.release i).Within now db := by
  obtain ⟨runs, h, hruns⟩ := release_apply now i db
  obtain ⟨runs', h', hruns'⟩ := release_apply now i (db.only i)
  have hany : ((db.only i).runs.rows.any fun x => x.isBlockedOf i) =
      db.runs.rows.any fun x => x.isBlockedOf i := by
    rw [runs_only, List.any_filter]
    congr 1
    funext x
    by_cases hx : x.linearIssueId = i <;> simp [AgentRun.isBlockedOf, hx]
  rw [hany] at h'
  refine within_of_ok (.release i) h h' ?_ locks_only rfl
  show runs'.rows = runs.rows.filter _
  rw [hruns', hruns, runs_only]
  refine (filter_map_own fun x => ?_).symm
  split <;> rfl

/-- A claim, with a TTL it is not refused for, of a run id another issue has. -/
def StoreOp.Clashes (db : Db) (op : StoreOp) : Prop :=
  ∃ a, op = .claim a ∧ validTtl a.ttlSeconds = true ∧ ∃ j, j ≠ a.issueId ∧ db.HasRun a.runId j

/-- **A call does not see other issues**, a claim of a run id that one of them has apart. -/
theorem only_apply (hc : db.Consistent) {op : StoreOp} (hclash : ¬ op.Clashes db) :
    op.Within now db := by
  cases op with
  | claim a =>
      by_cases httl : validTtl a.ttlSeconds
      · refine within_claim httl fun x hx hid => ?_
        by_contra hissue
        exact hclash ⟨a, rfl, httl, _, hissue, x, hx, hid, rfl⟩
      · have hbad : validTtl a.ttlSeconds = false := by simpa using httl
        exact within_of_error (.claim a) (claim_of_ttl hbad) (claim_of_ttl hbad)
  | heartbeat r i ttl => exact within_heartbeat hc
  | finish r i text arg => exact within_finish hc
  | recover i => exact within_recover
  | release i => exact within_release
  | insertEvent e =>
      refine within_of_ok (.insertEvent e) rfl rfl runs_only locks_only ?_
      refine (filter_append_own fun e' he => ?_).symm
      rw [List.mem_singleton.1 he]
      exact decide_eq_true rfl

/-- A claim of a run id another issue has writes nothing but the event of its rejection. -/
theorem claim_clashes {op : StoreOp} (h : op.Clashes db) : op.answer now db = .ok false ∧
    ∃ a, op = .claim a ∧
      op.apply now db = { db with events := db.events ++ db.rejectEvents a } := by
  obtain ⟨a, rfl, httl, -, -, x, hx, hid, -⟩ := h
  have hrun := @claim_of_not_free now db a httl fun hfree => hfree.1 x hx hid
  exact ⟨StoreOp.answer_ok (.claim a) hrun, a, rfl, StoreOp.apply_ok (.claim a) hrun⟩

theorem only_rejected {a : ClaimArgs} :
    Db.only a.issueId { db with events := db.events ++ db.rejectEvents a } =
      { db.only a.issueId with
        events := (db.only a.issueId).events ++ (db.only a.issueId).rejectEvents a } := by
  refine db_ext rfl rfl ?_ rfl
  rw [rejectEvents_only]
  exact filter_append_own fun e he => decide_eq_true (issue_of_rejectEvents he)

/-- What a call is answered, and what it does to its issue, depends on the store of the issue and
on whether it claims a run id of another one. -/
theorem apply_congr (hc : db.Consistent) (hc' : db'.Consistent) {op : StoreOp}
    (hown : db.only op.issue = db'.only op.issue) (hclash : op.Clashes db ↔ op.Clashes db') :
    op.answer now db = op.answer now db' ∧
      (op.apply now db).only op.issue = (op.apply now db').only op.issue := by
  by_cases h : op.Clashes db
  · obtain ⟨hanswer, a, rfl, happly⟩ := @claim_clashes _ now _ h
    obtain ⟨hanswer', a', heq, happly'⟩ := @claim_clashes _ now _ (hclash.1 h)
    cases heq
    refine ⟨hanswer.trans hanswer'.symm, ?_⟩
    have howns : db.only a.issueId = db'.only a.issueId := hown
    rw [happly, happly']
    show Db.only a.issueId _ = Db.only a.issueId _
    rw [only_rejected, only_rejected, howns]
  · obtain ⟨hanswer, happly⟩ := @only_apply _ now hc _ h
    obtain ⟨hanswer', happly'⟩ := @only_apply _ now hc' _ (mt hclash.2 h)
    rw [← hanswer, ← hanswer', ← happly, ← happly', hown]
    exact ⟨rfl, rfl⟩

/-! ## Calls for different issues -/

/-- A run there is after a call was there before, unless the call claims it. -/
theorem hasRun_of_apply (hc : db.Consistent) {op : StoreOp} {r : String}
    (h : (op.apply now db).HasRun r i) : db.HasRun r i ∨ ∃ a, op = .claim a ∧ a.runId = r := by
  obtain ⟨y, hy, rfl, rfl⟩ := h
  cases apply_effect hc now op with
  | idle hruns hlocks => exact Or.inl ⟨y, by rw [← hruns]; exact hy, rfl, rfl⟩
  | @started a startedAt heartbeatAt hop hruns hlocks =>
      rw [hruns, List.mem_append, List.mem_singleton] at hy
      rcases hy with hy | rfl
      · exact Or.inl ⟨y, hy, rfl, rfl⟩
      · exact Or.inr ⟨a, hop, rfl⟩
  | touched hop hl hlive hruns hlocks =>
      rw [hruns, List.mem_map] at hy
      obtain ⟨x, hx, rfl⟩ := hy
      refine Or.inl ⟨x, hx, ?_⟩
      split <;> exact ⟨rfl, rfl⟩
  | ended hop hl hf hfs hruns hlocks =>
      rw [hruns, List.mem_map] at hy
      obtain ⟨x, hx, rfl⟩ := hy
      refine Or.inl ⟨x, hx, ?_⟩
      split
      · exact ⟨(hf x).1.symm, (hf x).2.symm⟩
      · exact ⟨rfl, rfl⟩
  | released hop hruns hlocks =>
      rw [hruns, List.mem_map] at hy
      obtain ⟨x, hx, rfl⟩ := hy
      refine Or.inl ⟨x, hx, ?_⟩
      split <;> exact ⟨rfl, rfl⟩

/-- Not two claims of one run id. -/
def StoreOp.Compatible (op op' : StoreOp) : Prop :=
  ∀ a a', op = .claim a → op' = .claim a' → a.runId ≠ a'.runId

theorem StoreOp.Compatible.symm {op op' : StoreOp} (h : op.Compatible op') : op'.Compatible op :=
  fun a a' ha ha' heq => h a' a ha' ha heq.symm

theorem clashes_apply (hc : db.Consistent) {op op' : StoreOp} (h : op.Compatible op') :
    op.Clashes (op'.apply now db) ↔ op.Clashes db := by
  constructor
  · rintro ⟨a, rfl, httl, j, hj, hrun⟩
    rcases hasRun_of_apply hc hrun with hrun | ⟨a', rfl, hid⟩
    · exact ⟨a, rfl, httl, j, hj, hrun⟩
    · exact absurd hid.symm (h a a' rfl rfl)
  · rintro ⟨a, rfl, httl, j, hj, hrun⟩
    exact ⟨a, rfl, httl, j, hj, hasRun_apply hc hrun now op'⟩

/-- Behind another issue's call a call does what it does without it. -/
theorem apply_behind (hc : db.Consistent) {op op' : StoreOp} (hissue : op.issue ≠ op'.issue)
    (h : op.Compatible op') : op.answer now (op'.apply now db) = op.answer now db ∧
      (op.apply now (op'.apply now db)).only op.issue = (op.apply now db).only op.issue :=
  apply_congr (consistent_apply hc now op') hc (apply_only_other hc hissue.symm)
    (clashes_apply hc h)

/-- The two orders agree on every issue. -/
theorem only_swap (hc : db.Consistent) {op op' : StoreOp} (hissue : op.issue ≠ op'.issue)
    (h : op.Compatible op') (k : String) :
    (op'.apply now (op.apply now db)).only k = (op.apply now (op'.apply now db)).only k := by
  have hop := consistent_apply hc now op
  have hop' := consistent_apply hc now op'
  by_cases hk : op.issue = k
  · subst hk
    rw [apply_only_other hop hissue.symm, (apply_behind hc hissue h).2]
  · by_cases hk' : op'.issue = k
    · subst hk'
      rw [(apply_behind hc hissue.symm h.symm).2, apply_only_other hop' hissue]
    · rw [apply_only_other hop hk', apply_only_other hc hk, apply_only_other hop' hk,
        apply_only_other hc hk']

end Only

/-- **Issues are isolated.** On the tables after any calls: a call leaves the rows and the events of
every other issue as they were; what it is answered and does to its own issue is the same on any
tables that have the same rows and events of the issue, unless it claims a run id that another issue
has, which is answered `false`; and two calls for different issues, not both claims of one run id,
are answered alike in either order, leave the same rows, and the events of each issue in the same
order. -/
theorem issues_isolated (defaults : ColumnDefaults) (ops : List (Timestamp × StoreOp))
    (now : Timestamp) :
    let db := runOps ops (Db.empty defaults)
    (∀ (op : StoreOp) (j : String), op.issue ≠ j → (op.apply now db).only j = db.only j) ∧
    (∀ (op : StoreOp) (ops' : List (Timestamp × StoreOp)),
      let db' := runOps ops' (Db.empty defaults)
      db.only op.issue = db'.only op.issue → ¬ op.Clashes db → ¬ op.Clashes db' →
        op.answer now db = op.answer now db' ∧
          (op.apply now db).only op.issue = (op.apply now db').only op.issue) ∧
    (∀ op : StoreOp, op.Clashes db → op.answer now db = .ok false) ∧
    ∀ op op' : StoreOp, op.issue ≠ op'.issue → op.Compatible op' →
      op.answer now (op'.apply now db) = op.answer now db ∧
      op'.answer now (op.apply now db) = op'.answer now db ∧
      (op'.apply now (op.apply now db)).runs.rows.Perm
        (op.apply now (op'.apply now db)).runs.rows ∧
      (op'.apply now (op.apply now db)).locks.rows.Perm
        (op.apply now (op'.apply now db)).locks.rows ∧
      ∀ k, ((op'.apply now (op.apply now db)).events.filter fun e => e.linearIssueId = k) =
        (op.apply now (op'.apply now db)).events.filter fun e => e.linearIssueId = k := by
  intro db
  have hc : db.Consistent := consistent_runOps (consistent_empty defaults) ops
  refine ⟨fun op j hj => apply_only_other hc hj, fun op ops' => ?_,
    fun op hclash => (@claim_clashes db now op hclash).1, fun op op' hissue hcompat => ?_⟩
  · intro db' hown hclash hclash'
    have hc' : db'.Consistent := consistent_runOps (consistent_empty defaults) ops'
    exact apply_congr hc hc' hown (iff_of_false hclash hclash')
  · have hswap := fun k => @only_swap db now hc op op' hissue hcompat k
    refine ⟨(apply_behind hc hissue hcompat).1, (apply_behind hc hissue.symm hcompat.symm).1,
      perm_of_filter_eq AgentRun.linearIssueId fun k => ?_,
      perm_of_filter_eq AgentExecutionLock.linearIssueId fun k => ?_, fun k => ?_⟩
    · rw [← runs_only, ← runs_only, hswap k]
    · rw [← locks_only, ← locks_only, hswap k]
    · rw [← events_only, ← events_only, hswap k]

end HermesRuntime
