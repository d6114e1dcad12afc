import HermesRuntime.RefusedCalls

/-!
# The lease is exact

A lock can be extended up to its expiry and recovered from then on. So a run that renews its
lock in time keeps it, whatever else is called, and a recovered issue can be claimed again.

* `heartbeat_true_iff`, `recover_false_iff` — at any instant one of the two goes through.
* `leased_runOps` — the lock through a history of renewals in time.
* `not_taken_runOps` — the issue after its recovery.
* `lease_exact` — all three for the tables after any calls.
-/

namespace HermesRuntime

open Relational Txn

/-! ## One instant -/

section Instant

variable {db : Db} (hc : db.Consistent) {l : AgentExecutionLock} (hl : l ∈ db.locks.rows)
  (now : Timestamp)
include hc hl

theorem heartbeat_true_iff {ttl : Int} (httl : validTtl ttl = true) :
    (StoreOp.heartbeat l.runId l.linearIssueId ttl).answer now db = .ok true ↔
      now < l.expiresAt := by
  rcases heartbeat_cases now l.runId l.linearIssueId ttl db with
    ⟨hbad, -⟩ | ⟨-, hdead, hrun⟩ | ⟨l', hl', hlive, db', hrun, -⟩
  · rw [httl] at hbad
    cases hbad
  · rw [StoreOp.answer_ok (.heartbeat l.runId l.linearIssueId ttl) hrun]
    have hlate := hdead l hl
    rw [AgentExecutionLock.isLive, isOf_iff.2 ⟨rfl, rfl⟩, Bool.true_and,
      decide_eq_false_iff_not] at hlate
    exact iff_of_false (fun heq => Bool.false_ne_true (Except.ok.inj heq)) hlate
  · rw [atWork_of_isLive hc hl' hlive] at hrun
    rw [StoreOp.answer_ok (.heartbeat l.runId l.linearIssueId ttl) hrun]
    rw [AgentExecutionLock.isLive, Bool.and_eq_true, isOf_iff, decide_eq_true_eq] at hlive
    rw [eq_of_issue db hl hl' hlive.1.1.symm]
    exact iff_of_true rfl hlive.2

omit hc in
theorem recover_false_iff :
    (StoreOp.recover l.linearIssueId).answer now db = .ok false ↔ now < l.expiresAt := by
  rcases recover_cases now l.linearIssueId db with
    ⟨hlive, hrun⟩ | ⟨l', hl', hissue, hexp, db', hrun, -⟩
  · rw [StoreOp.answer_ok (.recover l.linearIssueId) hrun]
    exact iff_of_true rfl (hlive l hl rfl)
  · rw [StoreOp.answer_ok (.recover l.linearIssueId) hrun, ← eq_of_issue db hl' hl hissue]
    exact iff_of_false nofun (Nat.not_lt.2 hexp)

omit hc in
theorem claim_not_true {a : ClaimArgs} (ha : a.issueId = l.linearIssueId) :
    (StoreOp.claim a).answer now db ≠ .ok true := by
  rcases claim_cases now a db with ⟨-, hrun⟩ | ⟨-, hfree, -⟩ | ⟨-, -, hrun⟩
  · rw [StoreOp.answer_error (.claim a) hrun]
    exact nofun
  · exact absurd (Or.inl ⟨l, hl, ha.symm⟩) hfree.2
  · rw [StoreOp.answer_ok (.claim a) hrun]
    exact nofun

theorem finish_true {text : String} {arg : JsonArg} (htext : (finalStatus text).isSome)
    (harg : (finishFields arg).isSome) :
    (StoreOp.finish l.runId l.linearIssueId text arg).answer now db = .ok true := by
  rcases finish_cases now l.runId l.linearIssueId text arg db with
    ⟨hbad, -⟩ | ⟨hbad, -⟩ | ⟨-, -, hnone | hnone, -⟩ | ⟨_, _, -, -, _, -, -, _, -, -, db', hrun, -⟩
  · rw [hbad] at htext
    cases htext
  · rw [hbad] at harg
    cases harg
  · have hof := hnone l hl
    rw [isOf_iff.2 ⟨rfl, rfl⟩] at hof
    cases hof
  · obtain ⟨x, hx, hid, hissue, hs⟩ := hc.run_of_lock l hl
    have hfin := hnone x hx
    simp [AgentRun.isFinishable, AgentRun.isAtWork, hid, hissue, hs] at hfin
  · exact StoreOp.answer_ok (.finish l.runId l.linearIssueId text arg) hrun

end Instant

/-! ## Histories -/

/-- `P` holds of every call of a history, in the tables it meets. -/
def Throughout (P : Timestamp → StoreOp → Db → Prop) : List (Timestamp × StoreOp) → Db → Prop
  | [], _ => True
  | (now, op) :: ops, db => P now op db ∧ Throughout P ops (op.apply now db)

/-- The expiry a call gives the lock of `runId` for `issueId`. -/
def renewal (runId issueId : String) (now : Timestamp) : StoreOp → Option Timestamp
  | .heartbeat r i ttl =>
      if r = runId ∧ i = issueId ∧ validTtl ttl = true then some (now + seconds ttl) else none
  | _ => none

/-- The expiry of the last renewal in a history that starts with the lock expiring at `expiry`. -/
def leaseEnd (runId issueId : String) (expiry : Timestamp) (ops : List (Timestamp × StoreOp)) :
    Timestamp :=
  ops.foldl (fun expiry op => (renewal runId issueId op.1 op.2).getD expiry) expiry

/-- Each renewal comes before the one before it expires. -/
def RenewedInTime (runId issueId : String) : Timestamp → List (Timestamp × StoreOp) → Prop
  | _, [] => True
  | expiry, (now, op) :: ops =>
      ((renewal runId issueId now op).isSome → now < expiry) ∧
        RenewedInTime runId issueId ((renewal runId issueId now op).getD expiry) ops

/-- No call finishes the run. -/
def NotFinished (runId issueId : String) : List (Timestamp × StoreOp) → Db → Prop :=
  Throughout fun now op db =>
    ∀ text arg, op = .finish runId issueId text arg → op.answer now db ≠ .ok true

/-- What a lock that has not expired at `now` excludes, and what it allows. -/
structure LeaseKept (runId issueId : String) (now : Timestamp) (db : Db) : Prop where
  no_recover : (StoreOp.recover issueId).answer now db = .ok false
  no_claim : ∀ a : ClaimArgs, a.issueId = issueId → (StoreOp.claim a).answer now db ≠ .ok true
  finish : ∀ text arg, (finalStatus text).isSome → (finishFields arg).isSome →
    (StoreOp.finish runId issueId text arg).answer now db = .ok true

/-! ## The lock through a history -/

/-- The lock of `runId` for `issueId` expires at `expiry`. -/
def Db.Leased (db : Db) (runId issueId : String) (expiry : Timestamp) : Prop :=
  ∃ l ∈ db.locks.rows, l.isOf runId issueId = true ∧ l.expiresAt = expiry

theorem leaseKept_of_leased {db : Db} (hc : db.Consistent) {runId issueId : String}
    {expiry now : Timestamp} (h : db.Leased runId issueId expiry) (hlive : now < expiry) :
    LeaseKept runId issueId now db := by
  obtain ⟨l, hl, hof, rfl⟩ := h
  obtain ⟨rfl, rfl⟩ := isOf_iff.1 hof
  exact ⟨(recover_false_iff hl now).2 hlive, fun a ha => claim_not_true hl now ha,
    fun text arg htext harg => finish_true hc hl now htext harg⟩

theorem leased_of_locks {db db' : Db} {runId issueId : String} {expiry : Timestamp}
    (h : db.Leased runId issueId expiry)
    (hlocks : ∀ l ∈ db.locks.rows, l.isOf runId issueId = true → l.expiresAt = expiry →
      l ∈ db'.locks.rows) : db'.Leased runId issueId expiry := by
  obtain ⟨l, hl, hof, hexp⟩ := h
  exact ⟨l, hlocks l hl hof hexp, hof, hexp⟩

/-- A heartbeat in time extends the lock, and another one leaves it alone. -/
theorem leased_heartbeat {db : Db} {runId issueId r i : String} {expiry now : Timestamp}
    {ttl : Int} (h : db.Leased runId issueId expiry) (hlive : now < expiry) :
    ((StoreOp.heartbeat r i ttl).apply now db).Leased runId issueId
      ((renewal runId issueId now (.heartbeat r i ttl)).getD expiry) := by
  obtain ⟨l, hl, hof, rfl⟩ := h
  have hlive' : l.isLive now runId issueId = true := by
    rw [AgentExecutionLock.isLive, hof, decide_eq_true hlive]
    rfl
  rcases heartbeat_cases now r i ttl db with
    ⟨hbad, hrun⟩ | ⟨-, hdead, hrun⟩ | ⟨-, -, -, db', hrun, -, hlocks, -⟩
  · rw [StoreOp.apply_error (.heartbeat r i ttl) hrun, renewal, if_neg (by simp [hbad])]
    exact ⟨l, hl, hof, rfl⟩
  · have hother : ¬ (r = runId ∧ i = issueId ∧ validTtl ttl = true) := by
      rintro ⟨rfl, rfl, -⟩
      rw [hdead l hl] at hlive'
      cases hlive'
    rw [StoreOp.apply_ok (.heartbeat r i ttl) hrun, renewal, if_neg hother]
    exact ⟨l, hl, hof, rfl⟩
  · have httl : validTtl ttl = true := by
      by_contra hbad
      rw [hermesHeartbeatRun, if_pos (by simpa using hbad), bind_apply] at hrun
      cases hrun
    rw [StoreOp.apply_ok (.heartbeat r i ttl) hrun, renewal]
    refine ⟨if l.isLive now r i then l.extended now ttl else l, ?_, ?_, ?_⟩
    · rw [hlocks, List.mem_map]
      exact ⟨l, hl, rfl⟩
    · split <;> exact hof
    · obtain ⟨rfl, rfl⟩ := isOf_iff.1 hof
      by_cases hsame : r = l.runId ∧ i = l.linearIssueId
      · obtain ⟨rfl, rfl⟩ := hsame
        rw [if_pos hlive', if_pos ⟨rfl, rfl, httl⟩]
        rfl
      · have hother : ¬ l.isLive now r i = true := by
          rw [AgentExecutionLock.isLive, Bool.and_eq_true, isOf_iff]
          exact fun hl' => hsame ⟨hl'.1.2.symm, hl'.1.1.symm⟩
        rw [if_neg hother, if_neg fun hsame' => hsame ⟨hsame'.1, hsame'.2.1⟩]
        rfl

/-- A finish that is not of this lock leaves it alone. -/
theorem leased_finish {db : Db} {runId issueId r i text : String} {expiry now : Timestamp}
    {arg : JsonArg} (h : db.Leased runId issueId expiry)
    (hfin : r = runId → i = issueId →
      (StoreOp.finish r i text arg).answer now db ≠ .ok true) :
    ((StoreOp.finish r i text arg).apply now db).Leased runId issueId expiry := by
  rcases finish_cases now r i text arg db with
    ⟨-, hrun⟩ | ⟨-, hrun⟩ | ⟨-, -, -, hrun⟩ |
      ⟨_, _, -, -, _, -, -, _, -, -, db', hrun, -, hlocks, -⟩
  · rw [StoreOp.apply_error (.finish r i text arg) hrun]
    exact h
  · rw [StoreOp.apply_error (.finish r i text arg) hrun]
    exact h
  · rw [StoreOp.apply_ok (.finish r i text arg) hrun]
    exact h
  · rw [StoreOp.apply_ok (.finish r i text arg) hrun]
    refine leased_of_locks h fun l hl hof _ => ?_
    rw [hlocks, List.mem_filter]
    refine ⟨hl, ?_⟩
    by_contra hgone
    have hof' := isOf_iff.1 (by simpa using hgone : l.isOf r i = true)
    obtain ⟨rfl, rfl⟩ := isOf_iff.1 hof
    exact hfin hof'.2.symm hof'.1.symm (StoreOp.answer_ok (.finish r i text arg) hrun)

/-- A recovery before the expiry leaves the lock alone. -/
theorem leased_recover {db : Db} {runId issueId i : String} {expiry now : Timestamp}
    (h : db.Leased runId issueId expiry) (hlive : now < expiry) :
    ((StoreOp.recover i).apply now db).Leased runId issueId expiry := by
  rcases recover_cases now i db with ⟨-, hrun⟩ | ⟨l', hl', hissue, hexp, db', hrun, -, hlocks, -⟩
  · rw [StoreOp.apply_ok (.recover i) hrun]
    exact h
  · rw [StoreOp.apply_ok (.recover i) hrun]
    refine leased_of_locks h fun l hl hof hl_exp => ?_
    rw [hlocks, List.mem_filter]
    refine ⟨hl, ?_⟩
    -- The recovered lock has expired, and this one has not.
    by_contra hgone
    have hof' := isOf_iff.1 (by simpa using hgone : l.isOf l'.runId i = true)
    rw [eq_of_issue db hl' hl (hissue.trans hof'.1.symm), hl_exp] at hexp
    exact absurd hlive (Nat.not_lt.2 hexp)

/-- **One call before the expiry** keeps the lock, unless it finishes the run, and extends it if
it is a renewal. -/
theorem leased_apply {db : Db} {runId issueId : String} {expiry now : Timestamp} {op : StoreOp}
    (h : db.Leased runId issueId expiry) (hlive : now < expiry)
    (hfin : ∀ text arg, op = .finish runId issueId text arg → op.answer now db ≠ .ok true) :
    (op.apply now db).Leased runId issueId ((renewal runId issueId now op).getD expiry) := by
  cases op with
  | claim a =>
      refine leased_of_locks h fun l hl _ _ => ?_
      rcases claim_cases now a db with ⟨-, hrun⟩ | ⟨-, -, db', hrun, -, hlocks, -⟩ | ⟨-, -, hrun⟩
      · rw [StoreOp.apply_error (.claim a) hrun]
        exact hl
      · rw [StoreOp.apply_ok (.claim a) hrun, hlocks]
        exact List.mem_append_left _ hl
      · rw [StoreOp.apply_ok (.claim a) hrun]
        exact hl
  | heartbeat r i ttl => exact leased_heartbeat h hlive
  | finish r i text arg =>
      exact leased_finish h fun hr hi => by
        obtain rfl := hr
        obtain rfl := hi
        exact hfin text arg rfl
  | recover i => exact leased_recover h hlive
  | release i =>
      obtain ⟨runs, hrun, -⟩ := release_apply now i db
      rw [StoreOp.apply_ok (.release i) hrun]
      exact h
  | insertEvent e => exact h

/-- In a history of renewals in time every call comes before the expiry it meets. -/
theorem lt_of_renewed (ops : List (Timestamp × StoreOp)) {runId issueId : String}
    {expiry t now : Timestamp} (htimes : ∀ u ∈ ops.map Prod.fst ++ [now], t ≤ u)
    (hrenewed : RenewedInTime runId issueId expiry ops)
    (hnow : now < leaseEnd runId issueId expiry ops) : t < expiry := by
  induction ops with
  | nil =>
      have ht := htimes now (by simp)
      exact Nat.lt_of_le_of_lt ht hnow
  | cons op ops ih =>
      obtain ⟨u, op⟩ := op
      cases hren : renewal runId issueId u op with
      | some expiry' =>
          have hu : u < expiry := hrenewed.1 (by rw [hren]; rfl)
          exact Nat.lt_of_le_of_lt (htimes u (by simp)) hu
      | none =>
          have hend : leaseEnd runId issueId expiry ((u, op) :: ops) =
              leaseEnd runId issueId expiry ops := by
            simp [leaseEnd, hren]
          refine ih (fun u' hu' => htimes u' (List.mem_cons_of_mem _ hu')) ?_ (hend ▸ hnow)
          simpa [RenewedInTime, hren] using hrenewed.2

/-- **The lock through a history of renewals in time.** -/
theorem leased_runOps {db : Db} (hc : db.Consistent) {runId issueId : String}
    {expiry now : Timestamp} {ops : List (Timestamp × StoreOp)}
    (h : db.Leased runId issueId expiry) (htimes : (ops.map Prod.fst ++ [now]).Pairwise (· ≤ ·))
    (hrenewed : RenewedInTime runId issueId expiry ops)
    (hnow : now < leaseEnd runId issueId expiry ops) (hfin : NotFinished runId issueId ops db) :
    Throughout (fun t _ db => LeaseKept runId issueId t db) ops db ∧
      LeaseKept runId issueId now (runOps ops db) := by
  induction ops generalizing db expiry with
  | nil => exact ⟨trivial, leaseKept_of_leased hc h hnow⟩
  | cons op ops ih =>
      obtain ⟨t, op⟩ := op
      obtain ⟨hfirst, hrest⟩ := List.pairwise_cons.1 htimes
      have hlive : t < expiry := by
        refine lt_of_renewed ((t, op) :: ops) (fun u hu => ?_) hrenewed hnow
        rcases List.mem_cons.1 hu with rfl | hu
        · exact le_refl _
        · exact hfirst u hu
      obtain ⟨hkept, hlast⟩ := ih (consistent_apply hc t op) (leased_apply h hlive hfin.1) hrest
        hrenewed.2 hnow hfin.2
      exact ⟨⟨leaseKept_of_leased hc h hlive, hkept⟩, hlast⟩

/-! ## The issue after its recovery -/

/-- A recovery that goes through leaves the issue to the next claim. -/
theorem not_taken_recovered {db : Db} (hc : db.Consistent) {issueId : String} {now : Timestamp}
    (h : (StoreOp.recover issueId).answer now db = .ok true) :
    ¬ ((StoreOp.recover issueId).apply now db).Taken issueId := by
  rw [taken_iff_active (consistent_apply hc now _)]
  rintro ⟨y, hy, hissue, hactive⟩
  rcases recover_cases now issueId db with ⟨-, hrun⟩ | ⟨l, hl, rfl, -, db', hrun, hruns, -⟩
  · rw [StoreOp.answer_ok (.recover issueId) hrun] at h
    cases h
  · rw [StoreOp.apply_ok (.recover l.linearIssueId) hrun, hruns, List.mem_map] at hy
    obtain ⟨x, hx, rfl⟩ := hy
    obtain ⟨z, hz, hzid, hzissue, hzs⟩ := hc.run_of_lock l hl
    by_cases hend : x.isAbandoned l.runId = true
    · rw [if_pos hend] at hactive
      cases hactive
    · -- The one active run of the issue is the run of the lock, which the recovery ends.
      rw [if_neg hend] at hissue hactive
      have hxz : x = z :=
        eq_of_active db hx hz hactive (by rw [hzs]; rfl) (hissue.trans hzissue.symm)
      subst hxz
      simp [AgentRun.isAbandoned, AgentRun.isAtWork, hzid, hzs] at hend

/-- **One call** that is no successful claim of the issue leaves it free. -/
theorem not_taken_apply {db : Db} (hc : db.Consistent) {issueId : String} {now : Timestamp}
    {op : StoreOp} (hfree : ¬ db.Taken issueId)
    (hclaim : ∀ a, op = .claim a → a.issueId = issueId → op.answer now db ≠ .ok true) :
    ¬ (op.apply now db).Taken issueId := by
  rw [taken_iff_active (consistent_apply hc now op)]
  rintro ⟨y, hy, hissue, hactive⟩
  have hold : ∀ x ∈ db.runs.rows, x.linearIssueId = issueId → x.status.isActive ≠ true :=
    fun x hx hi ha => hfree (Or.inr ⟨x, hx, hi, ha⟩)
  cases apply_effect hc now op with
  | idle hruns hlocks =>
      rw [hruns] at hy
      exact hold y hy hissue hactive
  | @started a startedAt heartbeatAt hop hruns hlocks =>
      rw [hruns, List.mem_append, List.mem_singleton] at hy
      rcases hy with hy | rfl
      · exact hold y hy hissue hactive
      · -- A refused claim adds no run.
        have hrefused := (refused_tables hc (hclaim a hop hissue)).1
        rw [hrefused] at hruns
        simp at hruns
  | @touched l ttl hop hl hlive hruns hlocks =>
      rw [hruns, List.mem_map] at hy
      obtain ⟨x, hx, rfl⟩ := hy
      refine hold x hx ?_ ?_
      · split at hissue <;> exact hissue
      · split at hactive <;> exact hactive
  | @ended l f hop hl hf hfs hruns hlocks =>
      rw [hruns, List.mem_map] at hy
      obtain ⟨x, hx, rfl⟩ := hy
      by_cases hended : x.runId = l.runId
      · rw [if_pos hended, (hf x).2] at hissue
        obtain ⟨hxl, -⟩ := hc.running_of_lock hl hx hended
        exact hfree (Or.inl ⟨l, hl, hxl.symm.trans hissue⟩)
      · rw [if_neg hended] at hissue hactive
        exact hold x hx hissue hactive
  | @released i hop hruns hlocks =>
      rw [hruns, List.mem_map] at hy
      obtain ⟨x, hx, rfl⟩ := hy
      by_cases hblocked : x.isBlockedOf i = true
      · rw [if_pos hblocked] at hactive
        cases hactive
      · rw [if_neg hblocked] at hissue hactive
        exact hold x hx hissue hactive

/-- No call claims the issue. -/
def NotClaimed (issueId : String) : List (Timestamp × StoreOp) → Db → Prop :=
  Throughout fun now op db =>
    ∀ a, op = .claim a → a.issueId = issueId → op.answer now db ≠ .ok true

theorem not_taken_runOps {db : Db} (hc : db.Consistent) {issueId : String}
    {ops : List (Timestamp × StoreOp)} (hfree : ¬ db.Taken issueId)
    (hclaims : NotClaimed issueId ops db) : ¬ (runOps ops db).Taken issueId := by
  induction ops generalizing db with
  | nil => exact hfree
  | cons op ops ih =>
      exact ih (consistent_apply hc op.1 op.2) (not_taken_apply hc hfree hclaims.1) hclaims.2

/-- A claim of an issue that is not taken goes through for a fresh run. -/
theorem claim_true {db : Db} {a : ClaimArgs} (now : Timestamp)
    (hfree : ¬ db.Taken a.issueId) (hfresh : ∀ x ∈ db.runs.rows, x.runId ≠ a.runId)
    (httl : validTtl a.ttlSeconds = true) : (StoreOp.claim a).answer now db = .ok true := by
  rcases claim_cases now a db with ⟨hbad, -⟩ | ⟨-, -, db', hrun, -⟩ | ⟨-, htaken, -⟩
  · rw [httl] at hbad
    cases hbad
  · exact StoreOp.answer_ok (.claim a) hrun
  · exact absurd ⟨hfresh, hfree⟩ htaken

/-- A claim that goes through leaves its lock. -/
theorem leased_claimed {db : Db} {a : ClaimArgs} {now : Timestamp}
    (h : (StoreOp.claim a).answer now db = .ok true) :
    ((StoreOp.claim a).apply now db).Leased a.runId a.issueId (now + seconds a.ttlSeconds) := by
  rcases claim_cases now a db with ⟨-, hrun⟩ | ⟨-, -, db', hrun, -, hlocks, -⟩ | ⟨-, -, hrun⟩
  · rw [StoreOp.answer_error (.claim a) hrun] at h
    cases h
  · rw [StoreOp.apply_ok (.claim a) hrun]
    exact ⟨_, by rw [hlocks]; exact List.mem_append_right _ (List.mem_singleton_self _),
      isOf_iff.2 ⟨rfl, rfl⟩, rfl⟩
  · rw [StoreOp.answer_ok (.claim a) hrun] at h
    cases h

/-! ## Any calls -/

/-- **The lease is exact.** On the tables after any calls:
a lock can be extended exactly when it cannot be recovered;
a claimed run that renews its lock in time, and is not finished, keeps its issue through every
history, up to the expiry of its last renewal;
and a recovered issue can be claimed by a fresh run, until another claim gets it. -/
theorem lease_exact (defaults : ColumnDefaults) (ops : List (Timestamp × StoreOp)) :
    let db := runOps ops (Db.empty defaults)
    (∀ l ∈ db.locks.rows, ∀ now ttl, validTtl ttl = true →
      ((StoreOp.heartbeat l.runId l.linearIssueId ttl).answer now db = .ok true ↔
        (StoreOp.recover l.linearIssueId).answer now db = .ok false)) ∧
    (∀ t a, (StoreOp.claim a).answer t db = .ok true → ∀ history now,
      (history.map Prod.fst ++ [now]).Pairwise (· ≤ ·) →
      RenewedInTime a.runId a.issueId (t + seconds a.ttlSeconds) history →
      now < leaseEnd a.runId a.issueId (t + seconds a.ttlSeconds) history →
      NotFinished a.runId a.issueId history ((StoreOp.claim a).apply t db) →
      Throughout (fun t' _ db' => LeaseKept a.runId a.issueId t' db') history
          ((StoreOp.claim a).apply t db) ∧
        LeaseKept a.runId a.issueId now (runOps history ((StoreOp.claim a).apply t db))) ∧
    ∀ t issueId, (StoreOp.recover issueId).answer t db = .ok true → ∀ history,
      NotClaimed issueId history ((StoreOp.recover issueId).apply t db) →
      ∀ now a, a.issueId = issueId → validTtl a.ttlSeconds = true →
        (∀ x ∈ (runOps history ((StoreOp.recover issueId).apply t db)).runs.rows,
          x.runId ≠ a.runId) →
        (StoreOp.claim a).answer now
          (runOps history ((StoreOp.recover issueId).apply t db)) = .ok true := by
  intro db
  have hc : db.Consistent := consistent_runOps (consistent_empty defaults) ops
  refine ⟨fun l hl now ttl httl => ?_, fun t a hclaim history now htimes hrenewed hnow hfin => ?_,
    fun t issueId hrecover history hclaims now a hissue httl hfresh => ?_⟩
  · rw [heartbeat_true_iff hc hl now httl, recover_false_iff hl now]
  · exact leased_runOps (consistent_apply hc t _) (leased_claimed hclaim) htimes hrenewed hnow hfin
  · subst hissue
    have hfree := not_taken_runOps (consistent_apply hc t _) (not_taken_recovered hc hrecover)
      hclaims
    exact claim_true now hfree hfresh httl

/-- A run that beats half way through its lease keeps its issue beyond the first expiry. -/
theorem lease_exact_renewed :
    let a : ClaimArgs := ⟨"run_1", "LOL-1", "dev-backend", none, none, none, 600⟩
    let db := (StoreOp.claim a).apply 0 (Db.empty ⟨fun _ => none, fun _ => none⟩)
    LeaseKept "run_1" "LOL-1" 800000000
      (runOps [(300000000, .heartbeat "run_1" "LOL-1" 600)] db) := by
  intro a db
  let defaults : ColumnDefaults := ⟨fun _ => none, fun _ => none⟩
  have hclaim : (StoreOp.claim a).answer 0 (Db.empty defaults) = .ok true :=
    claim_true 0 (by simp [Db.Taken, Db.empty]) (by simp [Db.empty]) (by decide)
  have hrenewed : RenewedInTime "run_1" "LOL-1" (0 + seconds 600)
      [(300000000, .heartbeat "run_1" "LOL-1" 600)] := ⟨fun _ => by decide, trivial⟩
  have hfin : NotFinished "run_1" "LOL-1" [(300000000, .heartbeat "run_1" "LOL-1" 600)] db :=
    ⟨fun _ _ heq => (by cases heq), trivial⟩
  exact ((lease_exact defaults []).2.1 0 a hclaim [(300000000, .heartbeat "run_1" "LOL-1" 600)]
    800000000 (by simp) hrenewed (by decide) hfin).2

end HermesRuntime
