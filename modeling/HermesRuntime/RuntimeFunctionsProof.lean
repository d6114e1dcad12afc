import HermesRuntime.RuntimeFunctions

/-!
# The runtime functions: what each call does to the tables

Every function gets one lemma that lists its outcomes (`claim_cases`, `heartbeat_cases`,
`finish_cases`, `recover_cases`). `Effect` is what they have in common, and every invariant of
the store is proved from it.
-/

namespace HermesRuntime

open Relational Txn

/-! ## Running a function body -/

namespace Txn

variable {α β : Type}

@[simp] theorem pure_apply (a : α) (db : Db) : (pure a : Txn α) db = .ok (a, db) := rfl

theorem bind_apply (x : Txn α) (f : α → Txn β) (db : Db) :
    (x >>= f) db = match x db with
      | .ok (a, db') => f a db'
      | .error e => .error e := by
  show (x db >>= fun r => f r.1 r.2) = _
  cases x db <;> rfl

theorem map_apply (f : α → β) (x : Txn α) (db : Db) :
    (f <$> x) db = match x db with
      | .ok (a, db') => .ok (f a, db')
      | .error e => .error e := by
  show (x db >>= fun r => pure (f r.1, r.2)) = _
  cases x db <;> rfl

@[simp] theorem raise_apply (message : String) (db : Db) :
    (raise message : Txn α) db = .error (.raised message) := rfl

@[simp] theorem throw_apply (e : SqlError) (db : Db) : (throw e : Txn α) db = .error e := rfl

@[simp] theorem get_apply (db : Db) : (get : Txn Db) db = .ok (db, db) := rfl

theorem tryCatch_apply (x : Txn α) (h : SqlError → Txn α) (db : Db) :
    (tryCatch x h) db = match x db with
      | .ok r => .ok r
      | .error e => h e db := by
  show tryCatch (x db) (fun e => h e db) = _
  cases x db <;> rfl

@[simp] theorem insertEvents_apply (es : List AgentEvent) (db : Db) :
    insertEvents es db = .ok ((), { db with events := db.events ++ es }) := rfl

@[simp] theorem deleteLocks_apply (p : AgentExecutionLock → Bool) (db : Db) :
    deleteLocks p db = .ok ((), { db with locks := db.locks.delete p }) := rfl

@[simp] theorem selectLock_apply (p : AgentExecutionLock → Bool) (db : Db) :
    selectLock p db = .ok (db.locks.rows.find? p, db) := rfl

end Txn

theorem map_ite_eq_self {α : Type} {p : α → Bool} {f : α → α} {rows : List α}
    (h : ∀ a ∈ rows, p a = false) : (rows.map fun a => if p a then f a else a) = rows := by
  rw [List.map_congr_left (g := id) fun a ha => by simp [h a ha], List.map_id]

/-- An update that matches no row changes nothing. -/
theorem updateRuns_none {p : AgentRun → Bool} {f : AgentRun → AgentRun} (db : Db)
    (h : ∀ x ∈ db.runs.rows, p x = false) : updateRuns p f db = .ok (false, db) := by
  have hany : db.runs.rows.any p = false := by
    rw [List.any_eq_false]
    intro x hx
    simp [h x hx]
  obtain ⟨runs, hruns⟩ := Table.update?_eq_some (t := db.runs) (p := p) (f := f)
    fun x hx hp => absurd hp (by simp [h x hx])
  have heq : runs = db.runs := by
    apply Table.ext
    rw [Table.rows_of_update? hruns, map_ite_eq_self h]
  simp [updateRuns, hruns, heq, hany]

/-- An update that keeps the run ids and activates no run goes through. -/
theorem updateRuns_some {p : AgentRun → Bool} {f : AgentRun → AgentRun} (db : Db)
    (hf : ∀ x ∈ db.runs.rows, p x = true → (f x).keys.Sublist x.keys) :
    ∃ runs, updateRuns p f db = .ok (db.runs.rows.any p, { db with runs }) ∧
      runs.rows = db.runs.rows.map fun x => if p x then f x else x := by
  obtain ⟨runs, hruns⟩ := Table.update?_eq_some hf
  exact ⟨runs, by simp [updateRuns, hruns], Table.rows_of_update? hruns⟩

/-! ## Claims -/

/-- A lock or an active run of the issue, which turns every claim away. -/
def Db.Taken (db : Db) (issueId : String) : Prop :=
  (∃ l ∈ db.locks.rows, l.linearIssueId = issueId) ∨
    ∃ x ∈ db.runs.rows, x.linearIssueId = issueId ∧ x.status.isActive = true

/-- The active runs of an issue, the latest first. -/
def Db.activeRuns (db : Db) (issueId : String) : List AgentRun :=
  (db.runs.rows.filter fun x => x.linearIssueId = issueId && x.status.isActive).insertionSort
    startedLater

theorem mem_activeRuns {db : Db} {issueId : String} {x : AgentRun} :
    x ∈ db.activeRuns issueId ↔
      x ∈ db.runs.rows ∧ x.linearIssueId = issueId ∧ x.status.isActive = true := by
  rw [Db.activeRuns, List.mem_insertionSort, List.mem_filter, Bool.and_eq_true, decide_eq_true_eq]

/-- Whom a rejected claim is reported to: the run and the agent of the lock, or else of the
latest active run. -/
def Db.holder (db : Db) (issueId : String) : Option (String × String) :=
  match db.locks.rows.find? fun l => l.linearIssueId = issueId with
  | some l => some (l.runId, l.agent)
  | none => (db.activeRuns issueId).head?.map fun x => (x.runId, x.agent)

/-- The events of a rejected claim. -/
def Db.rejectEvents (db : Db) (a : ClaimArgs) : List AgentEvent :=
  match db.holder a.issueId with
  | some (run, agent) => [lockRejectedEvent run a.issueId agent a.runId]
  | none => []

/-- Only a taken issue has a holder, which has the lock or is an active run. -/
theorem holder_cases (db : Db) (issueId : String) :
    (¬ db.Taken issueId ∧ db.holder issueId = none) ∨
    ∃ run agent, db.holder issueId = some (run, agent) ∧
      ((∃ l ∈ db.locks.rows, l.linearIssueId = issueId ∧ l.runId = run ∧ l.agent = agent) ∨
        ∃ x ∈ db.runs.rows, x.linearIssueId = issueId ∧ x.status.isActive = true ∧
          x.runId = run ∧ x.agent = agent) := by
  unfold Db.holder
  cases hlock : db.locks.rows.find? fun l => l.linearIssueId = issueId with
  | some l =>
      have hissue : l.linearIssueId = issueId := by simpa using List.find?_some hlock
      exact Or.inr ⟨_, _, rfl, Or.inl ⟨l, List.mem_of_find?_eq_some hlock, hissue, rfl, rfl⟩⟩
  | none =>
      cases hrun : (db.activeRuns issueId).head? with
      | some x =>
          obtain ⟨hx, hissue, hactive⟩ := mem_activeRuns.1 (List.mem_of_head? hrun)
          exact Or.inr ⟨_, _, rfl, Or.inr ⟨x, hx, hissue, hactive, rfl, rfl⟩⟩
      | none =>
          refine Or.inl ⟨?_, rfl⟩
          rintro (⟨l, hl, hissue⟩ | ⟨x, hx, hissue, hactive⟩)
          · simpa [hissue] using List.find?_eq_none.1 hlock l hl
          · have hmem : x ∈ db.activeRuns issueId := mem_activeRuns.2 ⟨hx, hissue, hactive⟩
            rw [List.head?_eq_none_iff.1 hrun] at hmem
            cases hmem

theorem taken_of_holder {db : Db} {issueId run agent : String}
    (h : db.holder issueId = some (run, agent)) : db.Taken issueId := by
  rcases holder_cases db issueId with ⟨-, hnone⟩ | ⟨_, _, -, hl | hx⟩
  · rw [hnone] at h
    cases h
  · obtain ⟨l, hl, hissue, -⟩ := hl
    exact Or.inl ⟨l, hl, hissue⟩
  · obtain ⟨x, hx, hissue, hactive, -⟩ := hx
    exact Or.inr ⟨x, hx, hissue, hactive⟩

theorem rejectClaim_apply (a : ClaimArgs) (db : Db) :
    rejectClaim a db = .ok (false, { db with events := db.events ++ db.rejectEvents a }) := by
  unfold rejectClaim Db.rejectEvents Db.holder
  rw [bind_apply, selectLock_apply]
  cases db.locks.rows.find? fun l => l.linearIssueId = a.issueId with
  | some l => simp [bind_apply, map_apply]
  | none =>
      simp only [bind_apply, selectLatestRun, Db.activeRuns]
      cases ((db.runs.rows.filter fun x => x.linearIssueId = a.issueId && x.status.isActive)
        |>.insertionSort startedLater).head? with
      | none => simp
      | some x => simp [bind_apply]

/-- A claim of run `runId` for the issue would meet nothing in its way. -/
def Db.Free (db : Db) (runId issueId : String) : Prop :=
  (∀ x ∈ db.runs.rows, x.runId ≠ runId) ∧ ¬ db.Taken issueId

theorem insertRun_isSome_iff {a : ClaimArgs} {startedAt : Option Timestamp} {db : Db} :
    (db.runs.insert? (a.queuedRun startedAt)).isSome ↔ ∀ x ∈ db.runs.rows,
      x.runId ≠ a.runId ∧ (x.linearIssueId = a.issueId → x.status.isActive = false) := by
  have hkeys : (a.queuedRun startedAt).keys = [.run a.runId, .activeIssue a.issueId] := rfl
  rw [Table.insert?_isSome_iff (by simp [hkeys]), hkeys]
  refine forall₂_congr fun x _ => ?_
  cases hactive : x.status.isActive <;> simp [AgentRun.keys, hactive]

theorem insertLock_isSome_iff {a : ClaimArgs} {now : Timestamp} {heartbeatAt : Option Timestamp}
    {db : Db} : (db.locks.insert? (a.lock now heartbeatAt)).isSome ↔
      ∀ l ∈ db.locks.rows, l.linearIssueId ≠ a.issueId := by
  have hkeys : (a.lock now heartbeatAt).keys = [a.issueId] := rfl
  rw [Table.insert?_isSome_iff (by simp [hkeys]), hkeys]
  simp [AgentExecutionLock.keys]

theorem free_iff (a : ClaimArgs) (now : Timestamp) (startedAt heartbeatAt : Option Timestamp)
    (db : Db) : db.Free a.runId a.issueId ↔ (db.runs.insert? (a.queuedRun startedAt)).isSome ∧
      (db.locks.insert? (a.lock now heartbeatAt)).isSome := by
  rw [insertRun_isSome_iff, insertLock_isSome_iff]
  constructor
  · intro ⟨hnew, hfree⟩
    refine ⟨fun x hx => ⟨hnew x hx, fun hissue => ?_⟩, fun l hl hissue => ?_⟩
    · by_contra hactive
      exact hfree (Or.inr ⟨x, hx, hissue, by simpa using hactive⟩)
    · exact hfree (Or.inl ⟨l, hl, hissue⟩)
  · intro ⟨hruns, hlocks⟩
    refine ⟨fun x hx => (hruns x hx).1, ?_⟩
    rintro (⟨l, hl, hissue⟩ | ⟨x, hx, hissue, hactive⟩)
    · exact hlocks l hl hissue
    · rw [(hruns x hx).2 hissue] at hactive
      cases hactive

/-- The outcomes of a claim: refused for its TTL, successful, or rejected. -/
theorem claim_cases (now : Timestamp) (a : ClaimArgs) (db : Db) :
    (validTtl a.ttlSeconds = false ∧
      hermesClaimRun now a db = .error (.raised "Invalid lock TTL")) ∨
    (validTtl a.ttlSeconds = true ∧ db.Free a.runId a.issueId ∧
      ∃ db', hermesClaimRun now a db = .ok (true, db') ∧
        db'.runs.rows = db.runs.rows ++ [(a.queuedRun (db.defaults.startedAt now)).running now] ∧
        db'.locks.rows = db.locks.rows ++ [a.lock now (db.defaults.lockHeartbeatAt now)] ∧
        db'.events = db.events ++ a.startEvents now) ∨
    (validTtl a.ttlSeconds = true ∧ ¬ db.Free a.runId a.issueId ∧ hermesClaimRun now a db =
      .ok (false, { db with events := db.events ++ db.rejectEvents a })) := by
  by_cases httl : validTtl a.ttlSeconds
  swap
  · refine Or.inl ⟨by simpa using httl, ?_⟩
    simp [hermesClaimRun, httl, bind_apply]
  right
  have hreject := rejectClaim_apply a db
  have hfree := free_iff a now (db.defaults.startedAt now) (db.defaults.lockHeartbeatAt now) db
  cases hrun : db.runs.insert? (a.queuedRun (db.defaults.startedAt now)) with
  | none =>
      rw [hrun] at hfree
      refine Or.inr ⟨httl, fun h => Bool.noConfusion (hfree.1 h).1, ?_⟩
      simp [hermesClaimRun, httl, bind_apply, tryCatch_apply, insertRun, hrun, hreject]
  | some runs =>
  cases hlock : db.locks.insert? (a.lock now (db.defaults.lockHeartbeatAt now)) with
  | none =>
      rw [hlock] at hfree
      refine Or.inr ⟨httl, fun h => Bool.noConfusion (hfree.1 h).2, ?_⟩
      simp [hermesClaimRun, httl, bind_apply, map_apply, tryCatch_apply, insertRun, hrun,
        insertLock, hlock, hreject]
  | some locks =>
      rw [hrun, hlock] at hfree
      have hclear : db.Free a.runId a.issueId := hfree.2 ⟨rfl, rfl⟩
      have hrows := Table.rows_of_insert? hrun
      -- The update after the inserts meets the new row only: its run id is taken by it.
      have hother : ∀ x ∈ db.runs.rows,
          (x.runId = a.runId && x.linearIssueId = a.issueId : Bool) = false := by
        intro x hx
        simp [hclear.1 x hx]
      obtain ⟨runs', hupd, hrows'⟩ := updateRuns_some { db with runs, locks }
        (p := fun x => x.runId = a.runId && x.linearIssueId = a.issueId)
        (f := fun x => x.running now) (by
          intro x hx hp
          rw [hrows, List.mem_append, List.mem_singleton] at hx
          rcases hx with hx | rfl
          · exact absurd hp (by simp [hother x hx])
          · simp [AgentRun.keys, AgentRun.running, ClaimArgs.queuedRun, RunStatus.isActive])
      refine Or.inl ⟨httl, hclear,
        { db with runs := runs', locks, events := db.events ++ a.startEvents now },
        ?_, ?_, Table.rows_of_insert? hlock, rfl⟩
      · simp [hermesClaimRun, httl, bind_apply, map_apply, tryCatch_apply, insertRun, hrun,
          insertLock, hlock, hupd]
      · rw [hrows', hrows, List.map_append, map_ite_eq_self hother]
        simp [ClaimArgs.queuedRun]

/-! ## Heartbeats -/

/-- The outcomes of a heartbeat: refused for its TTL, no live lock, or lock and run touched. -/
theorem heartbeat_cases (now : Timestamp) (runId issueId : String) (ttl : Int) (db : Db) :
    (validTtl ttl = false ∧
      hermesHeartbeatRun now runId issueId ttl db = .error (.raised "Invalid lock TTL")) ∨
    (validTtl ttl = true ∧ (∀ l ∈ db.locks.rows, l.isLive now runId issueId = false) ∧
      hermesHeartbeatRun now runId issueId ttl db = .ok (false, db)) ∨
    ∃ l ∈ db.locks.rows, l.isLive now runId issueId = true ∧
      ∃ db', hermesHeartbeatRun now runId issueId ttl db =
          .ok (db.runs.rows.any fun x => x.runId = runId && x.isAtWork, db') ∧
        db'.runs.rows = db.runs.rows.map (fun x =>
          if x.runId = runId && x.isAtWork then x.heartbeat now else x) ∧
        db'.locks.rows = db.locks.rows.map (fun l =>
          if l.isLive now runId issueId then l.extended now ttl else l) ∧
        db'.events = db.events := by
  by_cases httl : validTtl ttl
  swap
  · refine Or.inl ⟨by simpa using httl, ?_⟩
    simp [hermesHeartbeatRun, httl, bind_apply]
  right
  obtain ⟨locks, hlocks⟩ := Table.update?_eq_some (t := db.locks)
    (p := fun l => l.isLive now runId issueId) (f := fun l => l.extended now ttl)
    fun l _ _ => List.Sublist.refl _
  have hupd : updateLocks (·.isLive now runId issueId) (·.extended now ttl) db =
      .ok ((db.locks.rows.find? (·.isLive now runId issueId)).map (·.agent),
        { db with locks }) := by
    simp [updateLocks, hlocks]
  cases hfind : db.locks.rows.find? fun l => l.isLive now runId issueId with
  | none =>
      have hnone : ∀ l ∈ db.locks.rows, l.isLive now runId issueId = false := by
        simpa using hfind
      refine Or.inl ⟨httl, hnone, ?_⟩
      have heq : locks = db.locks := by
        apply Table.ext
        rw [Table.rows_of_update? hlocks, map_ite_eq_self hnone]
      rw [hfind, heq] at hupd
      simp [hermesHeartbeatRun, httl, bind_apply, hupd]
  | some l =>
      refine Or.inr ⟨l, List.mem_of_find?_eq_some hfind, List.find?_some hfind, ?_⟩
      obtain ⟨runs, hruns, hrows⟩ := updateRuns_some { db with locks }
        (p := fun x => x.runId = runId && x.isAtWork)
        (f := fun x => x.heartbeat now) fun x _ _ => List.Sublist.refl _
      refine ⟨{ db with runs, locks }, ?_, hrows, Table.rows_of_update? hlocks, rfl⟩
      rw [hfind] at hupd
      simpa [hermesHeartbeatRun, httl, bind_apply, hupd] using hruns

/-! ## Finishes -/

theorem finalStatus_not_active {text : String} {status : RunStatus}
    (h : finalStatus text = some status) :
    status ≠ .queued ∧ status ≠ .running ∧ status ≠ .reviewing := by
  unfold finalStatus at h
  split at h <;> cases h <;> simp

/-- A finish activates no run: the run it ends was active. -/
theorem finished_keys_sublist {now : Timestamp} {runId issueId : String}
    {status : RunStatus} {fields : JsonObject} {x : AgentRun}
    (hx : x.isFinishable runId issueId = true) :
    (x.finished now status fields).keys.Sublist x.keys := by
  have hactive : x.status.isActive = true := by
    simp only [AgentRun.isFinishable, AgentRun.isAtWork, Bool.and_eq_true, Bool.or_eq_true,
      decide_eq_true_eq] at hx
    rcases hx.2 with h | h <;> rw [h] <;> rfl
  cases hs : status.isActive <;>
    simp [AgentRun.keys, AgentRun.finished, hactive, hs]

/-- The outcomes of a finish: refused for its arguments, nothing to finish, or finished. -/
theorem finish_cases (now : Timestamp) (runId issueId text : String) (arg : JsonArg) (db : Db) :
    (finalStatus text = none ∧ hermesFinishRun now runId issueId text arg db =
      .error (.raised "Invalid final status")) ∨
    (finishFields arg = none ∧ hermesFinishRun now runId issueId text arg db =
      .error (.raised "p_fields must be a JSON object")) ∨
    ((finalStatus text).isSome ∧ (finishFields arg).isSome ∧
      ((∀ l ∈ db.locks.rows, l.isOf runId issueId = false) ∨
        ∀ x ∈ db.runs.rows, x.isFinishable runId issueId = false) ∧
      hermesFinishRun now runId issueId text arg db = .ok (false, db)) ∨
    ∃ status fields, finalStatus text = some status ∧ finishFields arg = some fields ∧
      ∃ l ∈ db.locks.rows, l.isOf runId issueId = true ∧
      ∃ x ∈ db.runs.rows, x.isFinishable runId issueId = true ∧
      ∃ db', hermesFinishRun now runId issueId text arg db = .ok (true, db') ∧
        db'.runs.rows = db.runs.rows.map (fun x =>
          if x.isFinishable runId issueId then x.finished now status fields else x) ∧
        db'.locks.rows = db.locks.rows.filter (fun l => !l.isOf runId issueId) ∧
        db'.events = db.events ++ finishEvents runId issueId l.agent text status fields := by
  cases hstatus : finalStatus text with
  | none =>
      refine Or.inl ⟨rfl, ?_⟩
      unfold hermesFinishRun
      rw [hstatus]
      rfl
  | some status =>
  right
  cases hfields : finishFields arg with
  | none =>
      refine Or.inl ⟨rfl, ?_⟩
      unfold hermesFinishRun
      rw [hstatus, hfields]
      rfl
  | some fields =>
  right
  cases hlock : db.locks.rows.find? fun l => l.isOf runId issueId with
  | none =>
      refine Or.inl ⟨rfl, rfl, Or.inl (by simpa using hlock), ?_⟩
      simp [hermesFinishRun, hstatus, hfields, bind_apply, hlock]
  | some l =>
      have hmem := List.mem_of_find?_eq_some hlock
      have hof := List.find?_some hlock
      by_cases hany : ∀ x ∈ db.runs.rows, x.isFinishable runId issueId = false
      · refine Or.inl ⟨rfl, rfl, Or.inr hany, ?_⟩
        have hupd := updateRuns_none (f := fun x => x.finished now status fields) db hany
        simp [hermesFinishRun, hstatus, hfields, bind_apply, hlock, hupd]
      · push Not at hany
        obtain ⟨x, hx, hfin⟩ := hany
        rw [ne_eq, Bool.not_eq_false] at hfin
        obtain ⟨runs, hupd, hrows⟩ := updateRuns_some db
          (p := fun x => x.isFinishable runId issueId)
          (f := fun x => x.finished now status fields)
          fun x _ hp => finished_keys_sublist hp
        have hfound : (db.runs.rows.any fun x => x.isFinishable runId issueId) = true :=
          List.any_eq_true.2 ⟨x, hx, hfin⟩
        rw [hfound] at hupd
        refine Or.inr ⟨status, fields, rfl, rfl, l, hmem, hof, x, hx, hfin,
          { db with
            runs
            events := db.events ++ finishEvents runId issueId l.agent text status fields
            locks := db.locks.delete fun l => l.isOf runId issueId },
          ?_, hrows, rfl, rfl⟩
        simp [hermesFinishRun, hstatus, hfields, bind_apply, map_apply, hlock, hupd]

/-! ## Recoveries -/

theorem expired_keys_sublist (now : Timestamp) (x : AgentRun) :
    (x.expired now).keys.Sublist x.keys := by
  simp [AgentRun.keys, AgentRun.expired, RunStatus.isActive]

/-- The outcomes of a recovery: nothing expired, or the expired lock and its run ended. -/
theorem recover_cases (now : Timestamp) (issueId : String) (db : Db) :
    ((∀ l ∈ db.locks.rows, l.linearIssueId = issueId → now < l.expiresAt) ∧
      hermesRecoverExpiredLock now issueId db = .ok (false, db)) ∨
    ∃ l ∈ db.locks.rows, l.linearIssueId = issueId ∧ l.expiresAt ≤ now ∧
      ∃ db', hermesRecoverExpiredLock now issueId db = .ok (true, db') ∧
        db'.runs.rows = db.runs.rows.map (fun x =>
          if x.isAbandoned l.runId then x.expired now else x) ∧
        db'.locks.rows = db.locks.rows.filter (fun l' => !l'.isOf l.runId issueId) ∧
        db'.events = db.events ++ recoverEvents issueId l := by
  cases hlock : db.locks.rows.find? fun l => l.linearIssueId = issueId with
  | none =>
      refine Or.inl ⟨fun l hl hi => absurd hi ?_, ?_⟩
      · simpa using List.find?_eq_none.1 hlock l hl
      · simp [hermesRecoverExpiredLock, bind_apply, hlock]
  | some l =>
      have hmem := List.mem_of_find?_eq_some hlock
      have hissue : l.linearIssueId = issueId := by simpa using List.find?_some hlock
      by_cases hlive : now < l.expiresAt
      · refine Or.inl ⟨fun l' hl' hi => ?_, ?_⟩
        · have heq : l' = l := db.locks.eq_of_key hl' hmem (k := issueId)
            (by simp [AgentExecutionLock.keys, hi]) (by simp [AgentExecutionLock.keys, hissue])
          rw [heq]
          exact hlive
        · simp [hermesRecoverExpiredLock, bind_apply, hlock, hlive]
      · obtain ⟨runs, hupd, hrows⟩ := updateRuns_some db
          (p := fun x => x.isAbandoned l.runId) (f := fun x => x.expired now)
          fun x _ _ => expired_keys_sublist now x
        refine Or.inr ⟨l, hmem, hissue, Nat.le_of_not_lt hlive,
          { db with
            runs
            events := db.events ++ recoverEvents issueId l
            locks := db.locks.delete fun l' => l'.isOf l.runId issueId },
          ?_, hrows, rfl, rfl⟩
        simp [hermesRecoverExpiredLock, bind_apply, map_apply, hlock, hlive, hupd]

/-! ## Releases -/

theorem release_apply (now : Timestamp) (issueId : String) (db : Db) :
    ∃ runs, operatorRelease now issueId db =
        .ok (db.runs.rows.any fun x => x.isBlockedOf issueId, { db with runs }) ∧
      runs.rows = db.runs.rows.map fun x =>
        if x.isBlockedOf issueId then x.released now else x :=
  updateRuns_some db fun x _ _ => by simp [AgentRun.keys, AgentRun.released, RunStatus.isActive]

end HermesRuntime
