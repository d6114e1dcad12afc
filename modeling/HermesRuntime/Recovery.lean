import HermesRuntime.OrchestratorProof
import HermesRuntime.Script
import HermesRuntime.WorldProof

/-!
# Crash recovery

A worker that dies leaves its run and its lock behind. The next pass recovers the issue when it
gets to its turn; but only eligible issues have one, and a worker moves its issue to
`In Progress` right after the claim.

* `recover_step` — the recovery of an expired lock ends its run.
* `abandoned_run_recovered_iff` — when a pass recovers an abandoned run.
-/

namespace HermesRuntime

open Effects Prog Semantics

variable {π : Type} [DecidableEq π] {net : Net} {α : Type}

/-! ## The recovery -/

/-- Every recovery reaches the database, and its answer comes back. -/
def ReliableRecover (net : Net) : Prop := ∀ i d, net (.recover i) d → d = .answered

/-- Run `r` has failed. -/
def Db.Failed (db : Db) (r : String) : Prop :=
  ∃ x ∈ db.runs.rows, x.runId = r ∧ x.status = .failed

/-- Recovering an issue whose lock has expired fails the run of the lock. -/
theorem supabase_recover_expired {db : Db} (hc : db.Consistent) {r i : String}
    {l : AgentExecutionLock} (hl : l ∈ db.locks.rows) (hof : l.isOf r i = true)
    {now : Timestamp} (hexp : l.expiresAt ≤ now) :
    (SupabaseStore.recover .answered now i db).2.Failed r := by
  obtain ⟨hli, hlr⟩ := isOf_iff.1 hof
  rcases recover_cases now i db with ⟨hlive, -⟩ | ⟨l', hl', hi', -, db', htxn, hruns, -⟩
  · exact absurd hexp (Nat.not_le_of_lt (hlive l hl hli))
  · have heq : l' = l := eq_of_issue db hl' hl (hi'.trans hli.symm)
    obtain ⟨x, hx, hxid, -, hxs⟩ := hc.run_of_lock l hl
    have habandoned : x.isAbandoned l'.runId = true := by
      simp [AgentRun.isAbandoned, AgentRun.isAtWork, heq, hxid, hxs]
    have hdb : (SupabaseStore.recover .answered now i db).2 = db' := by
      simp [SupabaseStore.recover, post, StoreOp.txn, htxn]
    rw [hdb]
    refine ⟨x.expired now, ?_, hxid.trans hlr, rfl⟩
    rw [hruns, List.mem_map]
    exact ⟨x, hx, if_pos habandoned⟩

/-- **The recovery of an expired lock ends its run.** -/
theorem recover_step {q : π} {m m' : SysConfig π α} {r i : String} {o : Except Exc Bool}
    (hrel : ReliableRecover net) (hc : m.world.db.Consistent) (hexp : m.world.Expired r i)
    (h : (system net).Step m (.call q ⟨.recover i, o⟩) m') : m'.world.db.Failed r := by
  cases h with
  | call hp ha =>
      obtain ⟨d, hd, hans, -⟩ := ha
      obtain rfl := hrel _ _ hd
      obtain ⟨l, hl, hof, hle⟩ := hexp
      have hfailed := supabase_recover_expired hc hl hof hle
      rw [hans] at hfailed
      exact hfailed

/-- A failed run stays failed. -/
theorem run_failed {c c' : SysConfig π α} {ls : List (SysLabel π)}
    (h : (system net).Run c ls c') (hc : c.world.db.Consistent) {r : String}
    (hr : c.world.db.Failed r) : c'.world.db.Failed r := by
  obtain ⟨x, hx, hid, hs⟩ := hr
  obtain ⟨y, hy, rfl | ⟨hblocked, -⟩⟩ := run_ended_row h hc hx (by rw [hs]; decide)
  · exact ⟨y, hy, hid, hs⟩
  · rw [hs] at hblocked
    cases hblocked

/-! ## The pass -/

/-- The pass gets to the turn of issue `i`: no exception of a report or of an earlier issue ends
it before. -/
def GetsTo (orch : RuntimeOrchestrator) (i : String) (tr : List CallEvent) : Prop :=
  ∃ pre post results, tr = pre ++ post ∧ Returns (orch.passBefore i).run pre (.ok results)

/-- The step is a call of `q`, or leaves the lock of run `r` and issue `i` in Linear alone. -/
def Undisturbed (q : π) (r i : String) (l : SysLabel π) : Prop :=
  (∃ ev, l = .call q ev) ∨ (¬ EndsLock r i l ∧ ∀ status, ¬ MovesTo i status l)

/-- What a pass reads about an issue nobody moves. -/
theorem mem_read {q : π} {orch : RuntimeOrchestrator}
    {m m' : SysConfig π (Except Exc (List OrchestratorRunResult))} {ls : List (SysLabel π)}
    {o : Except Exc (List OrchestratorRunResult)} {r : String}
    (hq : m.progs q = orch.runOnce.run) (hrun : (system net).Run m ls m')
    (hdone : m'.progs q = .ret o) {snapshots : List LinearIssueSnapshot}
    (hread : ⟨.readIssues, .ok snapshots⟩ ∈ eventsOf q ls) {s : LinearIssueSnapshot}
    (hs : s ∈ m.world.linear.issues) (hquiet : ∀ l ∈ ls, Undisturbed q r s.identifier l) :
    s ∈ snapshots ∧ (snapshots.map (·.identifier)).Nodup := by
  have hreturns := hrun.reach q
  rw [hq, hdone] at hreturns
  obtain ⟨records, turns, heq, -⟩ := runOnce_read hreturns hread
  obtain ⟨a, b, rfl, ha, -⟩ := @eventsOf_split _ _ _ _ _ q _ [] _ _ heq
  obtain ⟨x, y, hx, hstep, -⟩ := hrun.split_at
  have hs' : s ∈ x.world.linear.issues := by
    refine run_snapshot hx hs fun l hl status hmoves => ?_
    rcases hquiet l (List.mem_append_left _ hl) with ⟨ev, rfl⟩ | ⟨-, hno⟩
    · have hmem := mem_eventsOf.2 hl
      rw [ha] at hmem
      cases hmem
    · exact hno status hmoves
  exact ⟨(step_read hstep).mem_iff.2 hs', nodup_of_read hrun (mem_eventsOf.1 hread)⟩

/-- Up to the turn of an issue the pass leaves its lock alone. -/
theorem not_ends_before {q : π} {orch : RuntimeOrchestrator} {i r : String}
    {pre : List CallEvent} {results : List OrchestratorRunResult}
    (h : Returns (orch.passBefore i).run pre (.ok results)) {ls : List (SysLabel π)}
    (hls : eventsOf q ls = pre) (hquiet : ∀ l ∈ ls, Undisturbed q r i l) :
    ∀ l ∈ ls, ¬ EndsLock r i l := by
  intro l hl hends
  rcases hquiet l hl with ⟨ev, rfl⟩ | ⟨hno, -⟩
  swap
  · exact hno hends
  have hmem := mem_eventsOf.2 hl
  rw [hls] at hmem
  rcases passBefore_other h ev hmem with hread | hrecord | ⟨j, hj, hturn⟩
  · obtain ⟨call, o⟩ := ev
    cases hread
    exact hends
  · obtain ⟨call, o⟩ := ev
    cases call <;> first | exact hrecord | exact hends
  · obtain ⟨call, o⟩ := ev
    cases call
    case recover k => exact hj (hturn.symm.trans hends)
    case finish c s fields => exact hj (hturn.symm.trans hends.2)
    all_goals exact hends

/-- **An abandoned run is recovered** exactly when Linear still has its issue as `Todo` and the
pass gets to it. The worker has claimed the run and stopped for good, whatever it did before
that; its lock has expired; and in what follows nobody but the pass ends that lock or moves the
issue. -/
theorem abandoned_run_recovered_iff {net₁ : Net} {rt : AgentRuntime} {m : Bool} {issue : Issue}
    {p : π} {m₀ m₁ : SysConfig π (Except Exc ExecutionContext)} {ls₁ : List (SysLabel π)}
    (hc : m₀.world.db.Consistent) (hp : m₀.progs p = (rt.execute m issue).run)
    (h₁ : (system net₁).Run m₀ ls₁ m₁) {c : ExecutionContext} {ttl : Int}
    (hclaim : ⟨.claim c ttl, .ok ()⟩ ∈ eventsOf p ls₁)
    (hexpired : m₁.world.Expired c.runId issue.identifier) {s : LinearIssueSnapshot}
    (hs : s ∈ m₁.world.linear.issues) (hid : s.identifier = issue.identifier)
    (hlabels : s.labels = issue.labels) {orch : RuntimeOrchestrator} {q : π}
    {m₂ m₃ : SysConfig π (Except Exc (List OrchestratorRunResult))} {ls₂ : List (SysLabel π)}
    {o : Except Exc (List OrchestratorRunResult)} (hrel : ReliableRecover net)
    (hworld : m₂.world = m₁.world) (hq : m₂.progs q = orch.runOnce.run)
    (h₂ : (system net).Run m₂ ls₂ m₃) (hdone : m₃.progs q = .ret o)
    {snapshots : List LinearIssueSnapshot}
    (hread : ⟨.readIssues, .ok snapshots⟩ ∈ eventsOf q ls₂)
    (hquiet : ∀ l ∈ ls₂, Undisturbed q c.runId issue.identifier l) :
    ((∃ r, .call q ⟨.recover issue.identifier, r⟩ ∈ ls₂) ∧ m₃.world.db.Failed c.runId ∧
      ¬ m₃.world.db.Holds c.runId issue.identifier) ↔
    s.status = "Todo" ∧ GetsTo orch issue.identifier (eventsOf q ls₂) := by
  have hc₂ : m₂.world.db.Consistent := hworld ▸ run_consistent h₁ hc
  obtain ⟨fields, hclass⟩ : ∃ fields, classifyIssue issue = .ok fields := by
    obtain ⟨pre, post, hcut⟩ := List.append_of_mem hclaim
    have hreach := h₁.reach p
    rw [hp, hcut] at hreach
    obtain ⟨_, _, _, _, _, -, hcontext, -⟩ := execute_extends hreach
    exact ⟨_, hcontext.1⟩
  rw [← hid] at hquiet ⊢
  obtain ⟨hmem, hnodup⟩ := mem_read hq h₂ hdone hread (hworld ▸ hs) hquiet
  have hreturns := h₂.reach q
  rw [hq, hdone] at hreturns
  constructor
  · intro ⟨⟨r, hrec⟩, _⟩
    obtain ⟨⟨d, hd, hdid⟩, pre, post, results, r', hsplit, hbefore⟩ :=
      before_of_recover hreturns hread hnodup (mem_eventsOf.2 hrec)
    obtain ⟨s', hs', rfl, haction⟩ := mem_decisionsOf.1 hd
    rw [select_issue] at hdid
    obtain rfl : s' = s := List.inj_on_of_nodup_map hnodup hs' hmem hdid
    exact ⟨(eligible_iff_todo hclass hid hlabels).1 haction, pre, _, results, hsplit, hbefore⟩
  · intro ⟨htodo, pre, post, results, hsplit, hbefore⟩
    have hd : select s ∈ decisionsOf snapshots :=
      mem_decisionsOf.2 ⟨s, hmem, rfl, (eligible_iff_todo hclass hid hlabels).2 htodo⟩
    rw [hsplit] at hreturns hread
    have hdid : (select s).issue.identifier = s.identifier := by
      rw [select_issue]
      rfl
    rw [← hdid] at hbefore
    obtain ⟨r, post', rfl⟩ := recover_of_before hreturns hread hnodup hd hbefore
    rw [hdid] at hbefore hsplit
    -- Up to the recovery the lock is still there, and expired.
    obtain ⟨a, b, rfl, ha, -⟩ := eventsOf_split hsplit
    obtain ⟨x, y, hx, hstep, hy⟩ := h₂.split_at
    have hexp : x.world.Expired c.runId s.identifier := by
      refine run_expired hx hc₂ (by rw [hworld, hid]; exact hexpired) ?_
      exact not_ends_before hbefore ha fun l hl => hquiet l (List.mem_append_left _ hl)
    have hcx := run_consistent hx hc₂
    have hcy := step_consistent hstep hcx
    have hfailed := run_failed hy hcy (recover_step hrel hcx hexp hstep)
    refine ⟨⟨r, by simp⟩, hfailed, not_holds_of_ended (run_consistent hy hcy) ?_⟩
    obtain ⟨z, hz, hzid, hzs⟩ := hfailed
    exact ⟨z, hz, hzid, by rw [hzs]; decide⟩

/-! ## Two crashes -/

/-- A worker about to execute the one issue in Linear. -/
def crashStart : SysConfig Bool (Except Exc ExecutionContext) :=
  ⟨fun _ => (AgentRuntime.ofStore.execute true qaIssue).run,
    .start ⟨[todoSnapshot], nodup_todoSnapshot⟩⟩

/-- The worker dies after so many calls, and its lock expires. -/
def crashRun (calls : Nat) : List (SysLabel Bool) × SysConfig Bool (Except Exc ExecutionContext) :=
  Script.calm.driver.run (List.replicate calls (.inl false) ++ [.inr (.tick 600000000)]) crashStart

/-- A pass after the crash. -/
def passRun (calls : Nat) :
    List (SysLabel Bool) × SysConfig Bool (Except Exc (List OrchestratorRunResult)) :=
  Script.calm.driver.run ((List.replicate 11 true).map .inl)
    ⟨fun _ => sampleOrchestrator.runOnce.run, (crashRun calls).2.world⟩

theorem passRun_quiet (calls : Nat) (r i : String) :
    ∀ l ∈ (passRun calls).1, Undisturbed true r i l := by
  intro l hl
  obtain ⟨q, hq, ev, rfl⟩ := Script.calm.driver.mem_run_turns hl
  exact Or.inl ⟨ev, by rw [List.eq_of_mem_replicate hq]⟩

/-- The worker dies after it has moved its issue to `In Progress`: the pass does not recover
it. -/
theorem abandoned_run_left :
    ¬ ∀ (p q : Bool) (rt : AgentRuntime) (m : Bool) (issue : Issue) (orch : RuntimeOrchestrator)
      (m₀ m₁ : SysConfig Bool (Except Exc ExecutionContext)) (ls₁ ls₂ : List (SysLabel Bool))
      (m₂ m₃ : SysConfig Bool (Except Exc (List OrchestratorRunResult)))
      (o : Except Exc (List OrchestratorRunResult)) (c : ExecutionContext) (ttl : Int)
      (s : LinearIssueSnapshot) (snapshots : List LinearIssueSnapshot),
      m₀.world.db.Consistent → m₀.progs p = (rt.execute m issue).run →
      (system reliable).Run m₀ ls₁ m₁ → ⟨.claim c ttl, .ok ()⟩ ∈ eventsOf p ls₁ →
      m₁.world.Expired c.runId issue.identifier → s ∈ m₁.world.linear.issues →
      s.identifier = issue.identifier → s.labels = issue.labels → m₂.world = m₁.world →
      m₂.progs q = orch.runOnce.run → (system reliable).Run m₂ ls₂ m₃ → m₃.progs q = .ret o →
      ⟨.readIssues, .ok snapshots⟩ ∈ eventsOf q ls₂ →
      (∀ l ∈ ls₂, Undisturbed q c.runId issue.identifier l) →
      (∃ r, .call q ⟨.recover issue.identifier, r⟩ ∈ ls₂) ∧ m₃.world.db.Failed c.runId ∧
        ¬ m₃.world.db.Holds c.runId issue.identifier := by
  intro h
  obtain ⟨c, ttl, hclaim, hid⟩ := exists_claim
    (by decide : newRunId 0 0 ∈ (eventsOf false (crashRun 4).1).filterMap claimedRun)
  have hexpired : (crashRun 4).2.world.Expired c.runId "LOL-1" := by
    rw [hid]
    show ∃ l ∈ _, _ ∧ _
    decide
  obtain ⟨o, ho⟩ := Option.isSome_iff_exists.1
    (by decide : ((passRun 4).2.progs true).result.isSome)
  have hread : (⟨.readIssues, .ok (crashRun 4).2.world.linear.issues⟩ : CallEvent) ∈
      eventsOf true (passRun 4).1 := List.mem_cons_self
  have hfailed := (h false true .ofStore true qaIssue sampleOrchestrator crashStart (crashRun 4).2
    (crashRun 4).1 (passRun 4).1 _ (passRun 4).2 o c ttl
    { todoSnapshot with status := "In Progress" } _ (consistent_empty _) rfl
    (Script.calm.driver.run_sound _ _) hclaim hexpired (by decide) rfl rfl rfl rfl
    (Script.calm.driver.run_sound _ _) (ret_of_result ho) hread (passRun_quiet 4 _ _)).2.1
  rw [hid] at hfailed
  exact absurd hfailed (by show ¬ ∃ x ∈ _, _ ∧ _; decide)

/-- The worker dies right after its claim: the pass recovers the issue. -/
theorem abandoned_run_recovered_iff_claimed : ∃ c ttl,
    ⟨.claim c ttl, .ok ()⟩ ∈ eventsOf false (crashRun 2).1 ∧
    (((∃ r, .call true ⟨.recover "LOL-1", r⟩ ∈ (passRun 2).1) ∧
      (passRun 2).2.world.db.Failed c.runId ∧ ¬ (passRun 2).2.world.db.Holds c.runId "LOL-1") ↔
    todoSnapshot.status = "Todo" ∧
      GetsTo sampleOrchestrator "LOL-1" (eventsOf true (passRun 2).1)) := by
  obtain ⟨c, ttl, hclaim, hid⟩ := exists_claim
    (by decide : newRunId 0 0 ∈ (eventsOf false (crashRun 2).1).filterMap claimedRun)
  have hexpired : (crashRun 2).2.world.Expired c.runId "LOL-1" := by
    rw [hid]
    show ∃ l ∈ _, _ ∧ _
    decide
  obtain ⟨o, ho⟩ := Option.isSome_iff_exists.1
    (by decide : ((passRun 2).2.progs true).result.isSome)
  have hread : (⟨.readIssues, .ok (crashRun 2).2.world.linear.issues⟩ : CallEvent) ∈
      eventsOf true (passRun 2).1 := List.mem_cons_self
  have hp : crashStart.progs false = (AgentRuntime.ofStore.execute true qaIssue).run := rfl
  have hs : todoSnapshot ∈ (crashRun 2).2.world.linear.issues := by decide
  have hrel : ReliableRecover reliable := fun _ _ hd => hd
  exact ⟨c, ttl, hclaim, abandoned_run_recovered_iff (consistent_empty _) hp
    (Script.calm.driver.run_sound _ _) hclaim hexpired hs rfl rfl hrel rfl rfl
    (Script.calm.driver.run_sound _ _) (ret_of_result ho) hread (passRun_quiet 2 _ _)⟩

end HermesRuntime
