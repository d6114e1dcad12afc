import HermesRuntime.OrchestratorProof
import Mathlib.Data.List.Forall2

/-!
# The outcome of a pass

A turn comes to a result, or it raises, and then the pass ends there. What ends a turn with a
result is a conflict or a block; everything else the store, the dispatcher or a callback raises
is the end of the pass.

* `ResultsIn`, `RaisesIn` — the turns of either kind.
* `processIssue_outcome` — there are no others.
* `pass_ends_at_first_raise` — the outcome of a whole pass.
-/

namespace HermesRuntime

open Effects Prog Proc

/-! ## Turns -/

/-- The report to the block recorder, if there is one. -/
def blockRecorded (records : Bool) (i reason : String) : List CallEvent :=
  if records then [⟨.recordBlocked i reason, .ok ()⟩] else []

/-- `str(exc) or type(exc).__name__` -/
def Exc.reason (e : Exc) : String := if e.message = "" then e.typeName else e.message

/-- A turn that comes to a result: the recovery answers, and the execution returns or raises a
conflict or a block, which is reported. -/
inductive ResultsIn (orch : RuntimeOrchestrator) (issue : Issue) :
    List CallEvent → OrchestratorRunResult → Prop
  | completed {exec : List CallEvent} {c : ExecutionContext} (b : Bool)
      (hexec : Returns (orch.runtime.execute orch.hasMove issue).run exec (.ok c)) :
      ResultsIn orch issue (⟨.recover issue.identifier, .ok b⟩ :: exec)
        { issueId := issue.identifier, status := "completed", runId := some c.runId }
  | conflict {exec : List CallEvent} {e : Exc} (b : Bool)
      (hexec : Returns (orch.runtime.execute orch.hasMove issue).run exec (.error e))
      (hconflict : e.isConflict = true) :
      ResultsIn orch issue (⟨.recover issue.identifier, .ok b⟩ ::
          (exec ++ blockRecorded orch.records issue.identifier "RunConflict"))
        { issueId := issue.identifier, status := "conflict", reason := some "RunConflict" }
  | blocked {exec : List CallEvent} {e : Exc} (b : Bool)
      (hexec : Returns (orch.runtime.execute orch.hasMove issue).run exec (.error e))
      (hconflict : e.isConflict = false) (hblocked : e.isBlocked = true) :
      ResultsIn orch issue (⟨.recover issue.identifier, .ok b⟩ ::
          (exec ++ blockRecorded orch.records issue.identifier e.reason))
        { issueId := issue.identifier, status := "blocked", reason := some e.reason }

/-- A turn that raises: the recovery raises, or the execution raises neither a conflict nor a
block, or the block recorder raises. -/
inductive RaisesIn (orch : RuntimeOrchestrator) (issue : Issue) : List CallEvent → Exc → Prop
  | recover (e : Exc) : RaisesIn orch issue [⟨.recover issue.identifier, .error e⟩] e
  | execute {exec : List CallEvent} {e : Exc} (b : Bool)
      (hexec : Returns (orch.runtime.execute orch.hasMove issue).run exec (.error e))
      (hconflict : e.isConflict = false) (hblocked : e.isBlocked = false) :
      RaisesIn orch issue (⟨.recover issue.identifier, .ok b⟩ :: exec) e
  | record {exec : List CallEvent} {caught e : Exc} (b : Bool) (reason : String)
      (hexec : Returns (orch.runtime.execute orch.hasMove issue).run exec (.error caught))
      (hcaught : caught.isConflict = true ∨ caught.isBlocked = true)
      (hrecords : orch.records = true) :
      RaisesIn orch issue (⟨.recover issue.identifier, .ok b⟩ ::
          (exec ++ [⟨.recordBlocked issue.identifier reason, .error e⟩])) e

/-- A caught exception is reported, and the turn has its result, or the recorder raises. -/
theorem report_returns {records : Bool} {i reason : String} {result : OrchestratorRunResult}
    {tr : List CallEvent} {o : Except Exc OrchestratorRunResult}
    (h : Returns (do when records (recordBlocked i reason); pure result :
      Proc OrchestratorRunResult).run tr o) :
    (tr = blockRecorded records i reason ∧ o = .ok result) ∨
      ∃ e, records = true ∧ tr = [⟨.recordBlocked i reason, .error e⟩] ∧ o = .error e := by
  cases records with
  | false => exact Or.inl (returns_pure.1 h)
  | true =>
      rcases returns_run_bind.1 h with ⟨tr₁, _, _, rfl, hreport, hpure⟩ | ⟨e, hreport, rfl⟩
      · obtain rfl : tr₁ = [⟨.recordBlocked i reason, .ok ()⟩] := returns_call_ret.1 hreport
        obtain ⟨rfl, rfl⟩ := returns_pure.1 hpure
        exact Or.inl ⟨rfl, rfl⟩
      · exact Or.inr ⟨e, rfl, returns_call_ret.1 hreport, rfl⟩

/-- **The turn of an issue** comes to a result or raises. -/
theorem processIssue_outcome {orch : RuntimeOrchestrator} {issue : Issue} {tr : List CallEvent}
    {o : Except Exc OrchestratorRunResult} (h : Returns (orch.processIssue issue).run tr o) :
    (∃ result, o = .ok result ∧ ResultsIn orch issue tr result) ∨
      ∃ e, o = .error e ∧ RaisesIn orch issue tr e := by
  unfold RuntimeOrchestrator.processIssue at h
  rcases returns_run_bind.1 h with ⟨tr₁, tr₂, b, rfl, hrec, h₁⟩ | ⟨e, hrec, rfl⟩
  swap
  · obtain rfl : tr = [⟨.recover issue.identifier, .error e⟩] := returns_call_ret.1 hrec
    exact Or.inr ⟨e, rfl, .recover e⟩
  obtain rfl : tr₁ = [⟨.recover issue.identifier, .ok b⟩] := returns_call_ret.1 hrec
  rcases returns_run_tryCatch.1 h₁ with ⟨result, hexec, rfl⟩ | ⟨exec, tail, e, rfl, hexec, hcatch⟩
  · obtain ⟨exec, _, c, rfl, hrun, hpure⟩ := returns_run_bind_ok.1 hexec
    obtain ⟨rfl, ho⟩ := returns_pure.1 hpure
    cases ho
    rw [List.append_nil]
    exact Or.inl ⟨_, rfl, .completed b hrun⟩
  have hrun : Returns (orch.runtime.execute orch.hasMove issue).run exec (.error e) := by
    rcases returns_run_bind.1 hexec with ⟨_, _, c, -, -, hpure⟩ | ⟨e', hrun, ho⟩
    · cases (returns_pure.1 hpure).2
    · cases ho
      exact hrun
  by_cases hconflict : e.isConflict = true
  · rw [if_pos hconflict] at hcatch
    rcases report_returns hcatch with ⟨rfl, rfl⟩ | ⟨e', hrecords, rfl, rfl⟩
    · exact Or.inl ⟨_, rfl, .conflict b hrun hconflict⟩
    · exact Or.inr ⟨e', rfl, .record b _ hrun (Or.inl hconflict) hrecords⟩
  rw [if_neg hconflict] at hcatch
  have hconflict' : e.isConflict = false := by simpa using hconflict
  by_cases hblocked : e.isBlocked = true
  · rw [if_pos hblocked] at hcatch
    rcases report_returns hcatch with ⟨rfl, rfl⟩ | ⟨e', hrecords, rfl, rfl⟩
    · exact Or.inl ⟨_, rfl, .blocked b hrun hconflict' hblocked⟩
    · exact Or.inr ⟨e', rfl, .record b _ hrun (Or.inr hblocked) hrecords⟩
  · rw [if_neg hblocked] at hcatch
    obtain ⟨rfl, rfl⟩ := returns_throw.1 hcatch
    rw [List.append_nil]
    exact Or.inr ⟨e, rfl, .execute b hrun hconflict' (by simpa using hblocked)⟩

theorem issueId_of_resultsIn {orch : RuntimeOrchestrator} {issue : Issue} {tr : List CallEvent}
    {result : OrchestratorRunResult} (h : ResultsIn orch issue tr result) :
    result.issueId = issue.identifier := by
  cases h <;> rfl

/-! ## Passes -/

/-- The turns of a pass with their results, in the order of the decisions. -/
def TurnsResult (orch : RuntimeOrchestrator) (decisions : List SelectionDecision)
    (turns : List (List CallEvent × OrchestratorRunResult)) : Prop :=
  List.Forall₂ (fun d turn => ResultsIn orch d.issue turn.1 turn.2) decisions turns

theorem issueIds_of_turnsResult {orch : RuntimeOrchestrator} {decisions : List SelectionDecision}
    {turns : List (List CallEvent × OrchestratorRunResult)}
    (h : TurnsResult orch decisions turns) :
    turns.map (·.2.issueId) = decisions.map (·.issue.identifier) := by
  induction h with
  | nil => rfl
  | cons hturn _ ih => rw [List.map_cons, List.map_cons, issueId_of_resultsIn hturn, ih]

/-- The loop over the decisions returns all results, or stops at the first turn that raises. -/
theorem processIssues_outcome {orch : RuntimeOrchestrator} {decisions : List SelectionDecision}
    {tr : List CallEvent} {o : Except Exc (List OrchestratorRunResult)}
    (h : Returns (orch.processIssues decisions).run tr o) :
    (∃ turns, o = .ok (turns.map Prod.snd) ∧ tr = (turns.map Prod.fst).flatten ∧
      TurnsResult orch decisions turns) ∨
    ∃ e before d after turns last, o = .error e ∧ decisions = before ++ d :: after ∧
      tr = (turns.map Prod.fst).flatten ++ last ∧ TurnsResult orch before turns ∧
        RaisesIn orch d.issue last e := by
  induction decisions generalizing tr o with
  | nil =>
      obtain ⟨rfl, rfl⟩ := returns_pure.1 h
      exact Or.inl ⟨[], rfl, rfl, .nil⟩
  | cons d decisions ih =>
      unfold RuntimeOrchestrator.processIssues at h
      rcases returns_run_bind.1 h with ⟨turn, rest, result, rfl, hturn, h₁⟩ | ⟨e, hturn, rfl⟩
      swap
      · rcases processIssue_outcome hturn with ⟨_, ho, -⟩ | ⟨e', ho, hraises⟩
        · cases ho
        · cases ho
          exact Or.inr ⟨e, [], d, decisions, [], tr, rfl, rfl, rfl, .nil, hraises⟩
      have hfirst : ResultsIn orch d.issue turn result := by
        rcases processIssue_outcome hturn with ⟨_, ho, hresult⟩ | ⟨_, ho, -⟩
        · cases ho
          exact hresult
        · cases ho
      rcases returns_run_bind.1 h₁ with ⟨tr', _, results, rfl, hrest, hpure⟩ | ⟨e, hrest, rfl⟩
      · obtain ⟨rfl, rfl⟩ := returns_pure.1 hpure
        rcases ih hrest with ⟨turns, ho, rfl, hturns⟩ | ⟨e, _, _, _, _, _, ho, -⟩
        · cases ho
          exact Or.inl ⟨(turn, result) :: turns, rfl, by simp, .cons hfirst hturns⟩
        · cases ho
      · rcases ih hrest with ⟨turns, ho, -⟩ |
          ⟨e', before, d', after, turns, last, ho, rfl, rfl, hturns, hraises⟩
        · cases ho
        · cases ho
          exact Or.inr ⟨e, d :: before, d', after, (turn, result) :: turns, last, rfl, rfl,
            by simp, .cons hfirst hturns, hraises⟩

/-- **A pass ends at the first turn that raises.** Over the eligible decisions it polled,
`run_once` takes them in order. Either every turn comes to a result, and it returns one for each
decision; or the first turn that raises ends it with that exception, after the results of the
turns before and without a call for the decisions after. -/
theorem pass_ends_at_first_raise {orch : RuntimeOrchestrator} {decisions : List SelectionDecision}
    {polled calls : List CallEvent} {o : Except Exc (List OrchestratorRunResult)}
    (hpoll : Returns (poll orch.pollerRecords).run polled (.ok decisions))
    (h : Returns orch.runOnce.run (polled ++ calls) o) :
    (∃ turns, o = .ok (turns.map Prod.snd) ∧ calls = (turns.map Prod.fst).flatten ∧
      TurnsResult orch decisions turns ∧
      turns.map (·.2.issueId) = decisions.map (·.issue.identifier)) ∨
    ∃ e before d after turns last, o = .error e ∧ decisions = before ++ d :: after ∧
      calls = (turns.map Prod.fst).flatten ++ last ∧ TurnsResult orch before turns ∧
        RaisesIn orch d.issue last e := by
  have hrest : Returns (orch.processIssues decisions).run calls o :=
    Reach.residue (reach_run_bind hpoll _) h
  rcases processIssues_outcome hrest with ⟨turns, ho, htr, hturns⟩ | hraised
  · exact Or.inl ⟨turns, ho, htr, hturns, issueIds_of_turnsResult hturns⟩
  · exact Or.inr hraised

/-! ## Two issues, the first of which fails -/

/-- Two issues that can be executed. -/
def twoIssues : List LinearIssueSnapshot :=
  [⟨"LOL-1", "Todo", ["agent:qa"], List.nodup_singleton "agent:qa"⟩,
    ⟨"LOL-2", "Todo", ["agent:qa"], List.nodup_singleton "agent:qa"⟩]

/-- The dispatcher gives up on every task, and everything else goes through. -/
def timeouts : (c : Call) → c.Resp
  | .entropy => (0, 0)
  | .startHeartbeat _ _ => ()
  | .joinHeartbeat _ => []
  | .dispatch _ => .error (.executionEventError "KanbanTimeout" [])
  | .recover _ => .ok false
  | .readIssues => .ok twoIssues
  | .claim _ _ | .lockRejected _ _ | .moveStatus _ _ | .event _ _ _ | .finish _ _ _
  | .recordBlocked _ _ => .ok ()

/-- An orchestrator without callbacks. -/
def bareOrchestrator : RuntimeOrchestrator where
  runtime := .ofStore
  hasMove := false
  pollerRecords := false
  records := false

theorem timeouts_poll : Returns (poll bareOrchestrator.pollerRecords).run
    [⟨.readIssues, .ok twoIssues⟩] (.ok (decisionsOf twoIssues)) :=
  returns_answerWith timeouts (poll bareOrchestrator.pollerRecords).run

/-- The calls of the pass after its poll. -/
def timeoutCalls : List CallEvent :=
  (answerWith timeouts (bareOrchestrator.processIssues (decisionsOf twoIssues)).run).1

theorem timeouts_runOnce : ∃ e, Returns bareOrchestrator.runOnce.run
    ([⟨.readIssues, .ok twoIssues⟩] ++ timeoutCalls) (.error e) := by
  have hturns := returns_answerWith timeouts
    (bareOrchestrator.processIssues (decisionsOf twoIssues)).run
  have herror : (answerWith timeouts
      (bareOrchestrator.processIssues (decisionsOf twoIssues)).run).2.isOk = false := by decide
  cases ho : (answerWith timeouts
      (bareOrchestrator.processIssues (decisionsOf twoIssues)).run).2 with
  | ok results =>
      rw [ho] at herror
      cases herror
  | error e =>
      rw [ho] at hturns
      exact ⟨e, returns_run_bind.2 (Or.inl ⟨_, _, _, rfl, timeouts_poll, hturns⟩)⟩

/-- The timeout of the first task ends the pass. -/
theorem timeout_ends_pass :
    ¬ ∀ (orch : RuntimeOrchestrator) (decisions : List SelectionDecision)
      (polled calls : List CallEvent) (o : Except Exc (List OrchestratorRunResult)),
      Returns (poll orch.pollerRecords).run polled (.ok decisions) →
      Returns orch.runOnce.run (polled ++ calls) o →
      ∃ results, o = .ok results ∧
        results.map (·.issueId) = decisions.map (·.issue.identifier) ∧
        ∀ d ∈ decisions, ∃ r, (⟨.recover d.issue.identifier, r⟩ : CallEvent) ∈ calls := by
  intro h
  obtain ⟨e, hrun⟩ := timeouts_runOnce
  obtain ⟨results, hresults, -⟩ := h bareOrchestrator _ _ _ _ timeouts_poll hrun
  cases hresults

/-- The same pass, as the turn of the first issue that raises. -/
theorem pass_ends_at_first_raise_timeout :
    ∃ e before d after turns last, decisionsOf twoIssues = before ++ d :: after ∧
      timeoutCalls = (turns.map Prod.fst).flatten ++ last ∧
      TurnsResult bareOrchestrator before turns ∧
        RaisesIn bareOrchestrator d.issue last e := by
  obtain ⟨e, hrun⟩ := timeouts_runOnce
  rcases pass_ends_at_first_raise timeouts_poll hrun with
    ⟨turns, ho, -⟩ | ⟨e', before, d, after, turns, last, -, hsplit, hcalls, hturns, hraises⟩
  · cases ho
  · exact ⟨e', before, d, after, turns, last, hsplit, hcalls, hturns, hraises⟩

end HermesRuntime
