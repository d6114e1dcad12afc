import HermesRuntime.ExecutionProof
import HermesRuntime.Orchestrator
import Mathlib.Data.List.TakeWhile

/-!
# The orchestrator: traces of a pass

A pass reads the issues once, and then takes the eligible ones in turn. The turn of an issue
makes calls for that issue only, starts with its recovery, and is cut short, with the whole
pass, by an exception that is neither a conflict nor a block.

* `action_eligible_iff` — what makes an issue eligible.
* `poll_returns` — what a poll decides on.
* `processIssue_returns`, `processIssues_mem` — the turns of a pass.
* `before_of_recover`, `recover_of_before` — when a pass gets to recover an issue.
-/

namespace HermesRuntime

open Effects Prog Proc

/-! ## Selection -/

theorem status_of_classify {issue : Issue} {fields : String × String × String × String}
    (h : classifyIssue issue = .ok fields) : issue.status = "Todo" := by
  by_contra hs
  unfold classifyIssue at h
  rw [if_pos hs] at h
  cases h

@[simp] theorem select_issue (s : LinearIssueSnapshot) : (select s).issue = s.issue := by
  unfold select
  dsimp only
  split
  · rfl
  · split <;> rfl

/-- An issue is eligible when `classify_issue` accepts it. -/
theorem action_eligible_iff {s : LinearIssueSnapshot} :
    (select s).action = .eligible ↔ ∃ fields, classifyIssue s.issue = .ok fields := by
  unfold select
  by_cases hs : s.status ≠ "Todo"
  · rw [if_pos hs]
    refine iff_of_false nofun ?_
    intro ⟨fields, h⟩
    exact hs (status_of_classify h)
  · rw [if_neg hs]
    cases hclass : classifyIssue s.issue with
    | error e => exact iff_of_false nofun nofun
    | ok fields => exact iff_of_true rfl ⟨fields, rfl⟩

/-- The labels of an issue that has been accepted once make it eligible whenever it is `Todo`. -/
theorem eligible_iff_todo {s : LinearIssueSnapshot} {issue : Issue}
    {fields : String × String × String × String} (h : classifyIssue issue = .ok fields)
    (hid : s.identifier = issue.identifier) (hlabels : s.labels = issue.labels) :
    (select s).action = .eligible ↔ s.status = "Todo" := by
  rw [action_eligible_iff]
  constructor
  · intro ⟨fields', h'⟩
    exact status_of_classify h'
  · intro htodo
    have heq : s.issue = issue := by
      obtain ⟨identifier, labels, hnodup, status⟩ := issue
      obtain rfl : status = "Todo" := status_of_classify h
      cases s
      subst hid hlabels htodo
      rfl
    exact ⟨fields, heq ▸ h⟩

/-! ## Polling -/

/-- The eligible issues among what has been read. -/
def decisionsOf (snapshots : List LinearIssueSnapshot) : List SelectionDecision :=
  (snapshots.map select).filter (·.action = .eligible)

/-- Reports to the block recorder. -/
def IsRecord : Call → Prop
  | .recordBlocked _ _ => True
  | _ => False

theorem pollSnapshots_only (records : Bool) (snapshots : List LinearIssueSnapshot) :
    Only (fun e => IsRecord e.1) (pollSnapshots records snapshots).run := by
  induction snapshots with
  | nil => trivial
  | cons s snapshots ih =>
      unfold pollSnapshots
      refine only_run_bind (when_only fun r => ⟨trivial, trivial⟩) fun _ => ?_
      exact only_run_bind ih fun _ => trivial

theorem pollSnapshots_returns {records : Bool} {snapshots : List LinearIssueSnapshot}
    {tr : List CallEvent} {decisions : List SelectionDecision}
    (h : Returns (pollSnapshots records snapshots).run tr (.ok decisions)) :
    decisions = decisionsOf snapshots := by
  induction snapshots generalizing tr decisions with
  | nil =>
      cases (returns_pure.1 h).2
      rfl
  | cons s snapshots ih =>
      unfold pollSnapshots at h
      obtain ⟨_, _, _, -, -, h₁⟩ := returns_run_bind_ok.1 h
      obtain ⟨_, _, rest, -, hrest, h₂⟩ := returns_run_bind_ok.1 h₁
      obtain rfl := ih hrest
      cases (returns_pure.1 h₂).2
      unfold decisionsOf
      by_cases ha : (select s).action = .eligible
      · simp [ha]
      · simp [ha]

/-- What a poll does: it reads once, and where that succeeds decides on what it read. -/
theorem poll_returns {records : Bool} {tr : List CallEvent}
    {o : Except Exc (List SelectionDecision)} (h : Returns (poll records).run tr o) :
    (∃ e, tr = [⟨.readIssues, .error e⟩] ∧ o = .error e) ∨
      ∃ snapshots tail, tr = ⟨.readIssues, .ok snapshots⟩ :: tail ∧
        (∀ ev ∈ tail, IsRecord ev.1) ∧
        ∀ decisions, o = .ok decisions → decisions = decisionsOf snapshots := by
  unfold poll at h
  rcases returns_run_bind.1 h with ⟨tr₁, tail, snapshots, rfl, hread, h₁⟩ | ⟨e, hread, rfl⟩
  · obtain rfl : tr₁ = [⟨.readIssues, .ok snapshots⟩] := returns_call_ret.1 hread
    refine Or.inr ⟨snapshots, tail, rfl, (pollSnapshots_only records snapshots).mem h₁, ?_⟩
    intro decisions ho
    rw [ho] at h₁
    exact pollSnapshots_returns h₁
  · exact Or.inl ⟨e, returns_call_ret.1 hread, rfl⟩

/-! ## The turn of an issue -/

/-- The calls made in the turn of issue `i`. -/
def IsTurn (i : String) : Call → Prop
  | .recover j | .recordBlocked j _ => j = i
  | .moveStatus j s => j = i ∧ s ∈ ["In Progress", "In Review", "Blocked"]
  | .claim c _ | .lockRejected c _ | .startHeartbeat c _ | .joinHeartbeat c | .event c _ _
  | .dispatch c | .finish c _ _ => c.linearIssueId = i
  | .entropy => True
  | .readIssues => False

theorem isTurn_of_cleanup {c : ExecutionContext} {call : Call} (h : IsCleanup c call) :
    IsTurn c.linearIssueId call := by
  cases call <;> first | exact h.elim | exact congrArg _ h

theorem isTurn_of_work {i : String} {c : ExecutionContext} (hc : c.linearIssueId = i)
    {call : Call} (h : IsWork i c call) : IsTurn i call := by
  subst hc
  cases call
  case moveStatus j s =>
    obtain ⟨hj, rfl⟩ : j = c.linearIssueId ∧ s = "In Progress" := h
    exact ⟨hj, by simp⟩
  all_goals first | exact h.elim | exact congrArg _ h

/-- An execution makes calls for its issue only. -/
theorem execute_only (rt : AgentRuntime) (m : Bool) (issue : Issue) :
    Only (fun e => IsTurn issue.identifier e.1) (rt.execute m issue).run := by
  unfold AgentRuntime.execute
  refine only_run_bind (x := settle _) trivial fun fields => ?_
  obtain ⟨agent, risk, mode, environment⟩ := fields
  refine only_run_bind (fun r => ⟨trivial, trivial⟩) fun drawn => ?_
  refine only_run_bind ?_ fun _ => ?_
  · unfold claimIssue
    refine only_run_tryCatch (fun r => ⟨rfl, trivial⟩) fun e => ?_
    exact only_run_bind (when_only fun r => ⟨rfl, trivial⟩) fun _ => trivial
  · refine only_run_bind (fun r => ⟨rfl, trivial⟩) fun _ => ?_
    generalize hc : (⟨_, issue.identifier, agent, risk, mode, environment⟩ : ExecutionContext) = c
    have hissue : c.linearIssueId = issue.identifier := by rw [← hc]
    refine only_run_tryCatch ?_ fun exc => ?_
    · exact executeBody_only (fun _ => isTurn_of_work hissue) (fun _ => ⟨rfl, by simp⟩)
        fun _ _ _ => hissue
    · exact executeFailed_only exc (fun _ he => hissue ▸ isTurn_of_cleanup he)
        (fun _ => ⟨rfl, by simp⟩) fun _ _ _ => hissue

/-- A turn recovers its issue, executes it where that went through, and may report. -/
theorem processIssue_returns {orch : RuntimeOrchestrator} {issue : Issue} {tr : List CallEvent}
    {o : Except Exc OrchestratorRunResult} (h : Returns (orch.processIssue issue).run tr o) :
    (∃ e, tr = [⟨.recover issue.identifier, .error e⟩] ∧ o = .error e) ∨
      ∃ b exec o' tail, tr = ⟨.recover issue.identifier, .ok b⟩ :: (exec ++ tail) ∧
        Returns (orch.runtime.execute orch.hasMove issue).run exec o' ∧
        ∀ ev ∈ tail, IsRecord ev.1 ∧ IsTurn issue.identifier ev.1 := by
  unfold RuntimeOrchestrator.processIssue at h
  rcases returns_run_bind.1 h with ⟨tr₁, tr₂, b, rfl, hrec, h₁⟩ | ⟨e, hrec, rfl⟩
  swap
  · exact Or.inl ⟨e, returns_call_ret.1 hrec, rfl⟩
  obtain rfl : tr₁ = [⟨.recover issue.identifier, .ok b⟩] := returns_call_ret.1 hrec
  right
  rcases returns_run_tryCatch.1 h₁ with ⟨result, hexec, -⟩ | ⟨exec, tail, e, rfl, hexec, hcatch⟩
  · obtain ⟨exec, _, c, rfl, hrun, hpure⟩ := returns_run_bind_ok.1 hexec
    obtain ⟨rfl, -⟩ := returns_pure.1 hpure
    exact ⟨b, exec, .ok c, [], rfl, hrun, List.forall_mem_nil _⟩
  · have honly : Only (fun ev => IsRecord ev.1 ∧ IsTurn issue.identifier ev.1) (if e.isConflict
        then do
          when orch.records (recordBlocked issue.identifier "RunConflict")
          pure { issueId := issue.identifier, status := "conflict", reason := some "RunConflict" }
        else if e.isBlocked then do
          let reason := if e.message = "" then e.typeName else e.message
          when orch.records (recordBlocked issue.identifier reason)
          pure { issueId := issue.identifier, status := "blocked", reason := some reason }
        else throw e : Proc OrchestratorRunResult).run := by
      split
      · exact only_run_bind (when_only fun r => ⟨⟨trivial, rfl⟩, trivial⟩) fun _ => trivial
      · split
        · exact only_run_bind (when_only fun r => ⟨⟨trivial, rfl⟩, trivial⟩) fun _ => trivial
        · trivial
    have htail := honly.mem hcatch
    rcases returns_run_bind.1 hexec with ⟨_, _, c, -, -, hpure⟩ | ⟨e', hrun, -⟩
    · cases (returns_pure.1 hpure).2
    · exact ⟨b, exec, .error e', tail, rfl, hrun, htail⟩

theorem processIssue_turn {orch : RuntimeOrchestrator} {issue : Issue} {tr : List CallEvent}
    {o : Except Exc OrchestratorRunResult} (h : Returns (orch.processIssue issue).run tr o) :
    ∀ ev ∈ tr, IsTurn issue.identifier ev.1 := by
  intro ev hev
  rcases processIssue_returns h with ⟨e, rfl, -⟩ | ⟨b, exec, o', tail, rfl, hexec, htail⟩
  · rw [List.mem_singleton.1 hev]
    exact rfl
  · rcases List.mem_cons.1 hev with rfl | hev
    · exact rfl
    · rcases List.mem_append.1 hev with hev | hev
      · exact (execute_only _ _ _).mem hexec ev hev
      · exact (htail ev hev).2

/-! ## The pass -/

/-- The calls made in the turns of decisions. -/
def IsTurnOf (decisions : List SelectionDecision) (call : Call) : Prop :=
  ∃ d ∈ decisions, IsTurn d.issue.identifier call

theorem processIssues_cons {orch : RuntimeOrchestrator} {d : SelectionDecision}
    {decisions : List SelectionDecision} {tr : List CallEvent}
    {o : Except Exc (List OrchestratorRunResult)}
    (h : Returns (orch.processIssues (d :: decisions)).run tr o) :
    ∃ turn rest o', tr = turn ++ rest ∧ Returns (orch.processIssue d.issue).run turn o' ∧
      (rest = [] ∨ ∃ result o'', o' = .ok result ∧
        Returns (orch.processIssues decisions).run rest o'') := by
  unfold RuntimeOrchestrator.processIssues at h
  rcases returns_run_bind.1 h with ⟨turn, rest, result, rfl, hturn, h₁⟩ | ⟨e, hturn, -⟩
  · refine ⟨turn, rest, _, rfl, hturn, Or.inr ⟨result, ?_⟩⟩
    rcases returns_run_bind.1 h₁ with ⟨tr₃, _, _, rfl, hrest, hpure⟩ | ⟨e, hrest, -⟩
    · obtain ⟨rfl, -⟩ := returns_pure.1 hpure
      exact ⟨_, rfl, by rw [List.append_nil]; exact hrest⟩
    · exact ⟨_, rfl, hrest⟩
  · exact ⟨tr, [], _, (List.append_nil tr).symm, hturn, Or.inl rfl⟩

theorem processIssues_turns {orch : RuntimeOrchestrator} {decisions : List SelectionDecision}
    {tr : List CallEvent} {o : Except Exc (List OrchestratorRunResult)}
    (h : Returns (orch.processIssues decisions).run tr o) : ∀ ev ∈ tr, IsTurnOf decisions ev.1 := by
  induction decisions generalizing tr o with
  | nil =>
      obtain ⟨rfl, -⟩ := returns_pure.1 h
      exact List.forall_mem_nil _
  | cons d decisions ih =>
      obtain ⟨turn, rest, o', rfl, hturn, hrest⟩ := processIssues_cons h
      intro ev hev
      rcases List.mem_append.1 hev with hev | hev
      · exact ⟨d, List.mem_cons_self, processIssue_turn hturn ev hev⟩
      · rcases hrest with rfl | ⟨_, o'', -, hrest⟩
        · cases hev
        · obtain ⟨d', hd', hturn'⟩ := ih hrest ev hev
          exact ⟨d', List.mem_cons_of_mem _ hd', hturn'⟩

theorem returns_processIssues_cons {orch : RuntimeOrchestrator} {d : SelectionDecision}
    {decisions : List SelectionDecision} {turn rest : List CallEvent}
    {result : OrchestratorRunResult} {results : List OrchestratorRunResult}
    (h : Returns (orch.processIssue d.issue).run turn (.ok result))
    (hrest : Returns (orch.processIssues decisions).run rest (.ok results)) :
    Returns (orch.processIssues (d :: decisions)).run (turn ++ rest) (.ok (result :: results)) := by
  unfold RuntimeOrchestrator.processIssues
  refine returns_run_bind_ok.2 ⟨turn, rest, result, rfl, h, ?_⟩
  exact returns_run_bind_ok.2
    ⟨rest, [], results, (List.append_nil rest).symm, hrest, returns_pure.2 ⟨rfl, rfl⟩⟩

/-- **The turn a call belongs to**: the turns before it have returned. -/
theorem processIssues_mem {orch : RuntimeOrchestrator} {decisions : List SelectionDecision}
    {tr : List CallEvent} {o : Except Exc (List OrchestratorRunResult)}
    (h : Returns (orch.processIssues decisions).run tr o) {ev : CallEvent} (hev : ev ∈ tr) :
    ∃ before d after tr₁ turn tr₂ results o', decisions = before ++ d :: after ∧
      tr = tr₁ ++ turn ++ tr₂ ∧ ev ∈ turn ∧
      Returns (orch.processIssues before).run tr₁ (.ok results) ∧
      Returns (orch.processIssue d.issue).run turn o' ∧ ∀ ev' ∈ tr₂, IsTurnOf after ev'.1 := by
  induction decisions generalizing tr o with
  | nil =>
      obtain ⟨rfl, -⟩ := returns_pure.1 h
      cases hev
  | cons d decisions ih =>
      obtain ⟨turn, rest, o', rfl, hturn, hrest⟩ := processIssues_cons h
      rcases List.mem_append.1 hev with hev | hev
      · refine ⟨[], d, decisions, [], turn, rest, [], o', rfl, rfl, hev,
          returns_pure.2 ⟨rfl, rfl⟩, hturn, ?_⟩
        rcases hrest with rfl | ⟨_, o'', -, hrest⟩
        · exact List.forall_mem_nil _
        · exact processIssues_turns hrest
      · rcases hrest with rfl | ⟨result, o'', rfl, hrest⟩
        · cases hev
        obtain ⟨before, d', after, tr₁, turn', tr₂, results, o₂, rfl, rfl, hmem, hbefore, hturn',
          hafter⟩ := ih hrest hev
        exact ⟨d :: before, d', after, turn ++ tr₁, turn', tr₂, result :: results, o₂, rfl,
          by simp, hmem, returns_processIssues_cons hturn hbefore, hturn', hafter⟩

/-- Once the turns of the first decisions have returned, the others follow. -/
theorem processIssues_rest {orch : RuntimeOrchestrator} {before rest : List SelectionDecision}
    {tr tr' : List CallEvent} {results : List OrchestratorRunResult}
    {o : Except Exc (List OrchestratorRunResult)}
    (h : Returns (orch.processIssues before).run tr (.ok results))
    (h' : Returns (orch.processIssues (before ++ rest)).run (tr ++ tr') o) :
    ∃ o', Returns (orch.processIssues rest).run tr' o' := by
  induction before generalizing tr results o with
  | nil =>
      obtain ⟨rfl, -⟩ := returns_pure.1 h
      exact ⟨o, h'⟩
  | cons d before ih =>
      obtain ⟨turn, tr₂, result, rfl, hturn, h₁⟩ := returns_run_bind_ok.1 h
      obtain ⟨tr₃, _, results', rfl, hbefore, hpure⟩ := returns_run_bind_ok.1 h₁
      obtain ⟨rfl, -⟩ := returns_pure.1 hpure
      rw [List.append_nil, List.append_assoc] at h'
      have hleft := Reach.residue (reach_run_bind hturn _) h'
      rcases returns_run_bind.1 hleft with ⟨tr₄, _, _, heq, hall, hpure⟩ | ⟨e, hall, -⟩
      · obtain ⟨rfl, -⟩ := returns_pure.1 hpure
        rw [List.append_nil] at heq
        exact ih hbefore (heq ▸ hall)
      · exact ih hbefore hall

/-- The pass up to the turn of issue `i`. -/
def RuntimeOrchestrator.passBefore (orch : RuntimeOrchestrator) (i : String) :
    Proc (List OrchestratorRunResult) := do
  let decisions ← poll orch.pollerRecords
  orch.processIssues (decisions.takeWhile fun d => d.issue.identifier ≠ i)

theorem passBefore_other {orch : RuntimeOrchestrator} {i : String} {tr : List CallEvent}
    {results : List OrchestratorRunResult}
    (h : Returns (orch.passBefore i).run tr (.ok results)) :
    ∀ ev ∈ tr, ev.1 = .readIssues ∨ IsRecord ev.1 ∨ ∃ j, j ≠ i ∧ IsTurn j ev.1 := by
  obtain ⟨tr₁, tr₂, decisions, rfl, hpoll, hturns⟩ := returns_run_bind_ok.1 h
  intro ev hev
  rcases List.mem_append.1 hev with hev | hev
  · rcases poll_returns hpoll with ⟨e, -, ho⟩ | ⟨snapshots, tail, rfl, htail, -⟩
    · cases ho
    · rcases List.mem_cons.1 hev with rfl | hev
      · exact Or.inl rfl
      · exact Or.inr (Or.inl (htail ev hev))
  · obtain ⟨d, hd, hturn⟩ := processIssues_turns hturns ev hev
    have hne := List.mem_takeWhile_imp hd
    exact Or.inr (Or.inr ⟨_, of_decide_eq_true hne, hturn⟩)

/-- What a pass does: it reads, reports what is blocked, and takes the eligible issues in turn. -/
theorem runOnce_returns {orch : RuntimeOrchestrator} {tr : List CallEvent}
    {o : Except Exc (List OrchestratorRunResult)} (h : Returns orch.runOnce.run tr o) :
    (∃ e, tr = [⟨.readIssues, .error e⟩]) ∨
      ∃ snapshots records turns, tr = ⟨.readIssues, .ok snapshots⟩ :: (records ++ turns) ∧
        (∀ ev ∈ records, IsRecord ev.1) ∧ (turns = [] ∨
          Returns (poll orch.pollerRecords).run (⟨.readIssues, .ok snapshots⟩ :: records)
            (.ok (decisionsOf snapshots)) ∧
          ∃ o', Returns (orch.processIssues (decisionsOf snapshots)).run turns o') := by
  unfold RuntimeOrchestrator.runOnce at h
  rcases returns_run_bind.1 h with ⟨tr₁, turns, decisions, rfl, hpoll, h₁⟩ | ⟨e, hpoll, -⟩
  · rcases poll_returns hpoll with ⟨e, -, ho⟩ | ⟨snapshots, tail, rfl, htail, hdec⟩
    · cases ho
    · obtain rfl := hdec decisions rfl
      exact Or.inr ⟨snapshots, tail, turns, rfl, htail, Or.inr ⟨hpoll, o, h₁⟩⟩
  · rcases poll_returns hpoll with ⟨e', rfl, -⟩ | ⟨snapshots, tail, rfl, htail, -⟩
    · exact Or.inl ⟨e', rfl⟩
    · exact Or.inr ⟨snapshots, tail, [], by simp, htail, Or.inl rfl⟩

/-- A call of a pass is its read, a report, or made in the turn of an issue it has read. -/
theorem runOnce_mem {orch : RuntimeOrchestrator} {tr : List CallEvent}
    {o : Except Exc (List OrchestratorRunResult)} (h : Returns orch.runOnce.run tr o)
    {ev : CallEvent} (hev : ev ∈ tr) : ev.1 = .readIssues ∨ IsRecord ev.1 ∨
      ∃ snapshots, tr.head? = some ⟨.readIssues, .ok snapshots⟩ ∧
        IsTurnOf (decisionsOf snapshots) ev.1 := by
  rcases runOnce_returns h with ⟨e, rfl⟩ | ⟨snapshots, records, turns, rfl, hrecords, hturns⟩
  · rw [List.mem_singleton.1 hev]
    exact Or.inl rfl
  · rcases List.mem_cons.1 hev with rfl | hev
    · exact Or.inl rfl
    · rcases List.mem_append.1 hev with hev | hev
      · exact Or.inr (Or.inl (hrecords _ hev))
      · rcases hturns with rfl | ⟨-, o', hturns⟩
        · cases hev
        · exact Or.inr (Or.inr ⟨snapshots, rfl, processIssues_turns hturns _ hev⟩)

theorem not_read_of_turns {decisions : List SelectionDecision} {tr : List CallEvent}
    (h : ∀ ev ∈ tr, IsTurnOf decisions ev.1)
    {r : Except Exc (List LinearIssueSnapshot)} : (⟨.readIssues, r⟩ : CallEvent) ∉ tr := by
  intro hmem
  obtain ⟨d, -, hturn⟩ := h _ hmem
  exact hturn

/-- A pass reads once, and before everything else. -/
theorem runOnce_read {orch : RuntimeOrchestrator} {tr : List CallEvent}
    {o : Except Exc (List OrchestratorRunResult)} (h : Returns orch.runOnce.run tr o)
    {snapshots : List LinearIssueSnapshot}
    (hread : (⟨.readIssues, .ok snapshots⟩ : CallEvent) ∈ tr) :
    ∃ records turns, tr = ⟨.readIssues, .ok snapshots⟩ :: (records ++ turns) ∧
      (∀ ev ∈ records, IsRecord ev.1) ∧ (turns = [] ∨
        Returns (poll orch.pollerRecords).run (⟨.readIssues, .ok snapshots⟩ :: records)
          (.ok (decisionsOf snapshots)) ∧
        ∃ o', Returns (orch.processIssues (decisionsOf snapshots)).run turns o') := by
  rcases runOnce_returns h with ⟨e, rfl⟩ | ⟨snapshots', records, turns, rfl, hrecords, hturns⟩
  · cases List.mem_singleton.1 hread
  · rcases List.mem_cons.1 hread with heq | hread
    · cases heq
      exact ⟨records, turns, rfl, hrecords, hturns⟩
    · rcases List.mem_append.1 hread with hread | hread
      · exact (hrecords _ hread).elim
      · rcases hturns with rfl | ⟨-, o', hturns⟩
        · cases hread
        · exact (not_read_of_turns (processIssues_turns hturns) hread).elim

/-! ## Getting to an issue -/

theorem mem_decisionsOf {snapshots : List LinearIssueSnapshot} {d : SelectionDecision} :
    d ∈ decisionsOf snapshots ↔ ∃ s ∈ snapshots, select s = d ∧ (select s).action = .eligible := by
  unfold decisionsOf
  rw [List.mem_filter, List.mem_map, decide_eq_true_eq]
  constructor
  · intro ⟨⟨s, hs, hd⟩, ha⟩
    exact ⟨s, hs, hd, hd ▸ ha⟩
  · intro ⟨s, hs, hd, ha⟩
    exact ⟨⟨s, hs, hd⟩, hd ▸ ha⟩

/-- A pass decides on every issue once. -/
theorem nodup_decisionsOf {snapshots : List LinearIssueSnapshot}
    (h : (snapshots.map (·.identifier)).Nodup) :
    ((decisionsOf snapshots).map (·.issue.identifier)).Nodup := by
  refine List.Nodup.sublist (List.Sublist.map _ List.filter_sublist) ?_
  rw [List.map_map]
  have hids : (fun s => (select s).issue.identifier) =
      (LinearIssueSnapshot.identifier : LinearIssueSnapshot → String) := by
    funext s
    rw [select_issue]
    rfl
  show (snapshots.map fun s => (select s).issue.identifier).Nodup
  rw [hids]
  exact h

/-- The decisions before the one for issue `i`. -/
theorem takeWhile_before {before after : List SelectionDecision} {d : SelectionDecision}
    (h : ((before ++ d :: after).map (·.issue.identifier)).Nodup) :
    (before ++ d :: after).takeWhile (fun d' => d'.issue.identifier ≠ d.issue.identifier) =
      before := by
  rw [List.map_append, List.map_cons, List.nodup_append] at h
  have hbefore : ∀ d' ∈ before, d'.issue.identifier ≠ d.issue.identifier := fun d' hd' =>
    h.2.2 _ (List.mem_map_of_mem hd') _ List.mem_cons_self
  rw [List.takeWhile_append_of_pos (by simpa using hbefore), List.takeWhile_cons_of_neg (by simp),
    List.append_nil]

/-- Where a pass recovers issue `i`, the issue is eligible, and the turns before its own have
returned. -/
theorem before_of_recover {orch : RuntimeOrchestrator} {tr : List CallEvent}
    {o : Except Exc (List OrchestratorRunResult)} (h : Returns orch.runOnce.run tr o)
    {snapshots : List LinearIssueSnapshot}
    (hread : (⟨.readIssues, .ok snapshots⟩ : CallEvent) ∈ tr)
    (hnodup : (snapshots.map (·.identifier)).Nodup) {i : String} {r : Except Exc Bool}
    (hrec : (⟨.recover i, r⟩ : CallEvent) ∈ tr) :
    (∃ d ∈ decisionsOf snapshots, d.issue.identifier = i) ∧ ∃ pre post results r', tr =
      pre ++ ⟨.recover i, r'⟩ :: post ∧ Returns (orch.passBefore i).run pre (.ok results) := by
  obtain ⟨records, turns, rfl, hrecords, hturns⟩ := runOnce_read h hread
  have hmem : (⟨.recover i, r⟩ : CallEvent) ∈ turns := by
    rcases List.mem_cons.1 hrec with heq | hrec
    · cases heq
    · rcases List.mem_append.1 hrec with hrec | hrec
      · exact (hrecords _ hrec).elim
      · exact hrec
  rcases hturns with rfl | ⟨hpoll, o', hturns⟩
  · cases hmem
  obtain ⟨before, d, after, tr₁, turn, tr₂, results, o₂, hsplit, rfl, hturn, hbefore, hrun, -⟩ :=
    processIssues_mem hturns hmem
  have hid : d.issue.identifier = i := (processIssue_turn hrun _ hturn).symm
  refine ⟨⟨d, by simp [hsplit], hid⟩, ?_⟩
  obtain ⟨r', tail, rfl⟩ : ∃ r' tail, turn = ⟨.recover i, r'⟩ :: tail := by
    rw [← hid]
    rcases processIssue_returns hrun with ⟨e, rfl, -⟩ | ⟨b, exec, _, tail, rfl, -, -⟩
    · exact ⟨_, _, rfl⟩
    · exact ⟨_, _, rfl⟩
  refine ⟨⟨.readIssues, .ok snapshots⟩ :: (records ++ tr₁), tail ++ tr₂, results, r', by simp, ?_⟩
  refine returns_run_bind_ok.2 ⟨_, tr₁, _, rfl, hpoll, ?_⟩
  have hnodup' := nodup_decisionsOf hnodup
  rw [hsplit] at hnodup'
  rw [hsplit, ← hid, takeWhile_before hnodup']
  exact hbefore

/-- Where the turns before that of an eligible issue have returned, the pass recovers it next. -/
theorem recover_of_before {orch : RuntimeOrchestrator} {pre post : List CallEvent}
    {o : Except Exc (List OrchestratorRunResult)} (h : Returns orch.runOnce.run (pre ++ post) o)
    {snapshots : List LinearIssueSnapshot}
    (hread : (⟨.readIssues, .ok snapshots⟩ : CallEvent) ∈ pre ++ post)
    (hnodup : (snapshots.map (·.identifier)).Nodup) {d : SelectionDecision}
    (hd : d ∈ decisionsOf snapshots) {results : List OrchestratorRunResult}
    (hbefore : Returns (orch.passBefore d.issue.identifier).run pre (.ok results)) :
    ∃ r post', post = ⟨.recover d.issue.identifier, r⟩ :: post' := by
  obtain ⟨tr₁, tr₂, decisions, rfl, hpoll, hturns⟩ := returns_run_bind_ok.1 hbefore
  rw [List.append_assoc] at h hread
  obtain rfl : decisions = decisionsOf snapshots := by
    rcases poll_returns hpoll with ⟨e, -, ho⟩ | ⟨snapshots', tail, rfl, -, hdec⟩
    · cases ho
    · obtain ⟨records, turns, heq, -⟩ := runOnce_read h hread
      rw [List.cons_append] at heq
      injection heq with heq
      cases heq
      exact hdec decisions rfl
  have hleft := Reach.residue (reach_run_bind hpoll _) h
  -- The decisions left are the one for the issue and those after it.
  obtain ⟨before, after, hsplit⟩ := List.append_of_mem hd
  have hnodup' := nodup_decisionsOf hnodup
  rw [hsplit] at hnodup' hturns hleft
  rw [takeWhile_before hnodup'] at hturns
  obtain ⟨o', hrest⟩ := processIssues_rest hturns hleft
  obtain ⟨turn, rest, _, rfl, hturn, -⟩ := processIssues_cons hrest
  rcases processIssue_returns hturn with ⟨e, rfl, -⟩ | ⟨b, exec, _, tail, rfl, -, -⟩
  · exact ⟨_, _, rfl⟩
  · exact ⟨_, _, rfl⟩

end HermesRuntime
