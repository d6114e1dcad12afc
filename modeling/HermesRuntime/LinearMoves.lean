import HermesRuntime.PersistedEvents
import HermesRuntime.TickProgress

/-!
# The moves of a tick in Linear

A tick asks Linear for its Todo issues twice: once for the ids `move_status` goes by, and once
for the issues to execute. An issue that only the second answer has is executed like any other,
and none of its moves reach Linear.

* `lookup_issuesById` — the id a move goes by.
* `exists_pass` — a pass in which everything goes through.
* `moves_land` — the moves of issues both answers have.
* `moves_land_iff` — when all moves of all dispatched issues reach Linear.
-/

namespace HermesRuntime

open Effects Prog Proc

/-! ## The two answers -/

theorem todoIssues_issues (team : LinearTeam) :
    todoIssues team.issues = team.todoNodes.map (·.toLinearIssueSnapshot) := by
  unfold todoIssues LinearTeam.issues LinearTeam.todoNodes
  rw [List.filter_map, List.map_take]
  rfl

/-- Identifiers tell the nodes of an answer apart. -/
theorem nodup_todoNodes (team : LinearTeam) : (team.todoNodes.map (·.identifier)).Nodup :=
  team.nodup.sublist (((List.take_sublist _ _).trans List.filter_sublist).map _)

theorem todoNodes_unique {team : LinearTeam} {n n' : LinearNode} (h : n ∈ team.todoNodes)
    (h' : n' ∈ team.todoNodes) (heq : n.identifier = n'.identifier) : n = n' :=
  List.inj_on_of_nodup_map (nodup_todoNodes team) h h' heq

/-- The first answer has the issue, with the same id. -/
def LinearTeam.Lists (team : LinearTeam) (n : LinearNode) : Prop :=
  ∃ n₀ ∈ team.todoNodes, n₀.identifier = n.identifier ∧ n₀.id = n.id

/-- The issues of the second answer that are within the bound: those without a card whose labels
pass, up to the bound. -/
def LinearTeam.within (team : LinearTeam) (tasks : List BoardTask) (maxDispatch : Int) :
    List LinearNode :=
  (team.todoNodes.filter fun n =>
    !hasCard tasks n.identifier && (gateBlockReason n.labels).isNone).take maxDispatch.toNat

theorem map_within (team : LinearTeam) (tasks : List BoardTask) (m : Int) :
    (team.within tasks m).map (·.toLinearIssueSnapshot) =
      (candidates tasks (todoIssues team.issues)).take m.toNat := by
  rw [todoIssues_issues]
  unfold LinearTeam.within candidates
  rw [List.map_take, List.filter_map]
  rfl

theorem mem_within {team : LinearTeam} {tasks : List BoardTask} {m : Int} {n : LinearNode}
    (h : n ∈ team.within tasks m) :
    n ∈ team.todoNodes ∧ n.status = "Todo" ∧ gateBlockReason n.labels = none := by
  obtain ⟨hmem, hpass⟩ := List.mem_filter.1 (List.mem_of_mem_take h)
  rw [Bool.and_eq_true, Option.isNone_iff_eq_none] at hpass
  exact ⟨hmem, of_decide_eq_true (List.mem_filter.1 (List.mem_of_mem_take hmem)).2, hpass.2⟩

/-- What a guarded read hands on is within the bound. -/
theorem read_within {team : LinearTeam} {tasks : List BoardTask} {m : Int}
    {read : List LinearIssueSnapshot} (h : guardedReadIssues team.issues tasks m = .ok read) :
    read = (team.within tasks m).map (·.toLinearIssueSnapshot) := by
  rw [map_within]
  by_cases hm : 1 ≤ m
  · rw [guardedReadIssues_eq _ _ hm] at h
    cases h
    rfl
  · have hzero : m.toNat = 0 := by omega
    rw [hzero, List.take_zero]
    unfold guardedReadIssues at h
    by_cases hnil : todoIssues team.issues = []
    · rw [if_pos hnil] at h
      cases h
      rfl
    · simp only [hnil, if_false, selectWithGuard, if_pos (Int.not_le.1 hm)] at h
      cases h

/-! ## One move -/

/-- `issues_by_id` has each node under its identifier. -/
theorem lookup_issuesById {nodes : List LinearNode} (h : (nodes.map (·.identifier)).Nodup)
    {i : String} {n : LinearNode} :
    (issuesById nodes).lookup i = some n ↔ n ∈ nodes ∧ n.identifier = i := by
  have hmem := Mapping.mem_foldl_set (fun n : LinearNode => n.identifier) (fun n => n) h
    (e := ⟨i, n⟩)
  unfold issuesById
  rw [← Option.mem_def, AList.mem_lookup_iff, hmem]
  constructor
  · rintro ⟨n', hn', heq⟩
    cases heq
    exact ⟨hn', rfl⟩
  · rintro ⟨hn, rfl⟩
    exact ⟨n, hn, rfl⟩

theorem returns_setState {issueId stateId : String} {calls : List LinearEvent}
    {r : Except Exc Unit} : Returns (setState issueId stateId).run calls r ↔
      calls = [⟨.setState issueId stateId, r⟩] :=
  returns_call_ret

/-- The move of a known issue to a status that has a state is one call. -/
theorem returns_moveIssueStatus {states : Mapping String} {byId : Mapping LinearNode}
    {i status stateId : String} {target : LinearNode} (htarget : byId.lookup i = some target)
    (hstate : states.lookup status = some stateId) {calls : List LinearEvent}
    {r : Except Exc Unit} : Returns (moveIssueStatus states byId i status).run calls r ↔
      calls = [⟨.setState target.id stateId, r⟩] := by
  unfold moveIssueStatus
  rw [htarget]
  dsimp only
  rw [hstate]
  exact returns_setState

/-- The move of an unknown issue calls nothing. -/
theorem returns_moveIssueStatus_unknown {states : Mapping String} {byId : Mapping LinearNode}
    {i status : String} (h : byId.lookup i = none) {calls : List LinearEvent}
    {r : Except Exc Unit} : Returns (moveIssueStatus states byId i status).run calls r ↔
      calls = [] ∧ r = .ok () := by
  unfold moveIssueStatus
  rw [h]
  exact returns_pure

/-- Any move can go through. -/
theorem exists_moveIssueStatus (states : Mapping String) (byId : Mapping LinearNode)
    (i status : String) :
    ∃ calls, Returns (moveIssueStatus states byId i status).run calls (.ok ()) := by
  cases htarget : byId.lookup i with
  | none => exact ⟨[], (returns_moveIssueStatus_unknown htarget).2 ⟨rfl, rfl⟩⟩
  | some target =>
      cases hstate : states.lookup status with
      | none =>
          refine ⟨[], ?_⟩
          unfold moveIssueStatus
          rw [htarget]
          dsimp only
          rw [hstate]
          exact returns_pure.2 ⟨rfl, rfl⟩
      | some stateId => exact ⟨_, (returns_moveIssueStatus htarget hstate).2 rfl⟩

/-- The statuses `execute` moves an issue to, with the Blocked one where it has a state. -/
def movedStatuses (setting : Option String) : List String :=
  if stateBlocked setting = "" then ["In Progress", "In Review"]
  else ["In Progress", "In Review", "Blocked"]

/-- They all have a state. -/
theorem exists_state {setting : Option String} {status : String}
    (h : status ∈ movedStatuses setting) :
    ∃ stateId, (linearStatusStates setting).lookup status = some stateId := by
  unfold movedStatuses at h
  unfold linearStatusStates
  by_cases hblocked : stateBlocked setting = ""
  · rw [if_pos hblocked] at h
    simp only [if_pos hblocked]
    simp only [List.mem_cons, List.not_mem_nil, or_false] at h
    rcases h with rfl | rfl
    · exact ⟨stateInProgress, rfl⟩
    · exact ⟨stateInReview, rfl⟩
  · rw [if_neg hblocked] at h
    simp only [if_neg hblocked, Mapping.lookup_set]
    simp only [List.mem_cons, List.not_mem_nil, or_false] at h
    rcases h with rfl | rfl | rfl
    · exact ⟨stateInProgress, rfl⟩
    · exact ⟨stateInReview, rfl⟩
    · exact ⟨stateBlocked setting, rfl⟩

/-! ## A pass in which everything goes through -/

/-- Every move of the trace goes through. -/
def MovesSucceed (tr : List CallEvent) : Prop :=
  ∀ i status r, (⟨.moveStatus i status, r⟩ : CallEvent) ∈ tr → r = .ok ()

theorem MovesSucceed.append {tr tr' : List CallEvent} (h : MovesSucceed tr)
    (h' : MovesSucceed tr') : MovesSucceed (tr ++ tr') := fun i status r hmem =>
  (List.mem_append.1 hmem).elim (h i status r) (h' i status r)

/-- What the dispatcher returns for a run that passes the gates. -/
def passedResult : ExecutionResult where
  testsStatus := some "passed"
  reviewStatus := some "approved"

/-- The issue is moved to `In Progress`, and then dispatched. -/
def MovedAndDispatched (issueId : String) (tr : List CallEvent) : Prop :=
  (⟨.moveStatus issueId "In Progress", .ok ()⟩ : CallEvent) ∈ tr ∧
    ∃ c r, c.linearIssueId = issueId ∧ (⟨.dispatch c, r⟩ : CallEvent) ∈ tr

/-- The turn of an issue whose execution goes through. -/
theorem returns_processIssue {orch : RuntimeOrchestrator} {issue : Issue} {exec : List CallEvent}
    {c : ExecutionContext}
    (h : Returns (orch.runtime.execute orch.hasMove issue).run exec (.ok c)) :
    Returns (orch.processIssue issue).run (⟨.recover issue.identifier, .ok false⟩ :: exec)
      (.ok { issueId := issue.identifier, status := "completed", runId := some c.runId }) := by
  unfold RuntimeOrchestrator.processIssue
  refine returns_run_bind_ok.2 ⟨[_], exec, false, rfl, returns_call_ret.2 rfl, ?_⟩
  refine returns_run_tryCatch.2 (Or.inl ⟨_, ?_, rfl⟩)
  exact returns_run_bind_ok.2
    ⟨exec, [], c, (List.append_nil exec).symm, h, returns_pure.2 ⟨rfl, rfl⟩⟩

/-- An issue `classify_issue` accepts can be claimed, moved, dispatched and finished. -/
theorem exists_turn (rt : AgentRuntime) {issue : Issue}
    (h : ∃ fields, classifyIssue issue = .ok fields) :
    ∃ tr result, Returns ((mainOrchestrator rt).processIssue issue).run tr (.ok result) ∧
      MovesSucceed tr ∧ MovedAndDispatched issue.identifier tr := by
  obtain ⟨⟨agent, risk, mode, environment⟩, hclass⟩ := h
  have hcontext : IsContextOf issue
      ⟨newRunId 0 0, issue.identifier, agent, risk, mode, environment⟩ := ⟨hclass, rfl, 0, 0, rfl⟩
  generalize hc : (⟨newRunId 0 0, issue.identifier, agent, risk, mode, environment⟩ :
    ExecutionContext) = c at hcontext
  have hgate : gatesPassed c.agent passedResult = true := by simp [gatesPassed, passedResult]
  have hnorm : normalizeEvents [] passedResult.events = .ok [] := rfl
  obtain ⟨drawn, hexec⟩ :=
    execute_of_dispatch rt true hcontext (returns_dispatchIssue true issue hnorm hgate)
  refine ⟨_, _, returns_processIssue hexec, ?_, ?_, ?_⟩
  · intro i status r hmem
    simp only [claimSteps, movedTo, List.mem_append, List.mem_cons, List.not_mem_nil, or_false,
      List.map_nil, if_true] at hmem
    rcases hmem with heq | (heq | heq | heq) | (heq | heq | heq | heq) | heq | heq
    case inr.inr.inl.inl | inr.inr.inr.inl => exact eq_of_heq (Sigma.mk.inj heq).2
    all_goals cases heq
  · simp [movedTo]
  · exact ⟨c, .ok passedResult, hcontext.2.1, by simp⟩

/-- So can issues one after the other. -/
theorem exists_turns (rt : AgentRuntime) {decisions : List SelectionDecision}
    (h : ∀ d ∈ decisions, ∃ fields, classifyIssue d.issue = .ok fields) :
    ∃ tr results, Returns ((mainOrchestrator rt).processIssues decisions).run tr (.ok results) ∧
      MovesSucceed tr ∧ ∀ d ∈ decisions, MovedAndDispatched d.issue.identifier tr := by
  induction decisions with
  | nil =>
      refine ⟨[], [], returns_pure.2 ⟨rfl, rfl⟩, ?_, List.forall_mem_nil _⟩
      intro i status r hmem
      cases hmem
  | cons d decisions ih =>
      rw [List.forall_mem_cons] at h
      obtain ⟨turn, result, hturn, hmoves, hdone⟩ := exists_turn rt h.1
      obtain ⟨rest, results, hrest, hmoves', hdone'⟩ := ih h.2
      refine ⟨turn ++ rest, result :: results, returns_processIssues_cons hturn hrest,
        hmoves.append hmoves', List.forall_mem_cons.2 ⟨?_, ?_⟩⟩
      · obtain ⟨hmove, c, r, hc, hdisp⟩ := hdone
        exact ⟨List.mem_append_left _ hmove, c, r, hc, List.mem_append_left _ hdisp⟩
      · intro d' hd'
        obtain ⟨hmove, c, r, hc, hdisp⟩ := hdone' d' hd'
        exact ⟨List.mem_append_right _ hmove, c, r, hc, List.mem_append_right _ hdisp⟩

/-- A pass over eligible issues can execute them all. -/
theorem exists_pass (rt : AgentRuntime) {read : List LinearIssueSnapshot}
    (h : ∀ s ∈ read, (select s).action = .eligible) :
    ∃ turns results, Returns (mainOrchestrator rt).runOnce.run (⟨.readIssues, .ok read⟩ :: turns)
      (.ok results) ∧ (∀ r, (⟨.readIssues, r⟩ : CallEvent) ∉ turns) ∧ MovesSucceed turns ∧
      ∀ s ∈ read, MovedAndDispatched s.identifier turns := by
  have hclass : ∀ d ∈ read.map select, ∃ fields, classifyIssue d.issue = .ok fields := by
    rw [List.forall_mem_map]
    intro s hs
    rw [select_issue]
    exact action_eligible_iff.1 (h s hs)
  obtain ⟨turns, results, hturns, hmoves, hdone⟩ := exists_turns rt hclass
  have hpoll : Returns (poll true).run [⟨.readIssues, .ok read⟩] (.ok (read.map select)) :=
    returns_run_bind_ok.2 ⟨[_], [], read, rfl, returns_call_ret.2 rfl,
      (returns_pollSnapshots h).2 ⟨rfl, rfl⟩⟩
  refine ⟨turns, results, returns_run_bind_ok.2 ⟨[_], turns, _, rfl, hpoll, hturns⟩,
    fun r => not_read_of_turns (processIssues_turns hturns), hmoves, fun s hs => ?_⟩
  have hs' := hdone _ (List.mem_map_of_mem hs)
  rw [select_issue] at hs'
  exact hs'

/-- The issue of a dispatch has been read. -/
theorem read_of_dispatch {orch : RuntimeOrchestrator} {tr : List CallEvent}
    {q : Prog Call Call.Resp (Except Exc (List OrchestratorRunResult))}
    (h : Reach orch.runOnce.run tr q) {c : ExecutionContext} {r : Except Exc ExecutionResult}
    (hdisp : (⟨.dispatch c, r⟩ : CallEvent) ∈ tr) :
    ∃ read, (⟨.readIssues, .ok read⟩ : CallEvent) ∈ tr ∧
      ∃ s ∈ read, s.identifier = c.linearIssueId := by
  obtain ⟨first, tr, rfl⟩ := List.exists_cons_of_ne_nil (List.ne_nil_of_mem hdisp)
  obtain ⟨later, o, hreturns⟩ := h.extend
  rcases runOnce_mem hreturns (List.mem_append_left later hdisp) with
    heq | hrecord | ⟨read, hhead, d, hd, hturn⟩
  · cases heq
  · exact hrecord.elim
  · obtain ⟨s, hs, rfl, -⟩ := mem_decisionsOf.1 hd
    rw [select_issue] at hturn
    obtain rfl : first = ⟨.readIssues, .ok read⟩ := Option.some.inj hhead
    exact ⟨read, List.mem_cons_self, s, hs, Eq.symm hturn⟩

/-! ## The moves of a tick -/

/-- The calls of a pass that are answered by Linear, as its issues are at the two queries of the
tick: the pass reads the second answer, and moves by the ids of the first. -/
structure LinearAnswers (setting : Option String) (before after : LinearTeam)
    (tasks : List BoardTask) (maxDispatch : Int) (tr : List CallEvent) : Prop where
  reads : ∀ read, (⟨.readIssues, .ok read⟩ : CallEvent) ∈ tr →
    guardedReadIssues after.issues tasks maxDispatch = .ok read
  moves : ∀ i status r, (⟨.moveStatus i status, r⟩ : CallEvent) ∈ tr → ∃ calls,
    Returns (moveIssueStatus (linearStatusStates setting) (issuesById before.todoNodes) i
      status).run calls r

/-- Every move of an issue that is dispatched is one call for the issue that has been read. -/
def MovesLand (setting : Option String) (before after : LinearTeam) (tr : List CallEvent) : Prop :=
  ∀ c answer, (⟨.dispatch c, answer⟩ : CallEvent) ∈ tr →
    ∀ n ∈ after.todoNodes, n.identifier = c.linearIssueId →
    ∀ status ∈ movedStatuses setting, ∀ r,
      (⟨.moveStatus c.linearIssueId status, r⟩ : CallEvent) ∈ tr → ∀ calls,
      Returns (moveIssueStatus (linearStatusStates setting) (issuesById before.todoNodes)
        c.linearIssueId status).run calls r →
      ∃ stateId, (linearStatusStates setting).lookup status = some stateId ∧
        calls = [⟨.setState n.id stateId, r⟩]

variable {rt : AgentRuntime} {setting : Option String} {before after : LinearTeam}
  {tasks : List BoardTask} {m : Int}

/-- The moves of issues that both answers have reach Linear. -/
theorem moves_land (hlists : ∀ n ∈ after.within tasks m, before.Lists n) {tr : List CallEvent}
    {q : Prog Call Call.Resp (Except Exc (List OrchestratorRunResult))}
    (h : Reach (mainOrchestrator rt).runOnce.run tr q)
    (hans : LinearAnswers setting before after tasks m tr) : MovesLand setting before after tr := by
  intro c answer hdisp n hn hid status hstatus r hmove calls hcalls
  obtain ⟨read, hread, s, hs, hsid⟩ := read_of_dispatch h hdisp
  rw [read_within (hans.reads read hread)] at hs
  obtain ⟨n', hn', rfl⟩ := List.mem_map.1 hs
  obtain rfl : n = n' := todoNodes_unique hn (mem_within hn').1 (hid.trans hsid.symm)
  obtain ⟨n₀, hn₀, hid₀, hsame⟩ := hlists n hn'
  obtain ⟨stateId, hstate⟩ := exists_state hstatus
  have htarget := (lookup_issuesById (nodup_todoNodes before)).2 ⟨hn₀, hid₀.trans hid⟩
  refine ⟨stateId, hstate, ?_⟩
  rw [← hsame]
  exact (returns_moveIssueStatus htarget hstate).1 hcalls

/-- An issue the first answer does not have is dispatched in some pass, and its moves do not
reach Linear. -/
theorem exists_lost_move (rt : AgentRuntime) (setting : Option String) {n : LinearNode}
    (hn : n ∈ after.within tasks m) (hm : 1 ≤ m)
    (hlists : ¬ before.Lists n) : ∃ tr results,
      Returns (mainOrchestrator rt).runOnce.run tr (.ok results) ∧
      LinearAnswers setting before after tasks m tr ∧ ¬ MovesLand setting before after tr := by
  have hread := guardedReadIssues_eq after.issues tasks hm
  rw [← map_within] at hread
  have heligible : ∀ s ∈ (after.within tasks m).map (·.toLinearIssueSnapshot),
      (select s).action = .eligible := by
    rw [List.forall_mem_map]
    intro n' hn'
    exact (select_eligible (mem_within hn').2.1 (mem_within hn').2.2).1
  obtain ⟨turns, results, hrun, hnone, hmoves, hdone⟩ := exists_pass rt heligible
  refine ⟨_, results, hrun, ⟨?_, ?_⟩, ?_⟩
  · intro read hmem
    rcases List.mem_cons.1 hmem with heq | hmem
    · cases heq
      exact hread
    · exact absurd hmem (hnone _)
  · intro i status r hmem
    rcases List.mem_cons.1 hmem with heq | hmem
    · cases heq
    · obtain rfl := hmoves i status r hmem
      exact exists_moveIssueStatus _ _ i status
  · intro hland
    obtain ⟨hmove, c, answer, hc, hdisp⟩ := hdone _ (List.mem_map_of_mem hn)
    have hstatus : "In Progress" ∈ movedStatuses setting := by
      unfold movedStatuses
      split <;> simp
    obtain ⟨calls, hcalls⟩ := exists_moveIssueStatus (linearStatusStates setting)
      (issuesById before.todoNodes) c.linearIssueId "In Progress"
    rw [← hc] at hmove
    obtain ⟨stateId, hstate, rfl⟩ := hland c answer (List.mem_cons_of_mem _ hdisp) n
      (mem_within hn).1 hc.symm _ hstatus _ (List.mem_cons_of_mem _ hmove) calls hcalls
    cases htarget : (issuesById before.todoNodes).lookup c.linearIssueId with
    | none => cases ((returns_moveIssueStatus_unknown htarget).1 hcalls).1
    | some n₀ =>
        obtain ⟨hn₀, hid₀⟩ := (lookup_issuesById (nodup_todoNodes before)).1 htarget
        have hcall := (returns_moveIssueStatus htarget hstate).1 hcalls
        injection hcall with hcall
        injection hcall with hcall
        injection hcall with hsame
        exact hlists ⟨n₀, hn₀, hid₀.trans hc, hsame.symm⟩

/-- **When the moves of a tick reach Linear**: all moves of all issues that a pass can dispatch do
just if the first answer has every issue of the second that is within the bound, with its id. -/
theorem moves_land_iff (rt : AgentRuntime) (setting : Option String) (before after : LinearTeam)
    (tasks : List BoardTask) (m : Int) :
    (∀ tr q, Reach (mainOrchestrator rt).runOnce.run tr q →
      LinearAnswers setting before after tasks m tr → MovesLand setting before after tr) ↔
    ∀ n ∈ after.within tasks m, before.Lists n := by
  constructor
  · intro h n hn
    by_contra hlists
    have hm : 1 ≤ m := by
      by_contra hm
      have hzero : m.toNat = 0 := by omega
      unfold LinearTeam.within at hn
      rw [hzero, List.take_zero] at hn
      cases hn
    obtain ⟨tr, results, hrun, hans, hlost⟩ := exists_lost_move rt setting hn hm hlists
    exact hlost (h tr _ hrun hans)
  · intro hlists tr q h hans
    exact moves_land hlists h hans

/-- The team with no issue yet. -/
def emptyTeam : LinearTeam := ⟨[], List.nodup_nil⟩

/-- The node of an issue the guard lets through. -/
def lateNode : LinearNode := ⟨gatedIssue "LOL-7", "late"⟩

/-- The team once the issue is there. -/
def lateTeam : LinearTeam := ⟨[lateNode], List.nodup_singleton "LOL-7"⟩

/-- An issue created between the two queries is dispatched, and stays Todo in Linear. -/
theorem late_moves_lost : ¬ ∀ (rt : AgentRuntime) (setting : Option String)
    (before after : LinearTeam) (tasks : List BoardTask) (m : Int) (tr : List CallEvent)
    (q : Prog Call Call.Resp (Except Exc (List OrchestratorRunResult))),
    Reach (mainOrchestrator rt).runOnce.run tr q →
      LinearAnswers setting before after tasks m tr → MovesLand setting before after tr := by
  intro h
  have hn : lateNode ∈ lateTeam.within [] 1 := by
    decide
  have hlists : ¬ emptyTeam.Lists lateNode := by
    rintro ⟨n₀, hn₀, -⟩
    cases hn₀
  obtain ⟨tr, results, hrun, hans, hlost⟩ :=
    exists_lost_move .ofStore none hn (Int.le_refl 1) hlists
  exact hlost (h .ofStore none emptyTeam lateTeam [] 1 tr _ hrun hans)

end HermesRuntime
