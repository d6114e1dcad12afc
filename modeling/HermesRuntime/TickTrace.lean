import HermesRuntime.BoardCards
import HermesRuntime.ExecutionProof
import HermesRuntime.GuardPolicy
import HermesRuntime.Tick

/-!
# The trace of a tick

Where a call of a tick comes from: which call of the pass it carries out, in which execution, and
what has happened in this execution and before it.

* `pass_call`, `execution_event` — a call of a pass, and an event of an execution.
* `main_call` — a call of `main`: its own query, or one of the pass.
* `tick_call` — a call of the pass with the execution it is part of.
* `returns_guardedRead`, `claim_carried` — how a read and a claim have been carried out.
-/

namespace HermesRuntime

open Effects Prog Proc

/-! ## The calls of a pass -/

/-- Where a call of a pass comes from. -/
inductive PassCall (orch : RuntimeOrchestrator) (pre : List CallEvent) (i : Call) : Prop
  | read (hpre : pre = []) (hi : i = .readIssues)
  | aside (hi : IsRecord i ∨ ∃ issueId, i = .recover issueId)
  | execution {snapshots : List LinearIssueSnapshot} {before own : List CallEvent}
      {s : LinearIssueSnapshot} {k : i.Resp → Prog Call Call.Resp (Except Exc ExecutionContext)}
      (hpre : pre = ⟨.readIssues, .ok snapshots⟩ :: (before ++ own)) (hs : s ∈ snapshots)
      (heligible : (select s).action = .eligible)
      (hexec : Reach (orch.runtime.execute orch.hasMove s.issue).run own (.call i k))

/-- A call where all calls are of a kind is of this kind. -/
theorem call_of_only {α : Type} {P : Call → Prop} {p : Prog Call Call.Resp α}
    (honly : Only (fun ev : CallEvent => P ev.1) p) {tr : List CallEvent} {i : Call}
    {k : i.Resp → Prog Call Call.Resp α} (h : Reach p tr (.call i k)) : P i := by
  obtain ⟨r⟩ : Nonempty i.Resp := inferInstance
  exact honly.mem (h.snoc r) ⟨i, r⟩ (List.mem_append_right tr (List.mem_singleton_self _))

/-- A call of a turn is the recovery, a report, or one of the execution. -/
theorem turn_call {orch : RuntimeOrchestrator} {issue : Issue} {pre : List CallEvent} {i : Call}
    {k : i.Resp → Prog Call Call.Resp (Except Exc OrchestratorRunResult)}
    (h : Reach (orch.processIssue issue).run pre (.call i k)) :
    (IsRecord i ∨ ∃ issueId, i = .recover issueId) ∨ ∃ before own k', pre = before ++ own ∧
      Reach (orch.runtime.execute orch.hasMove issue).run own (.call i k') := by
  unfold RuntimeOrchestrator.processIssue at h
  rcases call_run_bind h with ⟨k', hrecover⟩ | ⟨before, own, _, rfl, -, hrest⟩
  · refine Or.inl (Or.inr ⟨issue.identifier, ?_⟩)
    cases hrecover with
    | refl => rfl
    | call hret => exact absurd hret not_reach_ret
  rcases call_run_tryCatch hrest with ⟨k', hbody⟩ | ⟨exec, own', exc, rfl, -, hcatch⟩
  · rcases call_run_bind hbody with ⟨k'', hexec⟩ | ⟨_, _, _, -, -, hpure⟩
    · exact Or.inr ⟨before, own, k'', rfl, hexec⟩
    · exact absurd hpure not_reach_ret
  · refine Or.inl (Or.inl (call_of_only ?_ hcatch))
    split
    · exact only_run_bind (when_only fun r => ⟨trivial, trivial⟩) fun _ => trivial
    · split
      · exact only_run_bind (when_only fun r => ⟨trivial, trivial⟩) fun _ => trivial
      · trivial

theorem turns_call {orch : RuntimeOrchestrator} {decisions : List SelectionDecision}
    {pre : List CallEvent} {i : Call}
    {k : i.Resp → Prog Call Call.Resp (Except Exc (List OrchestratorRunResult))}
    (h : Reach (orch.processIssues decisions).run pre (.call i k)) :
    (IsRecord i ∨ ∃ issueId, i = .recover issueId) ∨ ∃ d ∈ decisions, ∃ before own k',
      pre = before ++ own ∧
        Reach (orch.runtime.execute orch.hasMove d.issue).run own (.call i k') := by
  induction decisions generalizing pre k with
  | nil => exact absurd h not_reach_ret
  | cons d decisions ih =>
      unfold RuntimeOrchestrator.processIssues at h
      rcases call_run_bind h with ⟨k', hturn⟩ | ⟨turn, rest, result, rfl, -, hrest⟩
      · exact (turn_call hturn).imp_right fun hexec => ⟨d, List.mem_cons_self, hexec⟩
      · rcases call_run_bind hrest with ⟨k', hturns⟩ | ⟨_, rest, results, -, -, hpure⟩
        · rcases ih hturns with haside | ⟨d', hd', before, own, k'', hpre, hexec⟩
          · exact Or.inl haside
          · exact Or.inr ⟨d', List.mem_cons_of_mem _ hd', turn ++ before, own, k'',
              by rw [hpre, List.append_assoc], hexec⟩
        · exact absurd hpure not_reach_ret

/-- **Where a call of a pass comes from.** -/
theorem pass_call {orch : RuntimeOrchestrator} {pre : List CallEvent} {i : Call}
    {k : i.Resp → Prog Call Call.Resp (Except Exc (List OrchestratorRunResult))}
    (h : Reach orch.runOnce.run pre (.call i k)) : PassCall orch pre i := by
  unfold RuntimeOrchestrator.runOnce at h
  rcases call_run_bind h with ⟨k', hpoll⟩ | ⟨polled, rest, decisions, rfl, hpoll, hturns⟩
  · unfold poll at hpoll
    rcases call_run_bind hpoll with ⟨k'', hread⟩ | ⟨_, _, snapshots, -, -, hrecords⟩
    · cases hread with
      | refl => exact .read rfl rfl
      | call hret => exact absurd hret not_reach_ret
    · exact .aside (Or.inl (call_of_only (pollSnapshots_only _ _) hrecords))
  · rcases poll_returns hpoll with ⟨e, -, ho⟩ | ⟨snapshots, records, rfl, -, hdecisions⟩
    · cases ho
    · rcases turns_call hturns with haside | ⟨d, hd, before, own, k', rfl, hexec⟩
      · exact .aside haside
      · obtain rfl := hdecisions decisions rfl
        obtain ⟨s, hs, rfl, heligible⟩ := mem_decisionsOf.1 hd
        rw [select_issue] at hexec
        exact @PassCall.execution orch _ i snapshots (records ++ before) own s k' (by simp) hs
          heligible hexec

/-- An event of an execution: the claim goes before everything that is done for it. -/
theorem execution_event {rt : AgentRuntime} {m : Bool} {issue : Issue} {own : List CallEvent}
    {ev : CallEvent} {q : Prog Call Call.Resp (Except Exc ExecutionContext)}
    (h : Reach (rt.execute m issue).run (own ++ [ev]) q) :
    (IsRefusal ev ∨ ∃ c r, IsContextOf issue c ∧ ev = ⟨.claim c rt.ttlSeconds, r⟩) ∨
      ∃ c, IsContextOf issue c ∧ (⟨.claim c rt.ttlSeconds, .ok ()⟩ : CallEvent) ∈ own ∧
        (ev.1 = .startHeartbeat c rt.ttlSeconds ∨ IsOwn issue.identifier c ev.1) := by
  obtain ⟨later, o, hreturns⟩ := h.extend
  rcases execute_returns hreturns with ⟨hrefused, -⟩ |
    ⟨c, drawn, body, rest, htr, hcontext, hends⟩
  · exact Or.inl (Or.inl (hrefused ev (by simp)))
  have hown := claimed_own hends
  rw [List.append_assoc (claimSteps rt c drawn)] at htr
  generalize body ++ rest = tail at htr hown
  rcases own with _ | ⟨first, _ | ⟨second, own⟩⟩
  · obtain rfl := (List.cons.inj htr).1
    exact Or.inl (Or.inl trivial)
  · obtain rfl := (List.cons.inj (List.cons.inj htr).2).1
    exact Or.inl (Or.inr ⟨c, _, hcontext, rfl⟩)
  · obtain ⟨rfl, hthird⟩ := List.cons.inj (List.cons.inj htr).2
    refine Or.inr ⟨c, hcontext, by simp, ?_⟩
    cases own with
    | nil => exact Or.inl (congrArg Sigma.fst (List.cons.inj hthird).1)
    | cons third own =>
        have hrest : own ++ [ev] ++ later = tail := (List.cons.inj hthird).2
        exact Or.inr (hown ev (by rw [← hrest]; simp))

/-! ## Single steps of a tick -/

namespace TickProc

@[simp] theorem returns_settle {α : Type} {x : Except Exc α} {tr : List TickEvent}
    {o : Except Exc α} : Returns (TickProc.settle x).run tr o ↔ tr = [] ∧ o = x := Prog.returns_ret

theorem returns_settle_bind {α β : Type} {x : Except Exc α} {f : α → TickProc β}
    {tr : List TickEvent} {o : Except Exc β} (h : Returns (TickProc.settle x >>= f).run tr o) :
    (∃ e, tr = [] ∧ o = .error e) ∨ ∃ a, x = .ok a ∧ Returns (f a).run tr o := by
  rcases returns_run_bind.1 h with ⟨tr₁, tr₂, a, rfl, hx, hf⟩ | ⟨e, hx, rfl⟩
  · obtain ⟨rfl, heq⟩ := returns_settle.1 hx
    exact Or.inr ⟨a, heq.symm, hf⟩
  · exact Or.inl ⟨e, (returns_settle.1 hx).1, rfl⟩

/-- What follows a computation that makes no call. -/
theorem call_settle_bind {α β : Type} {x : Except Exc α} {f : α → TickProc β}
    {tr : List TickEvent} {i : TickCall}
    {k : i.Resp → Prog TickCall TickCall.Resp (Except Exc β)}
    (h : Reach (TickProc.settle x >>= f).run tr (.call i k)) :
    ∃ a, x = .ok a ∧ Reach (f a).run tr (.call i k) := by
  rcases call_run_bind h with ⟨k', hx⟩ | ⟨before, own, a, rfl, hx, hf⟩
  · exact absurd hx not_reach_ret
  · obtain ⟨rfl, heq⟩ := returns_settle.1 hx
    exact ⟨a, heq.symm, hf⟩

theorem returns_queryTodo {tr : List TickEvent} {o : Except Exc (List LinearNode)}
    (h : Returns TickProc.queryTodo.run tr o) :
    ∃ reply, tr = [⟨.queryTodo, reply⟩] ∧ todoNodesOf reply = o := by
  obtain ⟨reply, rest, rfl, hret⟩ := returns_call.1 h
  obtain ⟨rfl, rfl⟩ := returns_ret.1 hret
  exact ⟨reply, rfl, rfl⟩

end TickProc

/-- Where a single call is at a call, it is this one. -/
theorem eq_of_call {i j : TickCall} {α : Type} {f : i.Resp → α} {pre : List TickEvent}
    {k : j.Resp → Prog TickCall TickCall.Resp α}
    (h : Reach (.call i fun r => .ret (f r)) pre (.call j k)) : pre = [] ∧ j = i := by
  cases h with
  | refl => exact ⟨rfl, rfl⟩
  | call h => exact absurd h not_reach_ret

/-! ## The board -/

/-- A call to the board as one of the tick. -/
def boardEvent (e : BoardEvent) : TickEvent := ⟨.board e.1, e.2⟩

/-- Calls to the board are carried out one by one. -/
theorem carries_board {tr : List BoardEvent} {low : List TickEvent}
    (h : Carries carryOutBoard tr low) : low = tr.map boardEvent := by
  induction h with
  | nil => rfl
  | cons hown _ ih =>
      rw [returns_call_ret.1 hown, ih]
      rfl

theorem returns_board {α : Type} {p : Prog BoardCall BoardCall.Resp α} {low : List TickEvent}
    {a : α} (h : Returns (handle carryOutBoard p) low a) :
    ∃ tr, Returns p tr a ∧ low = tr.map boardEvent := by
  obtain ⟨tr, htr, hc⟩ := returns_handle.1 h
  exact ⟨tr, htr, carries_board hc⟩

theorem call_board {α : Type} {p : Prog BoardCall BoardCall.Resp α} {pre : List TickEvent}
    {j : TickCall} {k : j.Resp → Prog TickCall TickCall.Resp α}
    (h : Reach (handle carryOutBoard p) pre (.call j k)) : ∃ tr i k',
      pre = tr.map boardEvent ∧ j = .board i ∧ Reach p tr (.call i k') := by
  obtain ⟨tr, i, k', done, own, k'', hp, hc, rfl, hcall⟩ := call_handle h
  obtain ⟨rfl, rfl⟩ := eq_of_call (f := id) hcall
  exact ⟨tr, i, k', by rw [carries_board hc, List.append_nil], rfl, hp⟩

/-! ## The guarded read -/

/-- What a guarded read has seen: the nodes of Linear and the tasks of the board its snapshots come
from. -/
structure Guarded (nodes : List LinearNode) (tasks : List BoardTask) (s : LinearIssueSnapshot) :
    Prop where
  node : s ∈ nodes.map (·.toLinearIssueSnapshot)
  gate : gateBlockReason s.labels = none
  no_card : ∀ t ∈ tasks, ¬ t.CardOf s.identifier

/-- What the guard dispatches has no card yet. -/
theorem mem_dispatched_existing {snapshots : List LinearIssueSnapshot} {existing : List String}
    {bound : Int} {outcome : GuardOutcome}
    (h : selectWithGuard snapshots existing bound = .ok outcome) {s : LinearIssueSnapshot}
    (hs : s ∈ outcome.dispatched) : s.identifier ∉ existing := by
  unfold selectWithGuard at h
  split at h
  · cases h
  · cases h
    have hs := List.mem_of_mem_take hs
    rw [applyGuards_fst, List.mem_filter, Bool.and_eq_true, decide_eq_true_iff] at hs
    exact hs.2.1

/-- **How a guarded read has been carried out**: it has found nothing to do, or has gone through the
guard. -/
theorem guardedRead_outcome {bound : Int} {tr : List TickEvent}
    {snapshots : List LinearIssueSnapshot}
    (h : Returns (guardedRead bound).run tr (.ok snapshots)) :
    ∃ reply nodes, todoNodesOf reply = .ok nodes ∧
      ((nodes = [] ∧ tr = [⟨.queryTodo, reply⟩] ∧ snapshots = []) ∨ ∃ tasks outcome,
        tr = [⟨.queryTodo, reply⟩, ⟨.board .listTasks, .ok tasks⟩] ∧
        selectWithGuard (nodes.map (·.toLinearIssueSnapshot))
          (matchExistingCards tasks (nodes.map (·.identifier))).keys bound = .ok outcome ∧
        snapshots = outcome.dispatched) := by
  unfold guardedRead at h
  obtain ⟨tr₁, tr₂, nodes, rfl, hquery, h₁⟩ := returns_run_bind_ok.1 h
  obtain ⟨reply, rfl, hnodes⟩ := TickProc.returns_queryTodo hquery
  refine ⟨reply, nodes, hnodes, ?_⟩
  by_cases hnil : nodes.map (·.toLinearIssueSnapshot) = []
  · rw [if_pos hnil] at h₁
    obtain ⟨rfl, ho⟩ := returns_pure.1 h₁
    cases ho
    exact Or.inl ⟨List.map_eq_nil_iff.1 hnil, rfl, rfl⟩
  rw [if_neg hnil] at h₁
  obtain ⟨tr₃, tr₄, tasks, rfl, hlist, h₂⟩ := returns_run_bind_ok.1 h₁
  obtain rfl : tr₃ = [⟨.board .listTasks, .ok tasks⟩] := returns_call_ret.1 hlist
  rcases TickProc.returns_settle_bind h₂ with ⟨e, -, ho⟩ | ⟨outcome, hguard, h₃⟩
  · cases ho
  obtain ⟨rfl, ho⟩ := returns_pure.1 h₃
  cases ho
  rw [List.map_map] at hguard
  exact Or.inr ⟨tasks, outcome, rfl, hguard, rfl⟩

/-- Where a guarded read returns anything, it has been one query and one look at the board. -/
theorem returns_guardedRead {bound : Int} {tr : List TickEvent}
    {snapshots : List LinearIssueSnapshot} (h : Returns (guardedRead bound).run tr (.ok snapshots))
    {s : LinearIssueSnapshot} (hs : s ∈ snapshots) : ∃ reply nodes tasks,
      tr = [⟨.queryTodo, reply⟩, ⟨.board .listTasks, .ok tasks⟩] ∧
        todoNodesOf reply = .ok nodes ∧ Guarded nodes tasks s := by
  obtain ⟨reply, nodes, hnodes, ⟨-, -, rfl⟩ | ⟨tasks, outcome, rfl, hguard, rfl⟩⟩ :=
    guardedRead_outcome h
  · cases hs
  obtain ⟨hmem, hgate⟩ := mem_dispatched hguard hs
  refine ⟨reply, nodes, tasks, rfl, hnodes, hmem, hgate, fun t ht hcard => ?_⟩
  refine mem_dispatched_existing hguard hs (mem_keys_matchExistingCards.2 ⟨?_, t, ht, hcard⟩)
  obtain ⟨n, hn, rfl⟩ := List.mem_map.1 hmem
  exact List.mem_map_of_mem hn

/-! ## The calls of the pass, carried out -/

/-- Where a call of the pass of a tick comes from. -/
inductive TickOrigin (t : TickScope) (fuel : ℕ) (pre : List TickEvent) (j : TickCall) : Prop
  | read {k : j.Resp → Prog TickCall TickCall.Resp (Except Exc (List LinearIssueSnapshot))}
      (hread : Reach (guardedRead t.bound).run pre (.call j k))
  | recover {issueId : String} (hj : j = .post (.recover issueId))
  | execution {snapshots : List LinearIssueSnapshot} {before exec : List CallEvent}
      {s : LinearIssueSnapshot} {done part : List TickEvent} (i : Call)
      {k : j.Resp → Prog TickCall TickCall.Resp i.Resp}
      {k' : i.Resp → Prog Call Call.Resp (Except Exc ExecutionContext)}
      (hdone : Carries (carryOut t fuel) (⟨.readIssues, .ok snapshots⟩ :: (before ++ exec)) done)
      (hpre : pre = done ++ part) (hpart : Reach (carryOut t fuel i) part (.call j k))
      (hs : s ∈ snapshots) (heligible : (select s).action = .eligible)
      (hexec : Reach (t.runtime.execute true s.issue).run exec (.call i k'))

/-- **Where a call of the pass of a tick comes from.** -/
theorem tick_call {t : TickScope} {fuel : ℕ} {pre : List TickEvent} {j : TickCall}
    {k : j.Resp → Prog TickCall TickCall.Resp (Except Exc (List OrchestratorRunResult))}
    (h : Reach (tickPass t fuel).run pre (.call j k)) : TickOrigin t fuel pre j := by
  obtain ⟨tr, i, k', done, part, k'', hp, hdone, rfl, hpart⟩ := call_handle h
  rcases pass_call hp with ⟨rfl, rfl⟩ | ⟨hi⟩ | ⟨rfl, hs, heligible, hexec⟩
  · cases hdone
    exact .read hpart
  · rcases hi with hi | ⟨issueId, rfl⟩
    · cases i
      case recordBlocked => exact absurd hpart not_reach_ret
      all_goals exact hi.elim
    · exact .recover (eq_of_call hpart).2
  · exact .execution i hdone rfl hpart hs heligible hexec

/-- A claim that went through has been one request, answered with `True`. -/
theorem claim_carried {t : TickScope} {fuel : ℕ} {tr : List CallEvent} {low : List TickEvent}
    (hc : Carries (carryOut t fuel) tr low) {c : ExecutionContext} {ttl : Int}
    (hmem : (⟨.claim c ttl, .ok ()⟩ : CallEvent) ∈ tr) :
    (⟨.post (.claim (c.claimArgs ttl)), .ok true⟩ : TickEvent) ∈ low := by
  obtain ⟨before, own, after, rfl, hown⟩ := hc.own hmem
  obtain ⟨r, rest, rfl, hret⟩ := returns_call.1 hown
  obtain ⟨rfl, hr⟩ := returns_ret.1 hret
  have htrue : r = .ok true := by
    rcases r with f | _ | _
    · cases hr
    · cases hr
    · rfl
  rw [htrue]
  simp

/-- The read of a pass has been carried out before everything else. -/
theorem read_carried {t : TickScope} {fuel : ℕ} {snapshots : List LinearIssueSnapshot}
    {tr : List CallEvent} {low : List TickEvent}
    (hc : Carries (carryOut t fuel) (⟨.readIssues, .ok snapshots⟩ :: tr) low)
    {s : LinearIssueSnapshot} (hs : s ∈ snapshots) : ∃ reply nodes tasks rest,
      low = ⟨.queryTodo, reply⟩ :: ⟨.board .listTasks, .ok tasks⟩ :: rest ∧
        Carries (carryOut t fuel) tr rest ∧ todoNodesOf reply = .ok nodes ∧
        Guarded nodes tasks s := by
  cases hc with
  | cons hread hrest =>
      obtain ⟨reply, nodes, tasks, rfl, hnodes, hguarded⟩ := returns_guardedRead hread hs
      exact ⟨reply, nodes, tasks, _, rfl, hrest, hnodes, hguarded⟩

/-! ## The calls of `main` -/

/-- What `main` has checked and set up when the pass begins. -/
structure SetUp (files : Files) (environ : Mapping String) (s : TickSettings)
    (nodes : List LinearNode) (t : TickScope) : Prop where
  secrets : missingRequired files environ = .ok []
  environment : ∃ environ' url serviceKey, exportIntoEnviron files environ = .ok environ' ∧
    fromEnvironment environ' = .ok (url, serviceKey) ∧ supabaseStore url serviceKey = .ok () ∧
    t.bound = resolveBound environ'
  key : ∃ key, linearKey files = .ok key
  runtime : agentRuntime s.ttlSeconds s.heartbeatSeconds = .ok t.runtime
  polling : kanbanDispatchAdapter s.pollSeconds s.timeoutSeconds = .ok t.polling
  states : t.states = linearStatusStates s.blockedState
  byId : t.issuesById = issuesById nodes

variable {files : Files} {environ : Mapping String} {settings : TickSettings} {fuel : ℕ}

/-- The set-up of a tick is one query. -/
theorem returns_tickScope {tr : List TickEvent} {t : TickScope}
    (hsecrets : missingRequired files environ = .ok [])
    (h : Returns (tickScope files environ settings).run tr (.ok t)) : ∃ reply nodes,
      tr = [⟨.queryTodo, reply⟩] ∧ todoNodesOf reply = .ok nodes ∧
        SetUp files environ settings nodes t := by
  unfold tickScope at h
  obtain ⟨_, _, environ', rfl, hexport, h₁⟩ := returns_run_bind_ok.1 h
  obtain ⟨_, _, key, rfl, hkey, h₂⟩ := returns_run_bind_ok.1 h₁
  obtain ⟨_, _, nodes, rfl, hquery, h₃⟩ := returns_run_bind_ok.1 h₂
  obtain ⟨_, _, urlKey, rfl, hfrom, h₄⟩ := returns_run_bind_ok.1 h₃
  obtain ⟨_, _, u, rfl, hstore, h₅⟩ := returns_run_bind_ok.1 h₄
  obtain ⟨_, _, runtime, rfl, hruntime, h₆⟩ := returns_run_bind_ok.1 h₅
  obtain ⟨_, _, polling, rfl, hpolling, h₇⟩ := returns_run_bind_ok.1 h₆
  obtain ⟨rfl, hexported⟩ := TickProc.returns_settle.1 hexport
  obtain ⟨rfl, hfound⟩ := TickProc.returns_settle.1 hkey
  obtain ⟨reply, rfl, hnodes⟩ := TickProc.returns_queryTodo hquery
  obtain ⟨rfl, hurl⟩ := TickProc.returns_settle.1 hfrom
  obtain ⟨rfl, hchecked⟩ := TickProc.returns_settle.1 hstore
  obtain ⟨rfl, hmade⟩ := TickProc.returns_settle.1 hruntime
  obtain ⟨rfl, hpolled⟩ := TickProc.returns_settle.1 hpolling
  obtain ⟨rfl, ht⟩ := returns_pure.1 h₇
  cases ht
  exact ⟨reply, nodes, by simp, hnodes, hsecrets,
    ⟨environ', urlKey.1, urlKey.2, hexported.symm, hurl.symm, hchecked.symm, rfl⟩,
    ⟨key, hfound.symm⟩, hmade.symm, hpolled.symm, rfl, rfl⟩

/-- **Where a call of `main` comes from**: it is the first query, or one of the pass. -/
theorem main_call {pre : List TickEvent} {j : TickCall}
    {k : j.Resp → Prog TickCall TickCall.Resp (Except Exc ℕ)}
    (h : Reach (main files environ settings fuel).run pre (.call j k)) :
    (pre = [] ∧ j = .queryTodo) ∨ ∃ reply nodes t own k', pre = ⟨.queryTodo, reply⟩ :: own ∧
      todoNodesOf reply = .ok nodes ∧ SetUp files environ settings nodes t ∧
      Reach (tickPass t fuel).run own (.call j k') := by
  unfold main at h
  obtain ⟨missing, hmissing, h₁⟩ := TickProc.call_settle_bind h
  by_cases hnil : missing ≠ []
  · rw [if_pos hnil] at h₁
    exact absurd h₁ not_reach_ret
  rw [if_neg hnil] at h₁
  rw [not_not.1 hnil] at hmissing
  rcases call_run_bind h₁ with ⟨k', hscope⟩ | ⟨before, own, t, rfl, hscope, hpass⟩
  · unfold tickScope at hscope
    obtain ⟨environ', -, h₂⟩ := TickProc.call_settle_bind hscope
    obtain ⟨key, -, h₃⟩ := TickProc.call_settle_bind h₂
    rcases call_run_bind h₃ with ⟨k'', hquery⟩ | ⟨before, own, nodes, rfl, -, h₄⟩
    · exact Or.inl (eq_of_call hquery)
    · obtain ⟨urlKey, -, h₅⟩ := TickProc.call_settle_bind h₄
      obtain ⟨u, -, h₆⟩ := TickProc.call_settle_bind h₅
      obtain ⟨runtime, -, h₇⟩ := TickProc.call_settle_bind h₆
      obtain ⟨polling, -, h₈⟩ := TickProc.call_settle_bind h₇
      exact absurd h₈ not_reach_ret
  · obtain ⟨reply, nodes, rfl, hnodes, hsetUp⟩ := returns_tickScope hmissing hscope
    refine Or.inr ⟨reply, nodes, t, own, ?_⟩
    rcases call_run_tryCatch hpass with ⟨k', hbody⟩ | ⟨_, own', exc, -, -, hcatch⟩
    · rcases call_run_bind hbody with ⟨k'', hticks⟩ | ⟨_, own', results, -, -, hpure⟩
      · exact ⟨k'', rfl, hnodes, hsetUp, hticks⟩
      · exact absurd hpure not_reach_ret
    · exact absurd hcatch not_reach_ret

end HermesRuntime
