import HermesRuntime.CardMatch
import HermesRuntime.GuardBound
import HermesRuntime.LinearMoves
import HermesRuntime.TickTrace

/-!
# The layers of a tick

What a call of the pass is carried out by: one request, the guarded read, a move through
`move_issue_status`, or the adapter over `start` and `read_task`.

* `adapter_start`, `adapter_completes` — the adapter over its callbacks.
* `dispatch_call`, `returns_dispatchTask` — the adapter over the board.
* `carryOut_call` — which call of the pass a call of the tick can be part of.
-/

namespace HermesRuntime

open Effects Prog Proc

/-! ## The adapter over its callbacks -/

/-- What the adapter calls after `start` starts nothing. -/
theorem afterStart_only (p : KanbanPolling) (fuel : ℕ) (c : ExecutionContext)
    (initial : String ⊕ KanbanTaskSnapshot) : Only (fun ev : KanbanEvent => isStart ev.1 = false)
      (do
        let snapshot ← firstSnapshot initial
        let now ← KanbanProc.monotonic
        let ended ← pollLoop p c snapshot.taskId (now + p.timeoutSeconds) fuel snapshot
          snapshot.status [kanbanEvent "kanban.dispatched" c snapshot ∅]
        concludeLoop c ended : KanbanProc (Option ExecutionResult)).run := by
  refine only_run_bind ?_ fun snapshot => ?_
  · cases initial with
    | inl taskId => exact fun r => ⟨rfl, trivial⟩
    | inr snapshot => trivial
  refine only_run_bind (fun r => ⟨rfl, trivial⟩) fun now => ?_
  refine only_run_bind (pollLoop_no_start _ _ _ _ _ _ _ _) fun ended => ?_
  cases ended with
  | none => trivial
  | some ended => trivial

/-- The adapter starts with `start`, and starts nothing later. -/
theorem adapter_start {p : KanbanPolling} {fuel : ℕ} {c c' : ExecutionContext}
    {tr : List KanbanEvent}
    {k : KanbanCall.Resp (.start c') →
      Prog KanbanCall KanbanCall.Resp (Except Exc (Option ExecutionResult))}
    (h : Reach (adapterCall p fuel c).run tr (.call (.start c') k)) : tr = [] ∧ c' = c := by
  unfold adapterCall at h
  rcases call_run_bind h with ⟨k', hstart⟩ | ⟨before, own, initial, rfl, -, hrest⟩
  · cases hstart with
    | refl => exact ⟨rfl, rfl⟩
    | call hret => exact absurd hret not_reach_ret
  · have hno := (afterStart_only p fuel c initial).mem (hrest.snoc (.error (.runtimeError "")))
      ⟨.start c', .error (.runtimeError "")⟩
      (List.mem_append_right own (List.mem_singleton_self _))
    cases hno

/-- **How the loop comes to an end with a finished task**: the snapshot it ends at is the one it
began with, or has been read. -/
theorem pollLoop_terminal {p : KanbanPolling} {c : ExecutionContext} {taskId : String}
    {deadline : ℚ} {fuel : ℕ} {snapshot final : KanbanTaskSnapshot} {lastStatus : String}
    {events events' : List (String × RawPayload)} {tr : List KanbanEvent}
    (h : Returns (pollLoop p c taskId deadline fuel snapshot lastStatus events).run tr
      (.ok (some (.terminal, final, events')))) :
    final.status ∈ terminalDoneStatuses ++ terminalBlockedStatuses ∧
      (final = snapshot ∨ (⟨.readTask taskId, .ok final⟩ : KanbanEvent) ∈ tr) := by
  induction fuel generalizing snapshot lastStatus events tr with
  | zero => cases (returns_pure.1 h).2
  | succ fuel ih =>
      unfold pollLoop at h
      by_cases hstatus : snapshot.status ∈ terminalDoneStatuses ++ terminalBlockedStatuses
      · rw [if_pos hstatus] at h
        cases (returns_pure.1 h).2
        exact ⟨hstatus, Or.inl rfl⟩
      rw [if_neg hstatus] at h
      cases hfailed : KanbanDispatcherAdapter.failedOutcome snapshot with
      | some outcome =>
          rw [hfailed] at h
          cases (returns_pure.1 h).2
      | none =>
          rw [hfailed] at h
          obtain ⟨tr₁, tr₂, now, rfl, -, h₁⟩ := returns_run_bind_ok.1 h
          by_cases hlate : deadline ≤ now
          · rw [if_pos hlate] at h₁
            cases (returns_pure.1 h₁).2
          rw [if_neg hlate] at h₁
          obtain ⟨tr₃, tr₄, _, rfl, -, h₂⟩ := returns_run_bind_ok.1 h₁
          obtain ⟨tr₅, tr₆, next, rfl, hread, h₃⟩ := returns_run_bind_ok.1 h₂
          obtain rfl : tr₅ = [⟨.readTask taskId, .ok next⟩] := returns_call_ret.1 hread
          -- The turn goes on with what has been read, whether or not its status is new.
          have hrest : final.status ∈ terminalDoneStatuses ++ terminalBlockedStatuses ∧
              (final = next ∨ (⟨.readTask taskId, .ok final⟩ : KanbanEvent) ∈ tr₆) := by
            by_cases hsame : next.status = lastStatus
            · rw [if_neg (not_not_intro hsame)] at h₃
              exact ih h₃
            · rw [if_pos hsame] at h₃
              exact ih h₃
          refine ⟨hrest.1, Or.inr ?_⟩
          rcases hrest.2 with rfl | hmem
          · simp
          · simp [hmem]

/-- **Where the result of a dispatch comes from**: a snapshot of the started task that is done or
blocked. -/
theorem adapter_completes {p : KanbanPolling} {fuel : ℕ} {c : ExecutionContext}
    {tr : List KanbanEvent} {result : ExecutionResult}
    (h : Returns (adapterCall p fuel c).run tr (.ok (some result))) :
    ∃ started first final rest events, tr = ⟨.start c, .ok started⟩ :: rest ∧
      (started = .inr first ∨ ∃ id, started = .inl id ∧
        (⟨.readTask id, .ok first⟩ : KanbanEvent) ∈ rest) ∧
      (final = first ∨ (⟨.readTask first.taskId, .ok final⟩ : KanbanEvent) ∈ rest) ∧
      final.status ∈ terminalDoneStatuses ++ terminalBlockedStatuses ∧
      result = .ofFields final.fields events := by
  unfold adapterCall at h
  obtain ⟨tr₁, tr₂, started, rfl, hstart, h₁⟩ := returns_run_bind_ok.1 h
  obtain rfl : tr₁ = [⟨.start c, .ok started⟩] := returns_call_ret.1 hstart
  obtain ⟨tr₃, tr₄, first, rfl, hfirst, h₂⟩ := returns_run_bind_ok.1 h₁
  obtain ⟨tr₅, tr₆, now, rfl, -, h₃⟩ := returns_run_bind_ok.1 h₂
  obtain ⟨tr₇, tr₈, ended, rfl, hloop, h₄⟩ := returns_run_bind_ok.1 h₃
  have hread : started = .inr first ∨ ∃ id, started = .inl id ∧
      (⟨.readTask id, .ok first⟩ : KanbanEvent) ∈ tr₃ := by
    cases started with
    | inr snapshot =>
        cases (returns_pure.1 hfirst).2
        exact Or.inl rfl
    | inl id =>
        obtain rfl : tr₃ = [⟨.readTask id, .ok first⟩] := returns_call_ret.1 hfirst
        exact Or.inr ⟨id, rfl, List.mem_singleton_self _⟩
  cases ended with
  | none => cases (returns_pure.1 h₄).2
  | some ended =>
      obtain ⟨ending, final, events⟩ := ended
      obtain ⟨-, ho⟩ := returns_ret.1 h₄
      cases ending with
      | raised exc => cases ho
      | failed outcome => cases ho
      | timeout => cases ho
      | terminal =>
          obtain ⟨hstatus, hfinal⟩ := pollLoop_terminal hloop
          have hresult : ∃ events', result = .ofFields final.fields events' := by
            unfold KanbanDispatcherAdapter.conclude at ho
            dsimp only at ho
            split at ho
            · cases ho
              exact ⟨_, rfl⟩
            · cases ho
              exact ⟨_, rfl⟩
          obtain ⟨events', rfl⟩ := hresult
          refine ⟨started, first, final, tr₃ ++ (tr₅ ++ (tr₇ ++ tr₈)), events', rfl, ?_, ?_,
            hstatus, rfl⟩
          · rcases hread with hgiven | ⟨id, hid, hmem⟩
            · exact Or.inl hgiven
            · exact Or.inr ⟨id, hid, List.mem_append_left _ hmem⟩
          · refine hfinal.imp_right fun hmem => ?_
            simp [hmem]

/-! ## The adapter over the board -/

/-- Where a call of a dispatch comes from. -/
inductive DispatchCall (c : ExecutionContext) (pre : List TickEvent) (j : TickCall) : Prop
  | start {tr : List BoardEvent} {i : BoardCall}
      {k : i.Resp → Prog BoardCall BoardCall.Resp (Except Exc String)}
      (hpre : pre = tr.map boardEvent) (hj : j = .board i)
      (hstart : Reach (start c).run tr (.call i k))
  | read {taskId : String} (hj : j = .getTask taskId ∨ j = .latestRun taskId)
  | clock (hj : j = .monotonic ∨ ∃ seconds, j = .sleep seconds)
  | pollOn (hj : j = .pollOn)

theorem readTask_call {taskId : String} {pre : List TickEvent} {j : TickCall}
    {k : j.Resp → Prog TickCall TickCall.Resp (Except Exc KanbanTaskSnapshot)}
    (h : Reach (readTask taskId).run pre (.call j k)) :
    j = .getTask taskId ∨ j = .latestRun taskId := by
  unfold readTask at h
  rcases call_run_bind h with ⟨k', hget⟩ | ⟨before, own, task, rfl, -, hrest⟩
  · exact Or.inl (eq_of_call (f := id) hget).2
  · cases task with
    | none => exact absurd hrest not_reach_ret
    | some task =>
        rcases call_run_bind hrest with ⟨k', hrun⟩ | ⟨_, own, run, -, -, hpure⟩
        · exact Or.inr (eq_of_call (f := id) hrun).2
        · exact absurd hpure not_reach_ret

/-- **Where a call of a dispatch comes from.** -/
theorem dispatch_call {p : KanbanPolling} {fuel : ℕ} {c : ExecutionContext}
    {pre : List TickEvent} {j : TickCall}
    {k : j.Resp → Prog TickCall TickCall.Resp (Except Exc ExecutionResult)}
    (h : Reach (dispatchTask p fuel c) pre (.call j k)) : DispatchCall c pre j := by
  unfold dispatchTask at h
  rcases call_at_bind h with ⟨k', hadapter⟩ | ⟨before, own, o, rfl, -, hrest⟩
  · obtain ⟨tr, i, k'', done, own, k₁, hp, hdone, rfl, hown⟩ := call_handle hadapter
    cases i with
    | start c' =>
        obtain ⟨rfl, rfl⟩ := adapter_start hp
        cases hdone
        rcases call_at_bind hown with ⟨k₂, hstart⟩ | ⟨_, own', started, -, -, hpure⟩
        · obtain ⟨tr, i, k₃, rfl, rfl, hreach⟩ := call_board hstart
          exact .start rfl rfl hreach
        · exact absurd hpure not_reach_ret
    | readTask taskId => exact .read (readTask_call hown)
    | monotonic => exact .clock (Or.inl (eq_of_call (f := id) hown).2)
    | sleep seconds => exact .clock (Or.inr ⟨seconds, (eq_of_call (f := id) hown).2⟩)
  · rcases o with exc | _ | result
    · exact absurd hrest not_reach_ret
    · cases hrest with
      | refl => exact .pollOn rfl
      | @call _ _ r => exact Empty.elim r
    · exact absurd hrest not_reach_ret

/-- **What `read_task` returns**: a task that is there with its latest run, or none. -/
theorem readTask_returns {taskId : String} {tr : List TickEvent} {snapshot : KanbanTaskSnapshot}
    (h : Returns (readTask taskId).run tr (.ok snapshot)) : snapshot.taskId = taskId ∧
      (snapshot = { taskId, status := "missing" } ∨ ∃ task run,
        tr = [⟨.getTask taskId, .ok (some task)⟩, ⟨.latestRun taskId, .ok run⟩] ∧
          snapshot = snapshotOf taskId task run) := by
  unfold readTask at h
  obtain ⟨tr₁, tr₂, task, rfl, hget, h₁⟩ := returns_run_bind_ok.1 h
  obtain rfl : tr₁ = [⟨.getTask taskId, .ok task⟩] := returns_call_ret.1 hget
  cases task with
  | none =>
      cases (returns_pure.1 h₁).2
      exact ⟨rfl, Or.inl rfl⟩
  | some task =>
      obtain ⟨tr₃, tr₄, run, rfl, hrun, h₂⟩ := returns_run_bind_ok.1 h₁
      obtain rfl : tr₃ = [⟨.latestRun taskId, .ok run⟩] := returns_call_ret.1 hrun
      obtain ⟨rfl, ho⟩ := returns_pure.1 h₂
      cases ho
      exact ⟨rfl, Or.inr ⟨task, run, rfl, rfl⟩⟩

theorem readTask_carried {tr : List KanbanEvent} {low : List TickEvent}
    (hc : Carries carryOutKanban tr low) {taskId : String} {snapshot : KanbanTaskSnapshot}
    (hmem : (⟨.readTask taskId, .ok snapshot⟩ : KanbanEvent) ∈ tr) :
    snapshot.taskId = taskId ∧ (snapshot = { taskId, status := "missing" } ∨ ∃ task run,
      [⟨.getTask taskId, .ok (some task)⟩, ⟨.latestRun taskId, .ok run⟩] <:+: low ∧
        snapshot = snapshotOf taskId task run) := by
  obtain ⟨before, own, after, rfl, hown⟩ := hc.own hmem
  obtain ⟨hid, hread⟩ := readTask_returns hown
  refine ⟨hid, ?_⟩
  rcases hread with hmissing | ⟨task, run, rfl, rfl⟩
  · exact Or.inl hmissing
  · exact Or.inr ⟨task, run, ⟨before, after, rfl⟩, rfl⟩

/-- The result fields of a task are those of its latest run, whether it is done or blocked. -/
theorem ofFields_snapshotOf (taskId : String) (task : TaskRow) (run : Option TaskRun)
    (events : List (String × RawPayload)) :
    ExecutionResult.ofFields (snapshotOf taskId task run).fields events =
      .ofFields (resultFields (runMetadata run)) events := by
  have hself : ∀ key, (snapshotOf taskId task run).fields.lookup key =
      (resultFields (runMetadata run)).lookup key := by
    intro key
    exact (Mapping.lookup_update _ _ key).trans (Option.or_self)
  unfold ExecutionResult.ofFields
  simp only [hself]

/-- The result of a dispatch is that of the card it was started on: `start` has returned the card,
it has been read as done or blocked, and the fields are those of its latest run. -/
def BackedBy (c : ExecutionContext) (result : ExecutionResult) (taskId : String) (task : TaskRow)
    (run : Option TaskRun) (low : List TickEvent) : Prop :=
  (∃ tr, Returns (start c).run tr (.ok taskId) ∧ tr.map boardEvent <:+: low) ∧
    [⟨.getTask taskId, .ok (some task)⟩, ⟨.latestRun taskId, .ok run⟩] <:+: low ∧
    (task.status = "done" ∨ task.status = "blocked") ∧
    ∃ events, result = .ofFields (resultFields (runMetadata run)) events

theorem BackedBy.mono {c : ExecutionContext} {result : ExecutionResult} {taskId : String}
    {task : TaskRow} {run : Option TaskRun} {low low' : List TickEvent}
    (h : BackedBy c result taskId task run low) (hlow : low <:+: low') :
    BackedBy c result taskId task run low' := by
  obtain ⟨⟨tr, hstart, htr⟩, hread, hrest⟩ := h
  exact ⟨⟨tr, hstart, htr.trans hlow⟩, hread.trans hlow, hrest⟩

/-- **Where the result of a dispatch comes from**, over the board. -/
theorem returns_dispatchTask {p : KanbanPolling} {fuel : ℕ} {c : ExecutionContext}
    {low : List TickEvent} {result : ExecutionResult}
    (h : Returns (dispatchTask p fuel c) low (.ok result)) :
    ∃ taskId task run, BackedBy c result taskId task run low := by
  unfold dispatchTask at h
  obtain ⟨low₁, low₂, o, rfl, hadapter, hrest⟩ := returns_bind.1 h
  rcases o with exc | _ | result'
  · cases (returns_ret.1 hrest).2
  · obtain ⟨r, -⟩ := returns_call.1 hrest
    exact Empty.elim r
  obtain ⟨rfl, ho⟩ := returns_ret.1 hrest
  cases ho
  rw [List.append_nil]
  obtain ⟨tr, htr, hc⟩ := returns_handle.1 hadapter
  obtain ⟨started, first, final, rest, events, rfl, hfirst, hfinal, hstatus, rfl⟩ :=
    adapter_completes htr
  -- The task is the one `start` has returned the id of.
  obtain ⟨before, own, after, heq, hown⟩ := hc.own List.mem_cons_self
  obtain ⟨own₁, own₂, outcome, rfl, hstart, hmap⟩ := returns_bind.1 hown
  obtain ⟨rfl, houtcome⟩ := returns_ret.1 hmap
  rcases outcome with exc | taskId
  · cases houtcome
  obtain ⟨calls, hcalls, rfl⟩ := returns_board hstart
  obtain rfl : started = .inl taskId := Except.ok.inj houtcome
  have hid : (⟨.readTask taskId, .ok first⟩ : KanbanEvent) ∈ rest := by
    rcases hfirst with hgiven | ⟨id, hid, hmem⟩
    · cases hgiven
    · cases hid
      exact hmem
  have hsame := (readTask_carried hc (List.mem_cons_of_mem _ hid)).1
  have hread : (⟨.readTask taskId, .ok final⟩ : KanbanEvent) ∈ rest := by
    rcases hfinal with rfl | hmem
    · exact hid
    · rw [hsame] at hmem
      exact hmem
  have hended : final.status = "done" ∨ final.status = "blocked" := by
    simpa [terminalDoneStatuses, terminalBlockedStatuses] using hstatus
  rcases (readTask_carried hc (List.mem_cons_of_mem _ hread)).2 with
    rfl | ⟨task, run, hinfix, rfl⟩
  · rcases hended with hdone | hblocked
    · exact absurd hdone (by simp)
    · exact absurd hblocked (by simp)
  · refine ⟨taskId, task, run, ⟨calls, hcalls, ?_⟩, hinfix, hended, events,
      ofFields_snapshotOf taskId task run events⟩
    rw [heq, List.append_nil]
    exact ⟨before, after, rfl⟩

/-! ## The calls of the pass -/

/-- What a call that carries out a call of the pass is. -/
def PartOf (t : TickScope) (part : List TickEvent) (j : TickCall) : Call → Prop
  | .entropy => j = .entropy
  | .claim c ttl => j = .post (.claim (c.claimArgs ttl))
  | .startHeartbeat c ttl => j = .startHeartbeat c ttl
  | .joinHeartbeat c => j = .joinHeartbeat c
  | .moveStatus i status => ∃ target stateId, t.issuesById.lookup i = some target ∧
      t.states.lookup status = some stateId ∧ j = .updateIssue target.id stateId
  | .event c kind _ => ∃ body, j =
      .post (.insertEvent ⟨c.runId, c.linearIssueId, c.agent, kind, body⟩)
  | .dispatch c => DispatchCall c part j
  | .finish c status fields =>
      j = .post (.finish c.runId c.linearIssueId status (.object (jsonFields fields)))
  | .recover i => j = .post (.recover i)
  | .readIssues => j = .queryTodo ∨ j = .board .listTasks
  | .lockRejected _ _ | .recordBlocked _ _ => False

theorem guardedRead_call {bound : Int} {pre : List TickEvent} {j : TickCall}
    {k : j.Resp → Prog TickCall TickCall.Resp (Except Exc (List LinearIssueSnapshot))}
    (h : Reach (guardedRead bound).run pre (.call j k)) :
    j = .queryTodo ∨ j = .board .listTasks := by
  unfold guardedRead at h
  rcases call_run_bind h with ⟨k', hquery⟩ | ⟨_, own, nodes, rfl, -, h₁⟩
  · exact Or.inl (eq_of_call hquery).2
  by_cases hnil : nodes.map (·.toLinearIssueSnapshot) = []
  · rw [if_pos hnil] at h₁
    exact absurd h₁ not_reach_ret
  rw [if_neg hnil] at h₁
  rcases call_run_bind h₁ with ⟨k', hlist⟩ | ⟨_, own', tasks, rfl, -, h₂⟩
  · exact Or.inr (eq_of_call (f := id) hlist).2
  · obtain ⟨outcome, -, h₃⟩ := TickProc.call_settle_bind h₂
    exact absurd h₃ not_reach_ret

theorem move_call {t : TickScope} {i status : String} {pre : List TickEvent} {j : TickCall}
    {k : j.Resp → Prog TickCall TickCall.Resp (Except Exc Unit)}
    (h : Reach (handle carryOutLinear (moveIssueStatus t.states t.issuesById i status).run)
      pre (.call j k)) : ∃ target stateId, t.issuesById.lookup i = some target ∧
      t.states.lookup status = some stateId ∧ j = .updateIssue target.id stateId := by
  unfold moveIssueStatus at h
  cases htarget : t.issuesById.lookup i with
  | none =>
      rw [htarget] at h
      exact absurd h not_reach_ret
  | some target =>
      rw [htarget] at h
      cases hstate : t.states.lookup status with
      | none =>
          simp only [hstate] at h
          exact absurd h not_reach_ret
      | some stateId =>
          simp only [hstate] at h
          refine ⟨target, stateId, rfl, rfl, ?_⟩
          obtain ⟨tr, l, k', done, own, k'', hp, -, rfl, hown⟩ := call_handle h
          have hcall : l = .setState target.id stateId := by
            cases hp with
            | refl => rfl
            | call hp => exact absurd hp not_reach_ret
          subst hcall
          rcases call_run_bind hown with ⟨k₁, hset⟩ | ⟨_, own', success, -, -, hpure⟩
          · exact (eq_of_call hset).2
          · exact absurd hpure not_reach_ret

/-- **What a call that carries out a call of the pass is.** -/
theorem carryOut_call {t : TickScope} {fuel : ℕ} {i : Call} {part : List TickEvent}
    {j : TickCall} {k : j.Resp → Prog TickCall TickCall.Resp i.Resp}
    (h : Reach (carryOut t fuel i) part (.call j k)) : PartOf t part j i := by
  cases i with
  | entropy | startHeartbeat => exact (eq_of_call (f := id) h).2
  | claim | joinHeartbeat | finish => exact (eq_of_call h).2
  | recover => exact (eq_of_call h).2
  | lockRejected | recordBlocked => exact absurd h not_reach_ret
  | moveStatus i status => exact move_call h
  | dispatch c => exact dispatch_call h
  | readIssues => exact guardedRead_call h
  | event c kind payload =>
      obtain ⟨body, -, h₁⟩ := TickProc.call_settle_bind h
      rcases call_run_bind h₁ with ⟨k', hpost⟩ | ⟨_, own, b, -, -, hpure⟩
      · exact ⟨body, (eq_of_call hpost).2⟩
      · exact absurd hpure not_reach_ret

end HermesRuntime
