import HermesRuntime.PersistedEvents
import Mathlib.Data.List.Destutter
import Mathlib.Tactic.NormNum

/-!
# The status history of a Kanban task

The adapter reports every change of status, and the runtime then drops the events whose key was
there before. A task that comes back to a status with the same run outcome gives such an event.

* `pollTask_history` — the adapter reports the changes of the snapshots it read.
* `status_history_iff` — when the stored events tell the whole history.
-/

namespace HermesRuntime

open Effects Prog Proc Lists

/-! ## Snapshots and changes -/

namespace KanbanDispatcherAdapter

/-- The snapshots the loop sees, from `snapshot` on. -/
def history (a : KanbanDispatcherAdapter) (taskId : String) (deadline : ℚ)
    (fuel reads checks : Nat) (snapshot : KanbanTaskSnapshot) : List KanbanTaskSnapshot :=
  match fuel with
  | 0 => [snapshot]
  | fuel + 1 =>
      if snapshot.status ∈ terminalDoneStatuses ++ terminalBlockedStatuses then [snapshot]
      else if (failedOutcome snapshot).isSome then [snapshot]
      else if deadline ≤ a.monotonic checks then [snapshot]
      else
        match a.readTask reads taskId with
        | .error _ => [snapshot]
        | .ok next => snapshot :: a.history taskId deadline fuel (reads + 1) (checks + 1) next

/-- All snapshots the adapter reads. -/
def snapshots (a : KanbanDispatcherAdapter) (fuel : Nat) (initial : KanbanTaskSnapshot)
    (reads : Nat) : List KanbanTaskSnapshot :=
  a.history initial.taskId (a.monotonic 0 + a.timeoutSeconds) fuel reads 1 initial

end KanbanDispatcherAdapter

open KanbanDispatcherAdapter

/-- The snapshots with another status than the one before. -/
def changes (lastStatus : String) : List KanbanTaskSnapshot → List KanbanTaskSnapshot
  | [] => []
  | s :: rest =>
      if s.status ≠ lastStatus then s :: changes s.status rest else changes lastStatus rest

/-- The statuses at the changes are those of the snapshots, repeats left out. -/
theorem destutter_status (lastStatus : String) (rest : List KanbanTaskSnapshot) :
    (rest.map (·.status)).destutter' (· ≠ ·) lastStatus =
      lastStatus :: (changes lastStatus rest).map (·.status) := by
  induction rest generalizing lastStatus with
  | nil => rfl
  | cons s rest ih =>
      rw [List.map_cons, List.destutter'_cons, changes]
      by_cases hs : s.status = lastStatus
      · rw [if_neg (not_not_intro hs.symm), if_neg (not_not_intro hs)]
        exact ih lastStatus
      · rw [if_pos (Ne.symm hs), if_pos hs, ih]
        rfl

/-- The loop reports the changes among the snapshots it sees. -/
theorem pollTask_history {a : KanbanDispatcherAdapter} {c : ExecutionContext} {taskId : String}
    {deadline : ℚ} {fuel reads checks : Nat} {snapshot last : KanbanTaskSnapshot}
    {lastStatus : String} {ending : LoopEnd} {events events' : List (String × RawPayload)}
    (h : a.pollTask c taskId deadline fuel reads checks snapshot lastStatus events =
      some (ending, last, events')) :
    ∃ rest, a.history taskId deadline fuel reads checks snapshot = snapshot :: rest ∧
      events' = events ++
        (changes lastStatus rest).map (kanbanEvent "kanban.status_changed" c · ∅) := by
  induction fuel generalizing reads checks snapshot lastStatus events with
  | zero => cases h
  | succ fuel ih =>
      unfold pollTask at h
      unfold history
      by_cases hterminal : snapshot.status ∈ terminalDoneStatuses ++ terminalBlockedStatuses
      · rw [if_pos hterminal] at h ⊢
        cases h
        exact ⟨[], rfl, by simp [changes]⟩
      rw [if_neg hterminal] at h ⊢
      cases hfailed : failedOutcome snapshot with
      | some outcome =>
          rw [hfailed] at h
          cases h
          exact ⟨[], rfl, by simp [changes]⟩
      | none =>
          rw [hfailed] at h
          by_cases hlate : deadline ≤ a.monotonic checks
          · simp only [if_pos hlate] at h
            cases h
            exact ⟨[], by simp [hlate], by simp [changes]⟩
          simp only [if_neg hlate] at h
          cases hread : a.readTask reads taskId with
          | error exc =>
              rw [hread] at h
              cases h
              exact ⟨[], by simp [hlate], by simp [changes]⟩
          | ok next =>
              rw [hread] at h
              have hsome : (if (none : Option String).isSome then [snapshot]
                  else if deadline ≤ a.monotonic checks then [snapshot]
                  else snapshot :: a.history taskId deadline fuel (reads + 1) (checks + 1) next) =
                    snapshot :: a.history taskId deadline fuel (reads + 1) (checks + 1) next := by
                rw [if_neg hlate]
                rfl
              by_cases hchange : next.status ≠ lastStatus
              · simp only [if_pos hchange] at h
                obtain ⟨rest, hhist, heq⟩ := ih h
                refine ⟨next :: rest, by rw [← hhist]; exact hsome, ?_⟩
                rw [heq, changes, if_pos hchange, List.map_cons, List.append_assoc]
                rfl
              · simp only [if_neg hchange] at h
                obtain ⟨rest, hhist, heq⟩ := ih h
                refine ⟨next :: rest, by rw [← hhist]; exact hsome, ?_⟩
                rw [heq, changes, if_neg hchange]

/-! ## Which changes are kept -/

/-- What the runtime tells changes apart by: task, status and run outcome. -/
def changeKey (s : KanbanTaskSnapshot) : String × String × Option String :=
  (s.taskId, s.status, truthy s.outcome)

theorem get_status (c : ExecutionContext) (kind : String) (s : KanbanTaskSnapshot) :
    ((TaskEvent.plainly kind s).payload c).get "status" = .str s.status :=
  get_of_mem (base_mem_eventPayload (by simp [TaskEvent.plainly]) (by simp [TaskEvent.plainly]))

theorem get_outcome (c : ExecutionContext) (kind : String) (s : KanbanTaskSnapshot) :
    ((TaskEvent.plainly kind s).payload c).get "kanban_outcome" =
      (truthy s.outcome).elim .none .str := by
  cases hout : truthy s.outcome with
  | none =>
      refine get_of_not_mem fun hkey => ?_
      rcases mem_keys_eventPayload.1 hkey with h | ⟨-, h⟩ | ⟨h, -⟩ | h
      · cases h
      · rw [show truthy (TaskEvent.plainly kind s).snapshot.outcome = none from hout] at h
        cases h
      · exact absurd h (by decide)
      · exact absurd h (by decide)
  | some x =>
      refine get_of_mem (Mapping.mem_update.2 (Or.inr ⟨?_, List.not_mem_nil⟩))
      unfold Mapping.setText
      rw [show truthy (TaskEvent.plainly kind s).snapshot.outcome = some x from hout]
      exact Mapping.mem_set.2 (Or.inl rfl)

theorem key_plainly (c : ExecutionContext) (kind : String) (s : KanbanTaskSnapshot) :
    (TaskEvent.plainly kind s).key c =
      .task kind (.str s.taskId) (.str s.status) ((truthy s.outcome).elim .none .str) := by
  rw [TaskEvent.key, TaskEvent.get_taskId, get_status, get_outcome]
  cases truthy s.outcome <;> rfl

theorem nodup_key_iff (c : ExecutionContext) (kind : String) (changed : List KanbanTaskSnapshot) :
    ((changed.map (TaskEvent.plainly kind)).map (·.key c)).Nodup ↔
      (changed.map changeKey).Nodup := by
  have hkeys : (changed.map (TaskEvent.plainly kind)).map (·.key c) =
      (changed.map changeKey).map fun k =>
        EventKey.task kind (.str k.1) (.str k.2.1) (k.2.2.elim .none .str) := by
    rw [List.map_map, List.map_map]
    exact List.map_congr_left fun s _ => key_plainly c kind s
  rw [hkeys, List.nodup_map_iff]
  intro ⟨task, status, outcome⟩ ⟨task', status', outcome'⟩ heq
  injection heq with _ htask hstatus hout
  cases htask
  cases hstatus
  cases outcome <;> cases outcome' <;> cases hout <;> rfl

/-- The kinds of the last event. -/
def finalKinds : List String :=
  ["kanban.completed", "kanban.blocked", "kanban.failed", "kanban.timeout"]

/-- The loop's end adds one event of another kind. -/
theorem emitted_conclude (c : ExecutionContext) {ending : LoopEnd} (last : KanbanTaskSnapshot)
    (events : List (String × RawPayload)) (hended : ∀ exc, ending ≠ .raised exc) :
    ∃ final : TaskEvent, final.kind ∈ finalKinds ∧
      emitted (conclude c ending last events) = events ++ [final.raw c] := by
  cases ending with
  | raised exc => exact absurd rfl (hended exc)
  | timeout => exact ⟨.plainly "kanban.timeout" last, by simp [finalKinds, TaskEvent.plainly], rfl⟩
  | failed outcome =>
      have hplain : PlainExtra (.mk [⟨"kanban_outcome", .str outcome⟩]) := by
        intro e he
        rw [List.mem_singleton.1 he]
        exact ⟨List.mem_cons_self, outcome, rfl⟩
      exact ⟨⟨"kanban.failed", last, _, hplain⟩, by simp [finalKinds], rfl⟩
  | terminal =>
      by_cases hblocked : last.status ∈ terminalBlockedStatuses
      · refine ⟨.plainly "kanban.blocked" last, by simp [finalKinds, TaskEvent.plainly], ?_⟩
        simp [conclude, hblocked, emitted, ExecutionResult.ofFields, TaskEvent.raw,
          TaskEvent.plainly]
      · have hplain : PlainExtra last.fields.strings := by
          intro e he
          obtain ⟨e', he', rfl⟩ := List.mem_map.1 he
          exact ⟨List.mem_cons_of_mem _ (mem_fields he').1, e'.2, rfl⟩
        refine ⟨⟨"kanban.completed", last, _, hplain⟩, by simp [finalKinds], ?_⟩
        simp [conclude, hblocked, emitted, ExecutionResult.ofFields, TaskEvent.raw]

/-! ## The stored history -/

/-- The statuses in the events of a kind. -/
def statusesOf (kind : String) (events : List (String × Mapping PyVal)) : List PyVal :=
  (events.filter (·.1 = kind)).map (·.2.get "status")

/-- The stored status history: the status of `kanban.dispatched`, and those of
`kanban.status_changed`. -/
def storedHistory (tr : List CallEvent) : List PyVal :=
  statusesOf "kanban.dispatched" (storedEvents tr) ++
    statusesOf "kanban.status_changed" (storedEvents tr)

theorem storedHistory_eq {tr : List CallEvent} {stored : List (String × Mapping PyVal)}
    (h : storedEvents tr = ("agent.dispatched", ∅) :: stored) : storedHistory tr =
      statusesOf "kanban.dispatched" stored ++ statusesOf "kanban.status_changed" stored := by
  rw [storedHistory, h]
  rfl

/-- What is stored of a kind is made of the first events of each key of that kind. -/
theorem statusesOf_firsts {c : ExecutionContext} (kind : String) (events : List TaskEvent) :
    statusesOf kind ((firsts (·.key c) [] events).map fun e => (e.kind, e.payload c)) =
      ((firsts (·.key c) [] (events.filter (·.kind = kind))).map fun e =>
        (e.payload c).get "status") := by
  let q : EventKey → Prop
    | .task k _ _ _ => k = kind
    | .payload _ _ => False
  have hq : ∀ e : TaskEvent, decide (e.kind = kind) = true ↔ q (e.key c) := fun e =>
    decide_eq_true_iff
  rw [statusesOf, List.filter_map, List.map_map]
  show List.map _ (List.filter (fun e : TaskEvent => decide (e.kind = kind)) _) = _
  rw [filter_firsts hq fun _ _ => Iff.rfl]
  rfl

/-- The adapter's events: the first snapshot, the changes, and the end. -/
def taskEvents (initial : KanbanTaskSnapshot) (changed : List KanbanTaskSnapshot)
    (final : TaskEvent) : List TaskEvent :=
  .plainly "kanban.dispatched" initial ::
    (changed.map (TaskEvent.plainly "kanban.status_changed") ++ [final])

/-- Of these, all changes are kept exactly when no two have the same key. -/
theorem history_of_firsts {c : ExecutionContext} {initial : KanbanTaskSnapshot}
    {changed : List KanbanTaskSnapshot} {final : TaskEvent} (hfinal : final.kind ∈ finalKinds)
    {stored : List (String × Mapping PyVal)}
    (hstored : stored = (firsts (·.key c) [] (taskEvents initial changed final)).map
      fun e => (e.kind, e.payload c)) :
    statusesOf "kanban.dispatched" stored ++ statusesOf "kanban.status_changed" stored =
      PyVal.str initial.status :: changed.map (fun s => .str s.status) ↔
        (changed.map changeKey).Nodup := by
  have hdisp : final.kind ≠ "kanban.dispatched" := by
    intro heq
    rw [heq] at hfinal
    exact absurd hfinal (by decide)
  have hchange : final.kind ≠ "kanban.status_changed" := by
    intro heq
    rw [heq] at hfinal
    exact absurd hfinal (by decide)
  have hone : (taskEvents initial changed final).filter (·.kind = "kanban.dispatched") =
      [.plainly "kanban.dispatched" initial] := by
    simp [taskEvents, TaskEvent.plainly, hdisp]
  have hmany : (taskEvents initial changed final).filter (·.kind = "kanban.status_changed") =
      changed.map (TaskEvent.plainly "kanban.status_changed") := by
    simp [taskEvents, TaskEvent.plainly, hchange]
  have hstatuses : changed.map (fun s => PyVal.str s.status) =
      (changed.map (TaskEvent.plainly "kanban.status_changed")).map
        fun e => (e.payload c).get "status" := by
    rw [List.map_map]
    exact List.map_congr_left fun s _ => (get_status c _ s).symm
  rw [hstored, statusesOf_firsts, statusesOf_firsts, hone, hmany,
    firsts_cons_of_not_mem List.not_mem_nil, firsts, List.map_cons, List.map_nil, get_status,
    List.singleton_append, List.cons_inj_right, hstatuses, map_firsts_eq_iff, nodup_key_iff]
  exact and_iff_left fun _ _ => List.not_mem_nil

/-- The stored history of a task whose loop came to an end of its own. -/
theorem ended_history_iff {rt : AgentRuntime} {m : Bool} {issue : Issue} {tr : List CallEvent}
    {o : Except Exc ExecutionContext} {c : ExecutionContext}
    {a : KanbanDispatcherAdapter} {fuel reads : Nat} {initial last : KanbanTaskSnapshot}
    {ending : LoopEnd} {events : List (String × RawPayload)}
    (h : Returns (rt.execute m issue).run tr o)
    (hdisp : (⟨.dispatch c, conclude c ending last events⟩ : CallEvent) ∈ tr)
    (hpoll : a.poll fuel c initial reads = some (ending, last, events))
    (hended : ∀ exc, ending ≠ .raised exc)
    (hvalid : ∀ event ∈ emitted (conclude c ending last events), ValidEvent event)
    (hok : EventsSucceed tr) (hcarry : ∀ ev ∈ tr, CarriesNothing ev) :
    storedHistory tr =
        (((a.snapshots fuel initial reads).map (·.status)).destutter (· ≠ ·)).map PyVal.str ↔
      ((changes initial.status (a.snapshots fuel initial reads).tail).map changeKey).Nodup := by
  obtain ⟨rest, hsnapshots, hevents⟩ := pollTask_history hpoll
  have hall : a.snapshots fuel initial reads = initial :: rest := hsnapshots
  obtain ⟨final, hfinal, hemitted⟩ := emitted_conclude c last events hended
  have hraw : emitted (conclude c ending last events) =
      (taskEvents initial (changes initial.status rest) final).map (·.raw c) := by
    rw [hemitted, hevents, taskEvents, List.map_cons, List.map_append, List.map_map]
    rfl
  have hvalid' : ∀ e ∈ taskEvents initial (changes initial.status rest) final,
      ValidEvent (e.raw c) := by
    intro e he
    exact hvalid _ (hraw ▸ List.mem_map_of_mem he)
  have hnorm := normalizeEvents_taskEvents hvalid' []
  rw [← hraw] at hnorm
  rw [hall, List.map_cons, List.destutter_cons', destutter_status, List.map_cons, List.map_map,
    List.tail_cons, storedHistory_eq (stored_of_dispatch h hdisp hok hcarry hnorm)]
  exact history_of_firsts hfinal rfl

theorem call_eq {a : KanbanDispatcherAdapter} {fuel reads : Nat} {c : ExecutionContext}
    {initial last : KanbanTaskSnapshot} {ending : LoopEnd} {events : List (String × RawPayload)}
    (hfirst : a.first c = .ok (initial, reads))
    (hpoll : a.poll fuel c initial reads = some (ending, last, events)) :
    a.call fuel c = some (conclude c ending last events) := by
  unfold KanbanDispatcherAdapter.call
  rw [hfirst]
  simp only [hpoll, Option.map_some]

/-- **When the stored events tell a task's status history.** In an execution whose events are
valid and whose `store.event` calls go through, the stored statuses are those of the snapshots
read, repeats left out, exactly when every read was answered and no two changes showed the same
task, status and run outcome. -/
theorem status_history_iff {rt : AgentRuntime} {m : Bool} {issue : Issue} {tr : List CallEvent}
    {o : Except Exc ExecutionContext} {c : ExecutionContext} {r : Except Exc ExecutionResult}
    {a : KanbanDispatcherAdapter} {fuel reads : Nat} {initial last : KanbanTaskSnapshot}
    {ending : LoopEnd} {events : List (String × RawPayload)}
    (h : Returns (rt.execute m issue).run tr o) (hdisp : (⟨.dispatch c, r⟩ : CallEvent) ∈ tr)
    (hby : a.call fuel c = some r) (hfirst : a.first c = .ok (initial, reads))
    (hpoll : a.poll fuel c initial reads = some (ending, last, events))
    (hreader : ∀ exc, ending = .raised exc → exc.event = none)
    (hvalid : ∀ event ∈ emitted r, ValidEvent event) (hok : EventsSucceed tr)
    (hcarry : ∀ ev ∈ tr, CarriesNothing ev) :
    storedHistory tr =
        (((a.snapshots fuel initial reads).map (·.status)).destutter (· ≠ ·)).map PyVal.str ↔
      (∀ exc, ending ≠ .raised exc) ∧
        ((changes initial.status (a.snapshots fuel initial reads).tail).map changeKey).Nodup := by
  rw [call_eq hfirst hpoll] at hby
  cases hby
  by_cases hended : ∀ exc, ending ≠ .raised exc
  · rw [and_iff_right hended]
    exact ended_history_iff h hdisp hpoll hended hvalid hok hcarry
  · -- A read that raised leaves the adapter without an event.
    refine iff_of_false ?_ fun hcond => hended hcond.1
    push Not at hended
    obtain ⟨exc, rfl⟩ := hended
    obtain ⟨rest, hsnapshots, -⟩ := pollTask_history hpoll
    have hall : a.snapshots fuel initial reads = initial :: rest := hsnapshots
    have hnorm : normalizeEvents [] (emitted (conclude c (.raised exc) last events)) = .ok [] := by
      simp only [conclude, emitted, hreader exc rfl]
      rfl
    rw [storedHistory_eq (stored_of_dispatch h hdisp hok hcarry hnorm), hall, List.map_cons,
      List.destutter_cons', destutter_status]
    intro heq
    cases heq

/-! ## A task that is taken up again -/

/-- A snapshot of a task without a run. -/
def taskAt (status : String) : KanbanTaskSnapshot := { taskId := "t_1", status }

/-- An adapter whose task is `ready` at first and then shows these statuses. -/
def adapterOf (statuses : List String) : KanbanDispatcherAdapter where
  start := fun _ => .ok (.inr (taskAt "ready"))
  readTask := fun n _ => .ok (taskAt (statuses.getD n "done"))
  monotonic := fun _ => 0
  timeoutSeconds := 3600
  timeout_pos := hour_pos

/-- The adapter's events for these changes of status. -/
def reported (statuses : List String) : List (String × RawPayload) :=
  kanbanEvent "kanban.dispatched" sampleContext (taskAt "ready") ∅ ::
    statuses.map fun status => kanbanEvent "kanban.status_changed" sampleContext (taskAt status) ∅

theorem not_hour_le : ¬ (3600 : ℚ) ≤ 0 := not_le.2 hour_pos

/-- The task goes back to `ready` and is taken up again. -/
theorem retaken_poll : (adapterOf ["running", "ready", "running"]).poll 5 sampleContext
    (taskAt "ready") 0 =
      some (.terminal, taskAt "done", reported ["running", "ready", "running", "done"]) := by
  simp [KanbanDispatcherAdapter.poll, pollTask, adapterOf, taskAt, reported, not_hour_le,
    terminalDoneStatuses, terminalBlockedStatuses, failedOutcome, KanbanTaskSnapshot.outcome]

theorem retaken_snapshots : (adapterOf ["running", "ready", "running"]).snapshots 5
    (taskAt "ready") 0 = ["ready", "running", "ready", "running", "done"].map taskAt := by
  simp [snapshots, history, adapterOf, taskAt, not_hour_le, terminalDoneStatuses,
    terminalBlockedStatuses, failedOutcome, KanbanTaskSnapshot.outcome]

/-- The task is taken up once. -/
theorem taken_poll : (adapterOf ["running"]).poll 3 sampleContext (taskAt "ready") 0 =
    some (.terminal, taskAt "done", reported ["running", "done"]) := by
  simp [KanbanDispatcherAdapter.poll, pollTask, adapterOf, taskAt, reported, not_hour_le,
    terminalDoneStatuses, terminalBlockedStatuses, failedOutcome, KanbanTaskSnapshot.outcome]

/-- The events of a finished task are valid. -/
theorem valid_done {statuses : List String}
    (h : ∀ status ∈ statuses, status ∈ ["ready", "running", "done"]) :
    ∀ event ∈ emitted (conclude sampleContext .terminal (taskAt "done") (reported statuses)),
      ValidEvent event := by
  have hends : ∀ event ∈ [kanbanEvent "kanban.dispatched" sampleContext (taskAt "ready") ∅,
      kanbanEvent "kanban.completed" sampleContext (taskAt "done") ∅], ValidEvent event := by
    decide
  have hchange : ∀ status ∈ ["ready", "running", "done"],
      ValidEvent (kanbanEvent "kanban.status_changed" sampleContext (taskAt status) ∅) := by
    decide
  have hemitted : emitted (conclude sampleContext .terminal (taskAt "done") (reported statuses)) =
      reported statuses ++ [kanbanEvent "kanban.completed" sampleContext (taskAt "done") ∅] := rfl
  rw [hemitted]
  intro event hevent
  rcases List.mem_append.1 hevent with hevent | hevent
  · rcases List.mem_cons.1 hevent with rfl | hevent
    · exact hends _ List.mem_cons_self
    · obtain ⟨status, hstatus, rfl⟩ := List.mem_map.1 hevent
      exact hchange status (h status hstatus)
  · exact hends event (List.mem_cons_of_mem _ hevent)

/-- The QA agent's issue is executed with what the adapter returns for a finished task. -/
theorem exists_execute_of_done {statuses : List String}
    (hvalid : ∀ event ∈ emitted (conclude sampleContext .terminal (taskAt "done")
      (reported statuses)), ValidEvent event) :
    ∃ tr, Returns (AgentRuntime.ofStore.execute true qaIssue).run tr (.ok sampleContext) ∧
      (⟨.dispatch sampleContext, conclude sampleContext .terminal (taskAt "done")
        (reported statuses)⟩ : CallEvent) ∈ tr ∧ EventsSucceed tr ∧
      ∀ ev ∈ tr, CarriesNothing ev := by
  have hc : IsContextOf qaIssue sampleContext := ⟨by decide, rfl, 0, 0, by decide⟩
  have hraw : emitted (conclude sampleContext .terminal (taskAt "done") (reported statuses)) =
      (taskEvents (taskAt "ready") (statuses.map taskAt)
        (.plainly "kanban.completed" (taskAt "done"))).map (·.raw sampleContext) := by
    rw [taskEvents, List.map_cons, List.map_append, List.map_map, List.map_map]
    rfl
  have hnorm := normalizeEvents_taskEvents (c := sampleContext)
    (fun e he => hvalid _ (hraw ▸ List.mem_map_of_mem he)) []
  rw [← hraw] at hnorm
  exact exists_execute_of_gates .ofStore true hc hnorm rfl

/-- The second time a task is `running` is not stored. -/
theorem status_history_lost :
    ¬ ∀ (rt : AgentRuntime) (m : Bool) (issue : Issue) (tr : List CallEvent)
      (o : Except Exc ExecutionContext) (c : ExecutionContext) (r : Except Exc ExecutionResult)
      (a : KanbanDispatcherAdapter) (fuel reads : Nat) (initial last : KanbanTaskSnapshot)
      (ending : LoopEnd) (events : List (String × RawPayload)),
      Returns (rt.execute m issue).run tr o → (⟨.dispatch c, r⟩ : CallEvent) ∈ tr →
      a.call fuel c = some r → a.first c = .ok (initial, reads) →
      a.poll fuel c initial reads = some (ending, last, events) →
      (∀ exc, ending ≠ .raised exc) →
      (∀ s ∈ a.snapshots fuel initial reads, s.taskId = initial.taskId) →
      (∀ event ∈ emitted r, ValidEvent event) → EventsSucceed tr →
      (∀ ev ∈ tr, CarriesNothing ev) → storedHistory tr =
        (((a.snapshots fuel initial reads).map (·.status)).destutter (· ≠ ·)).map PyVal.str := by
  intro h
  have hvalid : ∀ event ∈ emitted (conclude sampleContext .terminal (taskAt "done")
      (reported ["running", "ready", "running", "done"])), ValidEvent event :=
    valid_done (by decide)
  obtain ⟨tr, hrun, hdisp, hok, hcarry⟩ := exists_execute_of_done hvalid
  have hsame : ∀ s ∈ (adapterOf ["running", "ready", "running"]).snapshots 5 (taskAt "ready") 0,
      s.taskId = (taskAt "ready").taskId := by
    rw [retaken_snapshots]
    decide
  have hkept := (ended_history_iff hrun hdisp retaken_poll nofun hvalid hok hcarry).1
    (h _ _ _ tr _ _ _ _ 5 0 _ _ _ _ hrun hdisp (call_eq rfl retaken_poll) rfl retaken_poll nofun
      hsame hvalid hok hcarry)
  rw [retaken_snapshots] at hkept
  revert hkept
  decide

/-- A task that is taken up once is stored as it went. -/
theorem status_history_kept :
    ∃ tr, Returns (AgentRuntime.ofStore.execute true qaIssue).run tr (.ok sampleContext) ∧
      storedHistory tr = [.str "ready", .str "running", .str "done"] := by
  have hvalid : ∀ event ∈ emitted (conclude sampleContext .terminal (taskAt "done")
      (reported ["running", "done"])), ValidEvent event :=
    valid_done (by decide)
  have hsnapshots : (adapterOf ["running"]).snapshots 3 (taskAt "ready") 0 =
      ["ready", "running", "done"].map taskAt := by
    simp [snapshots, history, adapterOf, taskAt, not_hour_le, terminalDoneStatuses,
      terminalBlockedStatuses, failedOutcome, KanbanTaskSnapshot.outcome]
  obtain ⟨tr, hrun, hdisp, hok, hcarry⟩ := exists_execute_of_done hvalid
  have hended : ∀ exc, LoopEnd.terminal ≠ .raised exc := by
    intro exc heq
    cases heq
  have hiff := status_history_iff hrun hdisp (call_eq rfl taken_poll) rfl taken_poll
    (fun exc heq => absurd heq (hended exc)) hvalid hok hcarry
  rw [hsnapshots] at hiff
  exact ⟨tr, hrun, hiff.2 ⟨hended, by decide⟩⟩

end HermesRuntime
