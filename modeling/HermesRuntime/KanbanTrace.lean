import HermesRuntime.KanbanCalls
import HermesRuntime.KanbanProof
import Mathlib.Algebra.Order.Ring.Rat

/-!
# The trace of the Kanban adapter

For every stream of snapshots and every clock, the first snapshot that closes the trace decides
what the adapter reads, which events it reports and how it ends.

* `lookup_fields` — the fields of a finished task.
* `run_eq_call` — the run of the adapter comes to what `KanbanDispatcherAdapter.call` returns.
* `kanban_trace` — calls, events and outcome, by the first snapshot that closes the trace.
-/

namespace HermesRuntime

open Effects Prog KanbanProc KanbanDispatcherAdapter

/-! ## The result -/

/-- A result field of a finished task: its own value where that is a text, else its run's. -/
def KanbanTaskSnapshot.field (snapshot : KanbanTaskSnapshot) (name : String) : Option String :=
  (stringField snapshot.metadata name).or
    (snapshot.latestRun.bind fun run => stringField run.metadata name)

theorem lookup_resultFields {metadata : Mapping PyVal} {name : String}
    (hname : name ∈ allowedResultFields) :
    (resultFields metadata).lookup name = stringField metadata name := by
  refine Option.ext fun v => ?_
  rw [← Option.mem_def, AList.mem_lookup_iff, mem_resultFields]
  exact and_iff_right hname

theorem lookup_fields {snapshot : KanbanTaskSnapshot} {name : String}
    (hname : name ∈ allowedResultFields) :
    snapshot.fields.lookup name = snapshot.field name := by
  unfold KanbanTaskSnapshot.fields KanbanTaskSnapshot.field
  cases snapshot.latestRun with
  | none =>
      rw [Option.bind_none, Option.or_none]
      exact lookup_resultFields hname
  | some run =>
      have hown : (resultFields snapshot.metadata).lookup name = _ := lookup_resultFields hname
      have hrun : (resultFields run.metadata).lookup name = _ := lookup_resultFields hname
      refine Option.ext fun v => ?_
      rw [← Option.mem_def, AList.mem_lookup_iff, Mapping.mem_update, ← AList.mem_lookup_iff,
        ← AList.mem_lookup_iff, hown, hrun, Option.bind_some]
      have hkeys : name ∉ (resultFields snapshot.metadata).entries.map Sigma.fst ↔
          stringField snapshot.metadata name = none := by
        rw [← hown, AList.lookup_eq_none]
        exact Iff.rfl
      rw [hkeys, Option.mem_def, Option.mem_def]
      cases stringField snapshot.metadata name with
      | none => simp
      | some s => simp

/-- The result of a finished task. -/
def KanbanTaskSnapshot.result (snapshot : KanbanTaskSnapshot)
    (events : List (String × RawPayload)) : ExecutionResult where
  commitSha := snapshot.field "commit_sha"
  pullRequestUrl := snapshot.field "pull_request_url"
  railwayDeploymentId := snapshot.field "railway_deployment_id"
  testsStatus := snapshot.field "tests_status"
  reviewStatus := snapshot.field "review_status"
  events := events

theorem ofFields_eq_result (snapshot : KanbanTaskSnapshot) (events : List (String × RawPayload)) :
    ExecutionResult.ofFields snapshot.fields events = snapshot.result events := by
  have hlookup : ∀ name ∈ allowedResultFields,
      snapshot.fields.lookup name = snapshot.field name := fun _ => lookup_fields
  simp only [allowedResultFields, List.forall_mem_cons] at hlookup
  obtain ⟨hcommit, hpull, hrailway, htests, hreview, -⟩ := hlookup
  unfold ExecutionResult.ofFields KanbanTaskSnapshot.result
  rw [hcommit, hpull, hrailway, htests, hreview]

/-! ## The end -/

/-- The closing event. -/
def Closing.event (c : ExecutionContext) (snapshot : KanbanTaskSnapshot) :
    Closing → String × RawPayload
  | .done => kanbanEvent "kanban.completed" c snapshot snapshot.fields.strings
  | .blocked => kanbanEvent "kanban.blocked" c snapshot ∅
  | .failed outcome =>
      kanbanEvent "kanban.failed" c snapshot
        (.mk [⟨"kanban_outcome", .str outcome⟩] (List.nodup_singleton "kanban_outcome"))
  | .timeout => kanbanEvent "kanban.timeout" c snapshot ∅

/-- How the adapter ends, with all its events. -/
def Closing.outcome (snapshot : KanbanTaskSnapshot) (events : List (String × RawPayload)) :
    Closing → Except Exc ExecutionResult
  | .done | .blocked => .ok (snapshot.result events)
  | .failed _ => .error (.executionEventError "RuntimeError" events)
  | .timeout => .error (.executionEventError "TimeoutError" events)

/-- What a closing at a snapshot says of its status. -/
theorem status_of_closingAt {deadline reading : ℚ} {snapshot : KanbanTaskSnapshot}
    {closing : Closing} (h : closingAt deadline snapshot reading = some closing) :
    (closing = .done → snapshot.status = "done") ∧
      (closing = .blocked → snapshot.status = "blocked") := by
  unfold closingAt at h
  split at h
  · rename_i hdone
    cases h
    exact ⟨fun _ => hdone, nofun⟩
  split at h
  · rename_i hblocked
    cases h
    exact ⟨nofun, fun _ => hblocked⟩
  split at h
  · cases h
    exact ⟨nofun, nofun⟩
  split at h
  · cases h
    exact ⟨nofun, nofun⟩
  · cases h

theorem conclude_eq_outcome {deadline reading : ℚ} {snapshot : KanbanTaskSnapshot}
    {closing : Closing} (h : closingAt deadline snapshot reading = some closing)
    (c : ExecutionContext) (events : List (String × RawPayload)) :
    conclude c closing.loopEnd snapshot events =
      closing.outcome snapshot (events ++ [closing.event c snapshot]) := by
  obtain ⟨hdone, hblocked⟩ := status_of_closingAt h
  cases closing with
  | failed outcome => rfl
  | timeout => rfl
  | done =>
      have hno : snapshot.status ∉ terminalBlockedStatuses := by
        rw [hdone rfl]
        decide
      unfold conclude Closing.loopEnd
      simp only [if_neg hno, ofFields_eq_result]
      rfl
  | blocked =>
      have hyes : snapshot.status ∈ terminalBlockedStatuses := by
        rw [hblocked rfl]
        decide
      unfold conclude Closing.loopEnd
      simp only [if_pos hyes, ofFields_eq_result]
      rfl

/-! ## The run -/

namespace KanbanDispatcherAdapter

variable {a : KanbanDispatcherAdapter} {p : KanbanPolling} {c : ExecutionContext}

/-- The calls that get the first snapshot. -/
def firstCalls (a : KanbanDispatcherAdapter) (c : ExecutionContext) : List KanbanCall :=
  match a.start c with
  | .ok (.inl taskId) => [.start c, .readTask taskId]
  | _ => [.start c]

/-- Until it has the first snapshot. -/
theorem serve_first {β : Type} {initial : KanbanTaskSnapshot} {reads : ℕ}
    (h : a.first c = .ok (initial, reads)) (f : KanbanTaskSnapshot → KanbanProc β) :
    ∃ tr, tr.map (·.1) = a.firstCalls c ∧
      serve a.answer (0, 0) (KanbanProc.start c >>= fun answer => firstSnapshot answer >>= f).run =
        (tr ++ (serve a.answer (reads, 0) (f initial).run).1,
          (serve a.answer (reads, 0) (f initial).run).2) := by
  unfold first at h
  obtain ⟨answer, hstart, h⟩ := bind_eq_ok.1 h
  rw [serve_run_bind (serve_start hstart)]
  unfold firstCalls
  rw [hstart]
  cases answer with
  | inr snapshot =>
      cases h
      exact ⟨[_], rfl, rfl⟩
  | inl taskId =>
      obtain ⟨snapshot, hread, h⟩ := bind_eq_ok.1 h
      cases h
      rw [show firstSnapshot (.inl taskId) = KanbanProc.readTask taskId from rfl,
        serve_run_bind (serve_readTask hread)]
      exact ⟨[_, _], rfl, rfl⟩

/-- What the loop of `Kanban` comes to, for the loop that makes calls. -/
def loopOutcome :
    Option (LoopEnd × KanbanTaskSnapshot × List (String × RawPayload)) →
      Except Exc (Option (LoopEnd × KanbanTaskSnapshot × List (String × RawPayload)))
  | some (.raised exc, _, _) => .error exc
  | ended => .ok ended

theorem serve_pollLoop_eq {taskId : String} {deadline : ℚ} {fuel reads checks : ℕ}
    {snapshot : KanbanTaskSnapshot} {lastStatus : String} {events : List (String × RawPayload)} :
    (serve a.answer (reads, checks)
      (pollLoop p c taskId deadline fuel snapshot lastStatus events).run).2.1 =
        loopOutcome
          (a.pollTask c taskId deadline fuel reads checks snapshot lastStatus events) := by
  induction fuel generalizing reads checks snapshot lastStatus events with
  | zero => rfl
  | succ fuel ih =>
      unfold pollLoop pollTask
      by_cases hstatus : snapshot.status ∈ terminalDoneStatuses ++ terminalBlockedStatuses
      · rw [if_pos hstatus, if_pos hstatus]
        rfl
      rw [if_neg hstatus, if_neg hstatus]
      cases failedOutcome snapshot with
      | some outcome => rfl
      | none =>
          dsimp only
          rw [serve_run_bind serve_monotonic]
          by_cases hle : deadline ≤ a.monotonic checks
          · rw [if_pos hle, if_pos hle]
            rfl
          rw [if_neg hle, if_neg hle, serve_run_bind (serve_sleep _)]
          cases htask : a.readTask reads taskId with
          | error exc =>
              rw [ExceptT.run_bind, serve_bind, serve_readTask htask]
              rfl
          | ok next =>
              rw [serve_run_bind (serve_readTask htask)]
              dsimp only
              split
              · exact ih
              · exact ih

/-- The adapter after its first snapshot. -/
def adapterRest (p : KanbanPolling) (fuel : ℕ) (c : ExecutionContext)
    (snapshot : KanbanTaskSnapshot) : KanbanProc (Option ExecutionResult) := do
  let now ← KanbanProc.monotonic
  let ended ← pollLoop p c snapshot.taskId (now + p.timeoutSeconds) fuel snapshot
    snapshot.status [kanbanEvent "kanban.dispatched" c snapshot ∅]
  concludeLoop c ended

theorem adapterCall_eq (fuel : ℕ) : adapterCall p fuel c =
    KanbanProc.start c >>= fun answer => firstSnapshot answer >>= adapterRest p fuel c := rfl

/-- What the loop's end comes to. -/
def callOutcome (c : ExecutionContext) :
    Option (LoopEnd × KanbanTaskSnapshot × List (String × RawPayload)) →
      Except Exc (Option ExecutionResult)
  | none => .ok none
  | some (ending, snapshot, events) => (conclude c ending snapshot events).map some

theorem serve_adapterRest (htimeout : p.timeoutSeconds = a.timeoutSeconds) {fuel reads : ℕ}
    {initial : KanbanTaskSnapshot} :
    (serve a.answer (reads, 0) (adapterRest p fuel c initial).run).2.1 =
      callOutcome c (a.poll fuel c initial reads) := by
  unfold adapterRest poll
  rw [serve_run_bind serve_monotonic, ExceptT.run_bind, serve_bind, serve_pollLoop_eq, htimeout]
  cases a.pollTask c initial.taskId (a.monotonic 0 + a.timeoutSeconds) fuel reads 1 initial
    initial.status [kanbanEvent "kanban.dispatched" c initial ∅] with
  | none => rfl
  | some ended =>
      obtain ⟨ending, snapshot, events⟩ := ended
      cases ending <;> rfl

/-- **The run comes to what the adapter of `Kanban` returns.** -/
theorem run_eq_call (htimeout : p.timeoutSeconds = a.timeoutSeconds) (fuel : ℕ) :
    (a.run p fuel c).2 = match a.call fuel c with
      | none => .ok none
      | some o => o.map some := by
  unfold run call
  rw [adapterCall_eq]
  cases hfirst : a.first c with
  | ok first =>
      obtain ⟨initial, reads⟩ := first
      obtain ⟨tr, -, hserve⟩ := serve_first hfirst (adapterRest p fuel c)
      rw [hserve, serve_adapterRest htimeout]
      dsimp only
      cases a.poll fuel c initial reads <;> rfl
  | error exc =>
      unfold first at hfirst
      cases hstart : a.start c with
      | error e =>
          rw [hstart] at hfirst
          cases hfirst
          rw [ExceptT.run_bind, serve_bind, serve_start hstart]
          rfl
      | ok answer =>
          rw [hstart] at hfirst
          rw [serve_run_bind (serve_start hstart)]
          cases answer with
          | inr snapshot => cases hfirst
          | inl taskId =>
              cases hread : a.readTask 0 taskId with
              | ok snapshot =>
                  replace hfirst : (a.readTask 0 taskId >>= fun snapshot =>
                    (pure (snapshot, 1) : Except Exc _)) = .error exc := hfirst
                  rw [hread] at hfirst
                  cases hfirst
              | error e =>
                  replace hfirst : (a.readTask 0 taskId >>= fun snapshot =>
                    (pure (snapshot, 1) : Except Exc _)) = .error exc := hfirst
                  rw [hread] at hfirst
                  cases hfirst
                  rw [show firstSnapshot (.inl taskId) = KanbanProc.readTask taskId from rfl,
                    ExceptT.run_bind, serve_bind, serve_readTask hread]
                  rfl

/-- All events of an adapter whose trace is closed at the `k`-th snapshot. -/
def traceEvents (c : ExecutionContext) (s : ℕ → KanbanTaskSnapshot) (k : ℕ) (closing : Closing) :
    List (String × RawPayload) :=
  kanbanEvent "kanban.dispatched" c (s 0) ∅ :: statusChanges c s 0 k ++ [closing.event c (s k)]

/-- **The trace of the adapter.** Let the `k`-th snapshot be the first that closes the trace. Then
the adapter reads the task of its first snapshot `k` times more, reports the dispatch, each change
of status and the closing, and ends as the closing says: it returns for a task that is done or
blocked, and raises otherwise. -/
theorem kanban_trace {s : ℕ → KanbanTaskSnapshot} {reads k fuel : ℕ} {closing : Closing}
    (hfirst : a.first c = .ok (s 0, reads))
    (hreads : ∀ i, a.readTask (reads + i) (s 0).taskId = .ok (s (i + 1)))
    (hbefore : ∀ i < k,
      closingAt (a.monotonic 0 + p.timeoutSeconds) (s i) (a.monotonic (i + 1)) = none)
    (hclosing : closingAt (a.monotonic 0 + p.timeoutSeconds) (s k) (a.monotonic (k + 1)) =
      some closing) (hfuel : k < fuel) :
    (a.run p fuel c).1.map (·.1) = a.firstCalls c ++ .monotonic ::
      (List.replicate k [.monotonic, .sleep p.pollSeconds, .readTask (s 0).taskId]).flatten ++
        closing.lastReading ∧
    (a.run p fuel c).2 = (closing.outcome (s k) (traceEvents c s k closing)).map some ∧
    ((∃ result, (a.run p fuel c).2 = .ok result) ↔ closing = .done ∨ closing = .blocked) := by
  obtain ⟨tr, hcalls, hserve⟩ := serve_first hfirst (adapterRest p fuel c)
  obtain ⟨tr', s', hloop, hturns⟩ := serve_pollLoop (p := p) (c := c) (i := 0) hreads
    (fun j _ hj => hbefore j (by omega)) (by rw [Nat.zero_add]; exact hclosing) hfuel
    [kanbanEvent "kanban.dispatched" c (s 0) ∅]
  rw [Nat.add_zero, Nat.zero_add k] at hloop
  have hrest : serve a.answer (reads, 0) (adapterRest p fuel c (s 0)).run =
      (⟨.monotonic, a.monotonic 0⟩ :: tr',
        (closing.outcome (s k) (traceEvents c s k closing)).map some, s') := by
    unfold adapterRest
    rw [serve_run_bind serve_monotonic, serve_run_bind hloop]
    have hconclude := conclude_eq_outcome hclosing c
      ([kanbanEvent "kanban.dispatched" c (s 0) ∅] ++ statusChanges c s 0 k)
    show (⟨.monotonic, a.monotonic 0⟩ :: (tr' ++ []),
      (conclude c closing.loopEnd (s k) _).map some, s') = _
    rw [hconclude, List.append_nil]
    rfl
  unfold run
  rw [adapterCall_eq, hserve, hrest]
  refine ⟨?_, rfl, ?_⟩
  · rw [List.map_append, hcalls, List.map_cons, hturns, List.append_assoc]
    rfl
  · cases closing with
    | done => exact ⟨fun _ => Or.inl rfl, fun _ => ⟨_, rfl⟩⟩
    | blocked => exact ⟨fun _ => Or.inr rfl, fun _ => ⟨_, rfl⟩⟩
    | failed outcome => exact ⟨nofun, nofun⟩
    | timeout => exact ⟨nofun, nofun⟩

/-! ## A task that gets done -/

/-- A task that is running when it is dispatched and done when it is read next. -/
def finishingAdapter : KanbanDispatcherAdapter where
  start := fun _ => .ok (.inr ⟨"t_1", "running", none, ∅, none⟩)
  readTask := fun _ _ => .ok ⟨"t_1", "done", none, ∅, none⟩
  monotonic := fun _ => 0
  timeoutSeconds := 3600
  timeout_pos := hour_pos

/-- Its snapshots. -/
def finishingSnapshots : ℕ → KanbanTaskSnapshot
  | 0 => ⟨"t_1", "running", none, ∅, none⟩
  | _ + 1 => ⟨"t_1", "done", none, ∅, none⟩

/-- It is read once more. -/
theorem finishing_trace : ((finishingAdapter.run (finishingAdapter.polling 5 rfl) 2
    sampleContext).1.map (·.1)) = [.start sampleContext, .monotonic, .monotonic, .sleep 5,
      .readTask "t_1"] := by
  have hbefore : ∀ i < 1, closingAt (finishingAdapter.monotonic 0 + 3600) (finishingSnapshots i)
      (finishingAdapter.monotonic (i + 1)) = none := by
    intro i hi
    obtain rfl := Nat.lt_one_iff.1 hi
    have hearly : ¬ finishingAdapter.monotonic 0 + 3600 ≤ finishingAdapter.monotonic 1 :=
      not_le.2 (lt_add_of_pos_right 0 finishingAdapter.timeout_pos)
    exact if_neg hearly
  have hclosing : closingAt (finishingAdapter.monotonic 0 + 3600) (finishingSnapshots 1)
      (finishingAdapter.monotonic 2) = some .done := rfl
  exact (kanban_trace (p := finishingAdapter.polling 5 rfl) (s := finishingSnapshots) rfl
    (fun _ => rfl) hbefore hclosing (by decide)).1

end KanbanDispatcherAdapter

end HermesRuntime
