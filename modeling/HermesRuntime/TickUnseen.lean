import HermesRuntime.ExceptionText
import HermesRuntime.TickWrites

/-!
# What a tick does not see

Two ticks that are answered the same, but for the texts of what fails and for what Linear says of
an update, do the same. So no text of Linear, of the store or of the board gets anywhere, and an
update that Linear did not make is taken for one it made.

* `SameReply` — what may differ in an answer.
* `carryOut_alike` — each call of the pass is carried out alike.
* `processIssue_alike`, `runOnce_alike` — the pass goes on alike, but for the reasons it gives.
* `tick_unseen` — ticks that are answered alike make the same calls, and end alike.
-/

namespace HermesRuntime

open Effects Prog

/-! ## What may differ -/

/-- The request went well in both, whatever it returned, or failed with the same class. -/
abbrev SameFate : Except Exc Bool → Except Exc Bool → Prop :=
  SameOutcome Exc.SameClass fun _ _ => True

/-- The call of a tick is answered alike: the client makes the same of it, but for the messages
of exceptions. Of an update and of an event only the failure counts, and a new run gets the same
id. -/
def SameReply : (i : TickCall) → i.Resp → i.Resp → Prop
  | .queryTodo, r, r' => SameText (todoNodesOf r) (todoNodesOf r')
  | .updateIssue _ _, r, r' => SameFate (setStateOf r) (setStateOf r')
  | .post (.insertEvent _), r, r' => SameFate (TickProc.answerOf r) (TickProc.answerOf r')
  | .post _, r, r' => SameText (TickProc.answerOf r) (TickProc.answerOf r')
  | .entropy, (millis, random), (millis', random') =>
      newRunId millis random = newRunId millis' random'
  | .joinHeartbeat _, r, r' =>
      List.Forall₂ SameText (r.map TickProc.answerOf) (r'.map TickProc.answerOf)
  | .board .listTasks, r, r' => SameText r r'
  | .board (.createTask _), r, r' => SameText r r'
  | .getTask _, r, r' => SameText r r'
  | .latestRun _, r, r' => SameText r r'
  | .monotonic, r, r' => r = r'
  | .startHeartbeat _ _, _, _ | .sleep _, _, _ | .pollOn, _, _ => True

/-- Parts of a tick that go on alike. -/
abbrev AlikeTick {α β : Type} (R : α → β → Prop) (x : TickProc α) (x' : TickProc β) : Prop :=
  Alike SameReply (SameOutcome Exc.SameClass R) x.run x'.run

section Rules

variable {α β γ δ : Type}

theorem tick_settle {x x' : Except Exc α} (h : SameText x x') :
    AlikeTick Eq (TickProc.settle x) (TickProc.settle x') := .ret h

theorem tick_pure (a : α) : AlikeTick Eq (pure a) (pure a) := .ret (.ok rfl)

/-- Sequencing after a result that is the same. -/
theorem tick_bind {R : β → γ → Prop} {x x' : TickProc α} {f : α → TickProc β}
    {f' : α → TickProc γ} (hx : AlikeTick Eq x x') (hf : ∀ a, AlikeTick R (f a) (f' a)) :
    AlikeTick R (x >>= f) (x' >>= f') :=
  alike_run_bind hx fun a b h => by
    cases h
    exact hf a

/-- Sequencing after a result that is not looked at. -/
theorem tick_bind_any {S : α → β → Prop} {R : γ → δ → Prop} {x : TickProc α} {x' : TickProc β}
    {y : TickProc γ} {y' : TickProc δ} (hx : AlikeTick S x x') (hy : AlikeTick R y y') :
    AlikeTick R (x >>= fun _ => y) (x' >>= fun _ => y') :=
  alike_run_bind hx fun _ _ _ => hy

end Rules

/-! ## Single calls -/

theorem queryTodo_alike : AlikeTick Eq TickProc.queryTodo TickProc.queryTodo :=
  .call fun _ _ hr => .ret hr

theorem listTasks_alike : AlikeTick Eq TickProc.listTasks TickProc.listTasks :=
  .call fun _ _ hr => .ret hr

theorem setState_alike (issueId stateId : String) : AlikeTick (fun _ _ => True)
    (TickProc.setState issueId stateId) (TickProc.setState issueId stateId) :=
  .call fun _ _ hr => .ret hr

theorem insertEvent_alike (e : AgentEvent) : AlikeTick (fun _ _ => True)
    (TickProc.post (.insertEvent e)) (TickProc.post (.insertEvent e)) :=
  .call fun _ _ hr => .ret hr

/-- A request that has to be answered with `True`. -/
theorem orRaise_sameText (exc : Exc) {r r' : Except Exc Bool} (h : SameText r r') :
    SameText (SupabaseStore.orRaise exc r) (SupabaseStore.orRaise exc r') := by
  cases h with
  | error he => exact .error he
  | @ok b _ heq =>
      cases heq
      cases b with
      | true => exact .ok rfl
      | false => exact .error (.refl exc)

theorem readTask_alike (taskId : String) : AlikeTick Eq (readTask taskId) (readTask taskId) := by
  have hget : AlikeTick Eq (TickProc.getTask taskId) (TickProc.getTask taskId) :=
    .call fun _ _ hr => .ret hr
  refine tick_bind hget fun task => ?_
  cases task with
  | none => exact tick_pure _
  | some task =>
      have hrun : AlikeTick Eq (TickProc.latestRun taskId) (TickProc.latestRun taskId) :=
        .call fun _ _ hr => .ret hr
      exact tick_bind hrun fun run => tick_pure _

theorem guardedRead_alike (bound : Int) : AlikeTick Eq (guardedRead bound) (guardedRead bound) := by
  refine tick_bind queryTodo_alike fun nodes => ?_
  dsimp only
  by_cases hnone : nodes.map (·.toLinearIssueSnapshot) = []
  · rw [if_pos hnone]
    exact tick_pure _
  · rw [if_neg hnone]
    refine tick_bind listTasks_alike fun tasks => ?_
    exact tick_bind (tick_settle (.refl _)) fun outcome => tick_pure _

theorem postEvent_alike (context : ExecutionContext) (kind : String) (payload : Mapping PyVal) :
    AlikeTick Eq (postEvent context kind payload) (postEvent context kind payload) := by
  refine tick_bind (tick_settle (.refl _)) fun body => ?_
  exact tick_bind_any (insertEvent_alike _) (tick_pure ())

/-! ## The layers under the pass -/

/-- The same of a call to Linear. -/
def SameLinear : (i : LinearCall) → i.Resp → i.Resp → Prop
  | .setState _ _, r, r' => SameText r r'

/-- The same of a call to the board. -/
def SameBoard : (i : BoardCall) → i.Resp → i.Resp → Prop
  | .listTasks, r, r' => SameText r r'
  | .createTask _, r, r' => SameText r r'

/-- The same of a call of the adapter. -/
def SameKanban : (i : KanbanCall) → i.Resp → i.Resp → Prop
  | .start _, r, r' => SameText r r'
  | .readTask _, r, r' => SameText r r'
  | .monotonic, r, r' => r = r'
  | .sleep _, _, _ => True

/-- A move that goes through is one, whatever Linear says of it. -/
theorem carryOutLinear_alike (i : LinearCall) :
    Alike SameReply (SameLinear i) (carryOutLinear i) (carryOutLinear i) := by
  cases i with
  | setState issueId stateId =>
      exact tick_bind_any (setState_alike issueId stateId) (tick_pure ())

theorem moveIssueStatus_alike (states : Mapping String) (byId : Mapping LinearNode)
    (identifier status : String) : Alike SameReply SameText
      (handle carryOutLinear (moveIssueStatus states byId identifier status).run)
      (handle carryOutLinear (moveIssueStatus states byId identifier status).run) := by
  have hself : Alike SameLinear SameText (moveIssueStatus states byId identifier status).run
      (moveIssueStatus states byId identifier status).run := by
    unfold moveIssueStatus
    cases byId.lookup identifier with
    | none => exact .ret (.ok rfl)
    | some target =>
        cases states.lookup status with
        | none => exact .ret (.ok rfl)
        | some stateId => exact .call fun _ _ hr => .ret hr
  exact hself.handle carryOutLinear_alike

theorem carryOutBoard_alike (i : BoardCall) :
    Alike SameReply (SameBoard i) (carryOutBoard i) (carryOutBoard i) := by
  cases i with
  | listTasks => exact .call fun _ _ hr => .ret hr
  | createTask draft => exact .call fun _ _ hr => .ret hr

theorem start_alike (context : ExecutionContext) :
    Alike SameBoard SameText (start context).run (start context).run := by
  unfold start
  by_cases hhuman : requiresHuman context = true
  · rw [if_pos hhuman]
    exact .ret (.error (.refl _))
  · rw [if_neg hhuman]
    have hlist : Alike SameBoard SameText listTasks.run listTasks.run := .call fun _ _ hr => .ret hr
    refine alike_run_bind hlist fun tasks tasks' heq => ?_
    cases heq
    cases truthy ((matchExistingCards tasks [context.linearIssueId]).lookup
        context.linearIssueId) with
    | some existing => exact .ret (.ok rfl)
    | none => exact .call fun _ _ hr => .ret hr

theorem carryOutKanban_alike (i : KanbanCall) :
    Alike SameReply (SameKanban i) (carryOutKanban i) (carryOutKanban i) := by
  cases i with
  | start context =>
      refine ((start_alike context).handle carryOutBoard_alike).bind fun o o' ho => ?_
      cases ho with
      | ok h => exact .ret (.ok (congrArg Sum.inl h))
      | error he => exact .ret (.error he)
  | readTask taskId => exact readTask_alike taskId
  | monotonic => exact .call fun _ _ hr => .ret hr
  | sleep seconds => exact .call fun _ _ _ => .ret trivial

/-! ## The adapter -/

section Adapter

/-- Parts of the adapter that go on alike. -/
abbrev AlikeKanban {α : Type} (x x' : KanbanProc α) : Prop :=
  Alike SameKanban (SameOutcome Exc.SameClass Eq) x.run x'.run

variable {α β : Type}

theorem kanban_bind {x x' : KanbanProc α} {f f' : α → KanbanProc β} (hx : AlikeKanban x x')
    (hf : ∀ a, AlikeKanban (f a) (f' a)) : AlikeKanban (x >>= f) (x' >>= f') :=
  alike_run_bind hx fun a b h => by
    cases h
    exact hf a

theorem kanban_readTask (taskId : String) :
    AlikeKanban (KanbanProc.readTask taskId) (KanbanProc.readTask taskId) :=
  .call fun _ _ hr => .ret hr

theorem kanban_monotonic : AlikeKanban KanbanProc.monotonic KanbanProc.monotonic :=
  .call fun _ _ hr => .ret (.ok hr)

theorem kanban_sleep (seconds : ℚ) :
    AlikeKanban (KanbanProc.sleep seconds) (KanbanProc.sleep seconds) :=
  .call fun _ _ _ => .ret (.ok rfl)

theorem pollLoop_alike (p : KanbanPolling) (context : ExecutionContext) (taskId : String)
    (deadline : ℚ) (fuel : ℕ) (snapshot : KanbanTaskSnapshot) (lastStatus : String)
    (events : List (String × RawPayload)) :
    AlikeKanban (pollLoop p context taskId deadline fuel snapshot lastStatus events)
      (pollLoop p context taskId deadline fuel snapshot lastStatus events) := by
  induction fuel generalizing snapshot lastStatus events with
  | zero => exact .ret (.ok rfl)
  | succ fuel ih =>
      unfold pollLoop
      by_cases hended : snapshot.status ∈ terminalDoneStatuses ++ terminalBlockedStatuses
      · rw [if_pos hended]
        exact .ret (.ok rfl)
      · rw [if_neg hended]
        cases KanbanDispatcherAdapter.failedOutcome snapshot with
        | some outcome => exact .ret (.ok rfl)
        | none =>
            refine kanban_bind kanban_monotonic fun now => ?_
            by_cases hlate : deadline ≤ now
            · rw [if_pos hlate]
              exact .ret (.ok rfl)
            · rw [if_neg hlate]
              refine kanban_bind (kanban_sleep _) fun _ => ?_
              refine kanban_bind (kanban_readTask taskId) fun next => ?_
              by_cases hchanged : next.status ≠ lastStatus
              · rw [if_pos hchanged]
                exact ih _ _ _
              · rw [if_neg hchanged]
                exact ih _ _ _

theorem adapterCall_alike (p : KanbanPolling) (fuel : ℕ) (context : ExecutionContext) :
    AlikeKanban (adapterCall p fuel context) (adapterCall p fuel context) := by
  have hstart : AlikeKanban (KanbanProc.start context) (KanbanProc.start context) :=
    .call fun _ _ hr => .ret hr
  refine kanban_bind hstart fun initial => ?_
  have hfirst : AlikeKanban (firstSnapshot initial) (firstSnapshot initial) := by
    cases initial with
    | inl taskId => exact kanban_readTask taskId
    | inr snapshot => exact .ret (.ok rfl)
  refine kanban_bind hfirst fun snapshot => ?_
  refine kanban_bind kanban_monotonic fun now => ?_
  refine kanban_bind (pollLoop_alike _ _ _ _ _ _ _ _) fun ended => ?_
  cases ended with
  | none => exact .ret (.ok rfl)
  | some ended => exact .ret (SameText.refl _)

theorem dispatchTask_alike (p : KanbanPolling) (fuel : ℕ) (context : ExecutionContext) :
    Alike SameReply SameText (dispatchTask p fuel context) (dispatchTask p fuel context) := by
  refine ((adapterCall_alike p fuel context).handle carryOutKanban_alike).bind fun o o' ho => ?_
  cases ho with
  | error he => exact .ret (.error he)
  | @ok result _ heq =>
      cases heq
      cases result with
      | none => exact .call fun r => r.elim
      | some result => exact .ret (.ok rfl)

end Adapter

/-! ## The pass -/

/-- **Each call of the pass is carried out alike.** -/
theorem carryOut_alike (t : TickScope) (fuel : ℕ) (i : Call) :
    Alike SameReply (SameAnswer i) (carryOut t fuel i) (carryOut t fuel i) := by
  cases i with
  | entropy => exact .call fun _ _ hr => .ret hr
  | claim context ttl => exact .call fun _ _ hr => .ret (orRaise_sameText _ hr)
  | lockRejected context reason => exact .ret (.refl _)
  | startHeartbeat context ttl => exact .call fun _ _ _ => .ret trivial
  | joinHeartbeat context => exact .call fun _ _ hr => .ret hr
  | moveStatus issueId status => exact moveIssueStatus_alike _ _ _ _
  | event context kind payload => exact postEvent_alike context kind payload
  | dispatch context => exact dispatchTask_alike _ _ _
  | finish context status fields => exact .call fun _ _ hr => .ret (orRaise_sameText _ hr)
  | recover issueId => exact .call fun _ _ hr => .ret hr
  | readIssues => exact guardedRead_alike _
  | recordBlocked issueId reason => exact .ret (.ok rfl)

/-- The results of the same turn, for reasons that may differ. -/
def SameResult (r r' : OrchestratorRunResult) : Prop :=
  r.issueId = r'.issueId ∧ r.status = r'.status ∧ r.runId = r'.runId

section Pass

variable {t : TickScope} {fuel : ℕ} {α β : Type}

/-- What a part of the pass does in the tick. -/
abbrev AlikePass {α β : Type} (t : TickScope) (fuel : ℕ) (R : α → β → Prop) (x : Proc α)
    (x' : Proc β) : Prop :=
  Alike SameReply (SameOutcome Exc.SameClass R) (handle (carryOut t fuel) x.run)
    (handle (carryOut t fuel) x'.run)

theorem AlikeProc.inTick {R : α → β → Prop} {x : Proc α} {x' : Proc β} (h : AlikeProc R x x') :
    AlikePass t fuel R x x' :=
  h.handle (carryOut_alike t fuel)

/-- The reason of a block is logged, and goes nowhere else. -/
theorem recordBlocked_inTick (records : Bool) (issueId reason reason' : String) :
    AlikePass t fuel Eq (Proc.when records (Proc.recordBlocked issueId reason))
      (Proc.when records (Proc.recordBlocked issueId reason')) := by
  cases records with
  | false => exact .ret (.ok rfl)
  | true => exact .ret (.ok rfl)

theorem processIssue_alike (orch : RuntimeOrchestrator) (issue : Issue) :
    AlikePass t fuel SameResult (orch.processIssue issue) (orch.processIssue issue) := by
  have hrecover : AlikeProc Eq (Proc.recover issue.identifier) (Proc.recover issue.identifier) :=
    alike_call fun _ _ hr => hr
  refine alike_handle_bind hrecover.inTick fun _ _ _ => ?_
  refine alike_handle_tryCatch ?_ fun exc exc' he => ?_
  · refine alike_handle_bind
      (execute_alike (fun _ _ => .refl _) orch.runtime orch.hasMove issue).inTick ?_
    intro context context' heq
    cases heq
    exact .ret (.ok ⟨rfl, rfl, rfl⟩)
  · rw [he.2.2.1, he.2.1]
    by_cases hconflict : exc'.isConflict = true
    · rw [if_pos hconflict, if_pos hconflict]
      refine alike_handle_bind (recordBlocked_inTick _ _ _ _) fun _ _ _ => ?_
      exact .ret (.ok ⟨rfl, rfl, rfl⟩)
    · rw [if_neg hconflict, if_neg hconflict]
      by_cases hblocked : exc'.isBlocked = true
      · rw [if_pos hblocked, if_pos hblocked]
        refine alike_handle_bind (recordBlocked_inTick _ _ _ _) fun _ _ _ => ?_
        exact .ret (.ok ⟨rfl, rfl, rfl⟩)
      · rw [if_neg hblocked, if_neg hblocked]
        exact .ret (.error he)

theorem processIssues_alike (orch : RuntimeOrchestrator) (decisions : List SelectionDecision) :
    AlikePass t fuel (List.Forall₂ SameResult) (orch.processIssues decisions)
      (orch.processIssues decisions) := by
  induction decisions with
  | nil => exact .ret (.ok .nil)
  | cons decision rest ih =>
      refine alike_handle_bind (processIssue_alike orch decision.issue) fun r r' hr => ?_
      refine alike_handle_bind ih fun rs rs' hrs => ?_
      exact .ret (.ok (.cons hr hrs))

/-- **The pass goes on alike.** -/
theorem runOnce_alike (orch : RuntimeOrchestrator) :
    AlikePass t fuel (List.Forall₂ SameResult) orch.runOnce orch.runOnce := by
  have hread : AlikeProc Eq Proc.readIssues Proc.readIssues := alike_call fun _ _ hr => hr
  have hsnapshots : ∀ snapshots, AlikeProc Eq (pollSnapshots orch.pollerRecords snapshots)
      (pollSnapshots orch.pollerRecords snapshots) := by
    intro snapshots
    induction snapshots with
    | nil => exact alike_same_pure _
    | cons snapshot rest ih =>
        have hrecord : ∀ reason, AlikeProc Eq (Proc.recordBlocked snapshot.identifier reason)
            (Proc.recordBlocked snapshot.identifier reason) :=
          fun reason => alike_call fun _ _ hr => hr
        refine alike_bind (alike_when (hrecord _)) fun _ => ?_
        exact alike_bind ih fun decisions => alike_same_pure _
  have hpoll : AlikeProc Eq (poll orch.pollerRecords) (poll orch.pollerRecords) :=
    alike_bind hread hsnapshots
  refine alike_handle_bind hpoll.inTick fun decisions decisions' heq => ?_
  cases heq
  exact processIssues_alike orch decisions

end Pass

/-! ## The tick -/

section Tick

variable {files : Files} {environ : Mapping String} {s : TickSettings} {fuel : ℕ}

theorem tickScope_alike :
    AlikeTick Eq (tickScope files environ s) (tickScope files environ s) := by
  refine tick_bind (tick_settle (.refl _)) fun environ' => ?_
  refine tick_bind (tick_settle (.refl _)) fun _ => ?_
  refine tick_bind queryTodo_alike fun nodes => ?_
  refine tick_bind (tick_settle (.refl _)) fun secrets => ?_
  refine tick_bind (tick_settle (.refl _)) fun _ => ?_
  refine tick_bind (tick_settle (.refl _)) fun runtime => ?_
  exact tick_bind (tick_settle (.refl _)) fun polling => tick_pure _

theorem main_alike :
    AlikeTick Eq (main files environ s fuel) (main files environ s fuel) := by
  refine tick_bind (tick_settle (.refl _)) fun missing => ?_
  by_cases hmissing : missing ≠ []
  · rw [if_pos hmissing]
    exact tick_pure 78
  · rw [if_neg hmissing]
    refine tick_bind tickScope_alike fun scope => ?_
    refine alike_run_tryCatch ?_ fun _ _ _ => tick_pure 1
    exact tick_bind_any (runOnce_alike (mainOrchestrator scope.runtime)) (tick_pure 0)

/-- **What a tick does not see.** Two ticks that start from the same files, environment and
settings, and are answered alike, make the same calls in the same order and end alike; stopped in
the middle, one has made the first calls of the other. -/
theorem tick_unseen :
    (∀ tr tr' o o', Returns (main files environ s fuel).run tr o →
      Returns (main files environ s fuel).run tr' o' → AnsweredAlike SameReply tr tr' →
        tr.map (·.1) = tr'.map (·.1) ∧ SameText o o') ∧
    ∀ tr tr' q q', Reach (main files environ s fuel).run tr q →
      Reach (main files environ s fuel).run tr' q' → AnsweredAlike SameReply tr tr' →
        tr.map (·.1) <+: tr'.map (·.1) ∨ tr'.map (·.1) <+: tr.map (·.1) :=
  ⟨fun _ _ _ _ h h' halike => main_alike.calls_eq h h' halike,
    fun _ _ _ _ h h' halike => main_alike.calls_prefix h h' halike⟩

end Tick

/-! ### Refused updates -/

/-- The answers of `sampleAnswers`, but that Linear makes no update. -/
def refusingAnswers : (i : TickCall) → Option i.Resp
  | .updateIssue _ _ => some (.document (some false))
  | i => sampleAnswers i

theorem refusingAnswers_alike (i : TickCall) (r r' : i.Resp) (h : sampleAnswers i = some r)
    (h' : refusingAnswers i = some r') : SameReply i r r' := by
  cases i with
  | updateIssue issueId stateId =>
      cases h
      cases h'
      exact .ok trivial
  | post op =>
      cases h
      cases h'
      cases op with
      | insertEvent e => exact .ok trivial
      | _ => exact .ok rfl
  | board i =>
      cases i with
      | listTasks =>
          cases h
          cases h'
          exact .ok rfl
      | createTask draft =>
          cases h
          cases h'
          exact .ok rfl
  | joinHeartbeat context =>
      cases h
      cases h'
      exact .nil
  | pollOn => cases h
  | entropy =>
      cases h
      cases h'
      exact rfl
  | monotonic =>
      cases h
      cases h'
      exact rfl
  | startHeartbeat => trivial
  | sleep => trivial
  | _ =>
      cases h
      cases h'
      exact .ok rfl

/-- The tick goes on as if the issue had been moved, and ends well. -/
theorem tick_unseen_refused : ∃ tr, Returns (main sampleFiles sampleEnviron {} 1).run tr (.ok 0) ∧
    tr.map (·.1) = sampleTick.map (·.1) ∧
    ∀ issueId stateId r, (⟨.updateIssue issueId stateId, r⟩ : TickEvent) ∈ tr →
      setStateOf r = .ok false := by
  have hsample : Returns (main sampleFiles sampleEnviron {} 1).run sampleTick (.ok 0) :=
    returns_advance (by decide)
  have hrefused : Returns (main sampleFiles sampleEnviron {} 1).run
      (advance refusingAnswers (main sampleFiles sampleEnviron {} 1).run).1 (.ok 0) :=
    returns_advance (by decide)
  have hcalls := (tick_unseen.1 _ _ _ _ hsample hrefused
    (answeredAlike_advance refusingAnswers_alike _ _)).1
  refine ⟨_, hrefused, hcalls.symm, fun issueId stateId r hmem => ?_⟩
  have hall : ∀ e ∈ (advance refusingAnswers (main sampleFiles sampleEnviron {} 1).run).1,
      refusingAnswers e.1 = some e.2 := answers_advance _ _
  cases hall _ hmem
  rfl

end HermesRuntime
